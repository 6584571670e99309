import EventOperator.Proofs.Query.Clearing.Bound
import EventOperator.Proofs.Query.Sequence

/-!
Insertions: `insert into target` and `insert kind events into target`. What is read of them is their
target.
-/

namespace EventOperator.Query

open EventOperator.Text

variable {w e i s t u v gap gap' back : List Char} {found : List Char × List Char}
  {source : Source} {kind? : Option Name}

theorem Source.plain_chars (source : Source) : source.plain.chars = source.chars := by
  cases source <;> rfl

theorem Name.exists_cons (name : Name) :
    ∃ c s, name.chars = c :: s ∧ isNameStart c = true ∧ ∀ d ∈ s, isWord d = true := by
  have hname := name.isName
  cases hchars : name.chars with
  | nil => exact absurd hchars hname.isRun.1
  | cons c s =>
      rw [hchars] at hname
      exact ⟨c, s, rfl, by simpa using hname.1, fun d hd => hname.2.1 d (List.mem_cons_of_mem c hd)⟩

theorem markedName?_source (source : Source) (hv : isWordAt v.head? = false) :
    markedName? (source.chars ++ v) = some (source.chars, v) := by
  cases source with
  | stream name =>
      obtain ⟨c, s, hchars, hc, -⟩ := name.exists_cons
      have hne : c ≠ '#' := ne_of_holds hc (by decide)
      have hword := wordRun?_append name.isName.isRun hv
      rw [hchars] at hword
      rw [Source.chars, hchars]
      exact (markedName?_of_ne hne (s ++ v)).trans hword
  | inner name => simp [Source.chars, markedName?, wordRun?_append name.isName.isRun hv]

theorem Source.isBlankAt_head? (source : Source) (v : List Char) :
    isBlankAt (source.chars ++ v).head? = false := by
  cases source with
  | stream name =>
      obtain ⟨c, s, hchars, hc, -⟩ := name.exists_cons
      rw [Source.chars, hchars]
      exact isBlank_of_isWord (isWord_of_isNameStart hc)
  | inner name => rfl

theorem Source.exists_inner (source : Source) (h : isWordAt (source.chars ++ v).head? = false) :
    ∃ name, source = .inner name := by
  cases source with
  | stream name =>
      rw [Source.chars, name.isName.isRun.isWordAt_head?] at h
      exact absurd h (by simp)
  | inner name => exact ⟨name, rfl⟩

theorem afterBlanks?_of_not_isBlankAt (h : isBlankAt s.head? = false) : afterBlanks? s = none := by
  cases hs : afterBlanks? s with
  | none => rfl
  | some rest => simp [isBlankAt_of_afterBlanks? (by simp [hs] : afterBlanks? s ≠ none)] at h

theorem isWordAt_head?_of_blanks (hback : ∀ c ∈ back, isBlank c = true) :
    isWordAt back.head? = false :=
  (apart_blanks hback (some 'a')).resolve_left (by decide)

theorem target?_into (hi : i.map Char.toLower = keyword "into")
    (hgap : ∀ c ∈ gap, isBlank c = true) (source : Source) (hback : ∀ c ∈ back, isBlank c = true)
    (hborder : isWordAt (gap ++ (source.chars ++ back)).head? = false) :
    target? (i ++ (gap ++ (source.chars ++ back))) =
      if gap = [] then none else some (source.chars, back) := by
  have hblank := source.isBlankAt_head? back
  rw [target?_eq, afterWord?_bind_afterBlanks? isLetters_into (isRun_of_toLower isLetters_into hi)
    hborder, if_pos (spells_of_toLower hi)]
  split
  · rename_i hnil
    rw [hnil, List.nil_append, afterBlanks?_of_not_isBlankAt hblank]
    rfl
  · rename_i hne
    rw [afterBlanks?_blanks hne hgap hblank]
    exact markedName?_source source (isWordAt_head?_of_blanks hback)

theorem target?_behind_events (source : Source) (hback : ∀ c ∈ back, isBlank c = true) :
    ((afterWord? (keyword "events") (source.chars ++ back)).bind afterBlanks?).bind target? =
      none := by
  have hend : (afterBlanks? back).bind target? = none := by
    cases back with
    | nil => rfl
    | cons c back =>
        have hall := afterBlanks?_blanks (List.cons_ne_nil c back) hback (v := []) rfl
        rw [List.append_nil] at hall
        rw [hall]
        rfl
  cases source with
  | stream name =>
      have hborder := isWordAt_head?_of_blanks hback
      rw [Source.chars, afterWord?_bind_afterBlanks? isLetters_events name.isName.isRun hborder]
      split
      · exact hend
      · rfl
  | inner name => rfl

def kindTokens : Option Name → List Token
  | none => []
  | some kind => [.plain kind.plain, .keyword (keyword "events") isLetters_events]

/-- What an insertion names behind `insert` and blanks, and the text behind that. -/
def inserted? (s : List Char) : Option (List Char × List Char) :=
  ((afterEventKind? s).bind target?).or (target? s)

theorem afterBlanks?_between (ht : isWordAt t.getLast? = true) (hgap : ∀ c ∈ gap, isBlank c = true)
    (hap : Apart t.getLast? (gap ++ v).head?) (hv : isWordAt v.head? = true) :
    afterBlanks? (gap ++ v) = some v :=
  afterBlanks?_word (ne_nil_of_words ht hap hv) hgap hv

theorem inserted?_into (hi : i.map Char.toLower = keyword "into")
    (hgap : ∀ c ∈ gap, isBlank c = true) (source : Source) (hback : ∀ c ∈ back, isBlank c = true)
    (hborder : isWordAt (gap ++ (source.chars ++ back)).head? = false) :
    inserted? (i ++ (gap ++ (source.chars ++ back))) =
      if gap = [] then none else some (source.chars, back) := by
  have hnone : (eventsBehind? (gap ++ (source.chars ++ back))).bind target? = none := by
    have hblank := source.isBlankAt_head? back
    rw [eventsBehind?]
    by_cases hne : gap = []
    · rw [hne, List.nil_append, afterBlanks?_of_not_isBlankAt hblank]
      rfl
    · rw [afterBlanks?_blanks hne hgap hblank]
      exact target?_behind_events source hback
  rw [inserted?, afterEventKind?_eq, wordRun?_append (isRun_of_toLower isLetters_into hi) hborder,
    Option.bind_some, hnone, Option.none_or, target?_into hi hgap source hback hborder]

theorem inserted?_events (hw : IsRun w) (hgap : ∀ c ∈ gap, isBlank c = true)
    (he : e.map Char.toLower = keyword "events") (hgap' : ∀ c ∈ gap', isBlank c = true)
    (hv : isWordAt v.head? = true) (hap : Apart w.getLast? (gap ++ (e ++ (gap' ++ v))).head?)
    (hap' : Apart e.getLast? (gap' ++ v).head?) (htarget : target? v = some found) :
    inserted? (w ++ (gap ++ (e ++ (gap' ++ v)))) = some found := by
  have hrun := isRun_of_toLower isLetters_events he
  have hborder := border_of_apart hw.isWordAt_getLast? hap
  have hborder' := border_of_apart hrun.isWordAt_getLast? hap'
  have hfirst := afterBlanks?_between hw.isWordAt_getLast? hgap hap (hrun.isWordAt_head? _)
  have hsecond := afterBlanks?_between hrun.isWordAt_getLast? hgap' hap' hv
  rw [inserted?, afterEventKind?_eq, wordRun?_append hw hborder, Option.bind_some, eventsBehind?,
    hfirst, Option.bind_some, afterWord?_bind_afterBlanks? isLetters_events hrun hborder',
    if_pos (spells_of_toLower he), hsecond, Option.bind_some, htarget]
  rfl

theorem inserted?_of_written (ht : isWordAt t.getLast? = true)
    (hu : Written (kindTokens kind?) u) (hi : i.map Char.toLower = keyword "into")
    (hstart : Apart t.getLast? (u ++ i).head?) (hbetween : Apart u.getLast? i.head?)
    (hgap : ∀ c ∈ gap, isBlank c = true) (hback : ∀ c ∈ back, isBlank c = true)
    (hap : Apart i.getLast? (gap ++ (source.chars ++ back)).head?)
    (hspaced : kind? = none ∨ gap ≠ []) :
    (afterBlanks? (u ++ (i ++ (gap ++ (source.chars ++ back))))).bind inserted? =
      if gap = [] then none else some (source.chars, back) := by
  have hrun := isRun_of_toLower isLetters_into hi
  have hinto := hrun.isWordAt_head? (gap ++ (source.chars ++ back))
  have hborder := border_of_apart hrun.isWordAt_getLast? hap
  have hstart' : Apart t.getLast? (u ++ (i ++ (gap ++ (source.chars ++ back)))).head? := by
    rw [← List.append_assoc]
    exact apart_head?_append hstart fun hnil =>
      absurd (List.append_eq_nil_iff.mp hnil).2 hrun.1
  cases kind? with
  | none =>
      rw [afterBlanks?_between ht hu.blanks_of_nil hstart' hinto]
      exact inserted?_into hi hgap source hback hborder
  | some kind =>
      have hne : gap ≠ [] := hspaced.resolve_left (by simp)
      obtain ⟨gap₁, w, x, rfl, hgap₁, rfl, hw, hx⟩ := hu.exists_append
      obtain ⟨gap₂, e, gap₃, rfl, hgap₂, he, -, hgap₃⟩ := hx.exists_append
      have hrun' := isRun_of_toLower isLetters_events he
      have hkind := kind.isName.isRun
      have hevents : Apart kind.plain.chars.getLast?
          (gap₂ ++ (e ++ (gap₃ ++ (i ++ (gap ++ (source.chars ++ back)))))).head? := by
        have hne' : gap₂ ++ e ≠ [] := by simp [hrun'.1]
        rw [← List.append_assoc gap₂, List.head?_append_of_ne_nil _ hne'] at hw ⊢
        exact hw
      have hlast : Apart e.getLast? (gap₃ ++ (i ++ (gap ++ (source.chars ++ back)))).head? := by
        have hinner := apart_of_append (apart_of_append hbetween)
        apply apart_of_blanks_behind hgap₃.blanks_of_nil
        rw [List.head?_append_of_ne_nil _ hrun.1]
        exact hinner
      simp only [List.append_assoc] at hstart' ⊢
      have hfirst := afterBlanks?_between ht hgap₁ hstart' (hkind.isWordAt_head? _)
      have htarget : target? (i ++ (gap ++ (source.chars ++ back))) = some (source.chars, back) := by
        rw [target?_into hi hgap source hback hborder, if_neg hne]
      rw [hfirst, if_neg hne]
      exact inserted?_events hkind hgap₂ he hgap₃.blanks_of_nil hinto hevents hlast htarget

theorem insertedName?_wordwise : insertedName?.Wordwise := insertedName?_stopsAt.toWordwise

theorem insertedName?_insert (hi : i.map Char.toLower = keyword "insert")
    (hv : isWordAt v.head? = false) :
    insertedName? none (i ++ v) =
      ((afterBlanks? v).bind inserted?).bind fun found =>
        some (taken (i ++ v) found.2 found.1) := by
  rw [insertedName?_eq, blanksBehind_run isLetters_insert (isRun_of_toLower isLetters_insert hi) hv,
    if_pos (spells_of_toLower hi), Option.bind_assoc]
  rfl

theorem captures_insertedName? (hi : i.map Char.toLower = keyword "insert")
    (hv : isWordAt (u ++ back).head? = false)
    (hnone : ∀ w ∈ words (u ++ back), ¬ Spells (keyword "insert") w)
    (hback : ∀ c ∈ back, isBlank c = true) (name? : Option (List Char))
    (hinserted : (afterBlanks? (u ++ back)).bind inserted? = name?.map (·, back)) :
    captures insertedName? (i ++ (u ++ back)) = name?.toList := by
  have hrun := isRun_of_toLower isLetters_insert hi
  have hmatch := insertedName?_insert hi hv
  rw [hinserted] at hmatch
  cases name? with
  | none =>
      rw [captures_of_scan_inl (insertedName?_wordwise.scan_run hrun hv hmatch)]
      exact insertedName?_wordwise.captures_eq_nil insertedName?_only hnone
  | some name =>
      have htakes : Takes insertedName? (i ++ u) back name := by
        refine ⟨by simp [hrun.1], ?_⟩
        rw [List.append_assoc, hmatch]
        rfl
      have hnext := insertedName?_wordwise.eq_of_apart (apart_blanks hback (i ++ u).getLast?)
      have hrest := captures_blanks insertedName?_wordwise hback []
      rw [List.append_nil] at hrest
      rw [← List.append_assoc, captures_of_scan_inr (scan_take htakes hnext), hrest]
      rfl

end EventOperator.Query
