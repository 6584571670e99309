import EventOperator.Proofs.Query.Clearing.Group

/-!
Conditions, time bounds and waiting times are taken out.
-/

namespace EventOperator.Query

open EventOperator.Text

variable {c : Char} {word w s t u v gap : List Char} {token : Token} {tokens : List Token}
  {text : Plain} {used : Nat} {phrase : Phrase} {rest phrases : List Phrase}

theorem condition?_eq : condition? =
    borderBehind (keyword "on") fun before s rest =>
      some (taken s (rest.drop (upToWord joinWords before rest).length) ()) := rfl

theorem isLetters_joinWords : ∀ word ∈ joinWords, IsLetters word := by decide

theorem joinWords_subset : ∀ word ∈ joinWords, word ∈ reservedWords := by decide

theorem condition?_wordwise : condition?.Wordwise := by
  rw [condition?_eq]
  exact borderBehind_wordwise isLetters_on

theorem condition?_takes (ht : t.map Char.toLower = keyword "on")
    (hborder : Apart t.getLast? (u ++ v).head?)
    (hcondition : upToWord joinWords t.getLast? (u ++ v) = u) : Takes condition? (t ++ u) v () := by
  have hrun := isRun_of_toLower isLetters_on ht
  have hhead : isWordAt (u ++ v).head? = false := hborder.resolve_left (by
    simp [hrun.isWordAt_getLast?])
  refine ⟨by simp [hrun.1], ?_⟩
  rw [List.append_assoc, condition?_eq, borderBehind_run isLetters_on hrun hhead,
    if_pos (spells_of_toLower ht), hcondition, List.drop_left]

theorem Written.of_blanks (hgap : ∀ c ∈ gap, isBlank c = true) (hstarts : token.Starts)
    (h : Written (token :: tokens) (gap ++ s)) : Written (token :: tokens) s := by
  obtain ⟨gap', t, v, hs, hgap', ht, hap, hv⟩ := h.exists_append
  obtain ⟨c, t', hct, hc⟩ := hstarts t ht
  have hdrop : s.dropWhile isBlank = t ++ v := by
    rw [← dropWhile_blanks hgap, hs, dropWhile_blanks hgap', hct, List.cons_append,
      List.dropWhile_cons, hc.1]
    rfl
  rw [← List.takeWhile_append_dropWhile (p := isBlank) (l := s), hdrop]
  exact .cons (fun c hc => List.all_eq_true.mp List.all_takeWhile c hc) ht hap hv

theorem Written.not_spells_of_plain (h : Written [.plain text] s) (hword : word ∈ reservedWords) :
    ∀ w ∈ words s, ¬ Spells word w := by
  apply h.not_spells hword
  intro token htoken
  obtain rfl := List.mem_singleton.mp htoken
  exact id

theorem condition?_not_spells {d : Condition} (h : Written [.plain d.plain] s) :
    ∀ w ∈ words s, ∀ word ∈ joinWords, ¬ Spells word w :=
  fun w hw word hword => h.not_spells_of_plain (joinWords_subset word hword) w hw

theorem clears_condition?_last (d : Condition) : Clears condition? 3 (.condition d) [] := by
  intro u v hu hv hap hrest
  obtain ⟨gap, t, s, rfl, hgap, ht, hts, hs⟩ := hu.exists_append
  have hblanks := hv.blanks_of_nil
  have hborder := apart_behind hts hap
  have hall : ∀ w ∈ words (s ++ v), ∀ word ∈ joinWords, ¬ Spells word w := by
    rw [words_append (apart_of_append (apart_of_append hap)), words_blanks hblanks,
      List.append_nil]
    exact condition?_not_spells hs
  have hend : ∃ y gap', s ++ v = y ++ gap' ∧
      upToWord joinWords t.getLast? (y ++ gap') = y ∧ ∀ c ∈ gap', isBlank c = true := by
    rcases upToWord_eq isLetters_joinWords hall hborder with h | h
    · exact ⟨s ++ v, [], by simp, by simpa using h, by simp⟩
    · exact ⟨_, ['\n'], h, by rw [← h], by decide⟩
  obtain ⟨y, gap', hy, hcondition, hgap'⟩ := hend
  rw [hy] at hborder
  have htakes : Takes condition? (t ++ y) (gap' ++ []) () := by
    rw [List.append_nil]
    exact condition?_takes ht hborder hcondition
  have hmatch := blankOut_match condition?_wordwise.skipsBlanks hgap hgap' htakes
    (by rw [List.append_nil]; exact apart_blanks hgap' _)
  have htext : gap ++ (t ++ s) ++ v = gap ++ (t ++ y ++ (gap' ++ [])) := by
    rw [List.append_nil, List.append_assoc, List.append_assoc, hy, List.append_assoc]
  rw [htext, hmatch, blankOut_nil, List.append_nil]
  exact .nil (mem_blanks_around hgap hgap')

/-- A condition in front of a join is taken out up to the word that begins the join. -/
theorem clears_condition?_join (d : Condition) {w : List Char} (hw : w ∈ plainWords)
    (hjoin : w ∈ joinWords) : Clears condition? 3 (.condition d) (.word w hw :: rest) := by
  intro u v hu hv hap hrest
  obtain ⟨gap, t, s, rfl, hgap, ht, hts, hs⟩ := hu.exists_append
  obtain ⟨gap', t', s', rfl, hgap', ht', hts', -⟩ := hv.exists_append
  have hrun := isRun_of_toLower (isLetters_plainWords w hw) ht'
  have hstands : wordStands joinWords none (t' ++ s') = true :=
    (wordStands_run isLetters_joinWords rfl hrun
      (border_of_apart hrun.isWordAt_getLast? hts')).mpr
      ⟨w, hjoin, spells_of_toLower ht'⟩
  have hall : ∀ w ∈ words (s ++ gap'), ∀ word ∈ joinWords, ¬ Spells word w := by
    rw [words_append (apart_blanks hgap' _), words_blanks hgap', List.append_nil]
    exact condition?_not_spells hs
  have hborder : Apart t.getLast? (s ++ gap' ++ (t' ++ s')).head? := by
    rw [List.append_assoc]
    exact apart_behind hts hap
  have hend : Apart (s ++ gap').getLast? (t' ++ s').head? := by
    apply apart_getLast?_append (apart_of_blanks hgap' _)
    rintro rfl
    exact apart_of_append (apart_of_append hap)
  have hcondition := upToWord_append isLetters_joinWords hall hstands hborder hend
  have htakes : Takes condition? (t ++ (s ++ gap')) ([] ++ (t' ++ s')) () :=
    condition?_takes ht hborder hcondition
  have hmatch := blankOut_match condition?_wordwise.skipsBlanks hgap (by simp) htakes
    (apart_getLast?_append hend fun h => by rwa [h, List.nil_append] at hborder)
  have htext : gap ++ (t ++ s) ++ (gap' ++ (t' ++ s')) =
      gap ++ (t ++ (s ++ gap') ++ ([] ++ (t' ++ s'))) := by simp
  rw [blankOut_of_scan_inl (scan_blanks condition?_wordwise.skipsBlanks hgap' _)] at hrest
  rw [htext, hmatch]
  exact (Written.of_blanks hgap' (starts_keyword _ _) hrest).blanks
    (mem_blanks_around hgap (by simp))

theorem clears_condition? (hchain : (phrase :: rest).IsChain Adjoins) :
    Clears condition? 3 phrase rest := by
  have honly : condition?.Only (Spells (keyword "on")) := by
    rw [condition?_eq]
    exact borderBehind_only isLetters_on
  have hother : phrase.left 4 = phrase.left 3 → phrase.keyword? ≠ some (keyword "on") →
      Clears condition? 3 phrase rest := fun hsame hne =>
    clears_of_keyword condition?_wordwise honly (by decide) hsame hne
  cases phrase with
  | condition d =>
      cases rest with
      | nil => exact clears_condition?_last d
      | cons next rest =>
          obtain ⟨w, hw, rfl, hjoin⟩ := (List.isChain_cons_cons.mp hchain).1.condition d rfl
          exact clears_condition?_join d hw hjoin
  | word w hw => exact hother rfl (Phrase.keyword?_word_ne hw (by decide))
  | _ => exact hother rfl (by simp [Phrase.keyword?, keyword])

theorem timeBound?_eq : timeBound? =
    borderBehind (keyword "within") fun _ s _ => some (taken s [] ()) := rfl

theorem timeBound?_wordwise : timeBound?.Wordwise := by
  rw [timeBound?_eq]
  exact borderBehind_wordwise isLetters_within

theorem scan_timeBound? (hphrase : phrase.isTimeBound = false) (hu : Written (phrase.left 4) u)
    (hap : Apart u.getLast? v.head?) :
    scan timeBound? (u ++ v) = u.map .inl ++ scan timeBound? v := by
  have honly : timeBound?.Only (Spells (keyword "within")) := by
    rw [timeBound?_eq]
    exact borderBehind_only isLetters_within
  have hne : phrase.keyword? ≠ some (keyword "within") := by
    cases phrase with
    | timeBound n unit => exact nomatch hphrase
    | word w hw => exact Phrase.keyword?_word_ne hw (by decide)
    | _ => simp [Phrase.keyword?, keyword]
  refine timeBound?_wordwise.scan_append honly ?_ hap
  exact hu.not_spells (by decide) fun token htoken hkeyword =>
    hne (Phrase.keyword?_of_isKeyword htoken hkeyword)

theorem isBlank_of_mem_bounded (n : Numeral) (unit : Name) (rest : List Phrase)
    (h : Written (remains 4 (.timeBound n unit :: rest)) s) :
    ∀ c ∈ blankOut timeBound? s, isBlank c = true := by
  rw [remains_cons] at h
  obtain ⟨gap, t, v, rfl, hgap, ht, hborder, -⟩ := h.exists_append
  have hrun := isRun_of_toLower isLetters_within ht
  have htakes : Takes timeBound? (t ++ v) ([] ++ []) () := by
    refine ⟨by simp [hrun.1], ?_⟩
    rw [List.append_nil, List.append_nil, timeBound?_eq, borderBehind_run isLetters_within hrun
      (border_of_apart hrun.isWordAt_getLast? hborder), if_pos (spells_of_toLower ht)]
  have hmatch := blankOut_match timeBound?_wordwise.skipsBlanks hgap (by simp) htakes (Or.inr rfl)
  rw [List.append_nil, List.append_nil, blankOut_nil, List.append_nil] at hmatch
  rw [hmatch]
  exact mem_blanks_around hgap (by simp)

theorem Written.blankOut_timeBound? (h : Written (remains 4 phrases) s) :
    Written (remains 5 (upToBound phrases)) (Text.blankOut timeBound? s) := by
  induction phrases generalizing s with
  | nil =>
      have hscan := scan_blanks timeBound?_wordwise.skipsBlanks h.blanks_of_nil []
      rw [List.append_nil] at hscan
      rw [blankOut_eq_scan, hscan]
      exact .nil (by simpa using h.blanks_of_nil)
  | cons phrase rest ih =>
      cases hphrase : phrase.isTimeBound with
      | true =>
          cases phrase with
          | timeBound n unit => exact .nil (isBlank_of_mem_bounded n unit rest h)
          | _ => exact nomatch hphrase
      | false =>
          have hsame : phrase.left 5 = phrase.left 4 := by
            cases phrase with
            | timeBound n unit => exact nomatch hphrase
            | _ => rfl
          rw [remains_cons] at h
          obtain ⟨u, v, rfl, hu, hv, hap⟩ := h.split
          rw [upToBound_cons hphrase, remains_cons, hsame,
            blankOut_of_scan_inl (scan_timeBound? hphrase hu hap)]
          exact hu.append (ih hv) (apart_blankOut hap)

/-- The number at the front of a text and the word behind it, as what is taken out. -/
def numberBehind (s rest : List Char) : Option (Nat × Unit) :=
  rest.head?.bind fun c =>
    if isDigit c then
      some (taken s (((rest.dropWhile isNumberChar).dropWhile isBlank).dropWhile isWord) ())
    else none

theorem waiting?_eq : waiting? = blanksBehind (keyword "for") numberBehind := by
  funext before s
  unfold waiting? blanksBehind numberBehind
  congr 1
  funext _
  congr 1
  funext behind
  congr 1
  funext rest
  cases rest.head? with
  | none => rfl
  | some c => exact guard_bind _ _

theorem waiting?_wordwise : waiting?.Wordwise := by
  rw [waiting?_eq]
  exact blanksBehind_wordwise isLetters_for

theorem ne_nil_of_words (ht : isWordAt t.getLast? = true) (hap : Apart t.getLast? (gap ++ v).head?)
    (hv : isWordAt v.head? = true) : gap ≠ [] := by
  rintro rfl
  rcases hap with h | h
  · simp [ht] at h
  · simp [hv] at h

theorem afterBlanks?_word (hne : gap ≠ []) (hgap : ∀ c ∈ gap, isBlank c = true)
    (hv : isWordAt v.head? = true) : afterBlanks? (gap ++ v) = some v := by
  apply afterBlanks?_blanks hne hgap
  cases hblank : isBlankAt v.head? with
  | false => rfl
  | true => simp [isWordAt_of_isBlankAt hblank] at hv

theorem isWordAt_head?_blanks (hne : gap ≠ []) (hgap : ∀ c ∈ gap, isBlank c = true)
    (v : List Char) : isWordAt (gap ++ v).head? = false := by
  cases gap with
  | nil => exact absurd rfl hne
  | cons c gap => exact isWord_of_isBlank (hgap c List.mem_cons_self)

theorem Numeral.isWordAt_head? (n : Numeral) (v : List Char) :
    isWordAt (n.chars ++ v).head? = true := by
  have hdigit := n.isNumeral.1
  cases hn : n.chars with
  | nil => simp [hn] at hdigit
  | cons c s =>
      rw [hn] at hdigit
      exact isWord_of_isDigit (by simpa using hdigit)

theorem numberBehind_append (n : Numeral) {unit : List Char} (hunit : IsRun unit)
    (hgap : ∀ c ∈ gap, isBlank c = true) (hne : gap ≠ []) (hv : isWordAt v.head? = false)
    (s : List Char) :
    numberBehind s (n.chars ++ (gap ++ (unit ++ v))) = some (taken s v ()) := by
  have hnumber : (n.chars ++ (gap ++ (unit ++ v))).dropWhile isNumberChar =
      gap ++ (unit ++ v) := by
    apply dropWhile_append_stop n.isNumeral.2.1
    cases gap with
    | nil => exact absurd rfl hne
    | cons c gap =>
        intro d hd
        obtain rfl := Option.some.inj hd
        have hblank := hgap c List.mem_cons_self
        have hdot : c ≠ '.' := ne_of_holds hblank (by decide)
        simp [isNumberChar, isWord_of_isBlank hblank, hdot]
  have hblanks : (gap ++ (unit ++ v)).dropWhile isBlank = unit ++ v := by
    apply dropWhile_append_stop hgap
    intro d hd
    have hword := hunit.isWordAt_head? v
    rw [hd] at hword
    cases hblank : isBlank d with
    | false => rfl
    | true => simp [isWord_of_isBlank hblank] at hword
  have hword : (unit ++ v).dropWhile isWord = v :=
    dropWhile_append_stop hunit.2 (isWord_false_of_head? hv)
  have hdigit := n.isNumeral.1
  cases hn : n.chars with
  | nil => simp [hn] at hdigit
  | cons c m =>
      rw [hn] at hdigit hnumber
      have hc : isDigit c = true := by simpa using hdigit
      simp only [numberBehind, hnumber, hblanks, hword]
      simp [hc]

theorem waiting?_takes {gap₁ gap₂ unit : List Char} (ht : t.map Char.toLower = keyword "for")
    (hgap₁ : ∀ c ∈ gap₁, isBlank c = true) (hne₁ : gap₁ ≠ []) (n : Numeral)
    (hgap₂ : ∀ c ∈ gap₂, isBlank c = true) (hne₂ : gap₂ ≠ []) (hunit : IsRun unit)
    (hv : isWordAt v.head? = false) :
    Takes waiting? (t ++ (gap₁ ++ (n.chars ++ (gap₂ ++ unit)))) v () := by
  have hrun := isRun_of_toLower isLetters_for ht
  refine ⟨by simp [hrun.1], ?_⟩
  simp only [List.append_assoc]
  rw [waiting?_eq, blanksBehind_run isLetters_for hrun (isWordAt_head?_blanks hne₁ hgap₁ _),
    if_pos (spells_of_toLower ht), afterBlanks?_word hne₁ hgap₁ (n.isWordAt_head? _),
    Option.bind_some, numberBehind_append n hunit hgap₂ hne₂ hv]

theorem clears_waiting? : Clears waiting? 5 phrase rest := by
  have honly : waiting?.Only (Spells (keyword "for")) := by
    rw [waiting?_eq]
    exact blanksBehind_only isLetters_for
  have hother : phrase.left 6 = phrase.left 5 → phrase.keyword? ≠ some (keyword "for") →
      Clears waiting? 5 phrase rest := fun hsame hne =>
    clears_of_keyword waiting?_wordwise honly (by decide) hsame hne
  cases phrase with
  | waiting n unit =>
      apply clears_of_match waiting?_wordwise.skipsBlanks rfl
      intro u v hu hap
      obtain ⟨gap, t, s, rfl, hgap, ht, hts, hs⟩ := hu.exists_append
      obtain ⟨gap₁, _, s₁, rfl, hgap₁, rfl, hns, hs₁⟩ := hs.exists_append
      obtain ⟨gap₂, gap₃, rfl, hgap₂, hgap₃⟩ := hs₁.exists_singleton
      have hunit := unit.isName.isRun
      have hne₁ := ne_nil_of_words (isRun_of_toLower isLetters_for ht).isWordAt_getLast? hts
        (n.isWordAt_head? _)
      have hne₂ := ne_nil_of_words n.isNumeral.2.2.1 hns (hunit.isWordAt_head? gap₃)
      have hborder : isWordAt (gap₃ ++ v).head? = false := by
        have hapart : Apart unit.chars.getLast? (gap₃ ++ v).head? := by
          apply apart_of_blanks_behind hgap₃
          exact apart_of_append (apart_of_append (apart_of_append (apart_of_append hap)))
        exact border_of_apart hunit.isWordAt_getLast? hapart
      refine ⟨gap, _, gap₃, ?_, hgap, hgap₃,
        waiting?_takes ht hgap₁ hne₁ n hgap₂ hne₂ hunit hborder⟩
      simp [Name.plain, Numeral.plain]
  | word w hw => exact hother rfl (Phrase.keyword?_word_ne hw (by decide))
  | _ => exact hother rfl (by simp [Phrase.keyword?, keyword])

end EventOperator.Query
