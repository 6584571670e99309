import EventOperator.Proofs.Text.Run

/-!
Keywords are read as whole runs: what follows a keyword is a blank or another border, so a keyword
is found exactly where a run spells it.
-/

namespace EventOperator.Text

variable {β : Type} {word w v s rest : List Char} {words : List (List Char)}
  {before after : Option Char} {letter c : Char}

def IsLetters (word : List Char) : Prop := word ≠ [] ∧ ∀ c ∈ word, c.isLower = true

instance (word : List Char) : Decidable (IsLetters word) := inferInstanceAs (Decidable (_ ∧ _))

theorem isUpper_iff : c.isUpper = true ↔ 65 ≤ c.toNat ∧ c.toNat ≤ 90 := decide_eq_true_iff

theorem isLower_iff : c.isLower = true ↔ 97 ≤ c.toNat ∧ c.toNat ≤ 122 :=
  (Bool.and_eq_true _ _).to_iff.trans (and_congr decide_eq_true_iff decide_eq_true_iff)

theorem isAlpha_iff : c.isAlpha = true ↔ c.isUpper = true ∨ c.isLower = true :=
  (Bool.or_eq_true _ _).to_iff

theorem isWord_of_isAlpha (h : c.isAlpha = true) : isWord c = true :=
  isWord_of_isAlphanum ((Bool.or_eq_true _ _).mpr (Or.inl h))

theorem isWord_of_isLower (h : c.isLower = true) : isWord c = true :=
  isWord_of_isAlpha (isAlpha_iff.mpr (Or.inr h))

theorem isWord_of_isUpper (h : c.isUpper = true) : isWord c = true :=
  isWord_of_isAlpha (isAlpha_iff.mpr (Or.inl h))

theorem toLower_eq_or_isUpper (c : Char) : c.toLower = c ∨ c.isUpper = true := by
  unfold Char.toLower
  split
  · rename_i hrange
    exact Or.inr (isUpper_iff.mpr hrange)
  · exact Or.inl rfl

theorem isWord_of_isLower_toLower (h : c.toLower.isLower = true) : isWord c = true := by
  rcases toLower_eq_or_isUpper c with heq | hupper
  · exact isWord_of_isLower (heq ▸ h)
  · exact isWord_of_isUpper hupper

theorem isWord_of_sameLetter (hletter : letter.isLower = true) (h : sameLetter letter c = true) :
    isWord c = true := by
  simp only [sameLetter, Bool.or_eq_true, Bool.and_eq_true, decide_eq_true_eq] at h
  rcases h with ((h | ⟨-, rfl | rfl⟩) | ⟨-, rfl⟩) | ⟨-, rfl⟩
  · exact isWord_of_isLower_toLower (h ▸ hletter)
  all_goals decide +kernel

theorem sameLetter_toLower (c : Char) : sameLetter c.toLower c = true := by
  simp [sameLetter]

/-- Only `i`, `k` and `s` have other spellings than their capitals. -/
def hasTwins (letter : Char) : Bool := letter = 'i' || letter = 'k' || letter = 's'

theorem toLower_eq_of_sameLetter (h : sameLetter letter c = true)
    (hplain : hasTwins letter = false ∨ c.toNat < 128) : c.toLower = letter := by
  simp only [sameLetter, Bool.or_eq_true, Bool.and_eq_true, decide_eq_true_eq] at h
  rcases h with ((h | ⟨rfl, rfl | rfl⟩) | ⟨rfl, rfl⟩) | ⟨rfl, rfl⟩
  · exact h
  all_goals exact absurd hplain (by decide)

def Spells (word w : List Char) : Prop := afterWord? word w = some []

instance (word w : List Char) : Decidable (Spells word w) := inferInstanceAs (Decidable (_ = _))

theorem afterWord?_append (h : Spells word w) (v : List Char) :
    afterWord? word (w ++ v) = some v := by
  induction word generalizing w with
  | nil =>
      cases w with
      | nil => rfl
      | cons c w => simp [Spells, afterWord?] at h
  | cons letter word ih =>
      cases w with
      | nil => simp [Spells, afterWord?] at h
      | cons c w =>
          simp only [Spells, afterWord?, List.cons_append] at h ⊢
          split at h
          · rename_i hc
            rw [if_pos hc]
            exact ih h
          · exact absurd h (by simp)

theorem exists_spelling (h : afterWord? word s = some rest) :
    ∃ w, s = w ++ rest ∧ Spells word w := by
  induction word generalizing s with
  | nil => exact ⟨[], by simpa [afterWord?] using h, rfl⟩
  | cons letter word ih =>
      cases s with
      | nil => simp [afterWord?] at h
      | cons c s =>
          simp only [afterWord?] at h
          split at h
          · rename_i hc
            obtain ⟨w, hs, hw⟩ := ih h
            refine ⟨c :: w, by simp [hs], ?_⟩
            simpa [Spells, afterWord?, hc] using hw
          · exact absurd h (by simp)

theorem Spells.isRun (hletters : IsLetters word) (h : Spells word w) : IsRun w := by
  obtain ⟨hne, hlower⟩ := hletters
  have hall : ∀ c ∈ w, isWord c = true := by
    clear hne
    induction word generalizing w with
    | nil =>
        cases w with
        | nil => simp
        | cons c w => simp [Spells, afterWord?] at h
    | cons letter word ih =>
        cases w with
        | nil => simp
        | cons c w =>
            simp only [Spells, afterWord?] at h
            split at h
            · rename_i hc
              intro d hd
              rcases List.mem_cons.mp hd with rfl | hd
              · exact isWord_of_sameLetter (hlower letter List.mem_cons_self) hc
              · exact ih h (fun e he => hlower e (List.mem_cons_of_mem letter he)) d hd
            · exact absurd h (by simp)
  refine ⟨?_, hall⟩
  rintro rfl
  cases word with
  | nil => exact hne rfl
  | cons letter word => simp [Spells, afterWord?] at h

theorem spells_of_toLower (h : w.map Char.toLower = word) : Spells word w := by
  subst h
  induction w with
  | nil => rfl
  | cons c w ih => simpa [Spells, afterWord?, sameLetter_toLower] using ih

theorem Spells.toLower_eq (h : Spells word w)
    (hplain : (∀ letter ∈ word, hasTwins letter = false) ∨ ∀ c ∈ w, c.toNat < 128) :
    w.map Char.toLower = word := by
  induction word generalizing w with
  | nil =>
      cases w with
      | nil => rfl
      | cons c w => simp [Spells, afterWord?] at h
  | cons letter word ih =>
      cases w with
      | nil => simp [Spells, afterWord?] at h
      | cons c w =>
          simp only [Spells, afterWord?] at h
          split at h
          · rename_i hc
            have hfirst := toLower_eq_of_sameLetter hc
              (hplain.imp (fun h => h letter List.mem_cons_self) fun h => h c List.mem_cons_self)
            have hrest := ih h (hplain.imp (fun h d hd => h d (List.mem_cons_of_mem letter hd))
              fun h d hd => h d (List.mem_cons_of_mem c hd))
            rw [List.map_cons, hfirst, hrest]
          · exact absurd h (by simp)

theorem IsRun.append_inj (hw : IsRun w) {w' v' : List Char} (hw' : IsRun w')
    (hv : isWordAt v.head? = false) (hv' : isWordAt v'.head? = false)
    (h : w ++ v = w' ++ v') : w = w' ∧ v = v' := by
  have hrun := wordRun?_append hw hv
  rw [h, wordRun?_append hw' hv'] at hrun
  simp only [Option.some.injEq, Prod.mk.injEq] at hrun
  exact ⟨hrun.1.symm, hrun.2.symm⟩

theorem afterWord?_run (hletters : IsLetters word) (hw : IsRun w) (hv : isWordAt v.head? = false)
    (h : afterWord? word (w ++ v) = some rest) (hrest : isWordAt rest.head? = false) :
    Spells word w ∧ rest = v := by
  obtain ⟨w', heq, hspells⟩ := exists_spelling h
  obtain ⟨rfl, rfl⟩ := hw.append_inj (hspells.isRun hletters) hv hrest heq
  exact ⟨hspells, rfl⟩

theorem isWordAt_of_afterWord? (hletters : IsLetters word) (h : afterWord? word s ≠ none) :
    isWordAt s.head? = true := by
  obtain ⟨rest, hrest⟩ := Option.ne_none_iff_exists'.mp h
  obtain ⟨w, rfl, hspells⟩ := exists_spelling hrest
  exact (hspells.isRun hletters).isWordAt_head? rest

def isBlankAt : Option Char → Bool
  | none => false
  | some c => isBlank c

theorem isWord_of_isBlank (h : isBlank c = true) : isWord c = false := by
  have hcodes : ∀ range ∈ blankRanges, ∀ code ∈ List.range' range.1 (range.2 + 1 - range.1),
      isWord (Char.ofNat code) = false := by decide +kernel
  obtain ⟨range, hmem, hlow, hhigh⟩ := (inRanges_iff (by decide)).mp h
  rw [← Char.ofNat_toNat c]
  exact hcodes range hmem c.toNat (by rw [List.mem_range'_1]; omega)

theorem isBlank_of_isWord (h : isWord c = true) : isBlank c = false := by
  cases hblank : isBlank c with
  | false => rfl
  | true => simp [isWord_of_isBlank hblank] at h

theorem isBlankAt_of_afterBlanks? (h : afterBlanks? s ≠ none) : isBlankAt s.head? = true := by
  cases s with
  | nil => exact absurd rfl h
  | cons c s =>
      simp only [afterBlanks?] at h
      split at h
      · assumption
      · exact absurd rfl h

theorem isWordAt_of_isBlankAt (h : isBlankAt before = true) : isWordAt before = false := by
  cases before with
  | none => rfl
  | some c => exact isWord_of_isBlank h

theorem afterBlanks?_blanks {gap : List Char} (hne : gap ≠ []) (hgap : ∀ c ∈ gap, isBlank c = true)
    (hv : isBlankAt v.head? = false) : afterBlanks? (gap ++ v) = some v := by
  cases gap with
  | nil => exact absurd rfl hne
  | cons c gap =>
      have hdrop : (gap ++ v).dropWhile isBlank = v :=
        dropWhile_append_stop (fun d hd => hgap d (List.mem_cons_of_mem c hd)) fun d hd => by
          simpa [hd, isBlankAt] using hv
      simp [afterBlanks?, hgap c List.mem_cons_self, hdrop]

theorem afterWord?_bind_afterBlanks? (hletters : IsLetters word) (hw : IsRun w)
    (hv : isWordAt v.head? = false) :
    (afterWord? word (w ++ v)).bind afterBlanks? =
      if Spells word w then afterBlanks? v else none := by
  split
  · rename_i hspells
    rw [afterWord?_append hspells]
    rfl
  · rename_i hspells
    cases hrest : afterWord? word (w ++ v) with
    | none => rfl
    | some rest =>
        cases hblanks : afterBlanks? rest with
        | none => simp [hblanks]
        | some behind =>
            have hblank := isBlankAt_of_afterBlanks? (by simp [hblanks] : afterBlanks? rest ≠ none)
            exact absurd (afterWord?_run hletters hw hv hrest (isWordAt_of_isBlankAt hblank)).1
              hspells

theorem isEdge_of_border (h : isWordAt before = false) : isEdge before after = isWordAt after := by
  simp [isEdge, h]

theorem lastBefore_append (before : Option Char) (u v : List Char) :
    lastBefore before (u ++ v) v = u.getLast?.or before := by
  unfold lastBefore
  simp only [List.length_append, Nat.add_sub_cancel, List.take_left]
  cases u.getLast? <;> rfl

theorem lastBefore_spelling (hletters : IsLetters word) (h : afterWord? word s = some rest) :
    isWordAt (lastBefore before s rest) = true := by
  obtain ⟨w, rfl, hspells⟩ := exists_spelling h
  have hlast := (hspells.isRun hletters).isWordAt_getLast?
  rw [lastBefore_append]
  cases hw : w.getLast? with
  | none => simp [hw] at hlast
  | some c => simpa [hw] using hlast

theorem afterWholeWord?_eq_some_iff (hletters : IsLetters word) :
    afterWholeWord? word before s = some rest ↔
      isWordAt before = false ∧ afterWord? word s = some rest ∧ isWordAt rest.head? = false := by
  unfold afterWholeWord?
  cases hword : afterWord? word s with
  | none => simp
  | some behind =>
      have hs := isWordAt_of_afterWord? hletters (by simp [hword] : afterWord? word s ≠ none)
      have hfirst : isEdge before s.head? = !isWordAt before := by simp [isEdge, hs]
      have hlast : isEdge (lastBefore before s behind) behind.head? = !isWordAt behind.head? := by
        simp [isEdge, lastBefore_spelling hletters hword]
      simp only [hfirst, hlast, Option.some.injEq]
      constructor
      · intro h
        cases hbefore : isWordAt before <;> cases hbehind : isWordAt behind.head? <;>
          simp_all
      · rintro ⟨hbefore, rfl, hbehind⟩
        simp [hbefore, hbehind]

theorem afterWholeWord?_run (hletters : IsLetters word) (hw : IsRun w)
    (hv : isWordAt v.head? = false) :
    afterWholeWord? word none (w ++ v) = if Spells word w then some v else none := by
  split
  · rename_i hspells
    exact (afterWholeWord?_eq_some_iff hletters).mpr ⟨rfl, afterWord?_append hspells v, hv⟩
  · rename_i hspells
    cases hrest : afterWholeWord? word none (w ++ v) with
    | none => rfl
    | some rest =>
        obtain ⟨-, hword, hborder⟩ := (afterWholeWord?_eq_some_iff hletters).mp hrest
        exact absurd (afterWord?_run hletters hw hv hword hborder).1 hspells

theorem afterWholeWord?_border (hletters : IsLetters word) (h : isWordAt before = false) :
    afterWholeWord? word before s = afterWholeWord? word none s := by
  ext rest
  rw [afterWholeWord?_eq_some_iff hletters, afterWholeWord?_eq_some_iff hletters, h]
  simp

theorem begins_of_afterWholeWord? (hletters : IsLetters word)
    (h : afterWholeWord? word before s ≠ none) :
    isWordAt before = false ∧ isWordAt s.head? = true := by
  obtain ⟨rest, hrest⟩ := Option.ne_none_iff_exists'.mp h
  obtain ⟨hbefore, hword, -⟩ := (afterWholeWord?_eq_some_iff hletters).mp hrest
  exact ⟨hbefore, isWordAt_of_afterWord? hletters (by simp [hword])⟩

theorem lastBefore_of_afterWord? (hletters : IsLetters word) (h : afterWord? word s = some rest) :
    lastBefore before s rest = lastBefore none s rest := by
  obtain ⟨w, rfl, hspells⟩ := exists_spelling h
  rw [lastBefore_append, lastBefore_append,
    List.getLast?_eq_some_getLast (hspells.isRun hletters).1]
  rfl

/-! Patterns that begin with a keyword, which blanks or a border follow. -/

def blanksBehind (word : List Char) (next : List Char → List Char → Option (Nat × β)) :
    Pattern β := fun before s => do
  guard (isEdge before s.head?)
  let rest ← afterBlanks? (← afterWord? word s)
  next s rest

def borderBehind (word : List Char)
    (next : Option Char → List Char → List Char → Option (Nat × β)) : Pattern β := fun before s => do
  let rest ← afterWholeWord? word before s
  next (lastBefore before s rest) s rest

theorem guard_bind (b : Bool) (next : Unit → Option β) :
    (guard (b = true) >>= next) = if b = true then next () else none := by
  cases b <;> rfl

section

variable {next : List Char → List Char → Option (Nat × β)}

theorem blanksBehind_eq (word : List Char) (next : List Char → List Char → Option (Nat × β))
    (before : Option Char) (s : List Char) :
    blanksBehind word next before s =
      if isEdge before s.head? then ((afterWord? word s).bind afterBlanks?).bind (next s)
      else none := by
  unfold blanksBehind
  rw [guard_bind]
  cases afterWord? word s <;> rfl

theorem blanksBehind_wordwise (hletters : IsLetters word) :
    (blanksBehind word next).Wordwise where
  begins := by
    intro before s hmatch
    rw [blanksBehind_eq] at hmatch
    split at hmatch
    · rename_i hedge
      have hs : isWordAt s.head? = true := by
        apply isWordAt_of_afterWord? hletters
        intro hnone
        simp [hnone] at hmatch
      exact ⟨by simpa [isEdge, hs] using hedge, hs⟩
    · exact absurd rfl hmatch
  border := by
    intro before s hbefore
    rw [blanksBehind_eq, blanksBehind_eq, isEdge_of_border hbefore, isEdge_of_border rfl]

theorem blanksBehind_run (hletters : IsLetters word) (hw : IsRun w)
    (hv : isWordAt v.head? = false) :
    blanksBehind word next none (w ++ v) =
      if Spells word w then (afterBlanks? v).bind (next (w ++ v)) else none := by
  rw [blanksBehind_eq, isEdge_of_border rfl, if_pos (hw.isWordAt_head? v),
    afterWord?_bind_afterBlanks? hletters hw hv]
  split <;> rfl

theorem blanksBehind_only (hletters : IsLetters word) :
    (blanksBehind word next).Only (Spells word) := by
  intro w v hw hv hmatch
  rw [blanksBehind_run hletters hw hv] at hmatch
  split at hmatch
  · assumption
  · exact absurd rfl hmatch

end

section

variable {next : Option Char → List Char → List Char → Option (Nat × β)}

theorem borderBehind_wordwise (hletters : IsLetters word) :
    (borderBehind word next).Wordwise where
  begins := by
    intro before s hmatch
    apply begins_of_afterWholeWord? hletters
    intro hnone
    simp [borderBehind, hnone] at hmatch
  border := by
    intro before s hbefore
    unfold borderBehind
    rw [afterWholeWord?_border hletters hbefore]
    cases hrest : afterWholeWord? word none s with
    | none => rfl
    | some rest =>
        have hword := ((afterWholeWord?_eq_some_iff hletters).mp hrest).2.1
        have hlast : lastBefore before s rest = lastBefore none s rest :=
          lastBefore_of_afterWord? hletters hword
        simp [hlast]

theorem borderBehind_run (hletters : IsLetters word) (hw : IsRun w)
    (hv : isWordAt v.head? = false) :
    borderBehind word next none (w ++ v) =
      if Spells word w then next w.getLast? (w ++ v) v else none := by
  unfold borderBehind
  rw [afterWholeWord?_run hletters hw hv]
  split
  · simp [lastBefore_append]
  · rfl

theorem borderBehind_only (hletters : IsLetters word) :
    (borderBehind word next).Only (Spells word) := by
  intro w v hw hv hmatch
  rw [borderBehind_run hletters hw hv] at hmatch
  split at hmatch
  · assumption
  · exact absurd rfl hmatch

end

end EventOperator.Text
