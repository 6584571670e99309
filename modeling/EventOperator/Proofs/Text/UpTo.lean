import EventOperator.Proofs.Text.Keyword

/-!
The text up to a keyword. It ends in front of the first run that spells one of the keywords; without
such a run it goes on to the end, where a line end may be left.
-/

namespace EventOperator.Text

variable {w v s u : List Char} {keywords : List (List Char)} {before : Option Char} {c : Char}

theorem wordStands_eq_false (hletters : ∀ word ∈ keywords, IsLetters word)
    (h : isWordAt before = true ∨ isWordAt s.head? = false) :
    wordStands keywords before s = false := by
  rw [wordStands, List.any_eq_false]
  intro word hword hstands
  have hne : afterWholeWord? word before s ≠ none := by
    intro hnone
    simp [hnone] at hstands
  obtain ⟨hbefore, hs⟩ := begins_of_afterWholeWord? (hletters word hword) hne
  rcases h with h | h
  · simp [hbefore] at h
  · simp [hs] at h

theorem wordStands_run (hletters : ∀ word ∈ keywords, IsLetters word)
    (hbefore : isWordAt before = false) (hw : IsRun w) (hs : isWordAt s.head? = false) :
    wordStands keywords before (w ++ s) = true ↔ ∃ word ∈ keywords, Spells word w := by
  rw [wordStands, List.any_eq_true]
  constructor
  · rintro ⟨word, hword, hstands⟩
    rw [afterWholeWord?_border (hletters word hword) hbefore,
      afterWholeWord?_run (hletters word hword) hw hs] at hstands
    split at hstands
    · rename_i hspells
      exact ⟨word, hword, hspells⟩
    · exact absurd hstands (by simp)
  · rintro ⟨word, hword, hspells⟩
    refine ⟨word, hword, ?_⟩
    rw [afterWholeWord?_border (hletters word hword) hbefore,
      afterWholeWord?_run (hletters word hword) hw hs, if_pos hspells]
    rfl

theorem atEnd_eq_false (hc : isWord c = true) (s : List Char) : atEnd (c :: s) = false := by
  unfold atEnd
  split
  · rename_i heq
    exact nomatch heq
  · rename_i heq
    obtain ⟨rfl, -⟩ := List.cons.inj heq
    exact absurd hc (by decide)
  · rfl

theorem upToWord_other (hletters : ∀ word ∈ keywords, IsLetters word) (hc : isWord c = false)
    (hend : atEnd (c :: s) = false) :
    upToWord keywords before (c :: s) = c :: upToWord keywords (some c) s := by
  have hstands : wordStands keywords before (c :: s) = false :=
    wordStands_eq_false hletters (Or.inr hc)
  simp [upToWord, hstands, hend]

theorem upToWord_inside (hletters : ∀ word ∈ keywords, IsLetters word) (hc : isWord c = true)
    (hw : ∀ c ∈ w, isWord c = true) (s : List Char) :
    upToWord keywords (some c) (w ++ s) = w ++ upToWord keywords (c :: w).getLast? s := by
  induction w generalizing c with
  | nil => rfl
  | cons d w ih =>
      have hd := hw d List.mem_cons_self
      have hstands : wordStands keywords (some c) (d :: (w ++ s)) = false :=
        wordStands_eq_false hletters (Or.inl hc)
      have hrest := ih hd fun e he => hw e (List.mem_cons_of_mem d he)
      rw [List.cons_append, upToWord, hstands, atEnd_eq_false hd, hrest, List.getLast?_cons_cons]
      rfl

theorem upToWord_run (hletters : ∀ word ∈ keywords, IsLetters word) (hw : IsRun w)
    (hbefore : isWordAt before = false) (hs : isWordAt s.head? = false)
    (hnone : ∀ word ∈ keywords, ¬ Spells word w) :
    upToWord keywords before (w ++ s) = w ++ upToWord keywords w.getLast? s := by
  have hstands : wordStands keywords before (w ++ s) = false := by
    rw [Bool.eq_false_iff]
    intro h
    obtain ⟨word, hword, hspells⟩ := (wordStands_run hletters hbefore hw hs).mp h
    exact hnone word hword hspells
  cases w with
  | nil => exact absurd rfl hw.1
  | cons c w =>
      have hc := hw.2 c List.mem_cons_self
      have hrest := upToWord_inside hletters hc (fun d hd => hw.2 d (List.mem_cons_of_mem c hd)) s
      rw [List.cons_append] at hstands ⊢
      rw [upToWord, hstands, atEnd_eq_false hc, hrest]
      rfl

theorem upToWord_append (hletters : ∀ word ∈ keywords, IsLetters word)
    (hu : ∀ w ∈ words u, ∀ word ∈ keywords, ¬ Spells word w)
    (hv : wordStands keywords none v = true) (hbefore : Apart before (u ++ v).head?)
    (hap : Apart u.getLast? v.head?) : upToWord keywords before (u ++ v) = u := by
  have hhead : isWordAt v.head? = true := by
    cases hword : isWordAt v.head? with
    | true => rfl
    | false => simp [wordStands_eq_false hletters (Or.inr hword)] at hv
  have hne : v ≠ [] := by
    rintro rfl
    exact absurd hhead (by simp)
  induction u using run_induction generalizing before with
  | nil =>
      have hborder : isWordAt before = false := hbefore.resolve_right (by simpa using hhead)
      cases v with
      | nil => exact absurd rfl hne
      | cons c v =>
          have hstands : wordStands keywords before (c :: v) = true := by
            rw [wordStands, List.any_eq_true] at hv ⊢
            obtain ⟨word, hword, hfound⟩ := hv
            refine ⟨word, hword, ?_⟩
            rwa [afterWholeWord?_border (hletters word hword) hborder]
          rw [List.nil_append, upToWord, hstands]
          rfl
  | other c s hc ih =>
      rw [words_other hc] at hu
      have hend : atEnd (c :: (s ++ v)) = false := by
        unfold atEnd
        split
        · rename_i heq
          exact nomatch heq
        · rename_i heq
          exact absurd (List.append_eq_nil_iff.mp (List.cons.inj heq).2).2 hne
        · rfl
      rw [List.cons_append, upToWord_other hletters hc hend,
        ih hu (Or.inl (by simpa using hc)) (apart_of_append (u := [c]) hap)]
  | run w s hw hs ih =>
      rw [words_run hw hs] at hu
      have hborder : isWordAt before = false := by
        rw [List.append_assoc, Apart, hw.isWordAt_head?] at hbefore
        exact hbefore.resolve_right (by simp)
      have hstop := apart_of_run_append hw hap hs
      rw [List.append_assoc, upToWord_run hletters hw hborder hstop (hu w List.mem_cons_self),
        ih (fun r hr => hu r (List.mem_cons_of_mem w hr)) (Or.inr hstop) (apart_of_append hap)]

theorem upToWord_eq (hletters : ∀ word ∈ keywords, IsLetters word)
    (hu : ∀ w ∈ words u, ∀ word ∈ keywords, ¬ Spells word w) (hbefore : Apart before u.head?) :
    upToWord keywords before u = u ∨ u = upToWord keywords before u ++ ['\n'] := by
  induction u using run_induction generalizing before with
  | nil => exact Or.inl rfl
  | other c s hc ih =>
      rw [words_other hc] at hu
      cases hend : atEnd (c :: s) with
      | true =>
          have hs : c :: s = ['\n'] := by
            unfold atEnd at hend
            split at hend
            · rename_i heq
              exact nomatch heq
            · assumption
            · exact absurd hend (by simp)
          obtain ⟨rfl, rfl⟩ := List.cons.inj hs
          right
          simp [upToWord, hend]
      | false =>
          have hnext : Apart (some c) s.head? := Or.inl hc
          rw [upToWord_other hletters hc hend]
          rcases ih hu hnext with h | h
          · exact Or.inl (by rw [h])
          · exact Or.inr (by rw [List.cons_append, ← h])
  | run w s hw hs ih =>
      rw [words_run hw hs] at hu
      have hborder : isWordAt before = false := by
        rw [Apart, hw.isWordAt_head?] at hbefore
        exact hbefore.resolve_right (by simp)
      rw [upToWord_run hletters hw hborder hs (hu w List.mem_cons_self)]
      rcases ih (fun r hr => hu r (List.mem_cons_of_mem w hr)) (Or.inr hs) with h | h
      · exact Or.inl (by rw [h])
      · exact Or.inr (by rw [List.append_assoc, ← h])

end EventOperator.Text
