import EventOperator.Proofs.Query.Cleared
import EventOperator.Proofs.Text.Border

/-!
Names in any text. A search passes over the front of a word that begins with no letter, and a number
sign becomes part of the name behind it.
-/

namespace EventOperator.Query

open EventOperator.Text

variable {c : Char} {name w s u v : List Char}

/-- The part of a word that may be a name. -/
def namePart (w : List Char) : List Char := w.dropWhile fun c => !isNameStart c

theorem namePart_cons (c : Char) (w : List Char) :
    namePart (c :: w) = if isNameStart c then c :: w else namePart w := by
  cases hc : isNameStart c <;> simp [namePart, hc]

theorem namePart_eq_self (h : w.head?.any isNameStart = true) : namePart w = w := by
  cases w with
  | nil => rfl
  | cons c w => rw [namePart_cons, if_pos (by simpa using h)]

theorem captures_name?_other (hc : isWord c = false) (hsharp : c ≠ '#') (s : List Char) :
    captures name? (c :: s) = captures name? s :=
  captures_of_scan_inl (u := [c])
    (name?_blind.scan_cons (name?_eq_none (isNameStart_eq_false hc) hsharp s))

theorem captures_name?_run (hw : ∀ c ∈ w, isWord c = true) (hs : isWordAt s.head? = false) :
    captures name? (w ++ s) = [namePart w].filter (· ≠ []) ++ captures name? s := by
  induction w with
  | nil => rfl
  | cons c w ih =>
      have hrest := ih fun d hd => hw d (List.mem_cons_of_mem c hd)
      rw [namePart_cons]
      split
      · rename_i hstart
        have hrun : IsRun (c :: w) := ⟨by simp, hw⟩
        have htakes := name?_takes hrun (by simpa using hstart) hs
        rw [captures_of_scan_inr (scan_take htakes (name?_blind _ _))]
        simp
      · rename_i hstart
        have hc : c ≠ '#' := ne_of_holds (hw c List.mem_cons_self) (by decide)
        have hnone := name?_eq_none (by simpa using hstart) hc (w ++ s)
        rw [← hrest]
        exact captures_of_scan_inl (u := [c]) (name?_blind.scan_cons hnone)

theorem captures_name?_sharp_run (hw : IsRun w) (hstart : w.head?.any isNameStart = true)
    (hv : isWordAt v.head? = false) :
    captures name? ('#' :: (w ++ v)) = ('#' :: w) :: captures name? v :=
  captures_of_scan_inr (scan_take (name?_takes_inner hw hstart hv) (name?_blind _ _))

theorem captures_name?_sharp_other (hs : s.head?.any isNameStart = false) :
    captures name? ('#' :: s) = captures name? s := by
  refine captures_of_scan_inl (u := ['#']) (name?_blind.scan_cons ?_)
  cases s with
  | nil => rfl
  | cons c s =>
      have hc : isNameStart c = false := by simpa using hs
      simp [name?, hc]

theorem exists_run_of_isNameStart (hs : s.head?.any isNameStart = true) :
    ∃ w v, s = w ++ v ∧ IsRun w ∧ w.head?.any isNameStart = true ∧ isWordAt v.head? = false := by
  cases s with
  | nil => simp at hs
  | cons c s =>
      have hc : isNameStart c = true := by simpa using hs
      obtain ⟨w, v, heq, hw, hv⟩ := exists_run (isWord_of_isNameStart hc) s
      refine ⟨w, v, heq, hw, ?_, hv⟩
      cases w with
      | nil => exact absurd rfl hw.1
      | cons d w =>
          obtain ⟨rfl, -⟩ := List.cons.inj heq
          simpa using hc

theorem captures_name?_append (hv : isWordAt v.head? = false) (u : List Char) :
    captures name? (u ++ v) = captures name? u ++ captures name? v := by
  induction u using run_induction with
  | nil => rfl
  | other c s hc ih =>
      rw [List.cons_append]
      by_cases hsharp : c = '#'
      · subst hsharp
        cases hs : s.head?.any isNameStart with
        | false =>
            have happend : (s ++ v).head?.any isNameStart = false := by
              cases s with
              | cons d s => exact hs
              | nil =>
                  cases v with
                  | nil => rfl
                  | cons d v => exact isNameStart_eq_false hv
            rw [captures_name?_sharp_other hs, captures_name?_sharp_other happend, ih]
        | true =>
            obtain ⟨w, s', rfl, hw, hstart, hs'⟩ := exists_run_of_isNameStart hs
            have hstop : isWordAt (s' ++ v).head? = false := isWordAt_head?_append hv hs'
            rw [List.append_assoc, captures_name?_run hw.2 hstop, captures_name?_run hw.2 hs',
              List.append_assoc] at ih
            rw [List.append_assoc, captures_name?_sharp_run hw hstart hstop,
              captures_name?_sharp_run hw hstart hs', List.append_cancel_left ih, List.cons_append]
      · rw [captures_name?_other hc hsharp, captures_name?_other hc hsharp, ih]
  | run w s hw hs ih =>
      rw [List.append_assoc, captures_name?_run hw.2 (isWordAt_head?_append hv hs),
        captures_name?_run hw.2 hs, ih, List.append_assoc]

/-- A name without a number sign is what is left of a word when all is passed over that may not
begin a name. -/
theorem exists_word_of_mem_captures (h : name ∈ captures name? s) (hsharp : name.head? ≠ some '#') :
    ∃ w ∈ words s, name = namePart w ∧ name ≠ [] := by
  induction s using run_induction with
  | nil => simp at h
  | other c s hc ih =>
      rw [words_other hc]
      by_cases hc' : c = '#'
      · subst hc'
        cases hs : s.head?.any isNameStart with
        | false => exact ih (captures_name?_sharp_other hs ▸ h)
        | true =>
            obtain ⟨w, v, rfl, hw, hstart, hv⟩ := exists_run_of_isNameStart hs
            rw [captures_name?_sharp_run hw hstart hv] at h
            rcases List.mem_cons.mp h with rfl | h
            · exact absurd rfl hsharp
            · apply ih
              rw [captures_name?_run hw.2 hv]
              exact List.mem_append_right _ h
      · exact ih (captures_name?_other hc hc' s ▸ h)
  | run w s hw hs ih =>
      rw [words_run hw hs]
      rw [captures_name?_run hw.2 hs] at h
      rcases List.mem_append.mp h with h | h
      · obtain ⟨hmem, hne⟩ := List.mem_filter.mp h
        obtain rfl := List.mem_singleton.mp hmem
        exact ⟨w, List.mem_cons_self, rfl, by simpa using hne⟩
      · obtain ⟨r, hr, hname⟩ := ih h
        exact ⟨r, List.mem_cons_of_mem w hr, hname⟩

theorem head?_namePart (h : namePart w ≠ []) : (namePart w).head?.any isNameStart = true := by
  have hhead := List.head?_dropWhile_not (fun c => !isNameStart c) w
  rw [← namePart] at hhead
  cases hn : namePart w with
  | nil => exact absurd hn h
  | cons c n => simpa [hn] using hhead

end EventOperator.Query
