import EventOperator.Proofs.Text.Search
import EventOperator.Query.Comment

/-!
Texts without comments. What stands in front of a comment stays as it is, and so does what stands
behind a text that neither holds a comment nor ends in the middle of its beginning.
-/

namespace EventOperator.Query

open EventOperator.Text

variable {c : Char} {s u : List Char}

theorem comment?_blind : comment?.Blind := fun _ _ => rfl

theorem comment?_eq_none (hline : c ≠ '-') (hblock : c ≠ '/') (s : List Char) :
    comment? none (c :: s) = none := by
  unfold comment?
  split
  · rename_i heq
    exact absurd (List.cons.inj heq).1 hline
  · rename_i heq
    exact absurd (List.cons.inj heq).1 hblock
  · rfl

theorem stripComments_append (hu : ∀ c ∈ u, c ≠ '-' ∧ c ≠ '/') (v : List Char) :
    stripComments (u ++ v) = u ++ stripComments v :=
  blankOut_of_scan_inl (comment?_blind.scan_append fun c hc =>
    comment?_eq_none (hu c hc).1 (hu c hc).2)

def IsCommentFree (s : List Char) : Prop := ¬ ['-', '-'] <:+: s ∧ ¬ ['/', '*'] <:+: s

instance (s : List Char) : Decidable (IsCommentFree s) := inferInstanceAs (Decidable (_ ∧ _))

theorem IsCommentFree.tail (h : IsCommentFree (c :: s)) : IsCommentFree s :=
  ⟨fun hline => h.1 (hline.trans (List.suffix_cons c s).isInfix),
    fun hblock => h.2 (hblock.trans (List.suffix_cons c s).isInfix)⟩

/-- No comment begins with the last character. -/
def EndsOutside (s : List Char) : Prop := s.getLast? ≠ some '-' ∧ s.getLast? ≠ some '/'

instance (s : List Char) : Decidable (EndsOutside s) := inferInstanceAs (Decidable (_ ∧ _))

theorem EndsOutside.tail (h : EndsOutside (c :: s)) : EndsOutside s := by
  cases s with
  | nil => exact ⟨by simp, by simp⟩
  | cons d s => simpa [EndsOutside] using h

theorem IsCommentFree.comment?_eq_none (hfree : IsCommentFree (c :: u))
    (hend : EndsOutside (c :: u)) (v : List Char) : comment? none (c :: (u ++ v)) = none := by
  cases u with
  | nil =>
      have hline : c ≠ '-' := fun h => hend.1 (by simp [h])
      have hblock : c ≠ '/' := fun h => hend.2 (by simp [h])
      exact Query.comment?_eq_none hline hblock v
  | cons d u =>
      unfold comment?
      split
      · rename_i rest heq
        obtain ⟨rfl, htail⟩ := List.cons.inj heq
        obtain ⟨rfl, -⟩ := List.cons.inj htail
        exact absurd ⟨[], u, rfl⟩ hfree.1
      · rename_i rest heq
        obtain ⟨rfl, htail⟩ := List.cons.inj heq
        obtain ⟨rfl, -⟩ := List.cons.inj htail
        exact absurd ⟨[], u, rfl⟩ hfree.2
      · rfl

theorem IsCommentFree.stripComments_append (hfree : IsCommentFree u) (hend : EndsOutside u)
    (v : List Char) : stripComments (u ++ v) = u ++ stripComments v := by
  apply blankOut_of_scan_inl
  induction u with
  | nil => rfl
  | cons c u ih =>
      have hrest := ih hfree.tail hend.tail
      rw [List.cons_append, comment?_blind.scan_cons (hfree.comment?_eq_none hend v), hrest]
      rfl

theorem IsCommentFree.comment?_self (hfree : IsCommentFree (c :: s)) :
    comment? none (c :: s) = none := by
  unfold comment?
  split
  · rename_i rest heq
    exact absurd (heq ▸ ⟨[], rest, rfl⟩) hfree.1
  · rename_i rest heq
    exact absurd (heq ▸ ⟨[], rest, rfl⟩) hfree.2
  · rfl

theorem IsCommentFree.stripComments_eq (hfree : IsCommentFree s) : stripComments s = s := by
  have hscan : scan comment? s = s.map .inl := by
    induction s with
    | nil => rfl
    | cons c s ih =>
        rw [comment?_blind.scan_cons hfree.comment?_self, ih hfree.tail]
        rfl
  rw [stripComments, blankOut_eq_scan, hscan, List.map_map]
  exact List.map_id s

end EventOperator.Query
