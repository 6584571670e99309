/-!
Properties of characters are given by ranges of code points, in rising order.
-/

namespace EventOperator.Text

/-- Looks no further than the first range that begins after the code point. -/
def inRanges (code : Nat) : List (Nat × Nat) → Bool
  | [] => false
  | (low, high) :: rest => low ≤ code && (code ≤ high || inRanges code rest)

theorem inRanges_iff {code : Nat} {ranges : List (Nat × Nat)}
    (h : ranges.Pairwise fun first second => first.1 ≤ second.1) :
    inRanges code ranges = true ↔ ∃ range ∈ ranges, range.1 ≤ code ∧ code ≤ range.2 := by
  induction ranges with
  | nil => simp [inRanges]
  | cons range rest ih =>
      obtain ⟨low, high⟩ := range
      rw [List.pairwise_cons] at h
      simp only [inRanges, Bool.and_eq_true, decide_eq_true_eq, Bool.or_eq_true, ih h.2]
      constructor
      · rintro ⟨hlow, hhigh | ⟨range, hmem, hrange⟩⟩
        · exact ⟨_, List.mem_cons_self, hlow, hhigh⟩
        · exact ⟨range, List.mem_cons_of_mem _ hmem, hrange⟩
      · rintro ⟨range, hmem, hrange⟩
        rcases List.mem_cons.mp hmem with heq | hmem
        · subst heq
          exact ⟨hrange.1, Or.inl hrange.2⟩
        · exact ⟨Nat.le_trans (h.1 range hmem) hrange.1, Or.inr ⟨range, hmem, hrange⟩⟩

end EventOperator.Text
