import EventOperator.Text.Digit
import EventOperator.Text.Word
import Mathlib.Data.List.Chain

/-!
Digits of all scripts are word characters.
-/

namespace EventOperator.Text

/-- Each range of `pending` is found inside one of the ranges, when these are gone through once. -/
def coveredBy : List (Nat × Nat) → List (Nat × Nat) → Bool
  | pending, [] => pending.isEmpty
  | pending, range :: ranges =>
      coveredBy (pending.dropWhile fun r => range.1 ≤ r.1 && r.2 ≤ range.2) ranges

theorem exists_of_coveredBy {pending ranges : List (Nat × Nat)}
    (h : coveredBy pending ranges = true) :
    ∀ r ∈ pending, ∃ range ∈ ranges, range.1 ≤ r.1 ∧ r.2 ≤ range.2 := by
  induction ranges generalizing pending with
  | nil =>
      obtain rfl : pending = [] := by simpa [coveredBy] using h
      simp
  | cons range ranges ih =>
      intro r hr
      rw [← List.takeWhile_append_dropWhile (p := fun r => range.1 ≤ r.1 && r.2 ≤ range.2)
        (l := pending)] at hr
      rcases List.mem_append.mp hr with hr | hr
      · have hinside := List.all_eq_true.mp List.all_takeWhile r hr
        exact ⟨range, List.mem_cons_self, by simpa using hinside⟩
      · obtain ⟨other, hother, hinside⟩ := ih h r hr
        exact ⟨other, List.mem_cons_of_mem range hother, hinside⟩

theorem wordRanges_pairwise :
    wordRanges.Pairwise fun first second => first.1 ≤ second.1 := by
  have hchain : (wordRanges.map Prod.fst).IsChain (· ≤ ·) := by decide +kernel
  exact List.pairwise_map.mp (List.isChain_iff_pairwise.mp hchain)

theorem isWord_of_isDigit {c : Char} (h : isDigit c = true) : isWord c = true := by
  have hcovered : coveredBy digitRanges wordRanges = true := by decide +kernel
  simp only [isDigit, Bool.or_eq_true, Bool.and_eq_true, decide_eq_true_eq] at h
  rcases h with h | ⟨hlow, h⟩
  · exact isWord_of_isAlphanum (by simp [Char.isAlphanum, h])
  · obtain ⟨range, hmem, hrange⟩ := (inRanges_iff (by decide +kernel)).mp h
    obtain ⟨other, hother, hinside⟩ := exists_of_coveredBy hcovered range hmem
    have hin : inRanges c.toNat wordRanges = true :=
      (inRanges_iff wordRanges_pairwise).mpr ⟨other, hother, by omega, by omega⟩
    simp [isWord, hlow, hin]

end EventOperator.Text
