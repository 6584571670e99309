/-!
The first position from a given one onwards that is accepted, where there is one.
-/

namespace EventOperator.Identity

variable {accepts : Nat → Bool} {start : Nat}

abbrev Leading (accepts : Nat → Bool) : Type :=
  { start : Nat // ∃ k, accepts (start + k) = true }

/-- A position that is not accepted is left for the next one. -/
def LeavesFor (later start : Leading accepts) : Prop :=
  later.1 = start.1 + 1 ∧ ¬ accepts start.1 = true

theorem Leading.accessible (start : Leading accepts) : Acc LeavesFor start := by
  obtain ⟨start, h⟩ := start
  obtain ⟨k, hk⟩ := id h
  induction k generalizing start with
  | zero => exact ⟨_, fun _ hleaves => absurd hk hleaves.2⟩
  | succ k ih =>
      refine ⟨_, fun later hleaves => ih later.1 later.2 ?_⟩
      rwa [hleaves.1, Nat.add_assoc, Nat.add_comm 1]

instance : WellFoundedRelation (Leading accepts) := ⟨LeavesFor, ⟨Leading.accessible⟩⟩

theorem exists_later (h : ∃ k, accepts (start + k) = true) (hstart : ¬ accepts start = true) :
    ∃ k, accepts (start + 1 + k) = true := by
  obtain ⟨k, hk⟩ := h
  cases k with
  | zero => exact absurd hk hstart
  | succ k => exact ⟨k, by rwa [Nat.add_assoc, Nat.add_comm 1]⟩

def firstFrom (accepts : Nat → Bool) (start : Nat) (h : ∃ k, accepts (start + k) = true) : Nat :=
  if hstart : accepts start = true then start
  else firstFrom accepts (start + 1) (exists_later h hstart)
termination_by (⟨start, h⟩ : Leading accepts)
decreasing_by exact ⟨rfl, hstart⟩

theorem firstFrom_spec (accepts : Nat → Bool) (start : Nat)
    (h : ∃ k, accepts (start + k) = true) :
    start ≤ firstFrom accepts start h ∧ accepts (firstFrom accepts start h) = true ∧
      ∀ n, start ≤ n → n < firstFrom accepts start h → accepts n = false := by
  fun_induction firstFrom accepts start h with
  | case1 start h hstart => exact ⟨Nat.le_refl _, hstart, fun n hle hlt => by omega⟩
  | case2 start h hstart ih =>
      obtain ⟨hle, haccepted, hbefore⟩ := ih
      refine ⟨by omega, haccepted, fun n hn hlt => ?_⟩
      rcases Nat.eq_or_lt_of_le hn with rfl | hlater
      · exact Bool.eq_false_iff.mpr hstart
      · exact hbefore n hlater hlt

end EventOperator.Identity
