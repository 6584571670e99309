import EventOperator.Identity.Search
import EventOperator.Text.Hex

/-!
Sources of ids. A source is endless, and wherever it stands it still has ids that are none of any
given ones, so that a fresh id can always be drawn.
-/

namespace EventOperator.Identity

structure Source where
  ids : Nat → String
  inexhaustible : ∀ (taken : List String) (start : Nat), ∃ k, ids (start + k) ∉ taken

theorem eventually_not_mem {ids : Nat → String} (h : ∀ m n, ids m = ids n → m = n) :
    ∀ taken : List String, ∃ bound, ∀ n, bound ≤ n → ids n ∉ taken
  | [] => ⟨0, by simp⟩
  | id :: rest => by
      obtain ⟨bound, hbound⟩ := eventually_not_mem h rest
      by_cases hid : ∃ m, ids m = id
      · obtain ⟨m, hm⟩ := hid
        refine ⟨max (m + 1) bound, fun n hn hmem => ?_⟩
        rcases List.mem_cons.mp hmem with heq | hmem
        · have := h n m (heq.trans hm.symm)
          omega
        · exact hbound n (by omega) hmem
      · refine ⟨bound, fun n hn hmem => ?_⟩
        rcases List.mem_cons.mp hmem with heq | hmem
        · exact hid ⟨n, heq⟩
        · exact hbound n hn hmem

namespace Source

def counted (ids : Nat → String) (h : ∀ m n, ids m = ids n → m = n) : Source where
  ids := ids
  inexhaustible taken start := by
    obtain ⟨bound, hbound⟩ := eventually_not_mem h taken
    exact ⟨bound, hbound _ (by omega)⟩

def listed (first : List String) (ids : Nat → String) (h : ∀ m n, ids m = ids n → m = n) :
    Source where
  ids n := if hn : n < first.length then first[n] else ids (n - first.length)
  inexhaustible taken start := by
    obtain ⟨bound, hbound⟩ := eventually_not_mem h taken
    refine ⟨first.length + bound, ?_⟩
    rw [dif_neg (by omega)]
    exact hbound _ (by omega)

theorem toString_injective {m n : Nat} (h : toString m = toString n) : m = n := by
  have hdigits : Nat.toDigits 10 m = Nat.toDigits 10 n := by
    have := congrArg String.toList h
    simpa [toString, Nat.repr] using this
  rw [← Nat.ofDigitChars_toDigits (b := 10) (n := m) (by omega) (by omega), hdigits,
    Nat.ofDigitChars_toDigits (by omega) (by omega)]

theorem append_injective {front s t : String} (h : front ++ s = front ++ t) : s = t := by
  have := congrArg String.toList h
  simp only [String.toList_append, List.append_cancel_left_eq] at this
  exact String.toList_injective this

/-- The given ids, and after them `id-1`, `id-2` and so on. -/
def ofList (first : List String) : Source :=
  listed first (fun n => "id-" ++ toString (n + 1)) fun m n h => by
    have := toString_injective (append_injective h)
    omega

/-- The ids of version 4 with a count from one in their last group. -/
def serial : Source :=
  counted (fun n => "00000000-0000-4000-8000-" ++ String.ofList (Text.paddedHex 12 (n + 1)))
    fun m n h => by
      have := Text.paddedHex_injective (String.ofList_injective (append_injective h))
      omega

example : serial.ids 9 = "00000000-0000-4000-8000-00000000000a" := by decide +kernel
example : (ofList ["a"]).ids 0 = "a" ∧ (ofList ["a"]).ids 2 = "id-2" := by decide

end Source

end EventOperator.Identity
