/-!
Text divided into the parts between the occurrences of a character.
-/

namespace EventOperator.Text

def splitAt (divider : Char) : List Char → List (List Char)
  | [] => [[]]
  | c :: s =>
      match splitAt divider s with
      | [] => [[c]]
      | part :: parts => if c = divider then [] :: part :: parts else (c :: part) :: parts

theorem splitAt_ne_nil (divider : Char) (s : List Char) : splitAt divider s ≠ [] := by
  cases s with
  | nil => simp [splitAt]
  | cons c s =>
      rw [splitAt]
      split
      · simp
      · split <;> simp

end EventOperator.Text
