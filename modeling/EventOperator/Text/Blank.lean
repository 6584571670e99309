import EventOperator.Text.Range

/-!
Blanks: the spaces, tabs, line ends and separators that may stand between words.
-/

namespace EventOperator.Text

def blankRanges : List (Nat × Nat) :=
  [ (0x9, 0xD), (0x1C, 0x20), (0x85, 0x85), (0xA0, 0xA0), (0x1680, 0x1680), (0x2000, 0x200A),
    (0x2028, 0x2029), (0x202F, 0x202F), (0x205F, 0x205F), (0x3000, 0x3000) ]

def isBlank (c : Char) : Bool := inRanges c.toNat blankRanges

def strip (s : List Char) : List Char :=
  ((s.dropWhile isBlank).reverse.dropWhile isBlank).reverse

example : isBlank '\u001c' ∧ isBlank '\u2028' ∧ ¬ isBlank '\u200b' := by decide

end EventOperator.Text
