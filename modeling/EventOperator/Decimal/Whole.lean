import EventOperator.Decimal.Shortest

/-!
Binary numbers without a fractional part.
-/

namespace EventOperator.Decimal

def Binary.whole? (b : Binary) : Option Nat :=
  let scale := Nat.pow 2 (-b.exponent).toNat
  if b.significand % scale = 0 then some (b.significand / scale * Nat.pow 2 b.exponent.toNat)
  else none

def wholeOfBits? (bits : Nat) : Option Int :=
  if magnitude bits < infinityBits then
    (Binary.ofBits (magnitude bits)).whole?.map fun n => if isNegative bits then -(n : Int) else n
  else none

def wholeOfReal? (x : Float) : Option Int := wholeOfBits? x.toBits.toNat

def isFinite (x : Float) : Bool := magnitude x.toBits.toNat < infinityBits

example : wholeOfBits? 0xC000000000000000 = some (-2) ∧ wholeOfBits? 0x3FE0000000000000 = none ∧
    wholeOfBits? 0x8000000000000000 = some 0 := by decide +kernel

end EventOperator.Decimal
