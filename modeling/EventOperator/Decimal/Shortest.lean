import EventOperator.Decimal.Double

/-!
The shortest decimal that reads back as a given binary number. A binary number stands for all reals
that round to it. The decimal looked for is a multiple of the largest power of ten that has a
multiple among these reals; of two such multiples it is the nearer one, and of two equally near ones
the even one.
-/

namespace EventOperator.Decimal

/-- The number `significand * 2 ^ exponent`, with the distance to its neighbours below and above in
quarters of the last place. -/
structure Binary where
  significand : Nat
  exponent : Int
  below : Nat
  above : Nat

structure Scientific where
  digits : Nat
  exponent : Int
  deriving DecidableEq

/-- The positive number with these bits in double precision, less the sign. At a power of two the
neighbour below is half as far as the one above. -/
def Binary.ofBits (bits : Nat) : Binary :=
  let fraction := bits % exponentUnit
  let biased : Nat := bits / exponentUnit
  if biased = 0 then ⟨fraction, -1074, 2, 2⟩
  else
    let below := if fraction = 0 ∧ 1 < biased then 1 else 2
    ⟨fraction + exponentUnit, (biased : Int) - 1075, below, 2⟩

/-- Factors that turn a comparison of `a * 10 ^ k` with `b * 2 ^ q` into one of `a * ten` with
`b * two`. -/
def factors (k q : Int) : Nat × Nat :=
  (Nat.pow 10 k.toNat * Nat.pow 2 (-q).toNat, Nat.pow 10 (-k).toNat * Nat.pow 2 q.toNat)

def Binary.admits (b : Binary) (k : Int) (d : Nat) : Bool :=
  let (ten, two) := factors k (b.exponent - 2)
  let low := (4 * b.significand - b.below) * two
  let high := (4 * b.significand + b.above) * two
  if b.significand % 2 = 0 then low ≤ d * ten && d * ten ≤ high
  else low < d * ten && d * ten < high

def Binary.multiple? (b : Binary) (k : Int) : Option Nat :=
  let (ten, two) := factors k (b.exponent - 2)
  let value := 4 * b.significand * two
  let d := value / ten
  match b.admits k d, b.admits k (d + 1) with
  | false, false => none
  | true, false => some d
  | false, true => some (d + 1)
  | true, true =>
      let fromBelow := value - d * ten
      let fromAbove := (d + 1) * ten - value
      if fromBelow < fromAbove ∨ (fromBelow = fromAbove ∧ d % 2 = 0) then some d else some (d + 1)

def Binary.search (b : Binary) : Nat → Int → Scientific
  | 0, k => ⟨0, k⟩
  | steps + 1, k =>
      match b.multiple? k with
      | some (d + 1) => ⟨d + 1, k⟩
      | _ => search b steps (k - 1)

def Binary.ceiling (b : Binary) : Int :=
  (b.significand.log2 + b.exponent + 1) * 30103 / 100000 + 1

/-- Twenty powers of ten below the ceiling always suffice in double precision. -/
def Binary.shortest (b : Binary) : Scientific := b.search 20 b.ceiling

example : (Binary.ofBits 1).shortest = ⟨5, -324⟩ := by decide +kernel
example : (Binary.ofBits 0x3FF0000000000000).shortest = ⟨1, 0⟩ := by decide +kernel
example : (Binary.ofBits 0x3FB999999999999A).shortest = ⟨1, -1⟩ := by decide +kernel
example : (Binary.ofBits 0x7FEFFFFFFFFFFFFF).shortest = ⟨17976931348623157, 292⟩ := by
  decide +kernel
example : (Binary.ofBits 0x44B52D02C7E14AF6).shortest = ⟨1, 23⟩ := by decide +kernel

end EventOperator.Decimal
