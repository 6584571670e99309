import EventOperator.Decimal.Double
import EventOperator.Decimal.Numeral
import EventOperator.Text.Digit

/-!
The binary number nearest to a quotient or to a decimal; of two equally near ones it is the even
one. Numbers are given by their bits in double precision.
-/

namespace EventOperator.Decimal

/-- The whole number nearest to a quotient; a half goes to the even neighbour. -/
def roundQuotient (a b : Nat) : Nat :=
  let low := a / b
  if 2 * (a % b) < b ∨ (2 * (a % b) = b ∧ low % 2 = 0) then low else low + 1

def scaled (a b : Nat) (q : Int) : Nat × Nat := (a * Nat.pow 2 (-q).toNat, b * Nat.pow 2 q.toNat)

/-- The significand takes 53 bits, fewer only below the least exponent. A significand that is
rounded up to the next power of two carries into the exponent. -/
def nearestBits (a b : Nat) : Nat :=
  let low : Int := max ((a.log2 : Int) - b.log2 - 53) (-1074)
  let (n, d) := scaled a b low
  let q := if 2 * exponentUnit ≤ n / d then low + 1 else low
  let (n, d) := scaled a b q
  min ((q + 1074).toNat * exponentUnit + roundQuotient n d) infinityBits

/-- Decimals with an exponent beyond four hundred are beyond all binary numbers. -/
def decimalBits (digits : Nat) (exponent : Int) : Nat :=
  let place := (digits.log2 : Int) * 30103 / 100000 + exponent
  if digits = 0 ∨ place < -400 then 0
  else if 400 < place then infinityBits
  else nearestBits (digits * Nat.pow 10 exponent.toNat) (Nat.pow 10 (-exponent).toNat)

def ofBits (negative : Bool) (bits : Nat) : Float :=
  Float.ofBits (UInt64.ofNat (if negative then signUnit + bits else bits))

def realOfWhole? (n : Int) : Option Float :=
  let bits := nearestBits n.natAbs 1
  if bits < infinityBits then some (ofBits (n < 0) bits) else none

def digitRun : List Char → List Nat × List Char
  | [] => ([], [])
  | c :: s =>
      match Text.digitValue? c with
      | none => ([], c :: s)
      | some d =>
          match s with
          | '_' :: c' :: s' =>
              if (Text.digitValue? c').isSome then
                let (ds, rest) := digitRun (c' :: s')
                (d :: ds, rest)
              else ([d], s)
          | s =>
              let (ds, rest) := digitRun s
              (d :: ds, rest)

def ofDigits (ds : List Nat) : Nat := ds.foldl (fun n d => 10 * n + d) 0

def signed : List Char → Bool × List Char
  | '-' :: s => (true, s)
  | '+' :: s => (false, s)
  | s => (false, s)

def exponentOf? : List Char → Option Int
  | [] => some 0
  | c :: s =>
      if c = 'e' ∨ c = 'E' then
        let (negative, s) := signed s
        match digitRun s with
        | (d :: ds, []) =>
            let n : Int := ofDigits (d :: ds)
            some (if negative then -n else n)
        | _ => none
      else none

def magnitudeBits? (s : List Char) : Option Nat := do
  let (whole, s) := digitRun s
  let (fraction, s) := match s with
    | '.' :: s => digitRun s
    | s => ([], s)
  if whole.isEmpty ∧ fraction.isEmpty then none
  else
    let exponent ← exponentOf? s
    some (decimalBits (ofDigits (whole ++ fraction)) (exponent - fraction.length))

def realOfText? (s : List Char) : Option Float :=
  let (negative, s) := signed (trim s)
  let word := String.ofList (s.map Char.toLower)
  if word = "inf" ∨ word = "infinity" then some (ofBits negative infinityBits)
  else if word = "nan" then some (ofBits negative nanBits)
  else (magnitudeBits? s).map (ofBits negative)

example : decimalBits 1 0 = 0x3FF0000000000000 ∧ decimalBits 1 (-1) = 0x3FB999999999999A ∧
    decimalBits 5 (-324) = 1 ∧ decimalBits 2 (-324) = 0 ∧ decimalBits 1 23 = 0x44B52D02C7E14AF6 ∧
    decimalBits 17976931348623157 292 = 0x7FEFFFFFFFFFFFFF ∧ decimalBits 2 308 = infinityBits := by
  decide +kernel

end EventOperator.Decimal
