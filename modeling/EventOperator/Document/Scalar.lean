import EventOperator.Decimal.Nearest
import EventOperator.Document.Tag
import EventOperator.Text.Case
import EventOperator.Value

/-!
The values of scalars, by tag.
-/

namespace EventOperator.Document

def flagNamed? (word : String) : Option Bool :=
  if ["yes", "true", "on"].contains word then some true
  else if ["no", "false", "off"].contains word then some false
  else none

def flagOf (s : List Char) : Except Fault Bool :=
  let word := Text.lower (String.ofList s)
  match flagNamed? word with
  | some b => .ok b
  | none => .error (.notFlag word)

def signOf : List Char → Except Fault (Bool × List Char)
  | [] => .error .emptyNumeral
  | s => .ok (Decimal.signed s)

def withoutLines (s : List Char) : List Char := s.filter (· ≠ '_')

/-- Digits of every script, and ASCII letters for the digits above nine. -/
def digitOf? (base : Nat) (c : Char) : Option Nat :=
  let value? := match Text.digitValue? c with
    | some d => some d
    | none => Text.hexValue? c
  value?.filter (· < base)

def dropBase (base : Nat) : List Char → List Char
  | '0' :: c :: s =>
      let named := match base with
        | 2 => c = 'b' || c = 'B'
        | 8 => c = 'o' || c = 'O'
        | 16 => c = 'x' || c = 'X'
        | _ => false
      if named then s else '0' :: c :: s
  | s => s

def numeralOf (base : Nat) (text : List Char) : Except Fault Int :=
  let (negative, s) := Decimal.signed (Decimal.trim text)
  match (dropBase base s).mapM (digitOf? base) with
  | none | some [] => .error (.notNumeral base (String.ofList text))
  | some digits =>
      if base = 10 ∧ Decimal.longestNumeral < digits.length then .error (.longNumeral digits.length)
      else
        let n : Nat := digits.foldl (fun n d => base * n + d) 0
        .ok (if negative then -(n : Int) else n)

/-- A zero in front begins a number in base two, eight or sixteen; colons divide the digits of a
number in base sixty. -/
def magnitudeOf (s : List Char) : Except Fault Int :=
  match s with
  | [] => .error .emptyNumeral
  | ['0'] => .ok 0
  | '0' :: 'b' :: digits => numeralOf 2 digits
  | '0' :: 'x' :: digits => numeralOf 16 digits
  | '0' :: _ => numeralOf 8 s
  | _ => do
      let digits ← (Text.splitAt ':' s).mapM (numeralOf 10)
      return digits.foldl (fun n d => 60 * n + d) 0

def wholeOf (s : List Char) : Except Fault Int := do
  let (negative, s) ← signOf (withoutLines s)
  let n ← magnitudeOf s
  return if negative then -n else n

def realText (s : List Char) : Except Fault Float :=
  match Decimal.realOfText? s with
  | some x => .ok x
  | none => .error (.notReal (String.ofList s))

def sexagesimal : Nat → List Float → Float → Float
  | _, [], sum => sum
  | place, digit :: rest, sum =>
      let weight := Decimal.ofBits false (Decimal.nearestBits (Nat.pow 60 place) 1)
      sexagesimal (place + 1) rest (sum + digit * weight)

def realOf (s : List Char) : Except Fault Float := do
  let small := (Text.lower (String.ofList (withoutLines s))).toList
  let (negative, s) ← signOf small
  if s = ".nan".toList then return Decimal.ofBits false Decimal.nanBits
  else
    let x ←
      if s = ".inf".toList then pure (Decimal.ofBits false Decimal.infinityBits)
      else if s.contains ':' then do
        let digits ← (Text.splitAt ':' s).mapM realText
        pure (sexagesimal 0 digits.reverse 0)
      else realText s
    return if negative then -x else x

def sixBits? (c : Char) : Option Nat :=
  if 'A' ≤ c ∧ c ≤ 'Z' then some (c.toNat - 65)
  else if 'a' ≤ c ∧ c ≤ 'z' then some (c.toNat - 71)
  else if c.isDigit then some (c.toNat + 4)
  else if c = '+' then some 62
  else if c = '/' then some 63
  else none

/-- The letters up to the padding of an unfinished group of four, and whether there is one. Equals
signs fill a group that holds two letters at least; all other characters are passed over. -/
def sextets (count pads : Nat) : List Char → List Nat × Bool
  | [] => ([], false)
  | c :: s =>
      match sixBits? c with
      | some n =>
          let (more, padded) := sextets (count + 1) 0 s
          (n :: more, padded)
      | none =>
          if c = '=' ∧ 2 ≤ count % 4 then
            if 4 ≤ count % 4 + pads + 1 then ([], true) else sextets count (pads + 1) s
          else sextets count pads s

def octetsOfSextets : List Nat → List UInt8
  | a :: b :: c :: d :: rest =>
      UInt8.ofNat (4 * a + b / 16) :: UInt8.ofNat (b % 16 * 16 + c / 4)
        :: UInt8.ofNat (c % 4 * 64 + d) :: octetsOfSextets rest
  | [a, b, c] => [UInt8.ofNat (4 * a + b / 16), UInt8.ofNat (b % 16 * 16 + c / 4)]
  | [a, b] => [UInt8.ofNat (4 * a + b / 16)]
  | _ => []

def octetsOf (s : List Char) : Except Fault (List UInt8) :=
  let (letters, padded) := sextets 0 0 s
  if s.all (·.toNat < 128) ∧ (padded ∨ letters.length % 4 = 0) then .ok (octetsOfSextets letters)
  else .error .malformed

def scalarValue? (tag : Tag) (s : List Char) : Option (Except Fault Value) :=
  match tag with
  | .null => some (.ok .null)
  | .flag => some (Value.flag <$> flagOf s)
  | .whole => some (Value.whole <$> wholeOf s)
  | .real => some (Value.real <$> realOf s)
  | .octets => some (Value.bytes <$> octetsOf s)
  | .moment => some (Value.moment <$> momentOf s)
  | .text => some (.ok (.text (String.ofList s)))
  | _ => none

example : (wholeOf "-0x_1f".toList).toOption = some (-31) ∧
    (wholeOf "1:30".toList).toOption = some 90 ∧ (wholeOf "017".toList).toOption = some 15 ∧
    (wholeOf "08".toList).toOption = none ∧ (octetsOf "aGk=".toList).toOption = some [104, 105] ∧
    (octetsOf "aGk".toList).toOption = none := by
  decide +kernel

end EventOperator.Document
