import EventOperator.Decimal.Shortest

/-!
How numbers are written: with a point, or with an exponent when the number is large or small.
-/

namespace EventOperator.Decimal

structure Style where
  /-- The first digit may stand this many places behind the point before an exponent is used. -/
  leadingPlaces : Nat
  wholePlaces : Nat
  exponentDigits : Nat
  infinity : String
  notANumber : String

/-- A point is used from `0.0001` up to below `1e16`, and an exponent has two digits at least. -/
def plain : Style := ⟨4, 16, 2, "inf", "nan"⟩

def zeros (n : Nat) : String := String.ofList (List.replicate n '0')

def padded (places n : Nat) : String :=
  let digits := toString n
  zeros (places - digits.length) ++ digits

def Style.exponent (style : Style) (e : Int) : String :=
  (if e < 0 then "e-" else "e+") ++ padded style.exponentDigits e.natAbs

def Style.scientific (style : Style) (s : Scientific) : String :=
  let digits := toString s.digits
  let point : Int := digits.length + s.exponent
  if point ≤ -(style.leadingPlaces : Int) ∨ (style.wholePlaces : Int) < point then
    let (first, rest) := (digits.toList.take 1, digits.toList.drop 1)
    String.ofList (if rest.isEmpty then first else first ++ '.' :: rest)
      ++ style.exponent (point - 1)
  else if point ≤ 0 then "0." ++ zeros (-point).toNat ++ digits
  else if (digits.length : Int) ≤ point then digits ++ zeros (point - digits.length).toNat ++ ".0"
  else
    String.ofList (digits.toList.take point.toNat ++ '.' :: digits.toList.drop point.toNat)

def Style.bits (style : Style) (bits : Nat) : String :=
  let sign := if isNegative bits then "-" else ""
  let bits := magnitude bits
  if bits = 0 then sign ++ "0.0"
  else if bits < infinityBits then sign ++ style.scientific (Binary.ofBits bits).shortest
  else if bits = infinityBits then sign ++ style.infinity
  else style.notANumber

def Style.real (style : Style) (x : Float) : String := style.bits x.toBits.toNat

example : plain.bits 0x3FB999999999999A = "0.1" := by decide +kernel
example : plain.bits 0x4341C37937E08000 = "1e+16" := by decide +kernel
example : plain.bits 0x430C6BF526340000 = "1000000000000000.0" := by decide +kernel
example : plain.bits 0x3F1A36E2EB1C432D = "0.0001" := by decide +kernel
example : plain.bits 0x3EE4F8B588E368F1 = "1e-05" := by decide +kernel
example : plain.bits 0xC005BF0A8B145769 = "-2.718281828459045" := by decide +kernel

end EventOperator.Decimal
