/-!
Hexadecimal digits: the last ones of a number, or all of them with zeros in front.
-/

namespace EventOperator.Text

def hexDigit (n : Nat) : Char :=
  if n < 10 then Char.ofNat (48 + n) else Char.ofNat (87 + n)

def hexDigits : Nat → Nat → List Char
  | 0, _ => []
  | places + 1, n => hexDigits places (n / 16) ++ [hexDigit (n % 16)]

def hexValue? (c : Char) : Option Nat :=
  if '0' ≤ c ∧ c ≤ '9' then some (c.toNat - 48)
  else if 'a' ≤ c ∧ c ≤ 'f' then some (c.toNat - 87)
  else if 'A' ≤ c ∧ c ≤ 'F' then some (c.toNat - 55)
  else none

theorem hexValue?_hexDigit {n : Nat} (h : n < 16) : hexValue? (hexDigit n) = some n := by
  have hall : ∀ m : Fin 16, hexValue? (hexDigit m) = some m.val := by decide
  exact hall ⟨n, h⟩

def hexNumeral (n : Nat) : List Char :=
  if n < 16 then [hexDigit n] else hexNumeral (n / 16) ++ [hexDigit (n % 16)]

def paddedHex (places n : Nat) : List Char :=
  List.replicate (places - (hexNumeral n).length) '0' ++ hexNumeral n

def hexNumber (s : List Char) : Nat := s.foldl (fun n c => 16 * n + (hexValue? c).getD 0) 0

theorem hexNumber_append (s t : List Char) :
    hexNumber (s ++ t) = t.foldl (fun n c => 16 * n + (hexValue? c).getD 0) (hexNumber s) := by
  simp [hexNumber]

theorem hexNumber_replicate_zero (places : Nat) : hexNumber (List.replicate places '0') = 0 := by
  induction places with
  | zero => rfl
  | succ places ih =>
      rw [List.replicate_succ', hexNumber_append, ih]
      rfl

theorem hexNumber_hexNumeral (n : Nat) : hexNumber (hexNumeral n) = n := by
  fun_induction hexNumeral n with
  | case1 n h => simp [hexNumber, hexValue?_hexDigit h]
  | case2 n h ih =>
      rw [hexNumber_append, ih]
      simp only [List.foldl_cons, List.foldl_nil, hexValue?_hexDigit (Nat.mod_lt n (by omega)),
        Option.getD_some]
      omega

theorem hexNumber_paddedHex (places n : Nat) : hexNumber (paddedHex places n) = n := by
  rw [paddedHex, hexNumber_append, hexNumber_replicate_zero]
  exact hexNumber_hexNumeral n

theorem paddedHex_injective {places m n : Nat} (h : paddedHex places m = paddedHex places n) :
    m = n := by
  rw [← hexNumber_paddedHex places m, h, hexNumber_paddedHex]

example : paddedHex 4 0x1f = ['0', '0', '1', 'f'] := by decide +kernel

end EventOperator.Text
