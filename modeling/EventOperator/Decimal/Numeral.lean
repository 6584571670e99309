import EventOperator.Text.Blank

/-!
Whole numbers written in text. A numeral may have blanks around it, a sign, zeros in front, single
low lines between its digits, and an ending of a point and zeros.
-/

namespace EventOperator.Decimal

def isSpace (c : Char) : Bool := Text.isBlank c && !(0x1C ≤ c.toNat && c.toNat ≤ 0x1F)

def trim (s : List Char) : List Char :=
  ((s.dropWhile isSpace).reverse.dropWhile isSpace).reverse

def hasDoubleLine : List Char → Bool
  | '_' :: '_' :: _ => true
  | _ :: s => hasDoubleLine s
  | [] => false

/-- The numeral without zeros in front; one zero stays if no other digit follows. -/
def withoutLeadingZeros? (s : List Char) : Option (List Char) :=
  match s with
  | [] => none
  | c :: _ =>
      if c = '-' ∨ ('1' ≤ c ∧ c ≤ '9') then some s
      else if c ≠ '0' then none
      else
        let zeros := s.takeWhile fun d => d = '0' || d = '_'
        if hasDoubleLine zeros then none
        else
          match s.drop zeros.length with
          | [] => zeros.getLast?.map ([·])
          | d :: rest =>
              if '1' ≤ d ∧ d ≤ '9' then some (d :: rest)
              else if d = '.' then zeros.getLast?.map (· :: d :: rest)
              else none

def withoutPoint (s : List Char) : List Char :=
  match s.dropWhile (· ≠ '.') with
  | '.' :: rest => if rest.all (· = '0') then s.takeWhile (· ≠ '.') else s
  | _ => s

def withoutLines? (s : List Char) : Option (List Char) :=
  if s.head? = some '_' ∨ s.getLast? = some '_' ∨ hasDoubleLine s then none
  else some (s.filter (· ≠ '_'))

def isPlainNumeral : List Char → Bool
  | [] => false
  | ['0'] => true
  | c :: s => '1' ≤ c && c ≤ '9' && s.all Char.isDigit

def digitsValue (s : List Char) : Nat :=
  s.foldl (fun n c => 10 * n + (c.toNat - 48)) 0

/-- The sign of a numeral, true for a minus, and its plain digits. -/
def plainDigits? (s : List Char) : Option (Bool × List Char) := do
  let s := trim s
  let s ← match s with
    | '+' :: rest => if rest.head? = some '-' then none else some rest
    | _ => some s
  let s ← withoutLines? (withoutPoint (← withoutLeadingZeros? s))
  let (negative, digits) := match s with
    | '-' :: digits => (true, digits)
    | digits => (false, digits)
  if isPlainNumeral digits then some (negative, digits) else none

inductive Numeral where
  | unreadable
  | tooLong
  | value (n : Int)
  deriving DecidableEq

/-- The greatest number of digits that is read or written. -/
def longestNumeral : Nat := 4300

def readNumeral (s : String) : Numeral :=
  match plainDigits? s.toList with
  | none => .unreadable
  | some (negative, digits) =>
      if longestNumeral < digits.length then .tooLong
      else .value (if negative then -(digitsValue digits : Int) else digitsValue digits)

example : readNumeral " 1_0.0 " = .value 10 ∧ readNumeral "+04" = .value 4 ∧
    readNumeral "1__0" = .unreadable ∧ readNumeral "- 4" = .unreadable ∧
    readNumeral "-0" = .value 0 ∧ readNumeral "0x10" = .unreadable := by decide

end EventOperator.Decimal
