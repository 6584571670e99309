import EventOperator.Document.Stamp
import EventOperator.Text.Split

/-!
Tags say what a node stands for. A plain scalar without a tag gets the one that its text looks like.
-/

namespace EventOperator.Document

inductive Tag where
  | null
  | flag
  | whole
  | real
  | octets
  | moment
  | text
  | list
  | record
  | bag
  | pairs
  | merge
  | default
  | unknown
  deriving DecidableEq

namespace Tag

def space : String := "tag:yaml.org,2002:"

/-- Ordered records and pairs are read alike. -/
def names : List (String × Tag) :=
  [ ("null", null), ("bool", flag), ("int", whole), ("float", real), ("binary", octets),
    ("timestamp", moment), ("str", text), ("seq", list), ("map", record), ("set", bag),
    ("omap", pairs), ("pairs", pairs), ("merge", merge), ("value", default) ]

def named (name : List Char) : Tag :=
  match names.find? fun (known, _) => (space ++ known).toList = name with
  | some (_, tag) => tag
  | none => unknown

def unsigned : List Char → List Char
  | '+' :: s => s
  | '-' :: s => s
  | s => s

def isDigitOrLine (c : Char) : Bool := c.isDigit || c = '_'

/-- The word in small letters, in capitals, or with one capital in front. -/
def spellings (word : String) : List String :=
  [ word, word.capitalize, word.toUpper ]

def isAnyOf (words : List String) (s : List Char) : Bool :=
  (words.flatMap spellings).any (·.toList = s)

def looksNull (s : List Char) : Bool := s = ['~'] || isAnyOf ["null"] s

def looksFlag (s : List Char) : Bool :=
  isAnyOf ["yes", "no", "true", "false", "on", "off"] s

def isSixtieth : List Char → Bool
  | [b] => b.isDigit
  | [a, b] => '0' ≤ a && a ≤ '5' && b.isDigit
  | _ => false

/-- The first digit is not a low line, and the other parts are digits in base sixty. -/
def isSexagesimal (s : List Char) : Bool :=
  match Text.splitAt ':' s with
  | (c :: first) :: rest => c.isDigit && first.all isDigitOrLine && rest.all isSixtieth
  | _ => false

def looksWhole (s : List Char) : Bool :=
  match unsigned s with
  | [] => false
  | ['0'] => true
  | '0' :: 'b' :: s => !s.isEmpty && s.all fun c => c = '0' || c = '1' || c = '_'
  | '0' :: 'x' :: s => !s.isEmpty && s.all fun c => (Text.hexValue? c).isSome || c = '_'
  | '0' :: s => s.all fun c => ('0' ≤ c && c ≤ '7') || c = '_'
  | s => isSexagesimal s

def isExponent : List Char → Bool
  | [] => true
  | e :: sign :: s =>
      (e = 'e' || e = 'E') && (sign = '+' || sign = '-') && !s.isEmpty && s.all Char.isDigit
  | _ => false

/-- Digits in base sixty have no exponent behind them. -/
def looksFinite (s : List Char) : Bool :=
  let front := s.takeWhile (· ≠ '.')
  match s.dropWhile (· ≠ '.') with
  | '.' :: back =>
      let rest := back.dropWhile isDigitOrLine
      isSexagesimal front && (if front.contains ':' then rest.isEmpty else isExponent rest)
  | _ => false

def looksReal (s : List Char) : Bool :=
  [".nan", ".NaN", ".NAN"].any (·.toList = s)
    || [".inf", ".Inf", ".INF"].any (·.toList = unsigned s)
    || looksFinite (unsigned s)
    || match s with
      | '.' :: c :: s => c.isDigit && isExponent (s.dropWhile isDigitOrLine)
      | _ => false

def looksMoment (s : List Char) : Bool :=
  match readMoment? s with
  | some m => m.clock?.isSome || s.length = 10
  | none => false

def ofText (s : List Char) : Tag :=
  let word := withoutLastBreak s
  if s.isEmpty || looksNull word then null
  else if looksFlag word then flag
  else if looksWhole word then whole
  else if looksReal word then real
  else if looksMoment word then moment
  else if word = ['<', '<'] then merge
  else if word = ['='] then default
  else if ["!", "&", "*"].any (·.toList = word) then unknown
  else text

example : ofText "010".toList = whole ∧ ofText "08".toList = text ∧ ofText "1:30".toList = whole ∧
    ofText "1.5e3".toList = text ∧ ofText "1.5e+3".toList = real ∧ ofText "yES".toList = text ∧
    ofText "2024-01-01".toList = moment ∧ ofText "2024-1-1".toList = text := by decide +kernel

end Tag

end EventOperator.Document
