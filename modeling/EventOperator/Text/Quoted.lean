import EventOperator.Text.Hex
import EventOperator.Text.Printable

/-!
Text in quotes. Single quotes stand around it, unless it holds a single quote and no double one. The
quote and the backslash are escaped, and so are the characters that are not printable.
-/

namespace EventOperator.Text

def codeEscape (n : Nat) : List Char :=
  if n < 0x100 then '\\' :: 'x' :: hexDigits 2 n
  else if n < 0x10000 then '\\' :: 'u' :: hexDigits 4 n
  else '\\' :: 'U' :: hexDigits 8 n

def quoteChar (quote c : Char) : List Char :=
  if c = quote ∨ c = '\\' then ['\\', c]
  else if c = '\n' then ['\\', 'n']
  else if c = '\r' then ['\\', 'r']
  else if c = '\t' then ['\\', 't']
  else if isPrintable c then [c]
  else codeEscape c.toNat

def quoteMark (s : List Char) : Char :=
  if s.contains '\'' && !s.contains '"' then '"' else '\''

def quoted (s : String) : String :=
  let mark := quoteMark s.toList
  String.ofList (mark :: s.toList.flatMap (quoteChar mark) ++ [mark])

def quotedBytes (octets : List UInt8) : String :=
  let s := octets.map fun octet => Char.ofNat octet.toNat
  let mark := quoteMark s
  let octetChar (c : Char) : List Char :=
    if c.toNat < 128 then quoteChar mark c else codeEscape c.toNat
  String.ofList ('b' :: mark :: s.flatMap octetChar ++ [mark])

example : quoted "it's" = "\"it's\"" ∧ quoted "a\nb" = "'a\\nb'" ∧ quoted "'\"" = "'\\'\"'" := by
  decide

end EventOperator.Text
