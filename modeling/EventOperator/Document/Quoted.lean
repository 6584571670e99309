import EventOperator.Document.Cursor
import EventOperator.Document.Fault
import EventOperator.Text.Hex

/-!
Text in quotes. It may go on over several lines, which are joined. In double quotes a backslash
begins an escape; in single quotes a quote is written twice.
-/

namespace EventOperator.Document

/-- A code point that an escape names; no character has one of the surrogates. -/
abbrev Letter := Option Char

def escapeOf? : Char → Option Char
  | '0' => some '\x00'
  | 'a' => some '\x07'
  | 'b' => some '\x08'
  | 't' | '\t' => some '\t'
  | 'n' => some '\n'
  | 'v' => some '\x0b'
  | 'f' => some '\x0c'
  | 'r' => some '\r'
  | 'e' => some '\x1b'
  | ' ' => some ' '
  | '"' => some '"'
  | '\\' => some '\\'
  | '/' => some '/'
  | 'N' => some '\x85'
  | '_' => some '\xa0'
  | 'L' => some '\u2028'
  | 'P' => some '\u2029'
  | _ => none

def codeLength? : Char → Option Nat
  | 'x' => some 2
  | 'u' => some 4
  | 'U' => some 8
  | _ => none

def letterOf (code : Nat) : Except Fault Letter :=
  if 0x80000000 ≤ code then .error .codeTooLarge
  else if 0x110000 ≤ code then .error .codeOutOfRange
  else if code.isValidChar then .ok (some (Char.ofNat code))
  else .ok none

/-- Letters at the front of a text, and the number of characters that they take after the first. -/
abbrev Piece := Except Fault (List Letter × Nat)

def gapPiece (join : List Char → List Char) (s : List Char) : Piece :=
  let gap := s.takeWhile isGap
  if gap.getLast?.any isBreak ∧ isDivider (s.dropWhile isGap) then .error .malformed
  else if gap.any isBreak then .ok ((join (breaksIn gap)).map some, gap.length - 1)
  else .ok (gap.map some, gap.length - 1)

def escapePiece : List Char → Piece
  | [] => .error .malformed
  | c :: s =>
      match escapeOf? c, codeLength? c with
      | some escaped, _ => .ok ([some escaped], 1)
      | none, some places => do
          let digits := s.take places
          if digits.length = places ∧ digits.all fun d => (Text.hexValue? d).isSome then
            return ([← letterOf (Text.hexNumber digits)], places + 1)
          else .error .malformed
      | none, none =>
          if isBreak c then do
            let (letters, more) ← gapPiece List.tail (c :: s)
            return (letters, more + 1)
          else .error .malformed

def quotedPiece (mark c : Char) (s : List Char) : Piece :=
  if isGap c then gapPiece joined (c :: s)
  else if c = mark then .ok ([some c], 1)
  else if c = '\\' ∧ mark = '"' then escapePiece s
  else .ok ([some c], 0)

def quotedFrom (mark : Char) : Nat → List Char → Except Fault (List Letter × List Char)
  | _, [] => .error .malformed
  | skip + 1, _ :: s => quotedFrom mark skip s
  | 0, c :: s =>
      if c = mark ∧ (mark = '"' ∨ s.head? ≠ some mark) then .ok ([], s)
      else do
        let (letters, more) ← quotedPiece mark c s
        let (rest, s) ← quotedFrom mark more s
        return (letters ++ rest, s)

def quotedText (mark : Char) (s : List Char) : Except Fault (List Letter × List Char) :=
  quotedFrom mark 0 s

end EventOperator.Document
