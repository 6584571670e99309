import EventOperator.Text.Range

/-!
Places in the text of a document, and the characters that divide the text into lines and words.
-/

namespace EventOperator.Document

def isBreak (c : Char) : Bool :=
  c = '\n' || c = '\r' || c = '\x85' || c = '\u2028' || c = '\u2029'

def isInline (c : Char) : Bool := c = ' ' || c = '\t'

def isGap (c : Char) : Bool := isInline c || isBreak c

def isReadable (c : Char) : Bool :=
  Text.inRanges c.toNat
    [ (0x9, 0xA), (0xD, 0xD), (0x20, 0x7E), (0x85, 0x85), (0xA0, 0xD7FF), (0xE000, 0xFFFD),
      (0x10000, 0x10FFFF) ]

def isNameChar (c : Char) : Bool := c.isAlphanum || c = '-' || c = '_'

def endsLine : List Char → Bool
  | [] => true
  | c :: _ => isBreak c

def endsField : List Char → Bool
  | [] => true
  | c :: _ => c = ' ' || isBreak c

def endsWord : List Char → Bool
  | [] => true
  | c :: _ => isGap c

/-- Three hyphens or three points that stand alone divide documents. -/
def isDivider : List Char → Bool
  | '-' :: '-' :: '-' :: s => endsWord s
  | '.' :: '.' :: '.' :: s => endsWord s
  | _ => false

/-- The line ends in a run of text. All but the line and paragraph separators become a newline. -/
def breaksIn : List Char → List Char
  | [] => []
  | '\r' :: '\n' :: s => '\n' :: breaksIn s
  | c :: s =>
      if c = '\n' ∨ c = '\r' ∨ c = '\x85' then '\n' :: breaksIn s
      else if isBreak c then c :: breaksIn s
      else breaksIn s

/-- Lines are joined by a space; where lines between them are empty, by the line ends of those. -/
def joined : List Char → List Char
  | [] => []
  | ['\n'] => [' ']
  | '\n' :: more => more
  | breaks => breaks

def lineEnd : List Char → List Char
  | '\r' :: '\n' :: _ => ['\r', '\n']
  | c :: _ => if isBreak c then [c] else []
  | [] => []

def gapFrom (inComment : Bool) : List Char → List Char
  | [] => []
  | c :: s =>
      if isBreak c then c :: gapFrom false s
      else if inComment || c = '#' then c :: gapFrom true s
      else if c = ' ' then c :: gapFrom false s
      else []

def dropComment : List Char → List Char
  | '#' :: s => s.dropWhile fun c => !isBreak c
  | s => s

def afterLine? (s : List Char) : Option (List Char) :=
  let s := dropComment (s.dropWhile (· = ' '))
  if endsLine s then some (s.drop (lineEnd s).length) else none

structure Cursor where
  rest : List Char
  index : Nat
  line : Nat
  column : Nat

namespace Cursor

def start (s : List Char) : Cursor := ⟨s, 0, 0, 0⟩

/-- The two characters of a line end count as one line; a byte order mark takes no column. -/
def next (c : Cursor) : Cursor :=
  match c.rest with
  | [] => c
  | x :: s =>
      if isBreak x && !(x = '\r' && s.head? = some '\n') then ⟨s, c.index + 1, c.line + 1, 0⟩
      else ⟨s, c.index + 1, c.line, if x = '\ufeff' then c.column else c.column + 1⟩

def advance : Nat → Cursor → Cursor
  | 0, c => c
  | n + 1, c => advance n c.next

@[simp] theorem rest_next (c : Cursor) : c.next.rest = c.rest.drop 1 := by
  rw [next]
  split
  · rename_i h
    simp [h]
  · rename_i x s h
    split <;> simp [h]

@[simp] theorem rest_advance (n : Nat) (c : Cursor) : (c.advance n).rest = c.rest.drop n := by
  induction n generalizing c with
  | zero => rfl
  | succ n ih => rw [advance, ih, rest_next, List.drop_drop, Nat.add_comm]

def upTo (s : List Char) (c : Cursor) : Cursor := c.advance (c.rest.length - s.length)

end Cursor

end EventOperator.Document
