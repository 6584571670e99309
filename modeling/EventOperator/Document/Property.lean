import EventOperator.Document.Cursor
import EventOperator.Text.Hex

/-!
What may stand in front of a document or of a node: directives, anchors and tags. Each reader takes
a text and gives what it read and the text after it.
-/

namespace EventOperator.Document

abbrev Reading (α : Type) := List Char → Option (α × List Char)

def readName : Reading (List Char) := fun s =>
  match s.takeWhile isNameChar with
  | [] => none
  | name => some (name, s.dropWhile isNameChar)

def endsAnchor : List Char → Bool
  | [] => true
  | c :: _ => isGap c || "?:,]\x7d%@`".toList.contains c

def readAnchor : Reading (List Char) := fun s => do
  let (name, s) ← readName s
  if endsAnchor s then some (name, s) else none

def isTagChar (c : Char) : Bool := c.isAlphanum || "-;/?:@&=+$,_.!~*'()[]".toList.contains c

def tagOctets : Reading (List UInt8)
  | '%' :: a :: b :: s => do
      let high ← Text.hexValue? a
      let low ← Text.hexValue? b
      let (octets, s) ← tagOctets s
      some (UInt8.ofNat (16 * high + low) :: octets, s)
  | [] => some ([], [])
  | c :: s =>
      if c = '%' then none
      else if isTagChar c then do
        let (octets, s) ← tagOctets s
        some (UInt8.ofNat c.toNat :: octets, s)
      else some ([], c :: s)

def readTagText : Reading (List Char) := fun s => do
  let (octets, s) ← tagOctets s
  let text ← String.fromUTF8? ⟨octets.toArray⟩
  if text.isEmpty then none else some (text.toList, s)

def readHandle : Reading (List Char)
  | '!' :: ' ' :: s => some (['!'], ' ' :: s)
  | '!' :: s =>
      match s.dropWhile isNameChar with
      | '!' :: rest => some ('!' :: s.takeWhile isNameChar ++ ['!'], rest)
      | _ => none
  | _ => none

/-- A tag as it is written: whole, or with a handle that stands for its first part. -/
inductive TagName where
  | whole (text : List Char)
  | short (handle text : List Char)
  deriving DecidableEq

def readTagName : Reading TagName
  | '!' :: '<' :: s => do
      let (text, s) ← readTagText s
      match s with
      | '>' :: s => some (.whole text, s)
      | _ => none
  | '!' :: s =>
      if endsWord s then some (.whole ['!'], s)
      else if (s.takeWhile fun c => !(c = ' ' || isBreak c)).contains '!' then do
        let (handle, s) ← readHandle ('!' :: s)
        let (text, s) ← readTagText s
        some (.short handle text, s)
      else do
        let (text, s) ← readTagText s
        some (.short ['!'] text, s)
  | _ => none

def readTag : Reading TagName := fun s => do
  let (tag, s) ← readTagName s
  if endsField s then some (tag, s) else none

inductive Directive where
  | version (major : Nat)
  | handle (name text : List Char)
  | other
  deriving DecidableEq

def readDigits : Reading Nat := fun s =>
  match s.takeWhile Char.isDigit with
  | [] => none
  | digits => some (Nat.ofDigitChars 10 digits 0, s.dropWhile Char.isDigit)

def afterSpaces (s : List Char) : List Char := s.dropWhile (· = ' ')

def readVersion : Reading Directive := fun s => do
  let (major, s) ← readDigits (afterSpaces s)
  match s with
  | '.' :: s => do
      let (_, s) ← readDigits s
      if endsField s then some (.version major, s) else none
  | _ => none

def readHandleMeaning : Reading Directive := fun s => do
  let (name, s) ← readHandle (afterSpaces s)
  if s.head? ≠ some ' ' then none
  else
    let (text, s) ← readTagText (afterSpaces s)
    if endsField s then some (.handle name text, s) else none

/-- A directive takes the whole line; one that is not known is passed over. -/
def readDirective : Reading Directive := fun s => do
  let (name, s) ← readName s
  if !endsField s then none
  else
    let (directive, s) ←
      if name = "YAML".toList then readVersion s
      else if name = "TAG".toList then readHandleMeaning s
      else some (.other, s.dropWhile fun c => !isBreak c)
    some (directive, ← afterLine? s)

end EventOperator.Document
