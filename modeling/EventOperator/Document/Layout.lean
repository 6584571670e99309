import EventOperator.Document.Block
import EventOperator.Document.Plain
import EventOperator.Document.Token

/-!
The layout of a document: columns that open and close block collections, and words that turn out to
be keys when the colon behind them is read.
-/

namespace EventOperator.Document

/-- A place where a key may begin, as long as its line goes on. -/
structure KeyPlace where
  count : Nat
  required : Bool
  place : Cursor

/-- A key goes no further than its line and a thousand and twenty-four characters. -/
def KeyPlace.isStale (key : KeyPlace) (c : Cursor) : Bool :=
  key.place.line ≠ c.line || key.place.index + 1024 < c.index

structure Layout where
  cursor : Cursor
  tokens : List Token
  columns : List Nat
  /-- For each open flow collection, the innermost first, and for the blocks around them. -/
  keys : List (Option KeyPlace)
  keyAllowed : Bool

namespace Layout

def start (s : List Char) : Layout := ⟨.start s, [], [], [none], true⟩

def inFlow (l : Layout) : Bool := 1 < l.keys.length

def key? (l : Layout) : Option KeyPlace := l.keys.head?.join

def emit (token : Token) (l : Layout) : Layout := { l with tokens := token :: l.tokens }

def allow (keyAllowed : Bool) (l : Layout) : Layout := { l with keyAllowed }

def skip (n : Nat) (l : Layout) : Layout := { l with cursor := l.cursor.advance n }

def noKey (l : Layout) : Layout := { l with keys := none :: l.keys.tail }

def dropStale (l : Layout) : Except Fault Layout := do
  let fresh (key? : Option KeyPlace) : Except Fault (Option KeyPlace) :=
    match key? with
    | some key =>
        if key.isStale l.cursor then (if key.required then .error .malformed else .ok none)
        else .ok (some key)
    | none => .ok none
  return { l with keys := ← l.keys.mapM fresh }

def dropKey (l : Layout) : Except Fault Layout :=
  if l.key?.any (·.required) then .error .malformed else .ok l.noKey

/-- In a column of an open block collection nothing but a key can begin. -/
def saveKey (l : Layout) : Except Fault Layout :=
  if l.keyAllowed then do
    let l ← l.dropKey
    let required := !l.inFlow && l.columns.head? = some l.cursor.column
    return { l with keys := some ⟨l.tokens.length, required, l.cursor⟩ :: l.keys.tail }
  else .ok l

def closeBlocks (kept : Nat → Bool) (l : Layout) : Layout :=
  if l.inFlow then l
  else
    let closed := (l.columns.takeWhile fun column => !kept column).length
    { l with
      tokens := List.replicate closed .blockEnd ++ l.tokens
      columns := l.columns.drop closed }

def insertAt (count : Nat) (token : Token) (l : Layout) : Layout :=
  { l with tokens := l.tokens.insertIdx (l.tokens.length - count) token }

/-- Opens a block collection, unless one is open in its column or further right. -/
def openBlock (token : Token) (column count : Nat) (l : Layout) : Layout :=
  if l.columns.head?.all (· < column) then
    { l.insertAt count token with columns := column :: l.columns }
  else l

def openHere (token : Token) (l : Layout) : Except Fault Layout :=
  if l.inFlow then .ok l
  else if l.keyAllowed then .ok (l.openBlock token l.cursor.column l.tokens.length)
  else .error .malformed

/-- Goes on to the next token. A line end allows a key to follow, but not inside of brackets. -/
def settle (l : Layout) : Except Fault Layout := do
  let mark := if l.cursor.index = 0 ∧ l.cursor.rest.head? = some '\ufeff' then 1 else 0
  let l := l.skip mark
  let gap := gapFrom false l.cursor.rest
  let l := if gap.any isBreak && !l.inFlow then l.allow true else l
  let l ← (l.skip gap.length).dropStale
  return l.closeBlocks (· ≤ l.cursor.column)

def documentMark (token : Token) (length : Nat) (l : Layout) : Except Fault Layout := do
  let l ← (l.closeBlocks fun _ => false).dropKey
  return ((l.emit token).skip length).allow false

def flowStart (token : Token) (l : Layout) : Except Fault Layout := do
  let l ← l.saveKey
  return (({ l with keys := none :: l.keys }.emit token).skip 1).allow true

def flowEnd (token : Token) (l : Layout) : Except Fault Layout := do
  let l ← l.dropKey
  if l.inFlow then
    return (({ l with keys := l.keys.tail }.emit token).skip 1).allow false
  else .error .malformed

def comma (l : Layout) : Except Fault Layout := do
  return (((← l.dropKey).emit .comma).skip 1).allow true

def item (l : Layout) : Except Fault Layout := do
  let l ← (← l.openHere .blockSequence).dropKey
  return ((l.emit .item).skip 1).allow true

def explicitKey (l : Layout) : Except Fault Layout := do
  let l ← (← l.openHere .blockMapping).dropKey
  return ((l.emit .key).skip 1).allow (!l.inFlow)

/-- The value of a key that was saved turns that into a key; any other value stands for itself. -/
def value (l : Layout) : Except Fault Layout :=
  match l.key? with
  | some key =>
      let l := l.noKey.insertAt key.count .key
      let l := if l.inFlow then l else l.openBlock .blockMapping key.place.column key.count
      .ok (((l.emit .value).skip 1).allow false)
  | none => do
      let l ← (← l.openHere .blockMapping).dropKey
      return ((l.emit .value).skip 1).allow (!l.inFlow)

def word (read : Except Fault (Token × List Char)) (l : Layout) : Except Fault Layout := do
  let l ← l.saveKey
  let (token, s) ← read
  return { l.emit token with cursor := l.cursor.upTo s, keyAllowed := false }

def plain (l : Layout) : Except Fault Layout := do
  let l ← l.saveKey
  let least := match l.columns with
    | [] => 0
    | column :: _ => column + 1
  let text := plainText l.inFlow least l.cursor
  return { l.emit (.scalar true (text.text.map some)) with
    cursor := text.after
    keyAllowed := text.broken }

def block (fold : Bool) (s : List Char) (l : Layout) : Except Fault Layout := do
  let l ← l.dropKey
  match BlockHeader.read? s with
  | none => .error .malformed
  | some (header, s) =>
      let least := match l.columns with
        | [] => 1
        | column :: _ => column + 1
      let (text, after) := blockText fold header least (l.cursor.upTo s)
      return { l.emit (.scalar false (text.map some)) with cursor := after, keyAllowed := true }

def readWith (read : Reading α) (token : α → Token) (s : List Char) :
    Except Fault (Token × List Char) :=
  match read s with
  | some (a, s) => .ok (token a, s)
  | none => .error .malformed

def quoted (mark : Char) (s : List Char) : Except Fault (Token × List Char) := do
  let (letters, s) ← quotedText mark s
  return (.scalar false letters, s)

def next (c : Char) (s : List Char) (l : Layout) : Except Fault Layout :=
  let atMargin := l.cursor.column = 0
  if c = '%' ∧ atMargin then do
    let l ← (l.closeBlocks fun _ => false).dropKey
    let (token, s) ← readWith readDirective .directive s
    return { l.emit token with cursor := l.cursor.upTo s, keyAllowed := false }
  else if atMargin ∧ isDivider (c :: s) then
    l.documentMark (if c = '-' then .documentStart else .documentEnd) 3
  else if c = '[' then l.flowStart .flowSequence
  else if c = '\x7b' then l.flowStart .flowMapping
  else if c = ']' then l.flowEnd .flowSequenceEnd
  else if c = '\x7d' then l.flowEnd .flowMappingEnd
  else if c = ',' then l.comma
  else if c = '-' ∧ endsWord s then l.item
  else if c = '?' ∧ (l.inFlow ∨ endsWord s) then l.explicitKey
  else if c = ':' ∧ (l.inFlow ∨ endsWord s) then l.value
  else if c = '*' then l.word (readWith readAnchor .link s)
  else if c = '&' then l.word (readWith readAnchor .anchor s)
  else if c = '!' then l.word (readWith readTag .tag (c :: s))
  else if (c = '|' ∨ c = '>') ∧ !l.inFlow then l.block (c = '>') s
  else if c = '\'' ∨ c = '"' then l.word (quoted c s)
  else if beginsPlain l.inFlow (c :: s) then l.plain
  else .error .malformed

/-- The tokens in front of the first place where a key may begin. Whether those behind it are part
of a key was not decided. -/
def decided (l : Layout) : List Token :=
  let count := (l.keys.filterMap id).foldl (fun count key => min count key.count) l.tokens.length
  (l.tokens.drop (l.tokens.length - count)).reverse

def run : Nat → Layout → TokenStream
  | 0, l => ⟨l.decided, some .malformed⟩
  | steps + 1, l =>
      match l.dropStale with
      | .error fault => ⟨l.decided, some fault⟩
      | .ok l =>
          let settled := do
            let l ← l.settle
            match l.cursor.rest with
            | [] => return (← (l.closeBlocks fun _ => false).dropKey, true)
            | c :: s => return (← l.next c s, false)
          match settled with
          | .error fault => ⟨l.decided, some fault⟩
          | .ok (l, true) => ⟨l.tokens.reverse, none⟩
          | .ok (l, false) => run steps l

end Layout

def TokenStream.ofText (s : List Char) : TokenStream := Layout.run (s.length + 1) (.start s)

end EventOperator.Document
