import EventOperator.Document.Layout
import EventOperator.Document.Tag

/-!
The tree of a document. A link stands for the node with its anchor; a link to a collection that
contains it stands for a tree without end, of which the upper levels are kept.
-/

namespace EventOperator.Document

inductive Node where
  /-- The text of a scalar is missing if it holds a surrogate. -/
  | scalar (tag : Tag) (text? : Option (List Char))
  | sequence (tag : Tag) (items : List Node)
  | mapping (tag : Tag) (rows : List (Node × Node))
  | back (anchor : List Char)

namespace Node

mutual
def linksTo (anchor : List Char) : Node → Bool
  | scalar _ _ => false
  | sequence _ items => anyLinksTo anchor items
  | mapping _ rows => anyRowLinksTo anchor rows
  | back name => name = anchor

def anyLinksTo (anchor : List Char) : List Node → Bool
  | [] => false
  | item :: rest => linksTo anchor item || anyLinksTo anchor rest

def anyRowLinksTo (anchor : List Char) : List (Node × Node) → Bool
  | [] => false
  | (key, value) :: rest =>
      linksTo anchor key || linksTo anchor value || anyRowLinksTo anchor rest
end

mutual
def replaceLinks (anchor : List Char) (whole : Node) : Node → Node
  | scalar tag text? => scalar tag text?
  | sequence tag items => sequence tag (replaceAll anchor whole items)
  | mapping tag rows => mapping tag (replaceRows anchor whole rows)
  | back name => if name = anchor then whole else back name

def replaceAll (anchor : List Char) (whole : Node) : List Node → List Node
  | [] => []
  | item :: rest => replaceLinks anchor whole item :: replaceAll anchor whole rest

def replaceRows (anchor : List Char) (whole : Node) : List (Node × Node) → List (Node × Node)
  | [] => []
  | (key, value) :: rest =>
      (replaceLinks anchor whole key, replaceLinks anchor whole value)
        :: replaceRows anchor whole rest
end

def hollow : Node → Node
  | sequence tag _ => sequence tag []
  | mapping tag _ => mapping tag []
  | n => n

/-- More levels of a tree without end than any declaration has. -/
def unfoldedLevels : Nat := 6

def unfolded (anchor : List Char) (n : Node) : Node :=
  if n.linksTo anchor then grown n unfoldedLevels else n
where
  grown (n : Node) : Nat → Node
    | 0 => n.hollow
    | levels + 1 => replaceLinks anchor (grown n levels) n

end Node

structure Outlook where
  stream : TokenStream
  directives : List Directive
  /-- The anchors so far. A collection has no node before its end. -/
  anchors : List (List Char × Option Node)

abbrev NodeReader := StateT Outlook (Except Fault)

namespace NodeReader

def refuse : NodeReader α := throw .malformed

def peek : NodeReader (Option Token) := do
  match (← get).stream with
  | ⟨token :: _, _⟩ => return some token
  | ⟨[], none⟩ => return none
  | ⟨[], some fault⟩ => throw fault

def drop : NodeReader Unit :=
  modify fun o => { o with stream := { o.stream with tokens := o.stream.tokens.tail } }

def accept (token : Token) : NodeReader Bool := do
  let found := (← peek) = some token
  if found then drop
  return found

def need (token : Token) : NodeReader Unit := do
  if !(← accept token) then refuse

def isNext (tokens : List Token) : NodeReader Bool := do
  return (← peek).any tokens.contains

def anchorHere? : NodeReader (Option (List Char)) := do
  match ← peek with
  | some (.anchor name) => do
      drop
      return some name
  | _ => return none

def tagHere? : NodeReader (Option TagName) := do
  match ← peek with
  | some (.tag name) => do
      drop
      return some name
  | _ => return none

def handles (directives : List Directive) : List (List Char × List Char) :=
  directives.filterMap (fun
    | .handle name text => some (name, text)
    | _ => none)
    ++ [(['!'], ['!']), (['!', '!'], Tag.space.toList)]

def fullTag : TagName → NodeReader (List Char)
  | .whole text => return text
  | .short handle text => do
      match (handles (← get).directives).lookup handle with
      | some front => return front ++ text
      | none => refuse

def properties : NodeReader (Option (List Char) × Option (List Char)) := do
  let before? ← anchorHere?
  let tag? ← tagHere?
  let after? ← if before?.isSome then pure none else anchorHere?
  return (before?.or after?, ← tag?.mapM fullTag)

def setAnchor (anchor? : Option (List Char)) (node? : Option Node) : NodeReader Unit :=
  match anchor? with
  | some anchor => modify fun o => { o with anchors := (anchor, node?) :: o.anchors }
  | none => pure ()

def openAnchor (anchor? : Option (List Char)) : NodeReader Unit := do
  let anchors := (← get).anchors
  if anchor?.any fun anchor => (anchors.lookup anchor).isSome then refuse
  setAnchor anchor? none

def closeAnchor (anchor? : Option (List Char)) (n : Node) : NodeReader Node := do
  let n := match anchor? with
    | some anchor => n.unfolded anchor
    | none => n
  setAnchor anchor? (some n)
  return n

def linked (anchor : List Char) : NodeReader Node := do
  match (← get).anchors.lookup anchor with
  | some (some n) => return n
  | some none => return .back anchor
  | none => refuse

/-- A tag that is a mark alone says no more than that there is one. -/
def collectionTag (usual : Tag) : Option (List Char) → Tag
  | none | some ['!'] => usual
  | some name => Tag.named name

def tagOfText (text? : Option (List Char)) : Tag :=
  match text? with
  | some text => Tag.ofText text
  | none => .text

def scalarOf (isPlain : Bool) (tag? : Option (List Char)) (letters : List Letter) : Node :=
  let text? := letters.mapM id
  let tag := match tag? with
    | none => if isPlain then tagOfText text? else .text
    | some ['!'] => tagOfText text?
    | some name => Tag.named name
  .scalar tag text?

def absent : Node := .scalar .null (some [])

/-! Nodes and what they contain. Every step takes a token or goes from a node to its content. -/

mutual
/-- In a mapping the items of a block sequence may stand in the column of the keys. -/
def node (inBlock indentless : Bool) : Nat → NodeReader Node
  | 0 => refuse
  | steps + 1 => do
      match ← peek with
      | some (.link anchor) => do
          drop
          linked anchor
      | _ => do
          let (anchor?, tag?) ← properties
          openAnchor anchor?
          let isMarked := anchor?.isSome || tag?.isSome
          closeAnchor anchor? (← content inBlock indentless isMarked tag? steps)

def content (inBlock indentless isMarked : Bool) (tag? : Option (List Char)) :
    Nat → NodeReader Node
  | 0 => refuse
  | steps + 1 => do
      let token? ← peek
      match token? with
      | some (.scalar isPlain letters) => do
          drop
          return scalarOf isPlain tag? letters
      | some .flowSequence => do
          drop
          return .sequence (collectionTag .list tag?) (← flowItems true steps)
      | some .flowMapping => do
          drop
          return .mapping (collectionTag .record tag?) (← flowRows true steps)
      | _ =>
          if indentless ∧ token? = some .item then
            return .sequence (collectionTag .list tag?) (← indentlessItems steps)
          else if inBlock ∧ token? = some .blockSequence then do
            drop
            return .sequence (collectionTag .list tag?) (← blockItems steps)
          else if inBlock ∧ token? = some .blockMapping then do
            drop
            return .mapping (collectionTag .record tag?) (← blockRows steps)
          else if isMarked then return scalarOf true tag? []
          else refuse

def nodeUnless (tokens : List Token) (inBlock indentless : Bool) : Nat → NodeReader Node
  | 0 => refuse
  | steps + 1 => do
      if ← isNext tokens then return absent else node inBlock indentless steps

def blockItems : Nat → NodeReader (List Node)
  | 0 => refuse
  | steps + 1 => do
      if ← accept .item then
        let item ← nodeUnless [.item, .blockEnd] true false steps
        return item :: (← blockItems steps)
      else
        need .blockEnd
        return []

def indentlessItems : Nat → NodeReader (List Node)
  | 0 => refuse
  | steps + 1 => do
      if ← accept .item then
        let item ← nodeUnless [.item, .key, .value, .blockEnd] true false steps
        return item :: (← indentlessItems steps)
      else return []

def blockRows : Nat → NodeReader (List (Node × Node))
  | 0 => refuse
  | steps + 1 => do
      if ← accept .key then
        let ends : List Token := [.key, .value, .blockEnd]
        let key ← nodeUnless ends true true steps
        let value ← if ← accept .value then nodeUnless ends true true steps else pure absent
        return (key, value) :: (← blockRows steps)
      else
        need .blockEnd
        return []

def flowRow (close : Token) : Nat → NodeReader (Node × Node)
  | 0 => refuse
  | steps + 1 => do
      let key ← nodeUnless [.value, .comma, close] false false steps
      let value ← if ← accept .value then nodeUnless [.comma, close] false false steps
        else pure absent
      return (key, value)

/-- A row among the items of a sequence is a record of its own. -/
def flowItems (isFirst : Bool) : Nat → NodeReader (List Node)
  | 0 => refuse
  | steps + 1 => do
      if ← accept .flowSequenceEnd then return []
      if !isFirst then need .comma
      if ← accept .key then
        let row ← flowRow .flowSequenceEnd steps
        return .mapping .record [row] :: (← flowItems false steps)
      else if ← accept .flowSequenceEnd then return []
      else
        let item ← node false false steps
        return item :: (← flowItems false steps)

def flowRows (isFirst : Bool) : Nat → NodeReader (List (Node × Node))
  | 0 => refuse
  | steps + 1 => do
      if ← accept .flowMappingEnd then return []
      if !isFirst then need .comma
      if ← accept .key then
        let row ← flowRow .flowMappingEnd steps
        return row :: (← flowRows false steps)
      else if ← accept .flowMappingEnd then return []
      else
        let key ← node false false steps
        return (key, absent) :: (← flowRows false steps)
end

/-- There is one version at most, and a handle has one meaning. -/
def declare (directive : Directive) : NodeReader Unit := do
  let declared := (← get).directives
  let isSound := match directive with
    | .version major => major = 1 && !declared.any (· matches .version _)
    | .handle name _ => !declared.any fun
        | .handle known _ => known = name
        | _ => false
    | .other => true
  if !isSound then refuse
  modify fun o => { o with directives := directive :: o.directives }

def declarations : Nat → NodeReader Unit
  | 0 => refuse
  | steps + 1 => do
      match ← peek with
      | some (.directive directive) => do
          drop
          declare directive
          declarations steps
      | _ => pure ()

def documentEnds : Nat → NodeReader Unit
  | 0 => refuse
  | steps + 1 => do
      if ← accept .documentEnd then documentEnds steps
      else if (← peek).isSome then refuse

def document (steps : Nat) : NodeReader Node := do
  match ← peek with
  | none => return absent
  | some token => do
      let isOpen := token matches .directive _ | .documentStart
      if isOpen then
        declarations steps
        need .documentStart
      let isBare := match ← peek with
        | none => true
        | some (.directive _) | some .documentStart | some .documentEnd => isOpen
        | some _ => false
      let n ← if isBare then pure absent else node true false steps
      documentEnds steps
      return n

end NodeReader

def Node.ofStream (stream : TokenStream) : Except Fault Node :=
  (NodeReader.document (4 * stream.tokens.length + 8)).run' ⟨stream, [], []⟩

end EventOperator.Document
