import EventOperator.Document.Node
import EventOperator.Document.Scalar

/-!
The values of nodes. A document is read level by level, so of several faults the one in the upper
level counts, and in one level the one further left.
-/

namespace EventOperator.Document

/-- A result, or a fault and the number of levels it lies below the node. -/
abbrev Leveled (α : Type) := Except (Nat × Fault) α

namespace Leveled

def deeper : Leveled α → Leveled α
  | .ok a => .ok a
  | .error (level, fault) => .error (level + 1, fault)

def both (f : α → β → γ) : Leveled α → Leveled β → Leveled γ
  | .ok a, .ok b => .ok (f a b)
  | .error e, .ok _ => .error e
  | .ok _, .error e => .error e
  | .error e, .error e' => .error (if e'.1 < e.1 then e' else e)

def all : List (Leveled α) → Leveled (List α)
  | [] => .ok []
  | a :: rest => both List.cons a (all rest)

end Leveled

/-- A node of the wrong kind for its tag: of a scalar this is seen at once, of a collection when its
content is read. -/
def misfit (tag : Tag) : Leveled α :=
  .error (if [.list, .record, .bag, .pairs].contains tag then 1 else 0, .malformed)

abbrev Row := Leveled Value × Leveled Value

def recordOf (rows : List (Value × Value)) : Value :=
  .record (rows.foldl (fun record (key, value) => Value.putRow key value record) [])

def bagOf (rows : List (Value × Value)) : Value :=
  match recordOf rows with
  | .record rows => .bag (rows.map Prod.fst)
  | v => v

namespace Node

def tag : Node → Tag
  | scalar tag _ => tag
  | sequence tag _ => tag
  | mapping tag _ => tag
  | back _ => .unknown

mutual
/-- The text of a scalar, or of the scalar that a record stands for; surrogates have no text. -/
def scalarText? : Node → Option (Option (List Char))
  | scalar _ text? => some text?
  | mapping _ rows => defaultText? rows
  | _ => none

def defaultText? : List (Node × Node) → Option (Option (List Char))
  | [] => none
  | (key, value) :: rest => if key.tag = .default then scalarText? value else defaultText? rest
end

def scalarMeaning (n : Node) (tag : Tag) : Leveled Value :=
  match n.scalarText? with
  | some (some text) =>
      match scalarValue? tag text with
      | some value => value.mapError fun fault => (0, fault)
      | none => misfit tag
  | some none => if tag = .text then .ok .torn else misfit tag
  | none => misfit tag

/-- The values that are taken over from other records come first; own ones take their place. -/
def rowList (taken own : List Row) : Leveled (List (Value × Value)) :=
  .all ((taken ++ own).map fun (key, value) => Leveled.both Prod.mk key.deeper value.deeper)

/-- Collections are no keys; the key of a scalar that a record may stand for is a text. -/
def keyMeaning (n : Node) (meaning : Leveled Value) : Leveled Value :=
  match n with
  | scalar .default text? => scalarMeaning (scalar .text text?) .text
  | n => if [.list, .record, .bag, .pairs].contains n.tag then .error (0, .malformed) else meaning

mutual
def meaning : Node → Leveled Value
  | scalar tag text? => scalarMeaning (scalar tag text?) tag
  | sequence tag items =>
      match tag with
      | .list => (Leveled.all (meanings items)).map Value.list
      | .pairs => (Leveled.all (pairMeanings items)).map Value.list
      | tag => misfit tag
  | mapping tag rows =>
      match tag, rowMeanings rows with
      | .record, .ok (taken, own) => (rowList taken own).map recordOf
      | .bag, .ok (taken, own) => (rowList taken own).map bagOf
      | tag, _ => scalarMeaning (mapping tag rows) tag
  | back _ => .ok .null

def meanings : List Node → List (Leveled Value)
  | [] => []
  | item :: rest => item.meaning.deeper :: meanings rest

def pairMeanings : List Node → List (Leveled Value)
  | [] => []
  | item :: rest => item.pairMeaning :: pairMeanings rest

def pairMeaning : Node → Leveled Value
  | mapping _ [(key, value)] =>
      Leveled.both (fun k v => .list [k, v]) key.meaning.deeper value.meaning.deeper
  | _ => .error (1, .malformed)

def rowMeanings : List (Node × Node) → Except Fault (List Row × List Row)
  | [] => .ok ([], [])
  | (key, value) :: rest => do
      if key.tag = .merge then
        let more ← value.takenRows
        let (taken, own) ← rowMeanings rest
        return (more ++ taken, own)
      else
        let (taken, own) ← rowMeanings rest
        return (taken, (key.keyMeaning key.meaning, value.meaning) :: own)

/-- Rows come from a record or from a list of records, of which the first one counts most. -/
def takenRows : Node → Except Fault (List Row)
  | mapping _ rows => (rowMeanings rows).map fun (taken, own) => taken ++ own
  | sequence _ items => takenFromAll items
  | _ => .error .malformed

def takenFromAll : List Node → Except Fault (List Row)
  | [] => .ok []
  | item :: rest => do
      let rows ← item.allRows
      return (← takenFromAll rest) ++ rows

def allRows : Node → Except Fault (List Row)
  | mapping _ rows => (rowMeanings rows).map fun (taken, own) => taken ++ own
  | _ => .error .malformed
end

end Node

end EventOperator.Document
