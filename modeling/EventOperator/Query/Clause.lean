import EventOperator.Query.Comment
import EventOperator.Query.Filter
import EventOperator.Text.Split

/-!
The clauses of a query that name streams: `from` clauses, the keys of `partition with` blocks,
definitions, and `insert into` targets.
-/

namespace EventOperator.Query

open EventOperator.Text

def keyword (word : String) : List Char := word.toList

def definitionKinds : List (List Char) :=
  ["stream", "table", "window", "trigger", "aggregation"].map keyword

def definedName? : Pattern (List Char) := fun before s => do
  guard (isEdge before s.head?)
  let rest ← afterBlanks? (← afterWord? (keyword "define") s)
  let rest ← afterBlanks? (← definitionKinds.findSome? (afterWord? · rest))
  let (name, rest) ← wordRun? rest
  return taken s rest name

/-- The words between `insert` and `into`: one word and `events`. -/
def afterEventKind? (s : List Char) : Option (List Char) := do
  let (_, rest) ← wordRun? s
  afterBlanks? (← afterWord? (keyword "events") (← afterBlanks? rest))

/-- The name behind `into`; an inner stream keeps its `#`. -/
def target? (s : List Char) : Option (List Char × List Char) := do
  let rest ← afterBlanks? (← afterWord? (keyword "into") s)
  match rest with
  | '#' :: rest => (wordRun? rest).map fun (name, behind) => ('#' :: name, behind)
  | _ => wordRun? rest

def insertedName? : Pattern (List Char) := fun before s => do
  guard (isEdge before s.head?)
  let rest ← afterBlanks? (← afterWord? (keyword "insert") s)
  let (name, rest) ← ((afterEventKind? rest).bind target?).or (target? rest)
  return taken s rest name

def localNames (s : List Char) : List (List Char) :=
  captures definedName? s ++ captures insertedName? s

def afterKeys? : List Char → Option (List Char)
  | ')' :: s => afterWord? (keyword "begin") (s.dropWhile isBlank)
  | _ => none

def keys? : List Char → Option (List Char × List Char)
  | [] => none
  | c :: s =>
      match afterKeys? (c :: s) with
      | some behind => some ([], behind)
      | none => (keys? s).map fun (keys, behind) => (c :: keys, behind)

def partitionKeys? : Pattern (List Char) := fun before s => do
  guard (isEdge before s.head?)
  let rest ← afterBlanks? (← afterWord? (keyword "partition") s)
  let rest ← after? '(' ((← afterWord? (keyword "with") rest).dropWhile isBlank)
  let (keys, behind) ← keys? rest
  return taken s behind keys

def keySource? : Pattern (List Char) := fun before s => do
  guard (isEdge before s.head?)
  let (name, rest) ← wordRun? (← afterBlanks? (← afterWord? (keyword "of") s))
  return taken s rest name

def clauseEnds : List (List Char) :=
  ["select", "insert", "delete", "update", "return", "output"].map keyword

def fromClause? : Pattern (List Char) := fun before s => do
  let rest ← afterWholeWord? (keyword "from") before s
  let clause := upToWord clauseEnds (lastBefore before s rest) rest
  return taken s (rest.drop clause.length) clause

def statements (s : List Char) : List (List Char) := splitAt ';' s

end EventOperator.Query
