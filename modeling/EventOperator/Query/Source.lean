import EventOperator.Query.Clause

/-!
The sources of a `from` clause are the names that are left when filters, handlers, grouping,
conditions, time bounds, aliases, counts and numbers have been taken out, in this order.
-/

namespace EventOperator.Query

open EventOperator.Text

def isHandlerChar (c : Char) : Bool := isWord c || c = ':' || c = '.'

/-- A handler with its arguments, which end at the first closing parenthesis: `#window.time(5)`. -/
def handler? : Pattern Unit := fun _ s =>
  match s with
  | '#' :: rest => do
      guard (isHandlerChar (← rest.head?))
      let arguments ← after? '(' ((rest.dropWhile isHandlerChar).dropWhile isBlank)
      let behind ← after? ')' (arguments.dropWhile (· ≠ ')'))
      return taken s behind ()
  | _ => none

def grouping? : Pattern Unit := fun _ s =>
  match s with
  | c :: _ => if c = '(' || c = ')' then some (0, ()) else none
  | [] => none

def joinWords : List (List Char) := ["join", "left", "right", "full", "inner"].map keyword

/-- A join condition, up to the next join. -/
def condition? : Pattern Unit := fun before s => do
  let rest ← afterWholeWord? (keyword "on") before s
  let condition := upToWord joinWords (lastBefore before s rest) rest
  return taken s (rest.drop condition.length) ()

/-- A time bound and all that follows it. -/
def timeBound? : Pattern Unit := fun before s => do
  let _ ← afterWholeWord? (keyword "within") before s
  return taken s [] ()

def isNumberChar (c : Char) : Bool := isWord c || c = '.'

def waiting? : Pattern Unit := fun before s => do
  guard (isEdge before s.head?)
  let rest ← afterBlanks? (← afterWord? (keyword "for") s)
  guard (isDigit (← rest.head?))
  let behind := (rest.dropWhile isNumberChar).dropWhile isBlank
  return taken s (behind.dropWhile isWord) ()

def eventAlias? : Pattern Unit := fun before s => do
  guard (isEdge before s.head?)
  let (_, rest) ← wordRun? s
  let behind ← after? '=' (rest.dropWhile isBlank)
  return taken s behind ()

def streamAlias? : Pattern Unit := fun before s => do
  guard (isEdge before s.head?)
  let (_, rest) ← wordRun? (← afterBlanks? (← afterWord? (keyword "as") s))
  return taken s rest ()

def count? : Pattern Unit := fun _ s =>
  match s with
  | '<' :: rest => do
      let behind ← after? '>' (rest.dropWhile (· ≠ '>'))
      return taken s behind ()
  | _ => none

def number? : Pattern Unit := fun before s => do
  guard (isEdge before s.head? && isDigit (← s.head?))
  return taken s (s.dropWhile isNumberChar) ()

/-- What is taken out of a clause once it holds no filters. -/
def noise : List (Pattern Unit) :=
  [handler?, grouping?, condition?, timeBound?, waiting?, eventAlias?, streamAlias?, count?,
    number?]

def bareClause (clause : List Char) : List Char :=
  noise.foldl (fun s p => blankOut p s) (withoutFilters clause)

def isNameStart (c : Char) : Bool := c.isAlpha || c = '_'

def name? : Pattern (List Char) := fun _ s =>
  match s with
  | '#' :: c :: rest =>
      if isNameStart c then
        some (taken s (rest.dropWhile isWord) ('#' :: c :: rest.takeWhile isWord))
      else none
  | c :: rest =>
      if isNameStart c then some (taken s (rest.dropWhile isWord) (c :: rest.takeWhile isWord))
      else none
  | [] => none

def clauseWords : List (List Char) :=
  ["every", "join", "left", "right", "full", "outer", "inner", "unidirectional", "and", "or",
    "not", "for", "as", "on", "within"].map keyword

def isSourceName (name : List Char) : Bool :=
  name.head? ≠ some '#' && !clauseWords.contains (name.map Char.toLower)

def clauseSources (clause : List Char) : List (List Char) :=
  (captures name? (bareClause clause)).filter isSourceName

/-- The streams that are named as sources, with repetitions. Keys of partitions come first. -/
def referencedNames (s : List Char) : List (List Char) :=
  (captures partitionKeys? s).flatMap (captures keySource?)
    ++ (statements s).flatMap fun statement =>
      (captures fromClause? statement).flatMap clauseSources

def distinct [DecidableEq α] : List α → List α
  | [] => []
  | a :: rest => a :: (distinct rest).filter (· ≠ a)

def inputNames (text : List Char) : List (List Char) :=
  let s := stripComments text
  distinct ((referencedNames s).filter fun name => !(localNames s).contains name)

end EventOperator.Query

namespace EventOperator

/-- The streams that a query reads and neither defines nor produces, in the order in which they are
first named. -/
def inputStreams (body : String) : List String :=
  (Query.inputNames body.toList).map String.ofList

example :
    inputStreams "from A[x > 1] as a join B on a.x == B.x select x insert into C;" =
      ["A", "B"] := by
  decide +kernel

end EventOperator
