import EventOperator.Document.Cursor

/-!
Blocks of text: indented lines below a header. The lines are kept as they are or joined; the header
says what becomes of the line ends behind the last line.
-/

namespace EventOperator.Document

inductive Chomping where
  | strip
  | clip
  | keep
  deriving DecidableEq

structure BlockHeader where
  chomping : Chomping
  /-- The depth of the lines below what the block belongs to, where it is not read off the lines. -/
  depth? : Option Nat

namespace BlockHeader

def chompingAt : List Char → Option Chomping × List Char
  | '-' :: s => (some .strip, s)
  | '+' :: s => (some .keep, s)
  | s => (none, s)

def depthAt : List Char → Option Nat × List Char
  | [] => (none, [])
  | c :: s => if c.isDigit then (some (c.toNat - 48), s) else (none, c :: s)

def read? (s : List Char) : Option (BlockHeader × List Char) := do
  let (before?, s) := chompingAt s
  let (depth?, s) := depthAt s
  let (after?, s) := if before?.isSome then (none, s) else chompingAt s
  if depth? = some 0 ∨ !endsField s then none
  else return (⟨((before?.or after?).getD .clip), depth?⟩, ← afterLine? s)

end BlockHeader

def blockGap (indent : Nat) : Nat → List Char → List Char
  | _, [] => []
  | column, c :: s =>
      if isBreak c then c :: blockGap indent 0 s
      else if c = ' ' ∧ column < indent then c :: blockGap indent (column + 1) s
      else []

def widestColumn : Nat → List Char → Nat
  | column, [] => column
  | column, c :: s =>
      if isBreak c then max column (widestColumn 0 s) else widestColumn (column + 1) s

/-- What stands between two lines of a block. A line that begins with a blank is not joined. -/
def lineJoint (fold : Bool) (line breaks more next : List Char) : List Char :=
  if fold ∧ breaks = ['\n'] ∧ !line.head?.any isInline ∧ !next.head?.any isInline then
    if more.isEmpty then [' '] else more
  else breaks ++ more

def Chomping.ending (chomping : Chomping) (last more : List Char) : List Char :=
  match chomping with
  | strip => []
  | clip => last
  | keep => last ++ more

def blockLines (fold : Bool) (chomping : Chomping) (indent : Nat) (c : Cursor) :
    List Char × Cursor :=
  match _h : c.rest with
  | [] => ([], c)
  | x :: s =>
      let line := x :: s.takeWhile fun y => !isBreak y
      let behind := c.rest.drop line.length
      let last := lineEnd behind
      let gap := blockGap indent 0 (behind.drop last.length)
      let breaks := breaksIn last
      let more := breaksIn gap
      let after := c.advance (line.length + last.length + gap.length)
      if after.column = indent ∧ after.rest ≠ [] then
        let (rest, stop) := blockLines fold chomping indent after
        (line ++ lineJoint fold line breaks more after.rest ++ rest, stop)
      else (line ++ chomping.ending breaks more, after)
termination_by c.rest.length
decreasing_by
  simp only [Cursor.rest_advance, List.length_drop, _h, List.length_cons]
  omega

/-- Text below its header; `least` is the least column that its lines may have. -/
def blockText (fold : Bool) (header : BlockHeader) (least : Nat) (c : Cursor) :
    List Char × Cursor :=
  let leading := c.rest.takeWhile fun x => x = ' ' || isBreak x
  let (indent, gap) := match header.depth? with
    | some depth =>
        let indent := least + depth - 1
        (indent, blockGap indent c.column c.rest)
    | none => (max least (widestColumn c.column leading), leading)
  let after := c.advance gap.length
  let breaks := breaksIn gap
  if after.column = indent ∧ after.rest ≠ [] then
    let (text, stop) := blockLines fold header.chomping indent after
    (breaks ++ text, stop)
  else (header.chomping.ending [] breaks, after)

end EventOperator.Document
