import EventOperator.Identity.Source
import EventOperator.Operation

/-!
The supply from which ids are drawn: a source for everybody, and one that is injected into those who
are to draw from it. Each keeps its own place.
-/

namespace EventOperator.Identity

structure Cursor where
  source : Source
  position : Nat

namespace Cursor

def start (source : Source) : Cursor := ⟨source, 0⟩

def next (c : Cursor) : String × Cursor :=
  (c.source.ids c.position, { c with position := c.position + 1 })

def freshPosition (c : Cursor) (taken : List String) : Nat :=
  firstFrom (fun n => c.source.ids n ∉ taken) c.position <| by
    obtain ⟨k, hk⟩ := c.source.inexhaustible taken c.position
    exact ⟨k, by simpa using hk⟩

def nextFresh (c : Cursor) (taken : List String) : String × Cursor :=
  let position := c.freshPosition taken
  (c.source.ids position, { c with position := position + 1 })

theorem nextFresh_not_mem (c : Cursor) (taken : List String) : (c.nextFresh taken).1 ∉ taken := by
  have h := (firstFrom_spec (fun n => c.source.ids n ∉ taken) c.position (by
    obtain ⟨k, hk⟩ := c.source.inexhaustible taken c.position
    exact ⟨k, by simpa using hk⟩)).2.1
  simpa [nextFresh, freshPosition] using h

end Cursor

structure Supply where
  shared : Cursor
  injected : Cursor

inductive Generator where
  | shared
  | injected
  deriving DecidableEq

namespace Supply

def cursor (s : Supply) : Generator → Cursor
  | .shared => s.shared
  | .injected => s.injected

def move (s : Supply) (generator : Generator) (c : Cursor) : Supply :=
  match generator with
  | .shared => { s with shared := c }
  | .injected => { s with injected := c }

end Supply

def Generator.draw (generator : Generator) : Operation Supply String := do
  let (id, c) := ((← Operation.read).cursor generator).next
  Operation.change (·.move generator c)
  return id

def Generator.drawFresh (generator : Generator) (taken : List String) :
    Operation Supply String := do
  let (id, c) := ((← Operation.read).cursor generator).nextFresh taken
  Operation.change (·.move generator c)
  return id

end EventOperator.Identity
