import EventOperator.Identity.Supply
import EventOperator.Table

/-!
The plans of an operator: queries under ids, in the order in which the ids came. A registry counts
as initialized from the first plan on, whether or not that one is removed again.
-/

namespace EventOperator.Plan

open Identity

structure Registry where
  plans : Table String String
  initialized : Bool
  /-- Where the ids of plans without one come from. -/
  generator : Generator

namespace Registry

def empty (generator : Generator) : Registry := ⟨∅, false, generator⟩

def markInitialized (r : Registry) : Registry := { r with initialized := true }

def store (r : Registry) (id body : String) : Registry :=
  { r with plans := r.plans.insert id body, initialized := true }

def discard (r : Registry) (id : String) : Registry := { r with plans := r.plans.erase id }

def ids (r : Registry) : List String := r.plans.keys

def bodies (r : Registry) : List String := r.plans.values

def get? (r : Registry) (id? : Option String) : Option String := id?.bind r.plans.get?

def contains (r : Registry) (id? : Option String) : Bool := (r.get? id?).isSome

/-- What travels to another place draws its ids from the shared source there. -/
def moved (r : Registry) : Registry := { r with generator := .shared }

def shown (r : Registry) : String := "PlanRegistry(plans=" ++ nameList r.ids ++ ")"

end Registry

/-- A registry and the supply from which the ids of its plans are drawn. -/
structure SuppliedRegistry where
  registry : Registry
  supply : Supply

namespace SuppliedRegistry

def setRegistry (registry : Registry) (d : SuppliedRegistry) : SuppliedRegistry :=
  { d with registry := registry }

def setSupply (supply : Supply) (d : SuppliedRegistry) : SuppliedRegistry :=
  { d with supply := supply }

def idFor : Option String → Operation SuppliedRegistry String
  | some id => return id
  | none => do
      let registry := (← Operation.read).registry
      Operation.on supply setSupply (registry.generator.drawFresh registry.ids)

def add (body? id? : Option String) : Operation SuppliedRegistry String := do
  let body ← Operation.ofExcept (required "executionPlan" body?)
  let id ← idFor id?
  Operation.change fun d => d.setRegistry (d.registry.store id body)
  return id

def update (id? body? : Option String) : Operation SuppliedRegistry Unit := do
  let id ← Operation.ofExcept (required "id" id?)
  let _ ← add body? (some id)

def remove (id? : Option String) : Operation SuppliedRegistry Bool := do
  let registry := (← Operation.read).registry
  match id? with
  | none => return false
  | some id =>
      if registry.plans.contains id then
        Operation.change (setRegistry (registry.discard id))
        return true
      else return false

end SuppliedRegistry

end EventOperator.Plan
