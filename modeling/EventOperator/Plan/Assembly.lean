import EventOperator.Plan.Registry
import EventOperator.Schema.Registry
import EventOperator.Query.Enrichment

/-!
Programs assembled from the definitions of streams and the plans of an operator.
-/

namespace EventOperator.Plan

def assemblySource : String := "cep_operator.core.assembler"

structure Assembler where
  streams : Schema.Registry
  registry : Registry
  planner : Planner

namespace Assembler

/-- Without a planner of its own, an assembler enriches queries. -/
def ofGiven (streams? : Option Schema.Registry) (plans? : Option Registry)
    (planner? : Option Planner) : Except Fault Assembler := do
  let streams ← required "inputStreamSchemas" streams?
  let registry ← required "executionPlans" plans?
  return ⟨streams, registry, planner?.getD Query.enrich⟩

def checkInitialized (a : Assembler) : Except Fault Unit :=
  if a.registry.initialized then .ok () else .error (.unset "Execution plan")

def program (a : Assembler) : String := a.streams.definitions ++ String.join a.registry.bodies

def sizeNote (a : Assembler) : String :=
  "Assembled " ++ toString a.streams.size ++ " stream definitions and "
    ++ toString a.registry.plans.size ++ " plans"

def all (a : Assembler) : Operation σ String := do
  Operation.ofExcept a.checkInitialized
  Operation.log assemblySource .debug a.sizeNote
  return a.program

def one (a : Assembler) (id? : Option String) : Except Fault String := do
  a.checkInitialized
  let id ← required "id" id?
  a.planner (some a.streams) (a.registry.get? (some id)) (some id)

end Assembler

end EventOperator.Plan
