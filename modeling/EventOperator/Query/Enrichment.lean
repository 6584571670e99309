import EventOperator.Query.Source
import EventOperator.Schema.Registry

/-!
Enrichment puts the definitions of the streams that a query reads in front of it.
-/

namespace EventOperator

/-- Turns a query, which may be absent, into a program. The query may have been looked up as the
plan of the given name. -/
abbrev Planner :=
  Option Schema.Registry → Option String → Option String → Except Fault String

namespace Query

def enrichBody (streams : Schema.Registry) (body : String) : Except Fault String :=
  let read := inputStreams body
  match read.find? fun stream => !streams.contains stream with
  | some stream => .error (.undefinedStream stream none)
  | none => .ok (streams.definitionsOf read.contains ++ body)

def enrich : Planner := fun streams? body? plan? => do
  let streams ← required "inputStreamSchemas" streams?
  match body?, plan? with
  | none, some plan => throw (.undefinedPlan plan)
  | _, _ => enrichBody streams (← required "executionPlan" body?)

end Query

end EventOperator
