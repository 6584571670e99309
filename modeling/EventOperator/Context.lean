import EventOperator.Engine
import EventOperator.Execution
import EventOperator.Log.Scope
import EventOperator.Metrics.Collector
import EventOperator.Plan.Assembly

/-!
The context of an operator: its streams, plans, extensions, outputs and settings. Copies of a
context keep its id and share the metrics and the supply of ids, but nothing else.
-/

namespace EventOperator

open Identity Metrics

structure Context where
  id : String
  unnamedLabel : String
  name? : Option String
  time? : Option TimeCharacteristic
  execution? : Option ExecutionSettings
  outputs : Table String Value
  streams : Schema.Registry
  extensions : Extension.Registry
  plans : Plan.Registry
  planner? : Option Planner

/-- What all contexts share. -/
structure Site (α : Type) where
  metrics : Collector α
  supply : Supply

/-- A context at a site. -/
structure Post (α : Type) where
  context : Context
  site : Site α

namespace Context

def defaultLabel : String := "Unnamed"

def empty (id unnamedLabel : String) (planner? : Option Planner) (generator : Generator) :
    Context where
  id := id
  unnamedLabel := unnamedLabel
  name? := none
  time? := none
  execution? := none
  outputs := ∅
  streams := ∅
  extensions := ∅
  plans := .empty generator
  planner? := planner?

def displayName (c : Context) : String := c.name?.getD c.unnamedLabel ++ " (" ++ c.id ++ ")"

def shown (c : Context) : String := "OperatorContext(" ++ Text.quoted c.displayName ++ ")"

def moved (c : Context) : Context := { c with plans := c.plans.moved }

def assembler (c : Context) : Plan.Assembler :=
  ⟨c.streams, c.plans, c.planner?.getD Query.enrich⟩

def planTable (c : Context) : Except Fault (Table String String) := do
  c.assembler.checkInitialized
  return c.plans.plans

def time (c : Context) : Except Fault TimeCharacteristic :=
  match c.time? with
  | some time => .ok time
  | none => .error (.unset "timeCharacteristic")

def execution (c : Context) : Except Fault ExecutionSettings :=
  match c.execution? with
  | some settings => .ok settings
  | none => .error (.unset "executionConfig")

def binding? (c : Context) (output? : Option String) : Option Value :=
  output?.bind c.outputs.get?

def summary (c : Context) : Value :=
  let names (list : List String) : Value := .list (list.map .text)
  .record
    [ (.text "uuid", .text c.id),
      (.text "name", c.name?.elim .null .text),
      (.text "display_name", .text c.displayName),
      (.text "time_characteristic", c.time?.elim .null fun time => .text time.name),
      (.text "input_streams", names c.streams.keys),
      (.text "extensions", names c.extensions.keys),
      (.text "execution_plans", names c.plans.ids),
      (.text "output_streams", names c.outputs.keys) ]

def source : String := "cep_operator.core.context"

/-- The values of the fields are written already. -/
def note (level : Log.Level) (message : String) (fields : List (String × String)) :
    Operation σ Unit :=
  Operation.log source level
    (Log.withTexts message (fields.map fun (name, text) => Log.fieldText name text))

def setName (name? : Option String) : Operation Context Unit := do
  let name ← Operation.ofExcept (required "name" name?)
  Operation.change fun c => { c with name? := some name }

def setStreams (given? : Option (Table (Option String) (Option Schema))) :
    Operation Context Unit := do
  Operation.on streams (fun streams c => { c with streams }) (Schema.Registry.replaceAll given?)
  let c ← Operation.read
  note .info "Input stream schemas set"
    [("context", c.id), ("streams", (Value.list (c.streams.keys.map .text)).json)]

def setExtensions (catalogue : Extension.Catalogue)
    (given? : Option (Table (Option String) Extension.Given)) : Operation Context Unit :=
  Operation.on extensions (fun extensions c => { c with extensions })
    (Extension.Registry.merge catalogue given?)

def markInitialized : Operation Context Unit :=
  Operation.change fun c => { c with plans := c.plans.markInitialized }

def bindOutput (output? : Option String) (type : Value) : Operation Context Unit := do
  let output ← Operation.ofExcept (required "outputStreamId" output?)
  if type.isNull then Operation.fail (.nullArgument "outputStreamType")
  Operation.change fun c => { c with outputs := c.outputs.insert output type }

def setTime (v : Value) : Operation Context Unit := do
  if v.isNull then Operation.fail (.nullArgument "timeCharacteristic")
  let time ← Operation.ofExcept (TimeCharacteristic.ofValue v)
  Operation.change fun c => { c with time? := some time }

def setExecution (settings : ExecutionSettings) : Operation Context Unit := do
  if settings.isAbsent then Operation.fail (.nullArgument "executionConfig")
  Operation.change fun c => { c with execution? := some settings }

end Context

namespace Site

def newContext (unnamedLabel : String) (planner? : Option Planner) (generator : Generator) :
    Operation (Site α) Context := do
  let id ← Operation.on supply (fun supply s => { s with supply }) generator.draw
  return .empty id unnamedLabel planner? generator

/-- An operation on a context that belongs to nobody else. -/
def within (c : Context) (op : Operation (Post α) β) : Operation (Site α) β := fun site =>
  let outcome := op ⟨c, site⟩
  ⟨outcome.result, outcome.state.site, outcome.entries⟩

end Site

namespace Post

variable {α : Type} [OfNat α 0] [OfNat α 1] [Add α]

def onContext (op : Operation Context β) : Operation (Post α) β :=
  Operation.on context (fun context p => { p with context }) op

def record (event : String → Collector α → Collector α) : Operation (Post α) Unit :=
  Operation.change fun p =>
    { p with site.metrics := event p.context.id p.site.metrics }

def supplied (p : Post α) : Plan.SuppliedRegistry := ⟨p.context.plans, p.site.supply⟩

def setSupplied (d : Plan.SuppliedRegistry) (p : Post α) : Post α :=
  { p with context.plans := d.registry, site.supply := d.supply }

def addPlan (body? id? : Option String) : Operation (Post α) String := do
  let id ← Operation.on supplied setSupplied (Plan.SuppliedRegistry.add body? id?)
  let c := (← Operation.read).context
  record (Collector.planAdded · c.plans.plans.size)
  Context.note .debug "Execution plan stored" [("context", c.id), ("plan_id", id)]
  return id

def updatePlan (id? body? : Option String) : Operation (Post α) Unit := do
  let id ← Operation.ofExcept (required "id" id?)
  let _ ← addPlan body? (some id)

def removePlan (id? : Option String) : Operation (Post α) Bool := do
  let removed ← Operation.on supplied setSupplied (Plan.SuppliedRegistry.remove id?)
  if removed then
    let c := (← Operation.read).context
    record (Collector.planRemoved · c.plans.plans.size)
    Context.note .debug "Execution plan removed"
      [("context", c.id), ("plan_id", id?.getD "None")]
  return removed

def assembleAll : Operation (Post α) String := do
  let program ← (← Operation.read).context.assembler.all
  record (Collector.assembled · "all")
  return program

def assembleOne (id? : Option String) : Operation (Post α) String := do
  let program ← Operation.ofExcept ((← Operation.read).context.assembler.one id?)
  record (Collector.assembled · "one")
  return program

def newManager (kind : Engine.Kind μ ρ) : Operation (Post α) μ := do
  let manager ← kind.newManager (some (← Operation.read).context.extensions)
  record Collector.managerCreated
  return manager

/-- Runs a program on a manager of its own, which is made before the program is assembled. -/
def runOnNew (kind : Engine.Kind μ ρ) (assemble : Operation (Post α) String) :
    Operation (Post α) ρ := do
  let manager ← newManager kind
  let program ← assemble
  Operation.on (fun p => (manager, p.site.supply))
    (fun state p => { p with site.supply := state.2 }) (kind.run (some program))

def close : Operation (Post α) Unit := do
  let c := (← Operation.read).context
  let removed ← Operation.on (fun p => p.site.metrics)
    (fun metrics p => { p with site.metrics := metrics }) (Collector.discardContext c.id)
  Context.note .debug "Operator context closed"
    [("context", c.id), ("series", toString removed)]

end Post

end EventOperator
