import EventOperator.Context
import EventOperator.Proofs.Plan.History

/-!
Requests to a context: questions, which only look, and operations, which may change the context, the
metrics and the supply of ids. A request that fails leaves no trace.
-/

namespace EventOperator

open Metrics Operation

/-- What can be asked about a context, with the type of the answer. -/
inductive Question : Type → Type where
  | id : Question String
  | name : Question (Option String)
  | displayName : Question String
  | shown : Question String
  | summary : Question Value
  | streams : Question Schema.Registry
  | streamNames : Question (List String)
  | schema (stream? : Option String) : Question Schema
  | extensions : Question Extension.Registry
  | extension (name? : Option String) : Question Extension.Handle
  | plans : Question (Table String String)
  | output (output? : Option String) : Question (Option Value)
  | outputs : Question (Table String Value)
  | time : Question TimeCharacteristic
  | execution : Question ExecutionSettings
  | copy : Question Context
  | moved : Question Context

def Question.answer : Question β → Context → Except Fault β
  | id, c => .ok c.id
  | name, c => .ok c.name?
  | displayName, c => .ok c.displayName
  | shown, c => .ok c.shown
  | summary, c => .ok c.summary
  | streams, c => .ok c.streams
  | streamNames, c => .ok c.streams.keys
  | schema stream?, c => c.streams.find stream?
  | extensions, c => .ok c.extensions
  | extension name?, c => c.extensions.find name?
  | plans, c => c.planTable
  | output output?, c => .ok (c.binding? output?)
  | outputs, c => .ok c.outputs
  | time, c => c.time
  | execution, c => c.execution
  | copy, c => .ok c
  | moved, c => .ok c.moved

/-- Managers have a state of type `μ` and answer a `ρ`. Plans can also be stored and removed behind the
back of the context, in its registry. -/
inductive Request (μ ρ : Type) : Type → Type 1 where
  | ask (question : Question β) : Request μ ρ β
  | setName (name? : Option String) : Request μ ρ Unit
  | setStreams (given? : Option (Table (Option String) (Option Schema))) : Request μ ρ Unit
  | setExtensions (catalogue : Extension.Catalogue)
      (given? : Option (Table (Option String) Extension.Given)) : Request μ ρ Unit
  | bindOutput (output? : Option String) (type : Value) : Request μ ρ Unit
  | setTime (v : Value) : Request μ ρ Unit
  | setExecution (settings : ExecutionSettings) : Request μ ρ Unit
  | addPlan (body? id? : Option String) : Request μ ρ String
  | updatePlan (id? body? : Option String) : Request μ ρ Unit
  | removePlan (id? : Option String) : Request μ ρ Bool
  | assembleAll : Request μ ρ String
  | assembleOne (id? : Option String) : Request μ ρ String
  | newManager (kind : Engine.Kind μ ρ) : Request μ ρ μ
  | close : Request μ ρ Unit
  | callPlans (call : Plan.Call) : Request μ ρ Plan.Answer

section

variable {α : Type} [OfNat α 0] [OfNat α 1] [Add α]

def Request.perform : Request μ ρ β → Operation (Post α) β
  | ask question => do Operation.ofExcept (question.answer (← Operation.read).context)
  | setName name? => Post.onContext (Context.setName name?)
  | setStreams given? => Post.onContext (Context.setStreams given?)
  | setExtensions catalogue given? => Post.onContext (Context.setExtensions catalogue given?)
  | bindOutput output? type => Post.onContext (Context.bindOutput output? type)
  | setTime v => Post.onContext (Context.setTime v)
  | setExecution settings => Post.onContext (Context.setExecution settings)
  | addPlan body? id? => Post.addPlan body? id?
  | updatePlan id? body? => Post.updatePlan id? body?
  | removePlan id? => Post.removePlan id?
  | assembleAll => Post.assembleAll
  | assembleOne id? => Post.assembleOne id?
  | newManager kind => Post.newManager kind
  | close => Post.close
  | callPlans call => Operation.on Post.supplied Post.setSupplied call.perform

end

section

variable (given? : Option (Table (Option String) (Option Schema)))
  (extensions? : Option (Table (Option String) Extension.Given)) (catalogue : Extension.Catalogue)

theorem Schema.Registry.replaceAll_atomic : Atomic (Schema.Registry.replaceAll given?) := by
  apply (keeps_ofExcept _).bind_atomic
  intro replacement
  exact ((answers_write replacement).bind fun _ => answers_log _ _ _).atomic

theorem Extension.Registry.merge_atomic :
    Atomic (Extension.Registry.merge catalogue extensions?) := by
  apply keeps_read.bind_atomic
  intro registry
  apply (keeps_ofExcept _).bind_atomic
  intro resolved
  apply Answers.atomic
  apply (answers_write _).bind
  intro _
  apply Answers.ite
  · exact (answers_log _ _ _).bind fun _ => answers_log _ _ _
  · exact answers_log _ _ _

theorem Plan.Assembler.all_keeps {σ : Type} (assembler : Plan.Assembler) :
    Keeps (assembler.all : Operation σ String) := by
  apply (keeps_ofExcept _).bind
  exact fun _ => (keeps_log _ _ _).bind fun _ => keeps_pure _

theorem Engine.Kind.newManager_keeps {μ ρ σ : Type} (kind : Engine.Kind μ ρ)
    (extensions? : Option Extension.Registry) :
    Keeps (kind.newManager extensions? : Operation σ μ) := by
  apply (keeps_ofExcept _).bind
  intro extensions
  apply (keeps_ofExcept _).bind
  exact fun manager => (keeps_log _ _ _).bind fun _ => keeps_pure manager

theorem Metrics.Collector.discardContext_answers {α : Type} (context : String) :
    Answers (Collector.discardContext context : Operation (Collector α) Nat) := by
  apply answers_read.bind
  intro c
  apply (answers_change _).bind
  intro _
  apply Answers.ite
  · exact (answers_log _ _ _).bind fun _ => answers_pure _
  · exact answers_pure _

namespace Context

theorem setName_atomic (name? : Option String) : Atomic (setName name?) :=
  (keeps_ofExcept _).bind_atomic fun _ => (answers_change _).atomic

theorem setStreams_atomic : Atomic (setStreams given?) := by
  apply (Atomic.on (fun _ => rfl) (Schema.Registry.replaceAll_atomic given?)).bind_answers
  exact fun _ => answers_read.bind fun _ => answers_log _ _ _

theorem setExtensions_atomic : Atomic (setExtensions catalogue extensions?) :=
  Atomic.on (fun _ => rfl) (Extension.Registry.merge_atomic extensions? catalogue)

theorem bindOutput_atomic (output? : Option String) (type : Value) :
    Atomic (bindOutput output? type) := by
  apply (keeps_ofExcept _).bind_atomic
  intro output
  exact (answers_change _).atomic.refuse _

theorem setTime_atomic (v : Value) : Atomic (setTime v) := by
  apply Atomic.refuse
  exact (keeps_ofExcept _).bind_atomic fun _ => (answers_change _).atomic

theorem setExecution_atomic (settings : ExecutionSettings) : Atomic (setExecution settings) :=
  (answers_change _).atomic.refuse _

end Context

end

namespace Post

theorem close_answers {α : Type} : Answers (close : Operation (Post α) Unit) := by
  apply answers_read.bind
  intro p
  apply (Answers.on (Collector.discardContext_answers _)).bind
  exact fun removed => answers_log _ _ _

theorem record_atomic {α β : Type} {op : Operation (Post α) β} (h : Keeps op)
    (event : String → Collector α → Collector α) :
    Atomic (do
      let a ← op
      record event
      return a) := by
  apply h.bind_atomic
  exact fun a => ((answers_change _).bind fun _ => answers_pure a).atomic

variable {α μ ρ : Type} [OfNat α 0] [OfNat α 1] [Add α]

theorem addPlan_atomic (body? id? : Option String) :
    Atomic (addPlan body? id? : Operation (Post α) String) := by
  apply (Atomic.on (fun _ => rfl) (Plan.SuppliedRegistry.add_atomic body? id?)).bind_answers
  intro id
  apply answers_read.bind
  intro p
  apply (answers_change _).bind
  exact fun _ => (answers_log _ _ _).bind fun _ => answers_pure id

theorem updatePlan_atomic (id? body? : Option String) :
    Atomic (updatePlan id? body? : Operation (Post α) Unit) := by
  apply (keeps_ofExcept _).bind_atomic
  exact fun id => (addPlan_atomic body? (some id)).bind_answers fun _ => answers_pure ()

theorem removePlan_answers (id? : Option String) :
    Answers (removePlan id? : Operation (Post α) Bool) := by
  apply (Answers.on (Plan.SuppliedRegistry.remove_answers id?)).bind
  intro removed
  apply Answers.ite
  · apply answers_read.bind
    intro p
    apply (answers_change _).bind
    exact fun _ => (answers_log _ _ _).bind fun _ => answers_pure removed
  · exact answers_pure removed

theorem assembleAll_atomic : Atomic (assembleAll : Operation (Post α) String) :=
  keeps_read.bind_atomic fun p => record_atomic p.context.assembler.all_keeps _

theorem assembleAll_result (p : Post α) :
    (assembleAll p).result =
      if p.context.plans.initialized then
        .ok (p.context.streams.definitions ++ String.join p.context.plans.bodies)
      else .error (.unset "Execution plan") := by
  have hall : (p.context.assembler.all p).result =
      if p.context.plans.initialized then
        .ok (p.context.streams.definitions ++ String.join p.context.plans.bodies)
      else .error (.unset "Execution plan") := Plan.result_all p.context.assembler p
  rw [← hall, assembleAll, read_bind]
  cases hresult : (p.context.assembler.all p).result with
  | ok program => rw [bind_of_ok hresult]; rfl
  | error fault => rw [bind_of_error hresult]

theorem assembleOne_atomic (id? : Option String) :
    Atomic (assembleOne id? : Operation (Post α) String) :=
  keeps_read.bind_atomic fun _ => record_atomic (keeps_ofExcept _) _

theorem newManager_atomic (kind : Engine.Kind μ ρ) :
    Atomic (newManager kind : Operation (Post α) μ) :=
  keeps_read.bind_atomic fun _ => record_atomic (kind.newManager_keeps _) _

end Post

namespace Request

variable {α β μ ρ : Type} [OfNat α 0] [OfNat α 1] [Add α]

theorem perform_atomic (request : Request μ ρ β) :
    Atomic (request.perform : Operation (Post α) β) := by
  have hcontext : ∀ {op : Operation Context β}, Atomic op →
      Atomic (Post.onContext op : Operation (Post α) β) := Atomic.on fun _ => rfl
  cases request with
  | ask question => exact (keeps_read.bind fun _ => keeps_ofExcept _).atomic
  | setName name? => exact hcontext (Context.setName_atomic name?)
  | setStreams given? => exact hcontext (Context.setStreams_atomic given?)
  | setExtensions catalogue given? => exact hcontext (Context.setExtensions_atomic given? catalogue)
  | bindOutput output? type => exact hcontext (Context.bindOutput_atomic output? type)
  | setTime v => exact hcontext (Context.setTime_atomic v)
  | setExecution settings => exact hcontext (Context.setExecution_atomic settings)
  | addPlan body? id? => exact Post.addPlan_atomic body? id?
  | updatePlan id? body? => exact Post.updatePlan_atomic id? body?
  | removePlan id? => exact (Post.removePlan_answers id?).atomic
  | assembleAll => exact Post.assembleAll_atomic
  | assembleOne id? => exact Post.assembleOne_atomic id?
  | newManager kind => exact Post.newManager_atomic kind
  | close => exact Post.close_answers.atomic
  | callPlans call =>
      exact Atomic.on (fun _ => rfl) fun d _ h => call.state_of_result_eq_error d h

/-- Whatever a context and its site are like, a request that fails leaves them as they are: no entry of
what was given has been taken over, no id has been drawn and no series has changed. -/
theorem state_of_fault (request : Request μ ρ β) (p : Post α) (fault : Fault)
    (hfault : (request.perform p).result = .error fault) : (request.perform p).state = p :=
  request.perform_atomic p fault hfault

def marketContext : Context :=
  { Context.empty "market" Context.defaultLabel none .shared with
    streams := Query.marketStreams, plans := Plan.marketPlans }

def marketPost : Post Nat :=
  ⟨marketContext, ⟨Collector.empty.planAdded "market" 2, Plan.marketSupply⟩⟩

def brokenExtensions : Table (Option String) Extension.Given :=
  Table.ofList [(some "first", .handle (.object "First")), (some "second", .path "nowhere:Second")]

def brokenStreams : Table (Option String) (Option Schema) :=
  Table.ofList [(some "Quotes", some (.fixed "")), (some "News", none)]

theorem state_of_fault_market :
    ((setExtensions [] brokenExtensions : Request Unit Unit Unit).perform marketPost).state =
        marketPost ∧
      ((setStreams brokenStreams : Request Unit Unit Unit).perform marketPost).state = marketPost ∧
      ((assembleOne (some "falls") : Request Unit Unit String).perform marketPost).state =
        marketPost := by
  refine ⟨?_, ?_, ?_⟩
  · exact state_of_fault _ marketPost (.extensionLoad "second" "nowhere:Second"
      "No module named 'nowhere'") (by rfl)
  · exact state_of_fault _ marketPost (.nullArgument "inputStreamSchemas[News]") (by rfl)
  · exact state_of_fault _ marketPost (.undefinedPlan "falls") (by rfl)

end Request

end EventOperator
