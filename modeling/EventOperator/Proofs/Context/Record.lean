import EventOperator.Proofs.Context.Request
import EventOperator.Proofs.Metrics.Account

/-!
What a request makes the site record: an event under the id of the context if it succeeds and has an
effect, and else nothing. The id of a context never changes.
-/

namespace EventOperator

open Metrics Operation

variable {β μ ρ : Type}

namespace Context

variable (given? : Option (Table (Option String) (Option Schema)))
  (extensions? : Option (Table (Option String) Extension.Given)) (catalogue : Extension.Catalogue)

theorem setName_preserves_id (name? : Option String) : Preserves Context.id (setName name?) :=
  (keeps_ofExcept _).preserves.bind fun _ => preserves_change fun _ => rfl

theorem setStreams_preserves_id : Preserves Context.id (setStreams given?) := by
  apply Preserves.bind
  · exact preserves_on fun _ _ => rfl
  · exact fun _ => (keeps_read.bind fun _ => keeps_log _ _ _).preserves

theorem setExtensions_preserves_id : Preserves Context.id (setExtensions catalogue extensions?) :=
  preserves_on fun _ _ => rfl

theorem bindOutput_preserves_id (output? : Option String) (type : Value) :
    Preserves Context.id (bindOutput output? type) := by
  apply (keeps_ofExcept _).preserves.bind
  intro output
  apply Preserves.refuse
  exact preserves_change fun _ => rfl

theorem setTime_preserves_id (v : Value) : Preserves Context.id (setTime v) := by
  apply Preserves.refuse
  exact (keeps_ofExcept _).preserves.bind fun _ => preserves_change fun _ => rfl

theorem setExecution_preserves_id (settings : ExecutionSettings) :
    Preserves Context.id (setExecution settings) := by
  apply Preserves.refuse
  exact preserves_change fun _ => rfl

end Context

namespace Request

def event? : Request μ ρ β → Except Fault β → Context → Option Event
  | addPlan _ _, .ok _, c => some (.planAdded c.plans.plans.size)
  | updatePlan _ _, .ok _, c => some (.planAdded c.plans.plans.size)
  | removePlan _, .ok true, c => some (.planRemoved c.plans.plans.size)
  | newManager _, .ok _, _ => some .managerCreated
  | assembleAll, .ok _, _ => some .assembledAll
  | assembleOne _, .ok _, _ => some .assembledOne
  | close, .ok _, _ => some .closed
  | _, _, _ => none

theorem event?_error (request : Request μ ρ β) (fault : Fault) (c : Context) :
    request.event? (.error fault) c = none := by
  cases request <;> rfl

/-- The id of a context and the metrics at its site. -/
def trace (p : Post Nat) : String × Collector Nat := (p.context.id, p.site.metrics)

/-- The id stays, and what is recorded under it is the event that the request was. -/
def Records (request : Request μ ρ β) (p : Post Nat) : Prop :=
  trace (request.perform p).state =
    (p.context.id,
      (request.event? (request.perform p).result (request.perform p).state.context).elim
        p.site.metrics (Event.record p.context.id p.site.metrics))

theorem Records.of_preserves {request : Request μ ρ β} {p : Post Nat}
    (hevent : ∀ result c, request.event? result c = none)
    (h : Preserves trace request.perform) : request.Records p := by
  rw [Records, hevent]
  exact h p

theorem Records.of_error {request : Request μ ρ β} {p : Post Nat} (fault : Fault)
    (h : (request.perform p).result = .error fault) : request.Records p := by
  rw [Records, h, event?_error, request.perform_atomic p fault h]
  rfl

theorem onContext_preserves {op : Operation Context β} (h : Preserves Context.id op) :
    Preserves trace (Post.onContext op) := fun p => congrArg (·, p.site.metrics) (h p.context)

variable (p : Post Nat)

theorem addPlan_records (body? id? : Option String) :
    (addPlan body? id? : Request μ ρ String).Records p := by
  cases hadd : (Operation.on Post.supplied Post.setSupplied
      (Plan.SuppliedRegistry.add body? id?) p).result with
  | error fault =>
      apply Records.of_error fault
      rw [perform, Post.addPlan, bind_of_error hadd]
  | ok id =>
      rw [Records, perform, Post.addPlan, bind_of_ok hadd]
      rfl

theorem updatePlan_records (id? body? : Option String) :
    (updatePlan id? body? : Request μ ρ Unit).Records p := by
  cases id? with
  | none => exact Records.of_error (.nullArgument "id") rfl
  | some id =>
      have hadded : (addPlan body? (some id) : Request μ ρ String).Records p :=
        addPlan_records p body? (some id)
      cases hadd : (Post.addPlan body? (some id) p).result with
      | error fault =>
          apply Records.of_error fault
          rw [perform, Post.updatePlan, required_some, ofExcept_ok_bind, bind_of_error hadd]
      | ok _ =>
          rw [Records, perform, hadd] at hadded
          rw [Records, perform, Post.updatePlan, required_some, ofExcept_ok_bind, bind_of_ok hadd]
          exact hadded

theorem removePlan_records (id? : Option String) :
    (removePlan id? : Request μ ρ Bool).Records p := by
  obtain ⟨removed, hremove⟩ : ∃ removed,
      (Operation.on Post.supplied Post.setSupplied
        (Plan.SuppliedRegistry.remove id?) p).result = .ok removed :=
    (Plan.SuppliedRegistry.remove_answers id?).on p
  rw [Records, perform, Post.removePlan, bind_of_ok hremove]
  cases removed <;> rfl

theorem assembleAll_records : (assembleAll : Request μ ρ String).Records p := by
  cases hall : (p.context.assembler.all p).result with
  | error fault =>
      apply Records.of_error fault
      rw [perform, Post.assembleAll, read_bind, bind_of_error hall]
  | ok program =>
      rw [Records, perform, Post.assembleAll, read_bind, bind_of_ok hall,
        Plan.Assembler.all_keeps]
      rfl

theorem assembleOne_records (id? : Option String) :
    (assembleOne id? : Request μ ρ String).Records p := by
  cases hone : p.context.assembler.one id? with
  | error fault =>
      apply Records.of_error fault
      rw [perform, Post.assembleOne, read_bind, hone]
      rfl
  | ok program =>
      rw [Records, perform, Post.assembleOne, read_bind, hone, ofExcept_ok_bind]
      rfl

theorem newManager_records (kind : Engine.Kind μ ρ) : (newManager kind).Records p := by
  cases hnew : (kind.newManager (some p.context.extensions) p).result with
  | error fault =>
      apply Records.of_error fault
      rw [perform, Post.newManager, read_bind, bind_of_error hnew]
  | ok manager =>
      rw [Records, perform, Post.newManager, read_bind, bind_of_ok hnew,
        Engine.Kind.newManager_keeps]
      rfl

theorem close_records : (close : Request μ ρ Unit).Records p := by
  obtain ⟨removed, hdiscard⟩ : ∃ removed,
      (Operation.on (fun p : Post Nat => p.site.metrics)
        (fun metrics p => { p with site.metrics := metrics })
        (Collector.discardContext p.context.id) p).result = .ok removed :=
    (Collector.discardContext_answers p.context.id).on p
  rw [Records, perform, Post.close, read_bind, bind_of_ok hdiscard]
  rfl

theorem records (request : Request μ ρ β) : request.Records p := by
  cases request with
  | ask question =>
      apply Records.of_preserves fun _ _ => rfl
      exact (keeps_read.bind fun _ => keeps_ofExcept _).preserves
  | setName name? =>
      exact .of_preserves (fun _ _ => rfl) (onContext_preserves (Context.setName_preserves_id name?))
  | setStreams given? =>
      exact .of_preserves (fun _ _ => rfl)
        (onContext_preserves (Context.setStreams_preserves_id given?))
  | setExtensions catalogue given? =>
      exact .of_preserves (fun _ _ => rfl)
        (onContext_preserves (Context.setExtensions_preserves_id given? catalogue))
  | bindOutput output? type =>
      exact .of_preserves (fun _ _ => rfl)
        (onContext_preserves (Context.bindOutput_preserves_id output? type))
  | setTime v =>
      exact .of_preserves (fun _ _ => rfl) (onContext_preserves (Context.setTime_preserves_id v))
  | setExecution settings =>
      exact .of_preserves (fun _ _ => rfl)
        (onContext_preserves (Context.setExecution_preserves_id settings))
  | callPlans call => exact .of_preserves (fun _ _ => rfl) (preserves_on fun _ _ => rfl)
  | addPlan body? id? => exact addPlan_records p body? id?
  | updatePlan id? body? => exact updatePlan_records p id? body?
  | removePlan id? => exact removePlan_records p id?
  | assembleAll => exact assembleAll_records p
  | assembleOne id? => exact assembleOne_records p id?
  | newManager kind => exact newManager_records p kind
  | close => exact close_records p

end Request

end EventOperator
