import EventOperator.Plan.Assembly
import EventOperator.Proofs.Operation

/-!
Calls on a registry of plans. A call lacks an argument that it needs, and then changes nothing, or it
is answered and makes one change.
-/

namespace EventOperator.Plan

inductive Call where
  | mark
  | add (body? id? : Option String)
  | update (id? body? : Option String)
  | remove (id? : Option String)

inductive Answer where
  | done
  | stored (id : String)
  | removed (present : Bool)

inductive Change where
  | marked
  | stored (id body : String)
  | removed (id : String)

def Change.apply : Change → Registry → Registry
  | marked, r => r.markInitialized
  | stored id body, r => r.store id body
  | removed id, r => r.discard id

namespace Call

def perform : Call → Operation SuppliedRegistry Answer
  | mark => do
      Operation.change fun d => d.setRegistry d.registry.markInitialized
      return .done
  | add body? id? => return .stored (← SuppliedRegistry.add body? id?)
  | update id? body? => do
      SuppliedRegistry.update id? body?
      return .done
  | remove id? => return .removed (← SuppliedRegistry.remove id?)

def fault? : Call → Option Fault
  | add none _ => some (.nullArgument "executionPlan")
  | update none _ => some (.nullArgument "id")
  | update (some _) none => some (.nullArgument "executionPlan")
  | _ => none

/-- The change that an answered call makes. A plan without a given id is stored under the id that was
answered, and a plan that is removed need not have been there. -/
def change? : Call → Answer → Option Change
  | mark, _ => some .marked
  | add (some body) (some id), _ => some (.stored id body)
  | add (some body) none, .stored id => some (.stored id body)
  | update (some id) (some body), _ => some (.stored id body)
  | remove (some id), _ => some (.removed id)
  | _, _ => none

end Call

namespace SuppliedRegistry

variable (d : SuppliedRegistry) (id body : String)

theorem add_none :
    ∃ id supply, id ∉ d.registry.ids ∧
      add (some body) none d = ⟨.ok id, ⟨d.registry.store id body, supply⟩, []⟩ :=
  ⟨_, _, (d.supply.cursor d.registry.generator).nextFresh_not_mem d.registry.ids, rfl⟩

theorem remove_some :
    remove (some id) d =
      ⟨.ok (d.registry.plans.contains id), d.setRegistry (d.registry.discard id), []⟩ := by
  cases hpresent : d.registry.plans.contains id with
  | true => simp [remove, Operation.bind_apply, hpresent]
  | false =>
      have habsent : id ∉ d.registry.plans.keys := fun hmem => by
        simp [(d.registry.plans.contains_iff id).mpr hmem] at hpresent
      have hsame : d.setRegistry (d.registry.discard id) = d := by
        rw [setRegistry, Registry.discard, Table.erase_of_not_mem _ habsent]
      simp [remove, Operation.bind_apply, hpresent, hsame]

theorem idFor_answers (id? : Option String) : Operation.Answers (idFor id?) := by
  cases id? with
  | some id => exact Operation.answers_pure id
  | none =>
      apply Operation.answers_read.bind
      intro d
      apply Operation.Answers.on
      apply Operation.answers_read.bind
      exact fun supply => (Operation.answers_change _).bind fun _ => Operation.answers_pure _

theorem add_atomic (body? id? : Option String) : Operation.Atomic (add body? id?) := by
  apply (Operation.keeps_ofExcept _).bind_atomic
  intro body
  apply Operation.Answers.atomic
  apply (idFor_answers id?).bind
  exact fun id => (Operation.answers_change _).bind fun _ => Operation.answers_pure id

theorem remove_answers (id? : Option String) : Operation.Answers (remove id?) := by
  apply Operation.answers_read.bind
  intro d
  cases id? with
  | none => exact Operation.answers_pure false
  | some id =>
      apply Operation.Answers.ite
      · exact (Operation.answers_change _).bind fun _ => Operation.answers_pure true
      · exact Operation.answers_pure false

end SuppliedRegistry

namespace Call

variable {call : Call} {fault : Fault} (d : SuppliedRegistry)

theorem perform_of_fault (h : call.fault? = some fault) :
    call.perform d = ⟨.error fault, d, []⟩ := by
  cases call with
  | mark => exact nomatch h
  | add body? id? =>
      cases body? with
      | none => obtain rfl := Option.some.inj h; rfl
      | some body => exact nomatch h
  | update id? body? =>
      cases id? with
      | none => obtain rfl := Option.some.inj h; rfl
      | some id =>
          cases body? with
          | none => obtain rfl := Option.some.inj h; rfl
          | some body => exact nomatch h
  | remove id? => exact nomatch h

theorem perform_of_complete (h : call.fault? = none) :
    ∃ answer, (call.perform d).result = .ok answer ∧
      (call.perform d).state.registry =
        (call.change? answer).elim d.registry fun change => change.apply d.registry := by
  cases call with
  | mark => exact ⟨.done, rfl, rfl⟩
  | add body? id? =>
      cases body? with
      | none => exact nomatch h
      | some body =>
          cases id? with
          | some id => exact ⟨.stored id, rfl, rfl⟩
          | none =>
              obtain ⟨id, supply, -, hadd⟩ := d.add_none body
              have hresult : (SuppliedRegistry.add (some body) none d).result = .ok id := by
                rw [hadd]
              refine ⟨.stored id, ?_⟩
              rw [perform, Operation.bind_of_ok hresult, hadd]
              exact ⟨rfl, rfl⟩
  | update id? body? =>
      cases id? with
      | none => exact nomatch h
      | some id =>
          cases body? with
          | none => exact nomatch h
          | some body => exact ⟨.done, rfl, rfl⟩
  | remove id? =>
      cases id? with
      | none => exact ⟨.removed false, rfl, rfl⟩
      | some id =>
          have hremove := d.remove_some id
          have hresult : (SuppliedRegistry.remove (some id) d).result =
              .ok (d.registry.plans.contains id) := by rw [hremove]
          refine ⟨.removed (d.registry.plans.contains id), ?_⟩
          rw [perform, Operation.bind_of_ok hresult, hremove]
          exact ⟨rfl, rfl⟩

theorem result_eq_error_iff :
    (call.perform d).result = .error fault ↔ call.fault? = some fault := by
  cases hfault : call.fault? with
  | some found => simp [call.perform_of_fault d hfault]
  | none =>
      obtain ⟨answer, hresult, -⟩ := call.perform_of_complete d hfault
      simp [hresult]

theorem state_of_result_eq_error (h : (call.perform d).result = .error fault) :
    (call.perform d).state = d := by
  rw [call.perform_of_fault d ((call.result_eq_error_iff d).mp h)]

end Call

end EventOperator.Plan
