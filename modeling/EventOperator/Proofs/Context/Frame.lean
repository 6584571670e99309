import EventOperator.Proofs.Context.Request
import EventOperator.Proofs.Plan.Alike

/-!
What a request changes at a post. The plans of a context change by a call on them, and what other
requests change does not depend on the plans.
-/

namespace EventOperator

open Operation

variable {α β μ ρ : Type}

namespace Request

def call? : Request μ ρ β → Option Plan.Call
  | addPlan body? id? => some (.add body? id?)
  | updatePlan id? body? => some (.update id? body?)
  | removePlan id? => some (.remove id?)
  | callPlans call => some call
  | _ => none

def id? : Request μ ρ β → Option String
  | addPlan _ id? => id?
  | updatePlan id? _ => id?
  | removePlan id? => id?
  | assembleOne id? => id?
  | callPlans call => call.id?
  | _ => none

def about (id? : Option String) : Request μ ρ β → Request μ ρ β
  | addPlan body? _ => addPlan body? id?
  | updatePlan _ body? => updatePlan id? body?
  | removePlan _ => removePlan id?
  | assembleOne _ => assembleOne id?
  | callPlans call => callPlans (call.about id?)
  | request => request

theorem about_id? (request : Request μ ρ β) : request.about request.id? = request := by
  cases request with
  | callPlans call => exact congrArg callPlans call.about_id?
  | _ => rfl

theorem call?_about (request : Request μ ρ β) (id? : Option String) :
    (request.about id?).call? = request.call?.map (·.about id?) := by
  cases request <;> rfl

/-- The id that a request is answered, if it has added a plan. -/
def returned? : Request μ ρ β → Except Fault β → Option String
  | addPlan _ _, .ok id => some id
  | callPlans _, result => Plan.Call.stored? result
  | _, _ => none

theorem returned?_of_call?_eq_none {request : Request μ ρ β} (h : request.call? = none)
    (result : Except Fault β) : request.returned? result = none := by
  cases request with
  | addPlan body? id? => exact nomatch h
  | callPlans call => exact nomatch h
  | _ => rfl

end Request

/-! Operations on a context alone, which do not see its plans. -/

namespace Context

def withPlans (c : Context) (r : Plan.Registry) : Context := { c with plans := r }

/-- Whatever the plans are, they stay, and the rest changes in the same way. -/
def IgnoresPlans (op : Operation Context β) : Prop :=
  ∀ (c : Context) (r : Plan.Registry), (op (c.withPlans r)).state = (op c).state.withPlans r

variable (given? : Option (Table (Option String) (Option Schema)))
  (extensions? : Option (Table (Option String) Extension.Given)) (catalogue : Extension.Catalogue)

theorem setName_ignoresPlans (name? : Option String) : IgnoresPlans (setName name?) := by
  intro c r
  cases name? <;> rfl

theorem setStreams_ignoresPlans : IgnoresPlans (setStreams given?) := by
  have hstate : ∀ c, (setStreams given? c).state =
      { c with streams := (Schema.Registry.replaceAll given? c.streams).state } :=
    state_bind_of_preserves (f := fun c => c) fun _ =>
      (keeps_read.bind fun _ => keeps_log _ _ _).preserves
  intro c r
  rw [hstate, hstate]
  rfl

theorem setExtensions_ignoresPlans : IgnoresPlans (setExtensions catalogue extensions?) :=
  fun _ _ => rfl

theorem bindOutput_ignoresPlans (output? : Option String) (type : Value) :
    IgnoresPlans (bindOutput output? type) := by
  intro c r
  cases output? with
  | none => rfl
  | some output =>
      rw [bindOutput, required_some]
      split <;> rfl

theorem setTime_ignoresPlans (v : Value) : IgnoresPlans (setTime v) := by
  intro c r
  rw [setTime]
  split
  · rfl
  · cases TimeCharacteristic.ofValue v <;> rfl

theorem setExecution_ignoresPlans (settings : ExecutionSettings) :
    IgnoresPlans (setExecution settings) := by
  intro c r
  rw [setExecution]
  split <;> rfl

end Context

namespace Post

def unmetered (p : Post α) : Context × Identity.Supply := (p.context, p.site.supply)

theorem preserves_record (event : String → Metrics.Collector α → Metrics.Collector α) :
    Preserves unmetered (record event) :=
  preserves_change fun _ => rfl

theorem preserves_close : Preserves (unmetered (α := α)) close := by
  apply keeps_read.preserves.bind
  intro p
  apply Preserves.bind
  · exact preserves_on fun _ _ => rfl
  · exact fun _ => (keeps_log _ _ _).preserves

variable [OfNat α 0] [OfNat α 1] [Add α]

theorem preserves_assembleAll : Preserves (unmetered (α := α)) assembleAll :=
  keeps_read.preserves.bind fun p => p.context.assembler.all_keeps.preserves.bind fun program =>
    (preserves_record _).bind fun _ => (keeps_pure program).preserves

theorem preserves_assembleOne (id? : Option String) :
    Preserves (unmetered (α := α)) (assembleOne id?) :=
  keeps_read.preserves.bind fun _ => (keeps_ofExcept _).preserves.bind fun program =>
    (preserves_record _).bind fun _ => (keeps_pure program).preserves

theorem preserves_newManager (kind : Engine.Kind μ ρ) :
    Preserves (unmetered (α := α)) (newManager kind) :=
  keeps_read.preserves.bind fun _ => (kind.newManager_keeps _).preserves.bind fun manager =>
    (preserves_record _).bind fun _ => (keeps_pure manager).preserves

end Post

namespace Request

variable [OfNat α 0] [OfNat α 1] [Add α] {request : Request μ ρ β} {call : Plan.Call}

theorem perform_of_call (h : request.call? = some call) (p : Post α) :
    (request.perform p).state.unmetered =
        (p.setSupplied (call.perform p.supplied).state).unmetered ∧
      request.returned? (request.perform p).result =
        Plan.Call.stored? (call.perform p.supplied).result := by
  cases request with
  | addPlan body? id? =>
      obtain rfl := Option.some.inj h
      cases hadd : (Plan.SuppliedRegistry.add body? id? p.supplied).result with
      | error fault =>
          have hon : (Operation.on Post.supplied Post.setSupplied
              (Plan.SuppliedRegistry.add body? id?) p).result = .error fault := hadd
          rw [perform, Post.addPlan, bind_of_error hon, Plan.Call.perform, bind_of_error hadd]
          exact ⟨rfl, rfl⟩
      | ok id =>
          have hon : (Operation.on Post.supplied Post.setSupplied
              (Plan.SuppliedRegistry.add body? id?) p).result = .ok id := hadd
          rw [perform, Post.addPlan, bind_of_ok hon, Plan.Call.perform, bind_of_ok hadd]
          exact ⟨rfl, rfl⟩
  | updatePlan id? body? =>
      obtain rfl := Option.some.inj h
      cases id? with
      | none => exact ⟨rfl, rfl⟩
      | some id => cases body? <;> exact ⟨rfl, rfl⟩
  | removePlan id? =>
      obtain rfl := Option.some.inj h
      obtain ⟨removed, hremove⟩ := Plan.SuppliedRegistry.remove_answers id? p.supplied
      have hon : (Operation.on Post.supplied Post.setSupplied
          (Plan.SuppliedRegistry.remove id?) p).result = .ok removed := hremove
      rw [perform, Post.removePlan, bind_of_ok hon, Plan.Call.perform, bind_of_ok hremove]
      cases removed <;> exact ⟨rfl, rfl⟩
  | callPlans call =>
      obtain rfl := Option.some.inj h
      exact ⟨rfl, rfl⟩
  | _ => cases h

/-- A context with other plans, at another site: the rest of it becomes the same. -/
def LeavesPlans (request : Request μ ρ β) : Prop :=
  ∀ (c : Context) (r : Plan.Registry) (site site' : Site α),
    (request.perform ⟨c.withPlans r, site⟩).state.unmetered =
      ((request.perform ⟨c, site'⟩).state.context.withPlans r, site.supply)

theorem leavesPlans_of_preserves
    (h : Preserves Post.unmetered (request.perform : Operation (Post α) β)) :
    request.LeavesPlans (α := α) := by
  intro c r site site'
  have hcontext : (request.perform ⟨c, site'⟩).state.context = c := congrArg Prod.fst (h ⟨c, site'⟩)
  rw [hcontext, h]
  rfl

theorem leavesPlans_of_call?_eq_none (h : request.call? = none) :
    request.LeavesPlans (α := α) := by
  have hcontext : ∀ {op : Operation Context β}, Context.IgnoresPlans op →
      ∀ (c : Context) (r : Plan.Registry) (site site' : Site α),
        (Post.onContext op ⟨c.withPlans r, site⟩).state.unmetered =
          ((Post.onContext op ⟨c, site'⟩).state.context.withPlans r, site.supply) :=
    fun hop c r site _ => congrArg (·, site.supply) (hop c r)
  cases request with
  | ask question =>
      exact leavesPlans_of_preserves (keeps_read.bind fun _ => keeps_ofExcept _).preserves
  | setName name? => exact hcontext (Context.setName_ignoresPlans name?)
  | setStreams given? => exact hcontext (Context.setStreams_ignoresPlans given?)
  | setExtensions catalogue given? =>
      exact hcontext (Context.setExtensions_ignoresPlans given? catalogue)
  | bindOutput output? type => exact hcontext (Context.bindOutput_ignoresPlans output? type)
  | setTime v => exact hcontext (Context.setTime_ignoresPlans v)
  | setExecution settings => exact hcontext (Context.setExecution_ignoresPlans settings)
  | assembleAll => exact leavesPlans_of_preserves Post.preserves_assembleAll
  | assembleOne id? => exact leavesPlans_of_preserves (Post.preserves_assembleOne id?)
  | newManager kind => exact leavesPlans_of_preserves (Post.preserves_newManager kind)
  | close => exact leavesPlans_of_preserves Post.preserves_close
  | _ => exact nomatch h

theorem perform_about_of_call?_eq_none (h : request.call? = none) (id? : Option String)
    (p : Post α) :
    ((request.about id?).perform p).state.unmetered = (request.perform p).state.unmetered := by
  cases request with
  | assembleOne _ =>
      exact (Post.preserves_assembleOne _ p).trans (Post.preserves_assembleOne _ p).symm
  | callPlans call => exact nomatch h
  | addPlan body? _ => exact nomatch h
  | updatePlan _ body? => exact nomatch h
  | removePlan _ => exact nomatch h
  | _ => rfl

theorem perform_isLater (request : Request μ ρ β) (p : Post α) :
    (request.perform p).state.site.supply.IsLater p.site.supply := by
  cases hcall : request.call? with
  | some call =>
      have hsupply := congrArg Prod.snd (perform_of_call hcall p).1
      have hstate : (request.perform p).state.site.supply =
          (call.perform p.supplied).state.supply := hsupply
      rw [hstate]
      exact call.perform_isLater p.supplied
  | none =>
      have hsupply := congrArg Prod.snd
        (leavesPlans_of_call?_eq_none hcall p.context p.context.plans p.site p.site)
      have hstate : (request.perform p).state.site.supply = p.site.supply := hsupply
      rw [hstate]
      exact .refl _

end Request

/-- Only the plans and the ids that come next may differ. -/
structure Post.Alike (origin : Identity.Origin) (goes : String → String → Prop) (p q : Post α) :
    Prop where
  supplied : p.supplied.Alike origin goes q.supplied
  context : q.context = p.context.withPlans q.context.plans

variable {origin : Identity.Origin} {goes : String → String → Prop} {p q : Post α}
  {id? other? : Option String}

theorem Post.Alike.of_unmetered_eq {p' q' : Post α} (h : p.Alike origin goes q)
    (hp : p'.unmetered = p.unmetered) (hq : q'.unmetered = q.unmetered) :
    p'.Alike origin goes q' := by
  obtain ⟨hcontext, hsupply⟩ := Prod.mk.inj hp
  obtain ⟨hcontext', hsupply'⟩ := Prod.mk.inj hq
  obtain ⟨hsupplied, hrest⟩ := h
  constructor
  · rw [Post.supplied, Post.supplied, hcontext, hsupply, hcontext', hsupply']
    exact hsupplied
  · rw [hcontext, hcontext']
    exact hrest

namespace Request

variable [OfNat α 0] [OfNat α 1] [Add α]

theorem perform_alike (hnever : origin.cursor.NeverRepeats) (h : p.Alike origin goes q)
    (hid : Option.Rel goes id? other?) (request : Request μ ρ β) :
    ∃ wider : String → String → Prop, (∀ id other, goes id other → wider id other) ∧
      ((request.about id?).perform p).state.Alike origin wider
        ((request.about other?).perform q).state ∧
      Option.Rel wider ((request.about id?).returned? ((request.about id?).perform p).result)
        ((request.about other?).returned? ((request.about other?).perform q).result) := by
  cases hcall : request.call? with
  | some call =>
      obtain ⟨wider, hwider, hsupplied, hanswer⟩ := call.perform_leavesAlike hnever h.supplied hid
      have hhere : (request.about id?).call? = some (call.about id?) := by
        rw [call?_about, hcall, Option.map_some]
      have hthere : (request.about other?).call? = some (call.about other?) := by
        rw [call?_about, hcall, Option.map_some]
      obtain ⟨hp, hreturned⟩ := perform_of_call hhere p
      obtain ⟨hq, hreturned'⟩ := perform_of_call hthere q
      have hrest : (q.setSupplied ((call.about other?).perform q.supplied).state).context =
          (p.setSupplied ((call.about id?).perform p.supplied).state).context.withPlans
            ((call.about other?).perform q.supplied).state.registry :=
        congrArg (·.withPlans ((call.about other?).perform q.supplied).state.registry) h.context
      have hafter : (p.setSupplied ((call.about id?).perform p.supplied).state).Alike origin wider
          (q.setSupplied ((call.about other?).perform q.supplied).state) := ⟨hsupplied, hrest⟩
      refine ⟨wider, hwider, hafter.of_unmetered_eq hp hq, ?_⟩
      rw [hreturned, hreturned']
      exact hanswer
  | none =>
      have hnone : ∀ id?, (request.about id?).call? = none := fun id? => by
        rw [call?_about, hcall, Option.map_none]
      have hframe := leavesPlans_of_call?_eq_none (α := α) hcall
      have hsame : q = ⟨p.context.withPlans q.context.plans, q.site⟩ := by rw [← h.context]
      have hp := (perform_about_of_call?_eq_none hcall id? p).trans
        (hframe p.context p.context.plans p.site p.site)
      have hq := perform_about_of_call?_eq_none hcall other? q
      rw [hsame, hframe p.context q.context.plans q.site p.site, ← hsame] at hq
      have hafter : ∀ c : Context, Post.Alike origin goes ⟨c.withPlans p.context.plans, p.site⟩
          ⟨c.withPlans q.context.plans, q.site⟩ := fun _ => ⟨h.supplied, rfl⟩
      refine ⟨goes, fun _ _ hgoes => hgoes, (hafter _).of_unmetered_eq hp hq, ?_⟩
      rw [returned?_of_call?_eq_none (hnone id?), returned?_of_call?_eq_none (hnone other?)]
      exact .none

end Request

end EventOperator
