import EventOperator.Proofs.Assembly
import EventOperator.Proofs.Plan.Call

/-!
Registries and what has happened to them. The plans of a registry, their order and its flag follow
from the changes that were made since it was empty; histories begin with the latest change.
-/

namespace EventOperator.Plan

open Identity

variable {id other body : String} {h : List Change} {r : Registry}

/-- The body that was stored last, unless the plan was removed since. -/
def bodyOf? (id : String) : List Change → Option String
  | [] => none
  | .marked :: earlier => bodyOf? id earlier
  | .stored other body :: earlier => if other = id then some body else bodyOf? id earlier
  | .removed other :: earlier => if other = id then none else bodyOf? id earlier

/-- How many changes came before the store that last made the plan present. -/
def arrival (id : String) : List Change → Nat
  | [] => 0
  | .stored other _ :: earlier =>
      if other = id ∧ bodyOf? id earlier = none then earlier.length else arrival id earlier
  | _ :: earlier => arrival id earlier

theorem arrival_stored_of_absent (hid : bodyOf? id h = none) (body : String) :
    arrival id (.stored id body :: h) = h.length := by
  rw [arrival, if_pos ⟨rfl, hid⟩]

theorem arrival_stored_of_present (hid : bodyOf? id h ≠ none) (other body : String) :
    arrival id (.stored other body :: h) = arrival id h := by
  rw [arrival, if_neg fun hnew => hid hnew.2]

theorem arrival_lt (hid : bodyOf? id h ≠ none) : arrival id h < h.length := by
  induction h with
  | nil => exact absurd rfl hid
  | cons change h ih =>
      rw [List.length_cons]
      cases change with
      | marked => exact Nat.lt_succ_of_lt (ih hid)
      | removed other =>
          rw [bodyOf?] at hid
          split at hid
          · exact absurd rfl hid
          · exact Nat.lt_succ_of_lt (ih hid)
      | stored other body =>
          by_cases hearlier : bodyOf? id h = none
          · rw [bodyOf?] at hid
            split at hid
            · rename_i heq
              subst heq
              rw [arrival_stored_of_absent hearlier]
              exact Nat.lt_succ_self _
            · exact absurd hearlier hid
          · rw [arrival_stored_of_present hearlier]
            exact Nat.lt_succ_of_lt (ih hearlier)

structure Registry.Follows (r : Registry) (h : List Change) : Prop where
  get?_eq : ∀ id, r.plans.get? id = bodyOf? id h
  ordered : r.ids.Pairwise fun id other => arrival id h < arrival other h
  initialized_iff : r.initialized = true ↔ .marked ∈ h ∨ ∃ id body, .stored id body ∈ h

namespace Registry.Follows

theorem empty (generator : Generator) : (Registry.empty generator).Follows [] where
  get?_eq _ := rfl
  ordered := List.Pairwise.nil
  initialized_iff := by simp [Registry.empty]

theorem mem_ids_iff (hr : r.Follows h) : id ∈ r.ids ↔ bodyOf? id h ≠ none := by
  rw [← hr.get?_eq, Ne, Table.get?_eq_none_iff, Decidable.not_not, Registry.ids]

theorem marked (hr : r.Follows h) : r.markInitialized.Follows (.marked :: h) where
  get?_eq := hr.get?_eq
  ordered := hr.ordered
  initialized_iff := by simp [Registry.markInitialized]

theorem stored (hr : r.Follows h) (id body : String) :
    (r.store id body).Follows (.stored id body :: h) where
  get?_eq other := by
    rw [Registry.store, Table.get?_insert, bodyOf?, hr.get?_eq]
  ordered := by
    have hkept : r.ids.Pairwise fun first second =>
        arrival first (.stored id body :: h) < arrival second (.stored id body :: h) := by
      apply hr.ordered.imp_of_mem
      intro first second hfirst hsecond hlt
      rwa [arrival_stored_of_present (hr.mem_ids_iff.mp hfirst),
        arrival_stored_of_present (hr.mem_ids_iff.mp hsecond)]
    rw [Registry.ids, Registry.store, Table.keys_insert]
    split
    · exact hkept
    · rename_i hnew
      have habsent : bodyOf? id h = none :=
        Classical.byContradiction fun hid => hnew (hr.mem_ids_iff.mpr hid)
      rw [List.pairwise_append]
      refine ⟨hkept, List.pairwise_singleton _ _, ?_⟩
      intro first hfirst second hsecond
      obtain rfl := List.mem_singleton.mp hsecond
      have hpresent := hr.mem_ids_iff.mp hfirst
      rw [arrival_stored_of_present hpresent, arrival_stored_of_absent habsent]
      exact arrival_lt hpresent
  initialized_iff := by
    have hmem : Change.stored id body ∈ Change.stored id body :: h := List.mem_cons_self
    exact iff_of_true rfl (Or.inr ⟨id, body, hmem⟩)

theorem removed (hr : r.Follows h) (id : String) :
    (r.discard id).Follows (.removed id :: h) where
  get?_eq other := by
    rw [Registry.discard, Table.get?_erase, bodyOf?, hr.get?_eq]
  ordered := by
    rw [Registry.ids, Registry.discard, Table.keys_erase]
    exact hr.ordered.filter _
  initialized_iff := by simp [Registry.discard, hr.initialized_iff]

theorem apply (hr : r.Follows h) (change : Change) : (change.apply r).Follows (change :: h) := by
  cases change with
  | marked => exact hr.marked
  | stored id body => exact hr.stored id body
  | removed id => exact hr.removed id

end Registry.Follows

structure Report where
  call : Call
  result : Except Fault Answer

namespace Report

def change? (report : Report) : Option Change :=
  match report.result with
  | .ok answer => report.call.change? answer
  | .error _ => none

@[simp] theorem change?_ok (call : Call) (answer : Answer) :
    (Report.mk call (.ok answer)).change? = call.change? answer := rfl

def removes (id : String) : Report → Bool
  | ⟨.remove (some other), .ok (.removed true)⟩ => other = id
  | _ => false

end Report

def history (reports : List Report) : List Change := (reports.filterMap Report.change?).reverse

namespace SuppliedRegistry

def opened (generator : Generator) (supply : Supply) : SuppliedRegistry :=
  ⟨.empty generator, supply⟩

def after (d : SuppliedRegistry) : List Call → SuppliedRegistry
  | [] => d
  | call :: rest => (call.perform d).state.after rest

def reports (d : SuppliedRegistry) : List Call → List Report
  | [] => []
  | call :: rest => ⟨call, (call.perform d).result⟩ :: (call.perform d).state.reports rest

end SuppliedRegistry

theorem history_cons (report : Report) (reports : List Report) :
    history (report :: reports) = history reports ++ report.change?.toList := by
  cases hchange : report.change? <;> simp [history, hchange]

variable {d : SuppliedRegistry} {call : Call} {calls : List Call}

theorem follows_perform (hd : d.registry.Follows h) (call : Call) :
    (call.perform d).state.registry.Follows
      ((Report.mk call (call.perform d).result).change?.toList ++ h) := by
  cases hfault : call.fault? with
  | some fault =>
      rw [call.perform_of_fault d hfault]
      exact hd
  | none =>
      obtain ⟨answer, hresult, hregistry⟩ := call.perform_of_complete d hfault
      rw [hresult, hregistry, Report.change?_ok]
      cases call.change? answer with
      | none => exact hd
      | some change => exact hd.apply change

theorem follows_after (hd : d.registry.Follows h) :
    (d.after calls).registry.Follows (history (d.reports calls) ++ h) := by
  induction calls generalizing d h with
  | nil => exact hd
  | cons call calls ih =>
      have hrest := ih (follows_perform hd call)
      rwa [SuppliedRegistry.reports, history_cons, List.append_assoc]

theorem remove_result (hd : d.registry.Follows h) (id : String) :
    (SuppliedRegistry.remove (some id) d).result = .ok (bodyOf? id h).isSome := by
  rw [d.remove_some, Table.contains, hd.get?_eq]

theorem perform_remove_result (hd : d.registry.Follows h) (id : String) :
    ((Call.remove (some id)).perform d).result = .ok (.removed (bodyOf? id h).isSome) := by
  rw [Call.perform, Operation.bind_of_ok (remove_result hd id)]
  rfl

theorem Report.removes_iff {report : Report} :
    report.removes id = true ↔
      report.call = .remove (some id) ∧ report.result = .ok (.removed true) := by
  obtain ⟨call, result⟩ := report
  constructor
  · intro h
    unfold Report.removes at h
    split at h
    · rename_i other heq
      obtain ⟨rfl, rfl⟩ := Report.mk.inj heq
      exact ⟨by rw [of_decide_eq_true h], rfl⟩
    · exact nomatch h
  · rintro ⟨rfl, rfl⟩
    exact decide_eq_true rfl

theorem bodyOf?_of_not_stored {change? : Option Change}
    (hchange : ∀ body, Change.stored id body ∉ change?.toList) (habsent : bodyOf? id h = none) :
    bodyOf? id (change?.toList ++ h) = none := by
  cases change? with
  | none => exact habsent
  | some change =>
      cases change with
      | marked => exact habsent
      | stored other body =>
          have hne : other ≠ id := fun heq => hchange body (by simp [heq])
          exact (if_neg hne).trans habsent
      | removed other =>
          rw [Option.toList_some, List.singleton_append, bodyOf?, habsent]
          split <;> rfl

/-- How often a plan can be removed before it is stored again. -/
def removable (id : String) (h : List Change) : Nat := if bodyOf? id h = none then 0 else 1

theorem removable_le_one (id : String) (h : List Change) : removable id h ≤ 1 := by
  rw [removable]
  split <;> decide

theorem removable_perform (hd : d.registry.Follows h) (call : Call)
    (hcall : ∀ body, Change.stored id body ∉
      (Report.mk call (call.perform d).result).change?.toList) :
    removable id ((Report.mk call (call.perform d).result).change?.toList ++ h)
        + (if (Report.mk call (call.perform d).result).removes id then 1 else 0) ≤
      removable id h := by
  by_cases hremoves : (Report.mk call (call.perform d).result).removes id = true
  · obtain ⟨rfl, hresult⟩ := Report.removes_iff.mp hremoves
    rw [perform_remove_result hd] at hresult
    have hpresent : bodyOf? id h ≠ none := by
      intro habsent
      simp [habsent] at hresult
    have hbefore : removable id h = 1 := if_neg hpresent
    have hafter : removable id (.removed id :: h) = 0 := if_pos (if_pos rfl)
    rw [if_pos hremoves, perform_remove_result hd, Report.change?_ok, Call.change?,
      Option.toList_some, List.singleton_append]
    exact Nat.le_of_eq (by rw [hbefore, hafter])
  · rw [if_neg hremoves, Nat.add_zero, removable, removable]
    by_cases habsent : bodyOf? id h = none
    · rw [if_pos (bodyOf?_of_not_stored hcall habsent)]
      exact Nat.zero_le _
    · rw [if_neg habsent]
      exact removable_le_one id _

/-- Without a store in between, a plan is removed once if it is there, and else not at all. -/
theorem countP_removes_le (id : String) (hd : d.registry.Follows h)
    (hcalls : ∀ body, Change.stored id body ∉ history (d.reports calls)) :
    (d.reports calls).countP (Report.removes id) ≤ removable id h := by
  induction calls generalizing d h with
  | nil => exact Nat.zero_le _
  | cons call calls ih =>
      rw [SuppliedRegistry.reports, history_cons] at hcalls
      have hrest := ih (follows_perform hd call) fun body hmem =>
        hcalls body (List.mem_append_left _ hmem)
      have hstep := removable_perform hd call fun body hmem =>
        hcalls body (List.mem_append_right _ hmem)
      rw [SuppliedRegistry.reports, List.countP_cons]
      exact Nat.le_trans (Nat.add_le_add_right hrest _) hstep

theorem program_eq (assembler : Assembler) :
    assembler.program =
      String.join (assembler.streams.rows.map fun row => row.2.definition row.1)
        ++ String.join (assembler.registry.plans.rows.map Prod.snd) := by
  rw [Assembler.program, Schema.Registry.definitions, Schema.Registry.definitionsOf,
    List.filter_eq_self.mpr fun _ _ => rfl]
  rfl

/-- Whatever calls there were, the registry is the one that their history tells of. Only a call that
lacks an argument fails, and it leaves everything as it is. -/
theorem registry_follows_calls (generator : Generator) (supply : Supply) (calls : List Call) :
    let d := (SuppliedRegistry.opened generator supply).after calls
    d.registry.Follows (history ((SuppliedRegistry.opened generator supply).reports calls)) ∧
      (∀ id, (SuppliedRegistry.remove (some id) d).result = .ok (decide (id ∈ d.registry.ids))) ∧
      (∀ id later, (∀ body, .stored id body ∉ history (d.reports later)) →
        (d.reports later).countP (Report.removes id) ≤ 1) ∧
      (∀ body, ∃ id, (SuppliedRegistry.add (some body) none d).result = .ok id ∧
        id ∉ d.registry.ids) ∧
      (∀ (call : Call) fault, (call.perform d).result = .error fault ↔ call.fault? = some fault) ∧
      (∀ (call : Call) fault, (call.perform d).result = .error fault → (call.perform d).state = d) ∧
      ∀ (streams : Schema.Registry) (planner : Planner) (σ : Type) (s : σ),
        ((Assembler.mk streams d.registry planner).all s).result =
          if d.registry.initialized then
            .ok (String.join (streams.rows.map fun row => row.2.definition row.1)
              ++ String.join (d.registry.plans.rows.map Prod.snd))
          else .error (.unset "Execution plan") := by
  intro d
  have hd : d.registry.Follows
      (history ((SuppliedRegistry.opened generator supply).reports calls)) := by
    have hopened : (SuppliedRegistry.opened generator supply).registry.Follows [] :=
      .empty generator
    rw [← List.append_nil (history _)]
    exact follows_after hopened
  refine ⟨hd, ?_, ?_, ?_, ?_, ?_, ?_⟩
  · intro id
    have hcontains : d.registry.plans.contains id = decide (id ∈ d.registry.ids) := by
      rw [Bool.eq_iff_iff, Table.contains_iff, decide_eq_true_iff, Registry.ids]
    rw [d.remove_some, hcontains]
  · intro id later hlater
    exact Nat.le_trans (countP_removes_le id hd hlater) (removable_le_one id _)
  · intro body
    obtain ⟨id, supply, hnew, hadd⟩ := d.add_none body
    exact ⟨id, by rw [hadd], hnew⟩
  · exact fun call fault => call.result_eq_error_iff d
  · exact fun call fault => call.state_of_result_eq_error d
  · intro streams planner σ s
    rw [result_all, program_eq]

/-- One plan is overwritten, removed and stored again, and two calls fail. -/
def marketCalls : List Call :=
  [ .add (some "from Ticks select symbol insert into Rises; ") (some "rises"),
    .add (some "from News select symbol insert into Alerts; ") (some "alerts"),
    .update (some "rises") (some "from Ticks[price > 9] select symbol insert into Rises; "),
    .remove (some "rises"), .update none (some ""), .add none (some "rises"),
    .add (some "from Ticks select symbol insert into Rises; ") (some "rises") ]

def marketSupply : Supply := ⟨.start .serial, .start .serial⟩

def marketReached : SuppliedRegistry :=
  (SuppliedRegistry.opened .shared marketSupply).after marketCalls

theorem registry_follows_calls_market :
    marketReached.registry.ids = ["alerts", "rises"] ∧
      (SuppliedRegistry.remove (some "rises") marketReached).result = .ok true ∧
      (marketReached.reports [.remove (some "rises"), .remove (some "rises")]).countP
        (Report.removes "rises") ≤ 1 ∧
      ((Call.add none (some "rises")).perform marketReached).state = marketReached := by
  obtain ⟨-, hremove, honce, -, -, hfail, -⟩ :=
    registry_follows_calls .shared marketSupply marketCalls
  have hlater : history (marketReached.reports [.remove (some "rises"), .remove (some "rises")]) =
      [.removed "rises", .removed "rises"] := rfl
  have hnostore : ∀ body, Change.stored "rises" body ∉
      history (marketReached.reports [.remove (some "rises"), .remove (some "rises")]) := by
    intro body
    simp [hlater]
  exact ⟨rfl, hremove "rises", honce "rises" _ hnostore, hfail _ _ rfl⟩

end EventOperator.Plan
