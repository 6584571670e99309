import EventOperator.Proofs.Engine.Call

/-!
A registry of extensions, the managers that have been built from it, and the supply from which all of
them draw the ids of their runtimes. Whatever is done there and in whatever order, each
manager has what the registry had when the manager was built, and what it was given itself.
-/

namespace EventOperator.Engine

open Extension Identity

inductive Step where
  | merge (m : Merge)
  | build
  | call (n : Nat) (call : Call)

/-- The managers are in the order in which they were built. -/
structure ManagerSite where
  registry : Extension.Registry
  managers : List InMemory
  supply : Supply

namespace ManagerSite

def opened (registry : Extension.Registry) (supply : Supply) : ManagerSite := ⟨registry, [], supply⟩

def build (p : ManagerSite) : Except Fault InMemory :=
  (InMemory.kind.newManager (some p.registry) ()).result

/-- What fails leaves everything as it is, and so does a call on a manager that is not there. -/
def step (p : ManagerSite) : Step → ManagerSite
  | .merge m => { p with registry := (Registry.merge m.catalogue m.given? p.registry).state }
  | .build =>
      match p.build with
      | .ok m => { p with managers := p.managers ++ [m] }
      | .error _ => p
  | .call n call =>
      match p.managers[n]? with
      | some m =>
          let reached := (call.perform (m, p.supply)).state
          { p with managers := p.managers.set n reached.1, supply := reached.2 }
      | none => p

def after (p : ManagerSite) : List Step → ManagerSite
  | [] => p
  | s :: rest => (p.step s).after rest

def event? (p : ManagerSite) (n : Nat) : Step → Option Event
  | .merge _ => none
  | .build =>
      match p.build with
      | .ok _ => if n = p.managers.length then some (.built p.registry) else none
      | .error _ => none
  | .call k call =>
      if k = n then p.managers[n]?.bind fun m => call.eventAt? (m, p.supply) else none

def history (p : ManagerSite) (n : Nat) : List Step → List Event
  | [] => []
  | s :: rest => (p.event? n s).toList ++ (p.step s).history n rest

def merges : List Step → List Merge :=
  List.filterMap fun
    | .merge m => some m
    | _ => none

theorem registry_step_build (p : ManagerSite) : (p.step .build).registry = p.registry := by
  rw [step]
  split <;> rfl

theorem registry_step_call (p : ManagerSite) (n : Nat) (call : Call) :
    (p.step (.call n call)).registry = p.registry := by
  rw [step]
  split <;> rfl

theorem registry_after (p : ManagerSite) (steps : List Step) :
    (p.after steps).registry = Registry.after p.registry (merges steps) := by
  induction steps generalizing p with
  | nil => rfl
  | cons s rest ih =>
      rw [after, ih]
      cases s with
      | merge m => rfl
      | build => exact congrArg (Registry.after · (merges rest)) p.registry_step_build
      | call n call => exact congrArg (Registry.after · (merges rest)) (p.registry_step_call n call)

theorem event?_eq_built {p : ManagerSite} {n : Nat} {s : Step} {built : Extension.Registry}
    (h : p.event? n s = some (.built built)) : s = .build ∧ built = p.registry := by
  cases s with
  | merge m => cases h
  | build =>
      rw [event?] at h
      split at h
      · split at h
        · cases h
          exact ⟨rfl, rfl⟩
        · cases h
      · cases h
  | call k call =>
      rw [event?] at h
      split at h
      · obtain ⟨m, -, hevent⟩ := Option.bind_eq_some_iff.mp h
        exact absurd hevent (call.eventAt?_ne_built _ built)
      · cases h

theorem exists_build_of_history {p : ManagerSite} {n : Nat} {steps : List Step}
    {built : Extension.Registry} (h : .built built ∈ p.history n steps) :
    ∃ before later, steps = before ++ .build :: later ∧ built = (p.after before).registry := by
  induction steps generalizing p with
  | nil => cases h
  | cons s rest ih =>
      rcases List.mem_append.mp h with hfirst | hrest
      · obtain ⟨rfl, rfl⟩ := event?_eq_built (Option.mem_toList.mp hfirst)
        exact ⟨[], rest, rfl, rfl⟩
      · obtain ⟨before, later, rfl, hbuilt⟩ := ih hrest
        exact ⟨s :: before, later, rfl, hbuilt⟩

/-- Every manager was built and has gone through the events since, and nothing has happened in the
places of others. -/
structure Follows (p : ManagerSite) (start : Supply) (past : Nat → List Event) : Prop where
  later : p.supply.IsLater start
  managers : ∀ n, (p.managers[n]? = none ∧ past n = []) ∨
    ∃ m registry events, p.managers[n]? = some m ∧ past n = .built registry :: events ∧
      m.Follows start p.supply registry events

variable {p : ManagerSite} {start : Supply} {past : Nat → List Event}

theorem build_eq_ok {m : InMemory} (h : p.build = .ok m) : m = ⟨p.registry, ∅⟩ := by
  rw [build, InMemory.newManager_result] at h
  by_cases hpresent : ∀ row ∈ p.registry.rows, row.2.isAbsent = false
  · rw [InMemory.registerAll_of_present hpresent] at h
    obtain rfl := Except.ok.inj h
    exact congrArg (InMemory.mk · ∅) (Table.insertAll_empty _)
  · have habsent : ∃ row ∈ p.registry.rows, row.2.isAbsent = true := by
      push Not at hpresent
      simpa using hpresent
    rw [InMemory.registerAll_of_absent habsent] at h
    exact nomatch h

theorem Follows.merge (h : p.Follows start past) (m : Merge) :
    (p.step (.merge m)).Follows start fun n => past n ++ (p.event? n (.merge m)).toList where
  later := h.later
  managers n := by
    rw [event?, Option.toList_none, List.append_nil]
    exact h.managers n

theorem Follows.built (h : p.Follows start past) :
    (p.step .build).Follows start fun n => past n ++ (p.event? n .build).toList := by
  cases hbuild : p.build with
  | error fault =>
      have hnone : ∀ n, past n ++ (p.event? n .build).toList = past n := by
        intro n
        rw [event?, hbuild, Option.toList_none, List.append_nil]
      have hsame : p.step .build = p := by rw [step, hbuild]
      simp only [hnone, hsame]
      exact h
  | ok m =>
      have hevent : ∀ n, p.event? n .build =
          if n = p.managers.length then some (.built p.registry) else none := by
        intro n
        rw [event?, hbuild]
      have hstep : p.step .build = { p with managers := p.managers ++ [m] } := by
        rw [step, hbuild]
      rw [hstep]
      refine ⟨h.later, fun n => ?_⟩
      dsimp only
      rw [hevent]
      by_cases hn : n = p.managers.length
      · subst hn
        have hnobody : p.managers[p.managers.length]? = none :=
          List.getElem?_eq_none (Nat.le_refl _)
        have hnew : past p.managers.length = [] := by
          rcases h.managers p.managers.length with ⟨-, hpast⟩ | ⟨_, _, _, hm, -, -⟩
          · exact hpast
          · exact nomatch hnobody.symm.trans hm
        rw [if_pos rfl, hnew, build_eq_ok hbuild]
        exact Or.inr ⟨_, _, _, List.getElem?_concat_length, rfl, .built _ _ _⟩
      · rw [if_neg hn, Option.toList_none, List.append_nil]
        have hold : (p.managers ++ [m])[n]? = p.managers[n]? := by
          rcases Nat.lt_or_gt_of_ne hn with hlt | hgt
          · exact List.getElem?_append_left hlt
          · rw [List.getElem?_eq_none (Nat.le_of_lt hgt), List.getElem?_eq_none]
            rw [List.length_append, List.length_singleton]
            exact hgt
        rw [hold]
        exact h.managers n

theorem Follows.called (h : p.Follows start past) (hnever : start.shared.NeverRepeats) (k : Nat)
    (call : Call) :
    (p.step (.call k call)).Follows start
      fun n => past n ++ (p.event? n (.call k call)).toList := by
  cases hm : p.managers[k]? with
  | none =>
      have hnone : ∀ n, past n ++ (p.event? n (.call k call)).toList = past n := by
        intro n
        rw [event?]
        split
        · rename_i hk
          rw [← hk, hm, Option.bind_none, Option.toList_none, List.append_nil]
        · rw [Option.toList_none, List.append_nil]
      have hsame : p.step (.call k call) = p := by rw [step, hm]
      simp only [hnone, hsame]
      exact h
  | some m =>
      obtain ⟨registry, events, hpast, hfollows⟩ : ∃ registry events,
          past k = .built registry :: events ∧ m.Follows start p.supply registry events := by
        rcases h.managers k with ⟨hnobody, -⟩ | ⟨_, registry, events, hthere, hpast, hfollows⟩
        · exact nomatch hnobody.symm.trans hm
        · obtain rfl := Option.some.inj (hthere.symm.trans hm)
          exact ⟨registry, events, hpast, hfollows⟩
      obtain ⟨hlater, hcalled⟩ := hfollows.perform h.later hnever call
      have hstep : p.step (.call k call) =
          { p with
            managers := p.managers.set k (call.perform (m, p.supply)).state.1
            supply := (call.perform (m, p.supply)).state.2 } := by
        rw [step, hm]
      rw [hstep]
      refine ⟨hlater.trans h.later, fun n => ?_⟩
      dsimp only
      by_cases hk : k = n
      · subst hk
        have hplace : k < p.managers.length := (List.getElem?_eq_some_iff.mp hm).1
        rw [event?, if_pos rfl, hm, Option.bind_some, hpast, List.cons_append]
        exact Or.inr ⟨_, _, _, List.getElem?_set_self hplace, rfl, hcalled⟩
      · rw [event?, if_neg hk, Option.toList_none, List.append_nil, List.getElem?_set_ne hk]
        rcases h.managers n with hnobody | ⟨other, registry, events, hother, hpast, hfollows⟩
        · exact Or.inl hnobody
        · exact Or.inr ⟨other, registry, events, hother, hpast, hfollows.later hlater⟩

theorem Follows.step (h : p.Follows start past) (hnever : start.shared.NeverRepeats) (s : Step) :
    (p.step s).Follows start fun n => past n ++ (p.event? n s).toList := by
  cases s with
  | merge m => exact h.merge m
  | build => exact h.built
  | call n call => exact h.called hnever n call

theorem Follows.after (h : p.Follows start past) (hnever : start.shared.NeverRepeats)
    (steps : List Step) :
    (p.after steps).Follows start fun n => past n ++ p.history n steps := by
  induction steps generalizing p past with
  | nil =>
      simp only [history, List.append_nil]
      exact h
  | cons s rest ih =>
      simp only [history, ← List.append_assoc]
      exact ih (h.step hnever s)

end ManagerSite

/-- Whatever is done, what fails included: the registry has what was merged into it, and
a manager that was built has the extensions of the registry at that time, updated by those that it
was given itself, and runs the programs that it has accepted since it was last stopped. No two
runtimes that it has ever accepted have the same id, and the extensions of an earlier one are the
first ones of a later one. A call is refused just if something is missing from it. -/
theorem managers_have_their_history (registry : Extension.Registry) (supply : Supply)
    (hnever : supply.shared.NeverRepeats) (steps : List Step) :
    let opened := ManagerSite.opened registry supply
    let reached := opened.after steps
    reached.registry = Registry.after registry (ManagerSite.merges steps) ∧
      ∀ n, (reached.managers[n]? = none ∧ opened.history n steps = []) ∨
        ∃ m built events, reached.managers[n]? = some m ∧
          opened.history n steps = .built built :: events ∧ m.HasHistory built events ∧
          (∃ before later, steps = before ++ .build :: later ∧
            built = Registry.after registry (ManagerSite.merges before)) ∧
          ∀ call : Call, call.IsComplete ↔ (reached.event? n (.call n call)).isSome = true := by
  intro opened reached
  have hopened : opened.Follows supply fun _ => [] :=
    ⟨.refl _, fun _ => Or.inl ⟨List.getElem?_nil, rfl⟩⟩
  refine ⟨opened.registry_after steps, fun n => ?_⟩
  rcases (hopened.after hnever steps).managers n with hnobody | ⟨m, built, events, hm, hpast, hm'⟩
  · exact Or.inl hnobody
  · have hhistory : opened.history n steps = .built built :: events := hpast
    refine Or.inr ⟨m, built, events, hm, hhistory, hm'.toHasHistory, ?_, fun call => ?_⟩
    · obtain ⟨before, later, hsteps, hbuilt⟩ :=
        ManagerSite.exists_build_of_history (hhistory ▸ List.mem_cons_self)
      exact ⟨before, later, hsteps, hbuilt.trans (opened.registry_after before)⟩
    · rw [ManagerSite.event?, if_pos rfl, hm, Option.bind_some]
      exact call.isComplete_iff (m, reached.supply)

/-- The second merge and the second registration replace an extension that is there. -/
def workshopSteps : List Step :=
  [ .merge ⟨marketModules, some (Table.ofList [(some "plus", .handle (.object "Sum"))])⟩,
    .build,
    .call 0 (.register (some "times") (.object "Times")),
    .call 0 (.run (some "from Ticks select *;")),
    .merge ⟨marketModules, some (Table.ofList [(some "plus", .path "functions:Plus")])⟩,
    .build,
    .call 0 (.register (some "plus") (.object "Total")),
    .call 0 (.register none (.object "Minus")),
    .call 0 .stop,
    .call 0 (.run (some "from News select *;")),
    .call 1 (.run none),
    .call 0 (.run (some "from Trades select *;")) ]

theorem managers_have_their_history_workshop :
    let supply : Supply := ⟨.start .serial, .start .serial⟩
    let opened := ManagerSite.opened ∅ supply
    let reached := opened.after workshopSteps
    supply.shared.NeverRepeats ∧
      (reached.managers.map fun m => m.extensions.keys) = [["plus", "times"], ["plus"]] ∧
      (reached.managers.map fun m => m.runtimes.values.map Runtime.program) =
        [["from News select *;", "from Trades select *;"], []] ∧
      ∀ n < 2, ∃ m built events, reached.managers[n]? = some m ∧
        opened.history n workshopSteps = .built built :: events ∧ m.HasHistory built events := by
  intro supply opened reached
  have hkeys : (reached.managers.map fun m => m.extensions.keys) =
      [["plus", "times"], ["plus"]] := by decide +kernel
  have hlength : reached.managers.length = 2 := by simpa using congrArg List.length hkeys
  refine ⟨Cursor.serial_neverRepeats, hkeys, by decide +kernel, fun n hn => ?_⟩
  obtain ⟨-, hmanagers⟩ :=
    managers_have_their_history ∅ supply Cursor.serial_neverRepeats workshopSteps
  have hthere : reached.managers[n]? ≠ none := fun hnobody =>
    absurd (List.getElem?_eq_none_iff.mp hnobody) (by simpa [hlength] using hn)
  obtain ⟨m, built, events, h⟩ := (hmanagers n).resolve_left fun hnone => hthere hnone.1
  exact ⟨m, built, events, h.1, h.2.1, h.2.2.1⟩

end EventOperator.Engine
