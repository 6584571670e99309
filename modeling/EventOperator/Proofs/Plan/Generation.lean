import EventOperator.Proofs.Plan.Alike
import EventOperator.Proofs.Table

/-!
Plans that are stored without an id. Ids are drawn until one is not taken, which comes to an end
where such an id is ahead. A registry and its copies draw from one source, whose place only moves
on: if the source never repeats an id, no two of them are given the same one.
-/

namespace EventOperator

namespace Identity

variable {ids : Nat → String} {taken : List String} {position n : Nat}

/-- Draws up to the first id that is not taken, which is answered with the place behind it. Sources
are inexhaustible, but a sequence need not be: if all ids ahead are taken, drawing does not end. -/
inductive DrawsUntaken (ids : Nat → String) (taken : List String) : Nat → String × Nat → Prop where
  | here {position : Nat} : ids position ∉ taken →
      DrawsUntaken ids taken position (ids position, position + 1)
  | further {position : Nat} {drawn : String × Nat} : ids position ∈ taken →
      DrawsUntaken ids taken (position + 1) drawn → DrawsUntaken ids taken position drawn

/-- The id at place `n` is the first one from `position` on that is not taken. -/
structure IsFirstUntaken (ids : Nat → String) (taken : List String) (position n : Nat) : Prop where
  le : position ≤ n
  untaken : ids n ∉ taken
  taken_before : ∀ m, position ≤ m → m < n → ids m ∈ taken

namespace IsFirstUntaken

theorem here (h : ids position ∉ taken) : IsFirstUntaken ids taken position position :=
  ⟨Nat.le_refl _, h, fun _ hle hlt => absurd hlt (Nat.not_lt.mpr hle)⟩

theorem earlier (htaken : ids position ∈ taken) (h : IsFirstUntaken ids taken (position + 1) n) :
    IsFirstUntaken ids taken position n := by
  refine ⟨Nat.le_of_succ_le h.le, h.untaken, fun m hle hlt => ?_⟩
  rcases Nat.eq_or_lt_of_le hle with rfl | hlt'
  · exact htaken
  · exact h.taken_before m hlt' hlt

theorem later (htaken : ids position ∈ taken) (h : IsFirstUntaken ids taken position n) :
    IsFirstUntaken ids taken (position + 1) n := by
  refine ⟨Nat.lt_of_le_of_ne h.le ?_, h.untaken,
    fun m hle => h.taken_before m (Nat.le_of_succ_le hle)⟩
  rintro rfl
  exact h.untaken htaken

theorem unique {m : Nat} (h : IsFirstUntaken ids taken position n)
    (h' : IsFirstUntaken ids taken position m) : n = m := by
  rcases Nat.lt_trichotomy n m with hlt | heq | hlt
  · exact absurd (h'.taken_before n h.le hlt) h.untaken
  · exact heq
  · exact absurd (h.taken_before m h'.le hlt) h'.untaken

theorem draws (h : IsFirstUntaken ids taken position n) :
    DrawsUntaken ids taken position (ids n, n + 1) := by
  obtain ⟨k, rfl⟩ := Nat.exists_eq_add_of_le h.le
  induction k generalizing position with
  | zero => exact .here h.untaken
  | succ k ih =>
      have htaken : ids position ∈ taken := h.taken_before _ (Nat.le_refl _) (by omega)
      have hlater := h.later htaken
      rw [← Nat.add_assoc, Nat.add_right_comm] at hlater ⊢
      exact .further htaken (ih hlater)

theorem firstFrom (h : ∃ k, decide (ids (position + k) ∉ taken) = true) :
    IsFirstUntaken ids taken position (firstFrom (fun n => ids n ∉ taken) position h) := by
  obtain ⟨hle, haccepts, hbefore⟩ := firstFrom_spec (fun n => ids n ∉ taken) position h
  exact ⟨hle, of_decide_eq_true haccepts, fun m hm hlt => by simpa using hbefore m hm hlt⟩

end IsFirstUntaken

theorem exists_isFirstUntaken (h : ∃ n, position ≤ n ∧ ids n ∉ taken) :
    ∃ n, IsFirstUntaken ids taken position n := by
  obtain ⟨n, hle, huntaken⟩ := h
  obtain ⟨k, rfl⟩ := Nat.exists_eq_add_of_le hle
  exact ⟨_, .firstFrom ⟨k, decide_eq_true huntaken⟩⟩

/-- Drawing ends at the first id that is not taken, and only there. -/
theorem drawsUntaken_iff {drawn : String × Nat} :
    DrawsUntaken ids taken position drawn ↔
      ∃ n, IsFirstUntaken ids taken position n ∧ drawn = (ids n, n + 1) := by
  constructor
  · intro hdraws
    induction hdraws with
    | here huntaken => exact ⟨_, .here huntaken, rfl⟩
    | further htaken _ ih =>
        obtain ⟨n, hfirst, hdrawn⟩ := ih
        exact ⟨n, hfirst.earlier htaken, hdrawn⟩
  · rintro ⟨n, hfirst, rfl⟩
    exact hfirst.draws

end Identity

namespace Plan

open Identity

namespace Registry

variable {r : Registry} {ids : Nat → String} {position : Nat} {id body : String}

/-- A plan is stored under an id from any sequence. -/
def AddsFrom (r : Registry) (ids : Nat → String) (position : Nat) (body : String)
    (result : String × Registry × Nat) : Prop :=
  ∃ drawn, DrawsUntaken ids r.ids position drawn ∧
    result = (drawn.1, r.store drawn.1 body, drawn.2)

theorem rows_store (h : id ∉ r.ids) (body : String) :
    (r.store id body).plans.rows = r.plans.rows ++ [(id, body)] :=
  Table.put_of_not_mem h body

theorem addsFrom_iff {result : String × Registry × Nat} :
    r.AddsFrom ids position body result ↔
      ∃ n, IsFirstUntaken ids r.ids position n ∧
        result = (ids n, r.store (ids n) body, n + 1) := by
  simp only [AddsFrom, drawsUntaken_iff]
  constructor
  · rintro ⟨_, ⟨n, hfirst, rfl⟩, rfl⟩
    exact ⟨n, hfirst, rfl⟩
  · rintro ⟨n, hfirst, rfl⟩
    exact ⟨_, ⟨n, hfirst, rfl⟩, rfl⟩

theorem exists_addsFrom_iff :
    (∃ result, r.AddsFrom ids position body result) ↔ ∃ n, position ≤ n ∧ ids n ∉ r.ids := by
  constructor
  · rintro ⟨_, hresult⟩
    obtain ⟨n, hfirst, -⟩ := addsFrom_iff.mp hresult
    exact ⟨n, hfirst.le, hfirst.untaken⟩
  · intro hahead
    obtain ⟨n, hfirst⟩ := exists_isFirstUntaken hahead
    exact ⟨_, addsFrom_iff.mpr ⟨n, hfirst, rfl⟩⟩

end Registry

theorem SuppliedRegistry.add_none_eq (d : SuppliedRegistry) (body : String) :
    ∃ n, IsFirstUntaken d.cursor.source.ids d.registry.ids d.cursor.position n ∧
      add (some body) none d =
        ⟨.ok (d.cursor.source.ids n),
          ⟨d.registry.store (d.cursor.source.ids n) body,
            d.supply.move d.registry.generator ⟨d.cursor.source, n + 1⟩⟩, []⟩ :=
  ⟨_, .firstFrom _, rfl⟩

namespace Call

/-- The id that was generated for a call. -/
def generated? : Call → Except Fault Answer → Option String
  | add _ none, result => stored? result
  | _, _ => none

theorem generator_perform (call : Call) (d : SuppliedRegistry) :
    (call.perform d).state.registry.generator = d.registry.generator := by
  cases hfault : call.fault? with
  | some fault => rw [call.perform_of_fault d hfault]
  | none =>
      obtain ⟨answer, -, hregistry⟩ := call.perform_of_complete d hfault
      rw [hregistry]
      cases call.change? answer with
      | none => rfl
      | some change => cases change <;> rfl

theorem generated?_eq (call : Call) (d : SuppliedRegistry) :
    ∃ place? : Option Nat,
      call.generated? (call.perform d).result = place?.map d.cursor.source.ids ∧
        ∀ n ∈ place?, d.cursor.position ≤ n ∧
          n < ((call.perform d).state.supply.cursor d.registry.generator).position := by
  have hnone : ∃ place? : Option Nat, none = place?.map d.cursor.source.ids ∧
      ∀ n ∈ place?, d.cursor.position ≤ n ∧
        n < ((call.perform d).state.supply.cursor d.registry.generator).position :=
    ⟨none, rfl, fun n hn => nomatch hn⟩
  cases call with
  | mark => exact hnone
  | update _ _ => exact hnone
  | remove _ => exact hnone
  | add body? id? =>
      cases id? with
      | some _ => exact hnone
      | none =>
          cases body? with
          | none => exact hnone
          | some body =>
              obtain ⟨n, hn, -, hanswer, hstate⟩ := perform_add_none d body
              refine ⟨some n, hanswer, ?_⟩
              rw [hstate, Supply.cursor_move_self]
              rintro _ ⟨⟩
              exact ⟨hn, Nat.lt_succ_self n⟩

end Call

/-- Registries that draw from one supply. -/
structure RegistryCopies where
  registries : List Registry
  supply : Supply

namespace RegistryCopies

inductive Step where
  | copy (n : Nat)
  | call (n : Nat) (call : Call)

def opened (r : Registry) (supply : Supply) : RegistryCopies := ⟨[r], supply⟩

def replaced (s : RegistryCopies) (n : Nat) (d : SuppliedRegistry) : RegistryCopies :=
  ⟨s.registries.set n d.registry, d.supply⟩

def step (s : RegistryCopies) : Step → RegistryCopies
  | .copy n => { s with registries := s.registries ++ s.registries[n]?.toList }
  | .call n call =>
      match s.registries[n]? with
      | some r => s.replaced n (call.perform ⟨r, s.supply⟩).state
      | none => s

def generated? (s : RegistryCopies) : Step → Option String
  | .copy _ => none
  | .call n call =>
      s.registries[n]?.bind fun r => call.generated? (call.perform ⟨r, s.supply⟩).result

def after (s : RegistryCopies) : List Step → RegistryCopies
  | [] => s
  | step :: rest => (s.step step).after rest

/-- The ids that were generated, in the order of the steps. -/
def generated (s : RegistryCopies) : List Step → List String
  | [] => []
  | step :: rest => (s.generated? step).toList ++ (s.step step).generated rest

theorem position_le_step (s : RegistryCopies) (step : Step) (generator : Generator) :
    (s.supply.cursor generator).position ≤ ((s.step step).supply.cursor generator).position := by
  cases step with
  | copy n => exact Nat.le_refl _
  | call n call =>
      rw [RegistryCopies.step]
      split
      · rename_i r hr
        exact (call.perform_isLater ⟨r, s.supply⟩ generator).2
      · exact Nat.le_refl _

/-- All registries draw from the same source. -/
structure DrawsFrom (s : RegistryCopies) (generator : Generator) (source : Source) : Prop where
  generator_eq : ∀ r ∈ s.registries, r.generator = generator
  source_eq : (s.supply.cursor generator).source = source

namespace DrawsFrom

variable {s : RegistryCopies} {generator : Generator} {source : Source}

theorem opened (r : Registry) (supply : Supply) :
    (RegistryCopies.opened r supply).DrawsFrom r.generator (supply.cursor r.generator).source where
  generator_eq _ h := by rw [List.mem_singleton.mp h]
  source_eq := rfl

theorem replaced (h : s.DrawsFrom generator source) {r : Registry} (hr : r ∈ s.registries)
    (n : Nat) (call : Call) :
    (s.replaced n (call.perform ⟨r, s.supply⟩).state).DrawsFrom generator source where
  generator_eq other hother := by
    rcases List.mem_or_eq_of_mem_set hother with hold | rfl
    · exact h.generator_eq other hold
    · rw [call.generator_perform]
      exact h.generator_eq r hr
  source_eq := ((call.perform_isLater ⟨r, s.supply⟩ generator).1).trans h.source_eq

theorem step (h : s.DrawsFrom generator source) (step : Step) :
    (s.step step).DrawsFrom generator source := by
  cases step with
  | copy n =>
      refine ⟨fun r hr => ?_, h.source_eq⟩
      rcases List.mem_append.mp hr with hold | hcopy
      · exact h.generator_eq r hold
      · exact h.generator_eq r (List.mem_of_getElem? (Option.mem_toList.mp hcopy))
  | call n call =>
      rw [RegistryCopies.step]
      split
      · rename_i r hr
        exact h.replaced (List.mem_of_getElem? hr) n call
      · exact h

theorem after (h : s.DrawsFrom generator source) (steps : List Step) :
    (s.after steps).DrawsFrom generator source := by
  induction steps generalizing s with
  | nil => exact h
  | cons step steps ih => exact ih (h.step step)

theorem generated?_eq (h : s.DrawsFrom generator source) (step : Step) :
    ∃ place? : Option Nat, s.generated? step = place?.map source.ids ∧
      ∀ n ∈ place?, (s.supply.cursor generator).position ≤ n ∧
        n < ((s.step step).supply.cursor generator).position := by
  cases step with
  | copy n => exact ⟨none, rfl, fun n hn => nomatch hn⟩
  | call n call =>
      rw [RegistryCopies.step, RegistryCopies.generated?]
      cases hr : s.registries[n]? with
      | none => exact ⟨none, rfl, fun n hn => nomatch hn⟩
      | some r =>
          have hplace := call.generated?_eq ⟨r, s.supply⟩
          rwa [SuppliedRegistry.cursor, h.generator_eq r (List.mem_of_getElem? hr),
            h.source_eq] at hplace

theorem generated_eq (h : s.DrawsFrom generator source) (steps : List Step) :
    ∃ places : List Nat, s.generated steps = places.map source.ids ∧
      places.Pairwise (· < ·) ∧ ∀ n ∈ places, (s.supply.cursor generator).position ≤ n := by
  induction steps generalizing s with
  | nil => exact ⟨[], rfl, .nil, fun n hn => nomatch hn⟩
  | cons step steps ih =>
      obtain ⟨place?, hfirst, hplace⟩ := h.generated?_eq step
      obtain ⟨places, hrest, hsorted, hplaces⟩ := ih (h.step step)
      refine ⟨place?.toList ++ places, ?_, ?_, ?_⟩
      · rw [generated, hfirst, hrest, List.map_append, Option.toList_map]
      · refine List.pairwise_append.mpr ⟨?_, hsorted, fun n hn m hm => ?_⟩
        · cases place? <;> simp
        · exact Nat.lt_of_lt_of_le (hplace n (Option.mem_toList.mp hn)).2 (hplaces m hm)
      · intro n hn
        rcases List.mem_append.mp hn with hn | hn
        · exact (hplace n (Option.mem_toList.mp hn)).1
        · exact Nat.le_trans (s.position_le_step step generator) (hplaces n hn)

theorem nodup_generated (h : s.DrawsFrom generator source)
    (hnever : (s.supply.cursor generator).NeverRepeats) (steps : List Step) :
    (s.generated steps).Nodup := by
  obtain ⟨places, heq, hsorted, hplaces⟩ := h.generated_eq steps
  rw [heq, List.Nodup, List.pairwise_map]
  refine hsorted.imp_of_mem fun {m n} hm hn hlt hsame => ?_
  rw [← h.source_eq] at hsame
  exact absurd (hnever m n (hplaces m hm) (hplaces n hn) hsame) (Nat.ne_of_lt hlt)

end DrawsFrom

end RegistryCopies

/-- Adding a plan without an id ends just if an id that is not taken is ahead. The plan is then
stored under the first such one, behind the plans that are there, and this is what is done. At a
registry and its copies it ends after any calls, also if their source begins with ids that repeat or
are taken; and if the source never repeats an id, they never generate one twice. -/
theorem generated_ids_fresh :
    (∀ (r : Registry) (ids : Nat → String) (position : Nat) (body : String),
      ((∃ result, r.AddsFrom ids position body result) ↔ ∃ n, position ≤ n ∧ ids n ∉ r.ids) ∧
        ∀ result, r.AddsFrom ids position body result →
          ∃ n, IsFirstUntaken ids r.ids position n ∧
            result = (ids n, r.store (ids n) body, n + 1) ∧
            (r.store (ids n) body).plans.rows = r.plans.rows ++ [(ids n, body)]) ∧
    (∀ (d : SuppliedRegistry) (body : String), ∃ id r next,
      d.registry.AddsFrom d.cursor.source.ids d.cursor.position body (id, r, next) ∧
        SuppliedRegistry.add (some body) none d =
          ⟨.ok id, ⟨r, d.supply.move d.registry.generator ⟨d.cursor.source, next⟩⟩, []⟩) ∧
    ∀ (r : Registry) (supply : Supply) (steps : List RegistryCopies.Step),
      let start := supply.cursor r.generator
      let reached := (RegistryCopies.opened r supply).after steps
      (∀ first later hlater, start.source = .listed first later hlater →
        let source := Source.listed first later hlater
        ∀ member ∈ reached.registries, ∀ body, ∃ n,
          IsFirstUntaken source.ids member.ids
            (reached.supply.cursor member.generator).position n ∧
          SuppliedRegistry.add (some body) none ⟨member, reached.supply⟩ =
            ⟨.ok (source.ids n), ⟨member.store (source.ids n) body,
              reached.supply.move member.generator ⟨source, n + 1⟩⟩, []⟩ ∧
          (member.store (source.ids n) body).plans.rows =
            member.plans.rows ++ [(source.ids n, body)]) ∧
      (start.NeverRepeats → ((RegistryCopies.opened r supply).generated steps).Nodup) := by
  refine ⟨?_, ?_, ?_⟩
  · intro r ids position body
    refine ⟨Registry.exists_addsFrom_iff, fun result hresult => ?_⟩
    obtain ⟨n, hfirst, hadd⟩ := Registry.addsFrom_iff.mp hresult
    exact ⟨n, hfirst, hadd, Registry.rows_store hfirst.untaken body⟩
  · intro d body
    obtain ⟨n, hfirst, hadd⟩ := d.add_none_eq body
    exact ⟨_, _, _, Registry.addsFrom_iff.mpr ⟨n, hfirst, rfl⟩, hadd⟩
  · intro r supply steps start reached
    have hopened := RegistryCopies.DrawsFrom.opened r supply
    refine ⟨?_, fun hnever => hopened.nodup_generated hnever steps⟩
    intro first later hlater hsource source member hmember body
    have hreached := hopened.after steps
    have hlisted : (reached.supply.cursor member.generator).source = source := by
      rw [hreached.generator_eq member hmember, hreached.source_eq, hsource]
    obtain ⟨n, hfirst, hadd⟩ := SuppliedRegistry.add_none_eq ⟨member, reached.supply⟩ body
    rw [SuppliedRegistry.cursor, hlisted] at hfirst hadd
    exact ⟨n, hfirst, hadd, Registry.rows_store hfirst.untaken body⟩

def twoPlans : Registry :=
  ((Registry.empty .injected).store "rises" "from Ticks select symbol insert into Rises; ").store
    "falls" "from Ticks select symbol insert into Falls; "

def afterRemoval : List RegistryCopies.Step := [.copy 0, .call 1 (.remove (some "rises"))]

def news : String := "from News select symbol insert into Alerts; "

theorem generated_ids_fresh_market :
    let repeating := fun n => if n = 2 then "alerts" else "rises"
    let supply : Supply := ⟨.start .serial, .start (.ofList ["rises", "falls", "rises"])⟩
    let reached := (RegistryCopies.opened twoPlans supply).after afterRemoval
    twoPlans.AddsFrom repeating 0 news ("alerts", twoPlans.store "alerts" news, 3) ∧
      reached.registries = [twoPlans, twoPlans.discard "rises"] ∧
      (SuppliedRegistry.add (some news) none ⟨twoPlans, reached.supply⟩).result = .ok "id-1" ∧
      ((RegistryCopies.opened { twoPlans with generator := .shared } supply).generated
        [.call 0 (.add (some news) none), .copy 0, .call 1 (.add (some news) none),
          .call 0 (.add (some news) none)]).Nodup := by
  intro repeating supply reached
  obtain ⟨hadd, -, hcopies⟩ := generated_ids_fresh
  refine ⟨?_, rfl, ?_, (hcopies _ supply _).2 Cursor.serial_neverRepeats⟩
  · obtain ⟨hends, hadded⟩ := hadd twoPlans repeating 0 news
    obtain ⟨result, hresult⟩ := hends.mpr ⟨2, by decide⟩
    obtain ⟨n, hfirst, heq, -⟩ := hadded result hresult
    have hsecond : IsFirstUntaken repeating twoPlans.ids 0 2 :=
      ⟨by decide, by decide, fun m _ => (by decide : ∀ m < 2, repeating m ∈ twoPlans.ids) m⟩
    rw [heq, hfirst.unique hsecond] at hresult
    exact hresult
  · let source := Source.ofList ["rises", "falls", "rises"]
    obtain ⟨n, hfirst, heq, -⟩ := (hcopies twoPlans supply afterRemoval).1
      ["rises", "falls", "rises"] (fun n => "id-" ++ toString (n + 1)) _ rfl twoPlans
      List.mem_cons_self news
    have hthird : IsFirstUntaken source.ids twoPlans.ids 0 3 :=
      ⟨by decide, by decide, fun m _ => (by decide : ∀ m < 3, source.ids m ∈ twoPlans.ids) m⟩
    rw [heq, hfirst.unique hthird]
    rfl

end Plan

end EventOperator
