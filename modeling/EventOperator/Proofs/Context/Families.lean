import EventOperator.Proofs.Context.Record

/-!
Families of contexts: contexts and their copies at one site. Copies have the id of the context that
they come from, and the metrics under an id tell what has happened to all contexts of a family.
-/

namespace EventOperator

open Metrics Identity

/-- A context of a family. The family is named by the place of the context that it began with. -/
structure Member where
  family : Nat
  context : Context

def Member.moved (m : Member) : Member := { m with context := m.context.moved }

def Member.tag (m : Member) : Nat × String := (m.family, m.context.id)

structure ContextFamilies where
  members : List Member
  site : Site Nat

namespace ContextFamilies

inductive Step (μ ρ : Type) : Type 1 where
  | create (label : String) (planner? : Option Planner) (generator : Generator)
  | copy (n : Nat)
  | move (n : Nat)
  | ask (n : Nat) (request : Request μ ρ β)

/-- A request to a member of a family, its result and the context after it. -/
structure Report (μ ρ : Type) : Type 1 where
  family : Nat
  answer : Type
  request : Request μ ρ answer
  result : Except Fault answer
  context : Context

variable {μ ρ : Type}

def Report.of {β : Type} (m : Member) (request : Request μ ρ β) (outcome : Outcome (Post Nat) β) :
    Report μ ρ :=
  ⟨m.family, β, request, outcome.result, outcome.state.context⟩

def Report.event? (r : Report μ ρ) : Option Event := r.request.event? r.result r.context

def opened (supply : Supply) : ContextFamilies := ⟨[], ⟨.empty, supply⟩⟩

def replaced (f : ContextFamilies) (n : Nat) (m : Member) (p : Post Nat) : ContextFamilies :=
  ⟨f.members.set n ⟨m.family, p.context⟩, p.site⟩

def step (f : ContextFamilies) : Step μ ρ → ContextFamilies
  | .create label planner? generator =>
      let outcome := Site.newContext label planner? generator f.site
      match outcome.result with
      | .ok c => ⟨f.members ++ [⟨f.members.length, c⟩], outcome.state⟩
      | .error _ => { f with site := outcome.state }
  | .copy n => { f with members := f.members ++ f.members[n]?.toList }
  | .move n => { f with members := f.members ++ f.members[n]?.toList.map Member.moved }
  | .ask n request =>
      match f.members[n]? with
      | some m => f.replaced n m (request.perform ⟨m.context, f.site⟩).state
      | none => f

def report? (f : ContextFamilies) : Step μ ρ → Option (Report μ ρ)
  | .ask n request =>
      f.members[n]?.map fun m => .of m request (request.perform ⟨m.context, f.site⟩)
  | _ => none

def after (f : ContextFamilies) : List (Step μ ρ) → ContextFamilies
  | [] => f
  | step :: rest => (f.step step).after rest

def reports (f : ContextFamilies) : List (Step μ ρ) → List (Report μ ρ)
  | [] => []
  | step :: rest => (f.step step).reports rest ++ (f.report? step).toList

section

variable {ι κ : Type} {reports : List (Report μ ρ)} {report : Report μ ρ} {event : Event}

def ledger (owner : Report μ ρ → ι) (reports : List (Report μ ρ)) : List (ι × Event) :=
  reports.filterMap fun r => r.event?.map (owner r, ·)

variable {owner : Report μ ρ → ι} {other : Report μ ρ → κ}

theorem ledger_cons_of_none (h : report.event? = none) :
    ledger owner (report :: reports) = ledger owner reports := by
  simp [ledger, h]

theorem ledger_cons_of_some (h : report.event? = some event) :
    ledger owner (report :: reports) = (owner report, event) :: ledger owner reports := by
  simp [ledger, h]

theorem sinceClosed_ledger [DecidableEq ι] [DecidableEq κ] {i : ι} {k : κ}
    (h : ∀ report ∈ reports, owner report = i ↔ other report = k) :
    sinceClosed i (ledger owner reports) = sinceClosed k (ledger other reports) := by
  induction reports with
  | nil => rfl
  | cons report reports ih =>
      have hrest := ih fun r hr => h r (List.mem_cons_of_mem _ hr)
      have hsame := h report List.mem_cons_self
      cases hevent : report.event? with
      | none => rw [ledger_cons_of_none hevent, ledger_cons_of_none hevent, hrest]
      | some event =>
          rw [ledger_cons_of_some hevent, ledger_cons_of_some hevent, sinceClosed, sinceClosed,
            hrest]
          simp only [hsame]

end

def tags (f : ContextFamilies) : List (Nat × String) := f.members.map Member.tag

structure Follows (f : ContextFamilies) (reports : List (Report μ ρ)) : Prop where
  accounts : f.site.metrics.Accounts (ledger (·.context.id) reports)
  mem_tags : ∀ report ∈ reports, (report.family, report.context.id) ∈ f.tags
  id_eq : ∀ tag ∈ f.tags, ∀ other ∈ f.tags, tag.1 = other.1 → tag.2 = other.2
  family_lt : ∀ tag ∈ f.tags, tag.1 < f.members.length

namespace Follows

variable {f : ContextFamilies} {reports : List (Report μ ρ)}

theorem opened (supply : Supply) :
    (ContextFamilies.opened supply).Follows ([] : List (Report μ ρ)) where
  accounts := .empty
  mem_tags _ hr := nomatch hr
  id_eq _ ht := nomatch ht
  family_lt _ ht := nomatch ht

theorem mem_tags_of_get? {n : Nat} {m : Member} (hm : f.members[n]? = some m) : m.tag ∈ f.tags :=
  List.mem_map.mpr ⟨m, List.mem_of_getElem? hm, rfl⟩

theorem joined (hf : f.Follows reports) {members : List Member}
    (hmembers : ∀ m ∈ members, m.tag ∈ f.tags) :
    ({ f with members := f.members ++ members } : ContextFamilies).Follows reports := by
  have htags : ∀ tag ∈ ({ f with members := f.members ++ members } : ContextFamilies).tags,
      tag ∈ f.tags := by
    intro tag htag
    rw [tags, List.map_append, List.mem_append] at htag
    rcases htag with hold | hnew
    · exact hold
    · obtain ⟨m, hm, rfl⟩ := List.mem_map.mp hnew
      exact hmembers m hm
  constructor
  · exact hf.accounts
  · intro report hreport
    rw [tags, List.map_append]
    exact List.mem_append_left _ (hf.mem_tags report hreport)
  · exact fun tag htag other hother => hf.id_eq tag (htags tag htag) other (htags other hother)
  · intro tag htag
    rw [List.length_append]
    exact Nat.lt_add_right _ (hf.family_lt tag (htags tag htag))

theorem founded (hf : f.Follows reports) (c : Context) {site : Site Nat}
    (hsite : site.metrics = f.site.metrics) :
    (ContextFamilies.mk (f.members ++ [⟨f.members.length, c⟩]) site).Follows reports := by
  have htags : (ContextFamilies.mk (f.members ++ [⟨f.members.length, c⟩]) site).tags =
      f.tags ++ [(f.members.length, c.id)] := List.map_append
  have hnew : ∀ tag ∈ f.tags, tag.1 ≠ f.members.length := fun tag htag =>
    Nat.ne_of_lt (hf.family_lt tag htag)
  constructor
  · rw [hsite]
    exact hf.accounts
  · intro report hreport
    rw [htags]
    exact List.mem_append_left _ (hf.mem_tags report hreport)
  · intro tag htag other hother heq
    rw [htags, List.mem_append, List.mem_singleton] at htag hother
    rcases htag with hold | rfl
    · rcases hother with hother | rfl
      · exact hf.id_eq tag hold other hother heq
      · exact absurd heq (hnew tag hold)
    · rcases hother with hother | rfl
      · exact absurd heq.symm (hnew other hother)
      · rfl
  · intro tag htag
    rw [htags, List.mem_append, List.mem_singleton] at htag
    rw [List.length_append]
    rcases htag with hold | rfl
    · exact Nat.lt_succ_of_lt (hf.family_lt tag hold)
    · exact Nat.lt_succ_self _

theorem tags_replaced {n : Nat} {m : Member} (hm : f.members[n]? = some m) {p : Post Nat}
    (hp : p.context.id = m.context.id) : (f.replaced n m p).tags = f.tags := by
  obtain ⟨hn, rfl⟩ := List.getElem?_eq_some_iff.mp hm
  have hlength : n < (f.members.map Member.tag).length := by rwa [List.length_map]
  have htag : Member.tag ⟨f.members[n].family, p.context⟩ = (f.members.map Member.tag)[n] := by
    rw [List.getElem_map, Member.tag, Member.tag, hp]
  rw [tags, replaced, List.map_set, htag, List.set_getElem_self]
  rfl

/-- A request keeps all ids, and the event that it was is recorded under the id of its context. -/
theorem asked (hf : f.Follows reports) {n : Nat} {m : Member} (hm : f.members[n]? = some m)
    (request : Request μ ρ β) :
    (f.replaced n m (request.perform ⟨m.context, f.site⟩).state).Follows
      (.of m request (request.perform ⟨m.context, f.site⟩) :: reports) := by
  have hrecords : Request.trace _ = _ := request.records ⟨m.context, f.site⟩
  generalize request.perform ⟨m.context, f.site⟩ = outcome at hrecords
  have hid : outcome.state.context.id = m.context.id := congrArg Prod.fst hrecords
  have hmetrics : outcome.state.site.metrics =
      (Report.of m request outcome).event?.elim f.site.metrics
        (Event.record m.context.id f.site.metrics) := congrArg Prod.snd hrecords
  have htags := tags_replaced hm hid
  constructor
  · rw [replaced, hmetrics]
    cases hevent : (Report.of m request outcome).event? with
    | none =>
        rw [ledger_cons_of_none hevent]
        exact hf.accounts
    | some event =>
        have howner : (Report.of m request outcome).context.id = m.context.id := hid
        rw [ledger_cons_of_some hevent, howner]
        exact hf.accounts.record m.context.id event
  · intro report hreport
    rw [htags]
    rcases List.mem_cons.mp hreport with rfl | hold
    · have htag : ((Report.of m request outcome).family, outcome.state.context.id) = m.tag := by
        rw [hid]
        rfl
      exact htag ▸ mem_tags_of_get? hm
    · exact hf.mem_tags report hold
  · rw [htags]
    exact hf.id_eq
  · rw [htags]
    intro tag htag
    rw [replaced, List.length_set]
    exact hf.family_lt tag htag

theorem step (hf : f.Follows reports) (step : Step μ ρ) :
    (f.step step).Follows ((f.report? step).toList ++ reports) := by
  cases step with
  | create label planner? generator => exact hf.founded _ rfl
  | copy n =>
      apply hf.joined
      intro m hm
      exact mem_tags_of_get? (Option.mem_toList.mp hm)
  | move n =>
      apply hf.joined
      intro m hm
      obtain ⟨original, horiginal, rfl⟩ := List.mem_map.mp hm
      have hmoved : original.moved.tag = original.tag := rfl
      rw [hmoved]
      exact mem_tags_of_get? (Option.mem_toList.mp horiginal)
  | ask n request =>
      cases hm : f.members[n]? with
      | some m =>
          rw [ContextFamilies.step, report?, hm]
          exact hf.asked hm request
      | none =>
          rw [ContextFamilies.step, report?, hm]
          exact hf

theorem after (hf : f.Follows reports) (steps : List (Step μ ρ)) :
    (f.after steps).Follows (f.reports steps ++ reports) := by
  induction steps generalizing f reports with
  | nil => exact hf
  | cons step steps ih =>
      rw [ContextFamilies.reports, List.append_assoc]
      exact ih (hf.step step)

end Follows

/-- If contexts of different families have different ids, the metrics under the id of a context tell
how often each event has happened in its family since a member of it was last closed, and how many
plans the one had that changed its plans last. Without such an event there is nothing under the id. -/
theorem metrics_of_family (supply : Supply) (steps : List (Step μ ρ))
    (hdistinct : ∀ m ∈ ((opened supply).after steps).members,
      ∀ other ∈ ((opened supply).after steps).members,
        m.context.id = other.context.id → m.family = other.family) :
    ∀ m ∈ ((opened supply).after steps).members,
      let metrics := ((opened supply).after steps).site.metrics
      let events := sinceClosed m.family (ledger Report.family ((opened supply).reports steps))
      let labels := Collector.contextLabels m.context.id
      let assembled := fun mode => Table.ofList [("context", m.context.id), ("mode", mode)]
      (∀ other ∈ ((opened supply).after steps).members,
        other.family = m.family → other.context.id = m.context.id) ∧
      metrics.counter Collector.plansAdded labels = events.countP (·.counted? = some .added) ∧
        metrics.counter Collector.plansRemoved labels =
          events.countP (·.counted? = some .removed) ∧
        metrics.counter Collector.managersCreated labels =
          events.countP (·.counted? = some .managers) ∧
        metrics.counter Collector.plansAssembled (assembled "all") =
          events.countP (·.counted? = some .assembledAll) ∧
        metrics.counter Collector.plansAssembled (assembled "one") =
          events.countP (·.counted? = some .assembledOne) ∧
        metrics.gauge Collector.plansRegistered labels =
          (events.findSome? Event.registered?).elim (.real 0) (fun n => .whole n) ∧
        (events = [] → metrics.keysWith labels = []) := by
  have hf : ((opened supply).after steps).Follows ((opened supply).reports steps) := by
    rw [← List.append_nil (reports _ steps)]
    exact (Follows.opened supply).after steps
  intro m hm metrics events labels assembled
  have htag : m.tag ∈ ((opened supply).after steps).tags := List.mem_map.mpr ⟨m, hm, rfl⟩
  -- As ids tell families apart, the reports of the family are those under the id.
  have hevents : events =
      sinceClosed m.context.id (ledger (·.context.id) ((opened supply).reports steps)) := by
    apply sinceClosed_ledger
    intro report hreport
    have hmem := hf.mem_tags report hreport
    constructor
    · exact fun hfamily => hf.id_eq _ hmem _ htag hfamily
    · intro hid
      obtain ⟨other, hother, heq⟩ := List.mem_map.mp hmem
      obtain ⟨hfamily, hsame⟩ := Prod.mk.inj heq
      rw [← hfamily]
      exact hdistinct other hother m hm (hsame.trans hid)
  have hcounter := fun s => hf.accounts.counterOf_eq s m.context.id
  rw [← hevents] at hcounter
  refine ⟨?_, hcounter .added, hcounter .removed, hcounter .managers, hcounter .assembledAll,
    hcounter .assembledOne, ?_, ?_⟩
  · exact fun other hother => hf.id_eq _ (List.mem_map.mpr ⟨other, hother, rfl⟩) _ htag
  · have hgauge := hf.accounts.gaugeOf_eq m.context.id
    rwa [← hevents] at hgauge
  · intro hnone
    apply hf.accounts.holdsOnly.keysWith_eq_nil
    rw [← hevents]
    exact fun hsome => hsome hnone

def twoSupply : Supply := ⟨.start .serial, .start (.ofList ["first", "second"])⟩

/-- A copy stores two plans, of which one is there already, and its family is closed in between. The
other family stores one plan, and a request to it fails. -/
def twoFamilies : List (Step Unit Unit) :=
  [ .create "Unnamed" none .injected, .create "Unnamed" none .injected,
    .ask 0 (.addPlan (some "from Ticks select symbol insert into Rises; ") (some "rises")),
    .ask 1 (.addPlan (some "from News select symbol insert into Alerts; ") (some "alerts")),
    .copy 0, .ask 2 .close, .ask 1 (.addPlan none none),
    .ask 2 (.addPlan (some "from Ticks select symbol insert into Falls; ") (some "falls")),
    .ask 2 (.updatePlan (some "rises") (some "from Ticks select price insert into Rises; ")),
    .move 2, .ask 0 .assembleAll ]

theorem metrics_of_family_market :
    let metrics := ((opened twoSupply).after twoFamilies).site.metrics
    metrics.counter Collector.plansAdded (Collector.contextLabels "first") = 2 ∧
      metrics.gauge Collector.plansRegistered (Collector.contextLabels "first") = .whole 2 ∧
      metrics.counter Collector.plansAdded (Collector.contextLabels "second") = 1 := by
  have hdistinct : ∀ m ∈ ((opened twoSupply).after twoFamilies).members,
      ∀ other ∈ ((opened twoSupply).after twoFamilies).members,
        m.context.id = other.context.id → m.family = other.family := by
    decide +kernel
  have hfirst : ∃ m ∈ ((opened twoSupply).after twoFamilies).members, m.tag = (0, "first") := by
    decide +kernel
  have hsecond : ∃ m ∈ ((opened twoSupply).after twoFamilies).members, m.tag = (1, "second") := by
    decide +kernel
  have hevents : sinceClosed 0 (ledger Report.family ((opened twoSupply).reports twoFamilies)) =
      [.assembledAll, .planAdded 2, .planAdded 2] := by rfl
  have hother : sinceClosed 1 (ledger Report.family ((opened twoSupply).reports twoFamilies)) =
      [.planAdded 1] := by rfl
  obtain ⟨m, hm, htag⟩ := hfirst
  obtain ⟨n, hn, hntag⟩ := hsecond
  obtain ⟨hfamily, hid⟩ := Prod.mk.inj htag
  obtain ⟨hnfamily, hnid⟩ := Prod.mk.inj hntag
  obtain ⟨-, hadded, -, -, -, -, hgauge, -⟩ := metrics_of_family twoSupply twoFamilies hdistinct m hm
  obtain ⟨-, hnadded, -⟩ := metrics_of_family twoSupply twoFamilies hdistinct n hn
  rw [hfamily, hid, hevents] at hadded hgauge
  rw [hnfamily, hnid, hother] at hnadded
  exact ⟨hadded, hgauge, hnadded⟩

end ContextFamilies

end EventOperator
