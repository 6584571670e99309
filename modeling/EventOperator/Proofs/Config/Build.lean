import EventOperator.Proofs.Config.Plans
import EventOperator.Proofs.Context.Request
import EventOperator.Proofs.Extension.Loading

/-!
Contexts that are built from what was declared. A context has all that was declared, in its order,
unless some extension cannot be imported: then nothing is left behind but the id that was drawn for
the context.
-/

namespace EventOperator

open Operation Identity Metrics

theorem Table.rows_ofList_map {κ : Type u} {ν : Type w} {α : Type v} {β : Type x} [DecidableEq ν]
    (t : Table κ α) {f : κ → ν} (hf : ∀ k key, f k = f key → k = key) (g : α → β) :
    (ofList (t.rows.map fun row => (f row.1, g row.2))).rows =
      t.rows.map fun row => (f row.1, g row.2) := by
  have hkeys : (t.rows.map fun row => (f row.1, g row.2)).map Prod.fst = t.keys.map f := by
    rw [List.map_map, keys, List.map_map]
    rfl
  have hnodup : ((t.rows.map fun row => (f row.1, g row.2)).map Prod.fst).Nodup := by
    rw [hkeys]
    exact List.Pairwise.map f (fun k key hne heq => hne (hf k key heq)) t.nodup
  exact rows_insertAll hnodup fun key _ => List.not_mem_nil

namespace Config

variable (config : Config) (settings : Settings) (catalogue : Extension.Catalogue)

def schemas : Schema.Registry :=
  Table.ofList (config.streams.rows.map fun row => (row.1, .attributes row.2))

def prepared (c : Context) : Context :=
  { c with
    name? := config.name?.or c.name?
    time? := (config.time?.or settings.time?).or c.time?
    execution? := some (.declared (config.execution?.getD (.withParallelism settings.parallelism)))
    streams := config.schemas }

theorem rows_schemas :
    config.schemas.rows = config.streams.rows.map fun row => (row.1, .attributes row.2) :=
  config.streams.rows_ofList_map (fun _ _ => id) Schema.attributes

theorem definitions_schemas :
    config.schemas.definitions = String.join
      (config.streams.rows.map fun row => (Schema.attributes row.2).definition row.1) := by
  rw [Schema.Registry.definitions, Schema.Registry.definitionsOf,
    List.filter_eq_self.mpr fun _ _ => rfl, rows_schemas, List.map_map]
  rfl

theorem rows_streamTable :
    config.streamTable.rows =
      config.streams.rows.map fun row => (some row.1, some (.attributes row.2)) :=
  config.streams.rows_ofList_map (fun _ _ => Option.some.inj)
    fun list => some (Schema.attributes list)

theorem rows_extensionTable :
    config.extensionTable.rows =
      config.extensions.rows.map fun row => (some row.1, Extension.Given.path row.2) :=
  config.extensions.rows_ofList_map (fun _ _ => Option.some.inj) Extension.Given.path

theorem ofGiven_streamTable :
    Schema.Registry.ofGiven (some config.streamTable) = .ok config.schemas := by
  have hrows : config.streamTable.rows.mapM Schema.Registry.givenRow =
      .ok (config.streams.rows.map fun row => (row.1, .attributes row.2)) := by
    rw [mapM_eq_ok_iff, rows_streamTable, List.forall₂_map_left_iff, List.forall₂_map_right_iff,
      List.forall₂_same]
    exact fun row _ => rfl
  have hbind : Schema.Registry.ofGiven (some config.streamTable) =
      config.streamTable.rows.mapM Schema.Registry.givenRow >>= fun rows =>
        .ok (Table.ofList rows) := rfl
  rw [hbind, hrows]
  rfl

section

variable {α : Type} {p : Post α} {c c' : Context} {result : Except Fault PUnit}

theorem onContext_ends {op : Operation Context PUnit} (h : op.Ends p.context result c') :
    (Post.onContext op).Ends p result { p with context := c' } := h.on

theorem setTime_ends (time : TimeCharacteristic) :
    (Context.setTime (.text time.name)).Ends c (.ok ⟨⟩) { c with time? := some time } := by
  have htime : TimeCharacteristic.ofValue (.text time.name) = .ok time := by cases time <;> rfl
  have hset : Context.setTime (.text time.name) =
      Operation.ofExcept (TimeCharacteristic.ofValue (.text time.name)) >>= fun time =>
        Operation.change fun c => { c with time? := some time } := rfl
  rw [hset, htime]
  exact ⟨rfl, rfl⟩

theorem setExecution_ends (execution : ExecutionConfig) :
    (Context.setExecution (.declared execution)).Ends c (.ok ⟨⟩)
      { c with execution? := some (.declared execution) } := ⟨rfl, rfl⟩

theorem setStreams_ends :
    (Context.setStreams (some config.streamTable)).Ends c (.ok ⟨⟩)
      { c with streams := config.schemas } := by
  have hreplace : (Schema.Registry.replaceAll (some config.streamTable)).Ends c.streams (.ok ⟨⟩)
      config.schemas := by
    rw [Schema.Registry.replaceAll, ofGiven_streamTable]
    exact ⟨rfl, rfl⟩
  exact hreplace.on.bind ⟨rfl, rfl⟩

theorem setExtensions_ends (c : Context) (given : Table (Option String) Extension.Given) :
    (Context.setExtensions catalogue (some given)).Ends c
      ((Extension.Registry.resolveAll catalogue (some given)).map fun _ => ⟨⟩)
      { c with extensions :=
        match Extension.Registry.resolveAll catalogue (some given) with
        | .ok resolved => c.extensions.insertAll resolved.rows
        | .error _ => c.extensions } :=
  Ends.on ⟨Extension.Registry.merge_result, Extension.Registry.merge_state⟩

variable [OfNat α 0] [OfNat α 1] [Add α] {last : Post α}

/-! What is left to do at each step, the last one first. -/

def fillPlans : Operation (Post α) Unit := do
  config.plans.forM fun plan => discard (Post.addPlan (some plan.text) plan.id?)
  Operation.log source .info
    ("Built context " ++ (← Operation.read).context.displayName ++ " from config")

def fillExtensions : Operation (Post α) Unit := do
  if !config.extensions.isEmpty then
    Post.onContext (Context.setExtensions catalogue (some config.extensionTable))
  config.fillPlans

def fillStreams : Operation (Post α) Unit := do
  Post.onContext (Context.setExecution
    (.declared (config.execution?.getD (.withParallelism settings.parallelism))))
  Post.onContext (Context.setStreams (some config.streamTable))
  config.fillExtensions catalogue

def fillTime : Operation (Post α) Unit := do
  match config.time?.or settings.time? with
  | some time => Post.onContext (Context.setTime (.text time.name))
  | none => pure ()
  config.fillStreams settings catalogue

theorem fill_eq :
    (config.fill settings catalogue : Operation (Post α) Unit) =
      if config.name?.isSome then
        Post.onContext (Context.setName config.name?) >>= fun _ =>
          config.fillTime settings catalogue
      else config.fillTime settings catalogue := rfl

theorem fillTime_ends {time? : Option TimeCharacteristic}
    (htime : config.time?.or settings.time? = time?)
    (h : (config.fillStreams settings catalogue).Ends
      { p with context := { p.context with time? := time?.or p.context.time? } } result last) :
    (config.fillTime settings catalogue).Ends p result last := by
  rw [fillTime, htime]
  cases time? with
  | some time => exact (onContext_ends (setTime_ends time)).bind h
  | none => exact h

theorem fill_ends
    (h : (config.fillExtensions catalogue).Ends
      { p with context := config.prepared settings p.context } result last) :
    (config.fill settings catalogue).Ends p result last := by
  have hrest : (config.fillTime settings catalogue).Ends
      { p with context := { p.context with name? := config.name?.or p.context.name? } }
      result last := by
    refine config.fillTime_ends settings catalogue rfl ?_
    refine (onContext_ends (setExecution_ends _)).bind ?_
    exact (onContext_ends config.setStreams_ends).bind h
  rw [fill_eq]
  cases hname : config.name? with
  | some name =>
      rw [hname] at hrest
      exact Ends.bind ⟨rfl, rfl⟩ hrest
  | none =>
      rw [hname] at hrest
      exact hrest

def Importable : Prop :=
  ∀ row ∈ config.extensions.rows, ∃ member, Extension.LeadsTo catalogue row.2 member

def resolved : Except Fault Extension.Registry :=
  Extension.Registry.resolveAll catalogue (some config.extensionTable)

theorem resolved_of_isEmpty (h : config.extensions.isEmpty = true) :
    config.resolved catalogue = .ok ∅ := by
  have hrows : config.extensionTable.rows = [] := by
    rw [rows_extensionTable, List.isEmpty_iff.mp h, List.map_nil]
  rw [resolved, Extension.Registry.resolveAll_some, hrows]
  rfl

theorem fillExtensions_ends_ok {extensions : Extension.Registry}
    (h : config.resolved catalogue = .ok extensions)
    (hrest : config.fillPlans.Ends
      { p with context := { p.context with
          extensions := p.context.extensions.insertAll extensions.rows } } result last) :
    (config.fillExtensions catalogue).Ends p result last := by
  rw [fillExtensions]
  cases hempty : config.extensions.isEmpty with
  | true =>
      rw [resolved_of_isEmpty config catalogue hempty] at h
      obtain rfl := Except.ok.inj h
      exact hrest
  | false =>
      have hset := setExtensions_ends catalogue p.context config.extensionTable
      rw [← resolved, h] at hset
      exact (onContext_ends hset).bind hrest

theorem fillExtensions_ends_error {fault : Fault} (h : config.resolved catalogue = .error fault) :
    (config.fillExtensions catalogue).Ends p (.error fault) p := by
  rw [fillExtensions]
  cases hempty : config.extensions.isEmpty with
  | true =>
      rw [resolved_of_isEmpty config catalogue hempty] at h
      exact nomatch h
  | false =>
      have hset := setExtensions_ends catalogue p.context config.extensionTable
      rw [← resolved, h] at hset
      exact (onContext_ends hset).bind_error

end

theorem resolved_eq_ok_iff {extensions : Extension.Registry} :
    config.resolved catalogue = .ok extensions ↔
      List.Forall₂ (fun declared row => declared.1 = row.1 ∧
        (Extension.Given.path declared.2).Yields catalogue row.2)
        config.extensions.rows extensions.rows := by
  rw [resolved, Extension.Registry.resolveAll_eq_ok_iff, rows_extensionTable,
    List.forall₂_map_left_iff]
  have hloads : ∀ (declared : String × String) (row : String × Extension.Handle),
      Extension.Loads catalogue (some declared.1, .path declared.2) row ↔
        declared.1 = row.1 ∧ (Extension.Given.path declared.2).Yields catalogue row.2 := by
    intro declared row
    constructor
    · exact fun hload => ⟨Option.some.inj hload.name_eq, hload.yields⟩
    · exact fun ⟨hname, hyields⟩ => ⟨congrArg some hname, rfl, hyields⟩
  simp only [hloads]

theorem importable_of_resolved {extensions : Extension.Registry}
    (h : config.resolved catalogue = .ok extensions) : config.Importable catalogue := by
  intro row hrow
  have hmerge : (Extension.Registry.merge catalogue (some config.extensionTable) ∅).result =
      .ok () := by
    rw [Extension.Registry.merge_result, ← resolved, h]
    rfl
  have hentry : (some row.1, Extension.Given.path row.2) ∈ config.extensionTable.rows := by
    rw [rows_extensionTable]
    exact List.mem_map.mpr ⟨row, hrow, rfl⟩
  obtain ⟨handle, hyields⟩ := Extension.Registry.yields_of_merge_eq_ok hmerge _ hentry
  obtain ⟨member, hleads, -⟩ :=
    Extension.importPath_eq_ok_iff.mp (Extension.Given.yields_path_iff.mp hyields)
  exact ⟨member, hleads⟩

theorem not_importable_of_resolved {fault : Fault} (h : config.resolved catalogue = .error fault) :
    ¬ config.Importable catalogue := by
  intro himportable
  have hmerge : (Extension.Registry.merge catalogue (some config.extensionTable) ∅).result =
      .error fault := by
    rw [Extension.Registry.merge_result, ← resolved, h]
    rfl
  have hpresent : ∀ entry ∈ config.extensionTable.rows,
      entry.1.isSome ∧ entry.2.isAbsent = false := by
    rw [rows_extensionTable]
    intro entry hentry
    obtain ⟨row, -, rfl⟩ := List.mem_map.mp hentry
    exact ⟨rfl, rfl⟩
  obtain ⟨name, path, front, rest, hsplit, -, hnowhere⟩ :=
    Extension.Registry.exists_isFirstBroken hpresent hmerge
  have hmem : (some name, Extension.Given.path path) ∈ config.extensionTable.rows := by
    simp [hsplit]
  rw [rows_extensionTable] at hmem
  obtain ⟨row, hrow, heq⟩ := List.mem_map.mp hmem
  obtain ⟨member, hleads⟩ := himportable row hrow
  cases heq
  exact hnowhere member hleads

def entries : Table Plan.Key String := Table.ofList (Plan.Declaration.keyed 0 config.plans)

end Config

/-- The amount is the number, which a gauge that is not there may be as a real. -/
def Metrics.Amount.Reads (n : Nat) : Amount → Prop
  | whole m => m = n
  | real x => x = Float.ofNat n

/-- A context that was built has all that was declared, in its order. Plans have the declared ids
and, without one, the ids that come next; and as often as one was added it was counted. -/
structure Config.Built {α : Type} [OfNat α 0] [OfNat α 1] [Add α] (config : Config)
    (settings : Settings) (label? : Option String) (catalogue : Extension.Catalogue)
    (generator : Generator) (before after : Site α) (c : Context) : Prop where
  id_eq : c.id = (before.supply.cursor generator).next.1
  label_eq : c.unnamedLabel = label?.getD settings.unnamedLabel
  name_eq : c.name? = config.name?
  time_eq : c.time? = config.time?.or settings.time?
  execution_eq : c.execution? =
    some (.declared (config.execution?.getD (.withParallelism settings.parallelism)))
  streams : c.streams.rows = config.streams.rows.map fun row => (row.1, .attributes row.2)
  extensions : List.Forall₂
    (fun declared row => declared.1 = row.1 ∧
      (Extension.Given.path declared.2).Yields catalogue row.2)
    config.extensions.rows c.extensions.rows
  collects : config.entries.Collects (Plan.Declaration.keyed 0 config.plans)
  bodies : c.plans.bodies = config.entries.values
  ids : c.plans.ids = config.entries.keys.map (Plan.Key.id (before.supply.cursor generator).next.2)
  program : (Post.assembleAll ⟨c, after⟩).result =
    if config.plans = [] then .error (.unset "Execution plan")
    else .ok (String.join
        (config.streams.rows.map fun row => (Schema.attributes row.2).definition row.1)
      ++ String.join config.entries.values)
  added : Post.added ⟨c, after⟩ = (· + 1)^[config.plans.length] (Post.added ⟨c, before⟩)
  level : config.plans ≠ [] ∨
      before.metrics.gauges.get? (key Collector.plansRegistered (Collector.contextLabels c.id)) =
        none →
    (after.metrics.gauge Collector.plansRegistered (Collector.contextLabels c.id)).Reads
      config.entries.size

namespace Config

section

variable {α : Type} {site : Site α} {c : Context}

theorem newContext_ends (unnamedLabel : String) (generator : Generator) :
    (Site.newContext unnamedLabel none generator).Ends site
      (.ok (.empty (site.supply.cursor generator).next.1 unnamedLabel none generator))
      { site with
        supply := site.supply.move generator (site.supply.cursor generator).next.2 } := ⟨rfl, rfl⟩

theorem within_ends {β : Type} {op : Operation (Post α) β} {result : Except Fault β} {p : Post α}
    (h : op.Ends ⟨c, site⟩ result p) : (Site.within c op).Ends site result p.site :=
  ⟨h.result_eq, congrArg Post.site h.state_eq⟩

end

variable {α : Type} [OfNat α 0] [OfNat α 1] [Add α] (config : Config) (settings : Settings)
  (label? : Option String) (catalogue : Extension.Catalogue) (generator : Generator)
  (site : Site α)

def opened : Post α where
  context := .empty (site.supply.cursor generator).next.1 (label?.getD settings.unnamedLabel) none
    generator
  site := { site with
    supply := site.supply.move generator (site.supply.cursor generator).next.2 }

def loaded (extensions : Extension.Registry) : Post α :=
  let p : Post α := opened settings label? generator site
  { p with context := { config.prepared settings p.context with extensions } }

variable {config settings label? catalogue generator site} {extensions : Extension.Registry}

theorem build_ends {result : Except Fault Unit} {p : Post α}
    (h : (config.fill settings catalogue).Ends (opened settings label? generator site) result p) :
    (config.build settings label? catalogue generator).Ends site
      (result.map fun _ => p.context) p.site := by
  have hanswer : ∀ result, ((config.fill settings catalogue).Ends
      (opened settings label? generator site) result p) →
      (do
        config.fill settings catalogue
        return (← Operation.read).context : Operation (Post α) Context).Ends
        (opened settings label? generator site) (result.map fun _ => p.context) p := by
    intro result h
    cases result with
    | ok _ => exact h.bind ⟨rfl, rfl⟩
    | error fault => exact h.bind_error
  exact (newContext_ends _ generator).bind (within_ends (hanswer result h))

theorem fill_ends_ok (settings : Settings) (label? : Option String)
    (hnever : (site.supply.cursor generator).NeverRepeats)
    (hapart : ∀ plan ∈ config.plans, plan.Apart (site.supply.cursor generator))
    (h : config.resolved catalogue = .ok extensions) :
    let start := site.supply.move generator (site.supply.cursor generator).next.2
    ∃ p : Post α,
      (config.fill settings catalogue).Ends (opened settings label? generator site) (.ok ()) p ∧
      p.supplied.Holds start generator (0 + Plan.Declaration.countUnnamed config.plans)
        config.entries ∧
      Post.Adds config.plans (loaded config settings label? generator site extensions) p := by
  intro start
  have hstart : start.cursor generator = (site.supply.cursor generator).next.2 :=
    Supply.cursor_move_self _ _ _
  have hopened : (loaded config settings label? generator site extensions).supplied.Holds start
      generator 0 ∅ := .opened start generator
  have hnext : (start.cursor generator).NeverRepeats := hstart ▸ hnever.next
  have hplans : ∀ plan ∈ config.plans, plan.Apart (start.cursor generator) :=
    fun plan hplan id hid hgive => hapart plan hplan id hid (hstart ▸ hgive).of_next
  obtain ⟨p, hends, hholds, hadds⟩ := Post.addPlans_ends hopened hnext hplans
  refine ⟨p, ?_, hholds, hadds⟩
  have hnone : (∅ : Extension.Registry).insertAll extensions.rows = extensions :=
    Table.insertAll_empty extensions
  have hplans : config.fillPlans.Ends (loaded config settings label? generator site extensions)
      (.ok ⟨⟩) p := hends.bind ⟨rfl, rfl⟩
  rw [← hnone] at hplans
  exact config.fill_ends settings catalogue (config.fillExtensions_ends_ok catalogue h hplans)

theorem built_of_adds {p : Post α} {n : Nat}
    (h : config.resolved catalogue = .ok extensions)
    (hholds : p.supplied.Holds (site.supply.move generator (site.supply.cursor generator).next.2)
      generator n config.entries)
    (hadds : Post.Adds config.plans (loaded config settings label? generator site extensions) p) :
    config.Built settings label? catalogue generator site p.site p.context := by
  have hid : p.context.id = (site.supply.cursor generator).next.1 :=
    congrArg Context.id hadds.context_eq
  have hstreams : p.context.streams = config.schemas := congrArg Context.streams hadds.context_eq
  have hextensions : p.context.extensions = extensions :=
    congrArg Context.extensions hadds.context_eq
  have hbodies : p.context.plans.bodies = config.entries.values := by
    have hrows := congrArg (List.map Prod.snd) hholds.rows
    rwa [List.map_map] at hrows
  constructor
  · exact hid
  · exact congrArg Context.unnamedLabel hadds.context_eq
  · exact (congrArg Context.name? hadds.context_eq).trans Option.or_none
  · exact (congrArg Context.time? hadds.context_eq).trans Option.or_none
  · exact congrArg Context.execution? hadds.context_eq
  · rw [hstreams, rows_schemas]
  · rw [hextensions]
    exact (config.resolved_eq_ok_iff catalogue).mp h
  · exact Table.collects_ofList _
  · exact hbodies
  · have hids := hholds.ids_eq
    rwa [Supply.cursor_move_self] at hids
  · have hinitialized : p.context.plans.initialized = true ↔ config.plans ≠ [] := by
      constructor
      · intro hinitialized hnone
        rw [hadds.nothing hnone] at hinitialized
        exact nomatch hinitialized
      · exact fun hsome => hadds.initialized (Or.inl hsome)
    rw [Post.assembleAll_result, hstreams, hbodies, definitions_schemas]
    simp only [hinitialized, ite_not]
  · have hbefore : (loaded config settings label? generator site extensions).added =
        Post.added ⟨p.context, site⟩ := by
      rw [Post.added, Post.added, hid]
      rfl
    rw [← hbefore]
    exact hadds.added_eq
  · intro hgauge
    by_cases hplans : config.plans = []
    · have hnone := hgauge.resolve_left fun hsome => hsome hplans
      have hsize : config.entries.size = 0 := by rw [entries, hplans]; rfl
      rw [hid] at hnone
      rw [hid, hadds.nothing hplans, hsize, Collector.gauge]
      change Amount.Reads 0 ((site.metrics.gauges.get? _).getD (.real 0))
      rw [hnone]
      rfl
    · have hlevel : p.ShowsLevel := hadds.level (Or.inl hplans)
      have hsize : p.context.plans.plans.size = config.entries.size := by
        have hlength := congrArg List.length hholds.rows
        rwa [List.length_map] at hlength
      rw [Post.ShowsLevel, hsize] at hlevel
      rw [hlevel]
      rfl

/-- A config is built if and only if all its paths lead to something, and then nothing of it is
lost. Else no series has changed, and only the id of the context has been drawn. -/
theorem build_all_or_nothing (config : Config) (settings : Settings) (label? : Option String)
    (catalogue : Extension.Catalogue) (generator : Generator) (site : Site α)
    (hnever : (site.supply.cursor generator).NeverRepeats)
    (hapart : ∀ plan ∈ config.plans, plan.Apart (site.supply.cursor generator)) :
    let outcome := config.build settings label? catalogue generator site
    (config.Importable catalogue → ∃ c, outcome.result = .ok c ∧
      config.Built settings label? catalogue generator site outcome.state c) ∧
    (¬ config.Importable catalogue → ∃ fault, outcome.result = .error fault ∧
      outcome.state = { site with
        supply := site.supply.move generator (site.supply.cursor generator).next.2 }) := by
  intro outcome
  cases hresolved : config.resolved catalogue with
  | ok extensions =>
      refine ⟨fun _ => ?_, fun hnot =>
        absurd (config.importable_of_resolved catalogue hresolved) hnot⟩
      obtain ⟨p, hfill, hholds, hadds⟩ :=
        fill_ends_ok settings label? hnever hapart hresolved
      obtain ⟨hresult, hstate⟩ := build_ends hfill
      refine ⟨p.context, hresult, ?_⟩
      rw [hstate]
      exact built_of_adds hresolved hholds hadds
  | error fault =>
      refine ⟨fun himportable =>
        absurd himportable (config.not_importable_of_resolved catalogue hresolved), fun _ => ?_⟩
      have hfill : (config.fill settings catalogue).Ends
          (opened settings label? generator site) (.error fault) _ :=
        config.fill_ends settings catalogue (config.fillExtensions_ends_error catalogue hresolved)
      obtain ⟨hresult, hstate⟩ := build_ends hfill
      exact ⟨fault, hresult, hstate⟩

/-- Two plans have one id, and two have none. -/
def market : Config where
  name? := some "market"
  time? := none
  execution? := none
  streams := Table.ofList [("Ticks", []), ("News", [])]
  extensions := Table.ofList [("plus", "functions.Plus"), ("sum", "functions:Plus")]
  plans :=
    [ .body "from Ticks select *;", .named (some "news") "from News select *;",
      .named none "from Ticks select price;", .named (some "news") "from News select title;" ]

def marketSettings : Settings where
  engineName := "market"
  version := "1"
  debug := false
  logLevel := "INFO"
  unnamedLabel := "unnamed"
  time? := some .eventTime
  parallelism := 1

def marketSite : Site Nat := ⟨.empty, ⟨.start .serial, .start .serial⟩⟩

theorem market_apart : ∀ plan ∈ market.plans, plan.Apart (.start .serial) := by
  intro plan hplan id hid hgive
  have hid' : id = "news" := by
    simp only [market, List.mem_cons, List.not_mem_nil, or_false] at hplan
    rcases hplan with rfl | rfl | rfl | rfl
    · exact nomatch hid
    · exact (Option.some.inj hid).symm
    · exact nomatch hid
    · exact (Option.some.inj hid).symm
  have hzero := Cursor.head?_of_serial_willGive hgive
  rw [hid'] at hzero
  exact absurd hzero (by decide)

theorem build_all_or_nothing_market :
    let outcome := market.build marketSettings none Extension.marketModules .shared marketSite
    let broken := { market with extensions := Table.ofList [("minus", "functions:Minus")] }
    let failed := broken.build marketSettings none Extension.marketModules .shared marketSite
    (∃ c, outcome.result = .ok c ∧ c.streams.keys = ["Ticks", "News"] ∧
      c.plans.bodies =
        ["from Ticks select *;", "from News select title;", "from Ticks select price;"] ∧
      Post.added ⟨c, outcome.state⟩ = 4) ∧
    (∃ fault, failed.result = .error fault) ∧ failed.state.metrics = marketSite.metrics := by
  intro outcome broken failed
  have hplus : ∀ path ∈ ["functions.Plus", "functions:Plus"],
      Extension.importPath Extension.marketModules path = .ok (.object "Plus") := by
    intro path hpath
    rw [List.mem_cons, List.mem_singleton] at hpath
    rcases hpath with rfl | rfl <;> rfl
  have himportable : market.Importable Extension.marketModules := by
    intro row hrow
    have hpath : row.2 ∈ ["functions.Plus", "functions:Plus"] :=
      List.mem_map.mpr ⟨row, hrow, rfl⟩
    obtain ⟨member, hleads, -⟩ := Extension.importPath_eq_ok_iff.mp (hplus row.2 hpath)
    exact ⟨member, hleads⟩
  have hbroken : ¬ broken.Importable Extension.marketModules := by
    intro himportable
    obtain ⟨member, hleads⟩ := himportable ("minus", "functions:Minus") List.mem_cons_self
    have himport := Extension.importPath_eq_ok_iff.mpr ⟨member, hleads, rfl⟩
    exact nomatch himport
  obtain ⟨hbuilds, -⟩ := build_all_or_nothing market marketSettings none Extension.marketModules
    .shared marketSite Cursor.serial_neverRepeats market_apart
  obtain ⟨-, hfails⟩ := build_all_or_nothing broken marketSettings none Extension.marketModules
    .shared marketSite Cursor.serial_neverRepeats market_apart
  obtain ⟨c, hresult, hbuilt⟩ := hbuilds himportable
  obtain ⟨fault, hfault, hstate⟩ := hfails hbroken
  refine ⟨⟨c, hresult, ?_, ?_, ?_⟩, ⟨fault, hfault⟩, ?_⟩
  · rw [Table.keys, hbuilt.streams]
    rfl
  · rw [hbuilt.bodies]
    rfl
  · rw [hbuilt.added]
    rfl
  · rw [hstate]

end Config

end EventOperator
