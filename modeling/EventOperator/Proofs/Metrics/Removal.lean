import EventOperator.Proofs.Metrics.Key

/-!
Collectors and what is asked of them. The names and the labels of series are kept for exactly the
series that have a counter or a gauge. A removal takes out all series with the wanted labels, leaves
all others as they are, and leaves nothing behind that a later recording would find.
-/

namespace EventOperator.Metrics

variable {α : Type} {name context mode k : String} {labels others wanted : Labels}

inductive Call (α : Type) where
  | increment (name : String) (amount : α) (labels : Labels)
  | setGauge (name : String) (level : Amount) (labels : Labels)
  | removeSeries (wanted : Labels)
  | planAdded (context : String) (registered : Int)
  | planRemoved (context : String) (registered : Int)
  | managerCreated (context : String)
  | assembled (context mode : String)
  | discardContext (context : String)

namespace Collector

variable [OfNat α 0] [OfNat α 1] [Add α]

def perform (c : Collector α) : Call α → Collector α
  | .increment name amount labels => c.increment name amount labels
  | .setGauge name level labels => c.setGauge name level labels
  | .removeSeries wanted => (removeSeries wanted c).state
  | .planAdded context registered => c.planAdded context registered
  | .planRemoved context registered => c.planRemoved context registered
  | .managerCreated context => c.managerCreated context
  | .assembled context mode => c.assembled context mode
  | .discardContext context => (discardContext context c).state

def after (c : Collector α) (calls : List (Call α)) : Collector α := calls.foldl perform c

end Collector

/-! Names and labels from which keys can be read back. -/

def Labels.QuoteFree (labels : Labels) : Prop :=
  ∀ label ∈ labels.rows, '"' ∉ label.1.toList ∧ '"' ∉ label.2.toList

instance (labels : Labels) : Decidable labels.QuoteFree := List.decidableBAll _ labels.rows

theorem Labels.QuoteFree.legible (h : labels.QuoteFree) : labels.Legible := by
  intro label hlabel
  obtain ⟨hname, hvalue⟩ := h label hlabel
  constructor
  · exact fun hin => hname (hin.subset (by decide))
  · exact fun hin => hvalue (hin.subset (by decide))

structure IsReadable (name : String) (labels : Labels) : Prop where
  name : '{' ∉ name.toList
  labels : labels.QuoteFree

instance (name : String) (labels : Labels) : Decidable (IsReadable name labels) :=
  decidable_of_iff ('{' ∉ name.toList ∧ labels.QuoteFree) ⟨fun h => ⟨h.1, h.2⟩, fun h => ⟨h.1, h.2⟩⟩

def Call.IsReadable : Call α → Prop
  | .increment name _ labels => Metrics.IsReadable name labels
  | .setGauge name _ labels => Metrics.IsReadable name labels
  | .planAdded context _ => '"' ∉ context.toList
  | .planRemoved context _ => '"' ∉ context.toList
  | .managerCreated context => '"' ∉ context.toList
  | .assembled context mode => '"' ∉ context.toList ∧ '"' ∉ mode.toList
  | .removeSeries _ => True
  | .discardContext _ => True

theorem quoteFree_contextLabels (h : '"' ∉ context.toList) :
    (Collector.contextLabels context).QuoteFree := by
  have hname : '"' ∉ "context".toList := by decide
  intro label hlabel
  obtain rfl := List.mem_singleton.mp hlabel
  exact ⟨hname, h⟩

theorem quoteFree_mode (hcontext : '"' ∉ context.toList) (hmode : '"' ∉ mode.toList) :
    Labels.QuoteFree (Table.ofList [("context", context), ("mode", mode)]) := by
  have hnames : '"' ∉ "context".toList ∧ '"' ∉ "mode".toList := by decide
  have hrows : (Table.ofList [("context", context), ("mode", mode)]).rows =
      [("context", context), ("mode", mode)] := rfl
  intro label hlabel
  rw [hrows, List.mem_cons, List.mem_singleton] at hlabel
  rcases hlabel with rfl | rfl
  · exact ⟨hnames.1, hcontext⟩
  · exact ⟨hnames.2, hmode⟩

theorem includes_iff : includes labels wanted = true ↔ wanted.Within labels := by
  rw [includes, List.all_eq_true]
  constructor
  · intro h key value hget
    exact of_decide_eq_true (h (key, value) ((wanted.mem_rows_iff key value).mpr hget))
  · rintro h ⟨key, value⟩ hrow
    exact decide_eq_true (h key value ((wanted.mem_rows_iff key value).mp hrow))

theorem includes_congr (h : labels.Same others) (wanted : Labels) :
    includes labels wanted = includes others wanted := by
  rw [Bool.eq_iff_iff, includes_iff, includes_iff]
  constructor
  · exact fun hwithin key value hget => (h key).symm.trans (hwithin key value hget)
  · exact fun hwithin key value hget => (h key).trans (hwithin key value hget)

namespace Collector

variable {c : Collector α}

theorem mem_keysWith_iff :
    k ∈ c.keysWith wanted ↔
      ∃ labels, c.labels.get? k = some labels ∧ includes labels wanted = true := by
  rw [keysWith, List.mem_map]
  constructor
  · rintro ⟨⟨key, labels⟩, hrow, rfl⟩
    obtain ⟨hrow, hincludes⟩ := List.mem_filter.mp hrow
    exact ⟨labels, (c.labels.mem_rows_iff key labels).mp hrow, hincludes⟩
  · rintro ⟨labels, hget, hincludes⟩
    exact ⟨(k, labels), List.mem_filter.mpr ⟨(c.labels.mem_rows_iff k labels).mpr hget, hincludes⟩,
      rfl⟩

theorem state_removeSeries (c : Collector α) (wanted : Labels) :
    (removeSeries wanted c).state = c.dropKeys (c.keysWith wanted) := by
  rw [removeSeries]
  simp only [Operation.bind_apply, Operation.read_apply, Operation.change_apply]
  split <;> rfl

/-- Names and labels are kept under the keys of counters and gauges and under no others. -/
structure InStep (c : Collector α) : Prop where
  mem_names_iff : ∀ key, key ∈ c.names.keys ↔ key ∈ c.counters.keys ∨ key ∈ c.gauges.keys
  mem_labels_iff : ∀ key, key ∈ c.labels.keys ↔ key ∈ c.counters.keys ∨ key ∈ c.gauges.keys

namespace InStep

theorem empty : (Collector.empty : Collector α).InStep where
  mem_names_iff _ := ⟨nofun, fun h => h.elim nofun nofun⟩
  mem_labels_iff _ := ⟨nofun, fun h => h.elim nofun nofun⟩

theorem increment [OfNat α 0] [Add α] (h : c.InStep) (name : String) (amount : α)
    (labels : Labels) : (c.increment name amount labels).InStep where
  mem_names_iff key := by
    simp only [Collector.increment, track, Table.mem_keys_insert, h.mem_names_iff, or_assoc]
  mem_labels_iff key := by
    simp only [Collector.increment, track, Table.mem_keys_insert, h.mem_labels_iff, or_assoc]

theorem setGauge (h : c.InStep) (name : String) (level : Amount) (labels : Labels) :
    (c.setGauge name level labels).InStep where
  mem_names_iff key := by
    simp only [Collector.setGauge, track, Table.mem_keys_insert, h.mem_names_iff, or_left_comm]
  mem_labels_iff key := by
    simp only [Collector.setGauge, track, Table.mem_keys_insert, h.mem_labels_iff, or_left_comm]

theorem dropKeys (h : c.InStep) (keys : List String) : (c.dropKeys keys).InStep where
  mem_names_iff key := by
    simp only [Collector.dropKeys, Table.mem_keys_filter, h.mem_names_iff, or_and_right]
  mem_labels_iff key := by
    simp only [Collector.dropKeys, Table.mem_keys_filter, h.mem_labels_iff, or_and_right]

theorem perform [OfNat α 0] [OfNat α 1] [Add α] (h : c.InStep) (call : Call α) :
    (c.perform call).InStep := by
  cases call with
  | increment name amount labels => exact h.increment name amount labels
  | setGauge name level labels => exact h.setGauge name level labels
  | removeSeries wanted =>
      rw [Collector.perform, state_removeSeries]
      exact h.dropKeys _
  | planAdded context registered => exact (h.increment _ _ _).setGauge _ _ _
  | planRemoved context registered => exact (h.increment _ _ _).setGauge _ _ _
  | managerCreated context => exact h.increment _ _ _
  | assembled context mode => exact h.increment _ _ _
  | discardContext context =>
      rw [Collector.perform, discardContext, state_removeSeries]
      exact h.dropKeys _

theorem after [OfNat α 0] [OfNat α 1] [Add α] (h : c.InStep) (calls : List (Call α)) :
    (c.after calls).InStep := by
  induction calls generalizing c with
  | nil => exact h
  | cons call calls ih => exact ih (h.perform call)

end InStep

/-- The labels that are kept under a key belong to a series whose key this is. -/
def Readable (c : Collector α) : Prop :=
  ∀ key labels, c.labels.get? key = some labels →
    ∃ name, IsReadable name labels ∧ key = Metrics.key name labels

namespace Readable

theorem empty : (Collector.empty : Collector α).Readable := nofun

theorem track (h : c.Readable) (hseries : IsReadable name labels) :
    (c.track name labels).Readable := by
  intro key kept hget
  rw [Collector.track, Table.get?_insert] at hget
  split at hget
  · rename_i hkey
    obtain rfl := Option.some.inj hget
    exact ⟨name, hseries, hkey.symm⟩
  · exact h key kept hget

theorem dropKeys (h : c.Readable) (keys : List String) : (c.dropKeys keys).Readable := by
  intro key kept hget
  rw [Collector.dropKeys, Table.get?_filter] at hget
  split at hget
  · exact h key kept hget
  · cases hget

theorem perform [OfNat α 0] [OfNat α 1] [Add α] {call : Call α} (h : c.Readable)
    (hcall : call.IsReadable) : (c.perform call).Readable := by
  have hcontext : ∀ {name context}, '{' ∉ name.toList → '"' ∉ context.toList →
      IsReadable name (contextLabels context) := fun hname hcontext =>
    ⟨hname, quoteFree_contextLabels hcontext⟩
  cases call with
  | increment name amount labels => exact h.track hcall
  | setGauge name level labels => exact h.track hcall
  | removeSeries wanted =>
      rw [Collector.perform, state_removeSeries]
      exact h.dropKeys _
  | planAdded context registered =>
      exact (h.track (hcontext (by decide) hcall)).track (hcontext (by decide) hcall)
  | planRemoved context registered =>
      exact (h.track (hcontext (by decide) hcall)).track (hcontext (by decide) hcall)
  | managerCreated context => exact h.track (hcontext (by decide) hcall)
  | assembled context mode => exact h.track ⟨by decide, quoteFree_mode hcall.1 hcall.2⟩
  | discardContext context =>
      rw [Collector.perform, discardContext, state_removeSeries]
      exact h.dropKeys _

theorem after [OfNat α 0] [OfNat α 1] [Add α] {calls : List (Call α)} (h : c.Readable)
    (hcalls : ∀ call ∈ calls, call.IsReadable) : (c.after calls).Readable := by
  induction calls generalizing c with
  | nil => exact h
  | cons call calls ih =>
      exact ih (h.perform (hcalls call List.mem_cons_self)) fun other hother =>
        hcalls other (List.mem_cons_of_mem call hother)

theorem mem_keysWith_iff (h : c.Readable) (hseries : IsReadable name labels) :
    key name labels ∈ c.keysWith wanted ↔
      key name labels ∈ c.labels.keys ∧ wanted.Within labels := by
  have hsame : ∀ kept, c.labels.get? (key name labels) = some kept →
      (includes kept wanted = true ↔ wanted.Within labels) := by
    intro kept hget
    obtain ⟨other, hother, hkey⟩ := h _ kept hget
    have hlabels := ((key_eq_iff hseries.name hother.name hseries.labels.legible
      hother.labels.legible).mp hkey).2
    rw [← includes_congr hlabels, includes_iff]
  rw [Collector.mem_keysWith_iff, ← Table.contains_iff, Table.contains, Option.isSome_iff_exists]
  constructor
  · rintro ⟨kept, hget, hincludes⟩
    exact ⟨⟨kept, hget⟩, (hsame kept hget).mp hincludes⟩
  · rintro ⟨⟨kept, hget⟩, hwithin⟩
    exact ⟨kept, hget, (hsame kept hget).mpr hwithin⟩

theorem get?_dropped {β : Type} {t : Table String β} (h : c.Readable) (wanted : Labels)
    (hseries : IsReadable name labels) (ht : ∀ key ∈ t.keys, key ∈ c.labels.keys) :
    (wanted.Within labels →
        (t.filter fun key => !(c.keysWith wanted).contains key).get? (key name labels) = none) ∧
      (¬ wanted.Within labels →
        (t.filter fun key => !(c.keysWith wanted).contains key).get? (key name labels) =
          t.get? (key name labels)) := by
  have hmem : key name labels ∈ c.keysWith wanted ↔
      key name labels ∈ c.labels.keys ∧ wanted.Within labels := h.mem_keysWith_iff hseries
  rw [Table.get?_filter]
  constructor
  · intro hwithin
    by_cases hkey : key name labels ∈ t.keys
    · simp [hmem.mpr ⟨ht _ hkey, hwithin⟩]
    · rw [(t.get?_eq_none_iff _).mpr hkey, ite_self]
  · intro hwithin
    have hkept : key name labels ∉ c.keysWith wanted := fun hin => hwithin (hmem.mp hin).2
    simp [hkept]

end Readable

end Collector

/-- After any requests, names and labels are kept for the series that there are and for no others,
and a removal takes out exactly the series with the wanted labels: nothing is left of them, and what
is recorded for them later starts anew. -/
theorem removal_exact [OfNat α 0] [OfNat α 1] [Add α] {calls : List (Call α)}
    (hcalls : ∀ call ∈ calls, call.IsReadable) :
    let c := (Collector.empty : Collector α).after calls
    (∀ key, key ∈ c.names.keys ↔ key ∈ c.counters.keys ∨ key ∈ c.gauges.keys) ∧
      (∀ key, key ∈ c.labels.keys ↔ key ∈ c.counters.keys ∨ key ∈ c.gauges.keys) ∧
      ∀ (wanted : Labels) (name : String) (labels : Labels), IsReadable name labels →
        let left := (Collector.removeSeries wanted c).state
        (wanted.Within labels →
          left.counter name labels = 0 ∧ left.gauge name labels = .real 0 ∧
            ∀ amount level, (left.increment name amount labels).counter name labels = 0 + amount ∧
              (left.setGauge name level labels).gauge name labels = level) ∧
        (¬ wanted.Within labels →
          left.counter name labels = c.counter name labels ∧
            left.gauge name labels = c.gauge name labels) := by
  intro c
  have hstep : c.InStep := Collector.InStep.empty.after calls
  have hreadable : c.Readable := Collector.Readable.empty.after hcalls
  refine ⟨hstep.mem_names_iff, hstep.mem_labels_iff, ?_⟩
  intro wanted name labels hseries left
  have hleft : left = c.dropKeys (c.keysWith wanted) := c.state_removeSeries wanted
  have hcounters := hreadable.get?_dropped (t := c.counters) wanted hseries
    fun key hkey => (hstep.mem_labels_iff key).mpr (Or.inl hkey)
  have hgauges := hreadable.get?_dropped (t := c.gauges) wanted hseries
    fun key hkey => (hstep.mem_labels_iff key).mpr (Or.inr hkey)
  rw [hleft]
  constructor
  · intro hwithin
    have hcounter : (c.dropKeys (c.keysWith wanted)).counter name labels = 0 := by
      rw [Collector.counter, Collector.dropKeys, hcounters.1 hwithin]
      rfl
    refine ⟨hcounter, ?_, ?_⟩
    · rw [Collector.gauge, Collector.dropKeys, hgauges.1 hwithin]
      rfl
    · intro amount level
      rw [Collector.counter_increment, Collector.gauge_setGauge, if_pos rfl, if_pos rfl, hcounter]
      exact ⟨rfl, rfl⟩
  · intro hwithin
    constructor
    · rw [Collector.counter, Collector.dropKeys, hcounters.2 hwithin]
      rfl
    · rw [Collector.gauge, Collector.dropKeys, hgauges.2 hwithin]
      rfl

def marketRequests : List (Call Nat) :=
  [ .planAdded "bonds" 1, .assembled "bonds" "one", .assembled "shares" "all",
    .increment "orders" 3 (Table.ofList [("side", "bid"), ("context", "shares")]),
    .discardContext "bonds", .planAdded "bonds" 2, .increment "orders" 1 ∅ ]

theorem removal_exact_market :
    let c := (Collector.empty : Collector Nat).after marketRequests
    let left := (Collector.removeSeries (Collector.contextLabels "shares") c).state
    let bids := Table.ofList [("context", "shares"), ("side", "bid")]
    c.labels.keys.length = 5 ∧ c.counter "orders" bids = 3 ∧ left.counter "orders" bids = 0 ∧
      left.counter "orders" ∅ = 1 ∧
      left.counter Collector.plansAdded (Collector.contextLabels "bonds") = 1 := by
  intro c left bids
  have hcalls : ∀ call ∈ marketRequests, call.IsReadable := by
    intro call hcall
    simp only [marketRequests, List.mem_cons, List.not_mem_nil, or_false] at hcall
    rcases hcall with rfl | rfl | rfl | rfl | rfl | rfl | rfl <;>
      simp only [Call.IsReadable] <;> decide +kernel
  obtain ⟨-, -, hremoval⟩ := removal_exact hcalls
  have hbids := (hremoval (Collector.contextLabels "shares") "orders" bids (by decide +kernel)).1
    (includes_iff.mp (by decide +kernel))
  have horders := (hremoval (Collector.contextLabels "shares") "orders" ∅ (by decide +kernel)).2
    fun hwithin => absurd (hwithin "context" "shares" (by decide)) (by decide)
  have hadded := (hremoval (Collector.contextLabels "shares") Collector.plansAdded
    (Collector.contextLabels "bonds") (by decide +kernel)).2
    fun hwithin => absurd (hwithin "context" "shares" (by decide)) (by decide)
  exact ⟨by decide +kernel, by decide +kernel, hbids.1, horders.1.trans (by decide +kernel),
    hadded.1.trans (by decide +kernel)⟩

end EventOperator.Metrics
