import EventOperator.Proofs.Metrics.Series

/-!
Collectors as accounts of events. A counter tells how many events of its kind a context has had since
it was last closed, and the gauge tells what the latest of them that changed its plans has left.
-/

namespace EventOperator.Metrics

/-- What a collector is told about a context. Plans are counted after they have changed. -/
inductive Event where
  | planAdded (registered : Nat)
  | planRemoved (registered : Nat)
  | managerCreated
  | assembledAll
  | assembledOne
  | closed
  deriving DecidableEq

namespace Event

def record (context : String) (c : Collector Nat) : Event → Collector Nat
  | planAdded registered => c.planAdded context registered
  | planRemoved registered => c.planRemoved context registered
  | managerCreated => c.managerCreated context
  | assembledAll => c.assembled context "all"
  | assembledOne => c.assembled context "one"
  | closed => (Collector.discardContext context c).state

def counted? : Event → Option Series
  | planAdded _ => some .added
  | planRemoved _ => some .removed
  | managerCreated => some .managers
  | assembledAll => some .assembledAll
  | assembledOne => some .assembledOne
  | closed => none

def registered? : Event → Option Nat
  | planAdded registered | planRemoved registered => some registered
  | _ => none

end Event

section

variable {ι : Type} [DecidableEq ι] {owner other : ι} {event : Event} {ledger : List (ι × Event)}

/-- The events of one owner from the latest one back to when it was last closed. -/
def sinceClosed (owner : ι) : List (ι × Event) → List Event
  | [] => []
  | (other, event) :: earlier =>
      if other = owner then
        if event = .closed then [] else event :: sinceClosed owner earlier
      else sinceClosed owner earlier

theorem sinceClosed_of_ne (h : other ≠ owner) :
    sinceClosed owner ((other, event) :: ledger) = sinceClosed owner ledger :=
  if_neg h

theorem sinceClosed_closed :
    sinceClosed owner ((owner, .closed) :: ledger) = [] := by
  rw [sinceClosed, if_pos rfl, if_pos rfl]

theorem sinceClosed_of_ne_closed (h : event ≠ .closed) :
    sinceClosed owner ((owner, event) :: ledger) = event :: sinceClosed owner ledger := by
  rw [sinceClosed, if_pos rfl, if_neg h]

end

namespace Collector

variable {c : Collector Nat} {s s' : Series} {u v key : String} {labels : Labels} {event : Event}

def counterOf (c : Collector Nat) (s : Series) (u : String) : Nat := c.counter s.name (s.labels u)

def gaugeOf (c : Collector Nat) (u : String) : Amount := c.gauge plansRegistered (contextLabels u)

def count (c : Collector Nat) (s : Series) (u : String) : Collector Nat :=
  c.increment s.name 1 (s.labels u)

def setLevel (c : Collector Nat) (u : String) (registered : Nat) : Collector Nat :=
  c.setGauge plansRegistered (.whole registered) (contextLabels u)

theorem record_of_counted (hs : event.counted? = some s) :
    event.record u c = event.registered?.elim (c.count s u) ((c.count s u).setLevel u) := by
  cases event with
  | closed => exact nomatch hs
  | _ =>
      obtain rfl := Option.some.inj hs
      rfl

theorem counterOf_record (hs : event.counted? = some s) :
    (event.record u c).counterOf s' v =
      c.counterOf s' v + if u = v ∧ s = s' then 1 else 0 := by
  have hcounters : (event.record u c).counters =
      c.counters.insert (s.key u) (c.counterOf s u + 1) := by
    rw [record_of_counted hs]
    cases event.registered? <;> rfl
  change ((event.record u c).counters.get? (s'.key v)).getD 0 = _
  rw [hcounters, Table.get?_insert]
  by_cases h : u = v ∧ s = s'
  · obtain ⟨rfl, rfl⟩ := h
    rw [if_pos rfl, if_pos ⟨rfl, rfl⟩]
    rfl
  · have hkey : s.key u ≠ s'.key v := fun heq => h (Series.key_injective heq).symm
    rw [if_neg hkey, if_neg h]
    rfl

theorem gaugeOf_record (hs : event.counted? = some s) :
    (event.record u c).gaugeOf v =
      if u = v then event.registered?.elim (c.gaugeOf v) fun n => .whole n else c.gaugeOf v := by
  rw [record_of_counted hs]
  cases event.registered? with
  | none => exact (ite_self _).symm
  | some registered =>
      change ((c.gauges.insert (Series.registered.key u) (.whole registered)).get?
        (Series.registered.key v)).getD (.real 0) = _
      rw [Table.get?_insert]
      by_cases h : u = v
      · subst h
        rw [if_pos rfl, if_pos rfl]
        rfl
      · have hkey : Series.registered.key u ≠ Series.registered.key v :=
          fun heq => h (Series.key_injective heq).2
        rw [if_neg hkey, if_neg h]
        rfl

theorem record_closed :
    Event.closed.record u c = c.dropKeys (c.keysWith (contextLabels u)) := by
  rw [Event.record, discardContext, removeSeries]
  simp only [Operation.bind_apply, Operation.read_apply, Operation.change_apply]
  split <;> rfl

/-- A collector holds series of living contexts only, and each of them with its labels. -/
structure HoldsOnly (c : Collector Nat) (alive : String → Prop) : Prop where
  labelled : ∀ key labels, c.labels.get? key = some labels →
    ∃ (s : Series) (u : String), key = s.key u ∧ labels = s.labels u ∧ alive u
  unlabelled : ∀ key, c.labels.get? key = none →
    c.counters.get? key = none ∧ c.gauges.get? key = none ∧ c.names.get? key = none

namespace HoldsOnly

variable {alive : String → Prop}

theorem insert (h : c.HoldsOnly alive) (hu : alive u) {c' : Collector Nat}
    (hlabels : c'.labels = c.labels.insert (s.key u) (s.labels u))
    (hothers : ∀ key, s.key u ≠ key → c'.counters.get? key = c.counters.get? key ∧
      c'.gauges.get? key = c.gauges.get? key ∧ c'.names.get? key = c.names.get? key) :
    c'.HoldsOnly alive where
  labelled key labels hget := by
    rw [hlabels, Table.get?_insert] at hget
    split at hget
    · rename_i hkey
      exact ⟨s, u, hkey.symm, (Option.some.inj hget).symm, hu⟩
    · exact h.labelled key labels hget
  unlabelled key hget := by
    rw [hlabels, Table.get?_insert] at hget
    split at hget
    · cases hget
    · rename_i hkey
      obtain ⟨hcounters, hgauges, hnames⟩ := hothers key hkey
      rw [hcounters, hgauges, hnames]
      exact h.unlabelled key hget

theorem count (h : c.HoldsOnly alive) (hu : alive u) (s : Series) :
    (c.count s u).HoldsOnly alive := by
  apply h.insert hu (s := s) rfl
  intro key hkey
  exact ⟨(Table.get?_insert ..).trans (if_neg hkey), rfl,
    (Table.get?_insert ..).trans (if_neg hkey)⟩

theorem setLevel (h : c.HoldsOnly alive) (hu : alive u) (registered : Nat) :
    (c.setLevel u registered).HoldsOnly alive := by
  apply h.insert hu (s := .registered) rfl
  intro key hkey
  exact ⟨rfl, (Table.get?_insert ..).trans (if_neg hkey),
    (Table.get?_insert ..).trans (if_neg hkey)⟩

theorem record_of_counted (h : c.HoldsOnly alive) (hu : alive u) (hs : event.counted? = some s) :
    (event.record u c).HoldsOnly alive := by
  rw [Collector.record_of_counted hs]
  cases event.registered? with
  | none => exact h.count hu s
  | some registered => exact (h.count hu s).setLevel hu registered

theorem mono {other : String → Prop} (h : c.HoldsOnly alive) (halive : ∀ u, alive u → other u) :
    c.HoldsOnly other where
  labelled key labels hget := by
    obtain ⟨s, u, hkey, hlabels, hu⟩ := h.labelled key labels hget
    exact ⟨s, u, hkey, hlabels, halive u hu⟩
  unlabelled := h.unlabelled

theorem mem_keysWith_iff (h : c.HoldsOnly alive) (s : Series) (u v : String) :
    s.key v ∈ c.keysWith (contextLabels u) ↔ v = u ∧ c.labels.get? (s.key v) ≠ none := by
  -- A key belongs to one series of one context, so the labels under it can only be theirs.
  have hlabels : ∀ labels, c.labels.get? (s.key v) = some labels → labels = s.labels v := by
    intro labels hget
    obtain ⟨s', v', hkey, hlabels, -⟩ := h.labelled _ _ hget
    obtain ⟨rfl, rfl⟩ := Series.key_injective hkey
    exact hlabels
  rw [keysWith, List.mem_map]
  constructor
  · rintro ⟨⟨key, labels⟩, hrow, rfl⟩
    obtain ⟨hrow, hincludes⟩ := List.mem_filter.mp hrow
    have hget := (c.labels.mem_rows_iff _ labels).mp hrow
    rw [hlabels labels hget, Series.includes_iff] at hincludes
    exact ⟨hincludes, by rw [hget]; exact Option.some_ne_none _⟩
  · rintro ⟨rfl, hsome⟩
    obtain ⟨labels, hget⟩ := Option.ne_none_iff_exists'.mp hsome
    refine ⟨(s.key v, labels), List.mem_filter.mpr ⟨(c.labels.mem_rows_iff _ _).mpr hget, ?_⟩, rfl⟩
    rw [hlabels labels hget]
    exact Series.includes_iff.mpr rfl

theorem get?_dropped {α : Type} (h : c.HoldsOnly alive) {t : Table String α} (s : Series)
    (u v : String) (ht : c.labels.get? (s.key v) = none → t.get? (s.key v) = none) :
    (t.filter fun key => !(c.keysWith (contextLabels u)).contains key).get? (s.key v) =
      if v = u then none else t.get? (s.key v) := by
  have hmem := h.mem_keysWith_iff s u v
  rw [Table.get?_filter]
  by_cases hv : v = u
  · rw [if_pos hv]
    by_cases hnone : c.labels.get? (s.key v) = none
    · rw [ht hnone, ite_self]
    · simp [hmem.mpr ⟨hv, hnone⟩]
  · have hkept : s.key v ∉ c.keysWith (contextLabels u) := fun hin => hv (hmem.mp hin).1
    simp [hkept, hv]

theorem closed (h : c.HoldsOnly alive) (u : String) :
    (Event.closed.record u c).HoldsOnly fun v => alive v ∧ v ≠ u where
  labelled key labels hget := by
    rw [record_closed, dropKeys, Table.get?_filter] at hget
    split at hget
    · rename_i hkept
      obtain ⟨s, v, rfl, rfl, hv⟩ := h.labelled key labels hget
      refine ⟨s, v, rfl, rfl, hv, ?_⟩
      rintro rfl
      have hmem := (h.mem_keysWith_iff s v v).mpr ⟨rfl, by rw [hget]; exact Option.some_ne_none _⟩
      simp [hmem] at hkept
    · cases hget
  unlabelled key hget := by
    rw [record_closed] at hget ⊢
    simp only [dropKeys, Table.get?_filter] at hget ⊢
    split at hget
    · rename_i hkept
      rw [if_pos hkept, if_pos hkept, if_pos hkept]
      exact h.unlabelled key hget
    · rename_i hdropped
      rw [if_neg hdropped, if_neg hdropped, if_neg hdropped]
      exact ⟨rfl, rfl, rfl⟩

theorem counterOf_closed (h : c.HoldsOnly alive) (s : Series) (u v : String) :
    (Event.closed.record u c).counterOf s v = if v = u then 0 else c.counterOf s v := by
  have hget : (Event.closed.record u c).counters.get? (s.key v) =
      if v = u then none else c.counters.get? (s.key v) := by
    rw [record_closed]
    exact h.get?_dropped s u v fun hnone => (h.unlabelled _ hnone).1
  change ((Event.closed.record u c).counters.get? (s.key v)).getD 0 = _
  rw [hget]
  split <;> rfl

theorem gaugeOf_closed (h : c.HoldsOnly alive) (u v : String) :
    (Event.closed.record u c).gaugeOf v = if v = u then .real 0 else c.gaugeOf v := by
  have hget : (Event.closed.record u c).gauges.get? (Series.registered.key v) =
      if v = u then none else c.gauges.get? (Series.registered.key v) := by
    rw [record_closed]
    exact h.get?_dropped .registered u v fun hnone => (h.unlabelled _ hnone).2.1
  change ((Event.closed.record u c).gauges.get? (Series.registered.key v)).getD (.real 0) = _
  rw [hget]
  split <;> rfl

theorem keysWith_eq_nil (h : c.HoldsOnly alive) (hu : ¬ alive u) :
    c.keysWith (contextLabels u) = [] := by
  rw [List.eq_nil_iff_forall_not_mem]
  intro key hkey
  obtain ⟨⟨_, labels⟩, hrow, rfl⟩ := List.mem_map.mp hkey
  obtain ⟨hrow, hincludes⟩ := List.mem_filter.mp hrow
  obtain ⟨s, v, rfl, rfl, hv⟩ := h.labelled _ _ ((c.labels.mem_rows_iff _ labels).mp hrow)
  rw [Series.includes_iff] at hincludes
  exact hu (hincludes ▸ hv)

end HoldsOnly

/-- A collector tells of the events of each context since it was last closed. -/
structure Accounts (c : Collector Nat) (ledger : List (String × Event)) : Prop where
  counterOf_eq : ∀ s u, c.counterOf s u = (sinceClosed u ledger).countP (·.counted? = some s)
  gaugeOf_eq : ∀ u, c.gaugeOf u =
    ((sinceClosed u ledger).findSome? Event.registered?).elim (.real 0) fun n => .whole n
  holdsOnly : c.HoldsOnly fun u => sinceClosed u ledger ≠ []

namespace Accounts

variable {ledger : List (String × Event)}

theorem empty : (Collector.empty : Collector Nat).Accounts [] where
  counterOf_eq _ _ := rfl
  gaugeOf_eq _ := rfl
  holdsOnly :=
    { labelled := fun _ _ hget => nomatch hget
      unlabelled := fun _ _ => ⟨rfl, rfl, rfl⟩ }

theorem closed (h : c.Accounts ledger) (u : String) :
    (Event.closed.record u c).Accounts ((u, .closed) :: ledger) where
  counterOf_eq s v := by
    rw [h.holdsOnly.counterOf_closed]
    split
    · rename_i hv
      rw [hv, sinceClosed_closed, List.countP_nil]
    · rename_i hv
      rw [sinceClosed_of_ne fun heq => hv heq.symm, h.counterOf_eq]
  gaugeOf_eq v := by
    rw [h.holdsOnly.gaugeOf_closed]
    split
    · rename_i hv
      rw [hv, sinceClosed_closed]
      rfl
    · rename_i hv
      rw [sinceClosed_of_ne fun heq => hv heq.symm, h.gaugeOf_eq]
  holdsOnly := by
    apply (h.holdsOnly.closed u).mono
    rintro v ⟨hv, hne⟩
    rwa [sinceClosed_of_ne fun heq => hne heq.symm]

theorem counted (h : c.Accounts ledger) (u : String) (hs : event.counted? = some s) :
    (event.record u c).Accounts ((u, event) :: ledger) := by
  have hopen : event ≠ .closed := by
    rintro rfl
    exact nomatch hs
  have hself : sinceClosed u ((u, event) :: ledger) = event :: sinceClosed u ledger :=
    sinceClosed_of_ne_closed hopen
  constructor
  · intro s' v
    rw [counterOf_record hs, h.counterOf_eq]
    by_cases hv : u = v
    · subst hv
      rw [hself, List.countP_cons]
      simp [hs]
    · rw [if_neg fun hboth => hv hboth.1, sinceClosed_of_ne hv, Nat.add_zero]
  · intro v
    rw [gaugeOf_record hs, h.gaugeOf_eq]
    by_cases hv : u = v
    · subst hv
      rw [hself, if_pos rfl, List.findSome?_cons]
      cases event.registered? <;> rfl
    · rw [if_neg hv, sinceClosed_of_ne hv]
  · have halive : ∀ v, sinceClosed v ledger ≠ [] → sinceClosed v ((u, event) :: ledger) ≠ [] := by
      intro v hne
      by_cases hv : u = v
      · subst hv
        rw [hself]
        exact List.cons_ne_nil _ _
      · rwa [sinceClosed_of_ne hv]
    exact (h.holdsOnly.mono halive).record_of_counted (by rw [hself]; exact List.cons_ne_nil _ _) hs

theorem record (h : c.Accounts ledger) (u : String) (event : Event) :
    (event.record u c).Accounts ((u, event) :: ledger) := by
  cases event with
  | closed => exact h.closed u
  | planAdded _ => exact h.counted u rfl
  | planRemoved _ => exact h.counted u rfl
  | managerCreated => exact h.counted u rfl
  | assembledAll => exact h.counted u rfl
  | assembledOne => exact h.counted u rfl

end Accounts

end Collector

end EventOperator.Metrics
