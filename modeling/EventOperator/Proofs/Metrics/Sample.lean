import EventOperator.Proofs.Metrics.Removal

/-!
The samples of a collector as its past tells them. A sample begins with the change that records its
series for the first time after the series was last removed, and the changes since then make its
amount. In the tables of a collector the samples stand in the order in which they began.
-/

namespace EventOperator.Metrics

/-- A change to a series, or to all series with some labels. -/
inductive Change (α : Type) where
  | count (name : String) (labels : Labels) (amount : α)
  | setLevel (name : String) (labels : Labels) (level : Amount)
  | remove (wanted : Labels)

/-- What a change records: the series, and the new amount by the old one. -/
structure Recording (γ : Type) where
  name : String
  labels : Labels
  amount : Option γ → γ

def Recording.key (r : Recording γ) : String := Metrics.key r.name r.labels

/-- The name of the series, the number of changes before the one with which the sample began, and
what the sample amounts to. -/
structure Sample (γ : Type) where
  name : String
  born : Nat
  amount : γ

namespace Change

def counted? [OfNat α 0] [Add α] : Change α → Option (Recording α)
  | count name labels amount => some ⟨name, labels, fun old => old.getD 0 + amount⟩
  | _ => none

def level? : Change α → Option (Recording Amount)
  | setLevel name labels level => some ⟨name, labels, fun _ => level⟩
  | _ => none

/-- The labels with which the series of a key was last recorded, if it has not been removed since.
The latest change comes first. -/
def labelsOf : List (Change α) → String → Option Labels
  | [], _ => none
  | count name labels _ :: past, k | setLevel name labels _ :: past, k =>
      if key name labels = k then some labels else labelsOf past k
  | remove wanted :: past, k => (labelsOf past k).filter fun labels => !includes labels wanted

def removes (past : List (Change α)) (k : String) : Change α → Bool
  | remove wanted => (labelsOf past k).any (includes · wanted)
  | _ => false

end Change

def Recording.sample (r : Recording γ) (now : Nat) (old? : Option (Sample γ)) : Sample γ :=
  ⟨r.name, (old?.map Sample.born).getD now, r.amount (old?.map Sample.amount)⟩

/-- The sample under a key, of the kind that `kind?` reads off changes. -/
def sampleOf (kind? : Change α → Option (Recording γ)) :
    List (Change α) → String → Option (Sample γ)
  | [], _ => none
  | change :: past, k =>
      if change.removes past k then none
      else
        match kind? change with
        | some r =>
            if r.key = k then some (r.sample past.length (sampleOf kind? past k))
            else sampleOf kind? past k
        | none => sampleOf kind? past k

variable {α γ : Type} {kind? : Change α → Option (Recording γ)} {r : Recording γ}
  {change : Change α} {past : List (Change α)} {k : String} {s : Sample γ} {t : Table String γ}

theorem sampleOf_removed (h : change.removes past k = true) :
    sampleOf kind? (change :: past) k = none := if_pos h

theorem sampleOf_recorded (hkept : change.removes past k = false) (hkind : kind? change = some r) :
    sampleOf kind? (change :: past) k =
      if r.key = k then some (r.sample past.length (sampleOf kind? past k))
      else sampleOf kind? past k := by
  rw [sampleOf, hkept, hkind]
  rfl

theorem sampleOf_other (hkept : change.removes past k = false) (hkind : kind? change = none) :
    sampleOf kind? (change :: past) k = sampleOf kind? past k := by
  rw [sampleOf, hkept, hkind]
  rfl

theorem born_lt (h : sampleOf kind? past k = some s) : s.born < past.length := by
  induction past generalizing s with
  | nil => cases h
  | cons change past ih =>
      rw [List.length_cons]
      cases hremoves : change.removes past k with
      | true =>
          rw [sampleOf_removed hremoves] at h
          cases h
      | false =>
          cases hkind : kind? change with
          | none =>
              rw [sampleOf_other hremoves hkind] at h
              exact Nat.lt_succ_of_lt (ih h)
          | some r =>
              rw [sampleOf_recorded hremoves hkind] at h
              split at h
              · obtain rfl := Option.some.inj h
                cases hold : sampleOf kind? past k with
                | none => exact Nat.lt_succ_self _
                | some old =>
                    have hlt := ih hold
                    exact Nat.lt_succ_of_lt hlt
              · exact Nat.lt_succ_of_lt (ih h)

def bornAt (kind? : Change α → Option (Recording γ)) (past : List (Change α)) (k : String) : Nat :=
  ((sampleOf kind? past k).map Sample.born).getD past.length

/-- A table holds the amounts of all samples, in the order in which these began. -/
structure Holds (t : Table String γ) (kind? : Change α → Option (Recording γ))
    (past : List (Change α)) : Prop where
  get? : ∀ k, t.get? k = (sampleOf kind? past k).map Sample.amount
  ordered : t.keys.Pairwise fun first later => bornAt kind? past first < bornAt kind? past later

namespace Holds

theorem empty : Holds (∅ : Table String γ) kind? ([] : List (Change α)) :=
  ⟨fun _ => rfl, List.Pairwise.nil⟩

theorem mem_keys_iff (h : Holds t kind? past) : k ∈ t.keys ↔ (sampleOf kind? past k).isSome := by
  rw [← Table.contains_iff, Table.contains, h.get?, Option.isSome_map]

theorem bornAt_lt (h : Holds t kind? past) (hk : k ∈ t.keys) :
    bornAt kind? past k < past.length := by
  obtain ⟨s, hs⟩ := Option.isSome_iff_exists.mp (h.mem_keys_iff.mp hk)
  rw [bornAt, hs]
  exact born_lt hs

theorem removed (h : Holds t kind? past) {keep : String → Bool}
    (hkeep : ∀ k, keep k = !change.removes past k) (hkind : kind? change = none) :
    Holds (t.filter keep) kind? (change :: past) := by
  have hsample : ∀ k, sampleOf kind? (change :: past) k =
      if keep k then sampleOf kind? past k else none := by
    intro k
    rw [hkeep]
    cases hremoves : change.removes past k with
    | true => exact sampleOf_removed hremoves
    | false => exact sampleOf_other hremoves hkind
  constructor
  · intro k
    rw [Table.get?_filter, hsample, h.get?]
    split <;> rfl
  · rw [Table.keys_filter]
    refine (h.ordered.filter keep).imp_of_mem ?_
    intro first later hfirst hlater hlt
    have hborn : ∀ k ∈ t.keys.filter keep,
        bornAt kind? (change :: past) k = bornAt kind? past k := by
      intro k hk
      obtain ⟨hin, hkept⟩ := List.mem_filter.mp hk
      obtain ⟨s, hs⟩ := Option.isSome_iff_exists.mp (h.mem_keys_iff.mp hin)
      rw [bornAt, bornAt, hsample, if_pos hkept, hs]
      rfl
    rw [hborn first hfirst, hborn later hlater]
    exact hlt

theorem other (h : Holds t kind? past) (hkept : ∀ k, change.removes past k = false)
    (hkind : kind? change = none) : Holds t kind? (change :: past) := by
  have hsample : ∀ k, sampleOf kind? (change :: past) k = sampleOf kind? past k := fun k =>
    sampleOf_other (hkept k) hkind
  constructor
  · intro k
    rw [hsample, h.get?]
  · refine h.ordered.imp_of_mem ?_
    intro first later hfirst hlater hlt
    obtain ⟨s, hs⟩ := Option.isSome_iff_exists.mp (h.mem_keys_iff.mp hfirst)
    obtain ⟨s', hs'⟩ := Option.isSome_iff_exists.mp (h.mem_keys_iff.mp hlater)
    rw [bornAt, bornAt, hs, hs'] at hlt
    rw [bornAt, bornAt, hsample, hsample, hs, hs']
    exact hlt

theorem recorded (h : Holds t kind? past) (hkept : ∀ k, change.removes past k = false)
    (hkind : kind? change = some r) :
    Holds (t.insert r.key (r.amount (t.get? r.key))) kind? (change :: past) := by
  have hsample : ∀ k, sampleOf kind? (change :: past) k =
      if r.key = k then some (r.sample past.length (sampleOf kind? past k))
      else sampleOf kind? past k := fun k => sampleOf_recorded (hkept k) hkind
  have hborn : ∀ k ∈ t.keys, bornAt kind? (change :: past) k = bornAt kind? past k := by
    intro k hk
    obtain ⟨s, hs⟩ := Option.isSome_iff_exists.mp (h.mem_keys_iff.mp hk)
    rw [bornAt, bornAt, hsample, hs]
    split <;> rfl
  have hold : t.keys.Pairwise fun first later =>
      bornAt kind? (change :: past) first < bornAt kind? (change :: past) later := by
    refine h.ordered.imp_of_mem ?_
    intro first later hfirst hlater hlt
    rw [hborn first hfirst, hborn later hlater]
    exact hlt
  constructor
  · intro k
    rw [Table.get?_insert, hsample]
    split
    · rename_i hk
      rw [← hk, h.get?]
      rfl
    · exact h.get? k
  · rw [Table.keys_insert]
    split
    · exact hold
    · rename_i hnew
      refine List.pairwise_append.mpr ⟨hold, List.pairwise_singleton _ _, ?_⟩
      intro first hfirst last hlast
      obtain rfl := List.mem_singleton.mp hlast
      have hnone : sampleOf kind? past r.key = none := by
        rw [← Option.not_isSome_iff_eq_none, ← h.mem_keys_iff]
        exact hnew
      have hnow : bornAt kind? (change :: past) r.key = past.length := by
        rw [bornAt, hsample, if_pos rfl, hnone]
        rfl
      rw [hborn first hfirst, hnow]
      exact h.bornAt_lt hfirst

end Holds

/-- All samples there are, in the order in which they began. -/
structure AreLive (rows : List (String × Sample γ)) (kind? : Change α → Option (Recording γ))
    (past : List (Change α)) : Prop where
  mem_iff : ∀ k s, (k, s) ∈ rows ↔ sampleOf kind? past k = some s
  ordered : rows.Pairwise fun first later => first.2.born < later.2.born

theorem Holds.exists_live (h : Holds t kind? past) :
    ∃ rows, AreLive rows kind? past ∧ t.rows = rows.map fun row => (row.1, row.2.amount) := by
  refine ⟨t.keys.filterMap fun k => (sampleOf kind? past k).map (k, ·), ⟨?_, ?_⟩, ?_⟩
  · intro k s
    rw [List.mem_filterMap]
    constructor
    · rintro ⟨other, -, hrow⟩
      obtain ⟨s', hs', heq⟩ := Option.map_eq_some_iff.mp hrow
      obtain ⟨rfl, rfl⟩ := Prod.mk.inj heq
      exact hs'
    · intro hs
      have hin : k ∈ t.keys := h.mem_keys_iff.mpr (hs ▸ rfl)
      exact ⟨k, hin, by rw [hs, Option.map_some]⟩
  · refine List.pairwise_filterMap.mpr (h.ordered.imp ?_)
    intro first later hlt row hrow row' hrow'
    obtain ⟨s, hs, rfl⟩ := Option.map_eq_some_iff.mp hrow
    obtain ⟨s', hs', rfl⟩ := Option.map_eq_some_iff.mp hrow'
    rw [bornAt, bornAt, hs, hs'] at hlt
    exact hlt
  · rw [t.rows_eq_filterMap, List.map_filterMap]
    apply List.filterMap_congr
    intro k hk
    rw [h.get?, Option.map_map, Option.map_map]
    rfl

namespace Call

def changes [OfNat α 1] : Call α → List (Change α)
  | increment name amount labels => [.count name labels amount]
  | setGauge name level labels => [.setLevel name labels level]
  | removeSeries wanted => [.remove wanted]
  | planAdded context registered =>
      let labels := Collector.contextLabels context
      [.count Collector.plansAdded labels 1,
        .setLevel Collector.plansRegistered labels (.whole registered)]
  | planRemoved context registered =>
      let labels := Collector.contextLabels context
      [.count Collector.plansRemoved labels 1,
        .setLevel Collector.plansRegistered labels (.whole registered)]
  | managerCreated context =>
      [.count Collector.managersCreated (Collector.contextLabels context) 1]
  | assembled context mode =>
      [.count Collector.plansAssembled (Table.ofList [("context", context), ("mode", mode)]) 1]
  | discardContext context => [.remove (Collector.contextLabels context)]

/-- The changes of all requests, the latest one first. -/
def pastOf [OfNat α 1] (calls : List (Call α)) : List (Change α) := (calls.flatMap changes).reverse

end Call

namespace Collector

variable [OfNat α 0] [Add α] {c : Collector α}

def undergo (c : Collector α) : Change α → Collector α
  | .count name labels amount => c.increment name amount labels
  | .setLevel name labels level => c.setGauge name level labels
  | .remove wanted => c.dropKeys (c.keysWith wanted)

theorem perform_eq [OfNat α 1] (c : Collector α) (call : Call α) :
    c.perform call = call.changes.foldl undergo c := by
  cases call with
  | removeSeries wanted => exact c.state_removeSeries wanted
  | discardContext context => exact c.state_removeSeries (contextLabels context)
  | _ => rfl

theorem after_eq [OfNat α 1] (c : Collector α) (calls : List (Call α)) :
    c.after calls = (calls.flatMap Call.changes).foldl undergo c := by
  induction calls generalizing c with
  | nil => rfl
  | cons call calls ih =>
      have hrest := ih (c.perform call)
      rw [List.flatMap_cons, List.foldl_append, ← perform_eq, ← hrest]
      rfl

/-- The tables of the collector hold what its past tells. -/
structure Follows (c : Collector α) (past : List (Change α)) : Prop where
  labels : ∀ k, c.labels.get? k = Change.labelsOf past k
  counters : Holds c.counters Change.counted? past
  gauges : Holds c.gauges Change.level? past

namespace Follows

theorem empty : (Collector.empty : Collector α).Follows [] :=
  ⟨fun _ => rfl, .empty, .empty⟩

theorem labels_track (h : c.Follows past) (name : String) (labels : Labels) (k : String) :
    (c.track name labels).labels.get? k =
      if key name labels = k then some labels else Change.labelsOf past k := by
  rw [Collector.track, Table.get?_insert, h.labels]

theorem undergo (h : c.Follows past) (change : Change α) :
    (c.undergo change).Follows (change :: past) := by
  cases change with
  | count name labels amount =>
      have hcounters := h.counters.recorded (r := ⟨name, labels, fun old => old.getD 0 + amount⟩)
        (fun k => (rfl : (Change.count name labels amount).removes past k = false)) rfl
      exact ⟨h.labels_track name labels, hcounters, h.gauges.other (fun _ => rfl) rfl⟩
  | setLevel name labels level =>
      have hgauges := h.gauges.recorded (r := ⟨name, labels, fun _ => level⟩)
        (fun k => (rfl : (Change.setLevel name labels level).removes past k = false)) rfl
      exact ⟨h.labels_track name labels, h.counters.other (fun _ => rfl) rfl, hgauges⟩
  | remove wanted =>
      have hkeep : ∀ k, (!(c.keysWith wanted).contains k) =
          !(Change.remove wanted).removes past k := by
        intro k
        rw [Change.removes, ← h.labels, Bool.eq_iff_iff, Bool.not_eq_true', Bool.not_eq_true',
          ← Bool.not_eq_true, ← Bool.not_eq_true, List.contains_iff_mem, mem_keysWith_iff,
          Option.any_eq_true]
      refine ⟨?_, h.counters.removed hkeep rfl, h.gauges.removed hkeep rfl⟩
      intro k
      have hget : (c.undergo (.remove wanted)).labels.get? k =
          if !(c.keysWith wanted).contains k then c.labels.get? k else none :=
        c.labels.get?_filter _ k
      rw [hget, hkeep, Change.removes, Change.labelsOf, h.labels]
      cases Change.labelsOf past k with
      | none => rfl
      | some labels =>
          rw [Option.any_some, Option.filter_some]

theorem foldl (h : c.Follows past) (changes : List (Change α)) :
    (changes.foldl Collector.undergo c).Follows (changes.reverse ++ past) := by
  induction changes generalizing c past with
  | nil => exact h
  | cons change changes ih =>
      rw [List.reverse_cons, List.append_assoc]
      exact ih (h.undergo change)

theorem after [OfNat α 1] (calls : List (Call α)) :
    ((Collector.empty : Collector α).after calls).Follows (Call.pastOf calls) := by
  have hfollows := (empty (α := α)).foldl (calls.flatMap Call.changes)
  rw [List.append_nil] at hfollows
  rw [after_eq]
  exact hfollows

end Follows

end Collector

end EventOperator.Metrics
