import EventOperator.Proofs.Metrics.Sample
import Mathlib.Data.Finset.Card

/-!
What a removal answers. A series has a key of its own and under it a counter, a gauge or both. The
answer is the number of series that were taken out, so it falls behind the number of counters and
gauges that are gone by those series that had both.
-/

namespace EventOperator.Metrics

namespace Collector

variable {α : Type} (c : Collector α) (keys : List String) (wanted : Labels)

def series : Finset String := c.counters.keys.toFinset ∪ c.gauges.keys.toFinset

/-- The keys of the series that have a counter and a gauge. -/
def twofold : Finset String := c.counters.keys.toFinset ∩ c.gauges.keys.toFinset

theorem mem_series_iff {key : String} :
    key ∈ c.series ↔ key ∈ c.counters.keys ∨ key ∈ c.gauges.keys := by
  rw [series, Finset.mem_union, List.mem_toFinset, List.mem_toFinset]

theorem card_keys (t : Table String β) : t.keys.toFinset.card = t.size := by
  rw [Table.keys, List.toFinset_card_of_nodup t.nodup, List.length_map, Table.size]

theorem size_add_size : c.counters.size + c.gauges.size = c.series.card + c.twofold.card := by
  rw [series, twofold, Finset.card_union_add_card_inter, card_keys, card_keys]

theorem toFinset_keys_dropped (t : Table String β) :
    (t.filter fun key => !keys.contains key).keys.toFinset = t.keys.toFinset \ keys.toFinset := by
  ext key
  simp [Table.mem_keys_filter]

theorem series_dropKeys : (c.dropKeys keys).series = c.series \ keys.toFinset := by
  rw [series, series, Finset.union_sdiff_distrib]
  exact congrArg₂ _ (toFinset_keys_dropped keys _) (toFinset_keys_dropped keys _)

theorem twofold_dropKeys : (c.dropKeys keys).twofold = c.twofold \ keys.toFinset := by
  have hsplit : c.twofold \ keys.toFinset =
      (c.counters.keys.toFinset \ keys.toFinset) ∩ (c.gauges.keys.toFinset \ keys.toFinset) :=
    inf_sdiff
  rw [hsplit, twofold]
  exact congrArg₂ _ (toFinset_keys_dropped keys _) (toFinset_keys_dropped keys _)

theorem result_removeSeries : (removeSeries wanted c).result = .ok (c.keysWith wanted).length := by
  rw [removeSeries]
  simp only [Operation.bind_apply, Operation.read_apply, Operation.change_apply]
  split <;> rfl

theorem keysWith_nodup : (c.keysWith wanted).Nodup := by
  have hsub : (c.keysWith wanted).Sublist c.labels.keys := List.filter_sublist.map Prod.fst
  exact hsub.nodup c.labels.nodup

variable {c}

theorem InStep.keysWith_subset (h : c.InStep) : (c.keysWith wanted).toFinset ⊆ c.series := by
  intro key hkey
  obtain ⟨labels, hget, -⟩ := mem_keysWith_iff.mp (List.mem_toFinset.mp hkey)
  have hlabelled : key ∈ c.labels.keys := by
    rw [← Table.contains_iff, Table.contains, hget, Option.isSome_some]
  rw [mem_series_iff, ← h.mem_labels_iff]
  exact hlabelled

end Collector

/-- After any requests, a removal takes out the series whose labels, as they were last recorded since
the series was last removed, have the wanted ones, and answers how many series these were. As many
counters and gauges are gone, and one more for each of these series that had both. -/
theorem removed_count {α : Type} [OfNat α 0] [OfNat α 1] [Add α] (calls : List (Call α))
    (wanted : Labels) :
    let c := (Collector.empty : Collector α).after calls
    let left := (Collector.removeSeries wanted c).state
    ∃ removed, (Collector.removeSeries wanted c).result = .ok removed ∧
      left.series ⊆ c.series ∧
      (∀ key, key ∈ c.series \ left.series ↔
        ∃ labels, Change.labelsOf (Call.pastOf calls) key = some labels ∧ wanted.Within labels) ∧
      removed = (c.series \ left.series).card ∧
      c.counters.size + c.gauges.size =
        left.counters.size + left.gauges.size + removed + (c.twofold \ left.twofold).card ∧
      (c.counters.size + c.gauges.size = left.counters.size + left.gauges.size + removed ↔
        c.twofold ⊆ left.twofold) := by
  intro c left
  have hkeys : (c.keysWith wanted).toFinset ⊆ c.series :=
    (Collector.InStep.empty.after calls).keysWith_subset wanted
  have hleft : left = c.dropKeys (c.keysWith wanted) := c.state_removeSeries wanted
  have hseries : left.series = c.series \ (c.keysWith wanted).toFinset := by
    rw [hleft, c.series_dropKeys]
  have htwofold : left.twofold = c.twofold \ (c.keysWith wanted).toFinset := by
    rw [hleft, c.twofold_dropKeys]
  have hgone : c.series \ left.series = (c.keysWith wanted).toFinset := by
    rw [hseries, Finset.sdiff_sdiff_eq_self hkeys]
  have hremoved : (c.keysWith wanted).length = (c.series \ left.series).card := by
    rw [hgone, List.toFinset_card_of_nodup (c.keysWith_nodup wanted)]
  have hsubset : left.series ⊆ c.series := hseries ▸ Finset.sdiff_subset
  have hsizes : c.counters.size + c.gauges.size =
      left.counters.size + left.gauges.size + (c.keysWith wanted).length +
        (c.twofold \ left.twofold).card := by
    have htwice : left.twofold ⊆ c.twofold := htwofold ▸ Finset.sdiff_subset
    have hcard := Finset.card_sdiff_add_card_eq_card hsubset
    have hcard' := Finset.card_sdiff_add_card_eq_card htwice
    rw [c.size_add_size, left.size_add_size, hremoved]
    omega
  refine ⟨(c.keysWith wanted).length, c.result_removeSeries wanted, hsubset, ?_, hremoved, hsizes,
    ?_⟩
  · intro key
    rw [hgone, List.mem_toFinset, Collector.mem_keysWith_iff,
      (Collector.Follows.after calls).labels]
    simp only [includes_iff]
  · rw [← Finset.sdiff_eq_empty_iff_subset, ← Finset.card_eq_zero]
    omega

/-- A counter and a gauge that are recorded under one name and the same labels are one series: both
are taken out, and the answer is one. -/
theorem removed_count_twofold :
    ¬ ∀ (calls : List (Call Nat)) (wanted : Labels),
      let c := (Collector.empty : Collector Nat).after calls
      let left := (Collector.removeSeries wanted c).state
      ∃ removed, (Collector.removeSeries wanted c).result = .ok removed ∧
        c.counters.size + c.gauges.size = left.counters.size + left.gauges.size + removed := by
  intro h
  obtain ⟨removed, hresult, hsizes⟩ :=
    h [.increment "orders" 1 ∅, .setGauge "orders" (.whole 1) ∅] ∅
  obtain rfl : 1 = removed := Except.ok.inj hresult
  exact absurd hsizes (by decide)

end EventOperator.Metrics
