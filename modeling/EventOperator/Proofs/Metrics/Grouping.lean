import EventOperator.Metrics.Exposition
import EventOperator.Proofs.Metrics.Sample

/-!
Samples as they are exposed. Each name of a kind has one line with its type, the names come in the
order of their oldest samples of that kind, and behind the line of a name stand its samples of that
kind in the order in which they began. This need not be the order in which their series did: a
series with a gauge can get its counter later than another one.
-/

namespace EventOperator.Metrics

variable {α γ : Type} {kind? : Change α → Option (Recording γ)} {change : Change α}
  {past : List (Change α)} {k name other : String} {s : Sample γ}

def typeLine (name kind : String) : String := "# TYPE " ++ name ++ " " ++ kind

def sampleLine (key amount : String) : String := key ++ " " ++ amount

def listedName (names : Table String String) (key : String) : String := (names.get? key).getD key

theorem families_concat (names : Table String String) (samples : List (String × String))
    (key amount : String) :
    families names (samples ++ [(key, amount)]) =
      (families names samples).insert (listedName names key)
        (((families names samples).get? (listedName names key)).getD [] ++
          [sampleLine key amount]) := by
  rw [families, List.foldl_concat]
  rfl

theorem keys_families (names : Table String String) (samples : List (String × String)) :
    (families names samples).keys =
      (samples.map fun row => listedName names row.1).eraseDups := by
  induction samples using List.reverseRecOn with
  | nil => rfl
  | append_singleton samples row ih =>
      obtain ⟨key, amount⟩ := row
      rw [families_concat, Table.keys_insert, ih, List.map_append, List.map_singleton,
        Table.eraseDups_concat]
      simp only [List.mem_eraseDups]

theorem getD_families (names : Table String String) (samples : List (String × String))
    (name : String) :
    ((families names samples).get? name).getD [] =
      (samples.filter fun row => listedName names row.1 = name).map fun row =>
        sampleLine row.1 row.2 := by
  induction samples using List.reverseRecOn with
  | nil => rfl
  | append_singleton samples row ih =>
      obtain ⟨key, amount⟩ := row
      rw [families_concat, Table.get?_insert, List.filter_append, List.map_append]
      by_cases hname : listedName names key = name
      · rw [if_pos hname, Option.getD_some, hname, ih]
        simp [hname]
      · rw [if_neg hname, ih]
        simp [hname]

theorem familyLines_eq (kind : String) (names : Table String String)
    (samples : List (String × String)) :
    familyLines kind names samples =
      (samples.map fun row => listedName names row.1).eraseDups.flatMap fun name =>
        typeLine name kind ::
          (samples.filter fun row => listedName names row.1 = name).map fun row =>
            sampleLine row.1 row.2 := by
  rw [familyLines, (families names samples).rows_eq_map [], keys_families, List.flatMap_map]
  simp only [getD_families]
  rfl

/-- The samples of one kind by names. -/
def grouped (kind : String) (text : γ → String) (rows : List (String × Sample γ)) : List String :=
  (rows.map fun row => row.2.name).eraseDups.flatMap fun name =>
    typeLine name kind ::
      (rows.filter fun row => row.2.name = name).map fun row => sampleLine row.1 (text row.2.amount)

theorem familyLines_eq_grouped (kind : String) (text : γ → String) {names : Table String String}
    {rows : List (String × Sample γ)}
    (hnames : ∀ row ∈ rows, listedName names row.1 = row.2.name) :
    familyLines kind names (rows.map fun row => (row.1, text row.2.amount)) =
      grouped kind text rows := by
  have hlisted : (rows.map fun row => (row.1, text row.2.amount)).map (fun row =>
      listedName names row.1) = rows.map fun row => row.2.name := by
    rw [List.map_map]
    exact List.map_congr_left hnames
  have hfamily : ∀ name, (rows.map fun row => (row.1, text row.2.amount)).filter (fun row =>
      listedName names row.1 = name) =
        (rows.filter fun row => row.2.name = name).map fun row => (row.1, text row.2.amount) := by
    intro name
    rw [List.filter_map]
    congr 1
    apply List.filter_congr
    intro row hrow
    simp only [Function.comp_apply, hnames row hrow]
  rw [familyLines_eq, hlisted, grouped]
  simp only [hfamily, List.map_map, Function.comp_def]

/-! Names without a brace, which can be told from keys. -/

structure IsNamed (k name : String) : Prop where
  plain : '{' ∉ name.toList
  key : ∃ labels, k = Metrics.key name labels

theorem IsNamed.unique (h : IsNamed k name) (hother : IsNamed k other) : name = other := by
  obtain ⟨labels, rfl⟩ := h.key
  obtain ⟨labels', hkey⟩ := hother.key
  rw [← String.toList_inj, ← takeWhile_key h.plain labels, hkey, takeWhile_key hother.plain]

def Change.HasPlainName : Change α → Prop
  | count name _ _ | setLevel name _ _ => '{' ∉ name.toList
  | remove _ => True

def Call.HasPlainName : Call α → Prop
  | increment name _ _ | setGauge name _ _ => '{' ∉ name.toList
  | _ => True

theorem Call.HasPlainName.changes [OfNat α 1] {call : Call α} (h : call.HasPlainName) :
    ∀ change ∈ call.changes, change.HasPlainName := by
  have hadded : '{' ∉ Collector.plansAdded.toList := by decide
  have hremoved : '{' ∉ Collector.plansRemoved.toList := by decide
  have hregistered : '{' ∉ Collector.plansRegistered.toList := by decide
  have hcreated : '{' ∉ Collector.managersCreated.toList := by decide
  have hassembled : '{' ∉ Collector.plansAssembled.toList := by decide
  cases call with
  | increment name amount labels => exact List.forall_mem_singleton.mpr h
  | setGauge name level labels => exact List.forall_mem_singleton.mpr h
  | removeSeries wanted => exact List.forall_mem_singleton.mpr trivial
  | planAdded context registered =>
      exact List.forall_mem_cons.mpr ⟨hadded, List.forall_mem_singleton.mpr hregistered⟩
  | planRemoved context registered =>
      exact List.forall_mem_cons.mpr ⟨hremoved, List.forall_mem_singleton.mpr hregistered⟩
  | managerCreated context => exact List.forall_mem_singleton.mpr hcreated
  | assembled context mode => exact List.forall_mem_singleton.mpr hassembled
  | discardContext context => exact List.forall_mem_singleton.mpr trivial

theorem Call.hasPlainName_pastOf [OfNat α 1] {calls : List (Call α)}
    (h : ∀ call ∈ calls, call.HasPlainName) : ∀ change ∈ pastOf calls, change.HasPlainName := by
  intro change hchange
  obtain ⟨call, hcall, hmem⟩ := List.mem_flatMap.mp (List.mem_reverse.mp hchange)
  exact (h call hcall).changes change hmem

theorem isNamed_of_sampleOf
    (hkind : ∀ {change : Change α} {r}, kind? change = some r → change.HasPlainName →
      '{' ∉ r.name.toList)
    (hpast : ∀ change ∈ past, change.HasPlainName) (hs : sampleOf kind? past k = some s) :
    IsNamed k s.name := by
  induction past generalizing s with
  | nil => cases hs
  | cons change past ih =>
      obtain ⟨hchange, hrest⟩ := List.forall_mem_cons.mp hpast
      cases hremoves : change.removes past k with
      | true =>
          rw [sampleOf_removed hremoves] at hs
          cases hs
      | false =>
          cases hr : kind? change with
          | none =>
              rw [sampleOf_other hremoves hr] at hs
              exact ih hrest hs
          | some r =>
              rw [sampleOf_recorded hremoves hr] at hs
              split at hs
              · rename_i hk
                obtain rfl := Option.some.inj hs
                exact ⟨hkind hr hchange, r.labels, hk.symm⟩
              · exact ih hrest hs

theorem plain_of_counted? [OfNat α 0] [Add α] {r : Recording α} (h : change.counted? = some r)
    (hplain : change.HasPlainName) : '{' ∉ r.name.toList := by
  cases change with
  | count name labels amount =>
      obtain rfl := Option.some.inj h
      exact hplain
  | setLevel name labels level => cases h
  | remove wanted => cases h

theorem plain_of_level? {r : Recording Amount} (h : change.level? = some r)
    (hplain : change.HasPlainName) : '{' ∉ r.name.toList := by
  cases change with
  | count name labels amount => cases h
  | setLevel name labels level =>
      obtain rfl := Option.some.inj h
      exact hplain
  | remove wanted => cases h

namespace Collector

variable {c : Collector α}

/-- The names that are kept are those of the series. -/
def KeepsNames (c : Collector α) : Prop := ∀ k name, c.names.get? k = some name → IsNamed k name

namespace KeepsNames

theorem empty : (Collector.empty : Collector α).KeepsNames := nofun

theorem track (h : c.KeepsNames) (hname : '{' ∉ name.toList) (labels : Labels) :
    (c.track name labels).KeepsNames := by
  intro k kept hget
  rw [Collector.track, Table.get?_insert] at hget
  split at hget
  · rename_i hkey
    obtain rfl := Option.some.inj hget
    exact ⟨hname, labels, hkey.symm⟩
  · exact h k kept hget

theorem undergo [OfNat α 0] [Add α] (h : c.KeepsNames) (hchange : change.HasPlainName) :
    (c.undergo change).KeepsNames := by
  cases change with
  | count name labels amount => exact h.track hchange labels
  | setLevel name labels level => exact h.track hchange labels
  | remove wanted =>
      intro k kept hget
      rw [Collector.undergo, dropKeys, Table.get?_filter] at hget
      split at hget
      · exact h k kept hget
      · cases hget

theorem foldl [OfNat α 0] [Add α] {changes : List (Change α)} (h : c.KeepsNames)
    (hchanges : ∀ change ∈ changes, change.HasPlainName) :
    (changes.foldl Collector.undergo c).KeepsNames := by
  induction changes generalizing c with
  | nil => exact h
  | cons change changes ih =>
      obtain ⟨hchange, hrest⟩ := List.forall_mem_cons.mp hchanges
      exact ih (h.undergo hchange) hrest

theorem after [OfNat α 0] [OfNat α 1] [Add α] {calls : List (Call α)}
    (hcalls : ∀ call ∈ calls, call.HasPlainName) :
    ((Collector.empty : Collector α).after calls).KeepsNames := by
  rw [after_eq]
  apply empty.foldl
  intro change hchange
  exact Call.hasPlainName_pastOf hcalls change (List.mem_reverse.mpr hchange)

theorem listedName_eq (h : c.KeepsNames) (hin : k ∈ c.names.keys) (hname : IsNamed k name) :
    listedName c.names k = name := by
  rw [← Table.contains_iff, Table.contains] at hin
  obtain ⟨kept, hget⟩ := Option.isSome_iff_exists.mp hin
  rw [listedName, hget]
  exact (h k kept hget).unique hname

theorem listedName_of_live (h : c.KeepsNames) {t : Table String γ}
    {rows : List (String × Sample γ)} (hrows : AreLive rows kind? past)
    (ht : t.rows = rows.map fun row => (row.1, row.2.amount))
    (hin : ∀ k ∈ t.keys, k ∈ c.names.keys)
    (hnamed : ∀ {k s}, sampleOf kind? past k = some s → IsNamed k s.name) :
    ∀ row ∈ rows, listedName c.names row.1 = row.2.name := by
  intro row hrow
  have hkey : row.1 ∈ t.keys := by
    rw [Table.keys, ht, List.map_map]
    exact List.mem_map.mpr ⟨row, hrow, rfl⟩
  exact h.listedName_eq (hin row.1 hkey) (hnamed ((hrows.mem_iff row.1 row.2).mp hrow))

end KeepsNames

end Collector

/-- After any requests about metrics whose names hold no opening brace, the counters are exposed
first and then the gauges. Each of these samples is exposed with what it amounts to, and no others
are; those of one name and kind stand together, and everything is in the order in which the samples
of that kind began. -/
theorem lines_grouped {α : Type} [OfNat α 0] [OfNat α 1] [Add α] {calls : List (Call α)}
    (hcalls : ∀ call ∈ calls, call.HasPlainName) (text : α → String) :
    ∃ counters gauges,
      AreLive counters Change.counted? (Call.pastOf calls) ∧
        AreLive gauges Change.level? (Call.pastOf calls) ∧
        ((Collector.empty : Collector α).after calls).lines text =
          grouped "counter" text counters ++ grouped "gauge" (·.toValue.literal) gauges := by
  have hfollows := Collector.Follows.after calls
  have hstep := Collector.InStep.empty.after calls
  have hkeeps := Collector.KeepsNames.after hcalls
  have hplain := Call.hasPlainName_pastOf hcalls
  obtain ⟨counters, hcounters, hcounterRows⟩ := hfollows.counters.exists_live
  obtain ⟨gauges, hgauges, hgaugeRows⟩ := hfollows.gauges.exists_live
  refine ⟨counters, gauges, hcounters, hgauges, ?_⟩
  have hcounterNames := hkeeps.listedName_of_live hcounters hcounterRows
    (fun k hk => (hstep.mem_names_iff k).mpr (Or.inl hk))
    (isNamed_of_sampleOf plain_of_counted? hplain)
  have hgaugeNames := hkeeps.listedName_of_live hgauges hgaugeRows
    (fun k hk => (hstep.mem_names_iff k).mpr (Or.inr hk))
    (isNamed_of_sampleOf plain_of_level? hplain)
  rw [Collector.lines, hcounterRows, hgaugeRows, List.map_map, List.map_map,
    ← familyLines_eq_grouped "counter" text hcounterNames,
    ← familyLines_eq_grouped "gauge" (·.toValue.literal) hgaugeNames]
  rfl

def bids : Labels := Table.ofList [("side", "bid")]

/-- One of the counters is removed and comes again behind the others. -/
def ordersAndTrades : List (Call Nat) :=
  [ .increment "orders" 3 bids, .setGauge "depth" (.whole 7) ∅, .increment "trades" 1 ∅,
    .increment "orders" 2 (Table.ofList [("side", "ask")]), .removeSeries bids,
    .setGauge "orders" (.whole 9) ∅, .increment "orders" 4 bids, .increment "trades" 5 ∅ ]

theorem lines_grouped_market :
    (∀ call ∈ ordersAndTrades, call.HasPlainName) ∧
      ∃ counters gauges, AreLive counters Change.counted? (Call.pastOf ordersAndTrades) ∧
        AreLive gauges Change.level? (Call.pastOf ordersAndTrades) ∧
        grouped "counter" toString counters ++ grouped "gauge" (·.toValue.literal) gauges =
          [ "# TYPE trades counter", "trades 6", "# TYPE orders counter",
            "orders\x7bside=\"ask\"\x7d 2", "orders\x7bside=\"bid\"\x7d 4",
            "# TYPE depth gauge", "depth 7", "# TYPE orders gauge", "orders 9" ] := by
  have hcalls : ∀ call ∈ ordersAndTrades, call.HasPlainName := by
    intro call hcall
    simp only [ordersAndTrades, List.mem_cons, List.not_mem_nil, or_false] at hcall
    rcases hcall with rfl | rfl | rfl | rfl | rfl | rfl | rfl | rfl <;>
      simp only [Call.HasPlainName] <;> decide
  obtain ⟨counters, gauges, hcounters, hgauges, hlines⟩ := lines_grouped hcalls toString
  exact ⟨hcalls, counters, gauges, hcounters, hgauges, hlines.symm.trans (by decide +kernel)⟩

def Change.records (k : String) : Change α → Bool
  | count name labels _ | setLevel name labels _ => key name labels = k
  | remove _ => false

/-- The number of changes before the one that recorded a series first after it was last removed,
whether this began its counter or its gauge. -/
def seriesBorn (k : String) : List (Change α) → Option Nat
  | [] => none
  | change :: past =>
      if change.removes past k then none
      else if change.records k then some ((seriesBorn k past).getD past.length)
      else seriesBorn k past

/-- All samples there are, those of one name in the order in which their series began. -/
structure AreLiveBySeries (rows : List (String × Sample γ))
    (kind? : Change α → Option (Recording γ)) (past : List (Change α)) : Prop where
  mem_iff : ∀ k s, (k, s) ∈ rows ↔ sampleOf kind? past k = some s
  ordered : rows.Pairwise fun first later => first.2.name = later.2.name →
    (seriesBorn first.1 past).getD 0 < (seriesBorn later.1 past).getD 0

def hostA : Labels := Table.ofList [("host", "a")]

def hostB : Labels := Table.ofList [("host", "b")]

/-- Host `a` has a gauge first, and its counter comes behind that of host `b`. -/
def loads : List (Call Nat) :=
  [.setGauge "load" (.whole 1) hostA, .increment "load" 1 hostB, .increment "load" 1 hostA]

def loadOfA : String × Sample Nat := ("load\x7bhost=\"a\"\x7d", ⟨"load", 2, 1⟩)

def loadOfB : String × Sample Nat := ("load\x7bhost=\"b\"\x7d", ⟨"load", 1, 1⟩)

theorem sampleOf_loads (k : String) :
    sampleOf Change.counted? (Call.pastOf loads) k =
      if loadOfA.1 = k then some loadOfA.2 else if loadOfB.1 = k then some loadOfB.2 else none := by
  have ha : key "load" hostA = loadOfA.1 := by decide +kernel
  have hb : key "load" hostB = loadOfB.1 := by decide +kernel
  have hfirst : sampleOf Change.counted? [Change.setLevel "load" hostA (.whole 1)] k = none := rfl
  have hsecond : sampleOf Change.counted?
      [.count "load" hostB 1, Change.setLevel "load" hostA (.whole 1)] k =
        if loadOfB.1 = k then some loadOfB.2 else none := by
    rw [sampleOf_recorded rfl rfl, hfirst, ← hb]
    rfl
  have hthird : sampleOf Change.counted? (Call.pastOf loads) k =
      if key "load" hostA = k then
        some (Recording.sample ⟨"load", hostA, fun old => old.getD 0 + 1⟩ 2
          (if loadOfB.1 = k then some loadOfB.2 else none))
      else if loadOfB.1 = k then some loadOfB.2 else none := by
    rw [← hsecond]
    rfl
  rw [hthird, ha]
  by_cases hk : loadOfA.1 = k
  · have hother : ¬ loadOfB.1 = k := hk ▸ by decide
    rw [if_pos hk, if_pos hk, if_neg hother]
    rfl
  · rw [if_neg hk, if_neg hk]

theorem mem_iff_of_loads {rows : List (String × Sample Nat)}
    (h : AreLiveBySeries rows Change.counted? (Call.pastOf loads)) (row : String × Sample Nat) :
    row ∈ rows ↔ row ∈ [loadOfA, loadOfB] := by
  obtain ⟨k, s⟩ := row
  rw [h.mem_iff, sampleOf_loads, List.mem_pair]
  constructor
  · intro hs
    by_cases ha : loadOfA.1 = k
    · rw [if_pos ha] at hs
      exact Or.inl (Prod.ext ha.symm (Option.some.inj hs).symm)
    · rw [if_neg ha] at hs
      by_cases hb : loadOfB.1 = k
      · rw [if_pos hb] at hs
        exact Or.inr (Prod.ext hb.symm (Option.some.inj hs).symm)
      · rw [if_neg hb] at hs
        cases hs
  · rintro (hrow | hrow)
    · obtain ⟨rfl, rfl⟩ := Prod.mk.inj hrow
      rfl
    · obtain ⟨rfl, rfl⟩ := Prod.mk.inj hrow
      rfl

theorem counters_of_loads {rows : List (String × Sample Nat)}
    (h : AreLiveBySeries rows Change.counted? (Call.pastOf loads)) : rows = [loadOfA, loadOfB] := by
  have hbornA : seriesBorn loadOfA.1 (Call.pastOf loads) = some 0 := by decide +kernel
  have hbornB : seriesBorn loadOfB.1 (Call.pastOf loads) = some 1 := by decide +kernel
  have hne : loadOfA ≠ loadOfB := fun heq => absurd (congrArg Prod.fst heq) (by decide)
  have hnodup : rows.Nodup := h.ordered.imp fun hlt heq => by
    subst heq
    exact Nat.lt_irrefl _ (hlt rfl)
  have hpair : [loadOfA, loadOfB].Nodup := List.pairwise_pair.mpr hne
  have hperm : rows.Perm [loadOfA, loadOfB] :=
    (List.perm_ext_iff_of_nodup hnodup hpair).mpr (mem_iff_of_loads h)
  refine hperm.eq_of_pairwise ?_ h.ordered (List.pairwise_pair.mpr fun _ => ?_)
  · intro first later hfirst hlater hlt hlt'
    rw [mem_iff_of_loads h, List.mem_pair] at hfirst
    rcases hfirst with rfl | rfl <;> rcases List.mem_pair.mp hlater with rfl | rfl
    · rfl
    · exact absurd (hlt' rfl) (by rw [hbornA, hbornB]; decide)
    · exact absurd (hlt rfl) (by rw [hbornA, hbornB]; decide)
    · rfl
  · rw [hbornA, hbornB]
    decide

/-- Samples of one name do not always stand in the order in which their series began. -/
theorem not_grouped_by_series :
    ¬ ∀ calls : List (Call Nat), (∀ call ∈ calls, call.HasPlainName) →
      ∃ counters gauges, AreLiveBySeries counters Change.counted? (Call.pastOf calls) ∧
        AreLiveBySeries gauges Change.level? (Call.pastOf calls) ∧
        ((Collector.empty : Collector Nat).after calls).lines toString =
          grouped "counter" toString counters ++ grouped "gauge" (·.toValue.literal) gauges := by
  intro h
  have hplain : '{' ∉ "load".toList := by decide
  have hcalls : ∀ call ∈ loads, call.HasPlainName :=
    List.forall_mem_cons.mpr ⟨hplain, List.forall_mem_cons.mpr
      ⟨hplain, List.forall_mem_singleton.mpr hplain⟩⟩
  obtain ⟨counters, gauges, hcounters, -, hlines⟩ := h loads hcalls
  rw [counters_of_loads hcounters] at hlines
  have hcounted : grouped "counter" toString [loadOfA, loadOfB] =
      ["# TYPE load counter", sampleLine loadOfA.1 "1", sampleLine loadOfB.1 "1"] := by
    decide +kernel
  have hsecond : (((Collector.empty : Collector Nat).after loads).lines toString)[1]? =
      some (sampleLine loadOfB.1 "1") := by decide +kernel
  rw [hlines, hcounted] at hsecond
  exact absurd (Option.some.inj hsecond) (by decide)

end EventOperator.Metrics
