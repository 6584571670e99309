import EventOperator.Proofs.Plan.Selection
import EventOperator.Proofs.Query.Place

/-!
The order in which a query names its sources. The streams that it reads come in the order in which
the text names them, but for keys of partitions, which come in front of the streams of all `from`
clauses wherever the partition stands.
-/

namespace EventOperator

open EventOperator.Text

namespace Query

variable {s name : List Char} {words : List (List Letter)} {n : Nat}

/-- The places at which one of the words with the given letters begins. -/
def placesOf (name : List Char) (words : List (List Letter)) : List Nat :=
  words.filterMap fun w => if chars w = name then w.head?.map Letter.place else none

theorem mem_placesOf :
    n ∈ placesOf name words ↔ ∃ a w, a :: w ∈ words ∧ chars (a :: w) = name ∧ a.place = n := by
  rw [placesOf, List.mem_filterMap]
  constructor
  · rintro ⟨w, hw, heq⟩
    split at heq
    · rename_i hname
      cases w with
      | nil => cases heq
      | cons a w => exact ⟨a, w, hw, hname, Option.some.inj heq⟩
    · cases heq
  · rintro ⟨a, w, hw, hname, rfl⟩
    exact ⟨a :: w, hw, if_pos hname⟩

theorem mem_of_mem_placesOf (h : n ∈ placesOf name words) : name ∈ words.map chars := by
  obtain ⟨a, w, hw, rfl, -⟩ := mem_placesOf.mp h
  exact List.mem_map_of_mem hw

theorem exists_mem_placesOf (h : name ∈ words.map chars) (hname : name ≠ []) :
    ∃ n, n ∈ placesOf name words := by
  obtain ⟨w, hw, rfl⟩ := List.mem_map.mp h
  cases w with
  | nil => exact absurd rfl hname
  | cons a w => exact ⟨a.place, mem_placesOf.mpr ⟨a, w, hw, rfl, rfl⟩⟩

theorem prefix_drop_of_mem_placesOf (hwords : AreParts words (placed s)) (hname : ' ' ∉ name)
    (h : n ∈ placesOf name words) : name <+: s.drop n := by
  obtain ⟨a, w, hw, rfl, rfl⟩ := mem_placesOf.mp h
  exact ((hwords.part _ hw).stands (standsIn_placed s)).chars_isPrefix hname

theorem exists_place_before {x y : List Char} {u v : List (List Char)}
    (hwords : AreParts words (placed s)) (hsplit : words.map chars = u ++ x :: v) (hx : x ≠ [])
    (hy : y ∉ u) (hne : x ≠ y) : ∃ n ∈ placesOf x words, ∀ m ∈ placesOf y words, n < m := by
  obtain ⟨front, back, rfl, rfl, hback⟩ := List.map_eq_append_iff.mp hsplit
  obtain ⟨w, rest, rfl, rfl, -⟩ := List.map_eq_cons_iff.mp hback
  cases w with
  | nil => exact absurd rfl hx
  | cons a w =>
      have hmem : a :: w ∈ front ++ (a :: w) :: rest :=
        List.mem_append_right front List.mem_cons_self
      refine ⟨a.place, mem_placesOf.mpr ⟨a, w, hmem, rfl, rfl⟩, ?_⟩
      intro m hm
      obtain ⟨b, w', hw', rfl, rfl⟩ := mem_placesOf.mp hm
      rcases List.mem_append.mp hw' with hin | hin
      · exact absurd (List.mem_map_of_mem hin) hy
      · rcases List.mem_cons.mp hin with heq | hin
        · exact absurd (congrArg chars heq).symm hne
        · have hlater := (List.pairwise_append.mp hwords.pairwise).2.1
          exact (List.pairwise_cons.mp hlater).1 _ hin a List.mem_cons_self b List.mem_cons_self

end Query

open Query

variable {body x y : String}

def uncommented (body : String) : List Letter := blanked comment? (placed body.toList)

/-- The places of the query, comments included, at which a key of a partition names the stream. -/
def keyPlaces (body stream : String) : List Nat :=
  placesOf stream.toList (keyParts (uncommented body))

/-- The places at which a `from` clause names it. -/
def clausePlaces (body stream : String) : List Nat :=
  placesOf stream.toList (clauseParts (uncommented body))

def sourcePlaces (body stream : String) : List Nat :=
  keyPlaces body stream ++ clausePlaces body stream

/-- The first place of `x` comes before all places of `y`. -/
def IsNamedBefore (body x y : String) : Prop :=
  ∃ n ∈ sourcePlaces body x, ∀ m ∈ sourcePlaces body y, n < m

/-- Although `x` is the key of a partition, a `from` clause names `y` before `x` is named at all. -/
def IsLateKey (body x y : String) : Prop :=
  keyPlaces body x ≠ [] ∧ ∃ m ∈ clausePlaces body y, ∀ n ∈ sourcePlaces body x, m ≤ n

instance (body x y : String) : Decidable (IsNamedBefore body x y) :=
  inferInstanceAs (Decidable (∃ n ∈ sourcePlaces body x, ∀ m ∈ sourcePlaces body y, n < m))

theorem chars_uncommented (body : String) :
    chars (uncommented body) = stripComments body.toList := by
  rw [uncommented, chars_blanked, chars_placed, stripComments]

theorem areParts_keys (body : String) :
    AreParts (keyParts (uncommented body)) (placed body.toList) :=
  (areParts_keyParts _).trans (isPart_blanked _ _)

theorem areParts_clauses (body : String) :
    AreParts (clauseParts (uncommented body)) (placed body.toList) :=
  (areParts_clauseParts _).trans (isPart_blanked _ _)

theorem referencedNames_eq_map (body : String) :
    referencedNames (stripComments body.toList) =
      (keyParts (uncommented body)).map chars ++ (clauseParts (uncommented body)).map chars := by
  rw [map_chars_keyParts, map_chars_clauseParts, chars_uncommented, referencedNames_eq]

theorem exists_mem_sourcePlaces_iff :
    (∃ n, n ∈ sourcePlaces body x) ↔ x.toList ∈ referencedNames (stripComments body.toList) := by
  constructor
  · rintro ⟨n, hn⟩
    rw [referencedNames_eq_map, List.mem_append]
    exact (List.mem_append.mp hn).imp mem_of_mem_placesOf mem_of_mem_placesOf
  · intro hnamed
    have hrun := isRun_of_mem_referencedNames hnamed
    rw [referencedNames_eq_map] at hnamed
    rcases List.mem_append.mp hnamed with hkey | hclause
    · obtain ⟨n, hn⟩ := exists_mem_placesOf hkey hrun.1
      exact ⟨n, List.mem_append_left _ hn⟩
    · obtain ⟨n, hn⟩ := exists_mem_placesOf hclause hrun.1
      exact ⟨n, List.mem_append_right _ hn⟩

theorem mem_inputStreams_iff :
    x ∈ inputStreams body ↔
      sourcePlaces body x ≠ [] ∧ x.toList ∉ localNames (stripComments body.toList) := by
  rw [mem_inputStreams, mem_inputNames, ← exists_mem_sourcePlaces_iff, Ne,
    List.eq_nil_iff_forall_not_mem, not_forall_not]

theorem isRun_of_mem_inputStreams (h : x ∈ inputStreams body) : IsRun x.toList :=
  isRun_of_mem_referencedNames (mem_inputNames.mp (mem_inputStreams.mp h)).1

theorem prefix_drop_of_mem_sourcePlaces {n : Nat} (h : n ∈ sourcePlaces body x) :
    x.toList <+: body.toList.drop n := by
  have hrun := isRun_of_mem_referencedNames (exists_mem_sourcePlaces_iff.mp ⟨n, h⟩)
  have hblank : ' ' ∉ x.toList := fun hin => absurd (hrun.2 ' ' hin) (by decide)
  rcases List.mem_append.mp h with h | h
  · exact prefix_drop_of_mem_placesOf (areParts_keys body) hblank h
  · exact prefix_drop_of_mem_placesOf (areParts_clauses body) hblank h

theorem first_of_sublist (h : [x, y].Sublist (inputStreams body)) :
    (∃ n ∈ keyPlaces body x, ∀ m ∈ keyPlaces body y, n < m) ∨
      keyPlaces body y = [] ∧ ∃ n ∈ clausePlaces body x, ∀ m ∈ clausePlaces body y, n < m := by
  have hrun := isRun_of_mem_inputStreams (h.subset List.mem_cons_self)
  have hnames := h.map String.toList
  rw [inputStreams, List.map_map, show String.toList ∘ String.ofList = id from
    funext fun _ => String.toList_ofList, List.map_id, inputNames, distinct_filter] at hnames
  obtain ⟨hne, u, v, hsplit, hy⟩ :=
    exists_of_sublist_distinct (hnames.trans List.filter_sublist)
  rw [referencedNames_eq_map] at hsplit
  have hclauses : ∀ w, u = (keyParts (uncommented body)).map chars ++ w →
      (clauseParts (uncommented body)).map chars = w ++ x.toList :: v →
      keyPlaces body y = [] ∧ ∃ n ∈ clausePlaces body x, ∀ m ∈ clausePlaces body y, n < m := by
    intro w hu hclause
    rw [hu, List.mem_append, not_or] at hy
    exact ⟨List.eq_nil_iff_forall_not_mem.mpr fun n hn => hy.1 (mem_of_mem_placesOf hn),
      exists_place_before (areParts_clauses body) hclause hrun.1 hy.2 hne⟩
  rcases List.append_eq_append_iff.mp hsplit with ⟨w, hu, hclause⟩ | ⟨w, hkey, hrest⟩
  · exact Or.inr (hclauses w hu hclause)
  · cases w with
    | nil => exact Or.inr (hclauses [] (by simpa using hkey.symm) hrest.symm)
    | cons name w =>
        obtain ⟨rfl, -⟩ := List.cons.inj hrest
        exact Or.inl (exists_place_before (areParts_keys body) hkey hrun.1 hy hne)

theorem isNamedBefore_iff (h : [x, y].Sublist (inputStreams body)) :
    IsNamedBefore body x y ↔ ¬ IsLateKey body x y := by
  constructor
  · rintro ⟨n, hn, hbefore⟩ ⟨-, m, hm, hle⟩
    exact absurd (hbefore m (List.mem_append_right _ hm)) (Nat.not_lt.mpr (hle n hn))
  · intro hlate
    rcases first_of_sublist h with ⟨k, hk, hkeys⟩ | ⟨hnone, n, hn, hclauses⟩
    · have hne : sourcePlaces body x ≠ [] := List.ne_nil_of_mem (List.mem_append_left _ hk)
      refine ⟨(sourcePlaces body x).min hne, List.min_mem hne, ?_⟩
      intro m hm
      rcases List.mem_append.mp hm with hm | hm
      · exact Nat.lt_of_le_of_lt (List.min_le_of_mem (List.mem_append_left _ hk)) (hkeys m hm)
      · by_contra hle
        refine hlate ⟨List.ne_nil_of_mem hk, m, hm, fun n hn => ?_⟩
        exact (Nat.not_lt.mp hle).trans (List.min_le_of_mem hn)
    · refine ⟨n, List.mem_append_right _ hn, ?_⟩
      intro m hm
      rw [sourcePlaces, hnone] at hm
      exact hclauses m hm

/-- A name stands in the query at its places, and the streams that are read are those that have one
and that the query neither defines nor produces. A stream that comes before another in the answer is
named before it, except just where it is a key of a partition and a `from` clause has named the
other one before; and so it is with the stream that enrichment reports and any other stream that is
missing. -/
theorem inputStreams_order (body : String) :
    (∀ stream, ∀ n ∈ sourcePlaces body stream, stream.toList <+: body.toList.drop n) ∧
    (∀ stream, stream ∈ inputStreams body ↔ sourcePlaces body stream ≠ [] ∧
      stream.toList ∉ localNames (stripComments body.toList)) ∧
    (∀ x y, [x, y].Sublist (inputStreams body) →
      (IsNamedBefore body x y ↔ ¬ IsLateKey body x y)) ∧
    ∀ streams plan? x, enrich (some streams) (some body) plan? = .error (.undefinedStream x none) →
      ∀ y ∈ inputStreams body, y ∉ streams.keys → y ≠ x →
        (IsNamedBefore body x y ↔ ¬ IsLateKey body x y) := by
  refine ⟨fun _ _ => prefix_drop_of_mem_sourcePlaces, fun _ => mem_inputStreams_iff,
    fun _ _ => isNamedBefore_iff, ?_⟩
  intro streams plan? x herror y hy hmissing hne
  rw [enrich_eq_enrichBody, enrichBody_eq_error_iff] at herror
  obtain ⟨front, rest, hsplit, hfront, -⟩ := herror
  apply isNamedBefore_iff
  rw [hsplit] at hy ⊢
  have hrest : y ∈ rest := by
    rcases List.mem_append.mp hy with hin | hin
    · exact absurd (hfront y hin) hmissing
    · exact (List.mem_cons.mp hin).resolve_left hne
  exact ((List.singleton_sublist.mpr hrest).cons_cons x).trans (List.sublist_append_right front _)

def latePartition : String :=
  "from B select b insert into Out; " ++
    "partition with (k of A) begin from A select a insert into Out2; end;"

/-- The query names `B` first, but `A` comes first in the answer and is reported as missing. -/
theorem inputStreams_late_partition :
    ¬ ((∀ x y, [x, y].Sublist (inputStreams latePartition) → IsNamedBefore latePartition x y) ∧
        ∀ streams x, enrich (some streams) (some latePartition) none =
            .error (.undefinedStream x none) →
          ∀ y ∈ inputStreams latePartition, y ∉ streams.keys → y ≠ x →
            IsNamedBefore latePartition x y) ∧
      inputStreams latePartition = ["A", "B"] ∧ IsNamedBefore latePartition "B" "A" ∧
      enrich (some ∅) (some latePartition) none = .error (.undefinedStream "A" none) := by
  have hread : inputStreams latePartition = ["A", "B"] := by decide +kernel
  have hbefore : IsNamedBefore latePartition "B" "A" := by decide +kernel
  have hnot : ¬ IsNamedBefore latePartition "A" "B" := by decide +kernel
  refine ⟨fun h => hnot (h.1 "A" "B" ?_), hread, hbefore, ?_⟩
  · rw [hread]
  · rw [enrich_eq_enrichBody, enrichBody_eq_error_iff]
    exact ⟨[], ["B"], hread, nofun, List.not_mem_nil⟩

end EventOperator
