import EventOperator.Table
import Mathlib.Data.List.Basic
import Mathlib.Data.List.Induction

/-!
Tables row by row: which rows are there after others have been inserted, and in which order. Two
tables are the same if they have the same rows in any order.
-/

namespace EventOperator.Table

variable {κ : Type u} {α : Type v} {t : Table κ α} {key : κ} {value : α} {row : κ × α}
  {rows : List (κ × α)}

theorem put_of_not_mem [DecidableEq κ] (h : key ∉ rows.map Prod.fst) (value : α) :
    put key value rows = rows ++ [(key, value)] := by
  induction rows with
  | nil => rfl
  | cons row rest ih =>
      rw [List.map_cons, List.mem_cons, not_or] at h
      rw [put, if_neg (Ne.symm h.1), ih h.2, List.cons_append]

theorem rows_insert_of_not_mem [DecidableEq κ] (h : key ∉ t.keys) (value : α) :
    (t.insert key value).rows = t.rows ++ [(key, value)] := put_of_not_mem h value

theorem insertAll_append [DecidableEq κ] (t : Table κ α) (rows later : List (κ × α)) :
    t.insertAll (rows ++ later) = (t.insertAll rows).insertAll later := List.foldl_append

theorem mem_put [DecidableEq κ] (h : row ∈ put key value rows) :
    row = (key, value) ∨ row ∈ rows := by
  induction rows with
  | nil => exact Or.inl (List.mem_singleton.mp h)
  | cons first rest ih =>
      rw [put] at h
      split at h
      · rename_i hkey
        rcases List.mem_cons.mp h with rfl | hrest
        · exact Or.inl (by rw [hkey])
        · exact Or.inr (List.mem_cons_of_mem _ hrest)
      · rcases List.mem_cons.mp h with rfl | hrest
        · exact Or.inr List.mem_cons_self
        · exact (ih hrest).imp_right (List.mem_cons_of_mem _)

theorem mem_rows_insertAll [DecidableEq κ] (h : row ∈ (t.insertAll rows).rows) :
    row ∈ t.rows ∨ row ∈ rows := by
  induction rows generalizing t with
  | nil => exact Or.inl h
  | cons first rest ih =>
      rcases ih h with hinserted | hrest
      · rcases mem_put hinserted with rfl | hold
        · exact Or.inr List.mem_cons_self
        · exact Or.inl hold
      · exact Or.inr (List.mem_cons_of_mem _ hrest)

theorem rows_insertAll [DecidableEq κ] (hnodup : (rows.map Prod.fst).Nodup)
    (hnew : ∀ key ∈ rows.map Prod.fst, key ∉ t.keys) :
    (t.insertAll rows).rows = t.rows ++ rows := by
  induction rows generalizing t with
  | nil => simp
  | cons row rest ih =>
      obtain ⟨hfresh, hrest⟩ := List.nodup_cons.mp hnodup
      have hinsert : (t.insert row.1 row.2).rows = t.rows ++ [row] :=
        put_of_not_mem (hnew row.1 List.mem_cons_self) row.2
      rw [insertAll_cons, ih hrest, hinsert, List.append_assoc, List.singleton_append]
      intro key hkey
      rw [keys, hinsert, List.map_append, List.mem_append]
      rintro (hold | hlast)
      · exact hnew key (List.mem_cons_of_mem _ hkey) hold
      · rw [List.map_singleton, List.mem_singleton] at hlast
        exact hfresh (hlast ▸ hkey)

theorem eq_of_rows_eq {other : Table κ α} (h : t.rows = other.rows) : t = other := by
  cases t
  cases other
  exact (mk.injEq _ _ _ _).mpr h

theorem insertAll_empty [DecidableEq κ] (t : Table κ α) :
    (∅ : Table κ α).insertAll t.rows = t := by
  apply eq_of_rows_eq
  rw [rows_insertAll t.nodup fun key _ => List.not_mem_nil]
  rfl

theorem keys_prefix_insert [DecidableEq κ] (t : Table κ α) (key : κ) (value : α) :
    t.keys <+: (t.insert key value).keys := by
  rw [keys_insert]
  split
  · exact List.prefix_rfl
  · exact List.prefix_append _ _

theorem mem_keys_insert [DecidableEq κ] {other : κ} :
    other ∈ (t.insert key value).keys ↔ other = key ∨ other ∈ t.keys := by
  rw [keys_insert]
  split
  · rename_i hkey
    exact ⟨Or.inr, fun h => h.elim (fun heq => heq ▸ hkey) id⟩
  · rw [List.mem_append, List.mem_singleton, or_comm]

theorem mem_keys_filter {keep : κ → Bool} : key ∈ (t.filter keep).keys ↔ key ∈ t.keys ∧ keep key := by
  rw [keys_filter, List.mem_filter]

/-- All rows are rows of the other table. -/
def Within [DecidableEq κ] (t other : Table κ α) : Prop :=
  ∀ key a, t.get? key = some a → other.get? key = some a

def Same [DecidableEq κ] (t other : Table κ α) : Prop := ∀ key, t.get? key = other.get? key

theorem nodup_rows (t : Table κ α) : t.rows.Nodup :=
  List.Pairwise.of_map Prod.fst (fun _ _ hne heq => hne (congrArg Prod.fst heq)) t.nodup

theorem same_iff_perm [DecidableEq κ] {other : Table κ α} :
    t.Same other ↔ t.rows.Perm other.rows := by
  rw [List.perm_ext_iff_of_nodup t.nodup_rows other.nodup_rows]
  constructor
  · rintro h ⟨key, a⟩
    rw [mem_rows_iff, mem_rows_iff, h key]
  · intro h key
    apply Option.ext
    intro a
    rw [← mem_rows_iff, ← mem_rows_iff, h (key, a)]

theorem eq_of_mem_rows {other : κ × α} (hrow : row ∈ t.rows) (hother : other ∈ t.rows)
    (h : row.1 = other.1) : row = other := by
  classical
  obtain ⟨key, a⟩ := row
  obtain ⟨key', b⟩ := other
  obtain rfl : key = key' := h
  rw [mem_rows_iff] at hrow hother
  rw [Option.some.inj (hrow.symm.trans hother)]

/-- Each key stands where it first came, with what came last under it. -/
structure Collects [DecidableEq κ] (t : Table κ α) (rows : List (κ × α)) : Prop where
  keys : t.keys = (rows.map Prod.fst).eraseDups
  last : ∀ key, t.get? key = rows.reverse.lookup key

theorem eraseDups_concat [DecidableEq κ] (keys : List κ) (key : κ) :
    (keys ++ [key]).eraseDups =
      if key ∈ keys then keys.eraseDups else keys.eraseDups ++ [key] := by
  rw [List.eraseDups_append]
  split
  · rename_i hmem
    simp [List.removeAll, hmem]
  · rename_i hmem
    simp [List.removeAll, hmem, List.eraseDups_cons]

theorem collects_ofList [DecidableEq κ] (rows : List (κ × α)) : (ofList rows).Collects rows := by
  induction rows using List.reverseRecOn with
  | nil => exact ⟨rfl, fun _ => rfl⟩
  | append_singleton rows row ih =>
      have hmore : ofList (rows ++ [row]) = (ofList rows).insert row.1 row.2 :=
        insertAll_append empty rows [row]
      rw [hmore]
      constructor
      · rw [keys_insert, ih.keys, List.map_append, List.map_singleton, eraseDups_concat]
        simp only [List.mem_eraseDups]
      · intro key
        rw [get?_insert, ih.last, List.reverse_append, List.reverse_singleton,
          List.singleton_append, List.lookup_cons]
        by_cases hkey : row.1 = key
        · simp [hkey]
        · have hother : (key == row.1) = false := beq_false_of_ne fun heq => hkey heq.symm
          rw [if_neg hkey, hother]

theorem rows_eq_filterMap [DecidableEq κ] (t : Table κ α) :
    t.rows = t.keys.filterMap fun key => (t.get? key).map (key, ·) := by
  have hrow : ∀ row ∈ t.rows, (t.get? row.1).map (row.1, ·) = some row := fun row hrow => by
    rw [(t.mem_rows_iff row.1 row.2).mp hrow, Option.map_some]
  rw [keys, List.filterMap_map]
  exact ((List.filterMap_congr hrow).trans List.filterMap_some).symm

theorem rows_eq_map [DecidableEq κ] (t : Table κ α) (other : α) :
    t.rows = t.keys.map fun key => (key, (t.get? key).getD other) := by
  have hrow : ∀ row ∈ t.rows, (row.1, (t.get? row.1).getD other) = row := fun row hrow => by
    rw [(t.mem_rows_iff row.1 row.2).mp hrow, Option.getD_some]
  rw [keys, List.map_map]
  exact ((List.map_congr_left hrow).trans (List.map_id t.rows)).symm

end EventOperator.Table
