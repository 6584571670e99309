/-!
Tables keep their rows in the order in which the keys first came. A key that comes again keeps its
place and takes the new value; an erased key that comes again goes to the end.
-/

namespace EventOperator

structure Table (κ : Type u) (α : Type v) where
  rows : List (κ × α)
  nodup : (rows.map Prod.fst).Nodup

namespace Table

variable {κ : Type u} {α : Type v}

def put [DecidableEq κ] (key : κ) (value : α) : List (κ × α) → List (κ × α)
  | [] => [(key, value)]
  | (k, a) :: rest =>
      if k = key then (k, value) :: rest else (k, a) :: put key value rest

theorem map_fst_put [DecidableEq κ] (key : κ) (value : α) (rows : List (κ × α)) :
    (put key value rows).map Prod.fst =
      if key ∈ rows.map Prod.fst then rows.map Prod.fst
      else rows.map Prod.fst ++ [key] := by
  induction rows with
  | nil => simp [put]
  | cons row rest ih =>
      obtain ⟨k, a⟩ := row
      by_cases h : k = key
      · subst h
        simp [put]
      · have h' : key ≠ k := fun e => h e.symm
        simp only [put, if_neg h, List.map_cons, ih, List.mem_cons, h', false_or]
        split <;> simp

theorem put_nodup [DecidableEq κ] {rows : List (κ × α)} (key : κ) (value : α)
    (h : (rows.map Prod.fst).Nodup) : ((put key value rows).map Prod.fst).Nodup := by
  rw [map_fst_put]
  split
  · exact h
  · rename_i hkey
    rw [List.nodup_append]
    refine ⟨h, by simp, ?_⟩
    intro left hleft right hright heq
    rw [List.mem_singleton] at hright
    exact hkey (hright ▸ heq ▸ hleft)

def find? [DecidableEq κ] (key : κ) : List (κ × α) → Option α
  | [] => none
  | (k, a) :: rest => if k = key then some a else find? key rest

theorem find?_put [DecidableEq κ] (key other : κ) (value : α) (rows : List (κ × α)) :
    find? other (put key value rows) =
      if key = other then some value else find? other rows := by
  induction rows with
  | nil => simp [put, find?]
  | cons row rest ih =>
      obtain ⟨k, a⟩ := row
      by_cases h : k = key
      · subst h
        by_cases ho : k = other <;> simp [put, find?, ho]
      · by_cases ho : k = other
        · subst ho
          have hne : key ≠ k := fun e => h e.symm
          simp [put, find?, h, hne]
        · simp [put, find?, h, ho, ih]

def empty : Table κ α := ⟨[], by simp⟩

instance : EmptyCollection (Table κ α) := ⟨empty⟩

instance : Inhabited (Table κ α) := ⟨empty⟩

def keys (t : Table κ α) : List κ := t.rows.map Prod.fst

def values (t : Table κ α) : List α := t.rows.map Prod.snd

def size (t : Table κ α) : Nat := t.rows.length

def isEmpty (t : Table κ α) : Bool := t.rows.isEmpty

def get? [DecidableEq κ] (t : Table κ α) (key : κ) : Option α := find? key t.rows

def contains [DecidableEq κ] (t : Table κ α) (key : κ) : Bool := (t.get? key).isSome

def insert [DecidableEq κ] (t : Table κ α) (key : κ) (value : α) : Table κ α :=
  ⟨put key value t.rows, put_nodup key value t.nodup⟩

def filter (t : Table κ α) (keep : κ → Bool) : Table κ α where
  rows := t.rows.filter fun row => keep row.1
  nodup := by
    have hsub : ((t.rows.filter fun row => keep row.1).map Prod.fst).Sublist
        (t.rows.map Prod.fst) := List.Sublist.map Prod.fst List.filter_sublist
    exact hsub.nodup t.nodup

def erase [DecidableEq κ] (t : Table κ α) (key : κ) : Table κ α := t.filter (· ≠ key)

def insertAll [DecidableEq κ] (t : Table κ α) (rows : List (κ × α)) : Table κ α :=
  rows.foldl (fun table row => table.insert row.1 row.2) t

def ofList [DecidableEq κ] (rows : List (κ × α)) : Table κ α := empty.insertAll rows

@[simp] theorem rows_empty : (empty : Table κ α).rows = [] := rfl

@[simp] theorem keys_empty : (empty : Table κ α).keys = [] := rfl

@[simp] theorem get?_empty [DecidableEq κ] (key : κ) :
    (empty : Table κ α).get? key = none := rfl

theorem keys_insert [DecidableEq κ] (t : Table κ α) (key : κ) (value : α) :
    (t.insert key value).keys = if key ∈ t.keys then t.keys else t.keys ++ [key] :=
  map_fst_put key value t.rows

@[simp] theorem get?_insert [DecidableEq κ] (t : Table κ α) (key other : κ) (value : α) :
    (t.insert key value).get? other = if key = other then some value else t.get? other :=
  find?_put key other value t.rows

@[simp] theorem insertAll_nil [DecidableEq κ] (t : Table κ α) : t.insertAll [] = t := rfl

@[simp] theorem insertAll_cons [DecidableEq κ] (t : Table κ α) (row : κ × α)
    (rows : List (κ × α)) :
    t.insertAll (row :: rows) = (t.insert row.1 row.2).insertAll rows := rfl

theorem get?_eq_none_iff [DecidableEq κ] (t : Table κ α) (key : κ) :
    t.get? key = none ↔ key ∉ t.keys := by
  unfold get? keys
  induction t.rows with
  | nil => simp [find?]
  | cons row rest ih =>
      obtain ⟨k, a⟩ := row
      by_cases h : k = key
      · simp [find?, h]
      · have h' : key ≠ k := fun e => h e.symm
        simp [find?, h, h', ih]

theorem contains_iff [DecidableEq κ] (t : Table κ α) (key : κ) :
    t.contains key = true ↔ key ∈ t.keys := by
  have h := t.get?_eq_none_iff key
  cases hget : t.get? key with
  | none => simp [contains, hget, h.mp hget]
  | some a =>
      have hmem : key ∈ t.keys := Classical.byContradiction fun hn => by
        simp [h.mpr hn] at hget
      simp [contains, hget, hmem]

theorem mem_rows_iff [DecidableEq κ] (t : Table κ α) (key : κ) (a : α) :
    (key, a) ∈ t.rows ↔ t.get? key = some a := by
  obtain ⟨rows, hnodup⟩ := t
  simp only [get?]
  induction rows with
  | nil => simp [find?]
  | cons row rest ih =>
      obtain ⟨k, b⟩ := row
      obtain ⟨hfresh, hrest⟩ := List.nodup_cons.mp hnodup
      by_cases h : k = key
      · subst h
        have habsent : (k, a) ∉ rest := fun hmem =>
          hfresh (List.mem_map.mpr ⟨(k, a), hmem, rfl⟩)
        simp [find?, habsent, eq_comm]
      · have hne : (key, a) ≠ (k, b) := fun heq => h (Prod.mk.inj heq).1.symm
        simp [find?, h, hne, ih hrest]

theorem find?_filter [DecidableEq κ] (keep : κ → Bool) (key : κ) (rows : List (κ × α)) :
    find? key (rows.filter fun row => keep row.1) = if keep key then find? key rows else none := by
  induction rows with
  | nil => simp [find?]
  | cons row rest ih =>
      obtain ⟨k, a⟩ := row
      by_cases h : k = key
      · subst h
        cases hkeep : keep k with
        | true => simp [find?, hkeep]
        | false => simpa [hkeep] using ih
      · cases hkeep : keep k with
        | true => simpa [find?, hkeep, h] using ih
        | false => simpa [find?, hkeep, h] using ih

@[simp] theorem get?_filter [DecidableEq κ] (t : Table κ α) (keep : κ → Bool) (key : κ) :
    (t.filter keep).get? key = if keep key then t.get? key else none :=
  find?_filter keep key t.rows

theorem keys_filter (t : Table κ α) (keep : κ → Bool) :
    (t.filter keep).keys = t.keys.filter keep :=
  (List.filter_map (f := Prod.fst) (p := keep) (l := t.rows)).symm

@[simp] theorem get?_erase [DecidableEq κ] (t : Table κ α) (key other : κ) :
    (t.erase key).get? other = if key = other then none else t.get? other := by
  by_cases h : key = other
  · simp [erase, h]
  · have h' : other ≠ key := fun e => h e.symm
    simp [erase, h, h']

theorem erase_of_not_mem [DecidableEq κ] (t : Table κ α) {key : κ} (h : key ∉ t.keys) :
    t.erase key = t := by
  obtain ⟨rows, hnodup⟩ := t
  simp only [erase, filter, mk.injEq, List.filter_eq_self]
  intro row hrow
  have hne : row.1 ≠ key := fun e => h (List.mem_map.mpr ⟨row, hrow, e⟩)
  simp [hne]

theorem keys_erase [DecidableEq κ] (t : Table κ α) (key : κ) :
    (t.erase key).keys = t.keys.filter (· ≠ key) :=
  t.keys_filter _

end Table

end EventOperator
