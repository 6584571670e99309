import EventOperator.Engine
import EventOperator.Proofs.Operation
import EventOperator.Proofs.Table
import Mathlib.Data.List.Forall2

/-!
Extensions that are there. A registry refuses absent handles, but takes over whatever a path leads
to; a manager that keeps its extensions can be made if and only if all of them are there.
-/

namespace EventOperator

open Operation

section

variable {α β : Type} {result : Except Fault α} {next f : α → Except Fault β} {xs : List α}
  {ys : List β} {y b : β} {fault : Fault}

theorem exists_of_bind_eq_ok (h : (result >>= next) = .ok b) :
    ∃ a, result = .ok a ∧ next a = .ok b := by
  cases result with
  | ok a => exact ⟨a, rfl, h⟩
  | error fault => exact nomatch h

theorem mapM_eq_ok_iff : xs.mapM f = .ok ys ↔ List.Forall₂ (fun x y => f x = .ok y) xs ys := by
  constructor
  · intro h
    induction xs generalizing ys with
    | nil =>
        obtain rfl : [] = ys := Except.ok.inj h
        exact .nil
    | cons x xs ih =>
        rw [List.mapM_cons] at h
        obtain ⟨first, hfirst, htail⟩ := exists_of_bind_eq_ok h
        obtain ⟨rest, hrest, hall⟩ := exists_of_bind_eq_ok htail
        obtain rfl : first :: rest = ys := Except.ok.inj hall
        exact .cons hfirst (ih hrest)
  · intro h
    induction h with
    | nil => rfl
    | cons hfirst _ ih =>
        rw [List.mapM_cons, hfirst, ih]
        rfl

theorem exists_of_mem_mapM (h : xs.mapM f = .ok ys) (hy : y ∈ ys) : ∃ x ∈ xs, f x = .ok y := by
  have hall := mapM_eq_ok_iff.mp h
  obtain ⟨i, hi, rfl⟩ := List.getElem_of_mem hy
  have hi' : i < xs.length := hall.length_eq ▸ hi
  exact ⟨xs[i], List.getElem_mem hi', hall.get hi' hi⟩

theorem exists_of_mapM_eq_ok (h : xs.mapM f = .ok ys) : ∀ x ∈ xs, ∃ y, f x = .ok y := by
  have hboth : List.Forall₂ (fun x y => (∃ y, f x = .ok y) ∧ f x = .ok y) xs ys :=
    (mapM_eq_ok_iff.mp h).imp fun x y hxy => ⟨⟨y, hxy⟩, hxy⟩
  exact ((List.forall₂_and_left _ _).mp hboth).1

theorem mapM_eq_error_iff :
    xs.mapM f = .error fault ↔
      ∃ front x rest, xs = front ++ x :: rest ∧ (∀ y ∈ front, ∃ z, f y = .ok z) ∧
        f x = .error fault := by
  constructor
  · intro h
    induction xs with
    | nil => exact nomatch h
    | cons x xs ih =>
        rw [List.mapM_cons] at h
        cases hfirst : f x with
        | error found =>
            rw [hfirst] at h
            obtain rfl : found = fault := Except.error.inj h
            exact ⟨[], x, xs, rfl, fun y hy => (List.not_mem_nil hy).elim, hfirst⟩
        | ok first =>
            cases hrest : xs.mapM f with
            | ok rest =>
                rw [hfirst, hrest] at h
                exact nomatch h
            | error found =>
                rw [hfirst, hrest] at h
                obtain rfl : found = fault := Except.error.inj h
                obtain ⟨front, y, rest, rfl, hfront, hy⟩ := ih hrest
                refine ⟨x :: front, y, rest, rfl, ?_, hy⟩
                rintro z (_ | ⟨_, hz⟩)
                · exact ⟨first, hfirst⟩
                · exact hfront z hz
  · rintro ⟨front, x, rest, rfl, hfront, hx⟩
    induction front with
    | nil =>
        rw [List.nil_append, List.mapM_cons, hx]
        rfl
    | cons y front ih =>
        obtain ⟨z, hz⟩ := hfront y List.mem_cons_self
        rw [List.cons_append, List.mapM_cons, hz,
          ih fun later hlater => hfront later (List.mem_cons_of_mem _ hlater)]
        rfl

end

namespace Extension

variable {catalogue : Catalogue} {given? : Option (Table (Option String) Given)}
  {registry resolved : Registry} {row : String × Handle} {name path : String} {given : Given}
  {h : Handle}

/-- What is merged at one time, and the modules that can be imported then. -/
structure Merge where
  catalogue : Catalogue
  given? : Option (Table (Option String) Given)

/-- A path is given under the name that leads to something absent. -/
def Merge.IsHollow (m : Merge) (name path : String) : Prop :=
  ∃ given, m.given? = some given ∧ (some name, Given.path path) ∈ given.rows ∧
    ∃ h, importPath m.catalogue path = .ok h ∧ h.isAbsent = true

namespace Registry

def after (registry : Registry) : List Merge → Registry
  | [] => registry
  | m :: rest => after (merge m.catalogue m.given? registry).state rest

theorem merge_state :
    (merge catalogue given? registry).state =
      match resolveAll catalogue given? with
      | .ok resolved => registry.insertAll resolved.rows
      | .error _ => registry := by
  rw [merge, read_bind]
  cases hresolve : resolveAll catalogue given? with
  | error fault => rfl
  | ok resolved =>
      rw [ofExcept_ok_bind]
      have hwrite : (write (registry.insertAll resolved.rows) registry).result = .ok () := rfl
      rw [bind_of_ok hwrite]
      dsimp only
      split <;> rfl

theorem path_of_resolve (hgiven : given.isAbsent = false)
    (hresolve : resolve catalogue name given = .ok h) (habsent : h.isAbsent = true) :
    ∃ path, given = .path path ∧ importPath catalogue path = .ok h := by
  cases given with
  | handle handle =>
      obtain rfl : handle = h := Except.ok.inj hresolve
      exact absurd habsent (by simpa [Given.isAbsent] using hgiven)
  | path path =>
      rw [resolve] at hresolve
      cases himport : importPath catalogue path with
      | ok found =>
          rw [himport] at hresolve
          obtain rfl : found = h := Except.ok.inj hresolve
          exact ⟨path, rfl, himport⟩
      | error fault =>
          rw [himport] at hresolve
          exact nomatch hresolve

theorem exists_given_of_resolveRow {entry : Option String × Given}
    (hrow : resolveRow catalogue entry = .ok row) :
    entry.1 = some row.1 ∧ entry.2.isAbsent = false ∧
      resolve catalogue row.1 entry.2 = .ok row.2 := by
  obtain ⟨name?, given⟩ := entry
  cases name? with
  | none => exact nomatch hrow
  | some name =>
      rw [resolveRow] at hrow
      cases hgiven : given.isAbsent with
      | true =>
          rw [hgiven] at hrow
          exact nomatch hrow
      | false =>
          rw [hgiven] at hrow
          obtain ⟨h, hresolve, hpair⟩ := exists_of_bind_eq_ok hrow
          obtain rfl : (name, h) = row := Except.ok.inj hpair
          exact ⟨rfl, rfl, hresolve⟩

theorem isHollow_of_resolveAll (hresolve : resolveAll catalogue given? = .ok resolved)
    (hrow : row ∈ resolved.rows) (habsent : row.2.isAbsent = true) :
    ∃ path, (Merge.mk catalogue given?).IsHollow row.1 path := by
  cases given? with
  | none => exact nomatch hresolve
  | some given =>
      obtain ⟨rows, hrows, hlist⟩ : ∃ rows, given.rows.mapM (resolveRow catalogue) = .ok rows ∧
          Except.ok (Table.ofList rows) = .ok resolved := exists_of_bind_eq_ok hresolve
      obtain rfl : Table.ofList rows = resolved := Except.ok.inj hlist
      have hmem : row ∈ rows := (Table.mem_rows_insertAll hrow).resolve_left List.not_mem_nil
      obtain ⟨⟨name?, entry⟩, hentry, hresolved⟩ := exists_of_mem_mapM hrows hmem
      obtain ⟨rfl, hthere, hhandle⟩ := exists_given_of_resolveRow hresolved
      obtain ⟨path, rfl, himport⟩ := path_of_resolve hthere hhandle habsent
      exact ⟨path, given, rfl, hentry, row.2, himport, habsent⟩

theorem isHollow_of_mem_merge (m : Merge)
    (hrow : row ∈ (merge m.catalogue m.given? registry).state.rows)
    (habsent : row.2.isAbsent = true) : row ∈ registry.rows ∨ ∃ path, m.IsHollow row.1 path := by
  rw [merge_state] at hrow
  cases hresolve : resolveAll m.catalogue m.given? with
  | error fault =>
      rw [hresolve] at hrow
      exact Or.inl hrow
  | ok resolved =>
      rw [hresolve] at hrow
      rcases Table.mem_rows_insertAll hrow with hold | hnew
      · exact Or.inl hold
      · exact Or.inr (isHollow_of_resolveAll hresolve hnew habsent)

theorem isHollow_of_mem_after {merges : List Merge} (hrow : row ∈ (after registry merges).rows)
    (habsent : row.2.isAbsent = true) :
    row ∈ registry.rows ∨ ∃ m ∈ merges, ∃ path, m.IsHollow row.1 path := by
  induction merges generalizing registry with
  | nil => exact Or.inl hrow
  | cons m merges ih =>
      rcases ih hrow with hmerged | ⟨later, hmem, hhollow⟩
      · rcases isHollow_of_mem_merge m hmerged habsent with hold | hhollow
        · exact Or.inl hold
        · exact Or.inr ⟨m, List.mem_cons_self, hhollow⟩
      · exact Or.inr ⟨later, List.mem_cons_of_mem _ hmem, hhollow⟩

end Registry

end Extension

namespace Engine.InMemory

open Extension

variable {rows : List (String × Handle)} {m : InMemory}

theorem registerAll_of_present (h : ∀ row ∈ rows, row.2.isAbsent = false) :
    kind.registerAll rows m = .ok { m with extensions := m.extensions.insertAll rows } := by
  induction rows generalizing m with
  | nil => rfl
  | cons row rest ih =>
      have hregister : register (some row.1) row.2 m =
          .ok { m with extensions := m.extensions.insert row.1 row.2 } := by
        rw [register, h row List.mem_cons_self]
        rfl
      have hstep : kind.registerAll (row :: rest) m =
          register (some row.1) row.2 m >>= kind.registerAll rest := rfl
      rw [hstep, hregister]
      exact ih fun later hlater => h later (List.mem_cons_of_mem _ hlater)

theorem registerAll_of_absent (h : ∃ row ∈ rows, row.2.isAbsent = true) :
    kind.registerAll rows m = .error (.nullArgument "handle") := by
  induction rows generalizing m with
  | nil => exact absurd h (by simp)
  | cons row rest ih =>
      have hstep : kind.registerAll (row :: rest) m =
          register (some row.1) row.2 m >>= kind.registerAll rest := rfl
      rw [hstep, register]
      cases hrow : row.2.isAbsent with
      | true => rfl
      | false =>
          obtain ⟨later, hlater, habsent⟩ := h
          rcases List.mem_cons.mp hlater with rfl | hrest
          · exact absurd habsent (by simp [hrow])
          · exact ih ⟨later, hrest, habsent⟩

theorem newManager_result {σ : Type} (registry : Extension.Registry) (s : σ) :
    (kind.newManager (some registry) s).result =
      (kind.registerAll registry.rows kind.fresh) := by
  rw [Kind.newManager, required_some, ofExcept_ok_bind]
  cases kind.registerAll registry.rows kind.fresh with
  | ok manager => rfl
  | error fault => rfl

end Engine.InMemory

namespace Extension

open Engine

/-- A manager can be made from whatever has been merged, unless some path has led to nothing: then
no handle is absent, and the manager has the extensions of the registry. -/
theorem managers_after_merges (merges : List Merge)
    (hpaths : ∀ m ∈ merges, ∀ name path, ¬ m.IsHollow name path) :
    (∀ row ∈ (Registry.after ∅ merges).rows, row.2.isAbsent = false) ∧
      ∀ (σ : Type) (s : σ), ∃ manager,
        (InMemory.kind.newManager (some (Registry.after ∅ merges)) s).result = .ok manager ∧
          manager.extensions.rows = (Registry.after ∅ merges).rows := by
  have hpresent : ∀ row ∈ (Registry.after ∅ merges).rows, row.2.isAbsent = false := by
    intro row hrow
    cases habsent : row.2.isAbsent with
    | false => rfl
    | true =>
        rcases Registry.isHollow_of_mem_after hrow habsent with hnone | ⟨m, hm, path, hhollow⟩
        · exact nomatch hnone
        · exact absurd hhollow (hpaths m hm row.1 path)
  refine ⟨hpresent, fun σ s => ?_⟩
  rw [InMemory.newManager_result, InMemory.registerAll_of_present hpresent]
  exact ⟨_, rfl, congrArg Table.rows (Table.insertAll_empty _)⟩

def marketModules : Catalogue :=
  [⟨"functions", false, [("Plus", .object "Plus" []), ("nothing", .nothing)]⟩]

def marketMerges : List Merge :=
  [ ⟨marketModules, some (Table.ofList
      [(some "plus", .handle (.data (.text "+"))), (some "times", .path "functions.Plus")])⟩,
    ⟨marketModules, some (Table.ofList
      [(some "times", .handle (.object "Times")), (some "minus", .path "functions:Minus")])⟩,
    ⟨marketModules, some (Table.ofList [(some "plus", .path "functions:Plus")])⟩ ]

theorem managers_after_merges_market :
    (Registry.after ∅ marketMerges).rows = [("plus", .object "Plus"), ("times", .object "Plus")] ∧
      ∃ manager, (InMemory.kind.newManager (some (Registry.after ∅ marketMerges)) ()).result =
          .ok manager ∧
        manager.extensions.rows = [("plus", .object "Plus"), ("times", .object "Plus")] := by
  have hplus : ∀ path ∈ ["functions.Plus", "functions:Plus"],
      importPath marketModules path = .ok (.object "Plus") := by
    intro path hpath
    rw [List.mem_cons, List.mem_singleton] at hpath
    rcases hpath with rfl | rfl <;> rfl
  have hpaths : ∀ m ∈ marketMerges, ∀ name path, ¬ m.IsHollow name path := by
    intro m hm name path ⟨given, hgiven, hpath, h, himport, habsent⟩
    obtain ⟨hmodules, hfound⟩ : m.catalogue = marketModules ∧
        (path ∈ ["functions.Plus", "functions:Plus"] ∨ path = "functions:Minus") := by
      simp only [marketMerges, List.mem_cons, List.not_mem_nil, or_false] at hm
      rcases hm with rfl | rfl | rfl
      all_goals
        obtain rfl := Option.some.inj hgiven
        simp [Table.ofList, Table.insert, Table.put] at hpath
        simp [hpath]
    rw [hmodules] at himport
    rcases hfound with hleads | rfl
    · rw [hplus path hleads] at himport
      obtain rfl := Except.ok.inj himport
      cases habsent
    · cases himport
  have hrows : (Registry.after ∅ marketMerges).rows =
      [("plus", .object "Plus"), ("times", .object "Plus")] := rfl
  obtain ⟨-, hmanager⟩ := managers_after_merges marketMerges hpaths
  rw [hrows] at hmanager
  exact ⟨hrows, hmanager Unit ()⟩

/-- A path that leads to nothing is taken over, and then no manager can be made. -/
theorem absent_handle_of_hollow_path :
    let registry := Registry.after ∅
      [⟨marketModules, some (Table.ofList [(some "plus", .path "functions:nothing")])⟩]
    ¬ (∀ row ∈ registry.rows, row.2.isAbsent = false) ∧
      (InMemory.kind.newManager (some registry) ()).result = .error (.nullArgument "handle") := by
  intro registry
  have habsent : ∃ row ∈ registry.rows, row.2.isAbsent = true :=
    ⟨("plus", .data .null), List.mem_cons_self, rfl⟩
  constructor
  · intro hpresent
    obtain ⟨row, hrow, hnone⟩ := habsent
    exact absurd hnone (by simp [hpresent row hrow])
  · rw [InMemory.newManager_result, InMemory.registerAll_of_absent habsent]

end Extension

end EventOperator
