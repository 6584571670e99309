import EventOperator.Proofs.Extension.Path
import EventOperator.Proofs.Extensions

/-!
Extensions that are loaded. A merge of what is there succeeds if and only if all its paths lead to
something. Else it stops at the first one that does not, and the fault names the extension and its
path, unless the name of the module is relative: such a name is reported without them.
-/

namespace EventOperator

namespace Extension

/-- A handle stands for itself, and a path for what it leads to. -/
inductive Given.Yields (catalogue : Catalogue) : Given → Handle → Prop where
  | handle (h : Handle) : Yields catalogue (.handle h) h
  | path {path : String} {member : Member} : LeadsTo catalogue path member →
      Yields catalogue (.path path) member.handle

/-- An entry is there and becomes a row. -/
structure Loads (catalogue : Catalogue) (entry : Option String × Given) (row : String × Handle) :
    Prop where
  name_eq : entry.1 = some row.1
  present : entry.2.isAbsent = false
  yields : entry.2.Yields catalogue row.2

variable {catalogue : Catalogue} {given : Given} {given? : Option (Table (Option String) Given)}
  {entry : Option String × Given} {row : String × Handle} {registry resolved : Registry}
  {name path : String} {h : Handle} {fault : Fault}

theorem Given.yields_path_iff :
    (Given.path path).Yields catalogue h ↔ importPath catalogue path = .ok h := by
  rw [importPath_eq_ok_iff]
  constructor
  · rintro (_ | ⟨hleads⟩)
    exact ⟨_, hleads, rfl⟩
  · rintro ⟨member, hleads, rfl⟩
    exact .path hleads

/-- The path is the first entry that leads to nothing. -/
def IsFirstBroken (catalogue : Catalogue) (entries : List (Option String × Given))
    (name path : String) : Prop :=
  ∃ front rest, entries = front ++ (some name, .path path) :: rest ∧
    (∀ entry ∈ front, ∃ h, entry.2.Yields catalogue h) ∧ ∀ member, ¬ LeadsTo catalogue path member

namespace Registry

theorem resolve_eq_ok_iff : resolve catalogue name given = .ok h ↔ given.Yields catalogue h := by
  cases given with
  | handle given =>
      constructor
      · intro hresolve
        obtain rfl : given = h := Except.ok.inj hresolve
        exact .handle given
      · rintro ⟨⟩
        rfl
  | path path =>
      rw [Given.yields_path_iff, resolve]
      cases importPath catalogue path with
      | ok found =>
          constructor <;>
            · intro hfound
              obtain rfl : found = h := Except.ok.inj hfound
              rfl
      | error fault => simp only [reduceCtorEq]

theorem resolveRow_of_present (hgiven : given.isAbsent = false) :
    resolveRow catalogue (some name, given) = (resolve catalogue name given).map (name, ·) := by
  rw [resolveRow, hgiven]
  cases resolve catalogue name given <;> rfl

theorem resolveRow_eq_ok_iff :
    resolveRow catalogue entry = .ok row ↔ Loads catalogue entry row := by
  constructor
  · intro hrow
    obtain ⟨hname, hthere, hresolve⟩ := exists_given_of_resolveRow hrow
    exact ⟨hname, hthere, resolve_eq_ok_iff.mp hresolve⟩
  · obtain ⟨name?, given⟩ := entry
    rintro ⟨rfl, hthere, hyields⟩
    rw [resolveRow_of_present hthere, resolve_eq_ok_iff.mpr hyields]
    rfl

theorem resolveRow_eq_error_iff (hgiven : given.isAbsent = false) :
    resolveRow catalogue (some name, given) = .error fault ↔
      ∃ path cause, given = .path path ∧ importPath catalogue path = .error cause ∧
        fault = loadFault name path cause := by
  rw [resolveRow_of_present hgiven]
  cases given with
  | handle h =>
      constructor
      · intro hfault
        cases hfault
      · rintro ⟨path, cause, hpath, -⟩
        cases hpath
  | path path =>
      rw [resolve]
      cases himport : importPath catalogue path with
      | ok found =>
          constructor
          · intro hfault
            cases hfault
          · rintro ⟨_, cause, ⟨⟩, hfault, -⟩
            rw [himport] at hfault
            cases hfault
      | error cause =>
          constructor
          · intro hfault
            exact ⟨path, cause, rfl, himport, (Except.error.inj hfault).symm⟩
          · rintro ⟨_, found, ⟨⟩, hfound, rfl⟩
            rw [himport] at hfound
            obtain rfl := Except.error.inj hfound
            rfl

theorem merge_result :
    (merge catalogue given? registry).result = (resolveAll catalogue given?).map fun _ => () := by
  rw [merge, Operation.read_bind]
  cases hresolve : resolveAll catalogue given? with
  | error fault => rfl
  | ok resolved =>
      rw [Operation.ofExcept_ok_bind]
      have hwrite :
          (Operation.write (registry.insertAll resolved.rows) registry).result = .ok () := rfl
      rw [Operation.bind_of_ok hwrite]
      dsimp only
      split <;> rfl

theorem resolveAll_some (given : Table (Option String) Given) :
    resolveAll catalogue (some given) =
      (given.rows.mapM (resolveRow catalogue)).map Table.ofList := by
  have hbind : resolveAll catalogue (some given) =
      given.rows.mapM (resolveRow catalogue) >>= fun rows => .ok (Table.ofList rows) := rfl
  rw [hbind]
  cases given.rows.mapM (resolveRow catalogue) <;> rfl

theorem resolveAll_eq_ok_iff {given : Table (Option String) Given} :
    resolveAll catalogue (some given) = .ok resolved ↔
      List.Forall₂ (Loads catalogue) given.rows resolved.rows := by
  have hrows : ∀ rows, given.rows.mapM (resolveRow catalogue) = .ok rows ↔
      List.Forall₂ (Loads catalogue) given.rows rows := by
    simp only [mapM_eq_ok_iff, resolveRow_eq_ok_iff, implies_true]
  have hlist : ∀ rows, List.Forall₂ (Loads catalogue) given.rows rows →
      (Table.ofList rows).rows = rows := by
    intro rows hloads
    have hnames : given.keys = (rows.map Prod.fst).map some := by
      rw [← List.forall₂_eq_eq_eq, Table.keys, List.forall₂_map_left_iff, List.map_map,
        List.forall₂_map_right_iff]
      exact hloads.imp fun entry row hload => hload.name_eq
    have hkeys : given.keys.Nodup := given.nodup
    have hnodup : (rows.map Prod.fst).Nodup :=
      List.Pairwise.of_map some (fun _ _ hne heq => hne (congrArg some heq)) (hnames ▸ hkeys)
    exact Table.rows_insertAll hnodup fun key _ => List.not_mem_nil
  rw [resolveAll_some]
  constructor
  · intro hresolve
    cases hmap : given.rows.mapM (resolveRow catalogue) with
    | error fault =>
        rw [hmap] at hresolve
        cases hresolve
    | ok rows =>
        rw [hmap] at hresolve
        obtain rfl : Table.ofList rows = resolved := Except.ok.inj hresolve
        have hloads := (hrows rows).mp hmap
        rwa [hlist rows hloads]
  · intro hloads
    rw [(hrows _).mpr hloads]
    exact congrArg Except.ok (Table.eq_of_rows_eq (hlist _ hloads))

theorem yields_of_merge_eq_ok {given : Table (Option String) Given}
    (h : (merge catalogue (some given) registry).result = .ok ()) :
    ∀ entry ∈ given.rows, ∃ h, entry.2.Yields catalogue h := by
  rw [merge_result, resolveAll_some] at h
  cases hrows : given.rows.mapM (resolveRow catalogue) with
  | error fault =>
      rw [hrows] at h
      exact nomatch h
  | ok rows =>
      intro entry hentry
      obtain ⟨row, hrow⟩ := exists_of_mapM_eq_ok hrows entry hentry
      exact ⟨row.2, (resolveRow_eq_ok_iff.mp hrow).yields⟩

theorem exists_isFirstBroken {given : Table (Option String) Given}
    (hgiven : ∀ entry ∈ given.rows, entry.1.isSome ∧ entry.2.isAbsent = false)
    (hfault : (merge catalogue (some given) registry).result = .error fault) :
    ∃ name path, IsFirstBroken catalogue given.rows name path := by
  rw [merge_result, resolveAll_some] at hfault
  cases hrows : given.rows.mapM (resolveRow catalogue) with
  | ok rows =>
      rw [hrows] at hfault
      exact nomatch hfault
  | error first =>
      obtain ⟨front, ⟨name?, broken⟩, rest, hsplit, hfront, hbroken⟩ := mapM_eq_error_iff.mp hrows
      have hmem : (name?, broken) ∈ given.rows := by simp [hsplit]
      obtain ⟨hname, hthere⟩ := hgiven _ hmem
      obtain ⟨name, rfl⟩ := Option.isSome_iff_exists.mp hname
      obtain ⟨path, cause, rfl, himport, -⟩ := (resolveRow_eq_error_iff hthere).mp hbroken
      refine ⟨name, path, front, rest, hsplit, ?_, ?_⟩
      · intro entry hentry
        obtain ⟨row, hrow⟩ := hfront entry hentry
        exact ⟨row.2, (resolveRow_eq_ok_iff.mp hrow).yields⟩
      · intro member hleads
        rw [importPath_eq_ok_iff.mpr ⟨member, hleads, rfl⟩] at himport
        exact nomatch himport

theorem result_of_isFirstBroken {given : Table (Option String) Given}
    (hgiven : ∀ entry ∈ given.rows, entry.1.isSome ∧ entry.2.isAbsent = false)
    (hbroken : IsFirstBroken catalogue given.rows name path) :
    ∃ cause, importPath catalogue path = .error cause ∧
      (merge catalogue (some given) registry).result = .error (loadFault name path cause) := by
  obtain ⟨front, rest, hsplit, hfront, hnowhere⟩ := hbroken
  cases himport : importPath catalogue path with
  | ok found =>
      obtain ⟨member, hleads, -⟩ := importPath_eq_ok_iff.mp himport
      exact absurd hleads (hnowhere member)
  | error cause =>
      refine ⟨cause, rfl, ?_⟩
      have hrows : given.rows.mapM (resolveRow catalogue) = .error (loadFault name path cause) := by
        refine mapM_eq_error_iff.mpr ⟨front, _, rest, hsplit, ?_, ?_⟩
        · intro entry hentry
          obtain ⟨hname, hthere⟩ := hgiven entry (by simp [hsplit, hentry])
          obtain ⟨h, hyields⟩ := hfront entry hentry
          obtain ⟨earlier, hearlier⟩ := Option.isSome_iff_exists.mp hname
          exact ⟨(earlier, h), resolveRow_eq_ok_iff.mpr ⟨hearlier, hthere, hyields⟩⟩
        · exact (resolveRow_eq_error_iff rfl).mpr ⟨path, cause, rfl, himport, rfl⟩
      rw [merge_result, resolveAll_some, hrows]
      rfl

theorem loadFault_of_not_relative {cause : ImportFault}
    (h : ∀ module, cause ≠ .relative module) :
    loadFault name path cause = .extensionLoad name path cause.message := by
  cases cause with
  | relative module => exact absurd rfl (h module)
  | _ => rfl

/-- Extensions that are there are merged if and only if every path leads to something. Else the
first path that does not is reported with the name of its extension and the cause, unless the name
of its module is relative; such a name is all that is reported. -/
theorem merge_of_present (catalogue : Catalogue) (registry : Registry)
    (given : Table (Option String) Given)
    (hgiven : ∀ entry ∈ given.rows, entry.1.isSome ∧ entry.2.isAbsent = false) :
    let result := (merge catalogue (some given) registry).result
    (result = .ok () ↔ ∀ name path, (some name, Given.path path) ∈ given.rows →
        ∃ member, LeadsTo catalogue path member) ∧
      (∀ fault, result = .error fault →
        ∃ name path, IsFirstBroken catalogue given.rows name path) ∧
      ∀ name path, IsFirstBroken catalogue given.rows name path →
        (¬ IsRelative path → ∃ cause, importPath catalogue path = .error cause ∧
          result = .error (.extensionLoad name path cause.message)) ∧
        (IsRelative path → ∃ module, importPath catalogue path = .error (.relative module) ∧
          result = .error (.importing (.relative module))) := by
  intro result
  have hfirst : ∀ fault, result = .error fault →
      ∃ name path, IsFirstBroken catalogue given.rows name path :=
    fun fault hfault => exists_isFirstBroken hgiven hfault
  have hresult : ∀ name path, IsFirstBroken catalogue given.rows name path →
      ∃ cause, importPath catalogue path = .error cause ∧
        result = .error (loadFault name path cause) :=
    fun name path hbroken => result_of_isFirstBroken hgiven hbroken
  refine ⟨⟨?_, ?_⟩, hfirst, ?_⟩
  · intro hok name path hmem
    obtain ⟨h, hyields⟩ := yields_of_merge_eq_ok hok _ hmem
    obtain ⟨member, hleads, -⟩ := importPath_eq_ok_iff.mp (Given.yields_path_iff.mp hyields)
    exact ⟨member, hleads⟩
  · intro hleads
    cases hfault : result with
    | ok _ => rfl
    | error fault =>
        obtain ⟨name, path, front, rest, hsplit, -, hnowhere⟩ := hfirst fault hfault
        obtain ⟨member, hmember⟩ := hleads name path (by simp [hsplit])
        exact absurd hmember (hnowhere member)
  · intro name path hbroken
    obtain ⟨cause, himport, hfault⟩ := hresult name path hbroken
    constructor
    · intro habsolute
      rw [loadFault_of_not_relative fun module hcause =>
        habsolute (importPath_eq_relative_iff.mp ⟨module, hcause ▸ himport⟩)] at hfault
      exact ⟨cause, himport, hfault⟩
    · intro hrelative
      obtain ⟨module, hmodule⟩ := importPath_eq_relative_iff.mpr hrelative
      rw [hmodule] at himport
      obtain rfl := Except.error.inj himport
      exact ⟨module, hmodule, hfault⟩

def brokenPaths : Table (Option String) Given :=
  Table.ofList
    [ (some "plus", .path "functions.Plus"), (some "three", .handle (.data (.whole 3))),
      (some "minus", .path "functions:Minus"), (some "times", .path ".functions:Times") ]

theorem merge_of_present_market :
    (merge marketModules (some brokenPaths) ∅).result =
      .error (.extensionLoad "minus" "functions:Minus"
        "Module 'functions' has no attribute 'Minus'") := by
  have hgiven : ∀ entry ∈ brokenPaths.rows, entry.1.isSome ∧ entry.2.isAbsent = false := by decide
  have himport : importPath marketModules "functions:Minus" =
      .error (.noAttribute "functions" "Minus") := rfl
  have hbroken : IsFirstBroken marketModules brokenPaths.rows "minus" "functions:Minus" := by
    refine ⟨[(some "plus", .path "functions.Plus"), (some "three", .handle (.data (.whole 3)))],
      [(some "times", .path ".functions:Times")], rfl, ?_, ?_⟩
    · have hplus : importPath marketModules "functions.Plus" = .ok (.object "Plus") := rfl
      intro entry hentry
      rw [List.mem_cons, List.mem_singleton] at hentry
      rcases hentry with rfl | rfl
      · exact ⟨_, Given.yields_path_iff.mpr hplus⟩
      · exact ⟨_, .handle _⟩
    · intro member hleads
      rw [importPath_eq_ok_iff.mpr ⟨member, hleads, rfl⟩] at himport
      exact nomatch himport
  have habsolute : ¬ IsRelative "functions:Minus" := by
    rw [← importPath_eq_relative_iff , himport]
    rintro ⟨name, hname⟩
    exact nomatch hname
  obtain ⟨-, -, hfault⟩ := merge_of_present marketModules ∅ brokenPaths hgiven
  obtain ⟨cause, hcause, hresult⟩ := (hfault "minus" "functions:Minus" hbroken).1 habsolute
  rw [himport] at hcause
  obtain rfl := Except.error.inj hcause
  exact hresult

/-- A path with a relative name leads to nothing, but it is not reported as one that cannot be
loaded. -/
theorem relative_path_not_reported :
    let given := Table.ofList [(some "plus", Given.path ".functions:Plus")]
    let result := (merge marketModules (some given) ∅).result
    (∀ member, ¬ LeadsTo marketModules ".functions:Plus" member) ∧
      result = .error (.importing (.relative ".functions")) ∧
      ¬ ∃ reason, result = .error (.extensionLoad "plus" ".functions:Plus" reason) := by
  intro given result
  have himport : importPath marketModules ".functions:Plus" = .error (.relative ".functions") := rfl
  have hresult : result = .error (.importing (.relative ".functions")) := rfl
  refine ⟨?_, hresult, ?_⟩
  · intro member hleads
    rw [importPath_eq_ok_iff.mpr ⟨member, hleads, rfl⟩] at himport
    exact nomatch himport
  · rintro ⟨reason, hreported⟩
    rw [hresult] at hreported
    exact nomatch hreported

end Registry

end Extension

end EventOperator
