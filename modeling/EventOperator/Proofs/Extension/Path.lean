import EventOperator.Extension.Path
import EventOperator.Proofs.Text.Division
import Mathlib.Data.List.TakeWhile

/-!
What import paths lead to. A path is divided at its first colon, and without one at its last point.
In front of the divider stands a module, which can be imported if it and all packages that it is in
are in the catalogue; behind it stands a chain of attributes. Importing finds what a path leads to.
-/

namespace EventOperator.Extension

/-- The first colon divides a path, and without one the last point. -/
inductive Divides : List Char → List Char → List Char → Prop where
  | atColon {module attributes : List Char} : ':' ∉ module →
      Divides (module ++ ':' :: attributes) module attributes
  | atPoint {module attributes : List Char} : ':' ∉ module → ':' ∉ attributes → '.' ∉ attributes →
      Divides (module ++ '.' :: attributes) module attributes

def IsPackageOf (package module : List Char) : Prop :=
  package = module ∨ ∃ rest, module = package ++ '.' :: rest

/-- A name that begins with a point is relative to some other module, and names none by itself. -/
structure IsImportable (catalogue : Catalogue) (module : List Char) : Prop where
  absolute : module.head? ≠ some '.'
  found : ∀ package, IsPackageOf package module →
    ∃ m ∈ catalogue, m.name = String.ofList package

/-- The names of a chain are divided by points. -/
inductive Reaches (catalogue : Catalogue) : Member → List Char → Member → Prop where
  | last {member found : Member} {name : List Char} : '.' ∉ name →
      member.attribute? catalogue (String.ofList name) = some found →
      Reaches catalogue member name found
  | further {member next found : Member} {name chain : List Char} : '.' ∉ name →
      member.attribute? catalogue (String.ofList name) = some next →
      Reaches catalogue next chain found → Reaches catalogue member (name ++ '.' :: chain) found

def LeadsTo (catalogue : Catalogue) (path : String) (found : Member) : Prop :=
  ∃ module attributes, Divides path.toList module attributes ∧ module ≠ [] ∧ attributes ≠ [] ∧
    IsImportable catalogue module ∧
    Reaches catalogue (.module (String.ofList module)) attributes found

def IsRelative (path : String) : Prop :=
  ∃ module attributes, Divides path.toList ('.' :: module) attributes ∧ attributes ≠ []

variable {catalogue : Catalogue} {s u module attributes package chain : List Char}
  {member found : Member} {path : String} {parent? : Option Module} {names : List String}
  {fault : ImportFault}

theorem pathParts_of_colon (h : ':' ∉ module) :
    pathParts (module ++ ':' :: attributes) = (module, attributes) := by
  have hmodule : ∀ c ∈ module, decide (c ≠ ':') = true := fun c hc =>
    decide_eq_true fun heq => h (heq ▸ hc)
  have hstop : ∀ c, (':' :: attributes).head? = some c → decide (c ≠ ':') = false := by
    rintro c ⟨⟩
    rfl
  rw [pathParts, if_pos (by simp), Text.takeWhile_append_stop hmodule hstop,
    Text.dropWhile_append_stop hmodule hstop]
  rfl

theorem pathParts_of_not_mem (hs : ':' ∉ s) :
    pathParts s = (s.take (s.length - (s.reverse.takeWhile (· ≠ '.')).length - 1),
      (s.reverse.takeWhile (· ≠ '.')).reverse) := by
  rw [pathParts, if_neg (by simpa using hs)]
  dsimp only
  rw [List.length_reverse]

theorem pathParts_of_point (hmodule : ':' ∉ module) (hcolon : ':' ∉ attributes)
    (hpoint : '.' ∉ attributes) :
    pathParts (module ++ '.' :: attributes) = (module, attributes) := by
  have hlast : (module ++ '.' :: attributes).reverse.takeWhile (· ≠ '.') = attributes.reverse := by
    rw [List.reverse_append, List.reverse_cons, List.append_assoc]
    apply Text.takeWhile_append_stop
    · intro c hc
      exact decide_eq_true fun heq => hpoint (heq ▸ List.mem_reverse.mp hc)
    · rintro c ⟨⟩
      rfl
  have hnone : ':' ∉ module ++ '.' :: attributes := by simp [hmodule, hcolon]
  have hfront : (module ++ '.' :: attributes).length - attributes.length - 1 = module.length := by
    rw [List.length_append, List.length_cons]
    omega
  rw [pathParts_of_not_mem hnone, hlast, List.length_reverse, hfront, List.take_left,
    List.reverse_reverse]

theorem Divides.pathParts_eq (h : Divides s module attributes) :
    pathParts s = (module, attributes) := by
  cases h with
  | atColon hmodule => exact pathParts_of_colon hmodule
  | atPoint hmodule hcolon hpoint => exact pathParts_of_point hmodule hcolon hpoint

theorem pathParts_of_undivided (hcolon : ':' ∉ s) (hpoint : '.' ∉ s) : pathParts s = ([], s) := by
  have hlast : s.reverse.takeWhile (· ≠ '.') = s.reverse := by
    rw [List.takeWhile_eq_self_iff]
    exact fun c hc => decide_eq_true fun heq => hpoint (heq ▸ List.mem_reverse.mp hc)
  rw [pathParts_of_not_mem hcolon, hlast, List.length_reverse, Nat.sub_self, List.reverse_reverse]
  rfl

theorem exists_divides (h : ':' ∈ s ∨ '.' ∈ s) :
    ∃ module attributes, Divides s module attributes := by
  by_cases hcolon : ':' ∈ s
  · obtain ⟨module, attributes, rfl, hmodule⟩ := List.eq_append_cons_of_mem hcolon
    exact ⟨module, attributes, .atColon hmodule⟩
  · have hpoint : '.' ∈ s.reverse := List.mem_reverse.mpr (h.resolve_left hcolon)
    obtain ⟨last, front, hs, hlast⟩ := List.eq_append_cons_of_mem hpoint
    obtain rfl : s = front.reverse ++ '.' :: last.reverse := by
      rw [← List.reverse_reverse s, hs]
      simp
    simp only [List.mem_append, List.mem_cons, not_or] at hcolon
    exact ⟨front.reverse, last.reverse, .atPoint hcolon.1 hcolon.2.2 (by simpa using hlast)⟩

theorem divides_pathParts (h : (pathParts s).1 ≠ []) :
    Divides s (pathParts s).1 (pathParts s).2 := by
  have hdivided : ':' ∈ s ∨ '.' ∈ s := by
    refine Classical.byContradiction fun hnone => ?_
    rw [not_or] at hnone
    exact h (by rw [pathParts_of_undivided hnone.1 hnone.2])
  obtain ⟨module, attributes, hdivides⟩ := exists_divides hdivided
  rw [hdivides.pathParts_eq]
  exact hdivides

theorem isPackageOf_iff_eq (hu : '.' ∉ u) : IsPackageOf package u ↔ package = u := by
  constructor
  · rintro (heq | ⟨rest, rfl⟩)
    · exact heq
    · simp at hu
  · exact Or.inl

theorem isPackageOf_append (hu : '.' ∉ u) :
    IsPackageOf package (u ++ '.' :: s) ↔
      package = u ∨ ∃ inner, IsPackageOf inner s ∧ package = u ++ '.' :: inner := by
  constructor
  · rintro (rfl | ⟨rest, heq⟩)
    · exact Or.inr ⟨s, Or.inl rfl, rfl⟩
    · rw [List.append_eq_append_iff] at heq
      rcases heq with ⟨front, rfl, hrest⟩ | ⟨front, rfl, hrest⟩
      · cases front with
        | nil => exact Or.inl (List.append_nil u)
        | cons c front =>
            obtain ⟨rfl, hrest⟩ := List.cons.inj hrest
            exact Or.inr ⟨front, Or.inr ⟨rest, (List.cons.inj hrest).2⟩, rfl⟩
      · cases front with
        | nil => exact Or.inl (List.append_nil package).symm
        | cons c front =>
            obtain ⟨rfl, -⟩ := List.cons.inj hrest
            simp at hu
  · rintro (rfl | ⟨inner, rfl | ⟨rest, rfl⟩, rfl⟩)
    · exact Or.inr ⟨s, rfl⟩
    · exact Or.inl rfl
    · exact Or.inr ⟨rest, by simp⟩

theorem packageNames_of_not_mem (hu : '.' ∉ u) : packageNames u = [String.ofList u] := by
  simp [packageNames, Text.splitAt_of_not_mem hu]

theorem packageNames_append (hu : '.' ∉ u) (s : List Char) :
    packageNames (u ++ '.' :: s) =
      String.ofList u ::
        (packageNames s).map fun name => String.ofList (u ++ '.' :: name.toList) := by
  rw [packageNames, packageNames, Text.splitAt_append hu, List.length_cons,
    List.range_succ_eq_map, List.map_cons, List.map_map, List.map_map]
  congr 1
  · simp
  · apply List.map_congr_left
    intro n hn
    cases hparts : Text.splitAt '.' s with
    | nil => exact absurd hparts (Text.splitAt_ne_nil '.' s)
    | cons part parts => simp [List.intercalate]

theorem mem_packageNames {name : String} :
    name ∈ packageNames module ↔
      ∃ package, IsPackageOf package module ∧ name = String.ofList package := by
  induction module using Text.split_induction '.' generalizing name with
  | last u hu => simp [packageNames_of_not_mem hu, isPackageOf_iff_eq hu]
  | next u s hu ih =>
      simp only [packageNames_append hu, List.mem_cons, List.mem_map, ih, isPackageOf_append hu]
      constructor
      · rintro (rfl | ⟨_, ⟨inner, hinner, rfl⟩, rfl⟩)
        · exact ⟨u, Or.inl rfl, rfl⟩
        · exact ⟨_, Or.inr ⟨inner, hinner, rfl⟩, by rw [String.toList_ofList]⟩
      · rintro ⟨_, rfl | ⟨inner, hinner, rfl⟩, rfl⟩
        · exact Or.inl rfl
        · exact Or.inr ⟨_, ⟨inner, hinner, rfl⟩, by rw [String.toList_ofList]⟩

theorem find?_isSome_iff {name : String} :
    (catalogue.find? name).isSome ↔ ∃ m ∈ catalogue, m.name = name := by
  simp [Catalogue.find?, List.find?_isSome]

theorem importModules_eq_ok_iff :
    importModules catalogue parent? names = .ok () ↔
      ∀ name ∈ names, (catalogue.find? name).isSome := by
  induction names generalizing parent? with
  | nil => simp [importModules]
  | cons name names ih =>
      cases hfind : catalogue.find? name with
      | some m => simp [importModules, hfind, ih]
      | none => simp [importModules, hfind]

theorem noModule_of_importModules (h : importModules catalogue parent? names = .error fault) :
    ∃ name outer?, fault = .noModule name outer? := by
  induction names generalizing parent? with
  | nil => exact nomatch h
  | cons name names ih =>
      cases hfind : catalogue.find? name with
      | some m =>
          rw [importModules, hfind] at h
          exact ih h
      | none =>
          rw [importModules, hfind] at h
          exact ⟨name, _, (Except.error.inj h).symm⟩

theorem importModule_eq_ok_iff :
    importModule catalogue module = .ok () ↔ IsImportable catalogue module := by
  have hfound : (∀ name ∈ packageNames module, (catalogue.find? name).isSome) ↔
      ∀ package, IsPackageOf package module →
        ∃ m ∈ catalogue, m.name = String.ofList package := by
    simp only [find?_isSome_iff, mem_packageNames]
    constructor
    · exact fun h package hpackage => h _ ⟨package, hpackage, rfl⟩
    · rintro h _ ⟨package, hpackage, rfl⟩
      exact h package hpackage
  rw [importModule]
  split
  · rename_i hrelative
    exact ⟨nofun, fun h => absurd hrelative h.absolute⟩
  · rename_i habsolute
    rw [importModules_eq_ok_iff, hfound]
    exact ⟨fun h => ⟨habsolute, h⟩, fun h => h.found⟩

theorem follow?_eq_some_iff :
    member.follow? catalogue ((Text.splitAt '.' chain).map String.ofList) = some found ↔
      Reaches catalogue member chain found := by
  constructor
  · intro h
    induction chain using Text.split_induction '.' generalizing member with
    | last u hu =>
        rw [Text.splitAt_of_not_mem hu, List.map_singleton, Member.follow?, List.foldlM_cons] at h
        obtain ⟨only, honly, hlast⟩ := Option.bind_eq_some_iff.mp h
        obtain rfl : only = found := Option.some.inj hlast
        exact .last hu honly
    | next u s hu ih =>
        rw [Text.splitAt_append hu, List.map_cons, Member.follow?, List.foldlM_cons] at h
        obtain ⟨next, hnext, hrest⟩ := Option.bind_eq_some_iff.mp h
        exact .further hu hnext (ih hrest)
  · intro h
    induction h with
    | last hname hlast =>
        rw [Text.splitAt_of_not_mem hname, List.map_singleton, Member.follow?, List.foldlM_cons,
          hlast]
        rfl
    | further hname hnext _ ih =>
        rw [Text.splitAt_append hname, List.map_cons, Member.follow?, List.foldlM_cons, hnext]
        exact ih

theorem importPath_of_hollow (h : (pathParts path.toList).1 = [] ∨ (pathParts path.toList).2 = []) :
    importPath catalogue path = .error (.badPath path) := by
  simp only [importPath, List.isEmpty_iff]
  rw [if_pos h]
  rfl

theorem importPath_of_divides (h : Divides path.toList module attributes) (hmodule : module ≠ [])
    (hattributes : attributes ≠ []) :
    importPath catalogue path =
      (importModule catalogue module).bind fun _ =>
        match (Member.module (String.ofList module)).follow? catalogue
          ((Text.splitAt '.' attributes).map String.ofList) with
        | some member => .ok member.handle
        | none => .error (.noAttribute (String.ofList module) (String.ofList attributes)) := by
  simp only [importPath, h.pathParts_eq, List.isEmpty_iff]
  rw [if_neg (not_or.mpr ⟨hmodule, hattributes⟩)]
  rfl

theorem importPath_eq_badPath_or_divides :
    importPath catalogue path = .error (.badPath path) ∨
      ∃ module attributes,
        Divides path.toList module attributes ∧ module ≠ [] ∧ attributes ≠ [] := by
  by_cases hhollow : (pathParts path.toList).1 = [] ∨ (pathParts path.toList).2 = []
  · exact Or.inl (importPath_of_hollow hhollow)
  · obtain ⟨hmodule, hattributes⟩ := not_or.mp hhollow
    exact Or.inr ⟨_, _, divides_pathParts hmodule, hmodule, hattributes⟩

theorem importPath_eq_ok_iff {h : Handle} :
    importPath catalogue path = .ok h ↔
      ∃ member, LeadsTo catalogue path member ∧ member.handle = h := by
  constructor
  · intro himport
    rcases importPath_eq_badPath_or_divides with hbad |
      ⟨module, attributes, hdivides, hmodule, hattributes⟩
    · rw [hbad] at himport
      exact nomatch himport
    · rw [importPath_of_divides hdivides hmodule hattributes] at himport
      cases himported : importModule catalogue module with
      | error fault =>
          rw [himported] at himport
          exact nomatch himport
      | ok _ =>
          rw [himported, Except.bind] at himport
          split at himport
          · rename_i member hfollow
            refine ⟨member, ?_, Except.ok.inj himport⟩
            exact ⟨_, _, hdivides, hmodule, hattributes, importModule_eq_ok_iff.mp himported,
              follow?_eq_some_iff.mp hfollow⟩
          · exact nomatch himport
  · rintro ⟨member, hleads, rfl⟩
    obtain ⟨module, attributes, hdivides, hmodule, hattributes, himportable, hreaches⟩ := hleads
    rw [importPath_of_divides hdivides hmodule hattributes,
      importModule_eq_ok_iff.mpr himportable, Except.bind, follow?_eq_some_iff.mpr hreaches]

theorem importPath_eq_relative_iff :
    (∃ name, importPath catalogue path = .error (.relative name)) ↔ IsRelative path := by
  constructor
  · rintro ⟨name, himport⟩
    rcases importPath_eq_badPath_or_divides with hbad |
      ⟨module, attributes, hdivides, hmodule, hattributes⟩
    · rw [hbad] at himport
      exact nomatch himport
    · rw [importPath_of_divides hdivides hmodule hattributes, importModule] at himport
      split at himport
      · rename_i hrelative
        obtain ⟨rest, rfl⟩ := List.head?_eq_some_iff.mp hrelative
        exact ⟨rest, attributes, hdivides, hattributes⟩
      · cases himported : importModules catalogue none (packageNames module) with
        | error fault =>
            obtain ⟨missing, outer?, rfl⟩ := noModule_of_importModules himported
            rw [himported] at himport
            exact nomatch himport
        | ok _ =>
            rw [himported, Except.bind] at himport
            split at himport <;> exact nomatch himport
  · rintro ⟨module, attributes, hdivides, hattributes⟩
    rw [importPath_of_divides hdivides (List.cons_ne_nil _ _) hattributes, importModule,
      if_pos List.head?_cons]
    exact ⟨_, rfl⟩

end EventOperator.Extension
