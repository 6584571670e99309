import EventOperator.Proofs.Text.Division
import EventOperator.Query.Clause

/-!
The clauses that name streams, as patterns that begin with a keyword. Definitions and `insert into`
targets are read within one statement, so a query is searched for them statement by statement.
-/

namespace EventOperator.Query

open EventOperator.Text

variable {s u v w rest : List Char}

theorem isWord_semicolon : isWord ';' = false := by decide

theorem isBlank_semicolon : isBlank ';' = false := by decide

def kindBehind? (s : List Char) : Option (List Char) := definitionKinds.findSome? (afterWord? · s)

def nameBehind (s rest : List Char) : Option (Nat × List Char) :=
  (wordRun? rest).bind fun found => some (taken s found.2 found.1)

theorem definedName?_eq : definedName? =
    blanksBehind (keyword "define") fun s rest =>
      ((kindBehind? rest).bind afterBlanks?).bind (nameBehind s) := by
  funext before s
  unfold definedName? blanksBehind kindBehind?
  congr 1
  funext _
  simp only [Option.bind_assoc]
  rfl

theorem isLetters_define : IsLetters (keyword "define") := by decide

theorem definedName?_only : definedName?.Only (Spells (keyword "define")) := by
  rw [definedName?_eq]
  exact blanksBehind_only isLetters_define

theorem isLetters_definitionKinds : ∀ kind ∈ definitionKinds, IsLetters kind := by decide

theorem findSome?_halts {kinds : List (List Char)} (hkinds : ∀ kind ∈ kinds, IsLetters kind) :
    Halts (fun s => kinds.findSome? (afterWord? · s)) ';' := by
  intro u v
  induction kinds with
  | nil => rfl
  | cons kind kinds ih =>
      have hkind := afterWord?_halts (hkinds kind List.mem_cons_self) isWord_semicolon u v
      have hrest := ih fun other hother => hkinds other (List.mem_cons_of_mem kind hother)
      simp only [List.findSome?_cons, hkind, hrest]
      cases afterWord? kind u <;> rfl

theorem nameBehind_append (s rest v : List Char) :
    nameBehind (s ++ ';' :: v) (rest ++ ';' :: v) = nameBehind s rest := by
  unfold nameBehind
  rw [wordRun?_append_stop isWord_semicolon]
  cases wordRun? rest with
  | none => rfl
  | some found => simp [taken_append_append]

theorem definedName?_stopsAt : definedName?.StopsAt ';' := by
  rw [definedName?_eq]
  apply blanksBehind_stopsAt isLetters_define isWord_semicolon isBlank_semicolon
  · intro s rest more b hfound
    obtain ⟨behind, -, hname⟩ := Option.bind_eq_some_iff.mp hfound
    obtain ⟨name, -, hcapture⟩ := Option.bind_eq_some_iff.mp hname
    obtain ⟨rfl, rfl⟩ := Prod.mk.inj (Option.some.inj hcapture)
    exact ⟨name.2, rfl⟩
  · intro s rest v
    have hread : (kindBehind? (rest ++ ';' :: v)).bind afterBlanks? =
        ((kindBehind? rest).bind afterBlanks?).map (· ++ ';' :: v) :=
      (findSome?_halts isLetters_definitionKinds).bind (afterBlanks?_halts isBlank_semicolon)
        rest v
    rw [hread]
    cases (kindBehind? rest).bind afterBlanks? with
    | none => rfl
    | some behind => exact nameBehind_append s behind v

def markedName? (s : List Char) : Option (List Char × List Char) :=
  match s with
  | '#' :: rest => (wordRun? rest).map fun (name, behind) => ('#' :: name, behind)
  | _ => wordRun? s

def eventsBehind? (s : List Char) : Option (List Char) :=
  ((afterBlanks? s).bind (afterWord? (keyword "events"))).bind afterBlanks?

theorem target?_eq (s : List Char) :
    target? s = ((afterWord? (keyword "into") s).bind afterBlanks?).bind markedName? := by
  simp only [target?, Option.bind_assoc]
  rfl

theorem afterEventKind?_eq (s : List Char) :
    afterEventKind? s = (wordRun? s).bind fun found => eventsBehind? found.2 := by
  simp only [afterEventKind?, eventsBehind?, Option.bind_assoc]
  rfl

theorem insertedName?_eq : insertedName? =
    blanksBehind (keyword "insert") fun s rest =>
      (((afterEventKind? rest).bind target?).or (target? rest)).bind fun found =>
        some (taken s found.2 found.1) := rfl

theorem isLetters_insert : IsLetters (keyword "insert") := by decide

theorem isLetters_into : IsLetters (keyword "into") := by decide

theorem isLetters_events : IsLetters (keyword "events") := by decide

theorem markedName?_of_ne {c : Char} (hc : c ≠ '#') (s : List Char) :
    markedName? (c :: s) = wordRun? (c :: s) := by
  unfold markedName?
  split
  · rename_i rest heq
    exact absurd (List.cons.inj heq).1 hc
  · rfl

theorem markedName?_append (u v : List Char) :
    markedName? (u ++ ';' :: v) =
      (markedName? u).map fun (name, rest) => (name, rest ++ ';' :: v) := by
  cases u with
  | nil => rfl
  | cons c u =>
      by_cases hc : c = '#'
      · subst hc
        simp only [markedName?, List.cons_append, wordRun?_append_stop isWord_semicolon]
        cases wordRun? u <;> rfl
      · have hrun := wordRun?_append_stop isWord_semicolon (c :: u) v
        rw [List.cons_append] at hrun ⊢
        rw [markedName?_of_ne hc, markedName?_of_ne hc, hrun]

theorem target?_append (u v : List Char) :
    target? (u ++ ';' :: v) = (target? u).map fun (name, rest) => (name, rest ++ ';' :: v) := by
  have hread : (afterWord? (keyword "into") (u ++ ';' :: v)).bind afterBlanks? =
      ((afterWord? (keyword "into") u).bind afterBlanks?).map (· ++ ';' :: v) :=
    (afterWord?_halts isLetters_into isWord_semicolon).bind
      (afterBlanks?_halts isBlank_semicolon) u v
  rw [target?_eq, target?_eq, hread]
  cases (afterWord? (keyword "into") u).bind afterBlanks? with
  | none => rfl
  | some rest => exact markedName?_append rest v

theorem eventsBehind?_halts : Halts eventsBehind? ';' :=
  ((afterBlanks?_halts isBlank_semicolon).bind
    (afterWord?_halts isLetters_events isWord_semicolon)).bind
      (afterBlanks?_halts isBlank_semicolon)

theorem afterEventKind?_halts : Halts afterEventKind? ';' := by
  intro u v
  rw [afterEventKind?_eq, afterEventKind?_eq, wordRun?_append_stop isWord_semicolon]
  cases wordRun? u with
  | none => rfl
  | some found => exact eventsBehind?_halts found.2 v

theorem insertedName?_stopsAt : insertedName?.StopsAt ';' := by
  rw [insertedName?_eq]
  apply blanksBehind_stopsAt isLetters_insert isWord_semicolon isBlank_semicolon
  · intro s rest more b hfound
    obtain ⟨name, -, hname⟩ := Option.bind_eq_some_iff.mp hfound
    obtain ⟨rfl, rfl⟩ := Prod.mk.inj (Option.some.inj hname)
    exact ⟨name.2, rfl⟩
  · intro s rest v
    have hlong : (afterEventKind? (rest ++ ';' :: v)).bind target? =
        ((afterEventKind? rest).bind target?).map fun (name, behind) =>
          (name, behind ++ ';' :: v) := by
      rw [afterEventKind?_halts rest v]
      cases afterEventKind? rest with
      | none => rfl
      | some behind => exact target?_append behind v
    rw [hlong, target?_append]
    cases (afterEventKind? rest).bind target? with
    | some found => simp [taken_append_append]
    | none =>
        cases target? rest with
        | none => rfl
        | some found => simp [taken_append_append]

theorem insertedName?_only : insertedName?.Only (Spells (keyword "insert")) := by
  rw [insertedName?_eq]
  exact blanksBehind_only isLetters_insert

theorem mem_localNames_append (name s v : List Char) :
    name ∈ localNames (s ++ ';' :: v) ↔ name ∈ localNames s ∨ name ∈ localNames v := by
  unfold localNames
  rw [definedName?_stopsAt.captures_append isWord_semicolon,
    insertedName?_stopsAt.captures_append isWord_semicolon]
  simp only [List.mem_append]
  constructor
  · rintro ((h | h) | (h | h)) <;> simp [h]
  · rintro ((h | h) | (h | h)) <;> simp [h]

def afterOpening? (s : List Char) : Option (List Char) :=
  (afterWord? (keyword "with") s).bind fun behind => after? '(' (behind.dropWhile isBlank)

theorem partitionKeys?_eq : partitionKeys? =
    blanksBehind (keyword "partition") fun s rest =>
      (afterOpening? rest).bind fun behind =>
        (keys? behind).bind fun found => some (taken s found.2 found.1) := by
  funext before s
  unfold partitionKeys? blanksBehind afterOpening?
  congr 1
  funext _
  simp only [Option.bind_assoc]
  rfl

theorem isLetters_partition : IsLetters (keyword "partition") := by decide

theorem partitionKeys?_wordwise : partitionKeys?.Wordwise := by
  rw [partitionKeys?_eq]
  exact blanksBehind_wordwise isLetters_partition

theorem partitionKeys?_only : partitionKeys?.Only (Spells (keyword "partition")) := by
  rw [partitionKeys?_eq]
  exact blanksBehind_only isLetters_partition

theorem fromClause?_eq : fromClause? =
    borderBehind (keyword "from") fun before s rest =>
      some (taken s (rest.drop (upToWord clauseEnds before rest).length)
        (upToWord clauseEnds before rest)) := rfl

theorem isLetters_from : IsLetters (keyword "from") := by decide

theorem fromClause?_wordwise : fromClause?.Wordwise := by
  rw [fromClause?_eq]
  exact borderBehind_wordwise isLetters_from

theorem fromClause?_only : fromClause?.Only (Spells (keyword "from")) := by
  rw [fromClause?_eq]
  exact borderBehind_only isLetters_from

end EventOperator.Query
