import EventOperator.Proofs.Query.Comment
import EventOperator.Proofs.Schema.Clause
import EventOperator.Query.Source
import EventOperator.Schema.Registry

/-!
Definitions in front of a query. They add the names of their streams to what the query has of its
own, and leave all that it reads as it is.
-/

namespace EventOperator

open EventOperator.Text
open EventOperator.Query

variable {β : Type} {p : Pattern β} {rows : List (String × Schema)} {stream : String}
  {schema : Schema} {list : List Attribute} {v : List Char}

namespace Schema

def HasOrdinaryNames : Schema → Prop
  | attributes list => ∀ a ∈ list, Ordinary a.name.toList
  | fixed _ => False

instance (schema : Schema) : Decidable schema.HasOrdinaryNames :=
  match schema with
  | attributes list => inferInstanceAs (Decidable (∀ a ∈ list, Ordinary a.name.toList))
  | fixed _ => inferInstanceAs (Decidable False)

theorem HasOrdinaryNames.exists_attributes (h : schema.HasOrdinaryNames) :
    ∃ list, schema = attributes list ∧ ∀ a ∈ list, Ordinary a.name.toList := by
  cases schema with
  | attributes list => exact ⟨list, rfl, h⟩
  | fixed definition => exact h.elim

def IsReadable (row : String × Schema) : Prop := Ordinary row.1.toList ∧ row.2.HasOrdinaryNames

instance (row : String × Schema) : Decidable (IsReadable row) :=
  inferInstanceAs (Decidable (_ ∧ _))

def prologue (rows : List (String × Schema)) : List Char :=
  rows.flatMap fun row => (row.2.definition row.1).toList

theorem toList_definitionsOf (streams : Registry) (wanted : String → Bool) :
    (streams.definitionsOf wanted).toList =
      prologue (streams.rows.filter fun row => wanted row.1) := by
  simp [Registry.definitionsOf, prologue, List.flatMap_map]

end Schema

theorem captures_semicolon (hp : p.Wordwise) (v : List Char) :
    captures p (';' :: v) = captures p v :=
  captures_of_scan_inl (u := [';']) (hp.scan_other isWord_semicolon)

/-- A pattern that ignores each definition of the rows. -/
def IgnoresPrologue (p : Pattern β) (rows : List (String × Schema)) : Prop :=
  ∀ row ∈ rows, ∀ list, row.2 = .attributes list → IgnoresDefinition p row.1.toList list

theorem captures_prologue (hp : p.Wordwise) (hrows : ∀ row ∈ rows, Schema.IsReadable row)
    (hignores : IgnoresPrologue p rows) (v : List Char) :
    captures p (Schema.prologue rows ++ v) = captures p v := by
  induction rows with
  | nil => rfl
  | cons row rows ih =>
      have hrest := ih (fun other hother => hrows other (List.mem_cons_of_mem row hother))
        fun other hother => hignores other (List.mem_cons_of_mem row hother)
      obtain ⟨hstream, hnames⟩ := hrows row List.mem_cons_self
      obtain ⟨stream, schema⟩ := row
      obtain ⟨list, rfl, hlist⟩ := hnames.exists_attributes
      have hdefinition := captures_of_scan_inl
        ((hignores _ List.mem_cons_self list rfl).scan_definitionText hstream.1
          (fun a ha => (hlist a ha).1) (';' :: (Schema.prologue rows ++ v)))
      rw [Schema.prologue, List.flatMap_cons, Schema.toList_definition, List.append_assoc,
        List.append_assoc, List.singleton_append]
      exact hdefinition.trans ((captures_semicolon hp _).trans hrest)

theorem captures_insertedName?_prologue (hrows : ∀ row ∈ rows, Schema.IsReadable row)
    (v : List Char) :
    captures insertedName? (Schema.prologue rows ++ v) = captures insertedName? v := by
  apply captures_prologue insertedName?_stopsAt.toWordwise hrows
  rintro ⟨stream, schema⟩ hrow list rfl
  obtain ⟨hstream, hnames⟩ := hrows _ hrow
  exact insertedName?_ignoresDefinition hstream.1 fun a ha => (hnames a ha).1

theorem captures_partitionKeys?_prologue (hrows : ∀ row ∈ rows, Schema.IsReadable row)
    (v : List Char) :
    captures partitionKeys? (Schema.prologue rows ++ v) = captures partitionKeys? v := by
  apply captures_prologue partitionKeys?_wordwise hrows
  rintro ⟨stream, schema⟩ hrow list rfl
  obtain ⟨hstream, hnames⟩ := hrows _ hrow
  exact partitionKeys?_ignoresDefinition hstream.1 fun a ha => (hnames a ha).1

theorem captures_definedName?_prologue (hrows : ∀ row ∈ rows, Schema.IsReadable row)
    (v : List Char) :
    captures definedName? (Schema.prologue rows ++ v) =
      rows.map (·.1.toList) ++ captures definedName? v := by
  induction rows with
  | nil => rfl
  | cons row rows ih =>
      have hrest := ih fun other hother => hrows other (List.mem_cons_of_mem row hother)
      obtain ⟨hstream, hnames⟩ := hrows row List.mem_cons_self
      obtain ⟨stream, schema⟩ := row
      obtain ⟨list, rfl, hlist⟩ := hnames.exists_attributes
      have hdefinition := captures_definedName?_definition hstream.1
        (fun a ha => (hlist a ha).1) (';' :: (Schema.prologue rows ++ v))
      rw [captures_semicolon definedName?_stopsAt.toWordwise, hrest] at hdefinition
      rw [Schema.prologue, List.flatMap_cons, Schema.toList_definition, List.append_assoc,
        List.append_assoc, List.singleton_append]
      exact hdefinition

theorem mem_localNames_prologue (hrows : ∀ row ∈ rows, Schema.IsReadable row) (name : List Char)
    (v : List Char) :
    name ∈ localNames (Schema.prologue rows ++ v) ↔
      name ∈ rows.map (·.1.toList) ∨ name ∈ localNames v := by
  rw [localNames, captures_definedName?_prologue hrows, captures_insertedName?_prologue hrows,
    List.append_assoc, List.mem_append, localNames]

theorem statements_prologue (hrows : ∀ row ∈ rows, Schema.IsReadable row) (v : List Char) :
    (statements (Schema.prologue rows ++ v)).flatMap (captures fromClause?) =
      (statements v).flatMap (captures fromClause?) := by
  induction rows with
  | nil => rfl
  | cons row rows ih =>
      have hrest := ih fun other hother => hrows other (List.mem_cons_of_mem row hother)
      obtain ⟨hstream, hnames⟩ := hrows row List.mem_cons_self
      obtain ⟨stream, schema⟩ := row
      obtain ⟨list, rfl, hlist⟩ := hnames.exists_attributes
      have hruns := fun a ha => (hlist a ha).1
      have hnone : captures fromClause? (Schema.definitionText stream.toList list) = [] := by
        simpa using captures_of_scan_inl
          ((fromClause?_ignoresDefinition hstream hlist).scan_definitionText hstream.1 hruns [])
      have hsemicolon : ';' ∉ Schema.definitionText stream.toList list :=
        not_mem_definitionText (by decide) hstream.1 hruns
      rw [Schema.prologue, List.flatMap_cons, Schema.toList_definition, List.append_assoc,
        List.append_assoc, List.singleton_append, statements, splitAt_append hsemicolon,
        List.flatMap_cons, hnone]
      exact hrest

theorem referencedNames_prologue (hrows : ∀ row ∈ rows, Schema.IsReadable row) (v : List Char) :
    referencedNames (Schema.prologue rows ++ v) = referencedNames v := by
  have hclauses := congrArg (List.flatMap clauseSources) (statements_prologue hrows v)
  rw [List.flatMap_assoc, List.flatMap_assoc] at hclauses
  rw [referencedNames, captures_partitionKeys?_prologue hrows, hclauses, referencedNames]

theorem stripComments_prologue (hrows : ∀ row ∈ rows, Schema.IsReadable row) (v : List Char) :
    stripComments (Schema.prologue rows ++ v) = Schema.prologue rows ++ stripComments v := by
  apply stripComments_append
  intro c hc
  obtain ⟨⟨stream, schema⟩, hrow, hc⟩ := List.mem_flatMap.mp hc
  obtain ⟨hstream, hnames⟩ := hrows _ hrow
  obtain ⟨list, rfl, hlist⟩ := hnames.exists_attributes
  rw [Schema.toList_definition, List.mem_append, List.mem_singleton] at hc
  rcases hc with hc | rfl
  · have hchar := isDefinitionChar_definitionText hstream.1 (fun a ha => (hlist a ha).1) c hc
    constructor <;> rintro rfl <;> exact absurd hchar (by decide)
  · decide

end EventOperator
