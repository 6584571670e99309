import EventOperator.Proofs.Query.Reference
import EventOperator.Proofs.Schema.Prologue
import EventOperator.Query.Enrichment

/-!
Enriched programs. A program that enrichment has made carries the definitions of all streams that
it reads, so nothing is left to enrich.
-/

namespace EventOperator

open EventOperator.Text
open EventOperator.Query

variable {streams : Schema.Registry} {body program : String} {plan? : Option String}
  {rows : List (String × Schema)}

namespace Query

def selectedRows (streams : Schema.Registry) (body : String) : List (String × Schema) :=
  streams.rows.filter fun row => (inputStreams body).contains row.1

theorem mem_selectedRows {row : String × Schema} :
    row ∈ selectedRows streams body ↔ row ∈ streams.rows ∧ row.1 ∈ inputStreams body := by
  simp [selectedRows, List.mem_filter]

theorem enrich_eq_enrichBody : enrich (some streams) (some body) plan? = enrichBody streams body := by
  cases plan? <;> simp only [enrich, required_some, bind, Except.bind]

theorem find?_unregistered_eq_none_iff {read : List String} :
    (read.find? fun stream => !streams.contains stream) = none ↔
      ∀ stream ∈ read, stream ∈ streams.keys := by
  simp [List.find?_eq_none, streams.contains_iff]

theorem enrich_eq_ok_iff :
    enrich (some streams) (some body) plan? = .ok program ↔
      (∀ stream ∈ inputStreams body, stream ∈ streams.keys) ∧
        program = streams.definitionsOf (inputStreams body).contains ++ body := by
  rw [enrich_eq_enrichBody, enrichBody, ← find?_unregistered_eq_none_iff]
  cases (inputStreams body).find? fun stream => !streams.contains stream with
  | some stream => exact ⟨fun h => (nomatch h), fun h => (nomatch h.1)⟩
  | none => exact ⟨fun h => ⟨rfl, (Except.ok.inj h).symm⟩, fun h => congrArg Except.ok h.2.symm⟩

theorem exists_enrich_eq_error (h : ¬ ∀ stream ∈ inputStreams body, stream ∈ streams.keys) :
    ∃ stream, enrich (some streams) (some body) plan? = .error (.undefinedStream stream none) := by
  rw [← find?_unregistered_eq_none_iff] at h
  rw [enrich_eq_enrichBody, enrichBody]
  cases hfind : (inputStreams body).find? fun stream => !streams.contains stream with
  | some stream => exact ⟨stream, rfl⟩
  | none => exact absurd hfind h

theorem enrich_of_inputStreams_eq_nil (h : inputStreams program = []) :
    enrich (some streams) (some program) plan? = .ok program := by
  rw [enrich_eq_ok_iff, h]
  refine ⟨by simp, ?_⟩
  have hrows : (streams.rows.filter fun row => List.contains [] row.1) = [] :=
    List.filter_eq_nil_iff.mpr (by simp)
  rw [Schema.Registry.definitionsOf, hrows, List.map_nil, String.join_nil, String.empty_append]

theorem toList_program (h : enrich (some streams) (some body) plan? = .ok program) :
    program.toList = Schema.prologue (selectedRows streams body) ++ body.toList := by
  obtain ⟨-, rfl⟩ := enrich_eq_ok_iff.mp h
  rw [String.toList_append, Schema.toList_definitionsOf, selectedRows]

theorem mem_map_selectedRows (h : enrich (some streams) (some body) plan? = .ok program)
    {name : List Char} (hname : name ∈ inputNames body.toList) :
    name ∈ (selectedRows streams body).map (·.1.toList) := by
  have hread : String.ofList name ∈ inputStreams body := mem_inputStreams.mpr (by simpa using hname)
  obtain ⟨row, hrow, hkey⟩ := List.mem_map.mp ((enrich_eq_ok_iff.mp h).1 _ hread)
  refine List.mem_map.mpr ⟨row, mem_selectedRows.mpr ⟨hrow, hkey ▸ hread⟩, ?_⟩
  simp [hkey]

theorem inputNames_prologue {query : List Char}
    (hrows : ∀ row ∈ rows, Schema.IsReadable row)
    (hcovers : ∀ name ∈ inputNames query, name ∈ rows.map (·.1.toList)) :
    inputNames (Schema.prologue rows ++ query) = [] := by
  rw [List.eq_nil_iff_forall_not_mem]
  intro name hname
  rw [mem_inputNames, stripComments_prologue hrows, referencedNames_prologue hrows,
    mem_localNames_prologue hrows] at hname
  obtain ⟨hreferenced, hlocal⟩ := hname
  exact hlocal (Or.inl (hcovers name (mem_inputNames.mpr
    ⟨hreferenced, fun h => hlocal (Or.inr h)⟩)))

/-- An enriched program reads no stream that it does not define, and whatever the schemas, it is
enriched to itself. -/
theorem enrich_self_contained
    (henrich : enrich (some streams) (some body) plan? = .ok program)
    (hselected : ∀ row ∈ streams.rows, row.1 ∈ inputStreams body →
      row.1.toList.map Char.toLower ≠ keyword "from" ∧ row.2.HasOrdinaryNames) :
    inputStreams program = [] ∧
      ∀ (schemas : Schema.Registry) (id? : Option String),
        enrich (some schemas) (some program) id? = .ok program := by
  have hrows : ∀ row ∈ selectedRows streams body, Schema.IsReadable row := by
    intro row hrow
    obtain ⟨hmem, hread⟩ := mem_selectedRows.mp hrow
    obtain ⟨hfrom, hnames⟩ := hselected row hmem hread
    have hrun := isRun_of_mem_referencedNames (mem_inputNames.mp (mem_inputStreams.mp hread)).1
    exact ⟨⟨hrun, hfrom⟩, hnames⟩
  have hnames : inputNames program.toList = [] := by
    rw [toList_program henrich]
    exact inputNames_prologue hrows fun name hname => mem_map_selectedRows henrich hname
  have hnothing : inputStreams program = [] := by
    rw [inputStreams, hnames, List.map_nil]
  exact ⟨hnothing, fun schemas id? => enrich_of_inputStreams_eq_nil hnothing⟩

/-- The schema that is not read may be of any kind, and an attribute may be named for a keyword. -/
def marketStreams : Schema.Registry :=
  Table.ofList
    [("News", .fixed "from"),
      ("Ticks", .attributes [⟨"symbol", .string, none⟩, ⟨"insert", .double, none⟩])]

def marketQuery : String :=
  "/* from Old */ from Ticks[insert > 1] select symbol insert into Rises; from (Rises] -- from"

theorem enrich_self_contained_market :
    Query.enrich (some marketStreams) (some marketQuery) none =
        .ok ("define stream Ticks (symbol string, insert double);" ++ marketQuery) ∧
      inputStreams ("define stream Ticks (symbol string, insert double);" ++ marketQuery) = [] := by
  have henrich : Query.enrich (some marketStreams) (some marketQuery) none =
      .ok ("define stream Ticks (symbol string, insert double);" ++ marketQuery) :=
    enrich_eq_ok_iff.mpr (by decide +kernel)
  exact ⟨henrich, (enrich_self_contained henrich (by decide +kernel)).1⟩

end Query

end EventOperator
