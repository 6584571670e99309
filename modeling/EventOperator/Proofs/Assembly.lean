import EventOperator.Plan.Assembly
import EventOperator.Proofs.Enrichment
import EventOperator.Proofs.Query.Sequence

/-!
Programs assembled from all plans. Such a program leaves the same streams undefined as its plans do
one by one, apart from those that a schema or another plan defines.
-/

namespace EventOperator

open EventOperator.Text
open EventOperator.Query

namespace Plan

variable {assembler : Assembler} {stream body : String} {bodies : List String}

theorem toList_program (assembler : Assembler) :
    assembler.program.toList =
      Schema.prologue assembler.streams.rows
        ++ assembler.registry.bodies.flatMap String.toList := by
  have hall : (assembler.streams.rows.filter fun _ => true) = assembler.streams.rows :=
    List.filter_eq_self.mpr fun _ _ => rfl
  rw [Assembler.program, String.toList_append, Schema.Registry.definitions,
    Schema.toList_definitionsOf, hall, String.toList_join]

theorem mem_inputNames_body (h : IsComplete body.toList) (name : List Char) :
    name ∈ inputNames body.toList ↔
      name ∈ referencedNames body.toList ∧ name ∉ localNames body.toList := by
  rw [mem_inputNames, h.stripComments_eq]

theorem mem_inputNames_sequence {rows : List (String × Schema)}
    (hrows : ∀ row ∈ rows, Schema.IsReadable row)
    (hbodies : ∀ body ∈ bodies, IsComplete body.toList) (name : List Char) :
    name ∈ inputNames (Schema.prologue rows ++ bodies.flatMap String.toList) ↔
      (∃ body ∈ bodies, name ∈ inputNames body.toList) ∧
        name ∉ rows.map (·.1.toList) ∧ ∀ body ∈ bodies, name ∉ localNames body.toList := by
  rw [mem_inputNames, stripComments_prologue hrows, stripComments_flatMap hbodies,
    referencedNames_prologue hrows, mem_localNames_prologue hrows,
    mem_referencedNames_flatMap hbodies, mem_localNames_flatMap hbodies]
  constructor
  · rintro ⟨⟨body, hbody, hreferenced⟩, hlocal⟩
    have hnowhere : ∀ other ∈ bodies, name ∉ localNames other.toList :=
      fun other hother h => hlocal (Or.inr ⟨other, hother, h⟩)
    exact ⟨⟨body, hbody, (mem_inputNames_body (hbodies body hbody) name).mpr
      ⟨hreferenced, hnowhere body hbody⟩⟩, fun h => hlocal (Or.inl h), hnowhere⟩
  · rintro ⟨⟨body, hbody, hname⟩, hstream, hnowhere⟩
    refine ⟨⟨body, hbody, ((mem_inputNames_body (hbodies body hbody) name).mp hname).1⟩, ?_⟩
    rintro (h | ⟨other, hother, h⟩)
    · exact hstream h
    · exact hnowhere other hother h

theorem toList_mem_map {rows : List (String × Schema)} :
    stream.toList ∈ rows.map (·.1.toList) ↔ stream ∈ rows.map Prod.fst := by
  simp only [List.mem_map]
  constructor
  · rintro ⟨row, hrow, hkey⟩
    exact ⟨row, hrow, String.toList_inj.mp hkey⟩
  · rintro ⟨row, hrow, rfl⟩
    exact ⟨row, hrow, rfl⟩

theorem mem_inputStreams_program
    (hbodies : ∀ body ∈ assembler.registry.bodies, IsComplete body.toList)
    (hrows : ∀ row ∈ assembler.streams.rows, Schema.IsReadable row) (stream : String) :
    stream ∈ inputStreams assembler.program ↔
      (∃ body ∈ assembler.registry.bodies, stream ∈ inputStreams body) ∧
        stream ∉ assembler.streams.keys ∧
          ∀ body ∈ assembler.registry.bodies, stream.toList ∉ localNames body.toList := by
  have hbody : ∀ body, stream ∈ inputStreams body ↔ stream.toList ∈ inputNames body.toList :=
    fun body => mem_inputStreams
  rw [mem_inputStreams, toList_program, mem_inputNames_sequence hrows hbodies, toList_mem_map]
  simp only [hbody, Table.keys]

theorem result_all {σ : Type} (assembler : Assembler) (state : σ) :
    (assembler.all state).result =
      if assembler.registry.initialized then .ok assembler.program
      else .error (.unset "Execution plan") := by
  rw [Assembler.all, Assembler.checkInitialized]
  split <;> rfl

theorem all_result {σ : Type} (hinitialized : assembler.registry.initialized = true) (state : σ) :
    (assembler.all state).result = .ok assembler.program := by
  rw [result_all, if_pos hinitialized]

theorem subset_of_one_eq_ok (hplanner : assembler.planner = Query.enrich) {id text : String}
    (hrow : (id, body) ∈ assembler.registry.plans.rows)
    (hone : assembler.one (some id) = .ok text) :
    ∀ stream ∈ inputStreams body, stream ∈ assembler.streams.keys := by
  have hget : assembler.registry.get? (some id) = some body :=
    (assembler.registry.plans.mem_rows_iff id body).mp hrow
  have henrich : Query.enrich (some assembler.streams) (some body) (some id) = .ok text := by
    cases hcheck : assembler.checkInitialized with
    | ok checked =>
        simp only [Assembler.one, hcheck, required_some, bind, Except.bind] at hone
        rwa [hplanner, hget] at hone
    | error fault =>
        simp only [Assembler.one, hcheck, bind, Except.bind] at hone
        exact nomatch hone
  exact (enrich_eq_ok_iff.mp henrich).1

/-- The program of all plans reads the undefined streams that some plan reads, no schema is registered
for and no plan has of its own. If every plan can be completed by itself, it reads none. -/
theorem all_undefined {σ : Type} (assembler : Assembler)
    (hinitialized : assembler.registry.initialized = true)
    (hplanner : assembler.planner = Query.enrich)
    (hbodies : ∀ body ∈ assembler.registry.bodies, IsComplete body.toList)
    (hrows : ∀ row ∈ assembler.streams.rows, Schema.IsReadable row) (state : σ) :
    ∃ program, (assembler.all state).result = .ok program ∧
      (∀ stream, stream ∈ inputStreams program ↔
        (∃ body ∈ assembler.registry.bodies, stream ∈ inputStreams body) ∧
          stream ∉ assembler.streams.keys ∧
            ∀ body ∈ assembler.registry.bodies, stream.toList ∉ localNames body.toList) ∧
      ((∀ id ∈ assembler.registry.ids, ∃ text, assembler.one (some id) = .ok text) →
        inputStreams program = []) := by
  have hmem := mem_inputStreams_program hbodies hrows
  refine ⟨assembler.program, all_result hinitialized state, hmem, ?_⟩
  intro hone
  rw [List.eq_nil_iff_forall_not_mem]
  intro stream hstream
  obtain ⟨⟨body, hbody, hread⟩, hmissing, -⟩ := (hmem stream).mp hstream
  obtain ⟨⟨id, text⟩, hrow, rfl⟩ := List.mem_map.mp hbody
  obtain ⟨program, hprogram⟩ := hone id (List.mem_map.mpr ⟨(id, text), hrow, rfl⟩)
  exact hmissing (subset_of_one_eq_ok hplanner hrow hprogram stream hread)

/-- One plan reads a stream that only the other one fills, and one that nothing defines. -/
def marketPlans : Registry :=
  ((Registry.empty .shared).store "rises"
      "partition with (symbol of Ticks) begin from Ticks select symbol insert into Rises; end;").store
    "alerts" "from Rises as r join News on r.symbol == News.symbol select symbol insert into Alerts; "

def marketAssembler : Assembler := ⟨marketStreams.erase "News", marketPlans, Query.enrich⟩

theorem all_undefined_market :
    ∃ program, (marketAssembler.all ()).result = .ok program ∧
      "News" ∈ inputStreams program ∧ "Rises" ∉ inputStreams program ∧
        "Ticks" ∉ inputStreams program := by
  obtain ⟨program, hprogram, hmem, -⟩ :=
    all_undefined marketAssembler rfl rfl (by decide +kernel) (by decide +kernel) ()
  refine ⟨program, hprogram, ?_⟩
  rw [hmem, hmem, hmem]
  decide +kernel

end Plan

end EventOperator
