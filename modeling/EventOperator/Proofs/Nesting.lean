import EventOperator.Proofs.Query.Nest

/-!
Statements with inner queries among their sources. A clause ends at the first `select`, which is the
one of an inner query, and the word `from` is no word of a clause. So without inner queries a
statement reads exactly its sources, and with them it reads the word `from` as well.
-/

namespace EventOperator

open EventOperator.Text
open EventOperator.Query

namespace Query

variable {text : List Char}

/-- `from nest select selection insert [kind events] into target;`. -/
structure NestedStatement where
  nest : Nest
  selection : Plain
  kind? : Option Name
  target : Source

namespace NestedStatement

variable {q : NestedStatement}

def ending (q : NestedStatement) : Statement where
  phrases := []
  selection := q.selection
  kind? := q.kind?
  target := q.target

def middle (q : NestedStatement) : List Token :=
  .keyword (keyword "select") isLetters_select :: .plain q.selection ::
    .keyword (keyword "insert") isLetters_insert :: q.ending.passage

inductive WrittenAs (q : NestedStatement) : List Char → Prop
  | intro {word : FromWord} {gap nest middle behind last : List Char} :
      (∀ c ∈ gap, isBlank c = true) → q.nest.WrittenAs nest → Written q.middle middle →
        Written [.plain q.target.plain] behind → Apart word.chars.getLast? (nest ++ middle).head? →
          Apart nest.getLast? middle.head? → Apart middle.getLast? behind.head? →
            q.kind? = none ∨ isBlankAt behind.head? = true → (∀ c ∈ last, isBlank c = true) →
              q.WrittenAs (gap ++ (word.chars ++ (nest ++ middle)) ++ behind ++ ';' :: last)

def lead (q : NestedStatement) : List Token :=
  .keyword (keyword "from") isLetters_from ::
    (q.nest.tokens ++ [.keyword (keyword "select") isLetters_select, .plain q.selection])

theorem not_isKeyword_lead {word : List Char} (hword : word ∉ clauseWords)
    (hnone : word ∉ ["from", "select", "return"].map keyword) :
    ∀ token ∈ q.lead, ¬ token.IsKeyword word := by
  intro token htoken
  simp only [lead, List.mem_cons, List.mem_append, List.not_mem_nil, or_false] at htoken
  rcases htoken with rfl | htoken | rfl | rfl
  · rintro rfl
    exact hnone (by decide)
  · exact Nest.not_isKeyword hword hnone token htoken
  · rintro rfl
    exact hnone (by decide)
  · exact id

theorem written_front {word : FromWord} {gap nest middle : List Char}
    (hgap : ∀ c ∈ gap, isBlank c = true) (hnest : q.nest.WrittenAs nest)
    (hmiddle : Written q.middle middle) (hword : Apart word.chars.getLast? (nest ++ middle).head?)
    (hap : Apart nest.getLast? middle.head?) :
    Written (q.lead ++ .keyword (keyword "insert") isLetters_insert :: q.ending.passage)
      (gap ++ (word.chars ++ (nest ++ middle))) := by
  have htokens : q.lead ++ .keyword (keyword "insert") isLetters_insert :: q.ending.passage =
      .keyword (keyword "from") isLetters_from :: (q.nest.tokens ++ q.middle) := by
    simp [lead, NestedStatement.middle]
  rw [htokens]
  exact .cons hgap word.spells hword (hnest.written.append hmiddle hap)

theorem apart_front {word : FromWord} {gap nest middle behind : List Char}
    (hmiddle : Written q.middle middle) (hbetween : Apart middle.getLast? behind.head?) :
    Apart (gap ++ (word.chars ++ (nest ++ middle))).getLast? behind.head? := by
  have hne := hmiddle.ne_nil_of_keyword
  rw [← List.append_assoc, ← List.append_assoc]
  exact apart_getLast?_of_ne_nil hne hbetween

theorem WrittenAs.mem_localNames {name : List Char} (h : q.WrittenAs text) (hname : IsRun name) :
    name ∈ localNames text ↔ name = q.target.chars := by
  cases h with
  | intro hgap hnest hmiddle htarget hword hap hbetween hspaced hlast =>
      exact q.ending.mem_localNames_of_written (not_isKeyword_lead (by decide) (by decide))
        (not_isKeyword_lead (by decide) (by decide))
        (written_front hgap hnest hmiddle hword hap) htarget (apart_front hmiddle hbetween)
        hspaced hlast hname

theorem WrittenAs.referencedNames_eq (h : q.WrittenAs text)
    (hchain : ∀ clause ∈ q.nest.front :: q.nest.later, clause.IsChain Piece.Precedes) :
    referencedNames text = q.nest.read := by
  cases h with
  | @intro word gap nest middle behind last hgap hnest hmiddle htarget hword hap hbetween _ hlast =>
      have hne := hmiddle.ne_nil_of_keyword
      have hbody := (written_front hgap hnest hmiddle hword hap).append htarget
        (apart_front hmiddle hbetween)
      have hlead : ∀ token ∈ q.lead, ¬ token.IsKeyword (keyword "partition") :=
        not_isKeyword_lead (by decide) (by decide)
      have hpartition := q.ending.not_isKeyword_of_lead hlead (by decide)
      have hselects : Selects (middle ++ behind) := by
        refine ⟨_, hmiddle.append htarget hbetween, ?_⟩
        exact fun token htoken => q.ending.not_isKeyword_tail token (List.mem_cons_of_mem _ htoken)
      have hbegun := hnest.reads.continues (middle ++ behind) [] hselects
        (apart_head?_of_ne_nil hne hap) (Or.inr rfl)
      rw [List.append_nil] at hbegun
      have hclauses := hbegun.clauses_of_word (apart_head?_of_append hne hword behind)
      rw [Statement.referencedNames_of_written hbody hpartition hlast, List.append_assoc,
        captures_blanks fromClause?_wordwise hgap, List.append_assoc, List.append_assoc]
      exact hclauses.flatMap_clauseSources hchain

theorem WrittenAs.inputNames_eq (h : q.WrittenAs text) (hfree : IsCommentFree text)
    (hchain : ∀ clause ∈ q.nest.front :: q.nest.later, clause.IsChain Piece.Precedes) :
    inputNames text = (q.nest.read.filter (· ≠ q.target.chars)).eraseDups := by
  rw [Statement.inputNames_of_mem_localNames hfree h.mem_localNames, h.referencedNames_eq hchain]

def render (q : NestedStatement) : List Char :=
  keyword "from" ++ (q.nest.render ++ Query.render q.middle) ++
    Query.render [.plain q.target.plain] ++ [';']

theorem writtenAs_render (q : NestedStatement) : q.WrittenAs q.render := by
  have hmiddle := isWordAt_head?_render q.middle
  exact @WrittenAs.intro q ⟨keyword "from", rfl⟩ [] _ _ _ [] nofun q.nest.writtenAs_render
    (written_render _) (written_render _)
    (Or.inr (isWordAt_head?_append hmiddle q.nest.isWordAt_head?_render)) (Or.inr hmiddle)
    (Or.inr rfl) (Or.inr rfl) nofun

end NestedStatement

theorem FromWord.not_isName (word : FromWord) : ¬ IsName word.chars := fun h =>
  h.2.2 ⟨keyword "from", by decide, spells_of_toLower word.spells⟩

theorem FromWord.ne_source (word : FromWord) (source : Source) : word.chars ≠ source.chars := by
  intro heq
  cases source with
  | stream name => exact word.not_isName (heq ▸ name.isName)
  | inner name =>
      have hsharp : '#' ∈ word.chars := heq ▸ List.mem_cons_self
      exact absurd (word.isAlpha '#' hsharp) (by decide)

end Query

/-- A statement with inner queries reads what is read of its clauses, without its target. It reads
its sources, those of inner queries included, just if it has no inner query. Otherwise it reads the
first inner word `from`, and besides such words nothing but sources. -/
theorem inputStreams_nested {q : NestedStatement} {body : String} (h : q.WrittenAs body.toList)
    (hfree : IsCommentFree body.toList)
    (hchain : ∀ clause ∈ q.nest.front :: q.nest.later, clause.IsChain Piece.Precedes) :
    inputStreams body =
        (q.nest.read.filter (· ≠ q.target.chars)).eraseDups.map String.ofList ∧
      (inputStreams body =
          (q.nest.sources.filter (· ≠ q.target.chars)).eraseDups.map String.ofList ↔
        q.nest.words = []) ∧
      (∀ word ∈ q.nest.words.head?, String.ofList word.chars ∈ inputStreams body) ∧
      ∀ stream ∈ inputStreams body,
        stream.toList ∈ q.nest.sources ∨ ∃ word ∈ q.nest.words, stream.toList = word.chars := by
  have hread : inputStreams body =
      (q.nest.read.filter (· ≠ q.target.chars)).eraseDups.map String.ofList := by
    rw [inputStreams, h.inputNames_eq hfree hchain]
  have hword : ∀ word ∈ q.nest.words.head?, String.ofList word.chars ∈ inputStreams body := by
    intro word hword
    rw [hread]
    apply List.mem_map_of_mem
    rw [List.mem_eraseDups]
    simp [q.nest.mem_read_of_head? hword, word.ne_source]
  refine ⟨hread, ⟨?_, ?_⟩, hword, ?_⟩
  · intro hsources
    cases hwords : q.nest.words with
    | nil => rfl
    | cons word words =>
        have hmem := hword word (by rw [hwords]; rfl)
        rw [hsources] at hmem
        obtain ⟨name, hname, heq⟩ := List.mem_map.mp hmem
        obtain rfl := String.ofList_injective heq
        have hsource := List.mem_of_mem_filter (List.mem_eraseDups.mp hname)
        exact absurd (Nest.isName_of_mem_sources hsource) word.not_isName
  · intro hnone
    rw [hread, Nest.read_eq_sources hnone]
  · intro stream hstream
    rw [hread] at hstream
    obtain ⟨name, hname, rfl⟩ := List.mem_map.mp hstream
    have hmem := List.mem_of_mem_filter (List.mem_eraseDups.mp hname)
    rw [String.toList_ofList]
    exact Nest.mem_sources_or_mem_words.1 hmem

/-- `from (from Ticks select price return) -> (from News select score return) select price
insert into Peaks;` -/
def marketNest : NestedStatement :=
  let word : FromWord := ⟨keyword "from", by decide +kernel⟩
  let ticks : Source := .stream ⟨"Ticks".toList, by decide +kernel⟩
  let news : Source := .stream ⟨"News".toList, by decide +kernel⟩
  { nest := .query word (.phrase (.source ticks) .nil) ⟨"price".toList, by decide +kernel⟩
      (.phrase (.mark .arrow)
        (.query word (.phrase (.source news) .nil) ⟨"score".toList, by decide +kernel⟩ .nil))
    selection := ⟨"price".toList, by decide +kernel⟩
    kind? := none
    target := .stream ⟨"Peaks".toList, by decide +kernel⟩ }

theorem inputStreams_nested_market :
    inputStreams (String.ofList marketNest.render) = ["from", "Ticks", "News"] := by
  have htext := String.toList_ofList (l := marketNest.render)
  have hwritten : marketNest.WrittenAs (String.ofList marketNest.render).toList := by
    rw [htext]
    exact marketNest.writtenAs_render
  have hfree : IsCommentFree (String.ofList marketNest.render).toList := by
    rw [htext]
    decide +kernel
  have hadmits : ∀ clause ∈ marketNest.nest.front :: marketNest.nest.later,
      ∀ piece ∈ clause, piece.admitsOpening = true := by decide +kernel
  exact (inputStreams_nested hwritten hfree fun clause hclause =>
    Piece.isChain_of_admitsOpening (hadmits clause hclause)).1.trans (by decide +kernel)

/-- The word `from` of an inner query is taken for a source, and what stands behind the query is not
read. -/
theorem inputStreams_inner_query :
    inputStreams "from (from A select x return) select y insert into Out;" = ["from", "A"] ∧
      inputStreams "from e1=(from A select x return) -> e2=B select y insert into Out;" =
        ["from", "A"] := by
  decide +kernel

end EventOperator
