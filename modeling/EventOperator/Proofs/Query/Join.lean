import EventOperator.Proofs.Query.Statement

/-!
Plain queries and joins. A source may have filters, handlers and an alias, and each join may have a
condition. A query over joins reads the streams that are joined.
-/

namespace EventOperator.Query

open EventOperator.Text

variable {rest : List Phrase}

inductive Handle
  | filter (filter : Filter)
  | handler (handler : Handler)

structure Operand where
  source : Source
  handles : List Handle
  alias? : Option Name
  unidirectional : Bool

inductive JoinKind
  | plain
  | inner
  | leftOuter
  | rightOuter
  | fullOuter

structure Join where
  kind : JoinKind
  operand : Operand
  condition? : Option Condition

def Handle.toPhrase : Handle → Phrase
  | .filter f => .filter f
  | .handler h => .handler h

def Operand.phrases (operand : Operand) : List Phrase :=
  .source operand.source :: (operand.handles.map Handle.toPhrase ++
    ((operand.alias?.map Phrase.streamAlias).toList ++
      if operand.unidirectional then [.word (keyword "unidirectional") (by decide)] else []))

def outerJoin (side : List Char) (h : side ∈ plainWords) : List Phrase :=
  [.word side h, .word (keyword "outer") (by decide), .word (keyword "join") (by decide)]

def JoinKind.phrases : JoinKind → List Phrase
  | .plain => [.word (keyword "join") (by decide)]
  | .inner => [.word (keyword "inner") (by decide), .word (keyword "join") (by decide)]
  | .leftOuter => outerJoin (keyword "left") (by decide)
  | .rightOuter => outerJoin (keyword "right") (by decide)
  | .fullOuter => outerJoin (keyword "full") (by decide)

def Join.phrases (join : Join) : List Phrase :=
  join.kind.phrases ++ (join.operand.phrases ++ (join.condition?.map Phrase.condition).toList)

theorem isInner_operand (operand : Operand) :
    ∀ phrase ∈ operand.phrases, phrase.isInner = true ∧ phrase ≠ .opening := by
  intro phrase hphrase
  rcases List.mem_cons.mp hphrase with rfl | hphrase
  · exact ⟨rfl, nofun⟩
  rcases List.mem_append.mp hphrase with hphrase | hphrase
  · obtain ⟨handle, -, rfl⟩ := List.mem_map.mp hphrase
    cases handle <;> exact ⟨rfl, nofun⟩
  rcases List.mem_append.mp hphrase with hphrase | hphrase
  · obtain ⟨name, -, rfl⟩ := Option.map_eq_some_iff.mp (Option.mem_toList.mp hphrase)
    exact ⟨rfl, nofun⟩
  · split at hphrase
    · obtain rfl := List.mem_singleton.mp hphrase
      exact ⟨rfl, nofun⟩
    · exact absurd hphrase (by simp)

theorem isInner_kind (kind : JoinKind) :
    ∀ phrase ∈ kind.phrases, phrase.isInner = true ∧ phrase ≠ .opening := by
  intro phrase hphrase
  cases kind <;> simp only [JoinKind.phrases, outerJoin, List.mem_cons, List.not_mem_nil,
    or_false] at hphrase
  all_goals rcases hphrase with rfl | rfl | rfl <;> exact ⟨rfl, nofun⟩

theorem exists_joinWord (kind : JoinKind) :
    ∃ w h tail, kind.phrases = .word w h :: tail ∧ w ∈ joinWords := by
  cases kind <;> exact ⟨_, _, _, rfl, by decide⟩

/-- Phrases that may stand behind a join, even if it has a condition. -/
structure MayEndJoin (rest : List Phrase) : Prop where
  isChain : rest.IsChain Follows
  head : ∀ phrase ∈ rest.head?, ∃ w h, phrase = .word w h ∧ w ∈ joinWords

theorem MayEndJoin.mayEnd (hrest : MayEndJoin rest) : MayEnd rest where
  isChain := hrest.isChain
  closed := by
    intro h
    obtain ⟨w, hw, heq, -⟩ := hrest.head _ h
    exact nomatch heq

theorem MayEndJoin.condition (hrest : MayEndJoin rest) (condition? : Option Condition) :
    MayEnd ((condition?.map Phrase.condition).toList ++ rest) := by
  cases condition? with
  | none => exact hrest.mayEnd
  | some condition =>
      refine ⟨List.isChain_cons.mpr ⟨?_, hrest.isChain⟩, nofun⟩
      intro second hsecond
      exact ⟨fun h => absurd (h ▸ hsecond) hrest.mayEnd.closed,
        fun _ _ => hrest.head second hsecond, nofun⟩

theorem MayEndJoin.join (hrest : MayEndJoin rest) (join : Join) :
    MayEndJoin (join.phrases ++ rest) := by
  have hbehind := ((hrest.condition join.condition?).append (isInner_operand join.operand)).append
    (isInner_kind join.kind)
  rw [Join.phrases, List.append_assoc, List.append_assoc]
  refine ⟨hbehind.isChain, ?_⟩
  obtain ⟨w, hw, tail, hkind, hmem⟩ := exists_joinWord join.kind
  rw [hkind]
  intro phrase hphrase
  exact ⟨w, hw, (Option.some.inj hphrase).symm, hmem⟩

theorem mayEndJoin_flatMap (joins : List Join) : MayEndJoin (joins.flatMap Join.phrases) := by
  induction joins with
  | nil => exact ⟨.nil, nofun⟩
  | cons join joins ih =>
      rw [List.flatMap_cons]
      exact ih.join join

theorem filterMap_operand (operand : Operand) :
    operand.phrases.filterMap Phrase.input? = [operand.source].filterMap Source.input? := by
  have hhandles : (operand.handles.map Handle.toPhrase).filterMap Phrase.input? = [] := by
    rw [List.filterMap_map, List.filterMap_eq_nil_iff]
    intro handle _
    cases handle <;> rfl
  have halias : (operand.alias?.map Phrase.streamAlias).toList.filterMap Phrase.input? = [] := by
    cases operand.alias? <;> rfl
  have hword : (if operand.unidirectional then
      [Phrase.word (keyword "unidirectional") (by decide)] else []).filterMap Phrase.input? = [] := by
    split <;> rfl
  rw [Operand.phrases, List.filterMap_cons, List.filterMap_append, List.filterMap_append, hhandles,
    halias, hword]
  rfl

theorem filterMap_join (join : Join) :
    join.phrases.filterMap Phrase.input? = [join.operand.source].filterMap Source.input? := by
  have hkind : join.kind.phrases.filterMap Phrase.input? = [] := by cases join.kind <;> rfl
  have hcondition : (join.condition?.map Phrase.condition).toList.filterMap Phrase.input? = [] := by
    cases join.condition? <;> rfl
  rw [Join.phrases, List.filterMap_append, List.filterMap_append, hkind, hcondition,
    filterMap_operand, List.nil_append, List.append_nil]

theorem filterMap_joins (joins : List Join) :
    (joins.flatMap Join.phrases).filterMap Phrase.input? =
      (joins.map fun join => join.operand.source).filterMap Source.input? := by
  induction joins with
  | nil => rfl
  | cons join joins ih =>
      rw [List.flatMap_cons, List.filterMap_append, filterMap_join, ih, ← List.filterMap_append]
      rfl

/-- `from first joins select selection insert [kind events] into target;`. -/
def joinStatement (first : Operand) (joins : List Join) (selection : Plain) (kind? : Option Name)
    (target : Source) : Statement where
  phrases := first.phrases ++ joins.flatMap Join.phrases
  selection := selection
  kind? := kind?
  target := target

end EventOperator.Query

namespace EventOperator

open Query

/-- A query over any number of joins reads exactly the streams that are joined, in the order in which
they are first named. Inner streams and the target of the query are not read. -/
theorem inputStreams_join {first : Operand} {joins : List Join} {selection : Plain}
    {kind? : Option Name} {target : Source} {body : String}
    (h : (joinStatement first joins selection kind? target).WrittenAs body.toList)
    (hfree : IsCommentFree body.toList) :
    inputStreams body =
      (((first.source :: joins.map fun join => join.operand.source).filterMap
        Source.input?).filter (· ≠ target.chars)).eraseDups.map String.ofList := by
  have hchain := ((mayEndJoin_flatMap joins).mayEnd.append (isInner_operand first)).isChain
  have hsources : (joinStatement first joins selection kind? target).phrases.filterMap
      Phrase.input? =
        (first.source :: joins.map fun join => join.operand.source).filterMap Source.input? := by
    rw [joinStatement, List.filterMap_append, filterMap_operand, filterMap_joins,
      ← List.filterMap_append]
    rfl
  rw [inputStreams, inputNames_of_written hchain h hfree, hsources]
  rfl

def marketJoin : Statement :=
  let trades : Name := ⟨"Trades".toList, by decide +kernel⟩
  let name : Name := ⟨"t".toList, by decide +kernel⟩
  let filter : Filter := ⟨"volume > 2".toList, by decide +kernel, by decide +kernel⟩
  let window : Handler := ⟨"window.time".toList, "5 sec".toList, by decide +kernel,
    by decide +kernel, by decide +kernel, by decide +kernel⟩
  let condition : Condition := ⟨"(t.symbol == q)".toList, by decide +kernel, by decide +kernel⟩
  joinStatement ⟨.stream trades, [.filter filter, .handler window], some name, true⟩
    [⟨.leftOuter, ⟨.stream ⟨"Rates".toList, by decide +kernel⟩, [], none, false⟩, some condition⟩,
      ⟨.plain, ⟨.inner trades, [], none, false⟩, none⟩]
    ⟨"t.symbol".toList, by decide +kernel⟩ (some ⟨"expired".toList, by decide +kernel⟩)
    (.stream ⟨"Rises".toList, by decide +kernel⟩)

theorem inputStreams_join_market :
    inputStreams (String.ofList marketJoin.render) = ["Trades", "Rates"] := by
  have htext := String.toList_ofList (l := marketJoin.render)
  have hwritten : marketJoin.WrittenAs (String.ofList marketJoin.render).toList := by
    rw [htext]
    exact marketJoin.writtenAs_render
  have hfree : IsCommentFree (String.ofList marketJoin.render).toList := by
    rw [htext]
    decide +kernel
  exact (inputStreams_join hwritten hfree).trans (by decide +kernel)

end EventOperator
