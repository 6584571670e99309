import EventOperator.Proofs.Query.Statement

/-!
Patterns and sequences. Events are chained by arrows, commas, `and` and `or`, and a chain in
parentheses is an element of another chain. A query over a chain reads the streams of its events.
-/

namespace EventOperator.Query

open EventOperator.Text

variable {rest : List Phrase}

inductive Separator
  | arrow
  | comma
  | and
  | or

/-- How often an event occurs: `<2:5>`, `+`, `*` or `?`. -/
inductive Quantifier
  | bounds (bounds : Bounds)
  | plus
  | star
  | question

mutual

inductive Chain
  | one (element : Element)
  | link (front : Chain) (separator : Separator) (element : Element)

inductive Element
  | mk (every : Bool) (atom : Atom)

/-- `alias = source filters quantifier`, `not source filters for n unit`, or a chain in
parentheses. -/
inductive Atom
  | event (name? : Option Name) (source : Source) (filters : List Filter)
      (quantifier? : Option Quantifier)
  | absent (source : Source) (filters : List Filter) (wait? : Option (Numeral × Name))
  | group (chain : Chain)

end

mutual

def Chain.sources : Chain → List Source
  | .one element => element.sources
  | .link front _ element => front.sources ++ element.sources

def Element.sources : Element → List Source
  | .mk _ atom => atom.sources

def Atom.sources : Atom → List Source
  | .event _ source _ _ => [source]
  | .absent source _ _ => [source]
  | .group chain => chain.sources

end

def Separator.toPhrase : Separator → Phrase
  | .arrow => .mark .arrow
  | .comma => .mark .comma
  | .and => .word (keyword "and") (by decide)
  | .or => .word (keyword "or") (by decide)

def Quantifier.toPhrase : Quantifier → Phrase
  | .bounds b => .count b
  | .plus => .mark .plus
  | .star => .mark .star
  | .question => .mark .question

def everyPhrases (every : Bool) : List Phrase :=
  if every then [.word (keyword "every") (by decide)] else []

def boundPhrases (bound? : Option (Numeral × Name)) : List Phrase :=
  (bound?.map fun bound => Phrase.timeBound bound.1 bound.2).toList

def filteredPhrases (source : Source) (filters : List Filter) : List Phrase :=
  .source source :: filters.map .filter

mutual

def Chain.phrases : Chain → List Phrase
  | .one element => element.phrases
  | .link front separator element => front.phrases ++ separator.toPhrase :: element.phrases

def Element.phrases : Element → List Phrase
  | .mk every atom => everyPhrases every ++ atom.phrases

def Atom.phrases : Atom → List Phrase
  | .event name? source filters quantifier? =>
      (name?.map Phrase.eventAlias).toList ++
        (filteredPhrases source filters ++ (quantifier?.map Quantifier.toPhrase).toList)
  | .absent source filters wait? =>
      .word (keyword "not") (by decide) :: (filteredPhrases source filters ++
        (wait?.map fun wait => Phrase.waiting wait.1 wait.2).toList)
  | .group chain => .opening :: (chain.phrases ++ [.closing])

end

theorem mayOpen_separator (separator : Separator) : separator.toPhrase.mayOpen = true := by
  cases separator <;> rfl

theorem separator_ne_opening (separator : Separator) : separator.toPhrase ≠ .opening := by
  cases separator <;> exact nofun

theorem isInner_filtered {source : Source} {filters : List Filter} :
    ∀ phrase ∈ filteredPhrases source filters, phrase.isInner = true ∧ phrase ≠ .opening := by
  intro phrase hphrase
  rcases List.mem_cons.mp hphrase with rfl | hphrase
  · exact ⟨rfl, nofun⟩
  · obtain ⟨filter, -, rfl⟩ := List.mem_map.mp hphrase
    exact ⟨rfl, nofun⟩

theorem isInner_quantifier (quantifier : Quantifier) :
    quantifier.toPhrase.isInner = true ∧ quantifier.toPhrase ≠ .opening := by
  cases quantifier <;> exact ⟨rfl, nofun⟩

theorem MayEnd.filtered {α : Type} {end? : Option α} {toPhrase : α → Phrase} (hrest : MayEnd rest)
    (hend : ∀ a, (toPhrase a).isInner = true ∧ toPhrase a ≠ .opening) (source : Source)
    (filters : List Filter) :
    MayEnd (filteredPhrases source filters ++ (end?.map toPhrase).toList ++ rest) := by
  apply hrest.append
  intro phrase hphrase
  rcases List.mem_append.mp hphrase with hphrase | hphrase
  · exact isInner_filtered phrase hphrase
  · obtain ⟨a, -, rfl⟩ := Option.map_eq_some_iff.mp (Option.mem_toList.mp hphrase)
    exact hend a

mutual

theorem Chain.isChain {rest : List Phrase} (chain : Chain) (hrest : MayEnd rest) :
    (chain.phrases ++ rest).IsChain Follows := by
  cases chain with
  | one element => exact element.isChain hrest
  | link front separator element =>
      have hbehind := isChain_cons_of_mayOpen (mayOpen_separator separator)
        (element.isChain hrest)
      rw [Chain.phrases, List.append_assoc]
      exact front.isChain ⟨hbehind, fun h => separator_ne_opening separator (Option.some.inj h)⟩

theorem Element.isChain {rest : List Phrase} (element : Element) (hrest : MayEnd rest) :
    (element.phrases ++ rest).IsChain Follows := by
  cases element with
  | mk every atom =>
      have hatom := atom.isChain hrest
      rw [Element.phrases, List.append_assoc]
      cases every with
      | false => exact hatom
      | true => exact isChain_cons_of_mayOpen rfl hatom

theorem Atom.isChain {rest : List Phrase} (atom : Atom) (hrest : MayEnd rest) :
    (atom.phrases ++ rest).IsChain Follows := by
  cases atom with
  | event name? source filters quantifier? =>
      have hevent : MayEnd (filteredPhrases source filters ++
          (quantifier?.map Quantifier.toPhrase).toList ++ rest) :=
        hrest.filtered isInner_quantifier source filters
      rw [Atom.phrases, List.append_assoc]
      cases name? with
      | none => exact hevent.isChain
      | some name =>
          have hnamed : MayEnd (.eventAlias name :: _) := hevent.cons rfl nofun
          exact hnamed.isChain
  | absent source filters wait? =>
      have hwait : ∀ wait : Numeral × Name, (Phrase.waiting wait.1 wait.2).isInner = true ∧
          Phrase.waiting wait.1 wait.2 ≠ .opening := fun _ => ⟨rfl, nofun⟩
      have habsent : MayEnd (filteredPhrases source filters ++
          (wait?.map fun wait => Phrase.waiting wait.1 wait.2).toList ++ rest) :=
        hrest.filtered hwait source filters
      exact isChain_cons_of_mayOpen rfl habsent.isChain
  | group chain =>
      have hclosing : MayEnd (.closing :: rest) := hrest.cons rfl nofun
      have hchain := chain.isChain hclosing
      rw [Atom.phrases, List.cons_append, List.append_assoc]
      exact isChain_cons_of_mayOpen rfl hchain

end

theorem filterMap_filtered (source : Source) (filters : List Filter) :
    (filteredPhrases source filters).filterMap Phrase.input? = [source].filterMap Source.input? := by
  have hnone : (filters.map Phrase.filter).filterMap Phrase.input? = [] := by
    simp [List.filterMap_map, Function.comp_def, Phrase.input?]
  rw [filteredPhrases, List.filterMap_cons, hnone]
  rfl

mutual

theorem Chain.filterMap_phrases (chain : Chain) :
    chain.phrases.filterMap Phrase.input? = chain.sources.filterMap Source.input? := by
  cases chain with
  | one element => exact element.filterMap_phrases
  | link front separator element =>
      have hseparator : separator.toPhrase.input? = none := by cases separator <;> rfl
      rw [Chain.phrases, Chain.sources, List.filterMap_append, List.filterMap_append,
        List.filterMap_cons_none hseparator, front.filterMap_phrases, element.filterMap_phrases]

theorem Element.filterMap_phrases (element : Element) :
    element.phrases.filterMap Phrase.input? = element.sources.filterMap Source.input? := by
  cases element with
  | mk every atom =>
      have hevery : (everyPhrases every).filterMap Phrase.input? = [] := by cases every <;> rfl
      rw [Element.phrases, Element.sources, List.filterMap_append, hevery, List.nil_append,
        atom.filterMap_phrases]

theorem Atom.filterMap_phrases (atom : Atom) :
    atom.phrases.filterMap Phrase.input? = atom.sources.filterMap Source.input? := by
  cases atom with
  | event name? source filters quantifier? =>
      have hname : (name?.map Phrase.eventAlias).toList.filterMap Phrase.input? = [] := by
        cases name? <;> rfl
      have hquantifier :
          (quantifier?.map Quantifier.toPhrase).toList.filterMap Phrase.input? = [] := by
        rcases quantifier? with _ | quantifier
        · rfl
        · cases quantifier <;> rfl
      rw [Atom.phrases, Atom.sources, List.filterMap_append, List.filterMap_append, hname,
        hquantifier, filterMap_filtered]
      simp
  | absent source filters wait? =>
      have hwait : (wait?.map fun wait => Phrase.waiting wait.1 wait.2).toList.filterMap
          Phrase.input? = [] := by
        cases wait? <;> rfl
      rw [Atom.phrases, Atom.sources, List.filterMap_cons_none rfl, List.filterMap_append, hwait,
        filterMap_filtered, List.append_nil]
  | group chain =>
      rw [Atom.phrases, Atom.sources, List.filterMap_cons_none rfl, List.filterMap_append,
        chain.filterMap_phrases]
      exact List.append_nil _

end

/-- `from chain [within n unit] select selection insert into target;`. -/
def Chain.statement (chain : Chain) (bound? : Option (Numeral × Name)) (selection : Plain)
    (target : Source) : Statement where
  phrases := chain.phrases ++ boundPhrases bound?
  selection := selection
  kind? := none
  target := target

theorem mayEnd_bound (bound? : Option (Numeral × Name)) : MayEnd (boundPhrases bound?) := by
  cases bound? with
  | none => exact ⟨.nil, nofun⟩
  | some bound => exact ⟨.singleton _, nofun⟩

end EventOperator.Query

namespace EventOperator

open Query

/-- A query over a chain reads exactly the streams of its events, in the order in which they are
first named. Inner streams and the target of the query are not read. -/
theorem inputStreams_chain {chain : Chain} {bound? : Option (Numeral × Name)} {selection : Plain}
    {target : Source} {body : String}
    (h : (chain.statement bound? selection target).WrittenAs body.toList)
    (hfree : IsCommentFree body.toList) :
    inputStreams body =
      ((chain.sources.filterMap Source.input?).filter (· ≠ target.chars)).eraseDups.map
        String.ofList := by
  have hchain := chain.isChain (mayEnd_bound bound?)
  have hbound : (boundPhrases bound?).filterMap Phrase.input? = [] := by cases bound? <;> rfl
  have hsources : (chain.statement bound? selection target).phrases.filterMap Phrase.input? =
      chain.sources.filterMap Source.input? := by
    rw [Chain.statement, List.filterMap_append, chain.filterMap_phrases, hbound, List.append_nil]
  rw [inputStreams, inputNames_of_written hchain h hfree, hsources]
  rfl

/-- `every ( e1 = Bids [price > 1] < 2 : > -> not Quotes for 5 sec ) and #Bids , Out` -/
def marketChain : Chain :=
  let bids : Name := ⟨"Bids".toList, by decide +kernel⟩
  let event : Atom := .event (some ⟨"e1".toList, by decide +kernel⟩) (.stream bids)
    [⟨"price > 1".toList, by decide +kernel, by decide +kernel⟩]
    (some (.bounds (.between (some ⟨"2".toList, by decide +kernel⟩) none)))
  let silence : Atom := .absent (.stream ⟨"Quotes".toList, by decide +kernel⟩) []
    (some (⟨"5".toList, by decide +kernel⟩, ⟨"sec".toList, by decide +kernel⟩))
  let group : Atom := .group (.link (.one (.mk false event)) .arrow (.mk false silence))
  .link (.link (.one (.mk true group)) .and (.mk false (.event none (.inner bids) [] none))) .comma
    (.mk false (.event none (.stream ⟨"Out".toList, by decide +kernel⟩) [] none))

def marketPattern : Statement :=
  marketChain.statement (some (⟨"1.5".toList, by decide +kernel⟩, ⟨"min".toList, by decide +kernel⟩))
    ⟨"e1.price".toList, by decide +kernel⟩ (.stream ⟨"Out".toList, by decide +kernel⟩)

theorem inputStreams_chain_market :
    inputStreams (String.ofList marketPattern.render) = ["Bids", "Quotes"] := by
  have htext := String.toList_ofList (l := marketPattern.render)
  have hwritten : marketPattern.WrittenAs (String.ofList marketPattern.render).toList := by
    rw [htext]
    exact marketPattern.writtenAs_render
  have hfree : IsCommentFree (String.ofList marketPattern.render).toList := by
    rw [htext]
    decide +kernel
  exact (inputStreams_chain hwritten hfree).trans (by decide +kernel)

end EventOperator
