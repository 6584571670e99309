import EventOperator.Proofs.Query.Chain

/-!
Time bounds on chains in parentheses. A time bound is taken out with all that stands behind it, so a
query reads the streams that are named in front of its first time bound, and those that are named
behind it only if they are named in front of it as well.
-/

namespace EventOperator

open EventOperator.Text

namespace Query

variable {plain bounded front rest : List Phrase}

/-- The second list of phrases has time bounds behind some of the chains in parentheses. -/
inductive WithBounds : List Phrase → List Phrase → Prop
  | nil : WithBounds [] []
  | cons {plain bounded : List Phrase} (phrase : Phrase) :
      WithBounds plain bounded → WithBounds (phrase :: plain) (phrase :: bounded)
  | bound {plain bounded : List Phrase} (n : Numeral) (unit : Name) :
      WithBounds plain bounded →
        WithBounds (.closing :: plain) (.closing :: .timeBound n unit :: bounded)

namespace WithBounds

theorem refl (phrases : List Phrase) : WithBounds phrases phrases := by
  induction phrases with
  | nil => exact .nil
  | cons phrase rest ih => exact .cons phrase ih

theorem append_left (front : List Phrase) (h : WithBounds plain bounded) :
    WithBounds (front ++ plain) (front ++ bounded) := by
  induction front with
  | nil => exact h
  | cons phrase front ih => exact .cons phrase ih

theorem head?_eq (h : WithBounds plain bounded) : bounded.head? = plain.head? := by
  cases h <;> rfl

theorem isChain (h : WithBounds plain bounded) (hchain : plain.IsChain Follows) :
    bounded.IsChain Adjoins := by
  induction h with
  | nil => exact .nil
  | @cons plain bounded phrase h ih =>
      obtain ⟨hnext, hrest⟩ := List.isChain_cons.mp hchain
      rw [List.isChain_cons, h.head?_eq]
      exact ⟨fun next hmem => (hnext next hmem).adjoins, ih hrest⟩
  | @bound plain bounded n unit h ih =>
      obtain ⟨hnext, hrest⟩ := List.isChain_cons.mp hchain
      have hbehind : ∀ next ∈ plain.head?, Adjoins (.timeBound n unit) next := by
        intro next hmem
        exact ⟨fun hopening => absurd ((hnext next hmem).opening hopening) (by decide), nofun⟩
      rw [List.isChain_cons_cons, List.isChain_cons, h.head?_eq]
      exact ⟨⟨nofun, nofun⟩, hbehind, ih hrest⟩

theorem upToBound_isPrefix (h : WithBounds plain bounded) : upToBound bounded <+: plain := by
  induction h with
  | nil => exact List.prefix_refl []
  | @cons plain bounded phrase h ih =>
      cases hphrase : phrase.isTimeBound with
      | false =>
          rw [upToBound_cons hphrase]
          exact List.cons_prefix_cons.mpr ⟨rfl, ih⟩
      | true =>
          cases phrase with
          | timeBound n unit => exact List.nil_prefix
          | _ => exact nomatch hphrase
  | @bound plain bounded n unit h ih => exact List.cons_prefix_cons.mpr ⟨rfl, List.nil_prefix⟩

end WithBounds

theorem eraseDups_append_eq_iff {front behind : List (List Char)} :
    (front ++ behind).eraseDups = front.eraseDups ↔ ∀ name ∈ behind, name ∈ front := by
  constructor
  · intro h name hname
    rw [← List.mem_eraseDups, ← h, List.mem_eraseDups]
    exact List.mem_append_right front hname
  · intro h
    have hnone : behind.removeAll front = [] := by
      rw [List.removeAll, List.filter_eq_nil_iff]
      intro name hname
      simpa using h name hname
    rw [List.eraseDups_append, hnone, List.eraseDups_nil, List.append_nil]

theorem filterMap_statement (chain : Chain) (bound? : Option (Numeral × Name)) (selection : Plain)
    (target : Source) :
    (chain.statement bound? selection target).phrases.filterMap Phrase.input? =
      chain.sources.filterMap Source.input? := by
  have hbound : (boundPhrases bound?).filterMap Phrase.input? = [] := by cases bound? <;> rfl
  rw [Chain.statement, List.filterMap_append, chain.filterMap_phrases, hbound, List.append_nil]

end Query

open Query

/-- A query over a chain with time bounds reads the streams that are named in front of the first
time bound. So it reads what the query without them reads exactly if no other stream but the
target is named first behind a time bound. -/
theorem inputStreams_bounded {chain : Chain} {bound? : Option (Numeral × Name)} {selection : Plain}
    {target : Source} {phrases : List Phrase} {body plainBody : String}
    (hbounds : WithBounds (chain.statement bound? selection target).phrases phrases)
    (h : { chain.statement bound? selection target with phrases := phrases }.WrittenAs body.toList)
    (hfree : IsCommentFree body.toList)
    (hplain : (chain.statement bound? selection target).WrittenAs plainBody.toList)
    (hplainFree : IsCommentFree plainBody.toList) :
    inputStreams body =
        (((upToBound phrases).filterMap Phrase.input?).filter (· ≠ target.chars)).eraseDups.map
          String.ofList ∧
      (inputStreams body = inputStreams plainBody ↔
        ∀ name ∈ chain.sources.filterMap Source.input?,
          name ∈ (upToBound phrases).filterMap Phrase.input? ∨ name = target.chars) := by
  have hchain := chain.isChain (mayEnd_bound bound?)
  obtain ⟨behind, hsplit⟩ := hbounds.upToBound_isPrefix
  have hread := h.inputNames_eq hfree fun clause hclause =>
    clauseSources_upToBound (hbounds.isChain hchain) hclause
  have hreadPlain := inputNames_of_written hchain hplain hplainFree
  have hsources := filterMap_statement chain bound? selection target
  rw [← hsplit, List.filterMap_append] at hreadPlain hsources
  generalize (upToBound phrases).filterMap Phrase.input? = named at hread hreadPlain hsources ⊢
  generalize behind.filterMap Phrase.input? = hidden at hreadPlain hsources
  have hnames : inputStreams body = inputStreams plainBody ↔
      (named.filter (· ≠ target.chars)).eraseDups =
        (named.filter (· ≠ target.chars) ++ hidden.filter (· ≠ target.chars)).eraseDups := by
    rw [inputStreams, inputStreams, List.map_inj_right fun _ _ => String.ofList_injective, hread,
      hreadPlain, List.filter_append]
    rfl
  refine ⟨by rw [inputStreams, hread]; rfl, ?_⟩
  rw [hnames, eq_comm, eraseDups_append_eq_iff, ← hsources]
  constructor
  · intro hall name hname
    rcases List.mem_append.mp hname with hname | hname
    · exact Or.inl hname
    · by_cases htarget : name = target.chars
      · exact Or.inr htarget
      · have hread : name ∈ hidden.filter (· ≠ target.chars) :=
          List.mem_filter.mpr ⟨hname, by simpa using htarget⟩
        exact Or.inl (List.mem_filter.mp (hall name hread)).1
  · intro hall name hname
    obtain ⟨hhidden, htarget⟩ := List.mem_filter.mp hname
    have hne : name ≠ target.chars := by simpa using htarget
    have hnamed := (hall name (List.mem_append_right named hhidden)).resolve_right hne
    exact List.mem_filter.mpr ⟨hnamed, htarget⟩

/-- `from every ( … ) within 20 hours and #Bids , Out within 1.5 min select e1.price insert into Out;` -/
def marketSession : Statement :=
  { marketPattern with
    phrases := marketPattern.phrases.take 11 ++
      .timeBound ⟨"20".toList, by decide +kernel⟩ ⟨"hours".toList, by decide +kernel⟩ ::
        marketPattern.phrases.drop 11 }

theorem inputStreams_bounded_market :
    inputStreams (String.ofList marketSession.render) = ["Bids", "Quotes"] ∧
      inputStreams (String.ofList marketSession.render) =
        inputStreams (String.ofList marketPattern.render) := by
  have htext := String.toList_ofList (l := marketSession.render)
  have hplainText := String.toList_ofList (l := marketPattern.render)
  have hbounds : WithBounds marketPattern.phrases marketSession.phrases :=
    (WithBounds.bound _ _ (.refl (marketPattern.phrases.drop 11))).append_left
      (marketPattern.phrases.take 10)
  have hwritten : marketSession.WrittenAs (String.ofList marketSession.render).toList := by
    rw [htext]
    exact marketSession.writtenAs_render
  have hplain : marketPattern.WrittenAs (String.ofList marketPattern.render).toList := by
    rw [hplainText]
    exact marketPattern.writtenAs_render
  have hfree : IsCommentFree (String.ofList marketSession.render).toList := by
    rw [htext]
    decide +kernel
  have hplainFree : IsCommentFree (String.ofList marketPattern.render).toList := by
    rw [hplainText]
    decide +kernel
  obtain ⟨hread, hsame⟩ := inputStreams_bounded hbounds hwritten hfree hplain hplainFree
  exact ⟨hread.trans (by decide +kernel), hsame.mpr (by decide +kernel)⟩

/-- A time bound of a chain in parentheses hides what is named behind it. -/
theorem inputStreams_bounded_group :
    inputStreams ("from (e1=Ticks -> e2=News)" ++ " within 5 min" ++
        " -> e3=Quotes select e1.price insert into Rises;") = ["Ticks", "News"] ∧
      inputStreams ("from (e1=Ticks -> e2=News)" ++
        " -> e3=Quotes select e1.price insert into Rises;") = ["Ticks", "News", "Quotes"] := by
  decide +kernel

end EventOperator
