import EventOperator.Proofs.Enrichment
import EventOperator.Proofs.Plan.History

/-!
The program of one plan. What comes of it follows from what has happened to the plan, and from the
schemas of the streams that the plan reads, but not from other plans or schemas.
-/

namespace EventOperator

open EventOperator.Query
open Identity

variable {streams others : Schema.Registry} {body : String}

def Schema.Registry.IsFirstMissing (streams : Schema.Registry) (body stream : String) : Prop :=
  ∃ front rest, inputStreams body = front ++ stream :: rest ∧
    (∀ earlier ∈ front, earlier ∈ streams.keys) ∧ stream ∉ streams.keys

namespace Query

theorem find?_unregistered_eq_some_iff {stream : String} :
    ((inputStreams body).find? fun stream => !streams.contains stream) = some stream ↔
      streams.IsFirstMissing body stream := by
  have hcontains : ∀ stream, (!streams.contains stream) = true ↔ stream ∉ streams.keys := by
    intro stream
    rw [Bool.not_eq_true', ← streams.contains_iff, Bool.not_eq_true]
  rw [List.find?_eq_some_iff_append, hcontains]
  simp only [Bool.not_not, streams.contains_iff, Schema.Registry.IsFirstMissing]
  constructor
  · rintro ⟨hmissing, front, rest, hsplit, hfront⟩
    exact ⟨front, rest, hsplit, hfront, hmissing⟩
  · rintro ⟨front, rest, hsplit, hfront, hmissing⟩
    exact ⟨hmissing, front, rest, hsplit, hfront⟩

theorem enrichBody_eq_error_iff {stream : String} :
    enrichBody streams body = .error (.undefinedStream stream none) ↔
      streams.IsFirstMissing body stream := by
  rw [← find?_unregistered_eq_some_iff, enrichBody]
  cases (inputStreams body).find? fun stream => !streams.contains stream with
  | some missing => simp
  | none => simp

theorem exists_of_enrichBody_eq_error {fault : Fault} (h : enrichBody streams body = .error fault) :
    ∃ stream, fault = .undefinedStream stream none := by
  rw [enrichBody] at h
  split at h
  · rename_i stream _
    exact ⟨stream, (Except.error.inj h).symm⟩
  · cases h

theorem definitionsOf_eq (streams : Schema.Registry) (body : String) :
    streams.definitionsOf (inputStreams body).contains =
      String.join ((selectedRows streams body).map fun row => row.2.definition row.1) := rfl

theorem enrichBody_of_registered (h : ∀ stream ∈ inputStreams body, stream ∈ streams.keys) :
    enrichBody streams body =
      .ok (String.join ((selectedRows streams body).map fun row => row.2.definition row.1)
        ++ body) := by
  rw [enrichBody, find?_unregistered_eq_none_iff.mpr h, definitionsOf_eq]

theorem selectedRows_sublist (streams : Schema.Registry) (body : String) :
    (selectedRows streams body).Sublist streams.rows :=
  List.filter_sublist

theorem selectedRows_nodup (streams : Schema.Registry) (body : String) :
    ((selectedRows streams body).map Prod.fst).Nodup :=
  ((selectedRows_sublist streams body).map Prod.fst).nodup streams.nodup

theorem mem_keys_selectedRows {stream : String} :
    stream ∈ (selectedRows streams body).map Prod.fst ↔
      stream ∈ streams.keys ∧ stream ∈ inputStreams body := by
  rw [List.mem_map, Table.keys, List.mem_map]
  constructor
  · rintro ⟨row, hrow, rfl⟩
    obtain ⟨hmem, hread⟩ := mem_selectedRows.mp hrow
    exact ⟨⟨row, hmem, rfl⟩, hread⟩
  · rintro ⟨⟨row, hmem, rfl⟩, hread⟩
    exact ⟨row, mem_selectedRows.mpr ⟨hmem, hread⟩, rfl⟩

theorem enrichBody_of_selectedRows_eq
    (h : selectedRows others body = selectedRows streams body) :
    enrichBody others body = enrichBody streams body := by
  have hmissing : ((inputStreams body).find? fun stream => !others.contains stream) =
      (inputStreams body).find? fun stream => !streams.contains stream := by
    rw [← List.head?_filter, ← List.head?_filter]
    apply congrArg List.head?
    apply List.filter_congr
    intro stream hread
    have hkeys : stream ∈ others.keys ↔ stream ∈ streams.keys := by
      have hothers : stream ∈ (selectedRows others body).map Prod.fst ↔
          stream ∈ others.keys ∧ stream ∈ inputStreams body := mem_keys_selectedRows
      rw [h, mem_keys_selectedRows] at hothers
      simpa [hread] using hothers.symm
    rw [Bool.eq_iff_iff, Bool.not_eq_true', Bool.not_eq_true', ← Bool.not_eq_true,
      ← Bool.not_eq_true, others.contains_iff, streams.contains_iff, hkeys]
  rw [enrichBody, enrichBody, hmissing, definitionsOf_eq, definitionsOf_eq, h]

end Query

namespace Plan

variable {r other : Registry} {h : List Change} {id : String} {id? : Option String}

def enriching (streams : Schema.Registry) (r : Registry) : Assembler := ⟨streams, r, Query.enrich⟩

theorem one_of_unset (hr : r.initialized = false) (id? : Option String) :
    (enriching streams r).one id? = .error (.unset "Execution plan") := by
  have hcheck : (enriching streams r).checkInitialized = .error (.unset "Execution plan") :=
    if_neg (by simp [enriching, hr])
  rw [Assembler.one, hcheck]
  rfl

theorem checkInitialized_enriching (hr : r.initialized = true) :
    (enriching streams r).checkInitialized = .ok () :=
  if_pos hr

theorem one_none (hr : r.initialized = true) :
    (enriching streams r).one none = .error (.nullArgument "id") := by
  rw [Assembler.one, checkInitialized_enriching hr]
  rfl

theorem one_of_absent (hr : r.initialized = true) (hget : r.get? (some id) = none) :
    (enriching streams r).one (some id) = .error (.undefinedPlan id) := by
  have henrich : Query.enrich (some streams) (r.get? (some id)) (some id) =
      .error (.undefinedPlan id) := by rw [hget]; rfl
  rw [Assembler.one, checkInitialized_enriching hr]
  exact henrich

theorem one_of_present (hr : r.initialized = true) (hget : r.get? (some id) = some body) :
    (enriching streams r).one (some id) = enrichBody streams body := by
  have henrich : Query.enrich (some streams) (r.get? (some id)) (some id) =
      enrichBody streams body := by rw [hget, enrich_eq_enrichBody]
  rw [Assembler.one, checkInitialized_enriching hr]
  exact henrich

theorem one_eq_unset_iff :
    (enriching streams r).one id? = .error (.unset "Execution plan") ↔ r.initialized = false := by
  constructor
  · intro hone
    cases hr : r.initialized with
    | false => rfl
    | true =>
        cases id? with
        | none =>
            rw [one_none hr] at hone
            exact nomatch hone
        | some id =>
            cases hget : r.get? (some id) with
            | none =>
                rw [one_of_absent hr hget] at hone
                exact nomatch hone
            | some body =>
                rw [one_of_present hr hget] at hone
                obtain ⟨stream, hstream⟩ := exists_of_enrichBody_eq_error hone
                exact nomatch hstream
  · exact fun hr => one_of_unset hr id?

theorem one_eq_nullArgument_iff (hr : r.initialized = true) :
    (enriching streams r).one id? = .error (.nullArgument "id") ↔ id? = none := by
  constructor
  · intro hone
    cases id? with
    | none => rfl
    | some id =>
        cases hget : r.get? (some id) with
        | none =>
            rw [one_of_absent hr hget] at hone
            exact nomatch hone
        | some body =>
            rw [one_of_present hr hget] at hone
            obtain ⟨stream, hstream⟩ := exists_of_enrichBody_eq_error hone
            exact nomatch hstream
  · rintro rfl
    exact one_none hr

theorem one_eq_undefinedPlan_iff (hr : r.initialized = true) :
    (enriching streams r).one (some id) = .error (.undefinedPlan id) ↔
      r.get? (some id) = none := by
  constructor
  · intro hone
    cases hget : r.get? (some id) with
    | none => rfl
    | some body =>
        rw [one_of_present hr hget] at hone
        obtain ⟨stream, hstream⟩ := exists_of_enrichBody_eq_error hone
        exact nomatch hstream
  · exact one_of_absent hr

/-- What comes of one plan depends on the flag, on the body of this plan and on the schemas of the
streams that it reads, with their order. -/
theorem one_eq_of_agree (hflag : other.initialized = r.initialized)
    (hget : other.get? id? = r.get? id?)
    (hrows : ∀ body, r.get? id? = some body →
      selectedRows others body = selectedRows streams body) :
    (enriching others other).one id? = (enriching streams r).one id? := by
  cases hr : r.initialized with
  | false => rw [one_of_unset hr, one_of_unset (hflag.trans hr)]
  | true =>
      cases id? with
      | none => rw [one_none hr, one_none (hflag.trans hr)]
      | some id =>
          cases hbody : r.get? (some id) with
          | none => rw [one_of_absent hr hbody, one_of_absent (hflag.trans hr) (hget.trans hbody)]
          | some body =>
              rw [one_of_present hr hbody, one_of_present (hflag.trans hr) (hget.trans hbody),
                enrichBody_of_selectedRows_eq (hrows body hbody)]

/-- The registry has come from an empty one by calls, with any supply of ids, and by travelling. A
copy has the history of what it was copied from. -/
inductive Registry.Reached : Registry → List Change → Prop where
  | empty (generator : Generator) : Registry.Reached (.empty generator) []
  | call {r : Registry} {h : List Change} (earlier : Registry.Reached r h) (supply : Supply)
      (call : Call) :
      Registry.Reached (call.perform ⟨r, supply⟩).state.registry
        ((Report.mk call (call.perform ⟨r, supply⟩).result).change?.toList ++ h)
  | moved {r : Registry} {h : List Change} (earlier : Registry.Reached r h) :
      Registry.Reached r.moved h

theorem Registry.Reached.follows (hr : r.Reached h) : r.Follows h := by
  induction hr with
  | empty generator => exact .empty generator
  | call _ supply call ih => exact follows_perform (d := ⟨_, supply⟩) ih call
  | moved _ ih => exact ⟨ih.get?_eq, ih.ordered, ih.initialized_iff⟩

theorem Registry.Reached.after {d : SuppliedRegistry} (hd : d.registry.Reached h)
    (calls : List Call) :
    (d.after calls).registry.Reached (history (d.reports calls) ++ h) := by
  induction calls generalizing d h with
  | nil => exact hd
  | cons call calls ih =>
      have hrest := ih (hd.call d.supply call)
      rwa [SuppliedRegistry.reports, history_cons, List.append_assoc]

/-- Whatever has happened to a registry, there is a program of one plan if plans were ever stored or
marked as there, an id is given, the plan is there now and all streams that it reads are registered;
else the first of these that fails is reported. The program has the definitions of the streams that
are read, in the order in which they are registered, and the plan behind them. Nothing else about
schemas and other plans matters. -/
theorem one_outcome (hr : r.Reached h) (streams : Schema.Registry) :
    let begun := Change.marked ∈ h ∨ ∃ id body, Change.stored id body ∈ h
    let one := (enriching streams r).one
    (∀ id?, one id? = .error (.unset "Execution plan") ↔ ¬ begun) ∧
      (begun →
        (∀ id?, one id? = .error (.nullArgument "id") ↔ id? = none) ∧
        (∀ id, one (some id) = .error (.undefinedPlan id) ↔ bodyOf? id h = none) ∧
        ∀ id body, bodyOf? id h = some body →
          (∀ stream, one (some id) = .error (.undefinedStream stream none) ↔
            streams.IsFirstMissing body stream) ∧
          ((∀ stream ∈ inputStreams body, stream ∈ streams.keys) →
            ∃ rows : List (String × Schema), rows.Sublist streams.rows ∧
              (rows.map Prod.fst).Nodup ∧
              (∀ stream, stream ∈ rows.map Prod.fst ↔ stream ∈ inputStreams body) ∧
              one (some id) =
                .ok (String.join (rows.map fun row => row.2.definition row.1) ++ body))) ∧
      ∀ (others : Schema.Registry) (other : Registry) (id? : Option String),
        other.initialized = r.initialized → other.get? id? = r.get? id? →
        (∀ body, r.get? id? = some body →
          (others.rows.filter fun row => (inputStreams body).contains row.1) =
            streams.rows.filter fun row => (inputStreams body).contains row.1) →
        (enriching others other).one id? = one id? := by
  have hfollows := hr.follows
  intro begun one
  have hget : ∀ id, r.get? (some id) = bodyOf? id h := hfollows.get?_eq
  have hinitialized_iff : r.initialized = true ↔ begun := hfollows.initialized_iff
  refine ⟨?_, ?_, ?_⟩
  · intro id?
    rw [one_eq_unset_iff, ← hinitialized_iff, Bool.not_eq_true]
  · intro hbegun
    have hinitialized : r.initialized = true := hinitialized_iff.mpr hbegun
    refine ⟨fun id? => one_eq_nullArgument_iff hinitialized, ?_, ?_⟩
    · intro id
      rw [one_eq_undefinedPlan_iff hinitialized, hget]
    · intro id body hbody
      have hone : one (some id) = enrichBody streams body :=
        one_of_present hinitialized ((hget id).trans hbody)
      rw [hone]
      refine ⟨fun stream => enrichBody_eq_error_iff, ?_⟩
      intro hregistered
      refine ⟨selectedRows streams body, selectedRows_sublist streams body,
        selectedRows_nodup streams body, ?_, enrichBody_of_registered hregistered⟩
      intro stream
      rw [mem_keys_selectedRows]
      exact and_iff_right_of_imp (hregistered stream)
  · exact fun others other id? hflag hbody hrows => one_eq_of_agree hflag hbody hrows

def marketQuotes : Schema.Registry :=
  Table.ofList
    [("Quotes", .fixed "define stream Quotes (price double);"), ("News", .fixed ""),
      ("Ticks", .fixed "define stream Ticks (symbol string);")]

def spreadPlan : String :=
  "from Ticks join Quotes on Ticks.symbol == Quotes.symbol select price insert into Spread;"

def spreadCalls : List Call :=
  [ .add (some spreadPlan) (some "spread"), .add (some "from News select *") (some "news"),
    .remove (some "spread"), .remove (some "news"), .update (some "spread") (some spreadPlan) ]

def spreadReached : SuppliedRegistry :=
  (SuppliedRegistry.opened .shared marketSupply).after spreadCalls

theorem one_outcome_market :
    (enriching marketQuotes spreadReached.registry).one none = .error (.nullArgument "id") ∧
      (enriching marketQuotes spreadReached.registry).one (some "news") =
        .error (.undefinedPlan "news") ∧
      (enriching (marketQuotes.erase "Quotes") spreadReached.registry).one (some "spread") =
        .error (.undefinedStream "Quotes" none) ∧
      (enriching (marketQuotes.erase "News") spreadReached.registry).one (some "spread") =
        (enriching marketQuotes spreadReached.registry).one (some "spread") := by
  have hreached := Registry.Reached.after (d := SuppliedRegistry.opened .shared marketSupply)
    (.empty .shared) spreadCalls
  obtain ⟨-, hbegun, hagree⟩ := one_outcome hreached marketQuotes
  obtain ⟨-, hless, -⟩ := one_outcome hreached (marketQuotes.erase "Quotes")
  have hstored : Change.stored "spread" spreadPlan ∈
      history ((SuppliedRegistry.opened .shared marketSupply).reports spreadCalls) ++ [] :=
    List.mem_cons_self
  obtain ⟨hnull, hundefined, -⟩ := hbegun (Or.inr ⟨_, _, hstored⟩)
  obtain ⟨-, -, hspread⟩ := hless (Or.inr ⟨_, _, hstored⟩)
  refine ⟨(hnull none).mpr rfl, (hundefined "news").mpr rfl, ?_, ?_⟩
  · exact ((hspread "spread" spreadPlan rfl).1 "Quotes").mpr
      ⟨["Ticks"], [], by decide +kernel⟩
  · refine hagree _ _ (some "spread") rfl rfl fun body hbody => ?_
    obtain rfl : spreadPlan = body := Option.some.inj hbody
    decide +kernel

end Plan

end EventOperator
