import EventOperator.Proofs.Filters

/-!
Calls of windows and functions, and what a query reads. A call behind a source is as good as
nothing, as long as the calls among its arguments stand at the end: what is taken out for a call
ends at the first parenthesis that closes, and parentheses that are left over become blanks.
-/

namespace EventOperator

open EventOperator.Text

namespace Query

variable {c : Char} {s u v front behind tail rest : List Char} {depth : Nat}

/-- `#name(arguments)`. Behind the first parenthesis that closes in the arguments there are only
others that close, and blanks. -/
structure Call where
  name : List Char
  arguments : List Char
  isHandler : name ≠ [] ∧ ∀ c ∈ name, isHandlerChar c = true
  isBracketFree : IsBracketFree arguments
  closesLast : ∀ c ∈ arguments.dropWhile (· ≠ ')'), c = ')' ∨ isBlank c = true

namespace Call

variable {call : Call}

def chars (call : Call) : List Char := '#' :: (call.name ++ '(' :: (call.arguments ++ [')']))

theorem isBracketFree_chars (call : Call) : IsBracketFree call.chars := by
  have hname : IsBracketFree call.name :=
    ⟨fun hmem => absurd (call.isHandler.2 '[' hmem) (by decide),
      fun hmem => absurd (call.isHandler.2 ']' hmem) (by decide)⟩
  simp only [IsBracketFree, chars, List.mem_cons, List.mem_append, List.not_mem_nil, or_false,
    not_or]
  exact ⟨⟨by decide, hname.1, by decide, call.isBracketFree.1, by decide⟩, by decide, hname.2,
    by decide, call.isBracketFree.2, by decide⟩

theorem exists_leftover (call : Call) :
    ∃ u v, call.chars = u ++ v ∧ (∀ rest, Takes handler? u (v ++ rest) ()) ∧
      ∀ c ∈ v, c = ')' ∨ isBlank c = true := by
  have hinside : ')' ∉ call.arguments.takeWhile (· ≠ ')') := fun hmem => by
    simpa using List.all_eq_true.mp List.all_takeWhile ')' hmem
  have hsplit := List.takeWhile_append_dropWhile (p := (· ≠ ')')) (l := call.arguments)
  have hlast := call.closesLast
  generalize call.arguments.takeWhile (· ≠ ')') = inside at hinside hsplit
  have hstops := List.head?_dropWhile_not (· ≠ ')') call.arguments
  generalize call.arguments.dropWhile (· ≠ ')') = closing at hsplit hlast hstops
  refine ⟨'#' :: (call.name ++ '(' :: (inside ++ [')'])), (closing ++ [')']).tail, ?_, ?_, ?_⟩
  · have hclosing : closing ++ [')'] = ')' :: (closing ++ [')']).tail := by
      cases closing with
      | nil => rfl
      | cons c closing =>
          obtain rfl : c = ')' := by simpa using hstops
          rfl
    rw [chars, ← hsplit, List.append_assoc, hclosing]
    simp
  · exact fun rest => handler?_takes_call call.isHandler hinside _
  · intro c hc
    rcases List.mem_append.mp (List.mem_of_mem_tail hc) with hc | hc
    · exact hlast c hc
    · exact Or.inl (List.mem_singleton.mp hc)

end Call

theorem depthAfter_append (u v : List Char) (depth : Nat) :
    depthAfter depth (u ++ v) = (depthAfter depth u).bind (depthAfter · v) := by
  induction u generalizing depth with
  | nil => rfl
  | cons c u ih =>
      rw [List.cons_append, depthAfter, depthAfter]
      split
      · split
        · rfl
        · exact ih (depth - 1)
      · split
        · exact ih (depth + 1)
        · exact ih depth

theorem IsBracketFree.blankOut_filter?_eq (hs : IsBracketFree s) : blankOut filter? s = s := by
  induction s with
  | nil => rfl
  | cons c s ih =>
      obtain ⟨⟨hopen, -⟩, hrest⟩ := isBracketFree_cons.mp hs
      rw [blankOut_filter?_unmatched (Or.inl hopen), ih hrest]

theorem blankOut_handler?_append (hu : '#' ∉ u) (v : List Char) :
    blankOut handler? (u ++ v) = u ++ blankOut handler? v := by
  refine blankOut_of_scan_inl (handler?_blind.scan_append fun c hc s => handler?_beginsWith c s ?_)
  rintro rfl
  exact hu hc

/-- A text in front of a call: its brackets have partners, it holds no call itself, and no comment
begins with its end. -/
structure PrecedesCall (s : List Char) : Prop where
  balanced : depthAfter 0 s = some 0
  callFree : '#' ∉ s
  outside : EndsOutside s

instance (s : List Char) : Decidable (PrecedesCall s) :=
  decidable_of_iff (depthAfter 0 s = some 0 ∧ '#' ∉ s ∧ EndsOutside s)
    ⟨fun ⟨hbalanced, hfree, houtside⟩ => ⟨hbalanced, hfree, houtside⟩,
      fun h => ⟨h.balanced, h.callFree, h.outside⟩⟩

theorem PrecedesCall.append (hu : PrecedesCall u) (hv : PrecedesCall v) :
    PrecedesCall (u ++ v) where
  balanced := by rw [depthAfter_append, hu.balanced, Option.bind_some, hv.balanced]
  callFree := by simp [hu.callFree, hv.callFree]
  outside := by
    by_cases hne : v = []
    · rw [hne, List.append_nil]
      exact hu.outside
    · rw [EndsOutside, List.getLast?_append_of_ne_nil _ hne]
      exact hv.outside

/-- What is left of a clause without filters, handlers and parentheses. -/
def ungroupedClause (s : List Char) : List Char :=
  (blankOut handler? (blankOut filter? s)).map ungroupedChar

theorem bareClause_ungrouped (s : List Char) :
    bareClause s = (noise.drop 2).foldl (fun s p => blankOut p s) (ungroupedClause s) := by
  rw [bareClause_eq, ungroupedClause, ← blankOut_grouping?]
  rfl

theorem breaks_ungroupedClause (h : Breaks s) : Breaks (ungroupedClause s) := by
  rw [ungroupedClause, ← blankOut_grouping?]
  exact ((h.blankOut filter?).blankOut handler?).blankOut grouping?

theorem ungroupedClause_append (hu : PrecedesCall u) (v : List Char) :
    ungroupedClause (u ++ v) = (blankOut filter? u).map ungroupedChar ++ ungroupedClause v := by
  have hfree : '#' ∉ blankOut filter? u := fun hmem =>
    hu.callFree (mem_of_mem_blankOut hmem (by decide))
  rw [ungroupedClause, blankOut_filter?_append hu.balanced, blankOut_handler?_append hfree,
    List.map_append, ungroupedClause]

theorem exists_gap_of_call (call : Call) (v : List Char) :
    ∃ gap, (∀ c ∈ gap, isBlank c = true) ∧
      ungroupedClause (call.chars ++ v) = gap ++ ungroupedClause v := by
  obtain ⟨taken, leftover, hchars, htakes, hleftover⟩ := call.exists_leftover
  have hbrackets := call.isBracketFree_chars
  have hsharp : '#' ∉ leftover := fun hmem => by
    rcases hleftover '#' hmem with h | h
    · exact absurd h (by decide)
    · exact absurd h (by decide)
  have hclear : blankOut handler? (call.chars ++ blankOut filter? v) =
      ' ' :: (leftover ++ blankOut handler? (blankOut filter? v)) := by
    rw [hchars, List.append_assoc, blankOut_of_scan_inr (scan_take (htakes _) (handler?_blind _ _)),
      blankOut_handler?_append hsharp]
  refine ⟨' ' :: leftover.map ungroupedChar, ?_, ?_⟩
  · intro c hc
    rcases List.mem_cons.mp hc with rfl | hc
    · decide
    · obtain ⟨d, hd, rfl⟩ := List.mem_map.mp hc
      rw [ungroupedChar]
      split
      · decide
      · rename_i hparen
        exact (hleftover d hd).resolve_left fun hclose => hparen (by simp [hclose])
  · rw [ungroupedClause, blankOut_filter?_append hbrackets.depthAfter_eq,
      hbrackets.blankOut_filter?_eq, hclear, List.map_cons, List.map_append]
    rfl

theorem clauseSources_call (hfront : PrecedesCall front) (hbehind : Breaks behind) (call : Call) :
    clauseSources (front ++ (call.chars ++ behind)) = clauseSources (front ++ behind) := by
  obtain ⟨gap, hgap, hcall⟩ := exists_gap_of_call call behind
  have hwidened : IsWidened (ungroupedClause (front ++ behind))
      (ungroupedClause (front ++ (call.chars ++ behind))) := by
    rw [ungroupedClause_append hfront, ungroupedClause_append hfront, hcall]
    exact .intro _ hgap (breaks_ungroupedClause hbehind)
  rw [clauseSources, clauseSources, bareClause_ungrouped, bareClause_ungrouped,
    captures_foldl_widened (List.drop_subset 2 noise) hwidened]

theorem IsClause.without_call {call : Call} (h : IsClause (front ++ (call.chars ++ behind)))
    (houtside : EndsOutside front) (hbehind : Breaks behind) : IsClause (front ++ behind) :=
  h.cut houtside rfl (Or.inr hbehind.isWordAt_head?) hbehind.ne_nil hbehind.isWordAt_head?

/-- Texts, each with a call behind it, and the text behind the last call. -/
def withCalls : List (List Char × Call) → List Char → List Char
  | [], tail => tail
  | (text, call) :: calls, tail => text ++ (call.chars ++ withCalls calls tail)

def withoutCalls : List (List Char × Call) → List Char → List Char
  | [], tail => tail
  | (text, _) :: calls, tail => text ++ withoutCalls calls tail

/-- Between calls a text does not go on with a name, and behind the last one neither. -/
structure AreCalls (calls : List (List Char × Call)) (tail : List Char) : Prop where
  texts : ∀ piece ∈ calls, PrecedesCall piece.1 ∧ (piece.1 = [] ∨ Breaks piece.1)
  tail : Breaks tail

variable {calls : List (List Char × Call)} {piece : List Char × Call}

theorem AreCalls.of_cons (h : AreCalls (piece :: calls) tail) : AreCalls calls tail where
  texts := fun other hmem => h.texts other (List.mem_cons_of_mem piece hmem)
  tail := h.tail

theorem AreCalls.breaks (h : AreCalls calls tail) : Breaks (withCalls calls tail) := by
  cases calls with
  | nil => exact h.tail
  | cons piece calls =>
      obtain ⟨text, call⟩ := piece
      rw [withCalls]
      rcases (h.texts _ List.mem_cons_self).2 with hnil | ⟨c, v, hv, hc⟩
      · obtain rfl : text = [] := hnil
        exact ⟨'#', _, rfl, by decide⟩
      · obtain rfl : text = c :: v := hv
        exact ⟨c, _, rfl, hc⟩

theorem clauseSources_withCalls (h : AreCalls calls tail) (hfront : PrecedesCall front)
    (hclause : IsClause (front ++ withCalls calls tail)) :
    IsClause (front ++ withoutCalls calls tail) ∧
      clauseSources (front ++ withCalls calls tail) =
        clauseSources (front ++ withoutCalls calls tail) := by
  -- What stands in front of the calls grows: a text behind which the call is gone belongs to it.
  induction calls generalizing front with
  | nil => exact ⟨hclause, rfl⟩
  | cons piece calls ih =>
      obtain ⟨text, call⟩ := piece
      have hrest := h.of_cons
      have hfront' := hfront.append (h.texts _ List.mem_cons_self).1
      rw [withCalls, ← List.append_assoc] at hclause
      rw [withCalls, withoutCalls, ← List.append_assoc, ← List.append_assoc,
        clauseSources_call hfront' hrest.breaks]
      exact ih hrest hfront' (hclause.without_call hfront'.outside hrest.breaks)

end Query

open Query

/-- Calls behind sources do not matter, as long as calls among their arguments stand at the end. -/
theorem inputStreams_calls (calls : List (List Char × Call)) (tail rest : List Char)
    (hclause : IsClause (withCalls calls tail)) (hcalls : AreCalls calls tail)
    (hrest : wordStands clauseEnds none rest = true) :
    inputStreams (String.ofList (keyword "from" ++ (withCalls calls tail ++ rest))) =
      inputStreams (String.ofList (keyword "from" ++ (withoutCalls calls tail ++ rest))) := by
  have hnone : PrecedesCall [] := by decide
  obtain ⟨hwithout, hsources⟩ := clauseSources_withCalls hcalls hnone hclause
  rw [List.nil_append] at hwithout
  rw [List.nil_append, List.nil_append] at hsources
  rw [inputStreams, inputStreams, String.toList_ofList, String.toList_ofList,
    inputNames_front hclause hrest, inputNames_front hwithout hrest, hsources]

def marketWindow : Call where
  name := "window.timeBatch".toList
  arguments := "5 sec, math:floor(max(delay, 2 min) )".toList
  isHandler := by decide +kernel
  isBracketFree := by decide +kernel
  closesLast := by decide +kernel

theorem inputStreams_calls_market :
    inputStreams (String.ofList (keyword "from" ++
        (withCalls
          [(" Ticks[price > 2]".toList, marketWindow), (" as t join News".toList, marketWindow)]
          " as n on t.symbol == n.symbol ".toList ++ "select t.price insert into Rises;".toList))) =
      ["Ticks", "News"] :=
  (inputStreams_calls _ _ _ (by decide +kernel)
    ⟨by decide +kernel, by decide +kernel⟩ (by decide +kernel)).trans (by decide +kernel)

/-- A parenthesis that closes a call among the arguments ends what is taken out. The words behind it
are taken for sources. -/
theorem inputStreams_nested_call :
    inputStreams ("from Ticks" ++ "#window.timeBatch(math:floor(5), offset)" ++
        " select price insert into Rises;") = ["Ticks", "offset"] ∧
      inputStreams ("from Ticks" ++ " select price insert into Rises;") = ["Ticks"] := by
  decide +kernel

end EventOperator
