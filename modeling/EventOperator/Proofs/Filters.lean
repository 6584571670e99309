import EventOperator.Proofs.Query.Front
import EventOperator.Proofs.Query.Widening

/-!
Filters and what a query reads. A filter behind a source is as good as nothing, however deep its
brackets are nested, as long as it holds nothing at which a text is divided before filters are taken
out: no word that ends a clause, no semicolon and no comment.
-/

namespace EventOperator

open EventOperator.Text

namespace Query

variable {s rest front content behind : List Char} {depth : Nat}

theorem exists_of_depthAfter_succ (h : depthAfter (depth + 1) s = some 0) :
    ∃ u v, s = u ++ ']' :: v ∧ depthAfter depth u = some 0 ∧ depthAfter 0 v = some 0 := by
  induction s generalizing depth with
  | nil => exact absurd (Option.some.inj h) (Nat.succ_ne_zero depth)
  | cons c s ih =>
      rw [depthAfter] at h
      split at h
      · rename_i hclose
        rw [if_neg (Nat.succ_ne_zero depth), Nat.add_sub_cancel] at h
        cases depth with
        | zero => exact ⟨[], s, by rw [hclose]; rfl, rfl, h⟩
        | succ depth =>
            obtain ⟨u, v, rfl, hu, hv⟩ := ih h
            exact ⟨c :: u, v, rfl, by simpa [depthAfter, hclose] using hu, hv⟩
      · rename_i hclose
        split at h
        · rename_i hopen
          obtain ⟨u, v, rfl, hu, hv⟩ := ih h
          exact ⟨c :: u, v, rfl, by rw [depthAfter, if_neg hclose, if_pos hopen, hu], hv⟩
        · rename_i hopen
          obtain ⟨u, v, rfl, hu, hv⟩ := ih h
          exact ⟨c :: u, v, rfl, by rw [depthAfter, if_neg hclose, if_neg hopen, hu], hv⟩

theorem blankOut_filter?_group (hcontent : depthAfter 0 content = some 0) (v : List Char) :
    blankOut filter? ('[' :: (content ++ ']' :: v)) = ' ' :: blankOut filter? v :=
  blankOut_filter?_matched (afterMatching?_eq_some_iff.mpr ⟨content, rfl, hcontent⟩)

/-- Filters are taken out of both parts of a text, where none reaches from one into the other. -/
theorem blankOut_filter?_append {s : List Char} (hs : depthAfter 0 s = some 0) (v : List Char) :
    blankOut filter? (s ++ v) = blankOut filter? s ++ blankOut filter? v :=
  match s with
  | [] => rfl
  | c :: s => by
      rw [depthAfter] at hs
      by_cases hopen : c = '['
      · subst hopen
        rw [if_neg (by decide), if_pos rfl] at hs
        obtain ⟨group, rest, hsplit, hgroup, hrest⟩ := exists_of_depthAfter_succ hs
        rw [hsplit, List.cons_append, List.append_assoc, List.cons_append,
          blankOut_filter?_group hgroup, blankOut_filter?_group hgroup,
          blankOut_filter?_append hrest v, List.cons_append]
      · have hclose : c ≠ ']' := by
          rintro rfl
          simp at hs
        rw [if_neg hclose, if_neg hopen] at hs
        rw [List.cons_append, blankOut_filter?_unmatched (Or.inl hopen),
          blankOut_filter?_unmatched (Or.inl hopen), blankOut_filter?_append hs v, List.cons_append]
termination_by s.length
decreasing_by
  · simp only [hsplit, List.length_cons, List.length_append]
    omega
  · exact Nat.lt_succ_self s.length

theorem isWidened_filter (hfront : depthAfter 0 front = some 0)
    (hcontent : depthAfter 0 content = some 0) (hbehind : Breaks behind) :
    IsWidened (blankOut filter? (front ++ behind))
      (blankOut filter? (front ++ '[' :: (content ++ ']' :: behind))) := by
  rw [blankOut_filter?_append hfront, blankOut_filter?_append hfront,
    blankOut_filter?_group hcontent]
  have hgap : ∀ c ∈ [' '], isBlank c = true := by decide
  exact .intro _ hgap (hbehind.blankOut filter?)

theorem clauseSources_filter (hfront : depthAfter 0 front = some 0)
    (hcontent : depthAfter 0 content = some 0) (hbehind : Breaks behind) :
    clauseSources (front ++ '[' :: (content ++ ']' :: behind)) =
      clauseSources (front ++ behind) := by
  have hwidened := isWidened_filter hfront hcontent hbehind
  rw [clauseSources, clauseSources, bareClause_eq, bareClause_eq,
    captures_foldl_widened (List.Subset.refl noise) hwidened]

theorem IsClause.without_filter (h : IsClause (front ++ '[' :: (content ++ ']' :: behind)))
    (houtside : EndsOutside front) (hbehind : Breaks behind) :
    IsClause (front ++ behind) := by
  have hfilter : front ++ '[' :: (content ++ ']' :: behind) =
      front ++ ('[' :: (content ++ [']']) ++ behind) := by simp
  rw [hfilter] at h
  exact h.cut houtside rfl (Or.inr hbehind.isWordAt_head?) hbehind.ne_nil hbehind.isWordAt_head?

end Query

open Query

/-- A filter behind a source does not matter. Its brackets may be nested, and it holds no part of a
comment, no semicolon and no word with which a clause ends or a definition or partition begins, as
the clause as a whole does not. -/
theorem inputStreams_filter (front content behind rest : String)
    (hclause : IsClause (front ++ "[" ++ content ++ "]" ++ behind).toList)
    (hfront : depthAfter 0 front.toList = some 0) (hcontent : depthAfter 0 content.toList = some 0)
    (houtside : EndsOutside front.toList) (hbehind : Breaks behind.toList)
    (hrest : wordStands clauseEnds none rest.toList = true) :
    inputStreams ("from" ++ front ++ "[" ++ content ++ "]" ++ behind ++ rest) =
      inputStreams ("from" ++ front ++ behind ++ rest) := by
  have hfilter : (front ++ "[" ++ content ++ "]" ++ behind).toList =
      front.toList ++ '[' :: (content.toList ++ ']' :: behind.toList) := by simp
  rw [hfilter] at hclause
  have hcut := hclause.without_filter houtside hbehind
  have hwith := inputNames_front hclause hrest
  have hwithout := inputNames_front hcut hrest
  rw [clauseSources_filter hfront hcontent hbehind] at hwith
  have htext : ("from" ++ front ++ "[" ++ content ++ "]" ++ behind ++ rest).toList =
      keyword "from" ++
        (front.toList ++ '[' :: (content.toList ++ ']' :: behind.toList) ++ rest.toList) := by
    simp [keyword]
  have htext' : ("from" ++ front ++ behind ++ rest).toList =
      keyword "from" ++ (front.toList ++ behind.toList ++ rest.toList) := by
    simp [keyword]
  rw [inputStreams, inputStreams, htext, htext', hwith, hwithout]

theorem inputStreams_filter_market :
    inputStreams ("from" ++ " every e1=Ticks[price > 2] -> e2=Quotes" ++ "[" ++
        "price > e1[last].price and note == 'up, from News'" ++ "]" ++
        "<2:> -> not Halts for 5 sec " ++ "select e2.price insert into Rises;") =
      ["Ticks", "Quotes", "Halts"] :=
  (inputStreams_filter _ _ _ _ (by decide +kernel) (by decide +kernel) (by decide +kernel)
    (by decide +kernel) (by decide +kernel) (by decide +kernel)).trans (by decide +kernel)

/-- A word that ends a clause ends it in a filter as well, even in a text that the filter quotes.
The next source is lost, and a word of the text is taken for one. -/
theorem inputStreams_quoted_select :
    inputStreams ("from Ticks" ++ "[note == 'do not select']" ++
        " join News on Ticks.symbol == News.symbol select price insert into Rises;") =
      ["Ticks", "do"] ∧
    inputStreams ("from Ticks" ++
        " join News on Ticks.symbol == News.symbol select price insert into Rises;") =
      ["Ticks", "News"] := by
  decide +kernel

end EventOperator
