import EventOperator.Proofs.Comments
import EventOperator.Proofs.Query.Statement
import EventOperator.Proofs.Text.Border

/-!
Queries that begin with a `from` clause. Whatever stands behind the clause, it adds the names of its
sources to what is read there, so two clauses with the same sources make the same queries.
-/

namespace EventOperator.Text

variable {keywords : List (List Char)} {a b : Char} {u v s : List Char}

theorem infix_append_apart (hu : u.getLast? ≠ some a) (h : [a, b] <:+: u ++ v) :
    [a, b] <:+: u ∨ [a, b] <:+: v := by
  induction u with
  | nil => exact Or.inr h
  | cons d u ih =>
      rcases List.infix_cons_iff.mp h with hfront | hrest
      · obtain ⟨rfl, hnext⟩ := List.cons_prefix_cons.mp hfront
        cases u with
        | nil => exact absurd rfl hu
        | cons e u =>
            obtain ⟨rfl, -⟩ := List.cons_prefix_cons.mp hnext
            exact Or.inl ⟨[], u, rfl⟩
      · cases u with
        | nil => exact Or.inr hrest
        | cons e u =>
            rw [List.getLast?_cons_cons] at hu
            exact (ih hu hrest).imp_left fun h => h.trans (List.suffix_cons d _).isInfix

theorem exists_run_of_wordStands (hletters : ∀ word ∈ keywords, IsLetters word)
    (h : wordStands keywords none s = true) :
    ∃ w v, s = w ++ v ∧ IsRun w ∧ isWordAt v.head? = false ∧ ∃ word ∈ keywords, Spells word w := by
  rw [wordStands, List.any_eq_true] at h
  obtain ⟨word, hword, hstands⟩ := h
  obtain ⟨v, hv⟩ := Option.isSome_iff_exists.mp hstands
  obtain ⟨-, hread, hborder⟩ := (afterWholeWord?_eq_some_iff (hletters word hword)).mp hv
  obtain ⟨w, rfl, hspells⟩ := exists_spelling hread
  exact ⟨w, v, rfl, hspells.isRun (hletters word hword), hborder, word, hword, hspells⟩

theorem splitAt_append_left {stop : Char} {part : List Char} {parts : List (List Char)}
    (hu : stop ∉ u) (hv : splitAt stop v = part :: parts) :
    splitAt stop (u ++ v) = (u ++ part) :: parts := by
  induction u with
  | nil => exact hv
  | cons c u ih =>
      rw [List.mem_cons, not_or] at hu
      have hne : c ≠ stop := fun h => hu.1 h.symm
      simp [splitAt, ih hu.2, hne]

theorem isWordAt_head?_splitAt {stop : Char} {part : List Char} {parts : List (List Char)}
    (hv : splitAt stop v = part :: parts) (hborder : isWordAt v.head? = false) :
    isWordAt part.head? = false := by
  cases v with
  | nil =>
      obtain ⟨rfl, -⟩ := List.cons.inj hv
      rfl
  | cons c v =>
      rw [splitAt] at hv
      split at hv
      · obtain ⟨rfl, -⟩ := List.cons.inj hv
        exact hborder
      · split at hv
        · obtain ⟨rfl, -⟩ := List.cons.inj hv
          rfl
        · obtain ⟨rfl, -⟩ := List.cons.inj hv
          exact hborder

end EventOperator.Text

namespace EventOperator.Query

open EventOperator.Text

variable {word w clause other rest s x m y : List Char}

/-- Words that end a clause, or with which a part of a query of another sort begins. -/
def breakingWords : List (List Char) := clauseEnds ++ ["define", "partition"].map keyword

/-- The text may stand between `from` and the word that ends its clause. -/
structure IsClause (s : List Char) : Prop where
  commentFree : IsCommentFree s
  undivided : ';' ∉ s
  quiet : ∀ w ∈ words s, ∀ word ∈ breakingWords, ¬ Spells word w
  nonempty : s ≠ []
  begins : isWordAt s.head? = false
  ends : isWordAt s.getLast? = false

instance (s : List Char) : Decidable (IsClause s) :=
  decidable_of_iff
    (IsCommentFree s ∧ ';' ∉ s ∧ (∀ w ∈ words s, ∀ word ∈ breakingWords, ¬ Spells word w) ∧
      s ≠ [] ∧ isWordAt s.head? = false ∧ isWordAt s.getLast? = false)
    ⟨fun ⟨hfree, hundivided, hquiet, hne, hbegins, hends⟩ =>
        ⟨hfree, hundivided, hquiet, hne, hbegins, hends⟩,
      fun h => ⟨h.commentFree, h.undivided, h.quiet, h.nonempty, h.begins, h.ends⟩⟩

theorem IsClause.cut (h : IsClause (x ++ (m ++ y))) (hx : EndsOutside x)
    (hm : isWordAt m.head? = false) (hmy : Apart m.getLast? y.head?) (hne : y ≠ [])
    (hy : isWordAt y.head? = false) : IsClause (x ++ y) where
  commentFree := by
    have hpart : ∀ {pair : List Char}, ¬ pair <:+: x ++ (m ++ y) →
        ¬ pair <:+: x ∧ ¬ pair <:+: y := fun hnone =>
      ⟨fun hinside => hnone (hinside.trans (List.prefix_append x (m ++ y)).isInfix),
        fun hinside => hnone (hinside.trans
          ((List.suffix_append m y).trans (List.suffix_append x (m ++ y))).isInfix)⟩
    obtain ⟨hline, hblock⟩ := h.commentFree
    constructor
    · exact fun hinside => (infix_append_apart hx.1 hinside).elim (hpart hline).1 (hpart hline).2
    · exact fun hinside => (infix_append_apart hx.2 hinside).elim (hpart hblock).1 (hpart hblock).2
  undivided := by
    have hnone := h.undivided
    simp only [List.mem_append, not_or] at hnone ⊢
    exact ⟨hnone.1, hnone.2.2⟩
  quiet := by
    intro w hw
    have hborder : isWordAt (m ++ y).head? = false := isWordAt_head?_append hy hm
    apply h.quiet w
    rw [words_append (Or.inr hborder), words_append hmy]
    rw [words_append (Or.inr hy)] at hw
    rcases List.mem_append.mp hw with hw | hw
    · exact List.mem_append_left _ hw
    · exact List.mem_append_right _ (List.mem_append_right _ hw)
  nonempty := fun hnil => hne (List.append_eq_nil_iff.mp hnil).2
  begins := by
    have hbegins := h.begins
    by_cases hxne : x = []
    · rwa [hxne]
    · rwa [List.head?_append_of_ne_nil _ hxne] at hbegins ⊢
  ends := by
    have hends := h.ends
    rw [← List.append_assoc, List.getLast?_append_of_ne_nil _ hne] at hends
    rwa [List.getLast?_append_of_ne_nil _ hne]

theorem ne_dash_and_stroke {c : Char} (hc : isWord c = true) : c ≠ '-' ∧ c ≠ '/' :=
  ⟨ne_of_holds hc (by decide), ne_of_holds hc (by decide)⟩

theorem wordStands_stripComments (h : wordStands clauseEnds none rest = true) :
    wordStands clauseEnds none (stripComments rest) = true := by
  obtain ⟨w, v, rfl, hw, hv, hspelt⟩ := exists_run_of_wordStands isLetters_clauseEnds h
  rw [stripComments_append fun c hc => ne_dash_and_stroke (hw.2 c hc)]
  refine (wordStands_run isLetters_clauseEnds rfl hw ?_).mpr hspelt
  cases hblank : isWordAt (stripComments v).head? with
  | false => rfl
  | true => simp [isWordAt_head?_blankOut comment? v hblank] at hv

theorem stripComments_front (hclause : IsClause clause)
    (hrest : wordStands clauseEnds none rest = true) :
    stripComments (keyword "from" ++ (clause ++ rest)) =
      keyword "from" ++ (clause ++ stripComments rest) := by
  obtain ⟨w, v, rfl, hw, -⟩ := exists_run_of_wordStands isLetters_clauseEnds hrest
  obtain ⟨c, w, rfl⟩ := List.exists_cons_of_ne_nil hw.1
  have hc := hw.2 c List.mem_cons_self
  have hstar : c ≠ '*' := ne_of_holds hc (by decide)
  have hfrom : ∀ d ∈ keyword "from", d ≠ '-' ∧ d ≠ '/' := by decide
  rw [stripComments_append hfrom, List.cons_append,
    hclause.commentFree.stripComments_append_cons (fun _ => (ne_dash_and_stroke hc).1) hstar]

theorem captures_front {β : Type} {p : Pattern β} (hp : p.Wordwise) (honly : p.Only (Spells word))
    (hword : word ∈ breakingWords) (hclause : IsClause clause) (s : List Char) :
    captures p (keyword "from" ++ (clause ++ s)) = captures p s := by
  have hfrom : ∀ word ∈ breakingWords, ∀ w ∈ words (keyword "from"), ¬ Spells word w := by
    decide
  have hstart : Apart (keyword "from").getLast? (clause ++ s).head? := by
    rw [List.head?_append_of_ne_nil _ hclause.nonempty]
    exact Or.inr hclause.begins
  have hin := hp.scan_append honly (fun w hw => hclause.quiet w hw word hword)
    (v := s) (Or.inl hclause.ends)
  rw [captures_of_scan_inl (hp.scan_append honly (hfrom word hword) hstart),
    captures_of_scan_inl hin]

theorem localNames_front (hclause : IsClause clause) (s : List Char) :
    localNames (keyword "from" ++ (clause ++ s)) = localNames s := by
  rw [localNames, localNames,
    captures_front definedName?_stopsAt.toWordwise definedName?_only (by decide) hclause,
    captures_front insertedName?_wordwise insertedName?_only (by decide) hclause]

theorem keyNames_front (hclause : IsClause clause) (s : List Char) :
    keyNames (keyword "from" ++ (clause ++ s)) = keyNames s := by
  rw [keyNames, keyNames,
    captures_front partitionKeys?_wordwise partitionKeys?_only (by decide) hclause]

theorem exists_statements_of_wordStands (hs : wordStands clauseEnds none s = true) :
    ∃ part parts, statements s = part :: parts ∧ wordStands clauseEnds none part = true := by
  obtain ⟨w, v, rfl, hw, hv, hspelt⟩ := exists_run_of_wordStands isLetters_clauseEnds hs
  obtain ⟨part, parts, hsplit⟩ := List.exists_cons_of_ne_nil (splitAt_ne_nil ';' v)
  have hnone : ';' ∉ w := fun hmem => absurd (hw.2 ';' hmem) (by decide)
  refine ⟨w ++ part, parts, splitAt_append_left hnone hsplit, ?_⟩
  exact (wordStands_run isLetters_clauseEnds rfl hw (isWordAt_head?_splitAt hsplit hv)).mpr hspelt

theorem clauseNames_front (hclause : IsClause clause) (hs : wordStands clauseEnds none s = true) :
    clauseNames (keyword "from" ++ (clause ++ s)) = clauseSources clause ++ clauseNames s := by
  obtain ⟨part, parts, hsplit, hpart⟩ := exists_statements_of_wordStands hs
  have hnone : ';' ∉ keyword "from" ++ clause := by
    rw [List.mem_append, not_or]
    exact ⟨by decide, hclause.undivided⟩
  have hfront : statements (keyword "from" ++ (clause ++ s)) =
      (keyword "from" ++ (clause ++ part)) :: parts := by
    rw [statements, ← List.append_assoc, splitAt_append_left hnone hsplit, List.append_assoc]
  have hstart : Apart (keyword "from").getLast? (clause ++ part).head? := by
    rw [List.head?_append_of_ne_nil _ hclause.nonempty]
    exact Or.inr hclause.begins
  have hquiet : ∀ w ∈ words clause, ∀ word ∈ clauseEnds, ¬ Spells word w :=
    fun w hw word hword => hclause.quiet w hw word (List.mem_append_left _ hword)
  have hcaptures := captures_fromClause?_append (i := keyword "from") (by decide) hquiet hpart
    hstart (Or.inl hclause.ends)
  rw [clauseNames, clauseNames, hfront, hsplit, List.flatMap_cons, List.flatMap_cons, hcaptures,
    List.flatMap_cons, List.append_assoc]

/-- The names that a text reads where `sources` are named in front of it. -/
def inputNamesBehind (sources : List (List Char)) (s : List Char) : List (List Char) :=
  distinct ((keyNames s ++ (sources ++ clauseNames s)).filter fun name =>
    !(localNames s).contains name)

/-- Only the sources of the clause at the front matter to what a query reads. -/
theorem inputNames_front (hclause : IsClause clause)
    (hrest : wordStands clauseEnds none rest = true) :
    inputNames (keyword "from" ++ (clause ++ rest)) =
      inputNamesBehind (clauseSources clause) (stripComments rest) := by
  rw [inputNames, inputNamesBehind, stripComments_front hclause hrest, referencedNames_eq,
    localNames_front hclause, keyNames_front hclause,
    clauseNames_front hclause (wordStands_stripComments hrest)]

end EventOperator.Query
