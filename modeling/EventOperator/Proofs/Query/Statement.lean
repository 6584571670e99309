import EventOperator.Proofs.Query.Cleared
import EventOperator.Proofs.Query.Insertion
import EventOperator.Proofs.Query.Sequence

/-!
Statements: a `from` clause, a selection and the target of the events. A statement reads the streams
that its clause names as sources, apart from its own target.
-/

namespace EventOperator.Query

open EventOperator.Text

variable {word i s u v text : List Char} {phrase : Phrase} {token : Token}

/-- `from phrases select selection insert [kind events] into target;`. -/
structure Statement where
  phrases : List Phrase
  selection : Plain
  kind? : Option Name
  target : Source

theorem isLetters_select : IsLetters (keyword "select") := by decide

namespace Statement

variable {q : Statement}

def clause (q : Statement) : List Token := q.phrases.flatMap Phrase.tokens

def lead (q : Statement) : List Token :=
  .keyword (keyword "from") isLetters_from ::
    (q.clause ++ [.keyword (keyword "select") isLetters_select, .plain q.selection])

def passage (q : Statement) : List Token :=
  kindTokens q.kind? ++ [.keyword (keyword "into") isLetters_into]

def front (q : Statement) : List Token :=
  q.lead ++ .keyword (keyword "insert") isLetters_insert :: q.passage

/-- Blanks may be left out wherever no two words meet, but for one place: where events of a certain
kind are inserted, blanks stand in front of the target even if it is an inner stream. -/
inductive WrittenAs (q : Statement) : List Char → Prop
  | intro {front behind last : List Char} : Written q.front front →
      Written [.plain q.target.plain] behind → Apart front.getLast? behind.head? →
        q.kind? = none ∨ isBlankAt behind.head? = true → (∀ c ∈ last, isBlank c = true) →
          q.WrittenAs (front ++ behind ++ ';' :: last)

def render (q : Statement) : List Char :=
  Query.render q.front ++ Query.render [.plain q.target.plain] ++ [';']

theorem writtenAs_render (q : Statement) : q.WrittenAs q.render :=
  .intro (written_render q.front) (written_render _) (Or.inr rfl) (Or.inr rfl) nofun

end Statement

theorem isLetters_clauseEnds : ∀ word ∈ clauseEnds, IsLetters word := by decide

theorem captures_fromClause?_append (hi : i.map Char.toLower = keyword "from")
    (hu : ∀ w ∈ words u, ∀ word ∈ clauseEnds, ¬ Spells word w)
    (hv : wordStands clauseEnds none v = true) (hap : Apart i.getLast? (u ++ v).head?)
    (hbetween : Apart u.getLast? v.head?) :
    captures fromClause? (i ++ (u ++ v)) = u :: captures fromClause? v := by
  have hrun := isRun_of_toLower isLetters_from hi
  have hclause := upToWord_append isLetters_clauseEnds hu hv hap hbetween
  have htakes : Takes fromClause? (i ++ u) v u := by
    refine ⟨by simp [hrun.1], ?_⟩
    rw [List.append_assoc, fromClause?_eq,
      borderBehind_run isLetters_from hrun (border_of_apart hrun.isWordAt_getLast? hap),
      if_pos (spells_of_toLower hi), hclause, List.drop_left]
  have hnext : fromClause? (i ++ u).getLast? v = fromClause? none v := by
    apply fromClause?_wordwise.eq_of_apart
    apply apart_getLast?_append hbetween
    rintro rfl
    exact hap
  rw [← List.append_assoc, captures_of_scan_inr (scan_take htakes hnext)]

theorem captures_fromClause? (hi : i.map Char.toLower = keyword "from")
    (hu : ∀ w ∈ words u, ∀ word ∈ clauseEnds, ¬ Spells word w)
    (hv : wordStands clauseEnds none v = true)
    (hnone : ∀ w ∈ words v, ¬ Spells (keyword "from") w)
    (hap : Apart i.getLast? (u ++ v).head?) (hbetween : Apart u.getLast? v.head?) :
    captures fromClause? (i ++ (u ++ v)) = [u] := by
  rw [captures_fromClause?_append hi hu hv hap hbetween,
    fromClause?_wordwise.captures_eq_nil fromClause?_only hnone]

theorem Phrase.keyword?_mem (h : phrase.keyword? = some word) : word ∈ clauseWords := by
  cases phrase with
  | word w hw =>
      obtain rfl := Option.some.inj h
      exact plainWords_subset _ hw
  | condition _ | timeBound _ _ | waiting _ _ | streamAlias _ =>
      obtain rfl := Option.some.inj h
      decide
  | _ => exact nomatch h

theorem Phrase.not_isKeyword (hword : word ∉ clauseWords) :
    ∀ token ∈ phrase.tokens, ¬ token.IsKeyword word := fun _ htoken hkeyword =>
  hword (keyword?_mem (keyword?_of_mem_tokens htoken hkeyword))

namespace Statement

variable {q : Statement}

theorem not_isKeyword_clause (hword : word ∉ clauseWords) :
    ∀ token ∈ q.clause, ¬ token.IsKeyword word := by
  intro token htoken
  obtain ⟨phrase, -, hmem⟩ := List.mem_flatMap.mp htoken
  exact Phrase.not_isKeyword hword token hmem

theorem not_isKeyword_passage (hevents : word ≠ keyword "events") (hinto : word ≠ keyword "into") :
    ∀ token ∈ q.passage, ¬ token.IsKeyword word := by
  intro token htoken hkeyword
  rcases List.mem_append.mp htoken with htoken | htoken
  · cases hkind : q.kind? with
    | none => simp [hkind, kindTokens] at htoken
    | some kind =>
        simp only [hkind, kindTokens, List.mem_cons, List.not_mem_nil, or_false] at htoken
        rcases htoken with rfl | rfl
        · exact hkeyword
        · exact hevents hkeyword.symm
  · obtain rfl := List.mem_singleton.mp htoken
    exact hinto hkeyword.symm

theorem not_isKeyword_lead (hword : word ∉ clauseWords) (hfrom : word ≠ keyword "from")
    (hselect : word ≠ keyword "select") : ∀ token ∈ q.lead, ¬ token.IsKeyword word := by
  intro token htoken hkeyword
  simp only [lead, List.mem_cons, List.mem_append, List.not_mem_nil, or_false] at htoken
  rcases htoken with rfl | htoken | rfl | rfl
  · exact hfrom hkeyword.symm
  · exact not_isKeyword_clause hword token htoken hkeyword
  · exact hselect hkeyword.symm
  · exact hkeyword

theorem not_isKeyword_of_lead {lead : List Token}
    (hlead : ∀ token ∈ lead, ¬ token.IsKeyword word)
    (hnone : word ∉ ["insert", "events", "into"].map keyword) :
    ∀ token ∈ lead ++ .keyword (keyword "insert") isLetters_insert :: q.passage ++
      [.plain q.target.plain], ¬ token.IsKeyword word := by
  intro token htoken
  simp only [List.map_cons, List.map_nil, List.mem_cons, List.not_mem_nil, or_false,
    not_or] at hnone
  obtain ⟨hinsert, hevents, hinto⟩ := hnone
  simp only [List.mem_append, List.mem_cons, List.not_mem_nil, or_false] at htoken
  rcases htoken with (htoken | rfl | htoken) | rfl
  · exact hlead token htoken
  · exact fun h => hinsert h.symm
  · exact not_isKeyword_passage hevents hinto token htoken
  · exact id

theorem passage_ne_nil (hpassage : Written q.passage u) : u ≠ [] := by
  obtain ⟨kind, z, rfl, -, hz, -⟩ := hpassage.split
  obtain ⟨gap, into, rest, rfl, -, hinto, -, -⟩ := hz.exists_append
  simp [(isRun_of_toLower isLetters_into hinto).1]

theorem exists_inserted? (ht : isWordAt i.getLast? = true) (hpassage : Written q.passage u)
    (htarget : Written [.plain q.target.plain] v) (hstart : Apart i.getLast? u.head?)
    (hap : Apart u.getLast? v.head?) (hspaced : q.kind? = none ∨ isBlankAt v.head? = true) :
    ∃ front back name?, u ++ v = front ++ back ∧ (∀ c ∈ back, isBlank c = true) ∧
      (afterBlanks? (front ++ back)).bind inserted? = name?.map (·, back) ∧
        (name? = some q.target.chars ∨ name? = none ∧ ∃ name, q.target = .inner name) := by
  obtain ⟨kind, z, rfl, hkind, hz, hbetween⟩ := hpassage.split
  obtain ⟨gap₁, into, gap₂, rfl, hgap₁, hinto, -, hgap₂⟩ := hz.exists_append
  obtain ⟨gap₃, back, rfl, hgap₃, hback⟩ := htarget.exists_singleton
  have hinto' := isRun_of_toLower isLetters_into hinto
  rw [q.target.plain_chars] at hap hspaced ⊢
  have hap' := apart_of_blanks_behind hgap₂.blanks_of_nil (apart_of_append hap)
  rw [← List.append_assoc] at hap'
  have hbetween' : Apart (kind ++ gap₁).getLast? into.head? :=
    apart_getLast?_append (apart_of_blanks hgap₁ _) fun hnil =>
      apart_head?_left (by rwa [hnil] at hbetween)
  have hstart' : Apart i.getLast? ((kind ++ gap₁) ++ into).head? :=
    apart_head?_left (v := gap₂) (by simpa using hstart)
  have hspaced' : q.kind? = none ∨ gap₂ ++ gap₃ ≠ [] := by
    refine hspaced.imp_right fun hblank hnil => ?_
    rw [(List.append_eq_nil_iff.mp hnil).2, List.nil_append, q.target.isBlankAt_head?] at hblank
    exact absurd hblank (by simp)
  have hread := inserted?_of_written ht (hkind.append_blanks hgap₁) hinto hstart' hbetween'
    (mem_blanks_append hgap₂.blanks_of_nil hgap₃) hback hap' hspaced'
  have hregroup : kind ++ gap₁ ++ (into ++ (gap₂ ++ gap₃ ++ (q.target.chars ++ back))) =
      kind ++ gap₁ ++ (into ++ (gap₂ ++ gap₃ ++ q.target.chars)) ++ back := by simp
  rw [hregroup] at hread
  have htext : kind ++ (gap₁ ++ (into ++ gap₂)) ++ (gap₃ ++ (q.target.chars ++ back)) =
      kind ++ gap₁ ++ (into ++ (gap₂ ++ gap₃ ++ q.target.chars)) ++ back := by simp
  by_cases hglued : gap₂ ++ gap₃ = []
  · rw [if_pos hglued] at hread
    rw [hglued, List.nil_append] at hap'
    have hinner := q.target.exists_inner (border_of_apart hinto'.isWordAt_getLast? hap')
    exact ⟨_, back, none, htext, hback, hread, Or.inr ⟨rfl, hinner⟩⟩
  · rw [if_neg hglued] at hread
    exact ⟨_, back, some q.target.chars, htext, hback, hread, Or.inl rfl⟩

theorem captures_insertion (hi : i.map Char.toLower = keyword "insert")
    (hpassage : Written q.passage u) (htarget : Written [.plain q.target.plain] v)
    (hstart : Apart i.getLast? u.head?) (hap : Apart u.getLast? v.head?)
    (hspaced : q.kind? = none ∨ isBlankAt v.head? = true) :
    captures insertedName? (i ++ (u ++ v)) = [q.target.chars] ∨
      captures insertedName? (i ++ (u ++ v)) = [] ∧ ∃ name, q.target = .inner name := by
  have hrun := isRun_of_toLower isLetters_insert hi
  have hborder : isWordAt (u ++ v).head? = false := by
    rw [List.head?_append_of_ne_nil _ (passage_ne_nil hpassage)]
    exact border_of_apart hrun.isWordAt_getLast? hstart
  have hnone : ∀ w ∈ words (u ++ v), ¬ Spells (keyword "insert") w := by
    apply (hpassage.append htarget hap).not_spells (by decide)
    intro token htoken
    rcases List.mem_append.mp htoken with htoken | htoken
    · exact not_isKeyword_passage (by decide) (by decide) token htoken
    · obtain rfl := List.mem_singleton.mp htoken
      exact id
  obtain ⟨front, back, name?, htext, hback, hread, hname⟩ :=
    exists_inserted? hrun.isWordAt_getLast? hpassage htarget hstart hap hspaced
  rw [htext] at hborder hnone ⊢
  rw [captures_insertedName? hi hborder hnone hback name? hread]
  rcases hname with rfl | ⟨rfl, hinner⟩
  · exact Or.inl rfl
  · exact Or.inr ⟨rfl, hinner⟩

def tokens (q : Statement) : List Token := q.front ++ [.plain q.target.plain]

theorem not_isKeyword (hword : word ∉ clauseWords)
    (hnone : word ∉ ["from", "select", "insert", "events", "into"].map keyword) :
    ∀ token ∈ q.tokens, ¬ token.IsKeyword word := by
  simp only [List.map_cons, List.mem_cons, not_or] at hnone
  obtain ⟨hfrom, hselect, hrest⟩ := hnone
  apply not_isKeyword_of_lead (not_isKeyword_lead hword hfrom hselect)
  simpa only [List.map_cons, List.mem_cons, not_or] using hrest

theorem captures_lead {lead : List Token} (hlead : Written lead s)
    (hnone : ∀ token ∈ lead, ¬ token.IsKeyword (keyword "insert"))
    (hap : Apart s.getLast? v.head?) :
    captures insertedName? (s ++ v) = captures insertedName? v :=
  captures_of_scan_inl (insertedName?_wordwise.scan_append insertedName?_only
    (hlead.not_spells (by decide) hnone) hap)

theorem mem_localNames_of_written {lead : List Token} {front behind last name : List Char}
    (hdefine : ∀ token ∈ lead, ¬ token.IsKeyword (keyword "define"))
    (hinsert : ∀ token ∈ lead, ¬ token.IsKeyword (keyword "insert"))
    (hfront : Written (lead ++ .keyword (keyword "insert") isLetters_insert :: q.passage) front)
    (htarget : Written [.plain q.target.plain] behind) (hap : Apart front.getLast? behind.head?)
    (hspaced : q.kind? = none ∨ isBlankAt behind.head? = true)
    (hlast : ∀ c ∈ last, isBlank c = true) (hname : IsRun name) :
    name ∈ localNames (front ++ behind ++ ';' :: last) ↔ name = q.target.chars := by
  have hlocal := localNames_blanks hlast
  have hdefined : captures definedName? (front ++ behind) = [] := by
    apply definedName?_stopsAt.toWordwise.captures_eq_nil definedName?_only
    exact (hfront.append htarget hap).not_spells (by decide)
      (not_isKeyword_of_lead hdefine (by decide))
  obtain ⟨lead, rest, rfl, hlead, hrest, hborder⟩ := hfront.split
  obtain ⟨gap, i, u, rfl, hgap, hi, hstart, hu⟩ := hrest.exists_append
  have hrun := isRun_of_toLower isLetters_insert hi
  have hlead' : Apart lead.getLast? (gap ++ (i ++ u) ++ behind).head? := by
    rwa [List.head?_append_of_ne_nil _ (by simp [hrun.1])]
  have hap' := apart_of_append (apart_of_append (apart_of_append hap))
  have hinsertion := captures_insertion hi hu htarget hstart hap' hspaced
  rw [mem_localNames_append, hlocal, localNames, hdefined, List.append_assoc,
    captures_lead hlead hinsert hlead', List.append_assoc, List.append_assoc,
    captures_blanks insertedName?_wordwise hgap]
  rcases hinsertion with hcaptures | ⟨hcaptures, inner, htarget⟩
  · simp [hcaptures]
  · have hne : name ≠ q.target.chars := by
      rintro rfl
      have hsharp := hname.2 '#' (by simp [htarget, Source.chars])
      exact absurd hsharp (by decide)
    simp [hcaptures, hne]

theorem WrittenAs.mem_localNames {name : List Char} (h : q.WrittenAs text) (hname : IsRun name) :
    name ∈ localNames text ↔ name = q.target.chars := by
  cases h with
  | intro hfront htarget hap hspaced hlast =>
      exact mem_localNames_of_written (not_isKeyword_lead (by decide) (by decide) (by decide))
        (not_isKeyword_lead (by decide) (by decide) (by decide)) hfront htarget hap hspaced hlast
        hname

def tail (q : Statement) : List Token :=
  .keyword (keyword "select") isLetters_select :: .plain q.selection ::
    .keyword (keyword "insert") isLetters_insert :: (q.passage ++ [.plain q.target.plain])

theorem tokens_eq (q : Statement) :
    q.tokens = .keyword (keyword "from") isLetters_from :: (q.clause ++ q.tail) := by
  simp [tokens, front, lead, tail]

theorem not_isKeyword_tail : ∀ token ∈ q.tail, ¬ token.IsKeyword (keyword "from") := by
  intro token htoken
  simp only [tail, List.mem_cons, List.mem_append, List.not_mem_nil, or_false] at htoken
  rcases htoken with rfl | rfl | rfl | htoken | rfl
  · exact fun h : keyword "select" = keyword "from" => absurd h (by decide)
  · exact id
  · exact fun h : keyword "insert" = keyword "from" => absurd h (by decide)
  · exact not_isKeyword_passage (by decide) (by decide) token htoken
  · exact id

theorem clauseEnds_disjoint : ∀ word ∈ clauseEnds, word ∈ reservedWords ∧ word ∉ clauseWords := by
  decide

theorem captures_clause (h : Written q.tokens s) :
    ∃ clause, captures fromClause? s = [clause] ∧ Written q.clause clause := by
  rw [tokens_eq] at h
  obtain ⟨gap, i, rest, rfl, hgap, hi, hap, hrest⟩ := h.exists_append
  obtain ⟨clause, tail, rfl, hclause, htail, hbetween⟩ := hrest.split
  have hfrom := htail.not_spells (by decide) not_isKeyword_tail
  obtain ⟨gap', select, behind, rfl, hgap', hselect, hborder, -⟩ := htail.exists_append
  have hclause' := hclause.append_blanks hgap'
  have hrun := isRun_of_toLower isLetters_select hselect
  refine ⟨clause ++ gap', ?_, hclause'⟩
  rw [words_append (apart_of_blanks hgap' _), words_blanks hgap', List.nil_append] at hfrom
  rw [← List.append_assoc clause] at hap ⊢
  rw [captures_blanks fromClause?_wordwise hgap]
  apply captures_fromClause? hi _ _ hfrom hap
  · apply apart_getLast?_append (apart_of_blanks hgap' _)
    intro hnil
    rwa [hnil] at hbetween
  · intro w hw word hword
    obtain ⟨hreserved, hnone⟩ := clauseEnds_disjoint word hword
    exact hclause'.not_spells hreserved (not_isKeyword_clause hnone) w hw
  · apply (wordStands_run isLetters_clauseEnds rfl hrun _).mpr
    · exact ⟨keyword "select", by decide, spells_of_toLower hselect⟩
    · exact border_of_apart hrun.isWordAt_getLast? hborder

theorem not_mem_semicolon {tokens : List Token} (h : Written tokens s) : ';' ∉ s := by
  apply h.not_mem isWord_semicolon isBlank_semicolon
  intro token htoken
  cases token with
  | keyword => exact id
  | plain text => exact text.isPlain.1

theorem referencedNames_of_written {tokens : List Token} {last : List Char} (h : Written tokens s)
    (hnone : ∀ token ∈ tokens, ¬ token.IsKeyword (keyword "partition"))
    (hlast : ∀ c ∈ last, isBlank c = true) :
    referencedNames (s ++ ';' :: last) = (captures fromClause? s).flatMap clauseSources := by
  have hkeys : captures partitionKeys? (s ++ ';' :: last) = [] := by
    have hborder : Apart s.getLast? (';' :: last).head? := Or.inr isWord_semicolon
    apply partitionKeys?_wordwise.captures_eq_nil partitionKeys?_only
    rw [words_append hborder, words_other isWord_semicolon, words_blanks hlast, List.append_nil]
    exact h.not_spells (by decide) hnone
  have hclauses : (statements (s ++ ';' :: last)).flatMap (captures fromClause?) =
      captures fromClause? s := by
    rw [statements_append, List.flatMap_append, clauses_blanks hlast, List.append_nil, statements,
      splitAt_of_not_mem (not_mem_semicolon h), List.flatMap_singleton]
  rw [referencedNames, hkeys, List.flatMap_nil, List.nil_append, ← List.flatMap_assoc, hclauses]

theorem WrittenAs.exists_clause (h : q.WrittenAs text) :
    ∃ clause, Written q.clause clause ∧ referencedNames text = clauseSources clause := by
  cases h with
  | @intro front behind last hfront htarget hap hspaced hlast =>
      have hbody : Written q.tokens (front ++ behind) := hfront.append htarget hap
      obtain ⟨clause, hcaptures, hclause⟩ := captures_clause hbody
      refine ⟨clause, hclause, ?_⟩
      rw [referencedNames_of_written hbody (not_isKeyword (by decide) (by decide)) hlast, hcaptures,
        List.flatMap_singleton]

theorem inputNames_of_mem_localNames {target : List Char} (hfree : IsCommentFree text)
    (hlocal : ∀ {name}, IsRun name → (name ∈ localNames text ↔ name = target)) :
    inputNames text = ((referencedNames text).filter (· ≠ target)).eraseDups := by
  have hfilter : (referencedNames text).filter (fun name => !(localNames text).contains name) =
      (referencedNames text).filter (· ≠ target) := by
    apply List.filter_congr
    intro name hname
    simp [hlocal (isRun_of_mem_referencedNames hname)]
  rw [inputNames, hfree.stripComments_eq, hfilter, distinct_eq_eraseDups]

/-- A statement reads the streams that its clause names as sources and that are not its target, in
the order in which they are first named. -/
theorem WrittenAs.inputNames_eq {sources : List (List Char)} (h : q.WrittenAs text)
    (hfree : IsCommentFree text)
    (hsources : ∀ clause, Written q.clause clause → clauseSources clause = sources) :
    inputNames text = (sources.filter (· ≠ q.target.chars)).eraseDups := by
  obtain ⟨clause, hclause, hnames⟩ := h.exists_clause
  rw [inputNames_of_mem_localNames hfree h.mem_localNames, hnames, hsources clause hclause]

end Statement

theorem inputNames_of_written {q : Statement} (hchain : q.phrases.IsChain Follows)
    (h : q.WrittenAs text) (hfree : IsCommentFree text) :
    inputNames text =
      ((q.phrases.filterMap Phrase.input?).filter (· ≠ q.target.chars)).eraseDups :=
  h.inputNames_eq hfree fun _ => clauseSources_of_written hchain

end EventOperator.Query
