import EventOperator.Proofs.Query.Piece

/-!
Nests: phrases with inner queries in parentheses among them, which have nests of their own. A clause
ends at the first `select`, so what is read as one clause is the front of an outer nest and of the
inner ones that begin it, and what follows an inner query is read no more until another one begins.
-/

namespace EventOperator.Query

open EventOperator.Text

variable {c : Char} {s t u v x : List Char} {clause : List Piece} {clauses : List (List Piece)}

inductive Nest where
  | nil
  | phrase (p : Phrase) (rest : Nest)
  | query (word : FromWord) (inner : Nest) (selection : Plain) (rest : Nest)

theorem isLetters_return : IsLetters (keyword "return") := by decide

namespace Nest

/-- What stands between the sources of an inner query and the parenthesis that closes. -/
def selected (selection : Plain) : List Token :=
  [.keyword (keyword "select") isLetters_select, .plain selection,
    .keyword (keyword "return") isLetters_return]

def tokens : Nest → List Token
  | nil => []
  | phrase p rest => p.tokens ++ rest.tokens
  | query _ inner selection rest =>
      Phrase.opening.tokens ++ .keyword (keyword "from") isLetters_from ::
        (inner.tokens ++ (selected selection ++ (Phrase.closing.tokens ++ rest.tokens)))

/-- A text that consists of the tokens and of blanks, with the given words `from`. -/
inductive WrittenAs : Nest → List Char → Prop
  | nil {gap : List Char} : (∀ c ∈ gap, isBlank c = true) → WrittenAs .nil gap
  | phrase {p : Phrase} {rest : Nest} {u v : List Char} : Written p.tokens u →
      Apart u.getLast? v.head? → WrittenAs rest v → WrittenAs (.phrase p rest) (u ++ v)
  | query {word : FromWord} {inner rest : Nest} {selection : Plain} {u v x y z : List Char} :
      Written Phrase.opening.tokens u → WrittenAs inner v → Written (selected selection) x →
        Written Phrase.closing.tokens y → WrittenAs rest z →
          Apart word.chars.getLast? (v ++ x).head? → Apart v.getLast? x.head? →
            WrittenAs (.query word inner selection rest)
              (u ++ (word.chars ++ (v ++ (x ++ (y ++ z)))))

def sources : Nest → List (List Char)
  | nil => []
  | phrase p rest => p.input?.toList ++ rest.sources
  | query _ inner _ rest => inner.sources ++ rest.sources

def words : Nest → List FromWord
  | nil => []
  | phrase _ rest => rest.words
  | query word inner _ rest => word :: (inner.words ++ rest.words)

def front : Nest → List Piece
  | nil => []
  | phrase p rest => .phrase p :: rest.front
  | query word inner _ _ => .phrase .opening :: .word word :: inner.front

mutual

def later : Nest → List (List Piece)
  | nil => []
  | phrase _ rest => rest.later
  | query _ inner _ rest => inner.later ++ rest.within

/-- The clauses of a nest of which the front stands in no clause. -/
def within : Nest → List (List Piece)
  | nil => []
  | phrase _ rest => rest.within
  | query _ inner _ rest => inner.front :: (inner.later ++ rest.within)

end

/-- What is read as the name of a stream in a clause that is begun in front of the nest, and in
those behind it. -/
def read (n : Nest) : List (List Char) :=
  (n.front :: n.later).flatMap (List.filterMap Piece.name?)

/-- What is read where the nest stands in no clause. -/
def readWithin (n : Nest) : List (List Char) := n.within.flatMap (List.filterMap Piece.name?)

section

variable {n inner rest : Nest} {p : Phrase} {word : FromWord} {selection : Plain}
  {name : List Char}

theorem read_phrase : (phrase p rest).read = p.input?.toList ++ rest.read := by
  simp only [read, front, later, List.flatMap_cons, List.filterMap_cons, Piece.name?]
  cases p.input? <;> rfl

theorem read_query :
    (query word inner selection rest).read = word.chars :: (inner.read ++ rest.readWithin) := by
  simp only [read, readWithin, front, later, List.flatMap_cons, List.flatMap_append,
    List.append_assoc]
  rfl

theorem readWithin_query :
    (query word inner selection rest).readWithin = inner.read ++ rest.readWithin := by
  simp only [read, readWithin, within, List.flatMap_cons, List.flatMap_append, List.append_assoc]

theorem read_eq_sources (h : n.words = []) : n.read = n.sources := by
  induction n with
  | nil => rfl
  | phrase p rest ih => rw [read_phrase, ih h, sources]
  | query word inner selection rest => exact nomatch h

theorem mem_read_of_head? (h : word ∈ n.words.head?) : word.chars ∈ n.read := by
  induction n with
  | nil => exact nomatch h
  | phrase p rest ih =>
      rw [read_phrase]
      exact List.mem_append_right _ (ih h)
  | query first inner selection rest =>
      obtain rfl := Option.some.inj h
      rw [read_query]
      exact List.mem_cons_self

theorem mem_sources_or_mem_words :
    (name ∈ n.read → name ∈ n.sources ∨ ∃ word ∈ n.words, name = word.chars) ∧
      (name ∈ n.readWithin → name ∈ n.sources ∨ ∃ word ∈ n.words, name = word.chars) := by
  induction n with
  | nil => exact ⟨nofun, nofun⟩
  | phrase p rest ih =>
      rw [read_phrase, sources, List.mem_append, List.mem_append, or_assoc]
      exact ⟨Or.imp_right ih.1, fun h => Or.inr (ih.2 h)⟩
  | query word inner selection rest hinner hrest =>
      have hbegun : name ∈ inner.read ++ rest.readWithin →
          name ∈ (query word inner selection rest).sources ∨
            ∃ w ∈ inner.words ++ rest.words, name = w.chars := by
        intro h
        rw [sources, List.mem_append]
        rcases List.mem_append.mp h with h | h
        · rcases hinner.1 h with hsource | ⟨w, hw, hname⟩
          · exact Or.inl (Or.inl hsource)
          · exact Or.inr ⟨w, List.mem_append_left _ hw, hname⟩
        · rcases hrest.2 h with hsource | ⟨w, hw, hname⟩
          · exact Or.inl (Or.inr hsource)
          · exact Or.inr ⟨w, List.mem_append_right _ hw, hname⟩
      have hcons : (∃ w ∈ inner.words ++ rest.words, name = w.chars) →
          ∃ w ∈ word :: (inner.words ++ rest.words), name = w.chars := fun ⟨w, hw, hname⟩ =>
        ⟨w, List.mem_cons_of_mem word hw, hname⟩
      rw [read_query, readWithin_query, words, List.mem_cons]
      constructor
      · rintro (rfl | h)
        · exact Or.inr ⟨word, List.mem_cons_self, rfl⟩
        · exact (hbegun h).imp_right hcons
      · exact fun h => (hbegun h).imp_right hcons

theorem isName_of_mem_sources (h : name ∈ n.sources) : IsName name := by
  induction n with
  | nil => exact nomatch h
  | phrase p rest ih =>
      rcases List.mem_append.mp h with h | h
      · exact Phrase.isName_of_input? (Option.mem_toList.mp h)
      · exact ih h
  | query word inner selection rest hinner hrest =>
      exact (List.mem_append.mp h).elim hinner hrest

end

end Nest

theorem isWord_of_mem_symbol {h : isWord c = false ∧ c ≠ ';'} (hu : Written [symbol c h] u) :
    ∀ d ∈ u, isWord d = false := by
  obtain ⟨gap, gap', rfl, hgap, hgap'⟩ := hu.exists_singleton
  intro d hd
  rcases List.mem_append.mp hd with hd | hd
  · exact isWord_of_isBlank (hgap d hd)
  · rcases List.mem_append.mp hd with hd | hd
    · rw [List.mem_singleton.mp hd]
      exact h.1
    · exact isWord_of_isBlank (hgap' d hd)

theorem apart_symbol {h : isWord c = false ∧ c ≠ ';'} (hu : Written [symbol c h] u)
    (after : Option Char) : Apart u.getLast? after := by
  left
  cases hlast : u.getLast? with
  | none => rfl
  | some d => exact isWord_of_mem_symbol hu d (List.mem_of_getLast? hlast)

theorem apart_head?_symbol {h : isWord c = false ∧ c ≠ ';'} (hu : Written [symbol c h] u)
    (before : Option Char) (v : List Char) : Apart before (u ++ v).head? := by
  right
  have hnone := isWord_of_mem_symbol hu
  cases u with
  | nil =>
      obtain ⟨gap, gap', heq, -, -⟩ := hu.exists_singleton
      simp at heq
  | cons d u => exact hnone d List.mem_cons_self

theorem Written.ne_nil_of_keyword {word : List Char} {letters : IsLetters word}
    {tokens : List Token} (h : Written (.keyword word letters :: tokens) s) : s ≠ [] := by
  obtain ⟨gap, t, v, rfl, -, ht, -, -⟩ := h.exists_append
  simp [(isRun_of_toLower letters ht).1]

/-- What is read of the first text in front of the second one consists of the clauses. -/
def Clauses (clauses : List (List Piece)) (s v : List Char) : Prop :=
  ∃ texts, captures fromClause? s = texts ++ captures fromClause? v ∧
    List.Forall₂ ClauseText clauses texts

namespace Clauses

variable {more : List (List Piece)}

theorem trans (hfirst : Clauses clauses s t) (hsecond : Clauses more t v) :
    Clauses (clauses ++ more) s v := by
  obtain ⟨texts, hs, htexts⟩ := hfirst
  obtain ⟨texts', ht, htexts'⟩ := hsecond
  exact ⟨texts ++ texts', by rw [hs, ht, List.append_assoc], List.rel_append htexts htexts'⟩

theorem of_written {tokens : List Token} (hu : Written tokens u)
    (hnone : ∀ token ∈ tokens, ¬ token.IsKeyword (keyword "from"))
    (hap : Apart u.getLast? v.head?) : Clauses [] (u ++ v) v :=
  ⟨[], captures_of_scan_inl (fromClause?_wordwise.scan_append fromClause?_only
    (hu.not_spells (by decide) hnone) hap), .nil⟩

theorem of_symbol {h : isWord c = false ∧ c ≠ ';'} (hu : Written [symbol c h] u) (v : List Char) :
    Clauses [] (u ++ v) v :=
  of_written hu (by simp [symbol, Token.IsKeyword]) (apart_symbol hu _)

theorem flatMap_clauseSources (h : Clauses clauses s [])
    (hchain : ∀ clause ∈ clauses, clause.IsChain Piece.Precedes) :
    (captures fromClause? s).flatMap clauseSources =
      clauses.flatMap (List.filterMap Piece.name?) := by
  obtain ⟨texts, hs, htexts⟩ := h
  rw [hs, captures_nil, List.append_nil]
  clear hs
  induction htexts with
  | nil => rfl
  | cons hclause _ ih =>
      obtain ⟨hfirst, hrest⟩ := List.forall_mem_cons.mp hchain
      rw [List.flatMap_cons, List.flatMap_cons, hclause.clauseSources_eq hfirst, ih hrest]

end Clauses

/-- The text goes on with a clause, which a word ends, and with other clauses behind it. -/
def Continues (clause : List Piece) (clauses : List (List Piece)) (s v : List Char) : Prop :=
  ∃ u x, s = u ++ x ∧ ClauseText clause u ∧ Apart u.getLast? x.head? ∧
    wordStands clauseEnds none x = true ∧ Clauses clauses x v

namespace Continues

theorem trans {more : List (List Piece)} (h : Continues clause clauses s t)
    (hmore : Clauses more t v) : Continues clause (clauses ++ more) s v := by
  obtain ⟨u, x, rfl, hu, hap, hx, hclauses⟩ := h
  exact ⟨u, x, rfl, hu, hap, hx, hclauses.trans hmore⟩

theorem phrase {p : Phrase} (hu : Written p.tokens u) (hap : Apart u.getLast? s.head?)
    (h : Continues clause clauses s v) : Continues (.phrase p :: clause) clauses (u ++ s) v := by
  obtain ⟨front, x, rfl, hfront, hbetween, hx, hclauses⟩ := h
  refine ⟨u ++ front, x, by simp, .phrase hu (apart_head?_left hap) hfront, ?_, hx, hclauses⟩
  apply apart_getLast?_append hbetween
  rintro rfl
  exact hap

theorem word {word : FromWord} (hap : Apart word.chars.getLast? s.head?)
    (h : Continues clause clauses s v) :
    Continues (.word word :: clause) clauses (word.chars ++ s) v := by
  obtain ⟨front, x, rfl, hfront, hbetween, hx, hclauses⟩ := h
  refine ⟨word.chars ++ front, x, by simp,
    .word_append (apart_head?_left hap) hfront, ?_, hx, hclauses⟩
  apply apart_getLast?_append hbetween
  rintro rfl
  exact hap

theorem clauses_of_word {word : FromWord} (hap : Apart word.chars.getLast? s.head?)
    (h : Continues clause clauses s v) : Clauses (clause :: clauses) (word.chars ++ s) v := by
  obtain ⟨u, x, rfl, hu, hbetween, hx, texts, hcaptures, htexts⟩ := h
  refine ⟨u :: texts, ?_, .cons hu htexts⟩
  rw [captures_fromClause?_append word.spells hu.not_spells hx hap hbetween, hcaptures]
  rfl

end Continues

/-- A text that begins with the word `select` and has no clause. -/
def Selects (x : List Char) : Prop :=
  ∃ tokens, Written (.keyword (keyword "select") isLetters_select :: tokens) x ∧
    ∀ token ∈ tokens, ¬ token.IsKeyword (keyword "from")

theorem Selects.ne_nil (h : Selects x) : x ≠ [] := by
  obtain ⟨tokens, hx, -⟩ := h
  exact hx.ne_nil_of_keyword

theorem Selects.clauses_nil (h : Selects x) (hap : Apart x.getLast? v.head?) :
    Clauses [] (x ++ v) v := by
  obtain ⟨tokens, hx, hnone⟩ := h
  apply Clauses.of_written hx _ hap
  intro token htoken
  rcases List.mem_cons.mp htoken with rfl | htoken
  · exact fun h : keyword "select" = keyword "from" => absurd h (by decide)
  · exact hnone token htoken

theorem Selects.continues {gap : List Char} (h : Selects x) (hgap : ∀ c ∈ gap, isBlank c = true)
    (hap : Apart x.getLast? v.head?) : Continues [] [] (gap ++ (x ++ v)) v := by
  obtain ⟨tokens, hx, hnone⟩ := h
  obtain ⟨gap', t, rest, rfl, hgap', ht, hborder, hrest⟩ := hx.exists_append
  have hrun := isRun_of_toLower isLetters_select ht
  have htrest : Apart (t ++ rest).getLast? v.head? := apart_of_append hap
  have hselects : Selects (t ++ rest) := ⟨tokens, .cons_append ht hborder hrest, hnone⟩
  have hstands : wordStands clauseEnds none (t ++ rest ++ v) = true := by
    rw [List.append_assoc]
    apply (wordStands_run isLetters_clauseEnds rfl hrun _).mpr
    · exact ⟨keyword "select", by decide, spells_of_toLower ht⟩
    · exact border_of_apart hrun.isWordAt_getLast? (apart_head?_behind hborder htrest)
  have hblank := mem_blanks_append hgap hgap'
  exact ⟨gap ++ gap', t ++ rest ++ v, by simp, .nil hblank, apart_of_blanks hblank _, hstands,
    hselects.clauses_nil htrest⟩

namespace Nest

variable {n : Nest}

def render : Nest → List Char
  | nil => []
  | phrase p rest => Query.render p.tokens ++ rest.render
  | query word inner selection rest =>
      Query.render Phrase.opening.tokens ++ (word.chars ++ (inner.render ++
        (Query.render (selected selection) ++
          (Query.render Phrase.closing.tokens ++ rest.render))))

theorem isWordAt_head?_render (n : Nest) : isWordAt n.render.head? = false := by
  cases n with
  | nil => rfl
  | phrase p rest =>
      exact isWordAt_head?_append (isWordAt_head?_render rest) (Query.isWordAt_head?_render _)
  | query word inner selection rest => rfl

theorem writtenAs_render (n : Nest) : n.WrittenAs n.render := by
  induction n with
  | nil => exact .nil nofun
  | phrase p rest ih =>
      exact .phrase (written_render _) (Or.inr (isWordAt_head?_render rest)) ih
  | query word inner selection rest hinner hrest =>
      have hselected := Query.isWordAt_head?_render (selected selection)
      exact .query (written_render _) hinner (written_render _) (written_render _) hrest
        (Or.inr (isWordAt_head?_append hselected (isWordAt_head?_render inner)))
        (Or.inr hselected)

theorem not_isKeyword {word : List Char} (hword : word ∉ clauseWords)
    (hnone : word ∉ ["from", "select", "return"].map keyword) :
    ∀ token ∈ n.tokens, ¬ token.IsKeyword word := by
  simp only [List.map_cons, List.map_nil, List.mem_cons, List.not_mem_nil, or_false,
    not_or] at hnone
  obtain ⟨hfrom, hselect, hreturn⟩ := hnone
  induction n with
  | nil => exact nofun
  | phrase p rest ih =>
      intro token htoken
      rcases List.mem_append.mp htoken with htoken | htoken
      · exact Phrase.not_isKeyword hword token htoken
      · exact ih token htoken
  | query w inner selection rest hinner hrest =>
      intro token htoken
      simp only [tokens, selected, List.mem_cons, List.mem_append, List.not_mem_nil,
        or_false] at htoken
      rcases htoken with htoken | rfl | htoken | (rfl | rfl | rfl) | htoken | htoken
      · exact Phrase.not_isKeyword hword token htoken
      · exact fun h => hfrom h.symm
      · exact hinner token htoken
      · exact fun h => hselect h.symm
      · exact id
      · exact fun h => hreturn h.symm
      · exact Phrase.not_isKeyword hword token htoken
      · exact hrest token htoken

theorem selects_selected {selection : Plain} (hx : Written (selected selection) x) : Selects x := by
  refine ⟨_, hx, ?_⟩
  intro token htoken
  simp only [List.mem_cons, List.not_mem_nil, or_false] at htoken
  rcases htoken with rfl | rfl
  · exact id
  · exact fun h : keyword "return" = keyword "from" => absurd h (by decide)

theorem WrittenAs.written (h : n.WrittenAs s) : Written n.tokens s := by
  induction h with
  | nil hgap => exact .nil hgap
  | phrase hu hap _ ih => exact hu.append ih hap
  | @query word inner rest selection u t x y z hu _ hx hy _ hword hap hinner hrest =>
      have hne := (selects_selected hx).ne_nil
      have hbehind : Written (selected selection ++ (Phrase.closing.tokens ++ rest.tokens))
          (x ++ (y ++ z)) :=
        hx.append (hy.append hrest (apart_symbol hy _)) (apart_head?_symbol hy _ z)
      have hbody := hinner.append hbehind (apart_head?_of_ne_nil hne hap)
      have hborder := apart_head?_of_append hne hword (y ++ z)
      exact hu.append (.cons_append word.spells hborder hbody) (apart_symbol hu _)

/-- What is read of a text, in a clause that is begun in front of it and in no clause. -/
structure Reads (n : Nest) (s : List Char) : Prop where
  continues : ∀ x v, Selects x → Apart s.getLast? x.head? → Apart x.getLast? v.head? →
    Continues n.front n.later (s ++ (x ++ v)) v
  clauses : ∀ v, Apart s.getLast? v.head? → Clauses n.within (s ++ v) v

namespace Reads

variable {inner rest : Nest} {p : Phrase} {word : FromWord} {selection : Plain} {y z : List Char}

theorem nil {gap : List Char} (hgap : ∀ c ∈ gap, isBlank c = true) : nil.Reads gap where
  continues _ _ hx _ hap := hx.continues hgap hap
  clauses _ hap := .of_written (.nil hgap) nofun hap

theorem phrase (hu : Written p.tokens u) (hap : Apart u.getLast? t.head?) (h : rest.Reads t) :
    (phrase p rest).Reads (u ++ t) where
  continues x v hx hend hbetween := by
    have hborder := apart_head?_of_append hx.ne_nil (apart_head?_behind hap hend) v
    rw [List.append_assoc]
    exact (h.continues x v hx (apart_of_append hend) hbetween).phrase hu hborder
  clauses v hend := by
    have hskip := Clauses.of_written hu (Phrase.not_isKeyword (by decide))
      (apart_head?_behind hap hend)
    rw [List.append_assoc]
    exact hskip.trans (h.clauses v (apart_of_append hend))

/-- Behind the word `from` of an inner query its front is read up to its own `select`, which ends
the clause around it as well. What follows the query is then read in no clause. -/
theorem begun (hinner : inner.Reads t) (hx : Written (selected selection) x)
    (hy : Written Phrase.closing.tokens y) (hrest : rest.Reads z)
    (hap : Apart t.getLast? x.head?) (hend : Apart z.getLast? v.head?) :
    Continues inner.front (inner.later ++ rest.within) (t ++ (x ++ (y ++ (z ++ v)))) v := by
  have hfront := hinner.continues x (y ++ (z ++ v)) (selects_selected hx) hap
    (apart_head?_symbol hy _ _)
  exact hfront.trans ((Clauses.of_symbol hy _).trans (hrest.clauses v hend))

theorem query (hu : Written Phrase.opening.tokens u) (hinner : inner.Reads t)
    (hx : Written (selected selection) x) (hy : Written Phrase.closing.tokens y)
    (hrest : rest.Reads z) (hword : Apart word.chars.getLast? (t ++ x).head?)
    (hap : Apart t.getLast? x.head?) :
    (query word inner selection rest).Reads (u ++ (word.chars ++ (t ++ (x ++ (y ++ z))))) := by
  have hborder := apart_head?_of_append (selects_selected hx).ne_nil hword
  have hlast : ∀ {v : List Char},
      Apart (u ++ (word.chars ++ (t ++ (x ++ (y ++ z))))).getLast? v.head? →
        Apart z.getLast? v.head? := fun hend =>
    apart_of_append (apart_of_append (apart_of_append (apart_of_append (apart_of_append hend))))
  constructor
  · intro x' v hx' hend hbetween
    have hbehind := apart_head?_of_ne_nil (v := v) hx'.ne_nil (hlast hend)
    have hbegun := (begun hinner hx hy hrest hap hbehind).trans (hx'.clauses_nil hbetween)
    rw [List.append_nil] at hbegun
    simp only [List.append_assoc]
    exact (hbegun.word (hborder _)).phrase hu (apart_symbol hu _)
  · intro v hend
    have hbegun := begun hinner hx hy hrest hap (hlast hend)
    simp only [List.append_assoc]
    exact (Clauses.of_symbol hu _).trans (hbegun.clauses_of_word (hborder _))

end Reads

theorem WrittenAs.reads (h : n.WrittenAs s) : n.Reads s := by
  induction h with
  | nil hgap => exact .nil hgap
  | phrase hu hap _ ih => exact .phrase hu hap ih
  | query hu _ hx hy _ hword hap hinner hrest => exact .query hu hinner hx hy hrest hword hap

end Nest

end EventOperator.Query
