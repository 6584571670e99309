import EventOperator.Proofs.Query.Naming
import EventOperator.Proofs.Query.Reading
import EventOperator.Proofs.Query.Statement

/-!
The names that a query reads are words of its text. No step on the way to a name glues words
together or leaves a word in part, up to the last one, which passes over the front of a word that
begins with no letter.
-/

namespace EventOperator

open EventOperator.Text

namespace Query

variable {c : Char} {name w s t u v rest behind keys : List Char} {before : Option Char}
  {word : List Char} {keywords : List (List Char)} {patterns : List (Pattern Unit)}

theorem mem_words_stripComments (h : w ∈ words (stripComments s)) : w ∈ words s :=
  (comment?_reads.bordered.mem_words h).1

theorem mem_words_foldl (hpatterns : ∀ p ∈ patterns, p.Bordered)
    (h : w ∈ words (patterns.foldl (fun s p => blankOut p s) s)) : w ∈ words s := by
  induction patterns generalizing s with
  | nil => exact h
  | cons p patterns ih =>
      have hrest := ih (fun q hq => hpatterns q (List.mem_cons_of_mem p hq)) h
      exact ((hpatterns p List.mem_cons_self).mem_words hrest).1

theorem noise_bordered : ∀ p ∈ noise, p.Bordered := by
  intro p hp
  obtain ⟨read, hread⟩ := noise_reads p hp
  exact hread.bordered

theorem number?_ne_none (hw : IsRun w) (hdigit : w.head?.any isDigit = true) (v : List Char) :
    number? none (w ++ v) ≠ none := by
  cases w with
  | nil => exact absurd rfl hw.1
  | cons c w =>
      have hc : isDigit c = true := by simpa using hdigit
      rw [List.cons_append, number?_cons, isEdge_of_border rfl]
      simp [hc, isWord_of_isDigit hc]

theorem mem_words_bareClause (h : w ∈ words (bareClause s)) :
    w ∈ words s ∧ w.head?.any isDigit = false := by
  have hlast : bareClause s =
      blankOut number? (noise.dropLast.foldl (fun s p => blankOut p s) (blankOut filter? s)) := by
    rw [bareClause_eq]
    rfl
  rw [hlast] at h
  obtain ⟨hmem, v, -, hnone⟩ := number?_reads.bordered.mem_words h
  have hnoise := mem_words_foldl (fun p hp => noise_bordered p (List.dropLast_subset noise hp)) hmem
  refine ⟨(filter?_reads.bordered.mem_words hnoise).1, ?_⟩
  cases hdigit : w.head?.any isDigit with
  | false => rfl
  | true => exact absurd hnone (number?_ne_none (mem_words_iff.mp h).1 hdigit v)

theorem words_append_stop (hc : isWord c = false) (u v : List Char) :
    words (u ++ c :: v) = words u ++ words v := by
  have hap : Apart u.getLast? (c :: v).head? := Or.inr hc
  rw [words_append hap, words_other hc]

theorem mem_words_statements (ht : t ∈ statements s) (h : w ∈ words t) : w ∈ words s := by
  rw [statements] at ht
  induction s using split_induction ';' with
  | last u hu =>
      rw [splitAt_of_not_mem hu, List.mem_singleton] at ht
      exact ht ▸ h
  | next u s hu ih =>
      rw [splitAt_append hu] at ht
      rw [words_append_stop isWord_semicolon]
      rcases List.mem_cons.mp ht with rfl | ht
      · exact List.mem_append_left _ h
      · exact List.mem_append_right _ (ih ht)

theorem upToWord_append_fromWord (keywords : List (List Char)) (before : Option Char)
    (s : List Char) : upToWord keywords before s ++ fromWord keywords before s = s := by
  induction s generalizing before with
  | nil => rfl
  | cons c s ih =>
      rw [upToWord, fromWord]
      split
      · rfl
      · rw [List.cons_append, ih]

theorem mem_words_upToWord (hletters : ∀ word ∈ keywords, IsLetters word)
    (hs : isWordAt s.head? = false) (h : w ∈ words (upToWord keywords before s)) : w ∈ words s := by
  have hsplit := upToWord_append_fromWord keywords before s
  have hap : Apart (upToWord keywords before s).getLast? (fromWord keywords before s).head? := by
    rcases border_fromWord hletters before s with hhead | ⟨heq, -⟩ | ⟨u, c, heq, hc⟩
    · exact Or.inr hhead
    · rw [heq]
      exact Or.inr hs
    · have hu : upToWord keywords before s = u ++ [c] := by
        apply (List.append_left_inj (fromWord keywords before s)).mp
        rw [hsplit, List.append_assoc]
        exact heq
      rw [hu, List.getLast?_concat]
      exact Or.inl hc
  rw [← hsplit, words_append hap]
  exact List.mem_append_left _ h

theorem mem_words_clause (ht : t ∈ captures fromClause? s) (h : w ∈ words t) : w ∈ words s := by
  obtain ⟨u, v, more, rfl, hmatch⟩ := exists_match_of_mem_captures ht
  rw [fromClause?_eq] at hmatch
  obtain ⟨rest, hrest, hclause⟩ := Option.bind_eq_some_iff.mp hmatch
  obtain ⟨-, rfl⟩ := Prod.mk.inj (Option.some.inj hclause)
  obtain ⟨hu, hword, hhead⟩ := (afterWholeWord?_eq_some_iff isLetters_from).mp hrest
  obtain ⟨i, rfl, hspells⟩ := exists_spelling hword
  rw [words_append (Or.inl hu), words_append (Or.inr hhead)]
  exact List.mem_append_right _
    (List.mem_append_right _ (mem_words_upToWord isLetters_clauseEnds hhead h))

theorem exists_of_afterKeys? (h : afterKeys? s = some rest) : ∃ v, s = ')' :: (v ++ rest) := by
  unfold afterKeys? at h
  split at h
  · obtain ⟨v, hv⟩ := (shrinks_afterWord? h).trans (List.dropWhile_suffix isBlank)
    exact ⟨v, by rw [hv]⟩
  · cases h

theorem exists_of_keys? (h : keys? s = some (keys, rest)) :
    ∃ v, s = keys ++ ')' :: (v ++ rest) := by
  induction s generalizing keys rest with
  | nil => cases h
  | cons c s ih =>
      rw [keys?] at h
      cases hclose : afterKeys? (c :: s) with
      | some behind =>
          rw [hclose] at h
          obtain ⟨rfl, rfl⟩ := Prod.mk.inj (Option.some.inj h)
          exact exists_of_afterKeys? hclose
      | none =>
          rw [hclose] at h
          obtain ⟨⟨later, behind⟩, hlater, heq⟩ := Option.map_eq_some_iff.mp h
          obtain ⟨rfl, rfl⟩ := Prod.mk.inj heq
          obtain ⟨v, rfl⟩ := ih hlater
          exact ⟨v, rfl⟩

def partitionEnd? : Reader :=
  afterWord? (keyword "partition") >=> afterBlanks? >=> afterWord? (keyword "with") >=>
    pastTo? isBlank '('

theorem afterPartition?_eq : afterPartition? = partitionEnd? := by
  funext s
  simp only [afterPartition?, Option.bind_assoc]
  rfl

theorem stops_partitionEnd? : Stops partitionEnd? :=
  (((stops_pastTo? (by decide)).kleisli shrinks_afterWord?).kleisli shrinks_afterBlanks?).kleisli
    shrinks_afterWord?

theorem shrinks_partitionEnd? : Shrinks partitionEnd? :=
  shrinks_afterWord?.kleisli
    (shrinks_afterBlanks?.kleisli (shrinks_afterWord?.kleisli shrinks_pastTo?))

theorem mem_words_of_stops {read : Reader} (hshrinks : Shrinks read) (hstops : Stops read)
    (hread : read s = some rest) (h : w ∈ words rest) : w ∈ words s := by
  rcases hstops hread with hhead | ⟨u, c, rfl, hc⟩
  · obtain ⟨u, rfl⟩ := hshrinks hread
    rw [words_append (Or.inr hhead)]
    exact List.mem_append_right _ h
  · rw [words_append_stop hc]
    exact List.mem_append_right _ h

theorem mem_words_keys (ht : t ∈ captures partitionKeys? s) (h : w ∈ words t) : w ∈ words s := by
  obtain ⟨u, v, more, rfl, hmatch⟩ := exists_match_of_mem_captures ht
  have hu := (partitionKeys?_wordwise.begins (by simp [hmatch] :
    partitionKeys? u.getLast? v ≠ none)).1
  rw [partitionKeys?_eq_ite] at hmatch
  split at hmatch
  · obtain ⟨behind, hbehind, hfound⟩ := Option.bind_eq_some_iff.mp hmatch
    obtain ⟨⟨keys, last⟩, hkeys, hcapture⟩ := Option.bind_eq_some_iff.mp hfound
    obtain ⟨-, rfl⟩ := Prod.mk.inj (Option.some.inj hcapture)
    obtain ⟨y, rfl⟩ := exists_of_keys? hkeys
    have hclose : isWord ')' = false := by decide
    rw [words_append (Or.inl hu)]
    apply List.mem_append_right
    apply mem_words_of_stops shrinks_partitionEnd? stops_partitionEnd?
      (afterPartition?_eq ▸ hbehind)
    rw [words_append_stop hclose]
    exact List.mem_append_left _ h
  · exact nomatch hmatch

theorem eq_append_of_wordRun? (h : wordRun? s = some (w, rest)) :
    s = w ++ rest ∧ IsRun w ∧ isWordAt rest.head? = false := by
  have hw := isRun_of_wordRun? h
  unfold wordRun? at h
  split at h
  · exact nomatch h
  · rename_i c run hrun
    obtain ⟨rfl, rfl⟩ := Prod.mk.inj (Option.some.inj h)
    refine ⟨?_, hw, isWordAt_head?_dropWhile (fun _ => id) s⟩
    rw [← hrun, List.takeWhile_append_dropWhile]

theorem mem_words_of_mem_keySources (h : name ∈ captures keySource? s) : name ∈ words s := by
  obtain ⟨u, v, more, rfl, hmatch⟩ := exists_match_of_mem_captures h
  have hof : IsLetters (keyword "of") := by decide
  have heq : keySource? = blanksBehind (keyword "of") fun s rest =>
      (wordRun? rest).bind fun found => some (taken s found.2 found.1) := rfl
  rw [heq] at hmatch
  have hu := ((blanksBehind_wordwise hof).begins (by rw [hmatch]; simp)).1
  rw [(blanksBehind_wordwise hof).border hu, blanksBehind_none hof] at hmatch
  obtain ⟨mid, hmid, hfound⟩ := Option.bind_eq_some_iff.mp hmatch
  obtain ⟨⟨name', rest⟩, hrun, hcapture⟩ := Option.bind_eq_some_iff.mp hfound
  obtain ⟨-, rfl⟩ := Prod.mk.inj (Option.some.inj hcapture)
  obtain ⟨rfl, hname, hrest⟩ := eq_append_of_wordRun? hrun
  rw [words_append (Or.inl hu)]
  apply List.mem_append_right
  apply mem_words_of_stops (shrinks_afterWord?.kleisli shrinks_afterBlanks?)
    (stops_afterBlanks?.kleisli shrinks_afterWord?) hmid
  rw [words_run hname hrest]
  exact List.mem_cons_self

theorem mem_words_of_mem_keyNames (h : name ∈ keyNames s) : name ∈ words s := by
  obtain ⟨keys, hkeys, hname⟩ := List.mem_flatMap.mp h
  exact mem_words_keys hkeys (mem_words_of_mem_keySources hname)

theorem exists_word_of_mem_clauseNames (h : name ∈ clauseNames s) :
    ∃ w ∈ words s, w.head?.any isDigit = false ∧ name = namePart w ∧ name ≠ [] := by
  obtain ⟨statement, hstatement, h⟩ := List.mem_flatMap.mp h
  obtain ⟨clause, hclause, h⟩ := List.mem_flatMap.mp h
  obtain ⟨hname, hsource⟩ := List.mem_filter.mp h
  have hsharp : name.head? ≠ some '#' := by
    intro heq
    simp [isSourceName, heq] at hsource
  obtain ⟨w, hw, hpart⟩ := exists_word_of_mem_captures hname hsharp
  obtain ⟨hmem, hdigit⟩ := mem_words_bareClause hw
  exact ⟨w, mem_words_statements hstatement (mem_words_clause hclause hmem), hdigit, hpart⟩

def isPlainStart (c : Char) : Bool := c.isAlphanum || c = '_'

theorem isNameStart_of_isPlainStart (hc : isPlainStart c = true) (hdigit : isDigit c = false) :
    isNameStart c = true := by
  cases halpha : c.isAlpha with
  | true => simp [isNameStart, halpha]
  | false =>
      cases hascii : c.isDigit with
      | true => simp [isDigit, hascii] at hdigit
      | false => simpa [isPlainStart, Char.isAlphanum, isNameStart, halpha, hascii] using hc

theorem head?_any_isNameStart (hplain : w.head?.any isPlainStart = true)
    (hdigit : w.head?.any isDigit = false) : w.head?.any isNameStart = true := by
  cases w with
  | nil => simp at hplain
  | cons c w =>
      exact isNameStart_of_isPlainStart (by simpa using hplain) (by simpa using hdigit)

end Query

open Query

/-- Every name that a query reads stands in its text without comments. A key of a partition names a
whole word, and a `from` clause the end of a word from a letter or an underscore on. Where every
word of the query begins with a letter, a digit or an underscore of ASCII, names are whole words.
No name is read twice, and none that the text defines or inserts into. -/
theorem inputStreams_words (body : String) :
    (∀ stream ∈ inputStreams body,
      (stream.toList ∈ keyNames (stripComments body.toList) ∨
        stream.toList ∈ clauseNames (stripComments body.toList)) ∧
      (stream.toList ∈ keyNames (stripComments body.toList) →
        IsWordOf stream.toList (stripComments body.toList)) ∧
      (stream.toList ∈ clauseNames (stripComments body.toList) →
        stream.toList.head?.any isNameStart = true ∧
          ∃ w, IsWordOf w (stripComments body.toList) ∧ stream.toList <:+ w) ∧
      ((∀ w, IsWordOf w body.toList → w.head?.any isPlainStart = true) →
        IsWordOf stream.toList (stripComments body.toList)) ∧
      stream.toList ∉ captures definedName? (stripComments body.toList) ∧
      stream.toList ∉ captures insertedName? (stripComments body.toList)) ∧
    (inputStreams body).Nodup := by
  constructor
  · intro stream hstream
    obtain ⟨hmem, hlocal⟩ := mem_inputNames.mp (mem_inputStreams.mp hstream)
    rw [localNames, List.mem_append, not_or] at hlocal
    have hnamed := List.mem_append.mp (referencedNames_eq _ ▸ hmem)
    have hkey : stream.toList ∈ keyNames (stripComments body.toList) →
        IsWordOf stream.toList (stripComments body.toList) := fun h =>
      mem_words_iff.mp (mem_words_of_mem_keyNames h)
    refine ⟨hnamed, hkey, ?_, ?_, hlocal⟩
    · intro h
      obtain ⟨w, hw, -, hname, hne⟩ := exists_word_of_mem_clauseNames h
      rw [hname] at hne ⊢
      exact ⟨head?_namePart hne, w, mem_words_iff.mp hw, List.dropWhile_suffix _⟩
    · intro hplain
      rcases hnamed with h | h
      · exact hkey h
      · obtain ⟨w, hw, hdigit, hname, -⟩ := exists_word_of_mem_clauseNames h
        have hstart := hplain w (mem_words_iff.mp (mem_words_stripComments hw))
        rw [hname, namePart_eq_self (head?_any_isNameStart hstart hdigit)]
        exact mem_words_iff.mp hw
  · exact List.pairwise_map.mpr
      ((distinct_nodup _).imp fun hne heq => hne (String.ofList_injective heq))

def marketFeed : String :=
  "partition with (symbol of éTrades) begin from Ticks -- , News\n[price == 2] join éRates " ++
    "select symbol insert into Rises; end;"

theorem inputStreams_words_market :
    IsWordOf "éTrades".toList (stripComments marketFeed.toList) ∧
      (∃ w, IsWordOf w (stripComments marketFeed.toList) ∧ "Rates".toList <:+ w) ∧
      IsWordOf "Ticks".toList
        (stripComments "from Ticks -- , 5 News\n select a insert into B;".toList) := by
  obtain ⟨hwords, -⟩ := inputStreams_words marketFeed
  obtain ⟨-, hkey, -⟩ := hwords "éTrades" (by decide +kernel)
  obtain ⟨-, -, hclause, -⟩ := hwords "Rates" (by decide +kernel)
  obtain ⟨hplain, -⟩ := inputStreams_words "from Ticks -- , 5 News\n select a insert into B;"
  obtain ⟨-, -, -, hwhole, -⟩ := hplain "Ticks" (by decide +kernel)
  have hstarts : ∀ w ∈ words "from Ticks -- , 5 News\n select a insert into B;".toList,
      w.head?.any isPlainStart = true := by decide +kernel
  exact ⟨hkey (by decide +kernel), (hclause (by decide +kernel)).2,
    hwhole fun w hw => hstarts w (mem_words_iff.mpr hw)⟩

end EventOperator
