import EventOperator.Proofs.Query.Clearing.Alias

/-!
What is left of a clause when all patterns for noise have been used: plain words, marks and the names
of sources. Of these the names of streams count.
-/

namespace EventOperator.Query

open EventOperator.Text

variable {c : Char} {word w s t u v gap gap' : List Char} {phrase : Phrase} {phrases : List Phrase}

theorem Phrase.left_zero (phrase : Phrase) : phrase.left 0 = phrase.tokens := by
  rw [left, if_neg (Nat.not_lt_zero _), if_pos (Nat.zero_le 2)]

theorem bareClause_eq (s : List Char) :
    bareClause s = noise.foldl (fun s p => blankOut p s) (blankOut filter? s) := by
  rw [bareClause, withoutFilters_eq_blankOut]

theorem Written.bareClause (hchain : phrases.IsChain Adjoins)
    (h : Written (phrases.flatMap Phrase.tokens) s) :
    Written (remains 10 (upToBound phrases)) (bareClause s) := by
  have hchain' := hchain.prefix (upToBound_isPrefix phrases)
  have h0 : Written (remains 0 phrases) s := by
    have hsame : remains 0 phrases = phrases.flatMap Phrase.tokens :=
      congrArg (phrases.flatMap ·) (funext Phrase.left_zero)
    rwa [hsame]
  have h1 := h0.blankOut filter?_skipsBlanks hchain
    fun _ _ _ => clears_filter?
  have h2 := h1.blankOut handler?_skipsBlanks hchain
    fun _ _ => clears_handler?
  have h3 := h2.blankOut grouping?_skipsBlanks hchain
    fun _ _ _ => clears_grouping?
  have h4 := h3.blankOut condition?_wordwise.skipsBlanks hchain
    fun _ _ => clears_condition?
  have h5 := h4.blankOut_timeBound?
  have h6 := h5.blankOut waiting?_wordwise.skipsBlanks hchain'
    fun _ _ _ => clears_waiting?
  have h7 := h6.blankOut eventAlias?_wordwise.skipsBlanks
    hchain' fun _ _ => clears_eventAlias?
  have h8 := h7.blankOut streamAlias?_wordwise.skipsBlanks
    hchain' fun _ _ _ => clears_streamAlias?
  have h9 := h8.blankOut count?_skipsBlanks hchain'
    fun _ _ _ => clears_count?
  have h10 := h9.blankOut number?_wordwise.skipsBlanks hchain'
    fun _ _ _ => clears_number?
  rw [bareClause_eq]
  exact h10

theorem name?_blind : name?.Blind := fun _ _ => rfl

theorem name?_eq_none (hstart : isNameStart c = false) (hc : c ≠ '#') (s : List Char) :
    name? none (c :: s) = none := by
  unfold name?
  split
  · rename_i heq
    exact absurd (List.cons.inj heq).1 hc
  · rename_i d rest _ heq
    obtain ⟨rfl, rfl⟩ := List.cons.inj heq
    rw [hstart]
    rfl
  · rfl

theorem isNameStart_eq_false (hc : isWord c = false) : isNameStart c = false := by
  cases hstart : isNameStart c with
  | false => rfl
  | true => simp [isWord_of_isNameStart hstart] at hc

theorem name?_skipsBlanks : name?.SkipsBlanks where
  border := fun _ => name?_blind _ _
  blank := fun s hc =>
    name?_eq_none (isNameStart_eq_false (isWord_of_isBlank hc)) (ne_of_holds hc (by decide)) s

theorem takeWhile_run (hw : ∀ c ∈ w, isWord c = true) (hv : isWordAt v.head? = false) :
    (w ++ v).takeWhile isWord = w ∧ (w ++ v).dropWhile isWord = v :=
  ⟨takeWhile_append_stop hw (isWord_false_of_head? hv),
    dropWhile_append_stop hw (isWord_false_of_head? hv)⟩

theorem name?_takes (hw : IsRun w) (hstart : w.head?.any isNameStart = true)
    (hv : isWordAt v.head? = false) : Takes name? w v w := by
  refine ⟨hw.1, ?_⟩
  cases w with
  | nil => exact absurd rfl hw.1
  | cons c w =>
      have hc : isNameStart c = true := by simpa using hstart
      have hne : c ≠ '#' := ne_of_holds hc (by decide)
      obtain ⟨htake, hdrop⟩ :=
        takeWhile_run (fun d hd => hw.2 d (List.mem_cons_of_mem c hd)) hv
      rw [List.cons_append]
      unfold name?
      split
      · rename_i heq
        exact absurd (List.cons.inj heq).1 hne
      · rename_i d rest _ heq
        obtain ⟨rfl, rfl⟩ := List.cons.inj heq
        rw [if_pos hc, htake, hdrop]
      · rename_i heq
        exact nomatch heq

theorem name?_takes_inner (hw : IsRun w) (hstart : w.head?.any isNameStart = true)
    (hv : isWordAt v.head? = false) : Takes name? ('#' :: w) v ('#' :: w) := by
  refine ⟨by simp, ?_⟩
  cases w with
  | nil => exact absurd rfl hw.1
  | cons c w =>
      have hc : isNameStart c = true := by simpa using hstart
      obtain ⟨htake, hdrop⟩ :=
        takeWhile_run (fun d hd => hw.2 d (List.mem_cons_of_mem c hd)) hv
      simp only [List.cons_append, name?]
      rw [if_pos hc, htake, hdrop]

theorem captures_blanks_name? (hgap : ∀ c ∈ gap, isBlank c = true) (v : List Char) :
    captures name? (gap ++ v) = captures name? v :=
  captures_of_scan_inl (scan_blanks name?_skipsBlanks hgap v)

theorem captures_name?_match (hgap : ∀ c ∈ gap, isBlank c = true)
    (hgap' : ∀ c ∈ gap', isBlank c = true) (htakes : Takes name? t (gap' ++ v) w) :
    captures name? (gap ++ (t ++ gap') ++ v) = w :: captures name? v := by
  rw [List.append_assoc, List.append_assoc, captures_blanks_name? hgap,
    captures_of_scan_inr (scan_take htakes (name?_blind _ _)), captures_blanks_name? hgap']

def Phrase.input? : Phrase → Option (List Char)
  | .source s => s.input?
  | _ => none

theorem Phrase.isName_of_input? (h : phrase.input? = some w) : IsName w := by
  cases phrase with
  | source s =>
      cases s with
      | stream name => exact Option.some.inj h ▸ name.isName
      | inner name => exact nomatch h
  | _ => exact nomatch h

theorem isSourceName_of_isName (h : IsName w) : isSourceName w = true := by
  have hhead : w.head? ≠ some '#' := by
    intro hsharp
    have hstart := h.1
    rw [hsharp] at hstart
    exact absurd hstart (by decide)
  have hword : clauseWords.contains (w.map Char.toLower) = false := by
    cases hcontains : clauseWords.contains (w.map Char.toLower) with
    | false => rfl
    | true =>
        have hmem : w.map Char.toLower ∈ reservedWords :=
          List.mem_append_left _ (List.mem_append_left _ (by simpa using hcontains))
        exact absurd ⟨_, hmem, spells_of_toLower rfl⟩ h.2.2
  simp only [isSourceName, hword, Bool.not_false, Bool.and_true, decide_eq_true_eq]
  exact hhead

theorem isSourceName_of_isKeyword (hw : w ∈ clauseWords) (ht : t.map Char.toLower = w) :
    isSourceName t = false := by
  have hmem : clauseWords.contains (t.map Char.toLower) = true := by
    rw [ht]
    simpa using hw
  simp only [isSourceName, hmem, Bool.not_true, Bool.and_false]

theorem captures_name?_word (hw : w ∈ plainWords)
    (hu : Written [.keyword w (isLetters_plainWords w hw)] u) (hap : Apart u.getLast? v.head?) :
    (captures name? (u ++ v)).filter isSourceName = (captures name? v).filter isSourceName := by
  obtain ⟨gap, t, gap', rfl, hgap, ht, -, hgap'⟩ := hu.exists_append
  have hletters := isLetters_plainWords w hw
  have hrun := isRun_of_toLower hletters ht
  have hstart : t.head?.any isNameStart = true := by
    cases t with
    | nil => exact absurd rfl hrun.1
    | cons c t =>
        have halpha := isAlpha_of_mem_keyword hletters ht List.mem_cons_self
        simp [isNameStart, halpha]
  have hborder : isWordAt (gap' ++ v).head? = false :=
    border_of_apart hrun.isWordAt_getLast? (apart_of_blanks_behind hgap'.blanks_of_nil hap)
  have hnone := isSourceName_of_isKeyword (plainWords_subset w hw) ht
  rw [captures_name?_match hgap hgap'.blanks_of_nil (name?_takes hrun hstart hborder),
    List.filter_cons_of_neg (by simp [hnone])]

theorem captures_name?_mark {m : Mark} (hu : Written [.plain m.plain] u) (v : List Char) :
    captures name? (u ++ v) = captures name? v := by
  obtain ⟨gap, gap', rfl, hgap, hgap'⟩ := hu.exists_singleton
  have hmark : ∀ c ∈ m.chars, ∀ s, name? none (c :: s) = none := by
    intro c hc s
    have hchar : isWord c = false ∧ c ≠ '#' := by
      cases m <;> simp only [Mark.chars, List.mem_cons, List.not_mem_nil, or_false] at hc <;>
        rcases hc with rfl | rfl <;> decide
    exact name?_eq_none (isNameStart_eq_false hchar.1) hchar.2 s
  have hscan := name?_blind.scan_append (v := gap' ++ v) hmark
  rw [List.append_assoc, List.append_assoc, captures_blanks_name? hgap]
  exact (captures_of_scan_inl hscan).trans (captures_blanks_name? hgap' v)

theorem captures_name?_source {source : Source} (hu : Written [.plain source.plain] u)
    (hap : Apart u.getLast? v.head?) :
    (captures name? (u ++ v)).filter isSourceName =
      source.input?.toList ++ (captures name? v).filter isSourceName := by
  obtain ⟨gap, gap', rfl, hgap, hgap'⟩ := hu.exists_singleton
  have hborder : isWordAt (gap' ++ v).head? = false :=
    border_of_apart source.isWordAt_getLast? (apart_of_blanks_behind hgap' hap)
  cases source with
  | stream name =>
      have htakes : Takes name? (Source.stream name).plain.chars (gap' ++ v) name.chars :=
        name?_takes name.isName.isRun name.isName.1 hborder
      rw [captures_name?_match hgap hgap' htakes]
      exact List.filter_cons_of_pos (isSourceName_of_isName name.isName)
  | inner name =>
      have htakes : Takes name? (Source.inner name).plain.chars (gap' ++ v) ('#' :: name.chars) :=
        name?_takes_inner name.isName.isRun name.isName.1 hborder
      rw [captures_name?_match hgap hgap' htakes]
      exact List.filter_cons_of_neg (by simp [isSourceName])

theorem captures_name?_phrase (hu : Written (phrase.left 10) u) (hap : Apart u.getLast? v.head?) :
    (captures name? (u ++ v)).filter isSourceName =
      phrase.input?.toList ++ (captures name? v).filter isSourceName := by
  have hgone : phrase.left 10 = [] → phrase.input? = none →
      (captures name? (u ++ v)).filter isSourceName =
        phrase.input?.toList ++ (captures name? v).filter isSourceName := by
    intro hleft hinput
    rw [hleft] at hu
    rw [hinput, captures_blanks_name? hu.blanks_of_nil]
    rfl
  cases phrase with
  | word w hw => exact captures_name?_word hw hu hap
  | mark m => exact congrArg (List.filter isSourceName) (captures_name?_mark hu v)
  | source s => exact captures_name?_source hu hap
  | _ => exact hgone rfl rfl

theorem captures_name? (h : Written (remains 10 phrases) s) :
    (captures name? s).filter isSourceName = phrases.filterMap Phrase.input? := by
  induction phrases generalizing s with
  | nil =>
      have hnothing := captures_blanks_name? h.blanks_of_nil []
      rw [List.append_nil] at hnothing
      rw [hnothing]
      rfl
  | cons phrase rest ih =>
      rw [remains_cons] at h
      obtain ⟨u, v, rfl, hu, hv, hap⟩ := h.split
      rw [captures_name?_phrase hu hap, ih hv, List.filterMap_cons]
      cases phrase.input? <;> rfl

/-- The sources of a clause are the streams that its phrases name as sources, in order, up to the
first time bound. -/
theorem clauseSources_upToBound (hchain : phrases.IsChain Adjoins)
    (h : Written (phrases.flatMap Phrase.tokens) s) :
    clauseSources s = (upToBound phrases).filterMap Phrase.input? :=
  captures_name? (h.bareClause hchain)

theorem filterMap_upToBound (hchain : phrases.IsChain fun first _ => first.isTimeBound = false) :
    (upToBound phrases).filterMap Phrase.input? = phrases.filterMap Phrase.input? := by
  induction phrases with
  | nil => rfl
  | cons phrase rest ih =>
      cases hphrase : phrase.isTimeBound with
      | false =>
          rw [upToBound_cons hphrase, List.filterMap_cons, List.filterMap_cons,
            ih (List.isChain_cons.mp hchain).2]
      | true =>
          cases rest with
          | nil => cases phrase <;> rfl
          | cons next rest =>
              have hnone := (List.isChain_cons_cons.mp hchain).1
              simp [hnone] at hphrase

theorem Follows.isTimeBound_eq_false {first second : Phrase} (h : Follows first second) :
    first.isTimeBound = false := by
  cases first with
  | timeBound n unit => exact absurd rfl (h.timeBound n unit)
  | _ => rfl

theorem clauseSources_of_written (hchain : phrases.IsChain Follows)
    (h : Written (phrases.flatMap Phrase.tokens) s) :
    clauseSources s = phrases.filterMap Phrase.input? := by
  rw [clauseSources_upToBound (hchain.imp fun _ _ => Follows.adjoins) h,
    filterMap_upToBound (hchain.imp fun _ _ => Follows.isTimeBound_eq_false)]

end EventOperator.Query
