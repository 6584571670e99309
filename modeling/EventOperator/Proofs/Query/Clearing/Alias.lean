import EventOperator.Proofs.Query.Clearing.Bound

/-!
Aliases and counts are taken out, and no numbers are left.
-/

namespace EventOperator.Query

open EventOperator.Text

variable {c : Char} {word w s t u v gap : List Char} {token : Token} {tokens : List Token}
  {text : Plain} {used : Nat} {phrase : Phrase} {rest phrases : List Phrase}

theorem eventAlias?_wordwise : eventAlias?.Wordwise where
  begins := by
    intro before s hmatch
    have hs : isWordAt s.head? = true := by
      cases hhead : isWordAt s.head? with
      | true => rfl
      | false =>
          apply absurd _ hmatch
          rw [eventAlias?, guard_bind, wordRun?_eq_none hhead]
          exact ite_self none
    refine ⟨?_, hs⟩
    cases hbefore : isWordAt before with
    | false => rfl
    | true =>
        have hedge : isEdge before s.head? = false := by simp [isEdge, hbefore, hs]
        apply absurd _ hmatch
        rw [eventAlias?, hedge]
        rfl
  border := by
    intro before s hbefore
    unfold eventAlias?
    rw [isEdge_of_border hbefore, isEdge_of_border rfl]

theorem eventAlias?_takes (hw : IsRun w) (hgap : ∀ c ∈ gap, isBlank c = true) (v : List Char) :
    Takes eventAlias? (w ++ (gap ++ ['='])) v () := by
  have hsign : isBlank '=' = false := by decide
  have hborder : isWordAt (gap ++ '=' :: v).head? = false := by
    cases gap with
    | nil => rfl
    | cons c gap => exact isWord_of_isBlank (hgap c List.mem_cons_self)
  have hedge : isEdge none (w ++ (gap ++ '=' :: v)).head? = true := by
    rw [isEdge_of_border rfl]
    exact hw.isWordAt_head? _
  refine ⟨by simp [hw.1], ?_⟩
  simp only [List.append_assoc, List.singleton_append]
  rw [eventAlias?, guard_bind, hedge, wordRun?_append hw hborder]
  simp [dropWhile_blanks hgap, hsign, after?]

theorem head?_dropWhile_append {f : Char → Bool}
    (h : ((u ++ v).dropWhile f).head? = some c) : c ∈ u ∨ (v.dropWhile f).head? = some c := by
  induction u with
  | nil => exact Or.inr h
  | cons d u ih =>
      rw [List.cons_append, List.dropWhile_cons] at h
      split at h
      · exact (ih h).imp_left (List.mem_cons_of_mem d)
      · obtain rfl := Option.some.inj h
        exact Or.inl List.mem_cons_self

theorem scan_eventAlias? (hu : '=' ∉ u) (hnext : (v.dropWhile isBlank).head? ≠ some '=')
    (hap : Apart u.getLast? v.head?) :
    scan eventAlias? (u ++ v) = u.map .inl ++ scan eventAlias? v := by
  induction u using run_induction with
  | nil => rfl
  | other c s hc ih =>
      have hrest := ih (fun h => hu (List.mem_cons_of_mem c h)) (apart_of_append (u := [c]) hap)
      rw [List.cons_append, eventAlias?_wordwise.scan_other hc, hrest]
      rfl
  | run w s hw hs ih =>
      rw [List.mem_append, not_or] at hu
      have hstop := apart_of_run_append hw hap hs
      have hsign : after? '=' ((s ++ v).dropWhile isBlank) = none := by
        cases hd : (s ++ v).dropWhile isBlank with
        | nil => rfl
        | cons c z =>
            have hne : c ≠ '=' := by
              rintro rfl
              have hhead : ((s ++ v).dropWhile isBlank).head? = some '=' := by
                rw [hd]
                rfl
              rcases head?_dropWhile_append hhead with h | h
              · exact hu.2 h
              · exact hnext h
            simp [after?, hne]
      have hnone : eventAlias? none (w ++ (s ++ v)) = none := by
        rw [eventAlias?, guard_bind, wordRun?_append hw hstop]
        simp [hsign]
      rw [List.append_assoc, eventAlias?_wordwise.scan_run hw hstop hnone,
        ih hu.2 (apart_of_append hap)]
      simp

theorem clears_eventAlias? (hchain : (phrase :: rest).IsChain Adjoins) :
    Clears eventAlias? 6 phrase rest := by
  have hother : phrase.left 7 = phrase.left 6 → (6 ≤ phrase.stage → ¬ phrase.MayHold '=') →
      Clears eventAlias? 6 phrase rest := by
    intro hsame hfree
    apply clears_of_scan hsame
    intro u v hu hv hap
    apply scan_eventAlias? (Phrase.not_mem_of_written hu (by decide) (by decide) hfree) _ hap
    intro hsign
    exact (isStart_of_written (by decide) (Or.inl (by decide)) hchain hv _ hsign).2.2.2.2 rfl
  cases phrase with
  | eventAlias a =>
      apply clears_of_match eventAlias?_wordwise.skipsBlanks rfl
      intro u v hu hap
      obtain ⟨gap, _, s, rfl, hgap, rfl, -, hs⟩ := hu.exists_append
      obtain ⟨gap₁, gap₂, rfl, hgap₁, hgap₂⟩ := hs.exists_singleton
      refine ⟨gap, _, gap₂, ?_, hgap, hgap₂, eventAlias?_takes a.isName.isRun hgap₁ _⟩
      simp [Name.plain]
  | mark m => exact hother rfl fun _ => not_mem_mark (by decide) m
  | source s => exact hother rfl fun _ => by cases s <;> simp [Phrase.MayHold]
  | filter f => exact hother rfl fun h => absurd h (by simp [Phrase.stage])
  | handler f => exact hother rfl fun h => absurd h (by simp [Phrase.stage])
  | condition d => exact hother rfl fun h => absurd h (by simp [Phrase.stage])
  | _ => exact hother rfl fun _ => by simp [Phrase.MayHold]

theorem streamAlias?_eq : streamAlias? = blanksBehind (keyword "as") fun s rest =>
    (wordRun? rest).bind fun found => some (taken s found.2 ()) := rfl

theorem streamAlias?_wordwise : streamAlias?.Wordwise := by
  rw [streamAlias?_eq]
  exact blanksBehind_wordwise isLetters_as

theorem streamAlias?_takes (ht : t.map Char.toLower = keyword "as")
    (hgap : ∀ c ∈ gap, isBlank c = true) (hne : gap ≠ []) (hw : IsRun w)
    (hv : isWordAt v.head? = false) : Takes streamAlias? (t ++ (gap ++ w)) v () := by
  have hrun := isRun_of_toLower isLetters_as ht
  refine ⟨by simp [hrun.1], ?_⟩
  simp only [List.append_assoc]
  rw [streamAlias?_eq, blanksBehind_run isLetters_as hrun (isWordAt_head?_blanks hne hgap _),
    if_pos (spells_of_toLower ht), afterBlanks?_word hne hgap (hw.isWordAt_head? v),
    Option.bind_some, wordRun?_append hw hv, Option.bind_some]

theorem clears_streamAlias? : Clears streamAlias? 7 phrase rest := by
  have honly : streamAlias?.Only (Spells (keyword "as")) := by
    rw [streamAlias?_eq]
    exact blanksBehind_only isLetters_as
  have hother : phrase.left 8 = phrase.left 7 → phrase.keyword? ≠ some (keyword "as") →
      Clears streamAlias? 7 phrase rest := fun hsame hne =>
    clears_of_keyword streamAlias?_wordwise honly (by decide) hsame hne
  cases phrase with
  | streamAlias a =>
      apply clears_of_match streamAlias?_wordwise.skipsBlanks rfl
      intro u v hu hap
      obtain ⟨gap, t, s, rfl, hgap, ht, hts, hs⟩ := hu.exists_append
      obtain ⟨gap₁, gap₂, rfl, hgap₁, hgap₂⟩ := hs.exists_singleton
      have hrun := a.isName.isRun
      have hne := ne_nil_of_words (isRun_of_toLower isLetters_as ht).isWordAt_getLast? hts
        (hrun.isWordAt_head? gap₂)
      have hborder : isWordAt (gap₂ ++ v).head? = false := by
        have hapart : Apart a.chars.getLast? (gap₂ ++ v).head? := by
          apply apart_of_blanks_behind hgap₂
          exact apart_of_append (apart_of_append hap)
        exact border_of_apart hrun.isWordAt_getLast? hapart
      refine ⟨gap, _, gap₂, ?_, hgap, hgap₂, streamAlias?_takes ht hgap₁ hne hrun hborder⟩
      simp [Name.plain]
  | word w hw => exact hother rfl (Phrase.keyword?_word_ne hw (by decide))
  | _ => exact hother rfl (by simp [Phrase.keyword?, keyword])

theorem count?_blind : count?.Blind := fun _ _ => rfl

theorem count?_beginsWith : count?.BeginsWith '<' := by
  intro c s hc
  unfold count?
  split
  · rename_i heq
    exact absurd (List.cons.inj heq).1 hc
  · rfl

theorem count?_skipsBlanks : count?.SkipsBlanks :=
  count?_beginsWith.skipsBlanks count?_blind (by decide)

theorem count?_takes (hu : '>' ∉ u) (v : List Char) : Takes count? ('<' :: (u ++ ['>'])) v () := by
  have hinside : (u ++ '>' :: v).dropWhile (fun c => !decide (c = '>')) = '>' :: v :=
    dropWhile_append_stop (fun c hc => by
      have hne : c ≠ '>' := by rintro rfl; exact hu hc
      simpa using hne) (by simp)
  refine ⟨by simp, ?_⟩
  simp [count?, hinside, after?]

theorem clears_count? : Clears count? 8 phrase rest := by
  have hother : phrase.left 9 = phrase.left 8 → (8 ≤ phrase.stage → ¬ phrase.MayHold '<') →
      Clears count? 8 phrase rest := fun hsame hfree =>
    clears_of_char count?_blind (by decide) (by decide) count?_beginsWith hsame hfree
  cases phrase with
  | count b =>
      apply clears_of_match count?_skipsBlanks rfl
      intro u v hu hap
      obtain ⟨gap, _, s, rfl, hgap, rfl, -, hs⟩ := hu.exists_append
      obtain ⟨inside, closing, rfl, hinside, hclosing, -⟩ := hs.split
      obtain ⟨gap₁, gap₂, rfl, hgap₁, hgap₂⟩ := hclosing.exists_singleton
      have hnone : '>' ∉ inside ++ gap₁ := by
        rw [List.mem_append, not_or]
        constructor
        · apply hinside.not_mem (by decide) (by decide)
          intro token htoken hchar
          exact absurd (eq_of_hasChar_inside (by decide) htoken hchar) (by decide)
        · intro h
          exact absurd (hgap₁ _ h) (by decide)
      exact ⟨gap, _, gap₂, by simp, hgap, hgap₂, count?_takes hnone _⟩
  | mark m => exact hother rfl fun _ => not_mem_mark (by decide) m
  | source s => exact hother rfl fun _ => by cases s <;> simp [Phrase.MayHold]
  | filter f => exact hother rfl fun h => absurd h (by simp [Phrase.stage])
  | handler f => exact hother rfl fun h => absurd h (by simp [Phrase.stage])
  | condition d => exact hother rfl fun h => absurd h (by simp [Phrase.stage])
  | _ => exact hother rfl fun _ => by simp [Phrase.MayHold]

theorem number?_cons (before : Option Char) (c : Char) (s : List Char) :
    number? before (c :: s) =
      if (isEdge before (some c) && isDigit c) = true then
        some (taken (c :: s) ((c :: s).dropWhile isNumberChar) ())
      else none :=
  guard_bind _ _

theorem number?_wordwise : number?.Wordwise where
  begins := by
    intro before s hmatch
    cases s with
    | nil => exact absurd rfl hmatch
    | cons c s =>
        cases hdigit : isDigit c with
        | false => simp [number?_cons, hdigit] at hmatch
        | true =>
            have hc := isWord_of_isDigit hdigit
            refine ⟨?_, hc⟩
            cases hbefore : isWordAt before with
            | false => rfl
            | true =>
                have hedge : isEdge before (some c) = false := by simp [isEdge, hbefore, hc]
                simp [number?_cons, hedge] at hmatch
  border := by
    intro before s hbefore
    unfold number?
    rw [isEdge_of_border hbefore, isEdge_of_border rfl]

theorem number?_only : number?.Only fun w => w.head?.any isDigit = true := by
  intro w v hw hv hmatch
  cases w with
  | nil => exact absurd rfl hw.1
  | cons c w =>
      cases hdigit : isDigit c with
      | true => simpa using hdigit
      | false => simp [number?_cons, hdigit] at hmatch

theorem isDigit_eq_false_of_isNameStart (hc : isNameStart c = true) : isDigit c = false := by
  simp only [isNameStart, Bool.or_eq_true, decide_eq_true_eq] at hc
  rcases hc with hc | rfl
  · exact isDigit_eq_false_of_isAlpha hc
  · decide

theorem Name.not_digit (name : Name) : ¬ name.chars.head?.any isDigit = true := by
  have hstart := name.isName.1
  cases hn : name.chars with
  | nil => simp
  | cons c s =>
      rw [hn] at hstart
      simpa using isDigit_eq_false_of_isNameStart (by simpa using hstart)

theorem Phrase.not_digit_of_written (h : Written (phrase.left 9) u) :
    ∀ w ∈ words u, ¬ w.head?.any isDigit = true := by
  intro w hw
  obtain ⟨token, htoken, t, ht, hwt⟩ := h.exists_of_mem_words hw
  have hstage := le_stage_of_mem htoken
  cases phrase with
  | word word hword =>
      obtain rfl := List.mem_singleton.mp htoken
      have hletters := isLetters_plainWords word hword
      rw [words_eq_singleton (isRun_of_toLower hletters ht), List.mem_singleton] at hwt
      subst hwt
      cases w with
      | nil => simp
      | cons c w =>
          simpa using isDigit_eq_false_of_isAlpha
            (isAlpha_of_mem_keyword hletters ht List.mem_cons_self)
  | mark m =>
      obtain rfl := List.mem_singleton.mp htoken
      obtain rfl : t = m.chars := ht
      have hnone : words m.chars = [] := by cases m <;> rfl
      rw [hnone] at hwt
      exact absurd hwt (by simp)
  | source s =>
      obtain rfl := List.mem_singleton.mp htoken
      obtain rfl : t = s.plain.chars := ht
      have hname : words s.plain.chars = [s.name.chars] := by
        cases s with
        | stream name => exact words_eq_singleton name.isName.isRun
        | inner name =>
            exact (words_other (by decide)).trans (words_eq_singleton name.isName.isRun)
      rw [hname, List.mem_singleton] at hwt
      rw [hwt]
      exact s.name.not_digit
  | _ => exact absurd hstage (by simp [Phrase.stage])

theorem clears_number? : Clears number? 9 phrase rest := by
  have hstage : phrase.stage ≠ 9 := by cases phrase <;> simp [Phrase.stage]
  apply clears_of_scan (Phrase.left_succ hstage (by decide))
  intro u v hu hv hap
  exact number?_wordwise.scan_append number?_only (Phrase.not_digit_of_written hu) hap

end EventOperator.Query
