import EventOperator.Proofs.Comments
import EventOperator.Proofs.Query.Cleared
import EventOperator.Proofs.Text.Reader

/-!
The patterns for comments, filters and noise as readers. All of them match from border to border.
-/

namespace EventOperator.Query

open EventOperator.Text

variable {c : Char} {s rest : List Char}

def commentEnd? : Reader
  | '-' :: '-' :: rest => some (rest.dropWhile (· ≠ '\n'))
  | '/' :: '*' :: rest => afterClose? rest
  | _ => none

theorem exists_of_commentEnd? (h : commentEnd? s = some rest) :
    ∃ u, s = u ++ rest ∧ u ≠ [] ∧
      (isWordAt rest.head? = false ∨ ∃ x c, u = x ++ [c] ∧ isWord c = false) := by
  unfold commentEnd? at h
  split at h
  · rename_i inside
    obtain rfl := Option.some.inj h
    refine ⟨'-' :: '-' :: inside.takeWhile (· ≠ '\n'), by simp, by simp, Or.inl ?_⟩
    apply isWordAt_head?_dropWhile
    intro c hc
    simpa using ne_of_holds hc (by decide : isWord '\n' = false)
  · obtain ⟨u, rfl⟩ := exists_close_of_afterClose? h
    refine ⟨'/' :: '*' :: (u ++ ['*', '/']), by simp, by simp, Or.inr ?_⟩
    exact ⟨'/' :: '*' :: (u ++ ['*']), '/', by simp, by decide⟩
  · exact nomatch h

theorem comment?_reads : comment?.Reads commentEnd? where
  outside := by
    refine comment?_blind.outside fun s hs => ?_
    cases s with
    | nil => rfl
    | cons c s =>
        have hc : isWord c = true := hs
        exact comment?_eq_none (ne_of_holds hc (by decide)) (ne_of_holds hc (by decide)) s
  eq := by
    intro s
    unfold comment? commentEnd?
    split <;> simp
  shrinks := by
    intro s rest h
    obtain ⟨u, rfl, -⟩ := exists_of_commentEnd? h
    exact List.suffix_append u rest
  advances := by
    intro s rest h
    obtain ⟨u, rfl, hne, -⟩ := exists_of_commentEnd? h
    have := List.length_pos_iff.mpr hne
    rw [List.length_append]
    omega
  stops := by
    intro s rest h
    obtain ⟨u, rfl, -, hstop⟩ := exists_of_commentEnd? h
    refine hstop.imp_right ?_
    rintro ⟨x, c, rfl, hc⟩
    exact ⟨x, c, by simp, hc⟩

def filterEnd? : Reader := after? '[' >=> afterMatching? 0

theorem shrinks_afterMatching? : Shrinks (afterMatching? 0) := by
  intro s rest h
  obtain ⟨u, rfl, -⟩ := afterMatching?_eq_some_iff.mp h
  exact ⟨u ++ [']'], by simp⟩

theorem stops_afterMatching? : Stops (afterMatching? 0) := by
  intro s rest h
  obtain ⟨u, rfl, -⟩ := afterMatching?_eq_some_iff.mp h
  exact Or.inr ⟨u, ']', rfl, by decide⟩

theorem filter?_reads : filter?.Reads filterEnd? where
  outside := filter?_beginsWith.outside filter?_blind (by decide)
  eq := by
    intro s
    cases s with
    | nil => rfl
    | cons c s =>
        by_cases hc : c = '['
        · subst hc
          rfl
        · rw [filter?_eq_none hc]
          simp [filterEnd?, kleisli_apply, after?, hc]
  shrinks := shrinks_after?.kleisli shrinks_afterMatching?
  advances := advances_after?.kleisli shrinks_afterMatching?
  stops := stops_afterMatching?.kleisli shrinks_after?

def handlerEnd? : Reader :=
  after? '#' >=> span? isHandlerChar isHandlerChar >=> pastTo? isBlank '(' >=>
    pastTo? (· ≠ ')') ')'

theorem handler?_reads : handler?.Reads handlerEnd? where
  outside := handler?_beginsWith.outside handler?_blind (by decide)
  eq := by
    intro s
    cases s with
    | nil => rfl
    | cons c s =>
        by_cases hc : c = '#'
        · subst hc
          cases s with
          | nil => rfl
          | cons d s =>
              rw [handler?_cons, Option.map_eq_bind, handlerEnd?, kleisli_apply, after?_self,
                Option.bind_some, kleisli_apply, span?_cons]
              split
              · rw [Option.bind_some, kleisli_apply, Option.bind_assoc]
                rfl
              · rfl
        · rw [handler?_beginsWith c s hc, handlerEnd?, kleisli_apply, after?, if_neg hc]
          rfl
  shrinks :=
    shrinks_after?.kleisli (shrinks_span?.kleisli (shrinks_pastTo?.kleisli shrinks_pastTo?))
  advances :=
    advances_after?.kleisli (shrinks_span?.kleisli (shrinks_pastTo?.kleisli shrinks_pastTo?))
  stops :=
    (((stops_pastTo? (by decide)).kleisli shrinks_pastTo?).kleisli shrinks_span?).kleisli
      shrinks_after?

def groupingEnd? : Reader := one? fun c => c = '(' || c = ')'

theorem grouping?_reads : grouping?.Reads groupingEnd? where
  outside := by
    refine grouping?_blind.outside fun s hs => ?_
    cases s with
    | nil => rfl
    | cons c s =>
        have hc : isWord c = true := hs
        have hopen : c ≠ '(' := ne_of_holds hc (by decide)
        have hclose : c ≠ ')' := ne_of_holds hc (by decide)
        simp [grouping?, hopen, hclose]
  eq := by
    intro s
    cases s with
    | nil => rfl
    | cons c s =>
        rw [grouping?, groupingEnd?, one?]
        split
        · simp [taken]
        · rfl
  shrinks := shrinks_one?
  advances := advances_one?
  stops := by
    apply stops_one?
    intro c hc
    simp only [Bool.or_eq_true, decide_eq_true_eq] at hc
    rcases hc with rfl | rfl <;> decide

def conditionEnd? : Reader := afterWord? (keyword "on") >=> border? >=> fromWord? joinWords

theorem condition?_reads : condition?.Reads conditionEnd? where
  outside := condition?_wordwise.outside
  eq := by
    intro s
    rw [condition?_eq, borderBehind_none isLetters_on, Option.map_eq_bind, conditionEnd?,
      kleisli_assoc, kleisli_apply _ (fromWord? joinWords), Option.bind_assoc]
    apply Option.bind_congr
    intro rest hrest
    obtain ⟨mid, -, hborder⟩ := kleisli_eq_some hrest
    obtain ⟨rfl, hhead⟩ := border?_eq_some hborder
    rw [drop_upToWord, fromWord_border isLetters_joinWords hhead]
    rfl
  shrinks := shrinks_afterWord?.kleisli (shrinks_border?.kleisli shrinks_fromWord?)
  advances := (advances_afterWord? isLetters_on).kleisli (shrinks_border?.kleisli shrinks_fromWord?)
  stops := (stops_fromWord? isLetters_joinWords).kleisli shrinks_afterWord?

def timeBoundEnd? : Reader := afterWord? (keyword "within") >=> border? >=> toEnd?

theorem timeBound?_reads : timeBound?.Reads timeBoundEnd? where
  outside := timeBound?_wordwise.outside
  eq := by
    intro s
    rw [timeBound?_eq, borderBehind_none isLetters_within, Option.map_eq_bind, timeBoundEnd?,
      kleisli_assoc, kleisli_apply _ toEnd?, Option.bind_assoc]
    rfl
  shrinks := shrinks_afterWord?.kleisli (shrinks_border?.kleisli shrinks_toEnd?)
  advances :=
    (advances_afterWord? isLetters_within).kleisli (shrinks_border?.kleisli shrinks_toEnd?)
  stops := (stops_toEnd?.kleisli shrinks_border?).kleisli shrinks_afterWord?

def waitingEnd? : Reader :=
  afterWord? (keyword "for") >=> blanksTo? isDigit isNumberChar >=> past? isBlank >=> past? isWord

theorem numberBehind_eq (s rest : List Char) :
    numberBehind s rest =
      ((span? isDigit isNumberChar >=> past? isBlank >=> past? isWord) rest).map
        fun behind => taken s behind () := by
  cases rest with
  | nil => rfl
  | cons c rest =>
      rw [kleisli_apply, span?_cons, numberBehind, List.head?_cons, Option.bind_some]
      split <;> rfl

theorem waiting?_reads : waiting?.Reads waitingEnd? where
  outside := waiting?_wordwise.outside
  eq := by
    intro s
    rw [waiting?_eq, blanksBehind_none isLetters_for, waitingEnd?, blanksTo?, ← kleisli_assoc,
      kleisli_assoc, kleisli_apply, Option.map_bind]
    apply Option.bind_congr
    intro rest _
    exact numberBehind_eq s rest
  shrinks :=
    shrinks_afterWord?.kleisli (shrinks_blanksTo?.kleisli (shrinks_past?.kleisli shrinks_past?))
  advances := (advances_afterWord? isLetters_for).kleisli
    (shrinks_blanksTo?.kleisli (shrinks_past?.kleisli shrinks_past?))
  stops :=
    (((stops_past? fun _ => id).kleisli shrinks_past?).kleisli shrinks_blanksTo?).kleisli
      shrinks_afterWord?

def eventAliasEnd? : Reader := span? isWord isWord >=> pastTo? isBlank '='

theorem eventAlias?_reads : eventAlias?.Reads eventAliasEnd? where
  outside := eventAlias?_wordwise.outside
  eq := by
    intro s
    rw [eventAlias?, guard_bind, isEdge_of_border rfl, eventAliasEnd?, kleisli_apply]
    cases s with
    | nil => rfl
    | cons c s =>
        rw [span?_cons]
        cases hc : isWord c with
        | false => simp [hc]
        | true =>
            have hrun : wordRun? (c :: s) =
                some (c :: s.takeWhile isWord, (c :: s).dropWhile isWord) := by
              simp [wordRun?, hc]
            rw [hrun, Option.map_eq_bind]
            simp only [List.head?_cons, isWordAt_some, hc, if_true]
            rfl
  shrinks := shrinks_span?.kleisli shrinks_pastTo?
  advances := (advances_span? fun _ => id).kleisli shrinks_pastTo?
  stops := (stops_pastTo? (by decide)).kleisli shrinks_span?

def streamAliasEnd? : Reader := afterWord? (keyword "as") >=> blanksTo? isWord isWord

theorem streamAlias?_reads : streamAlias?.Reads streamAliasEnd? where
  outside := streamAlias?_wordwise.outside
  eq := by
    intro s
    rw [streamAlias?_eq, blanksBehind_none isLetters_as, streamAliasEnd?, blanksTo?, kleisli_assoc,
      kleisli_apply, Option.map_bind]
    apply Option.bind_congr
    intro rest _
    rw [Function.comp_apply, ← wordRun?_eq_span?, Option.map_map, Option.map_eq_bind]
    rfl
  shrinks := shrinks_afterWord?.kleisli shrinks_blanksTo?
  advances := (advances_afterWord? isLetters_as).kleisli shrinks_blanksTo?
  stops := (stops_blanksTo? fun _ => id).kleisli shrinks_afterWord?

def countEnd? : Reader := after? '<' >=> pastTo? (· ≠ '>') '>'

theorem count?_reads : count?.Reads countEnd? where
  outside := count?_beginsWith.outside count?_blind (by decide)
  eq := by
    intro s
    cases s with
    | nil => rfl
    | cons c s =>
        by_cases hc : c = '<'
        · subst hc
          rw [Option.map_eq_bind]
          rfl
        · rw [count?_beginsWith c s hc, countEnd?, kleisli_apply, after?, if_neg hc]
          rfl
  shrinks := shrinks_after?.kleisli shrinks_pastTo?
  advances := advances_after?.kleisli shrinks_pastTo?
  stops := (stops_pastTo? (by decide)).kleisli shrinks_after?

def numberEnd? : Reader := span? isDigit isNumberChar

theorem isNumberChar_of_isWord (c : Char) (hc : isWord c = true) : isNumberChar c = true := by
  simp [isNumberChar, hc]

theorem number?_reads : number?.Reads numberEnd? where
  outside := number?_wordwise.outside
  eq := by
    intro s
    cases s with
    | nil => rfl
    | cons c s =>
        rw [number?_cons, isEdge_of_border rfl, numberEnd?, span?_cons]
        cases hc : isDigit c with
        | false => simp
        | true => simp [isWord_of_isDigit hc]
  shrinks := shrinks_span?
  advances := advances_span? fun c hc => isNumberChar_of_isWord c (isWord_of_isDigit hc)
  stops := stops_span? isNumberChar_of_isWord

theorem noise_reads : ∀ p ∈ noise, ∃ read, p.Reads read := by
  simp only [noise, List.forall_mem_cons]
  exact ⟨⟨_, handler?_reads⟩, ⟨_, grouping?_reads⟩, ⟨_, condition?_reads⟩, ⟨_, timeBound?_reads⟩,
    ⟨_, waiting?_reads⟩, ⟨_, eventAlias?_reads⟩, ⟨_, streamAlias?_reads⟩, ⟨_, count?_reads⟩,
    ⟨_, number?_reads⟩, nofun⟩

end EventOperator.Query
