import EventOperator.Proofs.Query.Naming
import EventOperator.Proofs.Query.Reading
import EventOperator.Proofs.Text.Widening

/-!
Blanks put into a clause. All patterns for noise find the same, and the same names are left.
-/

namespace EventOperator.Query

open EventOperator.Text

variable {c : Char} {s t : List Char}

theorem isHandlerChar_of_isBreak (c : Char) (hc : IsBreak c) : isHandlerChar c = false := by
  simp [isHandlerChar, hc.1, hc.2.1, hc.2.2]

theorem isNumberChar_of_isBreak (c : Char) (hc : IsBreak c) : isNumberChar c = false := by
  simp [isNumberChar, hc.1, hc.2.2]

theorem ne_of_isBlank {d : Char} (hd : isBlank d = false) (c : Char) (hc : isBlank c = true) :
    decide (c ≠ d) = true := by
  simpa using ne_of_holds hc hd

theorem handler?_steady : handler?.Steady where
  skipsBlanks := handler?_skipsBlanks
  reads := by
    have hname : Widens (span? isHandlerChar isHandlerChar) :=
      widens_span? isHandlerChar_of_isBreak fun _ => id
    have hopen : Widens (pastTo? isBlank '(') := widens_pastTo? fun _ => id
    have hclose : Widens (pastTo? (· ≠ ')') ')') := widens_pastTo? (ne_of_isBlank (by decide))
    exact ⟨_, handler?_reads, widensInside_after?.kleisli (hname.kleisli (hopen.kleisli hclose))⟩

theorem grouping?_steady : grouping?.Steady where
  skipsBlanks := grouping?_skipsBlanks
  reads := ⟨_, grouping?_reads, widensInside_one?⟩

theorem condition?_steady : condition?.Steady where
  skipsBlanks := condition?_wordwise.skipsBlanks
  reads := by
    have hend : Widens (border? >=> fromWord? joinWords) :=
      widens_border?.kleisli (widens_fromWord? isLetters_joinWords)
    exact ⟨_, condition?_reads, ((widens_afterWord? isLetters_on).kleisli hend).inside⟩

theorem timeBound?_steady : timeBound?.Steady where
  skipsBlanks := timeBound?_wordwise.skipsBlanks
  reads := by
    have hend : Widens (border? >=> toEnd?) := widens_border?.kleisli widens_toEnd?
    exact ⟨_, timeBound?_reads, ((widens_afterWord? isLetters_within).kleisli hend).inside⟩

theorem waiting?_steady : waiting?.Steady where
  skipsBlanks := waiting?_wordwise.skipsBlanks
  reads := by
    have hnumber : Widens (blanksTo? isDigit isNumberChar) :=
      widens_blanksTo? isNumberChar_of_isBreak fun c hc =>
        isNumberChar_of_isWord c (isWord_of_isDigit hc)
    have hunit : Widens (past? isBlank >=> past? isWord) :=
      (widens_past?_blanks fun _ => id).kleisli (widens_past?_stop fun _ hc => hc.1)
    exact ⟨_, waiting?_reads,
      ((widens_afterWord? isLetters_for).kleisli (hnumber.kleisli hunit)).inside⟩

theorem eventAlias?_steady : eventAlias?.Steady where
  skipsBlanks := eventAlias?_wordwise.skipsBlanks
  reads := by
    have hname : Widens (span? isWord isWord) := widens_span? (fun _ hc => hc.1) fun _ => id
    have hsign : Widens (pastTo? isBlank '=') := widens_pastTo? fun _ => id
    exact ⟨_, eventAlias?_reads, (hname.kleisli hsign).inside⟩

theorem streamAlias?_steady : streamAlias?.Steady where
  skipsBlanks := streamAlias?_wordwise.skipsBlanks
  reads := by
    have hname : Widens (blanksTo? isWord isWord) :=
      widens_blanksTo? (fun _ hc => hc.1) fun _ => id
    exact ⟨_, streamAlias?_reads, ((widens_afterWord? isLetters_as).kleisli hname).inside⟩

theorem count?_steady : count?.Steady where
  skipsBlanks := count?_skipsBlanks
  reads := by
    have hclose : Widens (pastTo? (· ≠ '>') '>') := widens_pastTo? (ne_of_isBlank (by decide))
    exact ⟨_, count?_reads, widensInside_after?.kleisli hclose⟩

theorem number?_steady : number?.Steady where
  skipsBlanks := number?_wordwise.skipsBlanks
  reads := by
    have hnumber : Widens (span? isDigit isNumberChar) :=
      widens_span? isNumberChar_of_isBreak fun c hc =>
        isNumberChar_of_isWord c (isWord_of_isDigit hc)
    exact ⟨_, number?_reads, hnumber.inside⟩

theorem noise_steady : ∀ p ∈ noise, p.Steady := by
  simp only [noise, List.forall_mem_cons]
  exact ⟨handler?_steady, grouping?_steady, condition?_steady, timeBound?_steady, waiting?_steady,
    eventAlias?_steady, streamAlias?_steady, count?_steady, number?_steady, List.forall_mem_nil _⟩

theorem captures_name?_widened (h : IsWidened s t) : captures name? s = captures name? t := by
  cases h with
  | refl => rfl
  | @intro gap back x hgap hback =>
      rw [captures_name?_append hback.isWordAt_head?,
        captures_name?_append (hback.blanks hgap).isWordAt_head?, captures_blanks_name? hgap]

theorem captures_foldl_widened {patterns : List (Pattern Unit)} (hpatterns : patterns ⊆ noise)
    (h : IsWidened s t) :
    captures name? (patterns.foldl (fun s p => blankOut p s) s) =
      captures name? (patterns.foldl (fun s p => blankOut p s) t) :=
  captures_name?_widened (h.foldl fun p hp => noise_steady p (hpatterns hp))

end EventOperator.Query
