import EventOperator.Proofs.Query.Phrase
import EventOperator.Proofs.Text.Border
import EventOperator.Proofs.Text.UpTo

/-!
The patterns for noise, one after the other, over the phrases of a clause. Each of them takes out the
phrases of its sort and leaves the tokens of all others, with blanks between them.
-/

namespace EventOperator.Query

open EventOperator.Text

variable {p : Pattern Unit} {c : Char} {word w s t u v gap : List Char} {token : Token}
  {tokens : List Token} {text : Plain} {used : Nat} {phrase : Phrase} {rest phrases : List Phrase}

theorem Phrase.left_of_lt (h : phrase.stage < used) : phrase.left used = [] := if_pos h

theorem Phrase.le_stage_of_mem (h : token ∈ phrase.left used) : used ≤ phrase.stage := by
  cases Nat.lt_or_ge phrase.stage used with
  | inl hlt =>
      rw [left_of_lt hlt] at h
      exact absurd h (by simp)
  | inr hle => exact hle

theorem Phrase.left_succ (hstage : phrase.stage ≠ used) (hused : used ≠ 2) :
    phrase.left (used + 1) = phrase.left used := by
  have hlt : phrase.stage < used + 1 ↔ phrase.stage < used := by omega
  have hle : used + 1 ≤ 2 ↔ used ≤ 2 := by omega
  simp only [left, hlt, hle]

theorem Phrase.exists_of_mem_left (h : token ∈ phrase.left used) :
    token ∈ phrase.tokens ∨ token ∈ phrase.ungrouped.tokens := by
  rw [left, if_neg (Nat.not_lt.mpr (le_stage_of_mem h))] at h
  split at h
  · exact Or.inl h
  · exact Or.inr h

def Phrase.keyword? : Phrase → Option (List Char)
  | .word w _ => some w
  | .condition _ => some (keyword "on")
  | .timeBound _ _ => some (keyword "within")
  | .waiting _ _ => some (keyword "for")
  | .streamAlias _ => some (keyword "as")
  | _ => none

theorem Phrase.keyword?_word_ne (hw : w ∈ plainWords) (hword : word ∉ plainWords) :
    (Phrase.word w hw).keyword? ≠ some word :=
  fun h => hword (Option.some.inj h ▸ hw)

theorem not_isKeyword_inside {b : Bounds} (h : token ∈ b.inside) : ¬ token.IsKeyword word := by
  cases b with
  | exactly digits =>
      obtain rfl := List.mem_singleton.mp h
      exact id
  | between low? high? =>
      rcases List.mem_append.mp h with h | h
      · obtain ⟨digits, -, rfl⟩ := Option.map_eq_some_iff.mp (Option.mem_toList.mp h)
        exact id
      · rcases List.mem_cons.mp h with rfl | h
        · exact id
        · obtain ⟨digits, -, rfl⟩ := Option.map_eq_some_iff.mp (Option.mem_toList.mp h)
          exact id

theorem Phrase.keyword?_of_mem_tokens (h : token ∈ phrase.tokens)
    (hkeyword : token.IsKeyword word) : phrase.keyword? = some word := by
  cases phrase with
  | count b =>
      rcases List.mem_cons.mp h with rfl | h
      · exact hkeyword.elim
      · rcases List.mem_append.mp h with h | h
        · exact absurd hkeyword (not_isKeyword_inside h)
        · obtain rfl := List.mem_singleton.mp h
          exact hkeyword.elim
  | _ =>
      simp only [tokens, List.mem_cons, List.not_mem_nil, or_false] at h
      rcases h with rfl | rfl | rfl
      all_goals first | exact hkeyword.elim | exact congrArg some hkeyword

theorem Phrase.keyword?_ungrouped (phrase : Phrase) :
    phrase.ungrouped.keyword? = phrase.keyword? := by
  cases phrase <;> rfl

theorem Phrase.keyword?_of_isKeyword (h : token ∈ phrase.left used)
    (hkeyword : token.IsKeyword word) : phrase.keyword? = some word := by
  rcases exists_of_mem_left h with h | h
  · exact keyword?_of_mem_tokens h hkeyword
  · rw [← keyword?_ungrouped]
    exact keyword?_of_mem_tokens h hkeyword

/-- The characters besides word characters that a phrase may hold. -/
def Phrase.MayHold (c : Char) : Phrase → Prop
  | .mark m => c ∈ m.chars
  | .source (.inner _) => c = '#'
  | .filter _ => True
  | .handler _ => c ≠ '[' ∧ c ≠ ']'
  | .opening => c = '('
  | .closing => c = ')'
  | .condition _ => c ≠ '#' ∧ c ≠ '[' ∧ c ≠ ']'
  | .timeBound _ _ => c = '.'
  | .waiting _ _ => c = '.'
  | .eventAlias _ => c = '='
  | .count _ => c = '<' ∨ c = ':' ∨ c = '>'
  | _ => False

theorem not_mem_name (hc : isWord c = false) (name : Name) : c ∉ name.chars := by
  intro hmem
  simp [name.isName.2.1 c hmem] at hc

theorem eq_of_mem_numeral (hc : isWord c = false) {n : Numeral} (h : c ∈ n.chars) : c = '.' := by
  have hchar := n.isNumeral.2.1 c h
  simpa [isNumberChar, hc] using hchar

theorem not_mem_digits (hc : isWord c = false) (digits : Digits) : c ∉ digits.chars := by
  intro hmem
  simp [isWord_of_isDigit (digits.isDigits.2 c hmem)] at hc

theorem eq_of_hasChar_symbol {d : Char} {h : isWord d = false ∧ d ≠ ';'}
    (hchar : (symbol d h).HasChar c) : c = d :=
  List.mem_singleton.mp hchar

theorem eq_of_hasChar_inside (hc : isWord c = false) {b : Bounds} (h : token ∈ b.inside)
    (hchar : token.HasChar c) : c = ':' := by
  have hnone : ∀ digits : Digits, ¬ (Token.plain digits.plain).HasChar c := not_mem_digits hc
  cases b with
  | exactly digits =>
      obtain rfl := List.mem_singleton.mp h
      exact absurd hchar (hnone digits)
  | between low? high? =>
      rcases List.mem_append.mp h with h | h
      · obtain ⟨digits, -, rfl⟩ := Option.map_eq_some_iff.mp (Option.mem_toList.mp h)
        exact absurd hchar (hnone digits)
      · rcases List.mem_cons.mp h with rfl | h
        · exact eq_of_hasChar_symbol hchar
        · obtain ⟨digits, -, rfl⟩ := Option.map_eq_some_iff.mp (Option.mem_toList.mp h)
          exact absurd hchar (hnone digits)

theorem ne_of_mem_handler (h : Handler) (hc : c ∈ h.chars) : c ≠ '[' ∧ c ≠ ']' := by
  simp only [Handler.chars, List.mem_cons, List.mem_append, List.not_mem_nil, or_false] at hc
  rcases hc with rfl | hc | rfl | hc | rfl
  · decide
  · have hchar := h.isHandler.2 c hc
    constructor <;> rintro rfl <;> exact absurd hchar (by decide)
  · decide
  · exact (h.free c hc).2.2
  · decide

theorem Phrase.mayHold_of_mem_tokens (hc : isWord c = false) (h : token ∈ phrase.tokens)
    (hchar : token.HasChar c) : phrase.MayHold c := by
  cases phrase with
  | count b =>
      rcases List.mem_cons.mp h with rfl | h
      · exact Or.inl (eq_of_hasChar_symbol hchar)
      · rcases List.mem_append.mp h with h | h
        · exact Or.inr (Or.inl (eq_of_hasChar_inside hc h hchar))
        · obtain rfl := List.mem_singleton.mp h
          exact Or.inr (Or.inr (eq_of_hasChar_symbol hchar))
  | word w hw =>
      obtain rfl := List.mem_singleton.mp h
      exact hchar
  | mark m =>
      obtain rfl := List.mem_singleton.mp h
      exact hchar
  | source s =>
      obtain rfl := List.mem_singleton.mp h
      cases s with
      | stream name => exact not_mem_name hc name hchar
      | inner name => exact (List.mem_cons.mp hchar).resolve_right (not_mem_name hc name)
  | filter f => trivial
  | handler f =>
      obtain rfl := List.mem_singleton.mp h
      exact ne_of_mem_handler f hchar
  | opening =>
      obtain rfl := List.mem_singleton.mp h
      exact eq_of_hasChar_symbol hchar
  | closing =>
      obtain rfl := List.mem_singleton.mp h
      exact eq_of_hasChar_symbol hchar
  | condition d =>
      simp only [tokens, List.mem_cons, List.not_mem_nil, or_false] at h
      rcases h with rfl | rfl
      · exact hchar.elim
      · exact d.free c hchar
  | timeBound n unit =>
      simp only [tokens, List.mem_cons, List.not_mem_nil, or_false] at h
      rcases h with rfl | rfl | rfl
      · exact hchar.elim
      · exact eq_of_mem_numeral hc hchar
      · exact absurd hchar (not_mem_name hc unit)
  | waiting n unit =>
      simp only [tokens, List.mem_cons, List.not_mem_nil, or_false] at h
      rcases h with rfl | rfl | rfl
      · exact hchar.elim
      · exact eq_of_mem_numeral hc hchar
      · exact absurd hchar (not_mem_name hc unit)
  | eventAlias a =>
      simp only [tokens, List.mem_cons, List.not_mem_nil, or_false] at h
      rcases h with rfl | rfl
      · exact absurd hchar (not_mem_name hc a)
      · exact eq_of_hasChar_symbol hchar
  | streamAlias a =>
      simp only [tokens, List.mem_cons, List.not_mem_nil, or_false] at h
      rcases h with rfl | rfl
      · exact hchar
      · exact not_mem_name hc a hchar

theorem Phrase.mayHold_ungrouped : phrase.ungrouped.MayHold c ↔ phrase.MayHold c := by
  cases phrase <;> exact Iff.rfl

theorem Phrase.mayHold_of_hasChar (hc : isWord c = false) (h : token ∈ phrase.left used)
    (hchar : token.HasChar c) : phrase.MayHold c := by
  rcases exists_of_mem_left h with h | h
  · exact mayHold_of_mem_tokens hc h hchar
  · exact mayHold_ungrouped.mp (mayHold_of_mem_tokens hc h hchar)

def remains (used : Nat) (phrases : List Phrase) : List Token := phrases.flatMap (Phrase.left used)

theorem remains_cons (used : Nat) (phrase : Phrase) (rest : List Phrase) :
    remains used (phrase :: rest) = phrase.left used ++ remains used rest :=
  List.flatMap_cons

/-- What a pattern does to the text of one phrase, where it does so behind it. -/
def Clears (p : Pattern Unit) (used : Nat) (phrase : Phrase) (rest : List Phrase) : Prop :=
  ∀ u v, Written (phrase.left used) u → Written (remains used rest) v →
    Apart u.getLast? v.head? → Written (remains (used + 1) rest) (blankOut p v) →
      Written (remains (used + 1) (phrase :: rest)) (blankOut p (u ++ v))

theorem Written.blankOut {relation : Phrase → Phrase → Prop} (hp : p.SkipsBlanks)
    (hchain : phrases.IsChain relation)
    (hclears : ∀ phrase rest, (phrase :: rest).IsChain relation → Clears p used phrase rest)
    (h : Written (remains used phrases) s) :
    Written (remains (used + 1) phrases) (blankOut p s) := by
  induction phrases generalizing s with
  | nil =>
      have hgap : ∀ c ∈ s, isBlank c = true := h.blanks_of_nil
      have hscan := scan_blanks hp hgap []
      rw [List.append_nil] at hscan
      rw [blankOut_eq_scan, hscan]
      exact .nil (by simpa using hgap)
  | cons phrase rest ih =>
      rw [remains_cons] at h
      obtain ⟨u, v, rfl, hu, hv, hap⟩ := h.split
      exact hclears phrase rest hchain u v hu hv hap (ih (List.isChain_cons.mp hchain).2 hv)

theorem apart_blankOut {before : Option Char} (hap : Apart before v.head?) :
    Apart before (Text.blankOut p v).head? := by
  refine hap.imp_right fun hv => ?_
  cases hhead : isWordAt (Text.blankOut p v).head? with
  | false => rfl
  | true => simp [isWordAt_head?_blankOut p v hhead] at hv

theorem clears_of_scan (hsame : phrase.left (used + 1) = phrase.left used)
    (hscan : ∀ u v, Written (phrase.left used) u → Written (remains used rest) v →
      Apart u.getLast? v.head? → scan p (u ++ v) = u.map .inl ++ scan p v) :
    Clears p used phrase rest := by
  intro u v hu hv hap hrest
  rw [blankOut_of_scan_inl (hscan u v hu hv hap), remains_cons, hsame]
  exact hu.append hrest (apart_blankOut hap)

theorem clears_of_keyword (hp : p.Wordwise) (honly : p.Only (Spells word))
    (hword : word ∈ reservedWords) (hsame : phrase.left (used + 1) = phrase.left used)
    (hne : phrase.keyword? ≠ some word) : Clears p used phrase rest := by
  apply clears_of_scan hsame
  intro u v hu hv hap
  apply hp.scan_append honly _ hap
  exact hu.not_spells hword fun token htoken hkeyword =>
    hne (Phrase.keyword?_of_isKeyword htoken hkeyword)

theorem Phrase.not_mem_of_written (h : Written (phrase.left used) u) (hc : isWord c = false)
    (hblank : isBlank c = false) (hfree : used ≤ phrase.stage → ¬ phrase.MayHold c) : c ∉ u :=
  h.not_mem hc hblank fun _ htoken hchar =>
    hfree (le_stage_of_mem htoken) (mayHold_of_hasChar hc htoken hchar)

theorem clears_of_char (hp : p.Blind) (hc : isWord c = false) (hblank : isBlank c = false)
    (hbegins : p.BeginsWith c)
    (hsame : phrase.left (used + 1) = phrase.left used)
    (hfree : used ≤ phrase.stage → ¬ phrase.MayHold c) : Clears p used phrase rest := by
  apply clears_of_scan hsame
  intro u v hu hv hap
  have hnone := Phrase.not_mem_of_written hu hc hblank hfree
  apply hp.scan_append
  intro d hd s
  apply hbegins
  rintro rfl
  exact hnone hd

theorem apart_of_blanks_behind {gap' : List Char} (hgap' : ∀ c ∈ gap', isBlank c = true)
    (hap : Apart (gap ++ (t ++ gap')).getLast? v.head?) : Apart t.getLast? (gap' ++ v).head? :=
  apart_behind (apart_blanks hgap' _) hap

theorem mem_blanks_around {gap' : List Char} (hgap : ∀ c ∈ gap, isBlank c = true)
    (hgap' : ∀ c ∈ gap', isBlank c = true) : ∀ c ∈ gap ++ ' ' :: gap', isBlank c = true := by
  intro c hc
  rcases List.mem_append.mp hc with hc | hc
  · exact hgap c hc
  · rcases List.mem_cons.mp hc with rfl | hc
    · decide
    · exact hgap' c hc

theorem clears_of_match (hp : p.SkipsBlanks) (hgone : phrase.left (used + 1) = [])
    (hmatch : ∀ u v, Written (phrase.left used) u → Apart u.getLast? v.head? →
      ∃ gap t gap', u = gap ++ (t ++ gap') ∧ (∀ c ∈ gap, isBlank c = true) ∧
        (∀ c ∈ gap', isBlank c = true) ∧ Takes p t (gap' ++ v) ()) :
    Clears p used phrase rest := by
  intro u v hu hv hap hrest
  obtain ⟨gap, t, gap', rfl, hgap, hgap', htakes⟩ := hmatch u v hu hap
  have hborder := apart_of_blanks_behind hgap' hap
  rw [List.append_assoc, List.append_assoc, blankOut_match hp hgap hgap' htakes hborder,
    remains_cons, hgone]
  exact hrest.blanks (mem_blanks_around hgap hgap')

end EventOperator.Query
