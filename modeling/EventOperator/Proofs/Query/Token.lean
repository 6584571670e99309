import EventOperator.Proofs.Query.Clause
import EventOperator.Query.Source

/-!
Queries as tokens. A token is a keyword, which is written in any case, or a text in which no word is
reserved. Blanks may stand between tokens, and they have to where two words would become one.
-/

namespace EventOperator.Query

open EventOperator.Text

variable {c : Char} {word w t s u v gap : List Char}

def reservedWords : List (List Char) :=
  clauseWords ++ clauseEnds ++ ["from", "define", "partition"].map keyword

def IsReserved (w : List Char) : Prop := ∃ word ∈ reservedWords, Spells word w

instance (w : List Char) : Decidable (IsReserved w) :=
  inferInstanceAs (Decidable (∃ word ∈ reservedWords, Spells word w))

def IsPlain (s : List Char) : Prop := ';' ∉ s ∧ ∀ w ∈ words s, ¬ IsReserved w

instance (s : List Char) : Decidable (IsPlain s) := inferInstanceAs (Decidable (_ ∧ _))

theorem isLetters_reservedWords : ∀ word ∈ reservedWords, IsLetters word := by decide

structure Plain where
  chars : List Char
  isPlain : IsPlain chars

inductive Token
  | keyword (word : List Char) (letters : IsLetters word)
  | plain (text : Plain)

def Token.Spelled : Token → List Char → Prop
  | .keyword word _, t => t.map Char.toLower = word
  | .plain text, t => t = text.chars

/-- A text that consists of the tokens and of blanks. -/
inductive Written : List Token → List Char → Prop
  | nil {gap : List Char} : (∀ c ∈ gap, isBlank c = true) → Written [] gap
  | cons {gap t s : List Char} {token : Token} {tokens : List Token} :
      (∀ c ∈ gap, isBlank c = true) → token.Spelled t → Apart t.getLast? s.head? →
        Written tokens s → Written (token :: tokens) (gap ++ (t ++ s))

variable {token : Token} {tokens front back : List Token}

theorem Written.blanks_of_nil (h : Written [] s) : ∀ c ∈ s, isBlank c = true := by
  cases h with
  | nil hgap => exact hgap

theorem Written.exists_append (h : Written (token :: tokens) s) :
    ∃ gap t v, s = gap ++ (t ++ v) ∧ (∀ c ∈ gap, isBlank c = true) ∧ token.Spelled t ∧
      Apart t.getLast? v.head? ∧ Written tokens v := by
  cases h with
  | @cons gap t v _ _ hgap ht hap hv => exact ⟨gap, t, v, rfl, hgap, ht, hap, hv⟩

def Token.chars : Token → List Char
  | .keyword word _ => word
  | .plain text => text.chars

/-- The tokens with a blank in front of each, and keywords in lower case. -/
def render (tokens : List Token) : List Char := tokens.flatMap fun token => ' ' :: token.chars

theorem toLower_of_isLower (h : c.isLower = true) : c.toLower = c := by
  rcases toLower_eq_or_isUpper c with heq | hupper
  · exact heq
  · have hrange := isUpper_iff.mp hupper
    have hrange' := isLower_iff.mp h
    omega

theorem Token.spelled_chars (token : Token) : token.Spelled token.chars := by
  cases token with
  | keyword word letters =>
      exact (List.map_congr_left fun c hc => toLower_of_isLower (letters.2 c hc)).trans
        (List.map_id word)
  | plain text => rfl

theorem isWordAt_head?_render (tokens : List Token) : isWordAt (render tokens).head? = false := by
  cases tokens <;> rfl

theorem written_render (tokens : List Token) : Written tokens (render tokens) := by
  induction tokens with
  | nil => exact .nil nofun
  | cons token tokens ih =>
      have hgap : ∀ c ∈ [' '], isBlank c = true := by decide
      exact .cons hgap token.spelled_chars (Or.inr (isWordAt_head?_render tokens)) ih

theorem apart_of_blanks (hgap : ∀ c ∈ gap, isBlank c = true) (after : Option Char) :
    Apart gap.getLast? after := by
  left
  cases hlast : gap.getLast? with
  | none => rfl
  | some c => exact isWord_of_isBlank (hgap c (List.mem_of_getLast? hlast))

theorem apart_blanks (hgap : ∀ c ∈ gap, isBlank c = true) (before : Option Char) :
    Apart before gap.head? := by
  right
  cases gap with
  | nil => rfl
  | cons c gap => exact isWord_of_isBlank (hgap c List.mem_cons_self)

theorem words_blanks (hgap : ∀ c ∈ gap, isBlank c = true) : words gap = [] :=
  words_eq_nil fun c hc => isWord_of_isBlank (hgap c hc)

theorem apart_head?_left {before : Option Char} (hap : Apart before (u ++ v).head?) :
    Apart before u.head? := by
  cases u with
  | nil => exact Or.inr rfl
  | cons c u => exact hap

theorem apart_head?_append {before : Option Char} (hu : Apart before u.head?)
    (hv : u = [] → Apart before v.head?) : Apart before (u ++ v).head? := by
  cases u with
  | nil => exact hv rfl
  | cons c u => exact hu

theorem apart_getLast?_append {after : Option Char} (hv : Apart v.getLast? after)
    (hu : v = [] → Apart u.getLast? after) : Apart (u ++ v).getLast? after := by
  cases v with
  | nil =>
      rw [List.append_nil]
      exact hu rfl
  | cons c v =>
      rw [List.getLast?_append]
      rw [List.getLast?_eq_some_getLast (List.cons_ne_nil c v)] at hv ⊢
      exact hv

theorem apart_head?_of_ne_nil {before : Option Char} (hne : u ≠ []) (hap : Apart before u.head?) :
    Apart before (u ++ v).head? :=
  apart_head?_append hap fun hnil => absurd hnil hne

theorem apart_head?_of_append {before : Option Char} (hne : u ≠ [])
    (hap : Apart before (s ++ u).head?) (v : List Char) : Apart before (s ++ (u ++ v)).head? := by
  rw [← List.append_assoc]
  exact apart_head?_of_ne_nil (List.append_ne_nil_of_right_ne_nil _ hne) hap

theorem apart_getLast?_of_ne_nil {after : Option Char} (hne : v ≠ [])
    (hap : Apart v.getLast? after) : Apart (u ++ v).getLast? after :=
  apart_getLast?_append hap fun hnil => absurd hnil hne

theorem apart_head?_behind (hts : Apart t.getLast? s.head?)
    (hap : Apart (t ++ s).getLast? v.head?) : Apart t.getLast? (s ++ v).head? := by
  apply apart_head?_append hts
  rintro rfl
  rwa [List.append_nil] at hap

theorem apart_behind (hts : Apart t.getLast? s.head?)
    (hap : Apart (gap ++ (t ++ s)).getLast? v.head?) : Apart t.getLast? (s ++ v).head? :=
  apart_head?_behind hts (apart_of_append hap)

theorem mem_blanks_append {gap' : List Char} (hgap : ∀ c ∈ gap, isBlank c = true)
    (hgap' : ∀ c ∈ gap', isBlank c = true) : ∀ c ∈ gap ++ gap', isBlank c = true := by
  intro c hc
  rcases List.mem_append.mp hc with hc | hc
  · exact hgap c hc
  · exact hgap' c hc

namespace Written

theorem cons_append (ht : token.Spelled t) (hap : Apart t.getLast? s.head?)
    (h : Written tokens s) : Written (token :: tokens) (t ++ s) :=
  @cons [] t s token tokens nofun ht hap h

theorem blanks (hgap : ∀ c ∈ gap, isBlank c = true) (h : Written tokens s) :
    Written tokens (gap ++ s) := by
  cases h with
  | nil hgap' => exact .nil (mem_blanks_append hgap hgap')
  | cons hgap' ht hap hrest =>
      rw [← List.append_assoc]
      exact .cons (mem_blanks_append hgap hgap') ht hap hrest

theorem append (hu : Written front u) (hv : Written back v) (hap : Apart u.getLast? v.head?) :
    Written (front ++ back) (u ++ v) := by
  induction hu with
  | nil hgap => exact hv.blanks hgap
  | @cons gap t s token tokens hgap ht hts hs ih =>
      have hrest := ih (apart_of_append (apart_of_append hap))
      rw [List.append_assoc, List.append_assoc]
      exact .cons hgap ht (apart_behind hts hap) hrest

theorem append_blanks (h : Written tokens s) (hgap : ∀ c ∈ gap, isBlank c = true) :
    Written tokens (s ++ gap) := by
  have happend := h.append (.nil hgap) (apart_blanks hgap _)
  rwa [List.append_nil] at happend

theorem split (h : Written (front ++ back) s) :
    ∃ u v, s = u ++ v ∧ Written front u ∧ Written back v ∧ Apart u.getLast? v.head? := by
  induction front generalizing s with
  | nil => exact ⟨[], s, rfl, .nil (by simp), h, Or.inl rfl⟩
  | cons token front ih =>
      cases h with
      | @cons gap t s _ _ hgap ht hts hs =>
          obtain ⟨u, v, rfl, hu, hv, hap⟩ := ih hs
          refine ⟨gap ++ (t ++ u), v, by simp, .cons hgap ht (apart_head?_left hts) hu, hv, ?_⟩
          refine apart_getLast?_append (apart_getLast?_append hap ?_) ?_
          · rintro rfl
            exact hts
          · exact fun _ => apart_of_blanks hgap _

end Written

/-! What is found in a text is found in one of the tokens. -/

theorem isRun_of_toLower (hletters : IsLetters word) (h : t.map Char.toLower = word) : IsRun t :=
  (spells_of_toLower h).isRun hletters

theorem toNat_lt_of_isAlpha (h : c.isAlpha = true) : c.toNat < 128 := by
  rw [isAlpha_iff, isUpper_iff, isLower_iff] at h
  omega

theorem isAlpha_of_isLower_toLower (h : c.toLower.isLower = true) : c.isAlpha = true := by
  rcases toLower_eq_or_isUpper c with heq | hupper
  · exact isAlpha_iff.mpr (Or.inr (heq ▸ h))
  · exact isAlpha_iff.mpr (Or.inl hupper)

theorem isAlpha_of_mem_keyword (hletters : IsLetters word) (h : t.map Char.toLower = word)
    (hc : c ∈ t) : c.isAlpha = true :=
  isAlpha_of_isLower_toLower (hletters.2 _ (h ▸ List.mem_map_of_mem hc))

theorem Written.exists_of_mem_words (h : Written tokens s) (hw : w ∈ words s) :
    ∃ token ∈ tokens, ∃ t, token.Spelled t ∧ w ∈ words t := by
  induction h with
  | nil hgap =>
      rw [words_blanks hgap] at hw
      exact absurd hw (by simp)
  | @cons gap t s token tokens hgap ht hts hs ih =>
      rw [words_append (apart_of_blanks hgap _), words_append hts, words_blanks hgap,
        List.nil_append] at hw
      rcases List.mem_append.mp hw with hw | hw
      · exact ⟨token, List.mem_cons_self, t, ht, hw⟩
      · obtain ⟨other, hother, hfound⟩ := ih hw
        exact ⟨other, List.mem_cons_of_mem token hother, hfound⟩

theorem Written.exists_of_mem (h : Written tokens s) (hc : c ∈ s) (hblank : isBlank c = false) :
    ∃ token ∈ tokens, ∃ t, token.Spelled t ∧ c ∈ t := by
  induction h with
  | nil hgap => simp [hgap c hc] at hblank
  | @cons gap t s token tokens hgap ht hts hs ih =>
      rcases List.mem_append.mp hc with hc | hc
      · simp [hgap c hc] at hblank
      · rcases List.mem_append.mp hc with hc | hc
        · exact ⟨token, List.mem_cons_self, t, ht, hc⟩
        · obtain ⟨other, hother, hfound⟩ := ih hc
          exact ⟨other, List.mem_cons_of_mem token hother, hfound⟩

def Token.IsKeyword (word : List Char) : Token → Prop
  | .keyword w _ => w = word
  | .plain _ => False

def Token.HasChar (c : Char) : Token → Prop
  | .keyword _ _ => False
  | .plain text => c ∈ text.chars

theorem Token.not_spells (hword : word ∈ reservedWords) (hne : ¬ token.IsKeyword word)
    (ht : token.Spelled t) (hw : w ∈ words t) : ¬ Spells word w := by
  intro hspells
  cases token with
  | keyword other letters =>
      rw [words_eq_singleton (isRun_of_toLower letters ht), List.mem_singleton] at hw
      subst hw
      have hascii : ∀ c ∈ w, c.toNat < 128 := fun c hc =>
        toNat_lt_of_isAlpha (isAlpha_of_mem_keyword letters ht hc)
      have hlower : w.map Char.toLower = word := hspells.toLower_eq (Or.inr hascii)
      exact hne (ht.symm.trans hlower)
  | plain text =>
      obtain rfl : t = text.chars := ht
      exact text.isPlain.2 w hw ⟨word, hword, hspells⟩

theorem Written.not_spells (h : Written tokens s) (hword : word ∈ reservedWords)
    (hne : ∀ token ∈ tokens, ¬ token.IsKeyword word) : ∀ w ∈ words s, ¬ Spells word w := by
  intro w hw
  obtain ⟨token, htoken, t, ht, hwt⟩ := h.exists_of_mem_words hw
  exact token.not_spells hword (hne token htoken) ht hwt

theorem Written.not_mem (h : Written tokens s) (hc : isWord c = false)
    (hblank : isBlank c = false) (hnone : ∀ token ∈ tokens, ¬ token.HasChar c) : c ∉ s := by
  intro hmem
  obtain ⟨token, htoken, t, ht, hct⟩ := h.exists_of_mem hmem hblank
  cases token with
  | keyword word letters =>
      have hword := (isRun_of_toLower letters ht).2 c hct
      simp [hc] at hword
  | plain text =>
      obtain rfl : t = text.chars := ht
      exact hnone _ htoken hct

end EventOperator.Query
