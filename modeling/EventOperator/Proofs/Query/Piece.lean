import EventOperator.Proofs.Query.Relabelling
import EventOperator.Proofs.Query.Statement

/-!
Clauses in which inner queries begin. The word `from` of an inner query stands in the clause of the
outer one, and it is no word of a clause, so it is read as the name of a stream.
-/

namespace EventOperator.Query

open EventOperator.Text

variable {c d e : Char} {s t u v gap name : List Char} {p : Phrase}

/-! The word `from`, and names that differ from it in a free letter only. -/

structure FromWord where
  chars : List Char
  spells : chars.map Char.toLower = keyword "from"

/-- The letters that are put for an `m`. -/
inductive StandIn where
  | q
  | z

namespace StandIn

def char : StandIn → Char → Char
  | q, 'm' => 'q'
  | q, 'M' => 'Q'
  | z, 'm' => 'z'
  | z, 'M' => 'Z'
  | _, c => c

/-- The second character is the first one, or stands in for it. -/
def Goes (a : StandIn) (c d : Char) : Prop := d = c ∨ d = a.char c

instance (a : StandIn) (c d : Char) : Decidable (a.Goes c d) := inferInstanceAs (Decidable (_ ∨ _))

theorem eq_m_or_char_eq (c : Char) : (c = 'm' ∨ c = 'M') ∨ ∀ a : StandIn, a.char c = c := by
  by_cases hm : c = 'm' ∨ c = 'M'
  · exact Or.inl hm
  · rw [not_or] at hm
    refine Or.inr fun a => ?_
    cases a <;> simp [char, hm]

theorem relabels (a : StandIn) : Relabels a.Goes where
  swaps := by
    rintro c d (rfl | rfl)
    · exact Or.inl rfl
    · rcases eq_m_or_char_eq c with (rfl | rfl) | hsame
      · right
        cases a <;> decide
      · right
        cases a <;> decide
      · exact Or.inl (hsame a).symm
  blank := Or.inl rfl

/-! A character is known once it is known how it reads with either letter. -/

theorem eq_of_goes (hq : q.Goes c d) (hz : z.Goes c d) : c = d := by
  rcases hq with rfl | rfl
  · rfl
  · rcases eq_m_or_char_eq c with (rfl | rfl) | hsame
    · exact absurd hz (by decide)
    · exact absurd hz (by decide)
    · exact (hsame q).symm

theorem eq_of_goes_char (hq : q.Goes c (q.char e)) (hz : z.Goes c (z.char e)) : c = e := by
  rcases eq_m_or_char_eq e with (rfl | rfl) | hsame
  · rcases eq_m_or_char_eq c with (rfl | rfl) | hsame
    · rfl
    · exact absurd hq (by decide)
    · rw [Goes, hsame, or_self] at hq hz
      exact absurd (hq.trans hz.symm) (by decide)
  · rcases eq_m_or_char_eq c with (rfl | rfl) | hsame
    · exact absurd hq (by decide)
    · rfl
    · rw [Goes, hsame, or_self] at hq hz
      exact absurd (hq.trans hz.symm) (by decide)
  · rw [hsame] at hq hz
    exact eq_of_goes hq hz

theorem eq_of_forall₂ (hq : List.Forall₂ q.Goes s t) (hz : List.Forall₂ z.Goes s t) : s = t := by
  induction hq with
  | nil => rfl
  | cons hcd _ ih =>
      cases hz with
      | cons hcd' hst => rw [eq_of_goes hcd hcd', ih hst]

theorem eq_of_forall₂_map (hq : List.Forall₂ q.Goes s (t.map q.char))
    (hz : List.Forall₂ z.Goes s (t.map z.char)) : s = t := by
  induction t generalizing s with
  | nil =>
      cases hq
      rfl
  | cons e t ih =>
      cases hq with
      | cons hce hst =>
          cases hz with
          | cons hce' hst' => rw [eq_of_goes_char hce hce', ih hst hst']

end StandIn

theorem StandIn.isAlpha_char (a : StandIn) (hc : c.isAlpha = true) : (a.char c).isAlpha = true := by
  rcases a.relabels.swaps c (a.char c) (Or.inr rfl) with heq | ⟨-, hfree⟩
  · rwa [← heq]
  · have hletters : ∀ d ∈ freeLetters, d.isAlpha = true := by decide
    exact hletters _ hfree

theorem exists_sameLetter {word w : List Char} (h : Spells word w) (hc : c ∈ w) :
    ∃ letter ∈ word, sameLetter letter c = true := by
  induction word generalizing w with
  | nil =>
      cases w with
      | nil => simp at hc
      | cons d w => simp [Spells, afterWord?] at h
  | cons letter word ih =>
      cases w with
      | nil => simp at hc
      | cons d w =>
          simp only [Spells, afterWord?] at h
          split at h
          · rename_i hd
            rcases List.mem_cons.mp hc with rfl | hc
            · exact ⟨letter, List.mem_cons_self, hd⟩
            · obtain ⟨other, hother, hsame⟩ := ih h hc
              exact ⟨other, List.mem_cons_of_mem letter hother, hsame⟩
          · exact absurd h (by simp)

namespace FromWord

variable (w : FromWord)

theorem isAlpha : ∀ c ∈ w.chars, c.isAlpha = true := fun _ hc =>
  isAlpha_of_mem_keyword isLetters_from w.spells hc

theorem isRun : IsRun w.chars := isRun_of_toLower isLetters_from w.spells

theorem exists_m : ∃ c ∈ w.chars, c = 'm' ∨ c = 'M' := by
  have hmem : 'm' ∈ w.chars.map Char.toLower := by
    rw [w.spells]
    decide
  obtain ⟨c, hc, hlower⟩ := List.mem_map.mp hmem
  have hcodes : ∀ n < 128, (Char.ofNat n).toLower = 'm' →
      Char.ofNat n = 'm' ∨ Char.ofNat n = 'M' := by decide
  have hascii := hcodes c.toNat (toNat_lt_of_isAlpha (w.isAlpha c hc))
  rw [Char.ofNat_toNat] at hascii
  exact ⟨c, hc, hascii hlower⟩

theorem isName_standIn (a : StandIn) : IsName (w.chars.map a.char) := by
  have halpha : ∀ c ∈ w.chars.map a.char, c.isAlpha = true := by
    intro c hc
    obtain ⟨d, hd, rfl⟩ := List.mem_map.mp hc
    exact a.isAlpha_char (w.isAlpha d hd)
  refine ⟨?_, fun c hc => isWord_of_isAlpha (halpha c hc), ?_⟩
  · cases hw : w.chars.map a.char with
    | nil => exact absurd (List.map_eq_nil_iff.mp hw) w.isRun.1
    | cons c s =>
        have hc : c.isAlpha = true := halpha c (by rw [hw]; exact List.mem_cons_self)
        simp [isNameStart, hc]
  · rintro ⟨word, hword, hspells⟩
    obtain ⟨c, hc, hm⟩ := w.exists_m
    obtain ⟨letter, hletter, hsame⟩ := exists_sameLetter hspells (List.mem_map_of_mem hc)
    have hnone : ∀ word ∈ reservedWords, ∀ letter ∈ word, ∀ c ∈ ['q', 'Q', 'z', 'Z'],
        sameLetter letter c = false := by decide
    have hput : a.char c ∈ ['q', 'Q', 'z', 'Z'] := by
      rcases hm with rfl | rfl <;> cases a <;> decide
    simp [hnone word hword letter hletter _ hput] at hsame

def standIn (a : StandIn) : Name := ⟨w.chars.map a.char, w.isName_standIn a⟩

end FromWord

/-- A part of a clause: a phrase, or the word with which an inner query begins. -/
inductive Piece where
  | phrase (p : Phrase)
  | word (w : FromWord)

namespace Piece

variable {first second : Piece} {pieces : List Piece}

/-- The piece with a stream put for the word. -/
def standIn (a : StandIn) : Piece → Phrase
  | phrase p => p
  | word w => .source (.stream (w.standIn a))

/-- What is read as the name of a stream. -/
def name? : Piece → Option (List Char)
  | phrase p => p.input?
  | word w => some w.chars

def lettered (a : StandIn) : Piece → List Char → List Char
  | phrase _, n => n
  | word _, n => n.map a.char

theorem input?_standIn (a : StandIn) (piece : Piece) :
    (piece.standIn a).input? = piece.name?.map (piece.lettered a) := by
  cases piece with
  | phrase p => exact Option.map_id'.symm
  | word w => rfl

theorem eq_of_lettered {piece : Piece}
    (h : ∀ a : StandIn, List.Forall₂ a.Goes s (piece.lettered a t)) : s = t := by
  cases piece with
  | phrase p => exact StandIn.eq_of_forall₂ (h .q) (h .z)
  | word w => exact StandIn.eq_of_forall₂_map (h .q) (h .z)

def tokens : Piece → List Token
  | phrase p => p.tokens
  | word _ => [.keyword (keyword "from") isLetters_from]

def admitsOpening : Piece → Bool
  | phrase p => p.admitsOpening
  | word _ => true

theorem admitsOpening_standIn (a : StandIn) (piece : Piece) :
    (piece.standIn a).admitsOpening = piece.admitsOpening := by
  cases piece <;> rfl

structure Precedes (first second : Piece) : Prop where
  adjoins : ∀ a : StandIn, Adjoins (first.standIn a) (second.standIn a)
  timeBound : ∀ a : StandIn, (first.standIn a).isTimeBound = false

theorem Precedes.of_admitsOpening (h : first.admitsOpening = true) : first.Precedes second := by
  have hphrase : ∀ phrase : Phrase, phrase.admitsOpening = true →
      (∀ c, phrase ≠ .condition c) ∧ phrase.isTimeBound = false := by
    intro phrase hphrase
    cases phrase with
    | condition c => exact nomatch hphrase
    | timeBound n unit => exact nomatch hphrase
    | _ => exact ⟨nofun, rfl⟩
  have hfirst : ∀ a, (first.standIn a).admitsOpening = true := fun a =>
    (first.admitsOpening_standIn a).trans h
  constructor
  · exact fun a => ⟨fun _ => hfirst a, fun c hc => absurd hc ((hphrase _ (hfirst a)).1 c)⟩
  · exact fun a => (hphrase _ (hfirst a)).2

theorem isChain_of_admitsOpening (h : ∀ piece ∈ pieces, piece.admitsOpening = true) :
    pieces.IsChain Precedes := by
  induction pieces with
  | nil => exact .nil
  | cons first rest ih =>
      obtain ⟨hfirst, hrest⟩ := List.forall_mem_cons.mp h
      exact List.isChain_cons.mpr ⟨fun _ _ => .of_admitsOpening hfirst, ih hrest⟩

end Piece

/-- A text that consists of the pieces and of blanks. -/
inductive ClauseText : List Piece → List Char → Prop
  | nil {gap : List Char} : (∀ c ∈ gap, isBlank c = true) → ClauseText [] gap
  | phrase {p : Phrase} {pieces : List Piece} {u v : List Char} : Written p.tokens u →
      Apart u.getLast? v.head? → ClauseText pieces v → ClauseText (.phrase p :: pieces) (u ++ v)
  | word {w : FromWord} {pieces : List Piece} {gap v : List Char} :
      (∀ c ∈ gap, isBlank c = true) → Apart w.chars.getLast? v.head? → ClauseText pieces v →
        ClauseText (.word w :: pieces) (gap ++ (w.chars ++ v))

namespace ClauseText

variable {pieces : List Piece}

theorem word_append {w : FromWord} (hap : Apart w.chars.getLast? v.head?)
    (h : ClauseText pieces v) : ClauseText (.word w :: pieces) (w.chars ++ v) :=
  @word w pieces [] v nofun hap h

theorem exists_standIn (h : ClauseText pieces s) (a : StandIn) :
    ∃ t, List.Forall₂ a.Goes s t ∧
      Written ((pieces.map (Piece.standIn a)).flatMap Phrase.tokens) t := by
  have hrefl : ∀ u : List Char, List.Forall₂ a.Goes u u := fun u =>
    List.forall₂_same.mpr fun _ _ => Or.inl rfl
  induction h with
  | @nil gap hgap => exact ⟨gap, hrefl gap, .nil hgap⟩
  | @phrase p pieces u v hu hap _ ih =>
      obtain ⟨t, hvt, ht⟩ := ih
      have hhead := isWordAt_head?_eq a.relabels.ignores_isWord hvt
      exact ⟨u ++ t, List.rel_append (hrefl u) hvt, hu.append ht (by rwa [Apart, ← hhead])⟩
  | @word w pieces gap v hgap hap _ ih =>
      obtain ⟨t, hvt, ht⟩ := ih
      have hhead := isWordAt_head?_eq a.relabels.ignores_isWord hvt
      have hborder := border_of_apart w.isRun.isWordAt_getLast? hap
      have hword : List.Forall₂ a.Goes w.chars (w.chars.map a.char) :=
        List.forall₂_map_right_iff.mpr (List.forall₂_same.mpr fun _ _ => Or.inr rfl)
      exact ⟨gap ++ (w.chars.map a.char ++ t),
        List.rel_append (hrefl gap) (List.rel_append hword hvt),
        .cons hgap rfl (Or.inr (hhead ▸ hborder)) ht⟩

theorem eq_filterMap_name? {names : List (List Char)}
    (h : ∀ a : StandIn, List.Forall₂ (List.Forall₂ a.Goes) names
      ((pieces.map (Piece.standIn a)).filterMap Phrase.input?)) :
    names = pieces.filterMap Piece.name? := by
  induction pieces generalizing names with
  | nil =>
      cases h .q
      rfl
  | cons piece pieces ih =>
      simp only [List.map_cons, List.filterMap_cons, piece.input?_standIn] at h
      rw [List.filterMap_cons]
      cases hname : piece.name? with
      | none =>
          simp only [hname, Option.map_none] at h
          exact ih h
      | some n =>
          simp only [hname, Option.map_some] at h
          cases names with
          | nil => exact nomatch h .q
          | cons name names =>
              have hname : name = n := piece.eq_of_lettered fun a => (List.forall₂_cons.mp (h a)).1
              rw [hname, ih fun a => (List.forall₂_cons.mp (h a)).2]

theorem written (h : ClauseText pieces s) : Written (pieces.flatMap Piece.tokens) s := by
  induction h with
  | nil hgap => exact .nil hgap
  | phrase hu hap _ ih => exact hu.append ih hap
  | @word w _ _ _ hgap hap _ ih => exact .cons hgap w.spells hap ih

theorem not_spells (h : ClauseText pieces s) :
    ∀ w ∈ words s, ∀ word ∈ clauseEnds, ¬ Spells word w := by
  intro w hw word hword
  obtain ⟨hreserved, hnone⟩ := Statement.clauseEnds_disjoint word hword
  apply h.written.not_spells hreserved _ w hw
  intro token htoken hkeyword
  obtain ⟨piece, -, hmem⟩ := List.mem_flatMap.mp htoken
  cases piece with
  | phrase p => exact Phrase.not_isKeyword hnone token hmem hkeyword
  | word _ =>
      obtain rfl := List.mem_singleton.mp hmem
      obtain rfl : keyword "from" = word := hkeyword
      exact absurd hword (by decide)

theorem clauseSources_eq (h : ClauseText pieces s) (hchain : pieces.IsChain Piece.Precedes) :
    clauseSources s = pieces.filterMap Piece.name? := by
  apply eq_filterMap_name?
  intro a
  obtain ⟨t, hst, ht⟩ := h.exists_standIn a
  have hadjoins : (pieces.map (Piece.standIn a)).IsChain Adjoins :=
    List.isChain_map_of_isChain _ (fun _ _ h => h.adjoins a) hchain
  have hbounds : (pieces.map (Piece.standIn a)).IsChain fun first _ => first.isTimeBound = false :=
    List.isChain_map_of_isChain _ (fun _ _ h => h.timeBound a) hchain
  rw [← filterMap_upToBound hbounds, ← clauseSources_upToBound hadjoins ht]
  exact a.relabels.forall₂_clauseSources hst

end ClauseText

end EventOperator.Query
