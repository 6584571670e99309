import EventOperator.Proofs.Query.Filter
import EventOperator.Proofs.Query.Reference
import EventOperator.Proofs.Query.Token
import EventOperator.Proofs.Text.Digit

/-!
Phrases of a `from` clause: sources with their filters and handlers, and what stands around them. Each
sort of phrase but sources, marks and plain words is taken out by one of the patterns for noise.
-/

namespace EventOperator.Query

open EventOperator.Text

variable {c : Char} {word w s u v : List Char}

theorem isPlain_append (hu : IsPlain u) (hv : IsPlain v) (hap : Apart u.getLast? v.head?) :
    IsPlain (u ++ v) := by
  refine ⟨?_, ?_⟩
  · rw [List.mem_append, not_or]
    exact ⟨hu.1, hv.1⟩
  · intro w hw
    rw [words_append hap] at hw
    rcases List.mem_append.mp hw with hw | hw
    · exact hu.2 w hw
    · exact hv.2 w hw

theorem isPlain_singleton (hc : isWord c = false) (hne : c ≠ ';') : IsPlain [c] := by
  refine ⟨by simpa using hne.symm, ?_⟩
  rw [words_eq_nil (by simpa using hc)]
  simp

theorem isPlain_cons (hc : isWord c = false) (hne : c ≠ ';') (hs : IsPlain s) :
    IsPlain (c :: s) :=
  isPlain_append (u := [c]) (isPlain_singleton hc hne) hs (Or.inl (by simpa using hc))

theorem isPlain_concat (hs : IsPlain s) (hc : isWord c = false) (hne : c ≠ ';') :
    IsPlain (s ++ [c]) :=
  isPlain_append hs (isPlain_singleton hc hne) (Or.inr (by simpa using hc))

theorem isPlain_of_isRun (hrun : IsRun s) (hs : ¬ IsReserved s) : IsPlain s := by
  refine ⟨?_, ?_⟩
  · intro hmem
    have hword := hrun.2 _ hmem
    simp [isWord_semicolon] at hword
  · intro w hw
    rw [words_eq_singleton hrun, List.mem_singleton] at hw
    rwa [hw]

def IsName (s : List Char) : Prop :=
  s.head?.any isNameStart = true ∧ (∀ c ∈ s, isWord c = true) ∧ ¬ IsReserved s

instance (s : List Char) : Decidable (IsName s) := inferInstanceAs (Decidable (_ ∧ _ ∧ _))

theorem IsName.isRun (h : IsName s) : IsRun s := by
  refine ⟨?_, h.2.1⟩
  rintro rfl
  exact absurd h.1 (by simp)

structure Name where
  chars : List Char
  isName : IsName chars

def Name.plain (name : Name) : Plain :=
  ⟨name.chars, isPlain_of_isRun name.isName.isRun name.isName.2.2⟩

/-- A stream, or an inner stream, whose name has a number sign in front. -/
inductive Source
  | stream (name : Name)
  | inner (name : Name)

def Source.name : Source → Name
  | stream name => name
  | inner name => name

def Source.chars : Source → List Char
  | stream name => name.chars
  | inner name => '#' :: name.chars

def Source.plain : Source → Plain
  | stream name => name.plain
  | inner name => ⟨'#' :: name.chars, isPlain_cons (by decide) (by decide) name.plain.isPlain⟩

theorem Source.isWordAt_getLast? (source : Source) :
    isWordAt source.plain.chars.getLast? = true := by
  cases source with
  | stream name => exact name.isName.isRun.isWordAt_getLast?
  | inner name =>
      have hname := name.isName.isRun
      have hlast : ('#' :: name.chars).getLast? = name.chars.getLast? := by
        rw [List.getLast?_cons, List.getLast?_eq_some_getLast hname.1, Option.getD_some]
      exact hlast ▸ hname.isWordAt_getLast?

/-- The name under which a source is an input. Inner streams are none. -/
def Source.input? : Source → Option (List Char)
  | stream name => some name.chars
  | inner _ => none

theorem isDigit_eq_false_of_isAlpha (h : c.isAlpha = true) : isDigit c = false := by
  have hlow : ¬ 128 ≤ c.toNat := Nat.not_le.mpr (toNat_lt_of_isAlpha h)
  have hdigit : c.isDigit = false := by
    rw [Bool.eq_false_iff]
    intro hdigit
    have hrange : 48 ≤ c.toNat ∧ c.toNat ≤ 57 := Char.isDigit_iff_toNat.mp hdigit
    rw [isAlpha_iff, isUpper_iff, isLower_iff] at h
    omega
  simp [isDigit, hlow, hdigit]

theorem isDigit_eq_false_of_sameLetter {letter : Char} (hletter : letter.isLower = true)
    (h : sameLetter letter c = true) : isDigit c = false := by
  simp only [sameLetter, Bool.or_eq_true, Bool.and_eq_true, decide_eq_true_eq] at h
  rcases h with ((h | ⟨-, rfl | rfl⟩) | ⟨-, rfl⟩) | ⟨-, rfl⟩
  · exact isDigit_eq_false_of_isAlpha (isAlpha_of_isLower_toLower (h ▸ hletter))
  all_goals decide

theorem not_isReserved_of_isDigit (h : w.head?.any isDigit = true) : ¬ IsReserved w := by
  rintro ⟨word, hword, hspells⟩
  obtain ⟨hne, hletters⟩ := isLetters_reservedWords word hword
  cases word with
  | nil => exact absurd rfl hne
  | cons letter word =>
      cases w with
      | nil => simp at h
      | cons c w =>
          simp only [Spells, afterWord?] at hspells
          split at hspells
          · rename_i hc
            have hnone := isDigit_eq_false_of_sameLetter (hletters letter List.mem_cons_self) hc
            simp [hnone] at h
          · exact absurd hspells (by simp)

/-- Runs with dots between them, each of which begins with a digit. -/
def IsNumeral (s : List Char) : Prop :=
  s.head?.any isDigit = true ∧ (∀ c ∈ s, isNumberChar c = true) ∧
    isWordAt s.getLast? = true ∧ ∀ w ∈ words s, w.head?.any isDigit = true

instance (s : List Char) : Decidable (IsNumeral s) := inferInstanceAs (Decidable (_ ∧ _ ∧ _ ∧ _))

theorem isPlain_of_isNumeral (h : IsNumeral s) : IsPlain s := by
  refine ⟨?_, fun w hw => not_isReserved_of_isDigit (h.2.2.2 w hw)⟩
  intro hmem
  exact absurd (h.2.1 _ hmem) (by decide)

structure Numeral where
  chars : List Char
  isNumeral : IsNumeral chars

def Numeral.plain (numeral : Numeral) : Plain :=
  ⟨numeral.chars, isPlain_of_isNumeral numeral.isNumeral⟩

def IsDigits (s : List Char) : Prop := s ≠ [] ∧ ∀ c ∈ s, isDigit c = true

instance (s : List Char) : Decidable (IsDigits s) := inferInstanceAs (Decidable (_ ∧ _))

theorem isPlain_of_isDigits (h : IsDigits s) : IsPlain s := by
  refine isPlain_of_isRun ⟨h.1, fun c hc => isWord_of_isDigit (h.2 c hc)⟩ ?_
  apply not_isReserved_of_isDigit
  cases s with
  | nil => exact absurd rfl h.1
  | cons c s => simpa using h.2 c List.mem_cons_self

structure Digits where
  chars : List Char
  isDigits : IsDigits chars

def Digits.plain (digits : Digits) : Plain :=
  ⟨digits.chars, isPlain_of_isDigits digits.isDigits⟩

structure Filter where
  content : List Char
  balanced : depthAfter 0 content = some 0
  isPlain : IsPlain content

def Filter.chars (filter : Filter) : List Char := '[' :: (filter.content ++ [']'])

def Filter.plain (filter : Filter) : Plain :=
  ⟨filter.chars, isPlain_cons (by decide) (by decide)
    (isPlain_concat filter.isPlain (by decide) (by decide))⟩

structure Handler where
  name : List Char
  arguments : List Char
  isHandler : name ≠ [] ∧ ∀ c ∈ name, isHandlerChar c = true
  free : ∀ c ∈ arguments, c ≠ '(' ∧ c ≠ ')' ∧ c ≠ '[' ∧ c ≠ ']'
  isPlain_name : IsPlain name
  isPlain_arguments : IsPlain arguments

def Handler.chars (handler : Handler) : List Char :=
  '#' :: (handler.name ++ '(' :: (handler.arguments ++ [')']))

def Handler.plain (handler : Handler) : Plain :=
  ⟨handler.chars, isPlain_cons (by decide) (by decide)
    (isPlain_append handler.isPlain_name
      (isPlain_cons (by decide) (by decide)
        (isPlain_concat handler.isPlain_arguments (by decide) (by decide)))
      (Or.inr rfl))⟩

structure Condition where
  chars : List Char
  isPlain : IsPlain chars
  free : ∀ c ∈ chars, c ≠ '#' ∧ c ≠ '[' ∧ c ≠ ']'

def Condition.plain (condition : Condition) : Plain := ⟨condition.chars, condition.isPlain⟩

inductive Mark
  | arrow
  | comma
  | plus
  | star
  | question

def Mark.chars : Mark → List Char
  | arrow => ['-', '>']
  | comma => [',']
  | plus => ['+']
  | star => ['*']
  | question => ['?']

def Mark.plain (mark : Mark) : Plain := ⟨mark.chars, by cases mark <;> decide⟩

/-- A count of a pattern element: `<2>`, `<2:5>`, `<2:>` or `<:5>`. -/
inductive Bounds
  | exactly (count : Digits)
  | between (low? high? : Option Digits)

/-- The words of a clause that no pattern takes out. -/
def plainWords : List (List Char) :=
  ["every", "not", "and", "or", "join", "left", "right", "full", "outer", "inner",
    "unidirectional"].map keyword

theorem isLetters_plainWords : ∀ word ∈ plainWords, IsLetters word := by decide

theorem plainWords_subset : ∀ word ∈ plainWords, word ∈ clauseWords := by decide

inductive Phrase
  | word (w : List Char) (h : w ∈ plainWords)
  | mark (m : Mark)
  | source (s : Source)
  | filter (f : Filter)
  | handler (h : Handler)
  | opening
  | closing
  | condition (c : Condition)
  | timeBound (n : Numeral) (unit : Name)
  | waiting (n : Numeral) (unit : Name)
  | eventAlias (a : Name)
  | streamAlias (a : Name)
  | count (b : Bounds)

def symbol (c : Char) (h : isWord c = false ∧ c ≠ ';') : Token :=
  .plain ⟨[c], isPlain_singleton h.1 h.2⟩

def Bounds.inside : Bounds → List Token
  | exactly digits => [.plain digits.plain]
  | between low? high? =>
      (low?.map fun digits => Token.plain digits.plain).toList
        ++ symbol ':' (by decide) :: (high?.map fun digits => Token.plain digits.plain).toList

theorem isLetters_on : IsLetters (keyword "on") := by decide

theorem isLetters_within : IsLetters (keyword "within") := by decide

theorem isLetters_for : IsLetters (keyword "for") := by decide

theorem isLetters_as : IsLetters (keyword "as") := by decide

def Phrase.tokens : Phrase → List Token
  | .word w h => [.keyword w (isLetters_plainWords w h)]
  | .mark m => [.plain m.plain]
  | .source s => [.plain s.plain]
  | .filter f => [.plain f.plain]
  | .handler h => [.plain h.plain]
  | .opening => [symbol '(' (by decide)]
  | .closing => [symbol ')' (by decide)]
  | .condition c => [.keyword (keyword "on") isLetters_on, .plain c.plain]
  | .timeBound n unit =>
      [.keyword (keyword "within") isLetters_within, .plain n.plain, .plain unit.plain]
  | .waiting n unit => [.keyword (keyword "for") isLetters_for, .plain n.plain, .plain unit.plain]
  | .eventAlias a => [.plain a.plain, symbol '=' (by decide)]
  | .streamAlias a => [.keyword (keyword "as") isLetters_as, .plain a.plain]
  | .count b => symbol '<' (by decide) :: (b.inside ++ [symbol '>' (by decide)])

variable {first second phrase : Phrase} {phrases rest : List Phrase}

def Phrase.mayOpen : Phrase → Bool
  | .word _ _ => true
  | .mark _ => true
  | .opening => true
  | _ => false

structure Follows (first second : Phrase) : Prop where
  opening : second = .opening → first.mayOpen = true
  condition : ∀ c, first = .condition c → ∃ w h, second = .word w h ∧ w ∈ joinWords
  timeBound : ∀ n unit, first ≠ .timeBound n unit

/-- No parenthesis behind it makes a handler of the phrase. -/
def Phrase.admitsOpening : Phrase → Bool
  | .source (.stream _) => true
  | .eventAlias _ => true
  | phrase => phrase.mayOpen

theorem Phrase.admitsOpening_of_mayOpen (h : phrase.mayOpen = true) :
    phrase.admitsOpening = true := by
  cases phrase with
  | source s => exact nomatch h
  | eventAlias a => exact nomatch h
  | _ => exact h

/-- The same where a phrase may follow a time bound, and a parenthesis a stream or an alias. -/
structure Adjoins (first second : Phrase) : Prop where
  opening : second = .opening → first.admitsOpening = true
  condition : ∀ c, first = .condition c → ∃ w h, second = .word w h ∧ w ∈ joinWords

theorem Follows.adjoins (h : Follows first second) : Adjoins first second :=
  ⟨fun heq => Phrase.admitsOpening_of_mayOpen (h.opening heq), h.condition⟩

def Phrase.isTimeBound : Phrase → Bool
  | .timeBound _ _ => true
  | _ => false

def upToBound (phrases : List Phrase) : List Phrase :=
  phrases.takeWhile fun phrase => !phrase.isTimeBound

theorem upToBound_isPrefix (phrases : List Phrase) : upToBound phrases <+: phrases :=
  List.takeWhile_prefix _

theorem upToBound_cons (hphrase : phrase.isTimeBound = false) (rest : List Phrase) :
    upToBound (phrase :: rest) = phrase :: upToBound rest := by
  simp [upToBound, hphrase]

def Phrase.isInner : Phrase → Bool
  | .condition _ => false
  | .timeBound _ _ => false
  | _ => true

theorem Follows.of_mayOpen (h : first.mayOpen = true) : Follows first second where
  opening := fun _ => h
  condition := by
    rintro c rfl
    exact nomatch h
  timeBound := by
    rintro n unit rfl
    exact nomatch h

theorem Follows.of_isInner (h : first.isInner = true) (hne : second ≠ .opening) :
    Follows first second where
  opening := fun heq => absurd heq hne
  condition := by
    rintro c rfl
    exact nomatch h
  timeBound := by
    rintro n unit rfl
    exact nomatch h

/-- Phrases that may stand behind an element. -/
structure MayEnd (rest : List Phrase) : Prop where
  isChain : rest.IsChain Follows
  closed : rest.head? ≠ some .opening

theorem MayEnd.cons (hrest : MayEnd rest) (hinner : phrase.isInner = true)
    (hne : phrase ≠ .opening) : MayEnd (phrase :: rest) where
  isChain := List.isChain_cons.mpr ⟨fun _ hsecond =>
    .of_isInner hinner fun heq => hrest.closed (heq ▸ hsecond), hrest.isChain⟩
  closed := fun heq => hne (Option.some.inj heq)

theorem MayEnd.append (hrest : MayEnd rest)
    (hphrases : ∀ phrase ∈ phrases, phrase.isInner = true ∧ phrase ≠ .opening) :
    MayEnd (phrases ++ rest) := by
  induction phrases with
  | nil => exact hrest
  | cons phrase phrases ih =>
      obtain ⟨hinner, hne⟩ := hphrases phrase List.mem_cons_self
      exact (ih fun other hother => hphrases other (List.mem_cons_of_mem phrase hother)).cons
        hinner hne

theorem isChain_cons_of_mayOpen (hfirst : first.mayOpen = true) (h : phrases.IsChain Follows) :
    (first :: phrases).IsChain Follows :=
  List.isChain_cons.mpr ⟨fun _ _ => .of_mayOpen hfirst, h⟩

/-! What is left of phrases while the noise is taken out. -/

theorem grouping?_blind : grouping?.Blind := fun _ _ => rfl

def ungroupedChar (c : Char) : Char := if c = '(' || c = ')' then ' ' else c

theorem blankOut_grouping? (s : List Char) : blankOut grouping? s = s.map ungroupedChar := by
  induction s with
  | nil => rfl
  | cons c s ih =>
      rw [List.map_cons, ← ih, ungroupedChar]
      split
      · rename_i hc
        exact blankOut_of_scan_inr (u := [c]) (b := ())
          (scan_take ⟨by simp, by simp [grouping?, hc, taken]⟩ (grouping?_blind _ _))
      · rename_i hc
        exact blankOut_of_scan_inl (u := [c])
          (grouping?_blind.scan_cons (by simp [grouping?, hc]))

theorem isWord_ungroupedChar (c : Char) : isWord (ungroupedChar c) = isWord c := by
  rw [ungroupedChar]
  split
  · rename_i hc
    simp only [Bool.or_eq_true, decide_eq_true_eq] at hc
    rcases hc with rfl | rfl <;> decide
  · rfl

theorem ungroupedChar_of_isWord (hc : isWord c = true) : ungroupedChar c = c := by
  rw [ungroupedChar]
  split
  · rename_i hparen
    simp only [Bool.or_eq_true, decide_eq_true_eq] at hparen
    rcases hparen with rfl | rfl <;> exact absurd hc (by decide)
  · rfl

theorem words_ungrouped (s : List Char) : words (s.map ungroupedChar) = words s := by
  induction s using run_induction with
  | nil => rfl
  | other c s hc ih =>
      rw [List.map_cons, words_other (by rwa [isWord_ungroupedChar]), words_other hc, ih]
  | run w s hw hs ih =>
      have hsame : w.map ungroupedChar = w :=
        (List.map_congr_left fun c hc => ungroupedChar_of_isWord (hw.2 c hc)).trans (List.map_id w)
      have hhead : isWordAt (s.map ungroupedChar).head? = false := by
        cases s with
        | nil => rfl
        | cons c s => simpa [isWord_ungroupedChar] using hs
      rw [List.map_append, hsame, words_run hw hhead, words_run hw hs, ih]

theorem eq_of_ungroupedChar_eq {d : Char} (h : ungroupedChar c = d) (hd : d ≠ ' ') : c = d := by
  rw [ungroupedChar] at h
  split at h
  · exact absurd h.symm hd
  · exact h

theorem mem_of_mem_ungrouped {d : Char} (h : d ∈ s.map ungroupedChar) (hd : d ≠ ' ') : d ∈ s := by
  obtain ⟨c, hc, heq⟩ := List.mem_map.mp h
  exact eq_of_ungroupedChar_eq heq hd ▸ hc

def Condition.ungrouped (condition : Condition) : Condition where
  chars := condition.chars.map ungroupedChar
  isPlain :=
    ⟨fun h => condition.isPlain.1 (mem_of_mem_ungrouped h (by decide)),
      by rw [words_ungrouped]; exact condition.isPlain.2⟩
  free := by
    intro c hc
    refine ⟨?_, ?_, ?_⟩
    all_goals
      rintro rfl
      have hfree := condition.free _ (mem_of_mem_ungrouped hc (by decide))
      simp at hfree

/-- The number of patterns that stand before the one that takes a phrase out. -/
def Phrase.stage : Phrase → Nat
  | .filter _ => 0
  | .handler _ => 1
  | .opening => 2
  | .closing => 2
  | .condition _ => 3
  | .timeBound _ _ => 4
  | .waiting _ _ => 5
  | .eventAlias _ => 6
  | .streamAlias _ => 7
  | .count _ => 8
  | .word _ _ => 10
  | .mark _ => 10
  | .source _ => 10

def Phrase.ungrouped : Phrase → Phrase
  | .condition c => .condition c.ungrouped
  | phrase => phrase

/-- What is left of a phrase when some of the patterns have been used. -/
def Phrase.left (used : Nat) (phrase : Phrase) : List Token :=
  if phrase.stage < used then []
  else if used ≤ 2 then phrase.tokens
  else phrase.ungrouped.tokens

end EventOperator.Query
