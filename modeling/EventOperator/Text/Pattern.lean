import EventOperator.Text.Blank
import EventOperator.Text.Digit
import EventOperator.Text.Word

/-!
Patterns look at a place of a text: the character before it, if there is one, and the characters
after it. A pattern that matches answers with the number of characters it takes after the first one
and with what it captures, so that a match is never empty and every search is by recursion on the
text.
-/

namespace EventOperator.Text

abbrev Pattern (β : Type) := Option Char → List Char → Option (Nat × β)

/-! Letters of words are compared without regard to case. Besides its capital, `i` is also written
dotless and with a dot on the capital, `k` as the kelvin sign, and `s` as the long one. -/

def sameLetter (letter c : Char) : Bool :=
  c.toLower = letter
    || (letter = 'i' && (c = 'ı' || c = 'İ'))
    || (letter = 'k' && c = '\u212a')
    || (letter = 's' && c = 'ſ')

def afterWord? : List Char → List Char → Option (List Char)
  | [], s => some s
  | _ :: _, [] => none
  | w :: word, c :: s => if sameLetter w c then afterWord? word s else none

def afterBlanks? : List Char → Option (List Char)
  | [] => none
  | c :: s => if isBlank c then some (s.dropWhile isBlank) else none

def after? (c : Char) : List Char → Option (List Char)
  | [] => none
  | d :: s => if d = c then some s else none

def wordRun? (s : List Char) : Option (List Char × List Char) :=
  match s.takeWhile isWord with
  | [] => none
  | c :: run => some (c :: run, s.dropWhile isWord)

def isWordAt : Option Char → Bool
  | none => false
  | some c => isWord c

/-- A word begins or ends between the two characters. -/
def isEdge (before after : Option Char) : Bool := isWordAt before != isWordAt after

/-- The character before the place that is left when `s` has been read down to `rest`. -/
def lastBefore (before : Option Char) (s rest : List Char) : Option Char :=
  match (s.take (s.length - rest.length)).getLast? with
  | some c => some c
  | none => before

def afterWholeWord? (word : List Char) (before : Option Char) (s : List Char) :
    Option (List Char) :=
  if isEdge before s.head? then
    match afterWord? word s with
    | some rest => if isEdge (lastBefore before s rest) rest.head? then some rest else none
    | none => none
  else none

def wordStands (words : List (List Char)) (before : Option Char) (s : List Char) : Bool :=
  words.any fun word => (afterWholeWord? word before s).isSome

/-- The text ends here, or only a line end is left of it. -/
def atEnd : List Char → Bool
  | [] => true
  | ['\n'] => true
  | _ => false

/-- The text up to the first place where one of the words stands, or up to its end. -/
def upToWord (words : List (List Char)) : Option Char → List Char → List Char
  | _, [] => []
  | before, c :: s =>
      if wordStands words before (c :: s) || atEnd (c :: s) then []
      else c :: upToWord words (some c) s

/-- A match that has read `s` down to `rest`. -/
def taken (s rest : List Char) (capture : β) : Nat × β := (s.length - rest.length - 1, capture)

/-! Searching a text from left to right. Matches do not overlap. -/

def capturesFrom (p : Pattern β) : Nat → Option Char → List Char → List β
  | _, _, [] => []
  | skip + 1, _, c :: s => capturesFrom p skip (some c) s
  | 0, before, c :: s =>
      match p before (c :: s) with
      | some (more, capture) => capture :: capturesFrom p more (some c) s
      | none => capturesFrom p 0 (some c) s

def captures (p : Pattern β) (s : List Char) : List β := capturesFrom p 0 none s

/-- Each match is replaced by one space. -/
def blankFrom (p : Pattern β) : Nat → Option Char → List Char → List Char
  | _, _, [] => []
  | skip + 1, _, c :: s => blankFrom p skip (some c) s
  | 0, before, c :: s =>
      match p before (c :: s) with
      | some (more, _) => ' ' :: blankFrom p more (some c) s
      | none => c :: blankFrom p 0 (some c) s

def blankOut (p : Pattern β) (s : List Char) : List Char := blankFrom p 0 none s

theorem length_blankFrom_le (p : Pattern β) (skip : Nat) (before : Option Char)
    (s : List Char) : (blankFrom p skip before s).length ≤ s.length := by
  induction s generalizing skip before with
  | nil => simp [blankFrom]
  | cons c s ih =>
      cases skip with
      | succ skip =>
          simp only [blankFrom, List.length_cons]
          exact Nat.le_succ_of_le (ih skip (some c))
      | zero =>
          simp only [blankFrom]
          split
          · simpa using ih _ (some c)
          · simpa using ih 0 (some c)

theorem length_blankOut_le (p : Pattern β) (s : List Char) :
    (blankOut p s).length ≤ s.length :=
  length_blankFrom_le p 0 none s

end EventOperator.Text
