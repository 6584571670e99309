import EventOperator.Proofs.Text.Border
import EventOperator.Proofs.Text.UpTo

/-!
Readers. A reader answers with what is left of a text behind what it has read. Patterns are put
together from a few readers, so that what holds of each of these holds of the patterns.
-/

namespace EventOperator.Text

variable {β : Type} {f g : Char → Bool} {c : Char} {u v s rest : List Char}
  {before : Option Char}

abbrev Reader := List Char → Option (List Char)

def one? (f : Char → Bool) : Reader := fun s =>
  match s with
  | [] => none
  | c :: rest => if f c then some rest else none

def span? (f g : Char → Bool) : Reader := fun s =>
  if s.head?.any f then some (s.dropWhile g) else none

def past? (f : Char → Bool) : Reader := fun s => some (s.dropWhile f)

def pastTo? (f : Char → Bool) (c : Char) : Reader := fun s => after? c (s.dropWhile f)

def blanksTo? (f g : Char → Bool) : Reader := afterBlanks? >=> span? f g

def border? : Reader := fun s => if isWordAt s.head? then none else some s

/-- The text from the first place on where one of the words stands. -/
def fromWord (words : List (List Char)) : Option Char → List Char → List Char
  | _, [] => []
  | before, c :: s =>
      if wordStands words before (c :: s) || atEnd (c :: s) then c :: s
      else fromWord words (some c) s

def fromWord? (words : List (List Char)) : Reader := fun s => some (fromWord words none s)

def toEnd? : Reader := fun _ => some []

variable {first second read : Reader} {words : List (List Char)} {word : List Char}

theorem kleisli_apply (first second : Reader) (s : List Char) :
    (first >=> second) s = (first s).bind second := rfl

theorem kleisli_assoc (first second third : Reader) :
    first >=> second >=> third = (first >=> second) >=> third := by
  funext s
  exact (Option.bind_assoc (first s) second third).symm

theorem after?_self (c : Char) (s : List Char) : after? c (c :: s) = some s := if_pos rfl

theorem span?_cons (f g : Char → Bool) (c : Char) (s : List Char) :
    span? f g (c :: s) = if f c then some ((c :: s).dropWhile g) else none := rfl

theorem kleisli_eq_some (h : (first >=> second) s = some rest) :
    ∃ mid, first s = some mid ∧ second mid = some rest :=
  Option.bind_eq_some_iff.mp h

theorem border?_eq_some (h : border? s = some rest) : s = rest ∧ isWordAt s.head? = false := by
  rw [border?] at h
  split at h
  · exact nomatch h
  · rename_i hhead
    exact ⟨Option.some.inj h, by simpa using hhead⟩

theorem after?_eq_one? (c : Char) : after? c = one? (· = c) := by
  funext s
  cases s with
  | nil => rfl
  | cons d s => simp [after?, one?]

theorem wordRun?_eq_span? (s : List Char) :
    (wordRun? s).map Prod.snd = span? isWord isWord s := by
  cases s with
  | nil => rfl
  | cons c s =>
      cases hc : isWord c <;> simp [wordRun?, span?, hc]

theorem drop_upToWord (words : List (List Char)) (before : Option Char) (s : List Char) :
    s.drop (upToWord words before s).length = fromWord words before s := by
  induction s generalizing before with
  | nil => rfl
  | cons c s ih =>
      rw [upToWord, fromWord]
      split
      · rfl
      · exact ih (some c)

theorem blanksBehind_none {next : List Char → List Char → Option (Nat × β)}
    (hletters : IsLetters word) (s : List Char) :
    blanksBehind word next none s = ((afterWord? word s).bind afterBlanks?).bind (next s) := by
  rw [blanksBehind_eq, isEdge_of_border rfl]
  split
  · rfl
  · rename_i hs
    cases hword : afterWord? word s with
    | none => rfl
    | some rest => exact absurd (isWordAt_of_afterWord? hletters (by simp [hword])) hs

theorem afterWholeWord?_none (hletters : IsLetters word) (s : List Char) :
    afterWholeWord? word none s = (afterWord? word >=> border?) s := by
  ext rest
  rw [afterWholeWord?_eq_some_iff hletters, kleisli_apply, Option.bind_eq_some_iff]
  constructor
  · intro h
    exact ⟨rest, h.2.1, by simp [border?, h.2.2]⟩
  · intro h
    obtain ⟨mid, hword, hborder⟩ := h
    obtain ⟨rfl, hhead⟩ := border?_eq_some hborder
    exact ⟨rfl, hword, hhead⟩

theorem borderBehind_none
    {next : Option Char → List Char → List Char → Option (Nat × β)} (hletters : IsLetters word)
    (s : List Char) :
    borderBehind word next none s =
      ((afterWord? word >=> border?) s).bind fun rest => next (lastBefore none s rest) s rest := by
  rw [← afterWholeWord?_none hletters]
  rfl

theorem fromWord_border (hletters : ∀ word ∈ words, IsLetters word)
    (hs : isWordAt s.head? = false) : fromWord words before s = fromWord words none s := by
  cases s with
  | nil => rfl
  | cons c s =>
      rw [fromWord, fromWord, wordStands_eq_false hletters (Or.inr hs),
        wordStands_eq_false hletters (Or.inr hs)]

def Shrinks (read : Reader) : Prop := ∀ ⦃s rest⦄, read s = some rest → rest <:+ s

theorem Shrinks.kleisli (hfirst : Shrinks first) (hsecond : Shrinks second) :
    Shrinks (first >=> second) := by
  intro s rest h
  obtain ⟨mid, hmid, hrest⟩ := kleisli_eq_some h
  exact (hsecond hrest).trans (hfirst hmid)

theorem shrinks_one? : Shrinks (one? f) := by
  intro s rest h
  cases s with
  | nil => exact nomatch h
  | cons c s =>
      rw [one?] at h
      split at h
      · obtain rfl := Option.some.inj h
        exact List.suffix_cons c s
      · exact nomatch h

theorem shrinks_span? : Shrinks (span? f g) := by
  intro s rest h
  rw [span?] at h
  split at h
  · obtain rfl := Option.some.inj h
    exact List.dropWhile_suffix g
  · exact nomatch h

theorem shrinks_past? : Shrinks (past? f) := by
  intro s rest h
  obtain rfl := Option.some.inj h
  exact List.dropWhile_suffix f

theorem shrinks_after? : Shrinks (after? c) := by
  rw [after?_eq_one?]
  exact shrinks_one?

theorem shrinks_pastTo? : Shrinks (pastTo? f c) := fun _ _ h =>
  (shrinks_after? h).trans (List.dropWhile_suffix f)

theorem shrinks_afterWord? : Shrinks (afterWord? word) := by
  intro s rest h
  obtain ⟨w, rfl, -⟩ := exists_spelling h
  exact List.suffix_append w rest

theorem shrinks_afterBlanks? : Shrinks afterBlanks? := by
  intro s rest h
  cases s with
  | nil => cases h
  | cons c s =>
      rw [afterBlanks?] at h
      split at h
      · obtain rfl := Option.some.inj h
        exact (List.dropWhile_suffix isBlank).trans (List.suffix_cons c s)
      · cases h

theorem shrinks_blanksTo? : Shrinks (blanksTo? f g) :=
  shrinks_afterBlanks?.kleisli shrinks_span?

theorem shrinks_border? : Shrinks border? := by
  intro s rest h
  obtain ⟨rfl, -⟩ := border?_eq_some h
  exact List.suffix_refl s

theorem fromWord_suffix (words : List (List Char)) (before : Option Char) (s : List Char) :
    fromWord words before s <:+ s := by
  rw [← drop_upToWord]
  exact List.drop_suffix _ s

theorem shrinks_fromWord? : Shrinks (fromWord? words) := by
  intro s rest h
  obtain rfl := Option.some.inj h
  exact fromWord_suffix words none s

theorem shrinks_toEnd? : Shrinks toEnd? := by
  intro s rest h
  obtain rfl := Option.some.inj h
  exact List.nil_suffix

def Advances (read : Reader) : Prop := ∀ ⦃s rest⦄, read s = some rest → rest.length < s.length

theorem Advances.kleisli (hfirst : Advances first) (hsecond : Shrinks second) :
    Advances (first >=> second) := by
  intro s rest h
  obtain ⟨mid, hmid, hrest⟩ := kleisli_eq_some h
  exact Nat.lt_of_le_of_lt (hsecond hrest).length_le (hfirst hmid)

theorem advances_one? : Advances (one? f) := by
  intro s rest h
  cases s with
  | nil => exact nomatch h
  | cons c s =>
      rw [one?] at h
      split at h
      · obtain rfl := Option.some.inj h
        exact Nat.lt_succ_self s.length
      · exact nomatch h

theorem advances_after? : Advances (after? c) := by
  rw [after?_eq_one?]
  exact advances_one?

theorem advances_span? (hfg : ∀ c, f c = true → g c = true) : Advances (span? f g) := by
  intro s rest h
  rw [span?] at h
  split at h
  · rename_i hhead
    obtain rfl := Option.some.inj h
    cases s with
    | nil => exact absurd hhead (by simp)
    | cons c s =>
        rw [List.dropWhile_cons_of_pos (hfg c (by simpa using hhead))]
        exact Nat.lt_succ_of_le (List.dropWhile_suffix g).length_le
  · exact nomatch h

theorem advances_afterWord? (hletters : IsLetters word) : Advances (afterWord? word) := by
  intro s rest h
  obtain ⟨w, rfl, hspells⟩ := exists_spelling h
  have := List.length_pos_iff.mpr (hspells.isRun hletters).1
  rw [List.length_append]
  omega

/-! No word runs across the place where the reader stops. -/

def Stops (read : Reader) : Prop :=
  ∀ ⦃s rest⦄, read s = some rest →
    isWordAt rest.head? = false ∨ ∃ u c, s = u ++ c :: rest ∧ isWord c = false

theorem Stops.kleisli (hfirst : Shrinks first) (hsecond : Stops second) :
    Stops (first >=> second) := by
  intro s rest h
  obtain ⟨mid, hmid, hrest⟩ := kleisli_eq_some h
  refine (hsecond hrest).imp_right ?_
  rintro ⟨u, c, rfl, hc⟩
  obtain ⟨v, rfl⟩ := hfirst hmid
  exact ⟨v ++ u, c, (List.append_assoc v u _).symm, hc⟩

theorem stops_one? (hf : ∀ c, f c = true → isWord c = false) : Stops (one? f) := by
  intro s rest h
  cases s with
  | nil => exact nomatch h
  | cons c s =>
      rw [one?] at h
      split at h
      · rename_i hc
        obtain rfl := Option.some.inj h
        exact Or.inr ⟨[], c, rfl, hf c hc⟩
      · exact nomatch h

theorem stops_pastTo? (hc : isWord c = false) : Stops (pastTo? f c) := by
  have hlast : Stops (after? c) := by
    rw [after?_eq_one?]
    refine stops_one? fun d hd => ?_
    obtain rfl : d = c := by simpa using hd
    exact hc
  have hskip : Shrinks (past? f) := shrinks_past?
  exact hlast.kleisli hskip

theorem isWordAt_head?_dropWhile (hg : ∀ c, isWord c = true → g c = true) (s : List Char) :
    isWordAt (s.dropWhile g).head? = false := by
  have hhead := List.head?_dropWhile_not g s
  cases hd : (s.dropWhile g).head? with
  | none => rfl
  | some d =>
      rw [hd] at hhead
      cases hword : isWord d with
      | false => exact hword
      | true => simp [hg d hword] at hhead

theorem stops_past? (hg : ∀ c, isWord c = true → g c = true) : Stops (past? g) := by
  intro s rest h
  obtain rfl := Option.some.inj h
  exact Or.inl (isWordAt_head?_dropWhile hg s)

theorem exists_append_dropWhile (hf : ∀ c, f c = true → isWord c = false) (hc : isWord c = false)
    (s : List Char) : ∃ u d, c :: s = u ++ d :: s.dropWhile f ∧ isWord d = false := by
  induction s generalizing c with
  | nil => exact ⟨[], c, rfl, hc⟩
  | cons e s ih =>
      by_cases he : f e = true
      · obtain ⟨u, d, hs, hd⟩ := ih (hf e he)
        rw [List.dropWhile_cons_of_pos he, hs]
        exact ⟨c :: u, d, rfl, hd⟩
      · rw [List.dropWhile_cons_of_neg he]
        exact ⟨[], c, rfl, hc⟩

theorem stops_afterBlanks? : Stops afterBlanks? := by
  intro s rest h
  cases s with
  | nil => cases h
  | cons c s =>
      rw [afterBlanks?] at h
      split at h
      · rename_i hc
        obtain rfl := Option.some.inj h
        exact Or.inr (exists_append_dropWhile (fun _ => isWord_of_isBlank) (isWord_of_isBlank hc) s)
      · cases h

theorem stops_span? (hg : ∀ c, isWord c = true → g c = true) : Stops (span? f g) := by
  intro s rest h
  rw [span?] at h
  split at h
  · obtain rfl := Option.some.inj h
    exact Or.inl (isWordAt_head?_dropWhile hg s)
  · exact nomatch h

theorem stops_blanksTo? (hg : ∀ c, isWord c = true → g c = true) : Stops (blanksTo? f g) :=
  (stops_span? hg).kleisli shrinks_afterBlanks?

theorem stops_toEnd? : Stops toEnd? := by
  intro s rest h
  obtain rfl := Option.some.inj h
  exact Or.inl rfl

theorem border_fromWord (hletters : ∀ word ∈ words, IsLetters word) (before : Option Char)
    (s : List Char) :
    isWordAt (fromWord words before s).head? = false ∨
      fromWord words before s = s ∧ isWordAt before = false ∨
        ∃ u c, s = u ++ c :: fromWord words before s ∧ isWord c = false := by
  induction s generalizing before with
  | nil => exact Or.inl rfl
  | cons c s ih =>
      rw [fromWord]
      split
      · rename_i hstop
        rw [Bool.or_eq_true] at hstop
        rcases hstop with hstands | hend
        · cases hbefore : isWordAt before with
          | false => exact Or.inr (Or.inl ⟨rfl, rfl⟩)
          | true => simp [wordStands_eq_false hletters (Or.inl hbefore)] at hstands
        · cases hc : isWord c with
          | false => exact Or.inl hc
          | true => simp [atEnd_eq_false hc] at hend
      · rcases ih (some c) with h | ⟨h, hc⟩ | ⟨u, d, h, hd⟩
        · exact Or.inl h
        · exact Or.inr (Or.inr ⟨[], c, by rw [h]; rfl, hc⟩)
        · exact Or.inr (Or.inr ⟨c :: u, d, by rw [List.cons_append, ← h], hd⟩)

theorem stops_fromWord? (hletters : ∀ word ∈ words, IsLetters word) :
    Stops (border? >=> fromWord? words) := by
  intro s rest h
  obtain ⟨mid, hmid, hrest⟩ := kleisli_eq_some h
  obtain ⟨rfl, hhead⟩ := border?_eq_some hmid
  obtain rfl := Option.some.inj hrest
  rcases border_fromWord hletters none s with h | ⟨h, -⟩ | h
  · exact Or.inl h
  · rw [h]
    exact Or.inl hhead
  · exact Or.inr h

structure Pattern.Reads (p : Pattern Unit) (read : Reader) : Prop where
  outside : p.Outside
  eq : ∀ s, p none s = (read s).map fun rest => taken s rest ()
  shrinks : Shrinks read
  advances : Advances read
  stops : Stops read

variable {p : Pattern Unit}

theorem Pattern.Reads.takes (hp : p.Reads read) (h : read s = some rest) :
    ∃ u, s = u ++ rest ∧ Takes p u rest () ∧ Apart u.getLast? rest.head? := by
  obtain ⟨u, rfl⟩ := hp.shrinks h
  have hne : u ≠ [] := by
    rintro rfl
    exact Nat.lt_irrefl _ (hp.advances h)
  have htakes : p none (u ++ rest) = some (taken (u ++ rest) rest ()) := by rw [hp.eq, h]; rfl
  refine ⟨u, rfl, ⟨hne, htakes⟩, ?_⟩
  rcases hp.stops h with hhead | ⟨x, c, hx, hc⟩
  · exact Or.inr hhead
  · have hu : u = x ++ [c] := by
      apply (List.append_left_inj rest).mp
      simpa using hx
    rw [hu, List.getLast?_concat]
    exact Or.inl hc

theorem Pattern.Reads.bordered (hp : p.Reads read) : p.Bordered where
  toOutside := hp.outside
  takes := by
    intro s hmatch
    rw [hp.eq] at hmatch
    obtain ⟨rest, hrest⟩ := Option.ne_none_iff_exists'.mp (mt Option.map_eq_none_iff.mpr hmatch)
    obtain ⟨u, hs, htakes, hap⟩ := hp.takes hrest
    exact ⟨u, rest, (), hs, htakes, hap⟩

end EventOperator.Text
