import Mathlib.Data.List.Forall2
import EventOperator.Proofs.Text.Reader

/-!
Texts whose characters go with each other, place by place. A reader that is put together from tests
that do not tell such characters apart stops at the same place in both texts, and a search finds the
same in them up to these characters.
-/

namespace EventOperator.Text

variable {β : Type} {goes : Char → Char → Prop} {f g : Char → Bool} {c : Char} {s t : List Char}
  {word : List Char} {words : List (List Char)} {first second read : Reader}
  {before other : Option Char}

/-- The test does not tell characters apart that go with each other. -/
def Ignores (goes : Char → Char → Prop) (f : Char → Bool) : Prop := ∀ c d, goes c d → f c = f d

theorem any_head?_eq (hf : Ignores goes f) (h : List.Forall₂ goes s t) :
    s.head?.any f = t.head?.any f := by
  cases h with
  | nil => rfl
  | cons hcd _ => exact hf _ _ hcd

theorem isWordAt_head?_eq (hword : Ignores goes isWord) (h : List.Forall₂ goes s t) :
    isWordAt s.head? = isWordAt t.head? := by
  cases h with
  | nil => rfl
  | cons hcd _ => exact hword _ _ hcd

theorem forall₂_dropWhile (hf : Ignores goes f) (h : List.Forall₂ goes s t) :
    List.Forall₂ goes (s.dropWhile f) (t.dropWhile f) := by
  induction h with
  | nil => exact .nil
  | cons hcd hst ih =>
      rw [List.dropWhile_cons, List.dropWhile_cons, hf _ _ hcd]
      split
      · exact ih
      · exact .cons hcd hst

theorem forall₂_takeWhile (hf : Ignores goes f) (h : List.Forall₂ goes s t) :
    List.Forall₂ goes (s.takeWhile f) (t.takeWhile f) := by
  induction h with
  | nil => exact .nil
  | cons hcd hst ih =>
      rw [List.takeWhile_cons, List.takeWhile_cons, hf _ _ hcd]
      split
      · exact .cons hcd ih
      · exact .nil

/-- The reader stops at the same place. -/
def Tracks (goes : Char → Char → Prop) (read : Reader) : Prop :=
  ∀ ⦃s t⦄, List.Forall₂ goes s t → Option.Rel (List.Forall₂ goes) (read s) (read t)

theorem Tracks.kleisli (hfirst : Tracks goes first) (hsecond : Tracks goes second) :
    Tracks goes (first >=> second) := by
  intro s t h
  have hrel := hfirst h
  rw [kleisli_apply, kleisli_apply]
  generalize first s = rest at hrel
  generalize first t = rest' at hrel
  cases hrel with
  | none => exact .none
  | some hrest => exact hsecond hrest

theorem tracks_one? (hf : Ignores goes f) : Tracks goes (one? f) := by
  intro s t h
  cases h with
  | nil => exact .none
  | cons hcd hst =>
      rw [one?, one?, hf _ _ hcd]
      split
      · exact .some hst
      · exact .none

theorem tracks_after? (hc : Ignores goes (· = c)) : Tracks goes (after? c) := by
  rw [after?_eq_one?]
  exact tracks_one? hc

theorem tracks_past? (hf : Ignores goes f) : Tracks goes (past? f) := fun _ _ h =>
  .some (forall₂_dropWhile hf h)

theorem tracks_pastTo? (hf : Ignores goes f) (hc : Ignores goes (· = c)) :
    Tracks goes (pastTo? f c) := fun _ _ h => tracks_after? hc (forall₂_dropWhile hf h)

theorem tracks_span? (hf : Ignores goes f) (hg : Ignores goes g) : Tracks goes (span? f g) := by
  intro s t h
  rw [span?, span?, any_head?_eq hf h]
  split
  · exact .some (forall₂_dropWhile hg h)
  · exact .none

theorem tracks_afterBlanks? (hblank : Ignores goes isBlank) : Tracks goes afterBlanks? := by
  intro s t h
  cases h with
  | nil => exact .none
  | cons hcd hst =>
      rw [afterBlanks?, afterBlanks?, hblank _ _ hcd]
      split
      · exact .some (forall₂_dropWhile hblank hst)
      · exact .none

theorem tracks_blanksTo? (hblank : Ignores goes isBlank) (hf : Ignores goes f)
    (hg : Ignores goes g) : Tracks goes (blanksTo? f g) :=
  (tracks_afterBlanks? hblank).kleisli (tracks_span? hf hg)

theorem tracks_afterWord? (hletters : ∀ letter ∈ word, Ignores goes (sameLetter letter)) :
    Tracks goes (afterWord? word) := by
  intro s t h
  induction word generalizing s t with
  | nil => exact .some h
  | cons letter word ih =>
      cases h with
      | nil => exact .none
      | cons hcd hst =>
          rw [afterWord?, afterWord?, hletters letter List.mem_cons_self _ _ hcd]
          split
          · exact ih (fun d hd => hletters d (List.mem_cons_of_mem letter hd)) hst
          · exact .none

theorem tracks_border? (hword : Ignores goes isWord) : Tracks goes border? := by
  intro s t h
  rw [border?, border?, isWordAt_head?_eq hword h]
  split
  · exact .none
  · exact .some h

theorem tracks_toEnd? : Tracks goes toEnd? := fun _ _ _ => .some .nil

theorem isSome_eq_of_rel_forall₂ {a b : Option (List Char)}
    (h : Option.Rel (List.Forall₂ goes) a b) : a.isSome = b.isSome := by
  cases h <;> rfl

theorem wordStands_eq (hwords : ∀ word ∈ words, IsLetters word)
    (hletters : ∀ word ∈ words, ∀ letter ∈ word, Ignores goes (sameLetter letter))
    (hword : Ignores goes isWord) (hbefore : isWordAt before = isWordAt other)
    (h : List.Forall₂ goes s t) : wordStands words before s = wordStands words other t := by
  cases hinside : isWordAt other with
  | true =>
      rw [hinside] at hbefore
      rw [wordStands_eq_false hwords (Or.inl hbefore), wordStands_eq_false hwords (Or.inl hinside)]
  | false =>
      rw [hinside] at hbefore
      rw [wordStands, wordStands, Bool.eq_iff_iff, List.any_eq_true, List.any_eq_true]
      refine exists_congr fun word => and_congr_right fun hmem => ?_
      have hrel := ((tracks_afterWord? (hletters word hmem)).kleisli (tracks_border? hword)) h
      rw [afterWholeWord?_border (hwords word hmem) hbefore,
        afterWholeWord?_border (hwords word hmem) hinside, afterWholeWord?_none (hwords word hmem),
        afterWholeWord?_none (hwords word hmem), isSome_eq_of_rel_forall₂ hrel]

theorem atEnd_eq (hend : Ignores goes (· = '\n')) (h : List.Forall₂ goes s t) :
    atEnd s = atEnd t := by
  have hiff : ∀ u : List Char,
      atEnd u = (u.isEmpty || (u.head?.any (· = '\n') && u.tail.isEmpty)) := by
    intro u
    unfold atEnd
    split
    · rfl
    · rfl
    · rename_i hne hline
      cases u with
      | nil => exact absurd rfl hne
      | cons c u =>
          cases u with
          | nil =>
              have hc : c ≠ '\n' := fun hc => hline (by rw [hc])
              simp [hc]
          | cons d u => simp
  rw [hiff, hiff, any_head?_eq hend h]
  cases h with
  | nil => rfl
  | cons _ hst => cases hst <;> rfl

theorem tracks_fromWord? (hwords : ∀ word ∈ words, IsLetters word)
    (hletters : ∀ word ∈ words, ∀ letter ∈ word, Ignores goes (sameLetter letter))
    (hword : Ignores goes isWord) (hend : Ignores goes (· = '\n')) :
    Tracks goes (fromWord? words) := by
  have hfrom : ∀ {s t}, List.Forall₂ goes s t → ∀ {before other},
      isWordAt before = isWordAt other →
        List.Forall₂ goes (fromWord words before s) (fromWord words other t) := by
    intro s t h
    induction h with
    | nil => exact fun _ => .nil
    | cons hcd hst ih =>
        intro before other hbefore
        have hall := List.Forall₂.cons hcd hst
        rw [fromWord, fromWord, wordStands_eq hwords hletters hword hbefore hall,
          atEnd_eq hend hall]
        split
        · exact hall
        · exact ih (hword _ _ hcd)
  exact fun s t h => .some (hfrom h rfl)

/-- At places that go with each other the pattern matches alike. -/
def Pattern.Tracks (p : Pattern β) (goes : Char → Char → Prop) (rel : β → β → Prop) : Prop :=
  ∀ ⦃before other s t⦄, isWordAt before = isWordAt other → List.Forall₂ goes s t →
    Option.Rel (fun found found' => found.1 = found'.1 ∧ rel found.2 found'.2)
      (p before s) (p other t)

theorem Pattern.Reads.tracks {p : Pattern Unit} (hp : p.Reads read) (hread : Text.Tracks goes read)
    (hword : Ignores goes isWord) : p.Tracks goes fun _ _ => True := by
  intro before other s t hbefore h
  have hhead := isWordAt_head?_eq hword h
  by_cases hap : Apart before s.head?
  · have hap' : Apart other t.head? := by rwa [Apart, ← hbefore, ← hhead]
    rw [hp.outside.border hap, hp.outside.border hap', hp.eq, hp.eq]
    have hrel := hread h
    generalize read s = rest at hrel
    generalize read t = rest' at hrel
    cases hrel with
    | none => exact .none
    | some hrest => exact .some ⟨by simp [taken, h.length_eq, hrest.length_eq], trivial⟩
  · simp only [Apart, not_or, Bool.not_eq_false] at hap
    rw [hp.outside.inside hap.1 hap.2,
      hp.outside.inside (hbefore ▸ hap.1) (hhead ▸ hap.2)]
    exact .none

section

variable {p : Pattern β} {rel : β → β → Prop} (hp : p.Tracks goes rel)
  (hword : Ignores goes isWord) (h : List.Forall₂ goes s t)
include hp hword h

theorem Pattern.Tracks.blankOut (hspace : goes ' ' ' ') :
    List.Forall₂ goes (blankOut p s) (blankOut p t) := by
  have hfrom : ∀ {skip before other}, isWordAt before = isWordAt other →
      List.Forall₂ goes (blankFrom p skip before s) (blankFrom p skip other t) := by
    induction h with
    | nil => exact fun _ => .nil
    | cons hcd hst ih =>
        intro skip before other hbefore
        cases skip with
        | succ skip => exact ih (hword _ _ hcd)
        | zero =>
            rw [blankFrom, blankFrom]
            have hrel := hp hbefore (.cons hcd hst)
            generalize p before _ = found at hrel
            generalize p other _ = found' at hrel
            cases hrel with
            | none => exact .cons hcd (ih (hword _ _ hcd))
            | some hfound =>
                obtain ⟨hmore, -⟩ := hfound
                simp only [hmore]
                exact .cons hspace (ih (hword _ _ hcd))
  exact hfrom rfl

theorem Pattern.Tracks.captures : List.Forall₂ rel (captures p s) (captures p t) := by
  have hfrom : ∀ {skip before other}, isWordAt before = isWordAt other →
      List.Forall₂ rel (capturesFrom p skip before s) (capturesFrom p skip other t) := by
    induction h with
    | nil => exact fun _ => by simp [capturesFrom]
    | cons hcd hst ih =>
        intro skip before other hbefore
        cases skip with
        | succ skip => exact ih (hword _ _ hcd)
        | zero =>
            rw [capturesFrom, capturesFrom]
            have hrel := hp hbefore (.cons hcd hst)
            generalize p before _ = found at hrel
            generalize p other _ = found' at hrel
            cases hrel with
            | none => exact ih (hword _ _ hcd)
            | some hfound =>
                obtain ⟨hmore, hcapture⟩ := hfound
                simp only [hmore]
                exact .cons hcapture (ih (hword _ _ hcd))
  exact hfrom rfl

end

end EventOperator.Text
