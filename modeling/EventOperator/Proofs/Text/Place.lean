import EventOperator.Proofs.Text.Search
import EventOperator.Text.Split
import Mathlib.Data.List.Chain
import Mathlib.Data.List.Flatten
import Mathlib.Data.List.Range

/-!
Texts whose letters know their places. Searches leave letters at their places, so a word that is
found in what several searches have left can be traced to where it stands in the text that was
searched first.
-/

namespace EventOperator.Text

structure Letter where
  char : Char
  place : Nat

def chars (t : List Letter) : List Char := t.map Letter.char

def places (t : List Letter) : List Nat := t.map Letter.place

def placed (s : List Char) : List Letter := s.zipIdx.map fun a => ⟨a.1, a.2⟩

variable {β : Type} {p : Pattern β} {before : Option Char} {s : List Char} {a : Letter}
  {t u v w : List Letter} {us vs : List (List Letter)}

@[simp] theorem chars_cons (a : Letter) (t : List Letter) : chars (a :: t) = a.char :: chars t :=
  rfl

@[simp] theorem places_append (t u : List Letter) : places (t ++ u) = places t ++ places u :=
  List.map_append

theorem chars_take (n : Nat) (t : List Letter) : chars (t.take n) = (chars t).take n :=
  List.map_take

theorem chars_drop (n : Nat) (t : List Letter) : chars (t.drop n) = (chars t).drop n :=
  List.map_drop

@[simp] theorem length_chars (t : List Letter) : (chars t).length = t.length := List.length_map _

@[simp] theorem chars_placed (s : List Char) : chars (placed s) = s := by
  rw [chars, placed, List.map_map]
  exact List.zipIdx_map_fst 0 s

@[simp] theorem places_placed (s : List Char) : places (placed s) = List.range' 0 s.length := by
  rw [places, placed, List.map_map]
  exact List.zipIdx_map_snd 0 s

/-! Letters that stand in a text. A blank may have been put for what stood at its place. -/

structure StandsIn (s : List Char) (t : List Letter) : Prop where
  char : ∀ a ∈ t, a.char ≠ ' ' → s[a.place]? = some a.char
  next : t.IsChain fun a b => a.char ≠ ' ' → b.place = a.place + 1

theorem standsIn_placed (s : List Char) : StandsIn s (placed s) where
  char := by
    intro a ha _
    obtain ⟨⟨c, n⟩, hmem, rfl⟩ := List.mem_map.mp ha
    exact List.mem_zipIdx_iff_getElem?.mp hmem
  next := by
    have hchain : (places (placed s)).IsChain fun m n => n = m + 1 := by
      rw [places_placed]
      exact List.isChain_range' 0 s.length 1
    exact ((List.isChain_map Letter.place).mp hchain).imp fun _ _ h _ => h

theorem StandsIn.cons (h : StandsIn s t) (hchar : a.char ≠ ' ' → s[a.place]? = some a.char)
    (hnext : a.char ≠ ' ' → ∀ b ∈ t.head?, b.place = a.place + 1) : StandsIn s (a :: t) where
  char b hb := by
    rcases List.mem_cons.mp hb with rfl | hb
    · exact hchar
    · exact h.char b hb
  next := List.isChain_cons.mpr ⟨fun b hb hblank => hnext hblank b hb, h.next⟩

theorem StandsIn.of_isInfix (h : StandsIn s t) (hu : u <:+: t) : StandsIn s u where
  char := fun a ha => h.char a (hu.subset ha)
  next := h.next.infix hu

theorem StandsIn.drop_place (h : StandsIn s (a :: w)) (hblank : a.char ≠ ' ') :
    s.drop a.place = a.char :: s.drop (a.place + 1) := by
  obtain ⟨hlt, hchar⟩ := List.getElem?_eq_some_iff.mp (h.char a List.mem_cons_self hblank)
  rw [List.drop_eq_getElem_cons hlt, hchar]

theorem StandsIn.chars_isPrefix {a : Letter} {w : List Letter} (h : StandsIn s (a :: w))
    (hw : ' ' ∉ chars (a :: w)) : chars (a :: w) <+: s.drop a.place := by
  have hblank : a.char ≠ ' ' := fun heq => hw (List.mem_cons.mpr (Or.inl heq.symm))
  rw [h.drop_place hblank, chars_cons, List.cons_prefix_cons]
  refine ⟨rfl, ?_⟩
  match w, h, hw with
  | [], _, _ => exact List.nil_prefix
  | b :: w, h, hw =>
      have hrest := (h.of_isInfix (List.suffix_cons a (b :: w)).isInfix).chars_isPrefix
        fun hin => hw (List.mem_cons_of_mem a.char hin)
      rwa [(List.isChain_cons_cons.mp h.next).1 hblank] at hrest

/-- What stood in a text still stands there in the part. -/
structure IsPart (u t : List Letter) : Prop where
  places : (places u).Sublist (places t)
  stands : ∀ {s}, StandsIn s t → StandsIn s u

theorem IsPart.trans (hu : IsPart u v) (hv : IsPart v w) : IsPart u w where
  places := hu.places.trans hv.places
  stands h := hu.stands (hv.stands h)

theorem isPart_of_isInfix (h : u <:+: t) : IsPart u t where
  places := h.sublist.map Letter.place
  stands hstands := hstands.of_isInfix h

structure AreParts (us : List (List Letter)) (t : List Letter) : Prop where
  part : ∀ u ∈ us, IsPart u t
  order : (places us.flatten).Sublist (places t)

namespace AreParts

theorem nil (t : List Letter) : AreParts [] t := ⟨nofun, List.nil_sublist _⟩

theorem trans (h : AreParts us t) (ht : IsPart t v) : AreParts us v where
  part u hu := (h.part u hu).trans ht
  order := h.order.trans ht.places

theorem of_sublist (h : AreParts us t) (hvs : vs.Sublist us) : AreParts vs t where
  part u hu := h.part u (hvs.subset hu)
  order := (hvs.flatten.map Letter.place).trans h.order

theorem append (hu : AreParts us u) (hv : AreParts vs v) : AreParts (us ++ vs) (u ++ v) where
  part w hw := by
    rcases List.mem_append.mp hw with hw | hw
    · exact (hu.part w hw).trans (isPart_of_isInfix (List.prefix_append u v).isInfix)
    · exact (hv.part w hw).trans (isPart_of_isInfix (List.suffix_append u v).isInfix)
  order := by
    rw [List.flatten_append, places_append, places_append]
    exact hu.order.append hv.order

theorem singleton (h : IsPart u t) : AreParts [u] t where
  part v hv := List.mem_singleton.mp hv ▸ h
  order := by simpa using h.places

theorem cons (hu : IsPart u v) (hus : AreParts us w) : AreParts (u :: us) (v ++ w) :=
  (singleton hu).append hus

theorem flatMap {f : List Letter → List (List Letter)} (h : AreParts us t)
    (hf : ∀ u ∈ us, AreParts (f u) u) : AreParts (us.flatMap f) t where
  part w hw := by
    obtain ⟨u, hu, hw⟩ := List.mem_flatMap.mp hw
    exact ((hf u hu).part w hw).trans (h.part u hu)
  order := by
    have hinner : (places (us.flatMap f).flatten).Sublist (places us.flatten) := by
      clear h
      induction us with
      | nil => exact List.nil_sublist _
      | cons u us ih =>
          rw [List.flatMap_cons, List.flatten_append, List.flatten_cons, places_append,
            places_append]
          exact (hf u List.mem_cons_self).order.append
            (ih fun v hv => hf v (List.mem_cons_of_mem u hv))
    exact hinner.trans h.order

theorem pairwise (h : AreParts us (placed s)) :
    us.Pairwise fun u v => ∀ a ∈ u, ∀ b ∈ v, a.place < b.place := by
  have hall : (places us.flatten).Pairwise (· < ·) := by
    apply List.Pairwise.sublist h.order
    rw [places_placed]
    exact List.pairwise_lt_range'
  exact (List.pairwise_flatten.mp (List.pairwise_map.mp hall)).2

end AreParts

/-! The text that is left when each match has been replaced by a blank at its first place. -/

def blankedFrom (p : Pattern β) : Nat → Option Char → List Letter → List Letter
  | _, _, [] => []
  | skip + 1, _, a :: t => blankedFrom p skip (some a.char) t
  | 0, before, a :: t =>
      match p before (chars (a :: t)) with
      | some (more, _) => ⟨' ', a.place⟩ :: blankedFrom p more (some a.char) t
      | none => a :: blankedFrom p 0 (some a.char) t

def blanked (p : Pattern β) (t : List Letter) : List Letter := blankedFrom p 0 none t

theorem chars_blankedFrom (p : Pattern β) (skip : Nat) (before : Option Char) (t : List Letter) :
    chars (blankedFrom p skip before t) = blankFrom p skip before (chars t) := by
  induction t generalizing skip before with
  | nil => cases skip <;> rfl
  | cons a t ih =>
      cases skip with
      | succ skip => exact ih skip (some a.char)
      | zero =>
          rw [blankedFrom, chars_cons, blankFrom]
          cases p before (a.char :: chars t) with
          | none => exact congrArg (a.char :: ·) (ih 0 (some a.char))
          | some found => exact congrArg (' ' :: ·) (ih found.1 (some a.char))

theorem chars_blanked (p : Pattern β) (t : List Letter) :
    chars (blanked p t) = blankOut p (chars t) := chars_blankedFrom p 0 none t

theorem places_blankedFrom (p : Pattern β) (skip : Nat) (before : Option Char) (t : List Letter) :
    (places (blankedFrom p skip before t)).Sublist (places t) := by
  induction t generalizing skip before with
  | nil => cases skip <;> exact List.Sublist.refl _
  | cons a t ih =>
      cases skip with
      | succ skip => exact (ih skip (some a.char)).cons a.place
      | zero =>
          rw [blankedFrom]
          split
          · exact (ih _ (some a.char)).cons_cons a.place
          · exact (ih 0 (some a.char)).cons_cons a.place

theorem place_head?_blankedFrom (p : Pattern β) (before : Option Char) (t : List Letter) :
    (blankedFrom p 0 before t).head?.map Letter.place = t.head?.map Letter.place := by
  cases t with
  | nil => rfl
  | cons a t =>
      rw [blankedFrom]
      split <;> rfl

theorem standsIn_blankedFrom (h : StandsIn s t) (p : Pattern β) (skip : Nat)
    (before : Option Char) : StandsIn s (blankedFrom p skip before t) := by
  induction t generalizing skip before with
  | nil => cases skip <;> exact h
  | cons a t ih =>
      have hlater := fun skip => ih (h.of_isInfix (List.suffix_cons a t).isInfix) skip (some a.char)
      cases skip with
      | succ skip => exact hlater skip
      | zero =>
          rw [blankedFrom]
          split
          · exact (hlater _).cons (fun hblank => absurd rfl hblank) fun hblank => absurd rfl hblank
          · refine (hlater 0).cons (h.char a List.mem_cons_self) fun hblank b hb => ?_
            have hhead := place_head?_blankedFrom p (some a.char) t
            rw [hb] at hhead
            obtain ⟨d, hd, hplace⟩ := Option.map_eq_some_iff.mp hhead.symm
            exact hplace ▸ (List.isChain_cons.mp h.next).1 d hd hblank

theorem isPart_blanked (p : Pattern β) (t : List Letter) : IsPart (blanked p t) t where
  places := places_blankedFrom p 0 none t
  stands h := standsIn_blankedFrom h p 0 none

def divided (divider : Char) : List Letter → List (List Letter)
  | [] => [[]]
  | a :: t =>
      match divided divider t with
      | [] => [[a]]
      | part :: parts => if a.char = divider then [] :: part :: parts else (a :: part) :: parts

theorem map_chars_divided (divider : Char) (t : List Letter) :
    (divided divider t).map chars = splitAt divider (chars t) := by
  induction t with
  | nil => rfl
  | cons a t ih =>
      rw [divided, chars_cons, splitAt, ← ih]
      cases divided divider t with
      | nil => rfl
      | cons part parts =>
          simp only [List.map_cons]
          split <;> rfl

theorem areParts_divided (divider : Char) (t : List Letter) : AreParts (divided divider t) t := by
  have hfirst : ∃ part parts, divided divider t = part :: parts ∧
      ∃ rest, t = part ++ rest ∧ AreParts parts rest := by
    induction t with
    | nil => exact ⟨[], [], rfl, [], rfl, .nil _⟩
    | cons a t ih =>
        obtain ⟨part, parts, heq, rest, ht, hparts⟩ := ih
        rw [divided, heq]
        by_cases ha : a.char = divider
        · have hlater : AreParts (part :: parts) t :=
            ht ▸ .cons (isPart_of_isInfix List.infix_rfl) hparts
          exact ⟨[], part :: parts, if_pos ha, a :: t, rfl,
            hlater.trans (isPart_of_isInfix (List.suffix_cons a t).isInfix)⟩
        · exact ⟨a :: part, parts, if_neg ha, rest, by rw [ht]; rfl, hparts⟩
  obtain ⟨part, parts, heq, rest, ht, hparts⟩ := hfirst
  rw [heq, ht]
  exact .cons (isPart_of_isInfix List.infix_rfl) hparts

/-- Where a capture is in the letters that its match has taken. -/
structure Locator where
  locate : List Letter → List Char → List Letter
  isInfix_piece : ∀ piece capture, locate piece capture <:+: piece

def capturedFrom (locator : Locator) (p : Pattern (List Char)) :
    Nat → Option Char → List Letter → List (List Letter)
  | _, _, [] => []
  | skip + 1, _, a :: t => capturedFrom locator p skip (some a.char) t
  | 0, before, a :: t =>
      match p before (chars (a :: t)) with
      | some (more, capture) =>
          locator.locate ((a :: t).take (more + 1)) capture ::
            capturedFrom locator p more (some a.char) t
      | none => capturedFrom locator p 0 (some a.char) t

def captured (locator : Locator) (p : Pattern (List Char)) (t : List Letter) :
    List (List Letter) := capturedFrom locator p 0 none t

theorem areParts_capturedFrom (locator : Locator) (p : Pattern (List Char)) (skip : Nat)
    (before : Option Char) (t : List Letter) :
    AreParts (capturedFrom locator p skip before t) (t.drop skip) := by
  induction t generalizing skip before with
  | nil => cases skip <;> exact .nil _
  | cons a t ih =>
      cases skip with
      | succ skip => exact ih skip (some a.char)
      | zero =>
          rw [capturedFrom]
          split
          · rename_i more capture _
            have hpiece := isPart_of_isInfix (locator.isInfix_piece ((a :: t).take (more + 1)) capture)
            have hparts := AreParts.cons hpiece (ih more (some a.char))
            rwa [← List.drop_succ_cons, List.take_append_drop] at hparts
          · exact (ih 0 (some a.char)).trans (isPart_of_isInfix (List.suffix_cons a t).isInfix)

theorem areParts_captured (locator : Locator) (p : Pattern (List Char)) (t : List Letter) :
    AreParts (captured locator p t) t := areParts_capturedFrom locator p 0 none t

/-- The locator finds the captures of the pattern. -/
def Locator.Finds (locator : Locator) (p : Pattern (List Char)) : Prop :=
  ∀ ⦃before t more capture⦄, p before (chars t) = some (more, capture) →
    chars (locator.locate (t.take (more + 1)) capture) = capture

theorem map_chars_capturedFrom {locator : Locator} {p : Pattern (List Char)}
    (h : locator.Finds p) (skip : Nat) (before : Option Char) (t : List Letter) :
    (capturedFrom locator p skip before t).map chars = capturesFrom p skip before (chars t) := by
  induction t generalizing skip before with
  | nil => cases skip <;> rfl
  | cons a t ih =>
      cases skip with
      | succ skip => exact ih skip (some a.char)
      | zero =>
          rw [capturedFrom, chars_cons, capturesFrom]
          cases hmatch : p before (a.char :: chars t) with
          | none => exact ih 0 (some a.char)
          | some found =>
              rw [List.map_cons, h hmatch, ih]

theorem map_chars_captured {locator : Locator} {p : Pattern (List Char)} (h : locator.Finds p)
    (t : List Letter) : (captured locator p t).map chars = captures p (chars t) :=
  map_chars_capturedFrom h 0 none t

def atEndOfMatch : Locator where
  locate piece capture := piece.drop (piece.length - capture.length)
  isInfix_piece piece _ := (List.drop_suffix _ piece).isInfix

theorem atEndOfMatch_finds {p : Pattern (List Char)}
    (h : ∀ {before s more capture}, p before s = some (more, capture) →
      capture <:+ s.take (more + 1)) : atEndOfMatch.Finds p := by
  intro before t more capture hmatch
  have hsuffix := List.suffix_iff_eq_drop.mp (h hmatch)
  rw [← chars_take, length_chars, ← chars_drop] at hsuffix
  exact hsuffix.symm

/-- Behind the first character of this kind. -/
def behindFirst (c : Char) : Locator where
  locate piece capture := ((piece.dropWhile (·.char ≠ c)).drop 1).take capture.length
  isInfix_piece _ _ := (List.take_prefix _ _).isInfix.trans
    ((List.drop_suffix _ _).trans (List.dropWhile_suffix _)).isInfix

theorem chars_dropWhile (f : Char → Bool) (t : List Letter) :
    chars (t.dropWhile fun a => f a.char) = (chars t).dropWhile f := by
  induction t with
  | nil => rfl
  | cons a t ih =>
      rw [chars_cons, List.dropWhile_cons, List.dropWhile_cons]
      split
      · exact ih
      · rfl

theorem behindFirst_finds {c : Char} {p : Pattern (List Char)}
    (h : ∀ {before s more capture}, p before s = some (more, capture) →
      ∃ u, c ∉ u ∧ u ++ c :: capture <+: s.take (more + 1)) : (behindFirst c).Finds p := by
  intro before t more capture hmatch
  obtain ⟨u, hu, rest, hpiece⟩ := h hmatch
  have hfront : ∀ d ∈ u, decide (d ≠ c) = true := fun d hd =>
    decide_eq_true fun heq => hu (heq ▸ hd)
  show chars ((((t.take (more + 1)).dropWhile fun a => decide (a.char ≠ c)).drop 1).take
    capture.length) = capture
  rw [chars_take, chars_drop, chars_dropWhile fun d => decide (d ≠ c), chars_take, ← hpiece,
    List.append_assoc, List.dropWhile_append_of_pos hfront]
  simp

end EventOperator.Text
