import Mathlib.Data.List.Forall2
import EventOperator.Identity.Supply
import EventOperator.Table

/-!
Ids that go with each other at two places that have drawn from the same source, and tables that are
alike but for such ids.
-/

namespace EventOperator

section

variable {ι : Type u} {κ : Type v} {goes wider : ι → κ → Prop}

theorem rel_imp (hwider : ∀ a b, goes a b → wider a b) {a? : Option ι} {b? : Option κ}
    (h : Option.Rel goes a? b?) : Option.Rel wider a? b? := by
  cases h with
  | none => exact .none
  | some hab => exact .some (hwider _ _ hab)

theorem forall₂_toList {a? : Option ι} {b? : Option κ} (h : Option.Rel goes a? b?) :
    List.Forall₂ goes a?.toList b?.toList := by
  cases h with
  | none => exact .nil
  | some hab => exact .cons hab .nil

theorem rel_getElem? {list : List ι} {others : List κ} (h : List.Forall₂ goes list others)
    (n : Nat) : Option.Rel goes list[n]? others[n]? := by
  induction h generalizing n with
  | nil => exact .none
  | cons hab _ ih =>
      cases n with
      | zero => exact .some hab
      | succ n => exact ih n

variable {ι' : Type w} {also : ι' → κ → Prop}

theorem exists_of_rel {a : ι} {b? : Option ι'} {c? : Option κ} (h : Option.Rel goes (some a) c?)
    (h' : Option.Rel also b? c?) : ∃ b c, b? = some b ∧ goes a c ∧ also b c := by
  cases h with
  | some hac =>
      cases h' with
      | some hbc => exact ⟨_, _, rfl, hac, hbc⟩

theorem forall₂_of_common {both : ι → ι' → Prop}
    (hboth : ∀ a b c, goes a c → also b c → both a b) {list : List ι} {list' : List ι'}
    {common : List κ} (h : List.Forall₂ goes list common) (h' : List.Forall₂ also list' common) :
    List.Forall₂ both list list' := by
  induction h generalizing list' with
  | nil =>
      cases h'
      exact .nil
  | cons hac _ ih =>
      cases h' with
      | cons hbc hrest => exact .cons (hboth _ _ _ hac hbc) (ih hrest)

end

namespace Table

variable {κ : Type u} {ι : Type v} {α : Type w} {goes wider : κ → ι → Prop}

/-- The same values in the same order. -/
def Alike (goes : κ → ι → Prop) (t : Table κ α) (u : Table ι α) : Prop :=
  List.Forall₂ (fun row other => goes row.1 other.1 ∧ row.2 = other.2) t.rows u.rows

namespace Alike

variable {t : Table κ α} {u : Table ι α}

theorem keys (h : t.Alike goes u) : List.Forall₂ goes t.keys u.keys := by
  rw [Table.keys, Table.keys, List.forall₂_map_left_iff, List.forall₂_map_right_iff]
  exact h.imp fun _ _ hrow => hrow.1

theorem values_eq (h : t.Alike goes u) : t.values = u.values := by
  rw [← List.forall₂_eq_eq_eq, Table.values, Table.values, List.forall₂_map_left_iff,
    List.forall₂_map_right_iff]
  exact h.imp fun _ _ hrow => hrow.2

theorem mono (h : t.Alike goes u) (hwider : ∀ key other, goes key other → wider key other) :
    t.Alike wider u :=
  h.imp fun row other hrow => ⟨hwider row.1 other.1 hrow.1, hrow.2⟩

variable [DecidableEq κ] [DecidableEq ι] (hunique : Relator.BiUnique goes) {key : κ} {other : ι}
include hunique

theorem forall₂_put (hkey : goes key other) (value : α) {rows : List (κ × α)}
    {others : List (ι × α)}
    (h : List.Forall₂ (fun row other => goes row.1 other.1 ∧ row.2 = other.2) rows others) :
    List.Forall₂ (fun row other => goes row.1 other.1 ∧ row.2 = other.2)
      (put key value rows) (put other value others) := by
  induction h with
  | nil => exact .cons ⟨hkey, rfl⟩ .nil
  | @cons row found rest others hrow hrest ih =>
      have hsame : row.1 = key ↔ found.1 = other := Relator.rel_eq hunique hrow.1 hkey
      rw [put, put]
      by_cases heq : row.1 = key
      · rw [if_pos heq, if_pos (hsame.mp heq)]
        exact .cons ⟨hrow.1, rfl⟩ hrest
      · rw [if_neg heq, if_neg (hsame.not.mp heq)]
        exact .cons hrow ih

theorem insert (h : t.Alike goes u) (hkey : goes key other) (value : α) :
    (t.insert key value).Alike goes (u.insert other value) :=
  forall₂_put hunique hkey value h

theorem erase (h : t.Alike goes u) (hkey : goes key other) :
    (t.erase key).Alike goes (u.erase other) := by
  refine List.rel_filter (fun row found hrow => ?_) h
  have hsame : row.1 = key ↔ found.1 = other := Relator.rel_eq hunique hrow.1 hkey
  simp only [decide_eq_true_iff]
  exact hsame.not

end Alike

end Table

namespace Identity

namespace Cursor

variable {c : Cursor} {id : String}

def WillGive (c : Cursor) (id : String) : Prop := ∃ n, c.position ≤ n ∧ c.source.ids n = id

def NeverRepeats (c : Cursor) : Prop :=
  ∀ m n, c.position ≤ m → c.position ≤ n → c.source.ids m = c.source.ids n → m = n

theorem serial_neverRepeats : (start .serial).NeverRepeats := by
  intro m n _ _ h
  have hdigits := Text.paddedHex_injective (String.ofList_injective (Source.append_injective h))
  omega

theorem head?_of_serial_willGive (h : (start .serial).WillGive id) :
    id.toList.head? = some '0' := by
  obtain ⟨n, -, rfl⟩ := h
  simp [start, Source.serial, Source.counted]

theorem exists_nextFresh_eq (c : Cursor) (taken : List String) :
    ∃ n, c.position ≤ n ∧ c.source.ids n ∉ taken ∧
      c.nextFresh taken = (c.source.ids n, ⟨c.source, n + 1⟩) :=
  ⟨_, (firstFrom_spec _ _ _).1, c.nextFresh_not_mem taken, rfl⟩

end Cursor

namespace Supply

@[simp] theorem cursor_move_self (s : Supply) (generator : Generator) (c : Cursor) :
    (s.move generator c).cursor generator = c := by
  cases generator <;> rfl

theorem cursor_move_of_ne (s : Supply) {generator other : Generator} (h : generator ≠ other)
    (c : Cursor) : (s.move generator c).cursor other = s.cursor other := by
  cases generator <;> cases other <;> first | rfl | exact absurd rfl h

/-- The supply after more ids have been drawn. -/
def IsLater (s earlier : Supply) : Prop :=
  ∀ generator, (s.cursor generator).source = (earlier.cursor generator).source ∧
    (earlier.cursor generator).position ≤ (s.cursor generator).position

theorem IsLater.refl (s : Supply) : s.IsLater s := fun _ => ⟨rfl, Nat.le_refl _⟩

theorem IsLater.trans {s earlier first : Supply} (h : s.IsLater earlier)
    (hfirst : earlier.IsLater first) : s.IsLater first := fun generator =>
  ⟨(h generator).1.trans (hfirst generator).1,
    Nat.le_trans (hfirst generator).2 (h generator).2⟩

theorem isLater_move (s : Supply) (generator : Generator) {n : Nat}
    (hn : (s.cursor generator).position ≤ n) :
    (s.move generator ⟨(s.cursor generator).source, n⟩).IsLater s := by
  intro other
  by_cases h : generator = other
  · subst h
    rw [cursor_move_self]
    exact ⟨rfl, hn⟩
  · rw [cursor_move_of_ne s h]
    exact ⟨rfl, Nat.le_refl _⟩

end Supply

/-- A source at a place, and the ids that plans have at that time. -/
structure Origin where
  cursor : Cursor
  taken : List String

namespace Origin

variable {origin : Origin} {id : String} {stop : Nat}

/-- A plan has the id, and the source gives it again. As long as the plan is there, it is not drawn. -/
def IsBlocked (origin : Origin) (id : String) : Prop :=
  id ∈ origin.taken ∧ origin.cursor.WillGive id

def MayDraw (origin : Origin) (id : String) : Prop :=
  id ∉ origin.taken ∧ origin.cursor.WillGive id

def DrawnBefore (origin : Origin) (stop : Nat) (id : String) : Prop :=
  id ∉ origin.taken ∧ ∃ n, origin.cursor.position ≤ n ∧ n < stop ∧ origin.cursor.source.ids n = id

theorem DrawnBefore.mayDraw (h : origin.DrawnBefore stop id) : origin.MayDraw id :=
  let ⟨htaken, n, hn, _, hid⟩ := h
  ⟨htaken, n, hn, hid⟩

theorem DrawnBefore.later {n : Nat} (h : origin.DrawnBefore stop id) (hlater : stop ≤ n) :
    origin.DrawnBefore n id :=
  let ⟨htaken, m, hm, hstop, hid⟩ := h
  ⟨htaken, m, hm, Nat.lt_of_lt_of_le hstop hlater, hid⟩

/-- Blocked ids go with themselves. -/
def orBlocked (origin : Origin) (goes : String → String → Prop) : String → String → Prop :=
  fun id other => goes id other ∨ (id = other ∧ origin.IsBlocked id)

end Origin

/-- One more id goes with another. -/
def joined (goes : String → String → Prop) (id other : String) : String → String → Prop :=
  fun a b => goes a b ∨ (a = id ∧ b = other)

/-- Ids here and there that go with each other. The source has been drawn from since the same place.
An id that it does not give goes with itself, and one that has been drawn here with one that has been
drawn there. -/
structure Renaming (origin : Origin) (here there : Nat) (goes : String → String → Prop) : Prop where
  here_le : origin.cursor.position ≤ here
  there_le : origin.cursor.position ≤ there
  kept : ∀ id, ¬ origin.cursor.WillGive id → goes id id
  known : ∀ id other, goes id other → (id = other ∧ ¬ origin.cursor.WillGive id) ∨
    (origin.DrawnBefore here id ∧ origin.DrawnBefore there other)
  unique : Relator.BiUnique goes

namespace Renaming

variable {origin : Origin} {here there m n : Nat} {goes : String → String → Prop}
  {id other : String}

theorem start (origin : Origin) :
    Renaming origin origin.cursor.position origin.cursor.position
      (fun id other => id = other ∧ ¬ origin.cursor.WillGive id) where
  here_le := Nat.le_refl _
  there_le := Nat.le_refl _
  kept _ h := ⟨rfl, h⟩
  known _ _ h := Or.inl h
  unique := ⟨fun _ _ _ h g => h.1.trans g.1.symm, fun _ _ _ h g => h.1.symm.trans g.1⟩

theorem later (h : Renaming origin here there goes) (hm : here ≤ m) (hn : there ≤ n) :
    Renaming origin m n goes where
  here_le := Nat.le_trans h.here_le hm
  there_le := Nat.le_trans h.there_le hn
  kept := h.kept
  known id other hgoes :=
    (h.known id other hgoes).imp_right fun hdrawn => ⟨hdrawn.1.later hm, hdrawn.2.later hn⟩
  unique := h.unique

theorem flip (h : Renaming origin here there goes) : Renaming origin there here (flip goes) where
  here_le := h.there_le
  there_le := h.here_le
  kept := h.kept
  known id other hgoes := by
    rcases h.known other id hgoes with ⟨rfl, hkept⟩ | hdrawn
    · exact Or.inl ⟨rfl, hkept⟩
    · exact Or.inr hdrawn.symm
  unique := ⟨fun _ _ _ hfirst hsecond => h.unique.2 hfirst hsecond,
    fun _ _ _ hfirst hsecond => h.unique.1 hfirst hsecond⟩

theorem not_goes (h : Renaming origin here there goes) (hnever : origin.cursor.NeverRepeats)
    (hm : here ≤ m) : ¬ goes (origin.cursor.source.ids m) other := by
  have hposition : origin.cursor.position ≤ m := Nat.le_trans h.here_le hm
  intro hgoes
  rcases h.known _ _ hgoes with ⟨-, hkept⟩ | ⟨⟨-, k, hk, hstop, hid⟩, -⟩
  · exact hkept ⟨m, hposition, rfl⟩
  · obtain rfl := hnever k m hk hposition hid
    exact Nat.not_lt_of_le hm hstop

theorem drawn (h : Renaming origin here there goes) (hnever : origin.cursor.NeverRepeats)
    (hm : here ≤ m) (hmtaken : origin.cursor.source.ids m ∉ origin.taken) (hn : there ≤ n)
    (hntaken : origin.cursor.source.ids n ∉ origin.taken) :
    Renaming origin (m + 1) (n + 1)
      (joined goes (origin.cursor.source.ids m) (origin.cursor.source.ids n)) := by
  have hwider := h.later (Nat.le_succ_of_le hm) (Nat.le_succ_of_le hn)
  refine ⟨hwider.here_le, hwider.there_le, fun id hid => Or.inl (hwider.kept id hid), ?_, ?_, ?_⟩
  · rintro id other (hgoes | ⟨rfl, rfl⟩)
    · exact hwider.known id other hgoes
    · exact Or.inr ⟨⟨hmtaken, m, Nat.le_trans h.here_le hm, Nat.lt_succ_self m, rfl⟩,
        ⟨hntaken, n, Nat.le_trans h.there_le hn, Nat.lt_succ_self n, rfl⟩⟩
  · rintro id third other (hgoes | ⟨rfl, rfl⟩) (hthird | ⟨rfl, hother⟩)
    · exact h.unique.1 hgoes hthird
    · exact absurd (hother ▸ hgoes) (h.flip.not_goes hnever hn)
    · exact absurd hthird (h.flip.not_goes hnever hn)
    · rfl
  · rintro id other third (hgoes | ⟨rfl, rfl⟩) (hthird | ⟨hid, rfl⟩)
    · exact h.unique.2 hgoes hthird
    · exact absurd (hid ▸ hgoes) (h.not_goes hnever hm)
    · exact absurd hthird (h.not_goes hnever hm)
    · rfl

theorem not_isBlocked (h : Renaming origin here there goes) (hgoes : goes id other) :
    ¬ origin.IsBlocked id := by
  rintro ⟨htaken, hgive⟩
  rcases h.known id other hgoes with ⟨-, hkept⟩ | ⟨hdrawn, -⟩
  · exact hkept hgive
  · exact hdrawn.1 htaken

theorem orBlocked_unique (h : Renaming origin here there goes) :
    Relator.BiUnique (origin.orBlocked goes) := by
  constructor
  · rintro id third other (hgoes | ⟨rfl, hblocked⟩) (hthird | ⟨rfl, hblocked'⟩)
    · exact h.unique.1 hgoes hthird
    · exact absurd hblocked' (h.flip.not_isBlocked hgoes)
    · exact absurd hblocked (h.flip.not_isBlocked hthird)
    · rfl
  · rintro id other third (hgoes | ⟨rfl, hblocked⟩) (hthird | ⟨rfl, hblocked'⟩)
    · exact h.unique.2 hgoes hthird
    · exact absurd hblocked' (h.not_isBlocked hgoes)
    · exact absurd hblocked (h.not_isBlocked hthird)
    · rfl

theorem eq_of_not_mayDraw (h : Renaming origin here there goes)
    (hid : origin.orBlocked goes id other) (hother : ¬ origin.MayDraw other) : id = other := by
  rcases hid with hgoes | ⟨heq, -⟩
  · rcases h.known id other hgoes with ⟨heq, -⟩ | ⟨-, hdrawn⟩
    · exact heq
    · exact absurd hdrawn.mayDraw hother
  · exact heq

theorem mayDraw_of_mayDraw (h : Renaming origin here there goes)
    (hid : origin.orBlocked goes id other) (hother : origin.MayDraw other) : origin.MayDraw id := by
  rcases hid with hgoes | ⟨rfl, -⟩
  · rcases h.known id other hgoes with ⟨rfl, -⟩ | ⟨hdrawn, -⟩
    · exact hother
    · exact hdrawn.mayDraw
  · exact hother

theorem eq_or_mayDraw {here' there' : Nat} {goes' : String → String → Prop} {id' : String}
    (h : Renaming origin here there goes) (h' : Renaming origin here' there' goes')
    (hid : origin.orBlocked goes id other) (hid' : origin.orBlocked goes' id' other) :
    id = id' ∨ (origin.MayDraw id ∧ origin.MayDraw id') := by
  by_cases hother : origin.MayDraw other
  · exact Or.inr ⟨h.mayDraw_of_mayDraw hid hother, h'.mayDraw_of_mayDraw hid' hother⟩
  · exact Or.inl ((h.eq_of_not_mayDraw hid hother).trans (h'.eq_of_not_mayDraw hid' hother).symm)

end Renaming

end Identity

end EventOperator
