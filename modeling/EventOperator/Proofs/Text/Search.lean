import EventOperator.Text.Pattern

/-!
Searches across a border. Where no word runs from one part of a text into the next, the two parts
may be searched one after the other.
-/

namespace EventOperator.Text

variable {β : Type} {p : Pattern β} {before : Option Char} {b : β} {c : Char} {u v s : List Char}

/-- No word runs across the place between the two characters. -/
def Apart (before after : Option Char) : Prop :=
  isWordAt before = false ∨ isWordAt after = false

theorem border_of_apart {after : Option Char} (h : isWordAt before = true)
    (hap : Apart before after) : isWordAt after = false :=
  hap.resolve_left (by simp [h])

@[simp] theorem isWordAt_none : isWordAt none = false := rfl

@[simp] theorem isWordAt_some (c : Char) : isWordAt (some c) = isWord c := rfl

theorem ne_of_holds {f : Char → Bool} {d : Char} (hc : f c = true) (hd : f d = false) : c ≠ d := by
  intro h
  rw [h, hd] at hc
  exact Bool.noConfusion hc

/-! What a search finds, in order: the characters that it passes over and the captures. -/

def scanFrom (p : Pattern β) : Nat → Option Char → List Char → List (Char ⊕ β)
  | _, _, [] => []
  | skip + 1, _, c :: s => scanFrom p skip (some c) s
  | 0, before, c :: s =>
      match p before (c :: s) with
      | some (more, capture) => .inr capture :: scanFrom p more (some c) s
      | none => .inl c :: scanFrom p 0 (some c) s

def scan (p : Pattern β) (s : List Char) : List (Char ⊕ β) := scanFrom p 0 none s

theorem capturesFrom_eq_scanFrom (p : Pattern β) (skip : Nat) (before : Option Char)
    (s : List Char) :
    capturesFrom p skip before s = (scanFrom p skip before s).filterMap Sum.getRight? := by
  induction s generalizing skip before with
  | nil => simp [capturesFrom, scanFrom]
  | cons c s ih =>
      cases skip with
      | succ skip => simpa [capturesFrom, scanFrom] using ih skip (some c)
      | zero =>
          rw [capturesFrom, scanFrom]
          cases p before (c :: s) with
          | none => simpa [List.filterMap_cons] using ih 0 (some c)
          | some found => simpa [List.filterMap_cons] using ih found.1 (some c)

theorem captures_eq_scan (p : Pattern β) (s : List Char) :
    captures p s = (scan p s).filterMap Sum.getRight? :=
  capturesFrom_eq_scanFrom p 0 none s

theorem blankFrom_eq_scanFrom (p : Pattern β) (skip : Nat) (before : Option Char)
    (s : List Char) :
    blankFrom p skip before s = (scanFrom p skip before s).map (Sum.elim id fun _ => ' ') := by
  induction s generalizing skip before with
  | nil => simp [blankFrom, scanFrom]
  | cons c s ih =>
      cases skip with
      | succ skip => simpa [blankFrom, scanFrom] using ih skip (some c)
      | zero =>
          rw [blankFrom, scanFrom]
          cases p before (c :: s) with
          | none => simpa using ih 0 (some c)
          | some found => simpa using ih found.1 (some c)

theorem blankOut_eq_scan (p : Pattern β) (s : List Char) :
    blankOut p s = (scan p s).map (Sum.elim id fun _ => ' ') :=
  blankFrom_eq_scanFrom p 0 none s

@[simp] theorem scan_nil (p : Pattern β) : scan p [] = [] := rfl

@[simp] theorem captures_nil (p : Pattern β) : captures p [] = [] := rfl

@[simp] theorem blankOut_nil (p : Pattern β) : blankOut p [] = [] := rfl

theorem scanFrom_eq_scan (h : p before s = p none s) : scanFrom p 0 before s = scan p s := by
  cases s with
  | nil => rfl
  | cons c s => rw [scan, scanFrom, scanFrom, h]

theorem scanFrom_length_append (p : Pattern β) (c d : Char) (u v : List Char) :
    scanFrom p (u.length + 1) (some c) (d :: u ++ v) =
      scanFrom p 0 (d :: u).getLast? v := by
  induction u generalizing c d with
  | nil => rfl
  | cons e u ih =>
      have hstep := ih d e
      rw [List.getLast?_cons_cons]
      simpa [scanFrom] using hstep

theorem scan_cons (hnone : p none (c :: v) = none) (hnext : p (some c) v = p none v) :
    scan p (c :: v) = .inl c :: scan p v := by
  rw [scan, scanFrom, hnone]
  simp only [scanFrom_eq_scan hnext]

/-- A match that takes `u`. -/
def Takes (p : Pattern β) (u v : List Char) (b : β) : Prop :=
  u ≠ [] ∧ p none (u ++ v) = some (taken (u ++ v) v b)

theorem taken_append (u v : List Char) (b : β) : taken (u ++ v) v b = (u.length - 1, b) := by
  simp [taken]

theorem scan_take (htakes : Takes p u v b) (hnext : p u.getLast? v = p none v) :
    scan p (u ++ v) = .inr b :: scan p v := by
  obtain ⟨hne, hmatch⟩ := htakes
  rw [taken_append] at hmatch
  cases u with
  | nil => exact absurd rfl hne
  | cons c u =>
      rw [List.cons_append] at hmatch ⊢
      rw [scan, scanFrom, hmatch]
      simp only [List.length_cons, Nat.add_sub_cancel]
      cases u with
      | nil => exact congrArg (Sum.inr b :: ·) (scanFrom_eq_scan hnext)
      | cons d u =>
          rw [List.length_cons, scanFrom_length_append]
          rw [List.getLast?_cons_cons] at hnext
          exact congrArg (Sum.inr b :: ·) (scanFrom_eq_scan hnext)

/-! Patterns that match only where a word begins. -/

structure Pattern.Wordwise (p : Pattern β) : Prop where
  begins : ∀ {before s}, p before s ≠ none → isWordAt before = false ∧ isWordAt s.head? = true
  border : ∀ {before s}, isWordAt before = false → p before s = p none s

namespace Pattern.Wordwise

theorem eq_none (hp : p.Wordwise) (h : isWordAt s.head? = false) : p before s = none := by
  cases hfound : p before s with
  | none => rfl
  | some found =>
      have hbegins := (hp.begins (by simp [hfound] : p before s ≠ none)).2
      simp [h] at hbegins

theorem eq_none_inside (hp : p.Wordwise) (h : isWordAt before = true) : p before s = none := by
  cases hfound : p before s with
  | none => rfl
  | some found =>
      have hbegins := (hp.begins (by simp [hfound] : p before s ≠ none)).1
      simp [h] at hbegins

theorem eq_of_apart (hp : p.Wordwise) (h : Apart before s.head?) : p before s = p none s := by
  rcases h with hbefore | hafter
  · exact hp.border hbefore
  · rw [hp.eq_none hafter, hp.eq_none hafter]

theorem scan_other (hp : p.Wordwise) (hc : isWord c = false) :
    scan p (c :: v) = .inl c :: scan p v :=
  scan_cons (hp.eq_none hc) (hp.border hc)

end Pattern.Wordwise

/-! Patterns that do not look at the character before. -/

def Pattern.Blind (p : Pattern β) : Prop := ∀ before s, p before s = p none s

theorem Pattern.Blind.scan_cons (hp : p.Blind) (hnone : p none (c :: v) = none) :
    scan p (c :: v) = .inl c :: scan p v :=
  Text.scan_cons hnone (hp (some c) v)

theorem Pattern.Blind.scan_append (hp : p.Blind)
    (hu : ∀ c ∈ u, ∀ s, p none (c :: s) = none) :
    scan p (u ++ v) = u.map .inl ++ scan p v := by
  induction u with
  | nil => rfl
  | cons c u ih =>
      have hrest := ih fun d hd => hu d (List.mem_cons_of_mem c hd)
      rw [List.cons_append, hp.scan_cons (hu c List.mem_cons_self _), hrest]
      rfl

theorem captures_of_scan_inl (h : scan p (u ++ v) = u.map .inl ++ scan p v) :
    captures p (u ++ v) = captures p v := by
  rw [captures_eq_scan, h, List.filterMap_append, ← captures_eq_scan]
  simp [List.filterMap_map, Function.comp_def]

theorem blankOut_of_scan_inl (h : scan p (u ++ v) = u.map .inl ++ scan p v) :
    blankOut p (u ++ v) = u ++ blankOut p v := by
  rw [blankOut_eq_scan, h, List.map_append, ← blankOut_eq_scan]
  simp [Function.comp_def]

theorem captures_of_scan_inr (h : scan p (u ++ v) = .inr b :: scan p v) :
    captures p (u ++ v) = b :: captures p v := by
  rw [captures_eq_scan, h, captures_eq_scan]
  rfl

theorem blankOut_of_scan_inr (h : scan p (u ++ v) = .inr b :: scan p v) :
    blankOut p (u ++ v) = ' ' :: blankOut p v := by
  rw [blankOut_eq_scan, h, blankOut_eq_scan]
  rfl

theorem mem_of_mem_blankFrom {skip : Nat} (h : c ∈ blankFrom p skip before s) (hc : c ≠ ' ') :
    c ∈ s := by
  induction s generalizing skip before with
  | nil => exact absurd h (by simp [blankFrom])
  | cons d s ih =>
      cases skip with
      | succ skip => exact List.mem_cons_of_mem d (ih h)
      | zero =>
          rw [blankFrom] at h
          cases hmatch : p before (d :: s) with
          | none =>
              rw [hmatch] at h
              rcases List.mem_cons.mp h with rfl | h
              · exact List.mem_cons_self
              · exact List.mem_cons_of_mem d (ih h)
          | some found =>
              rw [hmatch] at h
              rcases List.mem_cons.mp h with rfl | h
              · exact absurd rfl hc
              · exact List.mem_cons_of_mem d (ih h)

theorem mem_of_mem_blankOut (h : c ∈ blankOut p s) (hc : c ≠ ' ') : c ∈ s :=
  mem_of_mem_blankFrom h hc

theorem isWordAt_head?_blankOut (p : Pattern β) (s : List Char) :
    isWordAt (blankOut p s).head? = true → isWordAt s.head? = true := by
  cases s with
  | nil => exact id
  | cons c s =>
      rw [blankOut, blankFrom]
      cases p none (c :: s) with
      | none => exact id
      | some found =>
          intro h
          have hblank : isWord ' ' = true := h
          exact absurd hblank (by decide)

end EventOperator.Text
