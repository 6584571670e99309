import EventOperator.Proofs.Text.Keyword

/-!
Patterns whose matches begin and end at borders. A match takes whole words and leaves a blank, so
taking matches out glues no words together and leaves no word in part.
-/

namespace EventOperator.Text

variable {β : Type} {p : Pattern β} {before : Option Char} {b : β} {c : Char}
  {u v w s t gap gap' : List Char}

/-- A run that is as long as it can be at its place in the text. -/
def IsWordOf (w s : List Char) : Prop :=
  IsRun w ∧ ∃ u v, s = u ++ (w ++ v) ∧ isWordAt u.getLast? = false ∧ isWordAt v.head? = false

theorem mem_words_of_isWordOf (h : IsWordOf w s) : w ∈ words s := by
  obtain ⟨hw, u, v, rfl, hu, hv⟩ := h
  rw [words_append (Or.inl hu), words_run hw hv]
  simp

theorem isWordAt_getLast?_append (hv : isWordAt v.getLast? = false)
    (hu : v = [] → isWordAt u.getLast? = false) : isWordAt (u ++ v).getLast? = false := by
  cases v with
  | nil => simpa using hu rfl
  | cons c v =>
      rw [List.getLast?_append]
      rw [List.getLast?_eq_some_getLast (List.cons_ne_nil c v)] at hv ⊢
      exact hv

theorem isWordAt_head?_append (hv : isWordAt v.head? = false) (hu : isWordAt u.head? = false) :
    isWordAt (u ++ v).head? = false := by
  cases u with
  | nil => exact hv
  | cons c u => exact hu

theorem IsWordOf.append (h : IsWordOf w s)
    (hborder : isWordAt u.getLast? = false ∨ isWordAt s.head? = false) : IsWordOf w (u ++ s) := by
  obtain ⟨hw, x, y, rfl, hx, hy⟩ := h
  refine ⟨hw, u ++ x, y, by simp, isWordAt_getLast?_append hx ?_, hy⟩
  rintro rfl
  rw [List.nil_append, hw.isWordAt_head?] at hborder
  exact hborder.resolve_right (by simp)

theorem mem_words_iff : w ∈ words s ↔ IsWordOf w s := by
  refine ⟨fun h => ?_, mem_words_of_isWordOf⟩
  induction s using run_induction with
  | nil => simp at h
  | other c s hc ih =>
      rw [words_other hc] at h
      exact (ih h).append (u := [c]) (Or.inl hc)
  | run r s hr hs ih =>
      rw [words_run hr hs] at h
      rcases List.mem_cons.mp h with rfl | h
      · exact ⟨hr, [], s, rfl, rfl, hs⟩
      · exact (ih h).append (Or.inr hs)

theorem Pattern.Blind.outside (hp : p.Blind)
    (hnone : ∀ s, isWordAt s.head? = true → p none s = none) : p.Outside where
  border := fun _ => hp _ _
  inside := fun _ hs => (hp _ _).trans (hnone _ hs)

structure Pattern.Bordered (p : Pattern β) : Prop extends p.Outside where
  takes : ∀ {s}, p none s ≠ none →
    ∃ u v b, s = u ++ v ∧ Takes p u v b ∧ Apart u.getLast? v.head?

namespace Pattern.Bordered

/-- Whatever holds of the empty text and goes on to matches, to characters and to runs at which
nothing matches holds of every text. -/
@[elab_as_elim]
theorem induction (hp : p.Bordered) {motive : List Char → Prop} (nil : motive [])
    (other : ∀ c s, isWord c = false → p none (c :: s) = none → motive s → motive (c :: s))
    (run : ∀ w s, IsRun w → isWordAt s.head? = false → p none (w ++ s) = none → motive s →
      motive (w ++ s))
    (taken : ∀ u v b, Takes p u v b → Apart u.getLast? v.head? → motive v → motive (u ++ v))
    (s : List Char) : motive s :=
  match s with
  | [] => nil
  | c :: s => by
      by_cases hnone : p none (c :: s) = none
      · cases hc : isWord c with
        | false => exact other c s hc hnone (hp.induction nil other run taken s)
        | true =>
            obtain ⟨w, v, hs, hw, hv⟩ := exists_run hc s
            rw [hs] at hnone ⊢
            exact run w v hw hv hnone (hp.induction nil other run taken v)
      · obtain ⟨u, v, b, hs, htakes, hap⟩ := hp.takes hnone
        rw [hs]
        exact taken u v b htakes hap (hp.induction nil other run taken v)
termination_by s.length
decreasing_by
  · simp
  · rw [hs]
    exact length_lt_of_run_append hw v
  · have := List.length_pos_iff.mpr htakes.1
    rw [hs, List.length_append]
    omega

theorem mem_words (hp : p.Bordered) (h : w ∈ words (blankOut p s)) :
    w ∈ words s ∧ ∃ v, isWordAt v.head? = false ∧ p none (w ++ v) = none := by
  induction s using hp.induction with
  | nil => simp at h
  | other c s hc hnone ih =>
      have hrest : blankOut p (c :: s) = c :: blankOut p s :=
        blankOut_of_scan_inl (u := [c]) (scan_cons hnone (hp.border (Or.inl hc)))
      rw [hrest, words_other hc] at h
      rw [words_other hc]
      exact ih h
  | run r s hr hs hnone ih =>
      have hhead : isWordAt (blankOut p s).head? = false := by
        cases hblank : isWordAt (blankOut p s).head? with
        | false => rfl
        | true => simp [isWordAt_head?_blankOut p s hblank] at hs
      rw [blankOut_of_scan_inl (hp.scan_run hr hs hnone), words_run hr hhead] at h
      rw [words_run hr hs]
      rcases List.mem_cons.mp h with rfl | h
      · exact ⟨List.mem_cons_self, s, hs, hnone⟩
      · exact (ih h).imp_left (List.mem_cons_of_mem r)
  | taken u v b htakes hap ih =>
      have hblank : isWord ' ' = false := by decide
      rw [blankOut_of_scan_inr (scan_take htakes (hp.border hap)), words_other hblank] at h
      rw [words_append hap]
      exact (ih h).imp_left (List.mem_append_right (words u))

end Pattern.Bordered

/-- The pattern begins at no blank, and what stands in front of a border does not matter to it. -/
structure Pattern.SkipsBlanks (p : Pattern β) : Prop where
  border : ∀ {before s}, Apart before s.head? → p before s = p none s
  blank : ∀ {c} s, isBlank c = true → p none (c :: s) = none

theorem Pattern.Wordwise.skipsBlanks (hp : p.Wordwise) : p.SkipsBlanks where
  border := hp.eq_of_apart
  blank := fun _ hc => hp.eq_none (isWord_of_isBlank hc)

/-- The pattern matches nowhere but at one character. -/
def Pattern.BeginsWith (p : Pattern β) (d : Char) : Prop :=
  ∀ c s, c ≠ d → p none (c :: s) = none

theorem Pattern.BeginsWith.skipsBlanks {d : Char} (hbegins : p.BeginsWith d) (hp : p.Blind)
    (hd : isBlank d = false) : p.SkipsBlanks where
  border := fun _ => hp _ _
  blank := fun s hc => hbegins _ s (ne_of_holds hc hd)

theorem scan_blanks (hp : p.SkipsBlanks) (hgap : ∀ c ∈ gap, isBlank c = true) (v : List Char) :
    scan p (gap ++ v) = gap.map .inl ++ scan p v := by
  induction gap with
  | nil => rfl
  | cons c gap ih =>
      have hc := hgap c List.mem_cons_self
      have hrest := ih fun d hd => hgap d (List.mem_cons_of_mem c hd)
      have hnext : p (some c) (gap ++ v) = p none (gap ++ v) :=
        hp.border (Or.inl (isWord_of_isBlank hc))
      rw [List.cons_append, scan_cons (hp.blank _ hc) hnext, hrest]
      rfl

theorem Pattern.BeginsWith.outside {d : Char} (hbegins : p.BeginsWith d) (hp : p.Blind)
    (hd : isWord d = false) : p.Outside := by
  refine hp.outside fun s hs => ?_
  cases s with
  | nil => simp at hs
  | cons c s => exact hbegins c s (ne_of_holds hs hd)

theorem blankOut_match (hp : p.SkipsBlanks) (hgap : ∀ c ∈ gap, isBlank c = true)
    (hgap' : ∀ c ∈ gap', isBlank c = true)
    (htakes : Takes p t (gap' ++ v) b) (hap : Apart t.getLast? (gap' ++ v).head?) :
    blankOut p (gap ++ (t ++ (gap' ++ v))) = (gap ++ ' ' :: gap') ++ blankOut p v := by
  have hfront := scan_blanks hp hgap (t ++ (gap' ++ v))
  have hmatch := scan_take htakes (hp.border hap)
  have hback := scan_blanks hp hgap' v
  rw [blankOut_of_scan_inl hfront, blankOut_of_scan_inr hmatch, blankOut_of_scan_inl hback,
    List.append_assoc, List.cons_append]

end EventOperator.Text
