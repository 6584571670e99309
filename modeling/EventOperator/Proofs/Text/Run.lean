import EventOperator.Proofs.Text.Search

/-!
Runs of word characters. A text is made of other characters and of runs, each as long as it can be,
and a pattern that matches only where a word begins reads a text run by run.
-/

namespace EventOperator.Text

variable {β : Type} {p : Pattern β} {P : List Char → Prop} {c : Char} {u v w s : List Char}

theorem takeWhile_append_stop {f : Char → Bool} (hu : ∀ c ∈ u, f c = true)
    (hv : ∀ c, v.head? = some c → f c = false) : (u ++ v).takeWhile f = u := by
  rw [List.takeWhile_append_of_pos hu]
  cases v with
  | nil => simp
  | cons c v => simp [hv c rfl]

theorem dropWhile_append_stop {f : Char → Bool} (hu : ∀ c ∈ u, f c = true)
    (hv : ∀ c, v.head? = some c → f c = false) : (u ++ v).dropWhile f = v := by
  rw [List.dropWhile_append_of_pos hu]
  cases v with
  | nil => rfl
  | cons c v => simp [hv c rfl]

/-- Only the characters of the list are gone through, not all that there are. -/
instance decidableForallMem (f : Char → Prop) [DecidablePred f] (s : List Char) :
    Decidable (∀ c ∈ s, f c) :=
  List.decidableBAll f s

def IsRun (w : List Char) : Prop := w ≠ [] ∧ ∀ c ∈ w, isWord c = true

instance (w : List Char) : Decidable (IsRun w) := inferInstanceAs (Decidable (_ ∧ _))

theorem isWord_false_of_head? (hv : isWordAt v.head? = false) :
    ∀ c, v.head? = some c → isWord c = false := by
  intro c hc
  simpa [hc] using hv

theorem IsRun.isWordAt_head? (hw : IsRun w) (v : List Char) :
    isWordAt (w ++ v).head? = true := by
  obtain ⟨hne, hall⟩ := hw
  cases w with
  | nil => exact absurd rfl hne
  | cons c w => exact hall c List.mem_cons_self

theorem IsRun.isWordAt_getLast? (hw : IsRun w) : isWordAt w.getLast? = true := by
  obtain ⟨hne, hall⟩ := hw
  rw [List.getLast?_eq_some_getLast hne]
  exact hall _ (List.getLast_mem hne)

theorem wordRun?_append (hw : IsRun w) (hv : isWordAt v.head? = false) :
    wordRun? (w ++ v) = some (w, v) := by
  have hstop := isWord_false_of_head? hv
  unfold wordRun?
  rw [takeWhile_append_stop hw.2 hstop, dropWhile_append_stop hw.2 hstop]
  cases w with
  | nil => exact absurd rfl hw.1
  | cons c w => rfl

theorem wordRun?_eq_none (hv : isWordAt v.head? = false) : wordRun? v = none := by
  cases v with
  | nil => rfl
  | cons c v =>
      have hc : isWord c = false := hv
      simp [wordRun?, hc]

theorem exists_run (hc : isWord c = true) (s : List Char) :
    ∃ w v, c :: s = w ++ v ∧ IsRun w ∧ isWordAt v.head? = false := by
  refine ⟨c :: s.takeWhile isWord, s.dropWhile isWord, by simp, ⟨by simp, ?_⟩, ?_⟩
  · intro d hd
    rcases List.mem_cons.mp hd with rfl | hd
    · exact hc
    · exact List.all_eq_true.mp List.all_takeWhile d hd
  · have hhead := List.head?_dropWhile_not isWord s
    cases hd : (s.dropWhile isWord).head? with
    | none => rfl
    | some d => simpa [hd] using hhead

theorem length_lt_of_run_append (hw : IsRun w) (v : List Char) : v.length < (w ++ v).length := by
  have := List.length_pos_iff.mpr hw.1
  rw [List.length_append]
  omega

/-- Whatever holds of the empty text and goes on to other characters and to runs in front holds of
every text. -/
@[elab_as_elim]
theorem run_induction {motive : List Char → Prop} (nil : motive [])
    (other : ∀ c s, isWord c = false → motive s → motive (c :: s))
    (run : ∀ w s, IsRun w → isWordAt s.head? = false → motive s → motive (w ++ s))
    (s : List Char) : motive s :=
  match s with
  | [] => nil
  | c :: s => by
      cases hc : isWord c with
      | false => exact other c s hc (run_induction nil other run s)
      | true =>
          obtain ⟨w, v, hs, hw, hv⟩ := exists_run hc s
          rw [hs]
          exact run w v hw hv (run_induction nil other run v)
termination_by s.length
decreasing_by
  · simp
  · rw [hs]
    exact length_lt_of_run_append hw v

theorem apart_of_run_append (hw : IsRun w) (hap : Apart (w ++ u).getLast? v.head?)
    (hu : isWordAt u.head? = false) : isWordAt (u ++ v).head? = false := by
  cases u with
  | nil =>
      rw [List.append_nil] at hap
      exact border_of_apart hw.isWordAt_getLast? hap
  | cons c u => exact hu

theorem apart_of_append (hap : Apart (u ++ s).getLast? v.head?) : Apart s.getLast? v.head? := by
  cases s with
  | nil => exact Or.inl rfl
  | cons c s =>
      rw [List.getLast?_append] at hap
      rw [List.getLast?_eq_some_getLast (List.cons_ne_nil c s)] at hap ⊢
      exact hap

def word? : Pattern (List Char) := fun before s =>
  if isWordAt before then none else (wordRun? s).map fun (w, rest) => taken s rest w

def words (s : List Char) : List (List Char) := captures word? s

theorem word?_wordwise : word?.Wordwise where
  begins := by
    intro before s hmatch
    unfold word? at hmatch
    split at hmatch
    · exact absurd rfl hmatch
    · rename_i hbefore
      refine ⟨by simpa using hbefore, ?_⟩
      cases hs : isWordAt s.head? with
      | true => rfl
      | false => simp [wordRun?_eq_none hs] at hmatch
  border := by
    intro before s hbefore
    simp [word?, hbefore]

@[simp] theorem words_nil : words [] = [] := rfl

theorem words_other (hc : isWord c = false) : words (c :: s) = words s :=
  captures_of_scan_inl (u := [c]) (word?_wordwise.scan_other hc)

theorem words_run (hw : IsRun w) (hs : isWordAt s.head? = false) :
    words (w ++ s) = w :: words s := by
  refine captures_of_scan_inr (scan_take ⟨hw.1, ?_⟩ ?_)
  · simp [word?, wordRun?_append hw hs]
  · exact word?_wordwise.eq_of_apart (Or.inr hs)

theorem words_eq_singleton (hw : IsRun w) : words w = [w] := by
  simpa using words_run hw (s := []) rfl

theorem words_append (hap : Apart u.getLast? v.head?) :
    words (u ++ v) = words u ++ words v := by
  induction u using run_induction with
  | nil => rfl
  | other c s hc ih =>
      rw [List.cons_append, words_other hc, words_other hc, ih (apart_of_append (u := [c]) hap)]
  | run w s hw hs ih =>
      rw [List.append_assoc, words_run hw (apart_of_run_append hw hap hs), words_run hw hs,
        ih (apart_of_append hap), List.cons_append]

theorem words_eq_nil (hs : ∀ c ∈ s, isWord c = false) : words s = [] := by
  induction s with
  | nil => rfl
  | cons c s ih =>
      rw [words_other (hs c List.mem_cons_self)]
      exact ih fun d hd => hs d (List.mem_cons_of_mem c hd)

/-! Patterns that never match inside a word pass over runs as a whole. -/

/-- Nothing is found inside a word, and what stands in front of a border does not matter. -/
structure Pattern.Outside (p : Pattern β) : Prop where
  border : ∀ {before s}, Apart before s.head? → p before s = p none s
  inside : ∀ {before s}, isWordAt before = true → isWordAt s.head? = true → p before s = none

namespace Pattern.Outside

theorem scan_inside (hp : p.Outside) (hc : isWord c = true)
    (hu : ∀ c ∈ u, isWord c = true) (hv : isWordAt v.head? = false) :
    scanFrom p 0 (some c) (u ++ v) = u.map .inl ++ scan p v := by
  induction u generalizing c with
  | nil => exact scanFrom_eq_scan (hp.border (Or.inr hv))
  | cons d u ih =>
      have hd := hu d List.mem_cons_self
      have hrest := ih hd fun e he => hu e (List.mem_cons_of_mem d he)
      have hnone : p (some c) (d :: (u ++ v)) = none := hp.inside hc hd
      rw [List.cons_append, scanFrom, hnone]
      simp [hrest]

theorem scan_run (hp : p.Outside) (hw : IsRun w) (hv : isWordAt v.head? = false)
    (hnone : p none (w ++ v) = none) : scan p (w ++ v) = w.map .inl ++ scan p v := by
  obtain ⟨hne, hall⟩ := hw
  cases w with
  | nil => exact absurd rfl hne
  | cons c w =>
      have hrest := hp.scan_inside (hall c List.mem_cons_self)
        (fun d hd => hall d (List.mem_cons_of_mem c hd)) hv
      rw [List.cons_append] at hnone ⊢
      rw [scan, scanFrom, hnone]
      simp [hrest]

end Pattern.Outside

namespace Pattern.Wordwise

theorem outside (hp : p.Wordwise) : p.Outside where
  border := hp.eq_of_apart
  inside := fun hbefore _ => hp.eq_none_inside hbefore

theorem scan_run (hp : p.Wordwise) (hw : IsRun w) (hv : isWordAt v.head? = false)
    (hnone : p none (w ++ v) = none) : scan p (w ++ v) = w.map .inl ++ scan p v :=
  hp.outside.scan_run hw hv hnone

theorem scan_others (hp : p.Wordwise) (hu : ∀ c ∈ u, isWord c = false) :
    scan p (u ++ v) = u.map .inl ++ scan p v := by
  induction u with
  | nil => rfl
  | cons c u ih =>
      have hrest := ih fun d hd => hu d (List.mem_cons_of_mem c hd)
      rw [List.cons_append, hp.scan_other (hu c List.mem_cons_self), hrest]
      rfl

end Pattern.Wordwise

/-- The pattern matches only at words of one sort. -/
def Pattern.Only (p : Pattern β) (P : List Char → Prop) : Prop :=
  ∀ {w v}, IsRun w → isWordAt v.head? = false → p none (w ++ v) ≠ none → P w

theorem Pattern.Wordwise.scan_append (hp : p.Wordwise) (honly : p.Only P)
    (hu : ∀ w ∈ words u, ¬ P w) (hap : Apart u.getLast? v.head?) :
    scan p (u ++ v) = u.map .inl ++ scan p v := by
  induction u using run_induction with
  | nil => rfl
  | other c s hc ih =>
      rw [words_other hc] at hu
      have hrest := ih hu (apart_of_append (u := [c]) hap)
      rw [List.cons_append, hp.scan_other hc, hrest]
      rfl
  | run w s hw hs ih =>
      rw [words_run hw hs] at hu
      have hstop := apart_of_run_append hw hap hs
      have hnone : p none (w ++ (s ++ v)) = none := Classical.byContradiction fun hmatch =>
        hu w List.mem_cons_self (honly hw hstop hmatch)
      have hrest := ih (fun r hr => hu r (List.mem_cons_of_mem w hr)) (apart_of_append hap)
      rw [List.append_assoc, hp.scan_run hw hstop hnone, hrest]
      simp

theorem Pattern.Wordwise.scan_eq (hp : p.Wordwise) (honly : p.Only P)
    (hs : ∀ w ∈ words s, ¬ P w) : scan p s = s.map .inl := by
  simpa using hp.scan_append honly hs (v := []) (Or.inr rfl)

theorem Pattern.Wordwise.captures_eq_nil (hp : p.Wordwise) (honly : p.Only P)
    (hs : ∀ w ∈ words s, ¬ P w) : captures p s = [] := by
  simp [captures_eq_scan, hp.scan_eq honly hs, List.filterMap_map, Function.comp_def]

end EventOperator.Text
