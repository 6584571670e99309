import EventOperator.Proofs.Text.Division
import EventOperator.Proofs.Text.Reader

/-!
Blanks put into a text. They stand in front of a character with which no name goes on, so no word
is divided. A reader stops at the same place, in front of the blanks or behind them, and a pattern
finds the same.
-/

namespace EventOperator.Text

variable {β : Type} {f g : Char → Bool} {c : Char} {gap back s t u v x : List Char}
  {word : List Char}
  {words : List (List Char)} {first second read : Reader} {p : Pattern Unit}
  {before other : Option Char}

/-- The character ends a name, even if its parts are joined by colons and dots. -/
def IsBreak (c : Char) : Prop := isWord c = false ∧ c ≠ ':' ∧ c ≠ '.'

instance (c : Char) : Decidable (IsBreak c) := inferInstanceAs (Decidable (_ ∧ _))

def Breaks (s : List Char) : Prop := ∃ c v, s = c :: v ∧ IsBreak c

instance (s : List Char) : Decidable (Breaks s) :=
  match s with
  | [] => isFalse fun ⟨_, _, h, _⟩ => nomatch h
  | c :: v =>
      decidable_of_iff (IsBreak c)
        ⟨fun hc => ⟨c, v, rfl, hc⟩, fun ⟨_, _, h, hd⟩ => (List.cons.inj h).1 ▸ hd⟩

theorem isBreak_of_isBlank (hc : isBlank c = true) : IsBreak c :=
  ⟨isWord_of_isBlank hc, ne_of_holds hc (by decide), ne_of_holds hc (by decide)⟩

theorem Breaks.ne_nil (h : Breaks s) : s ≠ [] := by
  obtain ⟨c, v, rfl, -⟩ := h
  exact List.cons_ne_nil c v

theorem Breaks.isWordAt_head? (h : Breaks s) : isWordAt s.head? = false := by
  obtain ⟨c, v, rfl, hc⟩ := h
  exact hc.1

theorem Breaks.blanks (hgap : ∀ c ∈ gap, isBlank c = true) (h : Breaks s) : Breaks (gap ++ s) := by
  cases gap with
  | nil => exact h
  | cons c gap => exact ⟨c, gap ++ s, rfl, isBreak_of_isBlank (hgap c List.mem_cons_self)⟩

/-- The second text has the blanks in front of `back`, or what is left of both is the same. -/
inductive Widened (gap back : List Char) : List Char → List Char → Prop
  | front (x : List Char) : Widened gap back (x ++ back) (x ++ (gap ++ back))
  | back {s : List Char} : s <:+ back → Widened gap back s s

/-- The reader stops at the same place. -/
def Widens (read : Reader) : Prop :=
  ∀ ⦃gap back⦄, (∀ c ∈ gap, isBlank c = true) → Breaks back →
    ∀ ⦃s t⦄, Widened gap back s t → Option.Rel (Widened gap back) (read s) (read t)

/-- The same where the blanks do not stand at the front. -/
def WidensInside (read : Reader) : Prop :=
  ∀ ⦃gap back⦄, (∀ c ∈ gap, isBlank c = true) → Breaks back →
    ∀ x, x ≠ [] → Option.Rel (Widened gap back) (read (x ++ back)) (read (x ++ (gap ++ back)))

theorem rel_bind {first second : Reader} {a b : Option (List Char)}
    (h : Option.Rel (Widened gap back) a b)
    (hread : ∀ s t, Widened gap back s t → Option.Rel (Widened gap back) (first s) (second t)) :
    Option.Rel (Widened gap back) (a.bind first) (b.bind second) := by
  cases h with
  | none => exact .none
  | some h => exact hread _ _ h

theorem Widens.kleisli (hfirst : Widens first) (hsecond : Widens second) :
    Widens (first >=> second) := fun _ _ hgap hback _ _ h =>
  rel_bind (hfirst hgap hback h) fun _ _ h => hsecond hgap hback h

theorem WidensInside.kleisli (hfirst : WidensInside first) (hsecond : Widens second) :
    WidensInside (first >=> second) := fun _ _ hgap hback x hx =>
  rel_bind (hfirst hgap hback x hx) fun _ _ h => hsecond hgap hback h

theorem Widens.inside (h : Widens read) : WidensInside read := fun _ _ hgap hback x _ =>
  h hgap hback (.front x)

theorem rel_back (hread : Shrinks read) (hs : s <:+ back) :
    Option.Rel (Widened gap back) (read s) (read s) := by
  cases h : read s with
  | none => exact .none
  | some rest => exact .some (.back ((hread h).trans hs))

theorem widens_of_front (hread : Shrinks read)
    (hfront : ∀ ⦃gap back⦄, (∀ c ∈ gap, isBlank c = true) → Breaks back →
      ∀ x, Option.Rel (Widened gap back) (read (x ++ back)) (read (x ++ (gap ++ back)))) :
    Widens read := by
  intro gap back hgap hback s t h
  cases h with
  | front x => exact hfront hgap hback x
  | back hs => exact rel_back hread hs

theorem widensInside_one? : WidensInside (one? f) := by
  intro gap back _ _ x hx
  cases x with
  | nil => exact absurd rfl hx
  | cons c x =>
      simp only [List.cons_append, one?]
      split
      · exact .some (.front x)
      · exact .none

theorem widensInside_after? : WidensInside (after? c) := by
  rw [after?_eq_one?]
  exact widensInside_one?

theorem dropWhile_append_breaks (hg : ∀ c, IsBreak c → g c = false) (hv : Breaks v)
    (u : List Char) : (u ++ v).dropWhile g = u.dropWhile g ++ v := by
  obtain ⟨c, s, rfl, hc⟩ := hv
  exact dropWhile_append_stop_of_not (hg c hc) u s

theorem span?_of_breaks (hg : ∀ c, IsBreak c → g c = false) (hf : ∀ c, f c = true → g c = true)
    (hs : Breaks s) : span? f g s = none := by
  obtain ⟨c, v, rfl, hc⟩ := hs
  have hnone : f c ≠ true := by
    intro h
    have hother := hf c h
    simp [hg c hc] at hother
  rw [span?_cons, if_neg hnone]

theorem widens_span? (hg : ∀ c, IsBreak c → g c = false) (hf : ∀ c, f c = true → g c = true) :
    Widens (span? f g) := by
  refine widens_of_front shrinks_span? fun gap back hgap hback x => ?_
  have hwide := hback.blanks hgap
  cases x with
  | nil =>
      rw [List.nil_append, List.nil_append, span?_of_breaks hg hf hback,
        span?_of_breaks hg hf hwide]
      exact .none
  | cons c x =>
      have hfront := dropWhile_append_breaks hg hback (c :: x)
      have hfront' := dropWhile_append_breaks hg hwide (c :: x)
      rw [List.cons_append, List.cons_append, span?_cons, span?_cons, ← List.cons_append,
        ← List.cons_append, hfront, hfront']
      split
      · exact .some (.front _)
      · exact .none

theorem widens_past?_stop (hg : ∀ c, IsBreak c → g c = false) : Widens (past? g) := by
  refine widens_of_front shrinks_past? fun gap back hgap hback x => ?_
  rw [past?, past?, dropWhile_append_breaks hg hback,
    dropWhile_append_breaks hg (hback.blanks hgap)]
  exact .some (.front _)

theorem dropWhile_widened (hf : ∀ c, isBlank c = true → f c = true)
    (hgap : ∀ c ∈ gap, isBlank c = true) (x back : List Char) :
    (∃ c y, (x ++ back).dropWhile f = c :: y ++ back ∧
        (x ++ (gap ++ back)).dropWhile f = c :: y ++ (gap ++ back)) ∨
      ((x ++ back).dropWhile f = back.dropWhile f ∧
        (x ++ (gap ++ back)).dropWhile f = back.dropWhile f) := by
  cases hx : x.dropWhile f with
  | nil =>
      have hblanks : (gap ++ back).dropWhile f = back.dropWhile f :=
        List.dropWhile_append_of_pos fun c hc => hf c (hgap c hc)
      refine Or.inr ⟨?_, ?_⟩
      · rw [List.dropWhile_append, hx]
        rfl
      · rw [List.dropWhile_append, hx]
        exact hblanks
  | cons c y =>
      refine Or.inl ⟨c, y, ?_, ?_⟩ <;> rw [List.dropWhile_append, hx] <;> rfl

theorem widens_past?_blanks (hf : ∀ c, isBlank c = true → f c = true) : Widens (past? f) := by
  refine widens_of_front shrinks_past? fun gap back hgap hback x => ?_
  rw [past?, past?]
  rcases dropWhile_widened hf hgap x back with ⟨c, y, heq, heq'⟩ | ⟨heq, heq'⟩
  · rw [heq, heq']
    exact .some (.front (c :: y))
  · rw [heq, heq']
    exact .some (.back (List.dropWhile_suffix f))

theorem widens_pastTo? (hf : ∀ c, isBlank c = true → f c = true) : Widens (pastTo? f c) := by
  refine widens_of_front shrinks_pastTo? fun gap back hgap hback x => ?_
  rw [pastTo?, pastTo?]
  rcases dropWhile_widened hf hgap x back with ⟨d, y, heq, heq'⟩ | ⟨heq, heq'⟩
  · rw [heq, heq']
    exact widensInside_after? hgap hback (d :: y) (List.cons_ne_nil d y)
  · rw [heq, heq']
    exact rel_back shrinks_after? (List.dropWhile_suffix f)

theorem afterWord?_of_breaks (hletters : IsLetters word) (hs : Breaks s) :
    afterWord? word s = none := by
  cases h : afterWord? word s with
  | none => rfl
  | some rest =>
      have hhead := isWordAt_of_afterWord? hletters (by simp [h] : afterWord? word s ≠ none)
      simp [hs.isWordAt_head?] at hhead

theorem widens_afterWord? (hletters : IsLetters word) : Widens (afterWord? word) := by
  refine widens_of_front shrinks_afterWord? fun gap back hgap hback x => ?_
  obtain ⟨hne, hlower⟩ := hletters
  clear hne
  induction word generalizing x with
  | nil => exact .some (.front x)
  | cons letter word ih =>
      cases x with
      | nil =>
          have hnone : ∀ {s}, Breaks s → afterWord? (letter :: word) s = none :=
            afterWord?_of_breaks ⟨List.cons_ne_nil letter word, hlower⟩
          rw [List.nil_append, List.nil_append, hnone hback, hnone (hback.blanks hgap)]
          exact .none
      | cons c x =>
          simp only [List.cons_append, afterWord?]
          split
          · exact ih x fun d hd => hlower d (List.mem_cons_of_mem letter hd)
          · exact .none

theorem widens_blanksTo? (hg : ∀ c, IsBreak c → g c = false) (hf : ∀ c, f c = true → g c = true) :
    Widens (blanksTo? f g) := by
  have hspan : Widens (span? f g) := widens_span? hg hf
  have hpast : Widens (past? isBlank) := widens_past?_blanks fun _ => id
  refine widens_of_front shrinks_blanksTo? fun gap back hgap hback x => ?_
  rw [blanksTo?, kleisli_apply, kleisli_apply]
  cases x with
  | nil =>
      rw [List.nil_append, List.nil_append]
      cases gap with
      | nil => exact rel_back shrinks_blanksTo? (List.suffix_refl back)
      | cons c gap =>
          have hgap' : ∀ d ∈ gap, isBlank d = true := fun d hd => hgap d (List.mem_cons_of_mem c hd)
          have hdrop : (gap ++ back).dropWhile isBlank = back.dropWhile isBlank :=
            List.dropWhile_append_of_pos hgap'
          obtain ⟨d, v, rfl, hd⟩ := hback
          rw [List.cons_append, afterBlanks?, afterBlanks?, if_pos (hgap c List.mem_cons_self),
            hdrop, Option.bind_some]
          split
          · rename_i hblank
            rw [Option.bind_some, List.dropWhile_cons_of_pos hblank]
            exact rel_back shrinks_span?
              ((List.dropWhile_suffix isBlank).trans (List.suffix_cons d v))
          · rename_i hblank
            rw [List.dropWhile_cons_of_neg hblank, span?_of_breaks hg hf ⟨d, v, rfl, hd⟩]
            exact .none
  | cons c x =>
      rw [List.cons_append, List.cons_append, afterBlanks?, afterBlanks?]
      split
      · exact rel_bind (hpast hgap hback (.front x)) fun _ _ h => hspan hgap hback h
      · exact .none

theorem widens_border? : Widens border? := by
  refine widens_of_front shrinks_border? fun gap back hgap hback x => ?_
  cases x with
  | nil =>
      have hwide := (hback.blanks hgap).isWordAt_head?
      rw [List.nil_append, List.nil_append, border?, border?, hback.isWordAt_head?, hwide]
      exact .some (.front [])
  | cons c x =>
      rw [border?, border?, List.cons_append, List.cons_append, List.head?_cons, List.head?_cons]
      by_cases hc : isWordAt (some c) = true
      · rw [if_pos hc, if_pos hc]
        exact .none
      · rw [if_neg hc, if_neg hc]
        exact .some (.front (c :: x))

theorem atEnd_cons_eq_false (hs : s ≠ []) (c : Char) : atEnd (c :: s) = false := by
  unfold atEnd
  split
  · rename_i heq
    exact nomatch heq
  · rename_i heq
    exact absurd (List.cons.inj heq).2 hs
  · rfl

theorem isSome_eq_of_rel {a b : Option (List Char)} (h : Option.Rel (Widened gap back) a b) :
    a.isSome = b.isSome := by
  cases h <;> rfl

theorem wordStands_widened (hletters : ∀ word ∈ words, IsLetters word)
    (hgap : ∀ c ∈ gap, isBlank c = true) (hback : Breaks back) (before : Option Char)
    (x : List Char) :
    wordStands words before (x ++ back) = wordStands words before (x ++ (gap ++ back)) := by
  cases hbefore : isWordAt before with
  | true =>
      rw [wordStands_eq_false hletters (Or.inl hbefore),
        wordStands_eq_false hletters (Or.inl hbefore)]
  | false =>
      rw [wordStands, wordStands, Bool.eq_iff_iff, List.any_eq_true, List.any_eq_true]
      refine exists_congr fun word => and_congr_right fun hword => ?_
      have hword' := hletters word hword
      have hrel := ((widens_afterWord? hword').kleisli widens_border?) hgap hback (.front x)
      rw [afterWholeWord?_border hword' hbefore, afterWholeWord?_border hword' hbefore,
        afterWholeWord?_none hword', afterWholeWord?_none hword', isSome_eq_of_rel hrel]

theorem fromWord_blanks (hletters : ∀ word ∈ words, IsLetters word)
    (hgap : ∀ c ∈ gap, isBlank c = true) (hback : Breaks back) (before : Option Char) :
    fromWord words before (gap ++ back) = fromWord words none back := by
  induction gap generalizing before with
  | nil => exact fromWord_border hletters hback.isWordAt_head?
  | cons c gap ih =>
      have hgap' : ∀ d ∈ gap, isBlank d = true := fun d hd => hgap d (List.mem_cons_of_mem c hd)
      have hstands : wordStands words before (c :: (gap ++ back)) = false :=
        wordStands_eq_false hletters (Or.inr (isWord_of_isBlank (hgap c List.mem_cons_self)))
      rw [List.cons_append, fromWord, hstands,
        atEnd_cons_eq_false (hback.blanks hgap').ne_nil]
      exact ih hgap' (some c)

theorem widens_fromWord? (hletters : ∀ word ∈ words, IsLetters word) :
    Widens (fromWord? words) := by
  refine widens_of_front shrinks_fromWord? fun gap back hgap hback x => .some ?_
  generalize (none : Option Char) = before
  induction x generalizing before with
  | nil =>
      rw [List.nil_append, List.nil_append, fromWord_blanks hletters hgap hback,
        fromWord_border hletters hback.isWordAt_head?]
      exact .back (fromWord_suffix words none back)
  | cons c x ih =>
      have hstands := wordStands_widened hletters hgap hback before (c :: x)
      have hne : ∀ {v : List Char}, v ≠ [] → x ++ v ≠ [] := fun hv h =>
        hv (List.append_eq_nil_iff.mp h).2
      rw [List.cons_append, List.cons_append] at hstands ⊢
      rw [fromWord, fromWord, hstands, atEnd_cons_eq_false (hne hback.ne_nil),
        atEnd_cons_eq_false (hne (hback.blanks hgap).ne_nil)]
      split
      · exact .front (c :: x)
      · exact ih (some c)

theorem widens_toEnd? : Widens toEnd? := fun _ _ _ _ _ _ _ => .some (.back List.nil_suffix)

/-- The pattern finds the same in a text into which blanks have been put. -/
structure Pattern.Steady (p : Pattern Unit) : Prop where
  skipsBlanks : p.SkipsBlanks
  reads : ∃ read, p.Reads read ∧ WidensInside read

/-- What a search finds in both texts: the same up to the blanks and from them on, or the same
altogether, where a match takes them. -/
inductive Found (p : Pattern Unit) (gap back : List Char) :
    List (Char ⊕ Unit) → List (Char ⊕ Unit) → Prop
  | apart (y : List (Char ⊕ Unit)) :
      Found p gap back (y ++ scan p back) (y ++ (gap.map .inl ++ scan p back))
  | same (y : List (Char ⊕ Unit)) : Found p gap back y y

theorem Found.append {y z : List (Char ⊕ Unit)} (h : Found p gap back y z)
    (w : List (Char ⊕ Unit)) : Found p gap back (w ++ y) (w ++ z) := by
  cases h with
  | apart y =>
      rw [← List.append_assoc, ← List.append_assoc]
      exact .apart (w ++ y)
  | same y => exact .same (w ++ y)

theorem Pattern.Reads.scan_eq (hp : p.Reads read) (h : read s = some v) :
    ∃ u, s = u ++ v ∧ u ≠ [] ∧ scan p s = .inr () :: scan p v := by
  obtain ⟨u, rfl, htakes, hap⟩ := hp.takes h
  exact ⟨u, rfl, htakes.1, scan_take htakes (hp.outside.border hap)⟩

theorem Pattern.Reads.eq_none (hp : p.Reads read) (h : read s = none) : p none s = none := by
  rw [hp.eq, h]
  rfl

theorem scan_widened (hp : p.Steady) (hgap : ∀ c ∈ gap, isBlank c = true) (hback : Breaks back)
    (x : List Char) : Found p gap back (scan p (x ++ back)) (scan p (x ++ (gap ++ back))) :=
  match x with
  | [] => by
      rw [List.nil_append, List.nil_append, scan_blanks hp.skipsBlanks hgap]
      exact .apart []
  | c :: x => by
      obtain ⟨read, hreads, hwidens⟩ := hp.reads
      have hwide := hback.blanks hgap
      have hrel := hwidens hgap hback (c :: x) (List.cons_ne_nil c x)
      cases hs : read (c :: x ++ back) with
      | none =>
          have hnone := hreads.eq_none hs
          have hnone' : p none (c :: x ++ (gap ++ back)) = none := by
            apply hreads.eq_none
            rw [hs] at hrel
            generalize read (c :: x ++ (gap ++ back)) = found at hrel
            cases hrel
            rfl
          cases hc : isWord c with
          | false =>
              have hborder : ∀ v, p (some c) v = p none v := fun v =>
                hreads.outside.border (Or.inl hc)
              simp only [List.cons_append] at hnone hnone' ⊢
              rw [scan_cons hnone (hborder _), scan_cons hnone' (hborder _)]
              exact (scan_widened hp hgap hback x).append [.inl c]
          | true =>
              obtain ⟨w, v, hx, hw, hv⟩ := exists_run hc x
              have hstop : ∀ {back}, Breaks back → isWordAt (v ++ back).head? = false := fun h =>
                isWordAt_head?_append h.isWordAt_head? hv
              rw [hx, List.append_assoc] at hnone hnone' ⊢
              rw [List.append_assoc, hreads.outside.scan_run hw (hstop hback) hnone,
                hreads.outside.scan_run hw (hstop hwide) hnone']
              exact (scan_widened hp hgap hback v).append (w.map .inl)
      | some rest =>
          obtain ⟨u, hu, hne, hscan⟩ := hreads.scan_eq hs
          cases ht : read (c :: x ++ (gap ++ back)) with
          | none =>
              rw [hs, ht] at hrel
              exact nomatch hrel
          | some rest' =>
              obtain ⟨u', hu', -, hscan'⟩ := hreads.scan_eq ht
              rw [hs, ht, Option.rel_some_some] at hrel
              rw [hscan, hscan']
              cases hrel with
              | back _ => exact .same _
              | front y =>
                  have hx : c :: x = u ++ y := by
                    apply (List.append_left_inj back).mp
                    rw [hu, List.append_assoc]
                  exact (scan_widened hp hgap hback y).append [.inr ()]
termination_by x.length
decreasing_by
  · exact Nat.lt_succ_self x.length
  · rw [hx]
    exact length_lt_of_run_append hw v
  · have := List.length_pos_iff.mpr hne
    rw [hx, List.length_append]
    omega

/-! Texts that are the same up to blanks put in at one place. -/

inductive IsWidened : List Char → List Char → Prop
  | refl (s : List Char) : IsWidened s s
  | intro {gap back : List Char} (x : List Char) : (∀ c ∈ gap, isBlank c = true) → Breaks back →
      IsWidened (x ++ back) (x ++ (gap ++ back))

theorem Breaks.blankOut (h : Breaks s) (p : Pattern β) : Breaks (blankOut p s) := by
  obtain ⟨c, v, rfl, hc⟩ := h
  rw [Text.blankOut, blankFrom]
  split
  · exact ⟨' ', _, rfl, by decide⟩
  · exact ⟨c, _, rfl, hc⟩

theorem IsWidened.blankOut (hp : p.Steady) (h : IsWidened s t) :
    IsWidened (blankOut p s) (blankOut p t) := by
  cases h with
  | refl => exact .refl _
  | @intro gap back x hgap hback =>
      have hfound := scan_widened hp hgap hback x
      rw [blankOut_eq_scan, blankOut_eq_scan]
      generalize scan p (x ++ back) = y at hfound
      generalize scan p (x ++ (gap ++ back)) = z at hfound
      cases hfound with
      | same y => exact .refl _
      | apart y =>
          have hblanks : (gap.map .inl).map (Sum.elim id fun _ : Unit => ' ') = gap := by
            simp [Function.comp_def]
          rw [List.map_append, List.map_append, List.map_append, ← blankOut_eq_scan, hblanks]
          exact .intro _ hgap (hback.blankOut p)

theorem IsWidened.foldl {patterns : List (Pattern Unit)} (hpatterns : ∀ p ∈ patterns, p.Steady)
    (h : IsWidened s t) :
    IsWidened (patterns.foldl (fun s p => Text.blankOut p s) s)
      (patterns.foldl (fun s p => Text.blankOut p s) t) := by
  induction patterns generalizing s t with
  | nil => exact h
  | cons p patterns ih =>
      exact ih (fun q hq => hpatterns q (List.mem_cons_of_mem p hq))
        (h.blankOut (hpatterns p List.mem_cons_self))

end EventOperator.Text
