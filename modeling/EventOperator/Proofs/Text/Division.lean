import EventOperator.Proofs.Text.Keyword
import EventOperator.Text.Split

/-!
Texts divided by a character. A pattern that never reads across the character finds in the whole
text what it finds in the parts.
-/

namespace EventOperator.Text

variable {β : Type} {p : Pattern β} {stop : Char} {u v s : List Char} {before : Option Char}

theorem splitAt_of_not_mem (hu : stop ∉ u) : splitAt stop u = [u] := by
  induction u with
  | nil => rfl
  | cons c u ih =>
      rw [List.mem_cons, not_or] at hu
      have hne : c ≠ stop := fun h => hu.1 h.symm
      simp [splitAt, ih hu.2, hne]

theorem splitAt_append (hu : stop ∉ u) (v : List Char) :
    splitAt stop (u ++ stop :: v) = u :: splitAt stop v := by
  induction u with
  | nil =>
      cases hv : splitAt stop v with
      | nil => exact absurd hv (splitAt_ne_nil stop v)
      | cons part parts => simp [splitAt, hv]
  | cons c u ih =>
      rw [List.mem_cons, not_or] at hu
      have hne : c ≠ stop := fun h => hu.1 h.symm
      simp [splitAt, ih hu.2, hne]

/-- Whatever holds of texts without the divider and goes on to such texts in front of it holds of
every text. -/
@[elab_as_elim]
theorem split_induction {motive : List Char → Prop} (stop : Char)
    (last : ∀ u, stop ∉ u → motive u)
    (next : ∀ u s, stop ∉ u → motive s → motive (u ++ stop :: s)) (s : List Char) : motive s := by
  have hsplit : ∀ u, stop ∉ u → motive (u ++ s) := by
    induction s with
    | nil => simpa using last
    | cons c s ih =>
        intro u hu
        by_cases hc : c = stop
        · subst hc
          exact next u s hu (ih [] (by simp))
        · have hcons := ih (u ++ [c]) (by simp [hu, Ne.symm hc])
          simpa using hcons
  exact hsplit [] (by simp)

theorem splitAt_append_splitAt (stop : Char) (s v : List Char) :
    splitAt stop (s ++ stop :: v) = splitAt stop s ++ splitAt stop v := by
  induction s using split_induction stop with
  | last u hu => rw [splitAt_append hu, splitAt_of_not_mem hu]; rfl
  | next u s hu ih => rw [List.append_assoc, List.cons_append, splitAt_append hu, ih,
      splitAt_append hu, List.cons_append]

/-! Searching in front of a character that no match reads across. -/

theorem Pattern.Wordwise.scanFrom_append_stop (hp : p.Wordwise) (hstop : isWord stop = false)
    (hbounded : ∀ {u more b}, p none u = some (more, b) → more < u.length)
    (hwithin : ∀ w u, s = w ++ u → isWordAt w.getLast? = false →
      p none (u ++ stop :: v) = p none u)
    (w u : List Char) (hs : s = w ++ u) {skip : Nat} (hskip : skip ≤ u.length) :
    scanFrom p skip w.getLast? (u ++ stop :: v) =
      scanFrom p skip w.getLast? u ++ .inl stop :: scan p v := by
  induction u generalizing w skip with
  | nil =>
      obtain rfl : skip = 0 := by simpa using hskip
      have hnone : p w.getLast? (stop :: v) = none := hp.eq_none hstop
      rw [List.nil_append, scanFrom, scanFrom, hnone]
      exact congrArg (Sum.inl stop :: ·) (scanFrom_eq_scan (hp.border hstop))
  | cons c u ih =>
      have hrest : ∀ {skip}, skip ≤ u.length → scanFrom p skip (some c) (u ++ stop :: v) =
          scanFrom p skip (some c) u ++ .inl stop :: scan p v := by
        intro skip hskip
        have hlater := ih (w ++ [c]) (by simpa using hs) hskip
        rwa [List.getLast?_concat] at hlater
      cases skip with
      | succ skip => exact hrest (by simpa using hskip)
      | zero =>
          cases hbefore : isWordAt w.getLast? with
          | true =>
              rw [List.cons_append, scanFrom, scanFrom, hp.eq_none_inside hbefore,
                hp.eq_none_inside hbefore, hrest (Nat.zero_le _), List.cons_append]
          | false =>
              have hhere := hwithin w (c :: u) hs hbefore
              rw [List.cons_append] at hhere ⊢
              rw [scanFrom, scanFrom, hp.border hbefore, hp.border hbefore, hhere]
              cases hfound : p none (c :: u) with
              | none => exact congrArg (Sum.inl c :: ·) (hrest (Nat.zero_le _))
              | some found =>
                  obtain ⟨more, b⟩ := found
                  have hmore := hbounded hfound
                  exact congrArg (Sum.inr b :: ·)
                    (hrest (Nat.le_of_lt_succ (by simpa using hmore)))

theorem Pattern.Wordwise.captures_append_stop (hp : p.Wordwise) (hstop : isWord stop = false)
    (hbounded : ∀ {u more b}, p none u = some (more, b) → more < u.length)
    (hwithin : ∀ w u, s = w ++ u → isWordAt w.getLast? = false →
      p none (u ++ stop :: v) = p none u) :
    captures p (s ++ stop :: v) = captures p s ++ captures p v := by
  have hscan : scan p (s ++ stop :: v) = scan p s ++ .inl stop :: scan p v :=
    hp.scanFrom_append_stop hstop hbounded hwithin [] s rfl (Nat.zero_le _)
  simp [captures_eq_scan, hscan, List.filterMap_cons]

/-- Patterns that never match across a character, in any text. -/
structure Pattern.StopsAt (p : Pattern β) (stop : Char) : Prop extends p.Wordwise where
  bounded : ∀ {s more b}, p none s = some (more, b) → more < s.length
  within : ∀ u v, p none (u ++ stop :: v) = p none u

theorem Pattern.StopsAt.captures_append (hp : p.StopsAt stop) (hstop : isWord stop = false)
    (s v : List Char) : captures p (s ++ stop :: v) = captures p s ++ captures p v :=
  hp.captures_append_stop hstop hp.bounded fun _ u _ _ => hp.within u v

/-- What is left of a text stays the same text, and the rest stays behind it. -/
def Halts (read : List Char → Option (List Char)) (stop : Char) : Prop :=
  ∀ u v, read (u ++ stop :: v) = (read u).map (· ++ stop :: v)

theorem afterWord?_halts {word : List Char} (hletters : IsLetters word)
    (hstop : isWord stop = false) : Halts (afterWord? word) stop := by
  obtain ⟨-, hlower⟩ := hletters
  induction word with
  | nil => exact fun u v => rfl
  | cons letter word ih =>
      intro u v
      cases u with
      | nil =>
          have hother : sameLetter letter stop = false := by
            cases hsame : sameLetter letter stop with
            | false => rfl
            | true =>
                have hword := isWord_of_sameLetter (hlower letter List.mem_cons_self) hsame
                simp [hstop] at hword
          simp [afterWord?, hother]
      | cons c u =>
          simp only [afterWord?, List.cons_append]
          split
          · exact ih (fun d hd => hlower d (List.mem_cons_of_mem letter hd)) u v
          · rfl

theorem dropWhile_append_stop_of_not {f : Char → Bool} (hstop : f stop = false) (u v : List Char) :
    (u ++ stop :: v).dropWhile f = u.dropWhile f ++ stop :: v := by
  induction u with
  | nil => simp [hstop]
  | cons c u ih =>
      cases hc : f c with
      | true => simp [hc, ih]
      | false => simp [hc]

theorem takeWhile_append_stop_of_not {f : Char → Bool} (hstop : f stop = false) (u v : List Char) :
    (u ++ stop :: v).takeWhile f = u.takeWhile f := by
  induction u with
  | nil => simp [hstop]
  | cons c u ih =>
      cases hc : f c with
      | true => simp [hc, ih]
      | false => simp [hc]

theorem afterBlanks?_halts (hstop : isBlank stop = false) : Halts afterBlanks? stop := by
  intro u v
  cases u with
  | nil => simp [afterBlanks?, hstop]
  | cons c u =>
      simp only [afterBlanks?, List.cons_append, dropWhile_append_stop_of_not hstop]
      split <;> rfl

theorem wordRun?_append_stop (hstop : isWord stop = false) (u v : List Char) :
    wordRun? (u ++ stop :: v) = (wordRun? u).map fun (w, rest) => (w, rest ++ stop :: v) := by
  unfold wordRun?
  rw [takeWhile_append_stop_of_not hstop, dropWhile_append_stop_of_not hstop]
  cases u.takeWhile isWord <;> rfl

theorem Halts.bind {first second : List Char → Option (List Char)} (hfirst : Halts first stop)
    (hsecond : Halts second stop) : Halts (fun s => (first s).bind second) stop := by
  intro u v
  simp only [hfirst u v]
  cases first u with
  | none => rfl
  | some rest => exact hsecond rest v

theorem taken_append_append (s rest v : List Char) (b : β) :
    taken (s ++ v) (rest ++ v) b = taken s rest b := by
  simp only [taken, List.length_append]
  congr 1
  omega

theorem taken_lt {s rest : List Char} {b : β} (hs : s ≠ []) : (taken s rest b).1 < s.length := by
  have := List.length_pos_iff.mpr hs
  simp only [taken]
  omega

theorem Pattern.Wordwise.lt_of_taken (hp : p.Wordwise) {more : Nat} {b : β}
    (h : p none s = some (more, b)) (htaken : ∃ rest, (more, b) = taken s rest b) :
    more < s.length := by
  have hs : s ≠ [] := by
    rintro rfl
    exact absurd (hp.begins (by simp [h] : p none [] ≠ none)).2 (by simp)
  obtain ⟨rest, heq⟩ := htaken
  have hlt : (taken s rest b).1 < s.length := taken_lt hs
  rwa [← heq] at hlt

theorem isWordAt_head?_append_stop (hstop : isWord stop = false) (u v : List Char) :
    isWordAt (u ++ stop :: v).head? = isWordAt u.head? := by
  cases u with
  | nil => exact hstop
  | cons c u => rfl

theorem blanksBehind_stopsAt {word : List Char}
    {next : List Char → List Char → Option (Nat × β)} (hletters : IsLetters word)
    (hstop : isWord stop = false) (hblank : isBlank stop = false)
    (htaken : ∀ {s rest more b}, next s rest = some (more, b) →
      ∃ behind, (more, b) = taken s behind b)
    (hnext : ∀ s rest v, next (s ++ stop :: v) (rest ++ stop :: v) = next s rest) :
    (blanksBehind word next).StopsAt stop where
  toWordwise := blanksBehind_wordwise hletters
  bounded := by
    intro s more b h
    apply (blanksBehind_wordwise hletters).lt_of_taken h
    rw [blanksBehind_eq] at h
    split at h
    · obtain ⟨rest, -, hfound⟩ := Option.bind_eq_some_iff.mp h
      exact htaken hfound
    · exact absurd h (by simp)
  within := by
    intro u v
    have hread : (afterWord? word (u ++ stop :: v)).bind afterBlanks? =
        ((afterWord? word u).bind afterBlanks?).map (· ++ stop :: v) :=
      (afterWord?_halts hletters hstop).bind (afterBlanks?_halts hblank) u v
    rw [blanksBehind_eq, blanksBehind_eq, isEdge_of_border rfl, isEdge_of_border rfl,
      isWordAt_head?_append_stop hstop, hread]
    cases (afterWord? word u).bind afterBlanks? with
    | none => rfl
    | some rest => simp only [Option.map_some, Option.bind_some, hnext]

end EventOperator.Text
