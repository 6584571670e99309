import EventOperator.Proofs.Text.Search
import EventOperator.Query.Filter

/-!
Filters as matched groups. Taking out innermost groups again and again leaves what is left when each
group is taken out as a whole, up to the bracket that closes it.
-/

namespace EventOperator.Query

open EventOperator.Text

variable {c : Char} {s g v rest behind : List Char} {depth : Nat}

/-- The text behind the bracket that closes the group in which the text stands, where `depth` more
groups have been opened. -/
def afterMatching? : Nat → List Char → Option (List Char)
  | _, [] => none
  | depth, c :: s =>
      if c = ']' then if depth = 0 then some s else afterMatching? (depth - 1) s
      else if c = '[' then afterMatching? (depth + 1) s
      else afterMatching? depth s

/-- The number of groups that are open behind a text, where `depth` were open in front of it. -/
def depthAfter : Nat → List Char → Option Nat
  | depth, [] => some depth
  | depth, c :: s =>
      if c = ']' then if depth = 0 then none else depthAfter (depth - 1) s
      else if c = '[' then depthAfter (depth + 1) s
      else depthAfter depth s

def filter? : Pattern Unit := fun _ s =>
  match s with
  | '[' :: rest => (afterMatching? 0 rest).map fun behind => taken s behind ()
  | _ => none

def IsBracketFree (s : List Char) : Prop := '[' ∉ s ∧ ']' ∉ s

instance (s : List Char) : Decidable (IsBracketFree s) := inferInstanceAs (Decidable (_ ∧ _))

theorem isBracketFree_cons : IsBracketFree (c :: s) ↔ (c ≠ '[' ∧ c ≠ ']') ∧ IsBracketFree s := by
  simp only [IsBracketFree, List.mem_cons, not_or, Ne, @eq_comm _ c]
  constructor
  · rintro ⟨⟨hopen, hs⟩, hclose, hs'⟩
    exact ⟨⟨hopen, hclose⟩, hs, hs'⟩
  · rintro ⟨⟨hopen, hclose⟩, hs, hs'⟩
    exact ⟨⟨hopen, hs⟩, hclose, hs'⟩

theorem afterGroup?_eq_some_iff :
    afterGroup? s = some behind ↔ ∃ g, s = g ++ ']' :: behind ∧ IsBracketFree g := by
  induction s with
  | nil => simp [afterGroup?]
  | cons c s ih =>
      rw [afterGroup?]
      split
      · rename_i hc
        subst hc
        constructor
        · intro h
          obtain rfl := Option.some.inj h
          exact ⟨[], rfl, by decide⟩
        · rintro ⟨g, hg, hfree⟩
          cases g with
          | nil => simpa using hg
          | cons d g =>
              obtain ⟨rfl, -⟩ := List.cons.inj hg
              exact absurd rfl (isBracketFree_cons.mp hfree).1.2
      · split
        · rename_i hclose hopen
          subst hopen
          constructor
          · exact fun h => nomatch h
          · rintro ⟨g, hg, hfree⟩
            cases g with
            | nil => exact absurd (List.cons.inj hg).1 hclose
            | cons d g =>
                obtain ⟨rfl, -⟩ := List.cons.inj hg
                exact absurd rfl (isBracketFree_cons.mp hfree).1.1
        · rename_i hclose hopen
          rw [ih]
          constructor
          · rintro ⟨g, rfl, hfree⟩
            exact ⟨c :: g, rfl, isBracketFree_cons.mpr ⟨⟨hopen, hclose⟩, hfree⟩⟩
          · rintro ⟨g, hg, hfree⟩
            cases g with
            | nil => exact absurd (List.cons.inj hg).1 hclose
            | cons d g =>
                obtain ⟨rfl, rfl⟩ := List.cons.inj hg
                exact ⟨g, rfl, (isBracketFree_cons.mp hfree).2⟩

theorem IsBracketFree.depthAfter_eq (hs : IsBracketFree s) : depthAfter depth s = some depth := by
  induction s with
  | nil => rfl
  | cons c s ih =>
      obtain ⟨⟨hopen, hclose⟩, hrest⟩ := isBracketFree_cons.mp hs
      rw [depthAfter, if_neg hclose, if_neg hopen, ih hrest]

theorem afterMatching?_depthAfter {after : Nat} (h : depthAfter depth s = some after)
    (v : List Char) : afterMatching? depth (s ++ v) = afterMatching? after v := by
  induction s generalizing depth with
  | nil =>
      obtain rfl := Option.some.inj h
      rfl
  | cons c s ih =>
      rw [depthAfter] at h
      rw [List.cons_append, afterMatching?]
      split
      · rename_i hclose
        rw [if_pos hclose] at h
        split
        · rename_i hdepth
          rw [if_pos hdepth] at h
          exact absurd h (by simp)
        · rename_i hdepth
          rw [if_neg hdepth] at h
          exact ih h
      · rename_i hclose
        rw [if_neg hclose] at h
        split
        · rename_i hopen
          rw [if_pos hopen] at h
          exact ih h
        · rename_i hopen
          rw [if_neg hopen] at h
          exact ih h

theorem afterMatching?_append (hg : IsBracketFree g) (depth : Nat) (v : List Char) :
    afterMatching? depth (g ++ v) = afterMatching? depth v :=
  afterMatching?_depthAfter hg.depthAfter_eq v

/-- The bracket that closes the group stands behind a text in which all other groups are closed. -/
theorem afterMatching?_eq_some_iff :
    afterMatching? depth s = some rest ↔
      ∃ u, s = u ++ ']' :: rest ∧ depthAfter depth u = some 0 := by
  constructor
  · intro h
    induction s generalizing depth with
    | nil => cases h
    | cons c s ih =>
        rw [afterMatching?] at h
        split at h
        · rename_i hclose
          split at h
          · rename_i hdepth
            obtain rfl := Option.some.inj h
            exact ⟨[], by rw [hclose]; rfl, by rw [hdepth]; rfl⟩
          · rename_i hdepth
            obtain ⟨u, rfl, hu⟩ := ih h
            exact ⟨c :: u, rfl, by rw [depthAfter, if_pos hclose, if_neg hdepth, hu]⟩
        · rename_i hclose
          split at h
          · rename_i hopen
            obtain ⟨u, rfl, hu⟩ := ih h
            exact ⟨c :: u, rfl, by rw [depthAfter, if_neg hclose, if_pos hopen, hu]⟩
          · rename_i hopen
            obtain ⟨u, rfl, hu⟩ := ih h
            exact ⟨c :: u, rfl, by rw [depthAfter, if_neg hclose, if_neg hopen, hu]⟩
  · intro h
    obtain ⟨u, rfl, hu⟩ := h
    rw [afterMatching?_depthAfter hu, afterMatching?, if_pos rfl, if_pos rfl]

theorem exists_of_afterMatching? (h : afterMatching? depth s = some rest) :
    ∃ u, s = u ++ rest ∧ u ≠ [] := by
  obtain ⟨u, rfl, -⟩ := afterMatching?_eq_some_iff.mp h
  exact ⟨u ++ [']'], by simp, by simp⟩

theorem filter?_blind : filter?.Blind := fun _ _ => rfl

theorem innermostFilter?_blind : innermostFilter?.Blind := fun _ _ => rfl

theorem filter?_eq_none (hc : c ≠ '[') (s : List Char) : filter? none (c :: s) = none := by
  unfold filter?
  split
  · rename_i heq
    exact absurd (List.cons.inj heq).1 hc
  · rfl

theorem innermostFilter?_eq_none (hc : c ≠ '[') (s : List Char) :
    innermostFilter? none (c :: s) = none := by
  unfold innermostFilter?
  split
  · rename_i heq
    exact absurd (List.cons.inj heq).1 hc
  · rfl

theorem blankOut_filter?_matched (h : afterMatching? 0 s = some rest) :
    blankOut filter? ('[' :: s) = ' ' :: blankOut filter? rest := by
  obtain ⟨u, rfl, -⟩ := exists_of_afterMatching? h
  refine blankOut_of_scan_inr (u := '[' :: u) (b := ()) (scan_take ⟨by simp, ?_⟩ (filter?_blind _ _))
  simp [filter?, h]

theorem blankOut_filter?_unmatched (h : c ≠ '[' ∨ afterMatching? 0 s = none) :
    blankOut filter? (c :: s) = c :: blankOut filter? s := by
  refine blankOut_of_scan_inl (u := [c]) (filter?_blind.scan_cons ?_)
  by_cases hc : c = '['
  · subst hc
    simp [filter?, h.resolve_left (by simp)]
  · exact filter?_eq_none hc s

theorem blankOut_innermostFilter?_group (hg : IsBracketFree g) (v : List Char) :
    blankOut innermostFilter? ('[' :: (g ++ ']' :: v)) = ' ' :: blankOut innermostFilter? v := by
  have hgroup : afterGroup? (g ++ ']' :: v) = some v := afterGroup?_eq_some_iff.mpr ⟨g, rfl, hg⟩
  have hs : '[' :: (g ++ ']' :: v) = ('[' :: g ++ [']']) ++ v := by simp
  rw [hs]
  refine blankOut_of_scan_inr (b := ()) (scan_take ⟨by simp, ?_⟩ (innermostFilter?_blind _ _))
  rw [← hs]
  simp [innermostFilter?, hgroup]

theorem blankOut_innermostFilter?_other (h : c ≠ '[' ∨ afterGroup? s = none) :
    blankOut innermostFilter? (c :: s) = c :: blankOut innermostFilter? s := by
  refine blankOut_of_scan_inl (u := [c]) (innermostFilter?_blind.scan_cons ?_)
  by_cases hc : c = '['
  · subst hc
    simp [innermostFilter?, h.resolve_left (by simp)]
  · exact innermostFilter?_eq_none hc s

/-- Whatever holds of the empty text and goes on to innermost groups and to characters that begin
none holds of every text. -/
@[elab_as_elim]
theorem group_induction {motive : List Char → Prop} (nil : motive [])
    (other : ∀ c s, c ≠ '[' ∨ afterGroup? s = none → motive s → motive (c :: s))
    (group : ∀ g v, IsBracketFree g → motive v → motive ('[' :: (g ++ ']' :: v)))
    (s : List Char) : motive s :=
  match s with
  | [] => nil
  | c :: s => by
      by_cases hc : c = '['
      · cases hgroup : afterGroup? s with
        | none => exact other c s (Or.inr hgroup) (group_induction nil other group s)
        | some v =>
            obtain ⟨g, hs, hfree⟩ := afterGroup?_eq_some_iff.mp hgroup
            rw [hc, hs]
            exact group g v hfree (group_induction nil other group v)
      · exact other c s (Or.inl hc) (group_induction nil other group s)
termination_by s.length
decreasing_by
  · simp
  · simp only [hs, List.length_cons, List.length_append]
    omega
  · simp

/-! One round leaves the matched groups where they were. -/

theorem afterMatching?_blankOut (depth : Nat) (s : List Char) :
    afterMatching? depth (blankOut innermostFilter? s) =
      (afterMatching? depth s).map (blankOut innermostFilter?) := by
  induction s using group_induction generalizing depth with
  | nil => rfl
  | other c s hc ih =>
      rw [blankOut_innermostFilter?_other hc, afterMatching?, afterMatching?]
      split
      · split
        · rfl
        · exact ih (depth - 1)
      · split
        · exact ih (depth + 1)
        · exact ih depth
  | group g v hg ih =>
      have hgroup : afterMatching? depth ('[' :: (g ++ ']' :: v)) = afterMatching? depth v := by
        rw [afterMatching?, if_neg (by decide), if_pos rfl, afterMatching?_append hg,
          afterMatching?, if_pos rfl, if_neg (Nat.succ_ne_zero depth), Nat.add_sub_cancel]
      rw [blankOut_innermostFilter?_group hg, hgroup, afterMatching?, if_neg (by decide),
        if_neg (by decide), ih]

theorem blankOut_filter?_blankOut (s : List Char) :
    blankOut filter? (blankOut innermostFilter? s) = blankOut filter? s :=
  match s with
  | [] => rfl
  | c :: s => by
      by_cases hgroup : c = '[' ∧ (afterGroup? s).isSome
      · obtain ⟨rfl, hsome⟩ := hgroup
        obtain ⟨v, hv⟩ := Option.isSome_iff_exists.mp hsome
        obtain ⟨g, hs, hg⟩ := afterGroup?_eq_some_iff.mp hv
        have hmatched : afterMatching? 0 s = some v := by
          rw [hs, afterMatching?_append hg, afterMatching?, if_pos rfl, if_pos rfl]
        rw [blankOut_filter?_matched hmatched, hs, blankOut_innermostFilter?_group hg,
          blankOut_filter?_unmatched (Or.inl (by decide)), blankOut_filter?_blankOut v]
      · have hother : c ≠ '[' ∨ afterGroup? s = none := by
          by_cases hc : c = '['
          · exact Or.inr (by simpa [hc] using hgroup)
          · exact Or.inl hc
        rw [blankOut_innermostFilter?_other hother]
        by_cases hc : c = '['
        · subst hc
          have hround := afterMatching?_blankOut 0 s
          cases hmatching : afterMatching? 0 s with
          | none =>
              rw [hmatching] at hround
              rw [blankOut_filter?_unmatched (Or.inr hround),
                blankOut_filter?_unmatched (Or.inr hmatching), blankOut_filter?_blankOut s]
          | some rest =>
              rw [hmatching] at hround
              rw [blankOut_filter?_matched hround, blankOut_filter?_matched hmatching,
                blankOut_filter?_blankOut rest]
        · rw [blankOut_filter?_unmatched (Or.inl hc), blankOut_filter?_unmatched (Or.inl hc),
            blankOut_filter?_blankOut s]
termination_by s.length
decreasing_by
  · simp only [hs, List.length_cons, List.length_append]
    omega
  · simp
  · obtain ⟨u, hu, -⟩ := exists_of_afterMatching? hmatching
    simp only [hu, List.length_cons, List.length_append]
    omega
  · simp

theorem afterGroup?_ne_none
    (hround : ¬ (blankOut innermostFilter? s).length < s.length)
    (h : afterMatching? depth s ≠ none) : afterGroup? s ≠ none := by
  induction s using group_induction generalizing depth with
  | nil => exact absurd rfl h
  | other c s hc ih =>
      rw [blankOut_innermostFilter?_other hc, List.length_cons, List.length_cons] at hround
      have hlater : ∀ {depth}, afterMatching? depth s ≠ none → afterGroup? s ≠ none :=
        fun h => ih (by omega) h
      rw [afterMatching?] at h
      rw [afterGroup?]
      split
      · simp
      · rename_i hclose
        rw [if_neg hclose] at h
        split
        · rename_i hopen
          rw [if_pos hopen] at h
          exact absurd (hc.resolve_left (by simp [hopen])) (hlater h)
        · rename_i hopen
          rw [if_neg hopen] at h
          exact hlater h
  | group g v hg ih =>
      rw [blankOut_innermostFilter?_group hg] at hround
      have hle := length_blankOut_le innermostFilter? v
      simp only [List.length_cons, List.length_append] at hround
      omega

theorem blankOut_filter?_eq_self
    (hround : ¬ (blankOut innermostFilter? s).length < s.length) : blankOut filter? s = s := by
  induction s using group_induction with
  | nil => rfl
  | other c s hc ih =>
      rw [blankOut_innermostFilter?_other hc, List.length_cons, List.length_cons] at hround
      have hrest : ¬ (blankOut innermostFilter? s).length < s.length := by omega
      have hunmatched : c ≠ '[' ∨ afterMatching? 0 s = none := by
        refine hc.imp_right fun hgroup => ?_
        exact Classical.byContradiction fun h => afterGroup?_ne_none hrest h hgroup
      rw [blankOut_filter?_unmatched hunmatched, ih hrest]
  | group g v hg ih =>
      rw [blankOut_innermostFilter?_group hg] at hround
      have hle := length_blankOut_le innermostFilter? v
      simp only [List.length_cons, List.length_append] at hround
      omega

theorem withoutFilters_eq_blankOut (s : List Char) : withoutFilters s = blankOut filter? s := by
  induction s using withoutFilters.induct with
  | case1 s outer hshorter ih =>
      rw [withoutFilters, if_pos hshorter, ih]
      exact blankOut_filter?_blankOut s
  | case2 s outer hround =>
      rw [withoutFilters, if_neg hround, blankOut_filter?_eq_self hround]

end EventOperator.Query
