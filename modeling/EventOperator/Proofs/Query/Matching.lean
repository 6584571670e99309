import EventOperator.Proofs.Query.Filter
import Mathlib.Logic.Function.Iterate

/-!
Brackets matched with a stack. Taking out innermost groups comes to an end, and what is left then is
the text in which each group of matched brackets that lies in no other has become one blank.
-/

namespace EventOperator.Query

open EventOperator.Text

variable {c : Char} {s u v rest : List Char} {place : Nat} {stack : List Nat}

/-- The places of a pair of brackets. -/
structure Group where
  opening : Nat
  closing : Nat

def Group.Within (g other : Group) : Prop :=
  other.opening < g.opening ∧ g.closing < other.closing

instance (g other : Group) : Decidable (g.Within other) := inferInstanceAs (Decidable (_ ∧ _))

/-- An opening bracket is put on the stack. A closing one is matched with the bracket on top; where
the stack is empty, it has no partner. -/
def groupsFrom : Nat → List Nat → List Char → List Group
  | _, _, [] => []
  | place, stack, c :: s =>
      if c = ']' then
        (stack.head?.map (Group.mk · place)).toList ++ groupsFrom (place + 1) stack.tail s
      else if c = '[' then groupsFrom (place + 1) (place :: stack) s
      else groupsFrom (place + 1) stack s

/-- The groups that lie in no other. -/
def maximal (groups : List Group) : List Group :=
  groups.filter fun g => groups.all fun other => ¬ g.Within other

/-- A group becomes a blank, and the characters outside the groups are kept. -/
def blankGroups (groups : List Group) : Nat → List Char → List Char
  | _, [] => []
  | place, c :: s =>
      (if groups.any fun g => g.opening = place then [' ']
        else if groups.any fun g => g.opening < place ∧ place ≤ g.closing then []
        else [c]) ++ blankGroups groups (place + 1) s

def withoutGroups (s : List Char) : List Char := blankGroups (maximal (groupsFrom 0 [] s)) 0 s

/-- What lies deeper in the stack is not touched by a text that closes only what is above it. -/
theorem exists_groupsFrom_append (stack : List Nat) {depth : Nat}
    (h : depthAfter stack.length u = some depth) (place : Nat) :
    ∃ left, left.length = depth ∧ ∀ below v,
      groupsFrom place (stack ++ below) (u ++ v) =
        groupsFrom place stack u ++ groupsFrom (place + u.length) (left ++ below) v := by
  induction u generalizing place stack with
  | nil => exact ⟨stack, Option.some.inj h, fun _ _ => rfl⟩
  | cons c u ih =>
      have hplace : place + (c :: u).length = place + 1 + u.length := by
        rw [List.length_cons]
        omega
      rw [depthAfter] at h
      rw [hplace]
      simp only [List.cons_append, groupsFrom]
      by_cases hclose : c = ']'
      · rw [if_pos hclose] at h
        simp only [if_pos hclose]
        cases stack with
        | nil => exact absurd h (by simp)
        | cons opening stack =>
            rw [List.length_cons, if_neg (Nat.succ_ne_zero _), Nat.add_sub_cancel] at h
            obtain ⟨left, hleft, hgroups⟩ := ih stack h (place + 1)
            exact ⟨left, hleft, fun below v => congrArg (_ :: ·) (hgroups below v)⟩
      · rw [if_neg hclose] at h
        simp only [if_neg hclose]
        by_cases hopen : c = '['
        · rw [if_pos hopen] at h
          simp only [if_pos hopen]
          exact ih (place :: stack) h (place + 1)
        · rw [if_neg hopen] at h
          simp only [if_neg hopen]
          exact ih stack h (place + 1)

theorem groupsFrom_append (stack below : List Nat) (h : depthAfter stack.length u = some 0)
    (place : Nat) (v : List Char) :
    groupsFrom place (stack ++ below) (u ++ v) =
      groupsFrom place stack u ++ groupsFrom (place + u.length) below v := by
  obtain ⟨left, hleft, hgroups⟩ := exists_groupsFrom_append stack h place
  obtain rfl := List.eq_nil_of_length_eq_zero hleft
  exact hgroups below v

theorem exists_depthAfter {depth : Nat} (h : afterMatching? depth s = none) :
    ∃ after, depthAfter depth s = some after := by
  induction s generalizing depth with
  | nil => exact ⟨depth, rfl⟩
  | cons c s ih =>
      rw [afterMatching?] at h
      rw [depthAfter]
      split
      · rename_i hclose
        rw [if_pos hclose] at h
        split
        · rename_i hdepth
          rw [if_pos hdepth] at h
          cases h
        · rename_i hdepth
          rw [if_neg hdepth] at h
          exact ih h
      · rename_i hclose
        rw [if_neg hclose] at h
        split
        · rename_i hopen
          rw [if_pos hopen] at h
          exact ih h
        · rename_i hopen
          rw [if_neg hopen] at h
          exact ih h

theorem groupsFrom_of_unmatched (stack below : List Nat)
    (h : afterMatching? stack.length s = none) (place : Nat) :
    groupsFrom place (stack ++ below) s = groupsFrom place stack s := by
  obtain ⟨depth, hdepth⟩ := exists_depthAfter h
  obtain ⟨left, -, hgroups⟩ := exists_groupsFrom_append stack hdepth place
  have hall := hgroups below []
  rwa [List.append_nil, groupsFrom, List.append_nil] at hall

theorem bounds_of_mem_groupsFrom {g : Group} (h : g ∈ groupsFrom place stack s) :
    (g.opening ∈ stack ∨ place ≤ g.opening) ∧ place ≤ g.closing ∧
      g.closing < place + s.length := by
  induction s generalizing place stack with
  | nil => cases h
  | cons c s ih =>
      have hlater : ∀ {later : List Nat}, g ∈ groupsFrom (place + 1) later s →
          (∀ opening ∈ later, opening ∈ stack ∨ place ≤ opening) →
            (g.opening ∈ stack ∨ place ≤ g.opening) ∧ place ≤ g.closing ∧
              g.closing < place + (c :: s).length := by
        intro later hg hstack
        obtain ⟨hopening, hfirst, hlast⟩ := ih hg
        refine ⟨hopening.elim (hstack _) fun hle => Or.inr (by omega), by omega, ?_⟩
        rw [List.length_cons]
        omega
      rw [groupsFrom] at h
      split at h
      · cases stack with
        | nil => exact hlater h nofun
        | cons opening stack =>
            rcases List.mem_cons.mp h with rfl | h
            · exact ⟨Or.inl List.mem_cons_self, Nat.le_refl _, by simp⟩
            · exact hlater h fun _ hin => Or.inl (List.mem_cons_of_mem _ hin)
      · split at h
        · refine hlater h fun other hin => ?_
          rcases List.mem_cons.mp hin with rfl | hin
          · exact Or.inr (Nat.le_refl _)
          · exact Or.inl hin
        · exact hlater h fun _ hin => Or.inl hin

theorem le_opening_of_mem_groupsFrom {g : Group} (h : g ∈ groupsFrom place [] s) :
    place ≤ g.opening := (bounds_of_mem_groupsFrom h).1.resolve_left nofun

theorem groupsFrom_unmatched (h : c ≠ '[' ∨ afterMatching? 0 s = none) (place : Nat) :
    groupsFrom place [] (c :: s) = groupsFrom (place + 1) [] s := by
  rw [groupsFrom]
  split
  · rfl
  · split
    · rename_i hopen
      exact groupsFrom_of_unmatched [] [place] (h.resolve_left (not_not.mpr hopen)) _
    · rfl

theorem groupsFrom_matched (h : depthAfter 0 u = some 0) (place : Nat) (rest : List Char) :
    groupsFrom place [] ('[' :: (u ++ ']' :: rest)) =
      groupsFrom (place + 1) [] u ++
        ⟨place, place + 1 + u.length⟩ :: groupsFrom (place + 1 + u.length + 1) [] rest := by
  rw [groupsFrom, if_neg (by decide), if_pos rfl]
  exact groupsFrom_append [] [place] h (place + 1) (']' :: rest)

theorem maximal_matched (hu : depthAfter 0 u = some 0) (place : Nat) (rest : List Char) :
    maximal (groupsFrom place [] ('[' :: (u ++ ']' :: rest))) =
      ⟨place, place + 1 + u.length⟩ ::
        maximal (groupsFrom (place + 1 + u.length + 1) [] rest) := by
  rw [groupsFrom_matched hu, maximal, List.filter_append, List.filter_cons_of_pos, maximal]
  · have hinner : ∀ g ∈ groupsFrom (place + 1) [] u, g.Within ⟨place, place + 1 + u.length⟩ :=
      fun g hg => ⟨le_opening_of_mem_groupsFrom hg, (bounds_of_mem_groupsFrom hg).2.2⟩
    have hnone : (groupsFrom (place + 1) [] u).filter (fun g =>
        (groupsFrom (place + 1) [] u ++ ⟨place, place + 1 + u.length⟩ ::
          groupsFrom (place + 1 + u.length + 1) [] rest).all fun other => ¬ g.Within other) = [] := by
      rw [List.filter_eq_nil_iff]
      intro g hg hall
      have hnot := List.all_eq_true.mp hall ⟨place, place + 1 + u.length⟩
        (List.mem_append_right _ List.mem_cons_self)
      exact of_decide_eq_true hnot (hinner g hg)
    rw [hnone, List.nil_append]
    congr 1
    apply List.filter_congr
    intro g hg
    have hbehind := (bounds_of_mem_groupsFrom hg).2.1
    rw [List.all_append, List.all_cons, Bool.eq_iff_iff, Bool.and_eq_true, Bool.and_eq_true]
    refine ⟨fun h => h.2.2, fun h => ⟨List.all_eq_true.mpr ?_, decide_eq_true ?_, h⟩⟩
    · intro other hother
      have hlast := (bounds_of_mem_groupsFrom hother).2.2
      exact decide_eq_true fun hwithin => absurd hwithin.2 (by omega)
    · exact fun hwithin => absurd hwithin.2 (by show ¬ g.closing < place + 1 + u.length; omega)
  · rw [List.all_eq_true]
    intro other hother
    have hle : place ≤ other.opening := by
      rcases List.mem_append.mp hother with hin | hin
      · exact Nat.le_of_succ_le (le_opening_of_mem_groupsFrom hin)
      · rcases List.mem_cons.mp hin with rfl | hin
        · exact Nat.le_refl _
        · have hlater := le_opening_of_mem_groupsFrom hin
          omega
    exact decide_eq_true fun hwithin => absurd hwithin.1 (Nat.not_lt.mpr hle)

theorem blankGroups_outside {groups : List Group} (h : ∀ g ∈ groups, place < g.opening) (c : Char)
    (s : List Char) :
    blankGroups groups place (c :: s) = c :: blankGroups groups (place + 1) s := by
  rw [blankGroups, if_neg, if_neg]
  · rfl
  · rw [List.any_eq_true]
    rintro ⟨g, hg, hcovers⟩
    exact absurd (of_decide_eq_true hcovers).1 (Nat.lt_asymm (h g hg))
  · rw [List.any_eq_true]
    rintro ⟨g, hg, hopens⟩
    exact absurd (of_decide_eq_true hopens) (Nat.ne_of_gt (h g hg))

theorem blankGroups_inside {g : Group} {groups : List Group}
    (h : ∀ other ∈ groups, g.closing < other.opening) (hplace : g.opening < place)
    (hlast : place + u.length ≤ g.closing + 1) (v : List Char) :
    blankGroups (g :: groups) place (u ++ v) = blankGroups (g :: groups) (place + u.length) v := by
  induction u generalizing place with
  | nil => rfl
  | cons c u ih =>
      rw [List.length_cons] at hlast ⊢
      have hcovers : (g :: groups).any (fun g => g.opening < place ∧ place ≤ g.closing) = true :=
        List.any_eq_true.mpr ⟨g, List.mem_cons_self, decide_eq_true ⟨hplace, by omega⟩⟩
      have hopens : ¬ (g :: groups).any (fun g => g.opening = place) = true := by
        rw [List.any_eq_true]
        rintro ⟨other, hother, hopens⟩
        have heq := of_decide_eq_true hopens
        rcases List.mem_cons.mp hother with rfl | hother
        · omega
        · have hlater := h other hother
          omega
      rw [List.cons_append, blankGroups, if_neg hopens, if_pos hcovers, List.nil_append,
        ih (by omega) (by omega)]
      congr 1
      omega

theorem blankGroups_behind {g : Group} (groups : List Group) (hopening : g.opening < place)
    (hclosing : g.closing < place) (s : List Char) :
    blankGroups (g :: groups) place s = blankGroups groups place s := by
  induction s generalizing place with
  | nil => rfl
  | cons c s ih =>
      have hopens : decide (g.opening = place) = false := decide_eq_false (by omega)
      have hcovers : decide (g.opening < place ∧ place ≤ g.closing) = false :=
        decide_eq_false (by omega)
      rw [blankGroups, blankGroups, ih (by omega) (by omega), List.any_cons, List.any_cons, hopens,
        hcovers, Bool.false_or, Bool.false_or]

theorem blankGroups_eq_blankOut (place : Nat) (s : List Char) :
    blankGroups (maximal (groupsFrom place [] s)) place s = blankOut filter? s :=
  match s with
  | [] => rfl
  | c :: s => by
      have hlater : ∀ {first : Nat} {t : List Char}, ∀ g ∈ maximal (groupsFrom first [] t),
          first ≤ g.opening := fun g hg =>
        le_opening_of_mem_groupsFrom (List.mem_filter.mp hg).1
      by_cases hmatched : c = '[' ∧ (afterMatching? 0 s).isSome
      · obtain ⟨rfl, hsome⟩ := hmatched
        obtain ⟨rest, hrest⟩ := Option.isSome_iff_exists.mp hsome
        obtain ⟨u, hs, hu⟩ := afterMatching?_eq_some_iff.mp hrest
        have hgroup : '[' :: s = '[' :: (u ++ ']' :: rest) := by rw [hs]
        have hcontent : u ++ ']' :: rest = (u ++ [']']) ++ rest := by simp
        rw [blankOut_filter?_matched hrest, hgroup, maximal_matched hu, blankGroups,
          if_pos (by simp), hcontent, blankGroups_inside (fun other hother => hlater other hother)
            (Nat.lt_succ_self _) (by simp; omega),
          blankGroups_behind _ (by simp; omega) (by simp),
          List.length_append, List.length_singleton]
        exact congrArg (' ' :: ·) (blankGroups_eq_blankOut (place + 1 + u.length + 1) rest)
      · have hother : c ≠ '[' ∨ afterMatching? 0 s = none := by
          by_cases hc : c = '['
          · exact Or.inr (by simpa [hc] using hmatched)
          · exact Or.inl hc
        rw [groupsFrom_unmatched hother, blankGroups_outside (fun g hg => hlater g hg),
          blankOut_filter?_unmatched hother, blankGroups_eq_blankOut (place + 1) s]
termination_by s.length
decreasing_by
  · simp only [hs, List.length_cons, List.length_append]
    omega
  · simp

theorem blankOut_innermostFilter?_eq_self
    (hround : ¬ (blankOut innermostFilter? s).length < s.length) :
    blankOut innermostFilter? s = s := by
  induction s using group_induction with
  | nil => rfl
  | other c s hc ih =>
      rw [blankOut_innermostFilter?_other hc, List.length_cons, List.length_cons] at hround
      rw [blankOut_innermostFilter?_other hc, ih (by omega)]
  | group g v hg ih =>
      rw [blankOut_innermostFilter?_group hg] at hround
      have hle := length_blankOut_le innermostFilter? v
      simp only [List.length_cons, List.length_append] at hround
      omega

/-- Rounds are made as long as they change something, and this is what is left in the end. -/
def EndsWith {α : Type} (round : α → α) (s left : α) : Prop :=
  ∃ rounds, (round^[rounds] s = left ∧ round left = left) ∧
    ∀ n < rounds, round^[n + 1] s ≠ round^[n] s

theorem endsWith_withoutFilters (s : List Char) :
    EndsWith (blankOut innermostFilter?) s (withoutFilters s) := by
  induction s using withoutFilters.induct with
  | case1 s outer hshorter ih =>
      obtain ⟨rounds, hleft, hchanges⟩ := ih
      rw [withoutFilters, if_pos hshorter]
      refine ⟨rounds + 1, hleft, ?_⟩
      intro n hn
      cases n with
      | zero => exact fun heq => absurd (congrArg List.length heq) (Nat.ne_of_lt hshorter)
      | succ n => exact hchanges n (Nat.lt_of_succ_lt_succ hn)
  | case2 s outer hround =>
      rw [withoutFilters, if_neg hround]
      have hstable := blankOut_innermostFilter?_eq_self hround
      exact ⟨0, ⟨rfl, hstable⟩, fun n hn => absurd hn (Nat.not_lt_zero n)⟩

theorem opening_before_closing (h : afterGroup? s = none) (hclose : ']' ∈ s) :
    ['[', ']'].Sublist s := by
  induction s with
  | nil => cases hclose
  | cons c s ih =>
      rw [afterGroup?] at h
      split at h
      · cases h
      · rename_i hc
        have hrest : ']' ∈ s := (List.mem_cons.mp hclose).resolve_left fun heq => hc heq.symm
        split at h
        · rename_i hopen
          exact hopen ▸ (List.singleton_sublist.mpr hrest).cons_cons _
        · exact (ih h hrest).cons _

theorem not_opening_before_closing (hround : blankOut innermostFilter? s = s) :
    ¬ ['[', ']'].Sublist s := by
  induction s using group_induction with
  | nil => exact nofun
  | other c s hc ih =>
      rw [blankOut_innermostFilter?_other hc] at hround
      have hrest := ih (List.cons.inj hround).2
      intro hsub
      cases hsub with
      | cons _ hsub => exact hrest hsub
      | cons_cons _ hsub =>
          have hclose : ']' ∈ s := List.singleton_sublist.mp hsub
          exact hrest (opening_before_closing (hc.resolve_left (not_not.mpr rfl)) hclose)
  | group g v hg ih =>
      rw [blankOut_innermostFilter?_group hg] at hround
      exact absurd (List.cons.inj hround).1 (by decide)

/-- Taking out innermost groups comes to an end on every text. It leaves what is left when brackets
are matched with a stack and each group that lies in no other becomes one blank, and no opening
bracket stands before a closing one any more. -/
theorem withoutFilters_matched (s : List Char) :
    EndsWith (blankOut innermostFilter?) s (withoutFilters s) ∧
      withoutFilters s = withoutGroups s ∧ ¬ ['[', ']'].Sublist (withoutFilters s) := by
  have hends := endsWith_withoutFilters s
  obtain ⟨_, ⟨-, hround⟩, -⟩ := endsWith_withoutFilters s
  refine ⟨hends, ?_, not_opening_before_closing hround⟩
  rw [withoutFilters_eq_blankOut, withoutGroups, blankGroups_eq_blankOut]

example : withoutGroups "a]b[c[d]e][f]g[h[i]".toList = "a]b  g[h ".toList := by decide

end EventOperator.Query
