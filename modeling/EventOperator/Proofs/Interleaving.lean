import Mathlib.Logic.Function.Basic

/-!
Schedules of several who act by turns and make copies of themselves. If everybody has a state of
their own, it only matters what each of them does, and not how their turns are mixed.
-/

namespace EventOperator

/-- What somebody does in a turn: act, or make a copy of themselves with a name. -/
inductive Deed (ν : Type u) (ε : Type v) where
  | act (e : ε)
  | copy (name : ν)

/-- Turns in the order in which they come, with the names of those who take them. -/
abbrev Schedule (ν : Type u) (ε : Type v) := List (ν × Deed ν ε)

variable {ν : Type u} {ε : Type v} {σ : Type w}

namespace Deed

def made : Deed ν ε → List ν
  | act _ => []
  | copy name => [name]

/-- The one whose state is set: the actor or the copy. -/
def target (actor : ν) : Deed ν ε → ν
  | act _ => actor
  | copy name => name

def effect (act : ε → σ → σ) : Deed ν ε → Option σ → Option σ
  | .act e => Option.map (act e)
  | .copy _ => id

theorem target_eq_or_mem (actor : ν) (deed : Deed ν ε) :
    deed.target actor = actor ∨ deed.target actor ∈ deed.made := by
  cases deed with
  | act e => exact Or.inl rfl
  | copy name => exact Or.inr List.mem_cons_self

end Deed

namespace Schedule

/-- Only those who are there take turns, and copies have new names. -/
def IsOrderly : List ν → Schedule ν ε → Prop
  | _, [] => True
  | present, (actor, deed) :: rest =>
      actor ∈ present ∧ (∀ name ∈ deed.made, name ∉ present) ∧ IsOrderly (deed.made ++ present) rest

theorem IsOrderly.of_same_names {present others : List ν} {s : Schedule ν ε}
    (h : ∀ name, name ∈ present ↔ name ∈ others) (hs : IsOrderly present s) :
    IsOrderly others s := by
  induction s generalizing present others with
  | nil => trivial
  | cons first rest ih =>
      obtain ⟨actor, deed⟩ := first
      obtain ⟨hactor, hmade, hrest⟩ := hs
      refine ⟨(h actor).mp hactor, fun name hname => (h name).not.mp (hmade name hname), ?_⟩
      exact ih (fun name => by rw [List.mem_append, List.mem_append, h]) hrest

section

variable [DecidableEq ν]

/-- What one of them does, in order. -/
def own (name : ν) (s : Schedule ν ε) : List (Deed ν ε) :=
  s.filterMap fun turn => if turn.1 = name then some turn.2 else none

/-- A turn, if everybody has a state of their own. -/
def turn (act : ε → σ → σ) (states : ν → Option σ) (actor : ν) (deed : Deed ν ε) :
    ν → Option σ :=
  Function.update states (deed.target actor) (deed.effect act (states actor))

def run (act : ε → σ → σ) : (ν → Option σ) → Schedule ν ε → ν → Option σ
  | states, [] => states
  | states, (actor, deed) :: rest => run act (turn act states actor deed) rest

variable {act : ε → σ → σ} {states : ν → Option σ} {present : List ν} {name actor other : ν}
  {deed next : Deed ν ε} {s t u v : Schedule ν ε}

@[simp] theorem own_nil : own name ([] : Schedule ν ε) = [] := rfl

theorem own_cons_self : own actor ((actor, deed) :: s) = deed :: own actor s := by
  simp [own]

theorem own_cons_of_ne (h : actor ≠ name) : own name ((actor, deed) :: s) = own name s := by
  simp [own, h]

theorem own_append : own name (u ++ v) = own name u ++ own name v := List.filterMap_append

theorem mem_own : deed ∈ own name s ↔ (name, deed) ∈ s := by
  rw [own, List.mem_filterMap]
  constructor
  · rintro ⟨⟨actor, other⟩, hmem, hturn⟩
    split at hturn
    · rename_i hactor
      rw [← hactor, ← Option.some.inj hturn]
      exact hmem
    · exact nomatch hturn
  · exact fun hmem => ⟨(name, deed), hmem, if_pos rfl⟩

theorem own_eq_nil (h : ∀ turn ∈ s, turn.1 ≠ name) : own name s = [] :=
  List.filterMap_eq_nil_iff.mpr fun turn hturn => if_neg (h turn hturn)

theorem exists_of_own_eq_cons {rest : List (Deed ν ε)} (h : own actor s = deed :: rest) :
    ∃ u v, s = u ++ (actor, deed) :: v ∧ (∀ turn ∈ u, turn.1 ≠ actor) ∧ own actor v = rest := by
  obtain ⟨u, ⟨first, found⟩, v, hsplit, hfront, hfirst, hrest⟩ := List.filterMap_eq_cons_iff.mp h
  refine ⟨u, v, ?_, ?_, hrest⟩
  · split at hfirst
    · rename_i hactor
      rw [hsplit, ← Option.some.inj hfirst, ← hactor]
    · exact nomatch hfirst
  · intro turn hturn hactor
    exact nomatch (if_pos hactor).symm.trans (hfront turn hturn)

theorem turn_comm (htargets : deed.target actor ≠ next.target other)
    (hdeed : deed.target actor ≠ other) (hnext : next.target other ≠ actor) :
    turn act (turn act states actor deed) other next =
      turn act (turn act states other next) actor deed := by
  rw [turn, turn, turn, turn, Function.update_of_ne hdeed.symm, Function.update_of_ne hnext.symm,
    Function.update_comm htargets]

theorem IsOrderly.swap (act : ε → σ → σ) (hne : other ≠ actor) (hactor : actor ∈ present)
    (hs : IsOrderly present ((other, next) :: (actor, deed) :: s)) :
    IsOrderly present ((actor, deed) :: (other, next) :: s) ∧
      ∀ states, turn act (turn act states other next) actor deed =
        turn act (turn act states actor deed) other next := by
  obtain ⟨hother, hnext, -, hdeed, hrest⟩ := hs
  have hdeed' : ∀ name ∈ deed.made, name ∉ present := fun name hname hold =>
    hdeed name hname (List.mem_append_right _ hold)
  have hapart : ∀ name ∈ next.made, name ∉ deed.made := fun name hname hmade =>
    hdeed name hmade (List.mem_append_left _ hname)
  constructor
  · refine ⟨hactor, hdeed', List.mem_append_right _ hother, ?_, ?_⟩
    · intro name hname hmem
      rcases List.mem_append.mp hmem with hmade | hold
      · exact hapart name hname hmade
      · exact hnext name hname hold
    · refine hrest.of_same_names fun name => ?_
      simp only [List.mem_append]
      exact or_left_comm
  · have hthere : deed.target actor ≠ other := by
      intro heq
      rcases deed.target_eq_or_mem actor with hself | hmade
      · exact hne (heq.symm.trans hself)
      · exact hdeed' _ hmade (heq ▸ hother)
    have hhere : next.target other ≠ actor := by
      intro heq
      rcases next.target_eq_or_mem other with hself | hmade
      · exact hne (hself.symm.trans heq)
      · exact hnext _ hmade (heq ▸ hactor)
    refine fun states => turn_comm ?_ hhere hthere
    intro heq
    rcases next.target_eq_or_mem other with hself | hmade
    · exact hthere (heq.symm.trans hself)
    · rcases deed.target_eq_or_mem actor with hself | hmade'
      · exact hhere (heq.trans hself)
      · exact hapart _ hmade (heq ▸ hmade')

theorem IsOrderly.forward (act : ε → σ → σ) (hactor : actor ∈ present)
    (hu : ∀ turn ∈ u, turn.1 ≠ actor)
    (hs : IsOrderly present (u ++ (actor, deed) :: v)) :
    IsOrderly present ((actor, deed) :: (u ++ v)) ∧
      ∀ states,
        run act states (u ++ (actor, deed) :: v) = run act states ((actor, deed) :: (u ++ v)) := by
  induction u generalizing present with
  | nil => exact ⟨hs, fun _ => rfl⟩
  | cons first u ih =>
      obtain ⟨other, next⟩ := first
      obtain ⟨hother, hnext, hrest⟩ := hs
      have hne : other ≠ actor := hu (other, next) List.mem_cons_self
      obtain ⟨horderly, hrun⟩ := ih (List.mem_append_right _ hactor)
        (fun turn hturn => hu turn (List.mem_cons_of_mem _ hturn)) hrest
      obtain ⟨hswapped, hturns⟩ := IsOrderly.swap act hne hactor ⟨hother, hnext, horderly⟩
      refine ⟨hswapped, fun states => ?_⟩
      rw [List.cons_append, run, hrun, run, hturns]
      rfl

/-- However the turns of several are mixed, everybody ends in the same state. -/
theorem run_eq_of_own_eq (hs : IsOrderly present s) (ht : IsOrderly present t)
    (h : ∀ name, own name s = own name t) : run act states s = run act states t := by
  induction s generalizing t present states with
  | nil =>
      cases t with
      | nil => rfl
      | cons first rest =>
          have hnone := h first.1
          rw [own_nil, own_cons_self] at hnone
          exact nomatch hnone
  | cons first rest ih =>
      obtain ⟨actor, deed⟩ := first
      obtain ⟨hactor, -, hrest⟩ := hs
      obtain ⟨u, v, rfl, hu, hv⟩ :=
        exists_of_own_eq_cons ((h actor).symm.trans own_cons_self)
      obtain ⟨horderly, hrun⟩ := ht.forward act hactor hu
      rw [hrun]
      apply ih hrest horderly.2.2
      intro name
      by_cases hname : actor = name
      · subst hname
        rw [own_append, own_eq_nil hu, hv, List.nil_append]
      · have hsame := h name
        rw [own_cons_of_ne hname, own_append, own_cons_of_ne hname, ← own_append] at hsame
        exact hsame

end

end Schedule

end EventOperator
