import EventOperator.Proofs.Context.Frame
import EventOperator.Proofs.Interleaving

/-!
Contexts that have been copied from one another and work at the same site, each in its turns.
They share the supply of ids and the metrics, and still each of them becomes what it would become if
it had the site for itself, but for the ids that are drawn.
-/

namespace EventOperator

open Identity

/-- A context with the ids that it has answered for added plans, behind those that the context from
which it was copied had answered by then. -/
structure Worker where
  context : Context
  returned : List String

/-- What a worker is asked. Plans can also be named by the places of their ids among the answered
ones. -/
inductive Errand (μ ρ : Type) : Type 1 where
  | ask {β : Type} (request : Request μ ρ β)
  | askAbout {β : Type} (n : Nat) (request : Request μ ρ β)

/-- Contexts that have been copied from one another, by their names, and the site that they share. -/
structure ContextCopies (ν α : Type) where
  workers : ν → Option Worker
  site : Site α

def ContextCopies.opened {ν α : Type} [DecidableEq ν] (root : ν) (c : Context) (site : Site α) :
    ContextCopies ν α :=
  ⟨Function.update (fun _ => none) root (some ⟨c, []⟩), site⟩

theorem ContextCopies.opened_root {ν α : Type} [DecidableEq ν] (root : ν) (c : Context)
    (site : Site α) : (opened root c site).workers root = some ⟨c, []⟩ := by
  simp only [opened, Function.update_self]

section

variable {α β μ ρ : Type} [OfNat α 0] [OfNat α 1] [Add α]

def Worker.ask (request : Request μ ρ β) (w : Worker) (site : Site α) : Worker × Site α :=
  let outcome := request.perform ⟨w.context, site⟩
  (⟨outcome.state.context, w.returned ++ (request.returned? outcome.result).toList⟩,
    outcome.state.site)

def Errand.perform : Errand μ ρ → Worker × Site α → Worker × Site α
  | ask request, (w, site) => w.ask request site
  | askAbout n request, (w, site) => w.ask (request.about w.returned[n]?) site

namespace ContextCopies

variable {ν : Type} [DecidableEq ν]

/-- A copy has what the copied one has. -/
def step (copies : ContextCopies ν α) (actor : ν) : Deed ν (Errand μ ρ) → ContextCopies ν α
  | .act errand =>
      match copies.workers actor with
      | some w =>
          let next := errand.perform (w, copies.site)
          ⟨Function.update copies.workers actor (some next.1), next.2⟩
      | none => copies
  | .copy name =>
      { copies with workers := Function.update copies.workers name (copies.workers actor) }

def after (copies : ContextCopies ν α) : Schedule ν (Errand μ ρ) → ContextCopies ν α
  | [] => copies
  | (actor, deed) :: rest => (copies.step actor deed).after rest

end ContextCopies

end

variable {α β μ ρ ν : Type}

namespace Errand

def id? : Errand μ ρ → Option String
  | ask request => request.id?
  | askAbout _ _ => none

end Errand

def Deed.id? : Deed ν (Errand μ ρ) → Option String
  | act errand => errand.id?
  | copy _ => none

variable {origin : Origin} {goes : String → String → Prop} {one other : Worker × Site α}

namespace Worker

/-- Only the plans, the ids that come next and the answered ids may differ. -/
structure Alike (origin : Origin) (goes : String → String → Prop) (one other : Worker × Site α) :
    Prop where
  post : Post.Alike origin goes ⟨one.1.context, one.2⟩ ⟨other.1.context, other.2⟩
  returned : List.Forall₂ goes one.1.returned other.1.returned

theorem Alike.later {w : Worker} {site site' : Site α} (h : Alike origin goes (w, site) other)
    (hlater : site'.supply.IsLater site.supply) : Alike origin goes (w, site') other :=
  ⟨⟨h.post.supplied.later hlater (.refl _), h.post.context⟩, h.returned⟩

end Worker

/-- Each of the copies is like one that has a site alone. -/
def ContextCopies.Follows (origin : Origin) (copies : ContextCopies ν α)
    (alone : ν → Option (Worker × Site α)) : Prop :=
  ∀ name, Option.Rel (fun w other => ∃ goes, Worker.Alike origin goes (w, copies.site) other)
    (copies.workers name) (alone name)

theorem ContextCopies.Follows.opened [DecidableEq ν] (root : ν) (c : Context) (site : Site α) :
    (ContextCopies.opened root c site).Follows (Post.supplied ⟨c, site⟩).origin
      (Function.update (fun _ => none) root (some (⟨c, []⟩, site))) := by
  intro name
  by_cases heq : name = root
  · subst heq
    simp only [ContextCopies.opened, Function.update_self]
    exact .some ⟨_, ⟨.start (Post.supplied ⟨c, site⟩), rfl⟩, .nil⟩
  · simp only [ContextCopies.opened, Function.update_of_ne heq]
    exact .none

variable [OfNat α 0] [OfNat α 1] [Add α]

theorem Worker.Alike.ask (h : Worker.Alike origin goes one other)
    (hnever : origin.cursor.NeverRepeats) {id? other? : Option String}
    (hid : Option.Rel goes id? other?) (request : Request μ ρ β) :
    ∃ wider, Worker.Alike origin wider (one.1.ask (request.about id?) one.2)
      (other.1.ask (request.about other?) other.2) := by
  obtain ⟨wider, hwider, hpost, hanswer⟩ := request.perform_alike hnever h.post hid
  exact ⟨wider, hpost, List.rel_append (h.returned.imp hwider) (forall₂_toList hanswer)⟩

namespace Errand

theorem perform_isLater (errand : Errand μ ρ) (one : Worker × Site α) :
    (errand.perform one).2.supply.IsLater one.2.supply := by
  cases errand with
  | ask request => exact request.perform_isLater _
  | askAbout n request => exact (request.about one.1.returned[n]?).perform_isLater _

/-- A plan that is named by its id must not have one that can still be drawn. -/
theorem perform_alike (hnever : origin.cursor.NeverRepeats) (h : Worker.Alike origin goes one other)
    (errand : Errand μ ρ) (hid : ∀ id ∈ errand.id?, ¬ origin.cursor.WillGive id) :
    ∃ wider, Worker.Alike origin wider (errand.perform one) (errand.perform other) := by
  cases errand with
  | ask request =>
      have hsame : Option.Rel goes request.id? request.id? := by
        cases hrequest : request.id? with
        | none => exact .none
        | some id => exact .some (h.post.supplied.ids.kept id (hid id hrequest))
      have hask := h.ask hnever hsame request
      rwa [request.about_id?] at hask
  | askAbout n request => exact h.ask hnever (rel_getElem? h.returned n) request

end Errand

namespace ContextCopies

variable [DecidableEq ν] {copies : ContextCopies ν α} {alone : ν → Option (Worker × Site α)}
  {s t : Schedule ν (Errand μ ρ)}

theorem step_of_absent {actor : ν} (hw : copies.workers actor = none) (errand : Errand μ ρ) :
    copies.step actor (.act errand) = copies := by
  simp only [ContextCopies.step, hw]

theorem step_of_present {actor : ν} {w : Worker} (hw : copies.workers actor = some w)
    (errand : Errand μ ρ) :
    copies.step actor (.act errand) =
      ⟨Function.update copies.workers actor (some (errand.perform (w, copies.site)).1),
        (errand.perform (w, copies.site)).2⟩ := by
  simp only [ContextCopies.step, hw]

theorem Follows.step (h : copies.Follows origin alone) (hnever : origin.cursor.NeverRepeats)
    (actor : ν) (deed : Deed ν (Errand μ ρ)) (hid : ∀ id ∈ deed.id?, ¬ origin.cursor.WillGive id) :
    (copies.step actor deed).Follows origin (Schedule.turn Errand.perform alone actor deed) := by
  intro name
  have hname := h name
  have hactor := h actor
  cases deed with
  | copy child =>
      by_cases heq : name = child
      · subst heq
        simpa [ContextCopies.step, Schedule.turn, Deed.target, Deed.effect] using hactor
      · simpa [ContextCopies.step, Schedule.turn, Deed.target, Deed.effect, heq] using hname
  | act errand =>
      generalize hw : copies.workers actor = found, hother : alone actor = other? at hactor
      cases hactor with
      | none =>
          have hturn : Schedule.turn Errand.perform alone actor (.act errand) = alone := by
            rw [Schedule.turn, Deed.target, Deed.effect, hother, Option.map_none, ← hother,
              Function.update_eq_self]
          rw [step_of_absent hw, hturn]
          exact hname
      | @some w other halike =>
          obtain ⟨goes, halike⟩ := halike
          have hturn : Schedule.turn Errand.perform alone actor (.act errand) =
              Function.update alone actor (some (errand.perform other)) := by
            rw [Schedule.turn, Deed.target, Deed.effect, hother, Option.map_some]
          rw [step_of_present hw, hturn]
          by_cases heq : name = actor
          · subst heq
            simp only [Function.update_self]
            exact .some (errand.perform_alike hnever halike hid)
          · simp only [Function.update_of_ne heq]
            have hlater := errand.perform_isLater (w, copies.site)
            exact rel_imp (fun _ _ h => h.imp fun _ hgoes => hgoes.later hlater) hname

theorem Follows.after (h : copies.Follows origin alone) (hnever : origin.cursor.NeverRepeats)
    (hid : ∀ turn ∈ s, ∀ id ∈ turn.2.id?, ¬ origin.cursor.WillGive id) :
    (copies.after s).Follows origin (Schedule.run Errand.perform alone s) := by
  induction s generalizing copies alone with
  | nil => exact h
  | cons first rest ih =>
      obtain ⟨actor, deed⟩ := first
      have hfirst := h.step hnever actor deed (hid (actor, deed) List.mem_cons_self)
      exact ih hfirst fun turn hturn => hid turn (List.mem_cons_of_mem _ hturn)

theorem exists_worker_step {present : List ν} {actor name : ν} {deed : Deed ν (Errand μ ρ)}
    (hpresent : ∀ name ∈ present, ∃ w, copies.workers name = some w) (hactor : actor ∈ present)
    (hname : name ∈ deed.made ++ present) :
    ∃ w, (copies.step actor deed).workers name = some w := by
  obtain ⟨w, hw⟩ := hpresent actor hactor
  cases deed with
  | act errand =>
      rw [step_of_present hw]
      by_cases heq : name = actor
      · subst heq
        exact ⟨_, Function.update_self ..⟩
      · simp only [Function.update_of_ne heq]
        exact hpresent name hname
  | copy child =>
      simp only [ContextCopies.step]
      by_cases heq : name = child
      · subst heq
        exact ⟨w, by rw [Function.update_self, hw]⟩
      · rw [Function.update_of_ne heq]
        exact hpresent name ((List.mem_cons.mp hname).resolve_left heq)

theorem exists_worker_after {present : List ν} (hs : Schedule.IsOrderly present s)
    (hpresent : ∀ name ∈ present, ∃ w, copies.workers name = some w) {name : ν}
    (hname : name ∈ present ∨ ∃ turn ∈ s, name ∈ turn.2.made) :
    ∃ w, (copies.after s).workers name = some w := by
  induction s generalizing copies present with
  | nil =>
      rcases hname with hname | ⟨turn, hturn, -⟩
      · exact hpresent name hname
      · exact nomatch hturn
  | cons first rest ih =>
      obtain ⟨actor, deed⟩ := first
      obtain ⟨hactor, -, hrest⟩ := hs
      apply ih hrest fun name hname => exists_worker_step hpresent hactor hname
      rcases hname with hname | ⟨turn, hturn, hmade⟩
      · exact Or.inl (List.mem_append_right _ hname)
      · rcases List.mem_cons.mp hturn with rfl | hturn
        · exact Or.inl (List.mem_append_left _ hmade)
        · exact Or.inr ⟨turn, hturn, hmade⟩

end ContextCopies

/-! What two workers have in common if they are like the same third. -/

/-- Streams, extensions, outputs and settings are the same, and so are the plans but for ids that
were drawn. -/
structure Post.Agree (drawn : String → Prop) (p q : Post α) : Prop where
  rest : q.context = p.context.withPlans q.context.plans
  bodies : q.context.plans.bodies = p.context.plans.bodies
  assembled : (assembleAll q).result = (assembleAll p).result
  ids : List.Forall₂ (fun id other => id = other ∨ (drawn id ∧ drawn other)) p.context.plans.ids
    q.context.plans.ids

theorem Worker.Alike.agree {goes' : String → String → Prop} {one' : Worker × Site α}
    (h : Worker.Alike origin goes one other) (h' : Worker.Alike origin goes' one' other) :
    Post.Agree origin.MayDraw ⟨one.1.context, one.2⟩ ⟨one'.1.context, one'.2⟩ := by
  have hplans := h.post.supplied.registry
  have hplans' := h'.post.supplied.registry
  have hrest : one'.1.context = one.1.context.withPlans one'.1.context.plans :=
    congrArg (·.withPlans one'.1.context.plans) (h'.post.context.symm.trans h.post.context)
  have hbodies : one'.1.context.plans.bodies = one.1.context.plans.bodies :=
    hplans'.plans.values_eq.trans hplans.plans.values_eq.symm
  have hinitialized : one'.1.context.plans.initialized = one.1.context.plans.initialized :=
    hplans'.initialized.trans hplans.initialized.symm
  have hstreams : one'.1.context.streams = one.1.context.streams :=
    (congrArg Context.streams hrest).trans rfl
  have hids : ∀ id id' shared, origin.orBlocked goes id shared → origin.orBlocked goes' id' shared →
      id = id' ∨ (origin.MayDraw id ∧ origin.MayDraw id') :=
    fun _ _ _ hid hid' => h.post.supplied.ids.eq_or_mayDraw h'.post.supplied.ids hid hid'
  refine ⟨hrest, hbodies, ?_, forall₂_of_common hids hplans.plans.keys hplans'.plans.keys⟩
  rw [Post.assembleAll_result, Post.assembleAll_result, hinitialized, hstreams, hbodies]

namespace ContextCopies

variable [DecidableEq ν] {s t : Schedule ν (Errand μ ρ)}

/-- Contexts are copied from one another, and however their turns are mixed, each of them becomes the
same but for drawn ids. What the source of ids still gives is all different, and none of it is an id
by which a plan is named in a turn. -/
theorem copies_do_not_interfere (root : ν) (c : Context) (site : Site α)
    (hs : Schedule.IsOrderly [root] s) (ht : Schedule.IsOrderly [root] t)
    (hown : ∀ name, Schedule.own name s = Schedule.own name t)
    (hnever : (site.supply.cursor c.plans.generator).NeverRepeats)
    (hnamed : ∀ turn ∈ s, ∀ id ∈ turn.2.id?,
      ¬ (site.supply.cursor c.plans.generator).WillGive id) :
    let first := (opened root c site).after s
    let second := (opened root c site).after t
    ∀ name, (name = root ∨ ∃ turn ∈ s, name ∈ turn.2.made) →
      ∃ w v, first.workers name = some w ∧ second.workers name = some v ∧
        Post.Agree (fun id => id ∉ c.plans.ids ∧ (site.supply.cursor c.plans.generator).WillGive id)
          ⟨w.context, first.site⟩ ⟨v.context, second.site⟩ := by
  intro first second name hname
  have hopened : (opened root c site).Follows (Post.supplied ⟨c, site⟩).origin
      (Function.update (fun _ => none) root (some (⟨c, []⟩, site))) := .opened root c site
  have hnamed' : ∀ turn ∈ t, ∀ id ∈ turn.2.id?,
      ¬ (site.supply.cursor c.plans.generator).WillGive id := by
    intro turn hturn
    apply hnamed turn
    apply Schedule.mem_own.mp
    rw [hown]
    exact Schedule.mem_own.mpr hturn
  have hfirst := hopened.after hnever hnamed name
  have hsecond := hopened.after hnever hnamed' name
  rw [← Schedule.run_eq_of_own_eq hs ht hown] at hsecond
  have hroot : ∀ name ∈ [root], ∃ w, (opened root c site).workers name = some w := by
    intro name hmem
    rw [List.mem_singleton.mp hmem]
    exact ⟨_, opened_root root c site⟩
  obtain ⟨w, hw⟩ := exists_worker_after hs hroot (hname.imp_left List.mem_singleton.mpr)
  rw [hw] at hfirst
  obtain ⟨v, other, hv, ⟨goes, hlike⟩, ⟨goes', hlike'⟩⟩ := exists_of_rel hfirst hsecond
  exact ⟨w, v, hw, hv, hlike.agree hlike'⟩

def adding (body : String) : Deed String (Errand Unit Unit) :=
  .act (.ask (.addPlan (some body) none))

/-- The copy is given another body for the plan that was added before it was made. -/
def leftFalls : Deed String (Errand Unit Unit) :=
  .act (.askAbout 0 (.updatePlan none (some "from Ticks select price insert into Falls; ")))

def dropFalls : Deed String (Errand Unit Unit) := .act (.askAbout 0 (.removePlan none))

def dropRises : Deed String (Errand Unit Unit) := .act (.ask (.removePlan (some "rises")))

def turnsInRow : Schedule String (Errand Unit Unit) :=
  [ ("main", adding "from Ticks select symbol insert into Falls; "), ("main", .copy "left"),
    ("main", adding "from Quotes select price insert into Spread; "), ("main", dropFalls),
    ("left", leftFalls), ("left", adding "from News select symbol insert into Topics; "),
    ("left", dropRises) ]

def turnsMixed : Schedule String (Errand Unit Unit) :=
  [ ("main", adding "from Ticks select symbol insert into Falls; "), ("main", .copy "left"),
    ("left", leftFalls), ("left", adding "from News select symbol insert into Topics; "),
    ("main", adding "from Quotes select price insert into Spread; "), ("left", dropRises),
    ("main", dropFalls) ]

def marketCopies (turns : Schedule String (Errand Unit Unit)) : ContextCopies String Nat :=
  (opened "main" Request.marketContext Request.marketPost.site).after turns

theorem copies_do_not_interfere_market :
    ∃ w v, (marketCopies turnsInRow).workers "left" = some w ∧
      (marketCopies turnsMixed).workers "left" = some v ∧
      Post.Agree (fun id => id ∉ ["rises", "alerts"] ∧ (Cursor.start .serial).WillGive id)
        ⟨w.context, (marketCopies turnsInRow).site⟩
        ⟨v.context, (marketCopies turnsMixed).site⟩ := by
  have hown : ∀ name, Schedule.own name turnsInRow = Schedule.own name turnsMixed := by
    intro name
    by_cases hmain : "main" = name
    · subst hmain
      simp [turnsInRow, turnsMixed, Schedule.own]
    · by_cases hleft : "left" = name
      · subst hleft
        simp [turnsInRow, turnsMixed, Schedule.own]
      · simp [turnsInRow, turnsMixed, Schedule.own, hmain, hleft]
  have hnamed : ∀ turn ∈ turnsInRow, ∀ id ∈ turn.2.id?, id = "rises" := by
    simp [turnsInRow, adding, leftFalls, dropFalls, dropRises, Deed.id?, Errand.id?, Request.id?]
  have hgiven : ¬ (Cursor.start .serial).WillGive "rises" := fun hgive =>
    absurd (Cursor.head?_of_serial_willGive hgive) (by decide)
  refine copies_do_not_interfere "main" Request.marketContext Request.marketPost.site ?_ ?_ hown
    Cursor.serial_neverRepeats ?_ "left" (Or.inr ⟨("main", .copy "left"), ?_, ?_⟩)
  · simp [turnsInRow, Schedule.IsOrderly, Deed.made, adding, leftFalls, dropFalls, dropRises]
  · simp [turnsMixed, Schedule.IsOrderly, Deed.made, adding, leftFalls, dropFalls, dropRises]
  · intro turn hturn id hid
    rw [hnamed turn hturn id hid]
    exact hgiven
  · simp [turnsInRow]
  · simp [Deed.made]

end ContextCopies

end EventOperator
