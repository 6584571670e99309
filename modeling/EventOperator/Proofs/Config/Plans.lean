import EventOperator.Config
import EventOperator.Proofs.Metrics.Key
import EventOperator.Proofs.Plan.Generation
import Mathlib.Logic.Function.Iterate

/-!
Plans that are declared one after another. Each plan without an id is an entry by itself, and plans
with one id are one entry: it stands where the first of them stands, with the body of the last one.
-/

namespace EventOperator

namespace Table

variable {κ : Type u} {ν : Type w} {α : Type v} [DecidableEq κ] [DecidableEq ν]
  {rows : List (κ × α)} {key : κ}

theorem put_map (f : κ → ν) (hf : ∀ k ∈ rows.map Prod.fst, f k = f key → k = key) (value : α) :
    put (f key) value (rows.map fun row => (f row.1, row.2)) =
      (put key value rows).map fun row => (f row.1, row.2) := by
  induction rows with
  | nil => rfl
  | cons row rest ih =>
      have hrest := ih fun k hk => hf k (List.mem_cons_of_mem _ hk)
      rw [List.map_cons, put, put]
      by_cases hkey : row.1 = key
      · rw [if_pos hkey, if_pos (congrArg f hkey), List.map_cons]
      · rw [if_neg hkey, if_neg fun heq => hkey (hf row.1 List.mem_cons_self heq), hrest,
          List.map_cons]

end Table

namespace Identity

namespace Cursor

variable {c : Cursor} {id : String}

theorem NeverRepeats.next (h : c.NeverRepeats) : c.next.2.NeverRepeats := fun m n hm hn =>
  h m n (Nat.le_of_succ_le hm) (Nat.le_of_succ_le hn)

theorem WillGive.of_next (h : c.next.2.WillGive id) : c.WillGive id := by
  obtain ⟨n, hn, hid⟩ := h
  exact ⟨n, Nat.le_of_succ_le hn, hid⟩

end Cursor

theorem Supply.move_move (s : Supply) (generator : Generator) (c other : Cursor) :
    (s.move generator c).move generator other = s.move generator other := by
  cases generator <;> rfl

end Identity

namespace Plan

open Identity

/-- An entry of declared plans: the place among those without an id, or an id. -/
abbrev Key := Nat ⊕ String

namespace Declaration

/-- The key of a declared plan, if so many without an id come before it. -/
def key (n : Nat) (plan : Declaration) : Key := plan.id?.elim (.inl n) .inr

def countUnnamed (plans : List Declaration) : Nat := plans.countP fun plan => plan.id?.isNone

def keyed : Nat → List Declaration → List (Key × String)
  | _, [] => []
  | n, plan :: rest => (plan.key n, plan.text) :: keyed (n + countUnnamed [plan]) rest

def Apart (c : Cursor) (plan : Declaration) : Prop :=
  ∀ id, plan.id? = some id → ¬ c.WillGive id

theorem countUnnamed_cons (plan : Declaration) (rest : List Declaration) :
    countUnnamed (plan :: rest) = countUnnamed [plan] + countUnnamed rest := by
  rw [countUnnamed, ← List.singleton_append, List.countP_append]
  rfl

end Declaration

open Declaration

/-- Plans without an id take the ids that come next. -/
def Key.id (c : Cursor) : Key → String
  | .inl n => c.source.ids (c.position + n)
  | .inr id => id

variable {start : Supply} {generator : Generator} {t : Table Key String} {n : Nat}
  {d : SuppliedRegistry}

/-- A registry has the collected entries, of which the given number were declared without an id. -/
structure SuppliedRegistry.Holds (d : SuppliedRegistry) (start : Supply) (generator : Generator)
    (n : Nat) (t : Table Key String) : Prop where
  rows : d.registry.plans.rows = t.rows.map fun row => (row.1.id (start.cursor generator), row.2)
  generator_eq : d.registry.generator = generator
  supply : d.supply = start.move generator
    ⟨(start.cursor generator).source, (start.cursor generator).position + n⟩
  below : ∀ m, .inl m ∈ t.keys → m < n
  apart : ∀ id, .inr id ∈ t.keys → ¬ (start.cursor generator).WillGive id

namespace SuppliedRegistry.Holds

theorem opened (supply : Supply) (generator : Generator) :
    SuppliedRegistry.Holds ⟨.empty generator, supply⟩ supply generator 0 ∅ where
  rows := rfl
  generator_eq := rfl
  supply := by cases generator <;> rfl
  below _ hm := nomatch hm
  apart _ hid := nomatch hid

theorem cursor_eq (h : d.Holds start generator n t) :
    d.cursor = ⟨(start.cursor generator).source, (start.cursor generator).position + n⟩ := by
  rw [cursor, h.generator_eq, h.supply, Supply.cursor_move_self]

theorem id_injective (h : d.Holds start generator n t)
    (hnever : (start.cursor generator).NeverRepeats) {k key : Key} (hk : k ∈ t.keys)
    (hkey : ∀ id, key = .inr id → ¬ (start.cursor generator).WillGive id)
    (heq : k.id (start.cursor generator) = key.id (start.cursor generator)) : k = key := by
  cases k with
  | inl m =>
      cases key with
      | inl m' =>
          have hplace := hnever _ _ (Nat.le_add_right _ m) (Nat.le_add_right _ m') heq
          rw [Nat.add_left_cancel hplace]
      | inr id => exact absurd ⟨_, Nat.le_add_right _ m, heq⟩ (hkey id rfl)
  | inr id =>
      cases key with
      | inl m => exact absurd ⟨_, Nat.le_add_right _ m, heq.symm⟩ (h.apart id hk)
      | inr id' => exact congrArg Sum.inr heq

theorem ids_eq (h : d.Holds start generator n t) :
    d.registry.ids = t.keys.map (Key.id (start.cursor generator)) := by
  rw [Registry.ids, Table.keys, h.rows, List.map_map, Table.keys, List.map_map]
  rfl

theorem next_untaken (h : d.Holds start generator n t)
    (hnever : (start.cursor generator).NeverRepeats) :
    d.cursor.source.ids d.cursor.position ∉ d.registry.ids := by
  rw [h.cursor_eq, h.ids_eq]
  intro hmem
  obtain ⟨k, hk, heq⟩ := List.mem_map.mp hmem
  have hkey : k = .inl n := h.id_injective hnever hk nofun heq
  exact absurd (h.below n (hkey ▸ hk)) (Nat.lt_irrefl n)

theorem stored (h : d.Holds start generator n t)
    (hnever : (start.cursor generator).NeverRepeats) (key : Key) (next : Nat) (body : String)
    (hkey : ∀ id, key = .inr id → ¬ (start.cursor generator).WillGive id)
    (hbelow : ∀ m, key = .inl m → m < next) (hnext : n ≤ next) :
    SuppliedRegistry.Holds
      ⟨d.registry.store (key.id (start.cursor generator)) body,
        start.move generator
          ⟨(start.cursor generator).source, (start.cursor generator).position + next⟩⟩
      start generator next (t.insert key body) where
  rows := by
    have hrows : (d.registry.store (key.id (start.cursor generator)) body).plans.rows =
        Table.put (key.id (start.cursor generator)) body d.registry.plans.rows := rfl
    rw [hrows, h.rows]
    exact Table.put_map (Key.id (start.cursor generator))
      (fun k hk heq => h.id_injective hnever hk hkey heq) body
  generator_eq := h.generator_eq
  supply := rfl
  below m hm := by
    rcases Table.mem_keys_insert.mp hm with heq | hold
    · exact hbelow m heq.symm
    · exact Nat.lt_of_lt_of_le (h.below m hold) hnext
  apart id hid := by
    rcases Table.mem_keys_insert.mp hid with heq | hold
    · exact hkey id heq.symm
    · exact h.apart id hold

theorem add (h : d.Holds start generator n t) (hnever : (start.cursor generator).NeverRepeats)
    {plan : Declaration} (hplan : plan.Apart (start.cursor generator)) :
    ∃ d', (SuppliedRegistry.add (some plan.text) plan.id?).Ends d
        (.ok ((plan.key n).id (start.cursor generator))) d' ∧
      d'.registry.initialized = true ∧
      d'.Holds start generator (n + countUnnamed [plan]) (t.insert (plan.key n) plan.text) := by
  cases hid : plan.id? with
  | some id =>
      have hkey : plan.key n = .inr id := by rw [Declaration.key, hid, Option.elim_some]
      have hcount : countUnnamed [plan] = 0 := by simp [countUnnamed, hid]
      have hstored := h.stored hnever (.inr id) n plan.text
        (fun other heq => Sum.inr.inj heq ▸ hplan id hid) nofun (Nat.le_refl n)
      rw [hkey, hcount]
      refine ⟨_, ⟨rfl, ?_⟩, rfl, hstored⟩
      rw [← h.supply]
      rfl
  | none =>
      have hkey : plan.key n = .inl n := by rw [Declaration.key, hid, Option.elim_none]
      have hcount : countUnnamed [plan] = 1 := by simp [countUnnamed, hid]
      have hstored := h.stored hnever (.inl n) (n + 1) plan.text nofun
        (fun m heq => Sum.inl.inj heq ▸ Nat.lt_succ_self n) (Nat.le_succ n)
      obtain ⟨place, hfirst, hadd⟩ := d.add_none_eq plan.text
      obtain rfl := hfirst.unique (.here (h.next_untaken hnever))
      rw [hkey, hcount]
      refine ⟨_, ⟨?_, ?_⟩, rfl, hstored⟩
      · rw [hadd, h.cursor_eq]
        rfl
      · rw [hadd, h.generator_eq, h.cursor_eq, h.supply, Supply.move_move]
        rfl

end SuppliedRegistry.Holds

end Plan

namespace Metrics.Collector

variable {α : Type} [OfNat α 0] [OfNat α 1] [Add α] (c : Collector α) (context : String) (n : Int)

theorem counter_planAdded :
    (c.planAdded context n).counter plansAdded (contextLabels context) =
      c.counter plansAdded (contextLabels context) + 1 :=
  (c.counter_increment 1).trans (if_pos rfl)

theorem gauge_planAdded :
    (c.planAdded context n).gauge plansRegistered (contextLabels context) = .whole n :=
  (Collector.gauge_setGauge _ (.whole n)).trans (if_pos rfl)

end Metrics.Collector

namespace Post

open Plan Plan.Declaration Identity Metrics

variable {α : Type} [OfNat α 0] [OfNat α 1] [Add α] {p : Post α}

def counted (d : SuppliedRegistry) (p : Post α) : Post α :=
  { p.setSupplied d with
    site.metrics := p.site.metrics.planAdded p.context.id d.registry.plans.size }

theorem addPlan_ends {body? id? : Option String} {id : String} {d : SuppliedRegistry}
    (h : (SuppliedRegistry.add body? id?).Ends p.supplied (.ok id) d) :
    (addPlan body? id?).Ends p (.ok id) (p.counted d) := h.on.bind ⟨rfl, rfl⟩

def ShowsLevel (p : Post α) : Prop :=
  p.site.metrics.gauge Collector.plansRegistered (Collector.contextLabels p.context.id) =
    .whole p.context.plans.plans.size

def added (p : Post α) : α :=
  p.site.metrics.counter Collector.plansAdded (Collector.contextLabels p.context.id)

/-- What the addition of all plans leaves behind, apart from the plans. -/
structure Adds (plans : List Declaration) (p p' : Post α) : Prop where
  context_eq : p'.context = { p.context with plans := p'.context.plans }
  added_eq : p'.added = (· + 1)^[plans.length] p.added
  level : plans ≠ [] ∨ p.ShowsLevel → p'.ShowsLevel
  initialized : plans ≠ [] ∨ p.context.plans.initialized = true →
    p'.context.plans.initialized = true
  nothing : plans = [] → p' = p

namespace Adds

variable {p' last : Post α} {plan : Declaration} {plans : List Declaration}

theorem refl (p : Post α) : Adds [] p p where
  context_eq := rfl
  added_eq := rfl
  level h := h.resolve_left fun hne => hne rfl
  initialized h := h.resolve_left fun hne => hne rfl
  nothing _ := rfl

theorem one {d : SuppliedRegistry} (hd : d.registry.initialized = true) :
    Adds [plan] p (p.counted d) where
  context_eq := rfl
  added_eq := p.site.metrics.counter_planAdded p.context.id d.registry.plans.size
  level _ := p.site.metrics.gauge_planAdded p.context.id d.registry.plans.size
  initialized _ := hd
  nothing h := nomatch h

theorem cons (h : Adds [plan] p p') (hrest : Adds plans p' last) : Adds (plan :: plans) p last where
  context_eq := by
    rw [hrest.context_eq, h.context_eq]
  added_eq := by
    rw [hrest.added_eq, h.added_eq, List.length_cons, Function.iterate_succ_apply]
    rfl
  level _ := hrest.level (Or.inr (h.level (Or.inl (List.cons_ne_nil _ _))))
  initialized _ := hrest.initialized (Or.inr (h.initialized (Or.inl (List.cons_ne_nil _ _))))
  nothing hnil := nomatch hnil

end Adds

theorem addPlans_ends {start : Supply} {generator : Generator} {t : Table Plan.Key String} {n : Nat}
    (h : p.supplied.Holds start generator n t) (hnever : (start.cursor generator).NeverRepeats)
    {plans : List Declaration} (hplans : ∀ plan ∈ plans, plan.Apart (start.cursor generator)) :
    ∃ p' : Post α,
      (plans.forM fun plan => discard (addPlan (some plan.text) plan.id?) :
        Operation (Post α) PUnit).Ends p (.ok ⟨⟩) p' ∧
      p'.supplied.Holds start generator (n + countUnnamed plans) (t.insertAll (keyed n plans)) ∧
      Adds plans p p' := by
  induction plans generalizing p n t with
  | nil => exact ⟨p, ⟨rfl, rfl⟩, h, .refl p⟩
  | cons plan rest ih =>
      obtain ⟨d, hadd, hinitialized, hd⟩ := h.add hnever (hplans plan List.mem_cons_self)
      have hdiscard : (discard (addPlan (some plan.text) plan.id?) :
          Operation (Post α) PUnit).Ends p (.ok ⟨⟩) (p.counted d) :=
        (addPlan_ends hadd).bind ⟨rfl, rfl⟩
      have hholds : (p.counted d).supplied.Holds start generator (n + countUnnamed [plan])
          (t.insert (plan.key n) plan.text) := hd
      obtain ⟨p', hends, hholds, hrest⟩ := ih hholds fun later hlater =>
        hplans later (List.mem_cons_of_mem _ hlater)
      refine ⟨p', hdiscard.bind hends, ?_, (Adds.one hinitialized).cons hrest⟩
      rw [countUnnamed_cons, ← Nat.add_assoc]
      exact hholds

end Post

end EventOperator
