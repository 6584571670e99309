import EventOperator.Proofs.Plan.Call
import EventOperator.Proofs.Renaming

/-!
Registries that are alike but for the ids that were drawn for them. If the same call is made on two
such registries, about plans that go with each other, they stay alike: an id that one of them draws
goes with the one that is drawn at the other.
-/

namespace EventOperator.Plan

open Identity

variable {goes wider : String → String → Prop}

theorem Registry.mem_ids_store {r : Registry} {id : String} (h : id ∈ r.ids) (other body : String) :
    id ∈ (r.store other body).ids := by
  rw [ids, store, Table.keys_insert]
  split
  · exact h
  · exact List.mem_append_left _ h

theorem Registry.mem_ids_discard {r : Registry} {id other : String} (h : id ∈ r.ids)
    (hne : id ≠ other) : id ∈ (r.discard other).ids := by
  rw [ids, discard, Table.keys_erase, List.mem_filter]
  exact ⟨h, decide_eq_true hne⟩

structure Registry.Alike (goes : String → String → Prop) (r other : Registry) : Prop where
  plans : r.plans.Alike goes other.plans
  initialized : r.initialized = other.initialized
  generator : r.generator = other.generator

namespace Registry.Alike

variable {r r' : Registry} {id other : String}

theorem mono (h : r.Alike goes r') (hwider : ∀ id other, goes id other → wider id other) :
    r.Alike wider r' :=
  ⟨h.plans.mono hwider, h.initialized, h.generator⟩

theorem marked (h : r.Alike goes r') : r.markInitialized.Alike goes r'.markInitialized :=
  ⟨h.plans, rfl, h.generator⟩

variable (hunique : Relator.BiUnique goes)
include hunique

theorem stored (h : r.Alike goes r') (hid : goes id other) (body : String) :
    (r.store id body).Alike goes (r'.store other body) :=
  ⟨h.plans.insert hunique hid body, rfl, h.generator⟩

theorem discarded (h : r.Alike goes r') (hid : goes id other) :
    (r.discard id).Alike goes (r'.discard other) :=
  ⟨h.plans.erase hunique hid, h.initialized, h.generator⟩

end Registry.Alike

namespace Call

def id? : Call → Option String
  | mark => none
  | add _ id? => id?
  | update id? _ => id?
  | remove id? => id?

/-- The same call about another plan. -/
def about (id? : Option String) : Call → Call
  | mark => mark
  | add body? _ => add body? id?
  | update _ body? => update id? body?
  | remove _ => remove id?

theorem about_id? (call : Call) : call.about call.id? = call := by
  cases call <;> rfl

def stored? : Except Fault Answer → Option String
  | .ok (.stored id) => some id
  | _ => none

end Call

namespace SuppliedRegistry

def cursor (d : SuppliedRegistry) : Cursor := d.supply.cursor d.registry.generator

theorem exists_add_none_eq (d : SuppliedRegistry) (body : String) :
    ∃ n, d.cursor.position ≤ n ∧ d.cursor.source.ids n ∉ d.registry.ids ∧
      add (some body) none d =
        ⟨.ok (d.cursor.source.ids n),
          ⟨d.registry.store (d.cursor.source.ids n) body,
            d.supply.move d.registry.generator ⟨d.cursor.source, n + 1⟩⟩, []⟩ := by
  obtain ⟨n, hn, hnew, hfresh⟩ := d.cursor.exists_nextFresh_eq d.registry.ids
  refine ⟨n, hn, hnew, ?_⟩
  have hadd : add (some body) none d =
      ⟨.ok (d.cursor.nextFresh d.registry.ids).1,
        ⟨d.registry.store (d.cursor.nextFresh d.registry.ids).1 body,
          d.supply.move d.registry.generator (d.cursor.nextFresh d.registry.ids).2⟩, []⟩ := rfl
  rw [hadd, hfresh]

/-! Registries that draw from the same source, at their own places. -/

/-- Plans with blocked ids are still there. -/
structure Alike (origin : Origin) (goes : String → String → Prop) (d other : SuppliedRegistry) :
    Prop where
  registry : d.registry.Alike (origin.orBlocked goes) other.registry
  source : d.cursor.source = origin.cursor.source
  source_other : other.cursor.source = origin.cursor.source
  blocked : ∀ id, origin.IsBlocked id → id ∈ d.registry.ids
  ids : Renaming origin d.cursor.position other.cursor.position goes

def origin (d : SuppliedRegistry) : Origin := ⟨d.cursor, d.registry.ids⟩

namespace Alike

variable {origin : Origin} {d d' : SuppliedRegistry} {id other : String} {m n : Nat}

theorem start (d : SuppliedRegistry) :
    Alike d.origin (fun id other => id = other ∧ ¬ d.cursor.WillGive id) d d where
  registry := by
    refine ⟨List.forall₂_same.mpr fun row hrow => ⟨?_, rfl⟩, rfl, rfl⟩
    by_cases hgive : d.cursor.WillGive row.1
    · exact Or.inr ⟨rfl, List.mem_map.mpr ⟨row, hrow, rfl⟩, hgive⟩
    · exact Or.inl ⟨rfl, hgive⟩
  source := rfl
  source_other := rfl
  blocked _ h := h.1
  ids := .start d.origin

theorem blocked_other (h : Alike origin goes d d') (hid : origin.IsBlocked id) :
    id ∈ d'.registry.ids :=
  (List.rel_mem h.ids.orBlocked_unique (Or.inr ⟨rfl, hid⟩) h.registry.plans.keys).mp
    (h.blocked id hid)

theorem later (h : Alike origin goes d d') {supply supply' : Supply}
    (hlater : supply.IsLater d.supply) (hlater' : supply'.IsLater d'.supply) :
    Alike origin goes (d.setSupply supply) (d'.setSupply supply') where
  registry := h.registry
  source := (hlater _).1.trans h.source
  source_other := (hlater' _).1.trans h.source_other
  blocked := h.blocked
  ids := h.ids.later (hlater _).2 (hlater' _).2

theorem marked (h : Alike origin goes d d') :
    Alike origin goes (d.setRegistry d.registry.markInitialized)
      (d'.setRegistry d'.registry.markInitialized) :=
  ⟨h.registry.marked, h.source, h.source_other, h.blocked, h.ids⟩

theorem stored (h : Alike origin goes d d') (hid : goes id other) (body : String) :
    Alike origin goes (d.setRegistry (d.registry.store id body))
      (d'.setRegistry (d'.registry.store other body)) where
  registry := h.registry.stored h.ids.orBlocked_unique (Or.inl hid) body
  source := h.source
  source_other := h.source_other
  blocked found hfound := Registry.mem_ids_store (h.blocked found hfound) id body
  ids := h.ids

theorem discarded (h : Alike origin goes d d') (hid : goes id other) :
    Alike origin goes (d.setRegistry (d.registry.discard id))
      (d'.setRegistry (d'.registry.discard other)) where
  registry := h.registry.discarded h.ids.orBlocked_unique (Or.inl hid)
  source := h.source
  source_other := h.source_other
  blocked found hfound := by
    refine Registry.mem_ids_discard (h.blocked found hfound) ?_
    rintro rfl
    exact h.ids.not_isBlocked hid hfound
  ids := h.ids

theorem drawn (h : Alike origin goes d d') (hnever : origin.cursor.NeverRepeats) (body : String)
    (hm : d.cursor.position ≤ m) (hmnew : origin.cursor.source.ids m ∉ d.registry.ids)
    (hn : d'.cursor.position ≤ n) (hnnew : origin.cursor.source.ids n ∉ d'.registry.ids) :
    Alike origin (joined goes (origin.cursor.source.ids m) (origin.cursor.source.ids n))
      ⟨d.registry.store (origin.cursor.source.ids m) body,
        d.supply.move d.registry.generator ⟨origin.cursor.source, m + 1⟩⟩
      ⟨d'.registry.store (origin.cursor.source.ids n) body,
        d'.supply.move d'.registry.generator ⟨origin.cursor.source, n + 1⟩⟩ := by
  have hmtaken : origin.cursor.source.ids m ∉ origin.taken := fun htaken =>
    hmnew (h.blocked _ ⟨htaken, m, Nat.le_trans h.ids.here_le hm, rfl⟩)
  have hntaken : origin.cursor.source.ids n ∉ origin.taken := fun htaken =>
    hnnew (h.blocked_other ⟨htaken, n, Nat.le_trans h.ids.there_le hn, rfl⟩)
  have hids := h.ids.drawn hnever hm hmtaken hn hntaken
  have hregistry : d.registry.Alike
      (origin.orBlocked (joined goes (origin.cursor.source.ids m) (origin.cursor.source.ids n)))
      d'.registry := h.registry.mono fun _ _ hgoes => hgoes.imp_left Or.inl
  constructor
  · exact hregistry.stored hids.orBlocked_unique (Or.inl (Or.inr ⟨rfl, rfl⟩)) body
  · simp [cursor, Registry.store]
  · simp [cursor, Registry.store]
  · exact fun found hfound => Registry.mem_ids_store (h.blocked found hfound) _ body
  · simpa [cursor, Registry.store] using hids

end Alike

end SuppliedRegistry

namespace Call

variable {origin : Origin} {d d' : SuppliedRegistry} {id? other? : Option String}

theorem perform_add_none (d : SuppliedRegistry) (body : String) :
    ∃ n, d.cursor.position ≤ n ∧ d.cursor.source.ids n ∉ d.registry.ids ∧
      stored? ((add (some body) none).perform d).result = some (d.cursor.source.ids n) ∧
        ((add (some body) none).perform d).state =
          ⟨d.registry.store (d.cursor.source.ids n) body,
            d.supply.move d.registry.generator ⟨d.cursor.source, n + 1⟩⟩ := by
  obtain ⟨n, hn, hnew, hadd⟩ := d.exists_add_none_eq body
  have hresult : (SuppliedRegistry.add (some body) none d).result =
      .ok (d.cursor.source.ids n) := by rw [hadd]
  refine ⟨n, hn, hnew, ?_⟩
  rw [perform, Operation.bind_of_ok hresult, hadd]
  exact ⟨rfl, rfl⟩

theorem perform_remove_some (d : SuppliedRegistry) (id : String) :
    stored? ((remove (some id)).perform d).result = none ∧
      ((remove (some id)).perform d).state = d.setRegistry (d.registry.discard id) := by
  have hremove := d.remove_some id
  have hresult : (SuppliedRegistry.remove (some id) d).result =
      .ok (d.registry.plans.contains id) := by
    rw [hremove]
  rw [perform, Operation.bind_of_ok hresult, hremove]
  exact ⟨rfl, rfl⟩

theorem perform_isLater (call : Call) (d : SuppliedRegistry) :
    (call.perform d).state.supply.IsLater d.supply := by
  cases call with
  | mark => exact .refl _
  | add body? id? =>
      cases body? with
      | none => exact .refl _
      | some body =>
          cases id? with
          | some id => exact .refl _
          | none =>
              obtain ⟨n, hn, -, -, hstate⟩ := perform_add_none d body
              rw [hstate]
              exact d.supply.isLater_move _ (Nat.le_succ_of_le hn)
  | update id? body? =>
      cases id? with
      | none => exact .refl _
      | some id => cases body? <;> exact .refl _
  | remove id? =>
      cases id? with
      | none => exact .refl _
      | some id =>
          rw [(perform_remove_some d id).2]
          exact .refl _

/-- After a call two registries are alike, and so is what was answered. -/
def LeavesAlike (origin : Origin) (goes : String → String → Prop)
    (outcome other : Outcome SuppliedRegistry Answer) : Prop :=
  outcome.state.Alike origin goes other.state ∧
    Option.Rel goes (stored? outcome.result) (stored? other.result)

theorem draw_leavesAlike (hnever : origin.cursor.NeverRepeats) (h : d.Alike origin goes d')
    (body : String) :
    ∃ wider : String → String → Prop, (∀ id other, goes id other → wider id other) ∧
      LeavesAlike origin wider ((add (some body) none).perform d)
        ((add (some body) none).perform d') := by
  obtain ⟨m, hm, hmnew, hanswer, hstate⟩ := perform_add_none d body
  obtain ⟨n, hn, hnnew, hanswer', hstate'⟩ := perform_add_none d' body
  rw [h.source] at hmnew hanswer hstate
  rw [h.source_other] at hnnew hanswer' hstate'
  refine ⟨joined goes (origin.cursor.source.ids m) (origin.cursor.source.ids n),
    fun _ _ hgoes => Or.inl hgoes, ?_, ?_⟩
  · rw [hstate, hstate']
    exact h.drawn hnever body hm hmnew hn hnnew
  · rw [hanswer, hanswer']
    exact .some (Or.inr ⟨rfl, rfl⟩)

theorem perform_leavesAlike (hnever : origin.cursor.NeverRepeats) (h : d.Alike origin goes d')
    (hid : Option.Rel goes id? other?) (call : Call) :
    ∃ wider : String → String → Prop, (∀ id other, goes id other → wider id other) ∧
      LeavesAlike origin wider ((call.about id?).perform d) ((call.about other?).perform d') := by
  have hsame : ∀ id other, goes id other → goes id other := fun _ _ hgoes => hgoes
  have hunchanged : d.Alike origin goes d' ∧ Option.Rel goes none none := ⟨h, .none⟩
  cases call with
  | mark => exact ⟨goes, hsame, h.marked, .none⟩
  | add body? _ =>
      cases body? with
      | none => exact ⟨goes, hsame, hunchanged⟩
      | some body =>
          cases hid with
          | some hid => exact ⟨goes, hsame, h.stored hid body, .some hid⟩
          | none => exact draw_leavesAlike hnever h body
  | update _ body? =>
      cases hid with
      | none => exact ⟨goes, hsame, hunchanged⟩
      | some hid =>
          cases body? with
          | none => exact ⟨goes, hsame, hunchanged⟩
          | some body => exact ⟨goes, hsame, h.stored hid body, .none⟩
  | remove _ =>
      cases hid with
      | none => exact ⟨goes, hsame, hunchanged⟩
      | @some id other hid =>
          obtain ⟨hanswer, hstate⟩ := perform_remove_some d id
          obtain ⟨hanswer', hstate'⟩ := perform_remove_some d' other
          refine ⟨goes, hsame, ?_, ?_⟩
          · rw [about, about, hstate, hstate']
            exact h.discarded hid
          · rw [about, about, hanswer, hanswer']
            exact .none

end Call

end EventOperator.Plan
