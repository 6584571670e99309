import EventOperator.Proofs.Extensions
import EventOperator.Proofs.Renaming
import Mathlib.Data.List.DropRight

/-!
Calls on a manager that keeps what it is given, and what the manager has gone through after many of
them. All that it has can be told from that.
-/

namespace EventOperator

namespace Identity

/-- The id has been drawn between two places of a source. -/
def Supply.HasGiven (start supply : Supply) (id : String) : Prop :=
  ∃ n, start.shared.position ≤ n ∧ n < supply.shared.position ∧ start.shared.source.ids n = id

theorem Supply.HasGiven.later {start supply later : Supply} {id : String}
    (h : start.HasGiven supply id) (hlater : later.IsLater supply) : start.HasGiven later id := by
  obtain ⟨n, hstart, hsupply, hid⟩ := h
  exact ⟨n, hstart, Nat.lt_of_lt_of_le hsupply (hlater .shared).2, hid⟩

end Identity

namespace Engine

open Extension Identity Operation

inductive Call where
  | register (name? : Option String) (h : Handle)
  | run (program? : Option String)
  | stop

/-- What a manager goes through. An accepted program comes with the runtime that was answered. -/
inductive Event where
  | built (registry : Extension.Registry)
  | registered (name : String) (h : Handle)
  | accepted (program : String) (runtime : Runtime)
  | stopped

namespace Event

def registration? : Event → Option (String × Handle)
  | registered name h => some (name, h)
  | _ => none

def acceptance? : Event → Option (String × Runtime)
  | accepted program runtime => some (program, runtime)
  | _ => none

def isStop : Event → Bool
  | stopped => true
  | _ => false

end Event

def registrations (events : List Event) : List (String × Handle) :=
  events.filterMap Event.registration?

def acceptances (events : List Event) : List (String × Runtime) :=
  events.filterMap Event.acceptance?

def sinceStop (events : List Event) : List Event := events.rtakeWhile fun e => !e.isStop

namespace Call

def perform : Call → Operation (InMemory × Supply) (Option Runtime)
  | register name? h => do
      let (m, supply) ← Operation.read
      Operation.write (← Operation.ofExcept (m.register name? h), supply)
      return none
  | run program? => return some (← InMemory.run program?)
  | stop => do
      Operation.change fun (m, supply) => (InMemory.kind.shutdown m, supply)
      return none

def IsComplete : Call → Prop
  | register name? h => name?.isSome ∧ h.isAbsent = false
  | run program? => program?.isSome
  | stop => True

def event? : Call → Option Runtime → Option Event
  | register (some name) h, _ => some (.registered name h)
  | run (some program), some runtime => some (.accepted program runtime)
  | stop, _ => some .stopped
  | _, _ => none

def eventAt? (call : Call) (s : InMemory × Supply) : Option Event :=
  (call.perform s).result.toOption.bind call.event?

variable {call : Call} {m : InMemory} {supply : Supply} {name program : String} {h : Handle}

theorem perform_register (hthere : h.isAbsent = false) :
    (register (some name) h).perform (m, supply) =
      ⟨.ok none, ({ m with extensions := m.extensions.insert name h }, supply), []⟩ := by
  have hregister : m.register (some name) h =
      .ok { m with extensions := m.extensions.insert name h } := by
    rw [InMemory.register, hthere]
    rfl
  rw [perform, read_bind]
  dsimp only
  rw [hregister]
  rfl

theorem perform_run (m : InMemory) (supply : Supply) (program : String) :
    let id := supply.shared.source.ids supply.shared.position
    let runtime : Runtime := ⟨id, program, m.extensions.keys⟩
    let s : InMemory × Supply := (m.accept runtime,
      supply.move .shared ⟨supply.shared.source, supply.shared.position + 1⟩)
    ((run (some program)).perform (m, supply)).result = .ok (some runtime) ∧
      ((run (some program)).perform (m, supply)).state = s :=
  ⟨rfl, rfl⟩

theorem perform_of_incomplete (hcall : ¬ call.IsComplete) (s : InMemory × Supply) :
    ∃ fault, call.perform s = ⟨.error fault, s, []⟩ := by
  cases call with
  | register name? h =>
      cases name? with
      | none => exact ⟨_, rfl⟩
      | some name =>
          have habsent : h.isAbsent = true := by simpa [IsComplete] using hcall
          refine ⟨.nullArgument "handle", ?_⟩
          have hregister : s.1.register (some name) h = .error (.nullArgument "handle") := by
            rw [InMemory.register, habsent]
            rfl
          rw [perform, read_bind]
          dsimp only
          rw [hregister]
          rfl
  | run program? =>
      cases program? with
      | none => exact ⟨_, rfl⟩
      | some program => exact absurd rfl hcall
  | stop => exact absurd trivial hcall

theorem eventAt?_ne_built (call : Call) (s : InMemory × Supply)
    (registry : Extension.Registry) : call.eventAt? s ≠ some (.built registry) := by
  intro hevent
  obtain ⟨answer, -, hbuilt⟩ := Option.bind_eq_some_iff.mp hevent
  cases call with
  | register name? h => cases name? <;> cases hbuilt
  | run program? => cases program? <;> cases answer <;> cases hbuilt
  | stop => cases hbuilt

theorem isComplete_iff (s : InMemory × Supply) :
    call.IsComplete ↔ (call.eventAt? s).isSome = true := by
  constructor
  · intro hcall
    cases call with
    | register name? h =>
        obtain ⟨hname, hthere⟩ := hcall
        obtain ⟨name, rfl⟩ := Option.isSome_iff_exists.mp hname
        rw [eventAt?, perform_register hthere]
        rfl
    | run program? =>
        obtain ⟨program, rfl⟩ := Option.isSome_iff_exists.mp hcall
        rfl
    | stop => rfl
  · intro hevent
    by_contra hcall
    obtain ⟨fault, hperform⟩ := perform_of_incomplete hcall s
    rw [eventAt?, hperform] at hevent
    exact nomatch hevent

end Call

section

variable {events : List Event} {e : Event}

theorem registrations_concat (events : List Event) (e : Event) :
    registrations (events ++ [e]) = registrations events ++ e.registration?.toList := by
  rw [registrations, List.filterMap_append]
  cases e <;> rfl

theorem acceptances_concat (events : List Event) (e : Event) :
    acceptances (events ++ [e]) = acceptances events ++ e.acceptance?.toList := by
  rw [acceptances, List.filterMap_append]
  cases e <;> rfl

theorem acceptances_concat_of_none (h : e.acceptance? = none) :
    acceptances (events ++ [e]) = acceptances events := by
  rw [acceptances_concat, h, Option.toList_none, List.append_nil]

theorem sinceStop_concat (events : List Event) (e : Event) :
    sinceStop (events ++ [e]) = if e.isStop then [] else sinceStop events ++ [e] := by
  rw [sinceStop, List.rtakeWhile_concat]
  cases e.isStop <;> rfl

theorem acceptances_subset_of_sinceStop {row : String × Runtime}
    (h : row ∈ acceptances (sinceStop events)) : row ∈ acceptances events :=
  ((List.rtakeWhile_suffix _ _).sublist.filterMap _).subset h

end

/-! What can be told of a manager that has been built and has gone through the events since. -/

structure InMemory.HasHistory (m : InMemory) (registry : Extension.Registry)
    (events : List Event) : Prop where
  extensions : m.extensions = registry.insertAll (registrations events)
  runtimes : m.runtimes.values = (acceptances (sinceStop events)).map Prod.snd
  programs : ∀ row ∈ acceptances events, row.2.program = row.1
  nodup : ((acceptances events).map fun row => row.2.id).Nodup
  growing : (acceptances events).Pairwise fun row later =>
    row.2.extensions <+: later.2.extensions
  current : ∀ row ∈ acceptances events, row.2.extensions <+: m.extensions.keys

/-- The runtimes are kept under their ids, which have been drawn from the supply. -/
structure InMemory.Follows (m : InMemory) (start supply : Supply) (registry : Extension.Registry)
    (events : List Event) : Prop extends m.HasHistory registry events where
  keyed : ∀ row ∈ m.runtimes.rows, row.1 = row.2.id
  given : ∀ row ∈ acceptances events, start.HasGiven supply row.2.id

namespace InMemory.Follows

variable {m : InMemory} {start supply : Supply} {registry : Extension.Registry}
  {events : List Event}

theorem built (start supply : Supply) (registry : Extension.Registry) :
    (⟨registry, ∅⟩ : InMemory).Follows start supply registry [] where
  extensions := rfl
  runtimes := rfl
  programs _ hrow := nomatch hrow
  nodup := List.nodup_nil
  growing := List.Pairwise.nil
  current _ hrow := nomatch hrow
  keyed _ hrow := nomatch hrow
  given _ hrow := nomatch hrow

theorem later (h : m.Follows start supply registry events) {later : Supply}
    (hlater : later.IsLater supply) : m.Follows start later registry events where
  toHasHistory := h.toHasHistory
  keyed := h.keyed
  given row hrow := (h.given row hrow).later hlater

theorem unaccepted {m' : InMemory} {e : Event} (h : m.Follows start supply registry events)
    (he : e.acceptance? = none)
    (hextensions : m'.extensions = registry.insertAll (registrations (events ++ [e])))
    (hnames : m.extensions.keys <+: m'.extensions.keys)
    (hruntimes : m'.runtimes.values = (acceptances (sinceStop (events ++ [e]))).map Prod.snd)
    (hkeyed : ∀ row ∈ m'.runtimes.rows, row.1 = row.2.id) :
    m'.Follows start supply registry (events ++ [e]) := by
  have hsame : acceptances (events ++ [e]) = acceptances events := acceptances_concat_of_none he
  refine ⟨⟨hextensions, hruntimes, ?_, ?_, ?_, ?_⟩, hkeyed, ?_⟩
  all_goals rw [hsame]
  · exact h.programs
  · exact h.nodup
  · exact h.growing
  · exact fun row hrow => (h.current row hrow).trans hnames
  · exact h.given

theorem registered (h : m.Follows start supply registry events) (name : String)
    (handle : Handle) :
    ({ m with extensions := m.extensions.insert name handle } : InMemory).Follows start supply
      registry (events ++ [.registered name handle]) := by
  refine h.unaccepted rfl ?_ (Table.keys_prefix_insert _ _ _) ?_ h.keyed
  · have hmore : registrations (events ++ [.registered name handle]) =
        registrations events ++ [(name, handle)] := registrations_concat _ _
    rw [hmore, Table.insertAll_append, ← h.extensions]
    rfl
  · have hmore : sinceStop (events ++ [.registered name handle]) =
        sinceStop events ++ [.registered name handle] := sinceStop_concat _ _
    rw [hmore, acceptances_concat_of_none rfl]
    exact h.runtimes

theorem stopped (h : m.Follows start supply registry events) :
    (kind.shutdown m).Follows start supply registry (events ++ [.stopped]) := by
  refine h.unaccepted rfl ?_ List.prefix_rfl ?_ fun row hrow => nomatch hrow
  · have hmore : registrations (events ++ [.stopped]) = registrations events ++ [] :=
      registrations_concat _ _
    rw [hmore, List.append_nil]
    exact h.extensions
  · have hmore : sinceStop (events ++ [.stopped]) = [] := sinceStop_concat _ _
    rw [hmore]
    rfl

theorem id_ne_next (h : m.Follows start supply registry events) (hlater : supply.IsLater start)
    (hnever : start.shared.NeverRepeats) {row : String × Runtime}
    (hrow : row ∈ acceptances events) :
    row.2.id ≠ supply.shared.source.ids supply.shared.position := by
  intro heq
  obtain ⟨hsource, hposition⟩ : supply.shared.source = start.shared.source ∧
      start.shared.position ≤ supply.shared.position := hlater .shared
  obtain ⟨n, hstart, hbefore, hid⟩ := h.given row hrow
  have hsame : start.shared.source.ids n = start.shared.source.ids supply.shared.position := by
    rw [hid, heq, hsource]
  exact absurd (hnever n _ hstart hposition hsame) (Nat.ne_of_lt hbefore)

theorem exists_accepted_of_key (h : m.Follows start supply registry events) {id : String}
    (hid : id ∈ m.runtimes.keys) : ∃ row ∈ acceptances events, row.2.id = id := by
  obtain ⟨⟨key, runtime⟩, hrow, rfl⟩ := List.mem_map.mp hid
  have hvalue : runtime ∈ m.runtimes.values := List.mem_map.mpr ⟨_, hrow, rfl⟩
  rw [h.runtimes] at hvalue
  obtain ⟨row, hsince, rfl⟩ := List.mem_map.mp hvalue
  exact ⟨row, acceptances_subset_of_sinceStop hsince, (h.keyed _ hrow).symm⟩

theorem accepted (h : m.Follows start supply registry events) (hlater : supply.IsLater start)
    (hnever : start.shared.NeverRepeats) (program : String) :
    let runtime : Runtime :=
      ⟨supply.shared.source.ids supply.shared.position, program, m.extensions.keys⟩
    (m.accept runtime).Follows start
      (supply.move .shared ⟨supply.shared.source, supply.shared.position + 1⟩) registry
      (events ++ [.accepted program runtime]) := by
  intro runtime
  have hfresh : runtime.id ∉ m.runtimes.keys := by
    intro hmem
    obtain ⟨row, hrow, hid⟩ := h.exists_accepted_of_key hmem
    exact h.id_ne_next hlater hnever hrow hid
  have hrows : (m.accept runtime).runtimes.rows = m.runtimes.rows ++ [(runtime.id, runtime)] :=
    Table.rows_insert_of_not_mem hfresh runtime
  have hmore : acceptances (events ++ [.accepted program runtime]) =
      acceptances events ++ [(program, runtime)] := acceptances_concat _ _
  constructor
  · constructor
    · have hsame : registrations (events ++ [.accepted program runtime]) =
          registrations events ++ [] := registrations_concat _ _
      rw [hsame, List.append_nil]
      exact h.extensions
    · have hsince : sinceStop (events ++ [.accepted program runtime]) =
          sinceStop events ++ [.accepted program runtime] := sinceStop_concat _ _
      have hlast : acceptances (sinceStop events ++ [.accepted program runtime]) =
          acceptances (sinceStop events) ++ [(program, runtime)] := acceptances_concat _ _
      rw [Table.values, hrows, hsince, hlast, List.map_append, List.map_append, ← h.runtimes]
      rfl
    · rw [hmore]
      exact List.forall_mem_append.mpr ⟨h.programs, List.forall_mem_singleton.mpr rfl⟩
    · rw [hmore, List.map_append, List.map_singleton, List.nodup_append]
      refine ⟨h.nodup, List.pairwise_singleton _ _, ?_⟩
      rintro id hid _ hlast rfl
      obtain ⟨row, hrow, rfl⟩ := List.mem_map.mp hid
      exact h.id_ne_next hlater hnever hrow (List.mem_singleton.mp hlast)
    · rw [hmore, List.pairwise_append]
      refine ⟨h.growing, List.pairwise_singleton _ _, fun row hrow later hlast => ?_⟩
      rw [List.mem_singleton.mp hlast]
      exact h.current row hrow
    · rw [hmore]
      exact List.forall_mem_append.mpr
        ⟨h.current, List.forall_mem_singleton.mpr List.prefix_rfl⟩
  · rw [hrows]
    exact List.forall_mem_append.mpr ⟨h.keyed, List.forall_mem_singleton.mpr rfl⟩
  · rw [hmore]
    have hdraws : (supply.move .shared
        ⟨supply.shared.source, supply.shared.position + 1⟩).IsLater supply :=
      supply.isLater_move .shared (Nat.le_succ _)
    refine List.forall_mem_append.mpr
      ⟨(h.later hdraws).given, List.forall_mem_singleton.mpr ?_⟩
    obtain ⟨hsource, hposition⟩ := hlater .shared
    have hid : start.shared.source.ids supply.shared.position = runtime.id :=
      congrArg (fun source => source.ids supply.shared.position) hsource.symm
    exact ⟨supply.shared.position, hposition, Nat.lt_succ_self _, hid⟩

theorem perform (h : m.Follows start supply registry events) (hlater : supply.IsLater start)
    (hnever : start.shared.NeverRepeats) (call : Call) :
    let reached := (call.perform (m, supply)).state
    reached.2.IsLater supply ∧ reached.1.Follows start reached.2 registry
      (events ++ (call.eventAt? (m, supply)).toList) := by
  intro reached
  by_cases hcall : call.IsComplete
  · cases call with
    | register name? handle =>
        obtain ⟨hname, hthere⟩ := hcall
        obtain ⟨name, rfl⟩ := Option.isSome_iff_exists.mp hname
        have hperform : (Call.register (some name) handle).perform (m, supply) =
            ⟨.ok none, ({ m with extensions := m.extensions.insert name handle }, supply), []⟩ :=
          Call.perform_register hthere
        simp only [reached, Call.eventAt?, hperform]
        exact ⟨.refl _, h.registered name handle⟩
    | run program? =>
        obtain ⟨program, rfl⟩ := Option.isSome_iff_exists.mp hcall
        obtain ⟨hresult, hstate⟩ := Call.perform_run m supply program
        simp only [reached, Call.eventAt?, hresult, hstate]
        exact ⟨supply.isLater_move .shared (Nat.le_succ _), h.accepted hlater hnever program⟩
    | stop => exact ⟨.refl _, h.stopped⟩
  · obtain ⟨fault, hperform⟩ := Call.perform_of_incomplete hcall (m, supply)
    have hevent : call.eventAt? (m, supply) = none := by
      rw [Call.eventAt?, hperform]
      rfl
    simp only [reached, hperform, hevent, Option.toList_none, List.append_nil]
    exact ⟨.refl _, h⟩

end InMemory.Follows

end Engine

end EventOperator
