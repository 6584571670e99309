import EventOperator.Operation

/-!
What operations leave behind. An operation is atomic if it leaves nothing behind when it stops at a
fault: it looks before it changes anything, and what it does after that cannot fail.
-/

namespace EventOperator.Operation

variable {σ τ α β : Type} {op other : Operation σ α} {next : α → Operation σ β} {s : σ} {a : α}
  {fault : Fault} {f : σ → τ} {c : Prop}

theorem bind_of_ok (h : (op s).result = .ok a) :
    (op >>= next) s =
      ⟨(next a (op s).state).result, (next a (op s).state).state,
        (op s).entries ++ (next a (op s).state).entries⟩ := by
  rw [bind_apply]
  cases hop : op s with
  | mk result state entries =>
      rw [hop] at h
      obtain rfl : result = .ok a := h
      rfl

theorem bind_of_error (h : (op s).result = .error fault) :
    (op >>= next) s = ⟨.error fault, (op s).state, (op s).entries⟩ := by
  rw [bind_apply]
  cases hop : op s with
  | mk result state entries =>
      rw [hop] at h
      obtain rfl : result = .error fault := h
      rfl

theorem read_bind (next : σ → Operation σ β) (s : σ) : (read >>= next) s = next s s := rfl

theorem ofExcept_ok_bind (a : α) (next : α → Operation σ β) (s : σ) :
    (ofExcept (.ok a) >>= next) s = next a s := rfl

/-! Operations that leave a part of the state alone, and those that only look. -/

def Preserves (f : σ → τ) (op : Operation σ α) : Prop := ∀ s, f (op s).state = f s

def Keeps (op : Operation σ α) : Prop := ∀ s, (op s).state = s

theorem preserves_change {change : σ → σ} (h : ∀ s, f (change s) = f s) :
    Preserves f (Operation.change change) := h

theorem Keeps.preserves (h : Keeps op) : Preserves f op := fun s => congrArg f (h s)

theorem keeps_pure (a : α) : Keeps (pure a : Operation σ α) := fun _ => rfl

theorem keeps_fail (fault : Fault) : Keeps (fail fault : Operation σ α) := fun _ => rfl

theorem keeps_read : Keeps (read : Operation σ σ) := fun _ => rfl

theorem keeps_log (source : String) (level : Log.Level) (message : String) :
    Keeps (log source level message : Operation σ Unit) := fun _ => rfl

theorem keeps_ofExcept (result : Except Fault α) : Keeps (ofExcept result : Operation σ α) := by
  intro s
  cases result <;> rfl

theorem state_bind_of_preserves (hnext : ∀ a, Preserves f (next a)) (s : σ) :
    f ((op >>= next) s).state = f (op s).state := by
  cases hresult : (op s).result with
  | ok a => rw [bind_of_ok hresult, hnext a]
  | error fault => rw [bind_of_error hresult]

theorem Preserves.bind (hop : Preserves f op) (hnext : ∀ a, Preserves f (next a)) :
    Preserves f (op >>= next) := fun s => (state_bind_of_preserves hnext s).trans (hop s)

theorem Keeps.bind (hop : Keeps op) (hnext : ∀ a, Keeps (next a)) : Keeps (op >>= next) :=
  Preserves.bind (f := id) hop hnext

theorem Preserves.refuse [Decidable c] (h : Preserves f op) (fault : Fault) :
    Preserves f (if c then (fail fault : Operation σ β) >>= fun _ => op else op) := by
  split
  · exact (keeps_fail fault).preserves.bind fun _ => h
  · exact h

def Answers (op : Operation σ α) : Prop := ∀ s, ∃ a, (op s).result = .ok a

theorem answers_pure (a : α) : Answers (pure a : Operation σ α) := fun _ => ⟨a, rfl⟩

theorem answers_read : Answers (read : Operation σ σ) := fun s => ⟨s, rfl⟩

theorem answers_write (s : σ) : Answers (write s) := fun _ => ⟨(), rfl⟩

theorem answers_change (f : σ → σ) : Answers (change f) := fun _ => ⟨(), rfl⟩

theorem answers_log (source : String) (level : Log.Level) (message : String) :
    Answers (log source level message : Operation σ Unit) := fun _ => ⟨(), rfl⟩

theorem Answers.bind (hop : Answers op) (hnext : ∀ a, Answers (next a)) :
    Answers (op >>= next) := by
  intro s
  obtain ⟨a, ha⟩ := hop s
  obtain ⟨b, hb⟩ := hnext a (op s).state
  exact ⟨b, by rw [bind_of_ok ha, hb]⟩

theorem Answers.ite [Decidable c] (hop : Answers op) (hother : Answers other) :
    Answers (if c then op else other) := by
  split
  · exact hop
  · exact hother

def Atomic (op : Operation σ α) : Prop :=
  ∀ s fault, (op s).result = .error fault → (op s).state = s

theorem Keeps.atomic (h : Keeps op) : Atomic op := fun s _ _ => h s

theorem Answers.atomic (h : Answers op) : Atomic op := by
  intro s fault hfault
  obtain ⟨a, ha⟩ := h s
  rw [ha] at hfault
  cases hfault

theorem Keeps.bind_atomic (hop : Keeps op) (hnext : ∀ a, Atomic (next a)) :
    Atomic (op >>= next) := by
  intro s fault hfault
  cases hresult : (op s).result with
  | ok a =>
      rw [bind_of_ok hresult] at hfault
      rw [bind_of_ok hresult, hnext a _ fault hfault, hop s]
  | error _ => rw [bind_of_error hresult, hop s]

theorem Atomic.bind_answers (hop : Atomic op) (hnext : ∀ a, Answers (next a)) :
    Atomic (op >>= next) := by
  intro s fault hfault
  cases hresult : (op s).result with
  | ok a =>
      obtain ⟨b, hb⟩ := hnext a (op s).state
      rw [bind_of_ok hresult, hb] at hfault
      cases hfault
  | error first => rw [bind_of_error hresult, hop s first hresult]

theorem Atomic.refuse [Decidable c] (h : Atomic op) (fault : Fault) :
    Atomic (if c then (fail fault : Operation σ β) >>= fun _ => op else op) := by
  split
  · exact (keeps_fail fault).bind_atomic fun _ => h
  · exact h

section

variable {υ : Type} {part : σ → υ} {replace : υ → σ → σ} {inner : Operation υ α}

theorem preserves_on (h : ∀ t s, f (replace t s) = f s) :
    Preserves f (Operation.on part replace inner) := fun s => h _ s

theorem Answers.on (h : Answers inner) : Answers (Operation.on part replace inner) :=
  fun s => h (part s)

theorem Atomic.on (hreplace : ∀ s, replace (part s) s = s) (h : Atomic inner) :
    Atomic (Operation.on part replace inner) := by
  intro s fault hfault
  change replace (inner (part s)).state s = s
  rw [h (part s) fault hfault, hreplace]

end

/-! Where an operation ends, whatever it has logged on the way. -/

structure Ends (op : Operation σ α) (s : σ) (result : Except Fault α) (s' : σ) : Prop where
  result_eq : (op s).result = result
  state_eq : (op s).state = s'

section

variable {s' : σ} {result : Except Fault β}

theorem Ends.bind (h : op.Ends s (.ok a) s') {last : σ} (hnext : (next a).Ends s' result last) :
    (op >>= next).Ends s result last := by
  obtain ⟨hresult, rfl⟩ := h
  constructor <;> rw [bind_of_ok hresult]
  · exact hnext.result_eq
  · exact hnext.state_eq

theorem Ends.on {υ : Type} {part : σ → υ} {replace : υ → σ → σ} {inner : Operation υ β} {t : υ}
    (h : inner.Ends (part s) result t) :
    (Operation.on part replace inner).Ends s result (replace t s) :=
  ⟨h.result_eq, congrArg (replace · s) h.state_eq⟩

theorem Ends.bind_error (h : op.Ends s (.error fault) s') :
    (op >>= next).Ends s (.error fault) s' := by
  constructor <;> rw [bind_of_error h.result_eq]
  exact h.state_eq

end

end EventOperator.Operation
