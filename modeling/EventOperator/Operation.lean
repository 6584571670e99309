import EventOperator.Fault
import EventOperator.Log.Entry

/-!
Operations work on a state. An operation that stops at a fault leaves the state that it has reached
by then, and the log entries that it has written stay written.
-/

namespace EventOperator

structure Outcome (σ α : Type) where
  result : Except Fault α
  state : σ
  entries : List Log.Entry

def Operation (σ α : Type) : Type := σ → Outcome σ α

namespace Operation

variable {σ τ α β : Type}

def answer (a : α) : Operation σ α := fun s => ⟨.ok a, s, []⟩

def fail (fault : Fault) : Operation σ α := fun s => ⟨.error fault, s, []⟩

def followedBy (op : Operation σ α) (next : α → Operation σ β) : Operation σ β := fun s =>
  match op s with
  | ⟨.ok a, s', entries⟩ =>
      let last := next a s'
      ⟨last.result, last.state, entries ++ last.entries⟩
  | ⟨.error fault, s', entries⟩ => ⟨.error fault, s', entries⟩

instance : Monad (Operation σ) where
  pure := answer
  bind := followedBy

def read : Operation σ σ := fun s => ⟨.ok s, s, []⟩

def write (s : σ) : Operation σ Unit := fun _ => ⟨.ok (), s, []⟩

def change (f : σ → σ) : Operation σ Unit := fun s => ⟨.ok (), f s, []⟩

def log (source : String) (level : Log.Level) (message : String) : Operation σ Unit :=
  fun s => ⟨.ok (), s, [⟨source, level, message⟩]⟩

def ofExcept : Except Fault α → Operation σ α
  | .ok a => answer a
  | .error fault => fail fault

def on (part : σ → τ) (replace : τ → σ → σ) (op : Operation τ α) : Operation σ α := fun s =>
  let outcome := op (part s)
  ⟨outcome.result, replace outcome.state s, outcome.entries⟩

@[simp] theorem pure_apply (a : α) (s : σ) :
    (pure a : Operation σ α) s = ⟨.ok a, s, []⟩ := rfl

@[simp] theorem fail_apply (fault : Fault) (s : σ) :
    (fail fault : Operation σ α) s = ⟨.error fault, s, []⟩ := rfl

@[simp] theorem read_apply (s : σ) : (read : Operation σ σ) s = ⟨.ok s, s, []⟩ := rfl

@[simp] theorem write_apply (s s' : σ) :
    (write s' : Operation σ Unit) s = ⟨.ok (), s', []⟩ := rfl

@[simp] theorem change_apply (f : σ → σ) (s : σ) :
    (change f : Operation σ Unit) s = ⟨.ok (), f s, []⟩ := rfl

@[simp] theorem log_apply (source : String) (level : Log.Level) (message : String) (s : σ) :
    (log source level message : Operation σ Unit) s =
      ⟨.ok (), s, [⟨source, level, message⟩]⟩ := rfl

@[simp] theorem ofExcept_ok (a : α) : (ofExcept (.ok a) : Operation σ α) = pure a := rfl

@[simp] theorem ofExcept_error (fault : Fault) :
    (ofExcept (.error fault) : Operation σ α) = fail fault := rfl

theorem bind_apply (op : Operation σ α) (next : α → Operation σ β) (s : σ) :
    (op >>= next) s =
      match op s with
      | ⟨.ok a, s', entries⟩ =>
          ⟨(next a s').result, (next a s').state, entries ++ (next a s').entries⟩
      | ⟨.error fault, s', entries⟩ => ⟨.error fault, s', entries⟩ := rfl

end Operation

end EventOperator
