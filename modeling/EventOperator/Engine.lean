import EventOperator.Extension.Registry
import EventOperator.Identity.Supply

/-!
Engine managers accept programs and run them with the extensions that were registered. A manager is
built with the extensions that a registry has at that time.
-/

namespace EventOperator.Engine

open Extension Identity

def source : String := "cep_operator.core.engine"

/-- A kind of manager. Its state is a `μ`, and running a program answers a `ρ`. -/
structure Kind (μ ρ : Type) where
  name : String
  fresh : μ
  register : Option String → Handle → μ → Except Fault μ
  run : Option String → Operation (μ × Supply) ρ
  shutdown : μ → μ

def Kind.registerAll (kind : Kind μ ρ) : List (String × Handle) → μ → Except Fault μ
  | [], manager => .ok manager
  | (name, h) :: rest, manager => do
      kind.registerAll rest (← kind.register (some name) h manager)

def Kind.newManager (kind : Kind μ ρ) (extensions? : Option Extension.Registry) :
    Operation σ μ := do
  let extensions ← Operation.ofExcept (required "extensions" extensions?)
  let manager ← Operation.ofExcept (kind.registerAll extensions.rows kind.fresh)
  Operation.log source .debug
    ("Created " ++ kind.name ++ " with extensions " ++ nameList extensions.keys)
  return manager

/-- A program that was accepted, with the extensions that were there at that time. -/
structure Runtime where
  id : String
  program : String
  extensions : List String
  deriving DecidableEq

structure InMemory where
  extensions : Table String Handle
  runtimes : Table String Runtime

namespace InMemory

def register (name? : Option String) (h : Handle) (m : InMemory) : Except Fault InMemory := do
  let name ← required "name" name?
  if h.isAbsent then throw (.nullArgument "handle")
  return { m with extensions := m.extensions.insert name h }

def accept (runtime : Runtime) (m : InMemory) : InMemory :=
  { m with runtimes := m.runtimes.insert runtime.id runtime }

def run (program? : Option String) : Operation (InMemory × Supply) Runtime := do
  let program ← Operation.ofExcept (required "program" program?)
  let id ← Operation.on Prod.snd (fun supply state => (state.1, supply)) Generator.shared.draw
  let extensions := (← Operation.read).1.extensions.keys
  let runtime : Runtime := ⟨id, program, extensions⟩
  Operation.change fun state => (state.1.accept runtime, state.2)
  Operation.log source .debug ("Accepted program for runtime " ++ id)
  return runtime

def kind : Kind InMemory Runtime where
  name := "InMemoryEngineManager"
  fresh := ⟨∅, ∅⟩
  register := register
  run := run
  shutdown m := { m with runtimes := ∅ }

end InMemory

end EventOperator.Engine
