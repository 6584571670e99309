import EventOperator.Execution
import EventOperator.Operation
import EventOperator.Text.Case

/-!
Settings of the whole library. Each is taken from an argument, else from the environment, else from
its default.
-/

namespace EventOperator

structure Settings where
  engineName : String
  version : String
  debug : Bool
  logLevel : String
  unnamedLabel : String
  time? : Option TimeCharacteristic
  parallelism : Int

namespace Settings

def read (rows : List (Value × Value)) : Verdict Settings :=
  mk <$> Value.fieldOr "engine_name" "cep_operator" Value.asText rows
    <*> Value.fieldOr "version" "1.0.0" Value.asText rows
    <*> Value.fieldOr "debug" false Value.asFlag rows
    <*> Value.fieldOr "log_level" "INFO" Value.asText rows
    <*> Value.fieldOr "unnamed_label" "Unnamed" Value.asText rows
    <*> Value.fieldOr "default_time_characteristic" none (Value.orNull TimeCharacteristic.read) rows
    <*> Value.fieldOr "default_parallelism" 1 (ExecutionConfig.asWholeFrom 1) rows

def toValue (s : Settings) : Value :=
  .record
    [ (.text "engine_name", .text s.engineName),
      (.text "version", .text s.version),
      (.text "debug", .flag s.debug),
      (.text "log_level", .text s.logLevel),
      (.text "unnamed_label", .text s.unnamedLabel),
      (.text "default_time_characteristic", s.time?.elim .null fun time => .text time.name),
      (.text "default_parallelism", .whole s.parallelism) ]

/-- Names are ASCII, and no other letter has one of theirs in lower case. -/
def lowerName (s : String) : String := String.ofList (s.toList.map Char.toLower)

def variableStart : List Char := "cep_".toList

def settingName? (key : String) : Option String :=
  let name := (lowerName key).toList
  if variableStart.isPrefixOf name then some (String.ofList (name.drop variableStart.length))
  else none

abbrev Environment := Table String String

/-- Settings by name. The case of a name does not matter; of variables or arguments with one name
the last one counts. -/
def given (environment : Environment) (arguments : List (String × Value)) :
    Table String Value :=
  let inherited := environment.rows.filterMap fun (key, s) =>
    (settingName? key).map fun name => (name, Value.text s)
  (Table.ofList inherited).insertAll
    (arguments.map fun (name, v) => (lowerName name, v))

def ofGiven (environment : Environment) (arguments : List (String × Value)) :
    Except Fault Settings :=
  (read ((given environment arguments).rows.map fun (name, v) => (.text name, v))).toExcept
    Fault.badData

def levels : List (String × Nat) :=
  [ ("CRITICAL", 50), ("FATAL", 50), ("ERROR", 40), ("WARN", 30), ("WARNING", 30), ("INFO", 20),
    ("DEBUG", 10), ("NOTSET", 0) ]

def rank (s : Settings) : Except Fault Nat :=
  if s.debug then .ok 10
  else
    let name := Text.upper s.logLevel
    match levels.lookup name with
    | some rank => .ok rank
    | none => .error (.noSuchLevel name)

/-- Settings that were made, with the number of their making. -/
structure Instance where
  number : Nat
  settings : Settings

structure State where
  environment : Environment
  made : Nat
  inUse? : Option Instance

namespace State

def setVariable (d : State) (key : String) (s? : Option String) : State :=
  { d with
    environment := match s? with
      | some s => d.environment.insert key s
      | none => d.environment.erase key }

def new (arguments : List (String × Value)) : Operation State Instance := do
  let d ← Operation.read
  let settings ← Operation.ofExcept (ofGiven d.environment arguments)
  Operation.write { d with made := d.made + 1 }
  return ⟨d.made, settings⟩

def configure (instance? : Option Instance) : Operation State Unit :=
  Operation.change fun d => { d with inUse? := instance? }

/-- The settings in use are made when they are first asked for. -/
def current : Operation State Instance := do
  match (← Operation.read).inUse? with
  | some i => return i
  | none =>
      let i ← new []
      configure (some i)
      return i

end State

end Settings

end EventOperator
