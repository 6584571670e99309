import EventOperator.Context
import EventOperator.Settings

/-!
Contexts that are declared as data: read with all their issues, and built with settings for what the
declaration leaves open.
-/

namespace EventOperator

namespace Plan

inductive Declaration where
  | body (text : String)
  | named (id? : Option String) (text : String)

namespace Declaration

def readNamed : Value → Verdict Declaration :=
  Value.shaped "PlanDeclaration" fun rows =>
    named <$> Value.fieldOr "id" none (Value.orNull Value.asText) rows
      <*> Value.field "body" Value.asText rows

/-- What is neither a text nor a record of a plan has the issues of both. -/
def read (v : Value) : Verdict Declaration :=
  match v.asText, readNamed v with
  | .sound text, _ => .sound (body text)
  | _, .sound plan => .sound plan
  | .faulty ofText, .faulty ofPlan =>
      .faulty (ofText.map (Issue.within (.name "str"))
        ++ ofPlan.map (Issue.within (.name "PlanDeclaration")))

def id? : Declaration → Option String
  | body _ => none
  | named id? _ => id?

def text : Declaration → String
  | body text => text
  | named _ text => text

end Declaration

end Plan

structure Config where
  name? : Option String
  time? : Option TimeCharacteristic
  execution? : Option ExecutionConfig
  streams : Table String (List Attribute)
  extensions : Table String String
  plans : List Plan.Declaration

namespace Config

def readFields (rows : List (Value × Value)) : Verdict Config :=
  mk <$> Value.fieldOr "name" none (Value.orNull Value.asText) rows
    <*> Value.fieldOr "time_characteristic" none (Value.orNull TimeCharacteristic.read) rows
    <*> Value.fieldOr "execution_config" none (Value.orNull ExecutionConfig.read) rows
    <*> (Table.ofList <$>
      Value.fieldOr "streams" [] (Value.asRecord (Value.asList Attribute.read)) rows)
    <*> (Table.ofList <$> Value.fieldOr "extensions" [] (Value.asRecord Value.asText) rows)
    <*> Value.fieldOr "plans" [] (Value.asList Plan.Declaration.read) rows

def ofValue : Value → Except Fault Config
  | .record rows => (readFields rows).toExcept Fault.badConfigData
  | v => .error (.badConfig ("Context config must be a mapping, got " ++ v.kind) [])

def source : String := "cep_operator.config.context_config"

def streamTable (config : Config) : Table (Option String) (Option Schema) :=
  Table.ofList <|
    config.streams.rows.map fun (stream, list) => (some stream, some (.attributes list))

def extensionTable (config : Config) : Table (Option String) Extension.Given :=
  Table.ofList (config.extensions.rows.map fun (name, path) => (some name, .path path))

variable {α : Type} [OfNat α 0] [OfNat α 1] [Add α]

def fill (config : Config) (settings : Settings) (catalogue : Extension.Catalogue) :
    Operation (Post α) Unit := do
  if config.name?.isSome then Post.onContext (Context.setName config.name?)
  match config.time?.or settings.time? with
  | some time => Post.onContext (Context.setTime (.text time.name))
  | none => pure ()
  let execution := config.execution?.getD (.withParallelism settings.parallelism)
  Post.onContext (Context.setExecution (.declared execution))
  Post.onContext (Context.setStreams (some config.streamTable))
  if !config.extensions.isEmpty then
    Post.onContext (Context.setExtensions catalogue (some config.extensionTable))
  config.plans.forM fun plan => discard (Post.addPlan (some plan.text) plan.id?)
  Operation.log source .info
    ("Built context " ++ (← Operation.read).context.displayName ++ " from config")

def build (config : Config) (settings : Settings) (label? : Option String)
    (catalogue : Extension.Catalogue) (generator : Identity.Generator) :
    Operation (Site α) Context := do
  let c ← Site.newContext (label?.getD settings.unnamedLabel) none generator
  Site.within c do
    config.fill settings catalogue
    return (← Operation.read).context

end Config

end EventOperator
