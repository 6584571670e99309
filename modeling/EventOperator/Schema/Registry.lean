import EventOperator.Operation
import EventOperator.Schema
import EventOperator.Table

/-!
The schemas of the streams that an operator reads, by stream. They are only replaced as a whole.
-/

namespace EventOperator

abbrev Schema.Registry := Table String Schema

namespace Schema.Registry

def source : String := "cep_operator.core.schema_registry"

def givenRow : Option String × Option Schema → Except Fault (String × Schema)
  | (none, _) => .error (.nullArgument "streamId")
  | (some stream, none) => .error (.nullArgument ("inputStreamSchemas[" ++ stream ++ "]"))
  | (some stream, some schema) => .ok (stream, schema)

def ofGiven (given? : Option (Table (Option String) (Option Schema))) : Except Fault Registry := do
  let given ← required "inputStreamSchemas" given?
  let rows ← given.rows.mapM givenRow
  return Table.ofList rows

def replaceAll (given? : Option (Table (Option String) (Option Schema))) :
    Operation Registry Unit := do
  let replacement ← Operation.ofExcept (ofGiven given?)
  Operation.write replacement
  Operation.log source .debug ("Replaced input stream schemas: " ++ nameList replacement.keys)

def find (streams : Registry) (stream? : Option String) : Except Fault Schema := do
  let stream ← required "inputStreamId" stream?
  match streams.get? stream with
  | some schema => return schema
  | none => throw (.undefinedStream stream none)

def definitionsOf (streams : Registry) (wanted : String → Bool) : String :=
  String.join ((streams.rows.filter fun row => wanted row.1).map fun row => row.2.definition row.1)

def definitions (streams : Registry) : String := streams.definitionsOf fun _ => true

def shown (streams : Registry) : String := "SchemaRegistry(streams=" ++ nameList streams.keys ++ ")"

end Schema.Registry

end EventOperator
