import EventOperator.Fault
import EventOperator.Verdict

/-!
Schemas: the attributes of a stream, in order, and the definition of the stream that they make.
-/

namespace EventOperator

inductive AttributeType where
  | string
  | int
  | long
  | float
  | double
  | bool
  | object
  deriving DecidableEq

namespace AttributeType

def name : AttributeType → String
  | string => "string"
  | int => "int"
  | long => "long"
  | float => "float"
  | double => "double"
  | bool => "bool"
  | object => "object"

def choices : List (String × AttributeType) :=
  [string, int, long, float, double, bool, object].map fun type => (type.name, type)

def aliases : List (String × AttributeType) :=
  [("str", string), ("text", string), ("integer", int), ("boolean", bool), ("any", object)]

/-- Names of types are read in any case, with blanks around them. All of them are ASCII, and no
other letter has one of theirs in lower case. -/
def spelling (s : String) : String :=
  let lower := String.ofList ((Text.strip s.toList).map Char.toLower)
  match aliases.lookup lower with
  | some type => type.name
  | none => lower

def read : Value → Verdict AttributeType
  | .text s => Value.asChoice choices (.text (spelling s))
  | v => Value.asChoice choices v

end AttributeType

structure Attribute where
  name : String
  type : AttributeType
  description? : Option String
  deriving DecidableEq

namespace Attribute

def read : Value → Verdict Attribute :=
  Value.shaped "SchemaField" fun rows =>
    mk <$> Value.field "name" Value.asText rows
      <*> Value.field "type" AttributeType.read rows
      <*> Value.fieldOr "description" none (Value.orNull Value.asText) rows

def text (a : Attribute) : String := a.name ++ " " ++ a.type.name

end Attribute

inductive Schema where
  | attributes (list : List Attribute)
  /-- Stands for a schema that knows its own definition. -/
  | fixed (definition : String)
  deriving DecidableEq

namespace Schema

def definition (schema : Schema) (stream : String) : String :=
  match schema with
  | attributes list =>
      "define stream " ++ stream ++ " (" ++ commaSeparated (list.map Attribute.text) ++ ");"
  | fixed definition => definition

def ofFields (fields : List Value) : Except Fault Schema := do
  let list ← fields.mapM fun field => (Attribute.read field).toExcept Fault.badData
  return attributes list

def ofTypes (types : List (String × Value)) : Except Fault Schema :=
  ofFields (types.map fun (name, type) =>
    .record [(.text "name", .text name), (.text "type", type)])

def read : Value → Verdict (List Attribute) :=
  Value.shaped "StreamSchema" (Value.fieldOr "fields" [] (Value.asList Attribute.read))

end Schema

def attributeIndex (list : List Attribute) (name : String) : Except Fault Nat :=
  match list.findIdx? fun a => a.name = name with
  | some n => .ok n
  | none => .error (.noSuchKey (.text name))

example :
    (Schema.attributes [⟨"symbol", .string, none⟩, ⟨"price", .double, none⟩]).definition "Ticks" =
      "define stream Ticks (symbol string, price double);" := by decide

example : AttributeType.spelling " Integer\n" = "int" := by decide

end EventOperator
