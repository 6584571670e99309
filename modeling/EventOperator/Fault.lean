import EventOperator.Document.Fault
import EventOperator.Issue

/-!
Faults: the causes for which an operation stops, each with its message. A fault of the operator
itself also carries details, which are written behind the message.
-/

namespace EventOperator

inductive ImportFault where
  | badPath (path : String)
  | noAttribute (module path : String)
  | noModule (name : String) (parent? : Option String)
  | relative (name : String)
  deriving DecidableEq

namespace ImportFault

def message : ImportFault → String
  | badPath path => "'" ++ path ++ "' is not a valid import path"
  | noAttribute module path => "Module '" ++ module ++ "' has no attribute '" ++ path ++ "'"
  | noModule name none => "No module named " ++ Text.quoted name
  | noModule name (some parent) =>
      "No module named " ++ Text.quoted name ++ "; " ++ Text.quoted parent ++ " is not a package"
  | relative name =>
      "the 'package' argument is required to perform a relative import for " ++ Text.quoted name

end ImportFault

inductive Fault where
  | general (message : String) (details : List (Value × Value))
  | badConfig (message : String) (details : List (Value × Value))
  | nullArgument (argument : String)
  | undefinedStream (stream : String) (message? : Option String)
  | undefinedPlan (plan : String)
  | unset (field : String)
  | extensionLoad (extension path reason : String)
  | badConfigData (issues : List Issue)
  | badData (issues : List Issue)
  | importing (fault : ImportFault)
  | document (fault : Document.Fault)
  | noSuchKey (key : Value)
  | noSuchTime (value : Value)
  | noSuchLevel (name : String)
  | amountTooLarge

namespace Fault

def summary : Fault → String
  | general message _ => message
  | badConfig message _ => message
  | nullArgument argument => "Required argument '" ++ argument ++ "' must not be None"
  | undefinedStream stream message? =>
      match message? with
      | some message => if message.isEmpty then notFound stream else message
      | none => notFound stream
  | undefinedPlan plan => "Execution plan: " ++ plan ++ " is not found"
  | unset field => field ++ " is not set"
  | extensionLoad extension path reason =>
      "Failed to load extension '" ++ extension ++ "' from '" ++ path ++ "': " ++ reason
  | badConfigData _ => "Invalid context config"
  | badData _ => ""
  | importing fault => fault.message
  | document fault => fault.message
  | noSuchKey key => key.literal
  | noSuchTime value => value.literal ++ " is not a valid TimeCharacteristic"
  | noSuchLevel name => "Unknown level: " ++ Text.quoted name
  | amountTooLarge => "int too large to convert to float"
where
  notFound (stream : String) : String := "Input stream: " ++ stream ++ " is not found"

def details : Fault → List (Value × Value)
  | general _ details => details
  | badConfig _ details => details
  | nullArgument argument => [(.text "argument", .text argument)]
  | undefinedStream stream _ => [(.text "stream_id", .text stream)]
  | undefinedPlan plan => [(.text "plan_id", .text plan)]
  | unset field => [(.text "field", .text field)]
  | extensionLoad extension path _ =>
      [(.text "extension", .text extension), (.text "path", .text path)]
  | _ => []

def message (fault : Fault) : String :=
  if fault.details.isEmpty then fault.summary
  else fault.summary ++ " - " ++ (Value.record fault.details).literal

def subjects : Fault → List (String × String)
  | nullArgument argument => [("argument", argument)]
  | undefinedStream stream _ => [("stream_id", stream)]
  | undefinedPlan plan => [("stream_id", plan), ("plan_id", plan)]
  | unset field => [("field_name", field)]
  | extensionLoad extension path _ => [("name", extension), ("path", path)]
  | _ => []

end Fault

def required (argument : String) : Option α → Except Fault α
  | some a => .ok a
  | none => .error (.nullArgument argument)

@[simp] theorem required_some (argument : String) (a : α) :
    required argument (some a) = .ok a := rfl

@[simp] theorem required_none (argument : String) :
    required argument (none : Option α) = .error (.nullArgument argument) := rfl

end EventOperator
