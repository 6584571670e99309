import EventOperator.Fault
import EventOperator.Text.Split
import EventOperator.Value

/-!
Import paths name a module and an attribute of it: `module:a.b`, or `module.a` with the last point
as the divider. They are looked up in a catalogue of the modules that can be imported.
-/

namespace EventOperator.Extension

/-- What an extension is made of: data of any kind, or something that was imported. -/
inductive Handle where
  | data (v : Value)
  | object (label : String)
  | module (name : String)

def Handle.isAbsent : Handle → Bool
  | data .null => true
  | _ => false

inductive Member where
  | nothing
  | object (label : String) (attributes : List (String × Member))
  | module (name : String)

structure Module where
  name : String
  isPackage : Bool
  attributes : List (String × Member)

abbrev Catalogue := List Module

def Catalogue.find? (catalogue : Catalogue) (name : String) : Option Module :=
  List.find? (fun m => m.name = name) catalogue

namespace Member

def handle : Member → Handle
  | nothing => .data .null
  | object label _ => .object label
  | module name => .module name

def attribute? (catalogue : Catalogue) (name : String) : Member → Option Member
  | nothing => none
  | object _ attributes => attributes.lookup name
  | module m => (catalogue.find? m).bind fun m => m.attributes.lookup name

def follow? (catalogue : Catalogue) (member : Member) (names : List String) : Option Member :=
  names.foldlM (fun m name => m.attribute? catalogue name) member

end Member

/-- The module and the attributes that a path names, which may both be empty. -/
def pathParts (path : List Char) : List Char × List Char :=
  if path.contains ':' then
    (path.takeWhile (· ≠ ':'), (path.dropWhile (· ≠ ':')).drop 1)
  else
    let last := (path.reverse.takeWhile (· ≠ '.')).reverse
    (path.take (path.length - last.length - 1), last)

def packageNames (module : List Char) : List String :=
  let parts := Text.splitAt '.' module
  (List.range parts.length).map fun n =>
    String.ofList (['.'].intercalate (parts.take (n + 1)))

def importModules (catalogue : Catalogue) : Option Module → List String → Except ImportFault Unit
  | _, [] => .ok ()
  | parent?, name :: rest =>
      match catalogue.find? name with
      | some m => importModules catalogue (some m) rest
      | none =>
          let parent? := parent?.bind fun m => if m.isPackage then none else some m.name
          .error (.noModule name parent?)

def importModule (catalogue : Catalogue) (module : List Char) : Except ImportFault Unit :=
  if module.head? = some '.' then .error (.relative (String.ofList module))
  else importModules catalogue none (packageNames module)

def importPath (catalogue : Catalogue) (path : String) : Except ImportFault Handle := do
  let (module, attributes) := pathParts path.toList
  if module.isEmpty ∨ attributes.isEmpty then throw (.badPath path)
  importModule catalogue module
  let names := (Text.splitAt '.' attributes).map String.ofList
  match Member.follow? catalogue (.module (String.ofList module)) names with
  | some member => return member.handle
  | none => throw (.noAttribute (String.ofList module) (String.ofList attributes))

def pathShown (path : String) : String := "ImportPath(" ++ Text.quoted path ++ ")"

example : pathParts "a.b:c.d".toList = ("a.b".toList, "c.d".toList) ∧
    pathParts "a.b.c".toList = ("a.b".toList, "c".toList) ∧
    pathParts "a".toList = ([], "a".toList) := by decide

example : packageNames "a.b.c".toList = ["a", "a.b", "a.b.c"] := by decide

end EventOperator.Extension
