import EventOperator.Extension.Path
import EventOperator.Operation
import EventOperator.Table

/-!
The extensions of an engine by name. Merging adds extensions and replaces those of the same name.
-/

namespace EventOperator.Extension

inductive Given where
  | handle (h : Handle)
  | path (path : String)

def Given.isAbsent : Given → Bool
  | handle h => h.isAbsent
  | path _ => false

abbrev Registry := Table String Handle

namespace Registry

def source : String := "cep_operator.core.extension_registry"

/-- A path that begins with a point is no path of a module and is reported as it is. -/
def loadFault (name path : String) : ImportFault → Fault
  | .relative module => .importing (.relative module)
  | fault => .extensionLoad name path fault.message

def resolve (catalogue : Catalogue) (name : String) : Given → Except Fault Handle
  | .handle h => .ok h
  | .path path =>
      match importPath catalogue path with
      | .ok h => .ok h
      | .error fault => .error (loadFault name path fault)

def resolveRow (catalogue : Catalogue) : Option String × Given → Except Fault (String × Handle)
  | (none, _) => .error (.nullArgument "extensionName")
  | (some name, given) => do
      if given.isAbsent then throw (.nullArgument ("extensions[" ++ name ++ "]"))
      return (name, ← resolve catalogue name given)

def resolveAll (catalogue : Catalogue) (given? : Option (Table (Option String) Given)) :
    Except Fault Registry := do
  let given ← required "extensions" given?
  return Table.ofList (← given.rows.mapM (resolveRow catalogue))

/-- All extensions are resolved before the first one is added. -/
def merge (catalogue : Catalogue) (given? : Option (Table (Option String) Given)) :
    Operation Registry Unit := do
  let registry ← Operation.read
  let resolved ← Operation.ofExcept (resolveAll catalogue given?)
  Operation.write (registry.insertAll resolved.rows)
  let overwritten := resolved.keys.filter registry.contains
  if !overwritten.isEmpty then
    Operation.log source .info ("Overwrote extensions: " ++ nameList overwritten)
  Operation.log source .debug ("Merged extensions: " ++ nameList resolved.keys)

def find (registry : Registry) (name? : Option String) : Except Fault Handle :=
  match name?.bind registry.get? with
  | some h => .ok h
  | none => .error (.noSuchKey (name?.elim .null .text))

def shown (registry : Registry) : String :=
  "ExtensionRegistry(extensions=" ++ nameList registry.keys ++ ")"

end Registry

end EventOperator.Extension
