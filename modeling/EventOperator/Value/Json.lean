import EventOperator.Decimal.Notation
import EventOperator.Text.Escaped
import EventOperator.Value.Literal

/-!
Values written as JSON, on one line or with an indentation of two spaces.
-/

namespace EventOperator.Value

/-- Numbers in JSON are written as in plain text; those that are not finite have their own names. -/
def jsonNumber : Decimal.Style := { Decimal.plain with infinity := "Infinity", notANumber := "NaN" }

def jsonKey : Value → String
  | text s => Text.escaped s
  | torn => "\"\\ud800\""
  | null => "\"null\""
  | flag b => if b then "\"true\"" else "\"false\""
  | whole n => "\"" ++ toString n ++ "\""
  | real x => "\"" ++ jsonNumber.real x ++ "\""
  | v => Text.escaped v.literal

mutual
def json : Value → String
  | null => "null"
  | flag b => if b then "true" else "false"
  | whole n => toString n
  | real x => jsonNumber.real x
  | text s => Text.escaped s
  | torn => "\"\\ud800\""
  | bytes octets => Text.escaped (Text.quotedBytes octets)
  | moment m => Text.escaped m.literal
  | list items => bracketed (jsonItems items)
  | bag items => bracketed (jsonItems items)
  | record rows => braced (jsonRows rows)

def jsonItems : List Value → List String
  | [] => []
  | v :: rest => json v :: jsonItems rest

def jsonRows : List (Value × Value) → List String
  | [] => []
  | (k, v) :: rest => (jsonKey k ++ ": " ++ json v) :: jsonRows rest
end

def isJsonKey : Value → Bool
  | bytes _ | moment _ | list _ | bag _ | record _ => false
  | _ => true

/-- Bytes, moments and bags cannot be written as JSON, and only keys that are text or a single
number, flag or nothing can. -/
def isJson (v : Value) : Bool :=
  v.all fun
    | bytes _ | moment _ | bag _ => false
    | record rows => rows.all fun row => isJsonKey row.1
    | _ => true

example : (list [record [(whole 1, text "a")]]).isJson = true ∧
    (list [record [(bytes [], text "a")]]).isJson = false := by decide

def newLine (depth : Nat) : String := "\n" ++ String.ofList (List.replicate (2 * depth) ' ')

def spread (depth : Nat) (first last : String) (parts : List String) : String :=
  if parts.isEmpty then first ++ last
  else
    first ++ newLine (depth + 1) ++ (("," ++ newLine (depth + 1)).intercalate parts)
      ++ newLine depth ++ last

mutual
def indented (depth : Nat) : Value → String
  | list items => spread depth "[" "]" (indentedItems (depth + 1) items)
  | record rows => spread depth "\x7b" "\x7d" (indentedRows (depth + 1) rows)
  | v => json v

def indentedItems (depth : Nat) : List Value → List String
  | [] => []
  | v :: rest => indented depth v :: indentedItems depth rest

def indentedRows (depth : Nat) : List (Value × Value) → List String
  | [] => []
  | (k, v) :: rest => (jsonKey k ++ ": " ++ indented depth v) :: indentedRows depth rest
end

example : (record [(text "a", whole 1), (text "b", record [])]).indented 0 =
    "\x7b\n  \"a\": 1,\n  \"b\": \x7b\x7d\n\x7d" := by decide

end EventOperator.Value
