import EventOperator.Calendar
import EventOperator.Decimal.Whole

/-!
Data without a fixed shape: what a handle, a log field, a type of an output stream or a document may
hold. A record keeps its rows in order and may have keys of any kind.
-/

namespace EventOperator

inductive Value where
  | null
  | flag (b : Bool)
  | whole (n : Int)
  | real (x : Float)
  | text (s : String)
  /-- Text with a code point that no character has. -/
  | torn
  | bytes (octets : List UInt8)
  | moment (m : Moment)
  | list (items : List Value)
  | bag (items : List Value)
  | record (rows : List (Value × Value))
  deriving Inhabited

namespace Value

def kind : Value → String
  | null => "NoneType"
  | flag _ => "bool"
  | whole _ => "int"
  | real _ => "float"
  | text _ => "str"
  | torn => "str"
  | bytes _ => "bytes"
  | moment ⟨_, _, _, none⟩ => "date"
  | moment ⟨_, _, _, some _⟩ => "datetime"
  | list _ => "list"
  | bag _ => "set"
  | record _ => "dict"

def isVoid : Value → Bool
  | null => true
  | flag b => !b
  | whole n => n = 0
  | real x => x == 0
  | text s => s.isEmpty
  | torn => false
  | bytes octets => octets.isEmpty
  | moment _ => false
  | list items => items.isEmpty
  | bag items => items.isEmpty
  | record rows => rows.isEmpty

def isNull : Value → Bool
  | null => true
  | _ => false

mutual
def all (p : Value → Bool) : Value → Bool
  | list items => p (list items) && allItems p items
  | bag items => p (bag items) && allItems p items
  | record rows => p (record rows) && allRows p rows
  | v => p v

def allItems (p : Value → Bool) : List Value → Bool
  | [] => true
  | v :: rest => all p v && allItems p rest

def allRows (p : Value → Bool) : List (Value × Value) → Bool
  | [] => true
  | (k, v) :: rest => all p k && all p v && allRows p rest
end

/-- The whole number that a value equals; a flag counts as 0 or 1. -/
def wholeNumber? : Value → Option Int
  | flag b => some (if b then 1 else 0)
  | whole n => some n
  | real x => Decimal.wholeOfReal? x
  | _ => none

def sameKey : Value → Value → Bool
  | null, null => true
  | text s, text t => s = t
  | torn, torn => true
  | bytes a, bytes b => a = b
  | moment a, moment b => a = b
  | real x, real y => x == y
  | a, b =>
      match a.wholeNumber?, b.wholeNumber? with
      | some m, some n => m = n
      | _, _ => false

/-- A row whose key is there already takes its place and keeps its key. -/
def putRow (key value : Value) : List (Value × Value) → List (Value × Value)
  | [] => [(key, value)]
  | (k, v) :: rest =>
      if k.sameKey key then (k, value) :: rest else (k, v) :: putRow key value rest

def findRow? (name : String) : List (Value × Value) → Option Value
  | [] => none
  | (text s, v) :: rest => if s = name then some v else findRow? name rest
  | _ :: rest => findRow? name rest

end Value

end EventOperator
