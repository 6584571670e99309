import EventOperator.Decimal.Nearest
import EventOperator.Operation
import EventOperator.Table

/-!
Counters and gauges by series. A series is a name with labels, and its key is written with the
labels in the order of their names. Names and labels are kept apart from the amounts, once for a
counter and a gauge of one key.
-/

namespace EventOperator.Metrics

abbrev Labels := Table String String

/-- The amount of a gauge is kept as it was given. -/
inductive Amount where
  | whole (n : Int)
  | real (x : Float)

def Amount.toReal : Amount → Except Fault Float
  | whole n =>
      match Decimal.realOfWhole? n with
      | some x => .ok x
      | none => .error .amountTooLarge
  | real x => .ok x

def Amount.toValue : Amount → Value
  | whole n => .whole n
  | real x => .real x

def insertSorted (label : String × String) : List (String × String) → List (String × String)
  | [] => [label]
  | first :: rest =>
      if label.1 < first.1 then label :: first :: rest else first :: insertSorted label rest

def sortedLabels (labels : Labels) : List (String × String) :=
  labels.rows.foldl (fun sorted label => insertSorted label sorted) []

def labelText (label : String × String) : String := label.1 ++ "=\"" ++ label.2 ++ "\""

def key (name : String) (labels : Labels) : String :=
  if labels.isEmpty then name
  else name ++ "\x7b" ++ ",".intercalate ((sortedLabels labels).map labelText) ++ "\x7d"

def includes (labels wanted : Labels) : Bool :=
  wanted.rows.all fun (name, v) => labels.get? name = some v

/-- Counters hold amounts of type `α`. -/
structure Collector (α : Type) where
  counters : Table String α
  gauges : Table String Amount
  names : Table String String
  labels : Table String Labels

namespace Collector

variable {α : Type}

def source : String := "cep_operator.core.metrics"

def empty : Collector α := ⟨∅, ∅, ∅, ∅⟩

def track (c : Collector α) (name : String) (labels : Labels) : Collector α :=
  { c with
    names := c.names.insert (key name labels) name
    labels := c.labels.insert (key name labels) labels }

def counter [OfNat α 0] (c : Collector α) (name : String) (labels : Labels) : α :=
  (c.counters.get? (key name labels)).getD 0

def gauge (c : Collector α) (name : String) (labels : Labels) : Amount :=
  (c.gauges.get? (key name labels)).getD (.real 0)

def increment [OfNat α 0] [Add α] (c : Collector α) (name : String) (amount : α)
    (labels : Labels) : Collector α :=
  { c with counters := c.counters.insert (key name labels) (c.counter name labels + amount) }
    |>.track name labels

def setGauge (c : Collector α) (name : String) (amount : Amount) (labels : Labels) :
    Collector α :=
  { c with gauges := c.gauges.insert (key name labels) amount } |>.track name labels

def keysWith (c : Collector α) (wanted : Labels) : List String :=
  (c.labels.rows.filter fun row => includes row.2 wanted).map Prod.fst

def dropKeys (c : Collector α) (keys : List String) : Collector α where
  counters := c.counters.filter fun key => !keys.contains key
  gauges := c.gauges.filter fun key => !keys.contains key
  names := c.names.filter fun key => !keys.contains key
  labels := c.labels.filter fun key => !keys.contains key

def labelsLiteral (labels : Labels) : String :=
  (Value.record (labels.rows.map fun (name, v) => (.text name, .text v))).literal

def removeSeries (wanted : Labels) : Operation (Collector α) Nat := do
  let keys := (← Operation.read).keysWith wanted
  Operation.change (·.dropKeys keys)
  if !keys.isEmpty then
    Operation.log source .debug
      ("Removed " ++ toString keys.length ++ " metric series for " ++ labelsLiteral wanted)
  return keys.length

def contextLabels (context : String) : Labels := Table.ofList [("context", context)]

variable [OfNat α 0] [OfNat α 1] [Add α]

def plansAdded : String := "cep_plans_added_total"
def plansRemoved : String := "cep_plans_removed_total"
def plansRegistered : String := "cep_plans_registered"
def managersCreated : String := "cep_engine_managers_created_total"
def plansAssembled : String := "cep_plans_assembled_total"

def planAdded (context : String) (registered : Int) (c : Collector α) : Collector α :=
  c.increment plansAdded 1 (contextLabels context)
    |>.setGauge plansRegistered (.whole registered) (contextLabels context)

def planRemoved (context : String) (registered : Int) (c : Collector α) : Collector α :=
  c.increment plansRemoved 1 (contextLabels context)
    |>.setGauge plansRegistered (.whole registered) (contextLabels context)

def managerCreated (context : String) (c : Collector α) : Collector α :=
  c.increment managersCreated 1 (contextLabels context)

def assembled (context mode : String) (c : Collector α) : Collector α :=
  c.increment plansAssembled 1 (Table.ofList [("context", context), ("mode", mode)])

def discardContext (context : String) : Operation (Collector α) Nat :=
  removeSeries (contextLabels context)

end Collector

example : key "m" (Table.ofList [("b", "1"), ("a", "2")]) = "m\x7ba=\"2\",b=\"1\"\x7d" := by
  decide +kernel

end EventOperator.Metrics
