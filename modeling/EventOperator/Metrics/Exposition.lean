import EventOperator.Metrics.Collector
import EventOperator.Value.Json

/-!
The amounts of a collector as text: samples grouped by metric under a line with its type, or JSON.
-/

namespace EventOperator.Metrics

def families (names : Table String String) (samples : List (String × String)) :
    Table String (List String) :=
  samples.foldl
    (fun table (key, amount) =>
      let name := (names.get? key).getD key
      table.insert name ((table.get? name).getD [] ++ [key ++ " " ++ amount]))
    ∅

def familyLines (kind : String) (names : Table String String) (samples : List (String × String)) :
    List String :=
  (families names samples).rows.flatMap fun (name, lines) =>
    ("# TYPE " ++ name ++ " " ++ kind) :: lines

namespace Collector

def lines (text : α → String) (c : Collector α) : List String :=
  familyLines "counter" c.names (c.counters.rows.map fun (key, a) => (key, text a))
    ++ familyLines "gauge" c.names (c.gauges.rows.map fun (key, a) => (key, a.toValue.literal))

def exposition (text : α → String) (c : Collector α) : String := "\n".intercalate (c.lines text)

def amountRows (rows : List (String × Value)) : Value :=
  .record (rows.map fun (key, amount) => (.text key, amount))

def toJson (amount : α → Value) (time : String) (c : Collector α) : String :=
  (Value.record
    [ (.text "counters", amountRows (c.counters.rows.map fun (key, a) => (key, amount a))),
      (.text "gauges", amountRows (c.gauges.rows.map fun (key, a) => (key, a.toValue))),
      (.text "collected_at", .text time) ]).indented 0

end Collector

end EventOperator.Metrics
