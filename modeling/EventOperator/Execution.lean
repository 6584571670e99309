import EventOperator.Fault
import EventOperator.Table
import EventOperator.Verdict

/-!
How an operator is executed: its notion of time, and the settings of its environment.
-/

namespace EventOperator

inductive TimeCharacteristic where
  | processingTime
  | ingestionTime
  | eventTime
  deriving DecidableEq

namespace TimeCharacteristic

def name : TimeCharacteristic → String
  | processingTime => "processing_time"
  | ingestionTime => "ingestion_time"
  | eventTime => "event_time"

def choices : List (String × TimeCharacteristic) :=
  [processingTime, ingestionTime, eventTime].map fun time => (time.name, time)

def read : Value → Verdict TimeCharacteristic := Value.asChoice choices

def ofValue (v : Value) : Except Fault TimeCharacteristic :=
  match read v with
  | .sound time => .ok time
  | .faulty _ => .error (.noSuchTime v)

end TimeCharacteristic

structure ExecutionConfig where
  parallelism : Int
  maxParallelism? : Option Int
  watermarkInterval : Int
  objectReuse : Bool
  jobParameters : Table String String

namespace ExecutionConfig

def withParallelism (n : Int) : ExecutionConfig := ⟨n, none, 200, false, ∅⟩

def asWholeFrom (least : Int) (v : Value) : Verdict Int :=
  v.asWhole.andThen (Value.checkLeast least)

def read : Value → Verdict ExecutionConfig :=
  Value.shaped "ExecutionConfig" fun rows =>
    mk <$> Value.fieldOr "parallelism" 1 (asWholeFrom 1) rows
      <*> Value.fieldOr "max_parallelism" none (Value.orNull (asWholeFrom 1)) rows
      <*> Value.fieldOr "auto_watermark_interval_ms" 200 (asWholeFrom 0) rows
      <*> Value.fieldOr "object_reuse" false Value.asFlag rows
      <*> (Table.ofList <$>
        Value.fieldOr "global_job_parameters" [] (Value.asRecord Value.asText) rows)

def toValue (c : ExecutionConfig) : Value :=
  .record
    [ (.text "parallelism", .whole c.parallelism),
      (.text "max_parallelism", c.maxParallelism?.elim .null .whole),
      (.text "auto_watermark_interval_ms", .whole c.watermarkInterval),
      (.text "object_reuse", .flag c.objectReuse),
      (.text "global_job_parameters",
        .record (c.jobParameters.rows.map fun (k, v) => (.text k, .text v))) ]

end ExecutionConfig

/-- An operator carries its execution settings along without looking into them. -/
inductive ExecutionSettings where
  | declared (config : ExecutionConfig)
  | foreign (v : Value)

def ExecutionSettings.isAbsent : ExecutionSettings → Bool
  | foreign .null => true
  | _ => false

end EventOperator
