import EventOperator.Log.Entry
import EventOperator.Table
import EventOperator.Value.Json

/-!
Fields that are written behind a message. A block binds fields for everything that is logged in it
by the same thread; when it is left, the fields that applied before it apply again.
-/

namespace EventOperator.Log

abbrev Fields := Table String Value

/-- Lists and records are written as JSON, if they can be. -/
def valueText? (v : Value) : Option String :=
  if v.isWritable then
    match v with
    | .list _ | .record _ => if v.isJson then some v.json else none
    | _ => some v.display
  else none

def fieldText (name text : String) : String := name ++ "=" ++ text

def fieldText? (field : String × Value) : Option String :=
  (valueText? field.2).map (fieldText field.1)

def withTexts (message : String) (texts : List String) : String :=
  if texts.isEmpty then message else message ++ " | " ++ " ".intercalate texts

def withFields? (message : String) (fields : Fields) : Option String :=
  (fields.rows.mapM fieldText?).map (withTexts message)

/-- Names that the parameters of a call have, which no field of it can have. -/
def callNames : List String := ["self", "message", "level"]

def blockNames : List String := ["self"]

def areFree (names : List String) (fields : List (String × Value)) : Bool :=
  fields.all fun field => !names.contains field.1

inductive Action where
  | say (level : Level) (message : String) (fields : List (String × Value))
  /-- A block may be left at its end by a failure, which goes no further than the block. -/
  | block (fields : List (String × Value)) (actions : List Action) (fails : Bool)
  /-- Another thread begins without any fields. -/
  | thread (actions : List Action)
  /-- A failure leaves everything around it, up to an attempt. -/
  | fail
  | attempt (actions : List Action)
  deriving Inhabited

inductive Report where
  | said (entries : List (Level × String))
  | block (reports : List Report) (failed : Bool)
  | thread (reports : List Report)
  deriving Inhabited

structure Course where
  reports : List Report
  scope : Fields
  failed : Bool

/-- A message and its fields are written only if the level is enabled, and this fails if a field
cannot be. -/
def said (threshold level : Level) (message : String) (fields : Fields) : Option Report :=
  if threshold.rank ≤ level.rank then
    (withFields? message fields).map fun text => .said [(level, text)]
  else some (.said [])

mutual
/-- The fields that applied before a block apply again when it is left, in whatever way. -/
def Action.run (threshold : Level) (scope : Fields) : Action → Course
  | .say level message fields =>
      if areFree callNames fields then
        match said threshold level message (scope.insertAll fields) with
        | some report => ⟨[report], scope, false⟩
        | none => ⟨[], scope, true⟩
      else ⟨[], scope, true⟩
  | .block fields actions fails =>
      if areFree blockNames fields then
        let inner := Action.runAll threshold (scope.insertAll fields) actions
        ⟨[.block inner.reports (inner.failed || fails)], scope, inner.failed⟩
      else ⟨[], scope, true⟩
  | .thread actions => ⟨[.thread (Action.runAll threshold ∅ actions).reports], scope, false⟩
  | .fail => ⟨[], scope, true⟩
  | .attempt actions =>
      let inner := Action.runAll threshold scope actions
      ⟨[.block inner.reports inner.failed], inner.scope, false⟩

def Action.runAll (threshold : Level) (scope : Fields) : List Action → Course
  | [] => ⟨[], scope, false⟩
  | action :: rest =>
      let first := Action.run threshold scope action
      if first.failed then first
      else
        let last := Action.runAll threshold first.scope rest
        ⟨first.reports ++ last.reports, last.scope, last.failed⟩
end

example : withFields? "stored" (Table.ofList [("id", .text "p"), ("all", .list [.text "a"])]) =
    some "stored | id=p all=[\"a\"]" := by decide

end EventOperator.Log
