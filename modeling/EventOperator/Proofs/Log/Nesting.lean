import EventOperator.Log.Scope
import EventOperator.Proofs.Table

/-!
Blocks of log fields nest. What a call says, and whether it can say it, depends on the blocks that
stand around it and on its own fields, and on nothing that has happened before it.
-/

namespace EventOperator.Log

mutual
def Report.entries : Report → List (Level × String)
  | .said entries => entries
  | .block reports _ => Report.allEntries reports
  | .thread reports => Report.allEntries reports

def Report.allEntries : List Report → List (Level × String)
  | [] => []
  | report :: rest => report.entries ++ Report.allEntries rest
end

theorem Report.allEntries_append (reports later : List Report) :
    allEntries (reports ++ later) = allEntries reports ++ allEntries later := by
  induction reports with
  | nil => rfl
  | cons report rest ih =>
      rw [List.cons_append, allEntries, allEntries, ih, List.append_assoc]

theorem Report.allEntries_singleton (report : Report) : allEntries [report] = report.entries := by
  rw [allEntries, allEntries, List.append_nil]

/-- The fields of the blocks around a call, from the outermost one to the innermost, and its own. -/
structure Call where
  blocks : List (List (String × Value))
  level : Level
  message : String
  fields : List (String × Value)

/-- Each name stands where it first comes, with the value that comes last. -/
def merged (rows : List (String × Value)) : List (String × Value) :=
  (rows.map Prod.fst).eraseDups.filterMap fun name => (rows.reverse.lookup name).map (name, ·)

namespace Call

/-- There is no text if one of the fields has none. -/
def text? (call : Call) : Option String :=
  match merged (call.blocks.flatten ++ call.fields) with
  | [] => some call.message
  | rows =>
      (rows.mapM fieldText?).map fun texts => call.message ++ " | " ++ " ".intercalate texts

def entry? (call : Call) : Option (Level × String) := call.text?.map (call.level, ·)

def isShown (threshold : Level) (call : Call) : Bool := threshold.rank ≤ call.level.rank

def succeeds (threshold : Level) (call : Call) : Bool :=
  areFree callNames call.fields && (!call.isShown threshold || call.entry?.isSome)

end Call

mutual
/-- The calls that succeed, and whether a failure leaves the action. -/
def Action.calls (threshold : Level) (blocks : List (List (String × Value))) :
    Action → List Call × Bool
  | .say level message fields =>
      if Call.succeeds threshold ⟨blocks, level, message, fields⟩ then
        ([⟨blocks, level, message, fields⟩], false)
      else ([], true)
  | .block fields actions _ =>
      if areFree blockNames fields then Action.allCalls threshold (blocks ++ [fields]) actions
      else ([], true)
  | .thread actions => ((Action.allCalls threshold [] actions).1, false)
  | .fail => ([], true)
  | .attempt actions => ((Action.allCalls threshold blocks actions).1, false)

/-- What stands behind a failure is not done. -/
def Action.allCalls (threshold : Level) (blocks : List (List (String × Value))) :
    List Action → List Call × Bool
  | [] => ([], false)
  | action :: rest =>
      let first := action.calls threshold blocks
      if first.2 then first
      else
        let last := Action.allCalls threshold blocks rest
        (first.1 ++ last.1, last.2)
end

def scopeOf (blocks : List (List (String × Value))) : Fields := Table.ofList blocks.flatten

theorem scopeOf_concat (blocks : List (List (String × Value))) (fields : List (String × Value)) :
    scopeOf (blocks ++ [fields]) = (scopeOf blocks).insertAll fields := by
  rw [scopeOf, List.flatten_concat]
  exact Table.insertAll_append _ _ _

theorem rows_ofList (rows : List (String × Value)) : (Table.ofList rows).rows = merged rows := by
  have hcollects := Table.collects_ofList rows
  rw [Table.rows_eq_filterMap, hcollects.keys, merged]
  simp only [hcollects.last]

theorem withFields?_eq (call : Call) :
    withFields? call.message ((scopeOf call.blocks).insertAll call.fields) = call.text? := by
  have hrows : ((scopeOf call.blocks).insertAll call.fields).rows =
      merged (call.blocks.flatten ++ call.fields) := by
    rw [← rows_ofList, scopeOf, Table.ofList, Table.ofList, Table.insertAll_append]
  rw [withFields?, hrows, Call.text?]
  cases merged (call.blocks.flatten ++ call.fields) with
  | nil => rfl
  | cons row rows =>
      simp only [List.mapM_cons]
      cases fieldText? row with
      | none => rfl
      | some text => cases rows.mapM fieldText? <;> rfl

theorem said_of_shown (threshold : Level) {call : Call} (h : call.isShown threshold = true) :
    said threshold call.level call.message ((scopeOf call.blocks).insertAll call.fields) =
      call.entry?.map fun entry => .said [entry] := by
  rw [said, if_pos (of_decide_eq_true h), withFields?_eq, Call.entry?, Option.map_map]
  rfl

theorem said_of_not_shown (threshold : Level) {call : Call} (h : call.isShown threshold = false)
    (scope : Fields) : said threshold call.level call.message scope = some (.said []) :=
  if_neg (of_decide_eq_false h)

mutual
theorem Action.scope_run (threshold : Level) (scope : Fields) (action : Action) :
    (action.run threshold scope).scope = scope := by
  cases action with
  | say level message fields =>
      rw [Action.run]
      split
      · cases said threshold level message (scope.insertAll fields) <;> rfl
      · rfl
  | block fields actions fails =>
      rw [Action.run]
      split <;> rfl
  | thread actions => rw [Action.run]
  | fail => rw [Action.run]
  | attempt actions =>
      rw [Action.run]
      exact Action.scope_runAll threshold scope actions

theorem Action.scope_runAll (threshold : Level) (scope : Fields) (actions : List Action) :
    (Action.runAll threshold scope actions).scope = scope := by
  cases actions with
  | nil => rw [Action.runAll]
  | cons action rest =>
      have hfirst := Action.scope_run threshold scope action
      rw [Action.runAll]
      split
      · exact hfirst
      · rw [hfirst]
        exact Action.scope_runAll threshold scope rest
end

/-- The entries are those of the calls, and a failure comes up in the one where it does in the
other. -/
structure Course.Says (course : Course) (threshold : Level) (calls : List Call × Bool) : Prop where
  entries : (Report.allEntries course.reports).map some =
    (calls.1.filter (Call.isShown threshold)).map Call.entry?
  failed : course.failed = calls.2

theorem Action.say_says (threshold : Level) (call : Call) :
    ((Action.say call.level call.message call.fields).run threshold (scopeOf call.blocks)).Says
      threshold ((Action.say call.level call.message call.fields).calls threshold call.blocks) := by
  rw [Action.run, Action.calls, Call.succeeds]
  cases areFree callNames call.fields with
  | false => exact ⟨rfl, rfl⟩
  | true =>
      cases hshown : call.isShown threshold with
      | false =>
          rw [said_of_not_shown threshold hshown]
          refine ⟨?_, rfl⟩
          rw [List.filter_eq_nil_iff.mpr]
          · rfl
          · simp [hshown]
      | true =>
          rw [said_of_shown threshold hshown]
          cases hentry : call.entry? with
          | none => exact ⟨rfl, rfl⟩
          | some entry =>
              refine ⟨?_, rfl⟩
              simp [Report.allEntries, Report.entries, hshown, hentry]

mutual
theorem Action.run_says (threshold : Level) (blocks : List (List (String × Value)))
    (action : Action) :
    (action.run threshold (scopeOf blocks)).Says threshold (action.calls threshold blocks) := by
  cases action with
  | say level message fields => exact Action.say_says threshold ⟨blocks, level, message, fields⟩
  | block fields actions fails =>
      have hinner := Action.runAll_says threshold (blocks ++ [fields]) actions
      rw [scopeOf_concat] at hinner
      rw [Action.run, Action.calls]
      split
      · exact ⟨by rw [Report.allEntries_singleton, Report.entries, hinner.entries], hinner.failed⟩
      · exact ⟨rfl, rfl⟩
  | thread actions =>
      have hinner := Action.runAll_says threshold [] actions
      rw [Action.run, Action.calls]
      exact ⟨by rw [Report.allEntries_singleton, Report.entries, ← hinner.entries]; rfl, rfl⟩
  | fail =>
      rw [Action.run, Action.calls]
      exact ⟨rfl, rfl⟩
  | attempt actions =>
      have hinner := Action.runAll_says threshold blocks actions
      rw [Action.run, Action.calls]
      exact ⟨by rw [Report.allEntries_singleton, Report.entries, hinner.entries], rfl⟩

theorem Action.runAll_says (threshold : Level) (blocks : List (List (String × Value)))
    (actions : List Action) :
    (Action.runAll threshold (scopeOf blocks) actions).Says threshold
      (Action.allCalls threshold blocks actions) := by
  cases actions with
  | nil =>
      rw [Action.runAll, Action.allCalls]
      exact ⟨rfl, rfl⟩
  | cons action rest =>
      have hfirst := Action.run_says threshold blocks action
      rw [Action.runAll, Action.allCalls, hfirst.failed]
      split
      · rename_i hfailed
        exact ⟨hfirst.entries, hfirst.failed⟩
      · have hlast := Action.runAll_says threshold blocks rest
        rw [Action.scope_run]
        refine ⟨?_, hlast.failed⟩
        rw [Report.allEntries_append, List.map_append, hfirst.entries, hlast.entries,
          List.filter_append, List.map_append]
end

/-- In whatever blocks actions are nested and wherever failures leave them, each entry is that of a
call with the fields of the blocks around it and its own: a name stands where it first comes, with
the value that comes last. Only a call that is to be shown and has a field that cannot be written
fails for its fields. Behind each action, a block among them, the fields that apply are those that
applied before it. -/
theorem entries_nested (threshold : Level) (blocks : List (List (String × Value)))
    (actions : List Action) :
    let course := Action.runAll threshold (scopeOf blocks) actions
    let calls := Action.allCalls threshold blocks actions
    (Report.allEntries course.reports).map some =
        (calls.1.filter (Call.isShown threshold)).map Call.entry? ∧
      course.failed = calls.2 ∧ course.scope = scopeOf blocks ∧
      ∀ (scope : Fields) (action : Action), (action.run threshold scope).scope = scope := by
  have hcourse := Action.runAll_says threshold blocks actions
  exact ⟨hcourse.entries, hcourse.failed, Action.scope_runAll threshold _ actions,
    Action.scope_run threshold⟩

example :
    (Action.runAll .info ∅
      [.attempt
        [.block [("id", .text "p"), ("step", .text "build")]
          [.block [("id", .text "q")]
            [.say .info "stored" [], .say .info "read" [("rows", .list [.bytes []])]] false,
            .say .info "lost" []]
          false],
        .say .info "done" []]).reports.flatMap Report.entries =
      [(.info, "stored | id=q step=build"), (.info, "done")] := by decide +kernel

end EventOperator.Log
