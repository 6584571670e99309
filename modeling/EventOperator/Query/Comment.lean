import EventOperator.Text.Pattern

/-!
Comments of a query: from `--` to the end of the line, and from `/*` to the next `*/`. A `/*` that
is never closed opens no comment.
-/

namespace EventOperator.Query

open EventOperator.Text

def afterClose? : List Char → Option (List Char)
  | '*' :: '/' :: s => some s
  | _ :: s => afterClose? s
  | [] => none

def comment? : Pattern Unit := fun _ s =>
  match s with
  | '-' :: '-' :: rest => some (taken s (rest.dropWhile (· ≠ '\n')) ())
  | '/' :: '*' :: rest => (afterClose? rest).map fun behind => taken s behind ()
  | _ => none

def stripComments (s : List Char) : List Char := blankOut comment? s

example : stripComments "a--b\n/*c*/d/*e".toList = "a \n d/*e".toList := by decide

end EventOperator.Query
