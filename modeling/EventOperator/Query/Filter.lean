import EventOperator.Text.Pattern

/-!
Filters are bracketed groups. The innermost groups are taken out first, again and again, until none
is left.
-/

namespace EventOperator.Query

open EventOperator.Text

/-- The text after a `]` that no bracket stands before. -/
def afterGroup? : List Char → Option (List Char)
  | [] => none
  | c :: s => if c = ']' then some s else if c = '[' then none else afterGroup? s

def innermostFilter? : Pattern Unit := fun _ s =>
  match s with
  | '[' :: rest => (afterGroup? rest).map fun behind => taken s behind ()
  | _ => none

def withoutFilters (s : List Char) : List Char :=
  let outer := blankOut innermostFilter? s
  if outer.length < s.length then withoutFilters outer else s
termination_by s.length

end EventOperator.Query
