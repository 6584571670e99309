import EventOperator.Document.Cursor

/-!
Text without quotes. It ends before a comment, before a colon that a blank follows, and inside
brackets also before their marks; it may go on over several lines that are indented deeply enough.
-/

namespace EventOperator.Document

def isFlowMark (c : Char) : Bool :=
  c = ',' || c = '[' || c = ']' || c = '\x7b' || c = '\x7d'

def endsKey (inFlow : Bool) : List Char → Bool
  | [] => true
  | c :: _ => isGap c || (inFlow && isFlowMark c)

def plainRun (inFlow : Bool) : List Char → List Char
  | [] => []
  | c :: s =>
      if isGap c || (c = ':' && endsKey inFlow s) || (inFlow && (c = '?' || isFlowMark c)) then []
      else c :: plainRun inFlow s

def beginsPlain (inFlow : Bool) : List Char → Bool
  | [] => false
  | c :: s =>
      !(isGap c || "-?:,[]\x7b\x7d#&*!|>'\"%@`".toList.contains c)
        || (!endsWord s && (c = '-' || (!inFlow && (c = '?' || c = ':'))))

/-- Spaces, and after the first line end all line ends and spaces. -/
def plainGap (s : List Char) : List Char :=
  let spaces := s.takeWhile (· = ' ')
  if endsLine (s.drop spaces.length) then s.takeWhile fun c => c = ' ' || isBreak c else spaces

structure Plain where
  text : List Char
  after : Cursor
  broken : Bool

/-- Text of a block stops at a line whose column is less than `least`. -/
def plainText (inFlow : Bool) (least : Nat) (c : Cursor) : Plain :=
  match _h : plainRun inFlow c.rest with
  | [] => ⟨[], c, false⟩
  | x :: run =>
      let s := c.rest.drop (run.length + 1)
      let gap := plainGap s
      let broken := gap.any isBreak
      let after := c.advance (run.length + 1 + gap.length)
      let divided := gap.getLast?.any isBreak && isDivider after.rest
      if gap.isEmpty || divided || after.rest.head? = some '#' || (!inFlow && after.column < least)
          || (plainRun inFlow after.rest).isEmpty then
        ⟨x :: run, after, broken⟩
      else
        let more := plainText inFlow least after
        ⟨x :: run ++ (if broken then joined (breaksIn gap) else gap) ++ more.text,
          more.after, more.broken⟩
termination_by c.rest.length
decreasing_by
  have hrest : c.rest ≠ [] := by
    intro hnil
    rw [hnil, plainRun] at _h
    cases _h
  have hpos := List.length_pos_iff.mpr hrest
  simp only [Cursor.rest_advance, List.length_drop]
  omega

end EventOperator.Document
