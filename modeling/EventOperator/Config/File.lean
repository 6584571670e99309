import EventOperator.Config
import EventOperator.Document

/-!
Declarations in documents and in files. A path is named without the parts that lead nowhere.
-/

namespace EventOperator.Config

/-- Parts that are empty or a single point are dropped, and so is all but one of the slashes in
front, unless they are exactly two. -/
def plainPath (path : String) : String :=
  let s := path.toList
  let slashes := s.takeWhile (· = '/')
  let front := if slashes.length = 2 then ['/', '/'] else slashes.take 1
  let parts := (Text.splitAt '/' s).filter fun part => part ≠ [] ∧ part ≠ ['.']
  let rest := ['/'].intercalate parts
  if front.isEmpty ∧ rest.isEmpty then "." else String.ofList (front ++ rest)

def ofDocument (text : String) : Except Fault Config := do
  let v ← (Document.read text).mapError Fault.document
  ofValue (if v.isVoid then .record [] else v)

def ofFile (content : String) : Except Fault Config :=
  ofDocument (Document.withPlainBreaks content)

def missingFile (path : String) : Fault :=
  .badConfig ("Config file not found: " ++ plainPath path) []

example : plainPath "./a//b/../c/" = "a/b/../c" ∧ plainPath "///x" = "/x" ∧
    plainPath "//x" = "//x" ∧ plainPath "" = "." := by decide

end EventOperator.Config
