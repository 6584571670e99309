import EventOperator.Document.Meaning

/-!
Documents: text with one value in it, written as the indented or bracketed collections of YAML 1.1.
-/

namespace EventOperator.Document

/-- Nothing in a document without content is null. -/
def read (text : String) : Except Fault Value :=
  let s := text.toList
  if s.all isReadable then do
    let n ← Node.ofStream (.ofText s)
    n.meaning.mapError Prod.snd
  else .error .malformed

def withPlainBreaks (text : String) : String := String.ofList (go text.toList)
where
  go : List Char → List Char
    | [] => []
    | '\r' :: '\n' :: s => '\n' :: go s
    | c :: s => (if c = '\r' then '\n' else c) :: go s

end EventOperator.Document
