import EventOperator.Document.Property
import EventOperator.Document.Quoted

/-!
The tokens of a document. Block collections are marked where they begin and where they end, although
only the columns of the text show it.
-/

namespace EventOperator.Document

inductive Token where
  | directive (directive : Directive)
  | documentStart
  | documentEnd
  | blockSequence
  | blockMapping
  | blockEnd
  | flowSequence
  | flowSequenceEnd
  | flowMapping
  | flowMappingEnd
  | comma
  | item
  | key
  | value
  | anchor (name : List Char)
  | link (name : List Char)
  | tag (name : TagName)
  | scalar (isPlain : Bool) (letters : List Letter)
  deriving DecidableEq

/-- The tokens of a text up to its end, or up to the place of a fault. -/
structure TokenStream where
  tokens : List Token
  fault? : Option Fault

end EventOperator.Document
