/-!
Issues: what is wrong with data that was to have a given shape, and where.
-/

namespace EventOperator

/-- One step towards a part of the data: the name of a field or key, or a position. -/
inductive Step where
  | name (s : String)
  | position (n : Int)
  deriving DecidableEq

inductive Complaint where
  | missing
  | notRecord
  | notShaped (shape : String)
  | notList
  | notText
  | unreadableText
  | notOneOf (choices : List String)
  | notWhole
  | unreadableWhole
  | fractional
  | tooLarge
  | notFinite
  | below (least : Int)
  | notFlag
  | unreadableFlag
  deriving DecidableEq

structure Issue where
  complaint : Complaint
  place : List Step
  deriving DecidableEq

namespace Complaint

def choiceText : List String → String
  | [] => ""
  | [a] => "'" ++ a ++ "'"
  | [a, b] => "'" ++ a ++ "' or '" ++ b ++ "'"
  | a :: rest => "'" ++ a ++ "', " ++ choiceText rest

def message : Complaint → String
  | missing => "Field required"
  | notRecord => "Input should be a valid dictionary"
  | notShaped shape => "Input should be a valid dictionary or instance of " ++ shape
  | notList => "Input should be a valid list"
  | notText => "Input should be a valid string"
  | unreadableText =>
      "Input should be a valid string, unable to parse raw data as a unicode string"
  | notOneOf choices => "Input should be " ++ choiceText choices
  | notWhole => "Input should be a valid integer"
  | unreadableWhole => "Input should be a valid integer, unable to parse string as an integer"
  | fractional => "Input should be a valid integer, got a number with a fractional part"
  | tooLarge => "Unable to parse input string as an integer, exceeded maximum size"
  | notFinite => "Input should be a finite number"
  | below least => "Input should be greater than or equal to " ++ toString least
  | notFlag => "Input should be a valid boolean"
  | unreadableFlag => "Input should be a valid boolean, unable to interpret input"

def code : Complaint → String
  | missing => "missing"
  | notRecord => "dict_type"
  | notShaped _ => "model_type"
  | notList => "list_type"
  | notText => "string_type"
  | unreadableText => "string_unicode"
  | notOneOf _ => "enum"
  | notWhole => "int_type"
  | unreadableWhole => "int_parsing"
  | fractional => "int_from_float"
  | tooLarge => "int_parsing_size"
  | notFinite => "finite_number"
  | below _ => "greater_than_equal"
  | notFlag => "bool_type"
  | unreadableFlag => "bool_parsing"

end Complaint

def Issue.within (step : Step) (issue : Issue) : Issue :=
  { issue with place := step :: issue.place }

def Issue.here (complaint : Complaint) : Issue := ⟨complaint, []⟩

end EventOperator
