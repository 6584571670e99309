import EventOperator.Value.Literal

/-!
Faults of documents. A document is malformed when its text or its structure is; a scalar of a sound
document may still name no value of its type.
-/

namespace EventOperator.Document

inductive Fault where
  | malformed
  | yearOutOfRange (year : Nat)
  | monthOutOfRange
  | dayOutOfRange
  | hourOutOfRange
  | minuteOutOfRange
  | secondOutOfRange
  | zoneOutOfRange (minutes : Int)
  | notNumeral (base : Nat) (text : String)
  | longNumeral (digits : Nat)
  | emptyNumeral
  | notReal (text : String)
  | notFlag (text : String)
  | notMoment
  | codeOutOfRange
  | codeTooLarge
  deriving DecidableEq

def Fault.message : Fault → String
  | malformed => "Invalid YAML"
  | yearOutOfRange year => "year " ++ toString year ++ " is out of range"
  | monthOutOfRange => "month must be in 1..12"
  | dayOutOfRange => "day is out of range for month"
  | hourOutOfRange => "hour must be in 0..23"
  | minuteOutOfRange => "minute must be in 0..59"
  | secondOutOfRange => "second must be in 0..59"
  | zoneOutOfRange minutes =>
      "offset must be a timedelta strictly between -timedelta(hours=24) and timedelta(hours=24), "
        ++ "not " ++ Moment.spanLiteral minutes ++ "."
  | notNumeral base text =>
      "invalid literal for int() with base " ++ toString base ++ ": "
        ++ String.ofList ((Text.quoted text).toList.take 200)
  | longNumeral digits =>
      "Exceeds the limit (4300 digits) for integer string conversion: value has "
        ++ toString digits ++ " digits; use sys.set_int_max_str_digits() to increase the limit"
  | emptyNumeral => "string index out of range"
  | notReal text => "could not convert string to float: " ++ Text.quoted text
  | notFlag text => Text.quoted text
  | notMoment => "'NoneType' object has no attribute 'groupdict'"
  | codeOutOfRange => "chr() arg not in range(0x110000)"
  | codeTooLarge => "Python int too large to convert to C int"

end EventOperator.Document
