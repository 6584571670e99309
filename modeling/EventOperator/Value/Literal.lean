import EventOperator.Decimal.Notation
import EventOperator.Decimal.Numeral
import EventOperator.Text.Quoted
import EventOperator.Value

/-!
Values written as literals: names in quotes, lists in square brackets, records in braces.
-/

namespace EventOperator

def commaSeparated (items : List String) : String := ", ".intercalate items

def bracketed (items : List String) : String := "[" ++ commaSeparated items ++ "]"

def braced (items : List String) : String := "\x7b" ++ commaSeparated items ++ "\x7d"

def nameList (names : List String) : String := bracketed (names.map Text.quoted)

namespace Moment

def spanLiteral (minutes : Int) : String :=
  let days := minutes / 1440
  let seconds := minutes % 1440 * 60
  let parts := (if days = 0 then [] else ["days=" ++ toString days])
    ++ (if seconds = 0 then [] else ["seconds=" ++ toString seconds])
  "datetime.timedelta(" ++ (if parts.isEmpty then "0" else commaSeparated parts) ++ ")"

def zoneLiteral (offset : Int) : String :=
  if offset = 0 then "datetime.timezone.utc" else "datetime.timezone(" ++ spanLiteral offset ++ ")"

/-- Seconds and their fractions are left out when they are zero. -/
def literal (m : Moment) : String :=
  let date := [m.year, m.month, m.day].map toString
  match m.clock? with
  | none => "datetime.date(" ++ commaSeparated date ++ ")"
  | some clock =>
      let time := [clock.hour, clock.minute]
        ++ (if clock.second = 0 ∧ clock.microsecond = 0 then [] else [clock.second])
        ++ (if clock.microsecond = 0 then [] else [clock.microsecond])
      let zone := match clock.offset? with
        | none => []
        | some offset => ["tzinfo=" ++ zoneLiteral offset]
      "datetime.datetime(" ++ commaSeparated (date ++ time.map toString ++ zone) ++ ")"

def offsetText (minutes : Int) : String :=
  (if minutes < 0 then "-" else "+") ++ Decimal.padded 2 (minutes.natAbs / 60) ++ ":"
    ++ Decimal.padded 2 (minutes.natAbs % 60)

def dateText (m : Moment) : String :=
  Decimal.padded 4 m.year ++ "-" ++ Decimal.padded 2 m.month ++ "-" ++ Decimal.padded 2 m.day

def clockText (clock : Clock) : String :=
  Decimal.padded 2 clock.hour ++ ":" ++ Decimal.padded 2 clock.minute ++ ":"
    ++ Decimal.padded 2 clock.second
    ++ (if clock.microsecond = 0 then "" else "." ++ Decimal.padded 6 clock.microsecond)
    ++ clock.offset?.elim "" offsetText

def text (m : Moment) : String :=
  match m.clock? with
  | none => m.dateText
  | some clock => m.dateText ++ " " ++ clockText clock

example : text ⟨2020, 1, 2, some ⟨3, 4, 5, 60, some (-90)⟩⟩ =
    "2020-01-02 03:04:05.000060-01:30" := by decide

end Moment

namespace Value

mutual
def literal : Value → String
  | null => "None"
  | flag b => if b then "True" else "False"
  | whole n => toString n
  | real x => Decimal.plain.real x
  | text s => Text.quoted s
  | torn => "'\\ud800'"
  | bytes octets => Text.quotedBytes octets
  | moment m => m.literal
  | list items => bracketed (literals items)
  | bag items => if items.isEmpty then "set()" else braced (literals items)
  | record rows => braced (rowLiterals rows)

def literals : List Value → List String
  | [] => []
  | v :: rest => literal v :: literals rest

def rowLiterals : List (Value × Value) → List String
  | [] => []
  | (k, v) :: rest => (literal k ++ ": " ++ literal v) :: rowLiterals rest
end

/-- Whole numbers with too many digits cannot be written. -/
def isWritable (v : Value) : Bool :=
  v.all fun
    | whole n => (toString n.natAbs).length ≤ Decimal.longestNumeral
    | _ => true

/-- Text and moments stand for themselves. Torn text, which no characters can show, has its literal
for it. -/
def display : Value → String
  | text s => s
  | moment m => m.text
  | v => v.literal

end Value

end EventOperator
