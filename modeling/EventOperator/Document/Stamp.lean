import EventOperator.Calendar
import EventOperator.Document.Fault
import EventOperator.Document.Property

/-!
Days and times of day in text, and the ranges that their numbers must keep to.
-/

namespace EventOperator.Document

def readShort (least most : Nat) : Reading Nat := fun s =>
  let digits := (s.take most).takeWhile Char.isDigit
  if digits.length < least then none
  else some (Nat.ofDigitChars 10 digits 0, s.drop digits.length)

def readBehind (mark : Char) (least most : Nat) : Reading Nat
  | [] => none
  | c :: s => if c = mark then readShort least most s else none

def dropInline (s : List Char) : List Char := s.dropWhile isInline

/-- The first six digits behind the point. -/
def readFraction : List Char → Nat × List Char
  | '.' :: s =>
      let digits := s.takeWhile Char.isDigit
      let front := digits.take 6
      (Nat.ofDigitChars 10 front 0 * Nat.pow 10 (6 - front.length), s.drop digits.length)
  | s => (0, s)

def readZone? : List Char → Option (Option Int)
  | [] => some none
  | s =>
      match dropInline s with
      | ['Z'] => some (some 0)
      | c :: s =>
          if c = '+' ∨ c = '-' then do
            let (hours, s) ← readShort 1 2 s
            let (minutes, s) ← if s.isEmpty then some (0, s) else readBehind ':' 2 2 s
            let offset : Int := hours * 60 + minutes
            if s.isEmpty then some (some (if c = '-' then -offset else offset)) else none
          else none
      | [] => none

def readClock? (s : List Char) : Option Clock := do
  let (hour, s) ← readShort 1 2 s
  let (minute, s) ← readBehind ':' 2 2 s
  let (second, s) ← readBehind ':' 2 2 s
  let (microsecond, s) := readFraction s
  return ⟨hour, minute, second, microsecond, ← readZone? s⟩

def afterDay? : List Char → Option (List Char)
  | [] => none
  | c :: s =>
      if c = 'T' ∨ c = 't' then some s
      else if isInline c then some (dropInline s)
      else none

def withoutLastBreak (s : List Char) : List Char :=
  if s.getLast? = some '\n' then s.dropLast else s

/-- A day, or a day and a time; whether there are such is not looked at. -/
def readMoment? (s : List Char) : Option Moment := do
  let (year, s) ← readShort 4 4 (withoutLastBreak s)
  let (month, s) ← readBehind '-' 1 2 s
  let (day, s) ← readBehind '-' 1 2 s
  if s.isEmpty then some ⟨year, month, day, none⟩
  else return ⟨year, month, day, some (← readClock? (← afterDay? s))⟩

def checkZone (clock : Clock) : Except Fault Unit :=
  match clock.offset? with
  | some offset => if offset.natAbs < 1440 then .ok () else .error (.zoneOutOfRange offset)
  | none => .ok ()

def checkClock (clock : Clock) : Except Fault Unit :=
  if 24 ≤ clock.hour then .error .hourOutOfRange
  else if 60 ≤ clock.minute then .error .minuteOutOfRange
  else if 60 ≤ clock.second then .error .secondOutOfRange
  else .ok ()

def checkDay (m : Moment) : Except Fault Unit :=
  if m.year = 0 then .error (.yearOutOfRange m.year)
  else if m.month = 0 ∨ 12 < m.month then .error .monthOutOfRange
  else if m.day = 0 ∨ Moment.daysIn m.year m.month < m.day then .error .dayOutOfRange
  else .ok ()

/-- The zone is looked at first, then the day, then the time. -/
def momentOf (s : List Char) : Except Fault Moment :=
  match readMoment? s with
  | none => .error .notMoment
  | some m => do
      m.clock?.forM checkZone
      checkDay m
      m.clock?.forM checkClock
      return m

end EventOperator.Document
