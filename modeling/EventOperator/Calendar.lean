/-!
Days and times of day.
-/

namespace EventOperator

structure Clock where
  hour : Nat
  minute : Nat
  second : Nat
  microsecond : Nat
  /-- The distance from universal time in minutes, where it is known. -/
  offset? : Option Int
  deriving DecidableEq

structure Moment where
  year : Nat
  month : Nat
  day : Nat
  clock? : Option Clock
  deriving DecidableEq

namespace Moment

def isLeapYear (year : Nat) : Bool :=
  year % 4 = 0 && (year % 100 ≠ 0 || year % 400 = 0)

def daysIn (year month : Nat) : Nat :=
  if month = 2 then (if isLeapYear year then 29 else 28)
  else if [4, 6, 9, 11].contains month then 30 else 31

end Moment

end EventOperator
