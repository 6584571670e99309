/-!
The bits of a number in double precision: a fraction of fifty-two bits, an exponent of eleven above
it, and the sign on top.
-/

namespace EventOperator.Decimal

def exponentUnit : Nat := 0x10000000000000

def signUnit : Nat := 0x8000000000000000

/-- Exponents below this are those of finite numbers. -/
def infinityBits : Nat := 2047 * exponentUnit

def nanBits : Nat := infinityBits + exponentUnit / 2

def magnitude (bits : Nat) : Nat := bits % signUnit

def isNegative (bits : Nat) : Bool := bits / signUnit % 2 = 1

end EventOperator.Decimal
