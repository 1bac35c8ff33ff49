/-!
# Double precision numbers

A double is kept as its 64 bits, and everything about it is said in exact integer arithmetic: how a
quotient is rounded to the nearest double (a tie goes to the even neighbour, an overflow to
infinity), how a decimal numeral is read, and which rational a finite double stands for.
-/

namespace EntityDiagram.Number

/-- A double precision number, by its bits. -/
structure Binary64 where
  bits : UInt64
  deriving BEq, DecidableEq, Repr, Inhabited

namespace Binary64

/-- The exponent of the smallest positive double. -/
def minExponent : Int := -1074

/-- One unit of the exponent field, as a number of units of the fraction field. -/
def exponentUnit : Nat := 0x10000000000000

/-- The bits of positive infinity. -/
def infinityBits : Nat := 0x7FF * exponentUnit

/-- The quotient of two numbers, rounded to the nearest integer, a tie going to the even one. -/
def divideToEven (num den : Nat) : Nat :=
  let quotient := num / den
  let rest := num % den
  if 2 * rest < den then quotient
  else if den < 2 * rest then quotient + 1
  else if quotient % 2 = 0 then quotient
  else quotient + 1

/-- The quotient times the power of two, as a fraction without negative exponents. -/
def scaled (num den : Nat) (exponent : Int) : Nat × Nat :=
  if 0 ≤ exponent then (num * Nat.pow 2 exponent.toNat, den)
  else (num, den * Nat.pow 2 (-exponent).toNat)

/-- The exponent of the unit in the last place for a positive quotient. -/
def unitExponent (num den : Nat) : Int :=
  let guess : Int := (Nat.log2 num : Int) - Nat.log2 den
  let (top, bottom) := scaled num den (-guess)
  let exact := if top < bottom then guess - 1 else guess
  max (exact - 52) minExponent

/-- The bits of the double nearest to a positive quotient. A significand that rounds up to the next
power of two carries into the exponent field, which is the right result. -/
def magnitudeBits (num den : Nat) : Nat :=
  let exponent := unitExponent num den
  let (top, bottom) := scaled num den (-exponent)
  let bits := (exponent - minExponent).toNat * exponentUnit + divideToEven top bottom
  if bits < infinityBits then bits else infinityBits

/-- The non-negative double nearest to a quotient. -/
def ofQuotient (num den : Nat) : Binary64 :=
  if num = 0 then ⟨0⟩ else ⟨(magnitudeBits num den).toUInt64⟩

/-- The double nearest to a number of units of a power of ten. Exponents far outside the range of
doubles are settled by the magnitude alone. -/
def ofDecimal (units : Nat) (exponent : Int) : Binary64 :=
  if units = 0 then ⟨0⟩
  else if 400 < exponent then ⟨infinityBits.toUInt64⟩
  else if (Nat.log2 units : Int) + 1 + exponent < -400 then ⟨0⟩
  else if 0 ≤ exponent then ofQuotient (units * Nat.pow 10 exponent.toNat) 1
  else ofQuotient units (Nat.pow 10 (-exponent).toNat)

/-- The double with the opposite sign. -/
def neg (x : Binary64) : Binary64 :=
  ⟨x.bits ^^^ 0x8000000000000000⟩

/-- Whether the sign bit is set. -/
def isNegative (x : Binary64) : Bool :=
  decide (0x8000000000000000 ≤ x.bits.toNat)

/-- The biased exponent field. -/
def exponentField (x : Binary64) : Nat :=
  x.bits.toNat / exponentUnit % 0x800

/-- The fraction field. -/
def fractionField (x : Binary64) : Nat :=
  x.bits.toNat % exponentUnit

/-- The significand of a finite double, as a whole number of units in the last place. -/
def significand (x : Binary64) : Nat :=
  if x.exponentField = 0 then x.fractionField else exponentUnit + x.fractionField

/-- The exponent of the unit in the last place of a finite double. -/
def exponent (x : Binary64) : Int :=
  if x.exponentField = 0 then minExponent else (x.exponentField : Int) - 1075

/-- A power of two as a rational. -/
def twoPower (exponent : Int) : Rat :=
  if 0 ≤ exponent then (Nat.pow 2 exponent.toNat : Rat)
  else 1 / (Nat.pow 2 (-exponent).toNat : Rat)

/-- The rational that a finite double stands for. -/
def value (x : Binary64) : Rat :=
  let magnitude := (x.significand : Rat) * twoPower x.exponent
  if x.isNegative then -magnitude else magnitude

/-- The double nearest to a rational. -/
def ofRat (r : Rat) : Binary64 :=
  let magnitude := ofQuotient r.num.natAbs r.den
  if r.num < 0 then magnitude.neg else magnitude

/-- The sixteen lower-case hexadecimal digits of the bits. -/
def hex (x : Binary64) : String :=
  let digits := Nat.toDigits 16 x.bits.toNat
  String.ofList (List.replicate (16 - digits.length) '0' ++ digits)

end Binary64

end EntityDiagram.Number
