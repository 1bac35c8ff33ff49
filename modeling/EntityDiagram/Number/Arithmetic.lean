import EntityDiagram.Number.Binary64

/-!
# Arithmetic of doubles

An operation on finite doubles gives the double nearest to the exact result; a zero keeps the sign
that the signs of the operands lead to. An overflow gives an infinity, and an operation on infinities
without a sensible result gives the undefined double, as does every operation on that one.

The remainder of a division and the quotient rounded down belong together: the remainder has the sign
of the divisor, and the quotient is made from what the remainder leaves.
-/

namespace EntityDiagram.Number.Binary64

/-- The zero with a sign. -/
def zero (isNegative : Bool) : Binary64 :=
  ⟨if isNegative then 0x8000000000000000 else 0⟩

/-- The infinity with a sign. -/
def infinity (isNegative : Bool) : Binary64 :=
  ⟨if isNegative then 0xFFF0000000000000 else 0x7FF0000000000000⟩

/-- The double that stands for no number. -/
def undefined : Binary64 :=
  ⟨0x7FF8000000000000⟩

/-- The bits without the sign, as a number that grows with the magnitude. -/
def magnitude (x : Binary64) : Nat :=
  x.bits.toNat % 0x8000000000000000

/-- Whether a double is a number: neither infinite nor undefined. -/
def isFinite (x : Binary64) : Bool :=
  decide (x.magnitude < infinityBits)

/-- Whether a double stands for no number. -/
def isUndefined (x : Binary64) : Bool :=
  decide (infinityBits < x.magnitude)

/-- Whether a double is a zero. -/
def isZero (x : Binary64) : Bool :=
  x.magnitude == 0

/-- The double nearest to a rational, where a zero gets a sign. -/
def nearest (r : Rat) (isNegativeZero : Bool) : Binary64 :=
  if r = 0 then zero isNegativeZero else ofRat r

/-- Whether a double is less than another one; the undefined one is not comparable. -/
def less (x y : Binary64) : Bool :=
  let place (z : Binary64) : Int := if z.isNegative then -(z.magnitude : Int) else z.magnitude
  !x.isUndefined && !y.isUndefined && decide (place x < place y)

/-- The sum. -/
def add (x y : Binary64) : Binary64 :=
  if x.isFinite && y.isFinite then
    nearest (x.value + y.value) (x.isNegative && y.isNegative)
  else if x.isUndefined || y.isUndefined then undefined
  else if x.isFinite then y
  else if y.isFinite || x == y then x
  else undefined

/-- The difference. -/
def sub (x y : Binary64) : Binary64 :=
  x.add y.neg

/-- The product. -/
def mul (x y : Binary64) : Binary64 :=
  let isNegative := x.isNegative != y.isNegative
  if x.isFinite && y.isFinite then nearest (x.value * y.value) isNegative
  else if x.isUndefined || y.isUndefined || x.isZero || y.isZero then undefined
  else infinity isNegative

/-- The quotient; the divisor is not zero. -/
def div (x y : Binary64) : Binary64 :=
  let isNegative := x.isNegative != y.isNegative
  if x.isFinite && y.isFinite then nearest (x.value / y.value) isNegative
  else if x.isUndefined || y.isUndefined || (!x.isFinite && !y.isFinite) then undefined
  else if x.isFinite then zero isNegative
  else infinity isNegative

/-- The greatest whole number that is not above a double. -/
def floor (x : Binary64) : Binary64 :=
  if x.isFinite then nearest x.value.floor x.isNegative else x

/-- What a division towards zero leaves; the divisor is not zero. It has the sign of the dividend. -/
def truncatedRest (x y : Binary64) : Binary64 :=
  if x.isFinite && y.isFinite then
    let quotient := x.value / y.value
    let whole := if quotient < 0 then -(-quotient).floor else quotient.floor
    nearest (x.value - y.value * (whole : Rat)) x.isNegative
  else if x.isFinite && !y.isUndefined then x
  else undefined

/-- Whether a rest has another sign than the divisor. -/
def isOpposed (rest y : Binary64) : Bool :=
  !rest.isZero && rest.isNegative != y.isNegative

/-- What a division rounded down leaves; the divisor is not zero. -/
def floorRest (x y : Binary64) : Binary64 :=
  let rest := truncatedRest x y
  if rest.isZero then zero y.isNegative
  else if isOpposed rest y then rest.add y
  else rest

/-- The quotient rounded down; the divisor is not zero. -/
def floorQuotient (x y : Binary64) : Binary64 :=
  let rest := truncatedRest x y
  let even := (x.sub rest).div y
  let quotient := if isOpposed rest y then even.sub (ofQuotient 1 1) else even
  if quotient.isZero then zero (x.isNegative != y.isNegative)
  else
    let lower := quotient.floor
    if (ofQuotient 1 2).less (quotient.sub lower) then lower.add (ofQuotient 1 1) else lower

end EntityDiagram.Number.Binary64
