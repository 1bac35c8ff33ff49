import EntityDiagram.Number.Arithmetic
import EntityDiagram.Number.Shortest

/-!
# Measures

A measure is a length, a count or a coordinate of a drawing: a whole number or a double. Whole numbers
are computed with exactly; an operation that a double takes part in is one on doubles. A measure that
was given is written as it is (`3` and `3.0`), and one that was computed as a whole number where it is
one.

A whole number beyond the range of doubles cannot meet a double, and a double that is no number has no
nearest whole number: such an operation fails. So does writing a whole number that has too many digits
or, where it was computed, is beyond the range of doubles.

A double is written with the fewest digits that read back, positionally from 10⁻⁴ up to below 10¹⁶
and with a signed exponent of at least two digits outside.
-/

namespace EntityDiagram.Number

/-- A whole number or a double. -/
inductive Measure where
  | whole (n : Int)
  | binary (x : Binary64)
  deriving DecidableEq, Repr

/-- Why a computation with measures fails, or a measure cannot be written. -/
inductive NumberFault where
  /-- A whole number beyond the range of doubles meets a double, or is drawn. -/
  | tooLarge
  /-- Half of a whole number is beyond the range of doubles. -/
  | halfTooLarge
  /-- The divisor is zero. -/
  | zeroDivisor (divisor : Measure)
  /-- An infinity has to be rounded. -/
  | infinite
  /-- The double that stands for no number has to be rounded. -/
  | undefined
  /-- A whole number has more digits than numbers are written with. -/
  | tooLong
  deriving DecidableEq, Repr

/-- The decimal digits of a number. -/
def digitsOf (n : Nat) : List Char :=
  Nat.toDigits 10 n

/-- The digits of a shortest decimal, without the zeros at its end. -/
def stripZeros (digits : List Char) : List Char :=
  (digits.reverse.dropWhile (· = '0')).reverse

/-- A number written as digits, a point and digits, when the point follows so many digits. -/
def positional (digits : List Char) (point : Int) : List Char :=
  if point ≤ 0 then '0' :: '.' :: List.replicate (-point).toNat '0' ++ digits
  else
    let before := point.toNat
    if digits.length ≤ before then
      digits ++ List.replicate (before - digits.length) '0' ++ ['.', '0']
    else digits.take before ++ '.' :: digits.drop before

/-- A number written as one digit, further digits after a point, and an exponent. -/
def scientific (digits : List Char) (power : Int) : List Char :=
  let exponent := digitsOf power.natAbs
  let mantissa :=
    match digits with
    | [] => []
    | [d] => [d]
    | d :: more => d :: '.' :: more
  mantissa ++ 'e' :: (if power < 0 then '-' else '+') ::
    (List.replicate (2 - exponent.length) '0' ++ exponent)

/-- The text of a positive finite double. -/
def positiveText (x : Binary64) : List Char :=
  let decimal := shortest x
  let all := digitsOf decimal.units
  let digits := stripZeros all
  let point := (all.length : Int) + decimal.exponent
  if -4 < point ∧ point ≤ 16 then positional digits point else scientific digits (point - 1)

/-- The text of a double; that of a finite one always shows that it is no whole number. -/
def Binary64.text (x : Binary64) : String :=
  if x.isUndefined then "nan"
  else
    let magnitude :=
      if !x.isFinite then ['i', 'n', 'f']
      else if x.isZero then ['0', '.', '0']
      else positiveText x
    String.ofList (if x.isNegative then '-' :: magnitude else magnitude)

/-- The nearest whole number, a tie going to the even one. -/
def roundToEven (r : Rat) : Int :=
  let lower := r.floor
  let rest := r - lower
  if rest < 1 / 2 then lower
  else if 1 / 2 < rest then lower + 1
  else if lower % 2 = 0 then lower
  else lower + 1

namespace Measure

/-- The double nearest to a measure, unless it is beyond their range. -/
def double? : Measure → Option Binary64
  | whole n =>
    let x := Binary64.ofRat n
    if x.isFinite then some x else none
  | binary x => some x

/-- The double nearest to a measure, which has to be in their range. -/
def double (a : Measure) : Except NumberFault Binary64 :=
  match a.double? with
  | some x => .ok x
  | none => .error .tooLarge

/-- An operation by what it is on whole numbers and on doubles. -/
def combine (wholes : Int → Int → Int) (doubles : Binary64 → Binary64 → Binary64)
    (a b : Measure) : Except NumberFault Measure :=
  match a, b with
  | whole m, whole n => .ok (whole (wholes m n))
  | _, _ => do
    let x ← a.double
    let y ← b.double
    return binary (doubles x y)

/-- Whether a measure is zero. -/
def isZero : Measure → Bool
  | whole n => n == 0
  | binary x => x.isZero

/-- An operation by what it is on whole numbers and on doubles, if the second measure is not zero. -/
def divide (wholes : Int → Int → Int) (doubles : Binary64 → Binary64 → Binary64)
    (a b : Measure) : Except NumberFault Measure :=
  if b.isZero then .error (.zeroDivisor b) else combine wholes doubles a b

/-- Whether a measure is less than another one. Whole numbers and doubles are compared exactly. -/
def less : Measure → Measure → Bool
  | whole m, whole n => decide (m < n)
  | whole m, binary y =>
    if y.isFinite then decide ((m : Rat) < y.value) else !y.isUndefined && !y.isNegative
  | binary x, whole n =>
    if x.isFinite then decide (x.value < (n : Rat)) else !x.isUndefined && x.isNegative
  | binary x, binary y => x.less y

/-- Half of a measure, as a double. -/
def half : Measure → Except NumberFault Measure
  | whole n =>
    let x := Binary64.ofRat (n / 2)
    if x.isFinite then .ok (binary x) else .error .halfTooLarge
  | binary x => .ok (binary (x.div (Binary64.ofQuotient 2 1)))

/-- The nearest whole number. -/
def rounded : Measure → Except NumberFault Measure
  | whole n => .ok (whole n)
  | binary x =>
    if x.isUndefined then .error .undefined
    else if x.isFinite then .ok (whole (roundToEven x.value))
    else .error .infinite

/-- How a measure is spelled that was given. -/
def text : Measure → String
  | whole n => toString n
  | binary x => x.text

/-- How a measure is spelled that was computed: whole numbers without a point. -/
def plainText : Measure → String
  | whole n => toString n
  | binary x =>
    if x.isFinite && x.value.den == 1 then toString x.value.num else x.text

/-- The greatest number of digits that a whole number is written with. -/
def maxDigits : Nat := 4300

/-- Why a measure that was given cannot be written, if it cannot. -/
def textFault? : Measure → Option NumberFault
  | whole n => if maxDigits < (digitsOf n.natAbs).length then some .tooLong else none
  | binary _ => none

/-- Why a measure that was computed cannot be written, if it cannot. -/
def plainTextFault? (a : Measure) : Option NumberFault :=
  if a.double?.isSome then none else some .tooLarge

end Measure

/-- The fault in words. -/
def NumberFault.message : NumberFault → String
  | tooLarge => "int too large to convert to float"
  | halfTooLarge => "integer division result too large for a float"
  | zeroDivisor (.whole _) => "integer modulo by zero"
  | zeroDivisor (.binary _) => "float modulo"
  | infinite => "cannot convert float infinity to integer"
  | undefined => "cannot convert float NaN to integer"
  | tooLong =>
    "Exceeds the limit (" ++ toString Measure.maxDigits ++ " digits) for integer string " ++
      "conversion; use sys.set_int_max_str_digits() to increase the limit"

end EntityDiagram.Number
