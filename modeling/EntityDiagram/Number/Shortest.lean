import EntityDiagram.Number.Binary64

/-!
# The shortest decimal that reads back

Among the decimal numbers that round to a given positive double, the ones with the fewest digits are
looked for, one digit count after the other: on each decimal grid only the two neighbours of the
double can lie in the interval of the numbers that round to it. Of two hits the nearer one is taken,
and the even one of two that are equally near. Seventeen digits always suffice.
-/

namespace EntityDiagram.Number

/-- A positive decimal number: its digits as a number, and the power of ten that they count. -/
structure Decimal where
  units : Nat
  exponent : Int
  deriving DecidableEq, Repr

/-- A power of ten as a rational. -/
def tenPower (exponent : Int) : Rat :=
  if 0 ≤ exponent then (Nat.pow 10 exponent.toNat : Rat)
  else 1 / (Nat.pow 10 (-exponent).toNat : Rat)

/-- The least exponent whose power of ten is above a positive rational, looked for from a start. -/
def decimalMagnitude (r : Rat) : Nat → Int → Int
  | 0, start => start
  | steps + 1, start => if r < tenPower start then start else decimalMagnitude r steps (start + 1)

/-- The numbers that round to a positive double: the two ends, and whether they belong to it. -/
def roundingInterval (x : Binary64) : Rat × Rat × Bool :=
  let unit := Binary64.twoPower x.exponent
  let middle := (x.significand : Rat) * unit
  let below := if x.fractionField = 0 ∧ 1 < x.exponentField then unit / 4 else unit / 2
  (middle - below, middle + unit / 2, x.significand % 2 == 0)

/-- Whether a rational lies in an interval. -/
def inInterval (interval : Rat × Rat × Bool) (r : Rat) : Bool :=
  let (low, high, closed) := interval
  if closed then decide (low ≤ r ∧ r ≤ high) else decide (low < r ∧ r < high)

/-- The neighbour of a positive rational on a decimal grid that lies in the interval, if there is
one; the nearer one if there are two. -/
def gridHit? (interval : Rat × Rat × Bool) (r : Rat) (exponent : Int) : Option Decimal :=
  let lower := (r / tenPower exponent).floor.toNat
  let upper := lower + 1
  let hits (units : Nat) : Bool :=
    0 < units && inInterval interval ((units : Rat) * tenPower exponent)
  match hits lower, hits upper with
  | false, false => none
  | true, false => some ⟨lower, exponent⟩
  | false, true => some ⟨upper, exponent⟩
  | true, true =>
    let down := r - (lower : Rat) * tenPower exponent
    let up := (upper : Rat) * tenPower exponent - r
    if down < up then some ⟨lower, exponent⟩
    else if up < down then some ⟨upper, exponent⟩
    else if lower % 2 = 0 then some ⟨lower, exponent⟩
    else some ⟨upper, exponent⟩

/-- The first hit on the grids of one, two, three and more digits. -/
def firstHit (interval : Rat × Rat × Bool) (r : Rat) (magnitude : Int) : Nat → Nat → Option Decimal
  | 0, _ => none
  | more + 1, digits =>
    match gridHit? interval r (magnitude - digits) with
    | some hit => some hit
    | none => firstHit interval r magnitude more (digits + 1)

/-- The shortest decimal that reads back as a positive finite double. -/
def shortest (x : Binary64) : Decimal :=
  let r := (x.significand : Rat) * Binary64.twoPower x.exponent
  let magnitude := decimalMagnitude r 650 (-330)
  (firstHit (roundingInterval x) r magnitude 17 1).getD ⟨x.significand, 0⟩

end EntityDiagram.Number
