import EntityDiagram.Number.Measure

/-!
# Scalars

Coordinates are computed in one way whatever numbers they are. Drawings are made with measures, on
which the operations round as doubles do and can fail; on rationals the same operations are exact, which
is what the geometry of a layout is about.
-/

namespace EntityDiagram.Number

/-- Numbers that coordinates can be computed with. -/
class Scalar (α : Type) extends Add α, Sub α, Mul α where
  ofNat : Nat → α
  less : α → α → Bool
  /-- The lesser of two numbers. -/
  lesser : α → α → α
  /-- The greater of two numbers. -/
  greater : α → α → α
  /-- The quotient rounded down. -/
  floorQuotient : α → α → α
  /-- What the quotient rounded down leaves. -/
  floorRest : α → α → α
  /-- Half of a number, in the form that computation with rounding is made in. -/
  half : α → α
  /-- The number in the form that computation with rounding is made in. -/
  settled : α → α
  /-- The nearest whole number, a tie going to the even one. -/
  rounded : α → α

/-- Computes exactly. -/
instance : Scalar Rat where
  add a b := a + b
  sub a b := a - b
  mul a b := a * b
  ofNat n := n
  less a b := decide (a < b)
  lesser a b := if b < a then b else a
  greater a b := if a < b then b else a
  floorQuotient a b := (a / b).floor
  floorRest a b := a - b * ((a / b).floor : Rat)
  half a := a / 2
  settled a := a
  rounded a := roundToEven a

/-- A measure that is computed, or the first fault on the way to it. -/
abbrev Computed := Except NumberFault Measure

namespace Computed

/-- An operation on two numbers that are computed one after the other. -/
def apply (operation : Measure → Measure → Computed) (a b : Computed) : Computed := do
  let x ← a
  let y ← b
  operation x y

/-- Whether a number is less than another one, where both could be computed. -/
def less (a b : Computed) : Bool :=
  match a, b with
  | .ok x, .ok y => x.less y
  | _, _ => false

/-- The double nearest to a number. -/
def settled (a : Computed) : Computed := do
  let x ← (← a).double
  return .binary x

end Computed

/-- Computes exactly on whole numbers, and with rounding where doubles take part. -/
instance : Scalar Computed where
  add := Computed.apply (Measure.combine (fun m n => m + n) Binary64.add)
  sub := Computed.apply (Measure.combine (fun m n => m - n) Binary64.sub)
  mul := Computed.apply (Measure.combine (fun m n => m * n) Binary64.mul)
  ofNat n := .ok (.whole n)
  less := Computed.less
  lesser := Computed.apply fun a b => .ok (if b.less a then b else a)
  greater := Computed.apply fun a b => .ok (if a.less b then b else a)
  floorQuotient := Computed.apply (Measure.divide Int.fdiv Binary64.floorQuotient)
  floorRest := Computed.apply (Measure.divide Int.fmod Binary64.floorRest)
  half a := a >>= Measure.half
  settled := Computed.settled
  rounded a := a >>= Measure.rounded

namespace Scalar

variable {α : Type} [Scalar α]

/-- The smallest of a number and further numbers. -/
def smallest (first : α) (others : List α) : α :=
  others.foldl lesser first

/-- The largest of a number and further numbers. -/
def largest (first : α) (others : List α) : α :=
  others.foldl greater first

/-- Numbers in ascending order. -/
def ascending (numbers : List α) : List α :=
  numbers.mergeSort fun a b => !less b a

end Scalar

end EntityDiagram.Number
