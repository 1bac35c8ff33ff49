import EntityDiagram.Source.Fault

/-!
# Literal values

The values that a literal type can name: texts, truth values, integers of any size and doubles.
-/

namespace EntityDiagram.Declaration

open Number (Binary64)

/-- The value of a literal type. -/
inductive Literal where
  | text (value : Text)
  | truth (value : Bool)
  | integer (value : Int)
  | real (value : Binary64)
  deriving DecidableEq, Repr

/-- The value with the opposite sign, where it has one. There is only one integer zero. -/
def Literal.neg : Literal → Literal
  | .integer n => .integer (-n)
  | .real x => .real x.neg
  | value => value

/-- The literal of a numeral, or the reason why it has no value. -/
def Literal.ofNumeral (spelling : String) : Except Source.Fault Literal :=
  match Source.Numeral.value spelling with
  | .integer n => .ok (.integer n)
  | .real x => .ok (.real x)
  | .missing plain => .error (.emptyNumeral plain)
  | .tooLong digits => .error (.longNumeral digits)

end EntityDiagram.Declaration
