/-!
# Positions in a source text

Lines and columns count from one. A line feed starts a new line; every other character, whatever its
width on a screen, takes one column.
-/

namespace EntityDiagram.Source

/-- A line and a column, both counted from one. -/
structure Position where
  line : Nat
  column : Nat
  deriving DecidableEq, Repr, Inhabited

namespace Position

/-- The position of the first character of a text. -/
def start : Position := ⟨1, 1⟩

/-- The position some columns to the right. -/
def right (p : Position) (count : Nat) : Position :=
  { p with column := p.column + count }

/-- The start of the next line. -/
def nextLine (p : Position) : Position :=
  ⟨p.line + 1, 1⟩

/-- The position after one character. -/
def advance (p : Position) (c : Char) : Position :=
  if c = '\n' then p.nextLine else p.right 1

/-- The position after a run of characters. -/
def after (p : Position) (cs : List Char) : Position :=
  cs.foldl advance p

@[simp]
theorem after_nil
    (p : Position) :
    p.after [] = p :=
  rfl

@[simp]
theorem after_cons
    (p : Position) (c : Char) (cs : List Char) :
    p.after (c :: cs) = (p.advance c).after cs :=
  rfl

theorem after_append
    (p : Position) (a b : List Char) :
    p.after (a ++ b) = (p.after a).after b := by
  simp [after]

end Position

end EntityDiagram.Source
