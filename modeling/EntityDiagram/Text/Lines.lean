import EntityDiagram.Text.Character

/-!
# Lines

Only the line feed ends a line. Cutting a text into lines and joining lines again are inverse to
each other as long as no line holds a line feed.
-/

namespace EntityDiagram.Text

/-- The pieces of a text between its line feeds; there is always one more than line feeds. -/
def lines : List Character → List (List Character)
  | [] => [[]]
  | c :: rest =>
    if c = '\n' then [] :: lines rest
    else
      match lines rest with
      | [] => [[c]]
      | line :: more => (c :: line) :: more

/-- Lines joined by line feeds. -/
def unlines (texts : List Text) : Text :=
  intercalate "\n" texts

/-- A text in which one character is replaced, wherever it occurs, by another text. -/
def replaceChar (old : Character) (new cs : List Character) : List Character :=
  cs.flatMap fun c => if c = old then new else [c]

theorem lines_ne_nil
    (cs : List Character) :
    lines cs ≠ [] := by
  cases cs with
  | nil => simp [lines]
  | cons c rest =>
    unfold lines
    split
    · simp
    · split <;> simp

theorem replaceChar_append
    (old : Character) (new a b : List Character) :
    replaceChar old new (a ++ b) = replaceChar old new a ++ replaceChar old new b := by
  simp [replaceChar]

end EntityDiagram.Text
