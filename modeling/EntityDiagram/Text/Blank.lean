import EntityDiagram.Text.Character
import EntityDiagram.Text.CodeRanges

/-!
# White space

White space includes the separators U+001C to U+001F, U+0085 and the spaces of general category Zs;
the zero width space and the byte order mark are not in it. Trimming removes it at the two ends.
-/

namespace EntityDiagram.Text

/-- The code points of white space. -/
def blankRanges : CodeRanges :=
  [(0x9, 0xD), (0x1C, 0x20), (0x85, 0x85), (0xA0, 0xA0), (0x1680, 0x1680), (0x2000, 0x200A),
    (0x2028, 0x2029), (0x202F, 0x202F), (0x205F, 0x205F), (0x3000, 0x3000)]

/-- A white-space character. -/
def isBlank (c : Char) : Bool :=
  blankRanges.has c

/-- A list of characters without the white space at its start. -/
def trimStart (cs : List Character) : List Character :=
  cs.dropWhile (Character.isIn isBlank)

/-- A list of characters without the white space at its end. -/
def trimEnd (cs : List Character) : List Character :=
  (cs.reverse.dropWhile (Character.isIn isBlank)).reverse

/-- A text without the white space at its two ends. -/
def trim (text : Text) : Text :=
  ofList (trimEnd (trimStart text.toList))

end EntityDiagram.Text
