import EntityDiagram.Text.Blank
import EntityDiagram.Text.Lines
import EntityDiagram.Text.Numeral

/-!
# Documentation blocks

A documentation block holds a description and tags. Its lines are taken without the white space
around them and without a leading star. A line that starts with `@` and a name opens a tag; the
lines behind it belong to the tag, the lines before the first tag to the description. An `@` inside
a line is ordinary text.
-/

namespace EntityDiagram.Declaration

/-- A tag of a documentation block, such as `@pk`. -/
structure DocTag where
  name : Text
  text : Option Text := none
  deriving DecidableEq, Repr, Inhabited

/-- What a documentation block says. -/
structure Documentation where
  description : Option Text := none
  tags : List DocTag := []
  deriving DecidableEq, Repr, Inhabited

namespace Documentation

/-- Whether some tag has one of the names. -/
def hasTag (docs : Documentation) (names : List Text) : Bool :=
  docs.tags.any fun tag => names.contains tag.name

/-- A list of characters without white space at its two ends. -/
def trimChars (cs : List Character) : List Character :=
  Text.trimEnd (Text.trimStart cs)

/-- A line of a block without its margin: white space, and one star with white space around it. -/
def withoutMargin (line : List Character) : List Character :=
  match trimChars line with
  | .scalar '*' :: rest => trimChars rest
  | cs => cs

/-- An ASCII letter, an underscore or a dollar sign. -/
def isTagStart (c : Character) : Bool :=
  c.isIn Char.isAlpha || c == '_' || c == '$'

/-- A character that may continue the name of a tag. -/
def isTagPart (c : Character) : Bool :=
  c.isIn Text.isAlphanumeric || c == '_' || c == '$' || c == '-'

/-- The name and the first line of text of a tag that a line opens. -/
def openedTag? (line : List Character) : Option (List Character × List Character) :=
  match line with
  | .scalar '@' :: c :: rest =>
    if isTagStart c then
      some (c :: rest.takeWhile isTagPart, Text.trimStart (rest.dropWhile isTagPart))
    else none
  | _ => none

/-- Lines grouped by the tags that they open: the lines before the first tag, then each tag's name
and lines. -/
def sections :
    List (List Character) → List (List Character) × List (List Character × List (List Character))
  | [] => ([], [])
  | line :: rest =>
    let (text, tags) := sections rest
    match openedTag? line with
    | some (name, first) => ([], (name, first :: text) :: tags)
    | none => (line :: text, tags)

/-- Lines joined to one text, or nothing where only white space is left. -/
def paragraph? (lines : List (List Character)) : Option Text :=
  Text.nonempty? (Text.trim (Text.unlines (lines.map Text.ofList)))

/-- The body of a block, without the marks around it where it has them. -/
def body (raw : List Character) : List Character :=
  let opened := if (['/', '*', '*'] : List Character).isPrefixOf raw then raw.drop 3 else raw
  if (['*', '/'] : List Character).isSuffixOf opened then opened.take (opened.length - 2) else opened

/-- What a block says. -/
def ofBlock (raw : Text) : Documentation :=
  let (text, tags) := sections ((Text.lines (body raw.toList)).map withoutMargin)
  { description := paragraph? text
    tags := tags.map fun (name, lines) => ⟨.ofList name, paragraph? lines⟩ }

/-- The documentation of two blocks, one after the other: the later description wins. -/
def append (first second : Documentation) : Documentation :=
  { description := second.description.or first.description
    tags := first.tags ++ second.tags }

/-- What several blocks say together; nothing where there is none. -/
def ofBlocks? (raws : List Text) : Option Documentation :=
  if raws.isEmpty then none
  else some ((raws.map ofBlock).foldl append {})

/-- The documentation with a trimmed description; nothing where nothing is said. -/
def tidy? (docs : Documentation) : Option Documentation :=
  let description := docs.description.bind fun text => Text.nonempty? (Text.trim text)
  if description.isNone && docs.tags.isEmpty then none
  else some { docs with description }

end Documentation

end EntityDiagram.Declaration
