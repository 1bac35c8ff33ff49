import EntityDiagram.Model.Diagram
import EntityDiagram.Text.Blank
import EntityDiagram.Text.Lines

/-!
# Mermaid

A diagram as Mermaid `erDiagram` text: a header, a line for every relationship and a block for every
entity. The notation admits few characters in names and types, so both are reduced to these; labels
and comments are quoted where they need it.
-/

namespace EntityDiagram.Render

open Model (Attribute AttributeType Cardinality Diagram Entity KeyRole Relationship)

/-- What Mermaid text shows. -/
structure MermaidOptions where
  showProperties : Bool := true
  showComments : Bool := false
  showKeyTypes : Bool := true
  showAttributes : Bool := true
  deriving DecidableEq, Repr

namespace Mermaid

/-- An ASCII letter, an ASCII digit or an underscore. -/
def isPlain (c : Character) : Bool :=
  c.isIn Char.isAlphanum || c == '_'

/-- The text without a line feed at its end. -/
def withoutFinalBreak (cs : List Character) : List Character :=
  if cs.getLast? = some (.scalar '\n') then cs.dropLast else cs

/-- An ASCII name that does not start with a digit; a line feed behind it is let pass. -/
def isIdentifier (cs : List Character) : Bool :=
  match withoutFinalBreak cs with
  | [] => false
  | first :: rest => (first.isIn Char.isAlpha || first == '_') && rest.all isPlain

/-- A name with every character replaced that is not plain, unless it is an identifier. -/
def sanitizeName (name : Text) : Text :=
  if isIdentifier name.toList then name
  else .ofList (name.toList.map fun c => if isPlain c then c else '_')

/-- What a bar becomes. -/
def barText : List Character :=
  ['-', 'o', 'r', '-']

/-- Every bar, with the white space around it, becomes the word *or* between hyphens. White space is
held back until it is known not to stand before a bar. -/
def barsFrom (held : List Character) : List Character → List Character
  | [] => held
  | c :: rest =>
    if c = '|' then barText ++ afterBar rest
    else if c.isIn Text.isBlank then barsFrom (held ++ [c]) rest
    else held ++ c :: barsFrom [] rest
where
  /-- The text behind a bar, without the white space at its start. -/
  afterBar : List Character → List Character
    | [] => []
    | c :: rest =>
      if c.isIn Text.isBlank then afterBar rest
      else if c = '|' then barText ++ afterBar rest
      else c :: barsFrom [] rest

/-- Every bar replaced by a word. -/
def replaceBars (cs : List Character) : List Character :=
  barsFrom [] cs

/-- A comma or white space. -/
def isSeparator (c : Character) : Bool :=
  c == ',' || c.isIn Text.isBlank

/-- Every run of separators becomes a hyphen; the flag tells that a run is going on. -/
def hyphenateFrom (inRun : Bool) : List Character → List Character
  | [] => []
  | c :: rest =>
    if isSeparator c then
      if inRun then hyphenateFrom true rest else '-' :: hyphenateFrom true rest
    else c :: hyphenateFrom false rest

/-- Every run of separators becomes a hyphen. -/
def hyphenate (cs : List Character) : List Character :=
  hyphenateFrom false cs

/-- A character that may stand in the type of an attribute. -/
def isTypeChar (c : Character) : Bool :=
  isPlain c || c == '-' || c == '[' || c == ']' || c == '~'

/-- The characters of a type's name, reduced to the admitted ones in four passes. -/
def sanitizeTypeChars (cs : List Character) : List Character :=
  let angleFree : List Character := (replaceBars cs).filter fun c => c != '<' && c != '>'
  (hyphenate angleFree).filter isTypeChar

/-- The name of a type, reduced to the admitted characters. -/
def sanitizeTypeName (name : Text) : Text :=
  .ofList (sanitizeTypeChars name.toList)

mutual

/-- The type of an attribute: arguments between tildes, and brackets behind an array. -/
def typeText (type : AttributeType) : Text :=
  match type with
  | { name, isArray, arguments, .. } =>
    sanitizeTypeName name ++ argumentsText arguments ++ (if isArray then "[]" else "" : Text)

/-- The arguments of a type, if it has any. -/
def argumentsText : Option (List AttributeType) → Text
  | none => ""
  | some [] => ""
  | some (first :: rest) => "~" ++ typeText first ++ furtherText rest ++ "~"

/-- Further arguments, each behind a hyphen. -/
def furtherText : List AttributeType → Text
  | [] => ""
  | type :: rest => "-" ++ typeText type ++ furtherText rest

end

/-- A text with a backslash before every double quote. -/
def escapeQuotes (text : Text) : Text :=
  .ofList (Text.replaceChar '"' ['\\', '"'] text.toList)

/-- The label of a relationship, quoted where it holds white space or quotes. -/
def formatLabel (label : Text) : Text :=
  if label.toList.any fun c => c.isIn Text.isBlank || c == '"' || c == '\'' then
    "\"" ++ escapeQuotes label ++ "\""
  else label

/-- The mark at the source of a relationship. -/
def sourceMark : Cardinality → String
  | .oneToOne | .oneToMany | .oneToZeroOrOne | .oneToZeroOrMore => "||"
  | .zeroOrOneToOne | .zeroOrOneToMany => "|o"
  | .manyToOne | .manyToMany => "\x7do"
  | .other _ => "||"

/-- The mark at the target of a relationship. -/
def targetMark : Cardinality → String
  | .oneToOne | .zeroOrOneToOne | .manyToOne => "||"
  | .oneToZeroOrOne => "o|"
  | .oneToMany | .zeroOrOneToMany | .manyToMany => "|\x7b"
  | .oneToZeroOrMore => "o\x7b"
  | .other _ => "||"

/-- The line of a relationship. -/
def relationshipLine (link : Relationship) : Text :=
  let stroke : Text := if link.isIdentifying then "--" else ".."
  "    " ++ link.source ++ " " ++ sourceMark link.cardinality ++ stroke ++
    targetMark link.cardinality ++ " " ++ link.target ++ " : " ++ formatLabel link.label

/-- The greatest length of a comment. -/
def commentLength : Nat := 50

/-- A description as a comment: quotes escaped, line breaks replaced, and cut off. -/
def commentText (description : Text) : Text :=
  let escaped := Text.replaceChar '"' ['\\', '"'] description.toList
  .ofList ((Text.replaceChar '\n' [' '] escaped).take commentLength)

/-- The mark of a key, if there is one to show. -/
def keyMark? (key : Option KeyRole) : Option Text :=
  key.bind fun role => Text.nonempty? role.mark

/-- The line of an attribute. -/
def attributeLine (options : MermaidOptions) (field : Attribute) : Text :=
  let key : Text :=
    match if options.showKeyTypes then keyMark? field.key else none with
    | some mark => " " ++ mark
    | none => ""
  let description :=
    if options.showComments then
      field.docs.bind fun docs => docs.description.bind Text.nonempty?
    else none
  let comment : Text :=
    match description with
    | some text => " \"" ++ commentText text ++ "\""
    | none => ""
  "        " ++ typeText field.type ++ " " ++ sanitizeName field.name ++ key ++ comment

/-- The lines of an entity. -/
def entityLines (options : MermaidOptions) (entity : Entity) : List Text :=
  ("    " ++ entity.name ++ " \x7b") :: entity.attributes.map (attributeLine options) ++
    [("    \x7d" : Text)]

/-- The lines of a diagram. -/
def diagramLines (options : MermaidOptions) (diagram : Diagram) : List Text :=
  let blocks : List Text :=
    if options.showProperties && options.showAttributes then
      diagram.entities.flatMap (entityLines options)
    else []
  Text.ofString "erDiagram" :: diagram.relationships.map relationshipLine ++ blocks

/-- The text of a diagram. -/
def render (options : MermaidOptions) (diagram : Diagram) : Text :=
  Text.unlines (diagramLines options diagram)

end Mermaid

end EntityDiagram.Render
