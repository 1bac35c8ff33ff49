import EntityDiagram.Text.Lines

/-!
# Attribute values in markup

A text becomes an attribute value by five replacements of the whole text, one after the other. The
ampersand goes first, so that the entities which the later passes bring in are not escaped again.
-/

namespace EntityDiagram.Text

/-- The five characters that have an entity, in the order of their passes. -/
def markupEntities : List (Character × Text) :=
  [('&', "&amp;"), ('<', "&lt;"), ('>', "&gt;"), ('"', "&quot;"), ('\'', "&apos;")]

/-- The characters of an attribute value. -/
def escapeMarkupChars (cs : List Character) : List Character :=
  markupEntities.foldl (fun text entry => replaceChar entry.1 entry.2.toList text) cs

/-- A text as an attribute value. -/
def escapeMarkup (text : Text) : Text :=
  ofList (escapeMarkupChars text.toList)

end EntityDiagram.Text
