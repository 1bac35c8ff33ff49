import EntityDiagram.Text.Character
import EntityDiagram.Text.Printable

/-!
# Quoted text

A text is shown between single quotes, or between double quotes where it holds single quotes and no
double ones. The backslash and the quote in use are escaped by a backslash, line feed, carriage
return and tab by their letters, and any other unprintable character, a surrogate too, by the shortest
of the three hexadecimal forms that can hold its code point. So the quoted form is a string, whatever
the text is.
-/

namespace EntityDiagram.Text

/-- The quote that a text is shown in. -/
def quoteFor (cs : List Character) : Char :=
  if cs.contains '\'' && !cs.contains '"' then '"' else '\''

/-- A number in lower-case hexadecimal, filled up with zeros to a width. -/
def hexPadded (width n : Nat) : List Char :=
  let digits := Nat.toDigits 16 n
  List.replicate (width - digits.length) '0' ++ digits

/-- An unprintable character by its code point. -/
def hexEscape (code : Nat) : List Char :=
  if code ≤ 0xFF then '\\' :: 'x' :: hexPadded 2 code
  else if code ≤ 0xFFFF then '\\' :: 'u' :: hexPadded 4 code
  else '\\' :: 'U' :: hexPadded 8 code

/-- A scalar value of a text that is shown between the given quotes. -/
def quotedScalar (quote c : Char) : List Char :=
  if c = quote || c = '\\' then ['\\', c]
  else if c = '\n' then ['\\', 'n']
  else if c = '\r' then ['\\', 'r']
  else if c = '\t' then ['\\', 't']
  else if isPrintable c then [c]
  else hexEscape c.toNat

/-- One character of a text that is shown between the given quotes. No surrogate is printable. -/
def quotedChar (quote : Char) : Character → List Char
  | .scalar c => quotedScalar quote c
  | .surrogate index => hexEscape (Character.surrogate index).code

/-- The quoted form of a list of characters. -/
def quotedChars (cs : List Character) : List Char :=
  let quote := quoteFor cs
  quote :: cs.flatMap (quotedChar quote) ++ [quote]

/-- The quoted form of a text. -/
def quoted (text : Text) : String :=
  String.ofList (quotedChars text.toList)

/-- A text as a string in which the code point of every surrogate is written out. -/
def escaped (text : Text) : String :=
  String.ofList (text.toList.flatMap fun
    | .scalar c => [c]
    | .surrogate index => hexEscape (Character.surrogate index).code)

end EntityDiagram.Text
