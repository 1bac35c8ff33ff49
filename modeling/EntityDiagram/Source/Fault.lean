import EntityDiagram.Source.Numeral
import EntityDiagram.Source.Token

/-!
# What can be wrong with a source text

A fault says what is wrong, an error also where. Three faults concern the value of a token rather than
its place and are reported without a position: a based numeral that has no digit, a decimal integer
that has too many, and a word after `typeof import` that opens no bracket.
-/

namespace EntityDiagram.Source

/-- The reasons to refuse a source text. -/
inductive Fault where
  | unterminatedComment
  | unterminatedString
  | unterminatedTemplate
  | unterminatedRegex
  | invalidNumber
  | invalidEscape
  /-- A certain punctuation mark has to stand here. -/
  | expectedMark (mark : String) (found : Option Lexeme)
  | expectedIdentifier (found : Option Lexeme)
  | expectedMemberName (found : Option Lexeme)
  /-- Something follows a complete type. -/
  | unexpected (found : Option Lexeme)
  /-- No type starts like this. -/
  | noType (found : Option Lexeme)
  /-- The text ends before a bracket is closed. -/
  | unclosed (closer : String)
  /-- A numeral with a base but without digits. -/
  | emptyNumeral (spelling : String)
  /-- A decimal integer with too many digits. -/
  | longNumeral (digits : Nat)
  /-- A bracket has to stand here, and this text is none. -/
  | noBracket (text : Text)
  deriving DecidableEq, Repr

namespace Fault

/-- Whether the fault is reported with its position. -/
def isLocated : Fault → Bool
  | emptyNumeral _ | longNumeral _ | noBracket _ => false
  | _ => true

/-- The fault in words. -/
def message : Fault → String
  | unterminatedComment => "Unterminated comment"
  | unterminatedString => "Unterminated string literal"
  | unterminatedTemplate => "Unterminated template literal"
  | unterminatedRegex => "Unterminated regular expression literal"
  | invalidNumber => "Invalid numeric literal"
  | invalidEscape => "Invalid escape sequence in string literal"
  | expectedMark mark found => "Expected '" ++ mark ++ "' but found " ++ Lexeme.describe found
  | expectedIdentifier found => "Expected identifier but found " ++ Lexeme.describe found
  | expectedMemberName found => "Expected property name but found " ++ Lexeme.describe found
  | unexpected found => "Unexpected " ++ Lexeme.describe found
  | noType found => "Unexpected " ++ Lexeme.describe found ++ " in type"
  | unclosed closer => "Unexpected end of input, expected '" ++ closer ++ "'"
  | emptyNumeral spelling =>
    "invalid literal for int() with base 0: " ++ Text.quoted spelling
  | longNumeral digits =>
    "Exceeds the limit (" ++ toString Numeral.maxIntegerDigits ++
      " digits) for integer string conversion: value has " ++ toString digits ++
      " digits; use sys.set_int_max_str_digits() to increase the limit"
  | noBracket text => Text.quoted text

end Fault

/-- A fault and the position at which it was found. -/
structure SourceError where
  fault : Fault
  position : Position
  deriving DecidableEq, Repr

/-- The error in words, with its position unless the fault is reported without one. -/
def SourceError.message (e : SourceError) : String :=
  if e.fault.isLocated then
    e.fault.message ++ " (line " ++ toString e.position.line ++ ", column " ++
      toString e.position.column ++ ")"
  else e.fault.message

end EntityDiagram.Source
