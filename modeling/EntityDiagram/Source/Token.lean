import EntityDiagram.Source.Position
import EntityDiagram.Text.Quoted

/-!
# Tokens

A token is a lexeme together with its lead: where it starts, whether a line break separates it from
the token before, and the documentation blocks that stand right in front of it. The end of a text
has a lead as well but no lexeme, so a text is a list of tokens and the lead of its end.
-/

namespace EntityDiagram.Source

/-- The smallest units of a source text that carry meaning. -/
inductive Lexeme where
  /-- A name or keyword. -/
  | ident (name : String)
  /-- A quoted text, with its escapes decoded. -/
  | string (text : Text)
  /-- A number as it is spelled. -/
  | number (spelling : String)
  /-- What stands between the outer back quotes of a template. -/
  | template (text : String)
  /-- A regular expression with its slashes and flags. -/
  | regex (spelling : String)
  /-- A punctuation mark. -/
  | punct (mark : String)
  deriving DecidableEq, Repr

namespace Lexeme

/-- The text that a lexeme carries. Only a quoted text can hold surrogates. -/
def text : Lexeme → Text
  | string s => s
  | ident s | number s | template s | regex s | punct s => s

/-- The name of the lexeme's class. -/
def kind : Lexeme → String
  | ident _ => "ident"
  | string _ => "string"
  | number _ => "number"
  | template _ => "template"
  | regex _ => "regex"
  | punct _ => "punct"

/-- A lexeme as a reader of the source would write it: strings are quoted anew. -/
def spelling : Lexeme → String
  | string s => Text.quoted s
  | template s => "\x60" ++ s ++ "\x60"
  | ident s | number s | regex s | punct s => s

/-- How a lexeme, or the end of the text, is named in a message. -/
def describe : Option Lexeme → String
  | none => "end of input"
  | some lexeme => "'" ++ lexeme.spelling ++ "'"

end Lexeme

/-- What lies before a token or before the end of the text. -/
structure Lead where
  position : Position
  /-- A line break separates the token from the one before it. -/
  newline : Bool
  /-- The documentation blocks in between, verbatim and in order. -/
  docs : List String
  deriving DecidableEq, Repr, Inhabited

/-- A lexeme in its place. -/
structure Token where
  lexeme : Lexeme
  lead : Lead
  deriving DecidableEq, Repr

/-- The tokens of a text, and the lead of its end. -/
structure TokenStream where
  tokens : List Token
  ending : Lead
  deriving DecidableEq, Repr

end EntityDiagram.Source
