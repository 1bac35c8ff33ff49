import EntityDiagram.Text.Numeral
import EntityDiagram.Text.Quoted

/-!
# Arguments

The arguments of the command line: a command, the paths of the files to read, and options before or
behind the paths. All paths stand together. Options have a long name, which may be shortened as long
as it is unambiguous and may have its value behind an equals sign, and some a short one, which may
have its value right behind it or behind an equals sign. A short option without a value may be
followed in the same way by further short options, but only the first equals sign of an argument is
skipped, and only right behind the first name. Two hyphens as a value count as nothing.

An argument counts as an option if it starts with a hyphen, unless it is a single hyphen, looks like
a negative number, or holds a space and starts with no option. Behind two hyphens every argument is a
path.
-/

namespace EntityDiagram.CommandLine

/-- The options of the command line. -/
inductive Switch where
  | help
  | output
  | format
  | noProperties
  | noKeys
  | comments
  | direction
  | layout
  | verbose
  deriving DecidableEq, Repr

/-- The names of the options. -/
def switchNames : List (String × Switch) :=
  [("-h", .help), ("--help", .help), ("-o", .output), ("--output", .output), ("-f", .format),
    ("--format", .format), ("--no-properties", .noProperties), ("--no-keys", .noKeys),
    ("--comments", .comments), ("--direction", .direction), ("--layout", .layout),
    ("-v", .verbose), ("--verbose", .verbose)]

/-- Whether an option takes a value. -/
def Switch.takesValue : Switch → Bool
  | output | format | direction | layout => true
  | _ => false

/-- Why the arguments are not carried out. -/
inductive Usage where
  /-- They are not understood. -/
  | misuse
  /-- They ask for help. -/
  | help
  deriving DecidableEq, Repr

/-- What an argument is. -/
inductive Word where
  /-- A path or the value of an option. -/
  | plain (text : String)
  /-- Two hyphens. -/
  | separator
  /-- An option; whether it was given by its short name, and what follows in the same argument. -/
  | option (switch : Switch) (isShort : Bool) (attached : Option (List Char))

/-- Text that looks like a negative number, which may end in a line feed. -/
def isNegativeNumber (cs : List Char) : Bool :=
  match cs with
  | '-' :: rest =>
    let body := if rest.getLast? = some '\n' then rest.dropLast else rest
    let afterDigits := body.dropWhile Text.isDecimal
    match afterDigits with
    | [] => !body.isEmpty
    | '.' :: decimals => !decimals.isEmpty && decimals.all Text.isDecimal
    | _ => false
  | _ => false

/-- The option with exactly this name. -/
def switchNamed? (name : List Char) : Option Switch :=
  (switchNames.find? fun entry => entry.1.toList == name).map Prod.snd

/-- The options whose names start with a text. -/
def switchesWith (start : List Char) : List Switch :=
  (switchNames.filter fun entry => start.isPrefixOf entry.1.toList).map Prod.snd

/-- A text before and behind its first equals sign. -/
def cutAtSign (cs : List Char) : List Char × Option (List Char) :=
  let before := cs.takeWhile (· ≠ '=')
  match cs.drop before.length with
  | [] => (before, none)
  | _ :: behind => (before, some behind)

/-- An option by its short name and by what follows it in the argument. -/
def shortOption? (cs : List Char) : Option Word :=
  match cs with
  | dash :: letter :: rest =>
    (switchNamed? [dash, letter]).map fun switch => .option switch true (some rest)
  | _ => none

/-- An argument that starts with a hyphen and is no option, if it may be something else. -/
def plainOrMisuse (cs : List Char) : Except Usage Word :=
  if isNegativeNumber cs || cs.contains ' ' then .ok (.plain (String.ofList cs))
  else .error .misuse

/-- What an argument before the separator is. -/
def classify (argument : String) : Except Usage Word :=
  let cs := argument.toList
  match cs with
  | '-' :: second :: _ =>
    let (name, value) := cutAtSign cs
    let isShort := second != '-'
    match switchNamed? cs with
    | some switch => .ok (.option switch isShort none)
    | none =>
      match value.isSome, switchNamed? name with
      | true, some switch => .ok (.option switch isShort value)
      | _, _ =>
        if isShort then
          match shortOption? cs with
          | some word => .ok word
          | none => plainOrMisuse cs
        else
          match switchesWith name with
          | [] => plainOrMisuse cs
          | [switch] => .ok (.option switch false value)
          | _ => .error .misuse
  | _ => .ok (.plain argument)

/-- What the arguments are; behind the first separator all are plain. -/
def words : List String → Except Usage (List Word)
  | [] => .ok []
  | argument :: rest =>
    if argument = "--" then .ok (.separator :: rest.map Word.plain)
    else do
      let first ← classify argument
      let more ← words rest
      return first :: more

/-- What is given as the value of an option. -/
inductive Given where
  | text (value : String)
  /-- Two hyphens were given, which count as nothing. -/
  | nothing
  deriving DecidableEq, Repr

namespace Given

/-- What a text gives as the value of an option. -/
def ofText (value : String) : Given :=
  if value = "--" then nothing else text value

/-- A given value in the listing of the arguments. -/
def listing : Given → String
  | text value => Text.quoted value
  | nothing => "[]"

/-- A given value as a text; nothing is shown as an empty list. -/
def shown : Given → String
  | text value => value
  | nothing => "[]"

/-- A given value that is nothing or one of a list. -/
def isOneOf (given : Given) (values : List String) : Bool :=
  match given with
  | text value => values.contains value
  | nothing => true

end Given

/-- What the command line asks for. -/
structure Arguments where
  command : String
  paths : List String := []
  output : Option Given := none
  format : Given := .text "mermaid"
  noProperties : Bool := false
  noKeys : Bool := false
  comments : Bool := false
  direction : Given := .text "right"
  layout : Given := .text "grid"
  verbose : Nat := 0
  deriving DecidableEq, Repr

namespace Arguments

/-- The arguments with an option that takes no value. -/
def enable (arguments : Arguments) : Switch → Except Usage Arguments
  | .noProperties => .ok { arguments with noProperties := true }
  | .noKeys => .ok { arguments with noKeys := true }
  | .comments => .ok { arguments with comments := true }
  | .verbose => .ok { arguments with verbose := arguments.verbose + 1 }
  | .help => .error .help
  | _ => .error .misuse

/-- The arguments with the value of an option; some options admit certain values only. -/
def assign (arguments : Arguments) (switch : Switch) (value : Given) :
    Except Usage Arguments :=
  match switch with
  | .output => .ok { arguments with output := some value }
  | .format =>
    if value.isOneOf ["mermaid", "d2", "drawio"] then .ok { arguments with format := value }
    else .error .misuse
  | .direction =>
    if value.isOneOf ["right", "down", "left", "up"] then
      .ok { arguments with direction := value }
    else .error .misuse
  | .layout =>
    if value.isOneOf ["grid", "layered"] then .ok { arguments with layout := value }
    else .error .misuse
  | _ => .error .misuse

/-- The arguments with options that take no value. -/
def enableAll (arguments : Arguments) (flags : List Switch) : Except Usage Arguments :=
  flags.foldlM enable arguments

/-- The options that one argument holds: some that take no value, and behind them perhaps one that
takes a value, which follows at once or in the next argument. -/
structure Chain where
  flags : List Switch := []
  valued : Option (Switch × Option Given) := none

/-- The options that an option and the rest of its argument hold. -/
def Chain.of (switch : Switch) (isShort : Bool) : List Char → Except Usage Chain
  | [] =>
    if switch.takesValue then .ok { valued := some (switch, some (.text "")) }
    else .error .misuse
  | c :: rest =>
    if switch.takesValue then
      .ok { valued := some (switch, some (.ofText (String.ofList (c :: rest)))) }
    else if !isShort then .error .misuse
    else
      match switchNamed? ['-', c] with
      | none => .error .misuse
      | some next =>
        match rest with
        | [] =>
          if next.takesValue then .ok { flags := [switch], valued := some (next, none) }
          else .ok { flags := [switch, next] }
        | further => do
          let chain ← Chain.of next true further
          return { chain with flags := switch :: chain.flags }

/-- The options that an argument holds. -/
def Chain.ofWord (switch : Switch) (isShort : Bool) (attached : Option (List Char)) :
    Except Usage Chain :=
  match attached with
  | some rest => Chain.of switch isShort rest
  | none =>
    if switch.takesValue then .ok { valued := some (switch, none) } else .ok { flags := [switch] }

/-- The text of a word that is no option. -/
def plainText? : Word → Option String
  | .plain text => some text
  | .separator => some "--"
  | .option _ _ _ => none

/-- Where reading the words stands. -/
inductive Progress where
  /-- Options, or the first path. -/
  | ready
  /-- An option waits for its value; options before it in the same argument count with it. -/
  | waiting (flags : List Switch) (switch : Switch)
  /-- Paths are being collected, in reverse order. -/
  | collecting (paths : List String)

/-- The arguments with the collected paths, of which the first separator is none. -/
def finish (arguments : Arguments) (collected : List String) : Except Usage Arguments :=
  let paths := collected.reverse.erase "--"
  if paths.isEmpty || !arguments.paths.isEmpty then .error .misuse
  else .ok { arguments with paths }

/-- The arguments with the options of a chain, and where reading stands behind it. -/
def follow (arguments : Arguments) (chain : Chain) : Except Usage (Arguments × Progress) :=
  match chain.valued with
  | some (switch, none) => .ok (arguments, .waiting chain.flags switch)
  | some (switch, some value) => do
    let enabled ← arguments.enableAll chain.flags
    let assigned ← enabled.assign switch value
    return (assigned, .ready)
  | none => do
    let enabled ← arguments.enableAll chain.flags
    return (enabled, .ready)

/-- Reads the words of the arguments. -/
def fold (arguments : Arguments) : Progress → List Word → Except Usage Arguments
  | .ready, [] => if arguments.paths.isEmpty then .error .misuse else .ok arguments
  | .waiting _ _, [] => .error .misuse
  | .collecting paths, [] => arguments.finish paths
  | .waiting flags switch, .plain text :: rest => do
    let enabled ← arguments.enableAll flags
    let assigned ← enabled.assign switch (.ofText text)
    assigned.fold .ready rest
  | .waiting _ _, _ :: _ => .error .misuse
  | .ready, .option switch isShort attached :: rest => do
    let (followed, progress) ← arguments.follow (← Chain.ofWord switch isShort attached)
    followed.fold progress rest
  | .collecting paths, .option switch isShort attached :: rest => do
    let finished ← arguments.finish paths
    let (followed, progress) ← finished.follow (← Chain.ofWord switch isShort attached)
    followed.fold progress rest
  | .ready, word :: rest => arguments.fold (.collecting (plainText? word).toList) rest
  | .collecting paths, word :: rest =>
    arguments.fold (.collecting ((plainText? word).toList ++ paths)) rest

/-- The names of the only command. -/
def commandNames : List String :=
  ["generate", "g"]

/-- The arguments that a list of texts stands for. The command comes first. -/
def parse (argv : List String) : Except Usage Arguments :=
  match argv with
  | [] => .error .misuse
  | command :: rest =>
    if commandNames.contains command then do
      let found ← words rest
      ({ command } : Arguments).fold .ready found
    else if command = "-h" ∨ command = "--help" then .error .help
    else .error .misuse

/-- A truth value in the listing of the arguments. -/
def flagText (value : Bool) : String :=
  if value then "True" else "False"

/-- All arguments, listed with their names. -/
def listing (arguments : Arguments) : String :=
  let paths : List Text := arguments.paths.map .ofString
  let fields : List (String × String) :=
    [("command", Text.quoted arguments.command),
      ("paths", "[" ++ ", ".intercalate (paths.map Text.quoted) ++ "]"),
      ("output", (arguments.output.map Given.listing).getD "None"),
      ("format", arguments.format.listing),
      ("no_properties", flagText arguments.noProperties),
      ("no_keys", flagText arguments.noKeys),
      ("comments", flagText arguments.comments),
      ("direction", arguments.direction.listing),
      ("layout", arguments.layout.listing),
      ("verbose", toString arguments.verbose)]
  "Namespace(" ++ ", ".intercalate (fields.map fun (name, value) => name ++ "=" ++ value) ++ ")"

end Arguments

end EntityDiagram.CommandLine
