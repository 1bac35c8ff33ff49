import EntityDiagram.CommandLine.Arguments
import EntityDiagram.CommandLine.FileSystem
import EntityDiagram.Render.Renderer
import EntityDiagram.Declaration.Parse.Statements

/-!
# Running the program

The program reads files, builds one diagram of them, and writes its rendering to the standard output
or to a file. What it says on the way are messages: some are always said, others only at a level of
verbosity. All files have to exist before any is read, and nothing is written unless all could be
read and rendered.

Texts leave the program in UTF-8. A rendering with a surrogate has no bytes, so it is not handed out; by
the time that this is found out, the file that it was meant for has been opened and is empty. Messages
are never refused: they show a surrogate by its code point.
-/

namespace EntityDiagram.CommandLine

open Declaration (NameKind SourceFile)
open Layout (DrawingEngine)
open Model (Diagram Omission Relationship)
open Render (MermaidOptions D2Options DrawioOptions Options Renderer RendererFault)
open Source (SourceError)

/-- Something said on the way. -/
inductive Message where
  | plain (text : Text)
  /-- Said at the second level of verbosity, by a part of the program. -/
  | debug (speaker : String) (text : Text)
  /-- Said at the first level of verbosity. -/
  | info (speaker : String) (text : Text)
  deriving DecidableEq, Repr

/-- The line of a message, if it is said at a level of verbosity. -/
def Message.line? (verbose : Nat) : Message → Option Text
  | plain text => some text
  | debug speaker text => if 2 ≤ verbose then some ("DEBUG " ++ speaker ++ ": " ++ text) else none
  | info speaker text => if 1 ≤ verbose then some ("INFO " ++ speaker ++ ": " ++ text) else none

/-- The text of all messages that are said at a level of verbosity. -/
def transcript (verbose : Nat) (messages : List Message) : String :=
  String.join ((messages.filterMap (Message.line? verbose)).map fun line => line.escaped ++ "\n")

/-- A failure that ends the program without a message of its own. -/
inductive Crash where
  | source (error : SourceError)
  | renderer (fault : RendererFault)
  | layout (fault : Layout.LayoutFault)
  | file (fault : FileFault)
  | encoding (error : Text.Utf8.EncodeError)
  /-- No format was given. -/
  | noFormat

/-- The failure in words. -/
def Crash.message : Crash → String
  | source error => error.message
  | renderer fault => fault.message
  | layout fault => fault.message
  | file fault => fault.message
  | encoding error => error.message
  | noFormat => "unhashable type: 'list'"

/-- How the program ends. -/
inductive Outcome where
  /-- With an exit status, what was said on the two channels, and the bytes that are written to a
  file. -/
  | finished (exit : Nat) (output : Text) (messages : String)
      (written : Option (Path × List UInt8))
  /-- With a failure; a file that was opened by then is left empty. -/
  | crashed (crash : Crash) (emptied : Option Path)

/-- Why reading files ended. -/
inductive ReadFailure where
  /-- With a message. -/
  | reported (text : String)
  | crashed (crash : Crash)

/-- A read failure that a fault in a source text leads to. Only faults with a position are
reported. -/
def ReadFailure.ofSource (error : SourceError) : ReadFailure :=
  if error.fault.isLocated then reported error.message else crashed (.source error)

/-- The source file at a path, which exists. -/
def readSource (system : FileSystem) (path : Path) : Except ReadFailure SourceFile :=
  match Text.Utf8.decode ((system.read? path).getD []) with
  | .error e => .error (.reported e.message)
  | .ok cs =>
    (SourceFile.ofText path.text (String.ofList (Text.Utf8.unifyLines cs))).mapError
      ReadFailure.ofSource

/-- The source files at paths, as far as they can be read, and what is said on the way. -/
def readSources (system : FileSystem) :
    List Path → List Message × Except ReadFailure (List SourceFile)
  | [] => ([], .ok [])
  | path :: rest =>
    let reading := Message.debug "ts_erd" ("Reading " ++ path.text : String)
    match readSource system path with
    | .error failure => ([reading], .error failure)
    | .ok file =>
      let parsed := Message.debug "ts_erd.syntax.parser"
        ("Parsed " ++ toString file.statements.length ++ " statement(s) from " ++ path.text : String)
      let (messages, found) := readSources system rest
      (reading :: parsed :: messages, found.map (file :: ·))

/-- How the name of a member is written, in words. -/
def nameKindText : NameKind → String
  | .identifier => "identifier"
  | .string => "string"
  | .numeric => "numeric"
  | .computed => "computed"

/-- What is said about something left out. -/
def omissionMessage (omission : Omission) : Message :=
  .debug "ts_erd.analysis.extractor"
    (match omission with
      | .property nameKind name =>
        "Skipping property with " ++ nameKindText nameKind ++ " key " ++ name
      | .alias name => "Skipping non-object type alias " ++ name)

/-- What is said about a relationship. -/
def relationshipMessage (link : Relationship) : Message :=
  .debug "ts_erd.analysis.relationships"
    ("Relationship " ++ link.source ++ " -> " ++ link.target ++ " (" ++ link.label ++ ", " ++
      link.cardinality.text ++ ")")

/-- The numbers of entities and relationships, in words. -/
def countsText (diagram : Diagram) : String :=
  "Extracted " ++ toString diagram.entityCount ++ " entities, " ++
    toString diagram.relationshipCount ++ " relationships"

/-- What is said about the diagram of files. -/
def diagramMessages (files : List SourceFile) (diagram : Diagram) : List Message :=
  (files.flatMap Omission.listOfFile).map omissionMessage ++
    diagram.relationships.map relationshipMessage ++
    [.info "ts_erd"
        (countsText diagram ++ " from " ++ toString files.length ++ " file(s)"),
      .plain (countsText diagram)]

/-- The options that the arguments ask for. -/
def optionsOf (arguments : Arguments) : Options :=
  if arguments.format = .text "d2" then
    .d2 { direction := arguments.direction.shown
          showProperties := !arguments.noProperties
          showConstraints := !arguments.noKeys }
  else if arguments.format = .text "drawio" then
    .drawio { showKeyTypes := !arguments.noKeys, layout := arguments.layout.shown }
  else
    .mermaid { showProperties := !arguments.noProperties
               showComments := arguments.comments
               showKeyTypes := !arguments.noKeys }

/-- The rendering of a diagram that the arguments ask for. -/
def rendering
    (engine : DrawingEngine) (arguments : Arguments) (now : String) (diagram : Diagram) :
    Except Crash Text :=
  match arguments.format with
  | .nothing => .error .noFormat
  | .text format =>
    match Renderer.create format (some (optionsOf arguments)) with
    | .error fault => .error (.renderer fault)
    | .ok renderer => (renderer.render engine now diagram).mapError Crash.layout

/-- The name of the file to write to, if the arguments give one. -/
def outputName? (arguments : Arguments) : Option String :=
  match arguments.output with
  | some (.text name) => if name.isEmpty then none else some name
  | _ => none

/-- Hands out a rendering: to the file that the arguments name, or to the standard output. -/
def deliver (system : FileSystem) (arguments : Arguments) (messages : List Message)
    (text : Text) : Outcome :=
  let said := transcript arguments.verbose
  match outputName? arguments with
  | none =>
    match Text.Utf8.encode text with
    | .error error => .crashed (.encoding error) none
    | .ok _ => .finished 0 (text ++ "\n") (said messages) none
  | some name =>
    let path := (Path.ofText name).settled
    let shown := system.absolute path
    match system.writeFault? path shown with
    | some fault => .crashed (.file fault) none
    | none =>
      match Text.Utf8.encode text with
      | .error error => .crashed (.encoding error) (some path)
      | .ok bytes =>
        .finished 0 "" (said (messages ++ [.plain ("Generated: " ++ shown : String)]))
          (some (path, bytes))

/-- Runs the program with arguments that were understood. -/
def execute
    (engine : DrawingEngine) (now : String) (system : FileSystem) (arguments : Arguments) : Outcome :=
  let paths := arguments.paths.map Path.ofText
  let started := Message.debug "ts_erd.cli" ("Arguments: " ++ arguments.listing : String)
  match paths.findSome? system.refusal? with
  | some fault => .crashed (.file fault) none
  | none =>
    let missing := paths.filter fun path => !system.isFile path
    if !missing.isEmpty then
      let reports := missing.map fun path =>
        Message.plain ("Error: File not found: " ++ path.text : String)
      .finished 1 "" (transcript arguments.verbose (started :: reports)) none
    else
      let found := Message.plain ("Found " ++ toString paths.length ++ " file(s)" : String)
      let (reading, files) := readSources system paths
      let before := started :: found :: reading
      match files with
      | .error (.crashed crash) => .crashed crash none
      | .error (.reported text) =>
        .finished 1 "" (transcript arguments.verbose (before ++ [.plain ("Error: " ++ text : String)]))
          none
      | .ok files =>
        let diagram := Diagram.ofFiles files
        match rendering engine arguments now diagram with
        | .error crash => .crashed crash none
        | .ok text => deliver system arguments (before ++ diagramMessages files diagram) text

/-- Runs the program. Arguments that are not understood end it with the status two. -/
def run
    (engine : DrawingEngine) (now : String) (system : FileSystem) (argv : List String) : Outcome :=
  match Arguments.parse argv with
  | .error .misuse => .finished 2 "" "" none
  | .error .help => .finished 0 "" "" none
  | .ok arguments => execute engine now system arguments

/-- The file system after the program has ended. -/
def Outcome.after (outcome : Outcome) (system : FileSystem) : FileSystem :=
  match outcome with
  | finished _ _ _ (some (path, bytes)) => system.write path bytes
  | crashed _ (some path) => system.write path []
  | _ => system

end EntityDiagram.CommandLine
