import EntityDiagram.Text.Utf8
import EntityDiagram.Text.Quoted

/-!
# Paths and files

A path is taken apart at its slashes; empty parts and single dots do not count. Two dots lead out of a
directory. A path is settled when they stand only at its start.

A file system is a value: files with their bytes and further directories that are known to exist, by
their paths. Following a path goes through its directories one by one and fails at the first part
that does not lead on. Running the program computes what is to be written; nothing here writes.
-/

namespace EntityDiagram.CommandLine

/-- A path: what it starts from, and its parts. -/
structure Path where
  /-- Empty for a relative path, otherwise one or two slashes. -/
  anchor : String := ""
  parts : List String := []
  deriving DecidableEq, Repr

namespace Path

/-- The pieces of a text between slashes. -/
def pieces : List Char → List (List Char)
  | [] => [[]]
  | c :: rest =>
    if c = '/' then [] :: pieces rest
    else
      match pieces rest with
      | [] => [[c]]
      | piece :: more => (c :: piece) :: more

/-- What a path starts from. Exactly two slashes are kept. -/
def anchorOf : List Char → String
  | '/' :: '/' :: '/' :: _ => "/"
  | '/' :: '/' :: _ => "//"
  | '/' :: _ => "/"
  | _ => ""

/-- The path that a text stands for. -/
def ofText (text : String) : Path :=
  { anchor := anchorOf text.toList
    parts := (pieces text.toList).filterMap fun piece =>
      if piece.isEmpty || piece == ['.'] then none else some (String.ofList piece) }

/-- The text of a path; the path without parts is a dot. -/
def text (path : Path) : String :=
  if path.anchor.isEmpty && path.parts.isEmpty then "."
  else path.anchor ++ "/".intercalate path.parts

/-- What a path starts from. -/
def start (path : Path) : Path :=
  { anchor := path.anchor }

/-- The path of something in the directory at a path. -/
def child (path : Path) (part : String) : Path :=
  { path with parts := path.parts ++ [part] }

/-- The path of the directory around the one at a path. Nothing is around a root. -/
def parent (path : Path) : Path :=
  match path.parts.getLast? with
  | none => if path.anchor.isEmpty then path.child ".." else path
  | some last => if last = ".." then path.child ".." else { path with parts := path.parts.dropLast }

/-- A path in which two dots have taken back the part before them, whether it exists or not. -/
def settled (path : Path) : Path :=
  path.parts.foldl (fun reached part => if part = ".." then reached.parent else reached.child part)
    { anchor := if path.anchor.isEmpty then "" else "/" }

/-- A path seen from a directory. -/
def seenFrom (path directory : Path) : Path :=
  if path.anchor.isEmpty then { directory with parts := directory.parts ++ path.parts } else path

/-- Whether a path leads to a directory around what another path leads to, or to the same. -/
def leadsTo (path other : Path) : Bool :=
  path.anchor == other.anchor && path.parts.isPrefixOf other.parts

end Path

/-- Why a path cannot be followed, or a file cannot be written at its end. -/
inductive PathFault where
  | missing
  | notADirectory
  | isADirectory
  | tooLong
  deriving DecidableEq, Repr

/-- The number and the words of a fault. -/
def PathFault.text : PathFault → String
  | missing => "[Errno 2] No such file or directory"
  | notADirectory => "[Errno 20] Not a directory"
  | isADirectory => "[Errno 21] Is a directory"
  | tooLong => "[Errno 36] File name too long"

/-- A fault and the path at which it was found. -/
structure FileFault where
  fault : PathFault
  path : String
  deriving DecidableEq, Repr

/-- The fault in words. -/
def FileFault.message (found : FileFault) : String :=
  found.fault.text ++ ": " ++ Text.quoted found.path

/-- The greatest number of bytes in a part of a path. -/
def maxPartBytes : Nat := 255

/-- The greatest number of bytes in a path. -/
def maxPathBytes : Nat := 4095

/-- Files with their bytes, and directories. -/
structure FileSystem where
  /-- The absolute path of the working directory. -/
  workingDirectory : String
  files : List (Path × List UInt8) := []
  directories : List Path := []

namespace FileSystem

/-- Whether there is a directory at a path: a root, the working directory or one around it, a known
one, or one that holds a file. -/
def isDirectory (system : FileSystem) (path : Path) : Bool :=
  path.parts.all (· == "..") || system.directories.any path.leadsTo ||
    system.files.any fun entry => path.leadsTo entry.1 && path != entry.1

/-- The path that a further part leads to. -/
def enter (system : FileSystem) (path : Path) (part : String) : Except PathFault Path :=
  if !system.isDirectory path then
    .error (if (system.files.lookup path).isSome then .notADirectory else .missing)
  else if part = ".." then .ok path.parent
  else if maxPartBytes < part.utf8ByteSize then .error .tooLong
  else .ok (path.child part)

/-- The settled path that a path leads to. -/
def follow (system : FileSystem) (path : Path) : Except PathFault Path :=
  path.parts.foldlM system.enter path.start

/-- The bytes of the file at a path. -/
def read? (system : FileSystem) (path : Path) : Option (List UInt8) :=
  (system.files.lookup path).or ((system.follow path).toOption.bind (system.files.lookup ·))

/-- Whether there is a file at a path. -/
def isFile (system : FileSystem) (path : Path) : Bool :=
  (system.read? path).isSome

/-- Why it cannot be told whether there is a file at a path. -/
def refusal? (system : FileSystem) (path : Path) : Option FileFault :=
  let isTooLong := decide (maxPathBytes < path.text.utf8ByteSize) ||
    match system.follow path with
    | .error .tooLong => true
    | _ => false
  if isTooLong then some ⟨.tooLong, path.text⟩ else none

/-- The absolute path of what a path leads to. -/
def absolute (system : FileSystem) (path : Path) : String :=
  (path.seenFrom (.ofText system.workingDirectory)).settled.text

/-- Why no file can be written at a settled path that is shown as a text. -/
def writeFault? (system : FileSystem) (path : Path) (shown : String) : Option FileFault :=
  let found : Option PathFault :=
    if maxPathBytes < shown.utf8ByteSize then some .tooLong
    else
      match system.follow path with
      | .error fault => some fault
      | .ok reached => if system.isDirectory reached then some .isADirectory else none
  found.map fun fault => ⟨fault, shown⟩

/-- The file system after bytes were written to a path. -/
def write (system : FileSystem) (path : Path) (bytes : List UInt8) : FileSystem :=
  { system with files := (path, bytes) :: system.files.filter fun entry => entry.1 != path }

end FileSystem

end EntityDiagram.CommandLine
