import EntityDiagram.CommandLine.Moment
import EntityDiagram.CommandLine.Run
import EntityDiagram.Layout.Sugiyama.Engine
import Std.Time.DateTime.Timestamp

/-!
# The program

Collects the files that the arguments name, runs the program on them, and hands out what it ends
with. All decisions are made by the pure part, and layers are computed by an engine that is given.
-/

namespace EntityDiagram.CommandLine

open Layout (DrawingEngine)

/-- The files that exist at paths, with their bytes. -/
def collectFiles (paths : List Path) : IO (List (Path × List UInt8)) := do
  let mut found := []
  for path in paths do
    try
      let bytes ← IO.FS.readBinFile path.text
      found := (path, bytes.toList) :: found
    catch _ => pure ()
  return found.reverse

/-- The paths on the way to a path, itself included. -/
def wayTo (path : Path) : List Path :=
  (List.range (path.parts.length + 1)).map fun count =>
    { path with parts := path.parts.take count }

/-- The ones of some paths at which there is something of a type. -/
def ofType (type : IO.FS.FileType) (paths : List Path) : IO (List Path) := do
  let directory ← IO.currentDir
  let mut found := []
  for path in paths do
    try
      let metadata ← (directory / path.text).metadata
      if metadata.type == type then found := path :: found
    catch _ => pure ()
  return found.reverse

/-- The file system as far as the arguments are concerned with it. -/
def surroundings (argv : List String) : IO FileSystem := do
  let directory ← IO.currentDir
  match Arguments.parse argv with
  | .error _ => return { workingDirectory := directory.toString }
  | .ok arguments =>
    let files ← collectFiles (arguments.paths.map Path.ofText)
    let way := ((outputName? arguments).map fun name => wayTo (Path.ofText name).settled).getD []
    let others ← ofType .file way
    return {
      workingDirectory := directory.toString
      files := files ++ others.map fun path => (path, [])
      directories := ← ofType .dir way }

/-- The current time. -/
def currentTime : IO Moment := do
  let now ← Std.Time.Timestamp.now
  return ⟨now.toNanosecondsSinceUnixEpoch.val.toNat / 1000⟩

/-- Runs the program with an engine and returns its exit status. -/
def runProgram (engine : DrawingEngine) (argv : List String) : IO UInt32 := do
  let system ← surroundings argv
  match run engine (← currentTime).text system argv with
  | .crashed crash emptied =>
    match emptied with
    | some path => IO.FS.writeFile path.text ""
    | none => pure ()
    (← IO.getStderr).putStrLn crash.message
    return 1
  | .finished exit output messages written =>
    match written with
    | some (path, bytes) => IO.FS.writeBinFile path.text ⟨bytes.toArray⟩
    | none => pure ()
    (← IO.getStdout).putStr output.escaped
    (← IO.getStderr).putStr messages
    return exit.toUInt32

end EntityDiagram.CommandLine

/-- The program, with the engine that is at hand. -/
def main (argv : List String) : IO UInt32 :=
  EntityDiagram.CommandLine.runProgram EntityDiagram.Layout.Sugiyama.drawingEngine argv
