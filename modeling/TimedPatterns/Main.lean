import TimedPatterns.CommandLine.Execution
import TimedPatterns.Recording

/-!
# The program

The files that a command is given are loaded, the command is executed, and the files that it
changed are stored. The programs that it runs are played back from a recording: the directory that
the variable `TIMED_PATTERNS_RECORDING` names holds the files `0.status`, `0.out`, `0.err` and
`0.witness` for the first of them, and so on.
-/

namespace TimedPatterns

open CommandLine

/-- What a file holds, if it can be read. -/
def loadContent (path : String) : IO (Option Content) := do
  try return some (.ofBytes (← IO.FS.readBinFile path))
  catch _ => return none

/-- Add the file at a path to those that are loaded, and the directory that it lies in. -/
def loadFile (f : Files) (path : String) : IO Files := do
  let f := (f.makeDirectories (Path.directory path)).2
  match ← loadContent path with
  | none => return f
  | some content => return (f.write path content).toOption.getD f

def loadRun (directory : String) (number : Nat) : IO (Option RecordedRun) := do
  let part (extension : String) : IO (Option Content) :=
    loadContent (Path.join directory s!"{number}.{extension}")
  match ((← part "status").map Content.lossy).bind RecordedRun.ending? with
  | none => return none
  | some (status, timedOut) =>
    return some { status, timedOut, stdout := (← part "out").getD (.text ""),
                  stderr := (← part "err").getD (.text ""), witness := ← part "witness" }

/-- The runs from the given number on. -/
partial def loadRuns (directory : String) (number : Nat) : IO (List RecordedRun) := do
  match ← loadRun directory number with
  | none => return []
  | some run => return run :: (← loadRuns directory (number + 1))

/-- Store the files that were changed, and remove those that are gone. -/
def storeChanges (before after : Files) : IO Unit := do
  let pathOf (place : Place) : String := "/" ++ "/".intercalate place
  for (place, node) in after.nodes do
    if before.at? place ≠ some node then
      match node with
      | .directory => IO.FS.createDirAll (pathOf place)
      | .file content =>
        IO.FS.createDirAll (pathOf place.dropLast)
        IO.FS.writeBinFile (pathOf place) content.toBytes
  for (place, node) in before.nodes do
    if (after.at? place).isNone then
      if let .file _ := node then IO.FS.removeFile (pathOf place)

def loadWorld (paths : List String) : IO World := do
  let here := (Text.splitAt '/' (← IO.currentDir).toString).filter (· ≠ "")
  let above := (List.range here.length).map fun n => (here.take (n + 1), Node.directory)
  let empty : Files := ⟨above, here⟩
  let files ← paths.foldlM loadFile (empty.makeDirectories "/tmp").2
  let runs ← match ← IO.getEnv "TIMED_PATTERNS_RECORDING" with
    | none => pure []
    | some directory => loadRuns directory 0
  return { files, behaviour := playBack runs, processId := ← IO.monoMsNow }

/-- The number of rounds after which an exhaustive search is given up. -/
def roundLimit : Nat := 1000000000

def perform (i : Invocation) : IO UInt32 := do
  let before ← loadWorld i.task.paths
  let (report?, after) := StateT.run (i.execute roundLimit) before
  storeChanges before.files after.files
  match report? with
  | none => return 1
  | some report =>
    (← IO.getStdout).putStr report.stdout
    (← IO.getStderr).putStr report.stderr
    return UInt32.ofNat report.exit

end TimedPatterns

/-- Read the command line and do what it says. -/
def main (arguments : List String) : IO UInt32 := do
  match TimedPatterns.CommandLine.Invocation.read arguments with
  | .ok invocation => TimedPatterns.perform invocation
  | .error .help =>
    (← IO.getStdout).putStrLn TimedPatterns.CommandLine.UsageError.help.message
    return 0
  | .error error =>
    (← IO.getStderr).putStrLn s!"error: {error.message}"
    return 2
