import TimedPatterns.Files
import TimedPatterns.Tool.Command
import TimedPatterns.Tool.Output

/-!
# The world of a search

A search reads and writes files and runs external programs. The world is the value it does this
in: the files, the behaviour of the programs, and the counters that keep names apart.

Nothing is assumed of the behaviour of the programs. What one does may depend on everything that
was run before it, on the command, on the time it is given and on the files it finds; and it may
write any files before it ends.
-/

namespace TimedPatterns

/-- What a program does when it is run: how it ends, what it prints, and the files it writes. If it
is lost, its end cannot be learnt. -/
structure Reaction where
  status : Option Int
  stdout : Content := .text ""
  stderr : Content := .text ""
  timedOut : Bool := false
  elapsed : Duration := ⟨0⟩
  writes : List (String × Content) := []
  lost : Option SystemError := none
  deriving DecidableEq, Repr

/-- What is learnt of a program that was started. -/
def Reaction.outcome (r : Reaction) : Except ToolError Output :=
  match r.lost with
  | some error => .error (.system error)
  | none => .ok ⟨r.status, r.stdout.lossy, r.stderr.lossy, r.timedOut, r.elapsed⟩

/-- Write the files of a reaction, as far as they can be written. -/
def Reaction.apply (r : Reaction) (f : Files) : Files :=
  r.writes.foldl (fun f (path, content) => (f.write path content).toOption.getD f) f

/-- A program that was run, and the files it found. -/
structure Launched where
  command : Command
  limit : Option Duration
  files : Files
  deriving DecidableEq, Repr

/-- The behaviour of the programs. What was run before is given with the latest first. A program
that cannot be started has no reaction. -/
abbrev Behaviour :=
  List Launched → Command → Option Duration → Files → Except SystemError Reaction

/-- The files, the behaviour of the programs and what was run of them, and the counters that keep
names apart. Temporary directories are made in `scratch`, and `processors` programs can run at
once. -/
structure World where
  files : Files
  behaviour : Behaviour
  launched : List Launched := []
  processId : Nat
  tags : Nat := 0
  scopes : Nat := 0
  scratch : String := "/tmp"
  processors : Nat := 1

/-- Something done in a world. -/
abbrev Session := StateM World

namespace Session

/-- Do something with the files that may fail, and then changes nothing. -/
def withFiles (change : Files → Except SystemError Files) : Session (Except SystemError Unit) :=
  fun w =>
    match change w.files with
    | .ok files => (.ok (), { w with files })
    | .error error => (.error error, w)

def makeDirectories (path : String) : Session (Except SystemError Unit) :=
  fun w =>
    let (result, files) := w.files.makeDirectories path
    (result, { w with files })

def readText (path : String) : Session (Except SystemError String) :=
  fun w => (w.files.readText path, w)

def writeText (path text : String) : Session (Except SystemError Unit) :=
  withFiles (·.write path (.text text))

/-- A program that could not be started, or one that was, with what will be learnt of it. -/
inductive Started where
  | failed (error : ToolError)
  | running (outcome : Except ToolError Output)

def start (command : Command) (limit : Option Duration) : Session Started := fun w =>
  if command.program = "" then (.failed (.badCommand "empty command"), w)
  else if command.hasNul then (.failed (.launch command.line .nulInCommand), w)
  else match w.behaviour w.launched command limit w.files with
    | .error error => (.failed (.launch command.line error), w)
    | .ok reaction =>
      (.running reaction.outcome,
        { w with
          files := reaction.apply w.files
          launched := ⟨command, limit, w.files⟩ :: w.launched })

def run (command : Command) (limit : Option Duration) : Session (Except ToolError Output) := do
  match ← start command limit with
  | .failed error => return .error error
  | .running outcome => return outcome

/-- Run a command, and keep its line with what came of it. -/
def result (limit : Option Duration) (command : Command) : Session CommandResult := do
  return ⟨command.line, ← run command limit⟩

def runChecked (command : Command) (limit : Option Duration) :
    Session (Except ToolError Output) := do
  match ← run command limit with
  | .error error => return .error error
  | .ok output => return output.check command.line

end Session

end TimedPatterns
