import TimedPatterns.World

/-!
# Settings

How the verifier and its companion are run: their paths, the time that each run is given, and the
format of the witnesses. A verifier is taken if it runs and mentions its help option when it is
asked for help.
-/

namespace TimedPatterns

/-- How the verifier and its companion are run. -/
structure Settings where
  verifier : String
  tracer : String
  timeout : Option Duration := none
  format : WitnessFormat := .xml
  deriving DecidableEq, Repr

namespace Settings

def helpMarker : String := "-h [ --help ]"

/-- The variable that makes the verifier print the compiled model instead of checking it. -/
def compileVariable : String := "UPPAAL_COMPILE_ONLY"

def helpTimeout : Duration := .ofMillis 30000

def mentionsHelp (o : Output) : Bool :=
  Text.occurs helpMarker.toList o.stdout.toList || Text.occurs helpMarker.toList o.stderr.toList

/-- The settings for a verifier that has been found to run, with the companion next to it. -/
def ofVerifier (path : String) : Session (Except ToolError Settings) := do
  match ← Session.run ⟨path, ["-h"], []⟩ (some helpTimeout) with
  | .error error => return .error (.unusable path error.message)
  | .ok output =>
    if mentionsHelp output then return .ok ⟨path, Path.withName path "tracer", none, .xml⟩
    else return .error (.unusable path s!"`-h` output does not mention {helpMarker}")

/-! ### Commands -/

def command (s : Settings) (arguments : List String) : Command := ⟨s.verifier, arguments, []⟩

def compileCommand (s : Settings) (model : String) : Command :=
  ⟨s.verifier, [model], [(compileVariable, "1")]⟩

def renderCommand (s : Settings) (compiled witness : String) : Command :=
  ⟨s.tracer, [compiled, witness], []⟩

/-- Run the verifier with arguments on one line. -/
def runLine (s : Settings) (line : String) : Session (Except ToolError Output) := do
  match Command.splitWords line with
  | .error error => return .error error.toToolError
  | .ok words => Session.run (s.command words) s.timeout

end Settings

end TimedPatterns
