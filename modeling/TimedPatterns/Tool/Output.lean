import TimedPatterns.Text.Blank
import TimedPatterns.Text.Duration
import TimedPatterns.Text.Json
import TimedPatterns.Tool.Error

/-!
# Outputs

What a program left behind when it ended, and the result of a command: an output, or the error
that kept the program from running.

A program succeeds if it exits with status 0 before its time is up. Its complaint is otherwise
that it ran out of time, or what it printed, its error output first.
-/

namespace TimedPatterns

/-- What a program left behind. Without a status it was killed by a signal. -/
structure Output where
  status : Option Int
  stdout : String
  stderr : String
  timedOut : Bool
  elapsed : Duration
  deriving DecidableEq, Repr

namespace Output

/-- Whether the program exited with status 0 before its time was up. -/
def isSuccess (o : Output) : Bool := !o.timedOut && o.status == some 0

/-- The output, and the error output behind it. -/
def combined (o : Output) : String := o.stdout ++ o.stderr

/-- What the program complained about: that its time was up, or else its error output, or else
its output. -/
def complaint (o : Output) : String :=
  if o.timedOut then s!"timed out after {o.elapsed.render}"
  else if Text.trim o.stderr = "" then Text.trim o.stdout
  else Text.trim o.stderr

/-- Let a success pass, and make an error of anything else. -/
def check (o : Output) (command : String) : Except ToolError Output :=
  if o.isSuccess then .ok o else .error (.failure command o.status o.complaint)

/-- An output as JSON, with its time as given. -/
def toJsonWith (o : Output) (elapsed : Json) : Json :=
  .object [("elapsed", elapsed), ("status", (o.status.map Json.int).getD .null),
    ("stderr", .text o.stderr), ("stdout", .text o.stdout), ("timed_out", .bool o.timedOut)]

def toJson (o : Output) : Json :=
  o.toJsonWith (.object [("nanos", .int o.elapsed.subseconds), ("secs", .int o.elapsed.seconds)])

end Output

/-- The line of a command, and its output or the error that kept it from running. -/
structure CommandResult where
  command : String
  outcome : Except ToolError Output

namespace CommandResult

/-- Whether the program ran and succeeded. -/
def isSuccess (r : CommandResult) : Bool :=
  match r.outcome with
  | .ok o => o.isSuccess
  | .error _ => false

end CommandResult

end TimedPatterns
