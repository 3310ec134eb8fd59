import TimedPatterns.Text.Numeral
import TimedPatterns.World

/-!
# Recordings

A recording keeps what programs did when they were run, in the order in which they were started.
Played back, it is a behaviour: the next program that is started does what was recorded next,
whatever it is, and once the recording is at its end no program can be found.
-/

namespace TimedPatterns

/-- A run that was recorded: how it ended, what was printed, and the witness that was written. -/
structure RecordedRun where
  status : Option Int
  timedOut : Bool := false
  stdout : Content := .text ""
  stderr : Content := .text ""
  witness : Option Content := none
  deriving DecidableEq, Repr

namespace RecordedRun

/-- How a run ended: with a number, by a signal, or because its time was up. -/
def ending? (text : String) : Option (Option Int × Bool) :=
  match Text.trim text with
  | "killed" => some (none, false)
  | "timeout" => some (none, true)
  | status =>
    match Text.readSigned status.toList with
    | .ok status => some (some status, false)
    | .error _ => none

/-- Where a command asks for its witness. -/
def witnessPath? (c : Command) : Option String :=
  match c.arguments with
  | _ :: _ :: flag :: start :: _ =>
    ([.xml, .xtr].find? fun f => f.flag == flag).map fun f : WitnessFormat => f.witnessPath start
  | _ => none

def reaction (r : RecordedRun) (c : Command) : Reaction where
  status := r.status
  stdout := r.stdout
  stderr := r.stderr
  timedOut := r.timedOut
  writes := match witnessPath? c, r.witness with
    | some path, some witness => [(path, witness)]
    | _, _ => []

end RecordedRun

/-- Play a recording back. -/
def playBack (runs : List RecordedRun) : Behaviour := fun launched command _ _ =>
  match runs[launched.length]? with
  | none => .error .notFound
  | some run => .ok (run.reaction command)

end TimedPatterns
