import TimedPatterns.Search.Basic
import TimedPatterns.Text.Grid

/-!
# Reports

What a command leaves behind: an exit status, an output and an error output. Results and patterns
are printed as a table, or as a line of JSON each.
-/

namespace TimedPatterns.CommandLine

/-- What a command leaves behind. -/
structure Report where
  exit : Nat
  stdout : String := ""
  stderr : String := ""
  deriving DecidableEq, Repr

namespace Report

/-- The report of a command that an error has stopped. -/
def failed (message : String) : Report := { exit := 1, stderr := message ++ "\n" }

/-- The report of a command that has printed something and was a success or not. -/
def printed (success : Bool) (stdout : String) : Report :=
  { exit := if success then 0 else 1, stdout }

end Report

def lines (texts : List String) : String := String.join (texts.map (· ++ "\n"))

/-! ### Results -/

/-- A duration in seconds with one digit behind the point. -/
def seconds (d : Duration) : String :=
  let tenths := (d.nanos + 50000000) / 100000000
  s!"{tenths / 10}.{tenths % 10}"

/-- How a command ended, and how long it took. -/
def ending (r : CommandResult) : String × Duration :=
  match r.outcome with
  | .error error => (error.message, ⟨0⟩)
  | .ok output =>
    if output.timedOut then ("timeout", output.elapsed)
    else match output.status with
      | some 0 => ("ok", output.elapsed)
      | some code => (s!"exit {code}", output.elapsed)
      | none => ("killed", output.elapsed)

def resultGrid (results : List CommandResult) : Text.Grid where
  columns := [⟨"#", .left⟩, ⟨"command", .left⟩, ⟨"outcome", .left⟩, ⟨"time (s)", .right⟩]
  rows := results.mapIdx fun i r =>
    [toString i, r.command, (ending r).1, seconds (ending r).2]

def resultJson (r : CommandResult) : Json :=
  match r.outcome with
  | .ok output => .object [("command", .text r.command), ("output", output.toJson),
      ("success", .bool r.isSuccess)]
  | .error error => .object [("command", .text r.command), ("error", .text error.message),
      ("success", .bool false)]

def renderResults (json : Bool) (results : List CommandResult) : String :=
  if json then lines (results.map fun r => (resultJson r).render)
  else (resultGrid results).render ++ "\n"

/-! ### Patterns -/

def patternGrid (found : List Discovered) : Text.Grid where
  columns := [⟨"#", .left⟩, ⟨"pattern", .left⟩]
  rows := found.mapIdx fun i d => [toString i, d.pattern.render]

def renderPatterns (json : Bool) (found : List Discovered) : String :=
  if json then lines (found.map fun d => d.toJson.render)
  else (patternGrid found).render ++ "\n"

def renderPattern (json : Bool) (d : Discovered) : String :=
  if json then lines [d.toJson.render]
  else lines [s!"query:   {d.query.text}", s!"pattern: {d.pattern.render}"]

end TimedPatterns.CommandLine
