import TimedPatterns.Tool.Dispatch
import TimedPatterns.Tool.Settings

/-!
# Verifying models

Checking models against the queries they hold, and saving one shortest witness for each. The
extension of the path that a witness is saved under selects its format. The verifier is given the
path without its extension, and puts an ending of its own behind it; the witness is moved to where
it was asked for if the run was a success.
-/

namespace TimedPatterns.Verify

/-- A run for one model: its command, where the verifier writes the witness, and where it is
asked for. -/
structure Job where
  command : Command
  witness : String
  target : String
  deriving DecidableEq, Repr

def job (s : Settings) (model target : String) : Except ToolError Job :=
  match WitnessFormat.ofPath? target with
  | none => .error (.badCommand s!"trace {target} should end in .xtr or .xml")
  | some format =>
    let start := Path.withoutExtension target
    .ok ⟨s.command ["-t", Diagnostic.shortest.value, format.flag, start, model],
      format.witnessPath start, target⟩

def jobs (s : Settings) (models targets : List String) : Except ToolError (List Job) :=
  if models.length ≠ targets.length then .error (.mismatched models.length targets.length)
  else (models.zip targets).mapM fun (model, target) => job s model target

/-- Move the witness of a run that was a success, if there is one. A run whose witness cannot be
moved has an error for its outcome. -/
def settle (j : Job) (r : CommandResult) : Session CommandResult := fun w =>
  if r.isSuccess && w.files.contains j.witness then
    match w.files.rename j.witness j.target with
    | .ok files => (r, { w with files })
    | .error error => ({ r with outcome := .error (.system error) }, w)
  else (r, w)

/-- Check the models, and save a witness for each. Nothing is run if a path or the number of
paths is wrong. -/
def run (s : Settings) (models targets : List String) (mode : Mode) (size : Option Nat) :
    Session (Except ToolError (List CommandResult)) :=
  match jobs s models targets with
  | .error error => return .error error
  | .ok jobs => do
    let results ← Session.runBatch mode size s.timeout (jobs.map (·.command))
    return .ok (← (jobs.zip results).mapM fun (j, r) => settle j r)

end TimedPatterns.Verify
