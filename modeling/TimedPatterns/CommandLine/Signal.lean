import TimedPatterns.Text.Blank
import TimedPatterns.Text.Numeral
import TimedPatterns.Text.Quoted
import TimedPatterns.TimedWord

/-!
# Signals on the command line

An action of a signal is given as `label[:lower[:upper]]`. A bound that is missing or empty bounds
nothing, and the blanks around the label do not count.
-/

namespace TimedPatterns.CommandLine

/-- Why an argument is not an action of a signal. -/
inductive ActionError where
  | missingLabel (argument : String)
  | badBound (bound : String) (error : Text.NumeralError)
  | surplusField (argument : String)
  deriving DecidableEq, Repr

def ActionError.message : ActionError → String
  | .missingLabel argument => s!"missing action label in {Text.quoted argument}"
  | .badBound bound error => s!"could not parse bound {Text.quoted bound}: {error.message}"
  | .surplusField argument =>
    s!"expected label[:lb[:ub]], got {Text.quoted argument}"

def readBound (bound : List Char) : Except ActionError Int :=
  if bound = [] then .ok unbounded
  else (Text.readSigned bound).mapError (.badBound (String.ofList bound))

/-- Read the fields behind the label: two bounds at most. -/
def readBounds (argument : String) : List (List Char) → Except ActionError (Int × Int)
  | [] => .ok (unbounded, unbounded)
  | [lower] => do return (← readBound lower, unbounded)
  | [lower, upper] => do return (← readBound lower, ← readBound upper)
  | lower :: upper :: _ => do
    let _ ← readBound lower
    let _ ← readBound upper
    .error (.surplusField argument)

def readAction (argument : String) : Except ActionError TimedAction :=
  match Text.pieces (· == ':') argument.toList with
  | [] => .error (.missingLabel argument)
  | label :: bounds =>
    let label := Text.trimChars label
    if label = [] then .error (.missingLabel argument)
    else do
      let (lower, upper) ← readBounds argument bounds
      return ⟨String.ofList label, lower, upper⟩

end TimedPatterns.CommandLine
