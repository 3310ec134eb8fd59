import TimedPatterns.Tool.Output

/-!
# Verdicts

The verifier says of a query that its formula is satisfied, that it is not, or that it may be; the
last is not enough for a witness. A run that did not succeed, or that says none of the three, has
failed.

The first of the three phrases counts, in the output if there is one and else in the error
output.
-/

namespace TimedPatterns

/-- The verdict on a query. -/
inductive Verdict where
  | satisfied
  | notSatisfied
  | failure (complaint : String)
  deriving DecidableEq, Repr

namespace Verdict

open Text

/-- The three things that are said of a formula, and whether they mean that it is satisfied. -/
def phrases : List (List Char × Bool) :=
  [("Formula is NOT satisfied".toList, false), ("Formula is satisfied".toList, true),
    ("Formula may be satisfied".toList, false)]

/-- What is said of the formula at this place. -/
def phraseAt? (cs : List Char) : Option Bool :=
  phrases.findSome? fun (phrase, holds) => (dropPrefix? phrase cs).map fun _ => holds

/-- What is said first of the formula. -/
def phrase? : List Char → Option Bool
  | [] => none
  | c :: cs => phraseAt? (c :: cs) <|> phrase? cs

/-- What an output says of the formula. -/
def said? (o : Output) : Option Bool := phrase? o.stdout.toList <|> phrase? o.stderr.toList

/-- The verdict of a run: a run whose time was up has failed, and so has one that did not exit with
status 0; any other is read. -/
def ofOutput (o : Output) : Verdict :=
  if o.timedOut then .failure s!"timed out after {o.elapsed.render}"
  else if o.status = some 0 then
    match said? o with
    | some true => .satisfied
    | some false => .notSatisfied
    | none => .failure s!"no verdict in output:\n{trim o.combined}"
  else match trim o.stderr with
    | "" => .failure (trim o.stdout)
    | complaint => .failure complaint

def ofResult (r : CommandResult) : Verdict :=
  match r.outcome with
  | .ok o => ofOutput o
  | .error e => .failure e.message

/-- The error of a command that failed with the given complaint. -/
def failureError (r : CommandResult) (complaint : String) : ToolError :=
  match r.outcome with
  | .ok o => .failure r.command o.status complaint
  | .error e => e

end Verdict

end TimedPatterns
