import TimedPatterns.Instrumentation
import TimedPatterns.Model
import TimedPatterns.Tool.Dispatch
import TimedPatterns.Tool.Settings
import TimedPatterns.Witness.Extraction

/-!
# Searches

A search asks which timed words a model can show. What it asks about is an inquiry: what is added
to the model, the query, and the actions that are in focus. An inquiry is made for signals that a
pattern has to agree with, or for a query as its author wrote it.

A pattern that was found is kept together with the query whose witness showed it. A search fails
if there is no pattern, if patterns cannot be ruled out of the query, or if a step on the way to
a pattern fails.
-/

namespace TimedPatterns

/-! ### Inquiries -/

/-- The signals that a pattern has to agree with, the actions that can be observed and those that
are reported; without a list, all of them. -/
structure Request where
  input : TimedWord
  observed : TimedWord
  observable : Option (List String) := none
  focus : Option (List String) := none
  deriving DecidableEq, Repr

/-- What is asked: what is added to the model, the query, and the actions in focus. -/
structure Inquiry where
  plan : Instrumentation
  query : Query
  focus : Option (List String)
  deriving DecidableEq, Repr

namespace Inquiry

/-- Ask for a run that agrees with signals. -/
def ofRequest (clock : String) (r : Request) : Inquiry :=
  let plan := Instrumentation.withSignals { clock } r.input r.observed r.observable
  ⟨plan, plan.goal, r.focus⟩

/-- Ask a query about a model as it is. -/
def ofQuery (clock : String) (q : Query) (focus : Option (List String)) : Inquiry :=
  ⟨{ clock }, q, focus⟩

end Inquiry

def Request.query (r : Request) (clock : String) : Query := (Inquiry.ofRequest clock r).query

/-! ### Patterns -/

/-- A pattern, and the query whose witness showed it. -/
structure Discovered where
  query : Query
  pattern : TimedWord
  deriving DecidableEq, Repr

def Discovered.toJson (d : Discovered) : Json :=
  .object [("query", .text d.query.text), ("pattern", d.pattern.toJson)]

/-! ### Errors -/

/-- Why a search fails. `crossed` is no error that is reported: it stands for a crash of the program
while it instruments the model, so that a search has an outcome for every model. -/
inductive SearchError where
  | noPattern (query : String)
  | unsupported (query : String)
  | instrument (model : String) (why : Model.Refusal)
  | crossed (model : String)
  | tool (error : ToolError)
  | trace (error : TraceError)
  | system (error : SystemError)
  deriving DecidableEq, Repr

/-- The wording of a search error. The one for a crash is no message of the program. -/
def SearchError.message : SearchError → String
  | .noPattern query => s!"no pattern satisfies {query}"
  | .unsupported query =>
    s!"cannot rule out patterns in {query}: only E<> queries can be restricted"
  | .instrument model why => s!"cannot instrument {model}: {why.message}"
  | .crossed model => s!"crash while instrumenting {model}"
  | .tool error => error.message
  | .trace error => error.message
  | .system error => s!"some I/O went wrong: {error.message}"

/-! ### Searches -/

/-- How a model is searched: with which programs, whether the files on the way are held next to
the model, with which additional arguments and which kinds of witnesses the verifier is asked,
how the runs of a round are dispatched, after how many rounds without a new pattern an exhaustive
search stops, and against which clock patterns are read. -/
structure Search where
  settings : Settings
  model : String
  hold : Bool := false
  arguments : List String := []
  diagnostics : Option (List Diagnostic) := none
  mode : Mode := .sequential
  poolSize : Option Nat := none
  maxStale : Nat := 3
  clock : String := defaultClock
  deriving DecidableEq, Repr

namespace Search

/-- The kind of witness that a search for one pattern asks for. -/
def firstDiagnostic (s : Search) : Diagnostic :=
  ((s.diagnostics.getD []).head?).getD .shortest

/-- The kinds of witnesses that each round of an exhaustive search asks for. -/
def roundDiagnostics (s : Search) : List Diagnostic :=
  match s.diagnostics with
  | none | some [] => Diagnostic.all
  | some kinds => kinds

end Search

end TimedPatterns
