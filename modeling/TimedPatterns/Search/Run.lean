import TimedPatterns.Search.Exploration
import TimedPatterns.Verdict

/-!
# Running searches

How a question is put to the verifier. The model is instrumented into a file of its own, unless
there is nothing to add; the query is written to a file; and the verifier is run on both, with a
path for the witness. If the formula is satisfied, the trace of the witness is the pattern.

The files live as long as the question does, or are held next to the model. The combined output
of a run is then held as well.
-/

namespace TimedPatterns.Search

/-- A run of the verifier: its command, the model it is run on, where it writes the witness, and
the files it was prepared with. -/
structure Run where
  command : Command
  model : String
  witness : String
  artifacts : Artifacts
  deriving DecidableEq, Repr

/-- The command of a run with the given files. -/
def runOf (s : Search) (kind : Diagnostic) (model : String) (a : Artifacts) : Run :=
  let format := s.settings.format
  let start := a.start s!"t{kind.value}"
  ⟨s.settings.command
    (["-t", kind.value, format.flag, start] ++ s.arguments ++ [model, a.file "q"]),
    model, format.witnessPath start, a⟩

/-- The directory in which files are held. -/
def directory (s : Search) : String := Path.directory s.model

/-! ### Preparing -/

/-- Use the model with the templates of an instrumentation added to it. -/
def withModel {α : Type} (s : Search) (plan : Instrumentation)
    (use : String → Session (Except SearchError α)) : Session (Except SearchError α) := do
  if plan.isEmpty then use s.model
  else match ← Session.readText s.model with
    | .error error => return .error (.system error)
    | .ok text =>
      match Model.instrument text plan with
      | .refused why => return .error (.instrument s.model why)
      | .crossed => return .error (.crossed s.model)
      | .text chars =>
        Artifacts.within s.hold s.directory "model" .system fun a => do
          let path := a.file ((Path.extension? s.model).getD "xml")
          match ← Session.writeText path (String.ofList chars) with
          | .error error => return .error (.system error)
          | .ok () => use path

def withRun {α : Type} (s : Search) (query : Query) (model : String) (kind : Diagnostic)
    (use : Run → Session (Except SearchError α)) : Session (Except SearchError α) :=
  Artifacts.within s.hold s.directory "query" .system fun a => do
    match ← Session.writeText (a.file "q") query.text with
    | .error error => return .error (.system error)
    | .ok () => use (s.runOf kind model a)

def withRuns {α : Type} (s : Search) (query : Query) (model : String) :
    List Diagnostic → (List Run → Session (Except SearchError α)) →
    Session (Except SearchError α)
  | [], use => use []
  | kind :: kinds, use =>
    s.withRun query model kind fun run => s.withRuns query model kinds fun runs =>
      use (run :: runs)

/-! ### Contributions -/

def extract (s : Search) (focus : Option (List String)) (run : Run) : Session Contribution := do
  match ← Extraction.trace ⟨s.settings, s.clock, s.hold⟩ run.model run.witness with
  | .error error => return .failed (.trace error)
  | .ok trace => return .pattern (trace.focus focus).toTimedWord

/-- Hold the combined output of a run, as far as this is possible. -/
def keepLog (run : Run) (r : CommandResult) : Session Unit := do
  match r.outcome with
  | .ok output =>
    if run.artifacts.held then
      let _ ← Session.writeText (run.artifacts.file "log") output.combined
  | .error _ => return ()

def contribution (s : Search) (focus : Option (List String)) (run : Run) (r : CommandResult) :
    Session Contribution := do
  keepLog run r
  match Verdict.ofResult r with
  | .satisfied => s.extract focus run
  | .notSatisfied => return .unsatisfied
  | .failure complaint => return .failed (.tool (Verdict.failureError r complaint))

/-! ### Searching -/

/-- Ask once. -/
def ask (s : Search) (i : Inquiry) : Session (Except SearchError Contribution) :=
  s.withModel i.plan fun model => s.withRun i.query model s.firstDiagnostic fun run => do
    let result ← Session.result s.settings.timeout run.command
    return .ok (← s.contribution i.focus run result)

/-- Ask once for each kind of witness, all of the runs together. -/
def askAll (s : Search) (i : Inquiry) : Session (Except SearchError (List Contribution)) :=
  s.withModel i.plan fun model => s.withRuns i.query model s.roundDiagnostics fun runs => do
    let results ← Session.runBatch s.mode s.poolSize s.settings.timeout (runs.map (·.command))
    return .ok (← (runs.zip results).mapM fun (run, result) => s.contribution i.focus run result)

def findOne (s : Search) (i : Inquiry) : Session (Except SearchError Discovered) := do
  match ← s.ask i with
  | .error error => return .error error
  | .ok (.pattern word) => return .ok ⟨i.query, word⟩
  | .ok .unsatisfied => return .error (.noPattern i.query.text)
  | .ok (.failed error) => return .error error

/-- Enumerate patterns, at most as many as asked for, in at most the given number of rounds. -/
def findAll (s : Search) (i : Inquiry) (limit : Option Nat) (rounds : Nat) :
    Session (Option Answer) :=
  explore ⟨limit, s.maxStale⟩ i s.askAll rounds

end TimedPatterns.Search
