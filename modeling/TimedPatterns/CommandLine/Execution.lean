import TimedPatterns.CommandLine.Invocation
import TimedPatterns.CommandLine.Report
import TimedPatterns.Search.Run
import TimedPatterns.Verify

/-!
# Executing commands

A command is executed in a world, and leaves a report. First the verifier is asked for its help;
if it does not run, there is nothing else to do. An error of any kind ends a command with exit
status 1, and so does a run of the verifier that was no success, if the command was to run it.
-/

namespace TimedPatterns.CommandLine

/-! ### What is said, as the library takes it -/

def defaultVerifier : String := "verifyta"

def defaultTimeout : Duration := .ofMillis 600000

/-- A list, unless it is empty. -/
def list? {α : Type} (items : List α) : Option (List α) := if items.isEmpty then none else some items

def Globals.settings (g : Globals) (s : Settings) : Settings :=
  { s with timeout := g.timeout.getD defaultTimeout, tracer := g.tracer.getD s.tracer }

def Signals.request (s : Signals) (focus : List String) : Request where
  input := ⟨s.input⟩
  observed := ⟨s.observed⟩
  observable := list? s.observable
  focus := list? focus

def SearchArguments.search (a : SearchArguments) (s : Settings) :
    Except Command.SplitError Search := do
  let arguments ← match a.options with
    | none => pure []
    | some line => Command.splitWords line
  return { settings := { s with format := a.format }, model := a.model, hold := a.hold, arguments,
           diagnostics := list? a.diagnostics, mode := a.dispatch.mode,
           poolSize := a.dispatch.poolSize, maxStale := a.maxStale, clock := a.clock }

/-! ### Commands without a search -/

def reportResults (json : Bool) (results : List CommandResult) : Report :=
  .printed (results.all (·.isSuccess)) (renderResults json results)

def executeVerify (s : Settings) (json : Bool) (a : Verification) : Session Report := do
  match ← Verify.run s a.models a.traces a.dispatch.mode a.dispatch.poolSize with
  | .error error => return .failed error.message
  | .ok results => return reportResults json results

def executeTrace (s : Settings) (json : Bool) (a : Showing) : Session Report := do
  match ← Extraction.trace ⟨s, a.clock, a.hold⟩ a.model a.trace with
  | .error error => return .failed error.message
  | .ok trace =>
    let trace := trace.focus (list? a.focus)
    return .printed true (lines [if json then trace.toJson.render else trace.render])

def executeRun (s : Settings) (json : Bool) (line : String) : Session Report := do
  match ← s.runLine line with
  | .error error => return .failed error.message
  | .ok output =>
    if json then return .printed output.isSuccess (lines [output.toJson.render])
    else return { Report.printed output.isSuccess output.stdout with stderr := output.stderr }

def executeRunMany (s : Settings) (json : Bool) (a : Batch) : Session Report := do
  match a.lines.mapM Command.splitWords with
  | .error error => return .failed error.toToolError.message
  | .ok words =>
    let results ← Session.runBatch a.dispatch.mode a.dispatch.poolSize s.timeout
      (words.map s.command)
    return reportResults json results

/-! ### Searches -/

def executeFind (s : Settings) (json : Bool) (a : SearchArguments)
    (inquiry : Inquiry) : Session Report := do
  match a.search s with
  | .error error => return .failed error.toToolError.message
  | .ok search =>
    match ← search.findOne inquiry with
    | .error error => return .failed error.message
    | .ok found => return .printed true (renderPattern json found)

/-- Enumerate patterns in at most the given number of rounds. -/
def executeFindAll (s : Settings) (json : Bool) (rounds : Nat) (a : SearchArguments)
    (limit : Option Nat) (inquiry : Inquiry) : Session (Option Report) := do
  match a.search s with
  | .error error => return some (.failed error.toToolError.message)
  | .ok search =>
    match ← search.findAll inquiry limit rounds with
    | none => return none
    | some (.error error) => return some (.failed error.message)
    | some (.ok found) => return some (.printed true (renderPatterns json found))

def SignalSearch.inquiry (a : SignalSearch) : Inquiry :=
  .ofRequest a.search.clock (a.signals.request a.search.focus)

def QuerySearch.inquiry (a : QuerySearch) : Inquiry :=
  .ofQuery a.search.clock (.raw a.query) (list? a.search.focus)

/-! ### Invocations -/

/-- Execute a command. There is no report if an exhaustive search has not ended after the given
number of rounds. -/
def executeTask (rounds : Nat) (s : Settings) (json : Bool) : Task → Session (Option Report)
  | .verify a => some <$> executeVerify s json a
  | .trace a => some <$> executeTrace s json a
  | .run line => some <$> executeRun s json line
  | .runMany a => some <$> executeRunMany s json a
  | .find a => some <$> executeFind s json a.search a.inquiry
  | .findAll a => executeFindAll s json rounds a.search a.limit a.inquiry
  | .findQuery a => some <$> executeFind s json a.search a.inquiry
  | .findAllQuery a => executeFindAll s json rounds a.search a.limit a.inquiry

def Invocation.execute (rounds : Nat) (i : Invocation) : Session (Option Report) := do
  match ← Settings.ofVerifier (i.globals.verifier.getD defaultVerifier) with
  | .error error => return some (.failed error.message)
  | .ok s => executeTask rounds (i.globals.settings s) i.globals.json i.task

end TimedPatterns.CommandLine
