import TimedPatterns.CommandLine.Grammar
import TimedPatterns.CommandLine.Signal
import TimedPatterns.Text.Duration
import TimedPatterns.Tool.Command
import TimedPatterns.Tool.Dispatch

/-!
# Invocations

The commands that there are, the arguments each of them takes, and what is said for all of them:
where the verifier and its companion are, how long a run may take, and whether results are printed
as JSON. What is said for all commands may stand before the name of the command or behind it; if
it stands in both places, the latter counts.
-/

namespace TimedPatterns.CommandLine

/-! ### Values -/

def text {α : Type} (set : String → α → α) (value : String) : Except UsageError (α → α) :=
  .ok (set value)

/-- A path, which is not empty. -/
def path {α : Type} (set : String → α → α) (value : String) : Except UsageError (α → α) :=
  if value = "" then .error .invalidValue else .ok (set value)

def count {α : Type} (set : Nat → α → α) (value : String) : Except UsageError (α → α) :=
  ((Text.readUnsigned value.toList).mapError fun e => .badValue e.message).map set

def choice {α β : Type} (choices : List (String × β)) (set : β → α → α) (value : String) :
    Except UsageError (α → α) :=
  match choices.lookup value with
  | none => .error .invalidValue
  | some choice => .ok (set choice)

def duration {α : Type} (set : Duration → α → α) (value : String) :
    Except UsageError (α → α) :=
  ((Duration.read value).mapError fun e => .badValue e.message).map set

def action {α : Type} (set : TimedAction → α → α) (value : String) :
    Except UsageError (α → α) :=
  ((readAction value).mapError fun e => .badValue e.message).map set

/-! ### What is said for all commands -/

/-- What is said for all commands, as far as it is said. -/
structure Globals where
  verifier : Option String := none
  tracer : Option String := none
  timeout : Option Duration := none
  json : Bool := false
  deriving DecidableEq, Repr

namespace Globals

/-- What is said in two places, the first of which counts. -/
def orElse (inner outer : Globals) : Globals where
  verifier := inner.verifier <|> outer.verifier
  tracer := inner.tracer <|> outer.tracer
  timeout := inner.timeout <|> outer.timeout
  json := inner.json || outer.json

def grammar : Grammar Globals where
  options := [
    { name := "verifyta", read := path fun v g => { g with verifier := some v } },
    { name := "tracer", read := path fun v g => { g with tracer := some v } },
    { name := "timeout", read := duration fun v g => { g with timeout := some v } }]
  flags := [⟨"json", fun g => { g with json := true }⟩]

end Globals

/-! ### Dispatching -/

/-- How runs that do not depend on each other are dispatched. -/
structure Dispatch where
  mode : Mode := .sequential
  poolSize : Option Nat := none
  deriving DecidableEq, Repr

def modeChoices : List (String × Mode) :=
  [("sequential", .sequential), ("process", .processPool), ("thread", .threadPool)]

def Dispatch.grammar : Grammar Dispatch where
  options := [
    { name := "parallel", read := choice modeChoices fun v d => { d with mode := v } },
    { name := "pool-size", read := count fun v d => { d with poolSize := some v } }]

/-! ### Commands without a search -/

/-- What is verified: models, and a path for the witness of each. -/
structure Verification where
  models : List String := []
  traces : List String := []
  dispatch : Dispatch := {}
  deriving DecidableEq, Repr

def Verification.grammar : Grammar Verification :=
  { options := [
      { name := "model", required := true, repeatable := true,
        read := path fun v a => { a with models := a.models ++ [v] } },
      { name := "trace", required := true, repeatable := true,
        read := path fun v a => { a with traces := a.traces ++ [v] } }] }
  ++ Dispatch.grammar.lift fun change a => { a with dispatch := change a.dispatch }

/-- What witness is shown, and how. -/
structure Showing where
  model : String := ""
  trace : String := ""
  hold : Bool := false
  clock : String := defaultClock
  focus : List String := []
  deriving DecidableEq, Repr

def Showing.grammar : Grammar Showing where
  options := [
    { name := "clock", read := text fun v a => { a with clock := v } },
    { name := "focus", repeatable := true,
      read := text fun v a => { a with focus := a.focus ++ [v] } }]
  flags := [⟨"hold", fun a => { a with hold := true }⟩]
  positions := [
    { name := "model", required := true, read := path fun v a => { a with model := v } },
    { name := "trace", required := true, read := path fun v a => { a with trace := v } }]

/-- The argument of a single run. -/
def lineGrammar : Grammar String where
  positions := [{ name := "args", required := true, hyphens := true, read := text fun v _ => v }]

/-- Runs of the verifier, one for each line of arguments. -/
structure Batch where
  lines : List String := []
  dispatch : Dispatch := {}
  deriving DecidableEq, Repr

def Batch.grammar : Grammar Batch :=
  { positions := [
      { name := "commands", required := true, repeatable := true, hyphens := true,
        read := text fun v a => { a with lines := a.lines ++ [v] } }] }
  ++ Dispatch.grammar.lift fun change a => { a with dispatch := change a.dispatch }

/-! ### Searches -/

/-- Which model is searched, and how. The arguments of the verifier are given on one line. -/
structure SearchArguments where
  model : String := ""
  hold : Bool := false
  options : Option String := none
  diagnostics : List Diagnostic := []
  format : WitnessFormat := .xml
  dispatch : Dispatch := {}
  maxStale : Nat := 3
  clock : String := defaultClock
  focus : List String := []
  deriving DecidableEq, Repr

def diagnosticChoices : List (String × Diagnostic) :=
  [("some", .any), ("shortest", .shortest), ("fastest", .fastest)]

def formatChoices : List (String × WitnessFormat) := [("xml", .xml), ("xtr", .xtr)]

def SearchArguments.grammar : Grammar SearchArguments :=
  { options := [
      { name := "options", hyphens := true,
        read := text fun v a => { a with options := some v } },
      { name := "diagnostic", repeatable := true, read := choice diagnosticChoices fun v a =>
        { a with diagnostics := a.diagnostics ++ [v] } },
      { name := "witness-format",
        read := choice formatChoices fun v a => { a with format := v } },
      { name := "max-stale", read := count fun v a => { a with maxStale := v } },
      { name := "clock", read := text fun v a => { a with clock := v } },
      { name := "focus", repeatable := true,
        read := text fun v a => { a with focus := a.focus ++ [v] } }]
    flags := [⟨"hold", fun a => { a with hold := true }⟩]
    positions := [{ name := "model", required := true,
                    read := path fun v a => { a with model := v } }] }
  ++ Dispatch.grammar.lift fun change a => { a with dispatch := change a.dispatch }

/-- The signals that a pattern has to agree with. -/
structure Signals where
  input : List TimedAction := []
  observed : List TimedAction := []
  observable : List String := []
  deriving DecidableEq, Repr

def Signals.grammar : Grammar Signals where
  options := [
    { name := "input", repeatable := true,
      read := action fun v a => { a with input := a.input ++ [v] } },
    { name := "observe", repeatable := true,
      read := action fun v a => { a with observed := a.observed ++ [v] } },
    { name := "observable", repeatable := true, read := text fun v a =>
      { a with observable := a.observable ++ [v] } }]

/-- A search for patterns that agree with signals. -/
structure SignalSearch where
  search : SearchArguments := {}
  signals : Signals := {}
  limit : Option Nat := none
  deriving DecidableEq, Repr

def SignalSearch.grammar : Grammar SignalSearch :=
  (SearchArguments.grammar.lift fun change a => { a with search := change a.search })
  ++ Signals.grammar.lift fun change a => { a with signals := change a.signals }

/-- A search for patterns of a query. -/
structure QuerySearch where
  search : SearchArguments := {}
  query : String := ""
  limit : Option Nat := none
  deriving DecidableEq, Repr

def QuerySearch.grammar : Grammar QuerySearch :=
  (SearchArguments.grammar.lift fun change a => { a with search := change a.search })
  ++ { options := [{ name := "query", required := true,
                     read := text fun v a => { a with query := v } }] }

/-- The argument that limits the number of patterns. -/
def limitGrammar {α : Type} (set : Nat → α → α) : Grammar α where
  options := [{ name := "max-patterns", read := count set }]

/-! ### Invocations -/

/-- A command with its arguments. -/
inductive Task where
  | verify (a : Verification)
  | trace (a : Showing)
  | run (line : String)
  | runMany (a : Batch)
  | find (a : SignalSearch)
  | findAll (a : SignalSearch)
  | findQuery (a : QuerySearch)
  | findAllQuery (a : QuerySearch)
  deriving DecidableEq, Repr

def Task.paths : Task → List String
  | .verify a => a.models ++ a.traces
  | .trace a => [a.model, a.trace]
  | .run _ | .runMany _ => []
  | .find a | .findAll a => [a.search.model]
  | .findQuery a | .findAllQuery a => [a.search.model]

/-- What is said on a command line. -/
structure Invocation where
  globals : Globals
  task : Task
  deriving DecidableEq, Repr

/-- Read the arguments of a command, among which may be those for all commands. -/
def readTask {α : Type} (g : Grammar α) (record : α) (task : α → Task)
    (arguments : List String) : Except UsageError Invocation := do
  let both : Grammar (Globals × α) :=
    (g.lift fun change (globals, a) => (globals, change a))
    ++ Globals.grammar.lift fun change (globals, a) => (change globals, a)
  let (globals, a) ← both.read ({}, record) arguments
  return ⟨globals, task a⟩

/-- The commands, and how the arguments of each are read. -/
def commands : List (String × (List String → Except UsageError Invocation)) := [
  ("verify", readTask Verification.grammar {} .verify),
  ("trace", readTask Showing.grammar {} .trace),
  ("run", readTask lineGrammar "" .run),
  ("run-many", readTask Batch.grammar {} .runMany),
  ("find", readTask SignalSearch.grammar {} .find),
  ("find-all", readTask (SignalSearch.grammar
    ++ limitGrammar fun v a => { a with limit := some v }) {} .findAll),
  ("find-query", readTask QuerySearch.grammar {} .findQuery),
  ("find-all-query", readTask (QuerySearch.grammar
    ++ limitGrammar fun v a => { a with limit := some v }) {} .findAllQuery)]

/-- Read a command line. What is pending before the name of a command is read after the arguments
of the command. -/
def Invocation.read (arguments : List String) : Except UsageError Invocation := do
  let g : Grammar Globals := { Globals.grammar with commands := commands.map (·.1) }
  let (r, command?) ← g.readFrom arguments (g.start {})
  match command? with
  | none =>
    let r ← r.settle
    .error (if r.given.isEmpty then .nothingGiven else .missingCommand)
  | some (name, rest) =>
    match commands.lookup name with
    | none => .error .unknownCommand
    | some readArguments =>
      let inner ← readArguments rest
      let r ← r.settle
      return { inner with globals := inner.globals.orElse r.record }

end TimedPatterns.CommandLine
