import TimedPatterns.Artifacts
import TimedPatterns.Tool.Settings
import TimedPatterns.Witness.Document
import TimedPatterns.Witness.Listing

/-!
# Extracting traces

Reading the witness that the verifier has written to a file, and making a trace of it. A document
is read as it is. A compact witness is rendered readable first: the model is compiled, and the
companion of the verifier is run on the compiled model and the witness.
-/

namespace TimedPatterns

/-- Why there is no trace of a witness. -/
inductive TraceError where
  | malformed (path : String) (flaw : Flaw)
  | tool (error : ToolError)
  | system (error : SystemError)
  deriving DecidableEq, Repr

def TraceError.message : TraceError → String
  | .malformed path flaw => s!"malformed trace {path}: {flaw.message}"
  | .tool error => error.message
  | .system error => s!"some I/O went wrong: {error.message}"

/-- Read the text of a witness: the document itself, or the rendering of a compact one. -/
def Witness.read (format : WitnessFormat) (text : String) : Except Flaw Witness :=
  match format with
  | .xml => Document.read text
  | .xtr => Listing.read text

namespace Extraction

/-- How traces are made: with which programs, against which clock, and whether the files on the
way are held next to the witness. -/
structure Options where
  settings : Settings
  clock : String := defaultClock
  hold : Bool := false
  deriving DecidableEq, Repr

def traceOfText (format : WitnessFormat) (clock path text : String) :
    Except TraceError Trace :=
  ((Witness.read format text).bind (·.trace clock)).mapError (.malformed path)

/-- Keep a text in a file of the family. -/
def keep (a : Artifacts) (extension text : String) : Session (Except TraceError String) := do
  let path := a.file extension
  match ← Session.writeText path text with
  | .error error => return .error (.system error)
  | .ok () => return .ok path

/-- Render a compact witness readable with the files of a family. -/
def renderIn (o : Options) (model witness : String) (a : Artifacts) :
    Session (Except TraceError String) := do
  match ← Session.runChecked (o.settings.compileCommand model) o.settings.timeout with
  | .error error => return .error (.tool error)
  | .ok compiled =>
    match ← keep a "if" compiled.stdout with
    | .error error => return .error error
    | .ok path =>
      match ← Session.runChecked (o.settings.renderCommand path witness) o.settings.timeout with
      | .error error => return .error (.tool error)
      | .ok rendered =>
        match ← keep a "txt" rendered.stdout with
        | .error error => return .error error
        | .ok _ => return .ok rendered.stdout

/-- Render a compact witness readable. -/
def render (o : Options) (model witness : String) : Session (Except TraceError String) :=
  Artifacts.within o.hold (Path.directory witness) ((Path.stem? witness).getD "trace")
    .system (renderIn o model witness)

def text (o : Options) (model witness : String) :
    WitnessFormat → Session (Except TraceError String)
  | .xml => do return (← Session.readText witness).mapError .system
  | .xtr => render o model witness

/-- Make a trace of the witness at a path, which was written in checking a model. -/
def trace (o : Options) (model witness : String) : Session (Except TraceError Trace) := do
  match WitnessFormat.ofPath? witness with
  | none => return .error (.malformed witness .badExtension)
  | some format =>
    match ← text o model witness format with
    | .error error => return .error error
    | .ok text => return traceOfText format o.clock witness text

end Extraction

end TimedPatterns
