import TimedPatterns.Proofs.Path.Place
import TimedPatterns.Proofs.Verify.Outcome
import TimedPatterns.Search.Run

/-!
# Where witnesses are written

The verifier puts an ending of its own behind the beginning of a path that it is given. Whatever the
beginning is, the path of the witness then tells the format that was asked for: a search reads its
witnesses in the format of its settings, and need not look at their paths.

A witness that is saved is asked for under a path of its own. The verifier is given this path
without its extension, so it writes the witness in the same directory, under a longer name with the
same extension.
-/

namespace TimedPatterns

/-! ### Formats -/

lemma WitnessFormat.ofPath?_witnessPath (format : WitnessFormat) (start : String) :
    ofPath? (format.witnessPath start) = some format := by
  obtain ⟨lead, last, htext, hlead, hlast⟩ := Path.exists_leadText start.toList
  rw [Verify.ofPath?_eq_some_iff, Path.extension?_eq_some_iff]
  exact ⟨lead, _, [], format.extended_witnessPath htext hlead hlast⟩

/-! ### Searches -/

/-- Make a trace of a witness in the given format. -/
def Extraction.traceIn (format : WitnessFormat) (o : Options) (model witness : String) :
    Session (Except TraceError Trace) := do
  match ← text o model witness format with
  | .error error => return .error error
  | .ok text => return traceOfText format o.clock witness text

lemma Extraction.trace_eq {o : Options} {model witness : String} {format : WitnessFormat}
    (h : WitnessFormat.ofPath? witness = some format) :
    trace o model witness = traceIn format o model witness := by
  rw [trace, h]
  rfl

lemma Session.mapM_congr {α β : Type} {f g : α → Session β} {xs : List α}
    (h : ∀ x ∈ xs, f x = g x) : xs.mapM f = xs.mapM g := by
  induction xs with
  | nil => rfl
  | cons x xs ih =>
    obtain ⟨hx, hxs⟩ := List.forall_mem_cons.1 h
    rw [List.mapM_cons, List.mapM_cons, hx, ih hxs]

namespace Search

variable {s : Search} {i : Inquiry} {format : WitnessFormat}

def extractIn (format : WitnessFormat) (s : Search) (focus : Option (List String)) (run : Run) :
    Session Contribution := do
  match ← Extraction.traceIn format ⟨s.settings, s.clock, s.hold⟩ run.model run.witness with
  | .error error => return .failed (.trace error)
  | .ok trace => return .pattern (trace.focus focus).toTimedWord

def contributionIn (format : WitnessFormat) (s : Search) (focus : Option (List String)) (run : Run)
    (r : CommandResult) : Session Contribution := do
  keepLog run r
  match Verdict.ofResult r with
  | .satisfied => s.extractIn format focus run
  | .notSatisfied => return .unsatisfied
  | .failure complaint => return .failed (.tool (Verdict.failureError r complaint))

def askIn (format : WitnessFormat) (s : Search) (i : Inquiry) :
    Session (Except SearchError Contribution) :=
  s.withModel i.plan fun model => s.withRun i.query model s.firstDiagnostic fun run => do
    let result ← Session.result s.settings.timeout run.command
    return .ok (← s.contributionIn format i.focus run result)

def askAllIn (format : WitnessFormat) (s : Search) (i : Inquiry) :
    Session (Except SearchError (List Contribution)) :=
  s.withModel i.plan fun model => s.withRuns i.query model s.roundDiagnostics fun runs => do
    let results ← Session.runBatch s.mode s.poolSize s.settings.timeout (runs.map (·.command))
    return .ok (← (runs.zip results).mapM fun (run, result) =>
      s.contributionIn format i.focus run result)

/-- The path of the witness of a run tells the format of the settings. -/
def Run.IsTold (s : Search) (run : Run) : Prop :=
  WitnessFormat.ofPath? run.witness = some s.settings.format

lemma isTold_runOf (s : Search) (kind : Diagnostic) (model : String) (a : Artifacts) :
    (s.runOf kind model a).IsTold s :=
  s.settings.format.ofPath?_witnessPath _

lemma contribution_eq_contributionIn {run : Run} (h : run.IsTold s)
    (focus : Option (List String)) (r : CommandResult) :
    s.contribution focus run r = s.contributionIn s.settings.format focus run r := by
  have hextract : s.extract focus run = s.extractIn s.settings.format focus run := by
    rw [extract, Extraction.trace_eq h]
    rfl
  rw [contribution, hextract]
  rfl

lemma withRun_congr {α : Type} {use use' : Run → Session (Except SearchError α)}
    (h : ∀ run, run.IsTold s → use run = use' run) (query : Query) (model : String)
    (kind : Diagnostic) :
    s.withRun query model kind use = s.withRun query model kind use' := by
  simp only [withRun, h _ (s.isTold_runOf kind model _)]

lemma withRuns_congr {α : Type} {use use' : List Run → Session (Except SearchError α)}
    (h : ∀ runs, (∀ run ∈ runs, run.IsTold s) → use runs = use' runs) (query : Query)
    (model : String) (kinds : List Diagnostic) :
    s.withRuns query model kinds use = s.withRuns query model kinds use' := by
  induction kinds generalizing use use' with
  | nil => exact h [] (List.forall_mem_nil _)
  | cons kind kinds ih =>
    apply withRun_congr
    intro run hrun
    apply ih
    intro runs hruns
    exact h (run :: runs) (List.forall_mem_cons.2 ⟨hrun, hruns⟩)

lemma ask_eq_askIn (s : Search) : s.ask = s.askIn s.settings.format := by
  funext i
  refine congrArg (s.withModel i.plan) (funext fun model => ?_)
  refine withRun_congr (fun run hrun => ?_) ..
  simp only [contribution_eq_contributionIn hrun]

lemma askAll_eq_askAllIn (s : Search) : s.askAll = s.askAllIn s.settings.format := by
  funext i
  refine congrArg (s.withModel i.plan) (funext fun model => ?_)
  refine withRuns_congr (fun runs hruns => ?_) ..
  have hall (results : List CommandResult) :
      ((runs.zip results).mapM fun x => s.contribution i.focus x.1 x.2) =
        (runs.zip results).mapM fun x => s.contributionIn s.settings.format i.focus x.1 x.2 := by
    apply Session.mapM_congr
    intro x hx
    exact contribution_eq_contributionIn (hruns _ (List.of_mem_zip hx).1) _ _
  simp only [hall]

end Search

/-! ### Files -/

/-- The witness of a path that tells a format is written beside it. -/
lemma WitnessFormat.beside_of_ofPath? {format : WitnessFormat} {target : String}
    (h : ofPath? target = some format) :
    Path.Beside (format.witnessPath (Path.withoutExtension target)) target := by
  rw [Verify.ofPath?_eq_some_iff, Path.extension?_eq_some_iff] at h
  obtain ⟨lead, stem, trail, h⟩ := h
  obtain ⟨hlead, hslash⟩ := h.not_mem
  have hstem : '/' ∉ stem := fun hmem => hslash (List.mem_append_left _ hmem)
  obtain ⟨last, htext, hlast⟩ := h.exists_withoutExtension
  -- the name of the witness is longer, also where the stem is a point and two points are left
  rcases hlast with rfl | ⟨rfl, rfl⟩
  · refine (format.extended_witnessPath htext hlead hstem).beside h fun heq => ?_
    have hlength := congrArg List.length heq
    simp at hlength
  · exact (format.extended_witnessPath htext hlead (by decide)).beside h (by decide)

/-- The path of a witness tells its format, whatever its beginning is, so a search reads its
witnesses in the format of its settings. A witness that is saved is written beside the path under
which it is asked for, and is never moved onto itself. -/
theorem WitnessFormat.witnessPath_exact (format : WitnessFormat) :
    (∀ start, ofPath? (format.witnessPath start) = some format) ∧
    (∀ s : Search, s.settings.format = format →
      (∀ kind model a, ofPath? (s.runOf kind model a).witness = some format) ∧
      s.ask = s.askIn format ∧ s.askAll = s.askAllIn format) ∧
    (∀ target, ofPath? target = some format →
      Path.Beside (format.witnessPath (Path.withoutExtension target)) target ∧
      ∀ s model, ∃ command, Verify.job s model target =
        .ok ⟨command, format.witnessPath (Path.withoutExtension target), target⟩) := by
  refine ⟨format.ofPath?_witnessPath, ?_, fun target h => ⟨beside_of_ofPath? h, fun s model => ?_⟩⟩
  · rintro s rfl
    exact ⟨s.isTold_runOf, s.ask_eq_askIn, s.askAll_eq_askAllIn⟩
  · exact ⟨_, Verify.job_eq_ok_iff.2 ⟨format, Verify.ofPath?_eq_some_iff.1 h, rfl⟩⟩

/-- How a model is searched with compact witnesses. -/
def Search.compact : Search where
  settings := ⟨"verifyta", "tracer", none, .xtr⟩
  model := "m.xml"

/-- A search with compact witnesses, a path whose name is a point and an extension, and one with
parts behind its name. -/
theorem WitnessFormat.witnessPath_exact_sample :
    Search.compact.ask = Search.compact.askIn .xtr ∧
    Path.Beside "..-1.xml" "..xml" ∧ Path.Beside "d/./t-1.xml" "d/./t.xml//." := by
  have hpoint : Path.withoutExtension "..xml" = ".." := by decide +kernel
  have hbehind : Path.withoutExtension "d/./t.xml//." = "d/./t" := by decide +kernel
  obtain ⟨-, hsearch, -⟩ := WitnessFormat.witnessPath_exact .xtr
  obtain ⟨-, -, hsaved⟩ := WitnessFormat.witnessPath_exact .xml
  refine ⟨(hsearch Search.compact rfl).2.1, ?_, ?_⟩
  · have hbeside := (hsaved "..xml" (by decide +kernel)).1
    rwa [hpoint] at hbeside
  · have hbeside := (hsaved "d/./t.xml//." (by decide +kernel)).1
    rwa [hbehind] at hbeside

end TimedPatterns
