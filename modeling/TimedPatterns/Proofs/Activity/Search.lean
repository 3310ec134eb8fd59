import TimedPatterns.Proofs.Activity.Basic

/-!
# Searches and extractions as activities

The steps of a search and of the extraction of a trace. What they do as a whole is what the search
and the extraction do, and they write nothing but the files of the families that they begin.
-/

namespace TimedPatterns.Activity

variable {α : Type}

/-! ### Extractions -/

def keep (a : Artifacts) (extension text : String) : Activity (Except TraceError String) := do
  let path := a.file extension
  match ← write path text with
  | .error error => return .error (.system error)
  | .ok () => return .ok path

def runChecked (command : Command) (limit : Option Duration) :
    Activity (Except ToolError Output) := do
  match ← run command limit with
  | .error error => return .error error
  | .ok output => return output.check command.line

def renderIn (o : Extraction.Options) (model witness : String) (a : Artifacts) :
    Activity (Except TraceError String) := do
  match ← runChecked (o.settings.compileCommand model) o.settings.timeout with
  | .error error => return .error (.tool error)
  | .ok compiled =>
    match ← keep a "if" compiled.stdout with
    | .error error => return .error error
    | .ok path =>
      match ← runChecked (o.settings.renderCommand path witness) o.settings.timeout with
      | .error error => return .error (.tool error)
      | .ok rendered =>
        match ← keep a "txt" rendered.stdout with
        | .error error => return .error error
        | .ok _ => return .ok rendered.stdout

def text (o : Extraction.Options) (model witness : String) :
    WitnessFormat → Activity (Except TraceError String)
  | .xml => do return (← read witness).mapError .system
  | .xtr => within (.rendering o witness) .system (renderIn o model witness)

def trace (o : Extraction.Options) (model witness : String) :
    Activity (Except TraceError Trace) := do
  match WitnessFormat.ofPath? witness with
  | none => return .error (.malformed witness .badExtension)
  | some format =>
    match ← text o model witness format with
    | .error error => return .error error
    | .ok text => return Extraction.traceOfText format o.clock witness text

/-! ### Searches -/

def withModel (s : Search) (plan : Instrumentation)
    (use : String → Activity (Except SearchError α)) : Activity (Except SearchError α) := do
  if plan.isEmpty then use s.model
  else match ← read s.model with
    | .error error => return .error (.system error)
    | .ok text =>
      match Model.instrument text plan with
      | .refused why => return .error (.instrument s.model why)
      | .crossed => return .error (.crossed s.model)
      | .text chars =>
        within (.model s) .system fun a => do
          let path := a.file ((Path.extension? s.model).getD "xml")
          match ← write path (String.ofList chars) with
          | .error error => return .error (.system error)
          | .ok () => use path

def withRun (s : Search) (query : Query) (model : String) (kind : Diagnostic)
    (use : Search.Run → Activity (Except SearchError α)) : Activity (Except SearchError α) :=
  within (.query s kind) .system fun a => do
    match ← write (a.file "q") query.text with
    | .error error => return .error (.system error)
    | .ok () => use (s.runOf kind model a)

def withRuns (s : Search) (query : Query) (model : String) :
    List Diagnostic → (List Search.Run → Activity (Except SearchError α)) →
    Activity (Except SearchError α)
  | [], use => use []
  | kind :: kinds, use =>
    withRun s query model kind fun run => withRuns s query model kinds fun runs =>
      use (run :: runs)

def extract (s : Search) (focus : Option (List String)) (run : Search.Run) :
    Activity Contribution := do
  match ← trace ⟨s.settings, s.clock, s.hold⟩ run.model run.witness with
  | .error error => return .failed (.trace error)
  | .ok trace => return .pattern (trace.focus focus).toTimedWord

def keepLog (run : Search.Run) (r : CommandResult) : Activity Unit := do
  match r.outcome with
  | .ok output =>
    if run.artifacts.held then
      let _ ← write (run.artifacts.file "log") output.combined
  | .error _ => return ()

def contribution (s : Search) (focus : Option (List String)) (run : Search.Run)
    (r : CommandResult) : Activity Contribution := do
  keepLog run r
  match Verdict.ofResult r with
  | .satisfied => extract s focus run
  | .notSatisfied => return .unsatisfied
  | .failure complaint => return .failed (.tool (Verdict.failureError r complaint))

def result (limit : Option Duration) (command : Command) : Activity CommandResult := do
  return ⟨command.line, ← run command limit⟩

def ask (s : Search) (i : Inquiry) : Activity (Except SearchError Contribution) :=
  withModel s i.plan fun model => withRun s i.query model s.firstDiagnostic fun run => do
    let result ← result s.settings.timeout run.command
    return .ok (← contribution s i.focus run result)

/-- Ask once for each kind of witness, one run after the other. -/
def askAll (s : Search) (i : Inquiry) : Activity (Except SearchError (List Contribution)) :=
  withModel s i.plan fun model => withRuns s i.query model s.roundDiagnostics fun runs => do
    let results ← (runs.map (·.command)).mapM (result s.settings.timeout)
    return .ok (← (runs.zip results).mapM fun (run, result) => contribution s i.focus run result)

def findOne (s : Search) (i : Inquiry) : Activity (Except SearchError Discovered) := do
  match ← ask s i with
  | .error error => return .error error
  | .ok (.pattern word) => return .ok ⟨i.query, word⟩
  | .ok .unsatisfied => return .error (.noPattern i.query.text)
  | .ok (.failed error) => return .error error

def findAll (s : Search) (i : Inquiry) (limit : Option ℕ) (rounds : ℕ) : Activity (Option Answer) :=
  explore ⟨limit, s.maxStale⟩ i (askAll s) rounds

/-! ### What the steps do as a whole -/

lemma perform_keep (a : Artifacts) (extension text : String) :
    (keep a extension text).perform = Extraction.keep a extension text :=
  perform_bind_of rfl fun written => by cases written <;> rfl

lemma perform_runChecked (command : Command) (limit : Option Duration) :
    (runChecked command limit).perform = Session.runChecked command limit :=
  perform_bind_of rfl fun outcome => by cases outcome <;> rfl

lemma perform_renderIn (o : Extraction.Options) (model witness : String) (a : Artifacts) :
    (renderIn o model witness a).perform = Extraction.renderIn o model witness a := by
  apply perform_bind_of (perform_runChecked _ _)
  intro outcome
  cases outcome with
  | error error => rfl
  | ok compiled =>
    apply perform_bind_of (perform_keep _ _ _)
    intro kept
    cases kept with
    | error error => rfl
    | ok path =>
      apply perform_bind_of (perform_runChecked _ _)
      intro outcome
      cases outcome with
      | error error => rfl
      | ok rendered => exact perform_bind_of (perform_keep _ _ _) fun kept => by cases kept <;> rfl

lemma perform_text (o : Extraction.Options) (model witness : String) (format : WitnessFormat) :
    (text o model witness format).perform = Extraction.text o model witness format := by
  cases format with
  | xml => exact perform_bind_of rfl fun _ => rfl
  | xtr => exact perform_within (perform_renderIn o model witness)

lemma perform_trace (o : Extraction.Options) (model witness : String) :
    (trace o model witness).perform = Extraction.trace o model witness := by
  unfold trace Extraction.trace
  cases WitnessFormat.ofPath? witness with
  | none => rfl
  | some format => exact perform_bind_of (perform_text _ _ _ _) fun text => by cases text <;> rfl

section

variable {use : String → Activity (Except SearchError α)}
  {useRun : Search.Run → Activity (Except SearchError α)}
  {useRuns : List Search.Run → Activity (Except SearchError α)}

lemma perform_withModel (s : Search) (plan : Instrumentation)
    {session : String → Session (Except SearchError α)}
    (huse : ∀ path, (use path).perform = session path) :
    (withModel s plan use).perform = s.withModel plan session := by
  unfold withModel Search.withModel
  split_ifs with hempty
  · exact huse s.model
  · refine perform_bind_of rfl fun text => ?_
    cases text with
    | error error => rfl
    | ok text =>
      dsimp only
      cases Model.instrument text plan with
      | refused why => rfl
      | crossed => rfl
      | text chars =>
        apply perform_within
        intro a
        apply perform_bind_of rfl
        intro written
        cases written with
        | error error => rfl
        | ok written => exact huse _

lemma perform_withRun (s : Search) (query : Query) (model : String) (kind : Diagnostic)
    {session : Search.Run → Session (Except SearchError α)}
    (huse : ∀ run, (useRun run).perform = session run) :
    (withRun s query model kind useRun).perform = s.withRun query model kind session := by
  apply perform_within
  intro a
  apply perform_bind_of rfl
  intro written
  cases written with
  | error error => rfl
  | ok written => exact huse _

lemma perform_withRuns (s : Search) (query : Query) (model : String) (kinds : List Diagnostic)
    {session : List Search.Run → Session (Except SearchError α)}
    (huse : ∀ runs, (useRuns runs).perform = session runs) :
    (withRuns s query model kinds useRuns).perform = s.withRuns query model kinds session := by
  induction kinds generalizing useRuns session with
  | nil => exact huse []
  | cons kind kinds ih =>
    apply perform_withRun
    intro run
    exact ih fun runs => huse (run :: runs)

end

lemma perform_extract (s : Search) (focus : Option (List String)) (run : Search.Run) :
    (extract s focus run).perform = s.extract focus run :=
  perform_bind_of (perform_trace _ _ _) fun trace => by cases trace <;> rfl

lemma perform_keepLog (run : Search.Run) (r : CommandResult) :
    (keepLog run r).perform = Search.keepLog run r := by
  unfold keepLog Search.keepLog
  cases r.outcome with
  | error error => rfl
  | ok output =>
    dsimp only
    split_ifs
    · exact perform_bind_of rfl fun _ => rfl
    · rfl

lemma perform_contribution (s : Search) (focus : Option (List String)) (run : Search.Run)
    (r : CommandResult) : (contribution s focus run r).perform = s.contribution focus run r := by
  apply perform_bind_of (perform_keepLog run r)
  intro _
  cases Verdict.ofResult r with
  | satisfied => exact perform_extract s focus run
  | notSatisfied => rfl
  | failure complaint => rfl

lemma perform_result (limit : Option Duration) (command : Command) :
    (result limit command).perform = Session.result limit command :=
  perform_bind_of rfl fun _ => rfl

lemma perform_ask (s : Search) (i : Inquiry) : (ask s i).perform = s.ask i := by
  apply perform_withModel
  intro model
  apply perform_withRun
  intro run
  apply perform_bind_of (perform_result _ _)
  intro result
  exact perform_bind_of (perform_contribution _ _ _ _) fun _ => rfl

/-- However the runs of a round are dispatched, they are carried out like one after the other. -/
lemma perform_askAll (s : Search) (i : Inquiry) : (askAll s i).perform = s.askAll i := by
  apply perform_withModel
  intro model
  apply perform_withRuns
  intro runs
  apply perform_bind_of
  · rw [perform_mapM (perform_result s.settings.timeout)]
    exact funext fun w => (Session.runBatch_eq _ _ _ _ w).symm
  · intro results
    refine perform_bind_of (perform_mapM ?_ _) fun _ => rfl
    intro run
    exact perform_contribution s i.focus run.1 run.2

lemma perform_findOne (s : Search) (i : Inquiry) : (findOne s i).perform = s.findOne i := by
  apply perform_bind_of (perform_ask s i)
  intro answer
  rcases answer with error | word | _ | error <;> rfl

lemma perform_exploreFrom {l : Limits} {i : Inquiry}
    {ask : Inquiry → Activity (Except SearchError (List Contribution))}
    {session : Inquiry → Session (Except SearchError (List Contribution))}
    (hask : ∀ i, (ask i).perform = session i) (rounds : ℕ) (p : Progress) :
    (exploreFrom l i ask rounds p).perform = exploreFrom l i session rounds p := by
  induction rounds generalizing p with
  | zero =>
    unfold exploreFrom
    split_ifs <;> rfl
  | succ rounds ih =>
    unfold exploreFrom
    split_ifs
    · rfl
    · dsimp only
      cases i.round? p.found with
      | none => rfl
      | some round =>
        apply perform_bind_of (hask round)
        intro contributions
        cases contributions with
        | error error => rfl
        | ok contributions =>
          dsimp only
          cases p.step l round.query contributions with
          | finish answer => rfl
          | again p => exact ih p

lemma perform_findAll (s : Search) (i : Inquiry) (limit : Option ℕ) (rounds : ℕ) :
    (findAll s i limit rounds).perform = s.findAll i limit rounds := by
  unfold findAll Search.findAll explore
  split_ifs
  · exact perform_exploreFrom (perform_askAll s) rounds {}
  · rfl

/-! ### Where they write -/

variable {given : List String}

lemma keepsTo_keep {a : Artifacts} {extension : String} (h : a.file extension ∈ given)
    (text : String) : (keep a extension text).KeepsTo given := by
  apply KeepsTo.bind (keepsTo_call (by simpa [Call.written] using h))
  intro written _ _
  cases written <;> trivial

lemma keepsTo_runChecked {command : Command}
    (hnone : RecordedRun.witnessPath? command = none) (limit : Option Duration) :
    (runChecked command limit).KeepsTo given := by
  apply KeepsTo.bind (keepsTo_call (by simp [Call.written, hnone]))
  intro outcome _ _
  cases outcome <;> trivial

lemma keepsTo_renderIn {o : Extraction.Options} {model witness : String} {a : Artifacts}
    (hcompiled : a.file "if" ∈ given) (hrendered : a.file "txt" ∈ given) :
    (renderIn o model witness a).KeepsTo given := by
  -- what is given at the start is still given at every later step
  apply (keepsTo_runChecked rfl _).bind
  intro outcome more hmore
  cases outcome with
  | error error => trivial
  | ok compiled =>
    apply (keepsTo_keep (hmore hcompiled) _).bind
    intro kept most hmost
    cases kept with
    | error error => trivial
    | ok path =>
      apply (keepsTo_runChecked rfl _).bind
      intro outcome all hall
      cases outcome with
      | error error => trivial
      | ok rendered =>
        apply (keepsTo_keep (hall (hmost (hmore hrendered))) _).bind
        intro kept _ _
        cases kept <;> trivial

lemma keepsTo_trace (o : Extraction.Options) (model witness : String) :
    (trace o model witness).KeepsTo given := by
  unfold trace
  cases WitnessFormat.ofPath? witness with
  | none => trivial
  | some format =>
    refine KeepsTo.bind ?_ fun text _ _ => by cases text <;> trivial
    cases format with
    | xml => exact (keepsTo_call (List.nil_subset _)).bind fun _ _ _ => trivial
    | xtr =>
      apply keepsTo_within
      intro a more _ hpaths
      simp only [Purpose.paths, List.cons_subset] at hpaths
      exact keepsTo_renderIn hpaths.1 hpaths.2.1

structure Ready (run : Search.Run) (given : List String) : Prop where
  witness : (RecordedRun.witnessPath? run.command).toList ⊆ given
  log : run.artifacts.file "log" ∈ given

lemma Ready.mono {run : Search.Run} {more : List String} (h : Ready run given)
    (hsubset : given ⊆ more) : Ready run more where
  witness := List.Subset.trans h.witness hsubset
  log := hsubset h.log

section

variable {s : Search} {use : String → Activity (Except SearchError α)}
  {useRun : Search.Run → Activity (Except SearchError α)}
  {useRuns : List Search.Run → Activity (Except SearchError α)}

lemma keepsTo_withModel {plan : Instrumentation} (huse : ∀ path more, (use path).KeepsTo more) :
    (withModel s plan use).KeepsTo given := by
  unfold withModel
  split_ifs with hempty
  · exact huse _ _
  · refine (keepsTo_call (List.nil_subset _)).bind fun text _ _ => ?_
    cases text with
    | error error => trivial
    | ok text =>
      dsimp only
      cases Model.instrument text plan with
      | refused why => trivial
      | crossed => trivial
      | text chars =>
        apply keepsTo_within
        intro a more _ hpaths
        apply KeepsTo.bind (keepsTo_call hpaths)
        intro written _ _
        cases written with
        | error error => trivial
        | ok written => exact huse _ _

lemma keepsTo_withRun {query : Query} {model : String} {kind : Diagnostic}
    (huse : ∀ run more, given ⊆ more → Ready run more → (useRun run).KeepsTo more) :
    (withRun s query model kind useRun).KeepsTo given := by
  apply keepsTo_within
  intro a more hmore hpaths
  simp only [Purpose.paths, List.cons_subset] at hpaths
  obtain ⟨hquery, hlog, hwitness⟩ := hpaths
  have hwrite : (write (a.file "q") query.text).KeepsTo more :=
    keepsTo_call (by simpa [Call.written] using hquery)
  apply hwrite.bind
  intro written most hmost
  cases written with
  | error error => trivial
  | ok written =>
    have hready : Ready (s.runOf kind model a) more := by
      refine ⟨?_, hlog⟩
      rw [Search.runOf, Settings.witnessPath?_check]
      exact List.cons_subset.2 hwitness
    exact huse _ _ (List.Subset.trans hmore hmost) (hready.mono hmost)

lemma keepsTo_withRuns {query : Query} {model : String} {kinds : List Diagnostic}
    (huse : ∀ runs more, given ⊆ more → (∀ run ∈ runs, Ready run more) →
      (useRuns runs).KeepsTo more) :
    (withRuns s query model kinds useRuns).KeepsTo given := by
  induction kinds generalizing useRuns given with
  | nil => exact huse [] given (List.Subset.refl _) (List.forall_mem_nil _)
  | cons kind kinds ih =>
    apply keepsTo_withRun
    intro run more hmore hrun
    apply ih
    intro runs most hmost hruns
    refine huse _ _ (List.Subset.trans hmore hmost) (List.forall_mem_cons.2 ⟨?_, hruns⟩)
    exact hrun.mono hmost

end

lemma keepsTo_contribution {s : Search} {focus : Option (List String)} {run : Search.Run}
    (h : Ready run given) (r : CommandResult) : (contribution s focus run r).KeepsTo given := by
  refine KeepsTo.bind ?_ fun _ more _ => ?_
  · unfold keepLog
    cases r.outcome with
    | error error => trivial
    | ok output =>
      dsimp only
      split_ifs
      · have hwrite : (write (run.artifacts.file "log") output.combined).KeepsTo given :=
          keepsTo_call (by simpa [Call.written] using h.log)
        exact hwrite.bind fun _ _ _ => trivial
      · trivial
  · cases Verdict.ofResult r with
    | satisfied => exact (keepsTo_trace _ _ _).bind fun trace _ _ => by cases trace <;> trivial
    | notSatisfied => trivial
    | failure complaint => trivial

lemma keepsTo_result {run : Search.Run} (h : Ready run given) (limit : Option Duration) :
    (result limit run.command).KeepsTo given :=
  KeepsTo.bind (keepsTo_call h.witness) fun _ _ _ => trivial

lemma keepsTo_findOne (s : Search) (i : Inquiry) : (findOne s i).KeepsTo given := by
  refine KeepsTo.bind ?_ fun answer _ _ => ?_
  · apply keepsTo_withModel
    intro model _
    apply keepsTo_withRun
    intro run more _ hrun
    apply (keepsTo_result hrun _).bind
    intro result most hmost
    exact (keepsTo_contribution (hrun.mono hmost) result).bind fun _ _ _ => trivial
  · rcases answer with error | word | _ | error <;> trivial

lemma keepsTo_askAll (s : Search) (i : Inquiry) : (askAll s i).KeepsTo given := by
  apply keepsTo_withModel
  intro model _
  apply keepsTo_withRuns
  intro runs more _ hruns
  have hresults : ((runs.map (·.command)).mapM (result s.settings.timeout)).KeepsTo more := by
    apply keepsTo_mapM
    intro command hcommand
    obtain ⟨run, hrun, rfl⟩ := List.mem_map.1 hcommand
    exact keepsTo_result (hruns run hrun) _
  refine hresults.bind fun results most hmost => KeepsTo.bind ?_ fun _ _ _ => trivial
  apply keepsTo_mapM
  intro pair hpair
  exact keepsTo_contribution ((hruns _ (List.of_mem_zip hpair).1).mono hmost) _

lemma keepsTo_exploreFrom {l : Limits} {i : Inquiry}
    {ask : Inquiry → Activity (Except SearchError (List Contribution))}
    (hask : ∀ i more, (ask i).KeepsTo more) (rounds : ℕ) (p : Progress) :
    (exploreFrom l i ask rounds p).KeepsTo given := by
  induction rounds generalizing p given with
  | zero =>
    unfold exploreFrom
    split_ifs <;> trivial
  | succ rounds ih =>
    unfold exploreFrom
    split_ifs
    · trivial
    · dsimp only
      cases i.round? p.found with
      | none => trivial
      | some round =>
        apply (hask round _).bind
        intro contributions more _
        cases contributions with
        | error error => trivial
        | ok contributions =>
          dsimp only
          cases p.step l round.query contributions with
          | finish answer => trivial
          | again p => exact ih p

lemma keepsTo_findAll (s : Search) (i : Inquiry) (limit : Option ℕ) (rounds : ℕ) :
    (findAll s i limit rounds).KeepsTo given := by
  unfold findAll explore
  split_ifs
  · exact keepsTo_exploreFrom (fun i _ => keepsTo_askAll s i) rounds {}
  · trivial

end TimedPatterns.Activity
