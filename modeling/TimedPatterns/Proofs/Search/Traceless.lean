import TimedPatterns.Proofs.Artifacts
import TimedPatterns.Proofs.Search.Found

/-!
# Searches that leave no trace

A search that does not hold its files writes to temporary directories only: the instrumented model
of a round, the query and the witness of each run, and what an extraction needs to render a witness.
Whatever the programs do, and wherever an error ends the search, a family of files is released on
every way out of its use. So the files are the same as before.
-/

namespace TimedPatterns

open Artifacts (LeadsInto LivesIn)
open Files (KeepsDirectories)

variable {w : World} {area area' : Place → Prop}

/-! ### Extractions -/

namespace Extraction

variable {o : Options} {a : Artifacts}

lemma changes_keep (hw : w.Discreet) (ha : a.LivesIn w.files area) {extension : String}
    (hextension : '/' ∉ extension.toList) (text : String) :
    w.Changes area (keep a extension text w).2 := by
  refine Session.changes_step hw ?_ (fun _ _ => rfl) fun _ w' hw' _ => hw'.changes
  exact Session.changes_writeText hw (ha.leadsInto_file hextension) text

/-- Neither compiling a model nor rendering a witness asks for a witness. -/
lemma changes_renderIn (hw : w.Discreet) (ha : a.LivesIn w.files area) (model witness : String) :
    w.Changes area (renderIn o model witness a w).2 := by
  refine Session.changes_step hw (Session.changes_runChecked hw rfl) (fun _ _ => rfl) ?_
  intro compiled w₁ hw₁ hkeeps₁
  have ha₁ := ha.mono hkeeps₁ fun _ => id
  refine Session.changes_step hw₁ (changes_keep hw₁ ha₁ (by decide) _) (fun _ _ => rfl) ?_
  intro path w₂ hw₂ hkeeps₂
  have ha₂ := ha₁.mono hkeeps₂ fun _ => id
  refine Session.changes_step hw₂ (Session.changes_runChecked hw₂ rfl) (fun _ _ => rfl) ?_
  intro rendered w₃ hw₃ hkeeps₃
  have ha₃ := ha₂.mono hkeeps₃ fun _ => id
  refine Session.changes_step hw₃ (changes_keep hw₃ ha₃ (by decide) _) (fun _ _ => rfl) ?_
  exact fun _ w₄ hw₄ _ => hw₄.changes

lemma changes_trace (hw : w.Discreet) (hhold : o.hold = false) (model witness : String) :
    w.Changes area (trace o model witness w).2 := by
  unfold trace
  cases WitnessFormat.ofPath? witness with
  | none => exact hw.changes
  | some format =>
    refine Session.changes_step hw ?_ (fun _ _ => rfl) fun _ w' hw' _ => hw'.changes
    cases format with
    | xml => exact hw.changes
    | xtr =>
      rw [text, render, hhold]
      refine Artifacts.changes_within hw (Path.not_mem_stem witness) ?_
      exact fun area' a w' _ hw' _ _ ha => changes_renderIn hw' ha model witness

end Extraction

/-! ### Searches -/

namespace Search

variable {s : Search} {α : Type} {run : Run} {f f' : Files}

/-- A run asks for its witness in the area, and its files are not held. -/
structure Run.StaysIn (run : Run) (f : Files) (area : Place → Prop) : Prop where
  asks : RecordedRun.witnessPath? run.command = some run.witness
  leads : LeadsInto f area run.witness
  held : run.artifacts.held = false

lemma Run.StaysIn.mono (h : run.StaysIn f area) (hkeeps : KeepsDirectories f f')
    (harea : ∀ q, area q → area' q) : run.StaysIn f' area' :=
  ⟨h.asks, h.leads.mono hkeeps harea, h.held⟩

lemma witnessPath?_runOf (kind : Diagnostic) (model : String) (a : Artifacts) :
    RecordedRun.witnessPath? (s.runOf kind model a).command =
      some (s.runOf kind model a).witness :=
  s.settings.witnessPath?_check kind _ s.arguments _

lemma staysIn_runOf (kind : Diagnostic) (model : String) {a : Artifacts} (ha : a.LivesIn f area)
    (hheld : a.held = false) : (s.runOf kind model a).StaysIn f area := by
  refine ⟨witnessPath?_runOf kind model a, ?_, hheld⟩
  have hkind : '/' ∉ s!"t{kind.value}".toList := by cases kind <;> decide
  have hformat : '/' ∉ s!"-1.{s.settings.format.extension}".toList := by
    cases s.settings.format <;> decide
  have hwitness : (s.runOf kind model a).witness =
      a.start s!"t{kind.value}" ++ s!"-1.{s.settings.format.extension}" := String.append_assoc
  rw [hwitness]
  exact ha.leadsInto_start hkind hformat

/-- Nothing is changed but what is changed where the model is used. -/
lemma changes_withModel (hw : w.Discreet) (hhold : s.hold = false) {plan : Instrumentation}
    {use : String → Session (Except SearchError α)}
    (huse : ∀ (area' : Place → Prop) model (w' : World), (∀ q, area q → area' q) → w'.Discreet →
      w'.Changes area' (use model w').2) :
    w.Changes area (s.withModel plan use w).2 := by
  unfold withModel
  split
  · exact huse area s.model w (fun _ => id) hw
  · refine Session.changes_step hw hw.changes (fun _ _ => rfl) fun text w₁ hw₁ _ => ?_
    dsimp only
    cases Model.instrument text plan with
    | refused why => exact hw₁.changes
    | crossed => exact hw₁.changes
    | text chars =>
      rw [hhold]
      -- what is written lies in a directory that is removed behind it
      refine Artifacts.changes_within hw₁ (by decide) fun area₂ a w₂ harea₂ hw₂ _ _ ha => ?_
      have hfile := ha.leadsInto_file (Path.not_mem_extension s.model)
      have hwrite := Session.changes_writeText hw₂ hfile
      refine Session.changes_step hw₂ (hwrite _) (fun _ _ => rfl) fun _ w₃ hw₃ _ => ?_
      exact huse area₂ _ w₃ harea₂ hw₃

/-- Nothing is changed but what is changed where the run is used. -/
lemma changes_withRun (hw : w.Discreet) (hhold : s.hold = false) {query : Query} {model : String}
    {kind : Diagnostic} {use : Run → Session (Except SearchError α)}
    (huse : ∀ (area' : Place → Prop) (run : Run) (w' : World), (∀ q, area q → area' q) →
      w'.Discreet → w.files.KeepsDirectories w'.files → run.StaysIn w'.files area' →
      w'.Changes area' (use run w').2) :
    w.Changes area (s.withRun query model kind use w).2 := by
  rw [withRun, hhold]
  refine Artifacts.changes_within hw (by decide) fun area₁ a w₁ harea₁ hw₁ hkeeps₁ hheld ha => ?_
  have hquery : '/' ∉ "q".toList := by decide
  have hwrite := Session.changes_writeText hw₁ (ha.leadsInto_file hquery) query.text
  refine Session.changes_step hw₁ hwrite (fun _ _ => rfl) fun _ w₂ hw₂ hkeeps₂ => ?_
  refine huse area₁ _ w₂ harea₁ hw₂ (hkeeps₁.trans hkeeps₂) ?_
  exact staysIn_runOf kind model (ha.mono hkeeps₂ fun _ => id) hheld

/-- Nothing is changed but what is changed where the runs are used. -/
lemma changes_withRuns (hw : w.Discreet) (hhold : s.hold = false) {query : Query} {model : String}
    {kinds : List Diagnostic} {use : List Run → Session (Except SearchError α)}
    (huse : ∀ (area' : Place → Prop) (runs : List Run) (w' : World), (∀ q, area q → area' q) →
      w'.Discreet → w.files.KeepsDirectories w'.files → (∀ run ∈ runs, run.StaysIn w'.files area') →
      w'.Changes area' (use runs w').2) :
    w.Changes area (s.withRuns query model kinds use w).2 := by
  induction kinds generalizing w area use with
  | nil => exact huse area [] w (fun _ => id) hw (.refl _) (List.forall_mem_nil _)
  | cons kind kinds ih =>
    refine changes_withRun hw hhold fun area₁ run w₁ harea₁ hw₁ hkeeps₁ hrun => ?_
    refine ih hw₁ fun area₂ runs w₂ harea₂ hw₂ hkeeps₂ hruns => ?_
    refine huse area₂ (run :: runs) w₂ (fun q hq => harea₂ q (harea₁ q hq)) hw₂
      (hkeeps₁.trans hkeeps₂) ?_
    exact List.forall_mem_cons.2 ⟨hrun.mono hkeeps₂ harea₂, hruns⟩

lemma changes_contribution (hw : w.Discreet) (hhold : s.hold = false)
    (hrun : run.artifacts.held = false) (focus : Option (List String)) (r : CommandResult) :
    w.Changes area (s.contribution focus run r w).2 := by
  have hlog : w.Changes area (keepLog run r w).2 := by
    unfold keepLog
    cases r.outcome with
    | error error => exact hw.changes
    | ok output =>
      rw [hrun]
      exact hw.changes
  refine Session.changes_bind hw hlog fun _ w₁ hw₁ _ => ?_
  cases Verdict.ofResult r with
  | satisfied =>
    refine Session.changes_step hw₁ (Extraction.changes_trace hw₁ hhold _ _) (fun _ _ => rfl) ?_
    exact fun _ w₂ hw₂ _ => hw₂.changes
  | notSatisfied => exact hw₁.changes
  | failure complaint => exact hw₁.changes

lemma changes_ask (hw : w.Discreet) (hhold : s.hold = false) (i : Inquiry) :
    w.Changes area (s.ask i w).2 := by
  refine changes_withModel hw hhold fun area₁ model w₁ _ hw₁ => ?_
  refine changes_withRun hw₁ hhold fun area₂ run w₂ _ hw₂ _ hrun => ?_
  have hresult : w₂.Changes area₂ (Session.result s.settings.timeout run.command w₂).2 := by
    refine Session.changes_run hw₂ fun path hpath => ?_
    obtain rfl := Option.some.inj (hrun.asks.symm.trans hpath)
    exact hrun.leads
  refine Session.changes_bind hw₂ hresult fun result w₃ hw₃ _ => ?_
  exact Session.changes_bind hw₃ (changes_contribution hw₃ hhold hrun.held _ _)
    fun _ w₄ hw₄ _ => hw₄.changes

lemma changes_askAll (hw : w.Discreet) (hhold : s.hold = false) (i : Inquiry) :
    w.Changes area (s.askAll i w).2 := by
  refine changes_withModel hw hhold fun area₁ model w₁ _ hw₁ => ?_
  refine changes_withRuns hw₁ hhold fun area₂ runs w₂ _ hw₂ _ hruns => ?_
  have hbatch : w₂.Changes area₂ (Session.runBatch s.mode s.poolSize s.settings.timeout
      (runs.map (·.command)) w₂).2 := by
    refine Session.changes_runBatch hw₂ (fun command hcommand path hpath => ?_) _ _
    obtain ⟨run, hrun, rfl⟩ := List.mem_map.1 hcommand
    obtain rfl := Option.some.inj ((hruns run hrun).asks.symm.trans hpath)
    exact (hruns run hrun).leads
  refine Session.changes_bind hw₂ hbatch fun results w₃ hw₃ _ => ?_
  refine Session.changes_bind hw₃ ?_ fun _ w₄ hw₄ _ => hw₄.changes
  refine Session.changes_mapM hw₃ fun x hx w₄ hw₄ => ?_
  exact changes_contribution (hw₄.discreet hw₃) hhold (hruns _ (List.of_mem_zip hx).1).held _ _

lemma changes_findOne (hw : w.Discreet) (hhold : s.hold = false) (i : Inquiry) :
    w.Changes area (s.findOne i w).2 := by
  refine Session.changes_step hw (changes_ask hw hhold i) (fun _ _ => rfl) ?_
  intro contribution w₁ hw₁ _
  cases contribution <;> exact hw₁.changes

lemma changes_findAll (hw : w.Discreet) (hhold : s.hold = false) (i : Inquiry)
    (limit : Option Nat) (rounds : Nat) : w.Changes area (s.findAll i limit rounds w).2 := by
  unfold findAll explore
  split
  · generalize ({} : Progress) = p
    induction rounds generalizing p w with
    | zero =>
      unfold exploreFrom
      split <;> exact hw.changes
    | succ rounds ih =>
      unfold exploreFrom
      split
      · exact hw.changes
      · dsimp only
        cases i.round? p.found with
        | none => exact hw.changes
        | some q =>
          refine Session.changes_step hw (changes_askAll hw hhold q) (fun _ _ => rfl) ?_
          intro contributions w₁ hw₁ _
          dsimp only
          cases p.step ⟨limit, s.maxStale⟩ q.query contributions with
          | finish answer => exact hw₁.changes
          | again p' => exact ih hw₁ p'
  · exact hw.changes

end Search

/-! ### No trace -/

/-- The files are the same: each place has what it had, and each path leads to what it led to. -/
structure Files.Unchanged (f f' : Files) : Prop where
  here : f'.here = f.here
  at?_eq : f'.at? = f.at?
  find?_eq : f'.find? = f.find?

/-- What is changed nowhere is not changed. -/
lemma Files.ChangedIn.unchanged {f f' : Files} (h : f.ChangedIn (fun _ => False) f') :
    f.Unchanged f' := by
  have hat : f'.at? = f.at? := funext fun q => h.at?_eq q not_false
  refine ⟨h.same.here, hat, funext fun path => ?_⟩
  unfold Files.find?
  cases hresolve : f.resolve path with
  | ok t => rw [h.same.resolve hresolve, hat]
  | error error =>
    cases hresolve' : f'.resolve path with
    | ok t =>
      rw [h.same.symm.resolve hresolve'] at hresolve
      cases hresolve
    | error error' => rfl

/-- A search for one pattern, an exhaustive search and an extraction that do not hold their files
leave the files as they were, whatever the programs do and however the search ends. So a temporary
directory, which is only made where nothing has been, is gone. -/
theorem Search.leaves_no_trace (s : Search) (hhold : s.hold = false) (w : World)
    (hw : w.Discreet) :
    (∀ i, w.files.Unchanged (s.findOne i w).2.files) ∧
    (∀ i limit rounds, w.files.Unchanged (s.findAll i limit rounds w).2.files) ∧
    ∀ o : Extraction.Options, o.hold = false → ∀ model witness,
      w.files.Unchanged (Extraction.trace o model witness w).2.files := by
  refine ⟨fun i => ?_, fun i limit rounds => ?_, fun o ho model witness => ?_⟩
  · exact (changes_findOne hw hhold i).files.unchanged
  · exact (changes_findAll hw hhold i limit rounds).files.unchanged
  · exact (Extraction.changes_trace hw ho model witness).files.unchanged

/-- What is played back writes nothing but witnesses. -/
lemma World.discreet_playBack (htree : w.files.IsTree) {runs : List RecordedRun}
    (hplay : w.behaviour = playBack runs) : w.Discreet := by
  refine ⟨htree, fun launched command limit files reaction hreaction file hfile => ?_⟩
  rw [hplay, playBack] at hreaction
  split at hreaction
  · cases hreaction
  · next run _ =>
    obtain rfl := Except.ok.inj hreaction
    unfold RecordedRun.reaction at hfile
    dsimp only at hfile
    split at hfile
    · next path content hpath _ =>
      rw [List.mem_singleton.1 hfile]
      exact hpath
    · cases hfile

namespace Sample

/-- The sample world with a verifier that is played back: it shows the trace, and then nothing. -/
def playedWorld : World :=
  { world with
    behaviour := playBack [⟨some 0, false, .text "Formula is satisfied", .text "", some (.text trace)⟩,
      ⟨some 0, false, .text "Formula is NOT satisfied", .text "", none⟩] }

end Sample

/-- The search of the sample finds its pattern and leaves the model and the empty scratch directory
as they were. -/
theorem Search.leaves_no_trace_sample :
    Sample.search.hold = false ∧ Sample.playedWorld.Discreet ∧
      (Sample.search.findAll (.ofRequest Sample.search.clock (Sample.request none)) none 3
        Sample.playedWorld).1 = some (.ok Sample.patterns) ∧
      Sample.playedWorld.files.Unchanged (Sample.search.findAll
        (.ofRequest Sample.search.clock (Sample.request none)) none 3 Sample.playedWorld).2.files := by
  have hdiscreet : Sample.playedWorld.Discreet :=
    World.discreet_playBack (Files.isTree_of_flat rfl (by decide)) rfl
  refine ⟨rfl, hdiscreet, by decide +kernel, ?_⟩
  exact (Search.leaves_no_trace Sample.search rfl Sample.playedWorld hdiscreet).2.1 _ _ _

end TimedPatterns
