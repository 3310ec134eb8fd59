import TimedPatterns.Proofs.Search.Artifact
import TimedPatterns.Proofs.Search.Traceless

/-!
# Searching with and without holding

A search that holds its files comes to the same answers as one that does not, and runs the same
commands but for the paths of files, if the verifier ignores paths and there is room for the files.

The two searches are followed side by side. At each point they use the same families; what one reads
from a file that is held, the other one reads from its twin.

There is room only if nothing lies at the names of the held files. What lies there is replaced, also
if it is the model.
-/

namespace TimedPatterns

open Artifacts (tagOf)

namespace Search

variable {s : Search} {w : World} {count c n : Nat} {F G : Set Nat} {α : Type} {run run' : Run}
  {model model' : String} {kind : Diagnostic}

/-! ### Runs -/

lemma witness_runOf (kind : Diagnostic) (model : String) {a : Artifacts} {processId : Nat}
    (htag : a.tag = tagOf "query" processId n) :
    (s.runOf kind model a).witness =
      Path.join a.directory (Artifact.name s processId (.trace n kind .witness)) := by
  have hkind : '/' ∉ s!"t{kind.value}".toList := by cases kind <;> decide
  have hwitness : (s.runOf kind model a).witness =
      a.start s!"t{kind.value}" ++ s!"-1.{s.settings.format.extension}" := String.append_assoc
  have hending : Artifact.ending s processId (.trace n kind .witness) =
      "-" ++ s!"t{kind.value}" ++ s!"-1.{s.settings.format.extension}" := by
    unfold Artifact.ending TracePart.ending
    cases kind <;> cases s.settings.format <;> rfl
  rw [hwitness, Artifacts.start_append (by decide) htag hkind, htag, Artifact.name, hending]
  rfl

variable (s w count) in
lemma witness_families (n : Nat) (kind : Diagnostic) (model model' : String) :
    (s.runOf kind model ((s.layout w count).heldFamily "query" n)).witness =
        (s.layout w count).heldPath (.trace n kind .witness) ∧
      (s.runOf kind model' ((s.layout w count).briefFamily "query" n)).witness =
        (s.layout w count).scopedPath (.trace n kind .witness) :=
  ⟨witness_runOf kind model rfl, witness_runOf kind model' rfl⟩

/-- Two runs that were prepared for one kind of witness, in the families with one number and on
models that are read alike. -/
inductive Prepared (s : Search) (L : Layout Artifact) (F : Set Nat) : Run → Run → Prop
  | mk {n : Nat} {kind : Diagnostic} {model model' : String} (hfirst : L.world.tags < n)
      (hlast : n ≤ L.last) (hmem : n ∈ F) (hmodel : L.Reads F model model') :
      Prepared s L F (s.runOf kind model (L.heldFamily "query" n))
        (s.runOf kind model' (L.briefFamily "query" n))

lemma Prepared.mono {L : Layout Artifact} (hrun : s.Prepared L F run run') (hFG : F ⊆ G) :
    s.Prepared L G run run' := by
  cases hrun with
  | mk hfirst hlast hmem hmodel => exact .mk hfirst hlast (hFG hmem) (hmodel.mono hFG)

variable (s) in
lemma shares_query (hfirst : w.tags < n) (hlast : n ≤ (s.layout w count).last) (hmem : n ∈ F) :
    (s.layout w count).Shares F ((s.layout w count).heldFamily "query" n)
      ((s.layout w count).briefFamily "query" n) "q" :=
  ⟨.query n, ⟨⟨hfirst, le_rfl, hlast⟩, trivial, hmem⟩, Layout.file_family (name_query n) rfl⟩

variable (s) in
lemma shares_model (hfirst : w.tags < n) (hlast : n ≤ (s.layout w count).last) (hmem : n ∈ F) :
    (s.layout w count).Shares F ((s.layout w count).heldFamily "model" n)
      ((s.layout w count).briefFamily "model" n) ((Path.extension? s.model).getD "xml") :=
  ⟨.model n, ⟨⟨hfirst, le_rfl, hlast⟩, trivial, hmem⟩, Layout.file_family (name_model n) rfl⟩

variable (s w count) in
lemma log_family (n : Nat) :
    ((s.layout w count).heldFamily "query" n).file "log" = (s.layout w count).heldPath (.log n) ∧
      ((s.layout w count).briefFamily "query" n).file "log" =
        (s.layout w count).scopedPath (.log n) :=
  Layout.file_family (name_log n) rfl

/-- The witness of a run is read alike, be it that it was written or not. -/
lemma Prepared.reads_witness (hrun : s.Prepared (s.layout w count) F run run') :
    (s.layout w count).Reads F run.witness run'.witness := by
  obtain @⟨n, kind, model, model', hfirst, hlast, hmem, -⟩ := hrun
  obtain ⟨hheld, hbrief⟩ := witness_families s w count n kind model model'
  rw [hheld, hbrief]
  exact .artifact ⟨⟨hfirst, le_rfl, hlast⟩, trivial, hmem⟩

lemma Prepared.reads_model (hrun : s.Prepared (s.layout w count) F run run') :
    (s.layout w count).Reads F run.model run'.model := by
  obtain ⟨-, -, -, hmodel⟩ := hrun
  exact hmodel

lemma forall₂_zip_zip {α α' β β' : Type} {R : α → α' → Prop} {S : β → β' → Prop} {xs : List α}
    {xs' : List α'} {ys : List β} {ys' : List β'} (hxs : List.Forall₂ R xs xs')
    (hys : List.Forall₂ S ys ys') :
    List.Forall₂ (fun x x' => R x.1 x'.1 ∧ S x.2 x'.2) (xs.zip ys) (xs'.zip ys') := by
  induction hxs generalizing ys ys' with
  | nil => exact .nil
  | cons hx _ ih =>
    cases hys with
    | nil => exact .nil
    | cons hy hys => exact .cons ⟨hx, hy⟩ (ih hys)

section Steps

variable (hroom : (s.layout w count).Room)
include hroom

/-- The commands of the runs put the same question. -/
lemma Prepared.asks (hrun : s.Prepared (s.layout w count) F run run') :
    (s.layout w count).Asks s.settings F run.command run'.command := by
  obtain @⟨n, kind, model, model', hfirst, hlast, hmem, hmodel⟩ := hrun
  obtain ⟨hheld, hbrief⟩ := witness_families s w count n kind model model'
  have hkey : (s.layout w count).Open F (.trace n kind .witness) :=
    ⟨⟨hfirst, le_rfl, hlast⟩, trivial, hmem⟩
  exact Layout.asks_check layout_proper hroom s.settings kind s.arguments hmodel
    (shares_query s hfirst hlast hmem).reads hkey (.artifact _ _) hheld hbrief

/-! ### Rendering -/

omit hroom in
lemma stem?_witness {directory : String} (hdirectory : directory ≠ "") (processId n : Nat)
    (kind : Diagnostic) :
    Path.stem? (Path.join directory (Artifact.name s processId (.trace n kind .witness))) =
        some (witnessStem processId n kind) ∧
      Path.extension? (Path.join directory (Artifact.name s processId (.trace n kind .witness))) =
        some s.settings.format.extension := by
  have hname : Path.IsName (Artifact.name s processId (.trace n kind .witness)) :=
    Artifact.isName _
  rw [name_witness] at hname ⊢
  have hstem : witnessStem processId n kind ≠ "" := by simp [witnessStem]
  refine Path.splitName_join hdirectory hname hstem ?_
  cases s.settings.format <;> decide

/-- A witness is rendered in a family of its own. -/
lemma Prepared.renders (hrun : s.Prepared (s.layout w count) F run run') :
    Extraction.Renders (s.layout w count) F run.witness run'.witness := by
  obtain @⟨n, kind, model, model', hfirst, hlast, hmem, hmodel⟩ := hrun
  obtain ⟨hheld, hbrief⟩ := witness_families s w count n kind model model'
  obtain ⟨only, hleads⟩ := hroom.hasDirectory.leads
  have hscope := Files.ne_empty_of_resolve (hroom.scope hfirst hlast).1
  obtain ⟨hstem, hextension⟩ :=
    stem?_witness (s := s) (Files.ne_empty_of_resolve hleads) w.processId n kind
  obtain ⟨hstem', hextension'⟩ := stem?_witness (s := s) hscope w.processId n kind
  rw [hheld, hbrief]
  refine ⟨Path.directory_join_directory s.model (Artifact.isName _), hstem'.trans hstem.symm, ?_,
    fun m hm hmlast hnew extension hextension => ?_⟩
  · have hformat : Path.extension? ((s.layout w count).scopedPath (.trace n kind .witness)) =
        Path.extension? ((s.layout w count).heldPath (.trace n kind .witness)) :=
      hextension'.trans hextension.symm
    rw [WitnessFormat.ofPath?, WitnessFormat.ofPath?, hformat]
  · have hgetD : (Path.stem? ((s.layout w count).heldPath (.trace n kind .witness))).getD "trace" =
        witnessStem w.processId n kind := congrArg (·.getD "trace") hstem
    -- the names of the rendering carry a later number than the witness they belong to
    have hle : n ≤ m := (hnew n hmem).le
    rw [hgetD]
    rcases List.mem_pair.1 hextension with rfl | rfl
    · exact ⟨.trace n kind (.compiled m), ⟨⟨hfirst, hle, hmlast⟩, trivial, Set.mem_insert m F⟩,
        Layout.file_family (name_compiled n m kind) rfl⟩
    · exact ⟨.trace n kind (.rendering m), ⟨⟨hfirst, hle, hmlast⟩, trivial, Set.mem_insert m F⟩,
        Layout.file_family (name_rendering n m kind) rfl⟩

/-! ### Preparing -/

variable {V : α → α → Prop} {use use' : String → Session (Except SearchError α)}
  {content : Content}

lemma sync_withModel (hmodel : w.files.read s.model = .ok content) {plan : Instrumentation}
    (huse : ∀ G model model', F ⊆ G → (s.layout w count).Reads G model model' →
      (s.layout w count).Sync c G (Agree (SearchError.Twin s.directory w.scratch) V)
        (use model) (use' model')) :
    (s.layout w count).Sync (c + 1) F (Agree (SearchError.Twin s.directory w.scratch) V)
      ({ s with hold := true }.withModel plan use) ({ s with hold := false }.withModel plan use') := by
  have hgiven : (s.layout w count).Reads F s.model s.model := .given hmodel
  have hfail (e : SearchError) :
      (s.layout w count).Sync (c + 1) F (Agree (SearchError.Twin s.directory w.scratch) V)
        (pure (.error e)) (pure (.error e)) :=
    Layout.Sync.of_le (.pure (.error (.same e))) (Nat.zero_le _)
  unfold withModel
  split
  · exact (huse F _ _ subset_rfl hgiven).of_le (Nat.le_succ c)
  · refine ((Layout.sync_readText layout_proper hroom hgiven).bind (d := c + 1) ?_).of_le (by omega)
    rintro read _ rfl
    cases read with
    | error error => exact hfail _
    | ok text =>
      dsimp only
      cases Model.instrument text plan with
      | refused why => exact hfail _
      | crossed => exact hfail _
      | text chars =>
        -- the copy of the model is written beside the model or in a directory of its own, with the
        -- same text
        refine Layout.sync_within hroom fun n hfirst hlast _ => ?_
        have hshares := shares_model s hfirst hlast (Set.mem_insert n F)
        refine ((Layout.sync_write layout_proper hroom hshares _).bind (d := c) ?_).of_le (by omega)
        rintro _ _ ⟨rfl, rfl⟩
        exact huse _ _ _ (Set.subset_insert n F) hshares.reads

lemma sync_withRun {query : Query} {use use' : Run → Session (Except SearchError α)}
    (hmodel : (s.layout w count).Reads F model model') (kind : Diagnostic)
    (huse : ∀ G run run', F ⊆ G → s.Prepared (s.layout w count) G run run' →
      (s.layout w count).Sync c G (Agree (SearchError.Twin s.directory w.scratch) V)
        (use run) (use' run')) :
    (s.layout w count).Sync (c + 1) F (Agree (SearchError.Twin s.directory w.scratch) V)
      ({ s with hold := true }.withRun query model kind use)
      ({ s with hold := false }.withRun query model' kind use') := by
  refine Layout.sync_within hroom fun n hfirst hlast _ => ?_
  have hFG := Set.subset_insert n F
  have hmem := Set.mem_insert n F
  have hshares := shares_query s hfirst hlast hmem
  refine ((Layout.sync_write layout_proper hroom hshares _).bind (d := c) ?_).of_le (by omega)
  rintro _ _ ⟨rfl, rfl⟩
  exact huse _ _ _ hFG (.mk hfirst hlast hmem (hmodel.mono hFG))

lemma sync_withRuns {query : Query} {use use' : List Run → Session (Except SearchError α)}
    (hmodel : (s.layout w count).Reads F model model') (kinds : List Diagnostic)
    (huse : ∀ G runs runs', F ⊆ G → runs.length = kinds.length →
      List.Forall₂ (s.Prepared (s.layout w count) G) runs runs' →
      (s.layout w count).Sync c G (Agree (SearchError.Twin s.directory w.scratch) V)
        (use runs) (use' runs')) :
    (s.layout w count).Sync (c + kinds.length) F
      (Agree (SearchError.Twin s.directory w.scratch) V)
      ({ s with hold := true }.withRuns query model kinds use)
      ({ s with hold := false }.withRuns query model' kinds use') := by
  induction kinds generalizing F use use' with
  | nil => exact huse F [] [] subset_rfl rfl .nil
  | cons kind kinds ih =>
    rw [List.length_cons, ← Nat.add_assoc]
    refine sync_withRun hroom hmodel kind fun G run run' hFG hrun => ?_
    refine ih (hmodel.mono hFG) fun H runs runs' hGH hlength hruns => ?_
    exact huse H _ _ (hFG.trans hGH) (congrArg (· + 1) hlength) (.cons (hrun.mono hGH) hruns)

/-! ### Contributions -/

lemma sync_keepLog (hrun : s.Prepared (s.layout w count) F run run') {r r' : CommandResult}
    (hr : r.Twin s.directory w.scratch r') :
    (s.layout w count).Sync 0 F (fun _ _ => True) (keepLog run r) (keepLog run' r') := by
  obtain @⟨n, kind, model, model', hfirst, hlast, hmem, -⟩ := hrun
  obtain ⟨line, outcome⟩ := r
  obtain ⟨line', outcome'⟩ := r'
  obtain ⟨-, houtcome⟩ := hr
  unfold keepLog
  cases houtcome with
  | error => exact .pure trivial
  | @ok output output' heq =>
    have hfile := (log_family s w count n).1
    have hvalid : (s.layout w count).Valid (.log n) := ⟨hfirst, le_rfl, hlast⟩
    have hlog := Layout.sync_writeText_held layout_proper hroom hvalid id hmem output.combined
    rw [← hfile] at hlog
    exact hlog.bind (d := 0) fun _ _ _ => .pure trivial

variable (hblind : w.behaviour.IgnoresPaths s.settings)
include hblind

lemma sync_contribution (focus : Option (List String))
    (hrun : s.Prepared (s.layout w count) F run run') {r r' : CommandResult}
    (hr : r.Twin s.directory w.scratch r') :
    (s.layout w count).Sync 1 F (Contribution.Twin s.directory w.scratch)
      ({ s with hold := true }.contribution focus run r)
      ({ s with hold := false }.contribution focus run' r') := by
  unfold contribution
  refine ((sync_keepLog hroom hrun hr).bind (d := 1) fun _ _ _ => ?_).of_le (by omega)
  obtain ⟨line, outcome⟩ := r
  obtain ⟨line', outcome'⟩ := r'
  obtain ⟨⟨command, command', hcommand, rfl, rfl⟩, houtcome⟩ := hr
  have hfail {e e' : SearchError} (he : e.Twin s.directory w.scratch e') :
      (s.layout w count).Sync 1 F (Contribution.Twin s.directory w.scratch)
        (pure (.failed e)) (pure (.failed e')) :=
    Layout.Sync.of_le (.pure (.failed he)) (Nat.zero_le _)
  cases houtcome with
  | error he => exact hfail (.tool he)
  | @ok output output' heq =>
    obtain rfl := heq
    dsimp only [Verdict.ofResult]
    cases Verdict.ofOutput output with
    | satisfied =>
      -- only a run that shows a witness looks at files again, and takes one more number for it
      refine (Extraction.sync_trace layout_proper hroom s.settings s.clock hblind
        hrun.reads_model hrun.reads_witness (hrun.renders hroom)).step (d := 0) ?_ ?_
      · exact fun e e' he => .pure (.failed (.trace he))
      · rintro trace _ rfl
        exact .pure (.pattern _)
    | notSatisfied => exact Layout.Sync.of_le (.pure .unsatisfied) (Nat.zero_le _)
    | failure complaint => exact hfail (.tool (.failure hcommand _ _))

/-! ### Searching -/

lemma sync_ask (hmodel : w.files.read s.model = .ok content) (i : Inquiry) :
    (s.layout w count).Sync 3 F
      (Agree (SearchError.Twin s.directory w.scratch) (Contribution.Twin s.directory w.scratch))
      ({ s with hold := true }.ask i) ({ s with hold := false }.ask i) := by
  refine sync_withModel (c := 2) hroom hmodel fun G model model' _ hreads => ?_
  refine sync_withRun (c := 1) hroom hreads _ fun H run run' _ hrun => ?_
  refine ((Layout.sync_result layout_proper hroom hblind (hrun.asks hroom) _).bind (d := 1) ?_).of_le
    (by omega)
  intro r r' hr
  refine (sync_contribution hroom hblind i.focus hrun hr).bind (d := 0) fun c c' hc => ?_
  exact .pure (.ok hc)

lemma sync_askAll (hmodel : w.files.read s.model = .ok content) (i : Inquiry) :
    (s.layout w count).Sync (1 + 2 * s.roundDiagnostics.length) F
      (Agree (SearchError.Twin s.directory w.scratch)
        (List.Forall₂ (Contribution.Twin s.directory w.scratch)))
      ({ s with hold := true }.askAll i) ({ s with hold := false }.askAll i) := by
  -- numbers for the model, for the files of every run and for rendering every witness
  refine Layout.Sync.of_le (c := s.roundDiagnostics.length + s.roundDiagnostics.length + 1) ?_
    (by omega)
  refine sync_withModel hroom hmodel fun G model model' _ hreads => ?_
  refine sync_withRuns hroom hreads _ fun H runs runs' _ hlength hruns => ?_
  have hcommands : List.Forall₂ ((s.layout w count).Asks s.settings H)
      (runs.map (·.command)) (runs'.map (·.command)) := by
    rw [List.forall₂_map_left_iff, List.forall₂_map_right_iff]
    exact hruns.imp fun _ _ hrun => hrun.asks hroom
  refine ((Layout.sync_runBatch layout_proper hroom hblind hcommands _ _ _).bind
    (d := s.roundDiagnostics.length) fun results results' hresults => ?_).of_le (by omega)
  have hzip := forall₂_zip_zip hruns hresults
  have hcontributions := Layout.Sync.mapM hzip fun x x' hx =>
    sync_contribution hroom hblind i.focus hx.1 hx.2
  refine (hcontributions.bind (d := 0) fun _ _ hc => .pure (.ok hc)).of_le ?_
  simp [hlength]

lemma sync_findOne (hmodel : w.files.read s.model = .ok content) (i : Inquiry) :
    (s.layout w count).Sync 3 F (Agree (SearchError.Twin s.directory w.scratch) Eq)
      ({ s with hold := true }.findOne i) ({ s with hold := false }.findOne i) := by
  refine (sync_ask hroom hblind hmodel i).step (d := 0) (fun e e' he => .pure (.error he)) ?_
  intro c c' hc
  cases hc with
  | pattern word => exact .pure (.ok rfl)
  | unsatisfied => exact .pure (.error (.same _))
  | failed he => exact .pure (.error he)

/-- Two searches go on alike from where they stand. -/
lemma sync_exploreFrom (hmodel : w.files.read s.model = .ok content) (l : Limits) (i : Inquiry)
    (rounds : Nat) (p : Progress) :
    (s.layout w count).Sync (rounds * (1 + 2 * s.roundDiagnostics.length)) F
      (Option.Rel (Agree (SearchError.Twin s.directory w.scratch) Eq))
      (exploreFrom l i { s with hold := true }.askAll rounds p)
      (exploreFrom l i { s with hold := false }.askAll rounds p) := by
  have hend {c : Nat} {x x' : Answer} (hx : Agree (SearchError.Twin s.directory w.scratch) Eq x x') :
      (s.layout w count).Sync c F (Option.Rel (Agree (SearchError.Twin s.directory w.scratch) Eq))
        (pure (some x)) (pure (some x')) :=
    Layout.Sync.of_le (.pure (.some hx)) (Nat.zero_le c)
  induction rounds generalizing p with
  | zero =>
    unfold exploreFrom
    split
    · exact hend (.ok rfl)
    · exact Layout.Sync.of_le (.pure .none) (Nat.zero_le _)
  | succ rounds ih =>
    unfold exploreFrom
    split
    · exact hend (.ok rfl)
    · dsimp only
      cases i.round? p.found with
      | none => exact hend (.error (.same _))
      | some q =>
        -- the numbers of this round come before those of the rounds behind it
        rw [Nat.succ_mul, Nat.add_comm]
        refine (sync_askAll hroom hblind hmodel q).step (fun e e' he => hend (.error he)) ?_
        intro contributions contributions' hc
        have hstep := p.twin_step l q.query hc
        dsimp only
        generalize p.step l q.query contributions = next at hstep ⊢
        generalize p.step l q.query contributions' = next' at hstep ⊢
        cases hstep with
        | again p' => exact ih p'
        | finish hx => exact hend hx

lemma sync_findAll (hmodel : w.files.read s.model = .ok content) (i : Inquiry)
    (limit : Option Nat) (rounds : Nat) :
    (s.layout w count).Sync (rounds * (1 + 2 * s.roundDiagnostics.length)) F
      (Option.Rel (Agree (SearchError.Twin s.directory w.scratch) Eq))
      ({ s with hold := true }.findAll i limit rounds)
      ({ s with hold := false }.findAll i limit rounds) := by
  unfold findAll explore
  split
  · exact sync_exploreFrom hroom hblind hmodel _ i rounds {}
  · exact Layout.Sync.of_le (.pure (.some (.error (.same _)))) (Nat.zero_le _)

end Steps

/-- Whether files are held or not changes the files that are left behind, and nothing else, if the
verifier ignores paths and there is room for the files of each family. A search for one pattern, an
exhaustive search and an extraction have the same patterns and traces, or errors that are the same
but for the paths of files; and they run the same commands but for the paths of files. -/
theorem hold_changes_only_files (s : Search) (w : World)
    (hblind : w.behaviour.IgnoresPaths s.settings) :
    (∀ content i, w.files.read s.model = .ok content → (s.layout w 3).Room →
      Alike s.directory w.scratch (Agree (SearchError.Twin s.directory w.scratch) Eq)
        ({ s with hold := true }.findOne i w) ({ s with hold := false }.findOne i w)) ∧
    (∀ content i limit rounds, w.files.read s.model = .ok content →
      (s.layout w (rounds * (1 + 2 * s.roundDiagnostics.length))).Room →
      Alike s.directory w.scratch
        (Option.Rel (Agree (SearchError.Twin s.directory w.scratch) Eq))
        ({ s with hold := true }.findAll i limit rounds w)
        ({ s with hold := false }.findAll i limit rounds w)) ∧
    ∀ clock model witness content content', w.files.read model = .ok content →
      w.files.read witness = .ok content' → (Extraction.layout witness w).Room →
      Alike (Path.directory witness) w.scratch
        (Agree (TraceError.Twin (Path.directory witness) w.scratch) Eq)
        (Extraction.trace ⟨s.settings, clock, true⟩ model witness w)
        (Extraction.trace ⟨s.settings, clock, false⟩ model witness w) := by
  refine ⟨fun content i hmodel hroom => ?_, fun content i limit rounds hmodel hroom => ?_,
    fun clock model witness content content' hmodel hwitness hroom => ?_⟩
  · exact (sync_findOne hroom hblind hmodel i).alike layout_proper hroom
  · exact (sync_findAll hroom hblind hmodel i limit rounds).alike layout_proper hroom
  · exact (Extraction.sync_trace Extraction.layout_proper hroom s.settings clock hblind
      (.given hmodel) (.given hwitness) (Extraction.renders_layout witness w)).alike
      Extraction.layout_proper hroom

end Search

/-- What is played back ignores paths. -/
lemma Behaviour.ignoresPaths_playBack (settings : Settings) (runs : List RecordedRun) :
    (playBack runs).IgnoresPaths settings := by
  intro launched launched' c c' limit f f' hlength hposes
  -- only checking a model writes a witness, and both runs are of one kind
  have hwitness : (RecordedRun.witnessPath? c = none ∧ RecordedRun.witnessPath? c' = none) ∨
      ∃ path path', RecordedRun.witnessPath? c = some path ∧
        RecordedRun.witnessPath? c' = some path' := by
    cases hposes with
    | check => exact .inr ⟨_, _, settings.witnessPath?_check .., settings.witnessPath?_check ..⟩
    | compile => exact .inl ⟨rfl, rfl⟩
    | render => exact .inl ⟨rfl, rfl⟩
  unfold playBack
  rw [hlength]
  cases runs[launched'.length]? with
  | none => exact .fails _
  | some run =>
    unfold RecordedRun.reaction
    rcases hwitness with ⟨hnone, hnone'⟩ | ⟨path, path', hpath, hpath'⟩
    · simp only [hnone, hnone']
      exact .silent rfl
    · simp only [hpath, hpath']
      cases run.witness with
      | none => exact .silent rfl
      | some content =>
        exact .witness ⟨run.status, run.stdout, run.stderr, run.timedOut, _, [], _⟩ content hpath
          hpath'

namespace Sample

/-- A listing with one transition on `a`. -/
def listing : String :=
  "State:\n( P.l )\nTransitions:\n  P.l->P.l \x7b 1, a!, 1 \x7d\n" ++
    "State:\n( P.l )\nt(0)-x<=-2 x-t(0)<=5\n"

/-- The search of the sample, for compact witnesses. -/
def compactSearch : Search :=
  { search with settings := ⟨"verifier", "tracer", none, .xtr⟩, clock := "x" }

def compactFiles : Files := ⟨(["w.xtr"], .file (.text "witness")) :: world.files.nodes, []⟩

/-- The sample world with a witness in it, and programs that are played back. -/
def compactWorld (runs : List RecordedRun) : World :=
  { world with files := compactFiles, behaviour := playBack runs }

/-- A text that is short, and that can be given to the system. -/
def IsShort (text : String) : Prop := text.utf8ByteSize ≤ 50 ∧ '\x00' ∉ text.toList

instance (text : String) : Decidable (IsShort text) :=
  inferInstanceAs (Decidable (_ ∧ _))

variable {runs : List RecordedRun} {key : Search.Artifact}

lemma isShort_tag : ∀ stem ∈ ["model", "query"], ∀ n ≤ 3, IsShort (Artifacts.tagOf stem 1 n) := by
  decide +kernel

lemma isShort_trace : ∀ m ≤ 3, ∀ kind ∈ Diagnostic.all,
    ∀ part ∈ [.witness, .compiled m, .rendering m],
      IsShort ((Search.Artifact.trace 0 kind part).ending compactSearch 1) := by
  decide +kernel

lemma isShort_ending (hkey : (compactSearch.layout (compactWorld runs) 3).Valid key) :
    IsShort (key.ending compactSearch 1) := by
  obtain ⟨-, -, hlast⟩ := hkey
  have hall (kind : Diagnostic) : kind ∈ Diagnostic.all := by cases kind <;> decide
  cases key with
  | model n => exact (by decide +kernel : IsShort ((Search.Artifact.model 0).ending compactSearch 1))
  | query n => exact (by decide +kernel : IsShort ".q")
  | log n => exact (by decide +kernel : IsShort ".log")
  | trace n kind part =>
    cases part with
    | witness => exact isShort_trace 0 (by decide) kind (hall kind) _ (by simp)
    | compiled m => exact isShort_trace m hlast kind (hall kind) _ (by simp)
    | rendering m => exact isShort_trace m hlast kind (hall kind) _ (by simp)

lemma at?_of_hyphen {name : String} (h : '-' ∈ name.toList) : compactFiles.at? [name] = none := by
  have hne (text : String) (htext : '-' ∉ text.toList) : (name == text) = false := by
    rw [beq_eq_false_iff_ne]
    rintro rfl
    exact htext h
  have hw := hne "w.xtr" (by decide)
  have hm := hne "m.xml" (by decide)
  have ht := hne "tmp" (by decide)
  simp [Files.at?, compactFiles, world, List.lookup_cons, hw, hm, ht]

lemma isFree_scope : ∀ n ≤ 2,
    compactFiles.IsFree (Artifacts.scopeOf "/tmp" n) ∧
      (Artifacts.scopeOf "/tmp" n).utf8ByteSize ≤ 50 := by
  decide +kernel

lemma room_search (runs : List RecordedRun) :
    (compactSearch.layout (compactWorld runs) 3).Room := by
  have htree : compactFiles.IsTree := Files.isTree_of_flat rfl (by decide)
  have hdirectory : compactFiles.HasDirectory "." [] := ⟨⟨true, by decide +kernel⟩, rfl⟩
  have hscratch : compactFiles.HasDirectory "/tmp" ["tmp"] := ⟨⟨false, by decide +kernel⟩, rfl⟩
  have hname (key : Search.Artifact) : Path.IsName (key.name compactSearch 1) :=
    Search.Artifact.isName key
  have hscopes {n : Nat} (hn : 0 < n) (hlast : n ≤ 3) :
      (compactSearch.layout (compactWorld runs) 3).scope n ≤ 2 := by
    show 0 + (n - 0 - 1) ≤ 2
    omega
  have hshort {key : Search.Artifact}
      (hkey : (compactSearch.layout (compactWorld runs) 3).Valid key) :
      (key.name compactSearch 1).utf8ByteSize ≤ 100 ∧
        '\x00' ∉ (key.name compactSearch 1).toList := by
    obtain ⟨hsize, hnul⟩ := isShort_ending hkey
    obtain ⟨hsize', hnul'⟩ := isShort_tag key.stem
      (by rcases key.stem_eq_or with h | h <;> simp [h]) key.first (hkey.ordered.trans hkey.last)
    constructor
    · rw [Search.Artifact.name, String.utf8ByteSize_append]
      omega
    · rw [Search.Artifact.name, String.toList_append, List.mem_append]
      exact not_or_intro hnul' hnul
  refine ⟨htree, hdirectory.isDirectory, hscratch.isDirectory, fun key hkey => ?_,
    fun key hkey => ?_, fun n hn hlast => ?_⟩
  · -- the names that are held have a hyphen, which none of the files of the world has
    obtain ⟨hsize, hnul⟩ := hshort hkey
    have hhere : Files.checkPath "." = .ok () := by decide +kernel
    have hcheck := Files.checkPath_join hhere (hname key) hnul
      ((Nat.add_le_add_left hsize _).trans_lt (by decide))
    refine hdirectory.isFree (hname key) hcheck (hsize.trans (by decide)) (at?_of_hyphen ?_)
    exact String.toList_append ▸ List.mem_append_left _ Artifacts.hyphen_mem_tagOf
  · obtain ⟨hsize, hnul⟩ := hshort hkey
    obtain ⟨⟨p, hresolve, -⟩, hscope⟩ := isFree_scope _ (hscopes hkey.number hkey.last)
    exact Files.checkPath_join (Files.checkPath_of_resolve hresolve) (hname key) hnul
      ((Nat.add_le_add hscope hsize).trans_lt (by decide))
  · exact (isFree_scope _ (hscopes hn hlast)).1

/-- The runs of compiling the model and of rendering a witness. -/
def renderingRuns : List RecordedRun :=
  [⟨some 0, false, .text "compiled", .text "", none⟩, ⟨some 0, false, .text listing, .text "", none⟩]

/-- A run that shows a witness, and those by which it is rendered. -/
def compactRuns : List RecordedRun :=
  ⟨some 0, false, .text "Formula is satisfied", .text "", some (.text "witness")⟩ :: renderingRuns

def compactPattern : Discovered := ⟨⟨"E<> true"⟩, ⟨[⟨"a", 2, 5⟩]⟩⟩

def compactInquiry : Inquiry := .ofRequest compactSearch.clock (request none)

lemma room_extraction : (Extraction.layout "w.xtr" (compactWorld renderingRuns)).Room := by
  have hsearch := room_search renderingRuns
  have hfree : ∀ key ∈ [Extraction.Artifact.compiled 1, .rendering 1],
      compactFiles.IsFree
          ((Extraction.layout "w.xtr" (compactWorld renderingRuns)).heldPath key) ∧
        Files.checkPath
          ((Extraction.layout "w.xtr" (compactWorld renderingRuns)).scopedPath key) = .ok () := by
    decide +kernel
  have hmem {key : Extraction.Artifact}
      (hkey : (Extraction.layout "w.xtr" (compactWorld renderingRuns)).Valid key) :
      key ∈ [Extraction.Artifact.compiled 1, .rendering 1] := by
    have hnumber : key.number = 1 := le_antisymm hkey.last hkey.first
    cases key <;> cases hnumber <;> decide
  refine ⟨hsearch.tree, hsearch.directory, hsearch.scratch, fun key hkey => ?_, fun key hkey => ?_,
    fun n hn hlast => ?_⟩
  · exact (hfree key (hmem hkey)).1
  · exact (hfree key (hmem hkey)).2
  · obtain rfl : n = 1 := le_antisymm hlast hn
    exact (isFree_scope 0 (by decide)).1

end Sample

/-- The sample search finds its pattern, and an extraction comes to a trace, with and without
holding files. -/
theorem Search.hold_changes_only_files_sample :
    ({ Sample.compactSearch with hold := true }.findOne Sample.compactInquiry
        (Sample.compactWorld Sample.compactRuns)).1 = .ok Sample.compactPattern ∧
    ({ Sample.compactSearch with hold := false }.findOne Sample.compactInquiry
        (Sample.compactWorld Sample.compactRuns)).1 = .ok Sample.compactPattern ∧
    ({ Sample.compactSearch with hold := true }.findAll Sample.compactInquiry (some 1) 1
        (Sample.compactWorld Sample.compactRuns)).1 = some (.ok [Sample.compactPattern]) ∧
    ({ Sample.compactSearch with hold := false }.findAll Sample.compactInquiry (some 1) 1
        (Sample.compactWorld Sample.compactRuns)).1 = some (.ok [Sample.compactPattern]) ∧
    Alike "." "/tmp" (Agree (TraceError.Twin "." "/tmp") Eq)
      (Extraction.trace ⟨Sample.compactSearch.settings, "x", true⟩ "m.xml" "w.xtr"
        (Sample.compactWorld Sample.renderingRuns))
      (Extraction.trace ⟨Sample.compactSearch.settings, "x", false⟩ "m.xml" "w.xtr"
        (Sample.compactWorld Sample.renderingRuns)) := by
  have hblind (runs : List RecordedRun) := Behaviour.ignoresPaths_playBack
    Sample.compactSearch.settings runs
  have hmodel : Sample.compactFiles.read "m.xml" =
      .ok (.text "<nta><system>system P;</system></nta>") := by decide +kernel
  have hwitness : Sample.compactFiles.read "w.xtr" = .ok (.text "witness") := by decide +kernel
  have hroom := Sample.room_search Sample.compactRuns
  have hfindOne : ({ Sample.compactSearch with hold := true }.findOne Sample.compactInquiry
      (Sample.compactWorld Sample.compactRuns)).1 = .ok Sample.compactPattern := by decide +kernel
  have hfindAll : ({ Sample.compactSearch with hold := true }.findAll Sample.compactInquiry (some 1)
      1 (Sample.compactWorld Sample.compactRuns)).1 = some (.ok [Sample.compactPattern]) := by
    decide +kernel
  obtain ⟨hone, hall, -⟩ := Search.hold_changes_only_files Sample.compactSearch
    (Sample.compactWorld Sample.compactRuns) (hblind _)
  obtain ⟨-, -, htrace⟩ := Search.hold_changes_only_files Sample.compactSearch
    (Sample.compactWorld Sample.renderingRuns) (hblind _)
  have hresult := (hone _ Sample.compactInquiry hmodel hroom).result
  have hresults := (hall _ Sample.compactInquiry (some 1) 1 hmodel hroom).result
  rw [hfindOne] at hresult
  rw [hfindAll] at hresults
  refine ⟨hfindOne, hresult.eq_ok, hfindAll, ?_, ?_⟩
  · generalize ({ Sample.compactSearch with hold := false }.findAll Sample.compactInquiry (some 1) 1
      (Sample.compactWorld Sample.compactRuns)).1 = answer at hresults ⊢
    cases hresults with
    | some hagree => rw [hagree.eq_ok]
  · exact htrace "x" "m.xml" "w.xtr" _ _ hmodel hwitness Sample.room_extraction

namespace Sample

/-- A verifier that shows `a` in one model, and nothing in any other. As the companion, it prints the
witness as it is. -/
def pickyVerifier : Behaviour := fun _ c _ files =>
  match RecordedRun.witnessPath? c with
  | none => .ok { status := some 0, stdout := .text (textOfLast c files) }
  | some path =>
    if files.read ((c.arguments.reverse[1]?).getD "") = .ok (.text "<nta/>") then
      .ok { status := some 0, stdout := .text "Formula is satisfied",
            writes := [(path, .text trace)] }
    else .ok { status := some 0, stdout := .text "Formula is NOT satisfied" }

lemma textOfLast_eq {c c' : Command} {f f' : Files} {path path' : String}
    (hlast : c.arguments.getLast? = some path) (hlast' : c'.arguments.getLast? = some path')
    (hread : f'.read path' = f.read path) : textOfLast c f = textOfLast c' f' := by
  simp only [textOfLast, hlast, hlast', Option.getD_some, Files.readText, hread]

lemma ignoresPaths_pickyVerifier (settings : Settings) : pickyVerifier.IgnoresPaths settings := by
  intro launched launched' c c' limit f f' _ hposes
  have hprints (hnone : RecordedRun.witnessPath? c = none)
      (hnone' : RecordedRun.witnessPath? c' = none) (hsame : textOfLast c f = textOfLast c' f') :
      Answers c c' (pickyVerifier launched c limit f) (pickyVerifier launched' c' limit f') := by
    simp only [pickyVerifier, hnone, hnone', hsame]
    exact .silent rfl
  cases hposes with
  | @check kind start start' arguments model model' query query' hmodel hquery =>
    have hpath (start model query : String) :=
      settings.witnessPath?_check kind start arguments [model, query]
    have hgiven (start model query : String) :
        ((settings.command (["-t", kind.value, settings.format.flag, start] ++ arguments ++
          [model, query])).arguments.reverse[1]?).getD "" = model := by
      simp [Settings.command]
    simp only [pickyVerifier, hpath, hgiven, hmodel]
    split
    · exact .witness { status := some 0, stdout := .text "Formula is satisfied" } _ (hpath ..)
        (hpath ..)
    · exact .silent rfl
  | compile hmodel => exact hprints rfl rfl (textOfLast_eq rfl rfl hmodel)
  | render hcompiled hwitness => exact hprints rfl rfl (textOfLast_eq rfl rfl hwitness)

/-- A search of a model that has the name of the query that is held. -/
def namesakeSearch : Search := { search with model := "query-1-1.q" }

def namesakeInquiry : Inquiry := .ofRequest namesakeSearch.clock (request none)

def namesakeWorld : World where
  files := ⟨[(["query-1-1.q"], .file (.text "<nta/>")), (["m.xml"], .file (.text "<nta/>")),
    (["w.xtr"], .file (.text listing)), (["tmp"], .directory)], []⟩
  behaviour := pickyVerifier
  processId := 1

end Sample

/-- Holding changes more where the held files take the place of others. A search whose query is held
in place of its model finds nothing in it, and an extraction that makes the directory in which it
holds its files can then read a witness by way of that directory. -/
theorem Search.not_hold_changes_only_files :
    Sample.namesakeWorld.behaviour.IgnoresPaths Sample.namesakeSearch.settings ∧
      Sample.namesakeWorld.files.read Sample.namesakeSearch.model = .ok (.text "<nta/>") ∧
      ({ Sample.namesakeSearch with hold := false }.findOne Sample.namesakeInquiry
          Sample.namesakeWorld).1 = .ok ⟨⟨"E<> true"⟩, ⟨[⟨"a", 0, -1⟩]⟩⟩ ∧
      ({ Sample.namesakeSearch with hold := true }.findOne Sample.namesakeInquiry
          Sample.namesakeWorld).1 = .error (.noPattern "E<> true") ∧
      ({ Sample.namesakeSearch with hold := false }.findAll Sample.namesakeInquiry (some 1) 1
          Sample.namesakeWorld).1 = some (.ok [⟨⟨"E<> true"⟩, ⟨[⟨"a", 0, -1⟩]⟩⟩]) ∧
      ({ Sample.namesakeSearch with hold := true }.findAll Sample.namesakeInquiry (some 1) 1
          Sample.namesakeWorld).1 = some (.ok []) ∧
      (Extraction.trace ⟨Sample.compactSearch.settings, "x", false⟩ "m.xml" "made/../w.xtr"
          Sample.namesakeWorld).1.toOption = none ∧
      (Extraction.trace ⟨Sample.compactSearch.settings, "x", true⟩ "m.xml" "made/../w.xtr"
          Sample.namesakeWorld).1.toOption.map (·.toTimedWord) = some ⟨[⟨"a", 2, 5⟩]⟩ := by
  refine ⟨Sample.ignoresPaths_pickyVerifier _, ?_, ?_, ?_, ?_, ?_, ?_, ?_⟩ <;> decide +kernel

end TimedPatterns
