import TimedPatterns.Proofs.Tool.Batch
import TimedPatterns.Search.Run

/-!
# The history of a search

An exhaustive search forgets its runs: a round keeps what the runs contributed, and of that only
the patterns that are new. To speak of the runs, the search is carried out once more with a log.
A log has the rounds in order, each with its inquiry and, unless something went wrong before the
verifier was run, with a reading of every run: the result of the command, and what became of the
witness if the formula was satisfied.

Keeping a log changes neither the answer of a search nor the world it leaves, and each round has
one reading for each kind of witness that is asked for.
-/

namespace TimedPatterns

/-! ### Readings -/

/-- What is learnt from a run: the result of its command and, exactly if the formula is satisfied,
the trace of its witness or what is wrong with it. -/
structure Reading where
  run : Search.Run
  result : CommandResult
  witness : Option (Except TraceError Trace)
  isSome_witness : witness.isSome ↔ Verdict.ofResult result = .satisfied

namespace Reading

/-- What the verifier says of the formula. -/
def verdict (r : Reading) : Verdict := .ofResult r.result

/-- What the run contributes to a search for patterns of the actions in focus. -/
def contribution (focus : Option (List String)) (r : Reading) : Contribution :=
  match r.witness, r.verdict with
  | some (.ok trace), _ => .pattern (trace.focus focus).toTimedWord
  | some (.error error), _ => .failed (.trace error)
  | none, .failure complaint => .failed (.tool (Verdict.failureError r.result complaint))
  | none, _ => .unsatisfied

/-- The run shows a word: its formula is satisfied, and its witness can be read as a trace with
the labels of the word. -/
def Shows (r : Reading) (trace : Trace) : Prop :=
  r.verdict = .satisfied ∧ r.witness = some (.ok trace)

lemma shows_iff {r : Reading} {trace : Trace} : r.Shows trace ↔ r.witness = some (.ok trace) := by
  refine ⟨And.right, fun h => ⟨r.isSome_witness.1 ?_, h⟩⟩
  rw [h]
  rfl

/-- A run shows a witness, which can be read or not, or proves that there is none, or fails. -/
lemma cases (r : Reading) :
    (∃ trace, r.verdict = .satisfied ∧ r.witness = some (.ok trace)) ∨
      (∃ flaw, r.verdict = .satisfied ∧ r.witness = some (.error flaw)) ∨
      (r.verdict = .notSatisfied ∧ r.witness = none) ∨
      ∃ complaint, r.verdict = .failure complaint ∧ r.witness = none := by
  have hwitness : r.witness.isSome ↔ r.verdict = .satisfied := r.isSome_witness
  cases hw : r.witness with
  | some witness =>
    rw [hw] at hwitness
    have hverdict : r.verdict = .satisfied := hwitness.1 rfl
    cases witness with
    | ok trace => exact .inl ⟨trace, hverdict, rfl⟩
    | error flaw => exact .inr (.inl ⟨flaw, hverdict, rfl⟩)
  | none =>
    rw [hw] at hwitness
    cases hverdict : r.verdict with
    | satisfied => exact absurd (hwitness.2 hverdict) nofun
    | notSatisfied => exact .inr (.inr (.inl ⟨rfl, rfl⟩))
    | failure complaint => exact .inr (.inr (.inr ⟨complaint, rfl, rfl⟩))

variable {focus : Option (List String)} {r : Reading}

/-- A run contributes a pattern if and only if it shows a trace, and then the focus of it. -/
lemma contribution_eq_pattern_iff {word : TimedWord} :
    r.contribution focus = .pattern word ↔
      ∃ trace, r.Shows trace ∧ word = (trace.focus focus).toTimedWord := by
  simp only [shows_iff, contribution]
  rcases r.cases with ⟨trace, hverdict, hw⟩ | ⟨flaw, hverdict, hw⟩ | ⟨hverdict, hw⟩ |
    ⟨complaint, hverdict, hw⟩ <;> simp [hverdict, hw, eq_comm]

/-- A run contributes a proof that there is nothing to find if and only if its formula is not
satisfied. -/
lemma contribution_eq_unsatisfied_iff :
    r.contribution focus = .unsatisfied ↔ r.verdict = .notSatisfied := by
  simp only [contribution]
  rcases r.cases with ⟨trace, hverdict, hw⟩ | ⟨flaw, hverdict, hw⟩ | ⟨hverdict, hw⟩ |
    ⟨complaint, hverdict, hw⟩ <;> simp [hverdict, hw]

/-- A run contributes an error if and only if its witness cannot be read, or the verifier has not
answered. -/
lemma contribution_eq_failed_iff {error : SearchError} :
    r.contribution focus = .failed error ↔
      (∃ flaw, r.witness = some (.error flaw) ∧ error = .trace flaw) ∨
      ∃ complaint, r.verdict = .failure complaint ∧
        error = .tool (Verdict.failureError r.result complaint) := by
  simp only [contribution]
  rcases r.cases with ⟨trace, hverdict, hw⟩ | ⟨flaw, hverdict, hw⟩ | ⟨hverdict, hw⟩ |
    ⟨complaint, hverdict, hw⟩ <;> simp [hverdict, hw, eq_comm]

end Reading

/-- A round of a search: what it asks, and what its runs came to. -/
structure Round where
  inquiry : Inquiry
  answer : Except SearchError (List Reading)

namespace Round

/-- The readings of the runs of a round, none if it did not come to them. -/
def readings (r : Round) : List Reading :=
  match r.answer with
  | .ok readings => readings
  | .error _ => []

def contributions (r : Round) : List Contribution :=
  r.readings.map (·.contribution r.inquiry.focus)

end Round

/-- Whether an error is met before the verifier is run: the model is not instrumented, or something
goes wrong with a file. -/
def SearchError.IsEarly : SearchError → Prop
  | .instrument .. | .crossed .. | .system .. => True
  | _ => False

namespace Search

variable (s : Search)

/-! ### Asking -/

def reading (run : Run) (r : CommandResult) : Session Reading := do
  keepLog run r
  if h : Verdict.ofResult r = .satisfied then
    let witness ← Extraction.trace ⟨s.settings, s.clock, s.hold⟩ run.model run.witness
    return ⟨run, r, some witness, by simp [h]⟩
  else return ⟨run, r, none, by simp [h]⟩

/-- Ask once for each kind of witness, and read what came of each run. -/
def readAll (i : Inquiry) : Session (Except SearchError (List Reading)) :=
  s.withModel i.plan fun model => s.withRuns i.query model s.roundDiagnostics fun runs => do
    let results ← Session.runBatch s.mode s.poolSize s.settings.timeout (runs.map (·.command))
    return .ok (← (runs.zip results).mapM fun (run, result) => s.reading run result)

lemma contribution_eq (focus : Option (List String)) (run : Run) (r : CommandResult) :
    s.contribution focus run r = (·.contribution focus) <$> s.reading run r := by
  funext w
  simp only [contribution, reading, extract, Session.map_apply, Session.bind_apply]
  generalize (keepLog run r w).2 = w'
  by_cases h : Verdict.ofResult r = .satisfied
  · simp only [h, dif_pos, Session.bind_apply, Session.pure_apply, Reading.contribution]
    rcases Extraction.trace ⟨s.settings, s.clock, s.hold⟩ run.model run.witness w' with
      ⟨error | trace, w''⟩ <;> rfl
  · simp only [h, dif_neg, not_false_eq_true, Session.pure_apply, Reading.contribution,
      Reading.verdict]
    cases hv : Verdict.ofResult r with
    | satisfied => exact absurd hv h
    | notSatisfied => rfl
    | failure complaint => rfl

section Uses

variable {α β : Type}

lemma withModel_map {f : α → β} {use : String → Session (Except SearchError α)}
    {use' : String → Session (Except SearchError β)} {plan : Instrumentation}
    (huse : ∀ model w, use' model w = (Except.map f <$> use model) w) (w : World) :
    s.withModel plan use' w = (Except.map f <$> s.withModel plan use) w := by
  unfold withModel
  split
  · exact huse _ w
  · simp only [Session.bind_apply, Session.map_apply]
    rcases Session.readText s.model w with ⟨error | text, w'⟩
    · rfl
    · dsimp only
      cases Model.instrument text plan with
      | refused why => rfl
      | crossed => rfl
      | text chars =>
        refine Artifacts.within_map (fun a w => ?_) w'
        simp only [Session.bind_apply, Session.map_apply]
        rcases Session.writeText _ _ w with ⟨error | _, w''⟩
        · rfl
        · exact huse _ w''

lemma withRun_map {f : α → β} {use : Run → Session (Except SearchError α)}
    {use' : Run → Session (Except SearchError β)} {query : Query} {model : String}
    {kind : Diagnostic} (huse : ∀ run w, use' run w = (Except.map f <$> use run) w) (w : World) :
    s.withRun query model kind use' w = (Except.map f <$> s.withRun query model kind use) w := by
  refine Artifacts.within_map (fun a w => ?_) w
  simp only [Session.bind_apply, Session.map_apply]
  rcases Session.writeText _ _ w with ⟨error | _, w'⟩
  · rfl
  · exact huse _ w'

lemma withRuns_map {f : α → β} {use : List Run → Session (Except SearchError α)}
    {use' : List Run → Session (Except SearchError β)} {query : Query} {model : String}
    {kinds : List Diagnostic} (huse : ∀ runs w, use' runs w = (Except.map f <$> use runs) w)
    (w : World) :
    s.withRuns query model kinds use' w =
      (Except.map f <$> s.withRuns query model kinds use) w := by
  induction kinds generalizing use use' w with
  | nil => exact huse [] w
  | cons kind kinds ih =>
    exact s.withRun_map (fun run w => ih (fun runs w => huse (run :: runs) w) w) w

/-- What holds of every use of the model, and if there is none, holds of the whole. -/
lemma of_withModel {P : Except SearchError α → Prop} {use : String → Session (Except SearchError α)}
    {plan : Instrumentation} (herror : ∀ error : SearchError, error.IsEarly → P (.error error))
    (huse : ∀ model w, P (use model w).1) (w : World) : P (s.withModel plan use w).1 := by
  unfold withModel
  split
  · exact huse _ w
  · simp only [Session.bind_apply]
    rcases Session.readText s.model w with ⟨error | text, w'⟩
    · exact herror (.system error) trivial
    · dsimp only
      cases Model.instrument text plan with
      | refused why => exact herror (.instrument s.model why) trivial
      | crossed => exact herror (.crossed s.model) trivial
      | text chars =>
        refine Artifacts.of_within (fun error => herror (.system error) trivial) (fun a w => ?_) w'
        simp only [Session.bind_apply]
        rcases Session.writeText _ _ w with ⟨error | _, w''⟩
        · exact herror (.system error) trivial
        · exact huse _ w''

/-- What holds of every use of a run, and if there is none, holds of the whole. -/
lemma of_withRun {P : Except SearchError α → Prop} {use : Run → Session (Except SearchError α)}
    {query : Query} {model : String} {kind : Diagnostic}
    (herror : ∀ error : SearchError, error.IsEarly → P (.error error))
    (huse : ∀ a w, P (use (s.runOf kind model a) w).1) (w : World) :
    P (s.withRun query model kind use w).1 := by
  refine Artifacts.of_within (fun error => herror (.system error) trivial) (fun a w => ?_) w
  simp only [Session.bind_apply]
  rcases Session.writeText _ _ w with ⟨error | _, w'⟩
  · exact herror (.system error) trivial
  · exact huse a w'

/-- A run is one for a kind of witness. -/
def Run.IsFor (run : Run) (kind : Diagnostic) : Prop := ∃ model a, run = s.runOf kind model a

/-- What holds of every use of runs for the kinds of witnesses, and if there are none, holds of the
whole. -/
lemma of_withRuns {P : Except SearchError α → Prop}
    {use : List Run → Session (Except SearchError α)} {query : Query} {model : String}
    {kinds : List Diagnostic} (herror : ∀ error : SearchError, error.IsEarly → P (.error error))
    (huse : ∀ runs w, List.Forall₂ (Run.IsFor s) runs kinds → P (use runs w).1) (w : World) :
    P (s.withRuns query model kinds use w).1 := by
  induction kinds generalizing use w with
  | nil => exact huse [] w .nil
  | cons kind kinds ih =>
    refine s.of_withRun herror (fun a w => ih (fun runs w hruns => ?_) w) w
    exact huse (s.runOf kind model a :: runs) w (.cons ⟨model, a, rfl⟩ hruns)

end Uses

lemma run_reading (run : Run) (r : CommandResult) (w : World) : (s.reading run r w).1.run = run := by
  simp only [reading, Session.bind_apply]
  split <;> rfl

/-- The readings of a round, or why it did not come to them: there is one reading for each kind of
witness that is asked for, in the order of the kinds. -/
def Answers : Except SearchError (List Reading) → Prop
  | .ok readings =>
    List.Forall₂ (fun reading kind => Run.IsFor s reading.run kind) readings s.roundDiagnostics
  | .error error => error.IsEarly

lemma answers_readAll (i : Inquiry) (w : World) : s.Answers (s.readAll i w).1 := by
  refine s.of_withModel (fun _ => id) (fun model w => ?_) w
  refine s.of_withRuns (fun _ => id) (fun runs w hruns => ?_) w
  simp only [Session.bind_apply, Session.pure_apply, Answers]
  have hlength := Session.length_runBatch s.mode s.poolSize s.settings.timeout
    (runs.map (·.command)) w
  generalize Session.runBatch _ _ _ _ w = batch at hlength
  have hreadings := Session.map_mapM batch.2
    (fun x : Run × CommandResult => s.reading x.1 x.2) (·.run) (·.1)
    (fun x w => s.run_reading x.1 x.2 w) (runs.zip batch.1)
  rw [List.map_fst_zip (by simpa using hlength.ge)] at hreadings
  rwa [← hreadings, List.forall₂_map_left_iff] at hruns

/-- There is one reading for each kind of witness that is asked for. -/
lemma length_readAll {i : Inquiry} {w : World} {readings : List Reading}
    (h : (s.readAll i w).1 = .ok readings) : readings.length = s.roundDiagnostics.length := by
  have hanswers := s.answers_readAll i w
  rw [h] at hanswers
  exact hanswers.length_eq

lemma roundDiagnostics_ne_nil : s.roundDiagnostics ≠ [] := by
  unfold roundDiagnostics
  rcases s.diagnostics with _ | _ | ⟨kind, kinds⟩ <;> exact List.cons_ne_nil _ _

lemma readings_ne_nil {i : Inquiry} {w : World} {readings : List Reading}
    (h : (s.readAll i w).1 = .ok readings) : readings ≠ [] := by
  rintro rfl
  exact s.roundDiagnostics_ne_nil (List.length_eq_zero_iff.1 (s.length_readAll h).symm)

/-- The contributions of a round are those of its readings. -/
lemma askAll_eq (i : Inquiry) :
    s.askAll i = Except.map (List.map (·.contribution i.focus)) <$> s.readAll i := by
  funext w
  rw [askAll, readAll]
  apply withModel_map
  intro model w
  apply withRuns_map
  intro runs w
  simp only [Session.bind_apply, Session.map_apply, Session.pure_apply, contribution_eq]
  generalize Session.runBatch s.mode s.poolSize s.settings.timeout (runs.map (·.command)) w = batch
  rw [Session.mapM_map_right batch.2 (fun x : Run × CommandResult => s.reading x.1 x.2)]
  rfl

/-! ### Logs -/

/-- Ask, and add the round to the log. -/
def askLogged (i : Inquiry) :
    StateT (List Round) Session (Except SearchError (List Contribution)) := do
  let answer ← s.readAll i
  modify (· ++ [⟨i, answer⟩])
  return answer.map (List.map (·.contribution i.focus))

def findAllLogged (i : Inquiry) (limit : Option Nat) (rounds : Nat) :
    StateT (List Round) Session (Option Answer) :=
  explore ⟨limit, s.maxStale⟩ i s.askLogged rounds

/-- The rounds that an exhaustive search carries out when it begins in the given world, in at most
the given number of rounds. -/
def history (i : Inquiry) (limit : Option Nat) (rounds : Nat) (w : World) : List Round :=
  (s.findAllLogged i limit rounds [] w).1.2

lemma askLogged_apply (i : Inquiry) (log : List Round) (w : World) :
    s.askLogged i log w =
      (((s.askAll i w).1, log ++ [⟨i, (s.readAll i w).1⟩]), (s.askAll i w).2) := by
  rw [askAll_eq]
  rfl

lemma exploreFrom_askLogged (l : Limits) (i : Inquiry) (rounds : Nat) (p : Progress)
    (log : List Round) (w : World) :
    exploreFrom l i s.askAll rounds p w =
      ((exploreFrom l i s.askLogged rounds p log w).1.1,
        (exploreFrom l i s.askLogged rounds p log w).2) := by
  -- on the rounds, for every log that has been kept so far: the log decides nothing
  induction rounds generalizing p log w with
  | zero =>
    simp only [exploreFrom]
    split <;> rfl
  | succ rounds ih =>
    simp only [exploreFrom]
    split
    · rfl
    · cases i.round? p.found with
      | none => rfl
      | some q =>
        simp only [Session.logged_bind_apply, Session.bind_apply, askLogged_apply]
        rcases (s.askAll q w) with ⟨error | contributions, w'⟩
        · rfl
        · dsimp only
          cases p.step l q.query contributions with
          | finish answer => rfl
          | again p' => exact ih p' _ w'

lemma answers_exploreFrom (l : Limits) (i : Inquiry) (rounds : Nat) (p : Progress)
    (log : List Round) (w : World) (hlog : ∀ r ∈ log, s.Answers r.answer) :
    ∀ r ∈ (exploreFrom l i s.askLogged rounds p log w).1.2, s.Answers r.answer := by
  induction rounds generalizing p log w with
  | zero =>
    simp only [exploreFrom]
    split <;> exact hlog
  | succ rounds ih =>
    simp only [exploreFrom]
    split
    · exact hlog
    · cases i.round? p.found with
      | none => exact hlog
      | some q =>
        have hnext : ∀ r ∈ log ++ [⟨q, (s.readAll q w).1⟩], s.Answers r.answer :=
          List.forall_mem_append.2
            ⟨hlog, List.forall_mem_singleton.2 (s.answers_readAll q w)⟩
        simp only [Session.logged_bind_apply, askLogged_apply]
        rcases s.askAll q w with ⟨error | contributions, w'⟩
        · exact hnext
        · dsimp only
          cases p.step l q.query contributions with
          | finish answer => exact hnext
          | again p' => exact ih p' _ w' hnext

/-- Every round of a search comes to its readings, or to an error that is met before them. -/
lemma answers_history (i : Inquiry) (limit : Option Nat) (rounds : Nat) (w : World) :
    ∀ r ∈ s.history i limit rounds w, s.Answers r.answer := by
  have hnone : ∀ r ∈ ([] : List Round), s.Answers r.answer := List.forall_mem_nil _
  unfold history findAllLogged explore
  split
  · exact s.answers_exploreFrom _ i rounds {} [] w hnone
  · exact hnone

/-- A log changes neither the answer of a search nor the world that it leaves. -/
theorem findAllLogged_apply (i : Inquiry) (limit : Option Nat) (rounds : Nat) (w : World) :
    s.findAllLogged i limit rounds [] w =
      (((s.findAll i limit rounds w).1, s.history i limit rounds w),
        (s.findAll i limit rounds w).2) := by
  have hsame : s.findAll i limit rounds w = ((s.findAllLogged i limit rounds [] w).1.1,
      (s.findAllLogged i limit rounds [] w).2) := by
    simp only [findAll, findAllLogged, explore]
    split
    · exact s.exploreFrom_askLogged _ i rounds {} [] w
    · rfl
  rw [hsame]
  rfl

lemma answer_findAllLogged (i : Inquiry) (limit : Option Nat) (rounds : Nat) (w : World) :
    (s.findAllLogged i limit rounds [] w).1.1 = (s.findAll i limit rounds w).1 := by
  rw [findAllLogged_apply]

end Search

end TimedPatterns
