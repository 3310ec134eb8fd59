import TimedPatterns.Proofs.Tool.Batch
import TimedPatterns.Recording
import TimedPatterns.Verify

/-!
# What comes of a batch

The models and paths of a batch are checked first. If one of the checks fails, the batch is refused
and the world is as it was. Otherwise there is a result for each model, in order, and the outcome of
a run is its own unless the run was a success whose witness could not be moved.

The witnesses are looked at one after the other. Each one has its turn (`Settles`), in the world
that the turns before it have left, and a turn changes the world only if a witness is moved. So a
turn that fails is for the others as if the run had not been a success (`settleAll_set`).
-/

namespace TimedPatterns.Verify

variable {s : Settings} {model target : String} {models targets : List String} {j : Job}
  {js : List Job} {r r' : CommandResult} {rs rs' : List CommandResult} {w w' v : World}
  {error : ToolError}

/-! ### Checks -/

/-- The extension of the path tells a format. -/
def HasFormat (path : String) : Prop :=
  ∃ format : WitnessFormat, Path.extension? path = some format.extension

/-- The run for a model and a path. -/
def Job.IsFor (s : Settings) (model target : String) (j : Job) : Prop :=
  ∃ format : WitnessFormat, Path.extension? target = some format.extension ∧
    j = ⟨s.command ["-t", "1", format.flag, Path.withoutExtension target, model],
      format.witnessPath (Path.withoutExtension target), target⟩

/-- Why a batch is refused: there are not as many paths as models, or a path tells no format and
is the first one that does not. -/
inductive Refused (models targets : List String) : ToolError → Prop
  | mismatched (hlength : models.length ≠ targets.length) :
      Refused models targets (.mismatched models.length targets.length)
  | extension {before after : List String} {target : String}
      (hlength : models.length = targets.length) (htargets : targets = before ++ target :: after)
      (hbefore : ∀ path ∈ before, HasFormat path) (htarget : ¬ HasFormat target) :
      Refused models targets (.badCommand s!"trace {target} should end in .xtr or .xml")

lemma Job.IsFor.hasFormat (h : j.IsFor s model target) : HasFormat target := by
  obtain ⟨format, hformat, -⟩ := h
  exact ⟨format, hformat⟩

lemma ofPath?_eq_some_iff {format : WitnessFormat} :
    WitnessFormat.ofPath? target = some format ↔
      Path.extension? target = some format.extension := by
  rw [WitnessFormat.ofPath?]
  split
  · next h =>
    rw [h]
    cases format <;> simp [WitnessFormat.extension]
  · next h =>
    rw [h]
    cases format <;> simp [WitnessFormat.extension]
  · next hxtr hxml => cases format <;> simpa [WitnessFormat.extension]

lemma ofPath?_eq_none_iff : WitnessFormat.ofPath? target = none ↔ ¬ HasFormat target := by
  simp only [Option.eq_none_iff_forall_ne_some, ne_eq, ofPath?_eq_some_iff, HasFormat, not_exists]

lemma job_eq_ok_iff : job s model target = .ok j ↔ j.IsFor s model target := by
  simp only [Job.IsFor, ← ofPath?_eq_some_iff, job]
  cases WitnessFormat.ofPath? target with
  | none => simp
  | some format => simp [eq_comm, Diagnostic.value]

lemma job_eq_error_iff : job s model target = .error error ↔ ¬ HasFormat target ∧
    error = .badCommand s!"trace {target} should end in .xtr or .xml" := by
  rw [← ofPath?_eq_none_iff, job]
  cases WitnessFormat.ofPath? target <;> simp [eq_comm]

/-- Of two lists of one length, one is split where the other is. -/
lemma exists_append_cons {α β : Type} {xs : List α} {before after : List β} {y : β}
    (h : xs.length = (before ++ y :: after).length) :
    ∃ xs₁ x xs₂, xs = xs₁ ++ x :: xs₂ ∧ xs₁.length = before.length := by
  rw [List.length_append, List.length_cons] at h
  have hlt : before.length < xs.length := by omega
  refine ⟨xs.take before.length, xs[before.length], xs.drop (before.length + 1), ?_, ?_⟩
  · rw [List.getElem_cons_drop, List.take_append_drop]
  · rw [List.length_take, min_eq_left hlt.le]

lemma jobs_eq_error_iff : jobs s models targets = .error error ↔ Refused models targets error := by
  rw [jobs]
  split_ifs with hlength
  · constructor
    · rintro ⟨⟩
      exact .mismatched hlength
    · rintro (_ | ⟨heq⟩)
      · rfl
      · exact absurd heq hlength
  · have hlength := not_not.1 hlength
    rw [mapM_eq_error_iff]
    simp only [job_eq_error_iff]
    constructor
    · -- the first pair without a job is the first target without a format
      rintro ⟨before, ⟨model, target⟩, after, hsplit, hbefore, htarget, rfl⟩
      have htargets := congrArg (List.map Prod.snd) hsplit
      rw [List.map_snd_zip hlength.ge, List.map_append, List.map_cons] at htargets
      refine .extension hlength htargets (List.forall_mem_map.2 fun x hx => ?_) htarget
      obtain ⟨j, hj⟩ := hbefore x hx
      exact (job_eq_ok_iff.1 hj).hasFormat
    · rintro (hne | ⟨-, htargets, hbefore, htarget⟩)
      · exact absurd hlength hne
      · obtain ⟨ms, m, ms', rfl, hms⟩ := exists_append_cons (hlength.trans (by rw [htargets]))
        rw [htargets, List.zip_append hms, List.zip_cons_cons]
        refine ⟨_, (m, _), _, rfl, fun x hx => ?_, htarget, rfl⟩
        obtain ⟨format, hformat⟩ := hbefore x.2 (List.of_mem_zip hx).2
        exact ⟨_, job_eq_ok_iff.2 ⟨format, hformat, rfl⟩⟩

lemma jobs_eq_ok_iff : jobs s models targets = .ok js ↔ models.length = targets.length ∧
    List.Forall₂ (fun x j => Job.IsFor s x.1 x.2 j) (models.zip targets) js := by
  rw [jobs]
  split_ifs with hlength
  · exact iff_of_false nofun fun h => hlength h.1
  · rw [mapM_eq_ok_iff, and_iff_right (not_not.1 hlength)]
    simp only [job_eq_ok_iff]

/-! ### Turns -/

/-- What comes of a run when its witness is looked at: the run was no success, there is no witness,
the witness is moved, or it cannot be. -/
inductive Settles (j : Job) (r : CommandResult) (w : World) : CommandResult → World → Prop
  | failed (hfailed : r.isSuccess = false) : Settles j r w r w
  | absent (hsuccess : r.isSuccess = true) (habsent : w.files.contains j.witness = false) :
      Settles j r w r w
  | moved {files : Files} (hsuccess : r.isSuccess = true)
      (hthere : w.files.contains j.witness = true)
      (hmove : w.files.rename j.witness j.target = .ok files) : Settles j r w r { w with files }
  | blocked {error : SystemError} (hsuccess : r.isSuccess = true)
      (hthere : w.files.contains j.witness = true)
      (hmove : w.files.rename j.witness j.target = .error error) :
      Settles j r w { r with outcome := .error (.system error) } w

lemma settles_settle (j : Job) (r : CommandResult) (w : World) :
    Settles j r w (settle j r w).1 (settle j r w).2 := by
  rw [settle]
  cases hsuccess : r.isSuccess with
  | false => exact .failed hsuccess
  | true =>
    cases hthere : w.files.contains j.witness with
    | false => exact .absent hsuccess hthere
    | true =>
      cases hmove : w.files.rename j.witness j.target with
      | ok files => exact .moved hsuccess hthere hmove
      | error error => exact .blocked hsuccess hthere hmove

/-- Look at the witnesses one after the other. -/
def settleAll (xs : List (Job × CommandResult)) : Session (List CommandResult) :=
  xs.mapM fun x => settle x.1 x.2

lemma settleAll_cons (xs : List (Job × CommandResult)) (w : World) :
    settleAll ((j, r) :: xs) w =
      ((settle j r w).1 :: (settleAll xs (settle j r w).2).1,
        (settleAll xs (settle j r w).2).2) := by
  rw [settleAll, List.mapM_cons]
  rfl

/-- Each witness has its turn. -/
lemma exists_turns (xs : List (Job × CommandResult)) (w : World) :
    ∃ turn : Nat → World, turn 0 = w ∧ turn xs.length = (settleAll xs w).2 ∧
      ∀ i j r, xs[i]? = some (j, r) → ∃ r', (settleAll xs w).1[i]? = some r' ∧
        Settles j r (turn i) r' (turn (i + 1)) := by
  induction xs generalizing w with
  | nil => exact ⟨fun _ => w, rfl, rfl, nofun⟩
  | cons x xs ih =>
    obtain ⟨j, r⟩ := x
    obtain ⟨turn, hfirst, hlast, hturns⟩ := ih (settle j r w).2
    rw [settleAll_cons]
    refine ⟨fun i => i.casesOn w turn, rfl, hlast, fun i j' r' hi => ?_⟩
    cases i with
    | zero =>
      obtain ⟨rfl, rfl⟩ := Prod.mk.inj (Option.some.inj hi)
      have hsettles := settles_settle j r w
      rw [← hfirst] at hsettles
      exact ⟨_, rfl, hsettles⟩
    | succ i => exact hturns i j' r' hi

/-! ### Failures -/

lemma settle_of_failed (h : r.isSuccess = false) (w : World) : settle j r w = (r, w) := by
  simp [settle, h]

/-- A success that comes out as a failure has changed nothing. -/
lemma Settles.eq_of_blocked (h : Settles j r w r' w') (hsuccess : r.isSuccess = true)
    (hfailed : r'.isSuccess = false) : w' = w := by
  cases h with
  | failed | absent | blocked => rfl
  | moved => cases hsuccess.symm.trans hfailed

lemma Settles.command_eq (h : Settles j r w r' w') : r'.command = r.command := by
  cases h <;> rfl

/-- What comes of a run differs from its own outcome exactly if its witness cannot be moved. -/
lemma Settles.outcome_eq_iff (h : Settles j r w r' w') : r'.outcome = r.outcome ↔
    ¬ (r.isSuccess = true ∧ w.files.contains j.witness = true ∧
      ∃ error, w.files.rename j.witness j.target = .error error) := by
  cases h with
  | failed hfailed => simp [hfailed]
  | absent hsuccess habsent => simp [habsent]
  | moved hsuccess hthere hmove => simp [hmove]
  | blocked hsuccess hthere hmove =>
    refine iff_of_false (fun heq => ?_) (not_not_intro ⟨hsuccess, hthere, _, hmove⟩)
    rw [CommandResult.isSuccess, ← heq] at hsuccess
    cases hsuccess

/-- Only the files decide what comes of a run. -/
lemma settle_congr (h : v.files = w.files) : (settle j r v).1 = (settle j r w).1 ∧
    (settle j r v).2.files = (settle j r w).2.files := by
  simp only [settle, h]
  split_ifs
  · cases w.files.rename j.witness j.target with
    | ok files => exact ⟨rfl, rfl⟩
    | error error => exact ⟨rfl, h⟩
  · exact ⟨rfl, h⟩

lemma settleAll_congr (xs : List (Job × CommandResult)) (h : v.files = w.files) :
    (settleAll xs v).1 = (settleAll xs w).1 ∧
      (settleAll xs v).2.files = (settleAll xs w).2.files := by
  induction xs generalizing v w with
  | nil => exact ⟨rfl, h⟩
  | cons x xs ih =>
    obtain ⟨j, r⟩ := x
    obtain ⟨hresult, hfiles⟩ := settle_congr (j := j) (r := r) h
    obtain ⟨hresults, hrest⟩ := ih hfiles
    rw [settleAll_cons, settleAll_cons, hresult, hresults]
    exact ⟨rfl, hrest⟩

/-- A witness that cannot be moved is for the others as if its run had failed. -/
lemma settleAll_set {i : Nat} (hr : rs[i]? = some r) (hsuccess : r.isSuccess = true)
    (hblocked : ∀ b ∈ (settleAll (js.zip rs) w).1[i]?, b.isSuccess = false)
    (hfailed : r'.isSuccess = false) (hfiles : v.files = w.files) :
    (settleAll (js.zip (rs.set i r')) v).1 = (settleAll (js.zip rs) w).1.set i r' ∧
      (settleAll (js.zip (rs.set i r')) v).2.files = (settleAll (js.zip rs) w).2.files := by
  induction js generalizing rs i v w with
  | nil => exact ⟨rfl, hfiles⟩
  | cons j js ih =>
    cases rs with
    | nil => cases hr
    | cons first rs =>
      rw [List.zip_cons_cons, settleAll_cons] at hblocked ⊢
      cases i with
      | zero =>
        -- neither turn changes the world, so the other ones find the same files
        obtain rfl := Option.some.inj hr
        have hworld := (settles_settle j first w).eq_of_blocked hsuccess (hblocked _ rfl)
        rw [List.set_cons_zero, List.zip_cons_cons, settleAll_cons, settle_of_failed hfailed,
          hworld]
        obtain ⟨hresults, hrest⟩ := settleAll_congr (js.zip rs) hfiles
        rw [hresults]
        exact ⟨rfl, hrest⟩
      | succ i =>
        have hr : rs[i]? = some r := hr
        obtain ⟨hresult, hnext⟩ := settle_congr (j := j) (r := first) hfiles
        obtain ⟨hresults, hrest⟩ := ih hr hblocked hnext
        rw [List.set_cons_succ, List.zip_cons_cons, settleAll_cons, hresult, hresults]
        exact ⟨rfl, hrest⟩

/-! ### Batches -/

def launch (s : Settings) (mode : Mode) (size : Option Nat) (js : List Job) :
    Session (List CommandResult) :=
  Session.runBatch mode size s.timeout (js.map (·.command))

/-- What comes of a batch: there is a result for each model, in order, with the line of its command,
and each run has its turn after the ones before it. -/
structure Outcomes (s : Settings) (models targets : List String) (mode : Mode) (size : Option Nat)
    (w : World) (js : List Job) (results : List CommandResult) (turn : Nat → World) : Prop where
  jobs : List.Forall₂ (fun x j => Job.IsFor s x.1 x.2 j) (models.zip targets) js
  length : results.length = models.length
  start : turn 0 = (launch s mode size js w).2
  turns : ∀ i j, js[i]? = some j → ∃ own result,
    -- what comes of the run itself, behind the runs before it
    (launch s mode size js w).1[i]? = some own ∧
    own = ⟨j.command.line, (Session.run j.command s.timeout
      (Session.runSequentially s.timeout ((js.map (·.command)).take i) w).2).1⟩ ∧
    -- what comes of it when its witness is looked at
    results[i]? = some result ∧ result.command = j.command.line ∧
    Settles j own (turn i) result (turn (i + 1)) ∧
    (result.outcome = own.outcome ↔ ¬ (own.isSuccess = true ∧
      (turn i).files.contains j.witness = true ∧
      ∃ error, (turn i).files.rename j.witness j.target = .error error))

lemma length_launch (s : Settings) (mode : Mode) (size : Option Nat) (js : List Job) (w : World) :
    (launch s mode size js w).1.length = js.length := by
  rw [launch, Session.length_runBatch, List.length_map]

lemma getElem?_launch {i : Nat} (h : js[i]? = some j) (mode : Mode) (size : Option Nat)
    (w : World) : (launch s mode size js w).1[i]? = some ⟨j.command.line, (Session.run j.command s.timeout
      (Session.runSequentially s.timeout ((js.map (·.command)).take i) w).2).1⟩ := by
  rw [launch, Session.runBatch_eq]
  exact Session.getElem?_runSequentially (by rw [List.getElem?_map, h, Option.map_some])

lemma not_refused (hlength : models.length = targets.length)
    (hformats : ∀ target ∈ targets, HasFormat target) : ¬ Refused models targets error := by
  rintro (hne | ⟨-, htargets, -, htarget⟩)
  · exact hne hlength
  · exact htarget (hformats _ (htargets ▸ List.mem_append_right _ List.mem_cons_self))

lemma run_of_refused (h : Refused models targets error) (s : Settings) (mode : Mode)
    (size : Option Nat) (w : World) : run s models targets mode size w = (.error error, w) := by
  rw [run, jobs_eq_error_iff.2 h]
  rfl

lemma run_of_jobs (h : jobs s models targets = .ok js) (mode : Mode) (size : Option Nat)
    (w : World) : run s models targets mode size w =
      (.ok (settleAll (js.zip (launch s mode size js w).1) (launch s mode size js w).2).1,
        (settleAll (js.zip (launch s mode size js w).1) (launch s mode size js w).2).2) := by
  rw [run, h]
  rfl

lemma run_eq_error_iff {mode : Mode} {size : Option Nat} :
    (run s models targets mode size w).1 = .error error ↔ Refused models targets error := by
  constructor
  · intro h
    cases hjobs : jobs s models targets with
    | error error' =>
      have hrefused := jobs_eq_error_iff.1 hjobs
      rw [run_of_refused hrefused] at h
      cases h
      exact hrefused
    | ok js =>
      rw [run_of_jobs hjobs] at h
      cases h
  · intro h
    rw [run_of_refused h]

/-- The results of a batch that is not refused, and the turns they come from. -/
lemma exists_outcomes (hjobs : jobs s models targets = .ok js) (mode : Mode) (size : Option Nat)
    (w : World) : ∃ results turn,
      run s models targets mode size w = (.ok results, turn models.length) ∧
        Outcomes s models targets mode size w js results turn := by
  obtain ⟨hlength, hfor⟩ := jobs_eq_ok_iff.1 hjobs
  have hjs : js.length = models.length := by
    rw [← hfor.length_eq, List.length_zip, ← hlength, min_self]
  have hzip : (js.zip (launch s mode size js w).1).length = models.length := by
    rw [List.length_zip, length_launch, min_self, hjs]
  obtain ⟨turn, hstart, hend, hturns⟩ := exists_turns (js.zip (launch s mode size js w).1)
    (launch s mode size js w).2
  rw [hzip] at hend
  refine ⟨_, turn, by rw [run_of_jobs hjobs, hend], hfor, ?_, hstart, fun i j hj => ?_⟩
  · rw [settleAll, Session.length_mapM, hzip]
  · have hown := getElem?_launch (s := s) hj mode size w
    obtain ⟨result, hresult, hsettles⟩ := hturns i j _ (List.getElem?_zip_eq_some.2 ⟨hj, hown⟩)
    exact ⟨_, result, hown, rfl, hresult, hsettles.command_eq, hsettles, hsettles.outcome_eq_iff⟩

/-- A batch is refused exactly if its paths are wrong, and then nothing has been done. Otherwise
each run has its own outcome unless its witness could not be moved; and where a witness could not be
moved, everything else comes out as if the run had failed. -/
theorem run_outcomes (s : Settings) (models targets : List String) (mode : Mode)
    (size : Option Nat) (w : World) :
    (∀ error, ((run s models targets mode size w).1 = .error error ↔
      Refused models targets error) ∧
        (Refused models targets error → (run s models targets mode size w).2 = w)) ∧
    (models.length = targets.length → (∀ target ∈ targets, HasFormat target) →
      ∃ js results turn, run s models targets mode size w = (.ok results, turn models.length) ∧
        Outcomes s models targets mode size w js results turn ∧
        ∀ (v : World) (i : Nat) (own other : CommandResult),
          (launch s mode size js w).1[i]? = some own → own.isSuccess = true →
          (∀ result ∈ results[i]?, result.isSuccess = false) → other.isSuccess = false →
          (launch s mode size js v).1 = (launch s mode size js w).1.set i other →
          (launch s mode size js v).2.files = (launch s mode size js w).2.files →
            (run s models targets mode size v).1 = .ok (results.set i other) ∧
            (run s models targets mode size v).2.files =
              (run s models targets mode size w).2.files) := by
  constructor
  · intro error
    refine ⟨run_eq_error_iff, fun h => ?_⟩
    rw [run_of_refused h]
  · intro hlength hformats
    cases hjobs : jobs s models targets with
    | error error => exact absurd (jobs_eq_error_iff.1 hjobs) (not_refused hlength hformats)
    | ok js =>
      obtain ⟨results, turn, hrun, houtcomes⟩ := exists_outcomes hjobs mode size w
      refine ⟨js, results, turn, hrun, houtcomes, fun v i own other hown hsuccess hblocked hfailed
        hresults hfiles => ?_⟩
      rw [run_of_jobs hjobs] at hrun
      obtain rfl := Except.ok.inj (congrArg Prod.fst hrun)
      obtain ⟨hset, hrest⟩ := settleAll_set hown hsuccess hblocked hfailed hfiles
      rw [run_of_jobs hjobs, run_of_jobs hjobs, hresults, hset]
      exact ⟨rfl, hrest⟩

deriving instance DecidableEq for CommandResult

namespace Blocked

/-- Two models, where the witness of the first one is asked for in the place of a directory. The run
for the first one ends with the given status. -/
def world (status : Int) : World where
  files := ⟨[(["m.xml"], .file (.text "<nta/>")), (["n.xml"], .file (.text "<nta/>")),
    (["a.xml"], .directory)], []⟩
  behaviour := playBack [⟨some status, false, .text "", .text "", some (.text "witness of m")⟩,
    ⟨some 0, false, .text "", .text "", some (.text "witness of n")⟩]
  processId := 1

def settings : Settings := ⟨"verifyta", "tracer", none, .xml⟩

def first (outcome : Except ToolError Output) : CommandResult :=
  ⟨"verifyta -t 1 -X a m.xml", outcome⟩

def second : CommandResult := ⟨"verifyta -t 1 -X b n.xml", .ok ⟨some 0, "", "", false, ⟨0⟩⟩⟩

end Blocked

open Blocked in
/-- The witness of the first model cannot be moved, and if its run fails instead, nothing else
changes. -/
theorem run_outcomes_sample :
    (run settings ["m.xml", "n.xml"] ["a.xml", "b.xml"] .processPool none (world 0)).1 =
      .ok [first (.error (.system .isDirectory)), second] ∧
    (run settings ["m.xml", "n.xml"] ["a.xml", "b.xml"] .processPool none (world 1)).1 =
      .ok [first (.ok ⟨some 1, "", "", false, ⟨0⟩⟩), second] ∧
    (run settings ["m.xml", "n.xml"] ["a.xml", "b"] .sequential none (world 0)).2 = world 0 := by
  have hxml : ∀ target ∈ ["a.xml", "b.xml"], HasFormat target := by
    intro target htarget
    refine ⟨.xml, ?_⟩
    revert target
    decide +kernel
  obtain ⟨-, haccepted⟩ := run_outcomes settings ["m.xml", "n.xml"] ["a.xml", "b.xml"]
    .processPool none (world 0)
  obtain ⟨js, results, turn, hrun, houtcomes, hapart⟩ := haccepted rfl hxml
  obtain ⟨hrefused, -⟩ := run_outcomes settings ["m.xml", "n.xml"] ["a.xml", "b"]
    .sequential none (world 0)
  have hjobs : jobs settings ["m.xml", "n.xml"] ["a.xml", "b.xml"] = .ok
      [⟨settings.command ["-t", "1", "-X", "a", "m.xml"], "a-1.xml", "a.xml"⟩,
        ⟨settings.command ["-t", "1", "-X", "b", "n.xml"], "b-1.xml", "b.xml"⟩] := by
    decide +kernel
  obtain rfl := Except.ok.inj (hjobs.symm.trans (jobs_eq_ok_iff.2 ⟨rfl, houtcomes.jobs⟩))
  have hblocked : (run settings ["m.xml", "n.xml"] ["a.xml", "b.xml"] .processPool none
      (world 0)).1 = .ok [first (.error (.system .isDirectory)), second] := by
    decide +kernel
  obtain rfl := Except.ok.inj (hblocked.symm.trans (congrArg Prod.fst hrun))
  refine ⟨hblocked, ?_, ?_⟩
  · exact (hapart (world 1) 0 (first (.ok ⟨some 0, "", "", false, ⟨0⟩⟩))
      (first (.ok ⟨some 1, "", "", false, ⟨0⟩⟩)) (by decide +kernel) rfl (by rintro _ ⟨⟩; rfl)
      rfl (by decide +kernel) (by decide +kernel)).1
  · have hnone : WitnessFormat.ofPath? "b" = none := by decide +kernel
    have hsplit : ["a.xml", "b"] = ["a.xml"] ++ "b" :: [] := rfl
    have hbefore : ∀ path ∈ ["a.xml"], HasFormat path := fun path hpath =>
      hxml path (List.mem_of_mem_head? (List.mem_singleton.1 hpath ▸ rfl))
    exact (hrefused _).2 (.extension rfl hsplit hbefore (ofPath?_eq_none_iff.1 hnone))

end TimedPatterns.Verify
