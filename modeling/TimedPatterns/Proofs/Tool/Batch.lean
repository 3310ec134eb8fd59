import TimedPatterns.Proofs.Tool.Pool

/-!
# The results of a batch

However a batch is run, its results are those of running one command after the other, one for each
command and in their order. A pool of processes comes to them in the same world too, because it
starts the commands in the same order. The threads of a pool come to the commands in any order;
then what becomes of a command must not depend on what was run before it.
-/

namespace TimedPatterns

/-- What becomes of a command depends neither on what was run before it nor on the files. -/
def World.Independent (w : World) (limit : Option Duration) : Prop :=
  ∀ command launched launched' files files',
    (w.behaviour launched command limit files).map Reaction.outcome =
      (w.behaviour launched' command limit files').map Reaction.outcome

namespace Session

variable {size : Nat} {limit : Option Duration} {commands : List Command} {w w' : World}

/-! ### Pools of processes -/

/-- A pool that has ended has the results of running one command after the other. -/
lemma run_of_ends {schedule : Nat → Nat → Bool} {n₀ : Nat}
    (h : Pool.Ends size limit schedule n₀ 0 (.ofCommands commands) [] w) :
    ∃ p, p.pending = [] ∧ p.running = [] ∧
      p.finished.Perm (numbered (runSequentially limit commands w).1) ∧
      ∀ n ≥ n₀, Pool.run size limit schedule n commands w =
          (p, (runSequentially limit commands w).2) ∧
        (Pool.events size limit schedule n commands w).filterMap Pool.Event.attempt? =
          List.range commands.length ∧
        Pool.alive (Pool.events size limit schedule n commands w) = [] ∧
        Pool.Orderly size (Pool.events size limit schedule n commands w) := by
  obtain ⟨p, log, w', hrun, hpending, hrunning⟩ := h
  -- the accounts hold at every round, and tell the rest once nothing is pending or running
  obtain ⟨k, haccounts⟩ :=
    (Pool.accounts_ofCommands size limit commands w).rounds schedule n₀ 0
  rw [hrun n₀ le_rfl] at haccounts
  obtain ⟨hentries, hworld, hattempts, halive, horderly⟩ := haccounts.of_done hpending hrunning
  refine ⟨p, hpending, hrunning, hentries, fun n hn => ?_⟩
  have hlogged : Pool.runLogged size limit schedule n commands [] w = ((p, log), w') := hrun n hn
  obtain ⟨hp, hw⟩ := Prod.mk.inj ((Pool.runLogged_apply size limit schedule n commands w).symm.trans
    hlogged)
  obtain ⟨hp, hlog⟩ := Prod.mk.inj hp
  rw [hlog]
  exact ⟨Prod.ext hp (hw.trans hworld), hattempts, halive, horderly⟩

lemma inOrder_runSequentially {entries : List Entry}
    (h : entries.Perm (numbered (runSequentially limit commands w).1)) :
    inOrder commands.length entries = (runSequentially limit commands w).1 := by
  rw [← length_runSequentially limit commands w]
  exact inOrder_of_perm h

lemma runPool_eq (hsize : 0 < size) (limit : Option Duration) (commands : List Command)
    (w : World) : runPool size limit commands w = runSequentially limit commands w := by
  have hends : Pool.Ends size limit (fun _ _ => true) (commands.length + 1) 0
      (.ofCommands commands) [] w := by
    refine Pool.ends_of_forall hsize (fun _ _ => rfl) _ ?_
    simp [Pool.unfinished, Pool.ofCommands, tickets]
  obtain ⟨p, -, -, hentries, hrun⟩ := run_of_ends hends
  simp only [runPool, bind_apply, (hrun _ le_rfl).1, pure_apply, inOrder_runSequentially hentries]
  rfl

/-! ### Pools of threads -/

lemma mapM_entry_tickets (limit : Option Duration) (commands : List Command) (w : World) :
    (tickets commands).mapM (entry limit) w =
      (numbered (runSequentially limit commands w).1, (runSequentially limit commands w).2) := by
  induction commands using List.reverseRecOn with
  | nil => rfl
  | append_singleton commands command ih =>
    have htickets : tickets (commands ++ [command]) =
        tickets commands ++ [(commands.length, command)] := List.mapIdx_concat
    rw [htickets, List.mapM_append, runSequentially_append_singleton, numbered_append_singleton,
      length_runSequentially]
    simp only [bind_apply, pure_apply, ih, List.mapM_cons, List.mapM_nil, entry]

lemma behaviour_start (command : Command) (w : World) :
    (start command limit w).2.behaviour = w.behaviour := by
  unfold start
  split_ifs
  · rfl
  · rfl
  · cases w.behaviour w.launched command limit w.files <;> rfl

lemma run_apply_fst (command : Command) (w : World) :
    (run command limit w).1 =
      if command.program = "" then .error (.badCommand "empty command")
      else if command.hasNul then .error (.launch command.line .nulInCommand)
      else match (w.behaviour w.launched command limit w.files).map Reaction.outcome with
        | .error error => .error (.launch command.line error)
        | .ok outcome => outcome := by
  simp only [run_apply, start]
  split_ifs
  · rfl
  · rfl
  · cases w.behaviour w.launched command limit w.files <;> rfl

lemma run_of_independent (h : w.Independent limit) (hw : w'.behaviour = w.behaviour)
    (command : Command) : (run command limit w').1 = (run command limit w).1 := by
  rw [run_apply_fst, run_apply_fst, hw, h command w'.launched w.launched w'.files w.files]

lemma mapM_entry_of_independent (h : w.Independent limit) (order : List Ticket)
    (hw : w'.behaviour = w.behaviour) :
    (order.mapM (entry limit) w').1 =
      order.map fun ticket => (ticket.1, ⟨ticket.2.line, (run ticket.2 limit w).1⟩) := by
  induction order generalizing w' with
  | nil => rfl
  | cons ticket order ih =>
    have hnext : (run ticket.2 limit w').2.behaviour = w.behaviour := by
      rw [run_apply, behaviour_start, hw]
    rw [List.mapM_cons]
    simp only [bind_apply, pure_apply, entry, result_apply, List.map_cons, ih hnext,
      run_of_independent h hw]

/-- In whichever order threads come to the commands, the results are those of running one command
after the other, if what becomes of a command does not depend on the order. -/
lemma runThreads_of_perm (h : w.Independent limit) {order : List Ticket}
    (horder : order.Perm (tickets commands)) :
    (runThreads limit order w).1 = (runSequentially limit commands w).1 := by
  have hlength : order.length = commands.length := by
    rw [horder.length_eq, tickets, List.length_mapIdx]
  simp only [runThreads, bind_apply, pure_apply, hlength]
  refine inOrder_runSequentially ?_
  have hbatch : numbered (runSequentially limit commands w).1 = (tickets commands).map
      fun ticket => (ticket.1, ⟨ticket.2.line, (run ticket.2 limit w).1⟩) := by
    rw [← mapM_entry_of_independent h (tickets commands) rfl, mapM_entry_tickets]
  rw [mapM_entry_of_independent h order rfl, hbatch]
  exact horder.map _

/-! ### Batches -/

/-- The results of a batch are those of running one command after the other. -/
theorem runBatch_eq (mode : Mode) (size : Option Nat) (limit : Option Duration)
    (commands : List Command) (w : World) :
    runBatch mode size limit commands w = runSequentially limit commands w := by
  have hsize (n : Nat) : 0 < max 1 n := Nat.lt_of_lt_of_le Nat.zero_lt_one (Nat.le_max_left 1 n)
  cases mode with
  | sequential => rfl
  | processPool => exact runPool_eq (hsize _) limit commands w
  | threadPool =>
    have hlength : (tickets commands).length = commands.length := List.length_mapIdx
    have hthreads : runThreads limit (tickets commands) w = runSequentially limit commands w := by
      simp only [runThreads, bind_apply, pure_apply, mapM_entry_tickets, hlength,
        inOrder_runSequentially (.refl _)]
      rfl
    exact hthreads

/-- There is one result for each command. -/
theorem length_runBatch (mode : Mode) (size : Option Nat) (limit : Option Duration)
    (commands : List Command) (w : World) :
    (runBatch mode size limit commands w).1.length = commands.length := by
  rw [runBatch_eq, length_runSequentially]

/-- Each result carries the line of its command, and what becomes of it when it is run behind the
commands before it. -/
lemma getElem?_runSequentially {i : Nat} {command : Command} (h : commands[i]? = some command) :
    (runSequentially limit commands w).1[i]? =
      some ⟨command.line, (run command limit (runSequentially limit (commands.take i) w).2).1⟩ := by
  induction commands using List.reverseRecOn with
  | nil => cases h
  | append_singleton commands last ih =>
    have hlength := length_runSequentially limit commands w
    rw [runSequentially_append_singleton]
    rcases Nat.lt_or_ge i commands.length with hi | hi
    · rw [List.getElem?_append_left hi] at h
      rw [List.getElem?_append_left (hlength.symm ▸ hi), List.take_append_of_le_length hi.le]
      exact ih h
    · obtain ⟨hlt, hget⟩ := List.getElem?_eq_some_iff.1 h
      obtain rfl : i = commands.length := by
        rw [List.length_append, List.length_singleton] at hlt
        omega
      rw [List.getElem_concat_length rfl] at hget
      rw [← hlength, List.getElem?_concat_length, hlength, List.take_left, hget, result_apply]

/-- The three ways of running a batch agree. Whenever the programs of a pool of processes are found
finished, if only each of them is at some time, the pool comes to an end: it has started each
command once, has never had more programs running than there is room for, and has a result for each
command. The results are those of running one command after the other, and so are the results of
threads that come to the commands in any order, if what becomes of a command does not depend on the
order. -/
theorem dispatch_agrees (size : Nat) (limit : Option Duration) (commands : List Command) (w : World)
    (schedule : Nat → Nat → Bool) (hfair : Pool.Fair schedule) :
    (∃ (n₀ : Nat) (p : Pool), p.pending = [] ∧ p.running = [] ∧
      (p.finished.map (·.1)).Perm (List.range commands.length) ∧
      inOrder commands.length p.finished = (runSequentially limit commands w).1 ∧
      ∀ n ≥ n₀, Pool.run (max 1 size) limit schedule n commands w =
          (p, (runSequentially limit commands w).2) ∧
        (Pool.events (max 1 size) limit schedule n commands w).filterMap Pool.Event.attempt? =
          List.range commands.length ∧
        Pool.alive (Pool.events (max 1 size) limit schedule n commands w) = [] ∧
        Pool.Orderly (max 1 size) (Pool.events (max 1 size) limit schedule n commands w)) ∧
    (w.Independent limit → ∀ order : List Ticket, order.Perm (tickets commands) →
      (runThreads limit order w).1 = (runSequentially limit commands w).1) ∧
    (∀ mode size, runBatch mode size limit commands w = runSequentially limit commands w) ∧
    (runSequentially limit commands w).1.length = commands.length ∧
    ∀ (i : Nat) (command : Command), commands[i]? = some command →
      (runSequentially limit commands w).1[i]? =
        some ⟨command.line, (run command limit (runSequentially limit (commands.take i) w).2).1⟩ := by
  have hsize : 0 < max 1 size := Nat.lt_of_lt_of_le Nat.zero_lt_one (Nat.le_max_left 1 size)
  refine ⟨?_, fun h order => runThreads_of_perm h,
    fun mode size => runBatch_eq mode size limit commands w,
    length_runSequentially limit commands w, fun i command => getElem?_runSequentially⟩
  -- the accounts do not say when a pool ends, only what it has done then; that it ends is fairness
  obtain ⟨n₀, hends⟩ := Pool.exists_ends limit hsize hfair 0 (.ofCommands commands) [] w
  obtain ⟨p, hpending, hrunning, hentries, hrun⟩ := run_of_ends hends
  refine ⟨n₀, p, hpending, hrunning, ?_, inOrder_runSequentially hentries, hrun⟩
  have hpositions := hentries.map (·.1)
  rwa [map_fst_numbered, length_runSequentially] at hpositions

namespace Sample

/-- Programs that end with the status 0, and one that cannot be found. -/
def batchWorld : World where
  files := ⟨[], []⟩
  behaviour _ command _ _ :=
    if command.program = "b" then .error .notFound else .ok { status := some 0 }
  processId := 1

/-- A batch of three commands, of which the second one cannot be started. -/
def batch : List Command := [⟨"a", [], []⟩, ⟨"b", [], []⟩, ⟨"c", [], []⟩]

def batchResults : List CommandResult :=
  [⟨"a", .ok ⟨some 0, "", "", false, ⟨0⟩⟩⟩, ⟨"b", .error (.launch "b" .notFound)⟩,
    ⟨"c", .ok ⟨some 0, "", "", false, ⟨0⟩⟩⟩]

/-- A schedule by which later programs are found finished before earlier ones. -/
def lastFirst (round i : Nat) : Bool := round % 3 = 2 - i

lemma fair_lastFirst : Pool.Fair lastFirst := by
  intro round i
  refine ⟨2 - i + 2 * round, ?_⟩
  simp only [lastFirst, decide_eq_true_eq]
  omega

end Sample

/-- A pool with room for two programs, and threads that come to the last command first, have the
results of the sample. -/
theorem dispatch_sample :
    (∃ (n₀ : Nat) (p : Pool), p.running = [] ∧
      (∀ n ≥ n₀, (Pool.run 2 none Sample.lastFirst n Sample.batch Sample.batchWorld).1 = p) ∧
      inOrder 3 p.finished = Sample.batchResults) ∧
    (runThreads none (tickets Sample.batch).reverse Sample.batchWorld).1 = Sample.batchResults := by
  have hbatch : (runSequentially none Sample.batch Sample.batchWorld).1 = Sample.batchResults := by
    rfl
  obtain ⟨⟨n₀, p, -, hrunning, -, hresults, hrun⟩, hthreads, -⟩ := dispatch_agrees 2 none
    Sample.batch Sample.batchWorld Sample.lastFirst Sample.fair_lastFirst
  constructor
  · exact ⟨n₀, p, hrunning, fun n hn => congrArg Prod.fst (hrun n hn).1, hresults.trans hbatch⟩
  · have hindependent : Sample.batchWorld.Independent none := fun _ _ _ _ _ => rfl
    exact (hthreads hindependent _ (List.reverse_perm _)).trans hbatch

end Session

end TimedPatterns
