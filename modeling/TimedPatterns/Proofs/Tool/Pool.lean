import TimedPatterns.Proofs.Session
import TimedPatterns.Proofs.Table
import TimedPatterns.Tool.Dispatch

/-!
# Pools of processes

A pool of processes is followed with a log: of the commands that could not be started, of the
programs that were launched, and of those that were found finished. The log changes nothing.

What carries the results is an account of a pool that every event keeps. The commands that have
been started are the first ones of the batch, and each of them once. The world is the one in which
these commands have been run one after the other, and what is known of the programs, running or
finished, are the results of that. So it does not matter when a program is found finished.

A pool comes to an end if every program is found finished at some time, because the first of the
running programs is found finished then at the latest, and fewer are left.
-/

namespace TimedPatterns

variable {size k : Nat} {limit : Option Duration} {commands : List Command} {w₀ w w' : World}

/-! ### Entries -/

/-- Results with their positions. -/
def numbered (results : List CommandResult) : List Entry := results.mapIdx Prod.mk

@[simp] lemma numbered_append_singleton (results : List CommandResult) (result : CommandResult) :
    numbered (results ++ [result]) = numbered results ++ [(results.length, result)] :=
  List.mapIdx_concat

lemma map_fst_numbered (results : List CommandResult) :
    (numbered results).map (·.1) = List.range results.length := by
  apply List.ext_getElem <;> simp [numbered]

lemma filterMap_range_getElem? {α : Type} (l : List α) :
    (List.range l.length).filterMap (fun i => l[i]?) = l := by
  induction l using List.reverseRecOn with
  | nil => rfl
  | append_singleton l a ih =>
    rw [List.length_append, List.length_singleton, List.range_succ, List.filterMap_append]
    congr 1
    · refine Eq.trans (List.filterMap_congr fun i hi => ?_) ih
      exact List.getElem?_append_left (List.mem_range.1 hi)
    · simp

/-- Results can be put into order from any order. -/
lemma inOrder_of_perm {entries : List Entry} {results : List CommandResult}
    (h : entries.Perm (numbered results)) : inOrder results.length entries = results := by
  have hnodup : (entries.map (·.1)).Nodup := by
    rw [(h.map _).nodup_iff, map_fst_numbered]
    exact List.nodup_range
  refine Eq.trans (List.filterMap_congr fun i hi => ?_) (filterMap_range_getElem? results)
  have hi := List.mem_range.1 hi
  rw [List.getElem?_eq_getElem hi]
  refine lookup_eq_some_of_mem hnodup (h.mem_iff.2 ?_)
  exact List.mem_mapIdx.2 ⟨i, hi, rfl⟩

/-! ### One command after the other -/

namespace Session

/-- What becomes of a command that is started. -/
def Started.outcome : Started → Except ToolError Output
  | .failed error => .error error
  | .running outcome => outcome

lemma run_apply (command : Command) (w : World) :
    run command limit w =
      ((start command limit w).1.outcome, (start command limit w).2) := by
  simp only [run, bind_apply]
  rcases start command limit w with ⟨error | outcome, w'⟩ <;> rfl

lemma result_apply (command : Command) (w : World) :
    result limit command w =
      (⟨command.line, (run command limit w).1⟩, (run command limit w).2) := rfl

lemma runSequentially_append_singleton (command : Command) (w : World) :
    runSequentially limit (commands ++ [command]) w =
      ((runSequentially limit commands w).1 ++
          [(result limit command (runSequentially limit commands w).2).1],
        (result limit command (runSequentially limit commands w).2).2) := by
  rw [runSequentially, List.mapM_append]
  rfl

lemma length_runSequentially (limit : Option Duration) (commands : List Command) (w : World) :
    (runSequentially limit commands w).1.length = commands.length :=
  length_mapM w _ _

end Session

namespace Pool

/-! ### Events -/

/-- Something that happens to the command at a position: it cannot be started, it is launched, or
its program is found finished. -/
inductive Event where
  | refused (i : Nat)
  | launched (i : Nat)
  | finished (i : Nat)
  deriving DecidableEq, Repr

namespace Event

/-- The position of the command that an event tries to start. -/
def attempt? : Event → Option Nat
  | .refused i | .launched i => some i
  | .finished _ => none

/-- The positions of the running programs behind an event. -/
def update (alive : List Nat) : Event → List Nat
  | .refused _ => alive
  | .launched i => alive ++ [i]
  | .finished i => alive.erase i

/-- The event of a start. -/
def ofStarted (i : Nat) : Session.Started → Event
  | .failed _ => .refused i
  | .running _ => .launched i

end Event

variable {log : List Event} {p : Pool} {pending : List Ticket} {running still ended : List Entry}

/-- The positions of the programs that are running behind some events. -/
def alive (log : List Event) : List Nat := log.foldl Event.update []

@[simp] lemma alive_append_singleton (log : List Event) (e : Event) :
    alive (log ++ [e]) = e.update (alive log) := by
  rw [alive, List.foldl_append]
  rfl

/-- At no time run more programs than there is room for, and only a program that is running is
found finished. -/
structure Orderly (size : Nat) (log : List Event) : Prop where
  length_alive_le : ∀ before, before <+: log → (alive before).length ≤ size
  mem_alive : ∀ before i, before ++ [.finished i] <+: log → i ∈ alive before

lemma orderly_nil : Orderly size [] := by
  constructor
  · intro before hbefore
    rw [List.prefix_nil.1 hbefore]
    exact Nat.zero_le _
  · intro before i hbefore
    exact absurd (List.prefix_nil.1 hbefore) (by simp)

lemma Orderly.append_singleton {e : Event} (h : Orderly size log)
    (hsize : (e.update (alive log)).length ≤ size)
    (hmem : ∀ i, e = .finished i → i ∈ alive log) : Orderly size (log ++ [e]) := by
  constructor
  · intro before hbefore
    rcases List.prefix_concat_iff.1 hbefore with rfl | hbefore
    · rwa [alive_append_singleton]
    · exact h.length_alive_le before hbefore
  · intro before i hbefore
    rcases List.prefix_concat_iff.1 hbefore with heq | hbefore
    · obtain ⟨rfl, hlast⟩ := List.append_inj' heq rfl
      exact hmem i (List.singleton_inj.1 hlast).symm
    · exact h.mem_alive before i hbefore

/-! ### Accounts -/

/-- A pool accounts for the first `k` commands of a batch: they have been started in order and each
of them once, and what is known of them is what running them one after the other would give. -/
structure Accounts (size : Nat) (limit : Option Duration) (commands : List Command) (w₀ : World)
    (k : Nat) (p : Pool) (log : List Event) (w : World) : Prop where
  le : k ≤ commands.length
  pending_eq : p.pending = (tickets commands).drop k
  world_eq : w = (Session.runSequentially limit (commands.take k) w₀).2
  entries : (p.running ++ p.finished).Perm
    (numbered (Session.runSequentially limit (commands.take k) w₀).1)
  attempts : log.filterMap Event.attempt? = List.range k
  alive_eq : alive log = p.running.map (·.1)
  orderly : Orderly size log

lemma accounts_ofCommands (size : Nat) (limit : Option Duration) (commands : List Command)
    (w : World) : Accounts size limit commands w 0 (ofCommands commands) [] w where
  le := Nat.zero_le _
  pending_eq := rfl
  world_eq := rfl
  entries := .refl _
  attempts := rfl
  alive_eq := rfl
  orderly := orderly_nil

lemma Accounts.perm_range (h : Accounts size limit commands w₀ k p log w) :
    ((p.running ++ p.finished).map (·.1)).Perm (List.range k) := by
  have hperm := h.entries.map (·.1)
  rwa [map_fst_numbered, Session.length_runSequentially, List.length_take_of_le h.le] at hperm

/-- The next command of a pool is the next one of the batch. -/
lemma Accounts.next {i : Nat} {command : Command}
    (h : Accounts size limit commands w₀ k ⟨(i, command) :: pending, running, ended⟩ log w) :
    i = k ∧ k < commands.length ∧ pending = (tickets commands).drop (k + 1) ∧
      Session.runSequentially limit (commands.take (k + 1)) w₀ =
        ((Session.runSequentially limit (commands.take k) w₀).1 ++
            [⟨command.line, (Session.start command limit w).1.outcome⟩],
          (Session.start command limit w).2) := by
  have hpending : (i, command) :: pending = (tickets commands).drop k := h.pending_eq
  have hlt : k < (tickets commands).length := by
    by_contra hle
    rw [List.drop_of_length_le (Nat.le_of_not_lt hle)] at hpending
    cases hpending
  rw [List.drop_eq_getElem_cons hlt] at hpending
  obtain ⟨hhead, rfl⟩ := List.cons.inj hpending
  have hk : k < commands.length := by simpa [tickets] using hlt
  have hticket : (tickets commands)[k] = (k, commands[k]) := List.getElem_mapIdx
  obtain ⟨rfl, rfl⟩ := Prod.mk.inj (hhead.trans hticket)
  refine ⟨rfl, hk, rfl, ?_⟩
  rw [← List.take_append_getElem hk, Session.runSequentially_append_singleton, ← h.world_eq,
    Session.result_apply, Session.run_apply]

/-- An account is kept when a command cannot be started. -/
lemma Accounts.refused {i : Nat} {command : Command} {error : ToolError}
    (h : Accounts size limit commands w₀ k ⟨(i, command) :: pending, running, ended⟩ log w)
    (hstart : Session.start command limit w = (.failed error, w')) :
    Accounts size limit commands w₀ (k + 1)
      ⟨pending, running, ended ++ [(i, ⟨command.line, .error error⟩)]⟩
      (log ++ [.refused i]) w' := by
  obtain ⟨rfl, hk, hpending, hrun⟩ := h.next
  rw [hstart] at hrun
  exact
    { le := hk
      pending_eq := hpending
      world_eq := by rw [hrun]
      entries := by
        rw [hrun, numbered_append_singleton, Session.length_runSequentially,
          List.length_take_of_le h.le, ← List.append_assoc]
        exact h.entries.append_right _
      attempts := by
        rw [List.filterMap_append, h.attempts, List.range_succ]
        simp [Event.attempt?]
      alive_eq := by
        rw [alive_append_singleton]
        exact h.alive_eq
      orderly := by
        refine h.orderly.append_singleton ?_ (fun _ => nofun)
        exact h.orderly.length_alive_le log (List.prefix_refl log) }

/-- An account is kept when a program is launched, if there is room for it. -/
lemma Accounts.launched {i : Nat} {command : Command} {outcome : Except ToolError Output}
    (h : Accounts size limit commands w₀ k ⟨(i, command) :: pending, running, ended⟩ log w)
    (hroom : running.length < size)
    (hstart : Session.start command limit w = (.running outcome, w')) :
    Accounts size limit commands w₀ (k + 1)
      ⟨pending, running ++ [(i, ⟨command.line, outcome⟩)], ended⟩
      (log ++ [.launched i]) w' := by
  obtain ⟨rfl, hk, hpending, hrun⟩ := h.next
  have halive : alive log = running.map (·.1) := h.alive_eq
  rw [hstart] at hrun
  exact
    { le := hk
      pending_eq := hpending
      world_eq := by rw [hrun]
      entries := by
        rw [hrun, numbered_append_singleton, Session.length_runSequentially,
          List.length_take_of_le h.le]
        refine List.Perm.trans ?_ (h.entries.append_right _)
        rw [List.append_assoc, List.append_assoc]
        exact List.Perm.append_left _ List.perm_append_comm
      attempts := by
        rw [List.filterMap_append, h.attempts, List.range_succ]
        simp [Event.attempt?]
      alive_eq := by
        rw [alive_append_singleton, Event.update, halive, List.map_append]
        rfl
      orderly := by
        refine h.orderly.append_singleton ?_ (fun _ => nofun)
        rw [Event.update, halive, List.length_append, List.length_map]
        exact hroom }

/-- An account is kept when a program is found finished. -/
lemma Accounts.finished {i : Nat} {result : CommandResult}
    (h : Accounts size limit commands w₀ k ⟨pending, still ++ (i, result) :: running, ended⟩
      log w) :
    Accounts size limit commands w₀ k ⟨pending, still ++ running, ended ++ [(i, result)]⟩
      (log ++ [.finished i]) w := by
  have hnodup := h.perm_range.nodup_iff.2 List.nodup_range
  have halive : alive log =
      still.map (·.1) ++ i :: running.map (·.1) := by
    rw [h.alive_eq, List.map_append]
    rfl
  -- positions are distinct, so the one that ends is not among those before it
  have hnew : i ∉ still.map (·.1) := by
    simp only [List.map_append, List.map_cons, List.append_assoc] at hnodup
    exact fun hi => (List.nodup_append.1 hnodup).2.2 i hi i (by simp) rfl
  have herase : (alive log).erase i = (still ++ running).map (·.1) := by
    rw [halive, List.erase_append_right _ hnew, List.erase_cons_head, List.map_append]
  exact
    { le := h.le
      pending_eq := h.pending_eq
      world_eq := h.world_eq
      entries := by
        refine List.Perm.trans ?_ h.entries
        simp only [List.append_assoc, List.cons_append]
        refine List.Perm.append_left _ ?_
        rw [← List.append_assoc]
        exact List.perm_append_singleton _ _
      attempts := by
        rw [List.filterMap_append, h.attempts]
        simp [Event.attempt?]
      alive_eq := by
        rw [alive_append_singleton]
        exact herase
      orderly := by
        refine h.orderly.append_singleton ?_ ?_
        · exact (List.length_erase_le).trans (h.orderly.length_alive_le log (List.prefix_refl log))
        · rintro _ ⟨⟩
          rw [halive]
          exact List.mem_append_right _ List.mem_cons_self }

/-! ### Logs -/

abbrev Logged := StateT (List Event) Session

/-- Start a command, and add the event to the log. -/
def startLogged (limit : Option Duration) : Ticket → Logged Session.Started :=
  fun (i, command) => do
    let started ← Session.start command limit
    modify (· ++ [Event.ofStarted i started])
    return started

/-- Look whether a program has finished, and add the event to the log if it has. -/
def lookLogged (schedule : Nat → Nat → Bool) (round i : Nat) : Logged Bool := do
  if schedule round i then modify (· ++ [Event.finished i])
  return schedule round i

def runLogged (size : Nat) (limit : Option Duration) (schedule : Nat → Nat → Bool) (n : Nat)
    (commands : List Command) : Logged Pool :=
  rounds (startLogged limit) (lookLogged schedule) size n 0 (.ofCommands commands)

/-- The events of a pool that runs a batch in a world, in at most the given number of rounds. -/
def events (size : Nat) (limit : Option Duration) (schedule : Nat → Nat → Bool) (n : Nat)
    (commands : List Command) (w : World) : List Event :=
  (runLogged size limit schedule n commands [] w).1.2

variable {schedule : Nat → Nat → Bool} {round : Nat}

lemma startLogged_apply (i : Nat) (command : Command) (log : List Event) (w : World) :
    startLogged limit (i, command) log w =
      (((Session.start command limit w).1,
        log ++ [Event.ofStarted i (Session.start command limit w).1]),
        (Session.start command limit w).2) := rfl

lemma lookLogged_apply (i : Nat) (log : List Event) (w : World) :
    lookLogged schedule round i log w =
      ((schedule round i, if schedule round i then log ++ [.finished i] else log), w) := by
  unfold lookLogged
  cases schedule round i <;> rfl

/-- How many commands of a pool are not finished. -/
def unfinished (p : Pool) : Nat := p.pending.length + p.running.length

/-- A refilled pool has no room or nothing pending. It has no more that is not finished, and what
was running still is. -/
structure Refilled (size : Nat) (before after : Pool) : Prop where
  full : after.pending = [] ∨ size ≤ after.running.length
  unfinished_le : after.unfinished ≤ before.unfinished
  running : before.running <+: after.running

lemma refilled_refill (size : Nat) (limit : Option Duration) (pending : List Ticket)
    (running ended : List Entry) (log : List Event) (w : World) :
    Refilled size ⟨pending, running, ended⟩
      (refill (startLogged limit) size pending running ended log w).1.1 := by
  -- on what is pending: a command that cannot be started leaves its place to the next one
  induction pending generalizing running ended log w with
  | nil => exact ⟨.inl rfl, le_rfl, List.prefix_refl _⟩
  | cons ticket pending ih =>
    obtain ⟨i, command⟩ := ticket
    rw [refill]
    split
    · simp only [Session.logged_bind_apply, startLogged_apply]
      rcases Session.start command limit w with ⟨error | outcome, w'⟩
      · obtain ⟨hfull, hle, hrunning⟩ :=
          ih running (ended ++ [(i, ⟨command.line, .error error⟩)]) (log ++ [.refused i]) w'
        refine ⟨hfull, hle.trans ?_, hrunning⟩
        simp [unfinished]
      · obtain ⟨hfull, hle, hrunning⟩ :=
          ih (running ++ [(i, ⟨command.line, outcome⟩)]) ended (log ++ [.launched i]) w'
        refine ⟨hfull, hle.trans ?_, (List.prefix_append _ _).trans hrunning⟩
        simp only [unfinished, List.length_append, List.length_cons, List.length_nil]
        omega
    · next hroom => exact ⟨.inr (Nat.le_of_not_lt hroom), le_rfl, List.prefix_refl _⟩

lemma refilled_of_eq {q : Pool} {log' : List Event}
    (h : refill (startLogged limit) size p.pending p.running p.finished log w = ((q, log'), w')) :
    Refilled size p q := by
  have hrefilled := refilled_refill size limit p.pending p.running p.finished log w
  rwa [h] at hrefilled

lemma Accounts.refill
    (h : Accounts size limit commands w₀ k ⟨pending, running, ended⟩ log w) :
    ∃ k, Accounts size limit commands w₀ k
      (Pool.refill (startLogged limit) size pending running ended log w).1.1
      (Pool.refill (startLogged limit) size pending running ended log w).1.2
      (Pool.refill (startLogged limit) size pending running ended log w).2 := by
  induction pending generalizing k running ended log w with
  | nil => exact ⟨k, h⟩
  | cons ticket pending ih =>
    obtain ⟨i, command⟩ := ticket
    rw [Pool.refill]
    split
    · next hroom =>
      simp only [Session.logged_bind_apply, startLogged_apply]
      cases hstart : Session.start command limit w with
      | mk started w' =>
        cases started with
        | failed error => exact ih (h.refused hstart)
        | running outcome => exact ih (h.launched hroom hstart)
    · exact ⟨k, h⟩

/-- A pool without the programs that have finished. -/
def swept (finishes : Nat → Bool) (p : Pool) : Pool where
  pending := p.pending
  running := p.running.filter (!finishes ·.1)
  finished := p.finished ++ p.running.filter (finishes ·.1)

lemma unfinished_swept_le (finishes : Nat → Bool) (p : Pool) :
    (p.swept finishes).unfinished ≤ p.unfinished :=
  Nat.add_le_add_left (List.length_filter_le _ _) _

lemma unfinished_swept_lt {finishes : Nat → Bool} {entry : Entry} (hentry : entry ∈ p.running)
    (hfinishes : finishes entry.1 = true) : (p.swept finishes).unfinished < p.unfinished := by
  refine Nat.add_lt_add_left (List.length_filter_lt_length_iff_exists.2 ⟨entry, hentry, ?_⟩) _
  rw [hfinishes]
  exact Bool.false_ne_true

/-- The events of looking at some programs. -/
def looks (finishes : Nat → Bool) (running : List Entry) : List Event :=
  (running.filter (finishes ·.1)).map (.finished ·.1)

lemma sweep_lookLogged (pending : List Ticket) (running still ended : List Entry)
    (log : List Event) (w : World) :
    sweep (lookLogged schedule round) pending running still ended log w =
      ((⟨pending, still ++ running.filter (!schedule round ·.1),
        ended ++ running.filter (schedule round ·.1)⟩,
          log ++ looks (schedule round) running), w) := by
  induction running generalizing still ended log with
  | nil => simp [sweep, Session.logged_pure_apply, looks]
  | cons entry running ih =>
    obtain ⟨i, result⟩ := entry
    simp only [sweep, Session.logged_bind_apply, lookLogged_apply]
    cases hfinishes : schedule round i <;> simp [hfinishes, ih, looks]

lemma Accounts.sweep (still : List Entry)
    (h : Accounts size limit commands w₀ k ⟨pending, still ++ running, ended⟩ log w) :
    Accounts size limit commands w₀ k
      (Pool.sweep (lookLogged schedule round) pending running still ended log w).1.1
      (Pool.sweep (lookLogged schedule round) pending running still ended log w).1.2
      (Pool.sweep (lookLogged schedule round) pending running still ended log w).2 := by
  induction running generalizing still ended log with
  | nil => simpa [Pool.sweep, Session.logged_pure_apply] using h
  | cons entry running ih =>
    obtain ⟨i, result⟩ := entry
    simp only [Pool.sweep, Session.logged_bind_apply, lookLogged_apply]
    cases schedule round i with
    | true => exact ih still h.finished
    | false =>
      refine ih (still ++ [(i, result)]) ?_
      rwa [List.append_assoc]

/-- A pool accounts for what it has done after any number of rounds. -/
lemma Accounts.rounds (schedule : Nat → Nat → Bool) (n round : Nat)
    (h : Accounts size limit commands w₀ k p log w) :
    ∃ k, Accounts size limit commands w₀ k
      (Pool.rounds (startLogged limit) (lookLogged schedule) size n round p log w).1.1
      (Pool.rounds (startLogged limit) (lookLogged schedule) size n round p log w).1.2
      (Pool.rounds (startLogged limit) (lookLogged schedule) size n round p log w).2 := by
  induction n generalizing k round p log w with
  | zero => exact ⟨k, h⟩
  | succ n ih =>
    obtain ⟨k, h⟩ := Accounts.refill h
    simp only [Pool.rounds, Session.logged_bind_apply]
    split
    · exact ⟨k, h⟩
    · exact ih _ (Accounts.sweep [] h)

/-! ### The end of a pool -/

/-- Every program is found finished at some time. -/
def Fair (schedule : Nat → Nat → Bool) : Prop :=
  ∀ round i, ∃ delay, schedule (round + delay) i = true

/-- A pool whose run does not change when it is given more rounds, with nothing left to do. -/
def Ends (size : Nat) (limit : Option Duration) (schedule : Nat → Nat → Bool) (n round : Nat)
    (p : Pool) (log : List Event) (w : World) : Prop :=
  ∃ q log' w', (∀ m ≥ n, rounds (startLogged limit) (lookLogged schedule) size m round p log w =
    ((q, log'), w')) ∧ q.pending = [] ∧ q.running = []

section Ends

variable {n : Nat} {q : Pool} {log' : List Event}

/-- A pool ends if it runs nothing when it has been refilled. -/
lemma ends_of_running_eq_nil (hsize : 0 < size)
    (hrefill : Pool.refill (startLogged limit) size p.pending p.running p.finished log w =
      ((q, log'), w')) (hidle : q.running = []) :
    Ends size limit schedule (n + 1) round p log w := by
  refine ⟨q, log', w', fun m hm => ?_, ?_, hidle⟩
  · obtain ⟨m, rfl⟩ := Nat.exists_eq_add_of_le' hm
    simp only [rounds, Session.logged_bind_apply, hrefill, hidle]
    rfl
  · -- there is room, so nothing is pending
    rcases (refilled_of_eq hrefill).full with hpending | hfull
    · exact hpending
    · rw [hidle] at hfull
      exact absurd hsize (Nat.not_lt_of_le hfull)

/-- A pool ends if it ends behind its next round. -/
lemma Ends.succ
    (hrefill : Pool.refill (startLogged limit) size p.pending p.running p.finished log w =
      ((q, log'), w')) (hrunning : q.running ≠ [])
    (h : Ends size limit schedule n (round + 1) (q.swept (schedule round))
      (log' ++ looks (schedule round) q.running) w') :
    Ends size limit schedule (n + 1) round p log w := by
  obtain ⟨r, log'', w'', hr, hdone⟩ := h
  refine ⟨r, log'', w'', fun m hm => ?_, hdone⟩
  obtain ⟨m, rfl⟩ := Nat.exists_eq_add_of_le' hm
  simp only [rounds, Session.logged_bind_apply, hrefill,
    List.isEmpty_iff, hrunning, if_false, sweep_lookLogged]
  exact hr (m + n) (Nat.le_add_left n m)

/-- A pool whose programs are found finished at once has as many rounds as commands, and one more
to find that nothing is left. -/
lemma ends_of_forall (hsize : 0 < size) (hall : ∀ round i, schedule round i = true) (n : Nat)
    (hn : p.unfinished ≤ n) : Ends size limit schedule (n + 1) round p log w := by
  induction n generalizing round p log w with
  | zero =>
    have hle := (refilled_refill size limit p.pending p.running p.finished log w).unfinished_le
    refine ends_of_running_eq_nil hsize rfl (List.length_eq_zero_iff.1 ?_)
    exact Nat.le_zero.1 ((Nat.le_add_left _ _).trans (hle.trans hn))
  | succ n ih =>
    generalize hrefill :
      Pool.refill (startLogged limit) size p.pending p.running p.finished log w = refilled
    obtain ⟨⟨q, log'⟩, w'⟩ := refilled
    cases hrunning : q.running with
    | nil => exact ends_of_running_eq_nil hsize hrefill hrunning
    | cons entry rest =>
      have hentry : entry ∈ q.running := hrunning ▸ List.mem_cons_self
      have hlt := unfinished_swept_lt hentry (hall round entry.1)
      have hle := (refilled_of_eq hrefill).unfinished_le
      exact Ends.succ hrefill (List.ne_nil_of_mem hentry) (ih (by omega))

/-- A pool ends if a program that runs when it has been refilled is found finished after some
rounds, and every pool with fewer commands left ends. -/
lemma exists_ends_of_delay {u : Nat} (hfewer : ∀ round p log w, p.unfinished < u →
      ∃ n, Ends size limit schedule n round p log w) (delay : Nat) (hu : p.unfinished ≤ u)
    (hrefill : Pool.refill (startLogged limit) size p.pending p.running p.finished log w =
      ((q, log'), w')) {entry : Entry} (hentry : entry ∈ q.running)
    (hfinishes : schedule (round + delay) entry.1 = true) :
    ∃ n, Ends size limit schedule n round p log w := by
  induction delay generalizing round p log w q log' w' with
  | zero =>
    have hle := (refilled_of_eq hrefill).unfinished_le
    have hlt : (q.swept (schedule round)).unfinished < q.unfinished :=
      unfinished_swept_lt hentry hfinishes
    obtain ⟨n, h⟩ := hfewer (round + 1) (q.swept (schedule round))
      (log' ++ looks (schedule round) q.running) w' (by omega)
    exact ⟨n + 1, h.succ hrefill (List.ne_nil_of_mem hentry)⟩
  | succ delay ih =>
    suffices h : ∃ n, Ends size limit schedule n (round + 1) (q.swept (schedule round))
        (log' ++ looks (schedule round) q.running) w' by
      obtain ⟨n, h⟩ := h
      exact ⟨n + 1, h.succ hrefill (List.ne_nil_of_mem hentry)⟩
    have hle := (refilled_of_eq hrefill).unfinished_le
    cases hnow : schedule round entry.1 with
    | true =>
      have hlt := unfinished_swept_lt hentry hnow
      exact hfewer _ _ _ _ (by omega)
    | false =>
      -- the program still runs in the next round
      have hmem : entry ∈ (q.swept (schedule round)).running := by
        simpa [swept, hnow] using hentry
      have hswept := unfinished_swept_le (schedule round) q
      have hfinishes : schedule (round + 1 + delay) entry.1 = true := by
        rwa [Nat.add_assoc, Nat.add_comm 1]
      exact ih (by omega) rfl ((refilled_of_eq rfl).running.subset hmem) hfinishes

/-- A pool ends if every program is found finished at some time. -/
lemma exists_ends (limit : Option Duration) (hsize : 0 < size) (hfair : Fair schedule)
    (round : Nat) (p : Pool) (log : List Event) (w : World) :
    ∃ n, Ends size limit schedule n round p log w := by
  induction hu : p.unfinished using Nat.strong_induction_on generalizing round p log w with
  | _ u ih =>
    generalize hrefill :
      Pool.refill (startLogged limit) size p.pending p.running p.finished log w = refilled
    obtain ⟨⟨q, log'⟩, w'⟩ := refilled
    cases hrunning : q.running with
    | nil => exact ⟨0 + 1, ends_of_running_eq_nil hsize hrefill hrunning⟩
    | cons entry rest =>
      obtain ⟨delay, hfinishes⟩ := hfair round entry.1
      have hentry : entry ∈ q.running := hrunning ▸ List.mem_cons_self
      exact exists_ends_of_delay (fun round p log w hlt => ih _ hlt round p log w rfl) delay hu.le
        hrefill hentry hfinishes

end Ends

/-! ### What a pool comes to -/

/-- A pool that has nothing left to do accounts for the whole batch. -/
lemma Accounts.of_done (h : Accounts size limit commands w₀ k p log w) (hpending : p.pending = [])
    (hrunning : p.running = []) :
    p.finished.Perm (numbered (Session.runSequentially limit commands w₀).1) ∧
      w = (Session.runSequentially limit commands w₀).2 ∧
      log.filterMap Event.attempt? = List.range commands.length ∧ Pool.alive log = [] ∧
      Orderly size log := by
  have hk : k = commands.length := by
    refine le_antisymm h.le ?_
    have hdrop := List.drop_eq_nil_iff.1 (h.pending_eq.symm.trans hpending)
    simpa [tickets] using hdrop
  have hentries := h.entries
  have hworld := h.world_eq
  have halive := h.alive_eq
  rw [hk, List.take_length] at hentries hworld
  rw [hrunning] at hentries halive
  exact ⟨hentries, hworld, hk ▸ h.attempts, halive, h.orderly⟩

lemma refill_eq (limit : Option Duration) (pending : List Ticket) (running ended : List Entry)
    (log : List Event) (w : World) :
    Pool.refill (m := Session) (fun ticket => Session.start ticket.2 limit) size pending
        running ended w =
      ((Pool.refill (startLogged limit) size pending running ended log w).1.1,
        (Pool.refill (startLogged limit) size pending running ended log w).2) := by
  induction pending generalizing running ended log w with
  | nil => rfl
  | cons ticket pending ih =>
    obtain ⟨i, command⟩ := ticket
    simp only [Pool.refill]
    split
    · simp only [Session.bind_apply, Session.logged_bind_apply, startLogged_apply]
      rcases Session.start command limit w with ⟨error | outcome, w'⟩
      · exact ih ..
      · exact ih ..
    · rfl

lemma sweep_eq (pending : List Ticket) (running still ended : List Entry) (log : List Event)
    (w : World) :
    Pool.sweep (m := Session) (fun i => pure (schedule round i)) pending running still ended w =
      ((Pool.sweep (lookLogged schedule round) pending running still ended log w).1.1,
        (Pool.sweep (lookLogged schedule round) pending running still ended log w).2) := by
  induction running generalizing still ended log with
  | nil => rfl
  | cons entry running ih =>
    obtain ⟨i, result⟩ := entry
    simp only [Pool.sweep, Session.bind_apply, Session.pure_apply, Session.logged_bind_apply,
      lookLogged_apply]
    cases schedule round i with
    | true => exact ih ..
    | false => exact ih ..

lemma rounds_eq (n : Nat) (p : Pool) (log : List Event) (w : World) :
    Pool.rounds (m := Session) (fun ticket => Session.start ticket.2 limit)
        (fun round i => pure (schedule round i)) size n round p w =
      ((Pool.rounds (startLogged limit) (lookLogged schedule) size n round p log w).1.1,
        (Pool.rounds (startLogged limit) (lookLogged schedule) size n round p log w).2) := by
  induction n generalizing round p log w with
  | zero => rfl
  | succ n ih =>
    simp only [Pool.rounds, Session.bind_apply, Session.logged_bind_apply,
      refill_eq limit p.pending p.running p.finished log w]
    generalize Pool.refill (startLogged limit) size p.pending p.running p.finished log w = refilled
    obtain ⟨⟨q, log'⟩, w'⟩ := refilled
    dsimp only
    split
    · rfl
    · rw [Session.bind_apply, Session.logged_bind_apply,
        sweep_eq q.pending q.running [] q.finished log' w']
      exact ih ..

/-- A log changes neither what a pool comes to nor the world that it leaves. -/
theorem runLogged_apply (size : Nat) (limit : Option Duration) (schedule : Nat → Nat → Bool)
    (n : Nat) (commands : List Command) (w : World) :
    runLogged size limit schedule n commands [] w =
      (((run size limit schedule n commands w).1, events size limit schedule n commands w),
        (run size limit schedule n commands w).2) := by
  rw [run, rounds_eq n (ofCommands commands) [] w]
  rfl

end Pool

end TimedPatterns
