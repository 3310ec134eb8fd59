import TimedPatterns.World

/-!
# Batches

Running a batch of commands that do not depend on each other. There is one result for each
command, in the order of the commands, whatever became of the others.

A batch is run one command after the other, by a pool of processes or by a pool of threads. A pool
of processes starts commands in order as long as it has room for another running program, then
looks which of the running ones have finished, and so on until none is left. Which ones have
finished is not up to the pool: it is given by a schedule. The threads of a pool come to the
commands in an order that is not up to the pool either. The results depend on neither.
-/

namespace TimedPatterns

/-- How a batch is run: one command after the other, by a pool of processes, or by a pool of
threads that each run one command after the other. -/
inductive Mode where
  | sequential
  | processPool
  | threadPool
  deriving DecidableEq, Repr

def Mode.defaultSize (m : Mode) (processors : Nat) : Nat :=
  match m with
  | .sequential => 1
  | .processPool => processors
  | .threadPool => 2 * processors

/-- A command with its position in the batch. -/
abbrev Ticket := Nat × Command

abbrev Entry := Nat × CommandResult

def tickets (commands : List Command) : List Ticket := commands.mapIdx fun i command => (i, command)

/-- The results in the order of the commands, of which there are `count`. -/
def inOrder (count : Nat) (entries : List Entry) : List CommandResult :=
  (List.range count).filterMap fun i => entries.lookup i

/-! ### Pools of processes -/

/-- The commands that are still to be started, the programs that are running, with what will come
of them, and the results there are. -/
structure Pool where
  pending : List Ticket
  running : List Entry
  finished : List Entry

namespace Pool

def ofCommands (commands : List Command) : Pool := ⟨tickets commands, [], []⟩

section Rounds

variable {m : Type → Type} [Monad m]

/-- Start commands as long as there is room. A command that cannot be started is finished at
once. -/
def refill (start : Ticket → m Session.Started) (size : Nat) :
    List Ticket → List Entry → List Entry → m Pool
  | [], running, finished => return ⟨[], running, finished⟩
  | (i, command) :: pending, running, finished =>
    if running.length < size then do
      match ← start (i, command) with
      | .failed error =>
        refill start size pending running (finished ++ [(i, ⟨command.line, .error error⟩)])
      | .running outcome =>
        refill start size pending (running ++ [(i, ⟨command.line, outcome⟩)]) finished
    else return ⟨(i, command) :: pending, running, finished⟩

/-- Look at one running program after the other, and take out those that have finished. `still`
are those that have been looked at and go on. -/
def sweep (look : Nat → m Bool) (pending : List Ticket) :
    List Entry → List Entry → List Entry → m Pool
  | [], still, finished => return ⟨pending, still, finished⟩
  | (i, result) :: running, still, finished => do
    if ← look i then sweep look pending running still (finished ++ [(i, result)])
    else sweep look pending running (still ++ [(i, result)]) finished

/-- Run the pool for at most the given number of rounds, which are counted on from `round`. How a
command is started, and whether a program has finished, is left to the caller. -/
def rounds (start : Ticket → m Session.Started) (look : Nat → Nat → m Bool) (size : Nat) :
    Nat → Nat → Pool → m Pool
  | 0, _, p => return p
  | n + 1, round, p => do
    let p ← refill start size p.pending p.running p.finished
    if p.running.isEmpty then return p
    else do
      let p ← sweep (look round) p.pending p.running [] p.finished
      rounds start look size n (round + 1) p

end Rounds

/-- Run a batch by a pool for at most the given number of rounds. `schedule` says which of the
running programs are found finished in which round. -/
def run (size : Nat) (limit : Option Duration) (schedule : Nat → Nat → Bool) (n : Nat)
    (commands : List Command) : Session Pool :=
  rounds (fun ticket => Session.start ticket.2 limit) (fun round i => pure (schedule round i))
    size n 0 (.ofCommands commands)

end Pool

namespace Session

/-! ### Modes -/

def runSequentially (limit : Option Duration) (commands : List Command) :
    Session (List CommandResult) :=
  commands.mapM (Session.result limit)

/-- Run a batch by a pool whose programs are found finished when it first looks. Nothing is lost by
this choice of a schedule: commands are started in order, and a program has done what it does when
it is started, so with any other schedule of `Pool.run` that finds each program finished at some
time, the results and the world are the same. -/
def runPool (size : Nat) (limit : Option Duration) (commands : List Command) :
    Session (List CommandResult) := do
  let p ← Pool.run size limit (fun _ _ => true) (commands.length + 1) commands
  return inOrder commands.length p.finished

def entry (limit : Option Duration) (ticket : Ticket) : Session Entry := do
  return (ticket.1, ← result limit ticket.2)

/-- Run the commands of a batch in the order in which threads come to them. The results do not
depend on the order if what becomes of a command does not. -/
def runThreads (limit : Option Duration) (order : List Ticket) : Session (List CommandResult) := do
  let entries ← order.mapM (entry limit)
  return inOrder order.length entries

/-- Run a batch. A pool has room for at least one program. Of the schedules of a pool of processes
and the orders of a pool of threads, one stands for all: finished at once, and first come first
served. -/
def runBatch (mode : Mode) (size : Option Nat) (limit : Option Duration)
    (commands : List Command) : Session (List CommandResult) := do
  let size := max 1 (size.getD (mode.defaultSize (← get).processors))
  match mode with
  | .sequential => runSequentially limit commands
  | .processPool => runPool size limit commands
  | .threadPool => runThreads limit (tickets commands)

end Session

end TimedPatterns
