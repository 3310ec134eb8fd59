import TimedPatterns.Proofs.Artifacts
import TimedPatterns.Search.Run

/-!
# Activities

A session is carried out as a whole. Where several are carried out at once, in the threads of one
process, each of them goes on while another waits, and then only single steps are carried out as a
whole. An activity is a session in such steps: what it does next, and how it goes on with the reply.

In two of the steps a family of files begins. Its directory is made or found there; and it is given
the next tag, and with the tag the paths of all its files. Nothing but files at the paths that have
been given to it is written by an activity, or by the programs that it runs.
-/

namespace TimedPatterns

/-! ### Families -/

namespace Artifacts

/-- Make the directory of a family: the given one, if it is not there, or a temporary one. -/
def settle (hold : Bool) (directory : String) : Session (Except SystemError String) := do
  if hold then return (← Session.makeDirectories directory).map fun _ => directory
  else freshScope

/-- A family begins as soon as it has a directory. -/
lemma create_apply (hold : Bool) (directory stem : String) (w : World) :
    create hold directory stem w =
      match settle hold directory w with
      | (.error error, w') => (.error error, w')
      | (.ok place, w') => (.ok ⟨place, hold, (freshTag stem w').1⟩, (freshTag stem w').2) := by
  cases hold with
  | false =>
    simp only [create, settle, Bool.false_eq_true, if_false, Session.bind_apply]
    rcases freshScope w with ⟨error | place, w'⟩ <;> rfl
  | true =>
    simp only [create, settle, if_true, Session.bind_apply, Session.pure_apply]
    rcases Session.makeDirectories directory w with ⟨error | made, w'⟩ <;> rfl

end Artifacts

/-- What a family of files is for: the model of a search with templates added to it, a run of the
verifier that asks for a kind of witness, or the rendering of a compact witness. -/
inductive Purpose where
  | model (s : Search)
  | query (s : Search) (kind : Diagnostic)
  | rendering (o : Extraction.Options) (witness : String)

namespace Purpose

def held : Purpose → Bool
  | model s | query s _ => s.hold
  | rendering o _ => o.hold

def directory : Purpose → String
  | model s | query s _ => s.directory
  | rendering _ witness => Path.directory witness

def stem : Purpose → String
  | model _ => "model"
  | query _ _ => "query"
  | rendering _ witness => (Path.stem? witness).getD "trace"

/-- The paths of the files: the model; the query, the output of the verifier and the witness; the
compiled model and the rendering. -/
def paths (a : Artifacts) : Purpose → List String
  | model s => [a.file ((Path.extension? s.model).getD "xml")]
  | query s kind =>
    [a.file "q", a.file "log", s.settings.format.witnessPath (a.start s!"t{kind.value}")]
  | rendering _ _ => [a.file "if", a.file "txt"]

end Purpose

/-! ### Calls -/

/-- What is carried out as a whole: a directory for a family is made, a family is given its tag or
is released, a file is read or written, a program is run. -/
inductive Call where
  | settle (p : Purpose)
  | begin (p : Purpose) (directory : String)
  | release (a : Artifacts)
  | read (path : String)
  | write (path text : String)
  | run (command : Command) (limit : Option Duration)

namespace Call

/-- What is learnt from a call. -/
def Reply : Call → Type
  | settle _ => Except SystemError String
  | begin _ _ => Artifacts
  | release _ => Unit
  | read _ => Except SystemError String
  | write _ _ => Except SystemError Unit
  | run _ _ => Except ToolError Output

/-- Carry out a call. -/
def perform : (c : Call) → Session c.Reply
  | settle p => Artifacts.settle p.held p.directory
  | begin p directory => do return ⟨directory, p.held, ← Artifacts.freshTag p.stem⟩
  | release a => a.release
  | read path => Session.readText path
  | write path text => Session.writeText path text
  | run command limit => Session.run command limit

/-- The paths that are given away with the reply. -/
def given : (c : Call) → c.Reply → List String
  | begin p _, a => p.paths a
  | _, _ => []

/-- The paths of the files that are written: by the call itself, or as the witness that a program
is asked for. -/
def written : Call → List String
  | write path _ => [path]
  | run command _ => (RecordedRun.witnessPath? command).toList
  | _ => []

end Call

/-! ### Activities -/

/-- A session in steps. -/
inductive Activity (α : Type) where
  | done (a : α)
  | call (c : Call) (next : c.Reply → Activity α)

namespace Activity

variable {α β ε : Type}

/-- Go on with the result of an activity. -/
def bind : Activity α → (α → Activity β) → Activity β
  | done a, f => f a
  | call c next, f => call c fun reply => (next reply).bind f

instance : Monad Activity where
  pure := done
  bind := bind

instance : LawfulMonad Activity := by
  refine LawfulMonad.mk' Activity (fun x => ?_) (fun a f => rfl) fun x f g => ?_
  · induction x with
    | done a => rfl
    | call c next ih => exact congrArg (call c) (funext ih)
  · induction x with
    | done a => rfl
    | call c next ih => exact congrArg (call c) (funext ih)

/-! ### Single calls -/

/-- Make the directory of a family, or find it there. -/
def settle (p : Purpose) : Activity (Except SystemError String) := call (.settle p) done

/-- Begin a family in a directory. -/
def begin (p : Purpose) (directory : String) : Activity Artifacts :=
  call (.begin p directory) done

def release (a : Artifacts) : Activity Unit := call (.release a) done

def read (path : String) : Activity (Except SystemError String) := call (.read path) done

def write (path text : String) : Activity (Except SystemError Unit) :=
  call (.write path text) done

def run (command : Command) (limit : Option Duration) : Activity (Except ToolError Output) :=
  call (.run command limit) done

def within (p : Purpose) (onError : SystemError → ε) (use : Artifacts → Activity (Except ε α)) :
    Activity (Except ε α) := do
  match ← settle p with
  | .error error => return .error (onError error)
  | .ok directory =>
    let a ← begin p directory
    let result ← use a
    release a
    return result

/-! ### Carrying out an activity -/

/-- Carry out an activity as a whole. -/
def perform : Activity α → Session α
  | done a => pure a
  | call c next => c.perform >>= fun reply => (next reply).perform

/-- Carry out one step of an activity: the paths that are given to it, what is left of it, and the
world it is left in. -/
def step : Activity α → World → List String × Activity α × World
  | done a, w => ([], done a, w)
  | call c next, w => (c.given (c.perform w).1, next (c.perform w).1, (c.perform w).2)

/-- The paths of the files that are written in the next step. -/
def written : Activity α → List String
  | done _ => []
  | call c _ => c.written

/-- Carry out one step, whatever paths are given. -/
def advance (state : Activity α × World) : Activity α × World := (state.1.step state.2).2

/-- An activity that is carried out step by step, with nothing else in between, comes to the result
of the whole, and leaves the same world. -/
lemma exists_iterate_advance (x : Activity α) (w : World) :
    ∃ n, advance^[n] (x, w) = (done (x.perform w).1, (x.perform w).2) := by
  induction x generalizing w with
  | done a => exact ⟨0, rfl⟩
  | call c next ih =>
    obtain ⟨n, hn⟩ := ih (c.perform w).1 (c.perform w).2
    exact ⟨n + 1, hn⟩

lemma perform_bind (x : Activity α) (f : α → Activity β) :
    (x >>= f).perform = x.perform >>= fun a => (f a).perform := by
  induction x with
  | done a => rfl
  | call c next ih =>
    refine Eq.trans ?_ (bind_assoc _ _ _).symm
    exact congrArg (c.perform >>= ·) (funext ih)

/-- An activity is carried out like a session if its steps are. -/
lemma perform_bind_of {x : Activity α} {f : α → Activity β} {session : Session α}
    {next : α → Session β} (hx : x.perform = session) (hf : ∀ a, (f a).perform = next a) :
    (x >>= f).perform = session >>= next := by
  rw [perform_bind, hx]
  exact congrArg (session >>= ·) (funext hf)

lemma perform_mapM {f : α → Activity β} {g : α → Session β} (h : ∀ a, (f a).perform = g a)
    (l : List α) : (l.mapM f).perform = l.mapM g := by
  induction l with
  | nil => rfl
  | cons a l ih =>
    rw [List.mapM_cons, List.mapM_cons]
    exact perform_bind_of (h a) fun b => perform_bind_of ih fun bs => rfl

lemma perform_within {p : Purpose} {onError : SystemError → ε}
    {use : Artifacts → Activity (Except ε α)} {session : Artifacts → Session (Except ε α)}
    (huse : ∀ a, (use a).perform = session a) :
    (within p onError use).perform =
      Artifacts.within p.held p.directory p.stem onError session := by
  funext w
  rw [Artifacts.within_apply, Artifacts.create_apply, within, perform_bind, Session.bind_apply]
  have hsettle : (settle p).perform w = Artifacts.settle p.held p.directory w := rfl
  rw [hsettle]
  rcases Artifacts.settle p.held p.directory w with ⟨error | directory, w'⟩
  · rfl
  · simp only [perform_bind, huse]
    rfl

/-! ### Where an activity writes -/

/-- An activity writes nothing but files at the paths that are given to it, beside those that have
been given to it before. -/
def KeepsTo : Activity α → List String → Prop
  | done _, _ => True
  | call c next, given =>
    c.written ⊆ given ∧ ∀ reply, (next reply).KeepsTo (given ++ c.given reply)

variable {x : Activity α} {f : α → Activity β} {given given' : List String}

lemma KeepsTo.mono (h : x.KeepsTo given) (hsubset : given ⊆ given') : x.KeepsTo given' := by
  induction x generalizing given given' with
  | done a => trivial
  | call c next ih =>
    obtain ⟨hwritten, hnext⟩ := h
    refine ⟨List.Subset.trans hwritten hsubset, fun reply => ih reply (hnext reply) ?_⟩
    exact List.append_subset.2 ⟨List.subset_append_of_subset_left _ hsubset,
      List.subset_append_right _ _⟩

/-- What an activity keeps to, it keeps to step by step. -/
lemma KeepsTo.step (h : x.KeepsTo given) (w : World) :
    x.written ⊆ given ∧ (x.step w).2.1.KeepsTo (given ++ (x.step w).1) := by
  cases x with
  | done a => exact ⟨List.nil_subset _, trivial⟩
  | call c next => exact ⟨h.1, h.2 _⟩

lemma keepsTo_call {c : Call} (hwritten : c.written ⊆ given) : (call c done).KeepsTo given :=
  ⟨hwritten, fun _ => trivial⟩

/-- What is given to an activity can be used by what goes on behind it. -/
lemma KeepsTo.bind (h : x.KeepsTo given)
    (hf : ∀ a given', given ⊆ given' → (f a).KeepsTo given') : (x >>= f).KeepsTo given := by
  induction x generalizing given with
  | done a => exact hf a given (List.Subset.refl given)
  | call c next ih =>
    refine ⟨h.1, fun reply => ih reply (h.2 reply) fun a given' hsubset => ?_⟩
    exact hf a given' (List.Subset.trans (List.subset_append_left _ _) hsubset)

lemma keepsTo_mapM {l : List α} (h : ∀ a ∈ l, (f a).KeepsTo given) :
    (l.mapM f).KeepsTo given := by
  induction l with
  | nil => trivial
  | cons a l ih =>
    obtain ⟨ha, hl⟩ := List.forall_mem_cons.1 h
    rw [List.mapM_cons]
    exact ha.bind fun b given' hsubset => ((ih hl).mono hsubset).bind fun _ _ _ => trivial

/-- With a family, the paths of its files are given. -/
lemma keepsTo_within {p : Purpose} {onError : SystemError → ε}
    {use : Artifacts → Activity (Except ε α)}
    (huse : ∀ a given', given ⊆ given' → p.paths a ⊆ given' → (use a).KeepsTo given') :
    (within p onError use).KeepsTo given := by
  refine ⟨List.nil_subset _, fun made => ?_⟩
  have hsettled : given ++ (Call.settle p).given made = given := List.append_nil given
  rw [hsettled]
  cases made with
  | error error => trivial
  | ok directory =>
    refine ⟨List.nil_subset _, fun a => ?_⟩
    have hkeeps := huse a _ (List.subset_append_left _ _) (List.subset_append_right _ _)
    exact hkeeps.bind fun _ _ _ => ⟨List.nil_subset _, fun _ => trivial⟩

end Activity

end TimedPatterns
