import Mathlib.Data.List.Forall2
import TimedPatterns.Proofs.Search.Tally
import TimedPatterns.Recording
import TimedPatterns.Search.Run

/-!
# Twins

Of two runs of a search, one has its files in a directory and the other one in temporary
directories. What they do and what they come to are twins if they are the same but for the paths of
such files: the commands that are run, and the errors that say which file or command is meant.

A verifier ignores paths if its answers depend on the question and on the texts of the files that it
is given, and if it writes nothing but the witness that it is asked for.
-/

namespace TimedPatterns

variable {directory scratch : String} {ε α β : Type}

/-! ### Paths and commands -/

/-- Two paths are the same, or those of files of one name, in a directory and in a temporary one. -/
inductive TwinPath (directory scratch : String) : String → String → Prop
  | same (path : String) : TwinPath directory scratch path path
  | artifact (name : String) (number : Nat) : TwinPath directory scratch
      (Path.join directory name) (Path.join (Artifacts.scopeOf scratch number) name)

/-- Two commands are the same but for the paths of files. -/
structure Command.Twin (directory scratch : String) (c c' : Command) : Prop where
  program : c.program = c'.program
  environment : c.environment = c'.environment
  arguments : List.Forall₂ (TwinPath directory scratch) c.arguments c'.arguments

structure Launched.Twin (directory scratch : String) (l l' : Launched) : Prop where
  command : l.command.Twin directory scratch l'.command
  limit : l.limit = l'.limit

lemma Command.Twin.refl (c : Command) : c.Twin directory scratch c :=
  ⟨rfl, rfl, List.forall₂_same.2 fun path _ => .same path⟩

lemma Launched.Twin.refl (l : Launched) : l.Twin directory scratch l := ⟨.refl _, rfl⟩

/-! ### Results -/

/-- Two results are both errors or both none, and the errors or else the values are related. -/
inductive Agree (E : ε → ε → Prop) (V : α → α → Prop) : Except ε α → Except ε α → Prop
  | ok {a a' : α} (h : V a a') : Agree E V (.ok a) (.ok a')
  | error {e e' : ε} (h : E e e') : Agree E V (.error e) (.error e')

lemma Agree.mono {E : ε → ε → Prop} {V V' : α → α → Prop} {x x' : Except ε α} (h : Agree E V x x')
    (hV : ∀ a a', V a a' → V' a a') : Agree E V' x x' := by
  cases h with
  | ok h => exact .ok (hV _ _ h)
  | error h => exact .error h

lemma Agree.eq_ok {E : ε → ε → Prop} {a : α} {x : Except ε α} (h : Agree E Eq (.ok a) x) :
    x = .ok a := by
  cases h with
  | ok heq => rw [heq]

lemma Agree.symm {E : ε → ε → Prop} {x x' : Except ε α} (h : Agree E Eq x x') :
    Agree (fun e e' => E e' e) Eq x' x := by
  cases h with
  | ok heq => exact .ok heq.symm
  | error he => exact .error he

lemma Agree.refl {E : ε → ε → Prop} (hE : ∀ e, E e e) (x : Except ε α) : Agree E Eq x x := by
  cases x with
  | ok a => exact .ok rfl
  | error e => exact .error (hE e)

inductive ToolError.Twin (directory scratch : String) : ToolError → ToolError → Prop
  | same (e : ToolError) : Twin directory scratch e e
  | launch {c c' : Command} (h : c.Twin directory scratch c') (error : SystemError) :
      Twin directory scratch (.launch c.line error) (.launch c'.line error)
  | failure {c c' : Command} (h : c.Twin directory scratch c') (status : Option Int)
      (complaint : String) :
      Twin directory scratch (.failure c.line status complaint) (.failure c'.line status complaint)

inductive TraceError.Twin (directory scratch : String) : TraceError → TraceError → Prop
  | system (error : SystemError) : Twin directory scratch (.system error) (.system error)
  | malformed {path path' : String} (h : TwinPath directory scratch path path') (flaw : Flaw) :
      Twin directory scratch (.malformed path flaw) (.malformed path' flaw)
  | tool {e e' : ToolError} (h : e.Twin directory scratch e') :
      Twin directory scratch (.tool e) (.tool e')

inductive SearchError.Twin (directory scratch : String) : SearchError → SearchError → Prop
  | same (e : SearchError) : Twin directory scratch e e
  | tool {e e' : ToolError} (h : e.Twin directory scratch e') :
      Twin directory scratch (.tool e) (.tool e')
  | trace {e e' : TraceError} (h : e.Twin directory scratch e') :
      Twin directory scratch (.trace e) (.trace e')

/-- An error that says that there is no pattern names no path. -/
lemma SearchError.Twin.eq_noPattern_iff {query : String} {e e' : SearchError}
    (h : e.Twin directory scratch e') : e = .noPattern query ↔ e' = .noPattern query := by
  cases h with
  | same e => exact Iff.rfl
  | tool he => simp
  | trace he => simp

structure CommandResult.Twin (directory scratch : String) (r r' : CommandResult) : Prop where
  command : ∃ c c' : Command,
    c.Twin directory scratch c' ∧ r.command = c.line ∧ r'.command = c'.line
  outcome : Agree (ToolError.Twin directory scratch) Eq r.outcome r'.outcome

/-- Two courses of sessions have results that are related, and the same commands were run in them
but for the paths of files. -/
structure Alike (directory scratch : String) (R : α → α → Prop) (x x' : α × World) : Prop where
  result : R x.1 x'.1
  launched : List.Forall₂ (Launched.Twin directory scratch) x.2.launched x'.2.launched

/-! ### Contributions -/

inductive Contribution.Twin (directory scratch : String) : Contribution → Contribution → Prop
  | pattern (word : TimedWord) : Twin directory scratch (.pattern word) (.pattern word)
  | unsatisfied : Twin directory scratch .unsatisfied .unsatisfied
  | failed {e e' : SearchError} (h : e.Twin directory scratch e') :
      Twin directory scratch (.failed e) (.failed e')

structure Tally.Twin (directory scratch : String) (t t' : Tally) : Prop where
  found : t.found = t'.found
  fresh : t.fresh = t'.fresh
  unsatisfied : t.unsatisfied = t'.unsatisfied
  errors : List.Forall₂ (SearchError.Twin directory scratch) t.errors t'.errors

/-- Two searches go on from the same patterns, or end with answers that agree. -/
inductive Step.Twin (directory scratch : String) : Step → Step → Prop
  | again (p : Progress) : Twin directory scratch (.again p) (.again p)
  | finish {x x' : Answer} (h : Agree (SearchError.Twin directory scratch) Eq x x') :
      Twin directory scratch (.finish x) (.finish x')

variable {l : Limits} {query : Query} {t t' : Tally} {contributions contributions' : List Contribution}

lemma Tally.Twin.add (h : t.Twin directory scratch t') {c c' : Contribution}
    (hc : c.Twin directory scratch c') :
    (t.add l query c).Twin directory scratch (t'.add l query c') := by
  obtain ⟨hfound, hfresh, hunsatisfied, herrors⟩ := h
  cases hc with
  | pattern word =>
    simp only [Tally.add, ← hfound]
    split
    · exact ⟨hfound, hfresh, hunsatisfied, herrors⟩
    · exact ⟨rfl, congrArg (· + 1) hfresh, hunsatisfied, herrors⟩
  | unsatisfied => exact ⟨hfound, hfresh, rfl, herrors⟩
  | failed he => exact ⟨hfound, hfresh, hunsatisfied, List.rel_append herrors (.cons he .nil)⟩

lemma Tally.Twin.addAll (h : t.Twin directory scratch t')
    (hc : List.Forall₂ (Contribution.Twin directory scratch) contributions contributions') :
    (contributions.foldl (Tally.add l query) t).Twin directory scratch
      (contributions'.foldl (Tally.add l query) t') := by
  induction hc generalizing t t' with
  | nil => exact h
  | cons hc _ ih => exact ih (h.add hc)

lemma Tally.Twin.proceed (h : t.Twin directory scratch t') (stale : Nat) :
    t.proceed l stale = t'.proceed l stale := by
  rw [Tally.proceed, Tally.proceed, h.found, h.fresh, h.unsatisfied]

lemma Step.Twin.refl (step : Step) : step.Twin directory scratch step := by
  cases step with
  | again p => exact .again p
  | finish answer => exact .finish (.refl .same answer)

lemma Tally.Twin.step (h : t.Twin directory scratch t') (runs stale : Nat) :
    (t.step l runs stale).Twin directory scratch (t'.step l runs stale) := by
  have hproceed := h.proceed (l := l) stale
  obtain ⟨found, fresh, unsatisfied, errors⟩ := t
  obtain ⟨found', fresh', unsatisfied', errors'⟩ := t'
  obtain ⟨rfl, -, -, herrors⟩ := h
  cases herrors with
  | nil =>
    dsimp only [Tally.step]
    rw [hproceed]
    exact .refl _
  | cons he herrors =>
    dsimp only [Tally.step]
    rw [hproceed, List.length_cons, List.length_cons, herrors.length_eq]
    split_ifs
    · exact .finish (.error he)
    · exact .finish (.ok rfl)
    · exact .refl _

/-- A search goes on alike behind a round to which twins were contributed. -/
lemma Progress.twin_step (p : Progress) (l : Limits) (query : Query)
    (hc : List.Forall₂ (Contribution.Twin directory scratch) contributions contributions') :
    (p.step l query contributions).Twin directory scratch (p.step l query contributions') := by
  unfold Progress.step Tally.ofRound
  rw [← hc.length_eq]
  exact Tally.Twin.step (.addAll ⟨rfl, rfl, rfl, .nil⟩ hc) _ _

/-! ### Verifiers that ignore paths -/

/-- A program that is run by two commands gives the same answer but for the path of the witness, if
it writes one. -/
inductive Answers (c c' : Command) :
    Except SystemError Reaction → Except SystemError Reaction → Prop
  | fails (error : SystemError) : Answers c c' (.error error) (.error error)
  | silent {r : Reaction} (h : r.writes = []) : Answers c c' (.ok r) (.ok r)
  | witness (r : Reaction) {path path' : String} (content : Content)
      (h : RecordedRun.witnessPath? c = some path)
      (h' : RecordedRun.witnessPath? c' = some path') :
      Answers c c' (.ok { r with writes := [(path, content)] })
        (.ok { r with writes := [(path', content)] })

/-- Two commands put the same question: for a witness of the same kind with the same additional
arguments, for a compiled model, or for a readable witness; and what is read of the files that they
name is the same. -/
inductive Settings.Poses (settings : Settings) (f f' : Files) : Command → Command → Prop
  | check {kind : Diagnostic} {start start' : String} {arguments : List String}
      {model model' query query' : String} (hmodel : f'.read model' = f.read model)
      (hquery : f'.read query' = f.read query) :
      Poses settings f f'
        (settings.command (["-t", kind.value, settings.format.flag, start] ++ arguments ++
          [model, query]))
        (settings.command (["-t", kind.value, settings.format.flag, start'] ++ arguments ++
          [model', query']))
  | compile {model model' : String} (hmodel : f'.read model' = f.read model) :
      Poses settings f f' (settings.compileCommand model) (settings.compileCommand model')
  | render {compiled compiled' witness witness' : String}
      (hcompiled : f'.read compiled' = f.read compiled)
      (hwitness : f'.read witness' = f.read witness) :
      Poses settings f f' (settings.renderCommand compiled witness)
        (settings.renderCommand compiled' witness')

/-- The answers of the programs depend on the question, on the time they are given, and on how many
programs were run before; but not on the paths of the files. -/
def Behaviour.IgnoresPaths (settings : Settings) (b : Behaviour) : Prop :=
  ∀ (launched launched' : List Launched) (c c' : Command) (limit : Option Duration) (f f' : Files),
    launched.length = launched'.length → settings.Poses f f' c c' →
      Answers c c' (b launched c limit f) (b launched' c' limit f')

end TimedPatterns
