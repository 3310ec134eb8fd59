import TimedPatterns.Proofs.Search.Parallel

/-!
# Extracting with and without holding

An extraction that renders a witness needs a family with two files. It comes to the same trace
whether the files are held or not, if the model and the witness are read alike and the witness has
the same stem.
-/

namespace TimedPatterns

open Artifacts (tagOf)

namespace Layout

variable {κ : Type} {L : Layout κ} {F : Set Nat} {n : Nat} {a a' : Artifacts} {extension : String}
  {path path' model model' witness witness' : String}

/-! ### Files of families -/

/-- Two families share the file with an extension. -/
def Shares (L : Layout κ) (F : Set Nat) (a a' : Artifacts) (extension : String) : Prop :=
  ∃ key, L.Open F key ∧ a.file extension = L.heldPath key ∧ a'.file extension = L.scopedPath key

lemma file_family {key : κ} {stem : String}
    (hname : L.name key = tagOf stem L.world.processId n ++ "." ++ extension)
    (hnumber : L.number key = n) :
    (L.heldFamily stem n).file extension = L.heldPath key ∧
      (L.briefFamily stem n).file extension = L.scopedPath key := by
  rw [heldPath, scopedPath, hname, hnumber]
  exact ⟨rfl, rfl⟩

lemma Shares.reads (hshares : L.Shares F a a' extension) :
    L.Reads F (a.file extension) (a'.file extension) := by
  obtain ⟨key, hkey, hfile, hfile'⟩ := hshares
  rw [hfile, hfile']
  exact .artifact hkey

section Steps

variable (hL : L.Proper) (hroom : L.Room)
include hL hroom

lemma sync_write (hshares : L.Shares F a a' extension) (text : String) :
    L.Sync 0 F (fun r r' => r = .ok () ∧ r' = .ok ())
      (Session.writeText (a.file extension) text)
      (Session.writeText (a'.file extension) text) := by
  obtain ⟨key, hkey, hfile, hfile'⟩ := hshares
  rw [hfile, hfile']
  exact sync_writeText hL hroom hkey text

/-! ### Questions -/

omit hL in
lemma Reads.nul_mem_iff (hpath : L.Reads F path path') :
    '\x00' ∈ path'.toList ↔ '\x00' ∈ path.toList := by
  cases hpath with
  | given => rfl
  | artifact hkey =>
    obtain ⟨hheld, hbrief⟩ := not_mem_of_valid hroom hkey.valid
    exact iff_of_false hbrief hheld

lemma asks_compile (settings : Settings) (hmodel : L.Reads F model model') :
    L.Asks settings F (settings.compileCommand model) (settings.compileCommand model') where
  twin := ⟨rfl, rfl, .cons hmodel.twin .nil⟩
  nul := by simp [Command.hasNul, Settings.compileCommand, hmodel.nul_mem_iff hroom]
  poses _ _ _ hfiles := .compile (hmodel.read_eq hL hroom hfiles)
  witness _ _ h := by cases h

lemma asks_render (settings : Settings) (hmodel : L.Reads F model model')
    (hwitness : L.Reads F witness witness') :
    L.Asks settings F (settings.renderCommand model witness)
      (settings.renderCommand model' witness') where
  twin := ⟨rfl, rfl, .cons hmodel.twin (.cons hwitness.twin .nil)⟩
  nul := by
    simp [Command.hasNul, Settings.renderCommand, hmodel.nul_mem_iff hroom,
      hwitness.nul_mem_iff hroom]
  poses _ _ _ hfiles :=
    .render (hmodel.read_eq hL hroom hfiles) (hwitness.read_eq hL hroom hfiles)
  witness _ _ h := by cases h

lemma asks_check (settings : Settings) (kind : Diagnostic) (arguments : List String)
    {query query' start start' : String} {key : κ} (hmodel : L.Reads F model model')
    (hquery : L.Reads F query query') (hkey : L.Open F key)
    (hstart : TwinPath L.directory L.world.scratch start start')
    (hheld : settings.format.witnessPath start = L.heldPath key)
    (hbrief : settings.format.witnessPath start' = L.scopedPath key) :
    L.Asks settings F
      (settings.command (["-t", kind.value, settings.format.flag, start] ++ arguments ++
        [model, query]))
      (settings.command (["-t", kind.value, settings.format.flag, start'] ++ arguments ++
        [model', query'])) where
  twin := by
    refine ⟨rfl, rfl, List.rel_append (List.rel_append ?_ ?_) ?_⟩
    · exact .cons (.same _) (.cons (.same _) (.cons (.same _) (.cons hstart .nil)))
    · exact List.forall₂_same.2 fun path _ => .same path
    · exact .cons hmodel.twin (.cons hquery.twin .nil)
  nul := by
    -- the paths that begin so have no NUL in them
    have hfree {start path : String} (hpath : settings.format.witnessPath start = path)
        (hnul : '\x00' ∉ path.toList) : '\x00' ∉ start.toList := by
      intro hmem
      rw [← hpath] at hnul
      exact hnul (by simpa [WitnessFormat.witnessPath] using .inl hmem)
    obtain ⟨hnul, hnul'⟩ := not_mem_of_valid hroom hkey.valid
    simp [Command.hasNul, Settings.command, hmodel.nul_mem_iff hroom, hquery.nul_mem_iff hroom,
      hfree hheld hnul, hfree hbrief hnul']
  poses _ _ _ hfiles := .check (hmodel.read_eq hL hroom hfiles) (hquery.read_eq hL hroom hfiles)
  witness path path' h h' := by
    rw [Settings.witnessPath?_check] at h h'
    exact ⟨key, hkey, (Option.some.inj h).symm.trans hheld, (Option.some.inj h').symm.trans hbrief⟩

end Steps

end Layout

namespace Extraction

variable {κ : Type} {L : Layout κ} {F : Set Nat} {a a' : Artifacts}
  {model model' witness witness' : String} {o o' : Options}

section

variable (hL : L.Proper) (hroom : L.Room)
include hL hroom

lemma sync_keep {extension : String} (hshares : L.Shares F a a' extension) (text : String) :
    L.Sync 0 F (Agree (TraceError.Twin L.directory L.world.scratch) (L.Reads F))
      (keep a extension text) (keep a' extension text) := by
  refine (L.sync_write hL hroom hshares text).bind (d := 0) ?_
  rintro _ _ ⟨rfl, rfl⟩
  exact .pure (.ok hshares.reads)

/-- Compiling the model and rendering the witness. -/
lemma sync_renderIn (hsettings : o'.settings = o.settings)
    (hblind : L.world.behaviour.IgnoresPaths o.settings) (hmodel : L.Reads F model model')
    (hwitness : L.Reads F witness witness') (hcompiled : L.Shares F a a' "if")
    (hrendering : L.Shares F a a' "txt") :
    L.Sync 0 F (Agree (TraceError.Twin L.directory L.world.scratch) Eq)
      (renderIn o model witness a) (renderIn o' model' witness' a') := by
  unfold renderIn
  rw [hsettings]
  have hfail {e e' : TraceError} (he : e.Twin L.directory L.world.scratch e') :
      L.Sync 0 F (Agree (TraceError.Twin L.directory L.world.scratch) (Eq : String → String → Prop))
        (pure (.error e)) (pure (.error e')) := .pure (.error he)
  -- four steps, each on what the one before it left: compile, keep, render, keep
  have hcompile := L.asks_compile hL hroom o.settings hmodel
  refine (L.sync_runChecked hL hroom hblind hcompile _).step (d := 0)
    (fun _ _ he => hfail (.tool he)) ?_
  rintro compiled _ rfl
  refine (sync_keep hL hroom hcompiled _).step (d := 0) (fun _ _ he => hfail he) ?_
  intro path path' hpath
  have hrender := L.asks_render hL hroom o.settings hpath hwitness
  refine (L.sync_runChecked hL hroom hblind hrender _).step (d := 0)
    (fun _ _ he => hfail (.tool he)) ?_
  rintro rendered _ rfl
  exact (sync_keep hL hroom hrendering _).step (d := 0) (fun _ _ he => hfail he)
    fun _ _ _ => .pure (.ok rfl)

/-- The families in which an extraction renders a witness. -/
structure Renders (L : Layout κ) (F : Set Nat) (witness witness' : String) : Prop where
  directory : Path.directory witness = L.directory
  stem : Path.stem? witness' = Path.stem? witness
  format : WitnessFormat.ofPath? witness' = WitnessFormat.ofPath? witness
  shares : ∀ n, L.world.tags < n → n ≤ L.last → (∀ m ∈ F, m < n) →
    ∀ extension ∈ ["if", "txt"], L.Shares (insert n F)
      (L.heldFamily ((Path.stem? witness).getD "trace") n)
      (L.briefFamily ((Path.stem? witness).getD "trace") n) extension

omit hL hroom in
lemma agree_traceOfText (hwitness : TwinPath L.directory L.world.scratch witness witness')
    (format : WitnessFormat) (clock text : String) :
    Agree (TraceError.Twin L.directory L.world.scratch) Eq
      (traceOfText format clock witness text) (traceOfText format clock witness' text) := by
  unfold traceOfText
  cases (Witness.read format text).bind (·.trace clock) with
  | error flaw => exact .error (.malformed hwitness flaw)
  | ok trace => exact .ok rfl

section Reading

variable (settings : Settings) (clock : String)
  (hblind : L.world.behaviour.IgnoresPaths settings) (hmodel : L.Reads F model model')
  (hwitness : L.Reads F witness witness') (hrenders : Renders L F witness witness')
include hblind hmodel hwitness hrenders

/-- A witness comes to the same text: it is read as it is, or a family is begun to render it. -/
lemma sync_text (format : WitnessFormat) :
    L.Sync 1 F (Agree (TraceError.Twin L.directory L.world.scratch) Eq)
      (text ⟨settings, clock, true⟩ model witness format)
      (text ⟨settings, clock, false⟩ model' witness' format) := by
  cases format with
  | xml =>
    refine ((L.sync_readText hL hroom hwitness).bind (d := 0) ?_).of_le (Nat.zero_le _)
    rintro read _ rfl
    refine .pure ?_
    cases read with
    | error error => exact .error (.system error)
    | ok text => exact .ok rfl
  | xtr =>
    rw [text, text, render, render, hrenders.directory, hrenders.stem]
    refine Layout.sync_within (c := 0) hroom fun n hn hlast hnew => ?_
    have hFG := Set.subset_insert n F
    have hshares := hrenders.shares n hn hlast hnew
    exact sync_renderIn hL hroom rfl hblind (hmodel.mono hFG) (hwitness.mono hFG)
      (hshares "if" (by simp)) (hshares "txt" (by simp))

/-- An extraction comes to the same trace, whether files are held or not. -/
lemma sync_trace :
    L.Sync 1 F (Agree (TraceError.Twin L.directory L.world.scratch) Eq)
      (trace ⟨settings, clock, true⟩ model witness)
      (trace ⟨settings, clock, false⟩ model' witness') := by
  unfold trace
  rw [hrenders.format]
  cases WitnessFormat.ofPath? witness with
  | none =>
    exact Layout.Sync.of_le (.pure (.error (.malformed hwitness.twin _))) (Nat.zero_le _)
  | some format =>
    refine (sync_text hL hroom settings clock hblind hmodel hwitness hrenders format).step (d := 0)
      (fun _ _ he => .pure (.error he)) ?_
    rintro text _ rfl
    exact .pure (agree_traceOfText hwitness.twin format clock text)

end Reading

end

/-! ### An extraction by itself -/

/-- The files of the families in which a witness is rendered: the compiled model, and the
rendering. -/
inductive Artifact where
  | compiled (n : Nat)
  | rendering (n : Nat)
  deriving DecidableEq

namespace Artifact

def number : Artifact → Nat
  | .compiled n | .rendering n => n

/-- What stands in a name behind the tag. -/
def ending : Artifact → String
  | .compiled _ => ".if"
  | .rendering _ => ".txt"

def name (stem : String) (processId : Nat) (key : Artifact) : String :=
  tagOf stem processId key.number ++ key.ending

lemma ending_eq_or (key : Artifact) : key.ending = ".if" ∨ key.ending = ".txt" := by
  cases key <;> simp [ending]

lemma name_injective (stem : String) (processId : Nat) :
    Function.Injective (name stem processId) := by
  intro key key' h
  have hdot (key : Artifact) : ∀ c ∈ key.ending.toList.head?, c.isDigit = false := by
    rcases ending_eq_or key with hkey | hkey <;> rw [hkey] <;> rintro c ⟨⟩ <;> rfl
  obtain ⟨hnumber, hending⟩ := Artifacts.tagOf_append_inj (hdot key) (hdot key') h
  cases key <;> cases key' <;> simp_all [number, ending]

end Artifact

def layout (witness : String) (w : World) : Layout Artifact where
  world := w
  directory := Path.directory witness
  count := 1
  name := Artifact.name ((Path.stem? witness).getD "trace") w.processId
  first := Artifact.number
  number := Artifact.number
  shared := fun _ => True

variable {w : World}

lemma layout_proper : (layout witness w).Proper where
  isName key := by
    refine Artifacts.isName_tagOf_append (Path.not_mem_stem witness) ?_
    rcases Artifact.ending_eq_or key with hkey | hkey <;> rw [hkey] <;> decide
  injective := Artifact.name_injective _ _

lemma renders_layout (witness : String) (w : World) :
    Renders (layout witness w) ∅ witness witness := by
  refine ⟨rfl, rfl, rfl, fun n hfirst hlast _ extension hextension => ?_⟩
  have hname {key : Artifact} {extension : String} (hending : key.ending = "." ++ extension) :
      (layout witness w).name key =
        tagOf ((Path.stem? witness).getD "trace") w.processId key.number ++ "." ++ extension := by
    rw [String.append_assoc, ← hending]
    rfl
  rcases List.mem_pair.1 hextension with rfl | rfl
  · exact ⟨.compiled n, ⟨⟨hfirst, le_rfl, hlast⟩, trivial, Set.mem_insert n ∅⟩,
      Layout.file_family (hname rfl) rfl⟩
  · exact ⟨.rendering n, ⟨⟨hfirst, le_rfl, hlast⟩, trivial, Set.mem_insert n ∅⟩,
      Layout.file_family (hname rfl) rfl⟩

end Extraction

end TimedPatterns
