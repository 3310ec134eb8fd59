import TimedPatterns.Proofs.Search.Layout
import TimedPatterns.Proofs.Search.Twin

/-!
# Sessions side by side

Two sessions that begin in one world are followed step by step: one that holds its files, and one
that does not. They are in step if the counters of tags are the same, the files face each other, and
the commands that were run are twins.

The rules take two sessions apart into their steps. A rule says how many families the sessions
begin, so that there is room for them, and how their results are related.
-/

namespace TimedPatterns

open Artifacts (scopeOf tagOf)

variable {κ ε α β γ δ : Type}

namespace Layout

variable {L : Layout κ} {F G : Set Nat} {h s : World} {b c d n : Nat} {path path' : String}

/-! ### Worlds in step -/

/-- Two sessions are in step, with room for a number of families. -/
structure InStep (L : Layout κ) (room : Nat) (F : Set Nat) (h s : World) : Prop where
  files : L.Facing F h.tags h.files s.files
  behaviour_held : h.behaviour = L.world.behaviour
  behaviour_brief : s.behaviour = L.world.behaviour
  processId_held : h.processId = L.world.processId
  processId_brief : s.processId = L.world.processId
  scratch : s.scratch = L.world.scratch
  tags : s.tags = h.tags
  scopes : s.scopes + L.world.tags = L.world.scopes + h.tags
  first : L.world.tags ≤ h.tags
  last : h.tags + room ≤ L.last
  launched : List.Forall₂ (Launched.Twin L.directory L.world.scratch) h.launched s.launched

lemma inStep_world (hroom : L.Room) (hL : L.Proper) : L.InStep L.count ∅ L.world L.world where
  files :=
    { opened := by simp
      held := ⟨hroom.tree, .refl _, fun key hkey _ => (hroom.held hL hkey).2, by simp⟩
      brief := ⟨hroom.tree, .refl _, fun n hn hlast => (hroom.scope hn hlast).2, by simp⟩
      alike := by simp }
  behaviour_held := rfl
  behaviour_brief := rfl
  processId_held := rfl
  processId_brief := rfl
  scratch := rfl
  tags := rfl
  scopes := rfl
  first := le_rfl
  last := le_rfl
  launched := List.forall₂_same.2 fun l _ => .refl l

lemma InStep.room_mono (hstep : L.InStep c F h s) (hb : b ≤ c) : L.InStep b F h s :=
  { hstep with last := (Nat.add_le_add_left hb _).trans hstep.last }

/-- The files of two sessions change, and they stay in step. -/
lemma InStep.withFiles (hstep : L.InStep b F h s) {f g : Files} (hfiles : L.Facing F h.tags f g) :
    L.InStep b F { h with files := f } { s with files := g } :=
  { hstep with files := hfiles }

/-! ### Sessions in step -/

/-- Two sessions stay in step, whatever the families in use; they begin at most `c` families, and
their results are related. -/
def Sync (L : Layout κ) (c : Nat) (F : Set Nat) (R : α → β → Prop) (x : Session α)
    (y : Session β) : Prop :=
  ∀ room h s, L.InStep (room + c) F h s → L.InStep room F (x h).2 (y s).2 ∧ R (x h).1 (y s).1

namespace Sync

variable {R : α → β → Prop} {x : Session α} {y : Session β}

lemma pure {a : α} {a' : β} (ha : R a a') : L.Sync 0 F R (pure a) (pure a') :=
  fun _ _ _ hstep => ⟨hstep, ha⟩

lemma mono {R' : α → β → Prop} (hxy : L.Sync c F R x y) (hc : c ≤ d)
    (hR : ∀ a a', R a a' → R' a a') : L.Sync d F R' x y := by
  intro room h s hstep
  obtain ⟨hstep', hrel⟩ := hxy room h s (hstep.room_mono (Nat.add_le_add_left hc room))
  exact ⟨hstep', hR _ _ hrel⟩

lemma of_le (hxy : L.Sync c F R x y) (hc : c ≤ d) : L.Sync d F R x y :=
  hxy.mono hc fun _ _ => id

/-- Two sessions that go on behind a step. -/
lemma bind {T : γ → δ → Prop} {next : α → Session γ} {next' : β → Session δ}
    (hxy : L.Sync c F R x y) (hnext : ∀ a a', R a a' → L.Sync d F T (next a) (next' a')) :
    L.Sync (c + d) F T (x >>= next) (y >>= next') := by
  intro room h s hstep
  obtain ⟨hstep', hrel⟩ := hxy (room + d) h s (hstep.room_mono (by omega))
  exact hnext _ _ hrel room _ _ hstep'

/-- Two sessions that go on behind a step unless it fails. -/
lemma step {E : ε → ε → Prop} {V : α → α → Prop} {T : γ → δ → Prop}
    {x y : Session (Except ε α)} {next : Except ε α → Session γ} {next' : Except ε α → Session δ}
    (hxy : L.Sync c F (Agree E V) x y)
    (herror : ∀ e e', E e e' → L.Sync d F T (next (.error e)) (next' (.error e')))
    (hok : ∀ a a', V a a' → L.Sync d F T (next (.ok a)) (next' (.ok a'))) :
    L.Sync (c + d) F T (x >>= next) (y >>= next') := by
  refine hxy.bind ?_
  rintro _ _ (ha | he)
  · exact hok _ _ ha
  · exact herror _ _ he

/-- Two lists that are worked off, with so many families for each element. -/
lemma mapM {A : γ → δ → Prop} {f : γ → Session α} {g : δ → Session β} {xs : List γ} {ys : List δ}
    (hxs : List.Forall₂ A xs ys) (hfg : ∀ a a', A a a' → L.Sync c F R (f a) (g a')) :
    L.Sync (xs.length * c) F (List.Forall₂ R) (xs.mapM f) (ys.mapM g) := by
  induction hxs with
  | nil =>
    rw [List.mapM_nil, List.mapM_nil]
    exact (pure .nil).of_le (Nat.zero_le _)
  | @cons a a' xs ys ha _ ih =>
    rw [List.mapM_cons, List.mapM_cons]
    rw [List.length_cons, Nat.succ_mul, Nat.add_comm]
    exact (hfg a a' ha).bind fun r r' hr => ih.bind (d := 0) fun rs rs' hrs => pure (.cons hr hrs)

end Sync

/-! ### Reading and writing -/

/-- The path of a file that was there before, or those of a shared file. -/
inductive Reads (L : Layout κ) (F : Set Nat) : String → String → Prop
  | given {path : String} {content : Content} (h : L.world.files.read path = .ok content) :
      Reads L F path path
  | artifact {key : κ} (h : L.Open F key) : Reads L F (L.heldPath key) (L.scopedPath key)

lemma Reads.mono (hpath : L.Reads F path path') (hFG : F ⊆ G) : L.Reads G path path' := by
  cases hpath with
  | given hread => exact .given hread
  | artifact hkey => exact .artifact (hkey.mono hFG)

lemma twin_artifact (key : κ) :
    TwinPath L.directory L.world.scratch (L.heldPath key) (L.scopedPath key) := .artifact _ _

lemma Reads.twin (hpath : L.Reads F path path') :
    TwinPath L.directory L.world.scratch path path' := by
  cases hpath with
  | given => exact .same path
  | artifact => exact twin_artifact _

lemma Reads.read_eq (hpath : L.Reads F path path') (hL : L.Proper) (hroom : L.Room) {tags : Nat}
    {f g : Files} (hfiles : L.Facing F tags f g) : g.read path' = f.read path := by
  cases hpath with
  | given hread => rw [hfiles.held.grows.read hread, hfiles.brief.grows.read hread]
  | artifact hkey => exact hfiles.read_eq hL hroom hkey

section Steps

variable (hL : L.Proper) (hroom : L.Room)
include hL hroom

lemma sync_readText (hpath : L.Reads F path path') :
    L.Sync 0 F Eq (Session.readText path) (Session.readText path') := by
  intro room h s hstep
  refine ⟨hstep, ?_⟩
  simp only [Session.readText_apply, Files.readText, hpath.read_eq hL hroom hstep.files]

lemma sync_writeText {key : κ} (hkey : L.Open F key) (text : String) :
    L.Sync 0 F (fun r r' => r = .ok () ∧ r' = .ok ()) (Session.writeText (L.heldPath key) text)
      (Session.writeText (L.scopedPath key) text) := by
  intro room h s hstep
  obtain ⟨f, g, hwrite, hwrite', hfiles⟩ := hstep.files.write hL hroom hkey (.text text)
  rw [Session.writeText_apply, Session.writeText_apply, hwrite, hwrite']
  exact ⟨hstep.withFiles hfiles, rfl, rfl⟩

/-- A file that is only written where files are held. -/
lemma sync_writeText_held {key : κ} (hkey : L.Valid key) (hshared : ¬ L.shared key)
    (hopen : L.number key ∈ F) (text : String) :
    L.Sync 0 F (fun _ _ => True) (Session.writeText (L.heldPath key) text)
      (Pure.pure () : Session Unit) := by
  intro room h s hstep
  obtain ⟨f, hwrite, hfiles⟩ := hstep.files.write_held hL hroom hkey hshared hopen (.text text)
  rw [Session.writeText_apply, hwrite]
  exact ⟨hstep.withFiles hfiles, trivial⟩

/-! ### Running programs -/

omit hL in
lemma not_mem_of_valid {key : κ} (hkey : L.Valid key) :
    '\x00' ∉ (L.heldPath key).toList ∧ '\x00' ∉ (L.scopedPath key).toList := by
  have hfree {path : String} (hcheck : Files.checkPath path = .ok ()) : '\x00' ∉ path.toList := by
    unfold Files.checkPath at hcheck
    split at hcheck
    · cases hcheck
    · next hnul => simpa using hnul
  obtain ⟨p, hresolve, -⟩ := hroom.free key hkey
  exact ⟨hfree (Files.checkPath_of_resolve hresolve), hfree (hroom.fits key hkey)⟩

end Steps

/-- Two commands put the same question in two sessions that are in step, and ask for their witnesses
in a shared file. -/
structure Asks (L : Layout κ) (settings : Settings) (F : Set Nat) (c c' : Command) : Prop where
  twin : c.Twin L.directory L.world.scratch c'
  nul : c'.hasNul = c.hasNul
  poses : ∀ tags f g, L.Facing F tags f g → settings.Poses f g c c'
  witness : ∀ path path', RecordedRun.witnessPath? c = some path →
    RecordedRun.witnessPath? c' = some path' →
      ∃ key, L.Open F key ∧ path = L.heldPath key ∧ path' = L.scopedPath key

lemma Asks.mono {settings : Settings} {c c' : Command} (hasks : L.Asks settings F c c')
    (hFG : F ⊆ G) : L.Asks settings G c c' where
  twin := hasks.twin
  nul := hasks.nul
  poses tags f g hfiles := hasks.poses tags f g (hfiles.mono hFG)
  witness path path' h h' := by
    obtain ⟨key, hkey, heq⟩ := hasks.witness path path' h h'
    exact ⟨key, hkey.mono hFG, heq⟩

section Running

variable (hL : L.Proper) (hroom : L.Room) {settings : Settings}
  (hblind : L.world.behaviour.IgnoresPaths settings) {c c' : Command}
include hL hroom hblind

lemma sync_run (hasks : L.Asks settings F c c') (limit : Option Duration) :
    L.Sync 0 F (Agree (ToolError.Twin L.directory L.world.scratch) Eq)
      (Session.run c limit) (Session.run c' limit) := by
  intro room h s hstep
  have hanswers : Answers c c' (h.behaviour h.launched c limit h.files)
      (s.behaviour s.launched c' limit s.files) := by
    rw [hstep.behaviour_held, hstep.behaviour_brief]
    exact hblind _ _ _ _ limit _ _ hstep.launched.length_eq (hasks.poses _ _ _ hstep.files)
  have hlaunched : List.Forall₂ (Launched.Twin L.directory L.world.scratch)
      (⟨c, limit, h.files⟩ :: h.launched) (⟨c', limit, s.files⟩ :: s.launched) :=
    .cons ⟨hasks.twin, rfl⟩ hstep.launched
  simp only [Session.run_apply, Session.start, hasks.nul, ← hasks.twin.program]
  -- a command with a NUL byte, one of no program, and one that is started
  split_ifs
  · exact ⟨hstep, .error (.same _)⟩
  · exact ⟨hstep, .error (.launch hasks.twin _)⟩
  · generalize h.behaviour h.launched c limit h.files = answer at hanswers ⊢
    generalize s.behaviour s.launched c' limit s.files = answer' at hanswers ⊢
    cases hanswers with
    | fails error => exact ⟨hstep, .error (.launch hasks.twin error)⟩
    | @silent r hwrites =>
      have hfiles : L.Facing F h.tags (r.apply h.files) (r.apply s.files) := by
        simpa [Reaction.apply, hwrites] using hstep.files
      exact ⟨{ hstep with files := hfiles, launched := hlaunched }, .refl .same _⟩
    | witness r content hpath hpath' =>
      obtain ⟨key, hkey, rfl, rfl⟩ := hasks.witness _ _ hpath hpath'
      obtain ⟨f, g, hwrite, hwrite', hfiles⟩ := hstep.files.write hL hroom hkey content
      have happly {path : String} {f f' : Files} (hf : f.write path content = .ok f') :
          { r with writes := [(path, content)] }.apply f = f' := by
        simp [Reaction.apply, hf, Except.toOption]
      rw [← happly hwrite, ← happly hwrite'] at hfiles
      exact ⟨{ hstep with files := hfiles, launched := hlaunched }, .refl .same _⟩

lemma sync_runChecked (hasks : L.Asks settings F c c') (limit : Option Duration) :
    L.Sync 0 F (Agree (ToolError.Twin L.directory L.world.scratch) Eq)
      (Session.runChecked c limit) (Session.runChecked c' limit) := by
  refine (sync_run hL hroom hblind hasks limit).step (d := 0) ?_ ?_
  · exact fun e e' he => .pure (.error he)
  · rintro output _ rfl
    refine .pure ?_
    unfold Output.check
    split
    · exact .ok rfl
    · exact .error (.failure hasks.twin _ _)

lemma sync_result (hasks : L.Asks settings F c c') (limit : Option Duration) :
    L.Sync 0 F (CommandResult.Twin L.directory L.world.scratch)
      (Session.result limit c) (Session.result limit c') :=
  (sync_run hL hroom hblind hasks limit).bind (d := 0) fun _ _ houtcome =>
    .pure ⟨⟨c, c', hasks.twin, rfl, rfl⟩, houtcome⟩

lemma sync_runBatch {commands commands' : List Command}
    (hcommands : List.Forall₂ (L.Asks settings F) commands commands') (mode : Mode)
    (size : Option Nat) (limit : Option Duration) :
    L.Sync 0 F (List.Forall₂ (CommandResult.Twin L.directory L.world.scratch))
      (Session.runBatch mode size limit commands)
      (Session.runBatch mode size limit commands') := by
  intro room h s hstep
  rw [Session.runBatch_eq, Session.runBatch_eq]
  exact Sync.mapM (c := 0) hcommands (fun _ _ hasks => sync_result hL hroom hblind hasks limit)
    room h s (by simpa using hstep)

end Running

/-! ### Families -/

def heldFamily (L : Layout κ) (stem : String) (n : Nat) : Artifacts :=
  ⟨L.directory, true, tagOf stem L.world.processId n⟩

def briefFamily (L : Layout κ) (stem : String) (n : Nat) : Artifacts :=
  ⟨L.scopePath n, false, tagOf stem L.world.processId n⟩

namespace InStep

/-- The scopes that have been begun are as many as the families. -/
lemma scopeOf_eq (hstep : L.InStep b F h s) :
    scopeOf s.scratch s.scopes = L.scopePath (h.tags + 1) := by
  have hnumber : s.scopes = L.scope (h.tags + 1) := by
    have hscopes := hstep.scopes
    have hfirst := hstep.first
    unfold scope
    omega
  rw [scopePath, hstep.scratch, hnumber]

lemma create_held (hstep : L.InStep b F h s) (hroom : L.Room) (stem : String) :
    Artifacts.create true L.directory stem h =
      (.ok (L.heldFamily stem (h.tags + 1)), { h with tags := h.tags + 1 }) := by
  have hdirectory := hroom.hasDirectory.keeps hstep.files.held.grows.keeps
  have hmakes : Session.makeDirectories L.directory h = (.ok (), h) := by
    simp only [Session.makeDirectories, hdirectory.makeDirectories]
  simp only [Artifacts.create, if_true, Session.bind_apply, hmakes, Artifacts.freshTag,
    heldFamily, hstep.processId_held]
  rfl

/-- With a family that both sessions begin they stay in step. -/
lemma exists_create (hstep : L.InStep (c + 1) F h s) (hroom : L.Room) (directory stem : String) :
    ∃ s', Artifacts.create false directory stem s =
        (.ok (L.briefFamily stem (h.tags + 1)), s') ∧
      L.InStep c (insert (h.tags + 1) F) { h with tags := h.tags + 1 } s' := by
  have hlast : h.tags + 1 ≤ L.last := by
    have hlast := hstep.last
    omega
  obtain ⟨g, hmake, hfiles⟩ := hstep.files.begin hroom hstep.first hlast
  refine ⟨{ s with files := g, scopes := s.scopes + 1, tags := s.tags + 1 }, ?_, ?_⟩
  · rw [Artifacts.create_temporary, hstep.scopeOf_eq, hmake]
    simp only [Artifacts.temporary, briefFamily, hstep.scopeOf_eq, hstep.processId_brief,
      hstep.tags]
  · obtain ⟨-, hbehaviour, hbehaviour', hprocess, hprocess', hscratch, htags, hscopes, hfirst,
      hroom', hlaunched⟩ := hstep
    refine ⟨hfiles, hbehaviour, hbehaviour', hprocess, hprocess', hscratch, congrArg (· + 1) htags,
      ?_, hfirst.trans (Nat.le_succ _), ?_, hlaunched⟩ <;> dsimp only <;> omega

/-- When both sessions end a family, only the temporary directory is removed. -/
lemma release (hstep : L.InStep b (insert n F) h s) (hroom : L.Room) (hfirst : L.world.tags < n)
    (hlast : n ≤ L.last) (hfree : n ∉ F) (stem : String) :
    L.InStep b F ((L.heldFamily stem n).release h).2 ((L.briefFamily stem n).release s).2 := by
  have hscope := hstep.files.brief.hasScope hroom (Set.mem_insert n F) hfirst hlast
  have hkept : (L.heldFamily stem n).release h = ((), h) := rfl
  rw [hkept, Artifacts.release_temporary rfl hscope]
  exact { hstep with files := hstep.files.release hroom hfree hlast }

end InStep

/-- Two sessions that use a family stay in step if they do so while they use it. -/
lemma sync_within (hroom : L.Room) {E : ε → ε → Prop} {V : α → α → Prop} {directory stem : String}
    {onError : SystemError → ε} {use use' : Artifacts → Session (Except ε α)}
    (huse : ∀ n, L.world.tags < n → n ≤ L.last → (∀ m ∈ F, m < n) →
      L.Sync c (insert n F) (Agree E V) (use (L.heldFamily stem n)) (use' (L.briefFamily stem n))) :
    L.Sync (c + 1) F (Agree E V) (Artifacts.within true L.directory stem onError use)
      (Artifacts.within false directory stem onError use') := by
  intro room h s hstep
  have hfirst : L.world.tags < h.tags + 1 := Nat.lt_succ_of_le hstep.first
  have hlast : h.tags + 1 ≤ L.last := by
    have hlast := hstep.last
    omega
  have hnew : ∀ m ∈ F, m < h.tags + 1 := fun m hm =>
    Nat.lt_succ_of_le (hstep.files.opened m hm).2
  obtain ⟨s', hbrief, hbegun⟩ :=
    InStep.exists_create (c := room + c) hstep hroom directory stem
  obtain ⟨hused, hrel⟩ := huse (h.tags + 1) hfirst hlast hnew room _ _ hbegun
  rw [Artifacts.within_apply, Artifacts.within_apply, hstep.create_held hroom stem, hbrief]
  exact ⟨hused.release hroom hfirst hlast (fun hmem => (hnew _ hmem).false) stem, hrel⟩

/-- Two sessions that stay in step have courses that are alike. -/
lemma Sync.alike (hL : L.Proper) (hroom : L.Room) {R : α → α → Prop} {x y : Session α}
    (hxy : L.Sync L.count ∅ R x y) :
    Alike L.directory L.world.scratch R (x L.world) (y L.world) := by
  obtain ⟨hstep, hrel⟩ := hxy 0 L.world L.world ((inStep_world hroom hL).room_mono (by omega))
  exact ⟨hrel, hstep.launched⟩

end Layout

end TimedPatterns
