import TimedPatterns.Proofs.Path.Place
import TimedPatterns.Proofs.Verify.Outcome

/-!
# Saved witnesses

All models are checked before the first witness is moved. By then every run has left its witness
under a name of its own, and what remains is a sequence of moves. A move takes a witness along that
still has to be moved itself if it was written where the moved one is asked for. So it depends on
the order of the paths whether all witnesses come to where they are asked for.
-/

namespace TimedPatterns.Verify

/-- A run for a model, the place where the verifier writes the witness, the place where it is asked
for, and what it is. -/
structure Errand where
  job : Job
  source : Place
  target : Place
  content : Content
  deriving DecidableEq, Repr

variable {e : Errand} {es : List Errand} {g : Place → Option Node} {q : Place} {f f' : Files}
  {w : World} {limit : Option Duration}

/-! ### Moving one witness after the other -/

/-- What is where when a witness has been moved, if it was there. -/
def Errand.move (e : Errand) (g : Place → Option Node) : Place → Option Node :=
  (g e.source).elim g fun node =>
    Function.update (Function.update g e.source none) e.target (some node)

/-- What is where when witnesses have been moved in order. -/
def carry (es : List Errand) (g : Place → Option Node) : Place → Option Node :=
  es.foldl (fun g e => e.move g) g

lemma carry_cons : carry (e :: es) g = carry es (e.move g) := rfl

lemma Errand.move_eq {node : Node} (h : g e.source = some node) :
    e.move g = Function.update (Function.update g e.source none) e.target (some node) := by
  rw [Errand.move, h, Option.elim_some]

lemma Errand.move_of_eq_none (h : g e.source = none) : e.move g = g := by
  rw [Errand.move, h, Option.elim_none]

/-- Where no witness comes to, one is taken away at most. -/
lemma Errand.move_of_ne (h : e.target ≠ q) : e.move g q = if e.source = q then none else g q := by
  cases hsource : g e.source with
  | none =>
    rw [move_of_eq_none hsource]
    split
    · next heq => rw [← heq, hsource]
    · rfl
  | some node =>
    rw [move_eq hsource, Function.update_of_ne h.symm, Function.update_apply]
    simp only [eq_comm]

lemma carry_of_ne (h : ∀ e ∈ es, e.target ≠ q) :
    carry es g q = if ∃ e ∈ es, e.source = q then none else g q := by
  induction es generalizing g with
  | nil => simp [carry]
  | cons e es ih =>
    obtain ⟨he, hes⟩ := List.forall_mem_cons.1 h
    rw [carry_cons, ih hes, Errand.move_of_ne he]
    simp only [List.mem_cons, exists_eq_or_imp]
    by_cases hsource : e.source = q <;> simp [hsource]

/-- Witnesses in different places, asked for in different places, all come to where they are asked
for if and only if none is asked for in the place of a later one. -/
lemma carry_eq_content_iff (hsources : es.Pairwise fun a b => a.source ≠ b.source)
    (htargets : es.Pairwise fun a b => a.target ≠ b.target)
    (hg : ∀ e ∈ es, g e.source = some (.file e.content)) :
    (∀ e ∈ es, carry es g e.target = some (.file e.content)) ↔
      es.Pairwise fun a b => a.target ≠ b.source := by
  induction es generalizing g with
  | nil => simp
  | cons e es ih =>
    obtain ⟨hsource, hsources⟩ := List.pairwise_cons.1 hsources
    obtain ⟨htarget, htargets⟩ := List.pairwise_cons.1 htargets
    obtain ⟨hcontent, hcontents⟩ := List.forall_mem_cons.1 hg
    have hmove : e.move g e.target = some (.file e.content) := by
      rw [Errand.move_eq hcontent, Function.update_self]
    -- no other witness comes to the place of the first one, but it may be taken away from there
    have hfirst : carry es (e.move g) e.target = some (.file e.content) ↔
        ∀ b ∈ es, e.target ≠ b.source := by
      rw [carry_of_ne fun b hb => (htarget b hb).symm, hmove]
      simp [eq_comm]
    -- if it is not, the first move has left the other witnesses where they were
    have hrest (h : ∀ b ∈ es, e.target ≠ b.source) :
        (∀ b ∈ es, carry es (e.move g) b.target = some (.file b.content)) ↔
          es.Pairwise fun a b => a.target ≠ b.source := by
      refine ih hsources htargets fun b hb => ?_
      rw [Errand.move_of_ne (h b hb), if_neg (hsource b hb)]
      exact hcontents b hb
    rw [List.forall_mem_cons, List.pairwise_cons, carry_cons, hfirst]
    exact and_congr_right hrest

/-! ### Places -/

/-- An errand speaks of the places that its paths lead to, and its witness is asked for where no
directory is. -/
structure Errand.IsFor (e : Errand) (f : Files) : Prop where
  source : f.resolve e.job.witness = .ok ⟨e.source, false⟩
  target : f.resolve e.job.target = .ok ⟨e.target, false⟩
  target_ne : f.at? e.target ≠ some .directory

lemma Errand.IsFor.congr (h : e.IsFor f) (hsame : f.SameDirectories f') : e.IsFor f' where
  source := hsame.resolve h.source
  target := hsame.resolve h.target
  target_ne := by
    rw [ne_eq, hsame.at?]
    exact h.target_ne

/-- The witness is written beside the path that it is asked for under, and its name has the same
stem with an ending behind it, unless the stem is a point. -/
lemma Errand.IsFor.exists_places (h : e.IsFor f) {s : Settings} {model target : String}
    (hjob : e.job.IsFor s model target) (hpoint : Path.stem? target ≠ some ".") :
    ∃ (format : WitnessFormat) (p : Place) (stem : List Char),
      e.source = p ++ [String.ofList (stem ++ "-1".toList ++ '.' :: format.extension.toList)] ∧
      e.target = p ++ [String.ofList (stem ++ '.' :: format.extension.toList)] := by
  obtain ⟨format, hextension, hjob⟩ := hjob
  obtain ⟨lead, stem, trail, hextended⟩ := Path.extension?_eq_some_iff.1 hextension
  obtain ⟨hlead, hslash⟩ := hextended.not_mem
  obtain ⟨last, htext, hlast⟩ := hextended.exists_withoutExtension
  -- the stem is kept, since it is not one that consists of points
  obtain rfl : last = stem := by
    refine hlast.resolve_right fun hpoints => hpoint ?_
    rw [hextended.stem?_eq, hpoints.2]
  have hwitness := format.extended_witnessPath htext hlead
    fun hmem => hslash (List.mem_append_left _ hmem)
  have hsource := h.source
  have htarget := h.target
  rw [hjob] at hsource htarget
  obtain ⟨p, hp, hplace⟩ := hwitness.place_eq hwitness.name_ne hsource
  obtain ⟨p', hp', hplace'⟩ := hextended.place_eq hextended.name_ne htarget
  rw [hwitness.startOf_eq hextended.toEndsIn f, hp'] at hp
  obtain rfl := Except.ok.inj hp
  exact ⟨format, p', last, hplace, hplace'⟩

/-- Witnesses are written to different places if they are asked for in different ones and no stem is
a point. -/
lemma nodup_source {s : Settings} {targets : List String} (hes : ∀ e ∈ es, e.IsFor f)
    (hjobs : ∀ e ∈ es, ∃ model, ∃ target ∈ targets, e.job.IsFor s model target)
    (hpoints : ∀ target ∈ targets, Path.stem? target ≠ some ".")
    (hdistinct : (es.map (·.target)).Nodup) : (es.map (·.source)).Nodup := by
  rw [List.Nodup, List.pairwise_map] at hdistinct ⊢
  refine hdistinct.imp_of_mem fun {a b} ha hb hne hsame => hne ?_
  obtain ⟨model, target, htarget, hjob⟩ := hjobs a ha
  obtain ⟨model', target', htarget', hjob'⟩ := hjobs b hb
  obtain ⟨format, p, stem, hsource, hplace⟩ :=
    (hes a ha).exists_places hjob (hpoints target htarget)
  obtain ⟨format', p', stem', hsource', hplace'⟩ :=
    (hes b hb).exists_places hjob' (hpoints target' htarget')
  rw [hsource, hsource'] at hsame
  obtain ⟨rfl, hname⟩ := List.append_inj' hsame rfl
  -- the extension has no point, so the last point of the name tells the stem and the extension
  have hsplit := congrArg Path.splitName (String.ofList_injective (List.singleton_inj.1 hname))
  rw [Path.splitName_append (by simp) format.not_mem_extension.2,
    Path.splitName_append (by simp) format'.not_mem_extension.2] at hsplit
  obtain ⟨hstems, hextensions⟩ := Prod.mk.inj hsplit
  rw [hplace, hplace', List.append_cancel_right hstems, Option.some.inj hextensions]

/-! ### Runs -/

/-- One run after the other is a success, and writes its witness and nothing else. -/
inductive Reports (limit : Option Duration) : List Errand → World → Prop
  | nil (w : World) : Reports limit [] w
  | cons {e : Errand} {es : List Errand} {w : World} {o : Output}
      (outcome : (Session.run e.job.command limit w).1 = .ok o)
      (success : o.isSuccess)
      (files : w.files.write e.job.witness e.content =
        .ok (Session.run e.job.command limit w).2.files)
      (rest : Reports limit es (Session.run e.job.command limit w).2) :
      Reports limit (e :: es) w

/-- What the runs leave: nothing else is changed than the places of the witnesses, which were not
those of directories, and each witness is in its place if the places differ. -/
structure Leaves (es : List Errand) (f f' : Files) : Prop where
  tree : f'.IsTree
  same : f.SameDirectories f'
  source_ne : ∀ e ∈ es, f.at? e.source ≠ some .directory
  at?_of_ne : ∀ q, (∀ e ∈ es, e.source ≠ q) → f'.at? q = f.at? q
  at?_source : es.Pairwise (fun a b => a.source ≠ b.source) →
    ∀ e ∈ es, f'.at? e.source = some (.file e.content)

lemma Leaves.cons {f'' : Files} (h : Leaves es f' f'')
    (hwrite : f.Becomes f' (Function.update f.at? e.source (some (.file e.content))))
    (hsource : f.at? e.source ≠ some .directory) : Leaves (e :: es) f f'' where
  tree := h.tree
  same := hwrite.same.trans h.same
  source_ne := List.forall_mem_cons.2 ⟨hsource, fun b hb => by
    rw [ne_eq, ← hwrite.same.at?]
    exact h.source_ne b hb⟩
  at?_of_ne q hq := by
    obtain ⟨he, hes⟩ := List.forall_mem_cons.1 hq
    rw [h.at?_of_ne q hes, hwrite.at?_eq, Function.update_of_ne he.symm]
  at?_source hdistinct := by
    obtain ⟨he, hes⟩ := List.pairwise_cons.1 hdistinct
    refine List.forall_mem_cons.2 ⟨?_, h.at?_source hes⟩
    rw [h.at?_of_ne _ fun b hb => (he b hb).symm, hwrite.at?_eq, Function.update_self]

lemma Reports.runSequentially (h : Reports limit es w) (htree : w.files.IsTree)
    (hes : ∀ e ∈ es, e.IsFor w.files) :
    (∀ r ∈ (Session.runSequentially limit (es.map (·.job.command)) w).1, r.isSuccess) ∧
      Leaves es w.files (Session.runSequentially limit (es.map (·.job.command)) w).2.files := by
  induction h with
  | nil w =>
    refine ⟨by simp [Session.runSequentially], htree, .refl _, by simp, fun _ _ => rfl, by simp⟩
  | @cons e es w o outcome success files rest ih =>
    obtain ⟨he, hes⟩ := List.forall_mem_cons.1 hes
    obtain ⟨p, hp, hsource, hput⟩ := Files.exists_of_write files
    obtain rfl : e.source = p :=
      congrArg Files.Target.place (Except.ok.inj (he.source.symm.trans hp))
    have hwrite := htree.becomes_put he.source hsource e.content
    rw [← hput] at hwrite
    -- what one run writes leaves the places of the others as they are
    obtain ⟨hsuccess, hleaves⟩ := ih hwrite.tree fun b hb => (hes b hb).congr hwrite.same
    have hrun : Session.runSequentially limit ((e :: es).map (·.job.command)) w =
        (⟨e.job.command.line, .ok o⟩ ::
            (Session.runSequentially limit (es.map (·.job.command))
              (Session.run e.job.command limit w).2).1,
          (Session.runSequentially limit (es.map (·.job.command))
            (Session.run e.job.command limit w).2).2) := by
      rw [List.map_cons, Session.runSequentially, List.mapM_cons]
      simp only [Session.bind_apply, Session.pure_apply, Session.result_apply, outcome]
      rfl
    rw [hrun]
    exact ⟨List.forall_mem_cons.2 ⟨success, hsuccess⟩, hleaves.cons hwrite hsource⟩

/-! ### Moves -/

/-- The witness of a success is moved, if there is one. -/
lemma exists_settle (htree : w.files.IsTree) (he : e.IsFor w.files)
    (hsource : w.files.at? e.source ≠ some .directory) {r : CommandResult} (hr : r.isSuccess) :
    ∃ f, settle e.job r w = (r, { w with files := f }) ∧
      w.files.Becomes f (e.move w.files.at?) := by
  cases hat : w.files.at? e.source with
  | none =>
    refine ⟨w.files, ?_, htree, .refl _, (Errand.move_of_eq_none hat).symm⟩
    simp only [settle, Files.contains_eq_isSome he.source, hat, hr]
    rfl
  | some node =>
    obtain _ | content := node
    · exact absurd hat hsource
    · obtain ⟨f, hrename, hbecomes⟩ := htree.exists_rename he.source he.target hat he.target_ne
      refine ⟨f, ?_, Errand.move_eq hat ▸ hbecomes⟩
      simp only [settle, Files.contains_eq_isSome he.source, hat, hr, hrename]
      rfl

lemma exists_mapM_settle {rs : List CommandResult} (hlength : rs.length = es.length)
    (hrs : ∀ r ∈ rs, r.isSuccess) (htree : w.files.IsTree) (hes : ∀ e ∈ es, e.IsFor w.files)
    (hsource : ∀ e ∈ es, w.files.at? e.source ≠ some .directory) :
    ∃ f, (((es.map (·.job)).zip rs).mapM fun x => settle x.1 x.2) w =
        (rs, { w with files := f }) ∧ w.files.Becomes f (carry es w.files.at?) := by
  induction es generalizing rs w with
  | nil =>
    obtain rfl := List.length_eq_zero_iff.1 hlength
    exact ⟨w.files, rfl, htree, .refl _, rfl⟩
  | cons e es ih =>
    obtain ⟨r, rs, rfl⟩ := List.exists_cons_of_length_eq_add_one hlength
    obtain ⟨hr, hrs⟩ := List.forall_mem_cons.1 hrs
    obtain ⟨he, hes⟩ := List.forall_mem_cons.1 hes
    obtain ⟨hplace, hsource⟩ := List.forall_mem_cons.1 hsource
    obtain ⟨f, hsettle, hf⟩ := exists_settle htree he hplace hr
    obtain ⟨f', hrest, hf'⟩ := @ih { w with files := f } rs (Nat.succ.inj hlength) hrs hf.tree
      (fun b hb => (hes b hb).congr hf.same)
      (fun b hb => by
        rw [ne_eq, hf.same.at?]
        exact hsource b hb)
    refine ⟨f', ?_, hf'.tree, hf.same.trans hf'.same, ?_⟩
    · rw [List.map_cons, List.zip_cons_cons, List.mapM_cons]
      simp only [Session.bind_apply, Session.pure_apply, hsettle, hrest]
    · rw [hf'.at?_eq, carry_cons, ← hf.at?_eq]

/-! ### Batches -/

/-- There is one run for each model and path if their numbers are the same and each path names a
format. -/
lemma exists_jobs (s : Settings) {models targets : List String}
    (hlength : models.length = targets.length)
    (hformats : ∀ target ∈ targets, (WitnessFormat.ofPath? target).isSome) :
    ∃ js, jobs s models targets = .ok js ∧ js.map (·.target) = targets := by
  have hjob : ∀ x ∈ models.zip targets, ∃ j, job s x.1 x.2 = .ok j ∧ x.2 = j.target := by
    intro x hx
    obtain ⟨format, hformat⟩ := Option.isSome_iff_exists.1 (hformats _ (List.of_mem_zip hx).2)
    exact ⟨_, by rw [job, hformat], rfl⟩
  obtain ⟨js, hjs, hall⟩ := exists_mapM_eq_ok hjob
  refine ⟨js, ?_, ?_⟩
  · rw [jobs, if_neg (not_not.2 hlength)]
    exact hjs
  · have htargets : List.Forall₂ Eq ((models.zip targets).map (·.2)) (js.map (·.target)) :=
      List.forall₂_map_left_iff.2 (List.forall₂_map_right_iff.2 hall)
    rw [List.forall₂_eq_eq_eq, List.map_snd_zip hlength.ge] at htargets
    exact htargets.symm

/-- If all runs are successes that write their witnesses and nothing else, all results are
successes. Then, of runs that write to different places, all witnesses are where they were asked for
if and only if no witness is asked for in the place that a later run writes to.

Runs write to different places if their witnesses are asked for in different ones, but for paths
whose stem is a point: the witness for `..xml` and the one for `...xml` are both at `..-1.xml`. -/
theorem run_saves (s : Settings) {models targets : List String} (mode : Mode) (size : Option Nat)
    (w : World) (htree : w.files.IsTree) (hlength : models.length = targets.length)
    (hformats : ∀ target ∈ targets, (WitnessFormat.ofPath? target).isSome) :
    ∃ js, jobs s models targets = .ok js ∧ js.map (·.target) = targets ∧
      ∀ es : List Errand, es.map (·.job) = js → (∀ e ∈ es, e.IsFor w.files) →
        Reports s.timeout es w → (es.map (·.target)).Nodup →
        ∃ results, (run s models targets mode size w).1 = .ok results ∧
          results.length = models.length ∧ (∀ r ∈ results, r.isSuccess) ∧
          ((es.map (·.source)).Nodup →
            ((∀ e ∈ es, (run s models targets mode size w).2.files.read e.job.target =
                .ok e.content) ↔
              es.Pairwise fun a b => a.target ≠ b.source)) ∧
          ((∀ target ∈ targets, Path.stem? target ≠ some ".") → (es.map (·.source)).Nodup) := by
  obtain ⟨js, hjs, htargets⟩ := exists_jobs s hlength hformats
  refine ⟨js, hjs, htargets, ?_⟩
  rintro es rfl hes hreports hdistinct
  have hcommands : (es.map (·.job)).map (·.command) = es.map (·.job.command) := List.map_map
  have hcount := Session.length_runSequentially s.timeout (es.map (·.job.command)) w
  obtain ⟨hsuccess, hleaves⟩ := hreports.runSequentially htree hes
  generalize hruns : Session.runSequentially s.timeout (es.map (·.job.command)) w = runs at *
  obtain ⟨results, w'⟩ := runs
  rw [List.length_map] at hcount
  -- first all the runs, then all the moves, one after the other
  obtain ⟨f, hmoves, hf⟩ := exists_mapM_settle hcount hsuccess hleaves.tree
    (fun e he => (hes e he).congr hleaves.same)
    (fun e he => by
      rw [ne_eq, hleaves.same.at?]
      exact hleaves.source_ne e he)
  have hrun : run s models targets mode size w = (.ok results, { w' with files := f }) := by
    simp only [run, hjs, Session.bind_apply, Session.runBatch_eq, Session.pure_apply, hcommands,
      hruns, hmoves]
  rw [hrun]
  refine ⟨results, rfl, ?_, hsuccess, fun hsources => ?_, fun hpoints => ?_⟩
  · rw [hlength, ← htargets, List.length_map, List.length_map]
    exact hcount
  · have hread : ∀ e ∈ es, f.read e.job.target = .ok e.content ↔
        carry es w'.files.at? e.target = some (.file e.content) := by
      intro e he
      rw [← hf.at?_eq]
      exact Files.read_eq_ok_iff (((hes e he).congr hleaves.same).congr hf.same).target
    rw [List.Nodup, List.pairwise_map] at hsources hdistinct
    exact (forall₂_congr hread).trans
      (carry_eq_content_iff hsources hdistinct (hleaves.at?_source hsources))
  · have hjobs : ∀ e ∈ es, ∃ model, ∃ target ∈ targets, e.job.IsFor s model target := by
      intro e he
      obtain ⟨x, hx, hjob⟩ :=
        exists_of_forall₂_left (jobs_eq_ok_iff.1 hjs).2.flip (List.mem_map_of_mem he)
      exact ⟨x.1, x.2, (List.of_mem_zip hx).2, hjob⟩
    exact nodup_source hes hjobs hpoints hdistinct

example : WitnessFormat.xml.witnessPath (Path.withoutExtension "..xml") =
    WitnessFormat.xml.witnessPath (Path.withoutExtension "...xml") := by
  decide +kernel

namespace Sample

def world : World where
  files := ⟨[(["m.xml"], .file (.text "<nta/>")), (["n.xml"], .file (.text "<nta/>"))], []⟩
  behaviour := playBack [⟨some 0, false, .text "", .text "", some (.text "witness of m")⟩,
    ⟨some 0, false, .text "", .text "", some (.text "witness of n")⟩]
  processId := 1

def settings : Settings := ⟨"verifyta", "tracer", none, .xml⟩

/-- The errand for a model and a path without its extension. -/
def errand (model start : String) : Errand where
  job := ⟨settings.command ["-t", "1", "-X", start, model], start ++ "-1.xml", start ++ ".xml"⟩
  source := [start ++ "-1.xml"]
  target := [start ++ ".xml"]
  content := .text ("witness of " ++ (model.take 1).toString)

def errands (first second : String) : List Errand := [errand "m.xml" first, errand "n.xml" second]

lemma isTree_world : world.files.IsTree := Files.isTree_of_flat rfl (by decide)

/-- The paths of the errands, in either order, name files in one directory. -/
lemma isFor_of_mem {e : Errand} (he : e ∈ errands "a" "a-1" ++ errands "a-1" "a") :
    e.IsFor world.files := by
  have hsource : ∀ e ∈ errands "a" "a-1" ++ errands "a-1" "a",
      world.files.resolve e.job.witness = .ok ⟨e.source, false⟩ := by decide +kernel
  have htarget : ∀ e ∈ errands "a" "a-1" ++ errands "a-1" "a",
      world.files.resolve e.job.target = .ok ⟨e.target, false⟩ := by decide +kernel
  have hfree : ∀ e ∈ errands "a" "a-1" ++ errands "a-1" "a",
      world.files.at? e.target ≠ some .directory := by decide +kernel
  exact ⟨hsource e he, htarget e he, hfree e he⟩

end Sample

/-- The witness of the second model is asked for where that of the first one is written, and both
come to where they were asked for. -/
theorem run_saves_sample :
    (run Sample.settings ["m.xml", "n.xml"] ["a.xml", "a-1.xml"] .processPool none
        Sample.world).2.files.read "a.xml" = .ok (.text "witness of m") ∧
      (run Sample.settings ["m.xml", "n.xml"] ["a.xml", "a-1.xml"] .processPool none
        Sample.world).2.files.read "a-1.xml" = .ok (.text "witness of n") := by
  obtain ⟨js, hjs, -, hsaves⟩ := @run_saves Sample.settings ["m.xml", "n.xml"]
    ["a.xml", "a-1.xml"] .processPool none Sample.world Sample.isTree_world rfl (by decide +kernel)
  have hjobs : jobs Sample.settings ["m.xml", "n.xml"] ["a.xml", "a-1.xml"] =
      .ok ((Sample.errands "a" "a-1").map (·.job)) := by decide +kernel
  have hreports : Reports none (Sample.errands "a" "a-1") Sample.world :=
    .cons rfl rfl (by decide +kernel) (.cons rfl rfl (by decide +kernel) (.nil _))
  obtain ⟨results, -, -, -, hread, hsources⟩ := hsaves _ (Except.ok.inj (hjobs.symm.trans hjs))
    (fun e he => Sample.isFor_of_mem (List.mem_append_left _ he)) hreports (by decide +kernel)
  have hsaved := (hread (hsources (by decide +kernel))).2 (by decide +kernel)
  have hwitness : (Sample.errand "m.xml" "a").content = .text "witness of m" ∧
      (Sample.errand "n.xml" "a-1").content = .text "witness of n" := by decide +kernel
  constructor
  · rw [← hwitness.1]
    exact hsaved (Sample.errand "m.xml" "a") List.mem_cons_self
  · rw [← hwitness.2]
    exact hsaved (Sample.errand "n.xml" "a-1") (List.mem_cons_of_mem _ List.mem_cons_self)

/-- In the other order, the witness of the first model is moved over that of the second one. -/
theorem not_run_saves : ¬ ∀ (s : Settings) (models targets : List String) (mode : Mode)
    (size : Option Nat) (w : World) (es : List Errand), w.files.IsTree →
    jobs s models targets = .ok (es.map (·.job)) → (∀ e ∈ es, e.IsFor w.files) →
    Reports s.timeout es w → (es.map (·.target)).Nodup →
    ∀ e ∈ es, (run s models targets mode size w).2.files.read e.job.target = .ok e.content := by
  intro h
  have hreports : Reports none (Sample.errands "a-1" "a") Sample.world :=
    .cons rfl rfl (by decide +kernel) (.cons rfl rfl (by decide +kernel) (.nil _))
  have hread := h Sample.settings ["m.xml", "n.xml"] ["a-1.xml", "a.xml"] .sequential none
    Sample.world (Sample.errands "a-1" "a") Sample.isTree_world (by decide +kernel)
    (fun e he => Sample.isFor_of_mem (List.mem_append_right _ he)) hreports (by decide +kernel)
  exact absurd hread (by decide +kernel)

end TimedPatterns.Verify
