import TimedPatterns.Proofs.Files.Directory
import TimedPatterns.Proofs.Text.Numeral
import TimedPatterns.Proofs.Tool.Batch
import TimedPatterns.Recording
import TimedPatterns.Tool.Settings

/-!
# Where sessions leave files

The files of a family are in its directory. If the directory is a temporary one, it is made where
nothing has been, and is gone with all that is in it when the family is released. So a session that
changes nothing outside of the temporary directories it has been given changes nothing at all, once
they are released: this is followed through a session by the area of the tree in which it may
change files, to which each family that is begun adds its directory.

Of the programs it is assumed that they write nothing but the witness that they are asked for.
-/

namespace TimedPatterns

open Files (ChangedIn HasDirectory KeepsDirectories)

/-! ### Names -/

namespace Artifacts

variable {stem extension name : String} {processId number : Nat} {a : Artifacts} {f f' : Files}
  {area area' : Place → Prop} {p : Place} {path : String}

/-- A text with a hyphen and without a slash names a file. -/
lemma isName_of_hyphen {text : String} (hhyphen : '-' ∈ text.toList) (hslash : '/' ∉ text.toList) :
    Path.IsName text := by
  refine ⟨?_, ?_, ?_, hslash⟩ <;> rintro rfl <;> exact absurd hhyphen (by decide)

lemma not_mem_toString_nat (n : Nat) : '/' ∉ (toString n).toList := by
  intro hmem
  exact absurd (Text.isDigit_of_mem_toString_nat hmem) (by decide)

lemma tagOf_eq (stem : String) (processId number : Nat) :
    tagOf stem processId number =
      stem ++ "-" ++ toString processId ++ "-" ++ toString number := rfl

lemma hyphen_mem_tagOf : '-' ∈ (tagOf stem processId number).toList := by
  simp only [tagOf_eq, String.toList_append, List.mem_append]
  exact .inl (.inl (.inl (.inr (by decide))))

lemma not_mem_tagOf (h : '/' ∉ stem.toList) : '/' ∉ (tagOf stem processId number).toList := by
  have hprocess := not_mem_toString_nat processId
  have hnumber := not_mem_toString_nat number
  simp only [tagOf_eq, String.toList_append, List.mem_append, not_or]
  exact ⟨⟨⟨⟨h, by decide⟩, hprocess⟩, by decide⟩, hnumber⟩

lemma isName_tagOf_append {ending : String} (hstem : '/' ∉ stem.toList)
    (hending : '/' ∉ ending.toList) : Path.IsName (tagOf stem processId number ++ ending) := by
  refine isName_of_hyphen ?_ ?_ <;> rw [String.toList_append, List.mem_append]
  · exact .inl hyphen_mem_tagOf
  · exact not_or_intro (not_mem_tagOf hstem) hending

lemma file_eq (a : Artifacts) (extension : String) :
    a.file extension = Path.join a.directory (a.tag ++ ("." ++ extension)) := by
  rw [← String.append_assoc]
  rfl

/-- The number of a tag ends where no digit follows. -/
lemma tagOf_append_inj {rest rest' : String} {m n : Nat}
    (hrest : ∀ c ∈ rest.toList.head?, c.isDigit = false)
    (hrest' : ∀ c ∈ rest'.toList.head?, c.isDigit = false)
    (h : tagOf stem processId m ++ rest = tagOf stem processId n ++ rest') :
    m = n ∧ rest = rest' := by
  simp only [tagOf_eq, String.append_assoc, String.append_right_inj] at h
  exact Text.toString_nat_append_inj hrest hrest' h

/-- A path is one of a name in a directory, of which all places below belong to the area. -/
inductive LeadsInto (f : Files) (area : Place → Prop) : String → Prop
  | join {directory name : String} {p : Place} (hdirectory : f.HasDirectory directory p)
      (hname : Path.IsName name) (harea : ∀ q, p <+: q → area q) :
      LeadsInto f area (Path.join directory name)

lemma LeadsInto.mono (h : LeadsInto f area path) (hkeeps : KeepsDirectories f f')
    (harea : ∀ q, area q → area' q) : LeadsInto f' area' path := by
  cases h with
  | join hdirectory hname hbelow =>
    exact .join (hdirectory.keeps hkeeps) hname fun q hq => harea q (hbelow q hq)

lemma LeadsInto.area_of_resolve {t : Files.Target} (h : LeadsInto f area path)
    (hresolve : f.resolve path = .ok t) : area t.place := by
  cases h with
  | join hdirectory hname hbelow =>
    rw [hdirectory.eq_of_resolve_join hname hresolve]
    exact hbelow _ (List.prefix_append _ _)

/-- The directory of a family is at a place, below which everything belongs to the area, and the
names of its files begin with a tag. -/
structure LivesIn (a : Artifacts) (f : Files) (area : Place → Prop) : Prop where
  tag : ∃ stem processId number, '/' ∉ stem.toList ∧ a.tag = tagOf stem processId number
  directory : ∃ p, f.HasDirectory a.directory p ∧ ∀ q, p <+: q → area q

lemma LivesIn.mono (h : a.LivesIn f area) (hkeeps : KeepsDirectories f f')
    (harea : ∀ q, area q → area' q) : a.LivesIn f' area' where
  tag := h.tag
  directory := by
    obtain ⟨p, hdirectory, hbelow⟩ := h.directory
    exact ⟨p, hdirectory.keeps hkeeps, fun q hq => harea q (hbelow q hq)⟩

lemma LivesIn.leadsInto (h : a.LivesIn f area) {ending : String} (hending : '/' ∉ ending.toList) :
    LeadsInto f area (Path.join a.directory (a.tag ++ ending)) := by
  obtain ⟨stem, processId, number, hstem, htag⟩ := h.tag
  obtain ⟨p, hdirectory, hbelow⟩ := h.directory
  rw [htag]
  exact .join hdirectory (isName_tagOf_append hstem hending) hbelow

lemma LivesIn.leadsInto_file (h : a.LivesIn f area) (hextension : '/' ∉ extension.toList) :
    LeadsInto f area (a.file extension) := by
  rw [file_eq]
  exact h.leadsInto (by simpa using hextension)

/-- What a program puts behind the beginning of a path that it was given. -/
lemma start_append (hstem : '/' ∉ stem.toList) (htag : a.tag = tagOf stem processId number)
    (hname : '/' ∉ name.toList) (ending : String) :
    a.start name ++ ending = Path.join a.directory (a.tag ++ ("-" ++ name ++ ending)) := by
  have hslash : '/' ∉ (a.tag ++ "-" ++ name).toList := by
    rw [htag]
    simpa using ⟨not_mem_tagOf hstem, hname⟩
  have hne : a.tag ++ "-" ++ name ≠ "" := by simp
  rw [← String.append_assoc, ← String.append_assoc, Path.join_append _ hslash hne]
  rfl

lemma LivesIn.leadsInto_start (h : a.LivesIn f area) {ending : String}
    (hname : '/' ∉ name.toList) (hending : '/' ∉ ending.toList) :
    LeadsInto f area (a.start name ++ ending) := by
  obtain ⟨stem, processId, number, hstem, htag⟩ := h.tag
  rw [start_append hstem htag hname]
  exact h.leadsInto (by simpa using ⟨hname, hending⟩)

end Artifacts

/-- The witness that a check asks for. -/
lemma Settings.witnessPath?_check (settings : Settings) (kind : Diagnostic) (start : String)
    (arguments paths : List String) :
    RecordedRun.witnessPath? (settings.command
        (["-t", kind.value, settings.format.flag, start] ++ arguments ++ paths)) =
      some (settings.format.witnessPath start) := by
  simp only [Settings.command, RecordedRun.witnessPath?, List.cons_append, List.nil_append]
  cases settings.format <;> rfl

/-! ### Sessions -/

namespace World

variable {w w' w'' : World} {area : Place → Prop}

/-- The files are a tree, and programs write nothing but the witness that they are asked for. -/
structure Discreet (w : World) : Prop where
  tree : w.files.IsTree
  writes : ∀ launched command limit files reaction,
    w.behaviour launched command limit files = .ok reaction →
      ∀ file ∈ reaction.writes, RecordedRun.witnessPath? command = some file.1

/-- What has changed between two worlds are files in an area, and not the behaviour of the
programs. -/
structure Changes (area : Place → Prop) (w w' : World) : Prop where
  files : w.files.ChangedIn area w'.files
  behaviour : w'.behaviour = w.behaviour

lemma Discreet.changes (h : w.Discreet) : w.Changes area w := ⟨h.tree.changedIn, rfl⟩

lemma Changes.discreet (h : w.Changes area w') (hw : w.Discreet) : w'.Discreet where
  tree := h.files.tree
  writes := h.behaviour ▸ hw.writes

lemma Changes.trans (h : w.Changes area w') (h' : w'.Changes area w'') : w.Changes area w'' where
  files := h.files.trans h'.files
  behaviour := h'.behaviour.trans h.behaviour

end World

namespace Session

variable {w : World} {area : Place → Prop} {path : String} {command : Command}
  {limit : Option Duration} {ε α β : Type}

open Artifacts (LeadsInto)

/-- A session that goes on behind a step. -/
lemma changes_bind {x : Session α} {next : α → Session β} (hw : w.Discreet)
    (hx : w.Changes area (x w).2)
    (hnext : ∀ a (w' : World), w'.Discreet → w.files.KeepsDirectories w'.files →
      w'.Changes area (next a w').2) :
    w.Changes area ((x >>= next) w).2 :=
  hx.trans (hnext _ _ (hx.discreet hw) hx.files.same.keeps)

/-- A session that goes on behind a step unless the step fails. -/
lemma changes_step {x : Session (Except ε α)} {next : Except ε α → Session β} (hw : w.Discreet)
    (hx : w.Changes area (x w).2) (herror : ∀ error w', (next (.error error) w').2 = w')
    (hnext : ∀ a (w' : World), w'.Discreet → w.files.KeepsDirectories w'.files →
      w'.Changes area (next (.ok a) w').2) :
    w.Changes area ((x >>= next) w).2 := by
  refine changes_bind hw hx fun result w' hw' hkeeps => ?_
  cases result with
  | error error =>
    rw [herror]
    exact hw'.changes
  | ok a => exact hnext a w' hw' hkeeps

lemma changes_writeText (hw : w.Discreet) (hpath : LeadsInto w.files area path) (text : String) :
    w.Changes area (writeText path text w).2 := by
  rw [writeText_apply]
  cases hwrite : w.files.write path (.text text) with
  | error error => exact hw.changes
  | ok files =>
    exact ⟨hw.tree.changedIn_of_write hwrite fun t ht => hpath.area_of_resolve ht, rfl⟩

lemma changedIn_apply {f : Files} {r : Reaction} (hf : f.IsTree)
    (hwrites : ∀ file ∈ r.writes, LeadsInto f area file.1) : f.ChangedIn area (r.apply f) := by
  unfold Reaction.apply
  generalize r.writes = writes at hwrites
  induction writes generalizing f with
  | nil => exact hf.changedIn
  | cons file writes ih =>
    obtain ⟨path, content⟩ := file
    obtain ⟨hfile, hwrites⟩ := List.forall_mem_cons.1 hwrites
    rw [List.foldl_cons]
    dsimp only
    cases hwrite : f.write path content with
    | error error => exact ih hf hwrites
    | ok files =>
      have hchange := hf.changedIn_of_write hwrite fun t ht => hfile.area_of_resolve ht
      refine hchange.trans (ih hchange.tree fun other hother => ?_)
      exact (hwrites other hother).mono hchange.same.keeps fun _ => id

lemma changes_start (hw : w.Discreet)
    (hwitness : ∀ path ∈ RecordedRun.witnessPath? command, LeadsInto w.files area path) :
    w.Changes area (start command limit w).2 := by
  unfold start
  split_ifs
  · exact hw.changes
  · exact hw.changes
  · cases hreaction : w.behaviour w.launched command limit w.files with
    | error error => exact hw.changes
    | ok reaction =>
      refine ⟨changedIn_apply hw.tree fun file hfile => hwitness _ ?_, rfl⟩
      exact hw.writes _ _ _ _ _ hreaction file hfile

lemma changes_run (hw : w.Discreet)
    (hwitness : ∀ path ∈ RecordedRun.witnessPath? command, LeadsInto w.files area path) :
    w.Changes area (run command limit w).2 := by
  rw [run_apply]
  exact changes_start hw hwitness

lemma changes_runChecked (hw : w.Discreet) (hnone : RecordedRun.witnessPath? command = none) :
    w.Changes area (runChecked command limit w).2 := by
  rw [runChecked_apply]
  exact changes_run hw (by simp [hnone])

lemma changes_runBatch (hw : w.Discreet) {commands : List Command}
    (hwitness : ∀ command ∈ commands, ∀ path ∈ RecordedRun.witnessPath? command,
      LeadsInto w.files area path) (mode : Mode) (size : Option Nat) :
    w.Changes area (runBatch mode size limit commands w).2 := by
  rw [runBatch_eq]
  induction commands using List.reverseRecOn with
  | nil => exact hw.changes
  | append_singleton commands command ih =>
    obtain ⟨hcommands, hcommand⟩ := List.forall_mem_append.1 hwitness
    have hbefore := ih hcommands
    rw [runSequentially_append_singleton, result_apply]
    refine hbefore.trans (changes_run (hbefore.discreet hw) fun path hpath => ?_)
    exact (hcommand command List.mem_cons_self path hpath).mono hbefore.files.same.keeps fun _ => id

/-- What each element of a list changes is in the area, if it is so whatever the elements before it
have changed there. -/
lemma changes_mapM {step : α → Session β} {l : List α} (hw : w.Discreet)
    (hstep : ∀ a ∈ l, ∀ w', w.Changes area w' → w'.Changes area (step a w').2) :
    w.Changes area (l.mapM step w).2 := by
  induction l using List.reverseRecOn with
  | nil => exact hw.changes
  | append_singleton l a ih =>
    obtain ⟨hl, ha⟩ := List.forall_mem_append.1 hstep
    have hbefore := ih hl
    rw [List.mapM_append]
    exact hbefore.trans (ha a List.mem_cons_self _ hbefore)

end Session

/-! ### Temporary directories -/

namespace Artifacts

variable {w : World} {area : Place → Prop}

/-- The family in the next temporary directory. -/
def temporary (w : World) (stem : String) : Artifacts :=
  ⟨scopeOf w.scratch w.scopes, false, tagOf stem w.processId (w.tags + 1)⟩

lemma create_temporary (directory stem : String) (w : World) :
    create false directory stem w =
      match w.files.makeDirectory (scopeOf w.scratch w.scopes) with
      | .ok files =>
        (.ok (temporary w stem), { w with files, scopes := w.scopes + 1, tags := w.tags + 1 })
      | .error error => (.error error, { w with scopes := w.scopes + 1 }) := by
  have hscope : freshScope w = match w.files.makeDirectory (scopeOf w.scratch w.scopes) with
      | .ok files => (.ok (scopeOf w.scratch w.scopes), { w with files, scopes := w.scopes + 1 })
      | .error error => (.error error, { w with scopes := w.scopes + 1 }) := rfl
  simp only [create, Bool.false_eq_true, if_false, Session.bind_apply, hscope]
  generalize w.files.makeDirectory (scopeOf w.scratch w.scopes) = made
  cases made <;> rfl

lemma release_temporary {a : Artifacts} (ha : a.held = false) {p : Place}
    (hdirectory : w.files.HasDirectory a.directory p) :
    a.release w = ((), { w with files := w.files.removeTree p }) := by
  obtain ⟨only, hresolve⟩ := hdirectory.leads
  simp only [release, ha, Bool.false_eq_true, if_false, hresolve]

/-- With a temporary directory, a session that uses the family changes nothing but what it changes
outside of the directory. -/
lemma changes_within {ε α : Type} {directory stem : String} {onError : SystemError → ε}
    {use : Artifacts → Session (Except ε α)} (hw : w.Discreet) (hstem : '/' ∉ stem.toList)
    (huse : ∀ (area' : Place → Prop) (a : Artifacts) (w' : World), (∀ q, area q → area' q) →
      w'.Discreet → w.files.KeepsDirectories w'.files → a.held = false →
      a.LivesIn w'.files area' → w'.Changes area' (use a w').2) :
    w.Changes area (within false directory stem onError use w).2 := by
  rw [within_apply, create_temporary]
  cases hmake : w.files.makeDirectory (scopeOf w.scratch w.scopes) with
  | error error => exact ⟨hw.tree.changedIn, rfl⟩
  | ok files =>
    obtain ⟨p, hmade⟩ := hw.tree.exists_made hmake
    have hlives : (temporary w stem).LivesIn files (fun q => area q ∨ p <+: q) :=
      ⟨⟨stem, w.processId, w.tags + 1, hstem, rfl⟩, p, hmade.hasDirectory, fun q => .inr⟩
    have hchange := huse (fun q => area q ∨ p <+: q) (temporary w stem)
      { w with files, scopes := w.scopes + 1, tags := w.tags + 1 } (fun q => .inl)
      ⟨hmade.tree, hw.writes⟩ hmade.keeps rfl hlives
    -- when the family is released, its directory is still where it was made
    have hstill := hmade.hasDirectory.keeps hchange.files.same.keeps
    dsimp only
    rw [release_temporary rfl hstill]
    exact ⟨hmade.changedIn hw.tree hchange.files, hchange.behaviour⟩

end Artifacts

end TimedPatterns
