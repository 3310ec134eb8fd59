import TimedPatterns.Proofs.Files.Directory

/-!
# Files that remain

Where nothing is overwritten, files and directories remain. So a path that could be read before is
read as before, whatever has been added meanwhile, be it that a temporary directory has been made,
used and removed.
-/

namespace TimedPatterns.Files

variable {f f' f'' : Files} {p q : Place} {path path' name : String} {content : Content}

/-- Files and directories remain what they were. -/
structure Grows (f f' : Files) : Prop where
  keeps : KeepsDirectories f f'
  at?_of : ∀ p content, f.at? p = some (.file content) → f'.at? p = some (.file content)

lemma Grows.refl (f : Files) : Grows f f := ⟨.refl f, fun _ _ => id⟩

/-- What there is remains. -/
lemma Grows.at?_eq (h : Grows f f') {node : Node} (hp : f.at? p = some node) :
    f'.at? p = some node := by
  cases node with
  | directory => exact h.keeps.at?_of p hp
  | file content => exact h.at?_of p content hp

/-- What is written where nothing was before leaves what was before. -/
lemma Grows.update (h : Grows f f') (hp : f.at? p = none) (hkeeps : KeepsDirectories f' f'')
    {node : Node} (hat : f''.at? = Function.update f'.at? p (some node)) : Grows f f'' := by
  refine ⟨h.keeps.trans hkeeps, fun q content hq => ?_⟩
  have hne : q ≠ p := by
    rintro rfl
    rw [hp] at hq
    cases hq
  rw [hat, Function.update_of_ne hne, h.at?_of q content hq]

/-! ### Reading -/

lemma exists_of_read (hread : f.read path = .ok content) :
    ∃ p, f.resolve path = .ok ⟨p, false⟩ ∧ f.at? p = some (.file content) := by
  unfold read at hread
  cases hresolve : f.resolve path with
  | error error =>
    rw [hresolve] at hread
    cases hread
  | ok t =>
    obtain ⟨p, only⟩ := t
    rw [hresolve] at hread
    simp only [bind, Except.bind] at hread
    rcases hp : f.at? p with _ | _ | other <;> rw [hp] at hread
    · cases hread
    · cases hread
    · cases only
      · cases hread
        exact ⟨p, rfl, hp⟩
      · cases hread

/-- A file is read as before. -/
lemma Grows.read (h : Grows f f') (hread : f.read path = .ok content) :
    f'.read path = .ok content := by
  obtain ⟨p, hresolve, hp⟩ := exists_of_read hread
  exact (read_eq_ok_iff (h.keeps.resolve hresolve)).2 (h.at?_of p content hp)

/-- Two paths that lead to the same are read alike. -/
lemma read_congr (hresolve : f.resolve path = .ok ⟨p, false⟩)
    (hresolve' : f'.resolve path' = .ok ⟨q, false⟩) (hat : f'.at? q = f.at? p) :
    f'.read path' = f.read path := by
  simp only [Files.read, hresolve, hresolve', bind, Except.bind, hat]

/-! ### New files -/

/-- A path leads to where nothing is, and a file or a directory can be made. -/
def IsFree (f : Files) (path : String) : Prop :=
  ∃ p, f.resolve path = .ok ⟨p, false⟩ ∧ f.at? p = none

instance (f : Files) (path : String) : Decidable (f.IsFree path) :=
  match h : f.resolve path with
  | .ok ⟨p, false⟩ => decidable_of_iff (f.at? p = none) (by simp [IsFree, h])
  | .ok ⟨_, true⟩ => isFalse (by simp [IsFree, h])
  | .error _ => isFalse (by simp [IsFree, h])

/-- A free name in a directory is not too long. -/
lemma HasDirectory.of_isFree (h : f.HasDirectory path p) (hname : Path.IsName name)
    (hfree : f.IsFree (Path.join path name)) :
    f.resolve (Path.join path name) = .ok ⟨p ++ [name], false⟩ ∧
      f.at? (p ++ [name]) = none := by
  obtain ⟨q, hresolve, hq⟩ := hfree
  obtain ⟨rfl, -⟩ := Target.mk.inj (h.eq_of_resolve_join hname hresolve)
  exact ⟨hresolve, hq⟩

lemma checkPath_eq_ok_iff : checkPath path = .ok () ↔
    '\x00' ∉ path.toList ∧ path ≠ "" ∧ path.utf8ByteSize ≤ pathLimit := by
  unfold checkPath
  split_ifs <;> simp_all

/-- The path of a name in a directory can be given to the system if it is not too long. -/
lemma checkPath_join (hpath : checkPath path = .ok ()) (hname : Path.IsName name)
    (hnul : '\x00' ∉ name.toList) (hlength : path.utf8ByteSize + name.utf8ByteSize < pathLimit) :
    checkPath (Path.join path name) = .ok () := by
  have hslash : "/".utf8ByteSize = 1 := rfl
  rw [checkPath_eq_ok_iff] at hpath ⊢
  obtain ⟨hpathnul, hne, -⟩ := hpath
  rw [Path.join_eq path (Path.head?_ne_of_not_mem hname.not_mem), if_neg hne]
  split
  · refine ⟨by simp [hpathnul, hnul], by simp [hne], ?_⟩
    rw [String.utf8ByteSize_append]
    exact hlength.le
  · refine ⟨by simp [hpathnul, hnul], by simp, ?_⟩
    rw [String.utf8ByteSize_append, String.utf8ByteSize_append, hslash]
    omega

/-- A name that is not too long is free in a directory in which nothing has it. -/
lemma HasDirectory.isFree (h : f.HasDirectory path p) (hname : Path.IsName name)
    (hcheck : checkPath (Path.join path name) = .ok ()) (hshort : name.utf8ByteSize ≤ nameLimit)
    (hnone : f.at? (p ++ [name]) = none) : f.IsFree (Path.join path name) := by
  refine ⟨p ++ [name], ?_, hnone⟩
  rw [h.resolve_join hname hcheck, below, if_neg hshort.not_gt]
  rfl

/-- A name that is not too long in one directory is not too long in another one. -/
lemma HasDirectory.resolve_of_resolve (h : f.HasDirectory path p) (hname : Path.IsName name)
    (hresolve : f.resolve (Path.join path name) = .ok ⟨p ++ [name], false⟩)
    (h' : f'.HasDirectory path' q) (hcheck : checkPath (Path.join path' name) = .ok ()) :
    f'.resolve (Path.join path' name) = .ok ⟨q ++ [name], false⟩ := by
  rw [h.resolve_join hname (checkPath_of_resolve hresolve), below] at hresolve
  rw [h'.resolve_join hname hcheck, below]
  split at hresolve
  · cases hresolve
  · next hshort =>
    rw [if_neg hshort]
    rfl

/-- A file is written where no directory is. -/
lemma IsTree.exists_write (h : f.IsTree) (hresolve : f.resolve path = .ok ⟨p, false⟩)
    (hp : f.at? p ≠ some .directory) (content : Content) :
    ∃ f', f.write path content = .ok f' ∧
      Becomes f f' (Function.update f.at? p (some (.file content))) := by
  refine ⟨f.put p (.file content), ?_, h.becomes_put hresolve hp content⟩
  simp only [write, hresolve, bind, Except.bind, Bool.false_eq_true, if_false]
  rcases hat : f.at? p with _ | _ | other
  · rfl
  · exact absurd hat hp
  · rfl

/-! ### Directories -/

/-- The place that a path leads to. -/
def placeOf (f : Files) (path : String) : Place :=
  match f.resolve path with
  | .ok t => t.place
  | .error _ => []

lemma hasDirectory_placeOf (h : f.isDirectory path = true) :
    f.HasDirectory path (f.placeOf path) := by
  unfold isDirectory find? at h
  unfold placeOf
  cases hresolve : f.resolve path with
  | error error =>
    rw [hresolve] at h
    cases h
  | ok t =>
    obtain ⟨p, only⟩ := t
    rw [hresolve] at h
    dsimp only at h ⊢
    rcases hp : f.at? p with _ | _ | content <;> rw [hp] at h
    · cases h
    · exact ⟨⟨only, hresolve⟩, hp⟩
    · cases only <;> cases h

lemma HasDirectory.isDirectory (h : f.HasDirectory path p) : f.isDirectory path = true := by
  obtain ⟨only, hresolve⟩ := h.leads
  simp only [Files.isDirectory, find?, hresolve, h.at?_eq]
  rfl

/-- A directory that is there need not be made. -/
lemma HasDirectory.makeDirectories (h : f.HasDirectory path p) :
    f.makeDirectories path = (.ok (), f) := by
  obtain ⟨only, hresolve⟩ := h.leads
  have hmake : f.makeDirectory path = .error .nameTaken := by
    simp only [makeDirectory, hresolve, bind, Except.bind, h.at?_eq]
  have hensure : f.ensureDirectory path = .ok f := by
    simp only [ensureDirectory, hmake, h.isDirectory, if_true]
  unfold Files.makeDirectories makeDirectoriesFrom
  rw [hensure]
  split_ifs <;> rfl

/-- A directory is made where nothing is. -/
lemma IsFree.exists_makeDirectory (h : f.IsFree path) : ∃ f', f.makeDirectory path = .ok f' := by
  obtain ⟨p, hresolve, hp⟩ := h
  refine ⟨f.put p .directory, ?_⟩
  simp only [makeDirectory, hresolve, hp, bind, Except.bind]
  rfl

/-- When a directory is removed where nothing was before, then what was before remains. -/
lemma Grows.removeTree (h : Grows f f') (htree : f.IsTree) (hp : f.at? p = none) :
    Grows f (f'.removeTree p) := by
  have hne : p ≠ [] := ne_nil_of_at? (f := f) (by simp [hp])
  have hkept : ∀ q node, f.at? q = some node → (f'.removeTree p).at? q = some node := by
    intro q node hq
    rw [at?_removeTree hne, if_neg, h.at?_eq hq]
    rintro ⟨x, rfl⟩
    rcases eq_or_ne x [] with rfl | hx
    · rw [List.append_nil, hp] at hq
      cases hq
    · rw [htree.at?_below (by simp [hp]) hx] at hq
      cases hq
  exact ⟨⟨h.keeps.here, fun q => hkept q .directory⟩, fun q content => hkept q (.file content)⟩

lemma IsTree.removeTree (h : f.IsTree) (hp : p ≠ [])
    (hhere : (f.removeTree p).at? f.here = some .directory) : (f.removeTree p).IsTree where
  here := hhere
  parent place name hsome := by
    rw [at?_removeTree hp] at hsome ⊢
    split at hsome
    · cases hsome
    · next hq =>
      rw [if_neg fun hbelow => hq (hbelow.trans (List.prefix_append _ _))]
      exact h.parent place name hsome

end TimedPatterns.Files
