import TimedPatterns.Proofs.Files
import TimedPatterns.Proofs.Path

/-!
# Files in a directory

The path of a name in a directory leads to the name below the place of the directory. So what is
written under such paths stays in one area of the tree.

If a directory is made, used and removed with all that is in it, then what has changed besides is
what was changed outside of it.
-/

namespace TimedPatterns.Files

variable {f f' f'' : Files} {p q : Place} {path name : String} {content : Content} {t : Target}
  {area : Place → Prop}

/-! ### Names in a directory -/

/-- A path leads to a directory at a place. -/
structure HasDirectory (f : Files) (path : String) (p : Place) : Prop where
  leads : ∃ only, f.resolve path = .ok ⟨p, only⟩
  at?_eq : f.at? p = some .directory

lemma HasDirectory.keeps (h : f.HasDirectory path p) (hkeeps : KeepsDirectories f f') :
    f'.HasDirectory path p where
  leads := by
    obtain ⟨only, hresolve⟩ := h.leads
    exact ⟨only, hkeeps.resolve hresolve⟩
  at?_eq := hkeeps.at?_of p h.at?_eq

lemma walk_blanks {blanks : List String} (h : ∀ blank ∈ blanks, blank = "") :
    blanks.foldlM f.enter p = .ok p := by
  induction blanks with
  | nil => rfl
  | cons blank blanks ih =>
    obtain ⟨rfl, hblanks⟩ := List.forall_mem_cons.1 h
    have henter : f.enter p "" = .ok p := if_pos (.inl rfl)
    rw [List.foldlM_cons, henter]
    exact ih hblanks

lemma ne_of_isName {last : String} (h : isName last) : last ≠ "" ∧ last ≠ "." ∧ last ≠ ".." := by
  simpa [isName, and_assoc] using h

/-- All parts of the path of a directory lead to the directory. -/
lemma HasDirectory.walk (h : f.HasDirectory path p) :
    (Text.splitAt '/' path).foldlM f.enter (f.startOf path) = .ok p := by
  obtain ⟨only, hresolve⟩ := h.leads
  obtain ⟨walked, finish, hkind, hfinish⟩ := exists_finish path
  rw [hfinish] at hresolve
  obtain ⟨place, hwalk, ht⟩ := exists_walk_of_resolve hresolve
  -- how the path ends decides what its last part is entered as: a path to a directory may end in a
  -- name, in points or in a slash
  cases hkind with
  | fails error => cases ht
  | directory =>
    cases ht
    exact hwalk
  | @name last _ blanks _ hparts hname hblanks =>
    have hlast : below place last = .ok p := by
      dsimp only at ht
      cases hbelow : below place last with
      | error error =>
        rw [hbelow] at ht
        cases ht
      | ok q =>
        rw [hbelow] at ht
        cases ht
        rfl
    obtain ⟨hempty, hpoint, hpoints⟩ := ne_of_isName hname
    have henter : f.enter place last = .ok p := by
      rw [enter_eq_ok_iff, if_neg (by simp [hempty, hpoint]), if_neg hpoints]
      exact ⟨hlast, h.at?_eq⟩
    rw [hparts, List.foldlM_append, hwalk]
    show (last :: blanks).foldlM f.enter place = .ok p
    rw [List.foldlM_cons, henter]
    exact walk_blanks hblanks

lemma ne_empty_of_resolve (hresolve : f.resolve path = .ok t) : path ≠ "" := by
  rintro rfl
  cases checkPath_of_resolve hresolve

/-- A path whose last part is a name leads to the name in the directory to which the parts before it
lead. -/
lemma resolve_of_last (f : Files) {before : List String}
    (hparts : Text.splitAt '/' path = before ++ [name]) (hname : Path.IsName name)
    (hcheck : checkPath path = .ok ()) :
    f.resolve path = (before.foldlM f.enter (f.startOf path)).bind fun place =>
      (below place name).map (⟨·, false⟩) := by
  have hlast : (decide (name ≠ "") && decide (name ≠ ".") && decide (name ≠ "..")) = true := by
    simp [hname.ne_empty, hname.ne_point, hname.ne_points]
  simp only [resolve, hcheck, hparts, List.reverse_append, List.reverse_singleton,
    List.singleton_append, hlast, if_true, List.reverse_reverse, startOf]
  generalize before.foldlM f.enter _ = walked
  cases walked with
  | error error => rfl
  | ok place =>
    simp only [bind, Except.bind]
    cases below place name <;> rfl

/-- The path of a name in a directory leads to the name, if it is not too long. -/
lemma HasDirectory.resolve_join (h : f.HasDirectory path p) (hname : Path.IsName name)
    (hcheck : checkPath (Path.join path name) = .ok ()) :
    f.resolve (Path.join path name) = (below p name).map (⟨·, false⟩) := by
  obtain ⟨only, hresolve⟩ := h.leads
  obtain ⟨parts, blanks, hparts, hblanks, hjoin, hhead⟩ :=
    Path.splitAt_join (ne_empty_of_resolve hresolve) hname.not_mem
  have hwalk := h.walk
  rw [hparts, List.foldlM_append] at hwalk
  obtain ⟨place, hplace⟩ : ∃ place, parts.foldlM f.enter (f.startOf path) = .ok place := by
    cases hplace : parts.foldlM f.enter (f.startOf path) with
    | error error =>
      rw [hplace] at hwalk
      cases hwalk
    | ok place => exact ⟨place, rfl⟩
  rw [hplace] at hwalk
  -- the blank parts behind the directory lead nowhere else
  obtain rfl : place = p := Except.ok.inj ((walk_blanks hblanks).symm.trans hwalk)
  have hstart : f.startOf (Path.join path name) = f.startOf path := by
    rw [startOf, startOf, hhead]
  rw [resolve_of_last f hjoin hname hcheck, hstart, hplace]
  rfl

lemma HasDirectory.eq_of_resolve_join (h : f.HasDirectory path p) (hname : Path.IsName name)
    (hresolve : f.resolve (Path.join path name) = .ok t) : t = ⟨p ++ [name], false⟩ := by
  rw [h.resolve_join hname (checkPath_of_resolve hresolve), below] at hresolve
  split_ifs at hresolve
  · cases hresolve
  · exact (Except.ok.inj hresolve).symm

/-! ### Changes in an area -/

/-- A change of files in an area of a tree, in which the directories remain what they are. -/
structure ChangedIn (area : Place → Prop) (f f' : Files) : Prop where
  tree : f'.IsTree
  same : SameDirectories f f'
  at?_eq : ∀ q, ¬ area q → f'.at? q = f.at? q

lemma IsTree.changedIn (h : f.IsTree) : ChangedIn area f f := ⟨h, .refl f, fun _ _ => rfl⟩

lemma ChangedIn.trans (h : ChangedIn area f f') (h' : ChangedIn area f' f'') :
    ChangedIn area f f'' where
  tree := h'.tree
  same := h.same.trans h'.same
  at?_eq q hq := (h'.at?_eq q hq).trans (h.at?_eq q hq)

/-- Writing a file is a change in every area that the file is in. -/
lemma IsTree.changedIn_of_write (h : f.IsTree) (hwrite : f.write path content = .ok f')
    (harea : ∀ t, f.resolve path = .ok t → area t.place) : ChangedIn area f f' := by
  obtain ⟨place, hresolve, hplace, rfl⟩ := exists_of_write hwrite
  have hput := h.becomes_put hresolve hplace content
  refine ⟨hput.tree, hput.same, fun q hq => ?_⟩
  have hne : q ≠ place := by
    rintro rfl
    exact hq (harea _ hresolve)
  rw [hput.at?_eq, Function.update_of_ne hne]

/-! ### Directories for a while -/

/-- A directory is made where nothing has been. -/
lemma exists_of_makeDirectory (h : f.makeDirectory path = .ok f') :
    ∃ t, f.resolve path = .ok t ∧ f.at? t.place = none ∧ f' = f.put t.place .directory := by
  unfold makeDirectory at h
  cases hresolve : f.resolve path with
  | error error =>
    rw [hresolve] at h
    cases h
  | ok t =>
    rw [hresolve] at h
    simp only [bind, Except.bind] at h
    cases hplace : f.at? t.place with
    | some node =>
      rw [hplace] at h
      cases h
    | none =>
      rw [hplace] at h
      cases h
      exact ⟨t, rfl, hplace, rfl⟩

/-- The files with a directory that is made at a place, where nothing has been. -/
structure Made (f f' : Files) (path : String) (p : Place) : Prop where
  tree : f'.IsTree
  keeps : KeepsDirectories f f'
  at?_none : f.at? p = none
  at?_eq : f'.at? = Function.update f.at? p (some .directory)
  hasDirectory : f'.HasDirectory path p

lemma IsTree.exists_made (h : f.IsTree) (hmake : f.makeDirectory path = .ok f') :
    ∃ p, Made f f' path p := by
  obtain ⟨⟨p, only⟩, hresolve, hnone, rfl⟩ := exists_of_makeDirectory hmake
  dsimp only at hnone ⊢
  have hne : p ≠ [] := ne_nil_of_at? (f := f) (by simp [hnone])
  have hat := f.at?_put hne .directory
  have hkeeps : KeepsDirectories f (f.put p .directory) := by
    refine ⟨rfl, fun q hq => ?_⟩
    rw [hat, Function.update_apply]
    split
    · rfl
    · exact hq
  refine ⟨p, ⟨hkeeps.at?_of _ h.here, fun place name hsome => ?_⟩, hkeeps, hnone, hat,
    ⟨only, hkeeps.resolve hresolve⟩, ?_⟩
  · apply hkeeps.at?_of
    rw [hat, Function.update_apply] at hsome
    split at hsome
    · next heq =>
      have hparent := h.at?_dropLast hresolve
      rwa [← heq, List.dropLast_concat] at hparent
    · exact h.parent place name hsome
  · rw [hat, Function.update_self]

lemma at?_removeTree (hp : p ≠ []) (q : Place) :
    (f.removeTree p).at? q = if p <+: q then none else f.at? q := by
  have hlookup := lookup_filter (fun place => !p.isPrefixOf place) q f.nodes
  rcases eq_or_ne q [] with rfl | hq
  · rw [if_neg (by simpa using hp)]
    rfl
  · rw [at?_eq_lookup hq, at?_eq_lookup hq]
    refine hlookup.trans ?_
    simp only [Bool.not_eq_true', ← Bool.not_eq_true, List.isPrefixOf_iff_prefix, ite_not]

/-- When a directory is removed that was made for a while, what has changed besides is what was
changed outside of it. -/
lemma Made.changedIn (h : Made f f' path p) (htree : f.IsTree)
    (hchange : ChangedIn (fun q => area q ∨ p <+: q) f' f'') :
    ChangedIn area f (f''.removeTree p) := by
  have hne : p ≠ [] := ne_nil_of_at? (f := f) (by simp [h.at?_none])
  -- nothing has been below the place of the directory
  have hbelow : ∀ q, p <+: q → f.at? q = none := by
    rintro q ⟨x, rfl⟩
    rcases eq_or_ne x [] with rfl | hx
    · rw [List.append_nil, h.at?_none]
    · exact htree.at?_below (by simp [h.at?_none]) hx
  have hother : ∀ q, ¬ p <+: q → f'.at? q = f.at? q := by
    intro q hq
    have hqp : q ≠ p := by
      rintro rfl
      exact hq (List.prefix_refl _)
    rw [h.at?_eq, Function.update_of_ne hqp]
  have hsame : SameDirectories f (f''.removeTree p) := by
    refine ⟨hchange.same.here.trans h.keeps.here, fun q => ?_⟩
    rw [at?_removeTree hne]
    split
    · next hq => rw [hbelow q hq]
    · next hq => rw [hchange.same.at?, hother q hq]
  refine ⟨⟨?_, fun place name hsome => ?_⟩, hsame, fun q hq => ?_⟩
  · rw [hsame.here, hsame.at?, htree.here]
  · rw [at?_removeTree hne] at hsome ⊢
    split at hsome
    · cases hsome
    · next hq =>
      rw [if_neg fun hp => hq (hp.trans (List.prefix_append _ _))]
      exact hchange.tree.parent place name hsome
  · rw [at?_removeTree hne]
    split
    · next hbelow' => rw [hbelow q hbelow']
    · next hnot => rw [hchange.at?_eq q (by simp [hq, hnot]), hother q hnot]

end TimedPatterns.Files
