import TimedPatterns.Proofs.Artifacts
import TimedPatterns.Proofs.Files.Growth

/-!
# Where files are held and where they are not

A run of a search that holds its files has them in one directory. Beside it stands a run that has
the same files in temporary directories, one for each family. The name of a file tells the number of
its family, and by the number a file of one run is matched with one of the other.

The files of the two runs face each other: the families that are in use have the same files on both
sides, those to come have none, and what there was before either run is still there.
-/

namespace TimedPatterns

open Files (Grows HasDirectory KeepsDirectories)

/-- How the files of two runs that begin in one world are laid out: in a directory, or in temporary
directories. A file has the number of its family, and perhaps that of an earlier family, in its
name. Files that are shared are the same in both runs. At most `count` families are begun. -/
structure Layout (κ : Type) where
  world : World
  directory : String
  count : Nat
  name : κ → String
  first : κ → Nat
  number : κ → Nat
  shared : κ → Prop

namespace Layout

variable {κ : Type} (L : Layout κ)

/-! ### Paths -/

/-- The number of the last family. -/
def last : Nat := L.world.tags + L.count

/-- The number of the temporary directory of a family. -/
def scope (n : Nat) : Nat := L.world.scopes + (n - L.world.tags - 1)

def scopeName (n : Nat) : String := s!"pattern-finder-{L.scope n}"

def scopePath (n : Nat) : String := Artifacts.scopeOf L.world.scratch (L.scope n)

/-- The path of a file that is held. -/
def heldPath (key : κ) : String := Path.join L.directory (L.name key)

def scopedPath (key : κ) : String := Path.join (L.scopePath (L.number key)) (L.name key)

/-- The place of a file that is held. -/
def heldPlace (key : κ) : Place := L.world.files.placeOf L.directory ++ [L.name key]

def scopePlace (n : Nat) : Place := L.world.files.placeOf L.world.scratch ++ [L.scopeName n]

def scopedPlace (key : κ) : Place := L.scopePlace (L.number key) ++ [L.name key]

/-- A file of the families that are begun. -/
structure Valid (key : κ) : Prop where
  first : L.world.tags < L.first key
  ordered : L.first key ≤ L.number key
  last : L.number key ≤ L.last

/-- There is room for the families: the directories are there, and the names are free and not too
long. -/
structure Room : Prop where
  tree : L.world.files.IsTree
  directory : L.world.files.isDirectory L.directory = true
  scratch : L.world.files.isDirectory L.world.scratch = true
  free : ∀ key, L.Valid key → L.world.files.IsFree (L.heldPath key)
  fits : ∀ key, L.Valid key → Files.checkPath (L.scopedPath key) = .ok ()
  scopes : ∀ n, L.world.tags < n → n ≤ L.last → L.world.files.IsFree (L.scopePath n)

/-- Names are those of files, and different files have different names. -/
structure Proper : Prop where
  isName : ∀ key, Path.IsName (L.name key)
  injective : Function.Injective L.name

variable {L} {F G : Set Nat} {tags n m : Nat} {f g : Files} {key key' : κ}

lemma Valid.number (h : L.Valid key) : L.world.tags < L.number key := h.first.trans_le h.ordered

lemma scopeName_eq (n : Nat) : L.scopeName n = "pattern-finder-" ++ toString (L.scope n) := rfl

lemma isName_scopeName (n : Nat) : Path.IsName (L.scopeName n) := by
  rw [scopeName_eq]
  refine Artifacts.isName_of_hyphen ?_ ?_ <;> rw [String.toList_append, List.mem_append]
  · exact .inl (by decide)
  · exact not_or_intro (by decide) (Artifacts.not_mem_toString_nat _)

lemma eq_of_scopePlace_eq (hn : L.world.tags < n) (hm : L.world.tags < m)
    (h : L.scopePlace n = L.scopePlace m) : n = m := by
  have hname : L.scopeName n = L.scopeName m := List.singleton_inj.1 (List.append_cancel_left h)
  rw [scopeName_eq, scopeName_eq, String.append_right_inj] at hname
  have hscope : L.scope n = L.scope m := Text.toString_nat_injective hname
  unfold scope at hscope
  omega

lemma heldPlace_inj (hL : L.Proper) : L.heldPlace key = L.heldPlace key' ↔ key = key' := by
  refine ⟨fun h => hL.injective ?_, fun h => h ▸ rfl⟩
  exact List.singleton_inj.1 (List.append_cancel_left h)

lemma scopedPlace_inj (hL : L.Proper) : L.scopedPlace key = L.scopedPlace key' ↔ key = key' := by
  refine ⟨fun h => hL.injective ?_, fun h => h ▸ rfl⟩
  exact List.singleton_inj.1 (List.append_inj_right' h rfl)

lemma scopedPlace_ne_scopePlace (key : κ) (n : Nat) : L.scopedPlace key ≠ L.scopePlace n := by
  intro h
  simpa [scopedPlace, scopePlace] using congrArg List.length h

/-! ### The world in which both runs begin -/

namespace Room

lemma hasDirectory (h : L.Room) :
    L.world.files.HasDirectory L.directory (L.world.files.placeOf L.directory) :=
  Files.hasDirectory_placeOf h.directory

lemma hasScratch (h : L.Room) :
    L.world.files.HasDirectory L.world.scratch (L.world.files.placeOf L.world.scratch) :=
  Files.hasDirectory_placeOf h.scratch

lemma held (h : L.Room) (hL : L.Proper) (hkey : L.Valid key) :
    L.world.files.resolve (L.heldPath key) = .ok ⟨L.heldPlace key, false⟩ ∧
      L.world.files.at? (L.heldPlace key) = none :=
  h.hasDirectory.of_isFree (hL.isName key) (h.free key hkey)

lemma scope (h : L.Room) (hn : L.world.tags < n) (hlast : n ≤ L.last) :
    L.world.files.resolve (L.scopePath n) = .ok ⟨L.scopePlace n, false⟩ ∧
      L.world.files.at? (L.scopePlace n) = none :=
  h.hasScratch.of_isFree (isName_scopeName n) (h.scopes n hn hlast)

lemma brief (h : L.Room) (hkey : L.Valid key) : L.world.files.at? (L.scopedPlace key) = none := by
  obtain ⟨-, hscope⟩ := h.scope hkey.number hkey.last
  exact h.tree.at?_below (by simp [hscope]) (List.cons_ne_nil _ _)

end Room

/-! ### Files that are held -/

/-- The files of the run that holds its files. -/
structure Held (L : Layout κ) (F : Set Nat) (tags : Nat) (f : Files) : Prop where
  tree : f.IsTree
  grows : L.world.files.Grows f
  free : ∀ key, L.Valid key → tags < L.number key → f.at? (L.heldPlace key) = none
  writable : ∀ key, L.Valid key → L.number key ∈ F → f.at? (L.heldPlace key) ≠ some .directory

lemma Held.resolve (h : L.Held F tags f) (hL : L.Proper) (hroom : L.Room) (hkey : L.Valid key) :
    f.resolve (L.heldPath key) = .ok ⟨L.heldPlace key, false⟩ :=
  h.grows.keeps.resolve (hroom.held hL hkey).1

lemma Held.write (h : L.Held F tags f) (hL : L.Proper) (hroom : L.Room) (hkey : L.Valid key)
    (hopen : L.number key ∈ F) (hle : L.number key ≤ tags) (content : Content) :
    ∃ f', f.write (L.heldPath key) content = .ok f' ∧ L.Held F tags f' ∧
      f'.at? = Function.update f.at? (L.heldPlace key) (some (.file content)) := by
  obtain ⟨f', hwrite, hbecomes⟩ :=
    h.tree.exists_write (h.resolve hL hroom hkey) (h.writable key hkey hopen) content
  have hat := hbecomes.at?_eq
  refine ⟨f', hwrite, ⟨hbecomes.tree, ?_, fun other hother hnew => ?_, fun other hother hmem => ?_⟩,
    hat⟩
  · exact h.grows.update (hroom.held hL hkey).2 hbecomes.same.keeps hat
  · have hne : L.heldPlace other ≠ L.heldPlace key := by
      rw [ne_eq, heldPlace_inj hL]
      rintro rfl
      omega
    rw [hat, Function.update_of_ne hne, h.free other hother hnew]
  · rw [hat, Function.update_apply]
    split
    · simp
    · exact h.writable other hother hmem

/-! ### Files that are not held -/

/-- The files of the run that does not hold its files. -/
structure Brief (L : Layout κ) (F : Set Nat) (tags : Nat) (g : Files) : Prop where
  tree : g.IsTree
  grows : L.world.files.Grows g
  unmade : ∀ n, tags < n → n ≤ L.last → g.at? (L.scopePlace n) = none
  made : ∀ n ∈ F, g.at? (L.scopePlace n) = some .directory

lemma Brief.hasScope (h : L.Brief F tags g) (hroom : L.Room) (hmem : n ∈ F)
    (hn : L.world.tags < n) (hlast : n ≤ L.last) :
    g.HasDirectory (L.scopePath n) (L.scopePlace n) :=
  ⟨⟨false, h.grows.keeps.resolve (hroom.scope hn hlast).1⟩, h.made n hmem⟩

lemma Brief.resolve (h : L.Brief F tags g) (hL : L.Proper) (hroom : L.Room) (hkey : L.Valid key)
    (hopen : L.number key ∈ F) :
    g.resolve (L.scopedPath key) = .ok ⟨L.scopedPlace key, false⟩ :=
  hroom.hasDirectory.resolve_of_resolve (hL.isName key) (hroom.held hL hkey).1
    (h.hasScope hroom hopen hkey.number hkey.last) (hroom.fits key hkey)

lemma Brief.write (h : L.Brief F tags g) (hL : L.Proper) (hroom : L.Room) (hkey : L.Valid key)
    (hopen : L.number key ∈ F) (hplace : g.at? (L.scopedPlace key) ≠ some .directory)
    (content : Content) :
    ∃ g', g.write (L.scopedPath key) content = .ok g' ∧ L.Brief F tags g' ∧
      g'.at? = Function.update g.at? (L.scopedPlace key) (some (.file content)) := by
  obtain ⟨g', hwrite, hbecomes⟩ :=
    h.tree.exists_write (h.resolve hL hroom hkey hopen) hplace content
  have hat := hbecomes.at?_eq
  have hscope (n : Nat) : g'.at? (L.scopePlace n) = g.at? (L.scopePlace n) := by
    rw [hat, Function.update_of_ne (scopedPlace_ne_scopePlace key n).symm]
  refine ⟨g', hwrite, ⟨hbecomes.tree, ?_, fun n hn hlast => ?_, fun n hn => ?_⟩, hat⟩
  · exact h.grows.update (hroom.brief hkey) hbecomes.same.keeps hat
  · rw [hscope, h.unmade n hn hlast]
  · rw [hscope, h.made n hn]

/-! ### Files of both runs -/

/-- The files of two runs in which some families are in use, out of those with the given numbers so
far. -/
structure Facing (L : Layout κ) (F : Set Nat) (tags : Nat) (f g : Files) : Prop where
  opened : ∀ n ∈ F, L.world.tags < n ∧ n ≤ tags
  held : L.Held F tags f
  brief : L.Brief F tags g
  alike : ∀ key, L.Valid key → L.shared key → L.number key ∈ F →
    g.at? (L.scopedPlace key) = f.at? (L.heldPlace key)

/-- A shared file of a family that is in use. -/
structure Open (L : Layout κ) (F : Set Nat) (key : κ) : Prop where
  valid : L.Valid key
  shared : L.shared key
  mem : L.number key ∈ F

lemma Open.mono (h : L.Open F key) (hFG : F ⊆ G) : L.Open G key := ⟨h.valid, h.shared, hFG h.mem⟩

namespace Facing

lemma mono (h : L.Facing G tags f g) (hFG : F ⊆ G) : L.Facing F tags f g where
  opened n hn := h.opened n (hFG hn)
  held := ⟨h.held.tree, h.held.grows, h.held.free,
    fun key hkey hopen => h.held.writable key hkey (hFG hopen)⟩
  brief := ⟨h.brief.tree, h.brief.grows, h.brief.unmade, fun n hn => h.brief.made n (hFG hn)⟩
  alike key hkey hshared hopen := h.alike key hkey hshared (hFG hopen)

/-- A shared file is read alike. -/
lemma read_eq (h : L.Facing F tags f g) (hL : L.Proper) (hroom : L.Room) (hkey : L.Open F key) :
    g.read (L.scopedPath key) = f.read (L.heldPath key) :=
  Files.read_congr (h.held.resolve hL hroom hkey.valid)
    (h.brief.resolve hL hroom hkey.valid hkey.mem) (h.alike key hkey.valid hkey.shared hkey.mem)

/-- A shared file is written alike. -/
lemma write (h : L.Facing F tags f g) (hL : L.Proper) (hroom : L.Room) (hkey : L.Open F key)
    (content : Content) :
    ∃ f' g', f.write (L.heldPath key) content = .ok f' ∧
      g.write (L.scopedPath key) content = .ok g' ∧ L.Facing F tags f' g' := by
  obtain ⟨hvalid, hshared, hopen⟩ := hkey
  have hplace : g.at? (L.scopedPlace key) ≠ some .directory := by
    rw [h.alike key hvalid hshared hopen]
    exact h.held.writable key hvalid hopen
  obtain ⟨f', hwrite, hheld, hat⟩ :=
    h.held.write hL hroom hvalid hopen (h.opened _ hopen).2 content
  obtain ⟨g', hwrite', hbrief, hat'⟩ := h.brief.write hL hroom hvalid hopen hplace content
  refine ⟨f', g', hwrite, hwrite', h.opened, hheld, hbrief, fun other hother hshared' hopen' => ?_⟩
  rw [hat, hat', Function.update_apply, Function.update_apply, h.alike other hother hshared' hopen']
  exact if_congr ((scopedPlace_inj hL).trans (heldPlace_inj hL).symm) rfl rfl

/-- A file that is not shared is only written where files are held. -/
lemma write_held (h : L.Facing F tags f g) (hL : L.Proper) (hroom : L.Room) (hkey : L.Valid key)
    (hshared : ¬ L.shared key) (hopen : L.number key ∈ F) (content : Content) :
    ∃ f', f.write (L.heldPath key) content = .ok f' ∧ L.Facing F tags f' g := by
  obtain ⟨f', hwrite, hheld, hat⟩ :=
    h.held.write hL hroom hkey hopen (h.opened _ hopen).2 content
  refine ⟨f', hwrite, h.opened, hheld, h.brief, fun other hother hshared' hopen' => ?_⟩
  have hne : L.heldPlace other ≠ L.heldPlace key := by
    rw [ne_eq, heldPlace_inj hL]
    rintro rfl
    exact hshared hshared'
  rw [hat, Function.update_of_ne hne, h.alike other hother hshared' hopen']

/-- The temporary directory of the next family is made. -/
lemma begin (h : L.Facing F tags f g) (hroom : L.Room) (hfirst : L.world.tags ≤ tags)
    (hlast : tags + 1 ≤ L.last) :
    ∃ g', g.makeDirectory (L.scopePath (tags + 1)) = .ok g' ∧
      L.Facing (insert (tags + 1) F) (tags + 1) f g' := by
  obtain ⟨hresolve, hnone⟩ := hroom.scope (Nat.lt_succ_of_le hfirst) hlast
  have hresolve' := h.brief.grows.keeps.resolve hresolve
  have hplace := h.brief.unmade _ (Nat.lt_succ_self tags) hlast
  obtain ⟨g', hmake⟩ := Files.IsFree.exists_makeDirectory ⟨_, hresolve', hplace⟩
  obtain ⟨p, hmade⟩ := h.brief.tree.exists_made hmake
  obtain rfl : p = L.scopePlace (tags + 1) := by
    obtain ⟨only, hleads⟩ := hmade.hasDirectory.leads
    rw [hmade.keeps.resolve hresolve'] at hleads
    exact (Files.Target.mk.inj (Except.ok.inj hleads)).1.symm
  have hat := hmade.at?_eq
  have hother {n : Nat} (hn : L.world.tags < n) (hne : n ≠ tags + 1) :
      g'.at? (L.scopePlace n) = g.at? (L.scopePlace n) := by
    rw [hat, Function.update_of_ne]
    exact fun heq => hne (eq_of_scopePlace_eq hn (Nat.lt_succ_of_le hfirst) heq)
  refine ⟨g', hmake, ?_, ⟨h.held.tree, h.held.grows, ?_, ?_⟩,
    ⟨hmade.tree, h.brief.grows.update hnone hmade.keeps hat, ?_, ?_⟩, ?_⟩
  · rintro n (rfl | hn)
    · exact ⟨Nat.lt_succ_of_le hfirst, le_rfl⟩
    · exact ⟨(h.opened n hn).1, (h.opened n hn).2.trans (Nat.le_succ _)⟩
  · exact fun key hkey hnew => h.held.free key hkey ((Nat.lt_succ_self _).trans hnew)
  · rintro key hkey (hnumber | hmem)
    · rw [h.held.free key hkey (hnumber ▸ Nat.lt_succ_self tags)]
      simp
    · exact h.held.writable key hkey hmem
  · intro n hn hle
    rw [hother (by omega) (by omega), h.brief.unmade n (by omega) hle]
  · rintro n (rfl | hn)
    · exact hmade.hasDirectory.at?_eq
    · have hopened := h.opened n hn
      rw [hother hopened.1 (by omega), h.brief.made n hn]
  · intro key hkey hshared hmem
    rw [hat, Function.update_of_ne (scopedPlace_ne_scopePlace key _)]
    rcases hmem with hnumber | hmem
    · -- the family is new, so that it has no file yet
      rw [h.held.free key hkey (hnumber ▸ Nat.lt_succ_self tags), scopedPlace, hnumber]
      exact h.brief.tree.at?_below (by simp [hplace]) (List.cons_ne_nil _ _)
    · exact h.alike key hkey hshared hmem

/-- The temporary directory of a family is removed. -/
lemma release (h : L.Facing (insert n F) tags f g) (hroom : L.Room) (hn : n ∉ F)
    (hlast : n ≤ L.last) : L.Facing F tags f (g.removeTree (L.scopePlace n)) := by
  have hsmaller := h.mono (Set.subset_insert n F)
  obtain ⟨hfirst, hle⟩ := h.opened n (Set.mem_insert n F)
  obtain ⟨-, hnone⟩ := hroom.scope hfirst hlast
  have hne : L.scopePlace n ≠ [] := by simp [scopePlace]
  have hgrows := h.brief.grows.removeTree hroom.tree hnone
  have hscope {m : Nat} (hm : L.world.tags < m) (hmn : m ≠ n) :
      (g.removeTree (L.scopePlace n)).at? (L.scopePlace m) = g.at? (L.scopePlace m) := by
    rw [Files.at?_removeTree hne, if_neg]
    intro hbelow
    refine hmn (eq_of_scopePlace_eq hm hfirst (hbelow.eq_of_length ?_).symm)
    simp [scopePlace]
  have hne_of_mem {m : Nat} (hm : m ∈ F) : m ≠ n := fun heq => hn (heq ▸ hm)
  refine ⟨hsmaller.opened, hsmaller.held, ⟨?_, hgrows, ?_, ?_⟩, ?_⟩
  · refine h.brief.tree.removeTree hne ?_
    rw [h.brief.grows.keeps.here]
    exact hgrows.keeps.at?_of _ hroom.tree.here
  · intro m hm hmlast
    rw [hscope (by omega) (by omega), h.brief.unmade m hm hmlast]
  · intro m hm
    rw [hscope (hsmaller.opened m hm).1 (hne_of_mem hm), hsmaller.brief.made m hm]
  · intro key hkey hshared hmem
    rw [← hsmaller.alike key hkey hshared hmem, Files.at?_removeTree hne, if_neg]
    intro hbelow
    refine hne_of_mem hmem (eq_of_scopePlace_eq hkey.number hfirst ?_)
    -- both are the directory of the file
    have hscopes : L.scopePlace n <+: L.scopePlace (L.number key) :=
      List.prefix_of_prefix_length_le hbelow (List.prefix_append _ _) (by simp [scopePlace])
    exact (hscopes.eq_of_length (by simp [scopePlace])).symm

end Facing

end Layout

end TimedPatterns
