import Mathlib.Data.List.TakeWhile
import Mathlib.Tactic
import TimedPatterns.Files

/-!
# Files in a tree

Below a file there is nothing. So where a file is written or moved, the other files stay what they
are, and a path leads where it has led before.
-/

namespace TimedPatterns.Files

variable {f f' f'' : Files} {p q source target : Place} {node : Node} {content : Content}
  {path : String} {t : Target}

/-! ### Places -/

lemma lookup_filter (keep : Place → Bool) (p : Place) (nodes : List (Place × Node)) :
    (nodes.filter fun x => keep x.1).lookup p = if keep p then nodes.lookup p else none := by
  induction nodes with
  | nil => simp
  | cons x nodes ih =>
    obtain ⟨place, node⟩ := x
    rw [List.filter_cons]
    rcases eq_or_ne p place with rfl | hne
    · cases hkeep : keep p <;> simp [hkeep, ih]
    · have hkey : (p == place) = false := beq_eq_false_iff_ne.2 hne
      cases hkeep : keep place <;> simp [List.lookup_cons, hkey, ih]

lemma at?_put (hp : p ≠ []) (node : Node) :
    (f.put p node).at? = Function.update f.at? p (some node) := by
  funext q
  rcases eq_or_ne q p with rfl | hne
  · simp [at?, put, hp]
  · have hkey : (q == p) = false := beq_eq_false_iff_ne.2 hne
    have hfilter := lookup_filter (fun place => decide (place ≠ p)) q f.nodes
    rw [Function.update_of_ne hne]
    simp only [at?, put, List.lookup_cons, hkey]
    simp only [ne_eq, hne, not_false_eq_true, decide_true, if_true] at hfilter
    rw [← hfilter]

/-- The part of a tree that is moved is looked up where it was. -/
lemma lookup_moved (x : Place) (nodes : List (Place × Node)) :
    ((nodes.filter fun y => source.isPrefixOf y.1).map fun y =>
      (target ++ y.1.drop source.length, y.2)).lookup (target ++ x) =
      nodes.lookup (source ++ x) := by
  induction nodes with
  | nil => rfl
  | cons y nodes ih =>
    obtain ⟨place, node⟩ := y
    by_cases hbelow : source <+: place
    · obtain ⟨rest, rfl⟩ := hbelow
      have hkey : (target ++ x == target ++ rest) = (source ++ x == source ++ rest) := by
        rw [Bool.eq_iff_iff, beq_iff_eq, beq_iff_eq, List.append_cancel_left_eq,
          List.append_cancel_left_eq]
      simp only [List.filter_cons, List.isPrefixOf_iff_prefix, List.prefix_append, if_true,
        List.map_cons, List.drop_left, List.lookup_cons, hkey, ih]
    · have hkey : (source ++ x == place) = false := by
        rw [beq_eq_false_iff_ne]
        rintro rfl
        exact hbelow (List.prefix_append _ _)
      simp only [List.filter_cons, List.isPrefixOf_iff_prefix, hbelow, if_false, List.lookup_cons,
        hkey, ih]

lemma lookup_moved_of_not_initial (hq : ¬ target <+: q) (nodes : List (Place × Node)) :
    ((nodes.filter fun y => source.isPrefixOf y.1).map fun y =>
      (target ++ y.1.drop source.length, y.2)).lookup q = none := by
  rw [List.lookup_eq_none_iff]
  intro y hy
  obtain ⟨⟨place, node⟩, -, rfl⟩ := List.mem_map.1 hy
  rw [bne_iff_ne]
  rintro rfl
  exact hq (List.prefix_append _ _)

/-- What is at a place when a part of a tree has been moved: what was at its place in the part, or
what has been there if the place is neither in the part nor below the target. -/
lemma lookup_moveTree (q : Place) : (f.moveTree source target).nodes.lookup q =
    if target <+: q then f.nodes.lookup (source ++ q.drop target.length)
    else if source <+: q then none else f.nodes.lookup q := by
  have htarget := lookup_filter (fun p => !target.isPrefixOf p) q (f.removeTree source).nodes
  have hsource := lookup_filter (fun p => !source.isPrefixOf p) q f.nodes
  have hkept : ((f.removeTree source).removeTree target).nodes.lookup q =
      if target <+: q then none else if source <+: q then none else f.nodes.lookup q := by
    refine htarget.trans ?_
    rw [show (f.removeTree source).nodes.lookup q = _ from hsource]
    simp only [Bool.not_eq_true', ← Bool.not_eq_true, List.isPrefixOf_iff_prefix, ite_not]
  -- what was moved stands before what was kept, and nothing kept lies below the target
  have hmoved : (f.moveTree source target).nodes =
      ((f.nodes.filter fun y => source.isPrefixOf y.1).map fun y =>
        (target ++ y.1.drop source.length, y.2)) ++
      ((f.removeTree source).removeTree target).nodes := rfl
  rw [hmoved, List.lookup_append, hkept]
  split
  · next hbelow =>
    obtain ⟨x, rfl⟩ := hbelow
    rw [lookup_moved, List.drop_left, Option.or_none]
  · next hother => rw [lookup_moved_of_not_initial hother, Option.none_or]

lemma at?_eq_lookup (hq : q ≠ []) : f.at? q = f.nodes.lookup q := if_neg hq

/-- The root is a directory. -/
lemma ne_nil_of_at? (hp : f.at? p ≠ some .directory) : p ≠ [] := by
  rintro rfl
  exact hp rfl

/-! ### Trees -/

/-- What is below something is below a directory, and paths start from a directory. -/
structure IsTree (f : Files) : Prop where
  here : f.at? f.here = some .directory
  parent : ∀ place name, (f.at? (place ++ [name])).isSome → f.at? place = some .directory

/-- Files and directories that are all below the root form a tree. -/
lemma isTree_of_flat (hhere : f.here = []) (hflat : ∀ x ∈ f.nodes, x.1.length = 1) : f.IsTree := by
  refine ⟨by rw [hhere]; rfl, fun place name hsome => ?_⟩
  rw [at?_eq_lookup (by simp), List.lookup_isSome_iff] at hsome
  obtain ⟨x, hx, hkey⟩ := hsome
  have hlength := hflat x hx
  rw [← eq_of_beq hkey, List.length_append, List.length_singleton] at hlength
  rw [List.length_eq_zero_iff.1 (Nat.succ.inj hlength)]
  rfl

namespace IsTree

variable (h : f.IsTree)

include h

/-- There is nothing below a file. -/
lemma at?_below (hp : f.at? p ≠ some .directory) {x : Place} (hx : x ≠ []) :
    f.at? (p ++ x) = none := by
  induction x using List.reverseRecOn with
  | nil => exact absurd rfl hx
  | append_singleton x name ih =>
    rw [← Option.not_isSome_iff_eq_none, ← List.append_assoc]
    intro hsome
    have hdirectory := h.parent _ _ hsome
    rcases eq_or_ne x [] with rfl | hne
    · rw [List.append_nil] at hdirectory
      exact hp hdirectory
    · rw [ih hne] at hdirectory
      cases hdirectory

/-- When a file is moved, only the place that it leaves and the one that it comes to change. -/
lemma at?_moveTree (hsource : f.at? source = some (.file content))
    (htarget : f.at? target ≠ some .directory) :
    (f.moveTree source target).at? =
      Function.update (Function.update f.at? source none) target (some (.file content)) := by
  have hsource' : f.at? source ≠ some .directory := by simp [hsource]
  funext q
  rw [Function.update_apply, Function.update_apply]
  rcases eq_or_ne q [] with rfl | hq
  · rw [if_neg (ne_nil_of_at? htarget).symm, if_neg (ne_nil_of_at? hsource').symm]
    rfl
  · rw [at?_eq_lookup hq, lookup_moveTree]
    by_cases hbelow : target <+: q
    · -- below the target there is only what was below the source, which is a file
      obtain ⟨x, rfl⟩ := hbelow
      rw [if_pos (List.prefix_append _ _), List.drop_left]
      rcases eq_or_ne x [] with rfl | hx
      · rw [List.append_nil, List.append_nil, if_pos rfl, ← at?_eq_lookup (ne_nil_of_at? hsource'),
          hsource]
      · rw [← at?_eq_lookup (by simp [hx]), h.at?_below hsource' hx, h.at?_below htarget hx,
          if_neg (by simpa using hx), ite_self]
    · have hne : q ≠ target := by
        rintro rfl
        exact hbelow (List.prefix_refl _)
      rw [if_neg hbelow, if_neg hne]
      by_cases hin : source <+: q
      · obtain ⟨x, rfl⟩ := hin
        rw [if_pos (List.prefix_append _ _)]
        rcases eq_or_ne x [] with rfl | hx
        · rw [if_pos (List.append_nil _)]
        · rw [h.at?_below hsource' hx, ite_self]
      · have hne : q ≠ source := by
          rintro rfl
          exact hin (List.prefix_refl _)
        rw [if_neg hin, if_neg hne, at?_eq_lookup hq]

end IsTree

/-! ### Paths -/

lemma enter_eq_ok_iff {part : String} :
    f.enter p part = .ok q ↔
      if part = "" ∨ part = "." then q = p
      else if part = ".." then q = p.dropLast
      else below p part = .ok q ∧ f.at? q = some .directory := by
  unfold enter
  split_ifs
  · rw [Except.ok.injEq, eq_comm]
  · rw [Except.ok.injEq, eq_comm]
  · cases hbelow : below p part with
    | error error => simp [bind, Except.bind]
    | ok place =>
      simp only [bind, Except.bind, Except.ok.injEq]
      rcases hnode : f.at? place with _ | _ | content
      · refine iff_of_false (by simp) ?_
        rintro ⟨rfl, hdirectory⟩
        rw [hnode] at hdirectory
        cases hdirectory
      · refine ⟨fun h => ?_, fun h => congrArg _ h.1⟩
        obtain rfl := Except.ok.inj h
        exact ⟨rfl, hnode⟩
      · refine iff_of_false (by simp) ?_
        rintro ⟨rfl, hdirectory⟩
        rw [hnode] at hdirectory
        cases hdirectory

lemma IsTree.at?_dropLast_of_directory (h : f.IsTree) (hp : f.at? p = some .directory) :
    f.at? p.dropLast = some .directory := by
  rcases List.eq_nil_or_concat' p with rfl | ⟨place, name, rfl⟩
  · rfl
  · rw [List.dropLast_concat]
    exact h.parent place name (by rw [hp]; rfl)

/-- Parts of a path lead from a directory to a directory. -/
lemma IsTree.at?_of_enter (h : f.IsTree) {part : String} (hp : f.at? p = some .directory)
    (henter : f.enter p part = .ok q) : f.at? q = some .directory := by
  rw [enter_eq_ok_iff] at henter
  split_ifs at henter
  · exact henter ▸ hp
  · exact henter ▸ h.at?_dropLast_of_directory hp
  · exact henter.2

lemma IsTree.at?_of_walk (h : f.IsTree) {parts : List String} (hp : f.at? p = some .directory)
    (hwalk : parts.foldlM f.enter p = .ok q) : f.at? q = some .directory := by
  induction parts generalizing p with
  | nil => exact Except.ok.inj hwalk ▸ hp
  | cons part parts ih =>
    rw [List.foldlM_cons] at hwalk
    cases henter : f.enter p part with
    | error error =>
      rw [henter] at hwalk
      cases hwalk
    | ok place =>
      rw [henter] at hwalk
      exact ih (h.at?_of_enter hp henter) hwalk

/-- What was a directory in the first of two states of the files is one in the second. -/
structure KeepsDirectories (f f' : Files) : Prop where
  here : f'.here = f.here
  at?_of : ∀ p, f.at? p = some .directory → f'.at? p = some .directory

namespace KeepsDirectories

variable (h : KeepsDirectories f f')

include h

lemma enter {part : String} (henter : f.enter p part = .ok q) : f'.enter p part = .ok q := by
  rw [enter_eq_ok_iff] at henter ⊢
  split_ifs at henter ⊢
  · exact henter
  · exact henter
  · exact ⟨henter.1, h.at?_of q henter.2⟩

lemma walk {parts : List String} (hwalk : parts.foldlM f.enter p = .ok q) :
    parts.foldlM f'.enter p = .ok q := by
  induction parts generalizing p with
  | nil => exact hwalk
  | cons part parts ih =>
    rw [List.foldlM_cons] at hwalk ⊢
    cases henter : f.enter p part with
    | error error =>
      rw [henter] at hwalk
      cases hwalk
    | ok place =>
      rw [henter] at hwalk
      rw [h.enter henter]
      exact ih hwalk

omit h in
lemma refl (f : Files) : KeepsDirectories f f := ⟨rfl, fun _ => id⟩

lemma trans (h' : KeepsDirectories f' f'') : KeepsDirectories f f'' where
  here := h'.here.trans h.here
  at?_of p hp := h'.at?_of p (h.at?_of p hp)

end KeepsDirectories

/-- Two states of the files with the same directories. -/
structure SameDirectories (f f' : Files) : Prop where
  here : f'.here = f.here
  at? : ∀ p, f'.at? p = some .directory ↔ f.at? p = some .directory

lemma SameDirectories.keeps (h : SameDirectories f f') : KeepsDirectories f f' :=
  ⟨h.here, fun p => (h.at? p).2⟩

/-! ### Following paths -/

/-- The directory from which a path starts. -/
def startOf (f : Files) (path : String) : Place :=
  if path.toList.head? = some '/' then [] else f.here

/-- Whether a part of a path is the name of something in a directory. -/
def isName (part : String) : Bool := part ≠ "" && part ≠ "." && part ≠ ".."

/-- What a path leads to, given its parts, those of them that have to be directories, and the
directory to which these lead. It is this directory, or a name in it, or there is an error. -/
inductive Finish (parts : List String) : List String → (Place → Except SystemError Target) → Prop
  | fails (error : SystemError) : Finish parts [] fun _ => .error error
  | directory : Finish parts parts fun place => .ok ⟨place, true⟩
  | name {last : String} {walked blanks : List String} (directoryOnly : Bool)
      (hparts : parts = walked ++ last :: blanks) (hname : isName last)
      (hblanks : ∀ blank ∈ blanks, blank = "") :
      Finish parts walked fun place => (below place last).map (⟨·, directoryOnly⟩)

lemma exists_blanks_of_dropWhile {parts rest : List String} {name : String}
    (h : parts.dropWhile (· = "") = name :: rest) :
    ∃ blanks, (∀ blank ∈ blanks, blank = "") ∧ parts = blanks ++ name :: rest := by
  refine ⟨parts.takeWhile (· = ""), fun blank hblank => ?_, ?_⟩
  · simpa using List.mem_takeWhile_imp hblank
  · rw [← h, List.takeWhile_append_dropWhile]

/-- Which parts of a path have to be directories can be told from the path. -/
lemma exists_finish (path : String) : ∃ (walked : List String) (finish : _),
    Finish (Text.splitAt '/' path) walked finish ∧
    ∀ f : Files, f.resolve path = (walked.foldlM f.enter (f.startOf path)).bind finish := by
  have hname (x : Except SystemError Place) (last : String) (only : Bool) :
      (do return (⟨← below (← x) last, only⟩ : Target)) =
        x.bind fun place => (below place last).map (⟨·, only⟩) := by
    rcases x with error | place
    · rfl
    · simp only [bind, Except.bind]
      cases below place last <;> rfl
  have hdirectory (x : Except SystemError Place) :
      (do return (⟨← x, true⟩ : Target)) = x.bind fun place => .ok ⟨place, true⟩ := rfl
  cases hcheck : checkPath path with
  | error error => exact ⟨[], _, .fails error, fun f => by simp only [resolve, hcheck]; rfl⟩
  | ok _ =>
    cases hparts : (Text.splitAt '/' path).reverse with
    | nil =>
      exact ⟨[], _, .fails .notFound, fun f => by simp only [resolve, hcheck, hparts]; rfl⟩
    | cons last before =>
      have hsplit : Text.splitAt '/' path = before.reverse ++ [last] := by
        rw [← List.reverse_reverse (Text.splitAt '/' path), hparts, List.reverse_cons]
      by_cases hlast : (last ≠ "" && last ≠ "." && last ≠ "..") = true
      · -- the path ends in a name
        refine ⟨before.reverse, _, .name false hsplit hlast (by simp), fun f => ?_⟩
        simp only [resolve, hcheck, hparts, hlast, if_true]
        exact hname _ _ _
      · rcases hdrop : before.dropWhile (· = "") with _ | ⟨name, before'⟩
        · refine ⟨Text.splitAt '/' path, _, .directory, fun f => ?_⟩
          simp only [resolve, hcheck, hparts, hlast, hdrop]
          exact hdirectory _
        · rcases eq_or_ne last "" with rfl | hne
          · by_cases hname' : (name ≠ "" && name ≠ "." && name ≠ "..") = true
            · -- the path ends in a name with slashes behind it
              obtain ⟨blanks, hblanks, rfl⟩ := exists_blanks_of_dropWhile hdrop
              have hsplit' : Text.splitAt '/' path =
                  before'.reverse ++ name :: (blanks.reverse ++ [""]) := by
                rw [hsplit]
                simp
              have hblanks' : ∀ blank ∈ blanks.reverse ++ [""], blank = "" := by
                simpa [or_imp, forall_and] using hblanks
              refine ⟨before'.reverse, _, .name true hsplit' hname' hblanks', fun f => ?_⟩
              simp only [resolve, hcheck, hparts, hdrop, hname', if_true]
              exact hname _ _ _
            · refine ⟨Text.splitAt '/' path, _, .directory, fun f => ?_⟩
              simp only [resolve, hcheck, hparts, hlast, hdrop, hname']
              exact hdirectory _
          · refine ⟨Text.splitAt '/' path, _, .directory, fun f => ?_⟩
            simp only [resolve, hcheck, hparts, hlast, hdrop, Bool.false_eq_true, if_false]
            split
            · exact absurd rfl hne
            · exact hdirectory _

lemma Finish.place_eq {parts walked : List String} {finish : Place → Except SystemError Target}
    (h : Finish parts walked finish) (hfinish : finish p = .ok t) :
    t.place = p ∨ ∃ name, t.place = p ++ [name] := by
  cases h with
  | fails error => cases hfinish
  | directory =>
    cases hfinish
    exact .inl rfl
  | @name last _ _ only =>
    unfold below at hfinish
    split at hfinish
    · cases hfinish
    · cases hfinish
      exact .inr ⟨last, rfl⟩

/-- A path that leads somewhere leads through directories. -/
lemma exists_walk_of_resolve {parts : List String} {finish : Place → Except SystemError Target}
    (h : (parts.foldlM f.enter p).bind finish = .ok t) :
    ∃ place, parts.foldlM f.enter p = .ok place ∧ finish place = .ok t := by
  cases hwalk : parts.foldlM f.enter p with
  | error error =>
    rw [hwalk] at h
    cases h
  | ok place =>
    rw [hwalk] at h
    exact ⟨place, rfl, h⟩

lemma KeepsDirectories.startOf_eq (h : KeepsDirectories f f') (path : String) :
    f'.startOf path = f.startOf path := by
  rw [startOf, startOf, h.here]

/-- A path leads where it leads in another state in which the directories are. -/
lemma KeepsDirectories.resolve (h : KeepsDirectories f f') (hresolve : f.resolve path = .ok t) :
    f'.resolve path = .ok t := by
  obtain ⟨parts, finish, -, hfinish⟩ := exists_finish path
  rw [hfinish] at hresolve ⊢
  obtain ⟨place, hwalk, ht⟩ := exists_walk_of_resolve hresolve
  rw [h.startOf_eq, h.walk hwalk]
  exact ht

/-- A path leads where it leads in another state with the same directories. -/
lemma SameDirectories.resolve (h : SameDirectories f f') (hresolve : f.resolve path = .ok t) :
    f'.resolve path = .ok t :=
  h.keeps.resolve hresolve

/-- What a path leads to is in a directory. -/
lemma IsTree.at?_dropLast (h : f.IsTree) (hresolve : f.resolve path = .ok t) :
    f.at? t.place.dropLast = some .directory := by
  obtain ⟨parts, finish, hkind, hfinish⟩ := exists_finish path
  rw [hfinish] at hresolve
  obtain ⟨place, hwalk, ht⟩ := exists_walk_of_resolve hresolve
  have hstart : f.at? (f.startOf path) = some .directory := by
    unfold startOf
    split
    · rfl
    · exact h.here
  have hplace := h.at?_of_walk hstart hwalk
  rcases hkind.place_eq ht with hsame | ⟨name, hname⟩
  · rw [hsame]
    exact h.at?_dropLast_of_directory hplace
  · rw [hname, List.dropLast_concat]
    exact hplace

/-! ### Writing and moving -/

lemma SameDirectories.refl (f : Files) : SameDirectories f f := ⟨rfl, fun _ => .rfl⟩

lemma SameDirectories.symm (h : SameDirectories f f') : SameDirectories f' f where
  here := h.here.symm
  at? p := (h.at? p).symm

lemma SameDirectories.trans (h : SameDirectories f f') (h' : SameDirectories f' f'') :
    SameDirectories f f'' where
  here := h'.here.trans h.here
  at? p := (h'.at? p).trans (h.at? p)

/-- A tree remains one if what is new is in a directory. -/
lemma IsTree.of_sameDirectories (h : f.IsTree) (hsame : SameDirectories f f')
    (hnew : ∀ q, (f'.at? q).isSome → (f.at? q).isSome ∨ f.at? q.dropLast = some .directory) :
    f'.IsTree where
  here := by rw [hsame.here, hsame.at?, h.here]
  parent place name hsome := by
    rw [hsame.at?]
    rcases hnew _ hsome with hold | hdirectory
    · exact h.parent place name hold
    · rwa [List.dropLast_concat] at hdirectory

/-- A change of files that leaves a tree with the same directories, and other contents. -/
structure Becomes (f f' : Files) (contents : Place → Option Node) : Prop where
  tree : f'.IsTree
  same : SameDirectories f f'
  at?_eq : f'.at? = contents

lemma IsTree.becomes_put (h : f.IsTree) (hresolve : f.resolve path = .ok t)
    (hp : f.at? t.place ≠ some .directory) (content : Content) :
    Becomes f (f.put t.place (.file content))
      (Function.update f.at? t.place (some (.file content))) := by
  have hat := f.at?_put (ne_nil_of_at? hp) (.file content)
  have hsame : SameDirectories f (f.put t.place (.file content)) := by
    refine ⟨rfl, fun q => ?_⟩
    rw [hat, Function.update_apply]
    split
    · next heq => exact iff_of_false (by simp) (heq ▸ hp)
    · exact Iff.rfl
  refine ⟨h.of_sameDirectories hsame fun q hq => ?_, hsame, hat⟩
  rw [hat, Function.update_apply] at hq
  split at hq
  · next heq => exact .inr (heq ▸ h.at?_dropLast hresolve)
  · exact .inl hq

lemma IsTree.becomes_moveTree (h : f.IsTree) (hresolve : f.resolve path = .ok t)
    (hsource : f.at? source = some (.file content)) (htarget : f.at? t.place ≠ some .directory) :
    Becomes f (f.moveTree source t.place)
      (Function.update (Function.update f.at? source none) t.place (some (.file content))) := by
  have hat := h.at?_moveTree hsource htarget
  -- no directory comes or goes: neither the source nor the target is one
  have hsame : SameDirectories f (f.moveTree source t.place) := by
    refine ⟨rfl, fun q => ?_⟩
    rw [hat, Function.update_apply, Function.update_apply]
    split
    · next heq => exact iff_of_false (by simp) (heq ▸ htarget)
    · split
      · next heq => exact iff_of_false (by simp) (by simp [heq, hsource])
      · exact Iff.rfl
  -- the one place that is new has its directory, for the path of the target leads there
  refine ⟨h.of_sameDirectories hsame fun q hq => ?_, hsame, hat⟩
  rw [hat, Function.update_apply, Function.update_apply] at hq
  split at hq
  · next heq => exact .inr (heq ▸ h.at?_dropLast hresolve)
  · split at hq
    · cases hq
    · exact .inl hq

/-- A file is written where its path leads. -/
lemma exists_of_write (hwrite : f.write path content = .ok f') :
    ∃ p, f.resolve path = .ok ⟨p, false⟩ ∧ f.at? p ≠ some .directory ∧
      f' = f.put p (.file content) := by
  unfold write at hwrite
  cases hresolve : f.resolve path with
  | error error =>
    rw [hresolve] at hwrite
    cases hwrite
  | ok t =>
    obtain ⟨p, _ | _⟩ := t
    · rw [hresolve] at hwrite
      simp only [bind, Except.bind] at hwrite
      rcases hp : f.at? p with _ | _ | old <;> rw [hp] at hwrite <;> cases hwrite
      · exact ⟨p, rfl, by simp [hp], rfl⟩
      · exact ⟨p, rfl, by simp [hp], rfl⟩
    · rw [hresolve] at hwrite
      cases hwrite

lemma read_eq_ok_iff (hresolve : f.resolve path = .ok ⟨p, false⟩) :
    f.read path = .ok content ↔ f.at? p = some (.file content) := by
  unfold read
  rw [hresolve]
  simp only [bind, Except.bind]
  rcases f.at? p with _ | _ | content' <;> simp

lemma contains_eq_isSome (hresolve : f.resolve path = .ok ⟨p, false⟩) :
    f.contains path = (f.at? p).isSome := by
  unfold contains find?
  rw [hresolve]
  rcases hp : f.at? p with _ | _ | content <;> simp [hp]

/-- A path that leads somewhere can be given to the system. -/
lemma checkPath_of_resolve (hresolve : f.resolve path = .ok t) : checkPath path = .ok () := by
  unfold resolve at hresolve
  cases hcheck : checkPath path with
  | error error =>
    rw [hcheck] at hresolve
    cases hresolve
  | ok _ => rfl

/-- A file is moved to a place where no directory is. -/
lemma IsTree.exists_rename (h : f.IsTree) {path path' : String}
    (hresolve : f.resolve path = .ok ⟨source, false⟩)
    (hresolve' : f.resolve path' = .ok ⟨target, false⟩)
    (hsource : f.at? source = some (.file content)) (htarget : f.at? target ≠ some .directory) :
    ∃ f', f.rename path path' = .ok f' ∧ Becomes f f'
      (Function.update (Function.update f.at? source none) target (some (.file content))) := by
  have hrename : f.rename path path' =
      if source = target then .ok f else .ok (f.moveTree source target) := by
    simp only [rename, checkPath_of_resolve hresolve, checkPath_of_resolve hresolve', hresolve,
      hresolve', hsource, htarget, bind, Except.bind, Bool.false_eq_true, or_self, if_false]
    rfl
  rw [hrename]
  by_cases heq : source = target
  · subst heq
    refine ⟨f, if_pos rfl, h, .refl f, ?_⟩
    rw [Function.update_idem, ← hsource, Function.update_eq_self]
  · exact ⟨_, if_neg heq, h.becomes_moveTree hresolve' hsource htarget⟩

end TimedPatterns.Files
