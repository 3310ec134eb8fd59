import Mathlib.Data.List.DropRight
import TimedPatterns.Proofs.Text.Blank
import TimedPatterns.Path

/-!
# Paths of files in a directory

The path of a name in a directory has the parts of the path of the directory and the name behind
them. The stem and the extension of a path are parts of the name of a file, and have no slash.
-/

namespace TimedPatterns.Path

open Text

variable {directory name path : String} {head : List Char} {tail : List (List Char)}

/-! ### Joining -/

lemma head?_ne_of_not_mem {c : Char} {cs : List Char} (h : c ∉ cs) : cs.head? ≠ some c := by
  intro hhead
  exact h (List.mem_of_mem_head? hhead)

lemma join_eq (directory : String) (hname : name.toList.head? ≠ some '/') :
    join directory name = if directory = "" then name
      else if directory.toList.getLast? = some '/' then directory ++ name
      else directory ++ "/" ++ name := by
  have hempty : directory = "" ↔ directory.toList.getLast? = none := by simp
  simp only [hempty]
  unfold join
  split
  · contradiction
  · next heq _ => rw [if_pos heq]
  · next heq _ => rw [heq, if_neg (by simp), if_pos rfl]
  · next c hc heq _ => rw [heq, if_neg (by simp), if_neg fun h => hc (Option.some.inj h)]

/-- More text behind a name is joined with it. -/
lemma join_append (directory : String) (hname : '/' ∉ name.toList) (hne : name ≠ "")
    (more : String) : join directory (name ++ more) = join directory name ++ more := by
  have hhead : (name ++ more).toList.head? = name.toList.head? := by
    rw [String.toList_append, List.head?_append_of_ne_nil _ (by simpa using hne)]
  have hslash := head?_ne_of_not_mem hname
  rw [join_eq _ hslash, join_eq _ (hhead ▸ hslash)]
  split_ifs <;> simp [String.append_assoc]

/-- The pieces of the path of a name in a directory are those of the directory, of which an empty
one may be missing at the end, and the name. -/
lemma pieces_join (hdirectory : directory ≠ "") (hname : '/' ∉ name.toList) :
    ∃ parts blanks, pieces (· == '/') directory.toList = parts ++ blanks ∧ parts ≠ [] ∧
      (∀ blank ∈ blanks, blank = []) ∧
      pieces (· == '/') (join directory name).toList = parts ++ [name.toList] ∧
      (join directory name).toList.head? = directory.toList.head? := by
  have hfree := beq_of_not_mem hname
  have hne : directory.toList ≠ [] := by simpa using hdirectory
  have hjoin := join_eq directory (head?_ne_of_not_mem hname)
  rw [if_neg hdirectory] at hjoin
  -- a directory that ends in a slash has an empty piece behind it, which the name replaces
  by_cases hslash : directory.toList.getLast? = some '/'
  · obtain ⟨before, hbefore⟩ := List.getLast?_eq_some_iff.1 hslash
    rw [if_pos hslash] at hjoin
    refine ⟨pieces (· == '/') before, [[]], ?_, pieces_ne_nil _ _, by simp, ?_, ?_⟩
    · rw [hbefore, pieces_append_last before rfl (by simp)]
    · rw [hjoin, String.toList_append, hbefore, List.append_assoc, List.singleton_append,
        pieces_append_last before rfl hfree]
    · rw [hjoin, String.toList_append, List.head?_append_of_ne_nil _ hne]
  · rw [if_neg hslash] at hjoin
    refine ⟨pieces (· == '/') directory.toList, [], (List.append_nil _).symm, pieces_ne_nil _ _,
      by simp, ?_, ?_⟩
    · have htext : (directory ++ "/" ++ name).toList = directory.toList ++ '/' :: name.toList := by
        simp
      rw [hjoin, htext, pieces_append_last _ rfl hfree]
    · rw [hjoin, String.append_assoc, String.toList_append, List.head?_append_of_ne_nil _ hne]

/-- The parts of the path of a name in a directory are those of the directory, of which an empty
one may be missing at the end, and the name. -/
lemma splitAt_join (hdirectory : directory ≠ "") (hname : '/' ∉ name.toList) :
    ∃ parts blanks, splitAt '/' directory = parts ++ blanks ∧ (∀ blank ∈ blanks, blank = "") ∧
      splitAt '/' (join directory name) = parts ++ [name] ∧
      (join directory name).toList.head? = directory.toList.head? := by
  obtain ⟨parts, blanks, hparts, -, hblanks, hjoin, hhead⟩ := pieces_join hdirectory hname
  refine ⟨parts.map String.ofList, blanks.map String.ofList, ?_, ?_, ?_, hhead⟩
  · rw [splitAt, hparts, List.map_append]
  · intro blank hblank
    obtain ⟨chars, hchars, rfl⟩ := List.mem_map.1 hblank
    rw [hblanks chars hchars]
  · rw [splitAt, hjoin, List.map_append, List.map_singleton, String.ofList_toList]

/-! ### Names -/

lemma not_mem_split (path : String) :
    '/' ∉ (split path).1 ∧ ∀ part ∈ (split path).2, '/' ∉ part := by
  have hfree : ∀ part ∈ pieces (· == '/') path.toList, '/' ∉ part := fun _ => not_mem_of_mem_pieces
  unfold split
  split
  · simp
  · next head tail hpieces =>
    rw [hpieces] at hfree
    exact List.forall_mem_cons.1 hfree

lemma mem_of_mem_trimParts {part : List Char} {parts : List (List Char)}
    (h : part ∈ trimParts parts) : part ∈ parts := by
  rw [trimParts, List.mem_reverse] at h
  exact List.mem_reverse.1 ((List.dropWhile_suffix _).subset h)

lemma nameChars?_eq_some_iff {part : List Char} : nameChars? path = some part ↔
    last? path = some part ∧ part ≠ ['.'] ∧ part ≠ ['.', '.'] := by
  unfold nameChars?
  split
  · next hnone => simp [hnone]
  · next other hother =>
    split_ifs with hpoints
    · refine iff_of_false nofun ?_
      rintro ⟨hpart, hpoint, hpoints'⟩
      obtain rfl := Option.some.inj (hother.symm.trans hpart)
      exact hpoints.elim hpoint hpoints'
    · rw [not_or] at hpoints
      rw [hother]
      constructor
      · intro h
        obtain rfl := Option.some.inj h
        exact ⟨rfl, hpoints⟩
      · exact fun h => h.1

/-- The name of a file has no slash. -/
lemma not_mem_of_nameChars? {part : List Char} (h : nameChars? path = some part) : '/' ∉ part := by
  have hlast := (nameChars?_eq_some_iff.1 h).1
  unfold last? at hlast
  dsimp only at hlast
  split at hlast
  · next other hother =>
    obtain rfl := Option.some.inj hlast
    exact (not_mem_split path).2 _ (mem_of_mem_trimParts (List.mem_of_getLast? hother))
  · split_ifs at hlast
    exact Option.some.inj hlast ▸ (not_mem_split path).1

/-! ### Stems and extensions -/

lemma splitName_append {before after : List Char} (hbefore : before ≠ []) (hafter : '.' ∉ after) :
    splitName (before ++ '.' :: after) = (before, some after) := by
  have hfree : ∀ c ∈ after.reverse, (c != '.') = true := by
    intro c hc
    rw [bne_iff_ne]
    rintro rfl
    exact hafter (List.mem_reverse.1 hc)
  have hreverse : (before ++ '.' :: after).reverse = after.reverse ++ '.' :: before.reverse := by
    simp
  obtain ⟨c, cs, hcons⟩ := List.exists_cons_of_ne_nil (List.reverse_ne_nil_iff.2 hbefore)
  unfold splitName
  rw [List.span_eq_takeWhile_dropWhile, hreverse, List.takeWhile_append_of_pos hfree,
    List.dropWhile_append_of_pos hfree, List.takeWhile_cons_of_neg (by simp),
    List.dropWhile_cons_of_neg (by simp), List.append_nil, hcons]
  dsimp only
  rw [← hcons, List.reverse_reverse, List.reverse_reverse]

/-- A name has an extension if it has a point with something before it, and the extension is what
stands behind the last one. -/
lemma splitName_eq_some_iff {part before after : List Char} :
    splitName part = (before, some after) ↔
      part = before ++ '.' :: after ∧ before ≠ [] ∧ '.' ∉ after := by
  constructor
  · intro h
    have hspan := List.takeWhile_append_dropWhile (p := (· != '.')) (l := part.reverse)
    unfold splitName at h
    rw [List.span_eq_takeWhile_dropWhile] at h
    split at h
    · cases h
    · cases h
    · next after' dot before' hbefore heq =>
      cases h
      obtain ⟨hafter, hdrop⟩ := Prod.mk.inj heq
      obtain rfl : dot = '.' := by
        have hdot := List.head?_dropWhile_not (· != '.') part.reverse
        rw [hdrop] at hdot
        simpa using hdot
      refine ⟨?_, List.reverse_ne_nil_iff.2 hbefore, fun hmem => ?_⟩
      · rw [← List.reverse_reverse part, ← hspan, hafter, hdrop]
        simp
      · rw [List.mem_reverse, ← hafter] at hmem
        simpa using List.mem_takeWhile_imp hmem
  · rintro ⟨rfl, hbefore, hafter⟩
    exact splitName_append hbefore hafter

/-- A name without an extension is its own stem. -/
lemma fst_splitName_of_none {part : List Char} (h : (splitName part).2 = none) :
    (splitName part).1 = part := by
  unfold splitName at h ⊢
  generalize part.reverse.span (· != '.') = ends at h ⊢
  rcases ends with ⟨after, _ | ⟨dot, _ | ⟨c, before⟩⟩⟩
  · rfl
  · rfl
  · cases h

lemma mem_of_mem_splitName {part : List Char} {c : Char}
    (h : c ∈ (splitName part).1 ∨ ∃ after ∈ (splitName part).2, c ∈ after) : c ∈ part := by
  rcases hsplit : splitName part with ⟨before, _ | after⟩
  · have hstem := fst_splitName_of_none (congrArg Prod.snd hsplit)
    rw [hstem, hsplit] at h
    simpa using h
  · obtain ⟨rfl, -, -⟩ := splitName_eq_some_iff.1 hsplit
    rw [hsplit] at h
    rcases h with h | ⟨_, ⟨⟩, h⟩
    · exact List.mem_append_left _ h
    · exact List.mem_append_right _ (List.mem_cons_of_mem _ h)

/-- The stem of a path has no slash. -/
lemma not_mem_of_stem? {stem : String} (h : stem? path = some stem) : '/' ∉ stem.toList := by
  obtain ⟨part, hpart, rfl⟩ := Option.map_eq_some_iff.1 h
  rw [String.toList_ofList]
  exact fun hmem => not_mem_of_nameChars? hpart (mem_of_mem_splitName (.inl hmem))

/-- The extension of a path has no slash. -/
lemma not_mem_of_extension? {extension : String} (h : extension? path = some extension) :
    '/' ∉ extension.toList := by
  obtain ⟨chars, hchars, rfl⟩ := Option.map_eq_some_iff.1 h
  obtain ⟨part, hpart, hafter⟩ := Option.bind_eq_some_iff.1 hchars
  rw [String.toList_ofList]
  exact fun hmem => not_mem_of_nameChars? hpart (mem_of_mem_splitName (.inr ⟨chars, hafter, hmem⟩))

/-- Nor has a stem or an extension that is taken where there is none. -/
lemma not_mem_stem (path : String) : '/' ∉ ((stem? path).getD "trace").toList := by
  cases hstem : stem? path with
  | none => decide
  | some stem => exact not_mem_of_stem? hstem

lemma not_mem_extension (path : String) : '/' ∉ ((extension? path).getD "xml").toList := by
  cases hextension : extension? path with
  | none => decide
  | some extension => exact not_mem_of_extension? hextension

/-! ### Files in a directory -/

lemma trimParts_concat {parts : List (List Char)} {part : List Char} (h : counts part = true) :
    trimParts (parts ++ [part]) = parts ++ [part] := by
  rw [trimParts, List.reverse_concat, List.dropWhile_cons_of_neg (by simp [h]),
    List.reverse_cons, List.reverse_reverse]

/-- A text is a part that counts and leads to no directory. -/
structure IsName (name : String) : Prop where
  ne_empty : name ≠ ""
  ne_point : name ≠ "."
  ne_points : name ≠ ".."
  not_mem : '/' ∉ name.toList

lemma IsName.toList_ne (h : IsName name) :
    name.toList ≠ [] ∧ name.toList ≠ ['.'] ∧ name.toList ≠ ['.', '.'] := by
  have hne {text : String} (hne : name ≠ text) : name.toList ≠ text.toList :=
    fun heq => hne (String.toList_inj.1 heq)
  exact ⟨hne h.ne_empty, hne h.ne_point, hne h.ne_points⟩

/-- The last component of the path of a name in a directory. -/
lemma exists_split_join (hdirectory : directory ≠ "") (hname : '/' ∉ name.toList) :
    ∃ head tail, split (join directory name) = (head, tail ++ [name.toList]) := by
  obtain ⟨parts, blanks, -, hne, -, hjoin, -⟩ := pieces_join hdirectory hname
  obtain ⟨head, tail, rfl⟩ := List.exists_cons_of_ne_nil hne
  exact ⟨head, tail, by rw [split, hjoin]; rfl⟩

lemma IsName.counts (h : IsName name) : counts name.toList = true := by
  obtain ⟨hempty, hpoint, -⟩ := h.toList_ne
  simp [Path.counts, hempty, hpoint]

lemma nameChars?_join (hdirectory : directory ≠ "") (hname : IsName name) :
    nameChars? (join directory name) = some name.toList := by
  obtain ⟨head, tail, hsplit⟩ := exists_split_join hdirectory hname.not_mem
  have hlast : last? (join directory name) = some name.toList := by
    simp only [last?, hsplit, trimParts_concat hname.counts, List.getLast?_concat]
  obtain ⟨-, hpoint, hpoints⟩ := hname.toList_ne
  rw [nameChars?, hlast]
  exact if_neg (not_or_intro hpoint hpoints)

/-- The stem and the extension of a file in a directory are those of its name. -/
lemma splitName_join (hdirectory : directory ≠ "") {stem extension : String}
    (hname : IsName (stem ++ "." ++ extension)) (hstem : stem ≠ "")
    (hextension : '.' ∉ extension.toList) :
    stem? (join directory (stem ++ "." ++ extension)) = some stem ∧
      extension? (join directory (stem ++ "." ++ extension)) = some extension := by
  have htext : (stem ++ "." ++ extension).toList = stem.toList ++ '.' :: extension.toList := by simp
  have hsplit := splitName_append (by simpa using hstem : stem.toList ≠ []) hextension
  rw [stem?, extension?, nameChars?_join hdirectory hname, htext]
  simp [hsplit]

/-- The parts of a path of which the last one counts. -/
structure Trimmed (head : List Char) (tail : List (List Char)) : Prop where
  head_not_mem : '/' ∉ head
  tail_not_mem : ∀ part ∈ tail, '/' ∉ part
  trimmed : trimParts tail = tail
  ne : head ≠ [] ∨ tail ≠ []

lemma pieces_ofParts {head : List Char} {tail : List (List Char)} (hhead : '/' ∉ head)
    (htail : ∀ part ∈ tail, '/' ∉ part) :
    pieces (· == '/') (ofParts head tail) = head :: tail := by
  induction tail generalizing head with
  | nil =>
    rw [ofParts, List.flatMap_nil, List.append_nil]
    exact pieces_of_forall (beq_of_not_mem hhead)
  | cons part tail ih =>
    obtain ⟨hpart, htail⟩ := List.forall_mem_cons.1 htail
    have hparts : ofParts head (part :: tail) = head ++ '/' :: ofParts part tail := rfl
    rw [hparts, pieces_append_cons (beq_of_not_mem hhead) rfl, ih hpart htail]

lemma trimParts_trimParts (parts : List (List Char)) :
    trimParts (trimParts parts) = trimParts parts := by
  rw [trimParts, trimParts, List.reverse_reverse, List.dropWhile_idempotent]

lemma Trimmed.ofParts_ne (h : Trimmed head tail) : ofParts head tail ≠ [] := by
  unfold ofParts
  rcases h.ne with hhead | htail
  · simp [hhead]
  · obtain ⟨part, tail, rfl⟩ := List.exists_cons_of_ne_nil htail
    simp

lemma parent?_of_split (hsplit : split path = (head, tail)) {last : List Char}
    {before : List (List Char)} (hlast : (trimParts tail).reverse = last :: before) :
    parent? path = some (if head = [] ∧ trimParts before.reverse = [] then "/"
      else String.ofList (ofParts head (trimParts before.reverse))) := by
  simp only [parent?, hsplit, hlast]
  split
  · next heq => rw [if_pos ⟨rfl, heq⟩]
  · next hne =>
    rw [if_neg fun h => hne h.1 h.2]

/-- The directory that a path lies in is the root, or what is left of the parts of the path. -/
lemma directory_cases (path : String) : Path.directory path = "/" ∨
    ∃ head tail, Trimmed head tail ∧ Path.directory path = String.ofList (ofParts head tail) := by
  obtain ⟨hhead, htail⟩ := not_mem_split path
  rcases hsplit : split path with ⟨head, tail⟩
  rw [hsplit] at hhead htail
  rcases hlast : (trimParts tail).reverse with _ | ⟨last, before⟩
  · -- the path is a name, or leads to the directory from which it starts
    refine .inr ⟨['.'], [], ⟨by decide, by simp, rfl, .inl (by simp)⟩, ?_⟩
    simp only [Path.directory, parent?, hsplit, hlast]
    split_ifs <;> rfl
  · rw [Path.directory, parent?_of_split hsplit hlast]
    by_cases hroot : head = [] ∧ trimParts before.reverse = []
    · rw [if_pos hroot]
      exact .inl rfl
    · rw [if_neg hroot]
      have hbefore : ∀ part ∈ trimParts before.reverse, '/' ∉ part := by
        intro part hpart
        refine htail part (mem_of_mem_trimParts ?_)
        rw [← List.mem_reverse, hlast]
        exact List.mem_cons_of_mem last (List.mem_reverse.1 (mem_of_mem_trimParts hpart))
      have htrimmed : Trimmed head (trimParts before.reverse) :=
        ⟨hhead, hbefore, trimParts_trimParts _, not_and_or.1 hroot⟩
      refine .inr ⟨head, _, htrimmed, ?_⟩
      have hne := htrimmed.ofParts_ne
      split <;> simp_all

lemma length_trimParts_le (parts : List (List Char)) : (trimParts parts).length ≤ parts.length := by
  calc (trimParts parts).length
    _ = (parts.reverse.dropWhile (!counts ·)).length := List.length_reverse
    _ ≤ parts.reverse.length := (List.dropWhile_suffix _).length_le
    _ = parts.length := List.length_reverse

lemma Trimmed.split_join (h : Trimmed head tail) (hname : '/' ∉ name.toList) :
    split (join (String.ofList (ofParts head tail)) name) = (head, tail ++ [name.toList]) := by
  have hne : String.ofList (ofParts head tail) ≠ "" := by simpa using h.ofParts_ne
  obtain ⟨parts, blanks, hparts, hpartsne, hblanks, hjoin, -⟩ := pieces_join hne hname
  rw [String.toList_ofList, pieces_ofParts h.head_not_mem h.tail_not_mem] at hparts
  obtain ⟨first, parts, rfl⟩ := List.exists_cons_of_ne_nil hpartsne
  rw [List.cons_append] at hparts
  obtain ⟨rfl, htail⟩ := List.cons.inj hparts
  -- the last of the parts is not empty, because it counts
  obtain rfl : blanks = [] := by
    rcases List.eq_nil_or_concat' blanks with hnil | ⟨others, blank, rfl⟩
    · exact hnil
    · obtain rfl : blank = [] := hblanks blank (by simp)
      have htrim : trimParts tail = trimParts (parts ++ others) := by
        rw [htail, ← List.append_assoc, trimParts, List.reverse_concat,
          List.dropWhile_cons_of_pos (by decide), trimParts]
      have hle := length_trimParts_le (parts ++ others)
      rw [← htrim, h.trimmed, htail] at hle
      simp at hle
  rw [List.append_nil] at htail
  rw [split, hjoin, htail]
  rfl

lemma split_join_root (hname : '/' ∉ name.toList) : split (join "/" name) = ([], [name.toList]) := by
  have hfree := beq_of_not_mem hname
  have hjoin : (join "/" name).toList = '/' :: name.toList := by
    rw [join_eq "/" (head?_ne_of_not_mem hname), if_neg (by decide), if_pos (by decide)]
    simp
  rw [split, hjoin, ← List.nil_append ('/' :: _), pieces_append_cons (List.forall_mem_nil _) rfl,
    pieces_of_forall hfree]

/-- The directory of a file in the directory that a path lies in. -/
lemma directory_join_directory (path : String) (hname : IsName name) :
    Path.directory (join (Path.directory path) name) = Path.directory path := by
  have hreverse (tail : List (List Char)) :
      (trimParts (tail ++ [name.toList])).reverse = name.toList :: tail.reverse := by
    rw [trimParts_concat hname.counts, List.reverse_concat]
  rcases directory_cases path with hroot | ⟨head, tail, htrimmed, hdirectory⟩
  · have hparent := parent?_of_split (split_join_root hname.not_mem) (hreverse [])
    rw [hroot, Path.directory, hparent]
    rfl
  · have hparent := parent?_of_split (htrimmed.split_join hname.not_mem) (hreverse tail)
    rw [List.reverse_reverse, htrimmed.trimmed, if_neg (not_and_or.2 htrimmed.ne)] at hparent
    have hne := htrimmed.ofParts_ne
    rw [hdirectory, Path.directory, hparent]
    split <;> simp_all

end TimedPatterns.Path
