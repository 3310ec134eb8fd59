import TimedPatterns.Proofs.Files.Directory
import TimedPatterns.Proofs.Path.Extension
import TimedPatterns.Proofs.Table
import TimedPatterns.Tool.Settings

/-!
# Where paths lead

A path leads to its name in the directory to which the parts before the name lead. So two paths with
the same parts before their names lead to places in one directory, and to different ones if the
names differ.

The path of a witness ends in a name of its own: an ending and the extension of its format stand
behind what the verifier was given.
-/

namespace TimedPatterns

namespace Path

variable {path path' : String} {lead lead' trail trail' : List (List Char)} {name name' : List Char}
  {f : Files} {t t' : Files.Target}

/-! ### Names -/

lemma EndsIn.startOf_eq (h : EndsIn path lead name trail) (h' : EndsIn path' lead name' trail')
    (f : Files) : f.startOf path = f.startOf path' := by
  have hhead (name : List Char) (hne : name ≠ []) (hslash : '/' ∉ name) (text : List Char) :
      (leadText [] ++ name ++ text).head? ≠ some '/' := by
    rw [leadText_nil, List.nil_append, List.head?_append_of_ne_nil _ hne]
    exact head?_ne_of_not_mem hslash
  rw [Files.startOf, Files.startOf, h.toList_eq, h'.toList_eq]
  cases lead with
  | nil => rw [if_neg (hhead _ h.ne_nil h.not_mem.2 _), if_neg (hhead _ h'.ne_nil h'.not_mem.2 _)]
  | cons part lead => cases part <;> rfl

lemma walk_trail (htrail : ∀ part ∈ trail, counts part = false) (f : Files) (p : Place) :
    (trail.map String.ofList).foldlM f.enter p = .ok p := by
  induction trail with
  | nil => rfl
  | cons part trail ih =>
    obtain ⟨hpart, hparts⟩ := List.forall_mem_cons.1 htrail
    have henter : f.enter p (String.ofList part) = .ok p := by
      rw [Files.enter_eq_ok_iff, if_pos]
      rcases eq_of_counts hpart with rfl | rfl
      · exact .inl rfl
      · exact .inr rfl
    rw [List.map_cons, List.foldlM_cons, henter]
    exact ih hparts

/-- The names at the ends of two divisions of the same parts are the same. -/
lemma eq_of_append_eq (h : lead ++ name :: trail = lead' ++ name' :: trail')
    (hname : counts name = true) (htrail : ∀ part ∈ trail, counts part = false)
    (hname' : counts name' = true) (htrail' : ∀ part ∈ trail', counts part = false) :
    lead = lead' ∧ name = name' := by
  have htrim := trimParts_append hname htrail lead
  rw [h, trimParts_append hname' htrail'] at htrim
  obtain ⟨hlead, hlast⟩ := List.append_inj' htrim rfl
  exact ⟨hlead.symm, (List.singleton_inj.1 hlast).symm⟩

lemma EndsIn.ofList_ne (h : EndsIn path lead name trail) :
    String.ofList name ≠ "" ∧ String.ofList name ≠ "." := by
  have hcounts := h.counts
  simp only [Path.counts, Bool.and_eq_true, bne_iff_ne] at hcounts
  refine ⟨fun hempty => hcounts.1 ?_, fun hpoint => hcounts.2 ?_⟩
  · simpa using congrArg String.toList hempty
  · simpa using congrArg String.toList hpoint

lemma EndsIn.splitAt_eq (h : EndsIn path lead name trail) : Text.splitAt '/' path =
    lead.map String.ofList ++ String.ofList name :: trail.map String.ofList := by
  rw [Text.splitAt, h.pieces_eq, List.map_append, List.map_cons]

lemma place_eq_of_below {p q : Place} {name : String} (h : Files.below p name = .ok q) :
    q = p ++ [name] := by
  unfold Files.below at h
  split_ifs at h
  exact (Except.ok.inj h).symm

lemma counts_of_isName {part : String} (h : Files.isName part = true) :
    counts part.toList = true := by
  obtain ⟨hempty, hpoint, -⟩ := Files.ne_of_isName h
  have hpoint' : part.toList ≠ ['.'] := fun heq => hpoint (String.toList_inj.1 heq)
  simp [counts, hempty, hpoint']

/-- A path leads to its name in the directory to which the parts before it lead. -/
lemma EndsIn.place_eq (h : EndsIn path lead name trail) (hname : name ≠ ['.', '.'])
    (hresolve : f.resolve path = .ok t) :
    ∃ p, (lead.map String.ofList).foldlM f.enter (f.startOf path) = .ok p ∧
      t.place = p ++ [String.ofList name] := by
  obtain ⟨walked, finish, hkind, hfinish⟩ := Files.exists_finish path
  rw [hfinish] at hresolve
  obtain ⟨place, hwalk, ht⟩ := Files.exists_walk_of_resolve hresolve
  rw [h.splitAt_eq] at hkind
  generalize hparts : lead.map String.ofList ++ String.ofList name :: trail.map String.ofList =
    parts at hkind
  cases hkind with
  | fails error => cases ht
  | directory =>
    -- a directory is entered under the name, and what stands behind the name does not lead on
    cases ht
    rw [← hparts, List.foldlM_append, bind_eq_ok_iff] at hwalk
    obtain ⟨p, hp, hwalk⟩ := hwalk
    rw [List.foldlM_cons, bind_eq_ok_iff] at hwalk
    obtain ⟨q, hq, hwalk⟩ := hwalk
    obtain rfl : q = place := Except.ok.inj ((walk_trail h.trail f q).symm.trans hwalk)
    obtain ⟨hempty, hpoint⟩ := h.ofList_ne
    have hpoints : String.ofList name ≠ ".." :=
      fun h => hname (by simpa using congrArg String.toList h)
    rw [Files.enter_eq_ok_iff, if_neg (not_or_intro hempty hpoint), if_neg hpoints] at hq
    exact ⟨p, hp, place_eq_of_below hq.1⟩
  | @name last _ blanks only hsplit hlast hblanks =>
    have hchars : lead ++ name :: trail =
        walked.map String.toList ++ last.toList :: blanks.map String.toList := by
      have hchars := congrArg (List.map String.toList) (hparts.trans hsplit)
      simpa using hchars
    have hblank : ∀ part ∈ blanks.map String.toList, Path.counts part = false := by
      rw [List.forall_mem_map]
      intro blank hblank
      rw [hblanks blank hblank]
      rfl
    obtain ⟨rfl, rfl⟩ := eq_of_append_eq hchars h.counts h.trail (counts_of_isName hlast) hblank
    obtain ⟨q, hq, rfl⟩ := map_eq_ok_iff.1 ht
    rw [List.map_map, String.ofList_toList]
    refine ⟨place, ?_, place_eq_of_below hq⟩
    rw [← hwalk]
    simp

/-! ### Side by side -/

/-- Two paths of different names with one extension, in one directory. Where both lead somewhere,
they lead to different places in one directory. -/
structure Beside (path other : String) : Prop where
  parent_eq : parent? path = parent? other
  extension_eq : extension? path = extension? other
  name_ne : name? path ≠ name? other
  ne : path ≠ other
  place : ∀ (f : Files) (t t' : Files.Target), f.resolve path = .ok t → f.resolve other = .ok t' →
    t.place.dropLast = t'.place.dropLast ∧ t.place ≠ t'.place

lemma Extended.beside {stem stem' after : List Char} (h : Extended path lead stem after trail)
    (h' : Extended path' lead stem' after trail') (hstem : stem ≠ stem') : Beside path path' := by
  have hname : stem ++ '.' :: after ≠ stem' ++ '.' :: after :=
    fun heq => hstem (List.append_cancel_right heq)
  have hname? : name? path ≠ name? path' := by
    rw [name?, name?, h.nameChars?_eq h.name_ne, h'.nameChars?_eq h'.name_ne]
    exact fun heq => hname (String.ofList_injective (Option.some.inj heq))
  refine ⟨h.parent?_eq h'.toEndsIn, h.extension?_eq.trans h'.extension?_eq.symm, hname?,
    fun heq => hname? (congrArg name? heq), fun f t t' ht ht' => ?_⟩
  obtain ⟨p, hp, hplace⟩ := h.place_eq h.name_ne ht
  obtain ⟨p', hp', hplace'⟩ := h'.place_eq h'.name_ne ht'
  rw [← h.startOf_eq h'.toEndsIn f, hp] at hp'
  obtain rfl := Except.ok.inj hp'
  rw [hplace, hplace', List.dropLast_concat, List.dropLast_concat]
  refine ⟨rfl, fun heq => hname (String.ofList_injective ?_)⟩
  exact List.singleton_inj.1 (List.append_cancel_left heq)

end Path

/-! ### Witnesses -/

namespace WitnessFormat

variable {start : String} {lead : List (List Char)} {last : List Char}

lemma toList_witnessPath (format : WitnessFormat) (start : String) :
    (format.witnessPath start).toList =
      start.toList ++ ("-1".toList ++ '.' :: format.extension.toList) := by
  have htext : format.witnessPath start = start ++ "-1." ++ format.extension := by
    simp [witnessPath, toString]
  rw [htext, String.toList_append, String.toList_append, List.append_assoc]
  rfl

lemma not_mem_extension (format : WitnessFormat) :
    '/' ∉ format.extension.toList ∧ '.' ∉ format.extension.toList := by
  cases format <;> decide

/-- The path of a witness ends in a name with the extension of its format. -/
lemma extended_witnessPath (format : WitnessFormat)
    (hstart : start.toList = Path.leadText lead ++ last) (hlead : ∀ part ∈ lead, '/' ∉ part)
    (hlast : '/' ∉ last) :
    Path.Extended (format.witnessPath start) lead (last ++ "-1".toList) format.extension.toList
      [] := by
  obtain ⟨hslash, hpoint⟩ := format.not_mem_extension
  refine Path.extended_of_toList ?_ hlead ?_ (by simp) hpoint ?_
  · rw [toList_witnessPath, hstart, List.append_assoc, List.append_assoc]
  · simp [hlast, hslash]
  · intro h
    have hlength := congrArg List.length h
    simp at hlength
    omega

end WitnessFormat

end TimedPatterns
