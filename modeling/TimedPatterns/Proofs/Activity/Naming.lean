import TimedPatterns.Proofs.Activity.Basic

/-!
# The names of the files of families

The name of a file is the tag of its family with an ending of its own. The last part of a tag is
its number, and what stands before it and behind it is such that the number can be read from the
name, whatever the stem of the tag is and whatever extension a model has. So the files of different
families have different names, and there is no directory in which they are the same file.
-/

namespace TimedPatterns

/-! ### Files that are never the same -/

/-- Two paths lead to different places in whatever files they are followed. -/
def Path.Apart (path path' : String) : Prop :=
  path ≠ path' ∧ ∀ (f f' : Files) (t t' : Files.Target),
    f.resolve path = .ok t → f'.resolve path' = .ok t' → t.place ≠ t'.place

lemma Path.Apart.symm {path path' : String} (h : Apart path path') : Apart path' path :=
  ⟨h.1.symm, fun f f' t t' ht ht' => (h.2 f' f t' t ht' ht).symm⟩

/-- The last part of the path of a name in a directory is the name. -/
lemma Path.getLast?_splitAt_join (directory : String) {name : String} (hname : '/' ∉ name.toList) :
    (Text.splitAt '/' (join directory name)).getLast? = some name := by
  by_cases hdirectory : directory = ""
  · have hjoin : join "" name = name := by
      rw [join_eq "" (head?_ne_of_not_mem hname), if_pos rfl]
    rw [hdirectory, hjoin, Text.splitAt, Text.pieces_of_forall (Text.beq_of_not_mem hname)]
    simp
  · obtain ⟨parts, blanks, -, -, hparts, -⟩ := splitAt_join hdirectory hname
    rw [hparts, List.getLast?_concat]

/-- The path of a name in a directory leads to a place with this name. -/
lemma Files.getLast?_place {f : Files} {directory name : String} {t : Target}
    (hname : Path.IsName name) (h : f.resolve (Path.join directory name) = .ok t) :
    t.place.getLast? = some name := by
  obtain ⟨before, hparts⟩ :=
    List.getLast?_eq_some_iff.1 (Path.getLast?_splitAt_join directory hname.not_mem)
  rw [resolve_of_last f hparts hname (checkPath_of_resolve h)] at h
  cases hwalked : before.foldlM f.enter (f.startOf (Path.join directory name)) with
  | error error =>
    rw [hwalked] at h
    cases h
  | ok place =>
    simp only [hwalked, Except.bind, below] at h
    split_ifs at h
    · cases h
    · obtain rfl := Except.ok.inj h
      exact List.getLast?_concat

lemma Path.apart_join {directory directory' name name' : String} (hname : IsName name)
    (hname' : IsName name') (hne : name ≠ name') :
    Apart (join directory name) (join directory' name') := by
  refine ⟨?_, ?_⟩
  · intro heq
    apply hne
    have hlast := getLast?_splitAt_join directory hname.not_mem
    rw [heq, getLast?_splitAt_join directory' hname'.not_mem] at hlast
    exact (Option.some.inj hlast).symm
  · intro f f' t t' ht ht' heq
    apply hne
    have hlast := Files.getLast?_place hname ht
    rw [heq, Files.getLast?_place hname' ht'] at hlast
    exact (Option.some.inj hlast).symm

/-- The extension of a path has no point. -/
lemma Path.point_not_mem_extension (path : String) :
    '.' ∉ ((extension? path).getD "xml").toList := by
  cases hextension : extension? path with
  | none => simp
  | some extension =>
    obtain ⟨chars, hchars, rfl⟩ := Option.map_eq_some_iff.1 hextension
    obtain ⟨name, -, hafter⟩ := Option.bind_eq_some_iff.1 hchars
    rw [Option.getD_some, String.toList_ofList]
    exact (splitName_eq_some_iff.1 (Prod.ext rfl hafter)).2.2

/-! ### Numbers in names -/

namespace Artifacts

variable {stem stem' extension name name' text text' rest rest' : String}
  {processId number number' : ℕ}

/-- A text is divided at the last occurrence of a character. -/
lemma eq_of_append_last {separator : String} {c : Char} (hseparator : separator.toList = [c])
    (hrest : c ∉ rest.toList) (hrest' : c ∉ rest'.toList)
    (h : text ++ separator ++ rest = text' ++ separator ++ rest') :
    text = text' ∧ rest = rest' := by
  have hlists := congrArg String.toList h
  simp only [String.toList_append, hseparator, List.append_assoc, List.singleton_append] at hlists
  have hpieces := congrArg (Text.pieces (· == c)) hlists
  have hself : (c == c) = true := beq_self_eq_true c
  rw [Text.pieces_append_last (p := (· == c)) _ hself (Text.beq_of_not_mem hrest),
    Text.pieces_append_last (p := (· == c)) _ hself (Text.beq_of_not_mem hrest')] at hpieces
  have hsame : rest.toList = rest'.toList :=
    List.singleton_inj.1 (List.append_inj_right' hpieces rfl)
  rw [hsame] at hlists
  exact ⟨String.toList_inj.1 (List.append_cancel_right hlists), String.toList_inj.1 hsame⟩

lemma hyphen_not_mem_toString (n : ℕ) : '-' ∉ (toString n).toList := by
  intro hmem
  exact absurd (Text.isDigit_of_mem_toString_nat hmem) (by decide)

/-- The number of a tag can be read from it, whatever its stem is. -/
lemma number_eq_of_tagOf_eq
    (h : tagOf stem processId number = tagOf stem' processId number') : number = number' := by
  simp only [tagOf_eq] at h
  obtain ⟨-, hnumber⟩ :=
    eq_of_append_last rfl (hyphen_not_mem_toString number) (hyphen_not_mem_toString number') h
  exact Text.toString_nat_injective hnumber

/-- The beginning of the name of a witness is no tag, whatever the stem of the tag is: where a tag
has the number of the process, it has the kind of the witness. -/
lemma tagOf_ne_witness (kind : Diagnostic) :
    tagOf stem processId number ≠ tagOf stem' processId number' ++ "-t" ++ kind.value ++ "-1" := by
  intro h
  have hkind : '-' ∉ ("t" ++ kind.value).toList := by cases kind <;> simp [Diagnostic.value]
  have hwitness : tagOf stem' processId number' ++ "-t" ++ kind.value ++ "-1" =
      tagOf stem' processId number' ++ "-" ++ ("t" ++ kind.value) ++ "-" ++ "1" := by
    simp [← String.toList_inj]
  rw [hwitness, tagOf_eq stem] at h
  obtain ⟨hfront, -⟩ := eq_of_append_last rfl (hyphen_not_mem_toString number) (by simp) h
  obtain ⟨-, hprocess⟩ := eq_of_append_last rfl (hyphen_not_mem_toString processId) hkind hfront
  have hmem : 't' ∈ (toString processId).toList := by simp [hprocess]
  exact absurd (Text.isDigit_of_mem_toString_nat hmem) (by decide)

/-- The name of a file of the family with the given number. -/
inductive Names (processId number : ℕ) : String → Prop
  | file {stem extension : String} (hstem : '/' ∉ stem.toList) (hslash : '/' ∉ extension.toList)
      (hpoint : '.' ∉ extension.toList) :
      Names processId number (tagOf stem processId number ++ "." ++ extension)
  | witness (kind : Diagnostic) (format : WitnessFormat) :
      Names processId number
        (tagOf "query" processId number ++ "-t" ++ kind.value ++ "-1" ++ "." ++ format.extension)

lemma Names.isName (h : Names processId number name) : Path.IsName name := by
  cases h with
  | file hstem hslash hpoint =>
    rw [String.append_assoc]
    exact isName_tagOf_append hstem (by simpa using hslash)
  | witness kind format =>
    simp only [String.append_assoc]
    refine isName_tagOf_append (by simp) ?_
    cases kind <;> cases format <;> simp [Diagnostic.value, WitnessFormat.extension]

/-- Files of different families have different names. -/
lemma Names.number_eq (h : Names processId number name) (h' : Names processId number' name) :
    number = number' := by
  generalize hname : name = text at h'
  have hformat (format : WitnessFormat) : '.' ∉ format.extension.toList := by
    cases format <;> simp [WitnessFormat.extension]
  -- what stands behind the last point of the name tells a file of the family from a witness: none
  -- of the extensions has a point
  cases h with
  | file hstem hslash hpoint =>
    cases h' with
    | file hstem' hslash' hpoint' =>
      exact number_eq_of_tagOf_eq (eq_of_append_last rfl hpoint hpoint' hname).1
    | witness kind format =>
      exact absurd (eq_of_append_last rfl hpoint (hformat format) hname).1 (tagOf_ne_witness kind)
  | witness kind format =>
    cases h' with
    | file hstem' hslash' hpoint' =>
      have htag := (eq_of_append_last rfl (hformat format) hpoint' hname).1
      exact absurd htag.symm (tagOf_ne_witness kind)
    | witness kind' format' =>
      simp only [String.append_assoc] at hname
      refine (tagOf_append_inj ?_ ?_ hname).1 <;> simp

/-- A path of a file of the family with the given number. -/
def LeadsTo (processId number : ℕ) (path : String) : Prop :=
  ∃ directory name, Names processId number name ∧ path = Path.join directory name

lemma LeadsTo.apart {path path' : String} (h : LeadsTo processId number path)
    (h' : LeadsTo processId number' path') (hne : number ≠ number') : Path.Apart path path' := by
  obtain ⟨directory, name, hname, rfl⟩ := h
  obtain ⟨directory', name', hname', rfl⟩ := h'
  apply Path.apart_join hname.isName hname'.isName
  intro heq
  exact hne (hname.number_eq (heq ▸ hname'))

end Artifacts

/-! ### The files of a family -/

namespace Purpose

open Artifacts (LeadsTo Names tagOf)

variable {p : Purpose} {a : Artifacts} {processId number : ℕ} {ending path : String}

/-- What stands behind the tag in the names of the files. -/
def endings : Purpose → List String
  | model s => ["." ++ (Path.extension? s.model).getD "xml"]
  | query s kind =>
    [".q", ".log", "-t" ++ kind.value ++ "-1" ++ "." ++ s.settings.format.extension]
  | rendering _ _ => [".if", ".txt"]

lemma slash_not_mem_stem (p : Purpose) : '/' ∉ p.stem.toList := by
  cases p with
  | model s => simp [stem]
  | query s kind => simp [stem]
  | rendering o witness => exact Path.not_mem_stem witness

lemma paths_eq (htag : a.tag = tagOf p.stem processId number) :
    p.paths a = p.endings.map fun ending => Path.join a.directory (a.tag ++ ending) := by
  cases p with
  | model s => simp [paths, endings, Artifacts.file_eq]
  | query s kind =>
    have hwitness : s.settings.format.witnessPath (a.start s!"t{kind.value}") =
        Path.join a.directory
          (a.tag ++ ("-t" ++ kind.value ++ "-1" ++ "." ++ s.settings.format.extension)) := by
      have hkind : '/' ∉ (s!"t{kind.value}").toList := by
        cases kind <;> simp [Diagnostic.value, toString]
      have hjoin := Artifacts.start_append (slash_not_mem_stem (.query s kind)) htag hkind
        ("-1." ++ s.settings.format.extension)
      refine Eq.trans ?_ (hjoin.trans (congrArg (Path.join a.directory ·) ?_))
      · simp [← String.toList_inj, WitnessFormat.witnessPath, toString]
      · simp [← String.toList_inj, toString]
    simp [paths, endings, Artifacts.file_eq, hwitness]
  | rendering o witness => simp [paths, endings, Artifacts.file_eq]

lemma names_of_mem_endings (h : ending ∈ p.endings) :
    Names processId number (tagOf p.stem processId number ++ ending) := by
  have hstem := slash_not_mem_stem p
  have hfile (extension : String) (hslash : '/' ∉ extension.toList)
      (hpoint : '.' ∉ extension.toList) :
      Names processId number (tagOf p.stem processId number ++ ("." ++ extension)) := by
    rw [← String.append_assoc]
    exact .file hstem hslash hpoint
  cases p with
  | model s =>
    obtain rfl := List.mem_singleton.1 h
    exact hfile _ (Path.not_mem_extension _) (Path.point_not_mem_extension _)
  | query s kind =>
    simp only [endings, List.mem_cons, List.not_mem_nil, or_false] at h
    obtain rfl | rfl | rfl := h
    · exact hfile "q" (by simp) (by simp)
    · exact hfile "log" (by simp) (by simp)
    · simp only [← String.append_assoc]
      exact .witness kind s.settings.format
  | rendering o witness =>
    simp only [endings, List.mem_cons, List.not_mem_nil, or_false] at h
    obtain rfl | rfl := h
    · exact hfile "if" (by simp) (by simp)
    · exact hfile "txt" (by simp) (by simp)

lemma nodup_endings (p : Purpose) : p.endings.Nodup := by
  cases p with
  | model s => exact List.nodup_singleton _
  | query s kind =>
    have hfirst (text more : String) : "." ++ text ≠ "-t" ++ more := by
      intro h
      have hhead := congrArg (·.toList.head?) h
      simp at hhead
    have hquery := hfirst "q" (kind.value ++ "-1" ++ "." ++ s.settings.format.extension)
    have hlog := hfirst "log" (kind.value ++ "-1" ++ "." ++ s.settings.format.extension)
    simp only [← String.append_assoc] at hquery hlog
    simp only [endings, List.nodup_cons, List.mem_pair, List.mem_singleton]
    exact ⟨not_or_intro (by simp) hquery, hlog, List.not_mem_nil, List.nodup_nil⟩
  | rendering o witness => simp [endings]

lemma leadsTo_of_mem_paths (htag : a.tag = tagOf p.stem processId number) (h : path ∈ p.paths a) :
    LeadsTo processId number path := by
  rw [paths_eq htag, List.mem_map] at h
  obtain ⟨ending, hending, rfl⟩ := h
  exact ⟨a.directory, _, htag ▸ names_of_mem_endings hending, rfl⟩

/-- The files of a family are different files. -/
lemma pairwise_apart_paths (htag : a.tag = tagOf p.stem processId number) :
    (p.paths a).Pairwise Path.Apart := by
  rw [paths_eq htag, List.pairwise_map]
  apply (nodup_endings p).imp_of_mem
  intro ending ending' hending hending' hne
  rw [htag]
  apply Path.apart_join (names_of_mem_endings hending).isName
    (names_of_mem_endings hending').isName
  intro heq
  exact hne ((String.append_right_inj _).1 heq)

end Purpose

end TimedPatterns
