import TimedPatterns.Proofs.Text.Replacement

/-!
# Reading entities back

Entities are read by replacing one kind after the other. This is one pass over the text from the
left (`readEntities`), because no entity begins inside another one, and no character that is put in
is part of an entity that is still to be read; `&` is put in last.

In one pass, what has been written for a character is read as that character, whatever stands
around it. So a text between two tags and a value between double quotes are read back, also if they
look as if they were written with entities already.

No tag begins in a text that is written with entities, and a text without the signs of markup is
written as it is.
-/

namespace TimedPatterns.Text

/-! ### One pass -/

/-- Read the five entities in one pass, and keep everything else. -/
def readEntities : List Char → List Char
  | '&' :: 'l' :: 't' :: ';' :: cs => '<' :: readEntities cs
  | '&' :: 'g' :: 't' :: ';' :: cs => '>' :: readEntities cs
  | '&' :: 'q' :: 'u' :: 'o' :: 't' :: ';' :: cs => '"' :: readEntities cs
  | '&' :: 'a' :: 'p' :: 'o' :: 's' :: ';' :: cs => '\'' :: readEntities cs
  | '&' :: 'a' :: 'm' :: 'p' :: ';' :: cs => '&' :: readEntities cs
  | c :: cs => c :: readEntities cs
  | [] => []

/-- The entities in the order in which they are replaced. -/
def entities : List (List Char × Char) :=
  [("&lt;".toList, '<'), ("&gt;".toList, '>'), ("&quot;".toList, '"'), ("&apos;".toList, '\''),
    ("&amp;".toList, '&')]

/-- A character at which no entity begins is kept. -/
lemma readEntities_cons {c : Char} {cs : List Char}
    (h : ∀ entry ∈ entities, ¬ entry.1 <+: c :: cs) :
    readEntities (c :: cs) = c :: readEntities cs := by
  simp only [entities, List.forall_mem_cons] at h
  obtain ⟨hlt, hgt, hquot, hapos, hamp, -⟩ := h
  rw [readEntities]
  · rintro rest rfl rfl
    exact hlt ⟨rest, rfl⟩
  · rintro rest rfl rfl
    exact hgt ⟨rest, rfl⟩
  · rintro rest rfl rfl
    exact hquot ⟨rest, rfl⟩
  · rintro rest rfl rfl
    exact hapos ⟨rest, rfl⟩
  · rintro rest rfl rfl
    exact hamp ⟨rest, rfl⟩

/-- What a pass for the entities gives. -/
lemma readEntities_eq {cs ds : List Char} (h : Rewrites entities cs ds) : readEntities cs = ds := by
  induction h with
  | nil => rfl
  | name hname hcs rest ih =>
    subst hcs
    simp only [entities, List.mem_cons, Prod.mk.injEq, List.not_mem_nil, or_false] at hname
    rw [← ih]
    rcases hname with ⟨rfl, rfl⟩ | ⟨rfl, rfl⟩ | ⟨rfl, rfl⟩ | ⟨rfl, rfl⟩ | ⟨rfl, rfl⟩ <;> rfl
  | keep hnone rest ih => rw [readEntities_cons hnone, ih]

lemma marked_entities : Marked '&' entities := by
  simp only [Marked, entities, List.forall_mem_cons]
  exact ⟨⟨_, rfl, by decide⟩, ⟨_, rfl, by decide⟩, ⟨_, rfl, by decide⟩, ⟨_, rfl, by decide⟩,
    ⟨_, rfl, by decide⟩, nofun⟩

/-- No character that an entity stands for is in an entity that is read later. -/
lemma pairwise_entities : entities.Pairwise fun entry later => entry.2 ∉ later.1 := by
  simp [entities]

/-- Reading the entities one kind after the other is reading them in one pass. -/
theorem unescapeChars_eq_readEntities (cs : List Char) : unescapeChars cs = readEntities cs :=
  (readEntities_eq (rewrites_replaceEach marked_entities pairwise_entities cs)).symm

/-! ### Texts and values -/

/-- A character of a value between double quotes. -/
def quoteChar (c : Char) : List Char := if c = '"' then "&quot;".toList else escapeChar c

/-- A value as it stands between double quotes. -/
def escapeValue (value : List Char) : List Char := value.flatMap quoteChar

lemma readEntities_of_ne {c : Char} (h : c ≠ '&') (rest : List Char) :
    readEntities (c :: rest) = c :: readEntities rest := by
  apply readEntities_cons
  intro entry hentry hprefix
  obtain ⟨body, hbody, -⟩ := marked_entities entry hentry
  rw [hbody, List.cons_prefix_cons] at hprefix
  exact h hprefix.1.symm

/-- What stands for a character in a text is read as that character. -/
lemma readEntities_escapeChar (c : Char) (rest : List Char) :
    readEntities (escapeChar c ++ rest) = c :: readEntities rest := by
  by_cases hamp : c = '&'
  · subst hamp
    rfl
  by_cases hlt : c = '<'
  · subst hlt
    rfl
  by_cases hgt : c = '>'
  · subst hgt
    rfl
  have hself : escapeChar c = [c] := by simp [escapeChar, hamp, hlt, hgt]
  rw [hself]
  exact readEntities_of_ne hamp rest

/-- What stands for a character in a value is read as that character. -/
lemma readEntities_quoteChar (c : Char) (rest : List Char) :
    readEntities (quoteChar c ++ rest) = c :: readEntities rest := by
  by_cases hquot : c = '"'
  · subst hquot
    rfl
  · rw [quoteChar, if_neg hquot, readEntities_escapeChar]

/-- A text is read back if what stands for each character is. -/
lemma unescapeChars_flatMap {write : Char → List Char}
    (hwrite : ∀ c rest, readEntities (write c ++ rest) = c :: readEntities rest) (cs : List Char) :
    unescapeChars (cs.flatMap write) = cs := by
  rw [unescapeChars_eq_readEntities]
  induction cs with
  | nil => rfl
  | cons c cs ih => rw [List.flatMap_cons, hwrite, ih]

/-- Reading the entities of a value gives the value back. -/
theorem unescapeChars_escapeValue (value : List Char) :
    unescapeChars (escapeValue value) = value :=
  unescapeChars_flatMap readEntities_quoteChar value

/-- Writing the three entities one after the other, `&amp;` first. -/
lemma escape_eq_replaceAll (s : String) : escape s =
    String.ofList (replaceAll ['>'] "&gt;".toList
      (replaceAll ['<'] "&lt;".toList (replaceAll ['&'] "&amp;".toList s.toList))) := by
  have hchar (c : Char) :
      ((if c = '&' then "&amp;".toList else [c]).flatMap fun c =>
        if c = '<' then "&lt;".toList else [c]).flatMap
          (fun c => if c = '>' then "&gt;".toList else [c]) = escapeChar c := by
    unfold escapeChar
    split_ifs <;> simp_all
  simp only [replaceAll_singleton, List.flatMap_assoc, escape]
  simp only [List.flatMap_assoc] at hchar
  rw [funext hchar]

/-- A text that is written with entities is read back, and reading the entities one kind after the
other is reading them in one pass. -/
theorem unescape_exact (s t : String) :
    escape s = String.ofList (replaceAll ['>'] "&gt;".toList
      (replaceAll ['<'] "&lt;".toList (replaceAll ['&'] "&amp;".toList s.toList))) ∧
    unescape (escape s) = s ∧ unescape t = String.ofList (readEntities t.toList) := by
  refine ⟨escape_eq_replaceAll s, ?_, ?_⟩
  · rw [unescape, escape, String.toList_ofList, unescapeChars_flatMap readEntities_escapeChar,
      String.ofList_toList]
  · rw [unescape, unescapeChars_eq_readEntities]

/-- A text that looks as if it were written with entities is read back, and an entity that comes
about when another one is read is not read itself. -/
example : unescape (escape "&amp;lt;") = "&amp;lt;" ∧ unescape "&amp;lt;" = "&lt;" := by
  decide +kernel

/-! ### Texts without signs of markup -/

variable {cs ds : List Char}

lemma not_mem_escape (s : String) : '<' ∉ (escape s).toList := by
  rw [escape, String.toList_ofList, List.mem_flatMap]
  rintro ⟨c, -, hc⟩
  unfold escapeChar at hc
  split_ifs at hc with hamp hlt
  · exact absurd hc (by decide)
  · exact absurd hc (by decide)
  · exact absurd hc (by decide)
  · exact hlt (List.mem_singleton.1 hc).symm

/-- Every character stands for itself between double quotes. -/
def Plain (cs : List Char) : Prop := ∀ c ∈ cs, quoteChar c = [c]

instance : Decidable (Plain cs) := List.decidableBAll _ cs

lemma Plain.append (hcs : Plain cs) (hds : Plain ds) : Plain (cs ++ ds) :=
  List.forall_mem_append.2 ⟨hcs, hds⟩

lemma Plain.escapeValue_eq (h : Plain cs) : escapeValue cs = cs := by
  rw [escapeValue, List.flatMap_congr h]
  exact List.flatMap_singleton' cs

lemma Plain.not_mem (h : Plain cs) : '<' ∉ cs := fun hmem => absurd (h _ hmem) (by decide)

end TimedPatterns.Text
