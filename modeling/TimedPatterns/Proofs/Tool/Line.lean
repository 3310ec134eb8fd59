import TimedPatterns.Proofs.Text.Blank
import TimedPatterns.Tool.Command

/-!
# Lines of words

The line that shows a command is split into its words again if and only if each of them allows it.
A word does not if it has a backslash in it, which is shown as it is but takes the next character
with it, or if a blank other than a space is the only thing in it for which it would have to be put
between double quotes.

A line of words without backslashes is read word by word (`splits_lineChars`), and what is lost of a
word are its blanks. With a backslash in a word the line may be read in any way, across the words.
There it is enough to count: the line has too few backslashes for all that would have to be escaped
in it (`Splits.escapes_le`).
-/

namespace TimedPatterns.Command

open Text

/-! ### Splitting as a relation -/

/-- The rest of a line is split into words, the first of which may have begun. -/
inductive Splits : Option (List Char) → Bool → List Char → List (List Char) → Prop
  | done (word : Option (List Char)) : Splits word false [] word.toList
  | escape {word : Option (List Char)} {inQuotes : Bool} {c : Char} {cs : List Char}
      {words : List (List Char)} (h : Splits (extend word c) inQuotes cs words) :
      Splits word inQuotes ('\\' :: c :: cs) words
  | quote {word : Option (List Char)} {inQuotes : Bool} {cs : List Char}
      {words : List (List Char)} (h : Splits (some (word.getD [])) (!inQuotes) cs words) :
      Splits word inQuotes ('"' :: cs) words
  | between {c : Char} {cs : List Char} {words : List (List Char)} (word : Option (List Char))
      (hblank : isBlank c = true) (h : Splits none false cs words) :
      Splits word false (c :: cs) (word.toList ++ words)
  | within {word : Option (List Char)} {inQuotes : Bool} {c : Char} {cs : List Char}
      {words : List (List Char)} (hescape : c ≠ '\\') (hquote : c ≠ '"')
      (hblank : isBlank c = true → inQuotes = true)
      (h : Splits (extend word c) inQuotes cs words) : Splits word inQuotes (c :: cs) words

variable {word : Option (List Char)} {inQuotes : Bool} {c : Char} {cs s t w : List Char}
  {words words' : List (List Char)}

lemma Splits.of_splitFrom (h : splitFrom word inQuotes cs = some (some words)) :
    Splits word inQuotes cs words := by
  fun_induction splitFrom word inQuotes cs generalizing words with
  | case1 word inQuotes =>
    cases inQuotes with
    | true => cases h
    | false =>
      cases h
      exact .done word
  | case2 => cases h
  | case3 word inQuotes c cs ih => exact .escape (ih h)
  | case4 word inQuotes cs _ _ ih => exact .quote (ih h)
  | case5 word inQuotes c cs hlone hescape hquote hblank ih =>
    obtain ⟨hblank, rfl⟩ := hblank
    obtain ⟨rest, hrest, h⟩ := Option.map_eq_some_iff.1 h
    obtain ⟨words, rfl, rfl⟩ := Option.map_eq_some_iff.1 h
    exact .between word hblank (ih hrest)
  | case6 word inQuotes c cs hlone hescape hquote hwithin ih =>
    have hne : c ≠ '\\' := by
      rintro rfl
      cases cs with
      | nil => exact hlone rfl rfl
      | cons c cs => exact hescape c cs rfl rfl
    exact .within hne hquote (fun hblank => by simpa [hblank] using hwithin) (ih h)

lemma Splits.splitFrom_eq (h : Splits word inQuotes cs words) :
    splitFrom word inQuotes cs = some (some words) := by
  induction h with
  | done word => rfl
  | escape _ ih => rw [splitFrom, ih]
  | quote _ ih => rw [splitFrom, if_pos rfl, ih] <;> simp
  | @between c cs words word hblank _ ih =>
    have hescape : c ≠ '\\' := fun h => absurd (h ▸ hblank) (by decide)
    have hquote : c ≠ '"' := fun h => absurd (h ▸ hblank) (by decide)
    rw [splitFrom, if_neg hquote, if_pos ⟨hblank, rfl⟩, ih]
    · rfl
    all_goals simp [hescape]
  | within hescape hquote hblank _ ih =>
    rw [splitFrom, if_neg hquote, if_neg (by simpa using hblank), ih] <;> simp [hescape]

lemma splitFrom_eq_iff :
    splitFrom word inQuotes cs = some (some words) ↔ Splits word inQuotes cs words :=
  ⟨.of_splitFrom, (·.splitFrom_eq)⟩

/-! ### Lines that are joined -/

/-- A line that is split on its own is split in the same way before a space. -/
lemma Splits.append (h : Splits word inQuotes s words) (ht : Splits none false t words') :
    Splits word inQuotes (s ++ ' ' :: t) (words ++ words') := by
  induction h with
  | done word => exact .between word rfl ht
  | escape _ ih => exact .escape ih
  | quote _ ih => exact .quote ih
  | between word hblank _ ih =>
    rw [List.append_assoc]
    exact .between word hblank ih
  | within hescape hquote hblank _ ih => exact .within hescape hquote hblank ih

/-! ### Counting backslashes -/

/-- How many backslashes it takes to show a text: one for a double quote, and one more for each
backslash in it. -/
def escapes (cs : List Char) : Nat := 2 * cs.count '\\' + cs.count '"'

lemma escapes_append (cs cs' : List Char) : escapes (cs ++ cs') = escapes cs + escapes cs' := by
  simp only [escapes, List.count_append]
  omega

/-- A backslash is enough for the character behind it, or else is itself behind another one. -/
lemma escapes_singleton_le (c : Char) : escapes [c] ≤ 1 + [c].count '\\' := by
  by_cases hescape : c = '\\'
  · simp [escapes, hescape]
  · by_cases hquote : c = '"' <;> simp [escapes, hescape, hquote]

lemma escapes_singleton_of_ne (hescape : c ≠ '\\') (hquote : c ≠ '"') : escapes [c] = 0 := by
  simp [escapes, hescape, hquote]

lemma flatten_toList (word : Option (List Char)) : word.toList.flatten = word.getD [] := by
  cases word <;> simp

lemma getD_extend (word : Option (List Char)) (c : Char) :
    (extend word c).getD [] = word.getD [] ++ [c] := rfl

/-- A line has as many backslashes as it takes to show the words that are read in it. -/
lemma Splits.escapes_le (h : Splits word inQuotes cs words) :
    escapes words.flatten ≤ cs.count '\\' + escapes (word.getD []) := by
  induction h with
  | done word =>
    rw [flatten_toList]
    exact Nat.le_add_left _ _
  | @escape word inQuotes c cs words _ ih =>
    -- an escaped sign costs the backslash in front of it
    have hc := escapes_singleton_le c
    have hcount : ('\\' :: c :: cs).count '\\' = 1 + [c].count '\\' + cs.count '\\' := by
      rw [List.count_cons_self, ← List.singleton_append, List.count_append]
      omega
    rw [getD_extend, escapes_append] at ih
    omega
  | @quote word inQuotes cs words _ ih =>
    rw [List.count_cons_of_ne (by decide)]
    exact ih
  | @between c cs words word hblank _ ih =>
    have hc : cs.count '\\' ≤ (c :: cs).count '\\' := List.count_le_count_cons
    have hnone : escapes ((none : Option (List Char)).getD []) = 0 := rfl
    rw [List.flatten_append, escapes_append, flatten_toList]
    omega
  | @within word inQuotes c cs words hescape hquote hblank _ ih =>
    rw [getD_extend, escapes_append, escapes_singleton_of_ne hescape hquote] at ih
    rw [List.count_cons_of_ne hescape]
    exact ih

/-! ### Words as they are shown -/

/-- A word is shown between double quotes. -/
def IsQuoted (w : List Char) : Prop := w = [] ∨ ' ' ∈ w ∨ '"' ∈ w

instance (w : List Char) : Decidable (IsQuoted w) :=
  inferInstanceAs (Decidable (w = [] ∨ ' ' ∈ w ∨ '"' ∈ w))

/-- A text with a backslash before each double quote. -/
def escaped (cs : List Char) : List Char := cs.flatMap fun c => if c = '"' then ['\\', '"'] else [c]

lemma quoteChars_eq (w : List Char) :
    quoteChars w = if IsQuoted w then '"' :: escaped w ++ ['"'] else w := by
  rw [quoteChars]
  refine if_congr ?_ rfl rfl
  simp [IsQuoted, or_assoc]

lemma escaped_cons (c : Char) (cs : List Char) :
    escaped (c :: cs) = (if c = '"' then ['\\', '"'] else [c]) ++ escaped cs := List.flatMap_cons

lemma count_escaped (cs : List Char) : (escaped cs).count '\\' = cs.count '\\' + cs.count '"' := by
  induction cs with
  | nil => rfl
  | cons c cs ih =>
    rw [escaped_cons, List.count_append, ih]
    split_ifs with hquote
    · rw [hquote, List.count_cons_self, List.count_cons_of_ne (by decide), List.count_cons_self,
        List.count_cons_of_ne (by decide), List.count_nil]
      omega
    · have hcons : (c :: cs).count '\\' = [c].count '\\' + cs.count '\\' := by
        rw [← List.singleton_append, List.count_append]
      rw [List.count_cons_of_ne hquote, hcons, Nat.add_assoc]

/-- A word is shown with one backslash for each double quote, and its own backslashes. -/
lemma count_quoteChars (w : List Char) :
    (quoteChars w).count '\\' = w.count '\\' + w.count '"' := by
  rw [quoteChars_eq]
  split_ifs with h
  · simp [count_escaped]
  · have hquote : '"' ∉ w := fun hmem => h (.inr (.inr hmem))
    rw [List.count_eq_zero_of_not_mem hquote, Nat.add_zero]

/-- The line of some words. -/
def lineChars (words : List (List Char)) : List Char := [' '].intercalate (words.map quoteChars)

lemma lineChars_cons_cons (w v : List Char) (words : List (List Char)) :
    lineChars (w :: v :: words) = quoteChars w ++ ' ' :: lineChars (v :: words) := by
  simp [lineChars]

lemma count_lineChars (words : List (List Char)) :
    (lineChars words).count '\\' = words.flatten.count '\\' + words.flatten.count '"' := by
  induction words with
  | nil => rfl
  | cons w words ih =>
    cases words with
    | nil => simp [lineChars, count_quoteChars]
    | cons v words =>
      rw [lineChars_cons_cons, List.flatten_cons, List.count_append, List.count_append,
        List.count_append, count_quoteChars, List.count_cons_of_ne (by decide), ih]
      omega

/-- Words that are read as they are have no backslashes in them. -/
lemma not_mem_of_splits_lineChars (h : Splits none false (lineChars words) words) :
    ∀ w ∈ words, '\\' ∉ w := by
  have hle := h.escapes_le
  have hnone : escapes ((none : Option (List Char)).getD []) = 0 := rfl
  rw [count_lineChars, hnone, escapes] at hle
  have hzero : words.flatten.count '\\' = 0 := by omega
  exact fun w hw hmem =>
    List.count_eq_zero.1 hzero (List.mem_flatten.2 ⟨w, hw, hmem⟩)

/-! ### Words without backslashes -/

/-- The words that a word without backslashes is read as. -/
def readings (w : List Char) : List (List Char) := if IsQuoted w then [w] else wordsChars w

/-- Between double quotes all is read that has been escaped. -/
lemma splits_escaped (acc : List Char) (hw : '\\' ∉ w) :
    Splits (some acc) true (escaped w ++ ['"']) [acc ++ w] := by
  induction w generalizing acc with
  | nil =>
    rw [List.append_nil]
    exact .quote (.done (some acc))
  | cons c cs ih =>
    obtain ⟨hc, hcs⟩ := not_or.1 (mt List.mem_cons.2 hw)
    have hrest := ih (acc ++ [c]) hcs
    rw [List.append_assoc, List.singleton_append] at hrest
    rw [escaped_cons, List.append_assoc]
    split_ifs with hquote
    · exact .escape (hquote ▸ hrest)
    · exact .within (Ne.symm hc) hquote (fun _ => rfl) hrest

lemma splits_quoteChars_of_isQuoted (h : IsQuoted w) (hw : '\\' ∉ w) :
    Splits none false (quoteChars w) [w] := by
  rw [quoteChars_eq, if_pos h]
  exact .quote (splits_escaped [] hw)

/-- Without quotes and backslashes, a text is read as the words in it. -/
lemma splits_wordsChars (hescape : '\\' ∉ cs) (hquote : '"' ∉ cs) :
    Splits none false cs (wordsChars cs) ∧ ∀ w, Splits (some w) false cs
      ((w ++ cs.takeWhile (!isBlank ·)) :: wordsChars (cs.dropWhile (!isBlank ·))) := by
  -- on the line, with no word begun and with any part of one
  induction cs with
  | nil => exact ⟨.done none, fun w => by simpa using! Splits.done (some w)⟩
  | cons c cs ih =>
    obtain ⟨hc, hescape⟩ := not_or.1 (mt List.mem_cons.2 hescape)
    obtain ⟨hc', hquote⟩ := not_or.1 (mt List.mem_cons.2 hquote)
    obtain ⟨hnone, hsome⟩ := ih hescape hquote
    by_cases hblank : isBlank c = true
    · rw [wordsChars_cons_of_blank hblank]
      refine ⟨.between none hblank hnone, fun w => ?_⟩
      rw [List.takeWhile_cons_of_neg (by simp [hblank]), List.append_nil,
        List.dropWhile_cons_of_neg (by simp [hblank]), wordsChars_cons_of_blank hblank]
      exact .between (some w) hblank hnone
    · have hwithin : isBlank c = true → false = true := fun h => absurd h hblank
      rw [wordsChars_cons_of_not_blank (by simpa using hblank)]
      refine ⟨.within (Ne.symm hc) (Ne.symm hc') hwithin (hsome [c]), fun w => ?_⟩
      rw [List.takeWhile_cons_of_pos (by simp [hblank]), List.append_cons,
        List.dropWhile_cons_of_pos (by simp [hblank])]
      exact .within (Ne.symm hc) (Ne.symm hc') hwithin (hsome (w ++ [c]))

/-- A word without backslashes is read on its own as it is read in a line. -/
lemma splits_quoteChars (hw : '\\' ∉ w) : Splits none false (quoteChars w) (readings w) := by
  by_cases h : IsQuoted w
  · rw [readings, if_pos h]
    exact splits_quoteChars_of_isQuoted h hw
  · have hquote : '"' ∉ w := fun hmem => h (.inr (.inr hmem))
    rw [readings, if_neg h, quoteChars_eq, if_neg h]
    exact (splits_wordsChars hw hquote).1

/-- A line of words without backslashes is read word by word. -/
lemma splits_lineChars (hwords : ∀ w ∈ words, '\\' ∉ w) :
    Splits none false (lineChars words) (words.flatMap readings) := by
  induction words with
  | nil => exact .done none
  | cons w words ih =>
    obtain ⟨hw, hwords⟩ := List.forall_mem_cons.1 hwords
    cases words with
    | nil => simpa [lineChars] using splits_quoteChars hw
    | cons v words =>
      rw [lineChars_cons_cons, List.flatMap_cons]
      exact (splits_quoteChars hw).append (ih hwords)

/-! ### What is lost -/

/-- A word allows to be read back from a line. -/
structure Allowed (w : List Char) : Prop where
  escape : '\\' ∉ w
  blank : (∃ c ∈ w, isBlank c = true ∧ c ≠ ' ') → ' ' ∈ w ∨ '"' ∈ w

lemma length_readings_le (w : List Char) : (readings w).flatten.length ≤ w.length := by
  rw [readings]
  split_ifs
  · simp
  · rw [flatten_wordsChars]
    exact List.length_filter_le _ w

/-- Nothing of a word is lost if and only if it is shown between double quotes or has no blanks. -/
lemma le_length_readings_iff :
    w.length ≤ (readings w).flatten.length ↔ IsQuoted w ∨ ∀ c ∈ w, isBlank c = false := by
  rw [readings]
  split_ifs with h
  · simp [h]
  · rw [flatten_wordsChars, (List.length_filter_le _ w).ge_iff_eq, List.length_filter_eq_length_iff]
    simp [h]

/-- A word that allows it is put between double quotes if there is a blank in it. -/
lemma allowed_iff : Allowed w ↔ '\\' ∉ w ∧ (IsQuoted w ∨ ∀ c ∈ w, isBlank c = false) := by
  constructor
  · rintro ⟨hescape, hblank⟩
    refine ⟨hescape, or_iff_not_imp_left.2 fun hquoted c hc => ?_⟩
    by_contra hcblank
    have hspace : c ≠ ' ' := fun h => hquoted (.inr (.inl (h ▸ hc)))
    exact hquoted (.inr (hblank ⟨c, hc, Bool.eq_true_of_not_eq_false hcblank, hspace⟩))
  · rintro ⟨hescape, (rfl | hquoted) | hblank⟩
    · exact ⟨hescape, nofun⟩
    · exact ⟨hescape, fun _ => hquoted⟩
    · refine ⟨hescape, fun ⟨c, hc, hcblank, _⟩ => ?_⟩
      cases (hblank c hc).symm.trans hcblank

instance (w : List Char) : Decidable (Allowed w) :=
  decidable_of_iff ('\\' ∉ w ∧ (IsQuoted w ∨ w.all (!isBlank ·) = true))
    (by simp [allowed_iff])

lemma readings_of_allowed (h : Allowed w) : readings w = [w] := by
  obtain ⟨-, hw⟩ := allowed_iff.1 h
  rw [readings]
  split_ifs with hquoted
  · rfl
  · have hne : w ≠ [] := fun h => hquoted (.inl h)
    rw [wordsChars, pieces_of_forall (hw.resolve_left hquoted)]
    simpa using hne

lemma length_flatMap_readings_le (words : List (List Char)) :
    (words.flatMap readings).flatten.length ≤ words.flatten.length := by
  induction words with
  | nil => rfl
  | cons w words ih =>
    rw [List.flatMap_cons, List.flatten_append, List.flatten_cons, List.length_append,
      List.length_append]
    exact Nat.add_le_add (length_readings_le w) ih

/-- Nothing is lost of words if and only if nothing is lost of each of them. -/
lemma allowed_of_flatMap_readings (hwords : ∀ w ∈ words, '\\' ∉ w)
    (h : words.flatten.length ≤ (words.flatMap readings).flatten.length) :
    ∀ w ∈ words, Allowed w := by
  induction words with
  | nil => exact nofun
  | cons w words ih =>
    obtain ⟨hw, hwords⟩ := List.forall_mem_cons.1 hwords
    have hfirst := length_readings_le w
    have hrest := length_flatMap_readings_le words
    rw [List.flatMap_cons, List.flatten_append, List.flatten_cons, List.length_append,
      List.length_append] at h
    have hword : w.length ≤ (readings w).flatten.length := by omega
    exact List.forall_mem_cons.2
      ⟨allowed_iff.2 ⟨hw, le_length_readings_iff.1 hword⟩, ih hwords (by omega)⟩

/-- A line of words is split into them if and only if all of them allow it. -/
lemma splits_lineChars_iff :
    Splits none false (lineChars words) words ↔ ∀ w ∈ words, Allowed w := by
  constructor
  · intro h
    have hescape := not_mem_of_splits_lineChars h
    have hsame := h.splitFrom_eq.symm.trans (splits_lineChars hescape).splitFrom_eq
    refine allowed_of_flatMap_readings hescape ?_
    rw [← Option.some.inj (Option.some.inj hsame)]
  · intro h
    have hsame : words.flatMap readings = words := by
      rw [List.flatMap_congr fun w hw => readings_of_allowed (h w hw), List.flatMap_singleton']
    have hsplits := splits_lineChars fun w hw => (h w hw).escape
    rwa [hsame] at hsplits

/-! ### Commands -/

lemma splitWords_eq_ok_iff {line : String} {words : List String} :
    splitWords line = .ok words ↔ Splits none false line.toList (words.map (·.toList)) := by
  rw [← splitFrom_eq_iff, splitWords]
  split
  · next h => simp [h]
  · next h => simp [h]
  · next found h =>
    rw [h, Except.ok.injEq, Option.some.injEq, Option.some.injEq]
    constructor
    · rintro rfl
      simp
    · rintro rfl
      simp

lemma toList_line {c : Command} (h : c.environment = []) :
    c.line.toList = lineChars ((c.program :: c.arguments).map (·.toList)) := by
  have hquote : String.toList ∘ quote = quoteChars ∘ String.toList :=
    funext fun _ => String.toList_ofList
  rw [line, h, lineChars, String.toList_intercalate, List.map_nil, List.nil_append, List.map_map,
    List.map_map, hquote]
  rfl

/-- A command without variables is read back from its line if and only if all its words allow it.
Two lines that can be split can be split as one. -/
theorem splitWords_line_iff (c : Command) (h : c.environment = []) :
    (splitWords c.line = .ok (c.program :: c.arguments) ↔
      ∀ word ∈ c.program :: c.arguments, Allowed word.toList) ∧
    ∀ s t words words', splitWords s = .ok words → splitWords t = .ok words' →
      splitWords (s ++ " " ++ t) = .ok (words ++ words') := by
  constructor
  · rw [splitWords_eq_ok_iff, toList_line h, splits_lineChars_iff, List.forall_mem_map]
  · intro s t words words' hs ht
    rw [splitWords_eq_ok_iff] at hs ht ⊢
    rw [String.toList_append, String.toList_append, List.append_assoc, List.map_append]
    exact hs.append ht

def lineSample : Command := ⟨"my tool", ["-t", "", "a\tb c", "say \"go\""], []⟩

/-- All words of the command are read back, also before another line. With a backslash at the end of
a word, or with a tab for its only blank, a word is not. -/
theorem splitWords_line_iff_sample :
    lineSample.environment = [] ∧
      splitWords lineSample.line = .ok ["my tool", "-t", "", "a\tb c", "say \"go\""] ∧
      splitWords (lineSample.line ++ " " ++ "x\\ y") =
        .ok (["my tool", "-t", "", "a\tb c", "say \"go\""] ++ ["x y"]) ∧
      splitWords (line ⟨"a\\", ["b"], []⟩) ≠ .ok ["a\\", "b"] ∧
      splitWords (line ⟨"a\tb", [], []⟩) ≠ .ok ["a\tb"] := by
  obtain ⟨hline, hjoin⟩ := splitWords_line_iff lineSample rfl
  have hwords := hline.2 (by decide)
  refine ⟨rfl, hwords, hjoin _ _ _ _ hwords (by decide), ?_, ?_⟩
  · exact mt (splitWords_line_iff ⟨"a\\", ["b"], []⟩ rfl).1.1 (by decide)
  · exact mt (splitWords_line_iff ⟨"a\tb", [], []⟩ rfl).1.1 (by decide)

end TimedPatterns.Command
