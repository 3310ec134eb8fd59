import Mathlib.Data.List.TakeWhile
import Mathlib.Tactic
import TimedPatterns.Text.WordChar
import TimedPatterns.Text.Blank

/-!
# Pieces, words and ends

A text is cut into the pieces that it was joined from, if none of them holds the sign between
them, and likewise into words. It is cut once at the first place where a sign stands. Nothing is
trimmed from a text whose ends are not blank.
-/

namespace TimedPatterns.Text

variable {p : Char → Bool} {c : Char} {cs rest : List Char}

/-! ### Pieces -/

lemma beq_of_not_mem (h : c ∉ cs) : ∀ x ∈ cs, (x == c) = false := by
  intro x hx
  rw [beq_eq_false_iff_ne]
  rintro rfl
  exact h hx

lemma pieces_append_cons (hcs : ∀ x ∈ cs, p x = false) (hc : p c = true) (rest : List Char) :
    pieces p (cs ++ c :: rest) = cs :: pieces p rest := by
  induction cs with
  | nil => rw [List.nil_append, pieces, if_pos hc]
  | cons x cs ih =>
    obtain ⟨hx, hcs⟩ := List.forall_mem_cons.1 hcs
    rw [List.cons_append, pieces, hx, ih hcs]
    rfl

lemma pieces_of_forall (hcs : ∀ x ∈ cs, p x = false) : pieces p cs = [cs] := by
  induction cs with
  | nil => rfl
  | cons x cs ih =>
    obtain ⟨hx, hcs⟩ := List.forall_mem_cons.1 hcs
    rw [pieces, hx, ih hcs]
    rfl

/-- The last piece stands behind the last sign. -/
lemma pieces_append_last (cs : List Char) (hc : p c = true) (hrest : ∀ x ∈ rest, p x = false) :
    pieces p (cs ++ c :: rest) = pieces p cs ++ [rest] := by
  induction cs with
  | nil =>
    calc pieces p (c :: rest)
      _ = [] :: pieces p rest := pieces_append_cons (List.forall_mem_nil _) hc rest
      _ = [] :: [rest] := by rw [pieces_of_forall hrest]
  | cons x cs ih =>
    rw [List.cons_append, pieces, pieces, ih]
    split_ifs
    · rfl
    · obtain ⟨w, ws, hpieces⟩ := List.exists_cons_of_ne_nil (pieces_ne_nil p cs)
      rw [hpieces]
      rfl

/-- A sign is in no piece. -/
lemma of_mem_pieces {part : List Char} (h : part ∈ pieces p cs) : ∀ x ∈ part, p x = false := by
  induction cs generalizing part with
  | nil =>
    rw [pieces, List.mem_singleton] at h
    simp [h]
  | cons c cs ih =>
    rw [pieces] at h
    split_ifs at h with hc
    · rcases List.mem_cons.1 h with rfl | hmem
      · exact List.forall_mem_nil _
      · exact ih hmem
    · obtain ⟨w, ws, hpieces⟩ := List.exists_cons_of_ne_nil (pieces_ne_nil p cs)
      rw [hpieces] at h ih
      rcases List.mem_cons.1 h with rfl | hmem
      · exact List.forall_mem_cons.2 ⟨by simpa using hc, ih List.mem_cons_self⟩
      · exact ih (List.mem_cons_of_mem w hmem)

lemma not_mem_of_mem_pieces {part : List Char} (h : part ∈ pieces (· == c) cs) : c ∉ part := by
  intro hmem
  simpa using of_mem_pieces h c hmem

/-- A text is cut into the pieces that it was joined from. -/
lemma pieces_intercalate {parts : List (List Char)} (hne : parts ≠ [])
    (hparts : ∀ part ∈ parts, ∀ x ∈ part, p x = false) (hc : p c = true) :
    pieces p ([c].intercalate parts) = parts := by
  induction parts with
  | nil => exact absurd rfl hne
  | cons part parts ih =>
    obtain ⟨hpart, hparts⟩ := List.forall_mem_cons.1 hparts
    cases parts with
    | nil =>
      rw [List.intercalate_singleton]
      exact pieces_of_forall hpart
    | cons next parts =>
      rw [List.intercalate_cons_cons, List.append_assoc, List.singleton_append,
        pieces_append_cons hpart hc, ih (List.cons_ne_nil _ _) hparts]

/-- A text is joined from its pieces. -/
lemma intercalate_pieces (c : Char) (cs : List Char) : [c].intercalate (pieces (· == c) cs) = cs := by
  induction cs with
  | nil => rfl
  | cons x cs ih =>
    obtain ⟨w, ws, hpieces⟩ := List.exists_cons_of_ne_nil (pieces_ne_nil (· == c) cs)
    rw [hpieces] at ih
    rw [pieces, hpieces]
    split_ifs with hx
    · obtain rfl : x = c := by simpa using hx
      rw [List.intercalate_cons_cons, ih]
      rfl
    · rw [← ih]
      cases ws <;> simp

/-- A text is split into the words that it was joined from. -/
lemma wordsChars_intercalate {parts : List (List Char)}
    (hne : ∀ part ∈ parts, part ≠ []) (hparts : ∀ part ∈ parts, ∀ x ∈ part, isBlank x = false) :
    wordsChars ([' '].intercalate parts) = parts := by
  cases parts with
  | nil => rfl
  | cons part parts =>
    rw [wordsChars, pieces_intercalate (List.cons_ne_nil _ _) hparts rfl, List.filter_eq_self]
    intro other hother
    simpa using hne other hother

lemma wordsChars_cons_of_blank (hc : isBlank c = true) (cs : List Char) :
    wordsChars (c :: cs) = wordsChars cs := by
  rw [wordsChars, pieces, if_pos hc]
  rfl

/-- A word goes up to the next blank. -/
lemma wordsChars_cons_of_not_blank (hc : isBlank c = false) (cs : List Char) :
    wordsChars (c :: cs) =
      (c :: cs.takeWhile (!isBlank ·)) :: wordsChars (cs.dropWhile (!isBlank ·)) := by
  have hfirst : ∀ x ∈ c :: cs.takeWhile (!isBlank ·), isBlank x = false :=
    List.forall_mem_cons.2 ⟨hc, fun x hx => by simpa using List.mem_takeWhile_imp hx⟩
  conv_lhs => rw [← List.takeWhile_append_dropWhile (p := (!isBlank ·)) (l := cs)]
  rw [← List.cons_append]
  cases hrest : cs.dropWhile (!isBlank ·) with
  | nil =>
    rw [List.append_nil, wordsChars, pieces_of_forall hfirst]
    rfl
  | cons b rest =>
    have hb : isBlank b = true := by
      have hhead := List.head?_dropWhile_not (!isBlank ·) cs
      rw [hrest] at hhead
      simpa using hhead
    rw [wordsChars, pieces_append_cons hfirst hb, wordsChars_cons_of_blank hb]
    rfl

/-- Only signs are lost. -/
lemma flatten_pieces (p : Char → Bool) (cs : List Char) :
    (pieces p cs).flatten = cs.filter (!p ·) := by
  induction cs with
  | nil => rfl
  | cons c cs ih =>
    rw [pieces]
    split_ifs with hc
    · simp [hc, ih]
    · obtain ⟨w, ws, hpieces⟩ := List.exists_cons_of_ne_nil (pieces_ne_nil p cs)
      rw [hpieces] at ih
      simp [hpieces, hc, ← ih]

lemma flatten_wordsChars (cs : List Char) : (wordsChars cs).flatten = cs.filter (!isBlank ·) := by
  rw [wordsChars, ← flatten_pieces, List.flatten_filter_not_isEmpty]

lemma forall_mem_intercalate {q : Char → Prop} {sep : List Char} {parts : List (List Char)}
    (hsep : ∀ x ∈ sep, q x) (hparts : ∀ part ∈ parts, ∀ x ∈ part, q x) :
    ∀ x ∈ sep.intercalate parts, q x := by
  induction parts with
  | nil => exact nofun
  | cons part parts ih =>
    obtain ⟨hpart, hparts⟩ := List.forall_mem_cons.1 hparts
    cases parts with
    | nil =>
      rw [List.intercalate_singleton]
      exact hpart
    | cons next parts =>
      rw [List.intercalate_cons_cons, List.forall_mem_append, List.forall_mem_append]
      exact ⟨⟨hpart, hsep⟩, ih hparts⟩

/-! ### Signs -/

section Signs

variable {s before after body : List Char}

/-- No end of a sign is also a beginning of it. So it does not stand at two places that overlap. -/
def Unbordered (s : List Char) : Prop := ∀ t ∈ s.tails, t <+: s → t = [] ∨ t = s

instance : Decidable (Unbordered s) := inferInstanceAs (Decidable (∀ t ∈ s.tails, _))

lemma Unbordered.not_initial (h : Unbordered s) (hbody : ¬ s <:+: body) (hne : body ≠ []) :
    ¬ s <+: body ++ (s ++ rest) := by
  rintro ⟨v, hv⟩
  rcases List.append_eq_append_iff.1 hv with ⟨x, hx, -⟩ | ⟨t, hs, ht⟩
  · exact hbody ⟨[], x, by rw [List.nil_append, hx]⟩
  · -- `t` is the part of the sign that would stand at both places
    have hinitial : t <+: s := by
      refine List.prefix_of_prefix_length_le ⟨v, ht.symm⟩ (List.prefix_append s rest) ?_
      rw [hs, List.length_append]
      exact Nat.le_add_left _ _
    rcases h t ((List.mem_tails t s).2 ⟨body, hs.symm⟩) hinitial with rfl | rfl
    · exact hbody ⟨[], [], by simpa using hs⟩
    · exact hne (by simpa using hs)

/-- A text is cut at the first place where the sign stands. -/
lemma cutFirst?_append (h : Unbordered s) (hs : s ≠ []) (hbody : ¬ s <:+: body) (rest : List Char) :
    cutFirst? s (body ++ (s ++ rest)) = some (body, rest) := by
  induction body with
  | nil =>
    obtain ⟨c, cs, hcs⟩ := List.exists_cons_of_ne_nil (List.append_ne_nil_of_left_ne_nil hs rest)
    rw [List.nil_append, hcs, cutFirst?, dropPrefix?_eq_some_iff.2 hcs.symm]
  | cons c body ih =>
    have hnone : dropPrefix? s (c :: (body ++ (s ++ rest))) = none := by
      refine Option.eq_none_iff_forall_ne_some.2 fun r hr => ?_
      refine h.not_initial hbody (List.cons_ne_nil c body) ⟨r, (dropPrefix?_eq_some_iff.1 hr).symm⟩
    rw [List.cons_append, cutFirst?, hnone, ih fun h => hbody (List.infix_cons h)]
    rfl

/-- The sign does not stand before the place where a text is cut. -/
lemma not_infix_of_cutFirst? (hs : s ≠ []) (h : cutFirst? s cs = some (before, after)) :
    ¬ s <:+: before := by
  induction cs generalizing before with
  | nil =>
    simp only [cutFirst?, Option.map_eq_some_iff, Prod.mk.injEq] at h
    obtain ⟨_, -, rfl, -⟩ := h
    simpa using hs
  | cons c cs ih =>
    have happend := append_of_cutFirst? h
    rw [cutFirst?] at h
    split at h
    · simp only [Option.some.injEq, Prod.mk.injEq] at h
      obtain ⟨rfl, -⟩ := h
      simpa using hs
    · next hnone =>
      simp only [Option.map_eq_some_iff, Prod.exists, Prod.mk.injEq] at h
      obtain ⟨b, a, hcut, rfl, rfl⟩ := h
      rw [List.infix_cons_iff]
      rintro (⟨v, hv⟩ | hinfix)
      · -- an occurrence at the beginning of what was skipped would have been cut there
        have hsome : dropPrefix? s (c :: cs) = some (v ++ s ++ a) := by
          rw [dropPrefix?_eq_some_iff, happend, ← hv]
          simp
        rw [hnone] at hsome
        cases hsome
      · exact ih hcut hinfix

end Signs

/-! ### Ends -/

/-- A text that begins and ends with characters that are not blank. -/
structure Trimmed (cs : List Char) : Prop where
  head : ∀ c ∈ cs.head?, isBlank c = false
  last : ∀ c ∈ cs.getLast?, isBlank c = false

lemma trimmed_of_forall (h : ∀ c ∈ cs, isBlank c = false) : Trimmed cs :=
  ⟨fun c hc => h c (List.mem_of_mem_head? hc), fun c hc => h c (List.mem_of_mem_getLast? hc)⟩

lemma dropWhile_eq_self (h : ∀ c ∈ cs.head?, p c = false) : cs.dropWhile p = cs := by
  cases cs with
  | nil => rfl
  | cons c cs => rw [List.dropWhile_cons_of_neg (by simp [h c rfl])]

/-- Behind a character that is not blank, the blanks at the end are those of the rest. -/
lemma trimEndChars_append (hcs : ∀ c ∈ cs.getLast?, isBlank c = false) (rest : List Char) :
    trimEndChars (cs ++ rest) = cs ++ trimEndChars rest := by
  have hhead : ∀ c ∈ cs.reverse.head?, isBlank c = false := by
    rw [List.head?_reverse]
    exact hcs
  rw [trimEndChars, trimEndChars, List.reverse_append, List.dropWhile_append,
    dropWhile_eq_self hhead]
  split_ifs with hrest
  · rw [List.reverse_reverse, List.isEmpty_iff.1 hrest, List.reverse_nil, List.append_nil]
  · rw [List.reverse_append, List.reverse_reverse]

lemma Trimmed.trimChars_eq (h : Trimmed cs) : trimChars cs = cs := by
  have hlast : ∀ c ∈ cs.reverse.head?, isBlank c = false := by
    rw [List.head?_reverse]
    exact h.last
  rw [trimChars, trimEndChars, dropWhile_eq_self h.head, dropWhile_eq_self hlast,
    List.reverse_reverse]

lemma trimEndChars_eq_nil_iff : trimEndChars cs = [] ↔ ∀ c ∈ cs, isBlank c = true := by
  rw [trimEndChars, List.reverse_eq_nil_iff, List.dropWhile_eq_nil_iff]
  simp

/-- Nothing is left of a text of blanks, and of no other text. -/
lemma trimChars_eq_nil_iff : trimChars cs = [] ↔ ∀ c ∈ cs, isBlank c = true := by
  rw [trimChars, trimEndChars_eq_nil_iff]
  constructor
  · intro h c hc
    rw [← List.takeWhile_append_dropWhile (p := isBlank) (l := cs), List.mem_append] at hc
    rcases hc with hc | hc
    · exact List.mem_takeWhile_imp hc
    · exact h c hc
  · intro h c hc
    exact h c ((List.dropWhile_suffix isBlank).subset hc)

lemma trimChars_cons (hc : isBlank c = true) (cs : List Char) :
    trimChars (c :: cs) = trimChars cs := by
  rw [trimChars, List.dropWhile_cons_of_pos hc, ← trimChars]

/-- Texts that are not empty and have no blank ends are joined to one without blank ends. -/
lemma trimmed_intercalate {parts : List (List Char)} (hne : ∀ part ∈ parts, part ≠ [])
    (hparts : ∀ part ∈ parts, Trimmed part) : Trimmed ([' '].intercalate parts) := by
  induction parts with
  | nil => exact ⟨nofun, nofun⟩
  | cons part parts ih =>
    obtain ⟨hpart, hparts⟩ := List.forall_mem_cons.1 hparts
    obtain ⟨hpartne, hne⟩ := List.forall_mem_cons.1 hne
    cases parts with
    | nil => rwa [List.intercalate_singleton]
    | cons next parts =>
      have hrest := ih hne hparts
      have hnext : [' '].intercalate (next :: parts) ≠ [] := by
        obtain ⟨x, xs, rfl⟩ := List.exists_cons_of_ne_nil (hne next List.mem_cons_self)
        cases parts <;> simp
      rw [List.intercalate_cons_cons]
      constructor
      · rw [List.append_assoc, List.head?_append_of_ne_nil _ hpartne]
        exact hpart.head
      · rw [List.getLast?_append_of_ne_nil _ hnext]
        exact hrest.last

/-! ### Word characters -/

def blankCodes : List Nat :=
  [9, 10, 11, 12, 13, 0x20, 0x85, 0xA0, 0x1680, 0x2000, 0x2001, 0x2002, 0x2003, 0x2004, 0x2005,
    0x2006, 0x2007, 0x2008, 0x2009, 0x200A, 0x2028, 0x2029, 0x202F, 0x205F, 0x3000]

lemma toNat_mem_blankCodes (h : isBlank c = true) : c.toNat ∈ blankCodes := by
  unfold isBlank at h
  simp only [Bool.or_eq_true, Bool.and_eq_true, decide_eq_true_eq, beq_iff_eq] at h
  simp only [blankCodes, List.mem_cons, List.not_mem_nil, or_false]
  omega

lemma isWord_of_mem_blankCodes : ∀ n ∈ blankCodes, isWord (Char.ofNat n) = false := by
  decide +kernel

/-- No word character is blank. -/
lemma isBlank_of_isWord (h : isWord c = true) : isBlank c = false := by
  by_contra hblank
  have hmem := toNat_mem_blankCodes (Bool.eq_true_of_not_eq_false hblank)
  have hword := isWord_of_mem_blankCodes _ hmem
  rw [Char.ofNat_toNat, h] at hword
  cases hword

end TimedPatterns.Text
