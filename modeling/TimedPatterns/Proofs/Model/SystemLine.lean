import TimedPatterns.Model
import TimedPatterns.Proofs.Text.Occurrence

/-!
# System lines

A `system` line begins at the beginning of a line or behind an opening tag and goes up to the next
semicolon. Lines are looked for one behind the other; the cut that is made is nevertheless before
the semicolon of the last of all `system` lines, since lines that overlap have the same semicolon.
-/

namespace TimedPatterns.Model

open Text

variable {cs text before after : List Char} {lineStart : Bool} {skip : Nat} {c : Char}

/-! ### One line -/

/-- A `system` line before its semicolon: blanks, the word, a blank, and what is listed. -/
def LineText (text : List Char) : Prop :=
  ∃ blanks b listed, text = blanks ++ ("system".toList ++ b :: listed) ∧
    (∀ c ∈ blanks, isBlank c = true) ∧ isBlank b = true ∧ ';' ∉ listed

lemma LineText.semicolon_not_mem (h : LineText text) : ';' ∉ text := by
  obtain ⟨blanks, b, listed, rfl, hblanks, hb, hlisted⟩ := h
  simp only [List.mem_append, List.mem_cons, not_or]
  refine ⟨fun hmem => ?_, by decide, ?_, hlisted⟩
  · exact absurd (hblanks _ hmem) (by decide)
  · rintro rfl
    exact absurd hb (by decide)

lemma LineText.length_le (h : LineText text) : 7 ≤ text.length := by
  obtain ⟨blanks, b, listed, rfl, -⟩ := h
  have hword : "system".toList.length = 6 := rfl
  rw [List.length_append, List.length_append, List.length_cons, hword]
  omega

/-- A line does not begin like a tag. -/
lemma LineText.head?_ne (h : LineText text) : text.head? ≠ some '<' := by
  obtain ⟨blanks, b, listed, rfl, hblanks, -⟩ := h
  cases blanks with
  | nil =>
    intro hhead
    exact absurd (Option.some.inj hhead : 's' = '<') (by decide)
  | cons c blanks =>
    intro hhead
    obtain rfl : c = '<' := Option.some.inj hhead
    exact absurd (hblanks '<' List.mem_cons_self) (by decide)

lemma systemLine?_eq_some_iff :
    systemLine? cs = some (before, after) ↔
      cs = before ++ after ∧ LineText before ∧ after.head? = some ';' := by
  constructor
  · intro h
    obtain ⟨word, hword, h⟩ := Option.bind_eq_some_iff.1 h
    have hcs : cs = cs.takeWhile isBlank ++ ("system".toList ++ word) := by
      rw [← dropPrefix?_eq_some_iff.1 hword, List.takeWhile_append_dropWhile]
    cases word with
    | nil => cases h
    | cons b rest =>
      simp only at h
      split_ifs at h with hcond
      obtain ⟨listed, behind, rfl, hlisted⟩ := List.eq_append_cons_of_mem
        (List.contains_iff_mem.1 hcond.2)
      have hline : LineText (cs.takeWhile isBlank ++ ("system".toList ++ b :: listed)) :=
        ⟨_, b, listed, rfl, List.all_eq_true.1 List.all_takeWhile, hcond.1, hlisted⟩
      have hcs : cs =
          cs.takeWhile isBlank ++ ("system".toList ++ b :: listed) ++ ';' :: behind := by
        simpa using hcs
      rw [hcs, span_append hline.semicolon_not_mem rfl] at h
      cases h
      exact ⟨hcs, hline, rfl⟩
  · rintro ⟨rfl, hline, hafter⟩
    have hspan := span_append hline.semicolon_not_mem hafter
    obtain ⟨blanks, b, listed, rfl, hblanks, hb, hlisted⟩ := hline
    have hdrop : (blanks ++ ("system".toList ++ b :: listed) ++ after).dropWhile isBlank =
        "system".toList ++ b :: (listed ++ after) := by
      rw [List.append_assoc, dropWhile_append hblanks (by rintro c ⟨⟩; decide), List.append_assoc]
      rfl
    have hmem : (listed ++ after).contains ';' = true :=
      List.contains_iff_mem.2 (List.mem_append_right _ (List.mem_of_mem_head? hafter))
    rw [systemLine?, hdrop, dropPrefix?_eq_some_iff.2 rfl, hspan]
    exact if_pos ⟨hb, hmem⟩

lemma LineText.append {listed : List Char} (h : LineText text) (hlisted : ';' ∉ listed) :
    LineText (text ++ listed) := by
  obtain ⟨blanks, b, words, rfl, hblanks, hb, hwords⟩ := h
  refine ⟨blanks, b, words ++ listed, by simp, hblanks, hb, ?_⟩
  rw [List.mem_append, not_or]
  exact ⟨hwords, hlisted⟩

/-- A `system` line before its semicolon, at the beginning of a line or behind the tag that it is
taken with. -/
def Line (lineStart : Bool) (line : List Char) : Prop :=
  (lineStart = true ∧ LineText line) ∨ ∃ text, line = "<system>".toList ++ text ∧ LineText text

lemma Line.semicolon_not_mem (h : Line lineStart text) : ';' ∉ text := by
  rcases h with ⟨-, h⟩ | ⟨text, rfl, h⟩
  · exact h.semicolon_not_mem
  · rw [List.mem_append, not_or]
    exact ⟨by decide, h.semicolon_not_mem⟩

lemma Line.append {listed : List Char} (h : Line lineStart text) (hlisted : ';' ∉ listed) :
    Line lineStart (text ++ listed) := by
  rcases h with ⟨hstart, h⟩ | ⟨text, rfl, h⟩
  · exact .inl ⟨hstart, h.append hlisted⟩
  · exact .inr ⟨text ++ listed, List.append_assoc _ _ _, h.append hlisted⟩

lemma not_line_nil : ¬ Line lineStart [] := by
  rintro (⟨-, blanks, b, listed, h, -⟩ | ⟨text, h, -⟩)
  · simp at h
  · simp at h

lemma systemLineAt?_eq_some_iff :
    systemLineAt? lineStart cs = some (before, after) ↔
      cs = before ++ after ∧ Line lineStart before ∧ after.head? = some ';' := by
  have hplain {before after : List Char} :
      (if lineStart then systemLine? cs else none) = some (before, after) ↔
        cs = before ++ after ∧ (lineStart = true ∧ LineText before) ∧ after.head? = some ';' := by
    cases lineStart <;> simp [systemLine?_eq_some_iff]
  rw [systemLineAt?, Option.orElse_eq_some, hplain]
  simp only [Option.bind_eq_bind, Option.bind_eq_some_iff, dropPrefix?_eq_some_iff, Prod.exists,
      systemLine?_eq_some_iff]
  constructor
  · rintro (⟨hcs, hline, hafter⟩ | ⟨-, rest, rfl, text, behind, ⟨rfl, htext, hbehind⟩, h⟩)
    · exact ⟨hcs, .inl hline, hafter⟩
    · cases h
      exact ⟨(List.append_assoc _ _ _).symm, .inr ⟨text, rfl, htext⟩, hbehind⟩
  · rintro ⟨rfl, hline | ⟨text, rfl, htext⟩, hafter⟩
    · exact .inl ⟨rfl, hline, hafter⟩
    · -- blanks and the word do not begin like the tag
      have hnone : (if lineStart then systemLine? ("<system>".toList ++ text ++ after) else none) =
          none := by
        cases lineStart <;> rfl
      exact .inr ⟨hnone, text ++ after, List.append_assoc _ _ _, text, after,
        ⟨rfl, htext, hafter⟩, rfl⟩

/-! ### The last line -/

/-- Whether a line begins behind a text, `lineStart` telling whether one begins with the text. -/
def beginsLine (lineStart : Bool) (before : List Char) : Bool :=
  before.getLast?.elim lineStart (· == '\n')

lemma beginsLine_cons (lineStart : Bool) (c : Char) (before : List Char) :
    beginsLine lineStart (c :: before) = beginsLine (c == '\n') before := by
  cases before <;> rfl

lemma beginsLine_append_cons (lineStart : Bool) (before : List Char) (c : Char)
    (after : List Char) :
    beginsLine lineStart (before ++ c :: after) = beginsLine lineStart (c :: after) := by
  rw [beginsLine, beginsLine, List.getLast?_append_of_ne_nil _ (List.cons_ne_nil c after)]

/-- The text ends before the semicolon of a `system` line that begins behind the first `skip`
characters. -/
def EndsInLine (lineStart : Bool) (skip : Nat) (before : List Char) : Prop :=
  ∃ pre line, before = pre ++ line ∧ skip ≤ pre.length ∧ Line (beginsLine lineStart pre) line

lemma EndsInLine.le_length (h : EndsInLine lineStart skip before) : skip ≤ before.length := by
  obtain ⟨pre, line, rfl, hskip, -⟩ := h
  rw [List.length_append]
  exact Nat.le_add_right_of_le hskip

lemma EndsInLine.of_le {skip' : Nat} (hskip : skip' ≤ skip)
    (h : EndsInLine lineStart skip before) : EndsInLine lineStart skip' before := by
  obtain ⟨pre, line, rfl, hle, hline⟩ := h
  exact ⟨pre, line, rfl, hskip.trans hle, hline⟩

lemma not_endsInLine_nil : ¬ EndsInLine lineStart skip [] := by
  rintro ⟨pre, line, h, -, hline⟩
  rw [(List.append_eq_nil_iff.1 h.symm).2] at hline
  exact not_line_nil hline

lemma endsInLine_cons : EndsInLine lineStart skip (c :: before) ↔
    (skip = 0 ∧ Line lineStart (c :: before)) ∨ EndsInLine (c == '\n') (skip - 1) before := by
  constructor
  · rintro ⟨pre, line, h, hskip, hline⟩
    rcases List.cons_eq_append_iff.1 h with ⟨rfl, rfl⟩ | ⟨pre, rfl, rfl⟩
    · exact .inl ⟨Nat.le_zero.1 hskip, hline⟩
    · rw [beginsLine_cons] at hline
      exact .inr ⟨pre, line, rfl, Nat.sub_le_of_le_add hskip, hline⟩
  · rintro (⟨rfl, hline⟩ | ⟨pre, line, rfl, hskip, hline⟩)
    · exact ⟨[], c :: before, rfl, Nat.le_refl 0, hline⟩
    · rw [← beginsLine_cons] at hline
      exact ⟨c :: pre, line, rfl, Nat.le_add_of_sub_le hskip, hline⟩

lemma EndsInLine.tail (h : EndsInLine lineStart (skip + 1) (c :: before)) :
    EndsInLine (c == '\n') skip before :=
  (endsInLine_cons.1 h).resolve_left fun h => absurd h.1 (Nat.succ_ne_zero skip)

/-- A line that begins within another one ends before the same semicolon. -/
lemma EndsInLine.eq_or_behind {found rest : List Char} (h : EndsInLine lineStart skip before)
    (hafter : after.head? = some ';') (hfound : ';' ∉ found) (hrest : rest.head? = some ';')
    (heq : before ++ after = found ++ rest) :
    found = before ∨ EndsInLine lineStart (found.length + 1) before := by
  obtain ⟨pre, line, rfl, -, hline⟩ := h
  rcases Nat.lt_or_ge found.length pre.length with hlt | hle
  · exact .inr ⟨pre, line, rfl, hlt, hline⟩
  · left
    rw [List.append_assoc] at heq
    obtain ⟨between, rfl⟩ := List.prefix_of_prefix_length_le ⟨_, rfl⟩ ⟨_, heq.symm⟩ hle
    rw [List.append_assoc, List.append_cancel_left_eq] at heq
    have hbetween : ';' ∉ between := fun hmem => hfound (List.mem_append_right _ hmem)
    rw [(eq_of_append_eq hline.semicolon_not_mem hbetween hafter hrest heq).1]

/-- In a text that begins with the tag, a line ends behind the tag. -/
lemma EndsInLine.tag_isPrefix {system line tail : List Char} (h : EndsInLine true 0 line)
    (heq : line ++ tail = "<system>".toList ++ system) : "<system>".toList <+: line := by
  refine List.prefix_of_prefix_length_le ⟨system, heq.symm⟩ ⟨tail, rfl⟩ ?_
  have htag : "<system>".toList.length = 8 := rfl
  obtain ⟨pre, text, rfl, -, hline⟩ := h
  rw [htag, List.length_append]
  rcases hline with ⟨-, htext⟩ | ⟨text, rfl, htext⟩
  · have hlength := htext.length_le
    cases pre with
    | nil =>
      refine absurd ?_ htext.head?_ne
      rw [List.nil_append] at heq
      rw [← List.head?_append_of_ne_nil text (by rintro rfl; cases hlength), heq]
      rfl
    | cons c pre =>
      rw [List.length_cons]
      omega
  · rw [List.length_append, htag]
    omega

/-- The cut is made before the semicolon of a line. -/
lemma cutSystem?_sound (h : cutSystem? lineStart skip cs = some (before, after)) :
    cs = before ++ after ∧ EndsInLine lineStart skip before ∧ after.head? = some ';' := by
  induction cs generalizing lineStart skip before with
  | nil => cases h
  | cons c cs ih =>
    -- what is found further on is found here too, one character later
    have hfurther {skip skip' : Nat} (hskip : skip' ≤ skip + 1)
        (h : ((cutSystem? (c == '\n') skip cs).map fun found => (c :: found.1, found.2)) =
          some (before, after)) :
        c :: cs = before ++ after ∧ EndsInLine lineStart skip' before ∧ after.head? = some ';' := by
      simp only [Option.map_eq_some_iff, Prod.exists, Prod.mk.injEq] at h
      obtain ⟨b, a, hcut, rfl, rfl⟩ := h
      obtain ⟨rfl, hends, hafter⟩ := ih hcut
      exact ⟨rfl, endsInLine_cons.2 (.inr (hends.of_le (Nat.sub_le_of_le_add hskip))), hafter⟩
    cases skip with
    | succ skip => exact hfurther (Nat.le_refl _) h
    | zero =>
      rw [cutSystem?] at h
      cases hline : systemLineAt? lineStart (c :: cs) with
      | none =>
        rw [hline] at h
        exact hfurther (Nat.zero_le _) h
      | some found =>
        rw [hline] at h
        rcases (Option.orElse_eq_some _ _ _).1 h with h | ⟨-, h⟩
        · exact hfurther (Nat.zero_le _) h
        · cases h
          obtain ⟨hcs, hbefore, hafter⟩ := systemLineAt?_eq_some_iff.1 hline
          exact ⟨hcs, ⟨[], _, rfl, Nat.le_refl 0, hbefore⟩, hafter⟩

/-- Where a text ends before the semicolon of a line, the cut is made there or further behind. -/
lemma cutSystem?_complete (hends : EndsInLine lineStart skip before)
    (hafter : after.head? = some ';') :
    ∃ line tail, cutSystem? lineStart skip (before ++ after) = some (line, tail) ∧
      before.length ≤ line.length := by
  induction before generalizing lineStart skip with
  | nil => exact absurd hends not_endsInLine_nil
  | cons c before ih =>
    have hfurther {skip : Nat} (h : EndsInLine (c == '\n') skip before) :
        ∃ line tail, ((cutSystem? (c == '\n') skip (before ++ after)).map
            fun found => (c :: found.1, found.2)) = some (line, tail) ∧
          (c :: before).length ≤ line.length := by
      obtain ⟨line, tail, hcut, hle⟩ := ih h
      exact ⟨c :: line, tail, by rw [hcut]; rfl, Nat.succ_le_succ hle⟩
    rw [List.cons_append]
    cases skip with
    | succ skip => exact hfurther hends.tail
    | zero =>
      rw [cutSystem?]
      cases hline : systemLineAt? lineStart (c :: (before ++ after)) with
      | none =>
        refine hfurther ((endsInLine_cons.1 hends).resolve_left fun h => ?_)
        rw [← List.cons_append, systemLineAt?_eq_some_iff.2 ⟨rfl, h.2, hafter⟩] at hline
        cases hline
      | some found =>
        obtain ⟨found, rest⟩ := found
        obtain ⟨hcs, hfound, hrest⟩ := systemLineAt?_eq_some_iff.1 hline
        rcases hends.eq_or_behind hafter hfound.semicolon_not_mem hrest hcs with rfl | hbehind
        · -- no line begins behind the one that was found, or it ends further behind
          cases hcut : cutSystem? (c == '\n') (c :: before).length (before ++ after) with
          | none => exact ⟨c :: before, rest, by simp only [hcut]; rfl, Nat.le_refl _⟩
          | some further =>
            obtain ⟨line, tail⟩ := further
            refine ⟨c :: line, tail, by simp only [hcut]; rfl, ?_⟩
            exact Nat.le_succ_of_le (cutSystem?_sound hcut).2.1.le_length
        · obtain ⟨line, tail, hcut, hle⟩ := hfurther hbehind.tail
          exact ⟨line, tail, (Option.orElse_eq_some _ _ _).2 (.inl hcut), hle⟩

/-- A text is cut before the semicolon of its last `system` line. -/
structure LastLine (line tail : List Char) : Prop where
  semicolon : tail.head? = some ';'
  ends : EndsInLine true 0 line
  last : ∀ between rest, tail = between ++ rest → rest.head? = some ';' →
    EndsInLine true 0 (line ++ between) → between = []

/-- More can be listed at the end of the line. -/
lemma LastLine.append {line tail listed : List Char} (h : LastLine line tail)
    (hlisted : ';' ∉ listed) : LastLine (line ++ listed) tail where
  semicolon := h.semicolon
  ends := by
    obtain ⟨pre, text, rfl, hskip, hline⟩ := h.ends
    exact ⟨pre, text ++ listed, List.append_assoc _ _ _, hskip, hline.append hlisted⟩
  last := by
    rintro (_ | ⟨c, between⟩) rest heq hrest ⟨pre, text, hends, -, hline⟩
    · rfl
    · have hhead := h.semicolon
      obtain rfl : c = ';' := by
        rw [heq] at hhead
        exact Option.some.inj hhead
      -- a line holds no semicolon, so one that ends further behind begins behind this one
      rcases List.append_eq_append_iff.1 hends with ⟨_ | ⟨d, middle⟩, rfl, hbetween⟩ |
        ⟨middle, -, rfl⟩
      · rw [List.nil_append] at hbetween
        rw [← hbetween] at hline
        exact absurd List.mem_cons_self hline.semicolon_not_mem
      · obtain ⟨rfl, rfl⟩ := List.cons.inj hbetween
        rw [beginsLine_append_cons, ← beginsLine_append_cons true line] at hline
        exact h.last _ rest heq hrest
          ⟨line ++ ';' :: middle, text, by simp, Nat.zero_le _, hline⟩
      · exact absurd (List.mem_append_right middle List.mem_cons_self) hline.semicolon_not_mem

lemma cutSystem?_eq_some_iff {line tail : List Char} :
    cutSystem? true 0 cs = some (line, tail) ↔ cs = line ++ tail ∧ LastLine line tail := by
  constructor
  · intro h
    obtain ⟨hcs, hends, htail⟩ := cutSystem?_sound h
    refine ⟨hcs, htail, hends, fun between rest heq hrest hfurther => ?_⟩
    obtain ⟨line', tail', hcut, hle⟩ := cutSystem?_complete hfurther hrest
    rw [List.append_assoc, ← heq, ← hcs, h] at hcut
    cases hcut
    rw [List.length_append] at hle
    exact List.length_eq_zero_iff.1 (by omega)
  · rintro ⟨rfl, htail, hends, hlast⟩
    obtain ⟨line', tail', hcut, hle⟩ := cutSystem?_complete hends htail
    obtain ⟨heq, hends', htail'⟩ := cutSystem?_sound hcut
    obtain ⟨between, rfl⟩ := List.prefix_of_prefix_length_le ⟨_, rfl⟩ ⟨_, heq.symm⟩ hle
    rw [List.append_assoc, List.append_cancel_left_eq] at heq
    obtain rfl := hlast between tail' heq htail' hends'
    rw [hcut, heq, List.append_nil, List.nil_append]

end TimedPatterns.Model
