import TimedPatterns.Proofs.Text.Blank

/-!
# Occurrences

A text is cut at a sign exactly if the sign occurs in it, and then at its first occurrence. The text
before that occurrence changes only where something is put in, if what is put in is clear of the
sign: if no occurrence begins in it, whatever stands behind it.
-/

namespace TimedPatterns.Text

variable {s xs ys cs before after : List Char}

/-! ### The first occurrence -/

lemma dropPrefix?_eq_none_iff : dropPrefix? s cs = none ↔ ¬ s <+: cs := by
  rw [Option.eq_none_iff_forall_ne_some, ← not_exists_not]
  simp only [ne_eq, not_not, dropPrefix?_eq_some_iff, not_exists]
  exact ⟨fun h ⟨rest, hrest⟩ => h rest hrest.symm, fun h rest hrest => h ⟨rest, hrest.symm⟩⟩

lemma cutFirst?_eq_none_iff : cutFirst? s cs = none ↔ ¬ s <:+: cs := by
  induction cs with
  | nil => rw [cutFirst?, Option.map_eq_none_iff, dropPrefix?_eq_none_iff, List.prefix_nil,
      List.infix_nil]
  | cons c cs ih =>
    rw [cutFirst?, List.infix_cons_iff, not_or, ← dropPrefix?_eq_none_iff]
    cases dropPrefix? s (c :: cs) with
    | none => simp [ih]
    | some rest => simp

lemma exists_cutFirst? (h : s <:+: cs) :
    ∃ before after, cutFirst? s cs = some (before, after) := by
  obtain ⟨⟨before, after⟩, hcut⟩ := Option.ne_none_iff_exists'.1 fun hnone =>
    cutFirst?_eq_none_iff.1 hnone h
  exact ⟨before, after, hcut⟩

lemma cutFirst?_eq_some_iff (h : Unbordered s) (hs : s ≠ []) :
    cutFirst? s cs = some (before, after) ↔ cs = before ++ (s ++ after) ∧ ¬ s <:+: before := by
  constructor
  · intro hcut
    rw [← List.append_assoc]
    exact ⟨append_of_cutFirst? hcut, not_infix_of_cutFirst? hs hcut⟩
  · rintro ⟨rfl, hbefore⟩
    exact cutFirst?_append h hs hbefore after

/-- What stands before the first occurrence of a sign, or the whole text. -/
def beforeFirst (s cs : List Char) : List Char := ((cutFirst? s cs).map (·.1)).getD cs

lemma beforeFirst_eq_self (h : ¬ s <:+: cs) : beforeFirst s cs = cs := by
  rw [beforeFirst, cutFirst?_eq_none_iff.2 h]
  rfl

lemma beforeFirst_append (h : Unbordered s) (hs : s ≠ []) (hbefore : ¬ s <:+: before)
    (after : List Char) : beforeFirst s (before ++ (s ++ after)) = before := by
  rw [beforeFirst, cutFirst?_append h hs hbefore]
  rfl

lemma beforeFirst_isPrefix (s cs : List Char) : beforeFirst s cs <+: cs := by
  by_cases h : s <:+: cs
  · obtain ⟨before, after, hcut⟩ := exists_cutFirst? h
    rw [beforeFirst, hcut, append_of_cutFirst? hcut, List.append_assoc]
    exact List.prefix_append before _
  · rw [beforeFirst_eq_self h]

lemma not_infix_beforeFirst (hs : s ≠ []) (cs : List Char) : ¬ s <:+: beforeFirst s cs := by
  by_cases h : s <:+: cs
  · obtain ⟨before, after, hcut⟩ := exists_cutFirst? h
    rw [beforeFirst, hcut]
    exact not_infix_of_cutFirst? hs hcut
  · rwa [beforeFirst_eq_self h]

/-- Another occurrence behind a text does not change where the first one is. -/
lemma beforeFirst_append_sign (h : Unbordered s) (hs : s ≠ []) (cs after : List Char) :
    beforeFirst s (cs ++ (s ++ after)) = beforeFirst s cs := by
  by_cases hcs : s <:+: cs
  · obtain ⟨before, behind, hcut⟩ := exists_cutFirst? hcs
    obtain ⟨rfl, hbefore⟩ := (cutFirst?_eq_some_iff h hs).1 hcut
    rw [beforeFirst_append h hs hbefore, List.append_assoc, List.append_assoc,
      beforeFirst_append h hs hbefore]
  · rw [beforeFirst_append h hs hcs, beforeFirst_eq_self hcs]

/-- The first occurrence in a text is the first one in every text that begins with it. -/
lemma beforeFirst_of_isPrefix (h : Unbordered s) (hs : s ≠ []) (hinitial : xs <+: cs)
    (hxs : s <:+: xs) : beforeFirst s cs = beforeFirst s xs := by
  obtain ⟨before, after, hcut⟩ := exists_cutFirst? hxs
  obtain ⟨rfl, hbefore⟩ := (cutFirst?_eq_some_iff h hs).1 hcut
  obtain ⟨rest, rfl⟩ := hinitial
  rw [List.append_assoc, List.append_assoc, beforeFirst_append h hs hbefore,
    beforeFirst_append h hs hbefore]

/-! ### The first place of a character -/

section Span

variable {p : Char → Bool} {c : Char}

lemma takeWhile_append (hxs : ∀ x ∈ xs, p x = true) (hys : ∀ y ∈ ys.head?, p y = false) :
    (xs ++ ys).takeWhile p = xs := by
  rw [List.takeWhile_append_of_pos hxs]
  cases ys with
  | nil => simp
  | cons y ys => rw [List.takeWhile_cons_of_neg (by simp [hys y rfl]), List.append_nil]

lemma dropWhile_append (hxs : ∀ x ∈ xs, p x = true) (hys : ∀ y ∈ ys.head?, p y = false) :
    (xs ++ ys).dropWhile p = ys := by
  rw [List.dropWhile_append_of_pos hxs, dropWhile_eq_self hys]

lemma span_append (hxs : c ∉ xs) (hys : ys.head? = some c) :
    (xs ++ ys).span (· != c) = (xs, ys) := by
  have hne : ∀ x ∈ xs, (x != c) = true := fun x hx => bne_iff_ne.2 fun heq => hxs (heq ▸ hx)
  have hstop : ∀ y ∈ ys.head?, (y != c) = false := by
    rw [hys]
    simp
  rw [List.span_eq_takeWhile_dropWhile, takeWhile_append hne hstop, dropWhile_append hne hstop]

lemma append_of_span (h : cs.span (· != c) = (before, after)) :
    cs = before ++ after ∧ c ∉ before := by
  rw [List.span_eq_takeWhile_dropWhile] at h
  cases h
  refine ⟨List.takeWhile_append_dropWhile.symm, fun hmem => ?_⟩
  simpa using List.all_eq_true.1 List.all_takeWhile c hmem

/-- A text is cut before a character in one way only, if the character is not in the first part. -/
lemma eq_of_append_eq (hbefore : c ∉ before) (hxs : c ∉ xs) (hafter : after.head? = some c)
    (hys : ys.head? = some c) (h : before ++ after = xs ++ ys) : before = xs ∧ after = ys := by
  have hspan := span_append hbefore hafter
  rw [h, span_append hxs hys, Prod.mk.injEq] at hspan
  exact ⟨hspan.1.symm, hspan.2.symm⟩

end Span

/-! ### Texts in which no occurrence begins -/

/-- No occurrence of `s` begins in the text, whatever stands behind it. -/
def Clear (s xs : List Char) : Prop := ∀ t ∈ xs.tails, t ≠ [] → ¬ t <+: s ∧ ¬ s <+: t

instance : Decidable (Clear s xs) :=
  inferInstanceAs (Decidable (∀ t ∈ xs.tails, t ≠ [] → ¬ t <+: s ∧ ¬ s <+: t))

lemma clear_nil (s : List Char) : Clear s [] := by
  intro t ht hne
  rw [List.tails, List.mem_singleton] at ht
  exact absurd ht hne

lemma clear_cons {c : Char} :
    Clear s (c :: xs) ↔ (¬ c :: xs <+: s ∧ ¬ s <+: c :: xs) ∧ Clear s xs := by
  rw [Clear, List.tails, List.forall_mem_cons]
  exact and_congr_left fun _ => forall_prop_of_true (List.cons_ne_nil c xs)

/-- No occurrence begins where its first character does not stand. -/
lemma clear_of_not_mem {c : Char} (h : c ∉ xs) (s : List Char) : Clear (c :: s) xs := by
  intro t ht hne
  obtain ⟨d, t, rfl⟩ := List.exists_cons_of_ne_nil hne
  have hd : d ≠ c := fun hd =>
    h (hd ▸ ((List.mem_tails _ _).1 ht).subset List.mem_cons_self)
  exact ⟨fun hinitial => hd (List.cons_prefix_cons.1 hinitial).1,
    fun hinitial => hd (List.cons_prefix_cons.1 hinitial).1.symm⟩

/-- An occurrence does not go on behind a character that stands at its end only. -/
lemma clear_concat {c : Char} (hc : c ∉ s.dropLast) (h : ¬ s <:+: xs ++ [c]) :
    Clear s (xs ++ [c]) := by
  intro t ht hne
  have hsuffix := (List.mem_tails _ _).1 ht
  have hnot : ¬ s <+: t := fun hinitial => h (hinitial.isInfix.trans hsuffix.isInfix)
  refine ⟨fun hinitial => ?_, hnot⟩
  obtain ⟨rest, hrest⟩ := hinitial
  obtain ⟨v, hv⟩ := hsuffix
  -- the character is the last one of `t`, and more of the sign stands behind it
  obtain ⟨t, rfl⟩ : ∃ t', t = t' ++ [c] := by
    refine ⟨t.dropLast, ?_⟩
    have hlast := congrArg List.getLast? hv
    rw [List.getLast?_append_of_ne_nil _ hne, List.getLast?_concat] at hlast
    exact (List.dropLast_append_getLast? c hlast).symm
  rcases List.eq_nil_or_concat rest with rfl | ⟨rest, d, rfl⟩
  · exact hnot ⟨[], by rw [← hrest, List.append_nil, List.append_nil]⟩
  · refine hc ?_
    rw [← hrest, List.concat_eq_append, ← List.append_assoc, List.dropLast_concat]
    simp

lemma Clear.append (hxs : Clear s xs) (hys : Clear s ys) : Clear s (xs ++ ys) := by
  induction xs with
  | nil => exact hys
  | cons c xs ih =>
    obtain ⟨⟨hinitial, hsign⟩, hxs⟩ := clear_cons.1 hxs
    refine clear_cons.2 ⟨⟨fun h => hinitial ((List.prefix_append (c :: xs) ys).trans h),
      fun h => ?_⟩, ih hxs⟩
    rcases List.prefix_or_prefix_of_prefix h (List.prefix_append (c :: xs) ys) with h | h
    · exact hsign h
    · exact hinitial h

lemma Clear.flatMap {α : Type} {f : α → List Char} {l : List α} (h : ∀ a ∈ l, Clear s (f a)) :
    Clear s (l.flatMap f) := by
  induction l with
  | nil => exact clear_nil s
  | cons a l ih =>
    obtain ⟨ha, hl⟩ := List.forall_mem_cons.1 h
    exact ha.append (ih hl)

/-- An occurrence is found behind a text that is clear of it. -/
lemma Clear.cutFirst? (h : Clear s xs) (ys : List Char) :
    cutFirst? s (xs ++ ys) = (cutFirst? s ys).map fun (before, after) => (xs ++ before, after) := by
  induction xs with
  | nil => simp
  | cons c xs ih =>
    obtain ⟨⟨hinitial, hsign⟩, hxs⟩ := clear_cons.1 h
    have hnone : dropPrefix? s (c :: (xs ++ ys)) = none := by
      refine dropPrefix?_eq_none_iff.2 fun h => ?_
      rcases List.prefix_or_prefix_of_prefix h (List.prefix_append (c :: xs) ys) with h | h
      · exact hsign h
      · exact hinitial h
    rw [List.cons_append, Text.cutFirst?, hnone, ih hxs]
    simp only [Option.map_map]
    rfl

lemma Clear.infix_append_iff (h : Clear s xs) : s <:+: xs ++ ys ↔ s <:+: ys := by
  rw [← not_iff_not, ← cutFirst?_eq_none_iff, h.cutFirst?, Option.map_eq_none_iff,
    cutFirst?_eq_none_iff]

lemma Clear.not_isInfix (hs : s ≠ []) (h : Clear s xs) : ¬ s <:+: xs := by
  rw [← List.append_nil xs, h.infix_append_iff, List.infix_nil]
  exact hs

lemma Clear.beforeFirst_append (h : Clear s xs) (ys : List Char) :
    beforeFirst s (xs ++ ys) = xs ++ beforeFirst s ys := by
  rw [beforeFirst, beforeFirst, h.cutFirst?]
  cases Text.cutFirst? s ys <;> rfl

/-- An occurrence does not begin before a text that begins with the first character of the sign,
and end in it. -/
lemma not_infix_append (hxs : ¬ s <:+: xs) (hys : ¬ s <:+: ys)
    (hhead : ∀ c ∈ ys.head?, c ∉ s.tail) : ¬ s <:+: xs ++ ys := by
  rw [List.infix_append_iff, not_or, not_or]
  refine ⟨hxs, hys, ?_⟩
  rintro ⟨l, r, rfl, hl, hr⟩
  cases l with
  | nil => exact hys hr.isInfix
  | cons d l =>
    cases r with
    | nil => exact hxs (by simpa using hl.isInfix)
    | cons c r =>
      obtain ⟨v, rfl⟩ := hr
      exact hhead c rfl (by simp)

end TimedPatterns.Text
