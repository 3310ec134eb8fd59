import Mathlib.Tactic
import TimedPatterns.Text.Entity

/-!
# Replacing several names at once

A table gives the names that are replaced and the character that stands in place of each. One pass
over a text from the left replaces every name that it meets and keeps every other character.

Replacing one name after the other in all of a text is one pass for all of them
(`rewrites_replaceEach`), if the names begin with a mark that is nowhere else in them, and no
character that is put in is in a name that is still to be replaced. Then no name begins inside
another one, and what has been put in completes none.
-/

namespace TimedPatterns.Text

variable {table : List (List Char × Char)} {needle new cs ds es xs : List Char} {sign : Char}

/-! ### One pass for one name -/

/-- The rest of an occurrence is passed over. -/
lemma replaceFrom_eq_drop (skip : Nat) (cs : List Char) :
    replaceFrom needle new skip cs = replaceFrom needle new 0 (cs.drop skip) := by
  induction skip generalizing cs with
  | zero => rfl
  | succ skip ih =>
    cases cs with
    | nil => rfl
    | cons c cs =>
      rw [replaceFrom, List.drop_succ_cons]
      exact ih cs

/-- An occurrence that comes first is replaced. -/
lemma replaceAll_append (hneedle : needle ≠ []) (rest : List Char) :
    replaceAll needle new (needle ++ rest) = new ++ replaceAll needle new rest := by
  obtain ⟨x, xs, rfl⟩ := List.exists_cons_of_ne_nil hneedle
  have hprefix : (x :: xs).isPrefixOf (x :: (xs ++ rest)) = true :=
    List.isPrefixOf_iff_prefix.2 (List.prefix_append (x :: xs) rest)
  rw [replaceAll, List.cons_append, replaceFrom, if_pos hprefix, List.length_cons,
    Nat.add_sub_cancel, replaceFrom_eq_drop, List.drop_left, replaceAll]

/-- A character at which no occurrence begins is kept. -/
lemma replaceAll_cons {c : Char} (h : ¬ needle <+: c :: cs) :
    replaceAll needle new (c :: cs) = c :: replaceAll needle new cs := by
  rw [replaceAll, replaceFrom, if_neg (by rwa [List.isPrefixOf_iff_prefix]), replaceAll]

/-- A single character is replaced wherever it is. -/
lemma replaceAll_singleton (x : Char) (new cs : List Char) :
    replaceAll [x] new cs = cs.flatMap fun c => if c = x then new else [c] := by
  induction cs with
  | nil => rfl
  | cons c cs ih =>
    rw [List.flatMap_cons, ← ih]
    by_cases hc : c = x
    · subst hc
      rw [if_pos rfl]
      exact replaceAll_append (List.cons_ne_nil c []) cs
    · rw [if_neg hc]
      apply replaceAll_cons
      rw [List.cons_prefix_cons]
      exact fun h => hc h.1.symm

/-! ### One pass for all names -/

/-- One pass over a text from the left, for the names of a table. -/
inductive Rewrites (table : List (List Char × Char)) : List Char → List Char → Prop
  | nil : Rewrites table [] []
  | name {name cs behind ds : List Char} {sign : Char} (hname : (name, sign) ∈ table)
      (hcs : cs = name ++ behind) (rest : Rewrites table behind ds) : Rewrites table cs (sign :: ds)
  | keep {c : Char} {cs ds : List Char} (hnone : ∀ entry ∈ table, ¬ entry.1 <+: c :: cs)
      (rest : Rewrites table cs ds) : Rewrites table (c :: cs) (c :: ds)

/-- Replacing a name is a pass for it alone. -/
lemma rewrites_replaceAll (hneedle : needle ≠ []) (cs : List Char) :
    Rewrites [(needle, sign)] cs (replaceAll needle [sign] cs) := by
  induction hlength : cs.length using Nat.strong_induction_on generalizing cs with
  | _ n ih =>
    subst hlength
    by_cases hprefix : needle <+: cs
    · obtain ⟨rest, rfl⟩ := hprefix
      have hpos : 0 < needle.length := List.length_pos_iff.2 hneedle
      rw [replaceAll_append hneedle]
      exact .name (List.mem_singleton_self _) rfl (ih _ (by simp; omega) rest rfl)
    · cases cs with
      | nil => exact .nil
      | cons c cs =>
        rw [replaceAll_cons hprefix]
        exact .keep (List.forall_mem_singleton.2 hprefix) (ih _ (by simp) cs rfl)

/-! ### Passes that follow each other -/

/-- The names begin with the mark, which is nowhere else in them. -/
def Marked (mark : Char) (table : List (List Char × Char)) : Prop :=
  ∀ entry ∈ table, ∃ body, entry.1 = mark :: body ∧ mark ∉ body

variable {mark : Char}

/-- What has no mark is kept. -/
lemma Rewrites.of_append_left (hmarked : Marked mark table) (hxs : mark ∉ xs)
    (h : Rewrites table (xs ++ cs) ds) : ∃ ds', ds = xs ++ ds' ∧ Rewrites table cs ds' := by
  induction xs generalizing ds with
  | nil => exact ⟨ds, rfl, h⟩
  | cons x xs ih =>
    rw [List.mem_cons, not_or] at hxs
    rw [List.cons_append] at h
    cases h with
    | name hname hcs rest =>
      obtain ⟨body, hbody, -⟩ := hmarked _ hname
      dsimp only at hbody
      rw [hbody, List.cons_append] at hcs
      exact absurd (List.cons.inj hcs).1.symm hxs.1
    | keep hnone rest =>
      obtain ⟨ds', rfl, hrest⟩ := ih hxs.2 rest
      exact ⟨ds', rfl, hrest⟩

/-- What has no sign has been kept. -/
lemma Rewrites.of_append_right (hxs : sign ∉ xs) (h : Rewrites [(needle, sign)] cs (xs ++ ds)) :
    ∃ cs', cs = xs ++ cs' ∧ Rewrites [(needle, sign)] cs' ds := by
  induction xs generalizing cs with
  | nil => exact ⟨cs, rfl, h⟩
  | cons x xs ih =>
    rw [List.mem_cons, not_or] at hxs
    rw [List.cons_append] at h
    cases h with
    | name hname hcs rest =>
      rw [List.mem_singleton, Prod.mk.injEq] at hname
      exact absurd hname.2.symm hxs.1
    | keep hnone rest =>
      obtain ⟨cs', rfl, hrest⟩ := ih hxs.2 rest
      exact ⟨cs', rfl, hrest⟩

/-- A pass for one name and a pass for the names of a table are one pass for all of them. -/
theorem Rewrites.comp (hmarked : Marked mark ((needle, sign) :: table))
    (hsign : ∀ entry ∈ table, sign ∉ entry.1) (h : Rewrites [(needle, sign)] cs ds)
    (h' : Rewrites table ds es) : Rewrites ((needle, sign) :: table) cs es := by
  obtain ⟨hneedle, htable⟩ := List.forall_mem_cons.1 hmarked
  have hown : Marked mark [(needle, sign)] := List.forall_mem_singleton.2 hneedle
  induction hlength : cs.length using Nat.strong_induction_on generalizing cs ds es with
  | _ n ih =>
    subst hlength
    cases h with
    | nil =>
      cases h' with
      | nil => exact .nil
      | name hname hcs rest =>
        obtain ⟨body, hbody, -⟩ := htable _ hname
        dsimp only at hbody
        rw [hbody] at hcs
        cases hcs
    | name hname hcs rest =>
      rw [List.mem_singleton, Prod.mk.injEq] at hname
      obtain ⟨rfl, rfl⟩ := hname
      cases h' with
      | name hname' hcs' rest' =>
        -- the sign that has been put in begins no name
        obtain ⟨body, hbody, -⟩ := htable _ hname'
        dsimp only at hbody
        rw [hbody, List.cons_append] at hcs'
        refine absurd ?_ (hsign _ hname')
        rw [hbody, (List.cons.inj hcs').1]
        exact List.mem_cons_self
      | keep hnone rest' =>
        obtain ⟨body, hbody, -⟩ := hneedle
        dsimp only at hbody
        exact .name List.mem_cons_self hcs (ih _ (by simp [hcs, hbody]) rest rest' rfl)
    | keep hnone rest =>
      cases h' with
      | name hname' hcs' rest' =>
        -- the name has not been put together by the first pass
        obtain ⟨body, hbody, -⟩ := htable _ hname'
        dsimp only at hbody
        have hall := Rewrites.keep hnone rest
        rw [hcs'] at hall
        obtain ⟨behind, hbehind, hrest⟩ := hall.of_append_right (hsign _ hname')
        refine .name (List.mem_cons_of_mem _ hname') hbehind (ih _ ?_ hrest rest' rfl)
        rw [hbehind, hbody]
        simp
      | keep hnone' rest' =>
        refine .keep (List.forall_mem_cons.2 ⟨hnone _ (List.mem_singleton_self _), ?_⟩)
          (ih _ (by simp) rest rest' rfl)
        rintro entry hentry ⟨behind, hbehind⟩
        -- the name has not been taken apart by the first pass
        obtain ⟨body, hbody, hfree⟩ := htable _ hentry
        rw [hbody, List.cons_append] at hbehind
        obtain ⟨rfl, rfl⟩ := List.cons.inj hbehind
        obtain ⟨kept, rfl, -⟩ := rest.of_append_left hown hfree
        apply hnone' entry hentry
        rw [hbody]
        exact List.prefix_append (mark :: body) kept

/-- Replace one name of a table after the other. -/
def replaceEach (table : List (List Char × Char)) (cs : List Char) : List Char :=
  table.foldl (fun cs entry => replaceAll entry.1 [entry.2] cs) cs

lemma rewrites_self (cs : List Char) : Rewrites [] cs cs := by
  induction cs with
  | nil => exact .nil
  | cons c cs ih => exact .keep nofun ih

/-- Replacing one name after the other is one pass for all of them, if no character that is put in
is in a name that is still to be replaced. -/
theorem rewrites_replaceEach (hmarked : Marked mark table)
    (hsigns : table.Pairwise fun entry later => entry.2 ∉ later.1) (cs : List Char) :
    Rewrites table cs (replaceEach table cs) := by
  induction table generalizing cs with
  | nil => exact rewrites_self cs
  | cons entry table ih =>
    obtain ⟨hentry, htable⟩ := List.pairwise_cons.1 hsigns
    obtain ⟨⟨body, hbody, -⟩, hrest⟩ := List.forall_mem_cons.1 hmarked
    have hne : entry.1 ≠ [] := by
      rw [hbody]
      exact List.cons_ne_nil mark body
    exact (rewrites_replaceAll hne cs).comp hmarked hentry (ih hrest htable _)

end TimedPatterns.Text
