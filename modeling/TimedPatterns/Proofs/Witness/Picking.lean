import TimedPatterns.Proofs.Witness.Blocks

/-!
# Picking by two relations

The results that a relation picks from a list are compared with those of a relation that asks for
more. The stronger one picks no more, and if it picks as many, then it picks the same. So what is
lost can be seen from the members alone (`Picks.iff_forall`).
-/

namespace TimedPatterns.Listing

variable {α β : Type} {R S : α → β → Prop} {as : List α} {bs cs : List β}

lemma Picks.congr (h : Picks R as bs) (heq : ∀ a ∈ as, ∀ b, R a b ↔ S a b) : Picks S as bs := by
  induction h with
  | nil => exact .nil
  | take hR _ ih =>
    obtain ⟨ha, has⟩ := List.forall_mem_cons.1 heq
    exact .take ((ha _).1 hR) (ih has)
  | skip hR _ ih =>
    obtain ⟨ha, has⟩ := List.forall_mem_cons.1 heq
    exact .skip (fun b hS => hR b ((ha b).2 hS)) (ih has)

/-- The members that a test lets through, each with its result. -/
lemma Picks.of_filter {p : α → Bool} (h : List.Forall₂ R (as.filter p) bs) :
    Picks (fun a b => R a b ∧ p a = true) as bs := by
  induction as generalizing bs with
  | nil =>
    cases h
    exact .nil
  | cons a as ih =>
    by_cases ha : p a = true
    · rw [List.filter_cons_of_pos ha, List.forall₂_cons_left_iff] at h
      obtain ⟨b, bs, hR, hrest, rfl⟩ := h
      exact .take ⟨hR, ha⟩ (ih hrest)
    · rw [List.filter_cons_of_neg ha] at h
      exact .skip (fun _ h => ha h.2) (ih h)

/-- What is found for each member, or that there is nothing to be found. -/
lemma Picks.of_forall₂ {found : List (Option β)}
    (h : List.Forall₂ (fun a o => o.elim (∀ b, ¬ R a b) (R a)) as found) :
    Picks R as (found.flatMap Option.toList) := by
  induction h with
  | nil => exact .nil
  | @cons a o as found ho _ ih =>
    cases o with
    | none => exact .skip ho ih
    | some b => exact .take ho ih

/-- A stronger relation picks no more. -/
lemma Picks.length_le (himp : ∀ a b, S a b → R a b) (h : Picks R as bs) (h' : Picks S as cs) :
    cs.length ≤ bs.length := by
  induction h generalizing cs with
  | nil =>
    cases h'
    exact le_rfl
  | take _ _ ih =>
    cases h' with
    | take _ rest => exact Nat.succ_le_succ (ih rest)
    | skip _ rest => exact (ih rest).trans (Nat.le_succ _)
  | skip hR _ ih =>
    cases h' with
    | take hS => exact absurd (himp _ _ hS) (hR _)
    | skip _ rest => exact ih rest

/-- If a stronger relation picks as many, it picks the same members. -/
lemma Picks.exists_of_length_eq (himp : ∀ a b, S a b → R a b) (h : Picks R as bs)
    (h' : Picks S as cs) (hlength : bs.length = cs.length) :
    ∀ a ∈ as, ∀ b, R a b → ∃ c, S a c := by
  induction h generalizing cs with
  | nil => exact nofun
  | take _ hrest ih =>
    cases h' with
    | take hS rest =>
      exact List.forall_mem_cons.2 ⟨fun _ _ => ⟨_, hS⟩, ih rest (Nat.succ.inj hlength)⟩
    | skip _ rest =>
      have hle := hrest.length_le himp rest
      rw [List.length_cons] at hlength
      omega
  | skip hR _ ih =>
    cases h' with
    | take hS => exact absurd (himp _ _ hS) (hR _)
    | skip _ rest => exact List.forall_mem_cons.2 ⟨fun b hb => absurd hb (hR b), ih rest hlength⟩

/-- If only members with a property are picked, all are picked exactly if all that have a result
have the property. -/
lemma Picks.iff_forall {p : α → Prop} (h : Picks (fun a b => R a b ∧ p a) as bs) :
    Picks R as bs ↔ ∀ a ∈ as, ∀ b, R a b → p a := by
  constructor
  · intro hall a ha b hR
    obtain ⟨c, -, hp⟩ := hall.exists_of_length_eq (fun _ _ h => h.1) h rfl a ha b hR
    exact hp
  · exact fun hall => h.congr fun a ha b => and_iff_left_of_imp (hall a ha b)

end TimedPatterns.Listing
