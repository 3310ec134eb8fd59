import TimedPatterns.Proofs.Text.Numeral
import TimedPatterns.Template.Signal

/-!
# Guards

A guard is a conjunction of comparisons of a clock with integers. Its text is read here, so that it
can be said for which values of the clock a guard holds.

Whatever the clock is called, the guard of an action is read as a conjunction of its bounds.
-/

namespace TimedPatterns.Template

open Text
open TimedWord (Side)

/-- A bound on a clock, from below or from above. -/
structure Comparison where
  side : Side
  bound : Int
  deriving DecidableEq, Repr

def Comparison.Holds {Time : Type*} [LE Time] [IntCast Time] (value : Time) (c : Comparison) :
    Prop :=
  match c.side with
  | .lower => (c.bound : Time) ≤ value
  | .upper => value ≤ (c.bound : Time)

/-! ### Reading -/

/-- Read the sign of a comparison, and give what follows it. -/
def side? : List Char → Option (Side × List Char)
  | ' ' :: '>' :: '=' :: ' ' :: rest => some (.lower, rest)
  | ' ' :: '<' :: '=' :: ' ' :: rest => some (.upper, rest)
  | _ => none

/-- Whether a character belongs to an integer. -/
def isOfInteger (c : Char) : Bool := c == '-' || c.isDigit

/-- The integer with the given decimal form. -/
def integerOf : List Char → Int
  | '-' :: digits => -(Nat.ofDigitChars 10 digits 0 : Int)
  | digits => (Nat.ofDigitChars 10 digits 0 : Int)

/-- Read a comparison of a clock, and give what follows it. -/
def comparison? (clock cs : List Char) : Option (Comparison × List Char) := do
  let (side, rest) ← side? (← dropPrefix? clock cs)
  return (⟨side, integerOf (rest.takeWhile isOfInteger)⟩, rest.dropWhile isOfInteger)

lemma length_lt_of_side? {cs rest : List Char} {side : Side} (h : side? cs = some (side, rest)) :
    rest.length < cs.length := by
  unfold side? at h
  split at h
  · cases h
    simp only [List.length_cons]
    omega
  · cases h
    simp only [List.length_cons]
    omega
  · cases h

lemma length_lt_of_comparison? {clock cs rest : List Char} {c : Comparison}
    (h : comparison? clock cs = some (c, rest)) : rest.length < cs.length := by
  simp only [comparison?, Option.bind_eq_bind, Option.bind_eq_some_iff, Option.pure_def,
    Option.some.injEq, Prod.mk.injEq] at h
  obtain ⟨behind, hcut, ⟨side, rest'⟩, hside, -, rfl⟩ := h
  have hdrop := (List.dropWhile_suffix (l := rest') isOfInteger).length_le
  have hlt := length_lt_of_side? hside
  rw [dropPrefix?_eq_some_iff.1 hcut, List.length_append]
  dsimp only
  omega

/-- Read comparisons of a clock with `&&` between them. -/
def comparisons? (clock cs : List Char) : Option (List Comparison) :=
  match _h : comparison? clock cs with
  | none => none
  | some (c, []) => some [c]
  | some (c, ' ' :: '&' :: '&' :: ' ' :: rest) => (comparisons? clock rest).map (c :: ·)
  | some _ => none
termination_by cs.length
decreasing_by
  have hlt := length_lt_of_comparison? _h
  simp only [List.length_cons] at hlt
  omega

/-- A guard holds for a value of its clock, and so it does if there is none. -/
def GuardHolds {Time : Type*} [LE Time] [IntCast Time] (clock : String) (value : Time) :
    Option String → Prop
  | none => True
  | some text => ∃ comparisons, comparisons? clock.toList text.toList = some comparisons ∧
      ∀ c ∈ comparisons, c.Holds value

/-! ### Integers -/

variable {rest : List Char}

lemma integerOf_toString (k : Int) : integerOf (toString k).toList = k := by
  have hvalue : Nat.ofDigitChars 10 (Nat.toDigits 10 k.natAbs) 0 = k.natAbs :=
    Nat.ofDigitChars_ten_toDigits
  rcases toList_toString_int k with ⟨hk, hlist⟩ | ⟨hk, hlist⟩
  · obtain ⟨c, cs, hcons⟩ :=
      List.exists_cons_of_ne_nil (Nat.toDigits_ne_nil (n := k.natAbs) (b := 10))
    have hc : c.isDigit = true := isDigit_of_mem_toDigits (hcons ▸ List.mem_cons_self)
    have hne : c ≠ '-' := by
      rintro rfl
      cases hc
    rw [hlist, integerOf.eq_def]
    split
    · next heq =>
      rw [hcons] at heq
      exact absurd (List.cons.inj heq).1 hne
    · rw [hvalue]
      exact Int.natAbs_of_nonneg hk
  · rw [hlist, integerOf, hvalue]
    omega

lemma isOfInteger_of_mem_toString {k : Int} {c : Char} (h : c ∈ (toString k).toList) :
    isOfInteger c = true := by
  rcases mem_toString_int h with rfl | hdigit
  · rfl
  · simp [isOfInteger, hdigit]

/-- A text that does not go on with an integer. -/
def EndsInteger (rest : List Char) : Prop := ∀ c ∈ rest.head?, isOfInteger c = false

lemma takeWhile_toString_append (k : Int) (hrest : EndsInteger rest) :
    ((toString k).toList ++ rest).takeWhile isOfInteger = (toString k).toList := by
  rw [List.takeWhile_append_of_pos fun c hc => isOfInteger_of_mem_toString hc]
  cases rest with
  | nil => rw [List.takeWhile_nil, List.append_nil]
  | cons c rest => rw [List.takeWhile_cons_of_neg (by simp [hrest c rfl]), List.append_nil]

lemma dropWhile_toString_append (k : Int) (hrest : EndsInteger rest) :
    ((toString k).toList ++ rest).dropWhile isOfInteger = rest := by
  rw [List.dropWhile_append_of_pos fun c hc => isOfInteger_of_mem_toString hc,
    dropWhile_eq_self hrest]

/-! ### Comparisons -/

def signOf : Side → String
  | .lower => " >= "
  | .upper => " <= "

def Comparison.render (clock : String) (c : Comparison) : String :=
  clock ++ signOf c.side ++ toString c.bound

lemma side?_signOf_append (side : Side) (rest : List Char) :
    side? ((signOf side).toList ++ rest) = some (side, rest) := by
  cases side <;> rfl

lemma comparison?_render_append (clock : String) (c : Comparison) (hrest : EndsInteger rest) :
    comparison? clock.toList ((c.render clock).toList ++ rest) = some (c, rest) := by
  have hcut : dropPrefix? clock.toList ((c.render clock).toList ++ rest) =
      some ((signOf c.side).toList ++ ((toString c.bound).toList ++ rest)) :=
    dropPrefix?_eq_some_iff.2
      (by simp only [Comparison.render, String.toList_append, List.append_assoc])
  simp only [comparison?, hcut, Option.bind_eq_bind, Option.bind_some, side?_signOf_append,
    takeWhile_toString_append _ hrest, dropWhile_toString_append _ hrest, integerOf_toString,
    Option.pure_def]

/-- What is read behind a comparison. -/
lemma comparisons?_of_comparison? {clock cs : List Char} {c : Comparison}
    (h : comparison? clock cs = some (c, rest)) :
    comparisons? clock cs =
      match rest with
      | [] => some [c]
      | ' ' :: '&' :: '&' :: ' ' :: rest => (comparisons? clock rest).map (c :: ·)
      | _ => none := by
  rw [comparisons?]
  split
  · next heq =>
    rw [h] at heq
    cases heq
  · next heq =>
    rw [h] at heq
    cases heq
    rfl
  · next heq =>
    rw [h] at heq
    cases heq
    rfl
  · next hlast hmore heq =>
    rw [h] at heq
    cases heq
    split
    · exact absurd rfl (hlast c)
    · exact absurd rfl (hmore c _)
    · rfl

lemma comparisons?_render (clock : String) (c : Comparison) :
    comparisons? clock.toList (c.render clock).toList = some [c] := by
  have hread : comparison? clock.toList ((c.render clock).toList ++ []) = some (c, []) :=
    comparison?_render_append clock c (by simp [EndsInteger])
  rw [List.append_nil] at hread
  exact comparisons?_of_comparison? hread

lemma comparisons?_render_and (clock : String) (c d : Comparison) :
    comparisons? clock.toList (c.render clock ++ " && " ++ d.render clock).toList =
      some [c, d] := by
  have hends : EndsInteger (" && ".toList ++ (d.render clock).toList) := by
    simp [EndsInteger, isOfInteger]
  have hread := comparison?_render_append clock c hends
  rw [String.toList_append, String.toList_append, List.append_assoc,
    comparisons?_of_comparison? hread]
  show Option.map _ (comparisons? clock.toList (d.render clock).toList) = _
  rw [comparisons?_render]
  rfl

/-! ### Guards of actions -/

/-- The guard of an action holds for the values between its bounds. -/
lemma guardHolds_guard?_iff {Time : Type*} [LE Time] [IntCast Time] {clock : String} {value : Time}
    {lower upper : Option Int} :
    GuardHolds clock value (guard? clock lower upper) ↔
      (∀ b ∈ lower, (b : Time) ≤ value) ∧ ∀ b ∈ upper, value ≤ (b : Time) := by
  -- a guard is read back from its text, with one bound or with both
  have hone (c : Comparison) : GuardHolds clock value (some (c.render clock)) ↔ c.Holds value := by
    simp [GuardHolds, comparisons?_render]
  have hboth (c d : Comparison) :
      GuardHolds clock value (some (c.render clock ++ " && " ++ d.render clock)) ↔
        c.Holds value ∧ d.Holds value := by
    simp only [GuardHolds, comparisons?_render_and, Option.some.injEq, exists_eq_left',
      List.forall_mem_cons, List.not_mem_nil, false_imp_iff, implies_true, and_true]
  cases lower with
  | none =>
    cases upper with
    | none => simp [guard?, GuardHolds]
    | some upper => exact (hone ⟨.upper, upper⟩).trans (by simp [Comparison.Holds])
  | some lower =>
    cases upper with
    | none => exact (hone ⟨.lower, lower⟩).trans (by simp [Comparison.Holds])
    | some upper =>
      have htext : guard? clock (some lower) (some upper) =
          some (Comparison.render clock ⟨.lower, lower⟩ ++ " && "
            ++ Comparison.render clock ⟨.upper, upper⟩) := by
        simp only [guard?, Comparison.render, signOf, String.append_assoc]
        rfl
      rw [htext, hboth]
      simp [Comparison.Holds]

end TimedPatterns.Template
