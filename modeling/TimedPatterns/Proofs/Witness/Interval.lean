import TimedPatterns.Proofs.Witness.Alike

/-!
# The interval of a clock

The constraints of a state between a clock and the clock at zero bound it from above or from below.
The interval that the state leaves to the clock contains exactly the values that satisfy all of
them and are not negative. It does not exist if and only if one of the lower bounds has no negation
among the signed numbers of 64 bits.

Each end of the interval is narrowed on its own, so what one constraint does is said for each end
(`Narrows.lower_le_iff`, `Narrows.reaches_iff`), and so is what all of them do.
-/

namespace TimedPatterns

open Text

/-! ### Ends of an interval -/

namespace ClockInterval

/-- The interval does not end before the value. -/
def Reaches (i : ClockInterval) (value : Int) : Prop := ∀ upper ∈ i.upper, value ≤ upper

/-- The value lies between the ends. -/
def Contains (i : ClockInterval) (value : Int) : Prop := i.lower ≤ value ∧ i.Reaches value

/-- Neither end lies outside the other interval. -/
def Within (i j : ClockInterval) : Prop :=
  j.lower ≤ i.lower ∧ ∀ upper ∈ j.upper, ∃ upper' ∈ i.upper, upper' ≤ upper

/-- An end above is known by the values that it is not before. -/
lemma exists_upper_le {i : ClockInterval} {upper : Int}
    (h : ∀ value, i.Reaches value → value ≤ upper) : ∃ upper' ∈ i.upper, upper' ≤ upper := by
  obtain ⟨lower, _ | upper'⟩ := i
  · have hnext : upper + 1 ≤ upper := h (upper + 1) nofun
    omega
  · exact ⟨upper', rfl, h upper' fun _ heq => (Option.some.inj heq).le⟩

end ClockInterval

variable {clock : String} {d : Difference} {ds : List Difference} {i j : ClockInterval}
  {s s' : SymbolicState} {value : Int}

/-! ### One constraint -/

namespace Difference

def IsUpper (clock : String) (d : Difference) : Prop := d.left = clock ∧ d.right = zeroClock

def IsLower (clock : String) (d : Difference) : Prop := d.left = zeroClock ∧ d.right = clock

/-- The value of the clock satisfies the constraint if that is between the clock and the one at
zero. A strict constraint is taken like one that is not. -/
def Admits (clock : String) (value : Int) (d : Difference) : Prop :=
  (d.IsUpper clock → value - 0 ≤ d.bound) ∧ (d.IsLower clock → 0 - value ≤ d.bound)

/-- The constraint is a lower bound of the clock that cannot be negated. -/
def OutOfRange (clock : String) (d : Difference) : Prop :=
  d.IsLower clock ∧ d.bound = minSigned

lemma not_isLower_of_isUpper (hclock : clock ≠ zeroClock) (h : d.IsUpper clock) :
    ¬ d.IsLower clock :=
  fun hlower => hclock (h.1.symm.trans hlower.1)

/-- An interval is narrowed unless the constraint is a lower bound that cannot be negated. -/
lemma exists_narrow_eq_ok_iff (hclock : clock ≠ zeroClock) (i : ClockInterval) :
    (∃ j, d.narrow clock i = .ok j) ↔ ¬ d.OutOfRange clock := by
  rw [narrow]
  split_ifs with hupper hlower hbound
  · exact iff_of_true ⟨_, rfl⟩ fun h => not_isLower_of_isUpper hclock hupper h.1
  · exact iff_of_false nofun (not_not_intro ⟨hlower, hbound⟩)
  · exact iff_of_true ⟨_, rfl⟩ fun h => hbound h.2
  · exact iff_of_true ⟨_, rfl⟩ fun h => hlower h.1

/-- What a constraint does to an interval that it narrows. -/
inductive Narrows (clock : String) (d : Difference) (i : ClockInterval) : ClockInterval → Prop
  | above (hupper : d.IsUpper clock) (hlower : ¬ d.IsLower clock) :
      Narrows clock d i { i with upper := some (i.upper.elim d.bound (min · d.bound)) }
  | below (hupper : ¬ d.IsUpper clock) (hlower : d.IsLower clock) :
      Narrows clock d i { i with lower := max i.lower (-d.bound) }
  | neither (hupper : ¬ d.IsUpper clock) (hlower : ¬ d.IsLower clock) : Narrows clock d i i

lemma Narrows.of_narrow (hclock : clock ≠ zeroClock) (h : d.narrow clock i = .ok j) :
    d.Narrows clock i j := by
  rw [narrow] at h
  split_ifs at h with hupper hlower hbound <;> cases h
  · exact .above hupper (not_isLower_of_isUpper hclock hupper)
  · exact .below hupper hlower
  · exact .neither hupper hlower

/-- What a constraint does to the lower end. -/
lemma Narrows.lower_le_iff (h : d.Narrows clock i j) :
    j.lower ≤ value ↔ i.lower ≤ value ∧ (d.IsLower clock → 0 - value ≤ d.bound) := by
  cases h with
  | above _ hlower | neither _ hlower => simp [hlower]
  | below _ hlower => rw [max_le_iff, forall_prop_of_true hlower, zero_sub, neg_le]

/-- What a constraint does to the upper end. -/
lemma Narrows.reaches_iff (h : d.Narrows clock i j) :
    j.Reaches value ↔ i.Reaches value ∧ (d.IsUpper clock → value - 0 ≤ d.bound) := by
  cases h with
  | above hupper => obtain ⟨lower, _ | upper⟩ := i <;> simp [ClockInterval.Reaches, hupper]
  | below hupper | neither hupper => simp [ClockInterval.Reaches, hupper]

end Difference

/-! ### All constraints -/

open Difference

lemma exists_foldlM_narrow_eq_ok_iff (hclock : clock ≠ zeroClock) (i : ClockInterval) :
    (∃ j, ds.foldlM (narrow clock) i = .ok j) ↔ ∀ d ∈ ds, ¬ d.OutOfRange clock := by
  induction ds generalizing i with
  | nil => exact iff_of_true ⟨i, rfl⟩ nofun
  | cons d ds ih =>
    rw [List.forall_mem_cons, ← exists_narrow_eq_ok_iff hclock i]
    simp only [List.foldlM_cons, bind_eq_ok_iff]
    constructor
    · rintro ⟨j, i', hnarrow, hrest⟩
      exact ⟨⟨i', hnarrow⟩, (ih i').1 ⟨j, hrest⟩⟩
    · rintro ⟨⟨i', hnarrow⟩, hrest⟩
      obtain ⟨j, hj⟩ := (ih i').2 hrest
      exact ⟨j, i', hnarrow, hj⟩

/-- If each constraint asks for something more of the interval, then all of them together do. -/
lemma iff_forall_of_foldlM {P : ClockInterval → Prop} {Q : Difference → Prop}
    (hstep : ∀ {d i j}, d.narrow clock i = .ok j → (P j ↔ P i ∧ Q d))
    (h : ds.foldlM (narrow clock) i = .ok j) : P j ↔ P i ∧ ∀ d ∈ ds, Q d := by
  induction ds generalizing i with
  | nil =>
    cases h
    simp
  | cons d ds ih =>
    rw [List.foldlM_cons, bind_eq_ok_iff] at h
    obtain ⟨i', hnarrow, hrest⟩ := h
    rw [ih hrest, hstep hnarrow, List.forall_mem_cons, and_assoc]

/-! ### States -/

namespace SymbolicState

lemma exists_interval_eq_ok_iff (hclock : clock ≠ zeroClock) :
    (∃ i, s.interval clock = .ok i) ↔ ∀ d ∈ s.differences, ¬ d.OutOfRange clock :=
  exists_foldlM_narrow_eq_ok_iff hclock _

/-- The lower end is not behind a value that is not negative and satisfies the lower bounds. -/
lemma interval_lower_le_iff (hclock : clock ≠ zeroClock) (h : s.interval clock = .ok i) :
    i.lower ≤ value ↔
      0 ≤ value ∧ ∀ d ∈ s.differences, d.IsLower clock → 0 - value ≤ d.bound :=
  iff_forall_of_foldlM (fun hd => (Narrows.of_narrow hclock hd).lower_le_iff) h

/-- The upper end is not before a value that satisfies the upper bounds. -/
lemma interval_reaches_iff (hclock : clock ≠ zeroClock) (h : s.interval clock = .ok i) :
    i.Reaches value ↔ ∀ d ∈ s.differences, d.IsUpper clock → value - 0 ≤ d.bound := by
  have hall : i.Reaches value ↔ ClockInterval.full.Reaches value ∧
      ∀ d ∈ s.differences, d.IsUpper clock → value - 0 ≤ d.bound :=
    iff_forall_of_foldlM (fun hd => (Narrows.of_narrow hclock hd).reaches_iff) h
  rw [hall, and_iff_right]
  exact nofun

lemma interval_contains_iff (hclock : clock ≠ zeroClock) (h : s.interval clock = .ok i) :
    i.Contains value ↔ 0 ≤ value ∧ ∀ d ∈ s.differences, d.Admits clock value := by
  rw [ClockInterval.Contains, interval_lower_le_iff hclock h, interval_reaches_iff hclock h]
  simp only [Admits, forall_and]
  tauto

/-- More constraints leave no more. -/
lemma exists_interval_of_subset (hclock : clock ≠ zeroClock)
    (hsubset : s.differences ⊆ s'.differences) (h : s'.interval clock = .ok j) :
    ∃ i, s.interval clock = .ok i ∧ j.Within i := by
  have hrange := (exists_interval_eq_ok_iff hclock).1 ⟨j, h⟩
  obtain ⟨i, hi⟩ := (exists_interval_eq_ok_iff hclock).2 fun d hd => hrange d (hsubset hd)
  refine ⟨i, hi, ?_, fun upper hupper => ClockInterval.exists_upper_le fun value hvalue => ?_⟩
  · obtain ⟨hzero, hlower⟩ := (interval_lower_le_iff hclock h).1 le_rfl
    exact (interval_lower_le_iff hclock hi).2 ⟨hzero, fun d hd => hlower d (hsubset hd)⟩
  · have hall := (interval_reaches_iff hclock h).1 hvalue
    exact (interval_reaches_iff hclock hi).2 (fun d hd => hall d (hsubset hd)) upper hupper

/-- The interval of a clock other than the one at zero exists unless a lower bound cannot be
negated. It contains the values that are not negative and satisfy the constraints between the two
clocks. The order of the constraints does not matter, and more constraints leave no more. -/
theorem interval_exact (hclock : clock ≠ zeroClock) (s : SymbolicState) :
    ((∃ flaw, s.interval clock = .error flaw) ↔ ∃ d ∈ s.differences,
      d.left = zeroClock ∧ d.right = clock ∧ d.bound = minSigned) ∧
    (∀ i, s.interval clock = .ok i → ∀ value,
      i.Contains value ↔ 0 ≤ value ∧ ∀ d ∈ s.differences, d.Admits clock value) ∧
    (∀ s' : SymbolicState, s.differences.Perm s'.differences →
      s'.interval clock = s.interval clock) ∧
    ∀ s' : SymbolicState, s.differences ⊆ s'.differences → ∀ j, s'.interval clock = .ok j →
      ∃ i, s.interval clock = .ok i ∧ j.Within i := by
  refine ⟨?_, fun i h value => interval_contains_iff hclock h,
    fun s' h => (interval_eq_of_perm h clock).symm,
    fun s' hsubset j h => exists_interval_of_subset hclock hsubset h⟩
  have hfails : (∃ flaw, s.interval clock = .error flaw) ↔ ¬ ∃ i, s.interval clock = .ok i := by
    cases s.interval clock <;> simp
  rw [hfails, exists_interval_eq_ok_iff hclock]
  simp only [OutOfRange, IsLower, not_forall, not_not, exists_prop, and_assoc]

/-- Of several bounds on each side the tightest ones remain, and a strict one is taken like the
others. One lower bound more that cannot be negated, and there is no interval. -/
theorem interval_exact_sample :
    let ds := [⟨zeroClock, "x", -2, false⟩, ⟨"x", zeroClock, 7, true⟩, ⟨"x", "y", 0, false⟩,
      ⟨zeroClock, "x", -3, true⟩, ⟨"x", zeroClock, 9, false⟩]
    "x" ≠ zeroClock ∧ (SymbolicState.mk ds).interval "x" = .ok ⟨3, some 7⟩ ∧
      (∀ value, (⟨3, some 7⟩ : ClockInterval).Contains value ↔
        0 ≤ value ∧ ∀ d ∈ ds, d.Admits "x" value) ∧
      ∃ flaw, (SymbolicState.mk (⟨zeroClock, "x", minSigned, false⟩ :: ds)).interval "x" =
        .error flaw := by
  intro ds
  have hclock : "x" ≠ zeroClock := by decide
  have hinterval : (SymbolicState.mk ds).interval "x" = .ok ⟨3, some 7⟩ := by decide
  exact ⟨hclock, hinterval, (interval_exact hclock ⟨ds⟩).2.1 _ hinterval,
    (interval_exact hclock _).1.2 ⟨_, List.mem_cons_self, rfl, rfl, rfl⟩⟩

end SymbolicState

end TimedPatterns
