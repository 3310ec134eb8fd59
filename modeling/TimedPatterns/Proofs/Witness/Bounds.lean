import TimedPatterns.Proofs.Witness.Action
import TimedPatterns.Proofs.Witness.Interval
import TimedPatterns.Witness.Extraction

/-!
# The bounds of a pattern

A pattern has the bounds of the transitions that it was made of. The value that stands for no bound
is negative, and lower bounds never are, since a clock is at zero first and each constraint only
raises what it is at least. An upper bound may be negative, though: a witness may constrain a clock
to be below zero. Then the interval is empty, and if the bound is the value that stands for none, it
reads as none.
-/

namespace TimedPatterns

variable {clock : String} {d : Difference} {ds : List Difference} {i j : ClockInterval}
  {w : Witness} {s : Transition} {t : Trace}

/-! ### Lower bounds -/

namespace Difference

/-- A constraint does not lower the lower end. -/
lemma lower_le_of_narrow (h : d.narrow clock i = .ok j) : i.lower ≤ j.lower := by
  rw [narrow] at h
  split_ifs at h <;> cases h
  · exact le_rfl
  · exact le_max_left _ _
  · exact le_rfl

lemma lower_le_of_foldlM (h : ds.foldlM (narrow clock) i = .ok j) : i.lower ≤ j.lower := by
  induction ds generalizing i with
  | nil =>
    cases h
    exact le_rfl
  | cons d ds ih =>
    rw [List.foldlM_cons, bind_eq_ok_iff] at h
    obtain ⟨i', hnarrow, hrest⟩ := h
    exact (lower_le_of_narrow hnarrow).trans (ih hrest)

end Difference

lemma SymbolicState.interval_lower_nonneg {state : SymbolicState}
    (h : state.interval clock = .ok i) : 0 ≤ i.lower :=
  Difference.lower_le_of_foldlM h

namespace Witness

/-- The interval of a transition is that of a state. -/
lemma exists_interval_of_trace (h : w.trace clock = .ok t) (hs : s ∈ t.transitions) :
    ∃ state ∈ w.states, state.interval clock = .ok s.interval := by
  obtain ⟨found, hfound, hts⟩ := transitions_eq_ok_iff.1 (transitions_of_trace h)
  rw [hts, List.mem_flatMap] at hs
  obtain ⟨o, ho, hs⟩ := hs
  obtain rfl := Option.mem_toList.1 hs
  obtain ⟨m, -, hm⟩ := exists_of_forall₂_left hfound.flip ho
  rcases transition?_eq_ok hm with ⟨-, ⟨⟩⟩ | ⟨_, -, -, hinterval, ⟨⟩⟩
  exact hinterval

end Witness

/-! ### Upper bounds -/

lemma bound?_getD (upper : Option Int) :
    bound? (upper.getD unbounded) = upper.filter (· ≠ unbounded) := by
  cases upper with
  | none => exact bound?_unbounded
  | some b => by_cases h : b = unbounded <;> simp [bound?, Option.filter, h]

/-- A bound that is kept in general is lost only where it is the value for none. -/
lemma filter_unbounded_eq_self_iff {upper : Option Int} :
    upper.filter (· ≠ unbounded) = upper ↔ upper ≠ some unbounded := by
  cases upper <;> simp

namespace Trace

def InFocus (focused : Option (List String)) (s : Transition) : Prop :=
  ∀ labels ∈ focused, s.action ∈ labels

instance (focused : Option (List String)) (s : Transition) : Decidable (InFocus focused s) :=
  match focused with
  | none => isTrue nofun
  | some labels => decidable_of_iff (s.action ∈ labels) (by simp [InFocus])

lemma transitions_focus (t : Trace) (focused : Option (List String)) :
    (t.focus focused).transitions = t.transitions.filter (InFocus focused) := by
  cases focused with
  | none => simp [focus, InFocus]
  | some labels => simp [focus, InFocus]

/-- The bounds of the word of a trace, if the lower ones are not negative. -/
lemma bounded_toTimedWord (h : ∀ s ∈ t.transitions, 0 ≤ s.interval.lower) :
    t.toTimedWord.bounded = t.transitions.map fun s =>
      (s.action, some s.interval.lower, s.interval.upper.filter (· ≠ unbounded)) := by
  rw [TimedWord.bounded, toTimedWord, List.map_map]
  refine List.map_congr_left fun s hs => ?_
  have hlower : s.interval.lower ≠ unbounded := fun heq => by
    have hnonneg := h s hs
    rw [heq] at hnonneg
    exact absurd hnonneg (by decide)
  simp only [Function.comp_apply, bound?_of_ne hlower, bound?_getD]

end Trace

/-! ### Patterns of witnesses -/

namespace Extraction

variable {format : WitnessFormat} {path text : String}

lemma exists_witness (h : traceOfText format clock path text = .ok t) :
    ∃ w, Witness.read format text = .ok w ∧ w.trace clock = .ok t := by
  rw [traceOfText] at h
  cases hw : Witness.read format text with
  | error flaw =>
    rw [hw] at h
    cases h
  | ok w =>
    rw [hw] at h
    cases ht : w.trace clock with
    | error flaw =>
      rw [Except.bind, ht] at h
      cases h
    | ok t' =>
      rw [Except.bind, ht] at h
      cases h
      exact ⟨w, rfl, ht⟩

/-- The pattern of the transitions in focus has their labels and their bounds. An upper bound is
missing only where it is the value that stands for none, and there the interval is empty. -/
theorem traceOfText_bounded (h : traceOfText format clock path text = .ok t)
    (focused : Option (List String)) :
    let kept := t.transitions.filter (Trace.InFocus focused)
    (t.focus focused).toTimedWord.bounded = kept.map (fun s =>
      (s.action, some s.interval.lower, s.interval.upper.filter (· ≠ unbounded))) ∧
    ((t.focus focused).toTimedWord.bounded = kept.map (fun s =>
      (s.action, some s.interval.lower, s.interval.upper)) ↔
        ∀ s ∈ kept, s.interval.upper ≠ some unbounded) ∧
    ∀ s ∈ kept, s.interval.upper = some unbounded → ∀ value, ¬ s.interval.Contains value := by
  intro kept
  obtain ⟨w, -, htrace⟩ := exists_witness h
  -- lower bounds are not negative, so an unbounded lower bound is never meant
  have hnonneg : ∀ s ∈ kept, 0 ≤ s.interval.lower := fun s hs => by
    obtain ⟨state, -, hstate⟩ := Witness.exists_interval_of_trace htrace (List.mem_of_mem_filter hs)
    exact state.interval_lower_nonneg hstate
  have hkept : (t.focus focused).transitions = kept := t.transitions_focus focused
  have hbounded := Trace.bounded_toTimedWord (t := t.focus focused) (hkept.symm ▸ hnonneg)
  rw [hkept] at hbounded
  refine ⟨hbounded, ?_, fun s hs hupper value hvalue => ?_⟩
  · rw [hbounded, List.map_inj_left]
    refine forall₂_congr fun s _ => ?_
    rw [Prod.mk.injEq, Prod.mk.injEq, and_iff_right rfl, and_iff_right rfl,
      filter_unbounded_eq_self_iff]
  · have hlower := (hnonneg s hs).trans hvalue.1
    exact absurd (hlower.trans (hvalue.2 unbounded hupper)) (by decide)

namespace Sample

/-- A step within a bound, one without, and one that a state allows at no time. -/
def steps : String :=
  "State:\nTransitions:\nP.a->P.b\x7bgo!\x7d\nState:\nt(0)-x<=-1 x-t(0)<=4\n" ++
    "Transitions:\nP.b->P.a\x7bstay!\x7d\nState:\nt(0)-x<=-2\n" ++
    "Transitions:\nP.a->P.b\x7bgo!\x7d\nState:\nt(0)-x<=-2 x-t(0)<=-1\n"

def trace : Trace where
  clock := "x"
  transitions := [⟨"go", [⟨"P", "a", "b"⟩], ⟨1, some 4⟩⟩, ⟨"stay", [⟨"P", "b", "a"⟩], ⟨2, none⟩⟩,
    ⟨"go", [⟨"P", "a", "b"⟩], ⟨2, some (-1)⟩⟩]
  ordered := by decide

lemma read_steps : Listing.read steps = .ok ⟨
    [⟨[]⟩, ⟨[⟨"t(0)", "x", -1, false⟩, ⟨"x", "t(0)", 4, false⟩]⟩, ⟨[⟨"t(0)", "x", -2, false⟩]⟩,
      ⟨[⟨"t(0)", "x", -2, false⟩, ⟨"x", "t(0)", -1, false⟩]⟩],
    [⟨[⟨"P", "a", "b", some "go!"⟩], 1⟩, ⟨[⟨"P", "b", "a", some "stay!"⟩], 2⟩,
      ⟨[⟨"P", "a", "b", some "go!"⟩], 3⟩]⟩ := by
  decide +kernel

lemma traceOfText_steps : traceOfText .xtr "x" "run" steps = .ok trace := by
  rw [traceOfText, Witness.read, read_steps]
  rfl

end Sample

/-- Of three steps, the first keeps its bounds and the last one loses the upper bound. -/
theorem traceOfText_bounded_sample :
    traceOfText .xtr "x" "run" Sample.steps = .ok Sample.trace ∧
      (Sample.trace.focus (some ["go"])).toTimedWord.bounded =
        [("go", some 1, some 4), ("go", some 2, none)] :=
  ⟨Sample.traceOfText_steps, (traceOfText_bounded Sample.traceOfText_steps (some ["go"])).1⟩

/-- An upper bound may read as none. -/
theorem not_traceOfText_bounded : ¬ ∀ (format : WitnessFormat) (clock path text : String)
    (t : Trace) (focused : Option (List String)),
    traceOfText format clock path text = .ok t →
      (t.focus focused).toTimedWord.bounded =
        (t.transitions.filter (Trace.InFocus focused)).map fun s =>
          (s.action, some s.interval.lower, s.interval.upper) := by
  intro h
  have hbounded := h .xtr "x" "run" Sample.steps Sample.trace none Sample.traceOfText_steps
  exact absurd hbounded (by decide)

end Extraction

end TimedPatterns
