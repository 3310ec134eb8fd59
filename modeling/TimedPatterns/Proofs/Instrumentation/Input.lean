import TimedPatterns.Proofs.Instrumentation.Monitors
import TimedPatterns.Proofs.Template.Sending

/-!
# The input of an instrumentation

An instrumentation with an input adds one template that sends it, which is found by its name. Its
runs from `start` to `done` send the actions of the input, in order. The times at which they are
sent can be any that do not fall and lie in the intervals, so that the invariants rule out nothing
that the guards allow; and no run waits in a location for longer than the next action can be sent.
-/

namespace TimedPatterns.Instrumentation

variable {p : Instrumentation} {word : TimedWord} {t : Template}

def sender? (p : Instrumentation) : Option Template :=
  p.templates.find? (·.name = Template.inputName)

/-- The template with the name of the input is the one of the input. -/
lemma eq_input_of_name (h : p.input = some word) (ht : t ∈ p.templates)
    (hname : t.name = Template.inputName) : t = .input word p.clock := by
  rcases mem_templates.1 ht with ⟨other, hother, rfl⟩ | ⟨other, -, rfl⟩ | ⟨k, pattern, -, rfl⟩
  · obtain rfl : word = other := Option.some.inj (h.symm.trans hother)
    rfl
  · exact absurd hname (by decide : Template.observerName ≠ Template.inputName)
  · exact absurd hname.symm (Template.inputName_ne_monitorName k)

lemma sender?_eq_some (h : p.input = some word) : p.sender? = some (.input word p.clock) :=
  find?_name_eq_some (mem_templates.2 (.inl ⟨word, h, rfl⟩)) fun _ => eq_input_of_name h

section Times

variable {Time : Type*} [Preorder Time] [IntCast Time] {steps : List TimedAction}
  {events : List (Event Time)} {times : List Time}

/-- Events that match actions have their labels. -/
lemma labels_of_matches (h : List.Forall₂ TimedAction.Matches steps events) :
    events.map (·.label) = steps.map (·.action) := by
  induction h with
  | nil => rfl
  | cons hmatch _ ih => rw [List.map_cons, List.map_cons, hmatch.1, ih]

/-- Actions can be matched at times that lie in their intervals. -/
lemma exists_matches_iff :
    (∃ events, List.Forall₂ TimedAction.Matches steps events ∧ events.map (·.time) = times) ↔
      List.Forall₂ TimedAction.Contains steps times := by
  constructor
  · rintro ⟨events, hmatches, rfl⟩
    rw [List.forall₂_map_right_iff]
    exact hmatches.imp fun _ _ hmatch => hmatch.2
  · intro h
    induction h with
    | nil => exact ⟨[], .nil, rfl⟩
    | @cons s time steps times hcontains _ ih =>
      obtain ⟨events, hmatches, rfl⟩ := ih
      exact ⟨⟨s.action, time⟩ :: events, .cons ⟨rfl, hcontains⟩ hmatches, rfl⟩

end Times

/-- The template of an input that is not empty. Its only first location is `start`, and its runs
from there to `done` send the actions of the input in order. Times from zero on are those of such a
run if and only if they do not fall and each of them lies in the interval of its action. Without
the invariants there would be the same runs; and in no run, complete or not, the clock is beyond
the upper bound of the action that leaves the location of the process. -/
theorem input_admits {Time : Type*} [Preorder Time] [IntCast Time] [Zero Time]
    (p : Instrumentation) (input observed : TimedWord) (alphabet : Option (List String))
    (hinput : input.isEmpty = false) :
    ∃ t, (p.withSignals input observed alphabet).sender? = some t ∧
      (∀ q, t.nameAt? q = some "start" ↔ q = 0) ∧
      (∀ events : List (Event Time), t.Completes p.clock events →
        events.map (·.label) = input.actions) ∧
      (∀ times : List Time, (∀ time ∈ times, 0 ≤ time) →
        ((∃ events : List (Event Time), t.Completes p.clock events ∧
            events.map (·.time) = times) ↔
          times.Pairwise (· ≤ ·) ∧ List.Forall₂ TimedAction.Contains input.steps times)) ∧
      (∀ events : List (Event Time),
        t.unhurried.Completes p.clock events ↔ t.Completes p.clock events) ∧
      ∀ (events : List (Event Time)) m, t.IsRun p.clock events m →
        ∀ s, input.steps[m.position]? = some s → ∀ b ∈ bound? s.upper, m.time ≤ (b : Time) := by
  have hsignal : (p.withSignals input observed alphabet).input = some input := by
    simp [withSignals, signal?, hinput]
  have hlength : input.length ≠ 0 := by
    simpa [TimedWord.isEmpty, TimedWord.length] using hinput
  refine ⟨.input input p.clock, sender?_eq_some hsignal, fun q => ?_, fun events h => ?_,
    fun times htimes => ?_, fun events => ?_, fun events m h => ?_⟩
  · rw [Template.nameAt?_input_eq_some_iff, Template.apart_sent.chainName_eq_start_iff hlength,
      and_iff_right_iff_imp]
    exact fun hq => hq ▸ Nat.zero_le _
  · exact labels_of_matches (Template.completes_input_iff.1 h).1
  · -- the events are made from the times, label by label, and are sorted exactly if the times are
    simp only [Template.completes_input_iff, Template.Conveys, List.pairwise_cons,
      ← exists_matches_iff]
    constructor
    · rintro ⟨events, ⟨hmatches, -, hsorted⟩, rfl⟩
      exact ⟨hsorted, events, hmatches, rfl⟩
    · rintro ⟨hsorted, events, hmatches, rfl⟩
      exact ⟨events, ⟨hmatches, htimes, hsorted⟩, rfl⟩
  · rw [Template.completes_unhurried_input_iff, Template.completes_input_iff]
  · exact Template.invariant_input_iff.1 (h.performs.invariant h.invariant)

/-- The input of `a` until 5, of `b` between 2 and 3, and then of `c`. The upper bounds cross, so
that `a` has to be sent until 3 as well. -/
lemma input_admits_sample :
    (⟨[⟨"a", -1, 5⟩, ⟨"b", 2, 3⟩, ⟨"c", -1, -1⟩]⟩ : TimedWord).isEmpty = false ∧
      (∀ time ∈ [(5 / 2 : ℚ), 5 / 2, 7], 0 ≤ time) ∧ (∀ time ∈ [(4 : ℚ), 4, 7], 0 ≤ time) ∧
      ∃ t, (withSignals { clock := "x" } ⟨[⟨"a", -1, 5⟩, ⟨"b", 2, 3⟩, ⟨"c", -1, -1⟩]⟩ ⟨[]⟩
          none).sender? = some t ∧
        (∃ events : List (Event ℚ), t.Completes "x" events ∧
          events.map (·.time) = [5 / 2, 5 / 2, 7]) ∧
        ¬ ∃ events : List (Event ℚ), t.Completes "x" events ∧
          events.map (·.time) = [4, 4, 7] := by
  have hearly : ∀ time ∈ [(5 / 2 : ℚ), 5 / 2, 7], 0 ≤ time := by norm_num
  have hlate : ∀ time ∈ [(4 : ℚ), 4, 7], 0 ≤ time := by norm_num
  refine ⟨rfl, hearly, hlate, ?_⟩
  obtain ⟨t, ht, -, -, htimes, -⟩ := @input_admits ℚ _ _ _ { clock := "x" }
    ⟨[⟨"a", -1, 5⟩, ⟨"b", 2, 3⟩, ⟨"c", -1, -1⟩]⟩ ⟨[]⟩ none rfl
  refine ⟨t, ht, (htimes _ hearly).2 ⟨by norm_num, ?_⟩, fun h => ?_⟩
  · simp [TimedAction.Contains, bound?, unbounded]
    norm_num
  · have hcontains := ((htimes _ hlate).1 h).2
    norm_num [TimedAction.Contains, bound?, unbounded] at hcontains

end TimedPatterns.Instrumentation
