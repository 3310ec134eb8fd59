import TimedPatterns.Proofs.Instrumentation.Monitors
import TimedPatterns.Proofs.Template.Observer
import TimedPatterns.Proofs.TimedWord

/-!
# The observer of an instrumentation

An instrumentation with observations adds one observer, which is found by its name. It reads every
word of events in one way, and ends in `pass` if and only if the observations are made in the word.
-/

namespace TimedPatterns.Instrumentation

variable {p : Instrumentation} {word : TimedWord} {t : Template}

def observer? (p : Instrumentation) : Option Template :=
  p.templates.find? (·.name = Template.observerName)

/-- The template with the name of the observer is the one of the observations. -/
lemma eq_observer_of_name (h : p.observed = some word) (ht : t ∈ p.templates)
    (hname : t.name = Template.observerName) :
    t = .observer word p.observedAlphabet p.clock := by
  rcases mem_templates.1 ht with ⟨other, -, rfl⟩ | ⟨other, hother, rfl⟩ | ⟨k, pattern, -, rfl⟩
  · exact absurd hname (by decide : Template.inputName ≠ Template.observerName)
  · obtain rfl : word = other := Option.some.inj (h.symm.trans hother)
    rfl
  · exact absurd hname.symm (Template.observerName_ne_monitorName k)

lemma observer?_eq_some (h : p.observed = some word) :
    p.observer? = some (.observer word p.observedAlphabet p.clock) :=
  find?_name_eq_some (mem_templates.2 (.inr (.inl ⟨word, h, rfl⟩))) fun _ => eq_observer_of_name h

/-- The observer of an observation that is not empty. Of the edges that may be taken for an event
all lead to one location, so that every word of events is read in one way. The word ends in `pass`
if and only if there are positions at which the observed actions are matched, with nothing between
them that may not occur; without an alphabet, if and only if some of the events match the actions,
in order; and if nothing is bounded and all labels are in the alphabet, if and only if what counts
of the word begins with the actions. -/
theorem observer_recognises {Time : Type*} [LE Time] [IntCast Time] (p : Instrumentation)
    (input observed : TimedWord) (alphabet : Option (List String))
    (hobserved : observed.isEmpty = false) :
    ∃ t, (p.withSignals input observed alphabet).observer? = some t ∧ t.Decided p.clock Time ∧
      ∀ events : List (Event Time),
        (∃! q, t.Runs p.clock 0 events q) ∧
        (t.Recognises p.clock events ↔
          ∃ position, Located (alphabet.getD []) observed.steps events position) ∧
        (alphabet.getD [] = [] → (t.Recognises p.clock events ↔
          ∃ matching, matching.Sublist events ∧
            List.Forall₂ TimedAction.Matches observed.steps matching)) ∧
        (observed.isUntimed = true → (∀ a ∈ observed.actions, a ∈ alphabet.getD []) →
          (t.Recognises p.clock events ↔
            observed.actions <+: (events.map (·.label)).filter (· ∈ alphabet.getD []))) := by
  have hsignal : (p.withSignals input observed alphabet).observed = some observed := by
    simp [withSignals, signal?, hobserved]
  have hdecided := Template.decided_observer observed alphabet p.clock Time
  refine ⟨_, observer?_eq_some hsignal, hdecided, fun events => ?_⟩
  have hrecognises : (Template.observer observed alphabet p.clock).Recognises p.clock events ↔
      Observes (alphabet.getD []) observed.steps events := Template.recognises_observer_iff
  refine ⟨hdecided.existsUnique_runs 0 events, hrecognises.trans observes_iff_exists_located,
    ?_, ?_⟩
  · intro hnone
    rw [hnone] at hrecognises
    exact hrecognises.trans observes_nil_iff_exists_sublist
  · intro huntimed halphabet
    refine hrecognises.trans (observes_iff_initial (TimedWord.isUntimed_iff.1 huntimed) fun s hs => ?_)
    exact halphabet s.action (List.mem_map_of_mem hs)

/-- The observer of `a` between 2 and 5 and then of `b`, where `c` may not occur before them. It
passes over an `a` that is too early, and over an unknown label. -/
lemma observer_recognises_sample :
    (⟨[⟨"a", 2, 5⟩, ⟨"b", -1, -1⟩]⟩ : TimedWord).isEmpty = false ∧
      ∃ t, (withSignals { clock := "x" } ⟨[]⟩ ⟨[⟨"a", 2, 5⟩, ⟨"b", -1, -1⟩]⟩
          (some ["a", "b", "c"])).observer? = some t ∧
        t.Recognises "x" [(⟨"a", 1⟩ : Event ℤ), ⟨"d", 2⟩, ⟨"a", 3⟩, ⟨"b", 8⟩] ∧
        ¬ t.Recognises "x" [(⟨"a", 3⟩ : Event ℤ), ⟨"c", 4⟩, ⟨"b", 8⟩] := by
  refine ⟨rfl, ?_⟩
  obtain ⟨t, ht, -, hrecognises⟩ := @observer_recognises ℤ _ _ { clock := "x" } ⟨[]⟩
    ⟨[⟨"a", 2, 5⟩, ⟨"b", -1, -1⟩]⟩ (some ["a", "b", "c"]) rfl
  refine ⟨t, ht, (hrecognises _).2.1.2 (observes_iff_exists_located.1 ?_), fun h => ?_⟩
  · simp [Observes, TimedAction.Matches, TimedAction.Permits, TimedAction.Contains, bound?,
      unbounded]
  · have hobserves := observes_iff_exists_located.2 ((hrecognises _).2.1.1 h)
    simp [Observes, TimedAction.Matches, TimedAction.Permits, TimedAction.Contains, bound?,
      unbounded] at hobserves

end TimedPatterns.Instrumentation
