import TimedPatterns.Proofs.Search.Found

/-!
# What a round excludes

The alphabet of a round has all the labels of the patterns that the round excludes: with a focus,
because a pattern has only labels in focus; and without one, because the alphabet is made of the
labels of the patterns. So the monitors of the round are exact.
-/

namespace TimedPatterns

variable {l : Limits} {i : Inquiry} {rounds : List Round} {p : Progress} {r : Round}
  {found : List Discovered} {observable : Option (List String)} {a : String}

/-! ### Focus -/

/-- What is in focus of a word; without a focus, all of it. -/
def inFocus (focus : Option (List String)) (w : List String) : List String :=
  match focus with
  | none => w
  | some focused => w.filter (· ∈ focused)

lemma actions_focus (focus : Option (List String)) (trace : Trace) :
    (trace.focus focus).toTimedWord.actions = inFocus focus trace.actions := by
  cases focus with
  | none => simp [Trace.focus, Trace.toTimedWord, TimedWord.actions, Trace.actions, inFocus]
  | some focused =>
    simp [Trace.focus, Trace.toTimedWord, TimedWord.actions, Trace.actions, inFocus,
      List.filter_map, Function.comp_def]

/-! ### Alphabets -/

lemma mem_eraseReps_loop {b : String} {as acc : List String} :
    a ∈ List.eraseRepsBy.loop (· == ·) b as acc ↔ a ∈ acc ∨ a = b ∨ a ∈ as := by
  induction as generalizing b acc with
  | nil => simp [List.eraseRepsBy.loop, or_comm]
  | cons c as ih =>
    rw [List.eraseRepsBy.loop]
    split
    · next hrep =>
      obtain rfl : b = c := by simpa using hrep
      simp [ih]
    · simp only [ih, List.mem_cons]
      tauto

lemma mem_eraseReps {as : List String} : a ∈ as.eraseReps ↔ a ∈ as := by
  cases as with
  | nil => rfl
  | cons b as => simp [List.eraseReps, List.eraseRepsBy, mem_eraseReps_loop]

/-- Without a focus, the alphabet has what can be observed and what has been found. -/
lemma mem_exclusionAlphabet_none :
    a ∈ exclusionAlphabet none observable found ↔
      a ∈ observable.getD [] ∨ ∃ d ∈ found, a ∈ d.pattern.actions := by
  simp [exclusionAlphabet, mem_eraseReps]

/-- The alphabet has the labels of all the patterns if these have only labels in focus. -/
lemma covers_excluding (p : Instrumentation) {focus : Option (List String)}
    (h : ∀ d ∈ found, ∃ w, d.pattern.actions = inFocus focus w) :
    (p.excluding (labelsOf found) (exclusionAlphabet focus observable found)).Covers := by
  intro pattern hpattern a ha
  obtain ⟨d, hd, rfl⟩ := mem_labelsOf.1 hpattern
  cases focus with
  | none => exact mem_exclusionAlphabet_none.2 (.inr ⟨d, hd, ha⟩)
  | some focused =>
    obtain ⟨w, hw⟩ := h d hd
    rw [hw, inFocus, List.mem_filter, decide_eq_true_eq] at ha
    exact ha.2

/-! ### Rounds -/

/-- The alphabet of a round has the labels of all the patterns that the round excludes. -/
lemma Asks.covers (hround : Asks l i p r) (h : Underway l i rounds p) :
    r.inquiry.plan.Covers := by
  rw [hround.plan_eq]
  refine covers_excluding i.plan fun d hd => ?_
  rw [h.found_eq] at hd
  obtain ⟨-, -, -, -, trace, -, hpattern⟩ := h.carried.shown hd
  exact ⟨trace.actions, by rw [hpattern, actions_focus]⟩

/-- In every round of an exhaustive search, whatever the verifier does, the patterns found before
it are excluded, their labels are in the alphabet, and the monitors are exact. -/
theorem Search.exact_history (s : Search) (i : Inquiry) (limit : Option Nat) (n : Nat) (w : World)
    (place : Nat) (r : Round) (h : (s.history i limit n w)[place]? = some r) :
    r.inquiry.plan.excluded =
        labelsOf (foundBefore ⟨limit, s.maxStale⟩ (s.history i limit n w) place) ∧
      r.inquiry.plan.Covers ∧ r.inquiry.plan.Exact := by
  obtain ⟨p, hunderway, hasks⟩ := (s.course_history i limit n w).carried.exists_asks h
  have hcovers := hasks.covers hunderway
  refine ⟨?_, hcovers, Instrumentation.exact_of_covers hcovers⟩
  rw [hasks.plan_eq, foundBefore, ← hunderway.found_eq]
  rfl

/-- The second round of the sample excludes the pattern of the first one. -/
theorem Search.exact_sample : ∃ r,
    (Sample.search.history (.ofRequest Sample.search.clock (Sample.request none)) none 2
        Sample.world)[1]? = some r ∧
      r.inquiry.plan.excluded = [["a"]] ∧ r.inquiry.plan.Covers ∧ r.inquiry.plan.Exact := by
  have hexcluded : ((Sample.search.history
      (.ofRequest Sample.search.clock (Sample.request none)) none 2
      Sample.world)[1]?).map (·.inquiry.plan.excluded) = some [["a"]] := by
    decide +kernel
  obtain ⟨r, hr, hexcluded⟩ := Option.map_eq_some_iff.1 hexcluded
  obtain ⟨-, hcovers, hexact⟩ := Search.exact_history Sample.search _ none 2 Sample.world 1 r hr
  exact ⟨r, hr, hexcluded, hcovers, hexact⟩

end TimedPatterns
