import TimedPatterns.Proofs.Search.Ending

/-!
# Whether what was found is kept

Once a pattern has been found, runs that fail do not take it away: whatever the verifier does, the
search ends with it, or goes on. Only a round that does not come to its runs ends a search with an
error and without its patterns. Then the model is not instrumented, or a file is not written.

This can happen in a later round only. A query is first asked about the model as it is, and only
the second round adds monitors to the model.
-/

namespace TimedPatterns

variable {l : Limits} {i : Inquiry} {rounds : List Round} {p : Progress} {r : Round}
  {d : Discovered}

/-- A search that is under way has carried out no more rounds than its patterns account for. -/
lemma Underway.length_le (h : Underway l i rounds p) :
    rounds.length ≤ p.found.length * max 1 l.maxStale := by
  rcases eq_or_ne rounds [] with rfl | hne
  · exact Nat.zero_le _
  · have hlength := h.steady.length_le hne
    have hlt := h.steady.stale_lt
    omega

/-- A search with enough rounds for its patterns ends. -/
lemma Course.exists_ended {n : Nat} {answer : Option Answer} (h : Course l i n rounds answer)
    (hn : (patternsOf l rounds).length * max 1 l.maxStale < n) :
    ∃ a, answer = some a ∧ Ended l i rounds a := by
  cases answer with
  | some a => exact ⟨a, rfl, h⟩
  | none =>
    obtain ⟨hlength, p, h, -⟩ := h
    have hle := h.length_le
    rw [h.found_eq, hlength] at hle
    exact absurd hn (Nat.not_lt_of_le hle)

lemma Underway.exists_readings (h : Underway l i rounds p) :
    ∀ r ∈ rounds, ∃ readings, r.answer = .ok readings := by
  induction h with
  | start _ => simp
  | again _ _ hanswer _ ih =>
    exact List.forall_mem_append.2 ⟨ih, List.forall_mem_singleton.2 ⟨_, hanswer⟩⟩

/-- A search that has found something ends with all that it has found, or behind the one round that
has not come to its runs. -/
lemma Ended.keeps {answer : Answer} (h : Ended l i rounds answer) (hd : d ∈ patternsOf l rounds) :
    (answer = .ok (patternsOf l rounds) ∧ ∀ r ∈ rounds, ∃ readings, r.answer = .ok readings) ∨
      ∃ before r error, rounds = before ++ [r] ∧
        (∀ r ∈ before, ∃ readings, r.answer = .ok readings) ∧ r.answer = .error error ∧
        answer = .error error := by
  cases h with
  | unsupported _ => cases hd
  | enough h _ => exact .inl ⟨by rw [h.found_eq], h.exists_readings⟩
  | @refused rounds p r error h hround hanswer =>
    exact .inr ⟨rounds, r, error, rfl, h.exists_readings, hanswer, rfl⟩
  | @finished rounds p r readings answer h hround hanswer hstep =>
    have hall : ∀ r' ∈ rounds ++ [r], ∃ readings, r'.answer = .ok readings :=
      List.forall_mem_append.2
        ⟨h.exists_readings, List.forall_mem_singleton.2 ⟨readings, hanswer⟩⟩
    refine .inl ⟨?_, hall⟩
    cases answer with
    | ok found => rw [Ended.found_eq (.finished h hround hanswer hstep)]
    | error error =>
      -- every run of the first round has failed, so nothing has been found
      obtain ⟨rfl, hfails, -⟩ := h.fails_of_finish hround hanswer hstep
      rw [patternsOf_append_singleton, ← Round.tally, Round.found_tally_of_fails hfails] at hd
      cases hd

/-- A search that has found a pattern, and has the rounds for its patterns, ends with it if and only
if every round comes to its runs. A round that does not is the last one, and the search ends with
its error, which is met before the verifier is run. -/
theorem Search.findAll_keeps (s : Search) (i : Inquiry) (limit : Option Nat) (n : Nat) (w : World)
    (d : Discovered) (hd : d ∈ patternsOf ⟨limit, s.maxStale⟩ (s.history i limit n w))
    (hn : (patternsOf ⟨limit, s.maxStale⟩ (s.history i limit n w)).length * max 1 s.maxStale < n) :
    ((∃ found, (s.findAll i limit n w).1 = some (.ok found) ∧ d ∈ found) ↔
      ∀ r ∈ s.history i limit n w, ∃ readings, r.answer = .ok readings) ∧
    ∀ r ∈ s.history i limit n w, ∀ error, r.answer = .error error →
      error.IsEarly ∧ (s.findAll i limit n w).1 = some (.error error) := by
  have hcourse := s.course_history i limit n w
  have hanswers := s.answers_history i limit n w
  generalize s.history i limit n w = rounds at hd hn hcourse hanswers ⊢
  generalize (s.findAll i limit n w).1 = answer at hcourse ⊢
  obtain ⟨a, rfl, hended⟩ := hcourse.exists_ended hn
  rcases hended.keeps hd with ⟨rfl, hall⟩ | ⟨before, r, error, rfl, hbefore, hanswer, rfl⟩
  · refine ⟨iff_of_true ⟨_, rfl, hd⟩ hall, fun r hr error herror => ?_⟩
    obtain ⟨readings, hok⟩ := hall r hr
    rw [hok] at herror
    cases herror
  · constructor
    · apply iff_of_false
      · rintro ⟨found, hfound, -⟩
        cases hfound
      · intro hall
        obtain ⟨readings, hok⟩ := hall r List.mem_concat_self
        rw [hanswer] at hok
        cases hok
    · intro r' hr' error' herror
      rcases List.mem_append.1 hr' with hr' | hr'
      · obtain ⟨readings, hok⟩ := hbefore r' hr'
        rw [hok] at herror
        cases herror
      · obtain rfl : r' = r := List.mem_singleton.1 hr'
        obtain rfl : error = error' := Except.error.inj (hanswer.symm.trans herror)
        have hearly := hanswers r' List.mem_concat_self
        rw [hanswer] at hearly
        exact ⟨hearly, rfl⟩

lemma Round.exists_readings {r : Round} (h : r.answer.toOption.isSome = true) :
    ∃ readings, r.answer = .ok readings := by
  cases hanswer : r.answer with
  | ok readings => exact ⟨readings, rfl⟩
  | error error =>
    rw [hanswer] at h
    cases h

/-- The search of the sample ends with the pattern of its first round. -/
theorem Search.keeps_sample :
    ∃ found, (Sample.search.findAll (.ofRequest Sample.search.clock (Sample.request none)) none 4
      Sample.world).1 = some (.ok found) ∧ ⟨⟨"E<> true"⟩, ⟨[⟨"a", 0, -1⟩]⟩⟩ ∈ found := by
  obtain ⟨hfound, hcarried⟩ : patternsOf ⟨none, Sample.search.maxStale⟩ (Sample.search.history
        (.ofRequest Sample.search.clock (Sample.request none)) none 4 Sample.world) =
        Sample.patterns ∧
      (Sample.search.history (.ofRequest Sample.search.clock (Sample.request none)) none 4
        Sample.world).all (·.answer.toOption.isSome) = true := by
    decide +kernel
  obtain ⟨hkeeps, -⟩ := Search.findAll_keeps Sample.search
    (.ofRequest Sample.search.clock (Sample.request none)) none 4 Sample.world
    ⟨⟨"E<> true"⟩, ⟨[⟨"a", 0, -1⟩]⟩⟩
    (by rw [hfound]; exact List.mem_singleton_self _) (by rw [hfound]; decide)
  exact hkeeps.2 fun r hr => Round.exists_readings (List.all_eq_true.1 hcarried r hr)

namespace Sample

/-- A query about the model as it is. -/
def inquiry : Inquiry := .ofQuery search.clock ⟨"E<> true"⟩ none

/-- A world in which nothing can be added to the model: its system begins behind a process, on the
same line. -/
def refusingWorld : World where
  files := ⟨[(["m.xml"], .file (.text "<nta><system>p = P(); system p;</system></nta>")),
    (["tmp"], .directory)], []⟩
  behaviour := verifier
  processId := 1

end Sample

/-- A search that has found a pattern can end without it: the model of a query need not be
instrumented before the second round. -/
theorem Search.not_findAll_keeps :
    ¬ ∀ (s : Search) (i : Inquiry) (limit : Option Nat) (n : Nat) (w : World) (d : Discovered),
      d ∈ patternsOf ⟨limit, s.maxStale⟩ (s.history i limit n w) →
      (patternsOf ⟨limit, s.maxStale⟩ (s.history i limit n w)).length * max 1 s.maxStale < n →
      ∃ found, (s.findAll i limit n w).1 = some (.ok found) ∧ d ∈ found := by
  intro hkeeps
  obtain ⟨hfound, hanswer⟩ : patternsOf ⟨none, Sample.search.maxStale⟩
        (Sample.search.history Sample.inquiry none 4 Sample.refusingWorld) = Sample.patterns ∧
      (Sample.search.findAll Sample.inquiry none 4 Sample.refusingWorld).1 =
        some (.error (.instrument "m.xml" .noSystemLine)) := by
    decide +kernel
  obtain ⟨found, hok, -⟩ := hkeeps Sample.search Sample.inquiry none 4 Sample.refusingWorld
    ⟨⟨"E<> true"⟩, ⟨[⟨"a", 0, -1⟩]⟩⟩
    (by rw [hfound]; exact List.mem_singleton_self _) (by rw [hfound]; decide)
  rw [hanswer] at hok
  cases hok

end TimedPatterns
