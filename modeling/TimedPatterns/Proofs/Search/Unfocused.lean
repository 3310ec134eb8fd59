import TimedPatterns.Proofs.Search.Ideal

/-!
# Searches without a focus

Without a focus and without a list of what can be observed, the monitors of a round follow the
labels of the patterns found so far. Words that differ only in other labels are not told apart, so
that a search can end before it has found all the words. What it finds are the words of which all
labels have been seen by then.

Patterns settle some words if each word, with nothing left but the labels of the patterns, is one
of the patterns. A search can end exactly with such patterns. So whether it finds all the words,
whichever of them an ideal verifier shows first, depends on the words: they are determined if no
selection settles all of them and misses some.
-/

namespace TimedPatterns

/-- What the labels of the patterns leave of each word is one of the patterns. -/
def Settles (patterns : List (List String)) (words : Set (List String)) : Prop :=
  ∀ w ∈ words, w.filter (· ∈ patterns.flatten) ∈ patterns

/-- Only patterns that are all the words settle them. -/
def Determined (words : Set (List String)) : Prop :=
  ∀ patterns : List (List String), (∀ u ∈ patterns, u ∈ words) → Settles patterns words →
    ∀ w ∈ words, w ∈ patterns

variable {l : Limits} {i : Inquiry} {rounds : List Round} {p : Progress} {r : Round}
  {found : List Discovered} {words : Set (List String)} {patterns : List (List String)}

/-! ### Settling -/

/-- The words that are among the patterns that settle them are those of which all labels occur in
the patterns. -/
lemma Settles.mem_iff (h : Settles patterns words) (hsub : ∀ u ∈ patterns, u ∈ words)
    {u : List String} : u ∈ patterns ↔ u ∈ words ∧ ∀ a ∈ u, a ∈ patterns.flatten := by
  constructor
  · intro hu
    exact ⟨hsub u hu, fun a ha => List.mem_flatten.2 ⟨u, hu, ha⟩⟩
  · rintro ⟨hu, hall⟩
    have hkeep := List.filter_eq_self.2 fun a ha => decide_eq_true (hall a ha)
    have hpattern := h u hu
    rwa [hkeep] at hpattern

/-- Patterns that settle some words are all of them if and only if they have all their labels. -/
lemma Settles.forall_mem_iff (h : Settles patterns words) (hsub : ∀ u ∈ patterns, u ∈ words) :
    (∀ u, u ∈ patterns ↔ u ∈ words) ↔ ∀ w ∈ words, ∀ a ∈ w, a ∈ patterns.flatten := by
  simp only [h.mem_iff hsub, and_iff_left_iff_imp]

/-- Words that all have the same labels are determined. -/
lemma determined_of_labels (h : ∀ u ∈ words, ∀ w ∈ words, ∀ a ∈ w, a ∈ u) : Determined words := by
  intro patterns hsub hsettles w hw
  obtain ⟨u, hu⟩ : ∃ u, u ∈ patterns := ⟨_, hsettles w hw⟩
  refine (hsettles.mem_iff hsub).2 ⟨hw, fun a ha => ?_⟩
  exact List.mem_flatten.2 ⟨u, hu, h u (hsub u hu) w hw a ha⟩

lemma restrictions_none (words : Set (List String)) : restrictions none words = words := by
  simp [restrictions, inFocus]

lemma mem_exclusionAlphabet_iff_mem_flatten {a : String} :
    a ∈ exclusionAlphabet none none found ↔ a ∈ (labelsOf found).flatten := by
  simp [mem_exclusionAlphabet_none, labelsOf]

lemma exhausts_iff_settles (hfocus : i.focus = none)
    (hobservable : i.plan.observedAlphabet = none) :
    Exhausts words i found ↔ Settles (labelsOf found) words := by
  simp only [Exhausts, Settles, hfocus, hobservable, mem_exclusionAlphabet_iff_mem_flatten]

/-- Without a focus and with an ideal verifier, a search that has the rounds for it ends. The
patterns settle the words, and they are the words of which all labels have been seen: all the words
if and only if each label has been seen, and so whenever the words are determined. -/
theorem Search.findAll_unfocused (s : Search) (req : Request) (hfocus : req.focus = none)
    (hobservable : req.observable = none) (n : Nat) (w : World) (words : Set (List String))
    (hideal : ∀ r ∈ s.history (.ofRequest s.clock req) none n w, r.Ideal words)
    (hn : words.encard < n) :
    ∃ found, (s.findAll (.ofRequest s.clock req) none n w).1 = some (.ok found) ∧
      (labelsOf found).Nodup ∧ Settles (labelsOf found) words ∧
      (∀ u, u ∈ labelsOf found ↔ u ∈ words ∧ ∀ a ∈ u, a ∈ (labelsOf found).flatten) ∧
      ((∀ u, u ∈ labelsOf found ↔ u ∈ words) ↔
        ∀ u ∈ words, ∀ a ∈ u, a ∈ (labelsOf found).flatten) ∧
      (Determined words → ∀ u, u ∈ labelsOf found ↔ u ∈ words) := by
  have hinquiry : restrictions (Inquiry.ofRequest s.clock req).focus words = words := by
    rw [Inquiry.ofRequest, hfocus, restrictions_none]
  have hquota : quota none words < n := by simpa [quota] using hn
  obtain ⟨found, hanswer, hnodup, hsub, -, hend⟩ := s.findAll_of_ideal
    (Inquiry.isReachability_ofRequest s.clock req) hideal (by rwa [hinquiry])
  rw [hinquiry] at hsub
  have hsettles : Settles (labelsOf found) words := by
    rcases hend with hlimit | hexhausts
    · cases hlimit
    · exact (exhausts_iff_settles hfocus hobservable).1 hexhausts
  refine ⟨found, hanswer, hnodup, hsettles, fun u => hsettles.mem_iff hsub,
    hsettles.forall_mem_iff hsub, ?_⟩
  intro hdetermined u
  exact ⟨hsub u, hdetermined _ hsub hsettles u⟩

/-- The verifier of the sample is ideal for two words. -/
lemma Sample.ideal_history : ∀ r ∈ search.history (.ofRequest search.clock (request none)) none 3
    world, r.Ideal {w | w ∈ [["a"], ["a", "b"]]} := by
  apply Search.ideal_of_isIdeal
  decide +kernel

lemma Sample.encard_words_lt : {w | w ∈ [["a"], ["a", "b"]]}.encard < (3 : ℕ) := by
  have hwords : {w | w ∈ [["a"], ["a", "b"]]} = ({["a"], ["a", "b"]} : Set (List String)) := by
    ext w
    simp
  rw [hwords, Set.encard_pair (by decide)]
  norm_num

/-- The search of the sample ends with patterns that settle the words, and misses one of them. -/
theorem Search.unfocused_sample : ∃ found,
    (Sample.search.findAll (.ofRequest Sample.search.clock (Sample.request none)) none 3
        Sample.world).1 = some (.ok found) ∧
      Settles (labelsOf found) {w | w ∈ [["a"], ["a", "b"]]} ∧ ["a", "b"] ∉ labelsOf found := by
  obtain ⟨found, hanswer, -, hsettles, -, -, -⟩ := Search.findAll_unfocused Sample.search
    (Sample.request none) rfl rfl 3 Sample.world _ Sample.ideal_history Sample.encard_words_lt
  have hfound : found = Sample.patterns :=
    Except.ok.inj (Option.some.inj (hanswer.symm.trans Sample.findAll_eq))
  exact ⟨found, hanswer, hsettles, hfound ▸ by decide⟩

/-- A search without a focus need not find all of finitely many words. -/
theorem Search.not_findAll_unfocused_complete :
    ¬ ∀ (s : Search) (req : Request) (n : Nat) (w : World) (words : Set (List String)),
      words.Finite → req.focus = none → req.observable = none → words.encard < n →
      (∀ r ∈ s.history (.ofRequest s.clock req) none n w, r.Ideal words) →
      ∃ found, (s.findAll (.ofRequest s.clock req) none n w).1 = some (.ok found) ∧
        (labelsOf found).Nodup ∧ ∀ u, u ∈ labelsOf found ↔ u ∈ words := by
  intro hcomplete
  obtain ⟨found, hanswer, -, hfound⟩ := hcomplete Sample.search (Sample.request none) 3 Sample.world
    {w | w ∈ [["a"], ["a", "b"]]} (List.finite_toSet _) rfl rfl Sample.encard_words_lt
    Sample.ideal_history
  obtain rfl : found = Sample.patterns :=
    Except.ok.inj (Option.some.inj (hanswer.symm.trans Sample.findAll_eq))
  have hmissed : ["a", "b"] ∈ labelsOf Sample.patterns := (hfound _).2 (by decide)
  exact absurd hmissed (by decide)

/-! ### Ideal verifiers exist -/

lemma exists_reading_shows (word : List String) :
    ∃ reading : Reading, ∃ trace, reading.Shows trace ∧ trace.actions = word := by
  let run : Search.Run := ⟨⟨"", [], []⟩, "", "", ⟨"", false, ""⟩⟩
  let result : CommandResult := ⟨"", .ok ⟨some 0, "Formula is satisfied", "", false, ⟨0⟩⟩⟩
  let transitions : List Transition := word.map fun a => ⟨a, [], .full⟩
  have hordered : transitions.Pairwise Transition.Before :=
    List.pairwise_map.2 (List.pairwise_of_forall fun a b => Int.le_refl 0)
  have hverdict : Verdict.ofResult result = .satisfied := by decide +kernel
  refine ⟨⟨run, result, some (.ok ⟨"", transitions, hordered⟩), by simp [hverdict]⟩, _,
    Reading.shows_iff.2 rfl, ?_⟩
  simp [Trace.actions, transitions, Function.comp_def]

lemma exists_reading_refutes : ∃ reading : Reading, reading.verdict = .notSatisfied := by
  let run : Search.Run := ⟨⟨"", [], []⟩, "", "", ⟨"", false, ""⟩⟩
  let result : CommandResult := ⟨"", .ok ⟨some 0, "Formula is NOT satisfied", "", false, ⟨0⟩⟩⟩
  have hverdict : Verdict.ofResult result = .notSatisfied := by decide +kernel
  exact ⟨⟨run, result, none, by simp [hverdict]⟩, hverdict⟩

/-- There is a next round with an ideal verifier. -/
lemma Underway.exists_asks_ideal (h : Underway l i rounds p)
    (hmore : l.reached p.found.length = false) (words : Set (List String)) :
    ∃ r, Asks l i p r ∧ r.Ideal words := by
  obtain ⟨q, hq⟩ := Option.isSome_iff_exists.1 (Inquiry.isSome_round? h.isReachability p.found)
  have hreading : ∃ reading : Reading, reading.Ideal words q.plan := by
    by_cases hadmits : ∃ w ∈ words, q.plan.Admits w
    · obtain ⟨w, hw, hadmits⟩ := hadmits
      obtain ⟨reading, trace, hshows, rfl⟩ := exists_reading_shows w
      exact ⟨reading, .shows hshows hw hadmits⟩
    · obtain ⟨reading, hverdict⟩ := exists_reading_refutes
      exact ⟨reading, .refutes hverdict fun w hw hw' => hadmits ⟨w, hw, hw'⟩⟩
  obtain ⟨reading, hreading⟩ := hreading
  refine ⟨⟨q, .ok [reading]⟩, ⟨hmore, hq, ?_⟩, [reading], rfl, ?_⟩
  · rintro readings ⟨⟩
    exact List.cons_ne_nil _ _
  · intro other hother
    rwa [List.mem_singleton.1 hother]

/-- A search goes on to its end with an ideal verifier for the words of a list. -/
lemma Underway.exists_ended_ideal (patterns : List (List String)) (m : Nat)
    (h : Underway l i rounds p)
    (hideal : ∀ r ∈ rounds, r.Ideal {w | w ∈ patterns})
    (hm : patterns.length < p.found.length + m) :
    ∃ rounds answer, Ended l i rounds answer ∧ ∀ r ∈ rounds, r.Ideal {w | w ∈ patterns} := by
  -- different patterns show different words, so there are not more of them than words
  have hle : ∀ {rounds p}, Underway l i rounds p → (∀ r ∈ rounds, r.Ideal {w | w ∈ patterns}) →
      p.found.length ≤ patterns.length := by
    intro rounds p h hideal
    have hsub : labelsOf (patternsOf l rounds) ⊆ patterns.map (inFocus i.focus) := by
      intro u hu
      obtain ⟨w, hw, rfl⟩ := h.carried.mem_restrictions_of_ideal hideal hu
      exact List.mem_map_of_mem hw
    have hlength := (nodup_patternsOf l rounds).length_le_of_subset hsub
    rwa [length_labelsOf, List.length_map, ← h.found_eq] at hlength
  -- on the patterns that are still missing: every further round finds one or ends the search
  induction m generalizing rounds p with
  | zero => exact absurd (hle h hideal) (Nat.not_le_of_lt hm)
  | succ m ih =>
    cases hmore : l.reached p.found.length with
    | true => exact ⟨rounds, _, .enough h hmore, hideal⟩
    | false =>
      obtain ⟨r, hround, hr⟩ := h.exists_asks_ideal hmore {w | w ∈ patterns}
      have hrounds : ∀ r' ∈ rounds ++ [r], r'.Ideal {w | w ∈ patterns} :=
        List.forall_mem_append.2 ⟨hideal, List.forall_mem_singleton.2 hr⟩
      obtain ⟨readings, hanswer⟩ : ∃ readings, r.answer = .ok readings := hr.imp fun _ => And.left
      rcases hround.step_of_ideal h hr with ⟨p', hstep, hlt⟩ | ⟨hstep, -⟩
      · exact ih (.again h hround hanswer hstep) hrounds (by omega)
      · exact ⟨_, _, .finished h hround hanswer hstep, hrounds⟩

/-! ### Exactly the determined words -/

/-- An ideal verifier for patterns that settle some words is one for the words. -/
lemma Asks.ideal_of_settles (hfocus : i.focus = none) (hobservable : i.plan.observedAlphabet = none)
    (hsub : ∀ u ∈ patterns, u ∈ words) (hsettles : Settles patterns words) (hround : Asks l i p r)
    (h : Underway l i rounds p) (hfound : ∀ u ∈ labelsOf p.found, u ∈ patterns)
    (hideal : r.Ideal {w | w ∈ patterns}) : r.Ideal words := by
  obtain ⟨readings, hanswer, hall⟩ := hideal
  refine ⟨readings, hanswer, fun reading hreading => ?_⟩
  cases hall reading hreading with
  | shows hshows hmem hadmits => exact .shows hshows (hsub _ hmem) hadmits
  | refutes hverdict hnone =>
    refine .refutes hverdict fun w hw hadmits => hnone _ (hsettles w hw) ?_
    rw [Instrumentation.admits_iff (hround.covers h), hround.plan_eq] at hadmits ⊢
    have hsame : (w.filter (· ∈ patterns.flatten)).filter
        (· ∈ exclusionAlphabet i.focus i.plan.observedAlphabet p.found) =
        w.filter (· ∈ exclusionAlphabet i.focus i.plan.observedAlphabet p.found) := by
      -- the labels that count are those of patterns
      rw [List.filter_filter]
      refine List.filter_congr fun a _ => ?_
      simp only [hfocus, hobservable, mem_exclusionAlphabet_iff_mem_flatten,
        Bool.and_eq_left_iff_imp, decide_eq_true_eq, List.mem_flatten]
      rintro ⟨u, hu, ha⟩
      exact ⟨u, hfound u hu, ha⟩
    exact hsame ▸ hadmits

/-- Without a focus, a search finds all the words, whatever it is shown by an ideal verifier, if
and only if the words are determined. -/
theorem ended_ideal_iff_determined (hquery : i.query.isReachability = true)
    (hfocus : i.focus = none) (hobservable : i.plan.observedAlphabet = none)
    (hlimit : l.patterns = none) :
    (∀ rounds answer, Ended l i rounds answer → (∀ r ∈ rounds, r.Ideal words) →
        ∃ found, answer = .ok found ∧ ∀ u, u ∈ labelsOf found ↔ u ∈ words) ↔
      Determined words := by
  have hword : ∀ {words : Set (List String)} {rounds : List Round}, Carried l i rounds →
      (∀ r ∈ rounds, r.Ideal words) → ∀ u ∈ labelsOf (patternsOf l rounds), u ∈ words := by
    intro words rounds hcarried hideal u hu
    have hmem := hcarried.mem_restrictions_of_ideal hideal hu
    rwa [hfocus, restrictions_none] at hmem
  constructor
  · -- the verifier that knows only the patterns is ideal for all the words, since the patterns
    -- settle them
    intro hall patterns hsub hsettles w hw
    have hstart : Underway l i [] {} := .start hquery
    obtain ⟨rounds, answer, hend, hpatterns⟩ :=
      hstart.exists_ended_ideal patterns (patterns.length + 1) (by simp) (by simp)
    have hideal : ∀ r ∈ rounds, r.Ideal words := by
      intro r hr
      obtain ⟨before, after, hcut⟩ := List.append_of_mem hr
      obtain ⟨p, h, hround⟩ := hend.carried before r after hcut
      have hbefore : ∀ r ∈ before, r.Ideal {w | w ∈ patterns} :=
        fun r hr => hpatterns r (hcut ▸ List.mem_append_left _ hr)
      refine hround.ideal_of_settles hfocus hobservable hsub hsettles h ?_ (hpatterns r hr)
      rw [h.found_eq]
      exact hword h.carried hbefore
    obtain ⟨found, rfl, hfound⟩ := hall rounds answer hend hideal
    have hmem := (hfound w).2 hw
    rw [hend.found_eq] at hmem
    exact hword hend.carried hpatterns w hmem
  · intro hdetermined rounds answer hend hideal
    obtain ⟨rfl, henough | hexhausts⟩ := hend.of_ideal hquery hideal
    · obtain ⟨max, hmax, -⟩ := Limits.reached_iff.1 henough
      rw [hlimit] at hmax
      cases hmax
    · have hsub := hword hend.carried hideal
      have hsettles := (exhausts_iff_settles hfocus hobservable).1 hexhausts
      exact ⟨_, rfl, fun u => ⟨hsub u, hdetermined _ hsub hsettles u⟩⟩

end TimedPatterns
