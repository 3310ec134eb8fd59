import TimedPatterns.Proofs.Search.Ideal

/-!
# Searches with a focus

With a focus, the monitors of all rounds follow the labels in focus. So with an ideal verifier an
exhaustive search ends only when everything has been found that is in focus of the words, or as
many patterns as were asked for.
-/

namespace TimedPatterns

variable {words : Set (List String)} {found : List Discovered}

/-- With a focus, something of all the words is all that is in focus of them. -/
lemma Exhausts.mem_of_mem_restrictions {i : Inquiry} {focus : List String}
    (h : Exhausts words i found) (hfocus : i.focus = some focus) {u : List String}
    (hu : u ∈ restrictions (some focus) words) : u ∈ labelsOf found := by
  obtain ⟨w, hw, rfl⟩ := hu
  have hfound := h w hw
  rw [hfocus] at hfound
  exact hfound

/-- With a focus and an ideal verifier, a search that has the rounds for it finds what is in focus
of the words, each pattern once: all of it, or as many patterns as were asked for. -/
theorem Search.findAll_focused (s : Search) (req : Request) (focus : List String)
    (hfocus : req.focus = some focus) (limit : Option Nat) (n : Nat) (w : World)
    (words : Set (List String))
    (hideal : ∀ r ∈ s.history (.ofRequest s.clock req) limit n w, r.Ideal words)
    (hn : quota limit (restrictions (some focus) words) < n) :
    ∃ found, (s.findAll (.ofRequest s.clock req) limit n w).1 = some (.ok found) ∧
      (labelsOf found).Nodup ∧ (∀ u ∈ labelsOf found, u ∈ restrictions (some focus) words) ∧
      (found.length : ℕ∞) = quota limit (restrictions (some focus) words) ∧
      (limit = none → ∀ u, u ∈ labelsOf found ↔ u ∈ restrictions (some focus) words) := by
  have hinquiry : (Inquiry.ofRequest s.clock req).focus = some focus := hfocus
  obtain ⟨found, hanswer, hnodup, hsub, hle, hend⟩ := s.findAll_of_ideal
    (Inquiry.isReachability_ofRequest s.clock req) hideal (by rwa [hinquiry])
  rw [hinquiry] at hsub hle
  refine ⟨found, hanswer, hnodup, hsub, le_antisymm hle ?_, ?_⟩
  · rcases hend with rfl | hexhausts
    · exact min_le_left _ _
    · have hall : restrictions (some focus) words ⊆ {u | u ∈ labelsOf found} :=
        fun u hu => hexhausts.mem_of_mem_restrictions hinquiry hu
      exact (min_le_right _ _).trans (encard_labelsOf hnodup ▸ Set.encard_le_encard hall)
  · rintro rfl u
    rcases hend with hlimit | hexhausts
    · cases hlimit
    · exact ⟨hsub u, hexhausts.mem_of_mem_restrictions hinquiry⟩

/-- With `a` and `b` in focus, the search of the sample for two kinds of witnesses finds what is in
focus of four words, with `c` in two of them: two patterns, in two rounds. -/
theorem Search.focused_sample : ∃ found,
    (Sample.pairedSearch.findAll Sample.pairedInquiry none 3 Sample.roundaboutWorld).1 =
        some (.ok found) ∧ found.length = 2 ∧
      ∀ u, u ∈ labelsOf found ↔ u = ["a"] ∨ u = ["b"] := by
  have hrestrictions : restrictions (some ["a", "b"]) {w | w ∈ Sample.roundaboutWords} =
      {["a"], ["b"]} := by
    ext u
    simp [restrictions, inFocus, Sample.roundaboutWords, eq_comm]
  -- the four words have two restrictions to the focus, each of them that of two words
  have hquota : quota none
      (restrictions (some ["a", "b"]) {w | w ∈ Sample.roundaboutWords}) = 2 := by
    rw [quota, hrestrictions, Set.encard_pair (by decide)]
    exact min_eq_right le_top
  obtain ⟨found, hanswer, -, -, hlength, hall⟩ := Search.findAll_focused Sample.pairedSearch
    (Sample.request (some ["a", "b"])) ["a", "b"] rfl none 3 Sample.roundaboutWorld
    {w | w ∈ Sample.roundaboutWords}
    (Sample.pairedSearch.ideal_of_isIdeal Sample.pairedSearch_run.2.2) (by rw [hquota]; norm_num)
  refine ⟨found, hanswer, ?_, fun u => ?_⟩
  · rw [hquota] at hlength
    exact_mod_cast hlength
  · rw [hall rfl u, hrestrictions]
    exact Iff.rfl

end TimedPatterns
