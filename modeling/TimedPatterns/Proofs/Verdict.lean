import TimedPatterns.Proofs.Session
import TimedPatterns.Proofs.Text.Occurrence
import TimedPatterns.Search.Run

/-!
# What a verdict says

A run that did not succeed has failed, and its complaint is the one of the check that lets only a
success pass. A run that succeeded is judged by the leftmost of three phrases in its output, or in
its error output if there is none in its output.
-/

namespace TimedPatterns.Verdict

open Text

variable {o : Output} {cs before after : List Char} {b : Bool}

/-! ### Phrases -/

/-- What the verifier can say of a formula. -/
inductive Phrase where
  | satisfied
  | notSatisfied
  | maybeSatisfied
  deriving DecidableEq

namespace Phrase

/-- The words of a phrase. -/
def text : Phrase → String
  | .satisfied => "Formula is satisfied"
  | .notSatisfied => "Formula is NOT satisfied"
  | .maybeSatisfied => "Formula may be satisfied"

/-- Whether it means that the formula is satisfied. -/
def holds : Phrase → Bool
  | .satisfied => true
  | .notSatisfied | .maybeSatisfied => false

/-- The phrase stands at the beginning of a text. -/
def Begins (p : Phrase) (cs : List Char) : Prop := p.text.toList <+: cs

def Occurs (p : Phrase) (cs : List Char) : Prop := p.text.toList <:+: cs

/-- The phrase stands in a text, and none of the phrases begins further to the left. -/
def Leads (p : Phrase) (cs : List Char) : Prop :=
  ∃ before after, cs = before ++ p.text.toList ++ after ∧
    ∀ (q : Phrase) (before' after' : List Char), cs = before' ++ q.text.toList ++ after' →
      before.length ≤ before'.length

variable {p q : Phrase}

/-- No phrase is the beginning of another one. -/
lemma eq_of_begins (hp : p.Begins cs) (hq : q.Begins cs) : p = q := by
  have hfree : ∀ p q : Phrase, p ≠ q → ¬ p.text.toList <+: q.text.toList := by
    intro p q
    cases p <;> cases q <;> decide
  by_contra hne
  rcases List.prefix_or_prefix_of_prefix hp hq with h | h
  · exact hfree p q hne h
  · exact hfree q p (Ne.symm hne) h

@[simp] lemma text_ne (p : Phrase) : p.text ≠ "" := by
  cases p <;> decide

end Phrase

/-! ### The first phrase of a text -/

variable {p q : Phrase}

lemma phrases_eq : phrases = [Phrase.notSatisfied, .satisfied, .maybeSatisfied].map
    fun p => (p.text.toList, p.holds) := rfl

lemma phraseAt?_eq_none_iff : phraseAt? cs = none ↔ ∀ p : Phrase, ¬ p.Begins cs := by
  have hall : ∀ p : Phrase, p ∈ [Phrase.notSatisfied, .satisfied, .maybeSatisfied] := by
    intro p
    cases p <;> decide
  rw [phraseAt?, phrases_eq, List.findSome?_map, List.findSome?_eq_none_iff]
  simp only [Function.comp_def, Option.map_eq_none_iff, dropPrefix?_eq_none_iff]
  exact ⟨fun h p => h p (hall p), fun h p _ => h p⟩

/-- No two phrases begin at one place, so that it does not matter which of them is tried first. -/
lemma phraseAt?_eq_some_iff : phraseAt? cs = some b ↔ ∃ p : Phrase, p.Begins cs ∧ p.holds = b := by
  have hfound {b : Bool} (h : phraseAt? cs = some b) : ∃ p : Phrase, p.Begins cs ∧ p.holds = b := by
    rw [phraseAt?, phrases_eq, List.findSome?_map] at h
    obtain ⟨p, -, hp⟩ := List.exists_of_findSome?_eq_some h
    obtain ⟨rest, hrest, hholds⟩ := Option.map_eq_some_iff.1 hp
    exact ⟨p, ⟨rest, (dropPrefix?_eq_some_iff.1 hrest).symm⟩, hholds⟩
  constructor
  · exact hfound
  · rintro ⟨p, hp, rfl⟩
    cases h : phraseAt? cs with
    | none => exact absurd hp (phraseAt?_eq_none_iff.1 h p)
    | some b =>
      obtain ⟨q, hq, rfl⟩ := hfound h
      rw [p.eq_of_begins hp hq]

lemma not_leads_nil : ¬ p.Leads [] := by
  rintro ⟨before, after, h, -⟩
  simp at h

/-- The leftmost phrase stands at the beginning of a text, or else it is the leftmost phrase behind
the first character. -/
lemma leads_cons_iff {c : Char} : p.Leads (c :: cs) ↔
    p.Begins (c :: cs) ∨ (∀ q : Phrase, ¬ q.Begins (c :: cs)) ∧ p.Leads cs := by
  constructor
  · rintro ⟨before, after, h, hleft⟩
    cases before with
    | nil => exact .inl ⟨after, h.symm⟩
    | cons d before =>
      obtain ⟨rfl, hcs⟩ := List.cons.inj h
      refine .inr ⟨?_, before, after, hcs, ?_⟩
      · rintro q ⟨rest, hrest⟩
        have hlength := hleft q [] rest hrest.symm
        simp at hlength
      · intro q before' after' h'
        have hlength := hleft q (c :: before') after' (by rw [h']; rfl)
        simpa using hlength
  · rintro (⟨rest, hrest⟩ | ⟨hnone, before, after, rfl, hleft⟩)
    · exact ⟨[], rest, hrest.symm, fun _ _ _ _ => Nat.zero_le _⟩
    · refine ⟨c :: before, after, rfl, ?_⟩
      intro q before' after' h'
      cases before' with
      | nil => exact absurd ⟨after', h'.symm⟩ (hnone q)
      | cons d before' =>
        obtain ⟨-, hrest⟩ := List.cons.inj h'
        exact Nat.succ_le_succ (hleft q before' after' hrest)

/-- What is said first is what the leftmost phrase says. -/
theorem phrase?_eq_some_iff : phrase? cs = some b ↔ ∃ p : Phrase, p.Leads cs ∧ p.holds = b := by
  induction cs with
  | nil => simp [phrase?, not_leads_nil]
  | cons c cs ih =>
    rw [phrase?, Option.orElse_eq_some, phraseAt?_eq_some_iff,
      phraseAt?_eq_none_iff, ih]
    simp only [leads_cons_iff, or_and_right, exists_or, and_assoc, exists_and_left]

theorem phrase?_eq_none_iff : phrase? cs = none ↔ ∀ p : Phrase, ¬ p.Occurs cs := by
  induction cs with
  | nil => simp [phrase?, Phrase.Occurs]
  | cons c cs ih =>
    rw [phrase?, Option.orElse_eq_none, phraseAt?_eq_none_iff, ih]
    simp only [Phrase.Occurs, List.infix_cons_iff, not_or]
    exact forall_and.symm

/-! ### Outputs -/

namespace Phrase

/-- The phrase that counts: the leftmost one of the output, or of the error output if there is none
in the output. -/
def Counts (p : Phrase) (o : Output) : Prop :=
  p.Leads o.stdout.toList ∨
    (∀ q : Phrase, ¬ q.Occurs o.stdout.toList) ∧ p.Leads o.stderr.toList

end Phrase

lemma said?_eq_some_iff : said? o = some b ↔ ∃ p : Phrase, p.Counts o ∧ p.holds = b := by
  rw [said?, Option.orElse_eq_some, phrase?_eq_some_iff, phrase?_eq_none_iff, phrase?_eq_some_iff]
  simp only [Phrase.Counts, or_and_right, exists_or, and_assoc, exists_and_left]

lemma said?_eq_none_iff : said? o = none ↔
    (∀ p : Phrase, ¬ p.Occurs o.stdout.toList) ∧ ∀ p : Phrase, ¬ p.Occurs o.stderr.toList := by
  rw [said?, Option.orElse_eq_none, phrase?_eq_none_iff, phrase?_eq_none_iff]

lemma said?_eq_true_iff : said? o = some true ↔ Phrase.satisfied.Counts o := by
  rw [said?_eq_some_iff]
  constructor
  · rintro ⟨p, hp, hholds⟩
    cases p with
    | satisfied => exact hp
    | notSatisfied => cases hholds
    | maybeSatisfied => cases hholds
  · intro h
    exact ⟨_, h, rfl⟩

lemma said?_eq_false_iff : said? o = some false ↔
    Phrase.notSatisfied.Counts o ∨ Phrase.maybeSatisfied.Counts o := by
  rw [said?_eq_some_iff]
  constructor
  · rintro ⟨p, hp, hholds⟩
    cases p with
    | satisfied => cases hholds
    | notSatisfied => exact .inl hp
    | maybeSatisfied => exact .inr hp
  · rintro (h | h)
    · exact ⟨_, h, rfl⟩
    · exact ⟨_, h, rfl⟩

/-! ### Verdicts -/

lemma isSuccess_iff : o.isSuccess = true ↔ o.timedOut = false ∧ o.status = some 0 := by
  simp [Output.isSuccess]

/-- The verdict of a run that did not succeed has the complaint of the check. -/
lemma ofOutput_of_not_isSuccess (h : o.isSuccess = false) : ofOutput o = .failure o.complaint := by
  unfold ofOutput Output.complaint
  by_cases htime : o.timedOut = true
  · rw [if_pos htime, if_pos htime]
  · have hstatus : o.status ≠ some 0 := by
      intro hstatus
      simp [Output.isSuccess, htime, hstatus] at h
    rw [if_neg htime, if_neg htime, if_neg hstatus]
    split
    · next hblank => rw [if_pos hblank]
    · next hblank => rw [if_neg hblank]

/-- The verdict of a run that succeeded is what the phrase that counts says. -/
lemma ofOutput_of_isSuccess (h : o.isSuccess = true) : ofOutput o = match said? o with
    | some true => .satisfied
    | some false => .notSatisfied
    | none => .failure s!"no verdict in output:\n{trim o.combined}" := by
  obtain ⟨htime, hstatus⟩ := isSuccess_iff.1 h
  have htime' : ¬ o.timedOut = true := by simp [htime]
  unfold ofOutput
  cases said? o with
  | none => exact (if_neg htime').trans (if_pos hstatus)
  | some b => cases b <;> exact (if_neg htime').trans (if_pos hstatus)

lemma isSuccess_of_ofOutput (h : ∀ complaint, ofOutput o ≠ .failure complaint) :
    o.isSuccess = true := by
  by_contra hsuccess
  exact h _ (ofOutput_of_not_isSuccess (Bool.eq_false_iff.2 hsuccess))

lemma check_of_not_isSuccess (h : o.isSuccess = false) (command : String) :
    o.check command = .error (.failure command o.status o.complaint) := by
  rw [Output.check, h]
  rfl

lemma check_of_isSuccess (h : o.isSuccess = true) (command : String) :
    o.check command = .ok o := by
  rw [Output.check, if_pos h]

/-- A run that did not succeed contributes the error of the check. -/
lemma contribution_of_not_isSuccess (h : o.isSuccess = false) (s : Search)
    (focus : Option (List String)) (run : Search.Run) (command : String) (w : World) :
    (s.contribution focus run ⟨command, .ok o⟩ w).1 =
      .failed (.tool (.failure command o.status o.complaint)) := by
  simp only [Search.contribution, Session.bind_apply, ofResult, ofOutput_of_not_isSuccess h]
  rfl

/-- The verdict and the check that lets only a success pass agree on every output. If the run did
not succeed, the verdict is a failure with the complaint that the check makes, and the error that is
reported is the one of the check. If it succeeded, the check returns the output, and the verdict is
what is said by the leftmost of the three phrases in the output, or in the error output if the
output has none; there is a failure if neither has one. So only a run that exited with status 0
before its time was up gives an answer. -/
theorem ofOutput_exact (o : Output) (command : String) :
    (o.isSuccess = false → ∃ complaint, ofOutput o = .failure complaint ∧
      o.check command = .error (.failure command o.status complaint) ∧
      failureError ⟨command, .ok o⟩ complaint = .failure command o.status complaint ∧
      ∀ (s : Search) focus run w, (s.contribution focus run ⟨command, .ok o⟩ w).1 =
        .failed (.tool (.failure command o.status complaint))) ∧
    (o.isSuccess = true → o.check command = .ok o ∧
      (ofOutput o = .satisfied ↔ Phrase.satisfied.Counts o) ∧
      (ofOutput o = .notSatisfied ↔
        Phrase.notSatisfied.Counts o ∨ Phrase.maybeSatisfied.Counts o) ∧
      ((∃ complaint, ofOutput o = .failure complaint) ↔
        (∀ p : Phrase, ¬ p.Occurs o.stdout.toList) ∧
          ∀ p : Phrase, ¬ p.Occurs o.stderr.toList)) ∧
    ((∀ complaint, ofOutput o ≠ .failure complaint) →
      o.timedOut = false ∧ o.status = some 0) := by
  refine ⟨fun h => ?_, fun h => ?_, fun h => isSuccess_iff.1 (isSuccess_of_ofOutput h)⟩
  · exact ⟨o.complaint, ofOutput_of_not_isSuccess h, check_of_not_isSuccess h command, rfl,
      fun s focus run w => contribution_of_not_isSuccess h s focus run command w⟩
  · rw [← said?_eq_true_iff, ← said?_eq_false_iff, ← said?_eq_none_iff, ofOutput_of_isSuccess h]
    refine ⟨check_of_isSuccess h command, ?_⟩
    cases said? o with
    | none => simp
    | some b => cases b <;> simp

/-- A run that was stopped has failed whatever it printed. One that succeeded is satisfied if what
is said first is that the formula is, even if it is said later, and in the error output, that it is
not. -/
theorem ofOutput_exact_sample :
    let stopped : Output := ⟨none, "Formula is satisfied", " stopped\n", true, ⟨2000000000⟩⟩
    let ended : Output :=
      ⟨some 0, "Formula is satisfied\nFormula may be satisfied", "Formula is NOT satisfied", false,
        ⟨0⟩⟩
    (stopped.isSuccess = false ∧ ∃ complaint, ofOutput stopped = .failure complaint ∧
      stopped.check "verifier" = .error (.failure "verifier" none complaint)) ∧
    ended.isSuccess = true ∧ ended.check "verifier" = .ok ended ∧
      Phrase.satisfied.Counts ended := by
  intro stopped ended
  obtain ⟨hfails, -, -⟩ := ofOutput_exact stopped "verifier"
  obtain ⟨-, hsucceeds, -⟩ := ofOutput_exact ended "verifier"
  obtain ⟨complaint, hverdict, hcheck, -⟩ := hfails rfl
  obtain ⟨hpasses, hsatisfied, -⟩ := hsucceeds rfl
  exact ⟨⟨rfl, complaint, hverdict, hcheck⟩, rfl, hpasses, hsatisfied.1 (by decide +kernel)⟩

end TimedPatterns.Verdict
