import TimedPatterns.Proofs.Search.Exploring
import TimedPatterns.Proofs.Search.Tally

/-!
# The course of a search

An exhaustive search carries out one round after the other. Each of them asks for what has not
been found so far, and the search goes on or ends with what the runs of the round contribute.
Of the runs it is only assumed that there is one, so that a fact about every course holds whatever
the verifier does.

The history of a search is such a course, `Search.course_history`.
-/

namespace TimedPatterns

/-- The patterns found in some rounds, one round after the other. -/
def patternsOf (l : Limits) (rounds : List Round) : List Discovered :=
  rounds.foldl (fun found r => (Tally.ofRound l r.inquiry.query found r.contributions).found) []

@[simp] lemma patternsOf_nil (l : Limits) : patternsOf l [] = [] := rfl

@[simp] lemma patternsOf_append_singleton (l : Limits) (rounds : List Round) (r : Round) :
    patternsOf l (rounds ++ [r]) =
      (Tally.ofRound l r.inquiry.query (patternsOf l rounds) r.contributions).found := by
  simp [patternsOf]

/-! ### Courses -/

/-- A round is the one that a search carries out next. -/
structure Asks (l : Limits) (i : Inquiry) (p : Progress) (r : Round) : Prop where
  more : l.reached p.found.length = false
  asked : i.round? p.found = some r.inquiry
  runs : ∀ readings, r.answer = .ok readings → readings ≠ []

/-- A search has carried out some rounds, and goes on from where it stands. -/
inductive Underway (l : Limits) (i : Inquiry) : List Round → Progress → Prop
  | start (hquery : i.query.isReachability = true) : Underway l i [] {}
  | again {rounds : List Round} {p p' : Progress} {r : Round} {readings : List Reading}
      (h : Underway l i rounds p) (hround : Asks l i p r) (hanswer : r.answer = .ok readings)
      (hstep : p.step l r.inquiry.query r.contributions = .again p') :
      Underway l i (rounds ++ [r]) p'

/-- A search has carried out some rounds, and has ended with an answer. -/
inductive Ended (l : Limits) (i : Inquiry) : List Round → Answer → Prop
  /-- Patterns cannot be ruled out of the query. -/
  | unsupported (hquery : i.query.isReachability = false) :
      Ended l i [] (.error (.unsupported i.query.text))
  /-- There are enough patterns. -/
  | enough {rounds : List Round} {p : Progress} (h : Underway l i rounds p)
      (henough : l.reached p.found.length = true) : Ended l i rounds (.ok p.found)
  /-- A round did not come to its runs. -/
  | refused {rounds : List Round} {p : Progress} {r : Round} {error : SearchError}
      (h : Underway l i rounds p) (hround : Asks l i p r) (hanswer : r.answer = .error error) :
      Ended l i (rounds ++ [r]) (.error error)
  /-- A round was the last one. -/
  | finished {rounds : List Round} {p : Progress} {r : Round} {readings : List Reading}
      {answer : Answer} (h : Underway l i rounds p) (hround : Asks l i p r)
      (hanswer : r.answer = .ok readings)
      (hstep : p.step l r.inquiry.query r.contributions = .finish answer) :
      Ended l i (rounds ++ [r]) answer

def Course (l : Limits) (i : Inquiry) (n : Nat) (rounds : List Round) : Option Answer → Prop
  | none => rounds.length = n ∧ ∃ p, Underway l i rounds p ∧ l.reached p.found.length = false
  | some answer => Ended l i rounds answer

variable {l : Limits} {i : Inquiry} {rounds before after : List Round} {p : Progress} {r : Round}
  {found : List Discovered}

/-! ### Patterns -/

/-- Later rounds put patterns behind those of earlier ones. -/
lemma patternsOf_mono (h : before <+: rounds) : patternsOf l before <+: patternsOf l rounds := by
  obtain ⟨more, rfl⟩ := h
  induction more using List.reverseRecOn with
  | nil => rw [List.append_nil]
  | append_singleton more r ih =>
    obtain ⟨fresh, hfresh, -⟩ := Tally.exists_fresh l r.inquiry.query
      { found := patternsOf l (before ++ more) } r.contributions
    rw [← List.append_assoc, patternsOf_append_singleton, Tally.ofRound_eq_addAll, hfresh]
    exact ih.trans (List.prefix_append _ _)

lemma nodup_patternsOf (l : Limits) (rounds : List Round) :
    (labelsOf (patternsOf l rounds)).Nodup := by
  induction rounds using List.reverseRecOn with
  | nil => exact List.nodup_nil
  | append_singleton rounds r ih =>
    rw [patternsOf_append_singleton, Tally.ofRound_eq_addAll]
    exact Tally.nodup_addAll ih

lemma length_patternsOf_le {max : Nat} (hmax : l.patterns = some max) (rounds : List Round) :
    (patternsOf l rounds).length ≤ max := by
  induction rounds using List.reverseRecOn with
  | nil => exact Nat.zero_le _
  | append_singleton rounds r ih =>
    rw [patternsOf_append_singleton, Tally.ofRound_eq_addAll]
    exact Tally.length_addAll_le hmax ih

lemma Underway.found_eq (h : Underway l i rounds p) : p.found = patternsOf l rounds := by
  induction h with
  | start _ => rfl
  | again _ _ _ hstep ih =>
    rw [Progress.found_of_step_eq_again hstep, patternsOf_append_singleton, ih]

lemma Ended.found_eq (h : Ended l i rounds (.ok found)) : found = patternsOf l rounds := by
  cases h with
  | enough h _ => exact h.found_eq
  | finished h _ _ hstep =>
    rw [Progress.found_of_step_eq_finish hstep, patternsOf_append_singleton, h.found_eq]

/-! ### Rounds -/

/-- Two ways to cut a list of rounds: the round is the last one, or it is one of the others. -/
lemma eq_or_exists_of_append_singleton_eq {last : Round}
    (h : rounds ++ [last] = before ++ r :: after) :
    (rounds = before ∧ last = r) ∨ ∃ after', rounds = before ++ r :: after' := by
  rcases List.eq_nil_or_concat after with rfl | ⟨after', last', rfl⟩
  · obtain ⟨hinit, hlast⟩ := List.append_inj' h rfl
    exact .inl ⟨hinit, by simpa using hlast⟩
  · have hcut : rounds ++ [last] = (before ++ r :: after') ++ [last'] := by simpa using h
    exact .inr ⟨after', (List.append_inj' hcut rfl).1⟩

/-- Every round is the one that a search carries out next behind the rounds before it. -/
def Carried (l : Limits) (i : Inquiry) (rounds : List Round) : Prop :=
  ∀ before r after, rounds = before ++ r :: after → ∃ p, Underway l i before p ∧ Asks l i p r

lemma Carried.append_singleton (hrounds : Carried l i rounds) (h : Underway l i rounds p)
    (hround : Asks l i p r) : Carried l i (rounds ++ [r]) := by
  intro before r' after hcut
  rcases eq_or_exists_of_append_singleton_eq hcut with ⟨rfl, rfl⟩ | ⟨after', hcut⟩
  · exact ⟨p, h, hround⟩
  · exact hrounds before r' after' hcut

lemma Underway.carried (h : Underway l i rounds p) : Carried l i rounds := by
  induction h with
  | start _ =>
    intro before r after hcut
    simp at hcut
  | again h hround _ _ ih => exact ih.append_singleton h hround

lemma Ended.carried {answer : Answer} (h : Ended l i rounds answer) : Carried l i rounds := by
  cases h with
  | unsupported _ =>
    intro before r after hcut
    simp at hcut
  | enough h _ => exact h.carried
  | refused h hround _ | finished h hround _ _ => exact h.carried.append_singleton h hround

lemma Course.carried {n : Nat} {answer : Option Answer} (h : Course l i n rounds answer) :
    Carried l i rounds := by
  cases answer with
  | none =>
    obtain ⟨-, p, h, -⟩ := h
    exact h.carried
  | some answer => exact Ended.carried h

namespace Asks

variable (h : Asks l i p r)

include h

lemma plan_eq : r.inquiry.plan =
    i.plan.excluding (labelsOf p.found)
      (exclusionAlphabet i.focus i.plan.observedAlphabet p.found) := by
  obtain ⟨query, -, hq⟩ := Option.map_eq_some_iff.1 h.asked
  rw [← hq]
  rfl

lemma focus_eq : r.inquiry.focus = i.focus := by
  obtain ⟨query, -, hq⟩ := Option.map_eq_some_iff.1 h.asked
  rw [← hq]

/-- A round asks the query with one monitor excluded for each pattern found before it. -/
lemma query_eq :
    i.query.excluding ((List.range p.found.length).map Template.monitorName) =
      some r.inquiry.query := by
  obtain ⟨query, hquery, hq⟩ := Option.map_eq_some_iff.1 h.asked
  rw [← hq, ← hquery, Instrumentation.monitors, Instrumentation.excluding, List.length_map]

end Asks

/-! ### Histories -/

lemma Underway.isReachability (h : Underway l i rounds p) : i.query.isReachability = true := by
  induction h with
  | start hquery => exact hquery
  | again _ _ _ _ ih => exact ih

lemma Query.isReachability_reach (goals : List String) : (reach goals).isReachability = true := by
  have hinitial : ∀ rest : String, (⟨"E<> " ++ rest⟩ : Query).isReachability = true := by
    intro rest
    have hcut : Text.dropPrefix? "E<>".toList ("E<> " ++ rest).toList = some (' ' :: rest.toList) :=
      Text.dropPrefix?_eq_some_iff.2 (by simp)
    rw [isReachability, formula?, hcut]
    rfl
  unfold reach
  dsimp only
  split
  · exact hinitial "true"
  · exact hinitial _

lemma Inquiry.isReachability_ofRequest (clock : String) (req : Request) :
    (Inquiry.ofRequest clock req).query.isReachability = true :=
  Query.isReachability_reach _

/-- A query that asks whether a state is reachable can be restricted. -/
lemma Inquiry.isSome_round? (h : i.query.isReachability = true) (found : List Discovered) :
    (i.round? found).isSome := by
  simp only [Inquiry.round?, Option.isSome_map]
  generalize Instrumentation.monitors _ = monitors
  cases monitors with
  | nil => rfl
  | cons monitor monitors => rwa [Query.excluding, Option.isSome_map]

namespace Search

variable (s : Search) {limit : Option Nat} {n : Nat} {w : World}

/-- What a search comes to that goes on from where it stands. -/
lemma Explored.course {s : Search} {log : List Round} {result : (Option Answer × List Round) × World}
    (h : s.Explored l i n p log w result) (hlog : Underway l i log p) :
    Course l i (log.length + n) result.1.2 result.1.1 := by
  induction h with
  | enough henough => exact .enough hlog henough
  | spent hmore => exact ⟨rfl, _, hlog, hmore⟩
  | @unsupported n p log w _ hq =>
    have hasked := Inquiry.isSome_round? hlog.isReachability p.found
    rw [hq] at hasked
    cases hasked
  | refused hmore hq _ => exact .refused hlog ⟨hmore, hq, fun _ h => by cases h⟩ rfl
  | finished hmore hq hread hstep =>
    have hruns := s.readings_ne_nil (congrArg (·.1) hread)
    exact .finished hlog ⟨hmore, hq, fun _ h => Except.ok.inj h ▸ hruns⟩ rfl hstep
  | again hmore hq hread hstep _ ih =>
    have hruns := s.readings_ne_nil (congrArg (·.1) hread)
    have hrest := ih (.again hlog ⟨hmore, hq, fun _ h => Except.ok.inj h ▸ hruns⟩ rfl hstep)
    rwa [List.length_append, List.length_singleton, Nat.add_assoc, Nat.add_comm 1] at hrest

/-- The history of a search is its course. -/
theorem course_history (i : Inquiry) (limit : Option Nat) (n : Nat) (w : World) :
    Course ⟨limit, s.maxStale⟩ i n (s.history i limit n w) (s.findAll i limit n w).1 := by
  cases hquery : i.query.isReachability with
  | true =>
    rw [s.history_eq_exploreFrom hquery, s.findAll_eq_exploreFrom hquery]
    have hcourse := (s.explored ⟨limit, s.maxStale⟩ i n {} [] w).course (.start hquery)
    rwa [List.length_nil, Nat.zero_add] at hcourse
  | false =>
    simp only [history, findAllLogged, findAll, explore, hquery]
    exact .unsupported hquery

end Search

end TimedPatterns
