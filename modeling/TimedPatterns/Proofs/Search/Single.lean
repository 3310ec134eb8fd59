import TimedPatterns.Proofs.Search.Holding
import TimedPatterns.Proofs.Search.Limit

/-!
# Searches for one pattern

There are two ways to search for one pattern: a run that is asked directly, and an exhaustive search
that goes on until it has found one pattern. If both ask for the same kind of witness, they agree.
For the first round of an exhaustive search rules out nothing, so that its question is the one that
is asked directly; and with a limit of one pattern there is no second round, whatever comes of the
first one.
-/

namespace TimedPatterns

/-! ### Nothing is ruled out -/

namespace Instrumentation

variable {p : Instrumentation} (hp : p.excluded = []) (alphabet : List String)
include hp

lemma templates_excluding_nil : (p.excluding [] alphabet).templates = p.templates := by
  simp [templates, excluding, hp]

lemma isEmpty_excluding_nil : (p.excluding [] alphabet).isEmpty = p.isEmpty := by
  simp [isEmpty, excluding, hp]

lemma instrument_excluding_nil (model : String) :
    Model.instrument model (p.excluding [] alphabet) = Model.instrument model p := by
  simp only [Model.instrument, Model.instrumentChars, templates_excluding_nil hp]
  rfl

end Instrumentation

namespace Inquiry

/-- What an exhaustive search is asked: for signals, or by a query for a state to be reached. -/
inductive Enumerable (clock : String) : Inquiry → Prop
  | ofRequest (req : Request) : Enumerable clock (.ofRequest clock req)
  | ofQuery {query : Query} (hquery : query.isReachability = true)
      (focus : Option (List String)) : Enumerable clock (.ofQuery clock query focus)

variable {clock : String} {i : Inquiry}

lemma Enumerable.isReachability (hi : i.Enumerable clock) : i.query.isReachability = true := by
  cases hi with
  | ofRequest req => exact isReachability_ofRequest clock req
  | ofQuery hquery focus => exact hquery

lemma Enumerable.excluded (hi : i.Enumerable clock) : i.plan.excluded = [] := by
  cases hi <;> rfl

/-- The inquiry of the first round, in which nothing is ruled out. -/
def first (i : Inquiry) : Inquiry :=
  ⟨i.plan.excluding [] (exclusionAlphabet i.focus i.plan.observedAlphabet []), i.query, i.focus⟩

lemma round?_nil (i : Inquiry) : i.round? [] = some i.first := rfl

end Inquiry

/-! ### One run -/

/-- What a search for one pattern comes to, by what is contributed. -/
def Contribution.discovered (query : Query) : Contribution → Except SearchError Discovered
  | .pattern word => .ok ⟨query, word⟩
  | .unsatisfied => .error (.noPattern query.text)
  | .failed error => .error error

/-- What an exhaustive search with a limit of one pattern comes to, by what is contributed. -/
def Contribution.answer (query : Query) : Contribution → Answer
  | .pattern word => .ok [⟨query, word⟩]
  | .unsatisfied => .ok []
  | .failed error => .error error

namespace Search

variable {s : Search} {kind : Diagnostic} {i : Inquiry} {w : World}

lemma findOne_eq (s : Search) (i : Inquiry) :
    s.findOne i = (Except.bind · (·.discovered i.query)) <$> s.ask i := by
  funext w
  simp only [findOne, Session.bind_apply, Session.map_apply]
  rcases s.ask i w with ⟨error | word | _ | error, w'⟩ <;> rfl

/-- The first round asks once for each kind of witness. -/
lemma askAll_first (hkind : s.diagnostics = some [kind]) (hi : i.plan.excluded = []) :
    s.askAll i.first = Except.map (fun c => [c]) <$> s.ask i := by
  have hfirst : s.firstDiagnostic = kind := by rw [firstDiagnostic, hkind]; rfl
  have hround : s.roundDiagnostics = [kind] := by rw [roundDiagnostics, hkind]
  have hplan {α : Type} (use : String → Session (Except SearchError α)) :
      s.withModel i.first.plan use = s.withModel i.plan use := by
    simp only [withModel, Inquiry.first, Instrumentation.isEmpty_excluding_nil hi,
      Instrumentation.instrument_excluding_nil hi]
  funext w
  rw [askAll, ask, hplan, hround, hfirst]
  refine s.withModel_map (fun model w => ?_) w
  refine s.withRun_map (fun run w => ?_) w
  simp only [withRuns, Session.bind_apply, Session.map_apply, Session.pure_apply, List.map_cons,
    List.map_nil, Session.runBatch_eq, Session.runSequentially, List.mapM_cons, List.mapM_nil,
    List.zip_cons_cons, List.zip_nil_right]
  rfl

/-- With a limit of one pattern, the first round is the last one. -/
lemma findAll_one_eq (hkind : s.diagnostics = some [kind]) (hi : i.Enumerable s.clock) (n : Nat) :
    s.findAll i (some 1) (n + 1) =
      (fun asked => some (asked.bind (·.answer i.query))) <$> s.ask i := by
  funext w
  have hmore : Limits.reached ⟨some 1, s.maxStale⟩ ([] : List Discovered).length = false := rfl
  rw [findAll, explore, if_pos hi.isReachability, exploreFrom]
  simp only [hmore, Bool.false_eq_true, if_false, Inquiry.round?_nil,
    askAll_first hkind hi.excluded, Session.bind_apply, Session.map_apply]
  rcases s.ask i w with ⟨error | word | _ | error, w'⟩
  · rfl
  · exact congrFun (exploreFrom_of_reached rfl) w'
  · rfl
  · rfl

/-! ### Agreement -/

/-- It is said by an error that there is no pattern. -/
def SaysNone (query : String) : Except SearchError Contribution → Prop
  | .error error | .ok (.failed error) => error = .noPattern query
  | .ok (.pattern _) | .ok .unsatisfied => False

/-- A run says that there is no pattern by what it contributes, and never by an error. -/
lemma not_saysNone_ask (s : Search) (i : Inquiry) (w : World) (query : String) :
    ¬ SaysNone query (s.ask i w).1 := by
  have herror (error : SearchError) (hearly : error.IsEarly) : ¬ SaysNone query (.error error) := by
    rintro rfl
    exact hearly
  refine s.of_withModel (P := fun asked => ¬ SaysNone query asked) herror (fun model w => ?_) w
  refine s.of_withRun (P := fun asked => ¬ SaysNone query asked) herror (fun a w => ?_) w
  simp only [Session.bind_apply, Session.pure_apply, contribution_eq, Session.map_apply]
  generalize (s.reading _ _ _).1 = reading
  cases hc : reading.contribution i.focus with
  | pattern word => exact id
  | unsatisfied => exact id
  | failed error =>
    rintro rfl
    rcases Reading.contribution_eq_failed_iff.1 hc with ⟨_, -, h⟩ | ⟨_, -, h⟩ <;> cases h

/-- What two searches come to that agree, one for one pattern and an exhaustive one: both have found
the same pattern, both have found none, or both fail, with errors that are related. -/
inductive Matches (E : SearchError → SearchError → Prop) :
    Except SearchError Discovered → Option Answer → Prop
  | found (d : Discovered) : Matches E (.ok d) (some (.ok [d]))
  | none (query : String) : Matches E (.error (.noPattern query)) (some (.ok []))
  | failed {e e' : SearchError} (he : E e e') (hsome : ∀ query, e ≠ .noPattern query) :
      Matches E (.error e) (some (.error e'))

section Matches

variable {E : SearchError → SearchError → Prop} {x x' : Except SearchError Discovered}
  {answer : Option Answer}

lemma Matches.found_iff (h : Matches Eq x answer) (d : Discovered) :
    answer = some (.ok [d]) ↔ x = .ok d := by
  cases h with
  | found d' => simp
  | none query => simp
  | failed he hsome => simp

lemma Matches.none_iff (h : Matches Eq x answer) :
    answer = some (.ok []) ↔ ∃ query, x = .error (.noPattern query) := by
  cases h with
  | found d => simp
  | none query => simp
  | failed he hsome => simp [hsome]

lemma Matches.failed_iff (h : Matches Eq x answer) (e : SearchError) :
    answer = some (.error e) ↔ x = .error e ∧ ∀ query, e ≠ .noPattern query := by
  cases h with
  | found d => simp
  | none query =>
    refine iff_of_false nofun fun hquery => ?_
    exact hquery.2 query (Except.error.inj hquery.1).symm
  | failed he hsome =>
    subst he
    constructor
    · intro h
      obtain rfl := Except.error.inj (Option.some.inj h)
      exact ⟨rfl, hsome⟩
    · rintro ⟨h, -⟩
      rw [Except.error.inj h]

/-- A search that agrees with one of two searches agrees with the other one, if an error that says
that there is no pattern is related to itself only. -/
lemma Matches.of_agree
    (hE : ∀ e e', E e e' → ∀ query, e = .noPattern query ↔ e' = .noPattern query)
    (hx : Agree E Eq x x') (h : Matches Eq x' answer) : Matches E x answer := by
  cases hx with
  | @ok d d' heq =>
    subst heq
    cases h
    exact .found d
  | @error e e' he =>
    cases h with
    | none query =>
      obtain rfl := (hE _ _ he query).2 rfl
      exact .none query
    | failed heq hsome =>
      subst heq
      exact .failed he fun query hquery => hsome query ((hE _ _ he query).1 hquery)

end Matches

/-- The courses of two searches that agree, in which commands were run that are related. -/
structure Agreed (E : SearchError → SearchError → Prop) (R : Launched → Launched → Prop)
    (one : Except SearchError Discovered × World) (all : Option Answer × World) : Prop where
  result : Matches E one.1 all.1
  launched : List.Forall₂ R one.2.launched all.2.launched

/-- Both searches ask once in the same world, and leave the same world. -/
lemma matches_findAll_one (hkind : s.diagnostics = some [kind]) (hi : i.Enumerable s.clock)
    (n : Nat) (w : World) :
    Matches Eq (s.findOne i w).1 (s.findAll i (some 1) (n + 1) w).1 ∧
      (s.findAll i (some 1) (n + 1) w).2 = (s.findOne i w).2 := by
  rw [findOne_eq, findAll_one_eq hkind hi]
  refine ⟨?_, rfl⟩
  simp only [Session.map_apply]
  have hsome := s.not_saysNone_ask i w
  cases hasked : (s.ask i w).1 with
  | error error =>
    rw [hasked] at hsome
    exact .failed rfl hsome
  | ok c =>
    rw [hasked] at hsome
    cases c with
    | pattern word => exact .found ⟨i.query, word⟩
    | unsatisfied => exact .none i.query.text
    | failed error => exact .failed rfl hsome

/-! ### Other names of files -/

lemma mem_history_first (hi : i.Enumerable s.clock) (n : Nat) (w : World) :
    ⟨i.first, (s.readAll i.first w).1⟩ ∈ s.history i (some 1) (n + 1) w := by
  rw [s.history_eq_exploreFrom hi.isReachability]
  have hasked : [] ++ [⟨i.first, (s.readAll i.first w).1⟩] <+:
      (exploreFrom ⟨some 1, s.maxStale⟩ i s.askLogged (n + 1) {} [] w).1.2 :=
    s.asked_initial_exploreFrom rfl i.round?_nil
  exact hasked.subset List.mem_concat_self

/-- What is contributed to the first round is what is asked directly. -/
lemma exists_ask_eq (hkind : s.diagnostics = some [kind]) (hi : i.Enumerable s.clock)
    {readings : List Reading} (h : (s.readAll i.first w).1 = .ok readings) :
    ∃ c, (s.ask i w).1 = .ok c ∧ readings.map (·.contribution i.focus) = [c] := by
  have hfirst : (s.askAll i.first w).1 = .ok (readings.map (·.contribution i.focus)) := by
    rw [askAll_eq, Session.map_apply, h]
    rfl
  rw [askAll_first hkind hi.excluded, Session.map_apply] at hfirst
  cases hasked : (s.ask i w).1 with
  | error error =>
    rw [hasked] at hfirst
    cases hfirst
  | ok c =>
    rw [hasked] at hfirst
    exact ⟨c, rfl, (Except.ok.inj hfirst).symm⟩

/-- In two worlds in which the verifier looks at nothing but the kind of witness, the query and the
model, what is asked in one of them is what is asked in the other one, but for what errors say. -/
lemma exists_alike_ask (hkind : s.diagnostics = some [kind]) (hi : i.Enumerable s.clock) {n : Nat}
    {w' : World} {text : String} {answer : Diagnostic → String → Model.Outcome → Reply}
    (hw : ∀ r ∈ s.history i (some 1) (n + 1) w, s.AnsweredBy text answer r)
    (hw' : ∀ r ∈ s.history i (some 1) (n + 1) w', s.AnsweredBy text answer r) :
    ∃ c c', (s.ask i w).1 = .ok c ∧ (s.ask i w').1 = .ok c' ∧ c.Alike c' := by
  have hround := hw _ (mem_history_first hi n w)
  have hround' := hw' _ (mem_history_first hi n w')
  obtain ⟨readings, hread⟩ : ∃ readings, (s.readAll i.first w).1 = .ok readings := by
    cases hread : (s.readAll i.first w).1 with
    | ok readings => exact ⟨readings, rfl⟩
    | error error =>
      unfold AnsweredBy at hround
      rw [hread] at hround
      cases hround
  obtain ⟨readings', hread', hreplies⟩ := hround.alike s hround' rfl readings hread
  obtain ⟨c, hasked, hc⟩ := exists_ask_eq hkind hi hread
  obtain ⟨c', hasked', hc'⟩ := exists_ask_eq hkind hi hread'
  have halike := alike_contributions i.focus hreplies
  rw [hc, hc', List.forall₂_cons] at halike
  exact ⟨c, c', hasked, hasked', halike.1⟩

/-- A search for one pattern and an exhaustive search with a limit of one pattern agree, if they ask
for the same kind of witness: both find the same pattern with the same query, or there is none for
either, or both fail with the same error. They run the same commands, and leave the same world.

If the verifier ignores paths, this is also so if one of them holds its files and the other one does
not, but for the paths of files; and if it looks at nothing but the kind of witness, the query and
the model, then also in two worlds in which files have other names, but for what errors say. -/
theorem findAll_one_agrees (s : Search) {kind : Diagnostic} (hkind : s.diagnostics = some [kind])
    (i : Inquiry) (hi : i.Enumerable s.clock) (n : Nat) (w : World) :
    ((∀ d, (s.findAll i (some 1) (n + 1) w).1 = some (.ok [d]) ↔ (s.findOne i w).1 = .ok d) ∧
      ((s.findAll i (some 1) (n + 1) w).1 = some (.ok []) ↔
        ∃ query, (s.findOne i w).1 = .error (.noPattern query)) ∧
      (∀ e, (s.findAll i (some 1) (n + 1) w).1 = some (.error e) ↔
        (s.findOne i w).1 = .error e ∧ ∀ query, e ≠ .noPattern query) ∧
      (s.findAll i (some 1) (n + 1) w).2 = (s.findOne i w).2) ∧
    (∀ content, w.behaviour.IgnoresPaths s.settings → w.files.read s.model = .ok content →
      (s.layout w 3).Room →
      Agreed (fun e e' => e.Twin s.directory w.scratch e')
          (fun l l' => l.Twin s.directory w.scratch l') ({ s with hold := true }.findOne i w)
          ({ s with hold := false }.findAll i (some 1) (n + 1) w) ∧
        Agreed (fun e e' => e'.Twin s.directory w.scratch e)
          (fun l l' => l'.Twin s.directory w.scratch l) ({ s with hold := false }.findOne i w)
          ({ s with hold := true }.findAll i (some 1) (n + 1) w)) ∧
    ∀ (w' : World) (text : String) (answer : Diagnostic → String → Model.Outcome → Reply),
      (∀ r ∈ s.history i (some 1) (n + 1) w, s.AnsweredBy text answer r) →
      (∀ r ∈ s.history i (some 1) (n + 1) w', s.AnsweredBy text answer r) →
      Matches (fun _ _ => True) (s.findOne i w).1 (s.findAll i (some 1) (n + 1) w').1 := by
  have hsame (hold : Bool) := matches_findAll_one (s := { s with hold }) (i := i) hkind hi n w
  refine ⟨?_, fun content hblind hmodel hroom => ?_, fun w' text answer hw hw' => ?_⟩
  · obtain ⟨hmatches, hworld⟩ := matches_findAll_one hkind hi n w
    exact ⟨hmatches.found_iff, hmatches.none_iff, hmatches.failed_iff, hworld⟩
  · -- holding does not change the answer, and with either mode the enumeration agrees with the
    -- search for one pattern
    have htwin := (sync_findOne hroom hblind hmodel i).alike layout_proper hroom
    obtain ⟨hheld, hworld⟩ := hsame true
    obtain ⟨hbrief, hworld'⟩ := hsame false
    refine ⟨⟨?_, ?_⟩, ⟨?_, ?_⟩⟩
    · exact hbrief.of_agree (fun e e' he query => he.eq_noPattern_iff) htwin.result
    · rw [hworld']
      exact htwin.launched
    · exact hheld.of_agree (fun e e' he query => he.eq_noPattern_iff.symm) htwin.result.symm
    · rw [hworld]
      exact htwin.launched.flip
  · obtain ⟨c, c', hasked, hasked', halike⟩ := exists_alike_ask hkind hi hw hw'
    rw [findOne_eq, findAll_one_eq hkind hi, Session.map_apply, Session.map_apply, hasked, hasked']
    have hsome := s.not_saysNone_ask i w
    rw [hasked] at hsome
    cases halike with
    | pattern word => exact .found ⟨i.query, word⟩
    | unsatisfied => exact .none i.query.text
    | failed error error' => exact .failed trivial hsome

end Search

namespace Sample

def refutingRuns : List RecordedRun :=
  [⟨some 0, false, .text "Formula is NOT satisfied", .text "", none⟩]

end Sample

/-- In the sample, both searches find the pattern, also if only one of them holds its files and in a
world in which files have other names; and neither of them finds one if there is none. -/
theorem Search.agrees_sample :
    (Sample.compactSearch.findAll Sample.compactInquiry (some 1) 1
        (Sample.compactWorld Sample.compactRuns)).1 = some (.ok [Sample.compactPattern]) ∧
      Matches (fun e e' => e'.Twin "." "/tmp" e) (.ok Sample.compactPattern)
        ({ Sample.compactSearch with hold := true }.findAll Sample.compactInquiry (some 1) 1
          (Sample.compactWorld Sample.compactRuns)).1 ∧
      (Sample.compactSearch.findAll Sample.compactInquiry (some 1) 1
        (Sample.compactWorld Sample.refutingRuns)).1 = some (.ok []) ∧
      Matches (fun _ _ => True) (.ok ⟨⟨"E<> true"⟩, ⟨[⟨"a", 0, -1⟩]⟩⟩)
        (Sample.search.findAll (.ofRequest Sample.search.clock (Sample.request none)) (some 1) 1
          Sample.laterWorld).1 := by
  have hfound : (Sample.compactSearch.findOne Sample.compactInquiry
      (Sample.compactWorld Sample.compactRuns)).1 = .ok Sample.compactPattern := by
    decide +kernel
  have hnone : (Sample.compactSearch.findOne Sample.compactInquiry
      (Sample.compactWorld Sample.refutingRuns)).1 = .error (.noPattern "E<> true") := by
    decide +kernel
  have hsteady : (Sample.search.findOne (.ofRequest Sample.search.clock (Sample.request none))
      Sample.steadyWorld).1 = .ok ⟨⟨"E<> true"⟩, ⟨[⟨"a", 0, -1⟩]⟩⟩ := by
    decide +kernel
  have hfirst : ∀ r ∈ Sample.search.history
      (.ofRequest Sample.search.clock (Sample.request none)) (some 1) 1 Sample.steadyWorld,
      Sample.search.AnsweredBy "<nta></nta>" Sample.reply r := by
    decide +kernel
  have hlater : ∀ r ∈ Sample.search.history
      (.ofRequest Sample.search.clock (Sample.request none)) (some 1) 1 Sample.laterWorld,
      Sample.search.AnsweredBy "<nta></nta>" Sample.reply r := by
    decide +kernel
  have hblind := Behaviour.ignoresPaths_playBack Sample.compactSearch.settings Sample.compactRuns
  have hmodel : (Sample.compactWorld Sample.compactRuns).files.read "m.xml" =
      .ok (.text "<nta><system>system P;</system></nta>") := by
    decide +kernel
  -- a pattern that is found, none, and one that is found in another world
  obtain ⟨⟨hone, -⟩, hhold, -⟩ := Search.findAll_one_agrees Sample.compactSearch rfl
    Sample.compactInquiry (.ofRequest _) 0 (Sample.compactWorld Sample.compactRuns)
  obtain ⟨⟨-, hempty, -⟩, -⟩ := Search.findAll_one_agrees Sample.compactSearch rfl
    Sample.compactInquiry (.ofRequest _) 0 (Sample.compactWorld Sample.refutingRuns)
  obtain ⟨-, -, hnames⟩ := Search.findAll_one_agrees Sample.search rfl
    (.ofRequest Sample.search.clock (Sample.request none)) (.ofRequest _) 0 Sample.steadyWorld
  have hheld := (hhold _ hblind hmodel (Sample.room_search _)).2.result
  have hother := hnames _ _ _ hfirst hlater
  rw [hsteady] at hother
  rw [show { Sample.compactSearch with hold := false } = Sample.compactSearch from rfl,
    hfound] at hheld
  exact ⟨(hone _).2 hfound, hheld, hempty.2 ⟨_, hnone⟩, hother⟩

end TimedPatterns
