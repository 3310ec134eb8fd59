import TimedPatterns.Proofs.Instrumentation.Monitors
import TimedPatterns.Proofs.Search.Course
import TimedPatterns.Recording

/-!
# Where patterns come from

The patterns that a search ends with are explained by its rounds. There are at most as many as
were asked for, and no two have the same labels. Each of them was shown by a run of one round, and
what a run shows is kept unless there are enough patterns already.

A pattern is numbered by its place among the others. The query that is kept with it excludes the
monitors of the patterns of earlier rounds, which are the first ones, and in every later round the
monitor with its number is its own.
-/

namespace TimedPatterns

/-! ### Numbers -/

/-- The patterns that are found before the round at a place. -/
def foundBefore (l : Limits) (rounds : List Round) (place : Nat) : List Discovered :=
  patternsOf l (rounds.take place)

/-- The rounds in which patterns are found, which `origin` gives for each number. -/
structure Origin (l : Limits) (i : Inquiry) (rounds : List Round) (found : List Discovered)
    (origin : Nat → Nat) : Prop where
  monotone : Monotone origin
  /-- The number of patterns of earlier rounds does not decrease. -/
  monotone_length : Monotone fun j => (foundBefore l rounds (origin j)).length
  /-- What is found before a round are the first patterns. -/
  first : ∀ place, foundBefore l rounds place <+: found
  /-- A pattern is found behind its round, and not before it. -/
  found_in : ∀ j < found.length, (foundBefore l rounds (origin j)).length ≤ j ∧
    j < (foundBefore l rounds (origin j + 1)).length
  /-- A run of the round shows the pattern, and asks its query. -/
  shown : ∀ j d, found[j]? = some d → ∃ r, rounds[origin j]? = some r ∧ r.inquiry.query = d.query ∧
    ∃ reading ∈ r.readings, ∃ trace, reading.Shows trace ∧
      d.pattern = (trace.focus i.focus).toTimedWord
  /-- The query excludes the monitors of the patterns of earlier rounds. -/
  query_eq : ∀ j d, found[j]? = some d →
    i.query.excluding ((List.range (foundBefore l rounds (origin j)).length).map
      Template.monitorName) = some d.query
  /-- The monitor with the number of a pattern is its own in every later round. -/
  monitor : ∀ j d, found[j]? = some d → ∀ place r, origin j < place → rounds[place]? = some r →
    r.inquiry.plan.monitor? j =
      some (.monitor j d.pattern.actions r.inquiry.plan.exclusionAlphabet)

/-- Some patterns are those that a search finds in some rounds. -/
structure Explains (l : Limits) (i : Inquiry) (rounds : List Round) (found : List Discovered) :
    Prop where
  length_le : ∀ max, l.patterns = some max → found.length ≤ max
  nodup : (labelsOf found).Nodup
  /-- Every pattern is the focus of a trace that a run shows. -/
  shown : ∀ d ∈ found, ∃ r ∈ rounds, ∃ reading ∈ r.readings, ∃ trace, reading.Shows trace ∧
    d.pattern = (trace.focus i.focus).toTimedWord
  /-- The labels that a run shows are found, unless there are enough patterns. -/
  kept : ∀ r ∈ rounds, ∀ reading ∈ r.readings, ∀ trace, reading.Shows trace →
    (trace.focus i.focus).toTimedWord.actions ∈ labelsOf found ∨ l.patterns = some found.length
  numbered : ∃ origin, Origin l i rounds found origin

variable {l : Limits} {i : Inquiry} {rounds before after : List Round} {r : Round}
  {found : List Discovered}

/-! ### Runs -/

lemma Round.mem_contributions_iff {word : TimedWord} :
    .pattern word ∈ r.contributions ↔ ∃ reading ∈ r.readings, ∃ trace, reading.Shows trace ∧
      word = (trace.focus r.inquiry.focus).toTimedWord := by
  simp only [contributions, List.mem_map, Reading.contribution_eq_pattern_iff]

/-- What a run of a round shows is found behind the round, unless there are enough patterns. -/
lemma reached_or_mem_of_shows (l : Limits) (before : List Round) {reading : Reading}
    {trace : Trace} (hreading : reading ∈ r.readings) (hshows : reading.Shows trace) :
    l.reached (patternsOf l (before ++ [r])).length = true ∨
      (trace.focus r.inquiry.focus).toTimedWord.actions ∈
        labelsOf (patternsOf l (before ++ [r])) := by
  rw [patternsOf_append_singleton, Tally.ofRound_eq_addAll]
  exact Tally.reached_or_mem_labelsOf l r.inquiry.query _
    (Round.mem_contributions_iff.2 ⟨reading, hreading, trace, hshows, rfl⟩)

/-! ### The round of a pattern -/

lemma foundBefore_initial (l : Limits) (rounds : List Round) (place : Nat) :
    foundBefore l rounds place <+: patternsOf l rounds :=
  patternsOf_mono (List.take_prefix _ _)

lemma foundBefore_mono (l : Limits) (rounds : List Round) {place place' : Nat}
    (h : place ≤ place') :
    (foundBefore l rounds place).length ≤ (foundBefore l rounds place').length :=
  (patternsOf_mono (List.take_prefix_take_left h)).length_le

lemma foundBefore_succ {place : Nat} (h : rounds[place]? = some r) :
    foundBefore l rounds (place + 1) = patternsOf l (rounds.take place ++ [r]) := by
  rw [foundBefore, List.take_add_one, h, Option.toList_some]

/-- Every pattern that is found before a round is found in an earlier one. -/
lemma exists_place_of_lt {place j : Nat} (h : j < (foundBefore l rounds place).length) :
    ∃ place' < place, (foundBefore l rounds place').length ≤ j ∧
      j < (foundBefore l rounds (place' + 1)).length := by
  induction place with
  | zero => exact absurd h (Nat.not_lt_zero j)
  | succ place ih =>
    by_cases hlt : j < (foundBefore l rounds place).length
    · obtain ⟨place', hplace, hfound⟩ := ih hlt
      exact ⟨place', hplace.trans (Nat.lt_succ_self place), hfound⟩
    · exact ⟨place, Nat.lt_succ_self place, Nat.le_of_not_lt hlt, h⟩

/-- The rounds of the patterns are in the order of the patterns. -/
lemma exists_monotone_places (l : Limits) (rounds : List Round) :
    ∃ origin : Nat → Nat, Monotone origin ∧ ∀ j < (patternsOf l rounds).length,
      origin j < rounds.length ∧ (foundBefore l rounds (origin j)).length ≤ j ∧
        j < (foundBefore l rounds (origin j + 1)).length := by
  have hall : foundBefore l rounds rounds.length = patternsOf l rounds := by
    rw [foundBefore, List.take_length]
  rw [← hall]
  choose! place hlt hle hbehind using
    fun j (h : j < (foundBefore l rounds rounds.length).length) => exists_place_of_lt h
  -- behind the patterns found any place will do, as long as the places keep growing
  let origin := fun j =>
    if j < (foundBefore l rounds rounds.length).length then place j else rounds.length
  have horigin : ∀ j < (foundBefore l rounds rounds.length).length, origin j = place j :=
    fun j hj => if_pos hj
  refine ⟨origin, ?_, ?_⟩
  · intro j k hjk
    by_cases hk : k < (foundBefore l rounds rounds.length).length
    · have hj := hjk.trans_lt hk
      rw [horigin j hj, horigin k hk]
      -- a later pattern from an earlier round would have been found before the other
      by_contra hback
      have hmono := foundBefore_mono l rounds (Nat.lt_of_not_le hback)
      have hbefore := (hbehind k hk).trans_le (hmono.trans (hle j hj))
      exact absurd hjk (Nat.not_le_of_lt hbefore)
    · rw [show origin k = rounds.length from if_neg hk]
      by_cases hj : j < (foundBefore l rounds rounds.length).length
      · rw [horigin j hj]
        exact (hlt j hj).le
      · exact (if_neg hj).le
  · intro j hj
    rw [horigin j hj]
    exact ⟨hlt j hj, hle j hj, hbehind j hj⟩

/-- What is found in a round was shown by one of its runs. -/
lemma shown_of_foundBefore {place j : Nat} {d : Discovered} (hr : rounds[place]? = some r)
    (hle : (foundBefore l rounds place).length ≤ j)
    (hlt : j < (foundBefore l rounds (place + 1)).length)
    (hj : (patternsOf l rounds)[j]? = some d) :
    d.query = r.inquiry.query ∧ ∃ reading ∈ r.readings, ∃ trace, reading.Shows trace ∧
      d.pattern = (trace.focus r.inquiry.focus).toTimedWord := by
  have hbehind : (foundBefore l rounds (place + 1))[j]? = some d := by
    rw [List.getElem?_eq_getElem hlt, (foundBefore_initial l rounds _).getElem hlt,
      ← List.getElem?_eq_getElem, hj]
  obtain ⟨fresh, hfresh, hmem⟩ := Tally.exists_fresh l r.inquiry.query
    { found := foundBefore l rounds place } r.contributions
  rw [foundBefore_succ hr, patternsOf_append_singleton, Tally.ofRound_eq_addAll, ← foundBefore,
    hfresh, List.getElem?_append_right hle] at hbehind
  obtain ⟨hquery, hpattern⟩ := hmem d (List.mem_of_getElem? hbehind)
  exact ⟨hquery, Round.mem_contributions_iff.1 hpattern⟩

/-! ### Explanations -/

namespace Carried

variable (h : Carried l i rounds)

include h

/-- What a search asks in the round at a place. -/
lemma exists_asks {place : Nat} (hr : rounds[place]? = some r) :
    ∃ p, Underway l i (rounds.take place) p ∧ Asks l i p r := by
  obtain ⟨hlt, rfl⟩ := List.getElem?_eq_some_iff.1 hr
  exact h (rounds.take place) rounds[place] (rounds.drop (place + 1)) (by simp)

/-- Each pattern has its round. -/
lemma exists_origin : ∃ origin, Origin l i rounds (patternsOf l rounds) origin := by
  obtain ⟨origin, hmono, hplaces⟩ := exists_monotone_places l rounds
  have hround : ∀ j d, (patternsOf l rounds)[j]? = some d → ∃ r p,
      rounds[origin j]? = some r ∧ Asks l i p r ∧ p.found = foundBefore l rounds (origin j) ∧
        d.query = r.inquiry.query ∧ ∃ reading ∈ r.readings, ∃ trace, reading.Shows trace ∧
          d.pattern = (trace.focus r.inquiry.focus).toTimedWord := by
    intro j d hj
    obtain ⟨hin, hle, hbehind⟩ := hplaces j (List.getElem?_eq_some_iff.1 hj).1
    have hr := List.getElem?_eq_getElem hin
    obtain ⟨p, hunderway, hasks⟩ := h.exists_asks hr
    exact ⟨_, p, hr, hasks, hunderway.found_eq, shown_of_foundBefore hr hle hbehind hj⟩
  refine ⟨origin, ⟨hmono, fun j k hjk => foundBefore_mono l rounds (hmono hjk),
    foundBefore_initial l rounds, fun j hj => (hplaces j hj).2, ?_, ?_, ?_⟩⟩
  · intro j d hj
    obtain ⟨r, p, hr, hasks, -, hquery, hshown⟩ := hround j d hj
    rw [hasks.focus_eq] at hshown
    exact ⟨r, hr, hquery.symm, hshown⟩
  · intro j d hj
    obtain ⟨r, p, -, hasks, hp, hquery, -⟩ := hround j d hj
    rw [hquery, ← hp]
    exact hasks.query_eq
  · intro j d hj place r hlater hr
    obtain ⟨p, hunderway, hasks⟩ := h.exists_asks hr
    have hp : p.found = foundBefore l rounds place := hunderway.found_eq
    have hlt : j < (foundBefore l rounds place).length :=
      (hplaces j (List.getElem?_eq_some_iff.1 hj).1).2.2.trans_le (foundBefore_mono l rounds hlater)
    have hfound : (foundBefore l rounds place)[j]? = some d := by
      rw [List.getElem?_eq_getElem hlt, (foundBefore_initial l rounds _).getElem hlt,
        ← List.getElem?_eq_getElem, hj]
    -- the monitors of a round are one for each pattern found before it, in their order
    apply Instrumentation.monitor?_eq_some
    rw [hasks.plan_eq, hp, Instrumentation.excluding, labelsOf, List.getElem?_map, hfound]
    rfl

/-- Each pattern was shown by a run. -/
lemma shown {d : Discovered} (hd : d ∈ patternsOf l rounds) :
    ∃ r ∈ rounds, ∃ reading ∈ r.readings, ∃ trace, reading.Shows trace ∧
      d.pattern = (trace.focus i.focus).toTimedWord := by
  obtain ⟨origin, horigin⟩ := h.exists_origin
  obtain ⟨j, hj⟩ := List.mem_iff_getElem?.1 hd
  obtain ⟨r, hr, -, hshown⟩ := horigin.shown j d hj
  exact ⟨r, List.mem_of_getElem? hr, hshown⟩

/-- What a run shows is found, unless there are enough patterns. -/
lemma kept {reading : Reading} {trace : Trace} (hr : r ∈ rounds) (hreading : reading ∈ r.readings)
    (hshows : reading.Shows trace) :
    (trace.focus i.focus).toTimedWord.actions ∈ labelsOf (patternsOf l rounds) ∨
      l.patterns = some (patternsOf l rounds).length := by
  obtain ⟨before, after, hcut⟩ := List.append_of_mem hr
  obtain ⟨p, -, hasks⟩ := h before r after hcut
  have hinitial : patternsOf l (before ++ [r]) <+: patternsOf l rounds :=
    patternsOf_mono ⟨after, by simp [hcut]⟩
  rcases reached_or_mem_of_shows l before hreading hshows with
    henough | hfound
  · obtain ⟨max, hmax, hle⟩ := Limits.reached_iff.1 henough
    have hfull := hle.trans hinitial.length_le
    rw [hmax, Nat.le_antisymm hfull (length_patternsOf_le hmax rounds)]
    exact .inr rfl
  · rw [hasks.focus_eq] at hfound
    exact .inl ((hinitial.map _).subset hfound)

/-- What is found in some rounds is explained by them. -/
lemma explains : Explains l i rounds (patternsOf l rounds) where
  length_le _ hmax := length_patternsOf_le hmax rounds
  nodup := nodup_patternsOf l rounds
  shown _ hd := h.shown hd
  kept _ hr _ hreading _ hshows := h.kept hr hreading hshows
  numbered := h.exists_origin

end Carried

/-- What an exhaustive search finds is explained by its history, whatever the verifier does. -/
theorem Search.explains_findAll (s : Search) (i : Inquiry) (limit : Option Nat) (n : Nat)
    (w : World) (found : List Discovered) (h : (s.findAll i limit n w).1 = some (.ok found)) :
    Explains ⟨limit, s.maxStale⟩ i (s.history i limit n w) found := by
  have hcourse := s.course_history i limit n w
  rw [h] at hcourse
  obtain rfl := Ended.found_eq hcourse
  exact hcourse.carried.explains

/-! ### Checking -/

/-- Whether a run is one of an ideal verifier for the words of a list, if the alphabet covers the
patterns that are excluded. -/
def Reading.isIdeal (words : List (List String)) (plan : Instrumentation) (r : Reading) : Bool :=
  match r.witness with
  | some (.ok trace) => trace.actions ∈ words &&
      trace.actions.filter (· ∈ plan.exclusionAlphabet) ∉ plan.excluded
  | some (.error _) => false
  | none => r.verdict = .notSatisfied &&
      words.all fun w => w.filter (· ∈ plan.exclusionAlphabet) ∈ plan.excluded

def Round.isIdeal (words : List (List String)) (r : Round) : Bool :=
  match r.answer with
  | .ok readings => readings.all (·.isIdeal words r.inquiry.plan)
  | .error _ => false

/-! ### A sample -/

namespace Sample

/-- A trace with one transition on `a`. -/
def trace : String :=
  "<trace><location id=\"l\"/><edge id=\"e\" from=\"l\" to=\"l\" sync=\"a!\"/><node id=\"n\"/>"
    ++ "<transition to=\"n\" edges=\"e\"/></trace>"

/-- A verifier that shows the trace in its first run, and nothing later. -/
def verifier : Behaviour := fun launched c _ _ =>
  if launched.isEmpty then
    .ok { status := some 0, stdout := .text "Formula is satisfied",
          writes := [((c.arguments[3]?).getD "" ++ "-1.xml", .text trace)] }
  else .ok { status := some 0, stdout := .text "Formula is NOT satisfied" }

def world : World where
  files := ⟨[(["m.xml"], .file (.text "<nta><system>system P;</system></nta>")),
    (["tmp"], .directory)], []⟩
  behaviour := verifier
  processId := 1

/-- A search of the model, for one kind of witness. -/
def search : Search where
  settings := ⟨"verifier", "tracer", none, .xml⟩
  model := "m.xml"
  diagnostics := some [.shortest]

/-- Ask for every run, without signals. -/
def request (focus : Option (List String)) : Request := ⟨⟨[]⟩, ⟨[]⟩, none, focus⟩

def patterns : List Discovered := [⟨⟨"E<> true"⟩, ⟨[⟨"a", 0, -1⟩]⟩⟩]

lemma findAll_eq : (search.findAll (.ofRequest search.clock (request none)) none 3 world).1 =
    some (.ok patterns) := by
  decide +kernel

/-- The label that a verifier shows which looks at nothing but the query. -/
def label? (query : String) : Option String :=
  if query = "E<> true" then some "a"
  else if query = "E<> true && !PatternMonitor0.pass" then some "b"
  else none

/-- A listing of a run with one transition on each of some labels. -/
def listingThrough (labels : List String) : String :=
  "State:\n" ++ String.join (labels.map fun label =>
    s!"Transitions:\nP.l->P.l\x7b{label}!\x7d\nState:\n")

/-- The text of the file at the end of a command. -/
def textOfLast (c : Command) (files : Files) : String :=
  (files.readText ((c.arguments.getLast?).getD "")).toOption.getD ""

/-- A verifier with `c` in its witnesses, as long as it is not asked for shortest ones. As the
companion, it prints the witness as it is. -/
def roundaboutVerifier : Behaviour := fun _ c _ files =>
  match RecordedRun.witnessPath? c, label? (textOfLast c files) with
  | none, _ => .ok { status := some 0, stdout := .text (textOfLast c files) }
  | some path, some label =>
    let labels := if c.arguments[1]? = some Diagnostic.shortest.value then [label] else ["c", label]
    .ok { status := some 0, stdout := .text "Formula is satisfied",
          writes := [(path, .text (listingThrough labels))] }
  | some _, none => .ok { status := some 0, stdout := .text "Formula is NOT satisfied" }

def roundaboutWorld : World := { world with behaviour := roundaboutVerifier }

/-- A search of the model for two kinds of witnesses, which are listings. -/
def pairedSearch : Search where
  settings := ⟨"verifier", "tracer", none, .xtr⟩
  model := "m.xml"
  diagnostics := some [.any, .shortest]

/-- Ask for every run, with two labels in focus. -/
def pairedInquiry : Inquiry := .ofRequest pairedSearch.clock (request (some ["a", "b"]))

/-- Both patterns that are shown. -/
def bothPatterns : List Discovered :=
  [⟨⟨"E<> true"⟩, ⟨[⟨"a", 0, -1⟩]⟩⟩,
    ⟨⟨"E<> true && !PatternMonitor0.pass"⟩, ⟨[⟨"b", 0, -1⟩]⟩⟩]

/-- The words of which the verifier shows one. -/
def roundaboutWords : List (List String) := [["c", "a"], ["a"], ["c", "b"], ["b"]]

/-- The search finds both patterns in three rounds, in which the verifier is an ideal one. -/
lemma pairedSearch_run :
    (pairedSearch.findAll pairedInquiry none 3 roundaboutWorld).1 = some (.ok bothPatterns) ∧
      (pairedSearch.history pairedInquiry none 3 roundaboutWorld).length = 3 ∧
      (pairedSearch.history pairedInquiry none 3 roundaboutWorld).all
        (·.isIdeal roundaboutWords) = true := by
  rw [← pairedSearch.answer_findAllLogged]
  decide +kernel

end Sample

/-- With two kinds of witnesses and a focus, the search of the sample ends with one pattern of its
first round and one of its second round, each of which is shown twice. Its history explains them. -/
theorem Search.explains_sample :
    (Sample.pairedSearch.findAll Sample.pairedInquiry none 3 Sample.roundaboutWorld).1 =
        some (.ok Sample.bothPatterns) ∧
      Explains ⟨none, Sample.pairedSearch.maxStale⟩ Sample.pairedInquiry
        (Sample.pairedSearch.history Sample.pairedInquiry none 3 Sample.roundaboutWorld)
        Sample.bothPatterns :=
  ⟨Sample.pairedSearch_run.1,
    Search.explains_findAll Sample.pairedSearch _ none 3 Sample.roundaboutWorld _
      Sample.pairedSearch_run.1⟩

end TimedPatterns
