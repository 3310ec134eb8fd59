import TimedPatterns.Proofs.Template.Observer

/-!
# Templates that send

A template that sends is a process of its own. It waits in a location, as long as the invariant
holds, or takes an edge that sends a label, if the guard of the edge and the invariant of its target
hold. The clock goes on while it waits, and is never set back.

The input of a signal goes from action to action. Its guards keep an action in its interval, and its
invariants keep it from waiting until the interval is over. A run that comes to the end has met the
guards, and with them the invariants.
-/

namespace TimedPatterns.Template

variable {Time : Type*} [Preorder Time] [IntCast Time] {t : Template} {clock : String}
  {word : TimedWord} {p q : Nat} {v : Time} {s : TimedAction} {edge : TemplateEdge} {label : String}
  {events : List (Event Time)}

/-! ### Processes -/

/-- The location of a process, and the value of the clock. -/
structure Moment (Time : Type*) where
  position : Nat
  time : Time

/-- The invariant of the location holds. -/
def Invariant (t : Template) (clock : String) (m : Moment Time) : Prop :=
  GuardHolds clock m.time ((t.locations[m.position]?).bind (·.invariant))

/-- An edge may be taken to send a label. -/
structure Sends (t : Template) (clock : String) (m : Moment Time) (label : String)
    (edge : TemplateEdge) : Prop where
  mem : edge ∈ t.edges
  source : edge.source = m.position
  sync : edge.sync = label ++ "!"
  guard : GuardHolds clock m.time edge.guard
  invariant : t.Invariant clock ⟨edge.target, m.time⟩

/-- What a process does from one moment to another: it waits, and it sends the given events. -/
inductive Performs (t : Template) (clock : String) :
    Moment Time → List (Event Time) → Moment Time → Prop
  | stop (m : Moment Time) : Performs t clock m [] m
  | wait {p : Nat} {v v' : Time} {events : List (Event Time)} {m : Moment Time} (hle : v ≤ v')
      (hinvariant : ∀ u, v ≤ u → u ≤ v' → t.Invariant clock ⟨p, u⟩)
      (h : Performs t clock ⟨p, v'⟩ events m) : Performs t clock ⟨p, v⟩ events m
  | send {p : Nat} {v : Time} {label : String} {edge : TemplateEdge} {events : List (Event Time)}
      {m : Moment Time} (hsends : t.Sends clock ⟨p, v⟩ label edge)
      (h : Performs t clock ⟨edge.target, v⟩ events m) :
      Performs t clock ⟨p, v⟩ (⟨label, v⟩ :: events) m

/-- The invariant holds throughout. -/
lemma Performs.invariant {m m' : Moment Time} (h : t.Performs clock m events m')
    (hm : t.Invariant clock m) : t.Invariant clock m' := by
  induction h with
  | stop m => exact hm
  | wait hle hinvariant _ ih => exact ih (hinvariant _ hle le_rfl)
  | send hsends _ ih => exact ih hsends.invariant

/-- The template without its invariants. -/
def unhurried (t : Template) : Template :=
  { t with locations := t.locations.map fun l => { l with invariant := none } }

@[simp] lemma edges_unhurried : t.unhurried.edges = t.edges := rfl

@[simp] lemma nameAt?_unhurried : t.unhurried.nameAt? p = t.nameAt? p := by
  simp [nameAt?, unhurried, Function.comp_def]

lemma invariant_unhurried (m : Moment Time) : t.unhurried.Invariant clock m := by
  unfold Invariant unhurried
  rw [List.getElem?_map]
  cases t.locations[m.position]? <;> exact trivial

/-- Without invariants, a process can do all that it can do with them. -/
lemma Performs.unhurried {m m' : Moment Time} (h : t.Performs clock m events m') :
    t.unhurried.Performs clock m events m' := by
  induction h with
  | stop m => exact .stop m
  | wait hle _ _ ih => exact .wait hle (fun u _ _ => invariant_unhurried _) ih
  | send hsends _ ih =>
    exact .send ⟨hsends.mem, hsends.source, hsends.sync, hsends.guard, invariant_unhurried _⟩ ih

section Runs

variable [Zero Time]

/-- A run begins in the first location with the clock at zero. -/
structure IsRun (t : Template) (clock : String) (events : List (Event Time)) (m : Moment Time) :
    Prop where
  invariant : t.Invariant clock (⟨0, 0⟩ : Moment Time)
  performs : t.Performs clock ⟨0, 0⟩ events m

/-- A run that sends the given events may end in the location `done`. -/
def Completes (t : Template) (clock : String) (events : List (Event Time)) : Prop :=
  ∃ m, t.IsRun clock events m ∧ t.nameAt? m.position = some "done"

lemma Completes.unhurried (h : t.Completes clock events) : t.unhurried.Completes clock events := by
  obtain ⟨m, hrun, hdone⟩ := h
  exact ⟨m, ⟨invariant_unhurried _, hrun.performs.unhurried⟩, nameAt?_unhurried.trans hdone⟩

end Runs

/-! ### Chains that send -/

/-- Of a chain, an edge may be taken to send the label of the action at which the process stands. -/
lemma Sends.of_chain (h : t.Sends clock ⟨p, v⟩ label edge)
    (hedges : t.edges = chainEdges "!" clock word) :
    ∃ s, word.steps[p]? = some s ∧ s.Matches ⟨label, v⟩ ∧ edge.target = p + 1 := by
  obtain ⟨hmem, hsource, hsync, hguard, -⟩ := h
  rw [hedges] at hmem
  obtain ⟨i, s, hs, rfl⟩ := mem_chainEdges.1 hmem
  obtain rfl : i = p := hsource
  obtain rfl : s.action = label := (String.append_left_inj _).1 hsync
  exact ⟨s, hs, ⟨rfl, guardHolds_guard?_iff.1 hguard⟩, rfl⟩

/-- What a chain sends are the next actions, in their intervals and one after the other. -/
lemma Performs.of_chain {m m' : Moment Time} (h : t.Performs clock m events m')
    (hedges : t.edges = chainEdges "!" clock word) :
    m'.position = m.position + events.length ∧
      List.Forall₂ TimedAction.Matches ((word.steps.drop m.position).take events.length) events ∧
      (m.time :: events.map (·.time)).Pairwise (· ≤ ·) := by
  -- on the run; waiting moves the time on, and an event the position by one edge of the chain
  induction h with
  | stop m => exact ⟨rfl, by simp, by simp⟩
  | wait hle _ _ ih =>
    obtain ⟨hposition, hmatches, hsorted⟩ := ih
    obtain ⟨hlater, hsorted⟩ := List.pairwise_cons.1 hsorted
    exact ⟨hposition, hmatches,
      List.pairwise_cons.2 ⟨fun u hu => hle.trans (hlater u hu), hsorted⟩⟩
  | @send p v label edge events m hsends _ ih =>
    obtain ⟨s, hs, hmatch, htarget⟩ := hsends.of_chain hedges
    obtain ⟨hposition, hmatches, hsorted⟩ := ih
    rw [htarget] at hposition hmatches
    obtain ⟨hlt, rfl⟩ := List.getElem?_eq_some_iff.1 hs
    refine ⟨?_, ?_, List.pairwise_cons.2 ⟨?_, hsorted⟩⟩
    · rw [hposition, List.length_cons, Nat.add_assoc, Nat.add_comm 1]
    · rw [List.drop_eq_getElem_cons hlt]
      exact .cons hmatch hmatches
    · rw [List.map_cons, List.forall_mem_cons]
      exact ⟨le_rfl, (List.pairwise_cons.1 hsorted).1⟩

/-! ### Input -/

/-- The invariant of a location keeps the clock below the upper bound of the action that leaves
it. -/
lemma invariant_input_iff : (input word clock).Invariant clock (⟨p, v⟩ : Moment Time) ↔
    ∀ s, word.steps[p]? = some s → ∀ b ∈ bound? s.upper, v ≤ (b : Time) := by
  have hinvariant : ((input word clock).locations[p]?).bind (·.invariant) =
      (word.steps[p]?).bind fun s => invariant? clock (bound? s.upper) := by
    rcases Nat.lt_or_ge p (word.length + 1) with hp | hp
    · simp [input, TimedWord.bounded, hp, Option.bind_map]
    · have hlocation : (input word clock).locations[p]? = none :=
        List.getElem?_eq_none (by simpa [input] using hp)
      have hstep : word.steps[p]? = none := List.getElem?_eq_none (Nat.le_of_succ_le hp)
      rw [hlocation, hstep]
      rfl
  rw [Invariant, hinvariant]
  cases word.steps[p]? with
  | none => simp [GuardHolds]
  | some s =>
    have hguard : invariant? clock (bound? s.upper) = guard? clock none (bound? s.upper) := by
      cases bound? s.upper <;> rfl
    simp [hguard, guardHolds_guard?_iff]

/-- The label of an action can be sent in its interval, unless the invariant of the next location
is broken then. -/
lemma sends_input (hs : word.steps[p]? = some s) {e : Event Time} (hmatch : s.Matches e)
    (hinvariant : (input word clock).Invariant clock (⟨p + 1, e.time⟩ : Moment Time)) :
    (input word clock).Sends clock ⟨p, e.time⟩ e.label
      ⟨p, p + 1, guard? clock (bound? s.lower) (bound? s.upper), s.action ++ "!"⟩ where
  mem := mem_chainEdges.2 ⟨p, s, hs, rfl⟩
  source := rfl
  sync := congrArg (· ++ "!") hmatch.1.symm
  guard := guardHolds_guard?_iff.2 hmatch.2
  invariant := hinvariant

/-- Whoever still sends the actions in their intervals does not stand in a location for too long. -/
lemma invariant_input_of_matches
    (hmatches : List.Forall₂ TimedAction.Matches (word.steps.drop p) events)
    (hsorted : (v :: events.map (·.time)).Pairwise (· ≤ ·)) :
    (input word clock).Invariant clock (⟨p, v⟩ : Moment Time) := by
  rw [invariant_input_iff]
  intro s hs b hb
  obtain ⟨hlt, rfl⟩ := List.getElem?_eq_some_iff.1 hs
  rw [List.drop_eq_getElem_cons hlt] at hmatches
  cases events with
  | nil => cases hmatches
  | cons e events =>
    have hle : v ≤ e.time := List.rel_of_pairwise_cons hsorted List.mem_cons_self
    exact hle.trans ((List.forall₂_cons.1 hmatches).1.2.2 b hb)

/-- The rest of the actions can be sent in their intervals, one after the other. -/
lemma performs_input (hp : p ≤ word.length)
    (hmatches : List.Forall₂ TimedAction.Matches (word.steps.drop p) events)
    (hsorted : (v :: events.map (·.time)).Pairwise (· ≤ ·)) :
    ∃ v', (input word clock).Performs clock ⟨p, v⟩ events ⟨word.length, v'⟩ := by
  induction events generalizing p v with
  | nil =>
    have hrest : word.steps.drop p = [] := List.forall₂_nil_right_iff.1 hmatches
    obtain rfl : p = word.length := le_antisymm hp (List.drop_eq_nil_iff.1 hrest)
    exact ⟨v, .stop _⟩
  | cons e events ih =>
    have hlt : p < word.length := by
      by_contra hge
      rw [List.drop_eq_nil_of_le (Nat.le_of_not_lt hge)] at hmatches
      cases hmatches
    have hs : word.steps[p]? = some word.steps[p] := List.getElem?_eq_getElem hlt
    obtain ⟨hlater, hsorted⟩ := List.pairwise_cons.1 hsorted
    rw [List.drop_eq_getElem_cons hlt] at hmatches
    obtain ⟨hmatch, hmatches⟩ := List.forall₂_cons.1 hmatches
    obtain ⟨v', hperforms⟩ := ih hlt hmatches hsorted
    have hsends : (input word clock).Sends clock _ e.label _ :=
      sends_input hs hmatch (invariant_input_of_matches hmatches hsorted)
    refine ⟨v',
      .wait (hlater e.time List.mem_cons_self) (fun u _ hu => ?_) (.send hsends hperforms)⟩
    -- waiting for an action that is in its interval does not break the invariant
    rw [invariant_input_iff]
    intro s hs' b hb
    obtain rfl : s = word.steps[p] := Option.some.inj (hs'.symm.trans hs)
    exact hu.trans (hmatch.2.2 b hb)

/-! ### Complete runs -/

lemma nameAt?_input_eq_some_iff {name : String} :
    (input word clock).nameAt? p = some name ↔
      p ≤ word.length ∧ chainName "sent" "done" word.length p = name := by
  rcases Nat.lt_or_ge p (word.length + 1) with hp | hp
  · simp [nameAt?, input, hp, Nat.le_of_lt_succ hp]
  · have hlocation : (input word clock).locations[p]? = none :=
      List.getElem?_eq_none (by simpa [input] using hp)
    rw [nameAt?, hlocation]
    refine iff_of_false ?_ fun h => absurd h.1 (Nat.not_le_of_lt hp)
    rintro ⟨⟩

/-- Only the location behind the last action is called `done`. -/
lemma nameAt?_input_eq_done_iff :
    (input word clock).nameAt? p = some "done" ↔ p = word.length := by
  rw [nameAt?_input_eq_some_iff, apart_sent.chainName_eq_last_iff, and_iff_right_iff_imp]
  exact le_of_eq

variable [Zero Time]

/-- The events that a signal is sent with: its actions, each in its interval, one after the other
from the beginning on. -/
def Conveys (word : TimedWord) (events : List (Event Time)) : Prop :=
  List.Forall₂ TimedAction.Matches word.steps events ∧
    (0 :: events.map (·.time)).Pairwise (· ≤ ·)

lemma Completes.conveys_of_chain (h : t.Completes clock events)
    (hedges : t.edges = chainEdges "!" clock word)
    (hdone : ∀ q, t.nameAt? q = some "done" → q = word.length) : Conveys word events := by
  obtain ⟨m, hrun, hname⟩ := h
  obtain ⟨hposition, hmatches, hsorted⟩ := hrun.performs.of_chain hedges
  have hlength : events.length = word.length := by
    rw [← hdone _ hname, hposition, Nat.zero_add]
  rw [hlength, List.drop_zero, TimedWord.length, List.take_length] at hmatches
  exact ⟨hmatches, hsorted⟩

/-- The input sends its signal in the ways in which it can be sent. -/
lemma completes_input_iff : (input word clock).Completes clock events ↔ Conveys word events := by
  constructor
  · exact fun h => h.conveys_of_chain rfl fun q => nameAt?_input_eq_done_iff.1
  · rintro ⟨hmatches, hsorted⟩
    obtain ⟨v, hperforms⟩ := performs_input (Nat.zero_le _) hmatches hsorted
    exact ⟨⟨word.length, v⟩, ⟨invariant_input_of_matches hmatches hsorted, hperforms⟩,
      nameAt?_input_eq_done_iff.2 rfl⟩

/-- The invariants of the input rule out nothing that its guards allow. -/
lemma completes_unhurried_input_iff :
    (input word clock).unhurried.Completes clock events ↔ Conveys word events := by
  constructor
  · intro h
    refine h.conveys_of_chain rfl fun q hq => ?_
    rw [nameAt?_unhurried] at hq
    exact nameAt?_input_eq_done_iff.1 hq
  · exact fun h => (completes_input_iff.2 h).unhurried

end TimedPatterns.Template
