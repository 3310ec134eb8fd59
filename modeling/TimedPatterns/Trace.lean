import TimedPatterns.TimedWord

/-!
# Traces

A trace is what remains of a witness: the transitions that synchronise on an action, each with
the edges that were taken and the interval in which the reference clock stands meanwhile. The
reference clock is never reset, so the lower bounds of the intervals do not fall; this is part of
the type.

Focusing a trace keeps the transitions of some actions. Forgetting the edges makes a timed word.
-/

namespace TimedPatterns

/-- The values a clock can have; without an upper bound it can be arbitrarily late. -/
structure ClockInterval where
  lower : Int
  upper : Option Int
  deriving DecidableEq, Repr

def ClockInterval.full : ClockInterval := ⟨0, none⟩

/-- An interval as text; the open side ends in `inf)`. -/
def ClockInterval.render (i : ClockInterval) : String :=
  match i.upper with
  | some upper => s!"[{i.lower},{upper}]"
  | none => s!"[{i.lower},inf)"

/-- A process moving along one of its edges. -/
structure EdgeStep where
  process : String
  source : String
  target : String
  deriving DecidableEq, Repr

/-- One step of a trace. -/
structure Transition where
  action : String
  edges : List EdgeStep
  interval : ClockInterval
  deriving DecidableEq, Repr

/-! ### Order -/

/-- The reference clock does not fall between two transitions. -/
def Transition.Before (s t : Transition) : Prop := s.interval.lower ≤ t.interval.lower

instance (s t : Transition) : Decidable (s.Before t) :=
  inferInstanceAs (Decidable (s.interval.lower ≤ t.interval.lower))

/-- A transition at which the reference clock falls. -/
structure OrderError where
  index : Nat
  action : String
  previous : Int
  lower : Int
  deriving DecidableEq, Repr

def OrderError.message (e : OrderError) : String :=
  s!"clock lower bound drops from {e.previous} to {e.lower} at transition {e.index} ({e.action})"

/-- The first of the given transitions at which the clock falls, `prev` being the one before them
and `index` the position of the first of them. -/
def fallAfter? (prev : Transition) (index : Nat) : List Transition → Option OrderError
  | [] => none
  | t :: ts =>
    if t.interval.lower < prev.interval.lower then
      some ⟨index, t.action, prev.interval.lower, t.interval.lower⟩
    else fallAfter? t (index + 1) ts

/-- The first transition at which the clock falls. -/
def fall? : List Transition → Option OrderError
  | [] => none
  | t :: ts => fallAfter? t 1 ts

theorem pairwise_of_fallAfter?_eq_none {prev : Transition} {index : Nat} {ts : List Transition}
    (h : fallAfter? prev index ts = none) : (prev :: ts).Pairwise Transition.Before := by
  induction ts generalizing prev index with
  | nil => simp
  | cons t ts ih =>
    simp only [fallAfter?] at h
    split at h
    · simp at h
    · next hle =>
      have hts := ih h
      have hpt : prev.Before t := Int.not_lt.1 hle
      refine List.pairwise_cons.2 ⟨fun u hu => ?_, hts⟩
      rcases List.mem_cons.1 hu with rfl | hu
      · exact hpt
      · exact Int.le_trans hpt ((List.pairwise_cons.1 hts).1 u hu)

theorem pairwise_of_fall?_eq_none {ts : List Transition} (h : fall? ts = none) :
    ts.Pairwise Transition.Before := by
  cases ts with
  | nil => exact List.Pairwise.nil
  | cons t ts => exact pairwise_of_fallAfter?_eq_none h

/-! ### Traces -/

/-- Transitions over a reference clock that does not fall. -/
structure Trace where
  clock : String
  transitions : List Transition
  ordered : transitions.Pairwise Transition.Before

namespace Trace

/-- A trace of the given transitions, if the clock does not fall. -/
def ofTransitions (clock : String) (transitions : List Transition) : Except OrderError Trace :=
  match h : fall? transitions with
  | some error => .error error
  | none => .ok ⟨clock, transitions, pairwise_of_fall?_eq_none h⟩

def length (t : Trace) : Nat := t.transitions.length

def actions (t : Trace) : List String := t.transitions.map (·.action)

/-- Keep the transitions whose action is in focus; without a focus, all of them. -/
def focus (t : Trace) : Option (List String) → Trace
  | none => t
  | some focused =>
    ⟨t.clock, t.transitions.filter (focused.contains ·.action), t.ordered.filter _⟩

/-- Forget the edges. An interval that is open above has no upper bound. -/
def toTimedWord (t : Trace) : TimedWord :=
  ⟨t.transitions.map fun s =>
    ⟨s.action, s.interval.lower, s.interval.upper.getD unbounded⟩⟩

/-! ### Text and JSON -/

def lines (t : Trace) : List String :=
  t.transitions.mapIdx fun i s => s!"{i}: {s.action} {t.clock}{s.interval.render}"

def render (t : Trace) : String := "\n".intercalate t.lines

def edgeJson (e : EdgeStep) : Json :=
  .object [("process", .text e.process), ("from", .text e.source), ("to", .text e.target)]

def intervalJson (i : ClockInterval) : Json :=
  .object [("lower", .int i.lower), ("upper", (i.upper.map Json.int).getD .null)]

def transitionJson (s : Transition) : Json :=
  .object [("action", .text s.action), ("edges", .array (s.edges.map edgeJson)),
    ("interval", intervalJson s.interval)]

def toJson (t : Trace) : Json :=
  .object [("clock", .text t.clock), ("transitions", .array (t.transitions.map transitionJson))]

end Trace

end TimedPatterns
