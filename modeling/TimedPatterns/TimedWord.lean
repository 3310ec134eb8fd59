import TimedPatterns.Text.Json

/-!
# Timed words

A timed word is a sequence of actions, each with a lower and an upper bound on a reference clock.
The bound `-1` stands for no bound. A timed word describes a signal that is sent or observed, and
a pattern that was found.

A timed word is built from columns (its actions, its lower and its upper bounds), which have to
be of one length, and is written either as text, `send[0,5] ack[2,]`, or as a JSON object of the
three columns.
-/

namespace TimedPatterns

/-- The bound that bounds nothing. -/
def unbounded : Int := -1

/-- The reference clock of those who do not name one. -/
def defaultClock : String := "monitor_clk"

/-- A bound that is not `unbounded`. -/
def bound? (b : Int) : Option Int := if b = unbounded then none else some b

@[simp] theorem bound?_unbounded : bound? unbounded = none := by simp [bound?]

theorem bound?_of_ne {b : Int} (h : b ≠ unbounded) : bound? b = some b := by simp [bound?, h]

/-- An action and the interval of the reference clock in which it happens. -/
structure TimedAction where
  action : String
  lower : Int
  upper : Int
  deriving DecidableEq, Repr

/-- A sequence of actions with bounds on a reference clock. -/
structure TimedWord where
  steps : List TimedAction
  deriving DecidableEq, Repr

namespace TimedWord

/-! ### Columns -/

def actions (w : TimedWord) : List String := w.steps.map (·.action)

def lowers (w : TimedWord) : List Int := w.steps.map (·.lower)

def uppers (w : TimedWord) : List Int := w.steps.map (·.upper)

def length (w : TimedWord) : Nat := w.steps.length

def isEmpty (w : TimedWord) : Bool := w.steps.isEmpty

@[simp] theorem length_actions (w : TimedWord) : w.actions.length = w.length := by
  simp [actions, length]

@[simp] theorem length_lowers (w : TimedWord) : w.lowers.length = w.length := by
  simp [lowers, length]

@[simp] theorem length_uppers (w : TimedWord) : w.uppers.length = w.length := by
  simp [uppers, length]

/-- A side of an interval. -/
inductive Side where
  | lower
  | upper
  deriving DecidableEq, Repr

def Side.name : Side → String
  | .lower => "lower"
  | .upper => "upper"

/-- A column of bounds that is not as long as the actions are. -/
structure ShapeError where
  side : Side
  expected : Nat
  found : Nat
  deriving DecidableEq, Repr

def ShapeError.message (e : ShapeError) : String :=
  s!"{e.side.name} bounds have {e.found} entries but there are {e.expected} actions"

/-- A column of `expected` bounds; without one, nothing is bounded. -/
def boundColumn (side : Side) (expected : Nat) : Option (List Int) → Except ShapeError (List Int)
  | none => .ok (List.replicate expected unbounded)
  | some bounds =>
    if bounds.length = expected then .ok bounds else .error ⟨side, expected, bounds.length⟩

/-- Build a timed word from its columns; the lower bounds are looked at first. -/
def ofColumns (actions : List String) (lower upper : Option (List Int)) :
    Except ShapeError TimedWord := do
  let lower ← boundColumn .lower actions.length lower
  let upper ← boundColumn .upper actions.length upper
  return ⟨List.zipWith (fun action (l, u) => ⟨action, l, u⟩) actions (lower.zip upper)⟩

/-- The word of the given labels with nothing bounded. -/
def untimed (actions : List String) : TimedWord :=
  ⟨actions.map fun action => ⟨action, unbounded, unbounded⟩⟩

@[simp] theorem actions_untimed (actions : List String) : (untimed actions).actions = actions := by
  simp [untimed, TimedWord.actions, Function.comp_def]

def isUntimed (w : TimedWord) : Bool :=
  (w.lowers ++ w.uppers).all (· == unbounded)

/-! ### Views -/

/-- An action with the two guards it meets, written against a clock. -/
structure GuardedAction where
  action : String
  lower : String
  upper : String
  deriving DecidableEq, Repr

/-- Each action with its guards; a bound is written as it is, also the one that bounds nothing. -/
def guarded (w : TimedWord) (clock : String) : List GuardedAction :=
  w.steps.map fun s => ⟨s.action, s!"{clock}>={s.lower}", s!"{clock}<={s.upper}"⟩

/-- Each action with the bounds it has. -/
def bounded (w : TimedWord) : List (String × Option Int × Option Int) :=
  w.steps.map fun s => (s.action, bound? s.lower, bound? s.upper)

@[simp] theorem length_guarded (w : TimedWord) (clock : String) :
    (w.guarded clock).length = w.length := by simp [guarded, length]

@[simp] theorem length_bounded (w : TimedWord) : w.bounded.length = w.length := by
  simp [bounded, length]

/-! ### Text -/

/-- A bound as text; where there is none, nothing is written. -/
def renderBound (b : Option Int) : String := (b.map toString).getD ""

/-- An action with its interval; a side without a bound is left empty, and an action without
bounds stands alone. -/
def renderStep : String × Option Int × Option Int → String
  | (action, none, none) => action
  | (action, lower, upper) => s!"{action}[{renderBound lower},{renderBound upper}]"

/-- The actions with their intervals, a space between two of them. -/
def render (w : TimedWord) : String := " ".intercalate (w.bounded.map renderStep)

/-! ### JSON -/

def toJson (w : TimedWord) : Json :=
  .object [("actions", .texts w.actions), ("lb", .ints w.lowers), ("ub", .ints w.uppers)]

def readColumns (actions lower upper : Json) : Option (List String × List Int × List Int) := do
  return (← Json.asList? Json.asText? actions, ← Json.asList? Json.asSigned? lower,
    ← Json.asList? Json.asSigned? upper)

/-- The columns of an object that has all three of them, or of an array of the three. -/
def columnsOfJson? : Json → Option (List String × List Int × List Int)
  | .object fields => do
    readColumns (← Json.field? "actions" fields) (← Json.field? "lb" fields)
      (← Json.field? "ub" fields)
  | .array [actions, lower, upper] => readColumns actions lower upper
  | _ => none

/-- Why a JSON value is not a timed word: it has not the three columns, or they are not of one
length. -/
inductive JsonError where
  | notColumns
  | shape (error : ShapeError)
  deriving DecidableEq, Repr

def ofJson (value : Json) : Except JsonError TimedWord :=
  match columnsOfJson? value with
  | none => .error .notColumns
  | some (actions, lower, upper) =>
    (ofColumns actions (some lower) (some upper)).mapError .shape

end TimedWord

end TimedPatterns
