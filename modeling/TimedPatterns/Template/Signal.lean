import TimedPatterns.Template.Basic
import TimedPatterns.TimedWord

/-!
# Templates for signals and patterns

Three kinds of templates are added to a model.

- The input sends a signal, each action within its interval of the reference clock, and ends in
  `done`. A location cannot be held beyond the upper bound of the action that leaves it.
- The observer receives a signal in order, each action within its interval, and ends in `pass`.
  With an alphabet, another action of the alphabet leads to `fail`.
- A monitor follows a pattern over an alphabet. It is in `pass` as long as the actions of the
  alphabet seen so far spell the pattern, and in `fail` from then on that they cannot.

The locations of all three form a chain along the word, one location for each number of actions
that have been taken, and `fail` behind them.
-/

namespace TimedPatterns.Template

def inputName : String := "PatternInput"

def observerName : String := "PatternObserver"

def monitorName (position : Nat) : String := s!"PatternMonitor{position}"

/-! ### Guards -/

def guard? (clock : String) (lower upper : Option Int) : Option String :=
  match lower, upper with
  | none, none => none
  | some lower, none => some s!"{clock} >= {lower}"
  | none, some upper => some s!"{clock} <= {upper}"
  | some lower, some upper => some s!"{clock} >= {lower} && {clock} <= {upper}"

def invariant? (clock : String) (upper : Option Int) : Option String :=
  upper.map fun upper => s!"{clock} <= {upper}"

/-! ### Chains -/

/-- The name of the location in which `taken` of `length` actions have been taken. The first one
is `start`, unless it is the last one at the same time. -/
def chainName (stem last : String) (length taken : Nat) : String :=
  if taken = length then last else if taken = 0 then "start" else s!"{stem}{taken - 1}"

/-- The edges of a chain: from the location of each action to the next one. -/
def chainEdges (mark : String) (clock : String) (w : TimedWord) : List TemplateEdge :=
  w.bounded.mapIdx fun i (action, lower, upper) =>
    ⟨i, i + 1, guard? clock lower upper, action ++ mark⟩

/-- The edges from a location to `fail`: one for each action of the alphabet that is not the one
expected. -/
def failEdges (alphabet : List String) (fail position : Nat) (expected : Option String) :
    List TemplateEdge :=
  (alphabet.filter fun other => expected != some other).map fun other =>
    ⟨position, fail, none, other ++ "?"⟩

/-! ### Input -/

def input (w : TimedWord) (clock : String) : Template where
  name := inputName
  comment := none
  locations := (List.range (w.length + 1)).map fun taken =>
    ⟨chainName "sent" "done" w.length taken,
      (w.bounded[taken]?).bind fun (_, _, upper) => invariant? clock upper⟩
  edges := chainEdges "!" clock w

/-! ### Observer -/

def observer (w : TimedWord) (alphabet : Option (List String)) (clock : String) : Template where
  name := observerName
  comment := none
  locations := (List.range (w.length + 1)).map
      (fun taken => ⟨chainName "saw" "pass" w.length taken, none⟩)
    ++ if alphabet.isSome then [⟨"fail", none⟩] else []
  edges := chainEdges "?" clock w
    ++ (w.actions.mapIdx fun i expected =>
      failEdges (alphabet.getD []) (w.length + 1) i (some expected)).flatten

/-! ### Monitors -/

def monitor (position : Nat) (pattern alphabet : List String) : Template where
  name := monitorName position
  comment := some ("pattern: " ++ " ".intercalate pattern)
  locations := (List.range (pattern.length + 1)).map
      (fun taken => ⟨chainName "saw" "pass" pattern.length taken, none⟩)
    ++ [⟨"fail", none⟩]
  edges := (pattern.mapIdx fun i action => ⟨i, i + 1, none, action ++ "?"⟩)
    ++ ((List.range (pattern.length + 1)).map fun i =>
      failEdges alphabet (pattern.length + 1) i pattern[i]?).flatten

end TimedPatterns.Template
