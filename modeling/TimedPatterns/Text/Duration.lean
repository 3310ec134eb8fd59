import TimedPatterns.Text.Blank
import TimedPatterns.Text.Numeral
import TimedPatterns.Text.Quoted

/-!
# Durations

A duration is a number of nanoseconds. It is written in the largest unit that leaves something
before the point, without zeros at the end: `1.5s`, `5ms`, `999ns`.

A duration is read as numbers with units behind them, which are added: `1h 30m`. A number may have
a fraction, as long as nothing finer is left than what the unit is counted in: `1.5s`, `0.25h`.
-/

namespace TimedPatterns

/-- A number of nanoseconds. -/
structure Duration where
  nanos : Nat
  deriving DecidableEq, Repr

namespace Duration

/-- A number of milliseconds. -/
def ofMillis (n : Nat) : Duration := ⟨n * 1000000⟩

def seconds (d : Duration) : Nat := d.nanos / 1000000000

/-- The nanoseconds beyond the whole seconds. -/
def subseconds (d : Duration) : Nat := d.nanos % 1000000000

/-! ### Writing -/

/-- The digits behind the point for a part of a unit with the given number of places, without zeros
at the end. -/
def fraction (part places : Nat) : List Char :=
  let digits := Nat.toDigits 10 part
  let digits := List.replicate (places - digits.length) '0' ++ digits
  (digits.reverse.dropWhile (· == '0')).reverse

/-- A unit: its nanoseconds, the places that it has behind the point, and its letters. -/
structure Scale where
  nanos : Nat
  places : Nat
  letters : String
  deriving DecidableEq, Repr

/-- The units in which durations are written, the largest first. -/
def scales : List Scale := [⟨1000000000, 9, "s"⟩, ⟨1000000, 6, "ms"⟩, ⟨1000, 3, "µs"⟩]

def nanoScale : Scale := ⟨1, 0, "ns"⟩

def renderIn (nanos : Nat) (s : Scale) : String :=
  let digits := if s.places = 0 then [] else fraction (nanos % s.nanos) s.places
  toString (nanos / s.nanos)
    ++ (if digits.isEmpty then "" else "." ++ String.ofList digits) ++ s.letters

/-- A duration in the largest unit that leaves something before the point. -/
def render (d : Duration) : String :=
  renderIn d.nanos ((scales.find? (·.nanos ≤ d.nanos)).getD nanoScale)

/-! ### Reading -/

/-- Why a text is not a duration. A position is the number of bytes of UTF-8 before it. -/
inductive ReadError where
  | empty
  | numberExpected (position : Nat)
  | unitNeeded (count : Nat)
  | unknownUnit (unit : String)
  | invalidCharacter (position : Nat)
  | notRepresentable
  deriving DecidableEq, Repr

def ReadError.message : ReadError → String
  | .empty => "value was empty"
  | .numberExpected position => s!"expected number at {position}"
  | .unitNeeded count => s!"time unit needed, for example {count}sec or {count}ms"
  | .unknownUnit unit =>
    s!"unknown time unit {Text.quoted unit}, supported units: ns, us/µs, ms, sec, min, hours, "
      ++ "days, weeks, months, years (and few variations)"
  | .invalidCharacter position => s!"invalid character at {position}"
  | .notRepresentable =>
    "number is too large or cannot be represented without a lack of precision "
      ++ "(values below 1ns are not supported)"

/-- How long a unit is. The short ones are counted in nanoseconds, the others in seconds. -/
inductive UnitLength where
  | nanos (n : Nat)
  | seconds (n : Nat)
  deriving DecidableEq, Repr

/-- The length of a unit. A month is 30.44 days long and a year 365.25 days. -/
def unitLength? (unit : String) : Option UnitLength :=
  if unit ∈ ["nanos", "nsec", "ns"] then some (.nanos 1)
  else if unit ∈ ["usec", "us", "µs"] then some (.nanos 1000)
  else if unit ∈ ["millis", "msec", "ms"] then some (.nanos 1000000)
  else if unit ∈ ["seconds", "second", "secs", "sec", "s"] then some (.seconds 1)
  else if unit ∈ ["minutes", "minute", "min", "mins", "m"] then some (.seconds 60)
  else if unit ∈ ["hours", "hour", "hr", "hrs", "h"] then some (.seconds 3600)
  else if unit ∈ ["days", "day", "d"] then some (.seconds 86400)
  else if unit ∈ ["weeks", "week", "wk", "wks", "w"] then some (.seconds 604800)
  else if unit ∈ ["months", "month", "M"] then some (.seconds 2630016)
  else if unit ∈ ["years", "year", "yr", "yrs", "y"] then some (.seconds 31557600)
  else none

/-- What a fraction of a unit is counted in: nanoseconds up to the minute, seconds for the longer
units, and nothing for the nanosecond. -/
def UnitLength.forFraction? : UnitLength → Option UnitLength
  | .nanos n => if n = 1 then none else some (.nanos n)
  | .seconds n => some (if n ≤ 60 then .nanos (n * 1000000000) else .seconds n)

structure Fraction where
  numerator : Nat
  denominator : Nat
  deriving DecidableEq, Repr

/-- A number that is read: what stands before the point, and what stands behind it. -/
structure Amount where
  whole : Nat
  fraction : Option Fraction := none
  deriving DecidableEq, Repr

/-- A number that has to fit in 64 bits. -/
def fit (n : Nat) : Except ReadError Nat :=
  if n ≤ Text.maxUnsigned then .ok n else .error .notRepresentable

/-- Add a length. The seconds have to fit in 64 bits, and so do the nanoseconds that are added to
those beyond the whole seconds. -/
def addLength (total : Nat) : UnitLength → Except ReadError Nat
  | .nanos n => do
    let _ ← fit (total % 1000000000 + n)
    let _ ← fit ((total + n) / 1000000000)
    return total + n
  | .seconds n => do
    let _ ← fit (total / 1000000000 + n)
    return total + n * 1000000000

def wholeLength (n : Nat) : UnitLength → Except ReadError UnitLength
  | .nanos k => return .nanos (← fit (n * k))
  | .seconds k => return .seconds (← fit (n * k))

/-- A fraction of a unit, of which nothing may be left over. -/
def fractionLength (f : Fraction) (unit : UnitLength) : Except ReadError UnitLength :=
  let share (k : Nat) : Except ReadError Nat := do
    let n ← fit (f.numerator * k)
    if n % f.denominator = 0 then return n / f.denominator else .error .notRepresentable
  match unit.forFraction? with
  | none => .error .notRepresentable
  | some (.nanos k) => return .nanos (← share k)
  | some (.seconds k) => return .seconds (← share k)

/-- Add a number of units, whose letters are given in reverse. -/
def addUnits (total : Nat) (amount : Amount) (letters : List Char) : Except ReadError Nat := do
  let unit := String.ofList letters.reverse
  if unit = "" then .error (.unitNeeded amount.whole)
  match unitLength? unit with
  | none => .error (.unknownUnit unit)
  | some length =>
    let total ← addLength total (← wholeLength amount.whole length)
    match amount.fraction with
    | none => return total
    | some f => addLength total (← fractionLength f length)

/-- What is being read: the beginning of a number, from a position on; a number; the digits behind
its point, with the position up to which they were read; or the unit of a number, its letters in
reverse. -/
inductive ReadState where
  | between (start : Nat) (first : Bool)
  | number (whole : Nat)
  | fraction (whole mark : Nat) (f : Fraction)
  | unit (amount : Amount) (letters : List Char)

def isUnitLetter (c : Char) : Bool := c.isAlpha || c == 'µ'

/-- Read on from a state, with `position` bytes read and a duration of `total` so far. -/
def readFrom (position total : Nat) (state : ReadState) : List Char → Except ReadError Nat
  | [] =>
    match state with
    | .between _ true => .error .empty
    | .between _ false => .ok total
    | .number whole => addUnits total ⟨whole, none⟩ []
    | .fraction whole mark f =>
      if f.denominator = 1 then .error (.invalidCharacter mark)
      else addUnits total ⟨whole, some f⟩ []
    | .unit amount letters => addUnits total amount letters
  | c :: cs =>
    let next := position + c.utf8Size
    match state with
    | .between start first =>
      match Text.digit? c with
      | some d => readFrom next total (.number d) cs
      | none =>
        if Text.isBlank c then readFrom next total (.between start first) cs
        else .error (.numberExpected start)
    | .number whole =>
      match Text.digit? c with
      | some d => do readFrom next total (.number (← fit (whole * 10 + d))) cs
      | none =>
        if Text.isBlank c then readFrom next total (.number whole) cs
        else if isUnitLetter c then readFrom next total (.unit ⟨whole, none⟩ [c]) cs
        else if c = '.' then readFrom next total (.fraction whole position ⟨0, 1⟩) cs
        else .error (.invalidCharacter position)
    | .fraction whole mark f =>
      match Text.digit? c with
      | some d => do
        let f := ⟨f.numerator * 10 + d, ← fit (f.denominator * 10)⟩
        readFrom next total (.fraction whole next f) cs
      | none =>
        if Text.isBlank c then readFrom next total (.fraction whole next f) cs
        else if isUnitLetter c && f.denominator != 1 then
          readFrom next total (.unit ⟨whole, some f⟩ [c]) cs
        else .error (.invalidCharacter mark)
    | .unit amount letters =>
      match Text.digit? c with
      | some d => do readFrom next (← addUnits total amount letters) (.number d) cs
      | none =>
        if Text.isBlank c then do
          readFrom next (← addUnits total amount letters) (.between next false) cs
        else if isUnitLetter c then readFrom next total (.unit amount (c :: letters)) cs
        else .error (.invalidCharacter position)

/-- Read a duration. Nothing has no need of a unit: `0`. -/
def read (text : String) : Except ReadError Duration :=
  if text = "0" then .ok ⟨0⟩ else (readFrom 0 0 (.between 0 true) text.toList).map Duration.mk

end Duration

end TimedPatterns
