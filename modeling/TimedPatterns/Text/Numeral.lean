/-!
# Decimal numerals

Reading an optional sign and decimal digits as a number within given limits. The digits are read
from the left, and the first thing that is wrong decides the error: a character that is no digit,
or a digit that takes the number past its limit.
-/

namespace TimedPatterns.Text

/-- Why a text is not a numeral. -/
inductive NumeralError where
  | empty
  | invalidDigit
  | tooLarge
  | tooSmall
  deriving DecidableEq, Repr

def NumeralError.message : NumeralError → String
  | .empty => "cannot parse integer from empty string"
  | .invalidDigit => "invalid digit found in string"
  | .tooLarge => "number too large to fit in target type"
  | .tooSmall => "number too small to fit in target type"

/-! ### Digits -/

def digit? (c : Char) : Option Nat :=
  if '0' ≤ c ∧ c ≤ '9' then some (c.toNat - 48) else none

/-- Read digits onto `acc` as long as the number stays within `limit`; `past` is the error of a
number that does not. -/
def readDigits (limit : Nat) (past : NumeralError) (acc : Nat) :
    List Char → Except NumeralError Nat
  | [] => .ok acc
  | c :: cs =>
    match digit? c with
    | none => .error .invalidDigit
    | some d => if acc * 10 + d ≤ limit then readDigits limit past (acc * 10 + d) cs else .error past

/-- Read at least one digit. -/
def readMagnitude (limit : Nat) (past : NumeralError) : List Char → Except NumeralError Nat
  | [] => .error .invalidDigit
  | c :: cs => readDigits limit past 0 (c :: cs)

/-! ### Signed and unsigned numbers of 64 bits -/

def maxSigned : Int := 9223372036854775807

def minSigned : Int := -9223372036854775808

def maxUnsigned : Nat := 18446744073709551615

/-- Read a signed number of 64 bits. -/
def readSigned : List Char → Except NumeralError Int
  | [] => .error .empty
  | '-' :: cs => (readMagnitude 9223372036854775808 .tooSmall cs).map fun n => -(n : Int)
  | '+' :: cs => (readMagnitude 9223372036854775807 .tooLarge cs).map Int.ofNat
  | cs => (readMagnitude 9223372036854775807 .tooLarge cs).map Int.ofNat

/-- Read an unsigned number of 64 bits; a minus sign is no digit. -/
def readUnsigned : List Char → Except NumeralError Nat
  | [] => .error .empty
  | '+' :: cs => readMagnitude maxUnsigned .tooLarge cs
  | cs => readMagnitude maxUnsigned .tooLarge cs

end TimedPatterns.Text
