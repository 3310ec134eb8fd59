import TimedPatterns.Path
import TimedPatterns.Tool.Error

/-!
# Commands

A command is a program with arguments and variables added to its environment. It is shown as a
line of words, and a line of words is split into arguments: double quotes group what stands
between them, and a backslash takes the next character as it is.

A witness is written in one of two formats, which the extension of its file tells apart.
-/

namespace TimedPatterns

/-- A program with its arguments and the variables added to its environment. -/
structure Command where
  program : String
  arguments : List String := []
  environment : List (String × String) := []
  deriving DecidableEq, Repr

namespace Command

/-- Whether a NUL is somewhere in a command, which can then not be run. -/
def hasNul (c : Command) : Bool :=
  (c.program :: c.arguments ++ c.environment.flatMap fun (key, value) => [key, value]).any
    (·.toList.contains '\x00')

/-! ### Lines of words -/

/-- A word as it is shown: between double quotes if it is empty or has a space or a double quote
in it, and then with a backslash before each double quote. -/
def quoteChars (word : List Char) : List Char :=
  if word.isEmpty || word.contains ' ' || word.contains '"' then
    '"' :: (word.flatMap fun c => if c = '"' then ['\\', '"'] else [c]) ++ ['"']
  else word

def quote (word : String) : String := String.ofList (quoteChars word.toList)

/-- The line that shows a command: its variables, its program and its arguments. -/
def line (c : Command) : String :=
  " ".intercalate (c.environment.map (fun (key, value) => s!"{key}={value}")
    ++ (c.program :: c.arguments).map quote)

/-! ### Splitting -/

/-- Why a line is not split into words. -/
inductive SplitError where
  | trailingBackslash (line : String)
  | unbalancedQuotes (line : String)
  deriving DecidableEq, Repr

def SplitError.message : SplitError → String
  | .trailingBackslash line => s!"trailing backslash in {Text.quoted line}"
  | .unbalancedQuotes line => s!"unbalanced quotes in {Text.quoted line}"

def SplitError.toToolError (e : SplitError) : ToolError := .badCommand e.message

/-- Put a character behind the word that is being read, which may have to be begun. -/
def extend (word : Option (List Char)) (c : Char) : Option (List Char) :=
  some (word.getD [] ++ [c])

/-- Split the rest of a line. `word` is the word that is being read, if one has begun, and
`inQuotes` says whether a double quote is open. `none` stands for a backslash at the end, and
`some none` for a double quote that stays open. -/
def splitFrom (word : Option (List Char)) (inQuotes : Bool) :
    List Char → Option (Option (List (List Char)))
  | [] => some (if inQuotes then none else some word.toList)
  | '\\' :: [] => none
  | '\\' :: c :: cs => splitFrom (extend word c) inQuotes cs
  | c :: cs =>
    if c = '"' then splitFrom (some (word.getD [])) (!inQuotes) cs
    else if Text.isBlank c ∧ inQuotes = false then
      (splitFrom none false cs).map (·.map (word.toList ++ ·))
    else splitFrom (extend word c) inQuotes cs

def splitWords (line : String) : Except SplitError (List String) :=
  match splitFrom none false line.toList with
  | none => .error (.trailingBackslash line)
  | some none => .error (.unbalancedQuotes line)
  | some (some words) => .ok (words.map String.ofList)

end Command

/-! ### Witness formats -/

inductive WitnessFormat where
  | xtr
  | xml
  deriving DecidableEq, Repr

namespace WitnessFormat

def extension : WitnessFormat → String
  | .xtr => "xtr"
  | .xml => "xml"

/-- The option of the verifier that asks for a witness, with the beginning of its path behind
it. -/
def flag : WitnessFormat → String
  | .xtr => "-f"
  | .xml => "-X"

/-- The format that the extension of a path tells. -/
def ofPath? (path : String) : Option WitnessFormat :=
  match Path.extension? path with
  | some "xtr" => some .xtr
  | some "xml" => some .xml
  | _ => none

/-- The path of the witness of the first query, for the beginning of a path given to the
verifier. -/
def witnessPath (f : WitnessFormat) (start : String) : String := s!"{start}-1.{f.extension}"

end WitnessFormat

/-! ### Diagnostics -/

/-- Which witness the verifier is asked for: any, one of fewest steps, or one of least time. -/
inductive Diagnostic where
  | any
  | shortest
  | fastest
  deriving DecidableEq, Repr

namespace Diagnostic

def all : List Diagnostic := [.any, .shortest, .fastest]

def value : Diagnostic → String
  | .any => "0"
  | .shortest => "1"
  | .fastest => "2"

end Diagnostic

end TimedPatterns
