/-!
# JSON values

A JSON value and its shortest written form: no blanks between the tokens, the fields of an object
in the order they were given, and only the characters escaped that have to be.
-/

namespace TimedPatterns

/-- A JSON value. `number n places` is the number written with the digits of `n`, the last
`places` of them behind the point. -/
inductive Json where
  | null
  | bool (b : Bool)
  | number (digits : Int) (places : Nat)
  | text (s : String)
  | array (items : List Json)
  | object (fields : List (String × Json))
  deriving Inhabited

namespace Json

def int (n : Int) : Json := .number n 0

def texts (items : List String) : Json := .array (items.map .text)

def ints (items : List Int) : Json := .array (items.map int)

/-! ### Writing -/

def escapeChar (c : Char) : List Char :=
  if c = '"' then ['\\', '"']
  else if c = '\\' then ['\\', '\\']
  else if c = '\x08' then ['\\', 'b']
  else if c = '\x0c' then ['\\', 'f']
  else if c = '\n' then ['\\', 'n']
  else if c = '\r' then ['\\', 'r']
  else if c = '\t' then ['\\', 't']
  else if c.toNat < 0x20 then
    "\\u00".toList ++ [Nat.digitChar (c.toNat / 16), Nat.digitChar (c.toNat % 16)]
  else [c]

def renderText (s : String) : String :=
  String.ofList ('"' :: s.toList.flatMap escapeChar ++ ['"'])

/-- A JSON number; at least one digit stands before the point. -/
def renderNumber (digits : Int) (places : Nat) : String :=
  if places = 0 then toString digits
  else
    let body := Nat.toDigits 10 digits.natAbs
    let body := List.replicate (places + 1 - body.length) '0' ++ body
    let whole := body.length - places
    (if digits < 0 then "-" else "")
      ++ String.ofList (body.take whole) ++ "." ++ String.ofList (body.drop whole)

mutual

/-- The shortest written form of a value. -/
def render : Json → String
  | .null => "null"
  | .bool b => if b then "true" else "false"
  | .number digits places => renderNumber digits places
  | .text s => renderText s
  | .array items => "[" ++ renderItems items ++ "]"
  | .object fields => "\x7b" ++ renderFields fields ++ "\x7d"

def renderItems : List Json → String
  | [] => ""
  | [item] => render item
  | item :: items => render item ++ "," ++ renderItems items

def renderFields : List (String × Json) → String
  | [] => ""
  | [(key, value)] => renderText key ++ ":" ++ render value
  | (key, value) :: fields => renderText key ++ ":" ++ render value ++ "," ++ renderFields fields

end

/-! ### Reading -/

/-- The value of the only field with the given name. A field that is given twice has none. -/
def field? (name : String) (fields : List (String × Json)) : Option Json :=
  match fields.filter (·.1 = name) with
  | [(_, value)] => some value
  | _ => none

def asText? : Json → Option String
  | .text s => some s
  | _ => none

/-- A signed whole number of 64 bits, written without a point. -/
def asSigned? : Json → Option Int
  | .number digits 0 =>
    if -9223372036854775808 ≤ digits ∧ digits ≤ 9223372036854775807 then some digits else none
  | _ => none

/-- An array whose items are all read by `item?`. -/
def asList? {α : Type} (item? : Json → Option α) : Json → Option (List α)
  | .array items => items.mapM item?
  | _ => none

end Json

end TimedPatterns
