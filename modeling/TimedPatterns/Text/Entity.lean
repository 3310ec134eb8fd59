import TimedPatterns.Text.Blank

/-!
# Character entities

Markup keeps `&`, `<` and `>` apart from its own signs by writing them as entities. `escape`
writes the three; `unescape` reads five, the two quotes among them.

`unescape` replaces one entity after the other, `&amp;` last, so that no ampersand it produces
begins another entity.
-/

namespace TimedPatterns.Text

/-! ### Replacing -/

/-- Replace the occurrences of `needle` from the left, none of which overlap. With `skip`, the
number of characters of an occurrence that are still to be passed over. -/
def replaceFrom (needle new : List Char) : Nat → List Char → List Char
  | _, [] => []
  | skip + 1, _ :: cs => replaceFrom needle new skip cs
  | 0, c :: cs =>
    if needle.isPrefixOf (c :: cs) then new ++ replaceFrom needle new (needle.length - 1) cs
    else c :: replaceFrom needle new 0 cs

/-- Replace every occurrence of `needle` by `new`, from the left. -/
def replaceAll (needle new cs : List Char) : List Char := replaceFrom needle new 0 cs

/-! ### Entities -/

def escapeChar (c : Char) : List Char :=
  if c = '&' then "&amp;".toList
  else if c = '<' then "&lt;".toList
  else if c = '>' then "&gt;".toList
  else [c]

/-- Write `&`, `<` and `>` as entities. -/
def escape (s : String) : String := String.ofList (s.toList.flatMap escapeChar)

/-- Read the five entities of markup in a list of characters. -/
def unescapeChars (cs : List Char) : List Char :=
  let cs := replaceAll "&lt;".toList ['<'] cs
  let cs := replaceAll "&gt;".toList ['>'] cs
  let cs := replaceAll "&quot;".toList ['"'] cs
  let cs := replaceAll "&apos;".toList ['\''] cs
  replaceAll "&amp;".toList ['&'] cs

def unescape (s : String) : String := String.ofList (unescapeChars s.toList)

end TimedPatterns.Text
