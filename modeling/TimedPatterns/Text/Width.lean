import TimedPatterns.Text.Width.Ligature

/-!
# Columns of a text

How many columns a text takes on a terminal. It is the sum of what its characters take, except
that some sequences take less or more than their characters do: an emoji with its modifier, emoji
that are joined, a character that is asked for as a picture or as text, and ligatures.

A text is taken from its end, because what a character takes depends on what follows it.
-/

namespace TimedPatterns.Text

/-- How the form of a character is asked for. -/
inductive Form where
  | picture
  | text
  deriving DecidableEq, Repr

/-- How many indicators lie behind a joiner. -/
inductive IndicatorCount where
  | one
  | even
  | odd
  deriving DecidableEq, Repr

/-- What lies behind a character and before the joiner to an emoji. -/
inductive JoinedPart where
  | nothing
  | keycap
  | indicators (count : IndicatorCount)
  | tag (letters digits : Nat)
  deriving DecidableEq, Repr

/-- What follows a character, as far as its columns depend on it. -/
inductive Following where
  | other
  | emoji
  | modifier
  | indicators (several : Bool)
  | joined (part : JoinedPart)
  | kiratE
  | kiratAi
  | ligature (l : Ligature)
  deriving DecidableEq, Repr

/-- What follows a character, and the form that it is asked for in. -/
structure Setting where
  following : Following := .other
  form : Option Form := none
  deriving DecidableEq, Repr

/-- What follows the character before a character that stands for itself. -/
def Following.of (c : Char) : Following :=
  match Ligature.endingIn? c with
  | some l => .ligature l
  | none =>
    if isIndicator c then .indicators false
    else if isModifier c then .modifier
    else if isPicture c then .emoji
    else if c.toNat = 0x16D67 then .kiratE
    else if c.toNat = 0x16D68 then .kiratAi
    else .other

/-- What is asked of a form passes through a ligature; asked of a picture, it passes through what is
joined, too. Anything else is cut off by it. -/
def Following.asked (following : Following) (form : Form) : Following :=
  match following, form with
  | .ligature l, _ => .ligature l
  | .joined .nothing, .picture => .joined .nothing
  | .joined .keycap, .picture => .joined .keycap
  | _, _ => .other

/-- A form was asked for of a character that has no such form. -/
def Following.unanswered : Following → Following
  | .ligature l => .ligature l
  | _ => .other

/-- What a character takes as a part of a sequence with what follows it, and what the sequence is
then. Nothing is said of a character that stands for itself. -/
def Following.take? (following : Following) (c : Char) : Option (Int × Following) :=
  match following with
  | .other => none
  | .ligature l => (l.take? c).map fun (columns, l?) => (columns, (l?.map .ligature).getD .other)
  | .emoji => if c = joiner then some (0, .joined .nothing) else none
  | .modifier =>
    if isModifiable c then some (0, .emoji)
    else if c = joiner then some (0, .joined .nothing)
    else none
  | .indicators several =>
    if isIndicator c then some (1, .indicators true)
    else if several && c = joiner then some (0, .joined .nothing)
    else none
  | .joined .nothing =>
    if c = '\u20E3' then some (0, .joined .keycap)
    else if isIndicator c then some (1, .joined (.indicators .one))
    else if isModifier c then some (0, .modifier)
    else if c.toNat = 0xE007F then some (0, .joined (.tag 0 0))
    else if isPicture c then some (0, .emoji)
    else none
  | .joined .keycap => none
  | .joined (.indicators count) =>
    if isIndicator c then
      match count with
      | .one | .odd => some (-1, .joined (.indicators .even))
      | .even => some (3, .joined (.indicators .odd))
    else if count ≠ .one && c = joiner then some (0, .joined .nothing)
    else none
  | .joined (.tag letters digits) =>
    if isTagLetter c && digits = 0 && letters < 6 then some (0, .joined (.tag (letters + 1) 0))
    else if isTagDigit c && digits < 3 && (0 < digits || letters ≤ 4) then
      some (0, .joined (.tag letters (digits + 1)))
    else if c.toNat = 0x1F3F4 && (digits = 3 || (digits = 0 && 3 ≤ letters)) then some (0, .emoji)
    else none
  | .kiratE =>
    if c.toNat = 0x16D63 || c.toNat = 0x16D69 then some (0, .other)
    else if c.toNat = 0x16D67 then some (0, .kiratAi)
    else if c.toNat = 0x16D68 then some (1, .kiratE)
    else none
  | .kiratAi => if c.toNat = 0x16D63 then some (0, .other) else none

/-- The columns that a character takes before what follows it, and what the two are together for the
character before them. -/
def measure (c : Char) (next : Setting) : Int × Setting :=
  let { following, form } := next
  if form = some .picture && hasTwoForms c then
    (if following matches .joined _ then 0 else 2, { following := .emoji })
  else
    let following := if form.isSome then following.unanswered else following
    if c.toNat ≤ 0xA0 then (charWidth c, {})
    else if c = pictureSelector then (0, ⟨following.asked .picture, some .picture⟩)
    else if c = textSelector then (0, ⟨following.asked .text, some .text⟩)
    else if form = some .text && hasNarrowForm c then (1, {})
    else match following.take? c with
      | some (columns, following) => (columns, { following })
      | none => (charWidth c, { following := .of c })

def measureAll (cs : List Char) : Int × Setting :=
  cs.foldr (fun c (taken, next) =>
    let (columns, here) := measure c next
    (columns + taken, here)) (0, {})

/-- The columns that a text without line breaks takes. -/
def width (cs : List Char) : Nat := (measureAll cs).1.toNat

end TimedPatterns.Text
