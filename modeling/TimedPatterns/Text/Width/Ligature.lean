import TimedPatterns.Text.Width.Emoji

/-!
# Ligatures

Letters that are drawn as one in some scripts, and how many columns that saves. A text is taken
from its end: the last letter of a ligature is met first, then what stands between the letters,
then the letter that completes the ligature.
-/

namespace TimedPatterns.Text

/-- A ligature of which the end was met. For some, whether a joiner was met before it. -/
inductive Ligature where
  | alef
  | lamed (joined : Bool)
  | ya (joined : Bool)
  | vowelYa
  | tifinagh (joined : Bool)
  | tifinaghJoined
  | lisu
  | turkic (joined : Bool)
  | khmer
  deriving DecidableEq, Repr

def isAlef (c : Char) : Bool :=
  isWithin [(0x622, 0x623), (0x625, 0x625), (0x627, 0x627), (0x671, 0x673), (0x675, 0x675),
    (0x773, 0x774), (0x870, 0x882)] c

def isLam (c : Char) : Bool :=
  isWithin [(0x644, 0x644), (0x6B5, 0x6B8), (0x76A, 0x76A), (0x8A6, 0x8A6), (0x8C7, 0x8C7)] c

/-- The Khmer letters that a sign before them puts below another letter. -/
def isKhmerSubscript (c : Char) : Bool :=
  isWithin [(0x1780, 0x1782), (0x1784, 0x1787), (0x1789, 0x178C), (0x178E, 0x1793),
    (0x1795, 0x1798), (0x179B, 0x179D), (0x17A0, 0x17A0), (0x17A2, 0x17A2), (0x17A7, 0x17A7),
    (0x17AB, 0x17AC), (0x17AF, 0x17AF)] c

def isTifinagh (c : Char) : Bool := isWithin [(0x2D31, 0x2D65), (0x2D6F, 0x2D6F)] c

/-- The ligature that ends in a character. -/
def Ligature.endingIn? (c : Char) : Option Ligature :=
  if isAlef c then some .alef
  else if c = '\u05DC' then some (.lamed false)
  else if c = '\u1A10' then some (.ya false)
  else if isTifinagh c then some (.tifinagh false)
  else if c = '\uA4FC' || c = '\uA4FD' then some .lisu
  else if c.toNat = 0x10C03 then some (.turkic false)
  else if isKhmerSubscript c then some .khmer
  else none

/-- The characters without a column that part Arabic letters, as ranges of code points. -/
def partingRanges : List (Nat × Nat) :=
  [(0x0605, 0x0605), (0x0890, 0x0891), (0x08E2, 0x08E2), (0x09BE, 0x09BE), (0x09D7, 0x09D7),
   (0x0B3E, 0x0B3E), (0x0B57, 0x0B57), (0x0BBE, 0x0BBE), (0x0BD7, 0x0BD7), (0x0CC0, 0x0CC0),
   (0x0CC2, 0x0CC2), (0x0CC7, 0x0CC8), (0x0CCA, 0x0CCB), (0x0CD5, 0x0CD6), (0x0D3E, 0x0D3E),
   (0x0D4E, 0x0D4E), (0x0D57, 0x0D57), (0x0DCF, 0x0DCF), (0x0DDF, 0x0DDF), (0x1160, 0x11FF),
   (0x1715, 0x1715), (0x1734, 0x1734), (0x180E, 0x180E), (0x1B35, 0x1B35), (0x1B3B, 0x1B3B),
   (0x1B3D, 0x1B3D), (0x1B43, 0x1B44), (0x1BAA, 0x1BAA), (0x1BF2, 0x1BF3), (0x200C, 0x200D),
   (0x2065, 0x2069), (0x302E, 0x302F), (0x3164, 0x3164), (0xA8FA, 0xA8FA), (0xA953, 0xA953),
   (0xA9C0, 0xA9C0), (0xD7B0, 0xD7C6), (0xD7CB, 0xD7FB), (0xFF9E, 0xFFA0), (0xFFF0, 0xFFF8),
   (0x111C0, 0x111C0), (0x111C2, 0x111C3), (0x11235, 0x11235), (0x1133E, 0x1133E),
   (0x1134D, 0x1134D), (0x11357, 0x11357), (0x113B8, 0x113B8), (0x113C2, 0x113C2),
   (0x113C5, 0x113C5), (0x113C7, 0x113C9), (0x113CF, 0x113CF), (0x113D1, 0x113D1),
   (0x114B0, 0x114B0), (0x114BD, 0x114BD), (0x115AF, 0x115AF), (0x116B6, 0x116B6),
   (0x11930, 0x11930), (0x1193D, 0x1193D), (0x1193F, 0x1193F), (0x11941, 0x11941),
   (0x11A3A, 0x11A3A), (0x11A84, 0x11A89), (0x11D46, 0x11D46), (0x11F02, 0x11F02),
   (0x11F41, 0x11F41), (0x16FF0, 0x16FF1), (0x1D165, 0x1D166), (0x1D16D, 0x1D172),
   (0xE0000, 0xE0000), (0xE0002, 0xE001F), (0xE0080, 0xE00FF), (0xE01F0, 0xE0FFF)]

/-- The marks that are ignored by default. -/
def isIgnoredMark (c : Char) : Bool :=
  isWithin [(0x034F, 0x034F), (0x17B4, 0x17B5), (0x180B, 0x180D), (0x180F, 0x180F),
    (0xFE00, 0xFE0F), (0xE0100, 0xE01EF)] c

/-- What a character does to a ligature that ends behind it: the columns that it takes, and the
ligature that goes on or is complete. Nothing is said of a character that has no part in it. -/
def Ligature.take? (l : Ligature) (c : Char) : Option (Int × Option Ligature) :=
  match l with
  | .alef =>
    if isLam c then some (0, none)
    else if isWithin zeroWidthRanges c && !isWithin partingRanges c then some (0, some .alef)
    else none
  | .khmer =>
    if c = joiner || isIgnoredMark c then some (0, some l)
    else if c = '\u17D2' then some (-1, none)
    else none
  | .lamed joined =>
    if c = joiner then some (0, some (.lamed true))
    else if isIgnoredMark c then some (0, some l)
    else if joined && c = '\u05D0' then some (0, none)
    else none
  | .ya joined =>
    if c = joiner then some (0, some (.ya true))
    else if isIgnoredMark c then some (0, some l)
    else if joined && c = '\u1A17' then some (0, some .vowelYa)
    else none
  | .vowelYa =>
    if c = joiner || isIgnoredMark c then some (0, some l)
    else if c = '\u1A15' then some (0, none)
    else none
  | .tifinagh joined =>
    if c = joiner then some (0, some (.tifinagh true))
    else if isIgnoredMark c then some (0, some l)
    else if c = '\u2D7F' then some (1, some .tifinaghJoined)
    else if joined && isTifinagh c then some (0, none)
    else none
  | .tifinaghJoined =>
    if c = joiner || isIgnoredMark c then some (0, some l)
    else if isTifinagh c then some (-1, none)
    else none
  | .lisu =>
    if c = joiner || isIgnoredMark c then some (0, some l)
    else if isWithin [(0xA4F8, 0xA4FB)] c then some (0, none)
    else none
  | .turkic joined =>
    if c = joiner then some (0, some (.turkic true))
    else if isIgnoredMark c then some (0, some l)
    else if joined && c.toNat = 0x10C32 then some (0, none)
    else none

end TimedPatterns.Text
