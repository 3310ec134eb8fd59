/-!
# Bytes of text

The bytes a program prints are taken for UTF-8. Where they are not, each maximal part that could
have begun a character is replaced by U+FFFD.
-/

namespace TimedPatterns.Text

/-- What the first byte of a character says: how many bytes follow it, the bits it gives itself,
and the least and the greatest byte that may follow it directly. -/
def lead? (b : UInt8) : Option (Nat × Nat × Nat × Nat) :=
  let n := b.toNat
  if n < 0x80 then some (0, n, 0, 0)
  else if 0xC2 ≤ n ∧ n ≤ 0xDF then some (1, n - 0xC0, 0x80, 0xBF)
  else if n = 0xE0 then some (2, 0, 0xA0, 0xBF)
  else if n = 0xED then some (2, 0xD, 0x80, 0x9F)
  else if 0xE1 ≤ n ∧ n ≤ 0xEF then some (2, n - 0xE0, 0x80, 0xBF)
  else if n = 0xF0 then some (3, 0, 0x90, 0xBF)
  else if 0xF1 ≤ n ∧ n ≤ 0xF3 then some (3, n - 0xF0, 0x80, 0xBF)
  else if n = 0xF4 then some (3, 4, 0x80, 0x8F)
  else none

/-- A character that is being decoded: how many bytes are still to come, the bits so far, and the
least and the greatest byte that may come next. -/
structure Pending where
  more : Nat
  bits : Nat
  least : Nat
  greatest : Nat

/-- The character that takes the place of bytes that are none. -/
def replacement : Char := '\uFFFD'

def begin? (b : UInt8) : Option Char × Option Pending :=
  match lead? b with
  | none => (some replacement, none)
  | some (0, bits, _, _) => (some (Char.ofNat bits), none)
  | some (more, bits, least, greatest) => (none, some ⟨more, bits, least, greatest⟩)

/-- Decode bytes from within a character, or from between two. -/
def decodeFrom : Option Pending → List UInt8 → List Char
  | none, [] => []
  | some _, [] => [replacement]
  | none, b :: bs =>
    let (c, pending) := begin? b
    c.toList ++ decodeFrom pending bs
  | some p, b :: bs =>
    if p.least ≤ b.toNat ∧ b.toNat ≤ p.greatest then
      let bits := p.bits * 0x40 + (b.toNat - 0x80)
      if p.more = 1 then Char.ofNat bits :: decodeFrom none bs
      else decodeFrom (some ⟨p.more - 1, bits, 0x80, 0xBF⟩) bs
    else
      -- the byte that cuts a character short begins the next one
      let (c, pending) := begin? b
      replacement :: c.toList ++ decodeFrom pending bs

/-- The text of some bytes, with U+FFFD in place of what is no character. -/
def decodeLossy (bytes : List UInt8) : String := String.ofList (decodeFrom none bytes)

end TimedPatterns.Text
