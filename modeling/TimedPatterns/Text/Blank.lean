/-!
# Blank characters

The characters with the Unicode property `White_Space`, trimming them from the ends of a text,
and splitting a text into pieces, words and lines.

Everything works on lists of characters; `Text.trim`, `Text.words` and `Text.lines` are the same
functions on strings.
-/

namespace TimedPatterns.Text

/-- The Unicode property `White_Space`. -/
def isBlank (c : Char) : Bool :=
  let n := c.toNat
  (9 ≤ n && n ≤ 13) || n == 0x20 || n == 0x85 || n == 0xA0 || n == 0x1680
    || (0x2000 ≤ n && n ≤ 0x200A) || n == 0x2028 || n == 0x2029 || n == 0x202F
    || n == 0x205F || n == 0x3000

/-! ### Trimming -/

def trimEndChars (cs : List Char) : List Char := (cs.reverse.dropWhile isBlank).reverse

def trimChars (cs : List Char) : List Char := trimEndChars (cs.dropWhile isBlank)

/-- Drop the blanks at both ends of a string. -/
def trim (s : String) : String := String.ofList (trimChars s.toList)

/-! ### Pieces -/

/-- Cut a text at every character that satisfies `p`: one piece more than there are cuts. -/
def pieces (p : Char → Bool) : List Char → List (List Char)
  | [] => [[]]
  | c :: cs =>
    if p c then [] :: pieces p cs
    else match pieces p cs with
      | [] => [[c]]
      | w :: ws => (c :: w) :: ws

theorem pieces_ne_nil (p : Char → Bool) (cs : List Char) : pieces p cs ≠ [] := by
  match cs with
  | [] => simp [pieces]
  | c :: cs =>
    simp only [pieces]
    split
    · simp
    · split <;> simp

/-- The pieces of a string between the occurrences of `sep`. -/
def splitAt (sep : Char) (s : String) : List String :=
  (pieces (· == sep) s.toList).map String.ofList

/-- The maximal runs of characters that are not blank. -/
def wordsChars (cs : List Char) : List (List Char) := (pieces isBlank cs).filter (!·.isEmpty)

def words (s : String) : List String := (wordsChars s.toList).map String.ofList

/-! ### Parts of a text -/

/-- Whether the text begins with `pre`, and what follows it. -/
def dropPrefix? : List Char → List Char → Option (List Char)
  | [], cs => some cs
  | _ :: _, [] => none
  | p :: ps, c :: cs => if p = c then dropPrefix? ps cs else none

theorem dropPrefix?_eq_some_iff {ps cs rest : List Char} :
    dropPrefix? ps cs = some rest ↔ cs = ps ++ rest := by
  induction ps generalizing cs with
  | nil => simp [dropPrefix?]
  | cons p ps ih =>
    cases cs with
    | nil => simp [dropPrefix?]
    | cons c cs =>
      by_cases h : p = c
      · simp [dropPrefix?, h, ih]
      · simp [dropPrefix?, h, Ne.symm h]

/-- What stands before the first occurrence of `needle`, and what follows that occurrence. -/
def cutFirst? (needle : List Char) : List Char → Option (List Char × List Char)
  | [] => (dropPrefix? needle []).map ([], ·)
  | c :: cs =>
    match dropPrefix? needle (c :: cs) with
    | some rest => some ([], rest)
    | none => (cutFirst? needle cs).map fun (before, after) => (c :: before, after)

/-- A cut loses nothing but the occurrence it was made at. -/
theorem append_of_cutFirst? {needle cs before after : List Char}
    (h : cutFirst? needle cs = some (before, after)) : cs = before ++ needle ++ after := by
  induction cs generalizing before after with
  | nil =>
    simp only [cutFirst?, Option.map_eq_some_iff, Prod.mk.injEq] at h
    obtain ⟨rest, hrest, rfl, rfl⟩ := h
    simpa using dropPrefix?_eq_some_iff.1 hrest
  | cons c cs ih =>
    simp only [cutFirst?] at h
    split at h
    · next rest hrest =>
      simp only [Option.some.injEq, Prod.mk.injEq] at h
      obtain ⟨rfl, rfl⟩ := h
      simpa using dropPrefix?_eq_some_iff.1 hrest
    · simp only [Option.map_eq_some_iff, Prod.exists, Prod.mk.injEq] at h
      obtain ⟨b, a, hcut, rfl, rfl⟩ := h
      simp [ih hcut]

def occurs (needle cs : List Char) : Bool := (cutFirst? needle cs).isSome

end TimedPatterns.Text
