import TimedPatterns.Proofs.Table
import TimedPatterns.Proofs.Text.Blank
import TimedPatterns.Text.Numeral

/-!
# Reading numerals back

A signed number of 64 bits is read back from its decimal digits. The texts that are read as a number
are the numerals, with a sign or without, whose number has 64 bits.
-/

namespace TimedPatterns.Text

variable {cs : List Char}

/-! ### Digits -/

lemma digit?_of_isDigit {c : Char} (h : c.isDigit = true) : digit? c = some (c.toNat - 48) := by
  rw [Char.isDigit, Bool.and_eq_true, decide_eq_true_eq, decide_eq_true_eq] at h
  exact if_pos h

lemma le_ofDigitChars (cs : List Char) (acc : Nat) : acc ≤ Nat.ofDigitChars 10 cs acc := by
  induction cs generalizing acc with
  | nil => exact le_rfl
  | cons c cs ih =>
    rw [Nat.ofDigitChars_cons]
    exact le_trans (by omega) (ih _)

lemma readDigits_eq_ofDigitChars {limit acc : Nat} (past : NumeralError)
    (hdigits : ∀ c ∈ cs, c.isDigit = true) (hle : Nat.ofDigitChars 10 cs acc ≤ limit) :
    readDigits limit past acc cs = .ok (Nat.ofDigitChars 10 cs acc) := by
  induction cs generalizing acc with
  | nil => rfl
  | cons c cs ih =>
    obtain ⟨hc, hcs⟩ := List.forall_mem_cons.1 hdigits
    have hnext : Nat.ofDigitChars 10 (c :: cs) acc =
        Nat.ofDigitChars 10 cs (acc * 10 + (c.toNat - 48)) := by
      rw [Nat.ofDigitChars_cons, Nat.mul_comm]
      rfl
    rw [hnext] at hle ⊢
    rw [readDigits, digit?_of_isDigit hc]
    dsimp only
    rw [if_pos ((le_ofDigitChars cs _).trans hle), ih hcs hle]

/-- The decimal digits of a number. -/
lemma toList_toString_nat (n : Nat) : (toString n).toList = Nat.toDigits 10 n := by
  rw [Nat.toString_eq_ofList_toDigits, String.toList_ofList]

lemma isDigit_of_mem_toDigits {n : Nat} {c : Char} (h : c ∈ Nat.toDigits 10 n) :
    c.isDigit = true :=
  Nat.isDigit_of_mem_toDigits (by decide) le_rfl h

lemma isDigit_of_mem_toString_nat {n : Nat} {c : Char} (h : c ∈ (toString n).toList) :
    c.isDigit = true := by
  rw [toList_toString_nat] at h
  exact isDigit_of_mem_toDigits h

lemma toString_nat_injective : Function.Injective (toString : Nat → String) := by
  intro m n heq
  have hvalue := congrArg (fun s : String => Nat.ofDigitChars 10 s.toList 0) heq
  simpa only [toList_toString_nat, Nat.ofDigitChars_ten_toDigits] using hvalue

/-- The digits of a number end where no digit follows. -/
lemma toString_nat_append_inj {m n : Nat} {rest rest' : String}
    (hrest : ∀ c ∈ rest.toList.head?, c.isDigit = false)
    (hrest' : ∀ c ∈ rest'.toList.head?, c.isDigit = false)
    (h : toString m ++ rest = toString n ++ rest') : m = n ∧ rest = rest' := by
  have hnil {cs : List Char} (hcs : ∀ c ∈ cs.head?, c.isDigit = false) :
      cs.takeWhile Char.isDigit = [] := by
    cases cs with
    | nil => rfl
    | cons c cs => exact List.takeWhile_cons_of_neg (by simp [hcs c rfl])
  -- the numeral is all there is up to the first sign that is no digit
  have htake (n : Nat) {cs : List Char} (hcs : ∀ c ∈ cs.head?, c.isDigit = false) :
      (Nat.toDigits 10 n ++ cs).takeWhile Char.isDigit = Nat.toDigits 10 n := by
    rw [List.takeWhile_append_of_pos fun c hc => isDigit_of_mem_toDigits hc, hnil hcs,
      List.append_nil]
  have hlists := congrArg String.toList h
  rw [String.toList_append, String.toList_append, toList_toString_nat, toList_toString_nat] at hlists
  have hdigits : Nat.toDigits 10 m = Nat.toDigits 10 n := by
    rw [← htake m hrest, hlists, htake n hrest']
  obtain rfl : m = n := toString_nat_injective <| String.toList_inj.1 <| by
    rw [toList_toString_nat, toList_toString_nat, hdigits]
  exact ⟨rfl, (String.append_right_inj _).1 h⟩

/-! ### Signed numbers -/

lemma toList_toString_natCast (n : Nat) : (toString (n : Int)).toList = Nat.toDigits 10 n :=
  toList_toString_nat n

lemma toList_toString_neg (n : Nat) :
    (toString (-((n + 1 : Nat) : Int))).toList = '-' :: Nat.toDigits 10 (n + 1) := by
  show ("-" ++ toString (n + 1)).toList = _
  rw [String.toList_append, toList_toString_nat]
  rfl

/-- The decimal form of an integer is that of a natural number, with a minus sign or without. -/
lemma toList_toString_int (k : Int) :
    (0 ≤ k ∧ (toString k).toList = Nat.toDigits 10 k.natAbs) ∨
      (k < 0 ∧ (toString k).toList = '-' :: Nat.toDigits 10 k.natAbs) := by
  cases k with
  | ofNat n => exact .inl ⟨Int.natCast_nonneg n, toList_toString_natCast n⟩
  | negSucc n => exact .inr ⟨Int.negSucc_lt_zero n, toList_toString_neg n⟩

/-- A decimal form has digits, and perhaps a minus sign. -/
lemma mem_toString_int {k : Int} {c : Char} (h : c ∈ (toString k).toList) :
    c = '-' ∨ c.isDigit = true := by
  rcases toList_toString_int k with ⟨-, hlist⟩ | ⟨-, hlist⟩
  · rw [hlist] at h
    exact .inr (isDigit_of_mem_toDigits h)
  · rw [hlist] at h
    exact (List.mem_cons.1 h).imp_right isDigit_of_mem_toDigits

lemma isBlank_of_mem_toString_int {k : Int} {c : Char} (h : c ∈ (toString k).toList) :
    isBlank c = false := by
  rcases mem_toString_int h with rfl | hdigit
  · rfl
  · exact isBlank_of_isWord (isWord_of_isAlphanum (by simp [Char.isAlphanum, hdigit]))

lemma readSigned_of_isDigit (hne : cs ≠ []) (hdigits : ∀ c ∈ cs, c.isDigit = true) :
    readSigned cs = (readMagnitude 9223372036854775807 .tooLarge cs).map Int.ofNat := by
  obtain ⟨c, rest, rfl⟩ := List.exists_cons_of_ne_nil hne
  have hc : c.isDigit = true := hdigits c List.mem_cons_self
  rw [readSigned.eq_def]
  split
  · next heq => cases heq
  · next heq =>
    cases heq
    cases hc
  · next heq =>
    cases heq
    cases hc
  · rfl

/-! ### Numbers that are denoted -/

/-- The number that a text denotes: decimal digits, with a minus sign before them or without. -/
inductive Denotes : List Char → Int → Prop
  | natural {digits : List Char} (hne : digits ≠ [])
      (hdigits : ∀ c ∈ digits, c.isDigit = true) : Denotes digits (Nat.ofDigitChars 10 digits 0)
  | negative {digits : List Char} (hne : digits ≠ [])
      (hdigits : ∀ c ∈ digits, c.isDigit = true) :
      Denotes ('-' :: digits) (-(Nat.ofDigitChars 10 digits 0 : Int))

/-- A number is denoted by its decimal form. -/
lemma denotes_toString (k : Int) : Denotes (toString k).toList k := by
  have hne : Nat.toDigits 10 k.natAbs ≠ [] := Nat.toDigits_ne_nil
  have hdigits : ∀ c ∈ Nat.toDigits 10 k.natAbs, c.isDigit = true :=
    fun c => isDigit_of_mem_toDigits
  have hvalue : Nat.ofDigitChars 10 (Nat.toDigits 10 k.natAbs) 0 = k.natAbs :=
    Nat.ofDigitChars_ten_toDigits
  rcases toList_toString_int k with ⟨hk, hlist⟩ | ⟨hk, hlist⟩
  · have hdenotes := Denotes.natural hne hdigits
    rwa [hvalue, Int.natAbs_of_nonneg hk, ← hlist] at hdenotes
  · have hneg : -(k.natAbs : Int) = k := by omega
    have hdenotes := Denotes.negative hne hdigits
    rwa [hvalue, hneg, ← hlist] at hdenotes

/-- A text denotes one number. -/
lemma Denotes.unique {j k : Int} (h : Denotes cs j) (h' : Denotes cs k) : j = k := by
  have hminus : ¬ '-'.isDigit = true := by decide
  cases h with
  | natural hne hdigits =>
    cases h' with
    | natural => rfl
    | negative => exact absurd (hdigits _ List.mem_cons_self) hminus
  | negative hne hdigits =>
    cases h' with
    | natural _ hdigits => exact absurd (hdigits _ List.mem_cons_self) hminus
    | negative => rfl

lemma isSome_digit? (c : Char) : (digit? c).isSome = c.isDigit := by
  have hiff : c.isDigit = true ↔ '0' ≤ c ∧ c ≤ '9' := by
    rw [Char.isDigit, Bool.and_eq_true, decide_eq_true_eq, decide_eq_true_eq]
    exact Iff.rfl
  rw [Bool.eq_iff_iff, hiff, digit?]
  split_ifs with h
  · exact iff_of_true rfl h
  · exact iff_of_false Bool.false_ne_true h

lemma readDigits_of_lt {limit acc : Nat} (past : NumeralError)
    (hdigits : ∀ c ∈ cs, c.isDigit = true) (hacc : acc ≤ limit)
    (hlt : limit < Nat.ofDigitChars 10 cs acc) : readDigits limit past acc cs = .error past := by
  induction cs generalizing acc with
  | nil => exact absurd hlt (by simpa using hacc)
  | cons c cs ih =>
    obtain ⟨hc, hcs⟩ := List.forall_mem_cons.1 hdigits
    rw [Nat.ofDigitChars_cons, Nat.mul_comm] at hlt
    rw [readDigits, digit?_of_isDigit hc]
    dsimp only
    split_ifs with hle
    · exact ih hcs hle hlt
    · rfl

lemma readMagnitude_eq_ok_iff {limit n : Nat} (past : NumeralError) (hne : cs ≠ [])
    (hdigits : ∀ c ∈ cs, c.isDigit = true) :
    readMagnitude limit past cs = .ok n ↔ Nat.ofDigitChars 10 cs 0 = n ∧ n ≤ limit := by
  obtain ⟨c, rest, rfl⟩ := List.exists_cons_of_ne_nil hne
  rw [readMagnitude]
  by_cases hle : Nat.ofDigitChars 10 (c :: rest) 0 ≤ limit
  · rw [readDigits_eq_ofDigitChars past hdigits hle, Except.ok.injEq]
    exact ⟨fun h => ⟨h, h ▸ hle⟩, fun h => h.1⟩
  · rw [readDigits_of_lt past hdigits (Nat.zero_le limit) (not_le.1 hle)]
    exact iff_of_false nofun fun ⟨heq, hn⟩ => hle (heq ▸ hn)

/-- A text that denotes a number is read exactly if the number has 64 bits. -/
theorem Denotes.readSigned_eq_ok_iff {j k : Int} (h : Denotes cs k) :
    readSigned cs = .ok j ↔ k = j ∧ minSigned ≤ k ∧ k ≤ maxSigned := by
  unfold minSigned maxSigned
  cases h with
  | natural hne hdigits =>
    -- the digits of a negative number may denote one more than those of another
    have hread (n : Nat) : readMagnitude 9223372036854775807 .tooLarge cs = .ok n ↔ _ :=
      readMagnitude_eq_ok_iff .tooLarge hne hdigits
    rw [readSigned_of_isDigit hne hdigits, map_eq_ok_iff]
    simp only [hread]
    constructor
    · rintro ⟨_, ⟨rfl, hle⟩, rfl⟩
      exact ⟨rfl, by omega, by omega⟩
    · rintro ⟨rfl, -, hle⟩
      exact ⟨_, ⟨rfl, by omega⟩, rfl⟩
  | @negative digits hne hdigits =>
    have hread (n : Nat) : readMagnitude 9223372036854775808 .tooSmall digits = .ok n ↔ _ :=
      readMagnitude_eq_ok_iff .tooSmall hne hdigits
    rw [readSigned, map_eq_ok_iff]
    simp only [bind_eq_ok_iff, hread]
    constructor
    · rintro ⟨_, ⟨_, ⟨rfl, hle⟩, ⟨⟩⟩, rfl⟩
      exact ⟨rfl, by omega, by omega⟩
    · rintro ⟨rfl, hle, -⟩
      exact ⟨_, ⟨_, ⟨rfl, by omega⟩, rfl⟩, rfl⟩

/-! ### Numerals with a sign -/

/-- The number of a numeral: decimal digits, with a sign before them or without. -/
inductive Signed : List Char → Int → Prop
  | denoted {cs : List Char} {k : Int} (h : Denotes cs k) : Signed cs k
  | positive {digits : List Char} (hne : digits ≠ [])
      (hdigits : ∀ c ∈ digits, c.isDigit = true) :
      Signed ('+' :: digits) (Nat.ofDigitChars 10 digits 0)

lemma Signed.ne_nil {k : Int} (h : Signed cs k) : cs ≠ [] := by
  cases h with
  | denoted h =>
    cases h with
    | natural hne => exact hne
    | negative => exact List.cons_ne_nil _ _
  | positive => exact List.cons_ne_nil _ _

lemma isDigit_of_readDigits {limit acc n : Nat} {past : NumeralError}
    (h : readDigits limit past acc cs = .ok n) : ∀ c ∈ cs, c.isDigit = true := by
  induction cs generalizing acc with
  | nil => exact List.forall_mem_nil _
  | cons c cs ih =>
    rw [readDigits] at h
    split at h
    · cases h
    · next d hd =>
      split_ifs at h
      have hc : c.isDigit = true := by rw [← isSome_digit?, hd, Option.isSome_some]
      exact List.forall_mem_cons.2 ⟨hc, ih h⟩

lemma digits_of_readMagnitude {limit n : Nat} {past : NumeralError}
    (h : readMagnitude limit past cs = .ok n) : cs ≠ [] ∧ ∀ c ∈ cs, c.isDigit = true := by
  cases cs with
  | nil => cases h
  | cons c cs => exact ⟨List.cons_ne_nil c cs, isDigit_of_readDigits h⟩

/-- What is read as a number is a numeral. -/
lemma exists_signed_of_readSigned {k : Int} (h : readSigned cs = .ok k) : ∃ j, Signed cs j := by
  unfold readSigned at h
  split at h
  · cases h
  · obtain ⟨_, hcast, -⟩ := map_eq_ok_iff.1 h
    obtain ⟨n, hread, -⟩ := bind_eq_ok_iff.1 hcast
    obtain ⟨hne, hdigits⟩ := digits_of_readMagnitude hread
    exact ⟨_, .denoted (.negative hne hdigits)⟩
  · obtain ⟨n, hread, -⟩ := map_eq_ok_iff.1 h
    obtain ⟨hne, hdigits⟩ := digits_of_readMagnitude hread
    exact ⟨_, .positive hne hdigits⟩
  · obtain ⟨n, hread, -⟩ := map_eq_ok_iff.1 h
    obtain ⟨hne, hdigits⟩ := digits_of_readMagnitude hread
    exact ⟨_, .denoted (.natural hne hdigits)⟩

lemma Signed.readSigned_eq_ok_iff {j k : Int} (h : Signed cs k) :
    readSigned cs = .ok j ↔ k = j ∧ minSigned ≤ k ∧ k ≤ maxSigned := by
  cases h with
  | denoted h => exact h.readSigned_eq_ok_iff
  | @positive digits hne hdigits =>
    have hread : readSigned ('+' :: digits) = readSigned digits :=
      (readSigned_of_isDigit hne hdigits).symm
    rw [hread]
    exact (Denotes.natural hne hdigits).readSigned_eq_ok_iff

/-- The texts that are read are the numerals whose numbers have 64 bits. -/
theorem readSigned_eq_ok_iff {k : Int} :
    readSigned cs = .ok k ↔ Signed cs k ∧ minSigned ≤ k ∧ k ≤ maxSigned := by
  constructor
  · intro h
    obtain ⟨j, hj⟩ := exists_signed_of_readSigned h
    obtain ⟨rfl, hrange⟩ := hj.readSigned_eq_ok_iff.1 h
    exact ⟨hj, hrange⟩
  · rintro ⟨h, hrange⟩
    exact h.readSigned_eq_ok_iff.2 ⟨rfl, hrange⟩

/-- A signed number of 64 bits is read back from its decimal form. -/
theorem readSigned_toString {k : Int} (hmin : minSigned ≤ k) (hmax : k ≤ maxSigned) :
    readSigned (toString k).toList = .ok k :=
  (denotes_toString k).readSigned_eq_ok_iff.2 ⟨rfl, hmin, hmax⟩

end TimedPatterns.Text
