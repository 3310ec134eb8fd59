import TimedPatterns.CommandLine.Signal
import TimedPatterns.Proofs.Text.Numeral

/-!
# Actions of signals, read and written

The arguments that are read as an action have a label that is not blank and at most two fields
behind it, each of them empty or a numeral whose number has 64 bits. An action that is written with
its bounds is read back, also if a bound that bounds nothing is left out.
-/

namespace TimedPatterns.CommandLine

open Text

variable {argument : String} {a : TimedAction} {label field : List Char}
  {fields : List (List Char)} {lower upper b : Int}

/-! ### Bounds -/

/-- The bound that a field gives: none if the field is empty, and else the number of a numeral, if
it has 64 bits. -/
inductive IsBound : List Char → Int → Prop
  | empty : IsBound [] unbounded
  | numeral {field : List Char} {b : Int} (h : Signed field b) (hmin : minSigned ≤ b)
      (hmax : b ≤ maxSigned) : IsBound field b

/-- The bounds that the fields behind a label give, two at most. -/
inductive IsBounds : List (List Char) → Int → Int → Prop
  | none : IsBounds [] unbounded unbounded
  | lower {field : List Char} {lower : Int} (hlower : IsBound field lower) :
      IsBounds [field] lower unbounded
  | both {field field' : List Char} {lower upper : Int} (hlower : IsBound field lower)
      (hupper : IsBound field' upper) : IsBounds [field, field'] lower upper

lemma readBound_eq_ok_iff : readBound field = .ok b ↔ IsBound field b := by
  unfold readBound
  split_ifs with hempty
  · subst hempty
    constructor
    · rintro ⟨⟩
      exact .empty
    · intro h
      cases h with
      | empty => rfl
      | numeral h => exact absurd rfl h.ne_nil
  · rw [mapError_eq_ok_iff, readSigned_eq_ok_iff]
    constructor
    · rintro ⟨h, hmin, hmax⟩
      exact .numeral h hmin hmax
    · intro h
      cases h with
      | empty => exact absurd rfl hempty
      | numeral h hmin hmax => exact ⟨h, hmin, hmax⟩

lemma readBounds_eq_ok_iff :
    readBounds argument fields = .ok (lower, upper) ↔ IsBounds fields lower upper := by
  unfold readBounds
  split
  · constructor
    · rintro ⟨⟩
      exact .none
    · rintro ⟨⟩
      rfl
  · simp only [bind_eq_ok_iff, readBound_eq_ok_iff]
    constructor
    · rintro ⟨_, h, ⟨⟩⟩
      exact .lower h
    · rintro ⟨⟩
      exact ⟨_, ‹_›, rfl⟩
  · simp only [bind_eq_ok_iff, readBound_eq_ok_iff]
    constructor
    · rintro ⟨_, h, _, h', ⟨⟩⟩
      exact .both h h'
    · rintro ⟨⟩
      exact ⟨_, ‹_›, _, ‹_›, rfl⟩
  · next hrest =>
    simp only [bind_eq_ok_iff]
    constructor
    · rintro ⟨_, -, _, -, ⟨⟩⟩
    · rintro ⟨⟩
      exact (hrest rfl).elim

lemma not_mem_of_signed (h : Signed field b) : ':' ∉ field := by
  have hdigit {digits : List Char} (h : ∀ c ∈ digits, c.isDigit = true) : ':' ∉ digits := by
    intro hmem
    exact absurd (h ':' hmem) (by decide)
  cases h with
  | denoted h =>
    cases h with
    | natural _ hdigits => exact hdigit hdigits
    | negative _ hdigits => simpa using hdigit hdigits
  | positive _ hdigits => simpa using hdigit hdigits

lemma IsBound.not_mem (h : IsBound field b) : ':' ∉ field := by
  cases h with
  | empty => simp
  | numeral h => exact not_mem_of_signed h

lemma IsBound.eq_unbounded (h : IsBound [] b) : b = unbounded := by
  cases h with
  | empty => rfl
  | numeral h => exact absurd rfl h.ne_nil

lemma exists_isBound_iff : (∃ b, IsBound field b) ↔
    field = [] ∨ ∃ b, Signed field b ∧ minSigned ≤ b ∧ b ≤ maxSigned := by
  constructor
  · rintro ⟨b, h⟩
    cases h with
    | empty => exact .inl rfl
    | numeral h hmin hmax => exact .inr ⟨b, h, hmin, hmax⟩
  · rintro (rfl | ⟨b, h, hmin, hmax⟩)
    · exact ⟨_, .empty⟩
    · exact ⟨b, .numeral h hmin hmax⟩

lemma IsBounds.not_mem (h : IsBounds fields lower upper) : ∀ field ∈ fields, ':' ∉ field := by
  cases h with
  | none => simp
  | lower hlower => simpa using hlower.not_mem
  | both hlower hupper => simpa using ⟨hlower.not_mem, hupper.not_mem⟩

lemma exists_isBounds_iff : (∃ lower upper, IsBounds fields lower upper) ↔
    fields.length ≤ 2 ∧ ∀ field ∈ fields, ∃ b, IsBound field b := by
  constructor
  · rintro ⟨lower, upper, h⟩
    cases h with
    | none => simp
    | lower hlower => simpa using ⟨_, hlower⟩
    | both hlower hupper => simpa using ⟨⟨_, hlower⟩, _, hupper⟩
  · rintro ⟨hlength, hfields⟩
    match fields with
    | [] => exact ⟨_, _, .none⟩
    | [field] =>
      obtain ⟨lower, hlower⟩ := hfields field (by simp)
      exact ⟨_, _, .lower hlower⟩
    | [field, field'] =>
      obtain ⟨lower, hlower⟩ := hfields field (by simp)
      obtain ⟨upper, hupper⟩ := hfields field' (by simp)
      exact ⟨_, _, .both hlower hupper⟩
    | _ :: _ :: _ :: _ => simp at hlength

/-- An empty field at the end can be left out. -/
lemma IsBounds.of_concat_nil (h : IsBounds (fields ++ [[]]) lower upper) :
    IsBounds fields lower upper := by
  generalize hall : fields ++ [[]] = all at h
  cases h with
  | none => simp at hall
  | lower hlower =>
    obtain ⟨rfl, rfl⟩ : fields = [] ∧ _ = [] := by simpa [List.append_eq_singleton_iff] using hall
    rw [hlower.eq_unbounded]
    exact .none
  | @both field field' _ _ hlower hupper =>
    have hsplit : fields ++ [[]] = [field] ++ [field'] := hall
    obtain ⟨rfl, hlast⟩ := List.append_inj' hsplit rfl
    obtain rfl : [] = field' := by simpa using hlast
    rw [hupper.eq_unbounded]
    exact .lower hlower

/-! ### Arguments -/

/-- The action that an argument gives. Its label is what is left of the first part without the
blanks around it. -/
inductive Gives : List Char → TimedAction → Prop
  | mk {label : List Char} {fields : List (List Char)} {lower upper : Int} (hcolon : ':' ∉ label)
      (hlabel : trimChars label ≠ []) (hbounds : IsBounds fields lower upper) :
      Gives ([':'].intercalate (label :: fields))
        ⟨String.ofList (trimChars label), lower, upper⟩

/-- An argument is cut at its colons. -/
lemma pieces_argument (hparts : ∀ part ∈ label :: fields, ':' ∉ part) :
    pieces (· == ':') ([':'].intercalate (label :: fields)) = label :: fields :=
  pieces_intercalate (List.cons_ne_nil _ _) (fun part hpart => beq_of_not_mem (hparts part hpart)) rfl

lemma exists_parts (cs : List Char) : ∃ label fields,
    cs = [':'].intercalate (label :: fields) ∧ ∀ part ∈ label :: fields, ':' ∉ part := by
  obtain ⟨label, fields, hpieces⟩ := List.exists_cons_of_ne_nil (pieces_ne_nil (· == ':') cs)
  refine ⟨label, fields, ?_, ?_⟩
  · rw [← hpieces, intercalate_pieces]
  · intro part hpart
    rw [← hpieces] at hpart
    exact not_mem_of_mem_pieces hpart

lemma readAction_of_pieces (h : pieces (· == ':') argument.toList = label :: fields) :
    readAction argument = .ok a ↔ a.action = String.ofList (trimChars label) ∧
      trimChars label ≠ [] ∧ IsBounds fields a.lower a.upper := by
  unfold readAction
  rw [h]
  dsimp only
  split_ifs with hlabel
  · simp [hlabel]
  · simp only [bind_eq_ok_iff, Prod.exists, readBounds_eq_ok_iff]
    constructor
    · rintro ⟨lower, upper, hbounds, ⟨⟩⟩
      exact ⟨rfl, hlabel, hbounds⟩
    · rintro ⟨haction, -, hbounds⟩
      refine ⟨a.lower, a.upper, hbounds, ?_⟩
      rw [← haction]
      rfl

/-- The arguments that are read are those that give an action. -/
theorem readAction_eq_ok_iff : readAction argument = .ok a ↔ Gives argument.toList a := by
  constructor
  · intro h
    obtain ⟨label, fields, hargument, hparts⟩ := exists_parts argument.toList
    have hpieces := pieces_argument hparts
    rw [← hargument] at hpieces
    obtain ⟨haction, hlabel, hbounds⟩ := (readAction_of_pieces hpieces).1 h
    obtain ⟨action, lower, upper⟩ := a
    obtain rfl : action = String.ofList (trimChars label) := haction
    rw [hargument]
    exact .mk (hparts label List.mem_cons_self) hlabel hbounds
  · intro h
    generalize hcs : argument.toList = cs at h
    obtain ⟨hcolon, hlabel, hbounds⟩ := h
    have hpieces := pieces_argument (List.forall_mem_cons.2 ⟨hcolon, hbounds.not_mem⟩)
    rw [← hcs] at hpieces
    exact (readAction_of_pieces hpieces).2 ⟨rfl, hlabel, hbounds⟩

lemma count_argument (hparts : ∀ part ∈ label :: fields, ':' ∉ part) :
    ([':'].intercalate (label :: fields)).count ':' = fields.length := by
  induction fields generalizing label with
  | nil => simpa [List.count_eq_zero] using hparts
  | cons field fields ih =>
    obtain ⟨hlabel, hfields⟩ := List.forall_mem_cons.1 hparts
    rw [List.intercalate_cons_cons, List.count_append, List.count_append, ih hfields,
      List.count_eq_zero.2 hlabel]
    simp [Nat.add_comm]

/-- A text with at most two colons, a first part that is not blank, and further parts that are empty
or numerals of 64 bits. -/
def IsArgument (cs : List Char) : Prop :=
  cs.count ':' ≤ 2 ∧ ∃ label fields, cs = [':'].intercalate (label :: fields) ∧
    (∀ part ∈ label :: fields, ':' ∉ part) ∧ (∃ c ∈ label, isBlank c = false) ∧
    ∀ field ∈ fields, field = [] ∨ ∃ b, Signed field b ∧ minSigned ≤ b ∧ b ≤ maxSigned

lemma trimChars_ne_nil_iff : trimChars label ≠ [] ↔ ∃ c ∈ label, isBlank c = false := by
  simp [trimChars_eq_nil_iff]

lemma exists_gives_iff {cs : List Char} : (∃ a, Gives cs a) ↔ IsArgument cs := by
  constructor
  · rintro ⟨_, @⟨label, fields, lower, upper, hcolon, hlabel, hbounds⟩⟩
    have hparts : ∀ part ∈ label :: fields, ':' ∉ part :=
      List.forall_mem_cons.2 ⟨hcolon, hbounds.not_mem⟩
    obtain ⟨hlength, hfields⟩ := exists_isBounds_iff.1 ⟨lower, upper, hbounds⟩
    refine ⟨?_, label, fields, rfl, hparts, trimChars_ne_nil_iff.1 hlabel, ?_⟩
    · rwa [count_argument hparts]
    · intro field hfield
      exact exists_isBound_iff.1 (hfields field hfield)
  · rintro ⟨hcount, label, fields, rfl, hparts, hlabel, hfields⟩
    rw [count_argument hparts] at hcount
    obtain ⟨lower, upper, hbounds⟩ := exists_isBounds_iff.2
      ⟨hcount, fun field hfield => exists_isBound_iff.2 (hfields field hfield)⟩
    exact ⟨_, .mk (hparts label List.mem_cons_self) (trimChars_ne_nil_iff.2 hlabel) hbounds⟩

/-! ### Writing -/

/-- A bound as a field: its decimal form, or nothing if it bounds nothing. -/
inductive WritesBound : Int → String → Prop
  | decimal (b : Int) : WritesBound b (toString b)
  | empty : WritesBound unbounded ""

/-- Two bounds as the fields behind a label, of which empty ones at the end may be left out. -/
inductive WritesBounds (lower upper : Int) : List String → Prop
  | full {field field' : String} (hlower : WritesBound lower field)
      (hupper : WritesBound upper field') : WritesBounds lower upper [field, field']
  | drop {fields : List String} (h : WritesBounds lower upper (fields ++ [""])) :
      WritesBounds lower upper fields

lemma WritesBound.isBound {text : String} (h : WritesBound b text) (hmin : minSigned ≤ b)
    (hmax : b ≤ maxSigned) : IsBound text.toList b := by
  cases h with
  | decimal => exact .numeral (.denoted (denotes_toString b)) hmin hmax
  | empty => exact .empty

lemma WritesBounds.isBounds {texts : List String} (h : WritesBounds lower upper texts)
    (hlower : minSigned ≤ lower ∧ lower ≤ maxSigned)
    (hupper : minSigned ≤ upper ∧ upper ≤ maxSigned) :
    IsBounds (texts.map String.toList) lower upper := by
  induction h with
  | full h h' => exact .both (h.isBound hlower.1 hlower.2) (h'.isBound hupper.1 hupper.2)
  | drop _ ih =>
    rw [List.map_append] at ih
    exact ih.of_concat_nil

/-- An action whose label is neither empty nor has blank ends or colons, and whose bounds have 64
bits, is read back from its label and its bounds with colons between them, also if a bound that
bounds nothing is left empty and if empty fields at the end are left out. An argument is read if and
only if it has at most two colons, its first part is not blank, and each further part is empty or a
numeral whose number has 64 bits. -/
theorem readAction_exact :
    (∀ (label : String) (lower upper : Int), label ≠ "" → trim label = label →
      ':' ∉ label.toList → minSigned ≤ lower ∧ lower ≤ maxSigned →
      minSigned ≤ upper ∧ upper ≤ maxSigned → ∀ fields, WritesBounds lower upper fields →
        readAction (":".intercalate (label :: fields)) = .ok ⟨label, lower, upper⟩) ∧
    ∀ argument, (∃ a, readAction argument = .ok a) ↔ IsArgument argument.toList := by
  constructor
  · intro label lower upper hne htrim hcolon hlower hupper fields hfields
    have htrim' : trimChars label.toList = label.toList := by
      rw [← String.toList_ofList (l := trimChars label.toList), ← trim, htrim]
    have hlabel : trimChars label.toList ≠ [] := by
      rw [htrim']
      simpa using hne
    rw [readAction_eq_ok_iff, String.toList_intercalate, List.map_cons]
    have hgives := Gives.mk hcolon hlabel (hfields.isBounds hlower hupper)
    rwa [htrim', String.ofList_toList] at hgives
  · intro argument
    simp only [readAction_eq_ok_iff, exists_gives_iff]

/-- The least bound is read back, without the field of the other bound; a numeral may have a plus
sign. -/
theorem readAction_exact_sample :
    WritesBounds minSigned unbounded ["-9223372036854775808"] ∧
      readAction "ack:-9223372036854775808" = .ok ⟨"ack", minSigned, unbounded⟩ ∧
      IsArgument " ack :+5:".toList ∧ ∃ a, readAction " ack :+5:" = .ok a := by
  have hwrites : WritesBounds minSigned unbounded ["-9223372036854775808"] :=
    .drop (.full (.decimal minSigned) .empty)
  have hargument : IsArgument " ack :+5:".toList := by
    refine ⟨by decide, " ack ".toList, ["+5".toList, []], by decide, by decide,
      ⟨'a', by decide, rfl⟩, ?_⟩
    have hfive : Signed ['+', '5'] 5 := .positive (by simp) (by simp)
    simpa using ⟨5, hfive, by decide, by decide⟩
  exact ⟨hwrites, readAction_exact.1 "ack" minSigned unbounded (by decide) (by decide) (by decide)
    (by decide) (by decide) _ hwrites, hargument, (readAction_exact.2 " ack :+5:").2 hargument⟩

end TimedPatterns.CommandLine
