import Mathlib.Data.List.TakeWhile
import TimedPatterns.Markup.Reader
import TimedPatterns.Proofs.Text.Blank

/-!
# Tags and comments

How tags, comments and blanks are written, told without the reader. It admits more than one blank
between attributes, blanks around the sign that assigns a value, and both quotes.

Each step of the reader is told by an equivalence: it succeeds if and only if such a text comes
first, and leaves what follows. For blanks and attributes, of which there may be any number, what
follows must not begin with another one.
-/

namespace TimedPatterns.Markup

variable {p : Char → Bool} {cs rest xs text : List Char} {n value : String}
  {a : String × String} {as : List (String × String)}

/-! ### Signs and classes -/

lemma result_sign_iff {s : String} : (sign s cs).result = some rest ↔ cs = s.toList ++ rest := by
  rw [sign, ← Text.dropPrefix?_eq_some_iff]
  cases Text.dropPrefix? s.toList cs <;> simp

lemma result_many (hxs : ∀ x ∈ xs, p x = true) (hrest : ∀ c ∈ rest.head?, p c = false) :
    (many p (xs ++ rest)).result = some (xs, rest) := by
  have htake : rest.takeWhile p = [] := by
    cases rest with
    | nil => rfl
    | cons c cs => rw [List.takeWhile_cons_of_neg (by simp [hrest c rfl])]
  rw [many, Attempt.result_after, List.takeWhile_append_of_pos hxs,
    List.dropWhile_append_of_pos hxs, htake, Text.dropWhile_eq_self hrest, List.append_nil]

lemma head?_dropWhile : ∀ c ∈ (cs.dropWhile p).head?, p c = false := by
  intro c hc
  have hnot := List.head?_dropWhile_not p cs
  rw [Option.mem_def.1 hc] at hnot
  exact hnot

lemma result_many_iff : (many p cs).result = some (xs, rest) ↔
    cs = xs ++ rest ∧ (∀ x ∈ xs, p x = true) ∧ ∀ c ∈ rest.head?, p c = false := by
  constructor
  · intro h
    obtain ⟨rfl, rfl⟩ := eq_of_many h
    exact ⟨List.takeWhile_append_dropWhile.symm, fun x => List.mem_takeWhile_imp, head?_dropWhile⟩
  · rintro ⟨rfl, hxs, hrest⟩
    exact result_many hxs hrest

lemma result_many1_iff : (many1 p cs).result = some (xs, rest) ↔
    xs ≠ [] ∧ cs = xs ++ rest ∧ (∀ x ∈ xs, p x = true) ∧ ∀ c ∈ rest.head?, p c = false := by
  rw [← result_many_iff, many1]
  split
  · next hempty =>
    simp only [Attempt.result_miss, reduceCtorEq, false_iff, not_and]
    intro hne h
    exact hne ((eq_of_many h).1.trans (List.isEmpty_iff.1 hempty))
  · next hempty =>
    refine ⟨fun h => ⟨fun hnil => hempty ?_, h⟩, And.right⟩
    rw [← (eq_of_many h).1, hnil]
    rfl

lemma result_many1_of_head (hrest : ∀ c ∈ rest.head?, p c = false) :
    (many1 p rest).result = none := by
  cases rest with
  | nil => rfl
  | cons c cs => rw [many1, if_pos (by simp [hrest c rfl]), Attempt.result_miss]

/-! ### Enclosed texts -/

/-- A text between two signs, in which the second one does not occur. -/
inductive Enclosed (opening closing : String) : List Char → Prop
  | mk {body : List Char} (h : ¬ closing.toList <:+: body) :
      Enclosed opening closing (opening.toList ++ (body ++ closing.toList))

lemma result_enclosed_iff {opening closing : String} (hclosing : Text.Unbordered closing.toList)
    (hne : closing.toList ≠ []) :
    ((sign opening cs).result.bind fun rest => (through closing rest).result) = some rest ↔
      ∃ text, Enclosed opening closing text ∧ cs = text ++ rest := by
  simp only [Option.bind_eq_some_iff, result_sign_iff]
  constructor
  · rintro ⟨inner, rfl, h⟩
    unfold through at h
    split at h
    · next body after hcut =>
      simp only [Attempt.result_pure, Option.some.injEq] at h
      subst h
      refine ⟨_, .mk (Text.not_infix_of_cutFirst? hne hcut), ?_⟩
      rw [Text.append_of_cutFirst? hcut, List.append_assoc, List.append_assoc, List.append_assoc]
    · simp at h
  · rintro ⟨_, ⟨hbody⟩, rfl⟩
    refine ⟨_, List.append_assoc _ _ _, ?_⟩
    rw [through, List.append_assoc, Text.cutFirst?_append hclosing hne hbody]
    rfl

/-! ### Blanks and comments -/

abbrev Comment : List Char → Prop := Enclosed "<!--" "-->"

lemma result_comment_iff :
    (comment cs).result = some rest ↔ ∃ text, Comment text ∧ cs = text ++ rest := by
  rw [comment, Attempt.result_bind]
  exact result_enclosed_iff (by decide) (by decide)

/-- Blanks and comments. -/
inductive Blanks : List Char → Prop
  | nil : Blanks []
  | space {c : Char} {cs : List Char} (hc : isSpace c = true) (h : Blanks cs) : Blanks (c :: cs)
  | comment {text cs : List Char} (htext : Comment text) (h : Blanks cs) : Blanks (text ++ cs)

lemma Blanks.spaces_append (hxs : ∀ x ∈ xs, isSpace x = true) (h : Blanks cs) :
    Blanks (xs ++ cs) := by
  induction xs with
  | nil => exact h
  | cons x xs ih =>
    obtain ⟨hx, hxs⟩ := List.forall_mem_cons.1 hxs
    exact .space hx (ih hxs)

/-- Neither a blank nor a comment begins a text. -/
structure Solid (cs : List Char) : Prop where
  head : ∀ c ∈ cs.head?, isSpace c = false
  comment : (comment cs).result = none

lemma result_blanks (cs : List Char) : (blanks cs).result =
    match (comment (cs.dropWhile isSpace)).result with
    | none => some (cs.dropWhile isSpace)
    | some rest => (blanks rest).result := by
  rw [blanks]
  split
  · next hnone => rw [hnone]
  · next hsome => rw [hsome]

lemma result_blanks_of_solid (h : Solid cs) : (blanks cs).result = some cs := by
  rw [result_blanks, Text.dropWhile_eq_self h.head, h.comment]

lemma result_blanks_space {c : Char} (hc : isSpace c = true) (cs : List Char) :
    (blanks (c :: cs)).result = (blanks cs).result := by
  rw [result_blanks, result_blanks cs, List.dropWhile_cons_of_pos hc]

lemma result_blanks_comment (h : Comment text) (rest : List Char) :
    (blanks (text ++ rest)).result = (blanks rest).result := by
  have hcomment : (comment (text ++ rest)).result = some rest :=
    result_comment_iff.2 ⟨text, h, rfl⟩
  have hspace : (text ++ rest).dropWhile isSpace = text ++ rest := by
    obtain ⟨_⟩ := h
    rfl
  rw [result_blanks, hspace, hcomment]

/-- All blanks and comments are read, up to where neither comes next. -/
lemma result_blanks_iff :
    (blanks cs).result = some rest ↔ ∃ text, Blanks text ∧ cs = text ++ rest ∧ Solid rest := by
  constructor
  · -- the reader drops spaces greedily, so between two comments it leaves none
    intro h
    have hspaces (cs : List Char) : ∃ xs, (∀ x ∈ xs, isSpace x = true) ∧
        cs = xs ++ cs.dropWhile isSpace :=
      ⟨_, fun x => List.mem_takeWhile_imp, List.takeWhile_append_dropWhile.symm⟩
    fun_induction blanks cs with
    | case1 cs hnone =>
      cases h
      obtain ⟨xs, hxs, happend⟩ := hspaces cs
      refine ⟨xs, ?_, happend, head?_dropWhile, hnone⟩
      simpa using Blanks.nil.spaces_append hxs
    | case2 cs middle hsome ih =>
      obtain ⟨xs, hxs, happend⟩ := hspaces cs
      obtain ⟨comment, hcomment, hcs⟩ := result_comment_iff.1 hsome
      obtain ⟨text, htext, rfl, hsolid⟩ := ih h
      refine ⟨xs ++ (comment ++ text), (Blanks.comment hcomment htext).spaces_append hxs,
        happend.trans ?_, hsolid⟩
      rw [hcs]
      simp only [List.append_assoc]
  · rintro ⟨text, htext, rfl, hsolid⟩
    induction htext with
    | nil => exact result_blanks_of_solid hsolid
    | space hc _ ih => rw [List.cons_append, result_blanks_space hc, ih]
    | comment htext _ ih => rw [List.append_assoc, result_blanks_comment htext, ih]

/-! ### Names and values -/

/-- Whether a text can be the name of an element or of an attribute. -/
def isName (name : String) : Bool :=
  match name.toList with
  | [] => false
  | c :: cs => isNameStart c && cs.all isNameChar

lemma exists_of_isName (h : isName n = true) :
    ∃ c cs, n.toList = c :: cs ∧ isNameStart c = true ∧ ∀ x ∈ cs, isNameChar x = true := by
  unfold isName at h
  cases heq : n.toList with
  | nil =>
    rw [heq] at h
    cases h
  | cons c cs =>
    rw [heq] at h
    obtain ⟨hc, hcs⟩ := Bool.and_eq_true_iff.1 h
    exact ⟨c, cs, rfl, hc, List.all_eq_true.1 hcs⟩

lemma result_name_iff : (name cs).result = some (n, rest) ↔
    isName n = true ∧ cs = n.toList ++ rest ∧ ∀ c ∈ rest.head?, isNameChar c = false := by
  constructor
  · intro h
    unfold name at h
    split at h
    · cases h
    · next c cs =>
      split at h
      · next hc =>
        simp only [Attempt.result_bind, Attempt.result_pure, Option.bind_eq_some_iff, Prod.exists,
          Option.some.injEq, Prod.mk.injEq, result_many_iff] at h
        obtain ⟨body, _, ⟨rfl, hbody, hrest⟩, rfl, rfl⟩ := h
        refine ⟨?_, by simp, hrest⟩
        simp only [isName, String.toList_ofList, hc, Bool.true_and]
        exact List.all_eq_true.2 hbody
      · cases h
  · rintro ⟨hn, rfl, hrest⟩
    obtain ⟨c, cs, heq, hc, hcs⟩ := exists_of_isName hn
    rw [heq, List.cons_append, name, if_pos hc, Attempt.result_bind, result_many hcs hrest]
    show some (String.ofList (c :: cs), rest) = some (n, rest)
    rw [← heq, String.ofList_toList]

/-- A value between two of the given quotes. -/
inductive Quoted (quote : Char) : String → List Char → Prop
  | mk {raw : List Char} (h : quote ∉ raw) :
      Quoted quote (String.ofList (Text.unescapeChars raw)) (quote :: (raw ++ [quote]))

lemma result_quotedBy_iff {quote : Char} : (quotedBy quote cs).result = some (value, rest) ↔
    ∃ text, Quoted quote value text ∧ cs = text ++ rest := by
  constructor
  · intro h
    unfold quotedBy at h
    split at h
    · cases h
    · next c cs =>
      split at h
      · next hc =>
        subst hc
        simp only [Attempt.result_bind, Option.bind_eq_some_iff, Prod.exists, result_many_iff] at h
        obtain ⟨raw, after, ⟨rfl, hraw, hafter⟩, h⟩ := h
        -- what was taken has no quotation mark, and so what stops it is one
        have hnot : c ∉ raw := fun hmem => by simpa using hraw c hmem
        split at h
        · cases h
        · next d after =>
          simp only [Attempt.result_pure, Option.some.injEq, Prod.mk.injEq] at h
          obtain ⟨rfl, rfl⟩ := h
          have hd : d = c := by simpa using hafter d rfl
          exact ⟨_, .mk hnot, by simp [hd]⟩
      · cases h
  · rintro ⟨_, ⟨hnot⟩, rfl⟩
    rename_i raw
    have hraw : ∀ x ∈ raw, (x != quote) = true := by
      intro x hx
      rw [bne_iff_ne]
      rintro rfl
      exact hnot hx
    have hend : ∀ c ∈ (quote :: rest).head?, (c != quote) = false := by
      rintro _ ⟨⟩
      exact bne_self_eq_false quote
    rw [List.cons_append, List.append_assoc, quotedBy, if_pos rfl, Attempt.result_bind]
    simp only [List.singleton_append]
    rw [result_many hraw hend]
    rfl

/-- A value between double or single quotes. -/
inductive ValueText (value : String) (text : List Char) : Prop
  | double (h : Quoted '"' value text)
  | single (h : Quoted '\'' value text)

lemma result_value_iff :
    (quotedBy '"' cs).result.or (quotedBy '\'' cs).result = some (value, rest) ↔
      ∃ text, ValueText value text ∧ cs = text ++ rest := by
  rw [Option.or_eq_some_iff, result_quotedBy_iff, result_quotedBy_iff]
  constructor
  · rintro (⟨text, h, rfl⟩ | ⟨-, text, h, rfl⟩)
    · exact ⟨text, .double h, rfl⟩
    · exact ⟨text, .single h, rfl⟩
  · rintro ⟨text, h | h, rfl⟩
    · exact .inl ⟨text, h, rfl⟩
    · refine .inr ⟨?_, text, h, rfl⟩
      obtain ⟨_⟩ := h
      rfl

/-! ### Attributes -/

def Spaces (cs : List Char) : Prop := ∀ x ∈ cs, isSpace x = true

lemma isNameChar_of_isSpace {c : Char} (h : isSpace c = true) : isNameChar c = false := by
  simp only [isSpace, Bool.or_eq_true, beq_iff_eq] at h
  rcases h with ((rfl | rfl) | rfl) | rfl <;> decide

lemma isSpace_of_isNameStart {c : Char} (h : isNameStart c = true) : isSpace c = false := by
  by_contra hspace
  have hnot := isNameChar_of_isSpace (Bool.eq_true_of_not_eq_false hspace)
  rw [isNameChar, h] at hnot
  cases hnot

lemma isSpace_of_isName (h : isName n = true) (rest : List Char) :
    ∀ c ∈ (n.toList ++ rest).head?, isSpace c = false := by
  obtain ⟨c, cs, heq, hc, -⟩ := exists_of_isName h
  rw [heq]
  rintro _ ⟨⟩
  exact isSpace_of_isNameStart hc

lemma isSpace_of_valueText (h : ValueText value text) (rest : List Char) :
    ∀ c ∈ (text ++ rest).head?, isSpace c = false := by
  obtain ⟨⟨_⟩⟩ | ⟨⟨_⟩⟩ := h <;> rintro _ ⟨⟩ <;> rfl

/-- What ends a name still does so behind blanks. -/
lemma Spaces.isNameChar_head (h : Spaces xs) (hrest : ∀ c ∈ rest.head?, isNameChar c = false) :
    ∀ c ∈ (xs ++ rest).head?, isNameChar c = false := by
  cases xs with
  | nil => exact hrest
  | cons x xs =>
    rintro _ ⟨⟩
    exact isNameChar_of_isSpace (h x List.mem_cons_self)

/-- An attribute, and at least one blank before it. -/
inductive AttributeText : String × String → List Char → Prop
  | mk {key value : String} {before left right text : List Char} (hne : before ≠ [])
      (hbefore : Spaces before) (hkey : isName key = true) (hleft : Spaces left)
      (hright : Spaces right) (hvalue : ValueText value text) :
      AttributeText (key, value) (before ++ (key.toList ++ (left ++ '=' :: (right ++ text))))

lemma result_oneAttribute_iff : (oneAttribute cs).result = some (a, rest) ↔
    ∃ text, AttributeText a text ∧ cs = text ++ rest := by
  simp only [oneAttribute, Attempt.result_bind, Attempt.result_orElse, Attempt.result_pure,
    Option.bind_eq_some_iff, Prod.exists, Option.some.injEq, Prod.mk.injEq, result_many_iff,
    result_many1_iff, result_name_iff, result_sign_iff, result_value_iff]
  constructor
  · rintro ⟨before, _, ⟨hne, rfl, hbefore, -⟩, key, _, ⟨hkey, rfl, -⟩, left, _, ⟨rfl, hleft, -⟩, _,
      rfl, right, _, ⟨rfl, hright, -⟩, value, _, ⟨text, hvalue, rfl⟩, rfl, rfl⟩
    exact ⟨_, .mk hne hbefore hkey hleft hright hvalue, by simp⟩
  · rintro ⟨_, ⟨hne, hbefore, hkey, hleft, hright, hvalue⟩, rfl⟩
    rename_i key value before left right text
    have happend : before ++ (key.toList ++ (left ++ '=' :: (right ++ text))) ++ rest =
        before ++ (key.toList ++ (left ++ ("=".toList ++ (right ++ (text ++ rest))))) := by simp
    rw [happend]
    refine ⟨before, _, ⟨hne, rfl, hbefore, isSpace_of_isName hkey _⟩, key, _,
      ⟨hkey, rfl, hleft.isNameChar_head ?_⟩, left, _, ⟨rfl, hleft, ?_⟩, _, rfl, right, _,
      ⟨rfl, hright, isSpace_of_valueText hvalue rest⟩, value, _, ⟨text, hvalue, rfl⟩, rfl, rfl⟩
    all_goals rintro _ ⟨⟩; rfl

/-- Attributes one after the other. -/
inductive AttributesText : List (String × String) → List Char → Prop
  | nil : AttributesText [] []
  | cons {a : String × String} {as : List (String × String)} {text cs : List Char}
      (ha : AttributeText a text) (has : AttributesText as cs) :
      AttributesText (a :: as) (text ++ cs)

lemma AttributesText.isNameChar_head (h : AttributesText as text)
    (hrest : ∀ c ∈ rest.head?, isNameChar c = false) :
    ∀ c ∈ (text ++ rest).head?, isNameChar c = false := by
  cases h with
  | nil => exact hrest
  | cons ha has =>
    obtain ⟨hne, hbefore⟩ := ha
    rename_i before _ _ _ _ _ _ _ _
    obtain ⟨x, before, rfl⟩ := List.exists_cons_of_ne_nil hne
    rintro _ ⟨⟩
    exact isNameChar_of_isSpace (hbefore x List.mem_cons_self)

lemma result_attributes (cs : List Char) : (attributes cs).result =
    match (oneAttribute cs).result with
    | none => some ([], cs)
    | some (first, rest) =>
      (attributes rest).result.map fun (others, rest) => (first :: others, rest) := by
  rw [attributes]
  split
  · next hnone => rw [hnone]
  · next hsome => rw [hsome]

/-- All attributes are read, up to where none comes next. -/
lemma result_attributes_iff : (attributes cs).result = some (as, rest) ↔
    ∃ text, AttributesText as text ∧ cs = text ++ rest ∧ (oneAttribute rest).result = none := by
  constructor
  · intro h
    induction as generalizing cs with
    | nil =>
      rw [result_attributes] at h
      cases hone : (oneAttribute cs).result with
      | none =>
        rw [hone] at h
        cases h
        exact ⟨[], .nil, rfl, hone⟩
      | some first =>
        rw [hone] at h
        simp at h
    | cons a as ih =>
      rw [result_attributes] at h
      cases hone : (oneAttribute cs).result with
      | none =>
        rw [hone] at h
        cases h
      | some first =>
        obtain ⟨first, middle⟩ := first
        rw [hone] at h
        simp only [Option.map_eq_some_iff, Prod.exists, Prod.mk.injEq, List.cons.injEq] at h
        obtain ⟨_, _, hmore, ⟨rfl, rfl⟩, rfl⟩ := h
        obtain ⟨text, htext, rfl⟩ := result_oneAttribute_iff.1 hone
        obtain ⟨more, hattributes, rfl, hend⟩ := ih hmore
        exact ⟨_, .cons htext hattributes, by rw [List.append_assoc], hend⟩
  · rintro ⟨text, htext, rfl, hend⟩
    induction htext with
    | nil => rw [List.nil_append, result_attributes, hend]
    | cons ha has ih =>
      rw [List.append_assoc, result_attributes,
        result_oneAttribute_iff.2 ⟨_, ha, rfl⟩]
      dsimp only
      rw [ih]
      rfl

/-! ### Tags -/

/-- The beginning of a tag, up to the sign that ends it. -/
inductive TagText (n : String) (as : List (String × String)) : List Char → Prop
  | mk {text xs : List Char} (hname : isName n = true) (has : AttributesText as text)
      (hxs : Spaces xs) : TagText n as ('<' :: (n.toList ++ (text ++ xs)))

/-- The sign that ends a tag. -/
def tagEnd (closed : Bool) : String := if closed then "/>" else ">"

lemma isNameChar_tagEnd (closed : Bool) (rest : List Char) :
    ∀ c ∈ ((tagEnd closed).toList ++ rest).head?, isNameChar c = false := by
  cases closed <;> rintro _ ⟨⟩ <;> decide

lemma isSpace_tagEnd (closed : Bool) (rest : List Char) :
    ∀ c ∈ ((tagEnd closed).toList ++ rest).head?, isSpace c = false := by
  cases closed <;> rintro _ ⟨⟩ <;> decide

/-- There is no attribute where a tag ends. -/
lemma result_oneAttribute_tagEnd (hxs : Spaces xs) (closed : Bool) (rest : List Char) :
    (oneAttribute (xs ++ ((tagEnd closed).toList ++ rest))).result = none := by
  have hspace := isSpace_tagEnd closed rest
  rcases eq_or_ne xs [] with rfl | hne
  · rw [List.nil_append, oneAttribute, Attempt.result_bind, result_many1_of_head hspace]
    rfl
  · have hmany := result_many1_iff.2 ⟨hne, rfl, hxs, hspace⟩
    have hname : (name ((tagEnd closed).toList ++ rest)).result = none := by cases closed <;> rfl
    rw [oneAttribute, Attempt.result_bind, hmany]
    simp only [Option.bind_some, Attempt.result_bind, hname, Option.bind_none]

/-- Only one of the signs that end a tag can be there. -/
lemma result_tagEnd_iff {n' : String} {as' : List (String × String)} {closed : Bool} :
    (((sign "/>" cs).result.bind fun rest => some ((n, as, true), rest)).or
        ((sign ">" cs).result.bind fun rest => some ((n, as, false), rest))) =
          some ((n', as', closed), rest) ↔
      n = n' ∧ as = as' ∧ cs = (tagEnd closed).toList ++ rest := by
  simp only [Option.or_eq_some_iff, Option.bind_eq_some_iff, result_sign_iff, Option.some.injEq,
    Prod.mk.injEq]
  cases closed with
  | true =>
    constructor
    · rintro (⟨_, rfl, ⟨rfl, rfl, -⟩, rfl⟩ | ⟨-, _, -, ⟨-, -, ⟨⟩⟩, -⟩)
      exact ⟨rfl, rfl, rfl⟩
    · rintro ⟨rfl, rfl, rfl⟩
      exact .inl ⟨rest, rfl, ⟨rfl, rfl, rfl⟩, rfl⟩
  | false =>
    constructor
    · rintro (⟨_, -, ⟨-, -, ⟨⟩⟩, -⟩ | ⟨-, _, rfl, ⟨rfl, rfl, -⟩, rfl⟩)
      exact ⟨rfl, rfl, rfl⟩
    · rintro ⟨rfl, rfl, rfl⟩
      exact .inr ⟨rfl, rest, rfl, ⟨rfl, rfl, rfl⟩, rfl⟩

lemma result_startTag_iff {closed : Bool} :
    (startTag cs).result = some ((n, as, closed), rest) ↔
      ∃ tag, TagText n as tag ∧ cs = tag ++ ((tagEnd closed).toList ++ rest) := by
  simp only [startTag, Attempt.result_bind, Attempt.result_orElse, Attempt.result_pure,
    Option.bind_eq_some_iff, Prod.exists, result_tagEnd_iff, result_sign_iff, result_name_iff,
    result_attributes_iff, result_many_iff]
  constructor
  · rintro ⟨_, rfl, name, _, ⟨hname, rfl, -⟩, found, _, ⟨text, has, rfl, -⟩, xs, _,
      ⟨rfl, hxs, -⟩, rfl, rfl, rfl⟩
    exact ⟨_, .mk hname has hxs, by simp⟩
  · rintro ⟨_, ⟨hname, has, hxs⟩, rfl⟩
    rename_i text xs
    have happend : '<' :: (n.toList ++ (text ++ xs)) ++ ((tagEnd closed).toList ++ rest) =
        "<".toList ++ (n.toList ++ (text ++ (xs ++ ((tagEnd closed).toList ++ rest)))) := by simp
    rw [happend]
    exact ⟨_, rfl, n, _, ⟨hname, rfl, has.isNameChar_head
      (hxs.isNameChar_head (isNameChar_tagEnd closed rest))⟩, as, _,
      ⟨text, has, rfl, result_oneAttribute_tagEnd hxs closed rest⟩, xs, _,
      ⟨rfl, hxs, isSpace_tagEnd closed rest⟩, rfl, rfl, rfl⟩

inductive EndText (n : String) : List Char → Prop
  | mk {xs : List Char} (hname : isName n = true) (hxs : Spaces xs) :
      EndText n ('<' :: '/' :: (n.toList ++ (xs ++ ['>'])))

lemma result_endTag_iff :
    (endTag cs).result = some (n, rest) ↔ ∃ text, EndText n text ∧ cs = text ++ rest := by
  simp only [endTag, Attempt.result_bind, Attempt.result_pure, Option.bind_eq_some_iff,
    Prod.exists, result_sign_iff, result_name_iff, result_many_iff, Option.some.injEq,
    Prod.mk.injEq]
  constructor
  · rintro ⟨_, rfl, name, _, ⟨hname, rfl, -⟩, xs, _, ⟨rfl, hxs, -⟩, _, rfl, rfl, rfl⟩
    exact ⟨_, .mk hname hxs, by simp⟩
  · rintro ⟨_, ⟨hname, hxs⟩, rfl⟩
    rename_i xs
    have happend : '<' :: '/' :: (n.toList ++ (xs ++ ['>'])) ++ rest =
        "</".toList ++ (n.toList ++ (xs ++ (">".toList ++ rest))) := by simp
    rw [happend]
    exact ⟨_, rfl, n, _, ⟨hname, rfl, hxs.isNameChar_head (isNameChar_tagEnd false rest)⟩, xs, _,
      ⟨rfl, hxs, isSpace_tagEnd false rest⟩, _, rfl, rfl, rfl⟩

end TimedPatterns.Markup
