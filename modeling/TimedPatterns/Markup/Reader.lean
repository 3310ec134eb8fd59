import TimedPatterns.Markup.Element

/-!
# Reading markup

A document is an element with blanks and comments around it, after an optional declaration
`<?…?>` and an optional document type `<!DOCTYPE…>`. Inside an element stand elements, comments
and text without `<`; its closing tag bears its name.

Every reading step says, beside its result, how far it looked: the least number of characters
that were left wherever it expected some character or sign and found another. When a document is
refused, this is the place to point at. A sign of several characters, such as `<!--` or `/>`,
counts as missed at its first character.

The tags still open are kept on a stack, so that reading an element needs no recursion of its
own: every step leaves fewer characters than it was given.
-/

namespace TimedPatterns.Markup

/-! ### Attempts -/

/-- The outcome of one reading step. `left` is the least number of characters left where
something was missed, if anything was. -/
structure Attempt (α : Type) where
  result : Option α
  left : Option Nat

namespace Attempt

variable {α β : Type}

def least : Option Nat → Option Nat → Option Nat
  | none, b => b
  | a, none => a
  | some a, some b => some (min a b)

def pure (a : α) : Attempt α := ⟨some a, none⟩

/-- Miss something where `rest` is left. -/
def miss (rest : List Char) : Attempt α := ⟨none, some rest.length⟩

/-- Succeed after something was missed where `rest` is left. -/
def after (rest : List Char) (a : α) : Attempt α := ⟨some a, some rest.length⟩

/-- One step, then another on its result. -/
def bind (x : Attempt α) (f : α → Attempt β) : Attempt β :=
  match x.result with
  | none => ⟨none, x.left⟩
  | some a => ⟨(f a).result, least x.left (f a).left⟩

/-- One step, and another in its place if it fails. -/
def orElse (x : Attempt α) (y : Unit → Attempt α) : Attempt α :=
  match x.result with
  | some a => ⟨some a, x.left⟩
  | none => ⟨(y ()).result, least x.left (y ()).left⟩

instance : Monad Attempt where
  pure := pure
  bind := bind

instance : OrElse (Attempt α) := ⟨orElse⟩

@[simp] theorem result_pure (a : α) : (Pure.pure a : Attempt α).result = some a := rfl

@[simp] theorem result_miss (rest : List Char) : (miss rest : Attempt α).result = none := rfl

@[simp] theorem result_after (rest : List Char) (a : α) : (after rest a).result = some a := rfl

@[simp] theorem result_bind (x : Attempt α) (f : α → Attempt β) :
    (x >>= f).result = x.result.bind fun a => (f a).result := by
  show (bind x f).result = _
  unfold bind
  cases x.result <;> rfl

@[simp] theorem result_orElse (x y : Attempt α) :
    (x <|> y).result = x.result.or y.result := by
  show (orElse x fun _ => y).result = _
  unfold orElse
  cases x.result <;> rfl

end Attempt

/-! ### Signs -/

/-- What follows a sign. -/
def sign (s : String) (cs : List Char) : Attempt (List Char) :=
  match Text.dropPrefix? s.toList cs with
  | some rest => pure rest
  | none => .miss cs

/-- The characters of a class that come first, and what follows them. -/
def many (p : Char → Bool) (cs : List Char) : Attempt (List Char × List Char) :=
  .after (cs.dropWhile p) (cs.takeWhile p, cs.dropWhile p)

/-- The characters of a class that come first, at least one, and what follows them. -/
def many1 (p : Char → Bool) (cs : List Char) : Attempt (List Char × List Char) :=
  if (cs.takeWhile p).isEmpty then .miss cs else many p cs

/-- What follows the first occurrence of a sign. Without one, it is missed at the end. -/
def through (s : String) (cs : List Char) : Attempt (List Char) :=
  match Text.cutFirst? s.toList cs with
  | some (_, rest) => pure rest
  | none => .miss []

theorem eq_append_of_sign {s : String} {cs rest : List Char} (h : (sign s cs).result = some rest) :
    cs = s.toList ++ rest := by
  unfold sign at h
  split at h
  · next r hr =>
    simp only [Attempt.result_pure, Option.some.injEq] at h
    exact h ▸ Text.dropPrefix?_eq_some_iff.1 hr
  · simp at h

theorem length_le_of_sign {s : String} {cs rest : List Char}
    (h : (sign s cs).result = some rest) : rest.length + s.toList.length ≤ cs.length := by
  rw [eq_append_of_sign h]
  simp
  omega

theorem eq_of_many {p : Char → Bool} {cs rest found : List Char}
    (h : (many p cs).result = some (found, rest)) :
    found = cs.takeWhile p ∧ rest = cs.dropWhile p := by
  simp only [many, Attempt.result_after, Option.some.injEq, Prod.mk.injEq] at h
  exact ⟨h.1.symm, h.2.symm⟩

theorem length_le_of_many {p : Char → Bool} {cs rest found : List Char}
    (h : (many p cs).result = some (found, rest)) : rest.length ≤ cs.length := by
  rw [(eq_of_many h).2]
  exact (List.dropWhile_sublist p).length_le

theorem length_lt_of_many1 {p : Char → Bool} {cs rest found : List Char}
    (h : (many1 p cs).result = some (found, rest)) : rest.length < cs.length := by
  unfold many1 at h
  split at h
  · simp at h
  · next hne =>
    obtain ⟨rfl, rfl⟩ := eq_of_many h
    have e : (cs.takeWhile p ++ cs.dropWhile p).length = cs.length := by
      rw [List.takeWhile_append_dropWhile]
    have hpos : 0 < (cs.takeWhile p).length := by
      rw [List.length_pos_iff]
      simpa using hne
    rw [List.length_append] at e
    omega

theorem length_le_of_through {s : String} {cs rest : List Char}
    (h : (through s cs).result = some rest) : rest.length ≤ cs.length := by
  unfold through at h
  split at h
  · next before after hcut =>
    simp only [Attempt.result_pure, Option.some.injEq] at h
    rw [Text.append_of_cutFirst? hcut, ← h]
    simp
    omega
  · simp at h

/-! ### Blanks and comments -/

/-- The blanks of markup. -/
def isSpace (c : Char) : Bool := c == ' ' || c == '\t' || c == '\r' || c == '\n'

def comment (cs : List Char) : Attempt (List Char) := do through "-->" (← sign "<!--" cs)

def declaration (cs : List Char) : Attempt (List Char) := do through "?>" (← sign "<?" cs)

def doctype (cs : List Char) : Attempt (List Char) := do through ">" (← sign "<!DOCTYPE" cs)

theorem length_lt_of_comment {cs rest : List Char} (h : (comment cs).result = some rest) :
    rest.length < cs.length := by
  simp only [comment, Attempt.result_bind, Option.bind_eq_some_iff] at h
  obtain ⟨mid, hmid, hrest⟩ := h
  have h1 := length_le_of_sign hmid
  have h2 := length_le_of_through hrest
  have h3 : "<!--".toList.length = 4 := by decide
  omega

/-- What follows any blanks and comments. -/
def blanks (cs : List Char) : Attempt (List Char) :=
  match _ : (comment (cs.dropWhile isSpace)).result with
  | none => ⟨some (cs.dropWhile isSpace), (comment (cs.dropWhile isSpace)).left⟩
  | some rest => blanks rest
termination_by cs.length
decreasing_by
  exact Nat.lt_of_lt_of_le (length_lt_of_comment ‹_›) (List.dropWhile_sublist isSpace).length_le

/-! ### Tags -/

def isNameStart (c : Char) : Bool := c.isAlpha || c == '_' || c == ':'

def isNameChar (c : Char) : Bool := isNameStart c || c.isDigit || c == '-' || c == '.'

def name : List Char → Attempt (String × List Char)
  | [] => .miss []
  | c :: cs =>
    if isNameStart c then do
      let (body, rest) ← many isNameChar cs
      return (String.ofList (c :: body), rest)
    else .miss (c :: cs)

/-- A value between two of the given quotes. -/
def quotedBy (quote : Char) : List Char → Attempt (String × List Char)
  | [] => .miss []
  | c :: cs =>
    if c = quote then do
      let (value, rest) ← many (· != quote) cs
      match rest with
      | [] => .miss []
      | _ :: rest => return (String.ofList (Text.unescapeChars value), rest)
    else .miss (c :: cs)

/-- An attribute after at least one blank. -/
def oneAttribute (cs : List Char) : Attempt ((String × String) × List Char) := do
  let (_, rest) ← many1 isSpace cs
  let (key, rest) ← name rest
  let (_, rest) ← many isSpace rest
  let rest ← sign "=" rest
  let (_, rest) ← many isSpace rest
  let (value, rest) ← quotedBy '"' rest <|> quotedBy '\'' rest
  return ((key, value), rest)

theorem length_lt_of_name {cs rest : List Char} {n : String}
    (h : (name cs).result = some (n, rest)) : rest.length < cs.length := by
  unfold name at h
  split at h
  · simp at h
  · split at h
    · simp only [Attempt.result_bind, Option.bind_eq_some_iff, Prod.exists] at h
      obtain ⟨body, mid, hmany, hrest⟩ := h
      simp only [Attempt.result_pure, Option.some.injEq, Prod.mk.injEq] at hrest
      have := length_le_of_many hmany
      simp only [List.length_cons]
      rw [← hrest.2]
      omega
    · simp at h

theorem length_lt_of_quotedBy {quote : Char} {cs rest : List Char} {v : String}
    (h : (quotedBy quote cs).result = some (v, rest)) : rest.length < cs.length := by
  unfold quotedBy at h
  split at h
  · simp at h
  · split at h
    · simp only [Attempt.result_bind, Option.bind_eq_some_iff, Prod.exists] at h
      obtain ⟨value, mid, hmany, hrest⟩ := h
      have := length_le_of_many hmany
      split at hrest
      · simp at hrest
      · simp only [Attempt.result_pure, Option.some.injEq, Prod.mk.injEq] at hrest
        simp only [List.length_cons] at this ⊢
        rw [← hrest.2]
        omega
    · simp at h

theorem length_lt_of_oneAttribute {cs rest : List Char} {a : String × String}
    (h : (oneAttribute cs).result = some (a, rest)) : rest.length < cs.length := by
  simp only [oneAttribute, Attempt.result_bind, Attempt.result_orElse, Attempt.result_pure,
    Option.bind_eq_some_iff, Prod.exists, Option.some.injEq, Prod.mk.injEq] at h
  obtain ⟨_, r1, h1, key, r2, h2, _, r3, h3, r4, h4, _, r5, h5, value, r6, h6, _, rfl⟩ := h
  have h1 := length_lt_of_many1 h1
  have h2 := length_lt_of_name h2
  have h3 := length_le_of_many h3
  have h4 := length_le_of_sign h4
  have h5 := length_le_of_many h5
  have h6 : r6.length < r5.length := by
    rcases Option.or_eq_some_iff.1 h6 with h6 | ⟨_, h6⟩ <;> exact length_lt_of_quotedBy h6
  omega

def attributes (cs : List Char) : Attempt (List (String × String) × List Char) :=
  match _ : (oneAttribute cs).result with
  | none => ⟨some ([], cs), (oneAttribute cs).left⟩
  | some (first, rest) =>
    let more := attributes rest
    ⟨more.result.map fun (others, rest) => (first :: others, rest),
      Attempt.least (oneAttribute cs).left more.left⟩
termination_by cs.length
decreasing_by exact length_lt_of_oneAttribute ‹_›

theorem length_le_of_attributes {cs rest : List Char} {as : List (String × String)}
    (h : (attributes cs).result = some (as, rest)) : rest.length ≤ cs.length := by
  induction hn : cs.length using Nat.strongRecOn generalizing cs as rest with
  | _ n ih =>
    unfold attributes at h
    split at h
    · simp only [Option.some.injEq, Prod.mk.injEq] at h
      have := congrArg List.length h.2
      omega
    · next first mid hmid =>
      simp only [Option.map_eq_some_iff, Prod.exists, Prod.mk.injEq] at h
      obtain ⟨others, r, hr, _, rfl⟩ := h
      have hlt := length_lt_of_oneAttribute hmid
      have := ih mid.length (hn ▸ hlt) hr rfl
      omega

/-- A start tag, its attributes, and whether it is closed at once. -/
def startTag (cs : List Char) :
    Attempt ((String × List (String × String) × Bool) × List Char) := do
  let rest ← sign "<" cs
  let (name, rest) ← name rest
  let (attributes, rest) ← attributes rest
  let (_, rest) ← many isSpace rest
  (do return ((name, attributes, true), ← sign "/>" rest))
    <|> (do return ((name, attributes, false), ← sign ">" rest))

def endTag (cs : List Char) : Attempt (String × List Char) := do
  let rest ← sign "</" cs
  let (name, rest) ← name rest
  let (_, rest) ← many isSpace rest
  return (name, ← sign ">" rest)

theorem length_lt_of_startTag {cs rest : List Char}
    {tag : String × List (String × String) × Bool}
    (h : (startTag cs).result = some (tag, rest)) : rest.length < cs.length := by
  simp only [startTag, Attempt.result_bind, Attempt.result_orElse, Attempt.result_pure,
    Option.bind_eq_some_iff, Prod.exists] at h
  obtain ⟨r1, h1, n, r2, h2, as, r3, h3, _, r4, h4, h5⟩ := h
  have h1 := length_le_of_sign h1
  have h2 := length_lt_of_name h2
  have h3 := length_le_of_attributes h3
  have h4 := length_le_of_many h4
  have h5 : rest.length ≤ r4.length := by
    simp only [Option.or_eq_some_iff, Option.bind_eq_some_iff, Option.some.injEq,
      Prod.mk.injEq] at h5
    rcases h5 with ⟨r, hr, _, rfl⟩ | ⟨_, r, hr, _, rfl⟩
    all_goals have := length_le_of_sign hr; omega
  omega

theorem length_lt_of_endTag {cs rest : List Char} {n : String}
    (h : (endTag cs).result = some (n, rest)) : rest.length < cs.length := by
  simp only [endTag, Attempt.result_bind, Attempt.result_pure, Option.bind_eq_some_iff,
    Prod.exists, Option.some.injEq, Prod.mk.injEq] at h
  obtain ⟨r1, h1, m, r2, h2, _, r3, h3, r4, h4, _, rfl⟩ := h
  have h1 := length_le_of_sign h1
  have h2 := length_lt_of_name h2
  have h3 := length_le_of_many h3
  have h4 := length_le_of_sign h4
  omega

/-! ### Elements -/

/-- What stands at a place inside an element. -/
inductive Item where
  | start (name : String) (attributes : List (String × String)) (closed : Bool)
  | skipped
  | stop (name : String)
  deriving DecidableEq, Repr

/-- A start tag, a comment, a text or an end tag. -/
def item (cs : List Char) : Attempt (Item × List Char) :=
  (do let ((name, attributes, closed), rest) ← startTag cs
      return (.start name attributes closed, rest))
    <|> (do return (.skipped, ← comment cs))
    <|> (do let (_, rest) ← many1 (· != '<') cs
            return (.skipped, rest))
    <|> (do let (name, rest) ← endTag cs
            return (.stop name, rest))

theorem length_lt_of_item {cs rest : List Char} {i : Item}
    (h : (item cs).result = some (i, rest)) : rest.length < cs.length := by
  simp only [item, Attempt.result_bind, Attempt.result_orElse, Attempt.result_pure,
    Option.or_eq_some_iff, Option.bind_eq_some_iff, Option.some.injEq, Prod.exists,
    Prod.mk.injEq] at h
  rcases h with ⟨_, _, _, r, hr, _, rfl⟩ |
    ⟨_, ⟨r, hr, _, rfl⟩ | ⟨_, ⟨_, r, hr, _, rfl⟩ | ⟨_, _, r, hr, _, rfl⟩⟩⟩
  · exact length_lt_of_startTag hr
  · exact length_lt_of_comment hr
  · exact length_lt_of_many1 hr
  · exact length_lt_of_endTag hr

def addChild (parent child : Element) : Element :=
  { parent with children := parent.children ++ [child] }

/-- Read the content of an element that is open, up to and with its end tag. `outer` are the open
elements around it, the innermost first. -/
def content (outer : List Element) (inner : Element) (cs : List Char) :
    Attempt (Element × List Char) :=
  let here := item cs
  let further (x : Attempt (Element × List Char)) : Attempt (Element × List Char) :=
    ⟨x.result, Attempt.least here.left x.left⟩
  match _ : here.result with
  | none => ⟨none, here.left⟩
  | some (.start name attributes true, rest) =>
    further (content outer (addChild inner ⟨name, attributes, []⟩) rest)
  | some (.start name attributes false, rest) =>
    further (content (inner :: outer) ⟨name, attributes, []⟩ rest)
  | some (.skipped, rest) => further (content outer inner rest)
  | some (.stop name, rest) =>
    if name = inner.name then
      match outer with
      | [] => further (pure (inner, rest))
      | parent :: outer => further (content outer (addChild parent inner) rest)
    -- the end tag is read before its name is compared, so the other name is missed behind it
    else further (.miss rest)
termination_by cs.length
decreasing_by all_goals exact length_lt_of_item ‹_›

def element (cs : List Char) : Attempt (Element × List Char) := do
  let ((name, attributes, closed), rest) ← startTag cs
  if closed then return (⟨name, attributes, []⟩, rest)
  else content [] ⟨name, attributes, []⟩ rest

/-! ### Documents -/

def optional (step : List Char → Attempt (List Char)) (cs : List Char) : Attempt (List Char) :=
  step cs <|> pure cs

/-- The root element of a document, with nothing after it. -/
def document (cs : List Char) : Attempt Element := do
  let rest ← blanks cs
  let rest ← optional (fun cs => do blanks (← declaration cs)) rest
  let rest ← optional (fun cs => do blanks (← doctype cs)) rest
  let (root, rest) ← element rest
  let rest ← blanks rest
  if rest.isEmpty then return root else .miss rest

/-- The line and the column of the place where `left` characters are left. -/
def place (cs : List Char) (left : Nat) : Nat × Nat :=
  let before := cs.take (cs.length - left)
  (before.count '\n' + 1, (before.reverse.takeWhile (· != '\n')).length + 1)

/-- The root element of a text, or the line and the column of the furthest place where something
was missed. -/
def read (text : String) : Except (Nat × Nat) Element :=
  let attempt := document text.toList
  match attempt.result with
  | some root => .ok root
  | none => .error (place text.toList (attempt.left.getD 0))

end TimedPatterns.Markup
