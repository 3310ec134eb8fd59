import TimedPatterns.Proofs.Text.Numeral
import TimedPatterns.Text.Json

/-!
# Written JSON

What is written of a text, a whole number or an array of these ends where it says so itself, or
where a sign follows that cannot belong to it. So what was written can be told from its written form
and what follows it.
-/

namespace TimedPatterns.Json

open Text

/-! ### Texts -/

/-- The value of a hexadecimal digit, where the letters are small ones. -/
def hexValue (c : Char) : Nat := if c.isDigit then c.toNat - 48 else c.toNat - 87

/-- The first character of what is left of a JSON text. -/
def readChar : List Char → Option (Char × List Char)
  | '\\' :: '"' :: cs => some ('"', cs)
  | '\\' :: '\\' :: cs => some ('\\', cs)
  | '\\' :: 'b' :: cs => some ('\x08', cs)
  | '\\' :: 'f' :: cs => some ('\x0c', cs)
  | '\\' :: 'n' :: cs => some ('\n', cs)
  | '\\' :: 'r' :: cs => some ('\r', cs)
  | '\\' :: 't' :: cs => some ('\t', cs)
  | '\\' :: 'u' :: '0' :: '0' :: high :: low :: cs =>
    some (Char.ofNat (16 * hexValue high + hexValue low), cs)
  | '\\' :: _ => none
  | c :: cs => some (c, cs)
  | [] => none

lemma hexValue_digitChar : ∀ n < 32,
    16 * hexValue (Nat.digitChar (n / 16)) + hexValue (Nat.digitChar (n % 16)) = n := by
  decide

/-- A character is read back, whatever follows it. -/
lemma readChar_escapeChar (c : Char) (cs : List Char) :
    readChar (escapeChar c ++ cs) = some (c, cs) := by
  unfold escapeChar
  split_ifs with hquote hslash hb hf hn hr ht hcontrol
  · rw [hquote]; rfl
  · rw [hslash]; rfl
  · rw [hb]; rfl
  · rw [hf]; rfl
  · rw [hn]; rfl
  · rw [hr]; rfl
  · rw [ht]; rfl
  · show some (Char.ofNat (16 * hexValue (Nat.digitChar (c.toNat / 16)) +
      hexValue (Nat.digitChar (c.toNat % 16))), cs) = _
    rw [hexValue_digitChar _ hcontrol, Char.ofNat_toNat]
  · rw [List.singleton_append, readChar.eq_def]
    split <;> simp_all

/-- No character is written like the end of a text. -/
lemma head?_escapeChar (c : Char) : ∃ d ds, escapeChar c = d :: ds ∧ d ≠ '"' := by
  unfold escapeChar
  split_ifs with hquote
  all_goals first
    | exact ⟨_, _, rfl, hquote⟩
    | exact ⟨'\\', _, rfl, by decide⟩

/-- A text ends at the first quotation mark that does not belong to a character. -/
lemma flatMap_escapeChar_inj {text text' rest rest' : List Char}
    (h : text.flatMap escapeChar ++ '"' :: rest = text'.flatMap escapeChar ++ '"' :: rest') :
    text = text' ∧ rest = rest' := by
  -- no escaped character begins with the quotation mark, so the first one in the text ends it
  have hends (c : Char) (cs rest rest' : List Char) :
      '"' :: rest ≠ (c :: cs).flatMap escapeChar ++ rest' := by
    obtain ⟨d, ds, hd, hne⟩ := head?_escapeChar c
    rw [List.flatMap_cons, hd]
    exact fun heq => hne (List.cons.inj heq).1.symm
  induction text generalizing text' with
  | nil =>
    cases text' with
    | nil => exact ⟨rfl, (List.cons.inj h).2⟩
    | cons c cs => exact absurd h (hends c cs _ _)
  | cons c cs ih =>
    cases text' with
    | nil => exact absurd h.symm (hends c cs _ _)
    | cons c' cs' =>
      have hread := congrArg readChar h
      rw [List.flatMap_cons, List.flatMap_cons, List.append_assoc, List.append_assoc,
        readChar_escapeChar, readChar_escapeChar] at hread
      obtain ⟨rfl, htail⟩ := Prod.mk.inj (Option.some.inj hread)
      obtain ⟨rfl, hrest⟩ := ih htail
      exact ⟨rfl, hrest⟩

/-! ### Items -/

/-- A comma or a closing bracket follows. -/
def Follows (rest : List Char) : Prop := rest.head? = some ',' ∨ rest.head? = some ']'

/-- Values of a kind can be told from what is written of them, and none is written like the end of an
array. -/
structure Separable {α : Type} (item : α → Json) : Prop where
  inj : ∀ {a b : α} {rest rest' : List Char}, Follows rest → Follows rest' →
    (render (item a)).toList ++ rest = (render (item b)).toList ++ rest' → a = b ∧ rest = rest'
  begins : ∀ a, ∃ c cs, (render (item a)).toList = c :: cs ∧ c ≠ ']'

lemma separable_text : Separable Json.text where
  inj := by
    intro a b rest rest' _ _ h
    simp only [render, renderText, String.toList_ofList, List.cons_append, List.append_assoc,
      List.cons.injEq, true_and] at h
    obtain ⟨htext, hrest⟩ := flatMap_escapeChar_inj h
    exact ⟨String.toList_inj.1 htext, hrest⟩
  begins a := by
    refine ⟨'"', a.toList.flatMap escapeChar ++ ['"'], ?_, by decide⟩
    rw [render, renderText, String.toList_ofList]
    rfl

lemma toString_int_injective : Function.Injective (toString : Int → String) := by
  intro a b h
  have hdenotes := denotes_toString b
  rw [← h] at hdenotes
  exact (denotes_toString a).unique hdenotes

lemma separable_int : Separable Json.int where
  inj := by
    intro a b rest rest' hrest hrest' h
    simp only [Json.int, render, renderNumber, if_true] at h
    have hnil {cs : List Char} (hcs : Follows cs) :
        cs.takeWhile (fun c => c = '-' || c.isDigit) = [] := by
      rcases cs with _ | ⟨c, cs⟩
      · rfl
      · rcases hcs with hc | hc <;> cases hc <;> rfl
    have htake (k : Int) {cs : List Char} (hcs : Follows cs) :
        ((toString k).toList ++ cs).takeWhile (fun c => c = '-' || c.isDigit) =
          (toString k).toList := by
      rw [List.takeWhile_append_of_pos, hnil hcs, List.append_nil]
      intro c hc
      simpa using mem_toString_int hc
    have hnumber : (toString a).toList = (toString b).toList := by
      rw [← htake a hrest, h, htake b hrest']
    rw [hnumber] at h
    exact ⟨toString_int_injective (String.toList_inj.1 hnumber), List.append_cancel_left h⟩
  begins a := by
    have hne : (toString a).toList ≠ [] := by
      rcases toList_toString_int a with ⟨-, hlist⟩ | ⟨-, hlist⟩
      · exact hlist ▸ Nat.toDigits_ne_nil
      · exact hlist ▸ List.cons_ne_nil _ _
    obtain ⟨c, cs, hcs⟩ := List.exists_cons_of_ne_nil hne
    refine ⟨c, cs, ?_, ?_⟩
    · rw [Json.int, render, renderNumber, if_pos rfl, hcs]
    · rintro rfl
      have hmem : ']' ∈ (toString a).toList := hcs ▸ List.mem_cons_self
      rcases mem_toString_int hmem with hc | hc <;> revert hc <;> decide

/-- What is written behind an item of an array. -/
def restText (items : List Json) (rest : List Char) : List Char :=
  if items = [] then ']' :: rest else ',' :: ((renderItems items).toList ++ ']' :: rest)

lemma follows_restText (items : List Json) (rest : List Char) : Follows (restText items rest) := by
  unfold restText
  split_ifs
  · exact .inr rfl
  · exact .inl rfl

lemma renderItems_cons (v : Json) (items : List Json) (rest : List Char) :
    (renderItems (v :: items)).toList ++ ']' :: rest = (render v).toList ++ restText items rest := by
  cases items with
  | nil => rfl
  | cons w items =>
    rw [renderItems, restText, if_neg (List.cons_ne_nil w items)]
    · simp
    · exact nofun

section Arrays

variable {α : Type} {item : α → Json} {as bs : List α} {rest rest' : List Char}

lemma ne_renderItems_cons (h : Separable item) (a : α) (items : List Json) :
    ']' :: rest ≠ (renderItems (item a :: items)).toList ++ ']' :: rest' := by
  obtain ⟨c, cs, hcs, hne⟩ := h.begins a
  rw [renderItems_cons, hcs]
  exact fun heq => hne (List.cons.inj heq).1.symm

/-- Items can be told from what is written of them in an array. -/
lemma renderItems_inj (h : Separable item)
    (heq : (renderItems (as.map item)).toList ++ ']' :: rest =
      (renderItems (bs.map item)).toList ++ ']' :: rest') : as = bs ∧ rest = rest' := by
  induction as generalizing bs with
  | nil =>
    cases bs with
    | nil => exact ⟨rfl, (List.cons.inj heq).2⟩
    | cons b bs => exact absurd heq (ne_renderItems_cons h b _)
  | cons a as ih =>
    cases bs with
    | nil => exact absurd heq.symm (ne_renderItems_cons h a _)
    | cons b bs =>
      rw [List.map_cons, List.map_cons, renderItems_cons, renderItems_cons] at heq
      obtain ⟨rfl, htail⟩ := h.inj (follows_restText _ _) (follows_restText _ _) heq
      -- both arrays end behind the item, or both go on
      cases as with
      | nil =>
        cases bs with
        | nil => exact ⟨rfl, (List.cons.inj htail).2⟩
        | cons b bs => exact absurd (List.cons.inj htail).1 (by decide)
      | cons a' as =>
        cases bs with
        | nil => exact absurd (List.cons.inj htail).1 (by decide)
        | cons b bs =>
          obtain ⟨hitems, hrest⟩ := ih (List.cons.inj htail).2
          exact ⟨congrArg (a :: ·) hitems, hrest⟩

/-- An array ends with its bracket. -/
lemma render_array_inj (h : Separable item)
    (heq : (render (.array (as.map item))).toList ++ rest =
      (render (.array (bs.map item))).toList ++ rest') : as = bs ∧ rest = rest' := by
  have hchars (items : List Json) (rest : List Char) : (render (.array items)).toList ++ rest =
      '[' :: ((renderItems items).toList ++ ']' :: rest) := by
    simp [render]
  rw [hchars, hchars] at heq
  exact renderItems_inj h (List.cons.inj heq).2

end Arrays

end TimedPatterns.Json
