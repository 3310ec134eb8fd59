import TimedPatterns.Proofs.Markup.Tag

/-!
# The grammar of documents

What the reader accepts, told without the reader: an element stands between two tags that bear its
name, with texts, comments and other elements in between; or it is closed at once. Around the root
there are blanks and comments, and before it a declaration and a document type may stand. The
grammar leaves open how the tags are written.

The reader keeps the open elements on a stack. By induction on the text of an element, an element
inside of others is read to its end; and by induction on the length of what is left, an element that
is read to its end has been written.
-/

namespace TimedPatterns.Markup

variable {cs rest xs text : List Char} {n : String} {as : List (String × String)}

/-! ### Items -/

/-- What stands at a place inside an element, as it is written. -/
inductive ItemText : Item → List Char → Prop
  | start {n : String} {as : List (String × String)} {closed : Bool} {tag : List Char}
      (h : TagText n as tag) : ItemText (.start n as closed) (tag ++ (tagEnd closed).toList)
  | comment {text : List Char} (h : Comment text) : ItemText .skipped text
  | text {text : List Char} (h : ∀ c ∈ text, c ≠ '<') : ItemText .skipped text
  | stop {n : String} {text : List Char} (h : EndText n text) : ItemText (.stop n) text

lemma exists_itemText {i : Item} (h : (item cs).result = some (i, rest)) :
    ∃ text, ItemText i text ∧ cs = text ++ rest := by
  simp only [item, Attempt.result_orElse, Attempt.result_bind, Attempt.result_pure,
    Option.or_eq_some_iff, Option.bind_eq_some_iff, Prod.exists, Option.some.injEq, Prod.mk.injEq,
    result_startTag_iff, result_comment_iff, result_many1_iff, result_endTag_iff] at h
  rcases h with ⟨n, as, closed, _, ⟨tag, htag, rfl⟩, rfl, rfl⟩ |
    ⟨-, ⟨_, ⟨text, htext, rfl⟩, rfl, rfl⟩ | ⟨-, ⟨text, _, ⟨-, rfl, htext, -⟩, rfl, rfl⟩ |
      ⟨-, n, _, ⟨text, htext, rfl⟩, rfl, rfl⟩⟩⟩
  · exact ⟨_, .start htag, by rw [List.append_assoc]⟩
  · exact ⟨_, .comment htext, rfl⟩
  · exact ⟨_, .text fun c hc => by simpa using htext c hc, rfl⟩
  · exact ⟨_, .stop htext, rfl⟩

lemma result_item_start {closed : Bool} (h : TagText n as text) (rest : List Char) :
    (item (text ++ ((tagEnd closed).toList ++ rest))).result = some (.start n as closed, rest) := by
  have hstart : (startTag (text ++ ((tagEnd closed).toList ++ rest))).result =
      some ((n, as, closed), rest) := result_startTag_iff.2 ⟨text, h, rfl⟩
  simp only [item, Attempt.result_orElse, Attempt.result_bind, Attempt.result_pure, hstart,
    Option.bind_some, Option.some_or]

/-- A sign that no name begins with is not the beginning of a start tag. -/
lemma result_startTag_of_not {c : Char} (hc : isNameStart c = false) (rest : List Char) :
    (startTag ('<' :: c :: rest)).result = none := by
  have hname : (name (c :: rest)).result = none := by simp [name, hc]
  have hsign : (sign "<" ('<' :: c :: rest)).result = some (c :: rest) := rfl
  rw [startTag, Attempt.result_bind, hsign, Option.bind_some, Attempt.result_bind, hname]
  rfl

lemma result_item_comment (h : Comment text) (rest : List Char) :
    (item (text ++ rest)).result = some (.skipped, rest) := by
  have hstart : (startTag (text ++ rest)).result = none := by
    obtain ⟨_⟩ := h
    exact result_startTag_of_not rfl _
  have hcomment : (comment (text ++ rest)).result = some rest :=
    result_comment_iff.2 ⟨text, h, rfl⟩
  simp only [item, Attempt.result_orElse, Attempt.result_bind, Attempt.result_pure, hstart,
    hcomment, Option.bind_none, Option.bind_some, Option.none_or, Option.some_or]

lemma result_item_text {c : Char} (hc : c ≠ '<') (cs : List Char) :
    (item (c :: cs)).result = some (.skipped, (c :: cs).dropWhile (· != '<')) := by
  have hsign (s : String) (hs : s.toList.head? = some '<') :
      (sign s (c :: cs)).result = none := by
    refine Option.eq_none_iff_forall_ne_some.2 fun rest h => hc ?_
    have hhead := congrArg List.head? (result_sign_iff.1 h)
    rw [List.head?_append, hs] at hhead
    simpa using hhead
  -- neither a tag nor a comment begins here, since both begin with the sign that `c` is not
  have hstart : (startTag (c :: cs)).result = none := by
    rw [startTag, Attempt.result_bind, hsign "<" rfl]
    rfl
  have hcomment : (comment (c :: cs)).result = none := by
    rw [comment, Attempt.result_bind, hsign "<!--" rfl]
    rfl
  have htext : (many1 (· != '<') (c :: cs)).result =
      some ((c :: cs).takeWhile (· != '<'), (c :: cs).dropWhile (· != '<')) := by
    refine result_many1_iff.2 ⟨?_, List.takeWhile_append_dropWhile.symm,
      fun x => List.mem_takeWhile_imp, head?_dropWhile⟩
    rw [List.takeWhile_cons_of_pos (by simpa using hc)]
    exact List.cons_ne_nil _ _
  simp only [item, Attempt.result_orElse, Attempt.result_bind, Attempt.result_pure, hstart,
    hcomment, htext, Option.bind_none, Option.bind_some, Option.none_or, Option.some_or]

lemma result_item_stop (h : EndText n text) (rest : List Char) :
    (item (text ++ rest)).result = some (.stop n, rest) := by
  have hend : (endTag (text ++ rest)).result = some (n, rest) :=
    result_endTag_iff.2 ⟨text, h, rfl⟩
  obtain ⟨hname, hxs⟩ := h
  rename_i xs
  have hstart : (startTag ('<' :: '/' :: (n.toList ++ (xs ++ ['>'])) ++ rest)).result = none :=
    result_startTag_of_not rfl _
  have hcomment : (comment ('<' :: '/' :: (n.toList ++ (xs ++ ['>'])) ++ rest)).result = none := by
    rw [comment, Attempt.result_bind]
    rfl
  have htext : (many1 (· != '<') ('<' :: '/' :: (n.toList ++ (xs ++ ['>'])) ++ rest)).result =
      none := result_many1_of_head (by rintro _ ⟨⟩; rfl)
  simp only [item, Attempt.result_orElse, Attempt.result_bind, Attempt.result_pure, hstart,
    hcomment, htext, hend, Option.bind_none, Option.bind_some, Option.none_or]

/-! ### Elements -/

/-- How tags are written: the beginning of one, up to the sign that ends it, and an end tag. -/
structure Style where
  tag : String → List (String × String) → List Char → Prop
  endTag : String → List Char → Prop

/-- Tags as the reader admits them. -/
def Style.free : Style := ⟨TagText, EndText⟩

mutual

/-- An element: closed at once, or between two tags that bear its name. -/
inductive ElementText (s : Style) : Element → List Char → Prop
  | closed {n : String} {as : List (String × String)} {tag : List Char} (htag : s.tag n as tag) :
      ElementText s ⟨n, as, []⟩ (tag ++ (tagEnd true).toList)
  | opened {n : String} {as : List (String × String)} {es : List Element}
      {tag inner stop : List Char} (htag : s.tag n as tag) (hinner : ContentText s es inner)
      (hstop : s.endTag n stop) :
      ElementText s ⟨n, as, es⟩ (tag ++ ((tagEnd false).toList ++ (inner ++ stop)))

/-- Elements one after the other, with texts and comments around them. -/
inductive ContentText (s : Style) : List Element → List Char → Prop
  | nil : ContentText s [] []
  | text {es : List Element} {text cs : List Char} (htext : ∀ c ∈ text, c ≠ '<')
      (h : ContentText s es cs) : ContentText s es (text ++ cs)
  | comment {es : List Element} {text cs : List Char} (htext : Comment text)
      (h : ContentText s es cs) : ContentText s es (text ++ cs)
  | element {e : Element} {es : List Element} {text cs : List Char} (he : ElementText s e text)
      (h : ContentText s es cs) : ContentText s (e :: es) (text ++ cs)

end

variable {outer : List Element} {inner : Element}

/-- What comes of an element behind its end tag: it is the root, or a child of the element around
it. -/
def close (outer : List Element) (e : Element) (rest : List Char) : Option (Element × List Char) :=
  match outer with
  | [] => some (e, rest)
  | parent :: outer => (content outer (addChild parent e) rest).result

/-- How the content of an element is read on behind an item. -/
lemma result_content {i : Item} (h : (item cs).result = some (i, rest)) :
    (content outer inner cs).result =
      match i with
      | .start name attributes true =>
        (content outer (addChild inner ⟨name, attributes, []⟩) rest).result
      | .start name attributes false =>
        (content (inner :: outer) ⟨name, attributes, []⟩ rest).result
      | .skipped => (content outer inner rest).result
      | .stop name => if name = inner.name then close outer inner rest else none := by
  rw [content]
  split
  · next hnone =>
    rw [h] at hnone
    cases hnone
  · next hitem =>
    rw [h] at hitem
    cases hitem
    rfl
  · next hitem =>
    rw [h] at hitem
    cases hitem
    rfl
  · next hitem =>
    rw [h] at hitem
    cases hitem
    rfl
  · next hitem =>
    rw [h] at hitem
    cases hitem
    dsimp only
    split_ifs
    · cases outer <;> rfl
    · rfl

lemma result_content_endTag {es : List Element} (h : EndText n text) (rest : List Char) :
    (content outer ⟨n, as, es⟩ (text ++ rest)).result = close outer ⟨n, as, es⟩ rest := by
  rw [result_content (result_item_stop h rest)]
  exact if_pos rfl

/-- A text at the beginning is passed over. -/
lemma result_content_dropWhile (cs : List Char) : (content outer inner cs).result =
    (content outer inner (cs.dropWhile (· != '<'))).result := by
  cases cs with
  | nil => rfl
  | cons c cs =>
    by_cases hc : c = '<'
    · rw [List.dropWhile_cons_of_neg (by simp [hc])]
    · exact result_content (result_item_text hc cs)

lemma result_content_text (htext : ∀ c ∈ text, c ≠ '<') (rest : List Char) :
    (content outer inner (text ++ rest)).result = (content outer inner rest).result := by
  rw [result_content_dropWhile, result_content_dropWhile rest,
    List.dropWhile_append_of_pos fun c hc => by simpa using htext c hc]

mutual

/-- An element inside of others is read to its end, and is then the last child of the innermost of
them. -/
lemma ElementText.result_content {e : Element} {text : List Char} (h : ElementText .free e text)
    (outer : List Element) (inner : Element) (rest : List Char) :
    (content outer inner (text ++ rest)).result =
      (content outer (addChild inner e) rest).result := by
  match h with
  | .closed htag =>
    rw [List.append_assoc]
    exact Markup.result_content (result_item_start htag rest)
  | .opened htag hinner hstop =>
    rw [List.append_assoc, List.append_assoc, List.append_assoc,
      Markup.result_content (result_item_start htag _)]
    dsimp only
    rw [hinner.result_content, result_content_endTag hstop, close, List.nil_append]

/-- The content of an element is read to its children. -/
lemma ContentText.result_content {es : List Element} {text : List Char}
    (h : ContentText .free es text) (outer : List Element) (inner : Element) (rest : List Char) :
    (content outer inner (text ++ rest)).result =
      (content outer { inner with children := inner.children ++ es } rest).result := by
  match h with
  | .nil =>
    rw [List.append_nil, List.nil_append]
    cases inner
    rfl
  | .text htext h => rw [List.append_assoc, result_content_text htext, h.result_content]
  | .comment htext h =>
    rw [List.append_assoc, Markup.result_content (result_item_comment htext _)]
    exact h.result_content outer inner rest
  | .element he h =>
    rw [List.append_assoc, he.result_content, h.result_content]
    simp [addChild]

end

lemma result_content_of_item_eq_none (h : (item cs).result = none) :
    (content outer inner cs).result = none := by
  rw [content]
  split
  · rfl
  all_goals
    next hitem =>
      rw [h] at hitem
      cases hitem

/-- What is read of an element that is open: its content, then its end tag. -/
lemma exists_of_content {root : Element}
    (h : (content outer inner cs).result = some (root, rest)) :
    ∃ es text stop tail, ContentText .free es text ∧ EndText inner.name stop ∧
      cs = text ++ (stop ++ tail) ∧
      close outer { inner with children := inner.children ++ es } tail = some (root, rest) := by
  induction hn : cs.length using Nat.strongRecOn generalizing outer inner cs with
  | _ k ih =>
    subst hn
    cases hitem : (item cs).result with
    | none =>
      rw [result_content_of_item_eq_none hitem] at h
      cases h
    | some found =>
      obtain ⟨i, middle⟩ := found
      have hlt := length_lt_of_item hitem
      rw [result_content hitem] at h
      obtain ⟨_, hwritten, rfl⟩ := exists_itemText hitem
      cases hwritten with
      | @start n as closed tag htag =>
        cases closed with
        | true =>
          obtain ⟨es, text, stop, tail, hcontent, hstop, rfl, hclose⟩ := ih _ hlt h rfl
          refine ⟨_ :: es, _, stop, tail, .element (.closed htag) hcontent, hstop,
            (List.append_assoc _ _ _).symm, ?_⟩
          simpa [addChild] using hclose
        | false =>
          -- the content of the element that begins here, and what is behind its end tag
          obtain ⟨children, inside, last, behind, hinside, hlast, rfl, hbehind⟩ := ih _ hlt h rfl
          have hshort : behind.length < (tag ++ (tagEnd false).toList ++
              (inside ++ (last ++ behind))).length := by
            refine Nat.lt_of_le_of_lt ?_ hlt
            simp only [List.length_append]
            omega
          obtain ⟨es, text, stop, tail, hcontent, hstop, rfl, hclose⟩ := ih _ hshort hbehind rfl
          refine ⟨_ :: es, _, stop, tail, .element (.opened htag hinside hlast) hcontent, hstop, ?_,
            ?_⟩
          · simp only [List.append_assoc]
          · simpa [addChild] using hclose
      | comment htext =>
        obtain ⟨es, text, stop, tail, hcontent, hstop, rfl, hclose⟩ := ih _ hlt h rfl
        exact ⟨es, _, stop, tail, .comment htext hcontent, hstop,
          (List.append_assoc _ _ _).symm, hclose⟩
      | text htext =>
        obtain ⟨es, text, stop, tail, hcontent, hstop, rfl, hclose⟩ := ih _ hlt h rfl
        exact ⟨es, _, stop, tail, .text htext hcontent, hstop,
          (List.append_assoc _ _ _).symm, hclose⟩
      | stop hstop =>
        dsimp only at h
        split_ifs at h with hname
        subst hname
        refine ⟨[], [], _, middle, .nil, hstop, rfl, ?_⟩
        rw [List.append_nil]
        cases inner
        exact h

/-- An element is read, and what follows it is left. -/
lemma result_element_iff {e : Element} : (element cs).result = some (e, rest) ↔
    ∃ text, ElementText .free e text ∧ cs = text ++ rest := by
  simp only [element, Attempt.result_bind, Option.bind_eq_some_iff, Prod.exists,
    result_startTag_iff]
  constructor
  · rintro ⟨n, as, closed, _, ⟨tag, htag, rfl⟩, h⟩
    cases closed with
    | true =>
      cases h
      exact ⟨_, .closed htag, (List.append_assoc _ _ _).symm⟩
    | false =>
      -- the content of the tag ends at the end tag that closes it, with nothing left open
      obtain ⟨es, inner, stop, tail, hinner, hstop, rfl, hclose⟩ := exists_of_content h
      cases hclose
      exact ⟨_, .opened htag hinner hstop, by simp only [List.append_assoc]⟩
  · rintro ⟨_, htext, rfl⟩
    cases htext with
    | @closed n as tag htag =>
      exact ⟨n, as, true, rest, ⟨tag, htag, List.append_assoc _ _ _⟩, rfl⟩
    | @opened n as es tag inner stop htag hinner hstop =>
      refine ⟨n, as, false, inner ++ (stop ++ rest), ⟨tag, htag, by simp only [List.append_assoc]⟩,
        ?_⟩
      rw [if_neg Bool.false_ne_true, hinner.result_content, result_content_endTag hstop, close,
        List.nil_append]

/-! ### Documents -/

/-- A part before the root that may be left out, with blanks and comments behind it. -/
inductive Preamble (opening closing : String) : List Char → Prop
  | absent : Preamble opening closing []
  | present {text cs : List Char} (htext : Enclosed opening closing text) (h : Blanks cs) :
      Preamble opening closing (text ++ cs)

/-- A document: a root element with blanks and comments around it, after an optional declaration and
an optional document type. -/
inductive DocumentText (s : Style) (root : Element) : List Char → Prop
  | mk {before declaration doctype text after : List Char} (hbefore : Blanks before)
      (hdeclaration : Preamble "<?" "?>" declaration) (hdoctype : Preamble "<!DOCTYPE" ">" doctype)
      (htext : ElementText s root text) (hafter : Blanks after) :
      DocumentText s root (before ++ (declaration ++ (doctype ++ (text ++ after))))

section Preamble

variable {opening closing : String} {step : List Char → Attempt (List Char)}

lemma preamble_of_result (hstep : ∀ cs rest, (step cs).result = some rest ↔
      ∃ text, Enclosed opening closing text ∧ cs = text ++ rest)
    (h : (optional (fun cs => do blanks (← step cs)) cs).result = some rest) :
    ∃ text, Preamble opening closing text ∧ cs = text ++ rest := by
  rw [optional, Attempt.result_orElse, Option.or_eq_some_iff, Attempt.result_bind,
    Option.bind_eq_some_iff] at h
  rcases h with ⟨middle, h, hblanks⟩ | ⟨-, h⟩
  · obtain ⟨text, htext, rfl⟩ := (hstep cs middle).1 h
    obtain ⟨after, hafter, rfl, -⟩ := result_blanks_iff.1 hblanks
    exact ⟨_, .present htext hafter, (List.append_assoc _ _ _).symm⟩
  · cases h
    exact ⟨[], .absent, rfl⟩

lemma Preamble.result_optional (hstep : ∀ cs rest, (step cs).result = some rest ↔
      ∃ text, Enclosed opening closing text ∧ cs = text ++ rest)
    (h : Preamble opening closing text) (hrest : Solid rest) (hnone : (step rest).result = none) :
    (optional (fun cs => do blanks (← step cs)) (text ++ rest)).result = some rest := by
  rw [optional, Attempt.result_orElse, Attempt.result_bind]
  cases h with
  | absent =>
    rw [List.nil_append, hnone]
    rfl
  | @present enclosed after htext hblanks =>
    rw [(hstep _ (after ++ rest)).2 ⟨enclosed, htext, List.append_assoc _ _ _⟩, Option.bind_some,
      result_blanks_iff.2 ⟨after, hblanks, rfl, hrest⟩]
    rfl

end Preamble

lemma result_declaration_iff : (declaration cs).result = some rest ↔
    ∃ text, Enclosed "<?" "?>" text ∧ cs = text ++ rest := by
  rw [declaration, Attempt.result_bind]
  exact result_enclosed_iff (by decide) (by decide)

lemma result_doctype_iff : (doctype cs).result = some rest ↔
    ∃ text, Enclosed "<!DOCTYPE" ">" text ∧ cs = text ++ rest := by
  rw [doctype, Attempt.result_bind]
  exact result_enclosed_iff (by decide) (by decide)

/-- The text of an element begins as a tag does. -/
lemma ElementText.exists_cons {e : Element} (h : ElementText .free e text) :
    ∃ c cs, text = '<' :: c :: cs ∧ isNameStart c = true := by
  obtain ⟨n, as, tag, more, htag, rfl⟩ : ∃ n as tag more, TagText n as tag ∧ text = tag ++ more := by
    cases h with
    | closed htag => exact ⟨_, _, _, _, htag, rfl⟩
    | opened htag hinner hstop => exact ⟨_, _, _, _, htag, rfl⟩
  obtain ⟨hname, -, -⟩ := htag
  obtain ⟨c, cs, heq, hc, -⟩ := exists_of_isName hname
  rw [heq]
  exact ⟨c, _, rfl, hc⟩

lemma result_sign_of_ne {s : String} {x c : Char} (hs : s.toList = '<' :: x :: xs) (hx : x ≠ c) :
    (sign s ('<' :: c :: cs)).result = none := by
  rw [sign, hs, Text.dropPrefix?, if_pos rfl, Text.dropPrefix?, if_neg hx]
  rfl

/-- Where an element begins, nothing else does. -/
lemma ElementText.solid {e : Element} (h : ElementText .free e text) (rest : List Char) :
    Solid (text ++ rest) ∧ (declaration (text ++ rest)).result = none ∧
      (doctype (text ++ rest)).result = none := by
  obtain ⟨c, cs, rfl, hc⟩ := h.exists_cons
  have hmark : '!' ≠ c := by
    rintro rfl
    cases hc
  have hquestion : '?' ≠ c := by
    rintro rfl
    cases hc
  refine ⟨⟨by rintro _ ⟨⟩; rfl, ?_⟩, ?_, ?_⟩
  · rw [comment, Attempt.result_bind]
    exact congrArg (Option.bind · _) (result_sign_of_ne rfl hmark)
  · rw [declaration, Attempt.result_bind]
    exact congrArg (Option.bind · _) (result_sign_of_ne rfl hquestion)
  · rw [doctype, Attempt.result_bind]
    exact congrArg (Option.bind · _) (result_sign_of_ne rfl hmark)

/-- The documents that are read are those of the grammar. -/
theorem result_document_iff {root : Element} :
    (document cs).result = some root ↔ DocumentText .free root cs := by
  simp only [document, Attempt.result_bind, Option.bind_eq_some_iff, Prod.exists,
    result_blanks_iff, result_element_iff]
  constructor
  · rintro ⟨_, ⟨before, hbefore, rfl, -⟩, _, hfirst, _, hsecond, _, _, ⟨text, htext, rfl⟩, _,
      ⟨after, hafter, rfl, -⟩, hend⟩
    obtain ⟨declaration, hdeclaration, rfl⟩ :=
      preamble_of_result (fun _ _ => result_declaration_iff) hfirst
    obtain ⟨doctype, hdoctype, rfl⟩ :=
      preamble_of_result (fun _ _ => result_doctype_iff) hsecond
    split at hend
    · next hempty =>
      cases hend
      rw [List.isEmpty_iff.1 hempty, List.append_nil]
      exact .mk hbefore hdeclaration hdoctype htext hafter
    · cases hend
  · rintro ⟨hbefore, hdeclaration, hdoctype, htext, hafter⟩
    rename_i before declaration doctype text after
    obtain ⟨hroot, hnotDeclaration, hnotDoctype⟩ := htext.solid after
    -- what stands behind the declaration, and that no declaration begins there
    have hsecond : Solid (doctype ++ (text ++ after)) ∧
        (Markup.declaration (doctype ++ (text ++ after))).result = none := by
      cases hdoctype with
      | absent => exact ⟨hroot, hnotDeclaration⟩
      | present henclosed hblanks =>
        obtain ⟨_⟩ := henclosed
        exact ⟨⟨by rintro _ ⟨⟩; rfl, rfl⟩, rfl⟩
    have hfirst : Solid (declaration ++ (doctype ++ (text ++ after))) := by
      cases hdeclaration with
      | absent => exact hsecond.1
      | present henclosed hblanks =>
        obtain ⟨_⟩ := henclosed
        exact ⟨by rintro _ ⟨⟩; rfl, rfl⟩
    have hnothing : Solid ([] : List Char) := ⟨by rintro _ ⟨⟩, rfl⟩
    exact ⟨_, ⟨before, hbefore, rfl, hfirst⟩, _,
      hdeclaration.result_optional (fun _ _ => result_declaration_iff) hsecond.1 hsecond.2, _,
      hdoctype.result_optional (fun _ _ => result_doctype_iff) hroot hnotDoctype, root, after,
      ⟨text, htext, rfl⟩, [], ⟨after, hafter, (List.append_nil _).symm, hnothing⟩, rfl⟩

/-- A text is read as a document if and only if it is one. -/
theorem read_eq_ok_iff {text : String} {root : Element} :
    read text = .ok root ↔ DocumentText .free root text.toList := by
  rw [← result_document_iff, read]
  cases (document text.toList).result <;> simp

end TimedPatterns.Markup
