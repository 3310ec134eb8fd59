import TimedPatterns.Proofs.Markup.Grammar
import TimedPatterns.Proofs.Text.Entity

/-!
# Writing elements

An element is written with its attributes between double quotes and its children between its tags;
without children it is closed at once. What has been written is read back, also with texts and
comments between the children and with what may stand around the root.
-/

namespace TimedPatterns

namespace Element

/-- An attribute as it is written behind what comes before it. -/
def attributeChars (a : String × String) : List Char :=
  ' ' :: (a.1.toList ++ '=' :: '"' :: (Text.escapeValue a.2.toList ++ ['"']))

/-- The beginning of a tag, up to the sign that ends it. -/
def tagChars (name : String) (attributes : List (String × String)) : List Char :=
  '<' :: (name.toList ++ attributes.flatMap attributeChars)

mutual

/-- An element as it is written. -/
def chars : Element → List Char
  | ⟨name, attributes, []⟩ => tagChars name attributes ++ ['/', '>']
  | ⟨name, attributes, child :: children⟩ =>
    tagChars name attributes ++
      '>' :: (chars child ++ charsAll children ++ '<' :: '/' :: (name.toList ++ ['>']))

def charsAll : List Element → List Char
  | [] => []
  | e :: es => chars e ++ charsAll es

end

/-- An element whose names, and those of the elements inside it, can be written. -/
inductive Named : Element → Prop
  | mk {name : String} {attributes : List (String × String)} {children : List Element}
    (hname : Markup.isName name = true)
    (hattributes : attributes.all (fun a => Markup.isName a.1) = true)
    (hchildren : ∀ child ∈ children, Named child) : Named ⟨name, attributes, children⟩

end Element

namespace Markup

open Element

variable {n : String} {as : List (String × String)}

/-! ### Tags -/

lemma not_mem_escapeValue (value : List Char) : '"' ∉ Text.escapeValue value := by
  rw [Text.escapeValue, List.mem_flatMap]
  rintro ⟨c, -, hc⟩
  unfold Text.quoteChar Text.escapeChar at hc
  split_ifs at hc with hquote
  · exact absurd hc (by decide)
  · exact absurd hc (by decide)
  · exact absurd hc (by decide)
  · exact absurd hc (by decide)
  · exact hquote (List.mem_singleton.1 hc).symm

/-- A value is written between double quotes with entities for the signs of markup. -/
lemma valueText_escapeValue (value : String) :
    ValueText value ('"' :: (Text.escapeValue value.toList ++ ['"'])) := by
  have hquoted : Quoted '"' _ _ := .mk (not_mem_escapeValue value.toList)
  rw [Text.unescapeChars_escapeValue, String.ofList_toList] at hquoted
  exact .double hquoted

lemma attributeText_attributeChars {a : String × String} (ha : isName a.1 = true) :
    AttributeText a (attributeChars a) := by
  have hspace : Spaces [' '] := List.forall_mem_singleton.2 rfl
  have hnone : Spaces [] := List.forall_mem_nil _
  exact .mk (List.cons_ne_nil _ _) hspace ha hnone hnone (valueText_escapeValue a.2)

lemma attributesText_flatMap (has : as.all (fun a => isName a.1) = true) :
    AttributesText as (as.flatMap attributeChars) := by
  induction as with
  | nil => exact .nil
  | cons a as ih =>
    obtain ⟨ha, has⟩ := Bool.and_eq_true_iff.1 has
    exact .cons (attributeText_attributeChars ha) (ih has)

lemma tagText_tagChars (hname : isName n = true) (has : as.all (fun a => isName a.1) = true) :
    TagText n as (tagChars n as) := by
  have htag := TagText.mk hname (attributesText_flatMap has) (List.forall_mem_nil _)
  rwa [List.append_nil] at htag

/-! ### Elements -/

/-- Tags as they are written. -/
def Style.plain : Style where
  tag n as tag := tag = tagChars n as
  endTag n stop := stop = '<' :: '/' :: (n.toList ++ ['>'])

mutual

/-- Tags as they are written are among those that the reader admits. -/
lemma ElementText.free {e : Element} {text : List Char} (h : ElementText .plain e text)
    (hnamed : e.Named) : ElementText .free e text := by
  match h, hnamed with
  | .closed htag, .mk hname has hchildren =>
    exact .closed (htag ▸ tagText_tagChars hname has)
  | .opened htag hinner hstop, .mk hname has hchildren =>
    have hend := EndText.mk hname (List.forall_mem_nil _)
    exact .opened (htag ▸ tagText_tagChars hname has) (hinner.free hchildren) (hstop ▸ hend)

lemma ContentText.free {es : List Element} {text : List Char} (h : ContentText .plain es text)
    (hnamed : ∀ e ∈ es, e.Named) : ContentText .free es text := by
  match h with
  | .nil => exact .nil
  | .text htext h => exact .text htext (h.free hnamed)
  | .comment htext h => exact .comment htext (h.free hnamed)
  | .element he h =>
    obtain ⟨hfirst, hnamed⟩ := List.forall_mem_cons.1 hnamed
    exact .element (he.free hfirst) (h.free hnamed)

end

/-- Elements that are written one after the other. -/
lemma contentText_charsAll {es : List Element}
    (h : ∀ e ∈ es, ElementText .plain e e.chars) : ContentText .plain es (charsAll es) := by
  induction es with
  | nil => exact .nil
  | cons e es ih =>
    obtain ⟨he, hes⟩ := List.forall_mem_cons.1 h
    exact .element he (ih hes)

lemma elementText_chars {e : Element} (h : e.Named) : ElementText .plain e e.chars := by
  induction h with
  | @mk name attributes children hname hattributes hchildren ih =>
    cases children with
    | nil => exact .closed rfl
    | cons child children =>
      have hopened : ElementText .plain ⟨name, attributes, child :: children⟩
          (tagChars name attributes ++ ((tagEnd false).toList ++
            (charsAll (child :: children) ++ '<' :: '/' :: (name.toList ++ ['>'])))) :=
        .opened rfl (contentText_charsAll ih) rfl
      exact hopened

/-! ### Contents -/

section Contents

variable {s : Style} {e : Element} {es fs : List Element} {inner text cs : List Char}

lemma ContentText.append {es : List Element} {text : List Char} (h : ContentText s es text)
    (h' : ContentText s fs cs) : ContentText s (es ++ fs) (text ++ cs) := by
  match h with
  | .nil => exact h'
  | .text htext h =>
    rw [List.append_assoc]
    exact .text htext (h.append h')
  | .comment htext h =>
    rw [List.append_assoc]
    exact .comment htext (h.append h')
  | .element he h =>
    rw [List.append_assoc]
    exact .element he (h.append h')

lemma contentText_text (h : '<' ∉ text) : ContentText s [] text := by
  have hne : ∀ c ∈ text, c ≠ '<' := List.forall_mem_ne'.2 h
  have htext := ContentText.text hne (.nil (s := s))
  rwa [List.append_nil] at htext

lemma contentText_element (h : ElementText s e text) : ContentText s [e] text := by
  have helement := ContentText.element h .nil
  rwa [List.append_nil] at helement

/-- An element on a line of its own. -/
lemma contentText_line (h : ElementText s e text) :
    ContentText s [e] (' ' :: ' ' :: (text ++ ['\n'])) := by
  have hblanks : ContentText s [] [' ', ' '] := contentText_text (by decide)
  have hend : ContentText s [] ['\n'] := contentText_text (by decide)
  exact hblanks.append ((contentText_element h).append hend)

lemma contentText_join {texts : List String}
    (h : List.Forall₂ (fun e text => ContentText s [e] text.toList) es texts) :
    ContentText s es (String.join texts).toList := by
  induction h with
  | nil => exact .nil
  | cons he _ ih =>
    rw [String.join_cons, String.toList_append]
    exact he.append ih

lemma isName_attribute {key value : String} (h : isName key = true) :
    [(key, value)].all (fun a => isName a.1) = true := by
  rw [List.all_cons, h]
  rfl

/-- An element with its content between its tags. -/
lemma elementText_opened (n : String) (as : List (String × String)) (hn : isName n = true)
    (has : as.all (fun a => isName a.1) = true) (h : ContentText .free es inner) :
    ElementText .free ⟨n, as, es⟩
      (tagChars n as ++ '>' :: (inner ++ '<' :: '/' :: (n.toList ++ ['>']))) :=
  .opened (tagText_tagChars hn has) h (.mk hn (List.forall_mem_nil _))

/-- A text between two tags. -/
lemma elementText_text (n : String) (as : List (String × String)) (hn : isName n = true)
    (has : as.all (fun a => isName a.1) = true) (h : '<' ∉ text) :
    ElementText .free ⟨n, as, []⟩
      (tagChars n as ++ '>' :: (text ++ '<' :: '/' :: (n.toList ++ ['>']))) :=
  elementText_opened n as hn has (contentText_text h)

/-- An element that is closed at once. -/
lemma elementText_closed (n : String) (as : List (String × String)) (hn : isName n = true)
    (has : as.all (fun a => isName a.1) = true) :
    ElementText .free ⟨n, as, []⟩ (tagChars n as ++ ['/', '>']) :=
  .closed (tagText_tagChars hn has)

end Contents

/-! ### Documents -/

/-- A text that is an element is a document. -/
lemma read_of_elementText {e : Element} {text : String} (h : ElementText .free e text.toList) :
    read text = .ok e := by
  have hdocument := DocumentText.mk .nil .absent .absent h .nil
  rw [List.append_nil] at hdocument
  exact read_eq_ok_iff.2 hdocument

lemma DocumentText.free {root : Element} {text : List Char} (h : DocumentText .plain root text)
    (hnamed : root.Named) : DocumentText .free root text := by
  obtain ⟨hbefore, hdeclaration, hdoctype, htext, hafter⟩ := h
  exact .mk hbefore hdeclaration hdoctype (htext.free hnamed) hafter

/-- A document that is an element is read back. -/
theorem read_chars {e : Element} (h : e.Named) : read (String.ofList e.chars) = .ok e := by
  refine read_of_elementText ?_
  rw [String.toList_ofList]
  exact (elementText_chars h).free h

/-- A document is read back whose root is an element with names that can be written: with texts and
comments between its children, blanks and comments around it, and a declaration and a document type
before it. And what is read is a document, in which each end tag bears the name of its start tag and
nothing but blanks and comments stands behind the root. -/
theorem document_recovered :
    (∀ (root : Element) (text : String), root.Named → DocumentText .plain root text.toList →
      read text = .ok root) ∧
    ∀ (text : String) (root : Element), read text = .ok root ↔ DocumentText .free root text.toList :=
  ⟨fun _ _ hnamed h => read_eq_ok_iff.2 (h.free hnamed), fun _ _ => read_eq_ok_iff⟩

namespace Sample

/-- An element with two children, and a value that has to be written with entities. -/
def root : Element := ⟨"a", [("k", "<2> &lt; \"")], [⟨"b", [], []⟩, ⟨"c", [("z", "3")], []⟩]⟩

/-- The element in a document, with texts and comments between its tags. -/
def text : String :=
  "<?xml?> <!DOCTYPE a>\n<a k=\"&lt;2&gt; &amp;lt; &quot;\">in<b/><!-- > --><c z=\"3\">more</c></a>\n"

lemma named_root : root.Named := by
  have hb : Element.Named ⟨"b", [], []⟩ := .mk rfl rfl (List.forall_mem_nil _)
  have hc : Element.Named ⟨"c", [("z", "3")], []⟩ := .mk rfl rfl (List.forall_mem_nil _)
  exact .mk rfl rfl (List.forall_mem_cons.2 ⟨hb, List.forall_mem_singleton.2 hc⟩)

/-- The sample is a document as it is written. -/
lemma documentText_text : DocumentText .plain root text.toList := by
  have hin : ∀ c ∈ ['i', 'n'], c ≠ '<' := by simp
  have hmore : ∀ c ∈ ['m', 'o', 'r', 'e'], c ≠ '<' := by simp
  have hcomment : Comment ("<!--".toList ++ ([' ', '>', ' '] ++ "-->".toList)) := .mk (by decide)
  have hdeclaration : Enclosed "<?" "?>" ("<?".toList ++ (['x', 'm', 'l'] ++ "?>".toList)) :=
    .mk (by decide)
  have hdoctype : Enclosed "<!DOCTYPE" ">" ("<!DOCTYPE".toList ++ ([' ', 'a'] ++ ">".toList)) :=
    .mk (by decide)
  have hb := @ElementText.closed .plain "b" [] _ rfl
  have hc := @ElementText.opened .plain "c" [("z", "3")] _ _ _ _ rfl (.text hmore .nil) rfl
  have hroot := @ElementText.opened .plain "a" [("k", "<2> &lt; \"")] _ _ _ _ rfl
    (.text hin (.element hb (.comment hcomment (.element hc .nil)))) rfl
  have hdocument := DocumentText.mk .nil (.present hdeclaration (.space (c := ' ') rfl .nil))
    (.present hdoctype (.space (c := '\n') rfl .nil)) hroot (.space (c := '\n') rfl .nil)
  exact hdocument

end Sample

/-- The sample is read back. -/
theorem document_recovered_sample : Sample.root.Named ∧
    DocumentText .plain Sample.root Sample.text.toList ∧ read Sample.text = .ok Sample.root :=
  ⟨Sample.named_root, Sample.documentText_text,
    document_recovered.1 Sample.root Sample.text Sample.named_root Sample.documentText_text⟩

end Markup

end TimedPatterns
