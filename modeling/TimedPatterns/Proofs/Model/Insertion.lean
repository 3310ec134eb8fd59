import TimedPatterns.Proofs.Model.SystemLine
import TimedPatterns.Proofs.Model.Declaration

/-!
# What is inserted into a model

A model that is instrumented is cut before its first `<system>`, before the semicolon of the last
`system` line behind it, and at the place where the clock is declared. Text is put in at these
places, and nothing is taken away.
-/

namespace TimedPatterns

/-- Whether a signal is sent or received. -/
def Instrumentation.HasSignal (p : Instrumentation) : Prop :=
  p.input.isSome = true ∨ p.observed.isSome = true

instance (p : Instrumentation) : Decidable p.HasSignal :=
  inferInstanceAs (Decidable (_ ∨ _))

lemma Instrumentation.HasSignal.templates_ne_nil {p : Instrumentation} (h : p.HasSignal) :
    p.templates ≠ [] := by
  rw [Instrumentation.templates]
  rcases h with h | h
  · obtain ⟨w, hw⟩ := Option.isSome_iff_exists.1 h
    simp [hw]
  · obtain ⟨w, hw⟩ := Option.isSome_iff_exists.1 h
    simp [hw]

namespace Model

open Text

variable {model out : List Char} {p : Instrumentation} {clock : String}

/-! ### Parts of a model -/

/-- The text before the first template and the first `<system>`. -/
def globals (model : List Char) : List Char :=
  beforeFirst "<template>".toList (beforeFirst "<system>".toList model)

/-- A model that is cut before its first `<system>` and before the semicolon of the last `system`
line between there and the next `</system>`. -/
structure Cut (model : List Char) where
  head : List Char
  line : List Char
  tail : List Char
  after : List Char
  append : model = head ++ (line ++ (tail ++ ("</system>".toList ++ after)))
  first : ¬ "<system>".toList <:+: head
  opened : "<system>".toList <+: line
  closed : ¬ "</system>".toList <:+: line ++ tail
  last : LastLine line tail

namespace Cut

/-- The text from the semicolon on. -/
def rest (c : Cut model) : List Char := c.tail ++ ("</system>".toList ++ c.after)

lemma cutFirst?_system (c : Cut model) : ∃ listed, c.line = "<system>".toList ++ listed ∧
    cutFirst? "<system>".toList model = some (c.head, listed ++ c.rest) ∧
      cutFirst? "</system>".toList (listed ++ c.rest) = some (listed ++ c.tail, c.after) ∧
        cutSystem? true 0 ("<system>".toList ++ (listed ++ c.tail)) = some (c.line, c.tail) := by
  obtain ⟨listed, hline⟩ := c.opened
  refine ⟨listed, hline.symm, ?_, ?_, ?_⟩
  · refine (cutFirst?_eq_some_iff (by decide) (by decide)).2 ⟨?_, c.first⟩
    rw [← List.append_assoc "<system>".toList, hline]
    exact c.append
  · refine (cutFirst?_eq_some_iff (by decide) (by decide)).2 ⟨(List.append_assoc _ _ _).symm, ?_⟩
    refine fun h => c.closed ?_
    rw [← hline, List.append_assoc]
    exact h.trans (List.suffix_append _ _).isInfix
  · rw [← List.append_assoc, hline]
    exact cutSystem?_eq_some_iff.2 ⟨rfl, c.last⟩

lemma head_eq (c : Cut model) : c.head = beforeFirst "<system>".toList model := by
  obtain ⟨listed, -, hsystem, -⟩ := c.cutFirst?_system
  rw [beforeFirst, hsystem]
  rfl

lemma head_isPrefix (c : Cut model) : c.head <+: model := ⟨_, c.append.symm⟩

lemma globals_eq (c : Cut model) : globals model = beforeFirst "<template>".toList c.head := by
  rw [globals, c.head_eq]

lemma globals_isPrefix (c : Cut model) : globals model <+: c.head := by
  rw [c.globals_eq]
  exact beforeFirst_isPrefix _ _

/-- What stands behind the head when templates have been put in. -/
def behind (c : Cut model) (templates : List Template) : List Char :=
  templateText templates ++ c.line ++ nameText templates ++ c.rest

end Cut

/-- A model without such parts is refused. -/
lemma refused_of_isEmpty_cut (h : p.templates ≠ []) (hcut : IsEmpty (Cut model)) :
    ∃ why, instrumentChars model p = .refused why := by
  rw [instrumentChars, if_neg (by simpa using h)]
  cases hsystem : cutFirst? "<system>".toList model with
  | none => exact ⟨_, rfl⟩
  | some parts =>
    obtain ⟨head, tail⟩ := parts
    simp only
    cases hclose : cutFirst? "</system>".toList tail with
    | none => exact ⟨_, rfl⟩
    | some parts =>
      obtain ⟨system, after⟩ := parts
      simp only
      cases hline : cutSystem? true 0 ("<system>".toList ++ system) with
      | none => exact ⟨_, rfl⟩
      | some parts =>
        obtain ⟨line, tail⟩ := parts
        obtain ⟨rfl, hfirst⟩ := (cutFirst?_eq_some_iff (by decide) (by decide)).1 hsystem
        obtain ⟨rfl, hclosed⟩ := (cutFirst?_eq_some_iff (by decide) (by decide)).1 hclose
        obtain ⟨hsystem, hlast⟩ := cutSystem?_eq_some_iff.1 hline
        have hclear : Clear "</system>".toList "<system>".toList := by decide
        -- the three cuts together are a cut of the model, of which there is none
        refine (hcut.false ⟨head, line, tail, after, ?_, hfirst,
          hlast.ends.tag_isPrefix hsystem.symm, ?_, hlast⟩).elim
        · rw [← List.append_assoc line, ← hsystem, List.append_assoc]
        · rwa [← hsystem, hclear.infix_append_iff]

/-! ### The declaration of the clock -/

/-- The declarations before the first template declare the clock. -/
def Declared (model : List Char) (clock : String) : Prop :=
  ∃ before declarations, globals model = before ++ ("<declaration>".toList ++ declarations) ∧
    ¬ "<declaration>".toList <:+: before ∧ Declares declarations clock.toList

/-- The text before the place where the clock is declared, and what is put there: at the beginning
of the declarations before the first template, or behind the first tag of the network if there are
none. -/
inductive Place (model : List Char) (clock : String) : List Char → List Char → Prop
  | declarations {before declarations : List Char} :
    globals model = before ++ ("<declaration>".toList ++ declarations) →
      ¬ "<declaration>".toList <:+: before →
        Place model clock (before ++ "<declaration>".toList) s!"\nclock {clock};\n".toList
  | network {before after : List Char} :
    ¬ "<declaration>".toList <:+: globals model →
      model = before ++ after → EndsFirstTag before →
        Place model clock before s!"\n<declaration>clock {clock};</declaration>".toList

lemma declared_iff {before declarations : List Char}
    (h : globals model = before ++ ("<declaration>".toList ++ declarations))
    (hbefore : ¬ "<declaration>".toList <:+: before) :
    Declared model clock ↔ Declares declarations clock.toList := by
  refine ⟨?_, fun hdeclares => ⟨before, declarations, h, hbefore, hdeclares⟩⟩
  rintro ⟨before', declarations', h', hbefore', hdeclares⟩
  have hcut := (cutFirst?_eq_some_iff (by decide) (by decide)).2 ⟨h, hbefore⟩
  rw [(cutFirst?_eq_some_iff (by decide) (by decide)).2 ⟨h', hbefore'⟩] at hcut
  cases hcut
  exact hdeclares

lemma not_declared (h : ¬ "<declaration>".toList <:+: globals model) :
    ¬ Declared model clock := by
  rintro ⟨before, declarations, hglobals, -⟩
  exact h (hglobals ▸ List.infix_append' _ _ _)

/-- The place where the clock is declared is known unless it is declared already, or there are
neither declarations nor a tag of the network. -/
lemma clockPlace_cases (model : List Char) (clock : String) :
    (Declared model clock ∧ clockPlace model (globals model) clock = .declared) ∨
      (¬ Declared model clock ∧
        ((∃ before declaration, Place model clock before declaration ∧
            clockPlace model (globals model) clock = .place before declaration) ∨
          (∀ before declaration, ¬ Place model clock before declaration) ∧
            clockPlace model (globals model) clock = .missing .noNetwork)) := by
  rw [clockPlace]
  cases hdeclarations : cutFirst? "<declaration>".toList (globals model) with
  | some parts =>
    obtain ⟨before, declarations⟩ := parts
    obtain ⟨h, hbefore⟩ := (cutFirst?_eq_some_iff (by decide) (by decide)).1 hdeclarations
    -- with a declaration section the clock goes there, and there is always a place for it
    rw [declared_iff h hbefore]
    by_cases hdeclares : Declares declarations clock.toList
    · exact .inl ⟨hdeclares, if_pos (declaresClock_eq_true_iff.2 hdeclares)⟩
    · exact .inr ⟨hdeclares, .inl ⟨_, _, .declarations h hbefore,
        if_neg (mt declaresClock_eq_true_iff.1 hdeclares)⟩⟩
  | none =>
    -- without one it goes behind the network's tag, if there is such a tag
    have h := cutFirst?_eq_none_iff.1 hdeclarations
    refine .inr ⟨not_declared h, ?_⟩
    cases hnetwork : cutNetwork? model with
    | some parts =>
      obtain ⟨before, after⟩ := parts
      obtain ⟨hmodel, hbefore⟩ := cutNetwork?_eq_some_iff.1 hnetwork
      exact .inl ⟨_, _, .network h hmodel hbefore, rfl⟩
    | none =>
      refine .inr ⟨fun before declaration hplace => ?_, rfl⟩
      cases hplace with
      | declarations hglobals _ => exact h (hglobals ▸ List.infix_append' _ _ _)
      | network _ hmodel hbefore =>
        exact cutNetwork?_eq_none_iff.1 hnetwork before ⟨_, hmodel.symm⟩ hbefore.ends

/-- There is one place for the declaration of the clock. -/
lemma Place.unique {before before' declaration declaration' : List Char}
    (h : Place model clock before declaration) (h' : Place model clock before' declaration') :
    before = before' ∧ declaration = declaration' := by
  cases h with
  | declarations hglobals hbefore =>
    cases h' with
    | declarations hglobals' hbefore' =>
      have hcut := (cutFirst?_eq_some_iff (by decide) (by decide)).2 ⟨hglobals, hbefore⟩
      rw [(cutFirst?_eq_some_iff (by decide) (by decide)).2 ⟨hglobals', hbefore'⟩] at hcut
      cases hcut
      exact ⟨rfl, rfl⟩
    | network hnone _ _ => exact absurd (hglobals ▸ List.infix_append' _ _ _) hnone
  | network hnone hmodel hbefore =>
    cases h' with
    | declarations hglobals' _ => exact absurd (hglobals' ▸ List.infix_append' _ _ _) hnone
    | network _ hmodel' hbefore' =>
      exact ⟨hbefore.unique hbefore' ⟨_, hmodel.symm⟩ ⟨_, hmodel'.symm⟩, rfl⟩

/-! ### The outcome -/

lemma instrumentChars_of_cut (c : Cut model) (h : p.templates ≠ []) :
    instrumentChars model p =
      if p.HasSignal then
        match clockPlace model (globals model) p.clock with
        | .missing why => .refused why
        | .declared => .text (c.head ++ c.behind p.templates)
        | .place before declaration =>
          match dropPrefix? before c.head with
          | some between => .text (before ++ declaration ++ between ++ c.behind p.templates)
          | none => .crossed
      else .text (c.head ++ c.behind p.templates) := by
  obtain ⟨listed, hline, hsystem, hclose, hcut⟩ := c.cutFirst?_system
  have hglobals : ((cutFirst? "<template>".toList c.head).map (·.1)).getD c.head =
      globals model := c.globals_eq.symm
  have hbehind : templateText p.templates ++ c.line ++ nameText p.templates ++ c.tail ++
      "</system>".toList ++ c.after = c.behind p.templates := by
    simp only [Cut.behind, Cut.rest, List.append_assoc]
  rw [instrumentChars, if_neg (by simpa using h), hsystem]
  simp only [hclose, hcut, hglobals, hbehind, Bool.or_eq_true]
  rfl

/-- Whether the clock has to be declared: a signal is sent or received, and the clock has not been
declared. -/
def NeedsClock (model : List Char) (p : Instrumentation) : Prop :=
  p.HasSignal ∧ ¬ Declared model p.clock

/-- The text of a model with what is put into it, and the declaration of the clock in it, which is
empty if there is none. -/
inductive Inserted (p : Instrumentation) (model : List Char) : List Char → List Char → Prop
  | nothing : p.templates = [] → Inserted p model [] model
  | templates (c : Cut model) : p.templates ≠ [] → ¬ NeedsClock model p →
    Inserted p model [] (c.head ++ c.behind p.templates)
  | declaration (c : Cut model) {before declaration between : List Char} : p.templates ≠ [] →
    NeedsClock model p → Place model p.clock before declaration → c.head = before ++ between →
      Inserted p model declaration (before ++ declaration ++ between ++ c.behind p.templates)

/-- The outcome for a model that is cut: the clock is not declared, or declared at its place, or
this place is behind the templates, or there is none. -/
lemma instrumentChars_cases (c : Cut model) (h : p.templates ≠ []) :
    (¬ NeedsClock model p ∧
        instrumentChars model p = .text (c.head ++ c.behind p.templates)) ∨
      (NeedsClock model p ∧ ∃ before declaration, Place model p.clock before declaration ∧
        ((∃ between, c.head = before ++ between ∧ instrumentChars model p =
            .text (before ++ declaration ++ between ++ c.behind p.templates)) ∨
          (¬ before <+: c.head ∧ instrumentChars model p = .crossed))) ∨
      (NeedsClock model p ∧ (∀ before declaration, ¬ Place model p.clock before declaration) ∧
        instrumentChars model p = .refused .noNetwork) := by
  rw [instrumentChars_of_cut c h]
  by_cases hsignal : p.HasSignal
  · rw [if_pos hsignal]
    rcases clockPlace_cases model p.clock with ⟨hdeclared, hplace⟩ |
      ⟨hdeclared, ⟨before, declaration, hbefore, hplace⟩ | ⟨hnone, hplace⟩⟩ <;> rw [hplace]
    · exact .inl ⟨fun hneeds => hneeds.2 hdeclared, rfl⟩
    · refine .inr (.inl ⟨⟨hsignal, hdeclared⟩, before, declaration, hbefore, ?_⟩)
      cases hdrop : dropPrefix? before c.head with
      | some between => exact .inl ⟨between, dropPrefix?_eq_some_iff.1 hdrop, by simp only [hdrop]⟩
      | none => exact .inr ⟨dropPrefix?_eq_none_iff.1 hdrop, by simp only [hdrop]⟩
    · exact .inr (.inr ⟨⟨hsignal, hdeclared⟩, hnone, rfl⟩)
  · rw [if_neg hsignal]
    exact .inl ⟨fun hneeds => hsignal hneeds.1, rfl⟩

lemma instrumentChars_of_templates_eq_nil (h : p.templates = []) :
    instrumentChars model p = .text model := by
  rw [instrumentChars, h]
  rfl

lemma instrumentChars_eq_text_iff :
    instrumentChars model p = .text out ↔ ∃ declaration, Inserted p model declaration out := by
  constructor
  · intro hout
    by_cases h : p.templates = []
    · rw [instrumentChars_of_templates_eq_nil h] at hout
      cases hout
      exact ⟨[], .nothing h⟩
    · rcases isEmpty_or_nonempty (Cut model) with hcut | ⟨⟨c⟩⟩
      · obtain ⟨why, hwhy⟩ := refused_of_isEmpty_cut h hcut
        rw [hwhy] at hout
        cases hout
      · rcases instrumentChars_cases c h with ⟨hneeds, heq⟩ | ⟨hneeds, before, declaration, hplace,
          ⟨between, hhead, heq⟩ | ⟨-, heq⟩⟩ | ⟨-, -, heq⟩ <;> rw [hout] at heq <;> cases heq
        · exact ⟨[], .templates c h hneeds⟩
        · exact ⟨declaration, .declaration c h hneeds hplace hhead⟩
  · rintro ⟨declaration, h | ⟨c, h, hneeds⟩ | ⟨c, h, hneeds, hplace, hhead⟩⟩
    · exact instrumentChars_of_templates_eq_nil h
    · rcases instrumentChars_cases c h with ⟨-, heq⟩ | ⟨hneeds', -⟩ | ⟨hneeds', -⟩
      · exact heq
      · exact absurd hneeds' hneeds
      · exact absurd hneeds' hneeds
    · -- a clock is needed: the place it was given is the one the program finds, since there is only
      -- one
      rcases instrumentChars_cases c h with ⟨hneeds', -⟩ | ⟨-, before, declaration, hplace', heq⟩ |
        ⟨-, hnone, -⟩
      · exact absurd hneeds hneeds'
      · obtain ⟨rfl, rfl⟩ := hplace.unique hplace'
        rcases heq with ⟨between, hhead', heq⟩ | ⟨hnot, -⟩
        · rw [heq, List.append_cancel_left (hhead.symm.trans hhead')]
        · exact absurd ⟨_, hhead.symm⟩ hnot
      · exact absurd hplace (hnone _ _)

/-- Each template is on lines of its own. -/
lemma templateText_eq (templates : List Template) :
    templateText templates = templates.flatMap fun t => t.render.toList ++ "\n".toList := rfl

/-- There is a comma before each name. -/
lemma nameText_eq {templates : List Template} (h : templates ≠ []) :
    nameText templates = templates.flatMap fun t => ", ".toList ++ t.name.toList := by
  induction templates with
  | nil => exact absurd rfl h
  | cons t ts ih =>
    cases ts with
    | nil => simp [nameText]
    | cons t' ts =>
      rw [List.flatMap_cons, ← ih (List.cons_ne_nil t' ts)]
      simp [nameText, String.toList_intercalate]

lemma Cut.behind_eq (c : Cut model) {templates : List Template} (h : templates ≠ []) :
    c.behind templates = (templates.flatMap fun t => t.render.toList ++ "\n".toList) ++ c.line ++
      (templates.flatMap fun t => ", ".toList ++ t.name.toList) ++ c.rest := by
  rw [behind, templateText_eq, nameText_eq h]

/-- A text is the outcome exactly if it is the model itself and there are no templates, or the model
with the templates before its first `<system>`, their names before the semicolon of the last
`system` line, and, if the clock has to be declared, its declaration at its place before the
templates. The model is the same text without these insertions. -/
theorem instrument_eq_text_iff (model : String) (p : Instrumentation) (out : List Char) :
    instrument model p = .text out ↔
      (p.templates = [] ∧ out = model.toList) ∨
        (p.templates ≠ [] ∧
          ∃ (c : Cut model.toList) (before declaration between : List Char),
            c.head = before ++ between ∧
            model.toList = before ++ between ++ c.line ++ c.rest ∧
            out = before ++ declaration ++ between ++
              (p.templates.flatMap fun t => t.render.toList ++ "\n".toList) ++ c.line ++
              (p.templates.flatMap fun t => ", ".toList ++ t.name.toList) ++ c.rest ∧
            ((NeedsClock model.toList p ∧ Place model.toList p.clock before declaration) ∨
              (¬ NeedsClock model.toList p ∧ declaration = []))) := by
  rw [instrument, instrumentChars_eq_text_iff]
  have hmodel (c : Cut model.toList) : model.toList = c.head ++ c.line ++ c.rest := by
    rw [List.append_assoc]
    exact c.append
  constructor
  · rintro ⟨declaration, h | ⟨c, h, hneeds⟩ | ⟨c, h, hneeds, hplace, hhead⟩⟩
    · exact .inl ⟨h, rfl⟩
    · refine .inr ⟨h, c, [], [], c.head, rfl, hmodel c, ?_, .inr ⟨hneeds, rfl⟩⟩
      simp only [c.behind_eq h, List.append_assoc, List.nil_append]
    · refine .inr ⟨h, c, _, declaration, _, hhead, ?_, ?_, .inl ⟨hneeds, hplace⟩⟩
      · rw [← hhead]
        exact hmodel c
      · simp only [c.behind_eq h, List.append_assoc]
  · rintro (⟨h, rfl⟩ | ⟨h, c, before, declaration, between, hhead, -, rfl, hdeclaration⟩)
    · exact ⟨[], .nothing h⟩
    · rcases hdeclaration with ⟨hneeds, hplace⟩ | ⟨hneeds, rfl⟩
      · have hinserted := Inserted.declaration c h hneeds hplace hhead
        refine ⟨declaration, ?_⟩
        simpa only [c.behind_eq h, List.append_assoc] using hinserted
      · have hinserted := Inserted.templates c h hneeds
        refine ⟨[], ?_⟩
        simpa only [c.behind_eq h, hhead, List.append_assoc, List.append_nil, List.nil_append] using
          hinserted

end Model

end TimedPatterns
