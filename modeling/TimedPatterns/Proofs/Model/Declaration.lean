import TimedPatterns.Model
import TimedPatterns.Proofs.Text.Occurrence

/-!
# Declarations of a clock

Declarations declare a clock if the word `clock` stands in them, and the name of the clock behind it
before the next semicolon, each as a word of its own. If a model has no declarations, they are added
behind the first tag of the network. Where this tag ends is told by the text up to there alone.
-/

namespace TimedPatterns.Model

open Text

variable {name pre cs before after : List Char} {c : Char}

/-! ### Declared clocks -/

/-- A text stands between two others as a word of its own. -/
def Stands (before word after : List Char) : Prop :=
  isBoundary before.getLast? (word ++ after).head? = true ∧
    isBoundary (before ++ word).getLast? after.head? = true

def Declares (declarations name : List Char) : Prop :=
  ∃ before between after,
    declarations = before ++ ("clock".toList ++ (between ++ (name ++ after))) ∧ ';' ∉ between ∧
      Stands before "clock".toList (between ++ (name ++ after)) ∧
      Stands (before ++ "clock".toList ++ between) name after

lemma getLast?_append (pre word : List Char) :
    (pre ++ word).getLast? = (word.getLast? <|> pre.getLast?) := by
  rw [List.getLast?_append]
  cases word.getLast? <;> rfl

lemma standsAt_eq_true_iff : declaresAfter.standsAt name pre.getLast? cs = true ↔
    ∃ after, cs = name ++ after ∧ Stands pre name after := by
  rw [declaresAfter.standsAt, Bool.and_eq_true]
  constructor
  · rintro ⟨hbefore, hafter⟩
    cases hname : dropPrefix? name cs with
    | none =>
      rw [hname] at hafter
      cases hafter
    | some after =>
      obtain rfl := dropPrefix?_eq_some_iff.1 hname
      rw [hname] at hafter
      exact ⟨after, rfl, hbefore, by rwa [getLast?_append]⟩
  · rintro ⟨after, rfl, hbefore, hafter⟩
    rw [getLast?_append] at hafter
    rw [dropPrefix?_eq_some_iff.2 rfl]
    exact ⟨hbefore, hafter⟩

lemma declaresAfter_eq_true_iff : declaresAfter name pre.getLast? cs = true ↔
    ∃ between after, cs = between ++ (name ++ after) ∧ ';' ∉ between ∧
      Stands (pre ++ between) name after := by
  induction cs generalizing pre with
  | nil =>
    rw [declaresAfter, standsAt_eq_true_iff]
    constructor
    · rintro ⟨after, h, hstands⟩
      exact ⟨[], after, h, List.not_mem_nil, by rwa [List.append_nil]⟩
    · rintro ⟨between, after, h, -, hstands⟩
      obtain ⟨rfl, -⟩ := List.append_eq_nil_iff.1 h.symm
      rw [List.append_nil] at hstands
      exact ⟨after, h, hstands⟩
  | cons c cs ih =>
    have hlast : some c = (pre ++ [c]).getLast? := List.getLast?_concat.symm
    rw [declaresAfter, Bool.or_eq_true, standsAt_eq_true_iff, Bool.and_eq_true, bne_iff_ne, hlast,
      ih]
    constructor
    · rintro (⟨after, h, hstands⟩ | ⟨hc, between, after, rfl, hbetween, hstands⟩)
      · exact ⟨[], after, h, List.not_mem_nil, by rwa [List.append_nil]⟩
      · rw [List.append_assoc] at hstands
        exact ⟨c :: between, after, rfl, by simp [hc.symm, hbetween], hstands⟩
    · rintro ⟨between, after, h, hbetween, hstands⟩
      cases between with
      | nil =>
        rw [List.append_nil] at hstands
        exact .inl ⟨after, h, hstands⟩
      | cons d between =>
        cases h
        rw [List.mem_cons, not_or] at hbetween
        exact .inr ⟨Ne.symm hbetween.1, between, after, rfl, hbetween.2,
          by rwa [List.append_assoc]⟩

/-- The word `clock` stands at this place, and the name of the clock behind it. -/
lemma declaresHere_eq_true_iff :
    (isBoundary pre.getLast? cs.head? &&
      match dropPrefix? "clock".toList cs with
      | none => false
      | some rest => isBoundary (some 'k') rest.head? && declaresAfter name (some 'k') rest) =
        true ↔
    ∃ between after, cs = "clock".toList ++ (between ++ (name ++ after)) ∧ ';' ∉ between ∧
      Stands pre "clock".toList (between ++ (name ++ after)) ∧
      Stands (pre ++ "clock".toList ++ between) name after := by
  have hlast : some 'k' = (pre ++ "clock".toList).getLast? := by
    rw [getLast?_append]
    rfl
  rw [Bool.and_eq_true, hlast]
  constructor
  · rintro ⟨hbefore, hrest⟩
    cases hclock : dropPrefix? "clock".toList cs with
    | none =>
      rw [hclock] at hrest
      cases hrest
    | some rest =>
      obtain rfl := dropPrefix?_eq_some_iff.1 hclock
      simp only [hclock, Bool.and_eq_true, declaresAfter_eq_true_iff] at hrest
      obtain ⟨hrest, between, after, rfl, hbetween, hstands⟩ := hrest
      exact ⟨between, after, rfl, hbetween, ⟨hbefore, hrest⟩, hstands⟩
  · rintro ⟨between, after, rfl, hbetween, ⟨hbefore, hrest⟩, hstands⟩
    simp only [dropPrefix?_eq_some_iff.2 rfl, Bool.and_eq_true, declaresAfter_eq_true_iff]
    exact ⟨hbefore, hrest, between, after, rfl, hbetween, hstands⟩

lemma declaresFrom_eq_true_iff : declaresFrom name pre.getLast? cs = true ↔
    ∃ before between after,
      cs = before ++ ("clock".toList ++ (between ++ (name ++ after))) ∧ ';' ∉ between ∧
        Stands (pre ++ before) "clock".toList (between ++ (name ++ after)) ∧
        Stands (pre ++ before ++ "clock".toList ++ between) name after := by
  -- on the text that is left, for every text before it: only its last character matters
  induction cs generalizing pre with
  | nil => simp [declaresFrom]
  | cons c cs ih =>
    have hthere := @ih (pre ++ [c])
    rw [List.getLast?_concat] at hthere
    rw [declaresFrom, Bool.or_eq_true]
    refine (or_congr (@declaresHere_eq_true_iff name pre (c :: cs)) hthere).trans ?_
    constructor
    · rintro (⟨between, after, h, hbetween, hclock, hname⟩ |
        ⟨before, between, after, rfl, hbetween, hclock, hname⟩)
      · exact ⟨[], between, after, h, hbetween, by rwa [List.append_nil],
          by rwa [List.append_nil]⟩
      · rw [List.append_assoc pre] at hclock hname
        exact ⟨c :: before, between, after, rfl, hbetween, hclock, hname⟩
    · rintro ⟨before, between, after, h, hbetween, hclock, hname⟩
      cases before with
      | nil =>
        rw [List.append_nil] at hclock hname
        exact .inl ⟨between, after, h, hbetween, hclock, hname⟩
      | cons d before =>
        cases h
        refine .inr ⟨before, between, after, rfl, hbetween, ?_, ?_⟩
        · rwa [List.append_assoc pre]
        · rwa [List.append_assoc pre]

lemma declaresClock_eq_true_iff {declarations : List Char} :
    declaresClock declarations name = true ↔ Declares declarations name :=
  @declaresFrom_eq_true_iff name [] declarations

/-! ### The tag of the network -/

/-- A tag of the network: its attributes, if there are any, stand behind a blank. -/
def NetworkTag (tag : List Char) : Prop :=
  ∃ attributes, tag = "<nta".toList ++ (attributes ++ ['>']) ∧ '>' ∉ attributes ∧
    ∀ c ∈ attributes.head?, isBlank c = true

lemma NetworkTag.getLast? {tag : List Char} (h : NetworkTag tag) : tag.getLast? = some '>' := by
  obtain ⟨attributes, rfl, -, -⟩ := h
  rw [← List.append_assoc, List.getLast?_concat]

lemma NetworkTag.not_mem_dropLast {tag : List Char} (h : NetworkTag tag) :
    '>' ∉ tag.dropLast := by
  obtain ⟨attributes, rfl, hattributes, -⟩ := h
  rw [← List.append_assoc, List.dropLast_concat, List.mem_append, not_or]
  exact ⟨by decide, hattributes⟩

lemma networkTag?_eq_some_iff {tag rest : List Char} :
    cutNetwork?.networkTag? cs = some (tag, rest) ↔ cs = tag ++ rest ∧ NetworkTag tag := by
  constructor
  · intro h
    obtain ⟨behind, hbehind, hbody⟩ := Option.bind_eq_some_iff.1 h
    rw [dropPrefix?_eq_some_iff.1 hbehind]
    split at hbody
    · cases hbody
      exact ⟨rfl, [], rfl, List.not_mem_nil, nofun⟩
    · next d ds _ =>
      split_ifs at hbody with hblank
      split at hbody
      · next attributes rest' hspan =>
        cases hbody
        obtain ⟨hds, hattributes⟩ := append_of_span hspan
        refine ⟨by simp [hds], d :: attributes, by simp, ?_, ?_⟩
        · rw [List.mem_cons, not_or]
          refine ⟨?_, hattributes⟩
          rintro rfl
          exact absurd hblank (by decide)
        · rintro c ⟨⟩
          exact hblank
      · cases hbody
    · cases hbody
  · rintro ⟨rfl, attributes, rfl, hattributes, hblank⟩
    rw [List.append_assoc, cutNetwork?.networkTag?, dropPrefix?_eq_some_iff.2 rfl]
    cases attributes with
    | nil => rfl
    | cons d attributes =>
      have hd : isBlank d = true := hblank d rfl
      rw [List.mem_cons, not_or] at hattributes
      have hspan : (attributes ++ '>' :: rest).span (· != '>') = (attributes, '>' :: rest) :=
        span_append hattributes.2 rfl
      simp only [Option.bind_eq_bind, Option.bind_some, List.cons_append, List.append_assoc,
        List.nil_append]
      split
      · next heq => exact absurd (List.cons.inj heq).1.symm hattributes.1
      · next heq =>
        cases heq
        rw [if_pos hd, hspan]
        rfl
      · next heq => cases heq

/-- The text ends with a tag of the network. -/
def EndsInTag (before : List Char) : Prop := ∃ pre tag, before = pre ++ tag ∧ NetworkTag tag

lemma not_endsInTag_nil : ¬ EndsInTag [] := by
  rintro ⟨pre, tag, h, htag⟩
  rw [(List.append_eq_nil_iff.1 h.symm).2] at htag
  cases htag.getLast?

lemma endsInTag_cons :
    EndsInTag (c :: before) ↔ NetworkTag (c :: before) ∨ EndsInTag before := by
  constructor
  · rintro ⟨pre, tag, h, htag⟩
    rcases List.cons_eq_append_iff.1 h with ⟨rfl, rfl⟩ | ⟨pre, rfl, rfl⟩
    · exact .inl htag
    · exact .inr ⟨pre, tag, rfl, htag⟩
  · rintro (htag | ⟨pre, tag, rfl, htag⟩)
    · exact ⟨[], c :: before, rfl, htag⟩
    · exact ⟨c :: pre, tag, rfl, htag⟩

lemma EndsInTag.getLast? (h : EndsInTag before) : before.getLast? = some '>' := by
  obtain ⟨pre, tag, rfl, htag⟩ := h
  rw [List.getLast?_append, htag.getLast?]
  rfl

/-- What follows the name of the network where its tag begins. -/
def Opens (c : Char) : Prop := c = '>' ∨ isBlank c = true

lemma EndsInTag.exists_opens (h : EndsInTag before) :
    ∃ c, Opens c ∧ "<nta".toList ++ [c] <:+: before := by
  obtain ⟨pre, tag, rfl, attributes, rfl, -, hblank⟩ := h
  cases attributes with
  | nil => exact ⟨'>', .inl rfl, pre, [], by simp⟩
  | cons c attributes =>
    exact ⟨c, .inr (hblank c rfl), pre, attributes ++ ['>'], by simp⟩

/-- A tag of the network that begins in a text ends in it, if there is an end behind it. -/
lemma exists_endsInTag (hc : Opens c) (h : "<nta".toList ++ [c] <:+: cs) (hafter : '>' ∈ after) :
    ∃ pre, pre <+: cs ++ after ∧ EndsInTag pre := by
  obtain ⟨u, v, rfl⟩ := h
  obtain ⟨attributes, rest, hrest, hattributes⟩ := List.eq_append_cons_of_mem
    (List.mem_append_right (c :: v) hafter)
  have hblank : ∀ d ∈ attributes.head?, isBlank d = true := by
    intro d hd
    cases attributes with
    | nil => cases hd
    | cons e attributes =>
      obtain rfl : e = d := Option.some.inj hd
      obtain rfl : c = e := (List.cons.inj hrest).1
      exact hc.resolve_left fun heq => hattributes (heq ▸ List.mem_cons_self)
  refine ⟨u ++ ("<nta".toList ++ (attributes ++ ['>'])), ⟨rest, ?_⟩, u, _, rfl, attributes, rfl,
    hattributes, hblank⟩
  have hassoc : u ++ ("<nta".toList ++ [c]) ++ v ++ after =
      u ++ ("<nta".toList ++ (c :: v ++ after)) := by
    simp
  rw [hassoc, hrest]
  simp

/-- The text ends with a tag of the network, and no text that it begins with does. -/
structure EndsFirstTag (before : List Char) : Prop where
  ends : EndsInTag before
  first : ∀ pre, pre <+: before → EndsInTag pre → pre = before

/-- A model has one first tag. -/
lemma EndsFirstTag.unique {before' : List Char} (h : EndsFirstTag before)
    (h' : EndsFirstTag before') (hbefore : before <+: cs) (hbefore' : before' <+: cs) :
    before = before' := by
  rcases List.prefix_or_prefix_of_prefix hbefore hbefore' with hle | hle
  · exact h'.first before hle h.ends
  · exact (h.first before' hle h'.ends).symm

lemma NetworkTag.endsFirstTag (h : NetworkTag before) : EndsFirstTag before where
  ends := ⟨[], before, rfl, h⟩
  first := by
    rintro pre ⟨rest, rfl⟩ hpre
    -- the end of a tag stands at its end only
    rcases List.eq_nil_or_concat rest with rfl | ⟨rest, d, rfl⟩
    · exact (List.append_nil pre).symm
    · refine absurd (List.mem_append_left rest (List.mem_of_getLast? hpre.getLast?)) ?_
      simpa [← List.append_assoc] using h.not_mem_dropLast

lemma cutNetwork?_sound (h : cutNetwork? cs = some (before, after)) :
    cs = before ++ after ∧ EndsFirstTag before := by
  induction cs generalizing before with
  | nil => cases h
  | cons c cs ih =>
    rw [cutNetwork?] at h
    cases htag : cutNetwork?.networkTag? (c :: cs) with
    | some found =>
      rw [htag] at h
      cases h
      obtain ⟨hcs, hfound⟩ := networkTag?_eq_some_iff.1 htag
      exact ⟨hcs, hfound.endsFirstTag⟩
    | none =>
      rw [htag] at h
      simp only [Option.map_eq_some_iff, Prod.exists, Prod.mk.injEq] at h
      obtain ⟨b, a, hcut, rfl, rfl⟩ := h
      obtain ⟨rfl, hends⟩ := ih hcut
      refine ⟨rfl, endsInTag_cons.2 (.inr hends.ends), fun pre hpre hpreEnds => ?_⟩
      cases pre with
      | nil => exact absurd hpreEnds not_endsInTag_nil
      | cons d pre =>
        obtain ⟨rfl, hle⟩ := List.cons_prefix_cons.1 hpre
        rcases endsInTag_cons.1 hpreEnds with hpreTag | hpreEnds
        · -- a tag that begins here would have been found
          obtain ⟨rest, rfl⟩ := hle
          rw [List.append_assoc, ← List.cons_append,
            networkTag?_eq_some_iff.2 ⟨rfl, hpreTag⟩] at htag
          cases htag
        · rw [hends.first pre hle hpreEnds]

lemma cutNetwork?_complete (h : EndsInTag before) (after : List Char) :
    cutNetwork? (before ++ after) ≠ none := by
  induction before with
  | nil => exact absurd h not_endsInTag_nil
  | cons c before ih =>
    rw [List.cons_append, cutNetwork?]
    cases htag : cutNetwork?.networkTag? (c :: (before ++ after)) with
    | some found => nofun
    | none =>
      have hends : EndsInTag before := (endsInTag_cons.1 h).resolve_left fun hbefore => by
        rw [← List.cons_append, networkTag?_eq_some_iff.2 ⟨rfl, hbefore⟩] at htag
        cases htag
      simpa using ih hends

lemma cutNetwork?_eq_some_iff :
    cutNetwork? cs = some (before, after) ↔ cs = before ++ after ∧ EndsFirstTag before := by
  refine ⟨cutNetwork?_sound, ?_⟩
  rintro ⟨rfl, hbefore⟩
  obtain ⟨⟨b, a⟩, hcut⟩ := Option.ne_none_iff_exists'.1 (cutNetwork?_complete hbefore.ends after)
  obtain ⟨hcs, hb⟩ := cutNetwork?_sound hcut
  obtain rfl := hbefore.unique hb ⟨after, rfl⟩ ⟨a, hcs.symm⟩
  rw [hcut, List.append_cancel_left hcs]

lemma cutNetwork?_eq_none_iff : cutNetwork? cs = none ↔ ∀ pre, pre <+: cs → ¬ EndsInTag pre := by
  constructor
  · rintro h pre ⟨rest, rfl⟩ hpre
    exact cutNetwork?_complete hpre rest h
  · intro h
    refine Option.eq_none_iff_forall_ne_some.2 fun ⟨before, after⟩ hcut => ?_
    obtain ⟨rfl, hbefore⟩ := cutNetwork?_sound hcut
    exact h before ⟨after, rfl⟩ hbefore.ends

end TimedPatterns.Model
