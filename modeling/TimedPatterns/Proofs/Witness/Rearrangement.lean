import Mathlib.Tactic
import TimedPatterns.Witness.Document

/-!
# Rearranging a witness document

The children of a trace element may be put in another order as long as the transitions keep theirs,
the bounds of an instance may be put in another order, and children that define nothing may come and
go. What such a rearrangement keeps is said by `Alike`: the ids of each kind up to their order, for
each child of a kind with ids one that has the same attributes and the same children up to their
order, and the transitions.
-/

namespace TimedPatterns

/-- The element has the same name and attributes, and the same children up to their order. -/
structure Element.Like (e e' : Element) : Prop where
  name : e.name = e'.name
  attributes : e.attributes = e'.attributes
  children : e.children.Perm e'.children

namespace Document

/-! ### Rearrangements -/

def kinds : List String := ["clock", "process", "location", "edge", "dbm_instance", "node"]

/-- The children of a trace with a name. -/
def named (name : String) (cs : List Element) : List Element := cs.filter (·.name = name)

/-- Among the children, the ids of each kind are distinct. -/
def DistinctIds (cs : List Element) : Prop :=
  ∀ kind ∈ kinds, ((named kind cs).map (·.attribute? "id")).Nodup

/-- The children of a trace are rearranged. -/
inductive Rearranged : List Element → List Element → Prop
  /-- The children stand in another order, and the transitions in the same one. -/
  | order {cs cs' : List Element} (h : cs.Perm cs')
      (htransitions : named "transition" cs = named "transition" cs') : Rearranged cs cs'
  /-- The bounds of an instance stand in another order. -/
  | bounds {before after bounds bounds' : List Element} {attributes : List (String × String)}
      (h : bounds.Perm bounds') :
      Rearranged (before ++ ⟨"dbm_instance", attributes, bounds⟩ :: after)
        (before ++ ⟨"dbm_instance", attributes, bounds'⟩ :: after)
  /-- There is another child, of no kind that is read. -/
  | insert {before after : List Element} {e : Element} (h : e.name ∉ "transition" :: kinds) :
      Rearranged (before ++ after) (before ++ e :: after)
  /-- A child of no kind that is read is left out. -/
  | delete {before after : List Element} {e : Element} (h : e.name ∉ "transition" :: kinds) :
      Rearranged (before ++ e :: after) (before ++ after)
  | trans {cs cs' cs'' : List Element} (h : Rearranged cs cs') (h' : Rearranged cs' cs'') :
      Rearranged cs cs''

/-- Each child of a kind with ids is like one of the others. -/
def Kept (cs cs' : List Element) : Prop := ∀ e ∈ cs, e.name ∈ kinds → ∃ e' ∈ cs', e.Like e'

/-- What a rearrangement keeps. -/
structure Alike (cs cs' : List Element) : Prop where
  ids : ∀ kind ∈ kinds, ((named kind cs).map (·.attribute? "id")).Perm
    ((named kind cs').map (·.attribute? "id"))
  transitions : named "transition" cs = named "transition" cs'
  kept : Kept cs cs'
  given : Kept cs' cs

end Document

open Document

variable {cs cs' cs'' before after : List Element} {e e' e'' : Element} {name : String}

namespace Element.Like

lemma refl (e : Element) : e.Like e := ⟨rfl, rfl, .refl _⟩

lemma symm (h : e.Like e') : e'.Like e := ⟨h.name.symm, h.attributes.symm, h.children.symm⟩

lemma trans (h : e.Like e') (h' : e'.Like e'') : e.Like e'' :=
  ⟨h.name.trans h'.name, h.attributes.trans h'.attributes, h.children.trans h'.children⟩

lemma attribute?_eq (h : e.Like e') (name : String) : e.attribute? name = e'.attribute? name := by
  rw [Element.attribute?, Element.attribute?, h.attributes]

lemma required_eq (h : e.Like e') (name : String) : e.required name = e'.required name := by
  rw [Element.required, Element.required, h.attribute?_eq, h.name]

lemma childrenNamed_perm (h : e.Like e') (name : String) :
    (e.childrenNamed name).Perm (e'.childrenNamed name) :=
  h.children.filter _

end Element.Like

namespace Document

lemma mem_named : e ∈ named name cs ↔ e ∈ cs ∧ e.name = name := by
  rw [named, List.mem_filter, decide_eq_true_eq]

lemma named_append (name : String) (cs cs' : List Element) :
    named name (cs ++ cs') = named name cs ++ named name cs' :=
  List.filter_append cs cs'

lemma named_cons_self (e : Element) (cs : List Element) :
    named e.name (e :: cs) = e :: named e.name cs :=
  List.filter_cons_of_pos (by simp)

lemma named_cons_of_ne (h : e.name ≠ name) (cs : List Element) :
    named name (e :: cs) = named name cs :=
  List.filter_cons_of_neg (by simpa using h)

/-! ### What rearrangements keep -/

lemma Kept.trans (h : Kept cs cs') (h' : Kept cs' cs'') : Kept cs cs'' := by
  intro e he hkind
  obtain ⟨e', he', hlike⟩ := h e he hkind
  obtain ⟨e'', he'', hlike'⟩ := h' e' he' (hlike.name ▸ hkind)
  exact ⟨e'', he'', hlike.trans hlike'⟩

lemma Kept.of_subset (h : ∀ e ∈ cs, e.name ∈ kinds → e ∈ cs') : Kept cs cs' :=
  fun e he hkind => ⟨e, h e he hkind, .refl e⟩

lemma kept_replace (h : e.Like e') : Kept (before ++ e :: after) (before ++ e' :: after) := by
  intro other hother _
  rcases List.mem_append.1 hother with hother | hother
  · exact ⟨other, List.mem_append_left _ hother, .refl _⟩
  · rcases List.mem_cons.1 hother with rfl | hother
    · exact ⟨e', List.mem_append_right _ List.mem_cons_self, h⟩
    · exact ⟨other, List.mem_append_right _ (List.mem_cons_of_mem _ hother), .refl _⟩

namespace Alike

lemma symm (h : Alike cs cs') : Alike cs' cs :=
  ⟨fun kind hkind => (h.ids kind hkind).symm, h.transitions.symm, h.given, h.kept⟩

lemma trans (h : Alike cs cs') (h' : Alike cs' cs'') : Alike cs cs'' :=
  ⟨fun kind hkind => (h.ids kind hkind).trans (h'.ids kind hkind),
    h.transitions.trans h'.transitions, h.kept.trans h'.kept, h'.given.trans h.given⟩

lemma of_perm (h : cs.Perm cs') (htransitions : named "transition" cs = named "transition" cs') :
    Alike cs cs' where
  ids _ _ := (h.filter _).map _
  transitions := htransitions
  kept := .of_subset fun _ he _ => h.subset he
  given := .of_subset fun _ he _ => h.symm.subset he

lemma replace (h : e.Like e') (hname : e.name ≠ "transition") :
    Alike (before ++ e :: after) (before ++ e' :: after) where
  ids kind _ := by
    refine .of_eq ?_
    rw [named_append, named_append, List.map_append, List.map_append]
    by_cases hkind : e.name = kind
    · have hcons := named_cons_self e' after
      rw [← h.name, hkind] at hcons
      rw [hcons, ← hkind, named_cons_self, List.map_cons, List.map_cons, h.attribute?_eq]
    · rw [named_cons_of_ne hkind, named_cons_of_ne (h.name ▸ hkind)]
  transitions := by
    rw [named_append, named_append, named_cons_of_ne hname, named_cons_of_ne (h.name ▸ hname)]
  kept := kept_replace h
  given := kept_replace h.symm

lemma insert (h : e.name ∉ "transition" :: kinds) :
    Alike (before ++ after) (before ++ e :: after) := by
  have hnamed {name : String} (hname : name ∈ "transition" :: kinds) :
      named name (before ++ e :: after) = named name (before ++ after) := by
    rw [named_append, named_append, named_cons_of_ne]
    rintro rfl
    exact h hname
  refine ⟨fun kind hkind => ?_, (hnamed List.mem_cons_self).symm, .of_subset ?_, .of_subset ?_⟩
  · rw [hnamed (List.mem_cons_of_mem _ hkind)]
  · intro other hother _
    simp only [List.mem_append, List.mem_cons] at hother ⊢
    tauto
  · intro other hother hkind
    simp only [List.mem_append, List.mem_cons] at hother ⊢
    rcases hother with hother | rfl | hother
    · exact .inl hother
    · exact absurd (List.mem_cons_of_mem _ hkind) h
    · exact .inr hother

end Alike

lemma Rearranged.alike (h : Rearranged cs cs') : Alike cs cs' := by
  induction h with
  | order h htransitions => exact .of_perm h htransitions
  | bounds h => exact .replace ⟨rfl, rfl, h⟩ (show "dbm_instance" ≠ "transition" by decide)
  | insert h => exact .insert h
  | delete h => exact (Alike.insert h).symm
  | trans _ _ ih ih' => exact ih.trans ih'

end Document

end TimedPatterns
