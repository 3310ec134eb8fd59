import TimedPatterns.Proofs.Witness.Picking

/-!
# The action of edges taken together

An edge sends on a channel if its label, without the blanks at its ends, is that channel with `!`
behind it, and it receives on it with `?`. The action of edges that are taken together is the
channel of the first sending edge, and if there is none, that of the first receiving one.

A witness looks at one label only: the first one with `!` at its end, and if there is none, the
first label of all. If that label has no channel, it masks the edges behind it that synchronise,
and the move is taken for an internal one. This is the only way in which the action that is found
differs from the one that the edges have (`hasAction_actionOf_iff`). A label of a listing always has
a channel, so no action of a listing is lost.
-/

namespace TimedPatterns

open Text

/-! ### The first member with a property -/

section First

variable {α : Type} {p q : α → Prop} {x y : α} {xs : List α}

/-- The member has a property that no member before it has. -/
def IsFirst (p : α → Prop) (x : α) (xs : List α) : Prop :=
  ∃ before after, xs = before ++ x :: after ∧ p x ∧ ∀ y ∈ before, ¬ p y

lemma IsFirst.mem (h : IsFirst p x xs) : x ∈ xs := by
  obtain ⟨before, after, rfl, -, -⟩ := h
  exact List.mem_append_right _ List.mem_cons_self

lemma IsFirst.holds (h : IsFirst p x xs) : p x := by
  obtain ⟨_, _, -, hx, -⟩ := h
  exact hx

lemma isFirst_iff [DecidablePred p] : IsFirst p x xs ↔ xs.find? p = some x := by
  rw [List.find?_eq_some_iff_append, IsFirst]
  simp only [decide_eq_true_eq, Bool.not_eq_true', decide_eq_false_iff_not]
  tauto

open Classical in
lemma IsFirst.unique (h : IsFirst p x xs) (h' : IsFirst p y xs) : x = y :=
  Option.some.inj ((isFirst_iff.1 h).symm.trans (isFirst_iff.1 h'))

/-- The first member with one property is also the first with a stronger one that it has. -/
lemma IsFirst.of_imp (h : IsFirst p x xs) (himp : ∀ y ∈ xs, q y → p y) (hx : q x) :
    IsFirst q x xs := by
  obtain ⟨before, after, rfl, -, hbefore⟩ := h
  exact ⟨before, after, rfl, hx,
    fun y hy hq => hbefore y hy (himp y (List.mem_append_left _ hy) hq)⟩

open Classical in
lemma exists_isFirst (h : ∃ x ∈ xs, p x) : ∃ x, IsFirst p x xs := by
  have hfound : (xs.find? p).isSome := by simpa using h
  obtain ⟨x, hx⟩ := Option.isSome_iff_exists.1 hfound
  exact ⟨x, isFirst_iff.2 hx⟩

end First

/-! ### Synchronising edges -/

namespace WitnessEdge

/-- The label of the edge, without the blanks at its ends, is the channel with the sign behind it.
The blanks at the ends of the channel do not count either, and it has other characters. -/
def Synchronises (e : WitnessEdge) (sign : Char) (channel : String) : Prop :=
  ∃ sync ∈ e.sync, ∃ cs, trimChars sync.toList = cs ++ [sign] ∧
    trimChars cs = channel.toList ∧ channel ≠ ""

def IsSending (e : WitnessEdge) : Prop := ∃ channel, e.Synchronises '!' channel

def IsReceiving (e : WitnessEdge) : Prop := ∃ channel, e.Synchronises '?' channel

def IsLabelled (e : WitnessEdge) : Prop := e.sync.isSome

/-- The last character of the label that is not blank is `!`, with a channel before it or not. -/
def IsMarked (e : WitnessEdge) : Prop :=
  ∃ sync ∈ e.sync, (trimChars sync.toList).getLast? = some '!'

end WitnessEdge

/-! ### Actions -/

/-- The action of edges that are taken together, none if they do not synchronise. -/
inductive HasAction (edges : List WitnessEdge) : Option String → Prop
  /-- The action is the channel of the first sending edge. -/
  | sending {e : WitnessEdge} {channel : String} (h : IsFirst WitnessEdge.IsSending e edges)
      (he : e.Synchronises '!' channel) : HasAction edges (some channel)
  /-- No edge is sending, and the action is the channel of the first receiving one. -/
  | receiving {e : WitnessEdge} {channel : String} (hsending : ∀ e ∈ edges, ¬ e.IsSending)
      (h : IsFirst WitnessEdge.IsReceiving e edges) (he : e.Synchronises '?' channel) :
      HasAction edges (some channel)
  | internal (hsending : ∀ e ∈ edges, ¬ e.IsSending)
      (hreceiving : ∀ e ∈ edges, ¬ e.IsReceiving) : HasAction edges none

/-- The edges synchronise, but the one that is looked at does not: it is the first one that is
marked, with no channel before the mark, or no edge is marked and the first labelled one is not
receiving. -/
def Masked (edges : List WitnessEdge) : Prop :=
  (∃ e ∈ edges, e.IsSending ∨ e.IsReceiving) ∧
    ((∃ e, IsFirst WitnessEdge.IsMarked e edges ∧ ¬ e.IsSending) ∨
      ((∀ e ∈ edges, ¬ e.IsMarked) ∧
        ∃ e, IsFirst WitnessEdge.IsLabelled e edges ∧ ¬ e.IsReceiving))

variable {e : WitnessEdge} {edges : List WitnessEdge} {sync channel : String} {sign : Char}

/-! ### Labels -/

lemma getLast?_trimEndChars (cs : List Char) :
    (trimEndChars cs).getLast? = cs.reverse.find? (!isBlank ·) := by
  rw [trimEndChars, List.getLast?_reverse, List.find?_not_eq_head?_dropWhile]

/-- The last character of a text does not change if blanks are dropped from its beginning. -/
lemma getLast?_trimChars (cs : List Char) :
    (trimChars cs).getLast? = (trimEndChars cs).getLast? := by
  have hblank : (cs.takeWhile isBlank).reverse.find? (!isBlank ·) = none := by
    simp only [List.find?_eq_none, List.mem_reverse, Bool.not_eq_true', Bool.not_eq_false]
    exact fun c => List.mem_takeWhile_imp
  calc (trimChars cs).getLast?
    _ = (cs.dropWhile isBlank).reverse.find? (!isBlank ·) := getLast?_trimEndChars _
    _ = ((cs.dropWhile isBlank).reverse ++ (cs.takeWhile isBlank).reverse).find?
          (!isBlank ·) := by rw [List.find?_append, hblank, Option.or_none]
    _ = (trimEndChars cs).getLast? := by
      rw [← List.reverse_append, List.takeWhile_append_dropWhile, getLast?_trimEndChars]

lemma isSending_iff : isSending sync = true ↔ (trimChars sync.toList).getLast? = some '!' := by
  rw [isSending, beq_iff_eq, getLast?_trimChars]

lemma name_eq_some_iff {cs : List Char} : (if (trimChars cs).isEmpty then none
    else some (String.ofList (trimChars cs))) = some channel ↔
      trimChars cs = channel.toList ∧ channel ≠ "" := by
  rw [Option.ite_none_left_eq_some, Option.some.injEq, List.isEmpty_iff]
  constructor
  · rintro ⟨hne, rfl⟩
    rw [String.toList_ofList]
    exact ⟨rfl, fun h => hne (by simpa using congrArg String.toList h)⟩
  · rintro ⟨heq, hne⟩
    rw [heq, String.ofList_toList]
    exact ⟨fun h => hne (String.toList_eq_nil_iff.1 h), rfl⟩

/-- The labels that have a channel. -/
lemma channel?_eq_some_iff : channel? sync = some channel ↔ ∃ sign cs,
    (sign = '!' ∨ sign = '?') ∧ trimChars sync.toList = cs ++ [sign] ∧
      trimChars cs = channel.toList ∧ channel ≠ "" := by
  rw [channel?]
  cases hreverse : (trimChars sync.toList).reverse with
  | nil =>
    refine iff_of_false nofun ?_
    rintro ⟨sign, cs, -, htrim, -⟩
    simp [htrim] at hreverse
  | cons last rest =>
    have htrim : trimChars sync.toList = rest.reverse ++ [last] := by
      rw [← List.reverse_reverse (trimChars sync.toList), hreverse, List.reverse_cons]
    dsimp only
    by_cases hlast : last = '!' ∨ last = '?'
    · rw [if_pos hlast, name_eq_some_iff, htrim]
      constructor
      · rintro ⟨heq, hne⟩
        exact ⟨last, _, hlast, rfl, heq, hne⟩
      · rintro ⟨sign, cs, -, heq, hchannel⟩
        rw [List.append_inj_left' heq rfl]
        exact hchannel
    · rw [if_neg hlast]
      refine iff_of_false nofun ?_
      rintro ⟨sign, cs, hsign, heq, -⟩
      rw [htrim] at heq
      obtain ⟨-, rfl⟩ := List.append_singleton_inj.1 heq
      exact hlast hsign

namespace WitnessEdge

/-- The edge that has a label synchronises as the label says. -/
lemma synchronises_iff (h : e.sync = some sync) : e.Synchronises sign channel ↔
    ∃ cs, trimChars sync.toList = cs ++ [sign] ∧ trimChars cs = channel.toList ∧ channel ≠ "" := by
  simp only [Synchronises, h, Option.mem_some_iff, exists_eq_left']

lemma channel?_eq_some_iff_synchronises (h : e.sync = some sync) :
    channel? sync = some channel ↔ e.Synchronises '!' channel ∨ e.Synchronises '?' channel := by
  rw [channel?_eq_some_iff, synchronises_iff h, synchronises_iff h]
  constructor
  · rintro ⟨sign, cs, rfl | rfl, hcs⟩
    · exact .inl ⟨cs, hcs⟩
    · exact .inr ⟨cs, hcs⟩
  · rintro (⟨cs, hcs⟩ | ⟨cs, hcs⟩)
    · exact ⟨'!', cs, .inl rfl, hcs⟩
    · exact ⟨'?', cs, .inr rfl, hcs⟩

lemma channel?_eq_none_iff (h : e.sync = some sync) :
    channel? sync = none ↔ ¬ e.IsSending ∧ ¬ e.IsReceiving := by
  rw [Option.eq_none_iff_forall_ne_some]
  simp only [ne_eq, channel?_eq_some_iff_synchronises h, not_or, forall_and, IsSending,
    IsReceiving, not_exists]

lemma isMarked_iff (h : e.sync = some sync) : e.IsMarked ↔ isSending sync = true := by
  simp only [IsMarked, h, Option.mem_some_iff, exists_eq_left', isSending_iff]

lemma Synchronises.getLast? (h : e.Synchronises sign channel) :
    ∃ sync, e.sync = some sync ∧ (trimChars sync.toList).getLast? = some sign := by
  obtain ⟨sync, hsync, cs, htrim, -⟩ := h
  exact ⟨sync, hsync, by rw [htrim, List.getLast?_concat]⟩

lemma IsSending.isMarked (h : e.IsSending) : e.IsMarked := by
  obtain ⟨channel, h⟩ := h
  exact h.getLast?

lemma IsMarked.isLabelled (h : e.IsMarked) : e.IsLabelled := by
  obtain ⟨sync, hsync, -⟩ := h
  exact Option.isSome_of_mem hsync

lemma IsReceiving.isLabelled (h : e.IsReceiving) : e.IsLabelled := by
  obtain ⟨channel, sync, hsync, -⟩ := h
  exact Option.isSome_of_mem hsync

/-- A label has only one sign. -/
lemma not_isMarked_of_isReceiving (h : e.IsReceiving) : ¬ e.IsMarked := by
  rintro ⟨sync, hsync, hlast⟩
  obtain ⟨channel, h⟩ := h
  obtain ⟨sync', hsync', hlast'⟩ := h.getLast?
  cases hsync.symm.trans hsync'
  cases hlast.symm.trans hlast'

/-- An edge synchronises on one channel at most. -/
lemma Synchronises.unique {channel' : String} (h : e.Synchronises sign channel)
    (h' : e.Synchronises sign channel') : channel = channel' := by
  obtain ⟨sync, hsync, cs, htrim, heq, -⟩ := h
  obtain ⟨cs', htrim', heq', -⟩ := (synchronises_iff hsync).1 h'
  rw [htrim] at htrim'
  rw [List.append_inj_left' htrim' rfl, heq'] at heq
  exact String.toList_inj.1 heq.symm

end WitnessEdge

open WitnessEdge

lemma hasAction_none_iff :
    HasAction edges none ↔ ¬ ∃ e ∈ edges, e.IsSending ∨ e.IsReceiving := by
  constructor
  · intro h
    cases h with
    | internal hsending hreceiving =>
      rintro ⟨e, he, h | h⟩
      · exact hsending e he h
      · exact hreceiving e he h
  · exact fun h => .internal (fun e he hs => h ⟨e, he, .inl hs⟩) fun e he hr => h ⟨e, he, .inr hr⟩

/-- Edges have one action at most. -/
lemma HasAction.unique {a b : Option String} (ha : HasAction edges a) (hb : HasAction edges b) :
    a = b := by
  cases ha with
  | sending h he =>
    cases hb with
    | sending h' he' => rw [he.unique (h'.unique h ▸ he')]
    | receiving hsending => exact absurd h.holds (hsending _ h.mem)
    | internal hsending => exact absurd h.holds (hsending _ h.mem)
  | receiving hsending h he =>
    cases hb with
    | sending h' => exact absurd h'.holds (hsending _ h'.mem)
    | receiving _ h' he' => rw [he.unique (h'.unique h ▸ he')]
    | internal _ hreceiving => exact absurd h.holds (hreceiving _ h.mem)
  | internal hsending hreceiving =>
    cases hb with
    | sending h' => exact absurd h'.holds (hsending _ h'.mem)
    | receiving _ h' => exact absurd h'.holds (hreceiving _ h'.mem)
    | internal => rfl

/-- Edges that synchronise have an action. -/
lemma exists_hasAction_some (h : ∃ e ∈ edges, e.IsSending ∨ e.IsReceiving) :
    ∃ channel, HasAction edges (some channel) := by
  by_cases hsending : ∃ e ∈ edges, e.IsSending
  · obtain ⟨e, hfirst⟩ := exists_isFirst hsending
    obtain ⟨channel, he⟩ := hfirst.holds
    exact ⟨channel, .sending hfirst he⟩
  · have hnone : ∀ e ∈ edges, ¬ e.IsSending := fun e he hs => hsending ⟨e, he, hs⟩
    have hreceiving : ∃ e ∈ edges, e.IsReceiving := by
      obtain ⟨e, he, hs⟩ := h
      exact ⟨e, he, hs.resolve_left (hnone e he)⟩
    obtain ⟨e, hfirst⟩ := exists_isFirst hreceiving
    obtain ⟨channel, he⟩ := hfirst.holds
    exact ⟨channel, .receiving hnone hfirst he⟩

lemma Masked.exists_hasAction (h : Masked edges) : ∃ channel, HasAction edges (some channel) :=
  exists_hasAction_some h.1

/-! ### What is looked at -/

lemma find?_isSending_eq_none (h : ∀ e ∈ edges, ¬ e.IsMarked) :
    (edges.filterMap (·.sync)).find? isSending = none := by
  rw [List.find?_eq_none]
  intro sync hsync
  obtain ⟨e, he, hsync⟩ := List.mem_filterMap.1 hsync
  exact fun hsending => h e he ((isMarked_iff hsync).2 hsending)

/-- The first marked edge decides the action. -/
lemma actionOf_eq_of_marked (h : IsFirst IsMarked e edges) (hsync : e.sync = some sync) :
    actionOf edges = channel? sync := by
  obtain ⟨before, after, rfl, he, hbefore⟩ := h
  rw [actionOf, List.filterMap_append, List.filterMap_cons_some hsync, List.find?_append,
    find?_isSending_eq_none hbefore, List.find?_cons_of_pos ((isMarked_iff hsync).1 he)]
  rfl

/-- If no edge is marked, the first labelled one decides the action. -/
lemma actionOf_eq_of_labelled (hmarked : ∀ e ∈ edges, ¬ e.IsMarked)
    (h : IsFirst IsLabelled e edges) (hsync : e.sync = some sync) :
    actionOf edges = channel? sync := by
  obtain ⟨before, after, rfl, -, hbefore⟩ := h
  have hempty : before.filterMap (·.sync) = [] := by
    rw [List.filterMap_eq_nil_iff]
    exact fun other hother => Option.not_isSome_iff_eq_none.1 (hbefore other hother)
  rw [actionOf, find?_isSending_eq_none hmarked, List.filterMap_append, hempty,
    List.filterMap_cons_some hsync]
  rfl

/-- Edges that do not synchronise are an internal move. -/
lemma actionOf_eq_none (h : ¬ ∃ e ∈ edges, e.IsSending ∨ e.IsReceiving) :
    actionOf edges = none := by
  rw [Option.eq_none_iff_forall_ne_some]
  intro channel haction
  obtain ⟨sync, hsync, hchannel⟩ := Option.bind_eq_some_iff.1 haction
  have hmem : sync ∈ edges.filterMap (·.sync) := by
    rcases (Option.orElse_eq_some _ _ _).1 hsync with hfound | ⟨-, hhead⟩
    · exact List.mem_of_find?_eq_some hfound
    · exact List.mem_of_mem_head? hhead
  obtain ⟨e, he, hlabel⟩ := List.mem_filterMap.1 hmem
  exact h ⟨e, he, ((channel?_eq_some_iff_synchronises hlabel).1 hchannel).imp
    (fun h => ⟨channel, h⟩) fun h => ⟨channel, h⟩⟩

lemma actionOf_eq_none_of_masked (h : Masked edges) : actionOf edges = none := by
  obtain ⟨-, ⟨e, hfirst, hsending⟩ | ⟨hmarked, e, hfirst, hreceiving⟩⟩ := h
  · obtain ⟨sync, hsync⟩ := Option.isSome_iff_exists.1 hfirst.holds.isLabelled
    rw [actionOf_eq_of_marked hfirst hsync, channel?_eq_none_iff hsync]
    exact ⟨hsending, fun h => not_isMarked_of_isReceiving h hfirst.holds⟩
  · obtain ⟨sync, hsync⟩ := Option.isSome_iff_exists.1 hfirst.holds
    rw [actionOf_eq_of_labelled hmarked hfirst hsync, channel?_eq_none_iff hsync]
    exact ⟨fun h => hmarked e hfirst.mem h.isMarked, hreceiving⟩

lemma hasAction_of_not_masked (h : ¬ Masked edges) : HasAction edges (actionOf edges) := by
  by_cases hsynchronise : ∃ e ∈ edges, e.IsSending ∨ e.IsReceiving
  · by_cases hmarked : ∃ e ∈ edges, e.IsMarked
    · obtain ⟨e, hfirst⟩ := exists_isFirst hmarked
      -- a first marked edge that does not send would mask the action
      have hsending : e.IsSending :=
        by_contra fun hnot => h ⟨hsynchronise, .inl ⟨e, hfirst, hnot⟩⟩
      obtain ⟨channel, he⟩ := hsending
      obtain ⟨sync, hsync, -⟩ := he.getLast?
      rw [actionOf_eq_of_marked hfirst hsync,
        (channel?_eq_some_iff_synchronises hsync).2 (.inl he)]
      exact .sending (hfirst.of_imp (fun _ _ h => h.isMarked) ⟨channel, he⟩) he
    · have hmarked : ∀ e ∈ edges, ¬ e.IsMarked := fun e he h => hmarked ⟨e, he, h⟩
      have hlabelled : ∃ e ∈ edges, e.IsLabelled := by
        obtain ⟨e, he, h | h⟩ := hsynchronise
        · exact ⟨e, he, h.isMarked.isLabelled⟩
        · exact ⟨e, he, h.isLabelled⟩
      obtain ⟨e, hfirst⟩ := exists_isFirst hlabelled
      -- no edge is marked, so it is the first label that decides
      have hreceiving : e.IsReceiving :=
        by_contra fun hnot => h ⟨hsynchronise, .inr ⟨hmarked, e, hfirst, hnot⟩⟩
      obtain ⟨channel, he⟩ := hreceiving
      obtain ⟨sync, hsync, -⟩ := he.getLast?
      rw [actionOf_eq_of_labelled hmarked hfirst hsync,
        (channel?_eq_some_iff_synchronises hsync).2 (.inr he)]
      exact .receiving (fun e he h => hmarked e he h.isMarked)
        (hfirst.of_imp (fun _ _ h => h.isLabelled) ⟨channel, he⟩) he
  · rw [actionOf_eq_none hsynchronise]
    exact hasAction_none_iff.2 hsynchronise

/-- The action that is found is the one that the edges have unless they are masked. -/
lemma hasAction_actionOf_iff : HasAction edges (actionOf edges) ↔ ¬ Masked edges := by
  refine ⟨fun h hmasked => ?_, hasAction_of_not_masked⟩
  rw [actionOf_eq_none_of_masked hmasked, hasAction_none_iff] at h
  exact h hmasked.1

/-! ### Traces -/

/-- The transition is that of the move: it has the action of its edges, and all of them. -/
structure Move.Gives (m : Move) (s : Transition) : Prop where
  action : HasAction m.edges (some s.action)
  edges : s.edges = m.edges.map (·.step)

namespace Witness

variable {w : Witness} {clock : String} {m : Move} {ms : List Move} {ts : List Transition}
  {t : Trace}

/-- What a move gives. -/
lemma transition?_eq_ok {o : Option Transition} (h : w.transition? clock m = .ok o) :
    (actionOf m.edges = none ∧ o = none) ∨ ∃ s, actionOf m.edges = some s.action ∧
      s.edges = m.edges.map (·.step) ∧
      (∃ state ∈ w.states, state.interval clock = .ok s.interval) ∧ o = some s := by
  rw [transition?] at h
  cases hstate : w.states[m.target]? with
  | none =>
    rw [hstate] at h
    cases h
  | some state =>
    rw [hstate] at h
    cases haction : actionOf m.edges with
    | none =>
      rw [haction] at h
      cases h
      exact .inl ⟨rfl, rfl⟩
    | some action =>
      rw [haction] at h
      obtain ⟨i, hi, ⟨⟩⟩ := bind_eq_ok_iff.1 h
      exact .inr ⟨_, rfl, rfl, ⟨state, List.mem_of_getElem? hstate, hi⟩, rfl⟩

lemma transitions_eq_map_mapM (w : Witness) (clock : String) (ms : List Move) :
    w.transitions clock ms = (ms.mapM (w.transition? clock)).map (·.flatMap Option.toList) :=
  collect_eq_map_mapM (w.transition? clock) (w.transitions clock) rfl (fun _ _ => rfl) ms

lemma transitions_eq_ok_iff : w.transitions clock ms = .ok ts ↔ ∃ found,
    List.Forall₂ (fun m o => w.transition? clock m = .ok o) ms found ∧
      ts = found.flatMap Option.toList :=
  collect_eq_ok_iff (w.transitions_eq_map_mapM clock)

/-- The transitions of a trace are those of the moves of the witness. -/
lemma transitions_of_trace (h : w.trace clock = .ok t) :
    w.transitions clock w.moves = .ok t.transitions := by
  rw [trace] at h
  split_ifs at h
  · cases h
  · obtain ⟨ts, hts, h⟩ := bind_eq_ok_iff.1 h
    rw [Trace.ofTransitions] at h
    split at h
    · cases h
    · cases h
      exact hts

/-- The moves that synchronise and are not masked give the transitions. -/
lemma picks_of_trace (h : w.trace clock = .ok t) :
    Listing.Picks (fun m s => m.Gives s ∧ ¬ Masked m.edges) w.moves t.transitions := by
  obtain ⟨found, hfound, hts⟩ := transitions_eq_ok_iff.1 (transitions_of_trace h)
  rw [hts]
  refine .of_forall₂ (hfound.imp fun m o ho => ?_)
  rcases transition?_eq_ok ho with ⟨hnone, rfl⟩ | ⟨s, hsome, hedges, -, rfl⟩
  · rintro s ⟨⟨haction, -⟩, hmasked⟩
    have hfound := hasAction_actionOf_iff.2 hmasked
    cases (hfound.unique haction).symm.trans hnone
  · have hmasked : ¬ Masked m.edges := fun hmasked => by
      cases hsome.symm.trans (actionOf_eq_none_of_masked hmasked)
    exact ⟨⟨hsome ▸ hasAction_actionOf_iff.2 hmasked, hedges⟩, hmasked⟩

/-- Exactly if no move is masked, the moves that synchronise give the transitions. -/
lemma picks_gives_iff (h : w.trace clock = .ok t) :
    Listing.Picks Move.Gives w.moves t.transitions ↔ ∀ m ∈ w.moves, ¬ Masked m.edges := by
  rw [(picks_of_trace h).iff_forall]
  refine forall₂_congr fun m _ => ⟨fun hall hmasked => ?_, fun hmasked _ _ => hmasked⟩
  obtain ⟨channel, haction⟩ := hmasked.exists_hasAction
  exact hall ⟨channel, m.edges.map (·.step), .full⟩ ⟨haction, rfl⟩ hmasked

end Witness

/-- The edges of a move have the action that is found unless they are masked; then none is found.
A trace has a transition for each move that synchronises and is not masked, in order, with all
its edges, and no other. So it has one for each move that synchronises exactly if none is
masked. -/
theorem actionOf_exact (edges : List WitnessEdge) :
    (HasAction edges (actionOf edges) ↔ ¬ Masked edges) ∧
    (Masked edges → actionOf edges = none) ∧
    ∀ (w : Witness) (clock : String) (t : Trace), w.trace clock = .ok t →
      Listing.Picks (fun m s => m.Gives s ∧ ¬ Masked m.edges) w.moves t.transitions ∧
        (Listing.Picks Move.Gives w.moves t.transitions ↔ ∀ m ∈ w.moves, ¬ Masked m.edges) :=
  ⟨hasAction_actionOf_iff, actionOf_eq_none_of_masked,
    fun _ _ _ h => ⟨Witness.picks_of_trace h, Witness.picks_gives_iff h⟩⟩

namespace Masked.Sample

/-- A label that is no synchronisation, and behind it a receiving edge. -/
def masked : List WitnessEdge := [⟨"P", "a", "b", some "tau"⟩, ⟨"Q", "a", "b", some "go?"⟩]

/-- A receiving edge, and behind it a sending one. -/
def sending : List WitnessEdge := [⟨"P", "a", "b", some "go?"⟩, ⟨"Q", "a", "b", some " send ! "⟩]

def witness : Witness := ⟨[⟨[]⟩], [⟨masked, 0⟩, ⟨sending, 0⟩]⟩

def trace : Trace := ⟨"x", [⟨"send", sending.map (·.step), .full⟩], by decide⟩

lemma not_masked_sending : ¬ Masked sending := by
  intro h
  have hsend : actionOf sending = some "send" := by decide
  cases hsend.symm.trans (actionOf_eq_none_of_masked h)

lemma synchronises_go : (⟨"Q", "a", "b", some "go?"⟩ : WitnessEdge).Synchronises '?' "go" :=
  ⟨"go?", rfl, "go".toList, by decide, by decide, by decide⟩

lemma hasAction_masked : HasAction masked (some "go") := by
  have htau : ¬ (⟨"P", "a", "b", some "tau"⟩ : WitnessEdge).IsReceiving := by
    rintro ⟨channel, h⟩
    have hnone : channel? "tau" = none := by decide
    cases hnone.symm.trans ((channel?_eq_some_iff_synchronises rfl).2 (.inr h))
  refine .receiving ?_ ⟨[_], [], rfl, ⟨"go", synchronises_go⟩, List.forall_mem_singleton.2 htau⟩
    synchronises_go
  simp only [masked, List.forall_mem_cons]
  exact ⟨fun h => absurd ((isMarked_iff rfl).1 h.isMarked) (by decide),
    fun h => absurd ((isMarked_iff rfl).1 h.isMarked) (by decide), nofun⟩

end Masked.Sample

/-- Of two moves that synchronise, the trace has the one that is not masked. -/
theorem actionOf_exact_sample :
    Masked.Sample.witness.trace "x" = .ok Masked.Sample.trace ∧
      HasAction Masked.Sample.sending (actionOf Masked.Sample.sending) ∧
      Listing.Picks (fun m s => m.Gives s ∧ ¬ Masked m.edges) Masked.Sample.witness.moves
        Masked.Sample.trace.transitions := by
  obtain ⟨haction, -, htrace⟩ := actionOf_exact Masked.Sample.sending
  exact ⟨rfl, haction.2 Masked.Sample.not_masked_sending,
    (htrace Masked.Sample.witness "x" Masked.Sample.trace rfl).1⟩

/-- Edges with an action may be taken for internal ones, and then the trace lacks a transition. -/
theorem not_actionOf_hasAction :
    (¬ ∀ edges, HasAction edges (actionOf edges)) ∧
      ¬ ∀ (w : Witness) (clock : String) (t : Trace), w.trace clock = .ok t →
        Listing.Picks Move.Gives w.moves t.transitions := by
  constructor
  · intro h
    cases Masked.Sample.hasAction_masked.unique (h Masked.Sample.masked)
  · intro h
    cases h ⟨[⟨[]⟩], [⟨Masked.Sample.masked, 0⟩]⟩ "x" ⟨"x", [], .nil⟩ rfl with
    | skip hnone =>
      exact hnone ⟨"go", Masked.Sample.masked.map (·.step), .full⟩
        ⟨Masked.Sample.hasAction_masked, rfl⟩

/-! ### Actions of a listing -/

namespace Listing

lemma isSending_or_isReceiving (h : IsSynchronisation sync) (he : e.sync = some sync) :
    e.IsSending ∨ e.IsReceiving := by
  have htrim {cs : List Char} (hcs : ∀ x ∈ cs, isBlank x = false) : trimChars cs = cs :=
    (trimmed_of_forall hcs).trimChars_eq
  have hblank := h.isBlank
  obtain ⟨c, cs, last, heq, -, -, hlast⟩ := h
  have hchannel : ∃ channel, e.Synchronises last channel := by
    refine ⟨String.ofList (c :: cs), sync, he, c :: cs, ?_, ?_, ?_⟩
    · rw [htrim hblank, heq, List.cons_append]
    · rw [String.toList_ofList]
      refine htrim fun x hx => hblank x ?_
      rw [heq, ← List.cons_append]
      exact List.mem_append_left _ hx
    · exact fun hempty => by simpa using congrArg String.toList hempty
  rcases hlast with rfl | rfl
  · exact .inl hchannel
  · exact .inr hchannel

/-- Every label in a listing has a channel, so no move of a listing is masked. -/
theorem hasAction_of_read {text : String} {w : Witness} (h : read text = .ok w) {m : Move}
    (hm : m ∈ w.moves) : HasAction m.edges (actionOf m.edges) := by
  have hmoves := (read_eq_ok_iff_continues.1 h).forall₂_moves
  have hlabel : ∀ e ∈ m.edges, e.IsLabelled → e.IsSending ∨ e.IsReceiving := by
    intro e he hlabelled
    obtain ⟨b, -, hedges⟩ := exists_of_forall₂_left hmoves.flip hm
    obtain ⟨line, -, -, -, -, blanks, body, -, -, -, hsync⟩ :=
      exists_of_forall₂_left hedges.flip he
    obtain ⟨sync, hsome⟩ := Option.isSome_iff_exists.1 hlabelled
    have hfound := List.find?_some (hsync.symm.trans hsome)
    exact isSending_or_isReceiving (of_decide_eq_true hfound) hsome
  rw [hasAction_actionOf_iff]
  rintro ⟨-, ⟨e, hfirst, hsending⟩ | ⟨hmarked, e, hfirst, hreceiving⟩⟩
  · rcases hlabel e hfirst.mem hfirst.holds.isLabelled with h | h
    · exact hsending h
    · exact not_isMarked_of_isReceiving h hfirst.holds
  · rcases hlabel e hfirst.mem hfirst.holds with h | h
    · exact hmarked e hfirst.mem h.isMarked
    · exact hreceiving h

end Listing

end TimedPatterns
