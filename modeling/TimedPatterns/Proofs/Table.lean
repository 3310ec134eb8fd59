import Mathlib.Tactic

/-!
# Tables

A table lists values under keys. If no key occurs twice in it, it is enough to know an entry of it
to look its value up. A table is built by steps each of which may fail; if none of them does, it
is the one that the steps add up to.
-/

namespace TimedPatterns

variable {α β κ ε σ : Type}

/-! ### Looking up -/

/-- Keys for positions are keys for what stands there. -/
lemma nodup_zipIdx {xs : List α} {key : Nat → κ} (h : ((List.range xs.length).map key).Nodup) :
    (xs.zipIdx.map fun x => key x.2).Nodup := by
  have hmap := congrArg (List.map key) (List.zipIdx_map_snd 0 xs)
  rw [List.map_map, ← List.range_eq_range'] at hmap
  exact hmap ▸ h

variable [BEq κ] [LawfulBEq κ]

lemma lookup_eq_some_of_mem {table : List (κ × β)} {key : κ} {value : β}
    (hnodup : (table.map (·.1)).Nodup) (hmem : (key, value) ∈ table) :
    table.lookup key = some value := by
  obtain ⟨other, hother⟩ := Option.isSome_iff_exists.1
    (List.lookup_isSome_iff.2 ⟨(key, value), hmem, beq_self_eq_true key⟩)
  obtain ⟨before, after, hsplit, -⟩ := List.lookup_eq_some_iff.1 hother
  have hmem' : (key, other) ∈ table := hsplit ▸ List.mem_append_right _ List.mem_cons_self
  obtain ⟨-, rfl⟩ := Prod.mk.inj (List.inj_on_of_nodup_map hnodup hmem hmem' rfl)
  exact hother

/-- A table that has been built entry by entry, the latest first. -/
lemma lookup_reverse_map {xs : List α} {key : α → κ} {value : α → β} (h : (xs.map key).Nodup)
    {x : α} (hx : x ∈ xs) :
    ((xs.map fun x => (key x, value x)).reverse).lookup (key x) = some (value x) := by
  refine lookup_eq_some_of_mem ?_ (List.mem_reverse.2 (List.mem_map_of_mem hx))
  rw [List.map_reverse, List.map_map, List.nodup_reverse]
  exact h

lemma lookup_reverse_map_eq_none {xs : List α} {key : α → κ} {value : α → β} {k : κ}
    (h : k ∉ xs.map key) : ((xs.map fun x => (key x, value x)).reverse).lookup k = none := by
  rw [List.lookup_eq_none_iff]
  intro p hp
  obtain ⟨x, hx, rfl⟩ := List.mem_map.1 (List.mem_reverse.1 hp)
  rw [bne_iff_ne]
  rintro rfl
  exact h (List.mem_map_of_mem hx)

/-- Two tables that have the same keys, and under each key values that are related, are looked up
alike. -/
lemma lookup_reverse_map_rel {R : β → β → Prop} {xs xs' : List α} {key : α → κ} {value : α → β}
    (hnodup : (xs.map key).Nodup) (hperm : (xs.map key).Perm (xs'.map key))
    (hkept : ∀ x ∈ xs, ∃ x' ∈ xs', key x' = key x ∧ R (value x) (value x')) (k : κ) :
    Option.Rel R (((xs.map fun x => (key x, value x)).reverse).lookup k)
      (((xs'.map fun x => (key x, value x)).reverse).lookup k) := by
  by_cases hk : k ∈ xs.map key
  · obtain ⟨x, hx, rfl⟩ := List.mem_map.1 hk
    obtain ⟨x', hx', hkey, hR⟩ := hkept x hx
    rw [lookup_reverse_map hnodup hx, ← hkey, lookup_reverse_map (hperm.nodup_iff.1 hnodup) hx']
    exact .some hR
  · rw [lookup_reverse_map_eq_none hk, lookup_reverse_map_eq_none (mt hperm.mem_iff.2 hk)]
    exact .none

/-- What stands in a list without repetitions is found where it stands. -/
lemma idxOf?_getElem {keys : List κ} (h : keys.Nodup) {i : Nat} (hi : i < keys.length) :
    keys.idxOf? keys[i] = some i :=
  List.idxOf?_eq_some_iff.2 ⟨hi, rfl, fun _ hj heq => hj.ne ((h.getElem_inj_iff).1 heq)⟩

/-! ### Steps that may fail -/

lemma map_eq_ok_iff {f : α → β} {x : Except ε α} {b : β} :
    x.map f = .ok b ↔ ∃ a, x = .ok a ∧ f a = b := by
  cases x <;> simp [Except.map]

lemma mapError_eq_ok_iff {ε' : Type*} {f : ε → ε'} {x : Except ε α} {a : α} :
    x.mapError f = .ok a ↔ x = .ok a := by
  cases x <;> simp [Except.mapError]

lemma bind_eq_ok_iff {f : α → Except ε β} {x : Except ε α} {b : β} :
    x >>= f = .ok b ↔ ∃ a, x = .ok a ∧ f a = .ok b := by
  cases x <;> simp [bind, Except.bind]

lemma bind_eq_error_iff {f : α → Except ε β} {x : Except ε α} {e : ε} :
    x >>= f = .error e ↔ x = .error e ∨ ∃ a, x = .ok a ∧ f a = .error e := by
  cases x <;> simp [bind, Except.bind]

/-- If each step succeeds where it is taken, so do all of them. -/
lemma foldlM_eq_ok {step : σ → α → Except ε σ} {xs : List α} (state : List α → σ)
    (h : ∀ before x after, xs = before ++ x :: after →
      step (state before) x = .ok (state (before ++ [x]))) :
    xs.foldlM step (state []) = .ok (state xs) := by
  suffices hall : ∀ before after, xs = before ++ after →
      after.foldlM step (state before) = .ok (state xs) from hall [] xs rfl
  intro before after hxs
  induction after generalizing before with
  | nil =>
    rw [hxs, List.append_nil]
    rfl
  | cons x after ih =>
    rw [List.foldlM_cons, h before x after hxs]
    exact ih (before ++ [x]) (by rw [hxs, List.append_assoc, List.singleton_append])

/-- If two steps can be exchanged, the order of the steps does not matter. -/
lemma foldlM_perm {step : σ → α → Except ε σ} {xs ys : List α}
    (hcomm : ∀ state x y, (step state x >>= fun state => step state y) =
      step state y >>= fun state => step state x)
    (h : xs.Perm ys) (state : σ) : xs.foldlM step state = ys.foldlM step state := by
  induction h generalizing state with
  | nil => rfl
  | cons x _ ih =>
    rw [List.foldlM_cons, List.foldlM_cons]
    exact congrArg (step state x >>= ·) (funext ih)
  | swap x y zs =>
    simp only [List.foldlM_cons, ← bind_assoc, hcomm state y x]
  | trans _ _ ih ih' => exact (ih state).trans (ih' state)

/-- If every member is related to something, so is the list. -/
lemma exists_forall₂ {R : α → β → Prop} {xs : List α} (h : ∀ x ∈ xs, ∃ y, R x y) :
    ∃ ys, List.Forall₂ R xs ys := by
  induction xs with
  | nil => exact ⟨[], .nil⟩
  | cons x xs ih =>
    obtain ⟨⟨y, hy⟩, hxs⟩ := List.forall_mem_cons.1 h
    obtain ⟨ys, hys⟩ := ih hxs
    exact ⟨y :: ys, .cons hy hys⟩

lemma exists_of_forall₂_left {R : α → β → Prop} {xs : List α} {ys : List β}
    (h : List.Forall₂ R xs ys) {x : α} (hx : x ∈ xs) : ∃ y ∈ ys, R x y := by
  induction h with
  | nil => cases hx
  | cons hR _ ih =>
    rcases List.mem_cons.1 hx with rfl | hx
    · exact ⟨_, List.mem_cons_self, hR⟩
    · obtain ⟨y, hy, hR⟩ := ih hx
      exact ⟨y, List.mem_cons_of_mem _ hy, hR⟩

lemma mapM_eq_ok_iff {f : α → Except ε β} {xs : List α} {ys : List β} :
    xs.mapM f = .ok ys ↔ List.Forall₂ (fun x y => f x = .ok y) xs ys := by
  induction xs generalizing ys with
  | nil =>
    rw [List.mapM_nil, List.forall₂_nil_left_iff]
    exact ⟨by rintro ⟨⟩; rfl, by rintro rfl; rfl⟩
  | cons x xs ih =>
    rw [List.mapM_cons, bind_eq_ok_iff, List.forall₂_cons_left_iff]
    simp only [bind_eq_ok_iff, ih]
    constructor
    · rintro ⟨y, hy, ys, hys, ⟨⟩⟩
      exact ⟨y, ys, hy, hys, rfl⟩
    · rintro ⟨y, ys, hy, hys, rfl⟩
      exact ⟨y, hy, ys, hys, rfl⟩

/-- Of several steps, the first one that fails makes them fail. -/
lemma mapM_eq_error_iff {f : α → Except ε β} {xs : List α} {e : ε} :
    xs.mapM f = .error e ↔ ∃ before x after, xs = before ++ x :: after ∧
      (∀ y ∈ before, ∃ b, f y = .ok b) ∧ f x = .error e := by
  induction xs with
  | nil => simp [pure, Except.pure]
  | cons x xs ih =>
    simp only [List.mapM_cons, bind_eq_error_iff, ih]
    constructor
    · rintro (hx | ⟨b, hb, ⟨before, y, after, rfl, hbefore, hy⟩ | ⟨_, -, ⟨⟩⟩⟩)
      · exact ⟨[], x, xs, rfl, List.forall_mem_nil _, hx⟩
      · exact ⟨x :: before, y, after, rfl, List.forall_mem_cons.2 ⟨⟨b, hb⟩, hbefore⟩, hy⟩
    · rintro ⟨before, y, after, hsplit, hbefore, hy⟩
      cases before with
      | nil =>
        obtain ⟨rfl, -⟩ := List.cons.inj hsplit
        exact .inl hy
      | cons z before =>
        obtain ⟨rfl, rfl⟩ := List.cons.inj hsplit
        obtain ⟨⟨b, hb⟩, hbefore⟩ := List.forall_mem_cons.1 hbefore
        exact .inr ⟨b, hb, .inl ⟨before, y, after, rfl, hbefore, hy⟩⟩

lemma mapM_eq_ok {f : α → Except ε β} {g : α → β} {xs : List α} (h : ∀ x ∈ xs, f x = .ok (g x)) :
    xs.mapM f = .ok (xs.map g) :=
  mapM_eq_ok_iff.2 (List.forall₂_map_right_iff.2 (List.forall₂_same.2 h))

/-- If every step succeeds, what holds of each result holds of all of them. -/
lemma exists_mapM_eq_ok {f : α → Except ε β} {R : α → β → Prop} {xs : List α}
    (h : ∀ x ∈ xs, ∃ y, f x = .ok y ∧ R x y) :
    ∃ ys, xs.mapM f = .ok ys ∧ List.Forall₂ R xs ys := by
  obtain ⟨ys, hys⟩ := exists_forall₂ h
  exact ⟨ys, mapM_eq_ok_iff.2 (hys.imp fun _ _ h => h.1), hys.imp fun _ _ h => h.2⟩

section Collecting

variable {f : α → Except ε (Option β)} {collect : List α → Except ε (List β)} {xs ys : List α}

/-- To collect what is found in each member is to look at all of them, and then to keep what has
been found. -/
lemma collect_eq_map_mapM (f : α → Except ε (Option β)) (collect : List α → Except ε (List β))
    (hnil : collect [] = .ok [])
    (hcons : ∀ x xs, collect (x :: xs) = do
      let first ← f x
      let rest ← collect xs
      return first.toList ++ rest) (xs : List α) :
    collect xs = (xs.mapM f).map (·.flatMap Option.toList) := by
  induction xs with
  | nil => exact hnil
  | cons x xs ih =>
    rw [hcons, ih, List.mapM_cons]
    cases f x with
    | error error => rfl
    | ok first => cases xs.mapM f <;> rfl

lemma collect_eq_ok_iff (h : ∀ xs, collect xs = (xs.mapM f).map (·.flatMap Option.toList))
    {bs : List β} : collect xs = .ok bs ↔
      ∃ found, List.Forall₂ (fun x o => f x = .ok o) xs found ∧
        bs = found.flatMap Option.toList := by
  simp only [h, map_eq_ok_iff, mapM_eq_ok_iff, @eq_comm _ bs]

lemma collect_append_eq_ok_iff (h : ∀ xs, collect xs = (xs.mapM f).map (·.flatMap Option.toList))
    {bs : List β} : collect (xs ++ ys) = .ok bs ↔
      ∃ first rest, collect xs = .ok first ∧ collect ys = .ok rest ∧ bs = first ++ rest := by
  simp only [h, List.mapM_append, map_eq_ok_iff, bind_eq_ok_iff]
  constructor
  · rintro ⟨_, ⟨first, hfirst, rest, hrest, ⟨⟩⟩, rfl⟩
    exact ⟨_, _, ⟨first, hfirst, rfl⟩, ⟨rest, hrest, rfl⟩, List.flatMap_append⟩
  · rintro ⟨_, _, ⟨first, hfirst, rfl⟩, ⟨rest, hrest, rfl⟩, rfl⟩
    exact ⟨_, ⟨first, hfirst, rest, hrest, rfl⟩, List.flatMap_append⟩

end Collecting

end TimedPatterns
