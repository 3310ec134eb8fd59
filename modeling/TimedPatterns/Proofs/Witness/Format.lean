import Mathlib.Data.List.TakeWhile
import TimedPatterns.Proofs.Text.Numeral
import TimedPatterns.Proofs.Witness.Chain

/-!
# The words and edges of a listing

A word of a listing is a constraint if it is `x-y<=k` or `x-y<k` with names of clocks and the text
of a number, and a line is an edge if it is `P.a->P.b` with one name of a process on both sides and
a body between braces. Here both forms are said without the reader, and the reader is shown to take
exactly them; of the constraints it refuses those whose number has more than 64 bits.
-/

namespace TimedPatterns.Listing

open Text

variable {p : Char → Bool} {cs xs rest line token body : List Char} {strict : Bool}
  {d : Difference} {e : WitnessEdge}

/-! ### The forms -/

/-- A text of at least one character, each of which satisfies `p`. -/
def IsName (p : Char → Bool) (cs : List Char) : Prop := cs ≠ [] ∧ ∀ c ∈ cs, p c = true

/-- The word `x-y<=k`, or `x-y<k` if the constraint is strict. -/
def IsDifference (token : List Char) (d : Difference) : Prop :=
  IsName isClockChar d.left.toList ∧ IsName isClockChar d.right.toList ∧
    ∃ bound, Denotes bound d.bound ∧
      token = d.left.toList ++ '-' :: (d.right.toList ++
        ((if d.strict then ['<'] else ['<', '=']) ++ bound))

/-- The bound of a constraint has 64 bits. -/
def InRange (d : Difference) : Prop := minSigned ≤ d.bound ∧ d.bound ≤ maxSigned

/-- The line `P.a->P.b`, then perhaps blanks, and a body between braces. The synchronisation is
the first part between the commas of the body that has the form of one. -/
def IsEdge (line : List Char) (e : WitnessEdge) : Prop :=
  IsName isProcessChar e.process.toList ∧ IsName isLocationChar e.source.toList ∧
    IsName isLocationChar e.target.toList ∧ ∃ blanks body,
      (∀ c ∈ blanks, isBlank c = true) ∧ '\n' ∉ body ∧
      line = e.process.toList ++ '.' :: (e.source.toList ++ (['-', '>'] ++ (e.process.toList ++
        '.' :: (e.target.toList ++ (blanks ++ '\x7b' :: (body ++ ['\x7d'])))))) ∧
      e.sync = ((splitAt ',' (String.ofList body)).map trim).find? fun part =>
        IsSynchronisation part

/-! ### Names -/

lemma name?_append (hne : xs ≠ []) (hxs : ∀ x ∈ xs, p x = true)
    (hrest : ∀ c ∈ rest.head?, p c = false) : name? p (xs ++ rest) = some (xs, rest) := by
  have htake : (xs ++ rest).takeWhile p = xs := by
    rw [List.takeWhile_append_of_pos hxs]
    cases rest with
    | nil => simp
    | cons c cs => rw [List.takeWhile_cons_of_neg (by simp [hrest c rfl]), List.append_nil]
  rw [name?, htake, if_neg (by simpa using hne), List.dropWhile_append_of_pos hxs,
    dropWhile_eq_self hrest]

lemma name?_eq_some_iff : name? p cs = some (xs, rest) ↔
    IsName p xs ∧ cs = xs ++ rest ∧ ∀ c ∈ rest.head?, p c = false := by
  constructor
  · intro h
    rw [name?] at h
    split_ifs at h with hempty
    obtain ⟨rfl, rfl⟩ := Prod.mk.inj (Option.some.inj h)
    refine ⟨⟨by simpa using hempty, fun c => List.mem_takeWhile_imp⟩,
      List.takeWhile_append_dropWhile.symm, fun c hc => ?_⟩
    have hhead := List.head?_dropWhile_not p cs
    rw [hc] at hhead
    exact hhead
  · rintro ⟨⟨hne, hxs⟩, rfl, hrest⟩
    exact name?_append hne hxs hrest

lemma dropPrefix?_append (ps rest : List Char) : dropPrefix? ps (ps ++ rest) = some rest :=
  dropPrefix?_eq_some_iff.2 rfl

/-! ### Constraints -/

lemma isBoundText_iff : isBoundText cs = true ↔ ∃ k, Denotes cs k := by
  have hdigits (xs : List Char) :
      (!xs.isEmpty && xs.all fun c => (digit? c).isSome) = true ↔
        xs ≠ [] ∧ ∀ c ∈ xs, c.isDigit = true := by
    rw [Bool.and_eq_true, Bool.not_eq_true', List.isEmpty_eq_false_iff, List.all_eq_true]
    simp only [isSome_digit?]
  constructor
  · intro h
    unfold isBoundText at h
    split at h
    · obtain ⟨hne, hall⟩ := (hdigits _).1 h
      exact ⟨_, .negative hne hall⟩
    · obtain ⟨hne, hall⟩ := (hdigits _).1 h
      exact ⟨_, .natural hne hall⟩
  · rintro ⟨k, h⟩
    cases h with
    | natural hne hall =>
      unfold isBoundText
      split
      · exact absurd (hall '-' List.mem_cons_self) (by decide)
      · exact (hdigits _).2 ⟨hne, hall⟩
    | negative hne hall => exact (hdigits _).2 ⟨hne, hall⟩

lemma head?_ne_of_denotes {k : Int} (h : Denotes cs k) : cs.head? ≠ some '=' := by
  intro hhead
  cases h with
  | natural hne hdigits => exact absurd (hdigits '=' (List.mem_of_mem_head? hhead)) (by decide)
  | negative hne hdigits => exact absurd hhead (by simp)

lemma comparison?_eq_some (h : comparison? cs = some (strict, rest)) :
    cs = (if strict then ['<'] else ['<', '=']) ++ rest := by
  unfold comparison? at h
  split at h <;> simp_all

lemma comparison?_sign (hrest : rest.head? ≠ some '=') :
    comparison? ((if strict then ['<'] else ['<', '=']) ++ rest) = some (strict, rest) := by
  cases strict with
  | false => rfl
  | true =>
    rw [if_pos rfl, List.singleton_append, comparison?]
    rintro cs rfl
    exact hrest rfl

lemma differenceParts?_eq_some_iff {left right bound : List Char} :
    differenceParts? token = some (left, right, strict, bound) ↔
      IsName isClockChar left ∧ IsName isClockChar right ∧ isBoundText bound = true ∧
        token = left ++ '-' :: (right ++ ((if strict then ['<'] else ['<', '=']) ++ bound)) := by
  constructor
  · intro h
    simp only [differenceParts?, bind, Option.bind_eq_some_iff, Prod.exists,
      Option.ite_none_right_eq_some, Option.some.injEq, Prod.mk.injEq] at h
    obtain ⟨_, _, hleft, _, hminus, _, _, hright, _, _, hcomparison, hbound, rfl, rfl, rfl, rfl⟩ :=
      h
    obtain ⟨hleft, htoken, -⟩ := name?_eq_some_iff.1 hleft
    obtain ⟨hright, hrest, -⟩ := name?_eq_some_iff.1 hright
    rw [htoken, dropPrefix?_eq_some_iff.1 hminus, hrest, comparison?_eq_some hcomparison]
    exact ⟨hleft, hright, hbound, rfl⟩
  · rintro ⟨⟨hleft, hleft'⟩, ⟨hright, hright'⟩, hbound, rfl⟩
    obtain ⟨k, hk⟩ := isBoundText_iff.1 hbound
    -- each part ends where a sign stands that cannot be in it
    have hminus : ∀ rest, ∀ c ∈ ('-' :: rest).head?, isClockChar c = false := by
      rintro rest _ ⟨⟩
      decide
    have hless : ∀ c ∈ ((if strict then ['<'] else ['<', '=']) ++ bound).head?,
        isClockChar c = false := by
      cases strict <;> rintro _ ⟨⟩ <;> decide
    rw [differenceParts?, name?_append hleft hleft' (hminus _)]
    simp only [bind, Option.bind_some, dropPrefix?, if_true, name?_append hright hright' hless,
      comparison?_sign (head?_ne_of_denotes hk), hbound]

/-- The texts that have the form of a constraint, and what they denote. -/
lemma isDifference_iff : IsDifference token d ↔ ∃ bound, Denotes bound d.bound ∧
    differenceParts? token = some (d.left.toList, d.right.toList, d.strict, bound) := by
  simp only [differenceParts?_eq_some_iff]
  constructor
  · rintro ⟨hleft, hright, bound, hbound, htoken⟩
    exact ⟨bound, hbound, hleft, hright, isBoundText_iff.2 ⟨_, hbound⟩, htoken⟩
  · rintro ⟨bound, hbound, hleft, hright, -, htoken⟩
    exact ⟨hleft, hright, bound, hbound, htoken⟩

lemma IsDifference.unique {other : Difference} (h : IsDifference token d)
    (h' : IsDifference token other) : d = other := by
  obtain ⟨bound, hbound, hparts⟩ := isDifference_iff.1 h
  obtain ⟨bound', hbound', hparts'⟩ := isDifference_iff.1 h'
  obtain ⟨left, right, k, strict⟩ := d
  obtain ⟨left', right', k', strict'⟩ := other
  have heq := hparts.symm.trans hparts'
  simp only [Option.some.injEq, Prod.mk.injEq, String.toList_inj] at heq
  obtain ⟨rfl, rfl, rfl, rfl⟩ := heq
  obtain rfl : k = k' := hbound.unique hbound'
  rfl

/-- A word that has no form of a constraint is passed over. -/
lemma difference?_eq_ok_none_iff :
    difference? token = .ok none ↔ ∀ d, ¬ IsDifference token d := by
  rw [difference?]
  cases hparts : differenceParts? token with
  | none =>
    refine iff_of_true rfl fun d hd => ?_
    obtain ⟨bound, -, h⟩ := isDifference_iff.1 hd
    cases hparts.symm.trans h
  | some parts =>
    obtain ⟨left, right, strict, bound⟩ := parts
    obtain ⟨k, hk⟩ := isBoundText_iff.1 (differenceParts?_eq_some_iff.1 hparts).2.2.1
    refine iff_of_false ?_ fun h =>
      h ⟨.ofList left, .ofList right, k, strict⟩ (isDifference_iff.2 ⟨bound, hk, ?_⟩)
    · dsimp only
      cases readSigned bound <;> exact nofun
    · simpa only [String.toList_ofList] using hparts

/-- A word that has the form of a constraint is read exactly if its bound is in range. -/
lemma difference?_eq_ok_some_iff :
    difference? token = .ok (some d) ↔ IsDifference token d ∧ InRange d := by
  rw [isDifference_iff, difference?]
  cases hparts : differenceParts? token with
  | none => exact iff_of_false nofun fun ⟨⟨_, _, h⟩, _⟩ => nomatch h
  | some parts =>
    obtain ⟨left, right, strict, bound⟩ := parts
    constructor
    · intro h
      dsimp only at h
      cases hread : readSigned bound with
      | error error =>
        rw [hread] at h
        cases h
      | ok j =>
        -- the bound is a numeral, so it can only fail to be read by its size
        obtain ⟨k, hk⟩ := isBoundText_iff.1 (differenceParts?_eq_some_iff.1 hparts).2.2.1
        obtain ⟨rfl, hrange⟩ := hk.readSigned_eq_ok_iff.1 hread
        rw [hread] at h
        cases h
        exact ⟨⟨bound, hk, by simp⟩, hrange⟩
    · rintro ⟨⟨other, hother, heq⟩, hrange⟩
      cases heq
      dsimp only
      rw [hother.readSigned_eq_ok_iff.2 ⟨rfl, hrange⟩]
      simp

/-! ### Edges -/

lemma braced?_eq_some_iff : braced? cs = some body ↔ ∃ blanks,
    (∀ c ∈ blanks, isBlank c = true) ∧ '\n' ∉ body ∧
      cs = blanks ++ '\x7b' :: (body ++ ['\x7d']) := by
  constructor
  · intro h
    simp only [braced?, bind, Option.bind_eq_some_iff, dropPrefix?_eq_some_iff] at h
    obtain ⟨inner, hopen, h⟩ := h
    split at h
    · next reversed hclose =>
      split_ifs at h with hline
      cases h
      refine ⟨cs.takeWhile isBlank, fun c => List.mem_takeWhile_imp, by simpa using hline, ?_⟩
      rw [← List.reverse_cons, ← hclose, List.reverse_reverse, ← List.singleton_append,
        ← hopen, List.takeWhile_append_dropWhile]
    · cases h
  · rintro ⟨blanks, hblanks, hline, rfl⟩
    have hdrop : (blanks ++ '\x7b' :: (body ++ ['\x7d'])).dropWhile isBlank =
        ['\x7b'] ++ (body ++ ['\x7d']) := by
      rw [List.dropWhile_append_of_pos hblanks]
      rfl
    have hreverse : (body ++ ['\x7d']).reverse = '\x7d' :: body.reverse := by simp
    rw [braced?, hdrop, dropPrefix?_append]
    simp [hreverse, hline]

/-- The name of a location ends where blanks or a label stand behind it. -/
lemma isLocationChar_head?_label {blanks : List Char} (hblanks : ∀ c ∈ blanks, isBlank c = true)
    (rest : List Char) : ∀ c ∈ (blanks ++ '\x7b' :: rest).head?, isLocationChar c = false := by
  cases blanks with
  | nil =>
    rintro _ ⟨⟩
    decide
  | cons blank blanks =>
    rintro _ ⟨⟩
    rw [← Bool.not_eq_true]
    intro hlocation
    have hblank := isBlank_of_isClockChar (isClockChar_of_isLocationChar hlocation)
    rw [hblanks _ List.mem_cons_self] at hblank
    cases hblank

/-- The synchronisation of an edge is the first part of its body that has the form of one. -/
lemma sync?_eq (body : List Char) : sync? body =
    ((splitAt ',' (String.ofList body)).map trim).find? fun part => IsSynchronisation part := by
  have htrim (part : List Char) : trim (String.ofList part) = String.ofList (trimChars part) := by
    rw [trim, String.toList_ofList]
  have hsync (part : List Char) :
      decide (IsSynchronisation (String.ofList part)) = isSync part := by
    rw [Bool.eq_iff_iff, decide_eq_true_iff, IsSynchronisation.iff_isSync, String.toList_ofList]
  rw [sync?, splitAt, String.toList_ofList, List.map_map]
  have hparts : trim ∘ String.ofList = String.ofList ∘ trimChars := funext htrim
  have hfound : (fun part => decide (IsSynchronisation part)) ∘ String.ofList = isSync :=
    funext hsync
  rw [hparts, ← List.map_map, List.find?_map (f := String.ofList), hfound]

/-- The parts of a line that has the form of an edge, which need not stay in its process. -/
lemma listedEdge?_eq_some_iff {listed : ListedEdge} : listedEdge? line = some listed ↔
    IsName isProcessChar listed.process.toList ∧ IsName isLocationChar listed.source.toList ∧
      IsName isProcessChar listed.targetProcess.toList ∧
      IsName isLocationChar listed.target.toList ∧
      ∃ blanks body, (∀ c ∈ blanks, isBlank c = true) ∧ '\n' ∉ body ∧
        line = listed.process.toList ++ '.' :: (listed.source.toList ++ (['-', '>'] ++
          (listed.targetProcess.toList ++ '.' :: (listed.target.toList ++
            (blanks ++ '\x7b' :: (body ++ ['\x7d'])))))) ∧
        listed.sync = sync? body := by
  constructor
  · intro h
    simp only [listedEdge?, bind, Option.bind_eq_some_iff, Prod.exists, pure,
      Option.some.injEq, dropPrefix?_eq_some_iff] at h
    obtain ⟨process, _, hprocess, _, rfl, source, _, hsource, _, rfl, target, _, htarget, _, rfl,
      location, _, hlocation, body, hbody, rfl⟩ := h
    obtain ⟨hprocess, hline, -⟩ := name?_eq_some_iff.1 hprocess
    obtain ⟨hsource, hedge, -⟩ := name?_eq_some_iff.1 hsource
    obtain ⟨htarget, hend, -⟩ := name?_eq_some_iff.1 htarget
    obtain ⟨hlocation, hlabel, -⟩ := name?_eq_some_iff.1 hlocation
    obtain ⟨blanks, hblanks, hbody, hbraced⟩ := braced?_eq_some_iff.1 hbody
    simp only [String.toList_ofList]
    refine ⟨hprocess, hsource, htarget, hlocation, blanks, body, hblanks, hbody, ?_, rfl⟩
    rw [hline, hedge, hend, hlabel, hbraced]
    rfl
  · rintro ⟨⟨hprocess, hprocess'⟩, ⟨hsource, hsource'⟩, ⟨htarget, htarget'⟩,
      ⟨hlocation, hlocation'⟩, blanks, body, hblanks, hbody, rfl, hsync⟩
    have hpoint : ∀ rest, ∀ c ∈ ('.' :: rest).head?, isProcessChar c = false := by
      rintro rest _ ⟨⟩
      decide
    have harrow : ∀ rest, ∀ c ∈ (['-', '>'] ++ rest).head?, isLocationChar c = false := by
      rintro rest _ ⟨⟩
      decide
    have hlabel := isLocationChar_head?_label hblanks (body ++ ['\x7d'])
    have hbraced := braced?_eq_some_iff.2 ⟨blanks, hblanks, hbody, rfl⟩
    rw [listedEdge?, name?_append hprocess hprocess' (hpoint _)]
    simp only [bind, Option.bind_some, dropPrefix?, if_true,
      name?_append hsource hsource' (harrow _), dropPrefix?_append,
      name?_append htarget htarget' (hpoint _), name?_append hlocation hlocation' hlabel, hbraced,
      String.ofList_toList, ← hsync]
    rfl

/-- A line is read as an edge exactly if it has the form of that edge. -/
lemma edge_eq_ok_iff {number : Nat} : edge number line = .ok e ↔ IsEdge line e := by
  have hlisted : edge number line = .ok e ↔
      listedEdge? line = some ⟨e.process, e.source, e.process, e.target, e.sync⟩ := by
    rw [edge]
    cases h : listedEdge? line with
    | none => exact iff_of_false nofun nofun
    | some listed =>
      obtain ⟨process, source, targetProcess, target, sync⟩ := listed
      obtain ⟨process', source', target', sync'⟩ := e
      dsimp only
      split_ifs with hprocess
      · simp only [Except.ok.injEq, WitnessEdge.mk.injEq, Option.some.injEq, ListedEdge.mk.injEq]
        constructor
        · rintro ⟨rfl, rfl, rfl, rfl⟩
          exact ⟨rfl, rfl, hprocess.symm, rfl, rfl⟩
        · rintro ⟨rfl, rfl, -, rfl, rfl⟩
          exact ⟨rfl, rfl, rfl, rfl⟩
      · refine iff_of_false nofun fun heq => hprocess ?_
        cases heq
        rfl
  rw [hlisted, listedEdge?_eq_some_iff, IsEdge]
  simp only [sync?_eq]
  constructor
  · rintro ⟨hprocess, hsource, -, htarget, h⟩
    exact ⟨hprocess, hsource, htarget, h⟩
  · rintro ⟨hprocess, hsource, htarget, h⟩
    exact ⟨hprocess, hsource, hprocess, htarget, h⟩

end TimedPatterns.Listing
