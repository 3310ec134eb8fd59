import TimedPatterns.Proofs.Path

/-!
# Paths by the name at their end

A path is the parts that lead to a name, the name, and behind it parts that do not count. Its last
component is the name, and the directory it lies in depends on the parts before the name only.

A path without its extension has the same parts before its last one, which is the stem of the name.
There is one exception: from a name `..` and an extension only the point before the extension is
left out, if nothing stands behind the name, since `..` is the name of no file.
-/

namespace TimedPatterns.Path

open Text

variable {path : String} {lead trail : List (List Char)} {name stem after : List Char}

/-! ### Text and parts -/

/-- Parts that lead somewhere, each with its slash. -/
def leadText (lead : List (List Char)) : List Char := lead.flatMap (· ++ ['/'])

/-- Parts behind a name, each with its slash. -/
def trailText (trail : List (List Char)) : List Char := trail.flatMap ('/' :: ·)

/-- The path leads over some parts to the name, and the parts behind it do not count. -/
structure EndsIn (path : String) (lead : List (List Char)) (name : List Char)
    (trail : List (List Char)) : Prop where
  pieces_eq : pieces (· == '/') path.toList = lead ++ name :: trail
  counts : Path.counts name = true
  trail : ∀ part ∈ trail, Path.counts part = false

@[simp]
lemma leadText_nil : leadText [] = [] := rfl

@[simp]
lemma trailText_nil : trailText [] = [] := rfl

lemma intercalate_parts (lead : List (List Char)) (name : List Char) (trail : List (List Char)) :
    ['/'].intercalate (lead ++ name :: trail) = leadText lead ++ name ++ trailText trail := by
  induction lead with
  | nil =>
    induction trail generalizing name with
    | nil => simp [leadText, trailText]
    | cons part trail ih =>
      have hrest := ih part
      simp only [List.nil_append] at hrest ⊢
      rw [List.intercalate_cons_cons, hrest]
      simp [leadText, trailText]
  | cons part lead ih =>
    obtain ⟨next, rest, hrest⟩ := List.exists_cons_of_ne_nil
      (List.append_ne_nil_of_right_ne_nil lead (List.cons_ne_nil name trail))
    rw [List.cons_append, hrest, List.intercalate_cons_cons, ← hrest, ih]
    simp [leadText]

/-- The text of a path. -/
lemma EndsIn.toList_eq (h : EndsIn path lead name trail) :
    path.toList = leadText lead ++ name ++ trailText trail := by
  rw [← intercalate_pieces '/' path.toList, h.pieces_eq, intercalate_parts]

lemma EndsIn.not_mem (h : EndsIn path lead name trail) :
    (∀ part ∈ lead, '/' ∉ part) ∧ '/' ∉ name := by
  have hfree : ∀ part ∈ lead ++ name :: trail, '/' ∉ part := by
    rw [← h.pieces_eq]
    exact fun _ => not_mem_of_mem_pieces
  rw [List.forall_mem_append, List.forall_mem_cons] at hfree
  exact ⟨hfree.1, hfree.2.1⟩

lemma eq_of_counts {part : List Char} (h : counts part = false) : part = [] ∨ part = ['.'] := by
  by_contra hne
  rw [not_or] at hne
  simp [counts, hne.1, hne.2] at h

lemma not_mem_of_counts {part : List Char} (h : counts part = false) : '/' ∉ part := by
  rcases eq_of_counts h with rfl | rfl <;> decide

/-- A text with these parts is such a path. -/
lemma endsIn_ofList (hlead : ∀ part ∈ lead, '/' ∉ part) (hname : '/' ∉ name)
    (hcounts : counts name = true) (htrail : ∀ part ∈ trail, counts part = false) :
    EndsIn (String.ofList (leadText lead ++ name ++ trailText trail)) lead name trail := by
  refine ⟨?_, hcounts, htrail⟩
  rw [String.toList_ofList, ← intercalate_parts]
  refine pieces_intercalate (by simp) ?_ rfl
  rw [List.forall_mem_append, List.forall_mem_cons]
  exact ⟨fun part hpart => beq_of_not_mem (hlead part hpart), beq_of_not_mem hname,
    fun part hpart => beq_of_not_mem (not_mem_of_counts (htrail part hpart))⟩

/-- Every text is some parts that lead somewhere, and a part behind them. -/
lemma exists_leadText (text : List Char) : ∃ lead last, text = leadText lead ++ last ∧
    (∀ part ∈ lead, '/' ∉ part) ∧ '/' ∉ last := by
  obtain ⟨lead, last, hpieces⟩ := (List.eq_nil_or_concat' (pieces (· == '/') text)).resolve_left
    (pieces_ne_nil _ _)
  have hfree : ∀ part ∈ lead ++ [last], '/' ∉ part := by
    rw [← hpieces]
    exact fun _ => not_mem_of_mem_pieces
  rw [List.forall_mem_append, List.forall_mem_singleton] at hfree
  refine ⟨lead, last, ?_, hfree⟩
  have htext := intercalate_parts lead last []
  rw [← hpieces, intercalate_pieces, trailText_nil, List.append_nil] at htext
  exact htext

/-! ### Components -/

lemma trimParts_append (hcounts : counts name = true)
    (htrail : ∀ part ∈ trail, counts part = false) (lead : List (List Char)) :
    trimParts (lead ++ name :: trail) = lead ++ [name] := by
  have hreverse : (lead ++ name :: trail).reverse = trail.reverse ++ name :: lead.reverse := by simp
  rw [trimParts, hreverse, List.dropWhile_append_of_pos,
    List.dropWhile_cons_of_neg (by simp [hcounts])]
  · simp
  · intro part hpart
    simp [htrail part (List.mem_reverse.1 hpart)]

lemma trimParts_eq_nil (htrail : ∀ part ∈ trail, counts part = false) : trimParts trail = [] := by
  rw [trimParts, List.reverse_eq_nil_iff, List.dropWhile_eq_nil_iff]
  intro part hpart
  simp [htrail part (List.mem_reverse.1 hpart)]

lemma EndsIn.ne_nil (h : EndsIn path lead name trail) : name ≠ [] := by
  rintro rfl
  exact absurd h.counts (by decide)

/-- The parts of a path, the first one apart. -/
lemma EndsIn.split_eq (h : EndsIn path lead name trail) : split path =
    match lead with
    | [] => (name, trail)
    | head :: before => (head, before ++ name :: trail) := by
  cases lead with
  | nil =>
    rw [split, h.pieces_eq]
    rfl
  | cons head before =>
    rw [split, h.pieces_eq]
    rfl

/-- The last component is the name. -/
lemma EndsIn.last?_eq (h : EndsIn path lead name trail) : last? path = some name := by
  rw [last?, h.split_eq]
  cases lead with
  | nil =>
    dsimp only
    rw [trimParts_eq_nil h.trail, List.getLast?_nil]
    exact if_neg h.ne_nil
  | cons head before =>
    dsimp only
    rw [trimParts_append h.counts h.trail, List.getLast?_concat]

lemma EndsIn.nameChars?_eq (h : EndsIn path lead name trail) (hname : name ≠ ['.', '.']) :
    nameChars? path = some name := by
  have hpoint : name ≠ ['.'] := by
    rintro rfl
    exact absurd h.counts (by decide)
  rw [nameChars?, h.last?_eq]
  exact if_neg (not_or_intro hpoint hname)

/-- Paths with the same parts before their names lie in the same directory. -/
lemma EndsIn.parent?_eq {path' : String} {name' : List Char} {trail' : List (List Char)}
    (h : EndsIn path lead name trail) (h' : EndsIn path' lead name' trail') :
    parent? path = parent? path' := by
  rw [parent?, parent?, h.split_eq, h'.split_eq]
  cases lead with
  | nil =>
    dsimp only
    rw [trimParts_eq_nil h.trail, trimParts_eq_nil h'.trail]
    simp [h.ne_nil, h'.ne_nil]
  | cons head before =>
    dsimp only
    rw [trimParts_append h.counts h.trail, trimParts_append h'.counts h'.trail,
      List.reverse_concat, List.reverse_concat]

/-- The parts at the end that are dropped do not count. -/
lemma exists_trail (parts : List (List Char)) :
    ∃ trail, parts = trimParts parts ++ trail ∧ ∀ part ∈ trail, counts part = false := by
  refine ⟨parts.rtakeWhile (!counts ·), (List.rdropWhile_append_rtakeWhile).symm, ?_⟩
  intro part hpart
  simpa using List.mem_rtakeWhile_imp hpart

lemma counts_of_getLast? {parts : List (List Char)} {part : List Char}
    (h : (trimParts parts).getLast? = some part) : counts part = true := by
  obtain ⟨before, hbefore⟩ := List.getLast?_eq_some_iff.1 h
  have hne : parts.rdropWhile (!counts ·) ≠ [] := by
    show trimParts parts ≠ []
    simp [hbefore]
  have hlast := List.rdropWhile_last_not (!counts ·) parts hne
  have heq : parts.rdropWhile (!counts ·) = before ++ [part] := hbefore
  simpa [heq] using hlast

/-- A path to a file ends in the name of the file. -/
lemma exists_endsIn (h : nameChars? path = some name) :
    ∃ lead trail, EndsIn path lead name trail := by
  obtain ⟨hlast, hpoint, -⟩ := nameChars?_eq_some_iff.1 h
  obtain ⟨head, tail, hpieces⟩ := List.exists_cons_of_ne_nil (pieces_ne_nil (· == '/') path.toList)
  have hsplit : split path = (head, tail) := by rw [split, hpieces]
  obtain ⟨trail, htail, htrail⟩ := exists_trail tail
  rw [last?, hsplit] at hlast
  dsimp only at hlast
  split at hlast
  · next part hpart =>
    obtain rfl := Option.some.inj hlast
    obtain ⟨before, hbefore⟩ := List.getLast?_eq_some_iff.1 hpart
    refine ⟨head :: before, trail, ?_, counts_of_getLast? hpart, htrail⟩
    rw [hpieces, htail, hbefore]
    simp
  · next hnone =>
    split_ifs at hlast with hhead
    obtain rfl := Option.some.inj hlast
    rw [List.getLast?_eq_none_iff] at hnone
    rw [hnone, List.nil_append] at htail
    refine ⟨[], trail, by rw [hpieces, htail, List.nil_append], ?_, htrail⟩
    simp [counts, hhead, hpoint]

/-! ### Extensions -/

lemma EndsIn.ofParts_eq (h : EndsIn path lead name trail) :
    ofParts (split path).1 (trimParts (split path).2) = leadText lead ++ name := by
  have hjoin (head : List Char) (tail : List (List Char)) :
      ofParts head tail = ['/'].intercalate (head :: tail) := by
    have hparts := intercalate_parts [] head tail
    rw [List.nil_append] at hparts
    rw [hparts]
    rfl
  have hlead := intercalate_parts lead name []
  rw [trailText_nil, List.append_nil] at hlead
  rw [h.split_eq, hjoin, ← hlead]
  cases lead with
  | nil =>
    dsimp only
    rw [trimParts_eq_nil h.trail, List.nil_append]
  | cons head before =>
    dsimp only
    rw [trimParts_append h.counts h.trail, List.cons_append]

/-- A beginning of a text of parts that do not count has such parts. -/
lemma exists_take_trailText (htrail : ∀ part ∈ trail, counts part = false) (n : Nat) :
    ∃ trail', (trailText trail).take n = trailText trail' ∧
      ∀ part ∈ trail', counts part = false := by
  induction trail generalizing n with
  | nil => exact ⟨[], List.take_nil, nofun⟩
  | cons part trail ih =>
    obtain ⟨hpart, hparts⟩ := List.forall_mem_cons.1 htrail
    have hcons (part : List Char) (trail : List (List Char)) :
        trailText (part :: trail) = '/' :: (part ++ trailText trail) := rfl
    rw [hcons]
    rcases n with _ | n
    · exact ⟨[], rfl, nofun⟩
    rcases eq_of_counts hpart with rfl | rfl
    · obtain ⟨trail', heq, htrail'⟩ := ih hparts n
      refine ⟨[] :: trail', ?_, List.forall_mem_cons.2 ⟨hpart, htrail'⟩⟩
      rw [hcons, List.take_succ_cons, List.nil_append, heq, List.nil_append]
    · rcases n with _ | n
      · exact ⟨[[]], rfl, by simp [counts]⟩
      · obtain ⟨trail', heq, htrail'⟩ := ih hparts n
        refine ⟨['.'] :: trail', ?_, List.forall_mem_cons.2 ⟨hpart, htrail'⟩⟩
        rw [hcons, List.take_succ_cons, List.singleton_append, List.take_succ_cons, heq,
          List.singleton_append]

/-- The path ends in a name that has a stem and an extension. -/
structure Extended (path : String) (lead : List (List Char)) (stem after : List Char)
    (trail : List (List Char)) : Prop extends EndsIn path lead (stem ++ '.' :: after) trail where
  stem_ne : stem ≠ []
  free : '.' ∉ after
  name_ne : stem ++ '.' :: after ≠ ['.', '.']

lemma counts_append_cons (hstem : stem ≠ []) (after : List Char) :
    counts (stem ++ '.' :: after) = true := by
  obtain ⟨c, cs, rfl⟩ := List.exists_cons_of_ne_nil hstem
  simp [counts]

/-- A path has an extension if it ends in a name that has one. -/
lemma extension?_eq_some_iff {extension : String} : extension? path = some extension ↔
    ∃ lead stem trail, Extended path lead stem extension.toList trail := by
  constructor
  · intro h
    obtain ⟨after, hafter, rfl⟩ := Option.map_eq_some_iff.1 h
    obtain ⟨name, hname, hsplit⟩ := Option.bind_eq_some_iff.1 hafter
    obtain ⟨heq, hstem, hfree⟩ := splitName_eq_some_iff.1 (Prod.ext rfl hsplit)
    obtain ⟨-, -, hne⟩ := nameChars?_eq_some_iff.1 hname
    obtain ⟨lead, trail, hends⟩ := exists_endsIn hname
    rw [heq] at hne hends
    rw [String.toList_ofList]
    exact ⟨lead, _, trail, hends, hstem, hfree, hne⟩
  · rintro ⟨lead, stem, trail, h⟩
    have hsplit := splitName_append h.stem_ne h.free
    simp [extension?, h.nameChars?_eq h.name_ne, hsplit]

lemma Extended.extension?_eq (h : Extended path lead stem after trail) :
    extension? path = some (String.ofList after) :=
  extension?_eq_some_iff.2 ⟨lead, stem, trail, by rwa [String.toList_ofList]⟩

lemma Extended.stem?_eq (h : Extended path lead stem after trail) :
    stem? path = some (String.ofList stem) := by
  rw [stem?, h.nameChars?_eq h.name_ne, Option.map_some, splitName_append h.stem_ne h.free]

/-- A text that ends in such a name. -/
lemma extended_of_toList (htext : path.toList = leadText lead ++ (stem ++ '.' :: after))
    (hlead : ∀ part ∈ lead, '/' ∉ part) (hslash : '/' ∉ stem ++ '.' :: after)
    (hstem : stem ≠ []) (hfree : '.' ∉ after) (hne : stem ++ '.' :: after ≠ ['.', '.']) :
    Extended path lead stem after [] := by
  have hends := endsIn_ofList hlead hslash (counts_append_cons hstem after) (List.forall_mem_nil _)
  rw [trailText_nil, List.append_nil, ← htext, String.ofList_toList] at hends
  exact ⟨hends, hstem, hfree, hne⟩

/-- The text up to the stem of a name. -/
lemma Extended.toList_cutStem (h : Extended path lead stem after trail) :
    (cutStem path).toList = leadText lead ++ stem := by
  have hdropped : (stem ++ '.' :: after).length - stem.length = ('.' :: after).length := by
    rw [List.length_append, Nat.add_sub_cancel_left]
  rw [cutStem, h.nameChars?_eq h.name_ne]
  dsimp only
  rw [h.ofParts_eq, splitName_append h.stem_ne h.free, String.toList_ofList, hdropped,
    ← List.append_assoc, List.length_append, Nat.add_sub_cancel, List.take_left]

/-- There is nothing to cut off if a path ends in two points. -/
lemma EndsIn.cutStem_eq (h : EndsIn path lead ['.', '.'] trail) : cutStem path = path := by
  have hnone : nameChars? path = none := by
    rw [nameChars?, h.last?_eq]
    exact if_pos (.inr rfl)
  rw [cutStem, hnone]

lemma eq_point_of_append_cons (hstem : stem ≠ []) (h : stem ++ '.' :: after = ['.', '.']) :
    stem = ['.'] := by
  obtain ⟨c, cs, rfl⟩ := List.exists_cons_of_ne_nil hstem
  rw [List.cons_append] at h
  obtain ⟨rfl, hrest⟩ := List.cons.inj h
  have hlength := congrArg List.length hrest
  rw [List.length_append, List.length_cons, List.length_singleton] at hlength
  obtain rfl := List.length_eq_zero_iff.1 (by omega : cs.length = 0)
  rfl

/-- The text up to the stem of the last name of a path. It is the whole text if the stem is a point
and nothing but another one stands behind it. -/
lemma exists_cutStem (hlead : ∀ part ∈ lead, '/' ∉ part) (hslash : '/' ∉ stem ++ '.' :: after)
    (hstem : stem ≠ []) (hfree : '.' ∉ after) :
    ∃ last, (cutStem (String.ofList (leadText lead ++ (stem ++ '.' :: after)))).toList =
        leadText lead ++ last ∧ (last = stem ∨ last = ['.', '.'] ∧ stem = ['.']) := by
  have hends := endsIn_ofList hlead hslash (counts_append_cons hstem after) (List.forall_mem_nil _)
  rw [trailText_nil, List.append_nil] at hends
  by_cases hpoints : stem ++ '.' :: after = ['.', '.']
  · rw [hpoints] at hends ⊢
    refine ⟨['.', '.'], ?_, .inr ⟨rfl, eq_point_of_append_cons hstem hpoints⟩⟩
    rw [hends.cutStem_eq, String.toList_ofList]
  · exact ⟨stem, Extended.toList_cutStem ⟨hends, hstem, hfree, hpoints⟩, .inl rfl⟩

/-- If less stands behind a name than its extension is long, a beginning of the extension is
left. -/
lemma take_append_of_length_lt {before text : List Char} (h : text.length < after.length) :
    (before ++ (stem ++ '.' :: after) ++ text).take
        (before.length + (stem ++ '.' :: after).length + text.length - after.length) =
      before ++ (stem ++ '.' :: after.take text.length) := by
  have hsplit : before ++ (stem ++ '.' :: after) ++ text =
      before ++ (stem ++ ['.']) ++ (after ++ text) := by simp
  have hlength : before.length + (stem ++ '.' :: after).length + text.length - after.length =
      (before ++ (stem ++ ['.'])).length + text.length := by
    simp only [List.length_append, List.length_cons, List.length_nil]
    omega
  rw [hsplit, hlength, List.take_length_add_append, List.take_append_of_le_length h.le]
  simp

/-- A path without its extension ends in the stem of its name, or in two points if the stem is
one. -/
lemma Extended.exists_withoutExtension (h : Extended path lead stem after trail) :
    ∃ last, (withoutExtension path).toList = leadText lead ++ last ∧
      (last = stem ∨ last = ['.', '.'] ∧ stem = ['.']) := by
  obtain ⟨hlead, hname⟩ := h.not_mem
  rw [withoutExtension, h.extension?_eq]
  dsimp only
  rw [String.toList_ofList, h.toList_eq, List.length_append, List.length_append]
  rcases le_or_gt after.length (trailText trail).length with hle | hlt
  · -- what is taken from the end stands behind the name
    obtain ⟨trail', htake, htrail'⟩ :=
      exists_take_trailText h.trail ((trailText trail).length - after.length)
    have hends := endsIn_ofList hlead hname h.counts htrail'
    rw [← htake] at hends
    refine ⟨stem, ?_, .inl rfl⟩
    rw [Nat.add_sub_assoc hle, ← List.length_append, List.take_length_add_append]
    exact Extended.toList_cutStem ⟨hends, h.stem_ne, h.free, h.name_ne⟩
  · -- some of the extension is left behind the point
    rw [take_append_of_length_lt hlt]
    refine exists_cutStem hlead (fun hmem => hname ?_) h.stem_ne fun hmem =>
      h.free (List.mem_of_mem_take hmem)
    rw [List.mem_append, List.mem_cons] at hmem ⊢
    exact hmem.imp_right fun h => h.imp_right List.mem_of_mem_take

end TimedPatterns.Path
