import DurableState.Disk.Basic
import DurableState.Proofs.Maps

/-!
# DurableState.Proofs.Ways — where paths lead

Joining a plain name to a path adds one part at its end (`parts_join`), and the directories above a
path have its first parts (`Above`). A walk along plain names ends where they say
(`walk_eq_of_plain`), and a walk that was possible stays possible while directories stay
(`locate_mono`).
-/

namespace DurableState

namespace Path

/-! ## Cutting at slashes -/

/-- There is always a piece, if only an empty one. -/
theorem splitSlash_ne_nil (cs : List Char) : splitSlash cs ≠ [] := by
  cases cs with
  | nil => simp [splitSlash]
  | cons c cs =>
    rw [splitSlash]
    split
    · simp
    · split <;> simp

/-- A slash ends one piece and begins the next. -/
theorem splitSlash_append_slash (xs ys : List Char) :
    splitSlash (xs ++ '/' :: ys) = splitSlash xs ++ splitSlash ys := by
  induction xs with
  | nil => rfl
  | cons c xs ih =>
    rw [List.cons_append, splitSlash, splitSlash, ih]
    split
    · rfl
    · -- A character that is no slash goes to the first piece of the rest.
      cases hparts : splitSlash xs with
      | nil => exact absurd hparts (splitSlash_ne_nil xs)
      | cons part parts => rfl

/-- A text without a slash is one piece. -/
theorem splitSlash_of_not_mem {cs : List Char} (h : '/' ∉ cs) : splitSlash cs = [cs] := by
  induction cs with
  | nil => rfl
  | cons c cs ih =>
    rw [List.mem_cons, not_or] at h
    rw [splitSlash, if_neg (fun hc => h.1 hc.symm), ih h.2]

/-- No piece has a slash in it. -/
theorem not_mem_of_mem_splitSlash {cs part : List Char} (h : part ∈ splitSlash cs) :
    '/' ∉ part := by
  induction cs generalizing part with
  | nil =>
    rw [List.mem_singleton.1 h]
    exact List.not_mem_nil
  | cons c cs ih =>
    rw [splitSlash] at h
    split at h
    · rcases List.mem_cons.1 h with rfl | h
      · exact List.not_mem_nil
      · exact ih h
    · rename_i hc
      cases hparts : splitSlash cs with
      | nil => exact absurd hparts (splitSlash_ne_nil cs)
      | cons first parts =>
        rw [hparts] at h ih
        -- The character goes in front of the first part, and it is no slash.
        rcases List.mem_cons.1 h with rfl | h
        · rw [List.mem_cons, not_or]
          exact ⟨fun heq => hc heq.symm, ih List.mem_cons_self⟩
        · exact ih (List.mem_cons_of_mem _ h)

/-- Pieces without slashes are found again when they are joined by slashes. -/
theorem splitSlash_intercalate {ps : List (List Char)} (hne : ps ≠ [])
    (h : ∀ p ∈ ps, '/' ∉ p) : splitSlash (['/'].intercalate ps) = ps := by
  induction ps with
  | nil => exact absurd rfl hne
  | cons p ps ih =>
    obtain ⟨hp, hps⟩ := List.forall_mem_cons.1 h
    cases ps with
    | nil => rw [List.intercalate_singleton, splitSlash_of_not_mem hp]
    | cons q ps =>
      rw [List.intercalate_cons_cons, List.append_assoc, List.singleton_append,
        splitSlash_append_slash, splitSlash_of_not_mem hp, ih (by simp) hps]
      rfl

/-- A text is its pieces, joined by slashes. -/
theorem intercalate_splitSlash (cs : List Char) : ['/'].intercalate (splitSlash cs) = cs := by
  induction cs with
  | nil => rfl
  | cons c cs ih =>
    rw [splitSlash]
    cases hparts : splitSlash cs with
    | nil => exact absurd hparts (splitSlash_ne_nil cs)
    | cons part parts =>
      rw [hparts] at ih
      split
      · -- A slash leaves an empty piece in front.
        rename_i hc
        rw [List.intercalate_cons_cons, ih, hc]
        rfl
      · -- The character goes in front of the first part, be it the only one or not.
        cases parts with
        | nil =>
          rw [List.intercalate_singleton] at ih
          simp [ih]
        | cons second parts =>
          rw [List.intercalate_cons_cons] at ih
          simp [← ih]

/-! ## Plain names -/

/-- A name that is one part of a path and leads one level down. -/
structure IsPlain (q : String) : Prop where
  ne_empty : q ≠ ""
  ne_here : q ≠ "."
  ne_up : q ≠ ".."
  no_slash : '/' ∉ q.toList

instance (q : String) : Decidable (IsPlain q) :=
  decidable_of_iff (q ≠ "" ∧ q ≠ "." ∧ q ≠ ".." ∧ '/' ∉ q.toList)
    ⟨fun h => ⟨h.1, h.2.1, h.2.2.1, h.2.2.2⟩, fun h => ⟨h.1, h.2, h.3, h.4⟩⟩

variable {p : Path} {q : String}

theorem pieces_of_text {xs ys : List Char} (h : p.text.toList = xs ++ '/' :: ys) :
    p.pieces = ((splitSlash xs).map String.ofList) ++ (splitSlash ys).map String.ofList := by
  unfold pieces
  rw [h, splitSlash_append_slash, List.map_append]

theorem IsPlain.pieces (hq : IsPlain q) : (splitSlash q.toList).map String.ofList = [q] := by
  rw [splitSlash_of_not_mem hq.no_slash, List.map_singleton, String.ofList_toList]

/-- What joining a plain name does to the text. -/
theorem text_join (p : Path) (hq : IsPlain q) :
    (p.join q).text = p.text ++ q ∧ (p.text = "" ∨ p.text.toList.getLast? = some '/') ∨
      (p.join q).text = p.text ++ "/" ++ q ∧ p.text ≠ "" ∧
        p.text.toList.getLast? ≠ some '/' := by
  have hrelative : q.toList.head? ≠ some '/' := fun h => hq.no_slash (List.mem_of_mem_head? h)
  unfold join
  rw [if_neg hrelative]
  by_cases hend : p.text = "" ∨ p.text.toList.getLast? = some '/'
  · rw [if_pos hend]
    exact .inl ⟨rfl, hend⟩
  · rw [if_neg hend]
    rw [not_or] at hend
    exact .inr ⟨rfl, hend⟩

/-- Joining a plain name adds one part at the end. -/
theorem parts_join (p : Path) (hq : IsPlain q) : (p.join q).parts = p.parts ++ [q] := by
  have hkept : [q].filter (· != "") = [q] := by simp [hq.ne_empty]
  unfold parts
  rcases text_join p hq with ⟨htext, hempty | hslash⟩ | ⟨htext, _, _⟩
  · -- The path is empty, and the name is all.
    have hjoined : (p.join q).pieces = [q] := by
      unfold pieces
      rw [htext, hempty, String.empty_append, hq.pieces]
    have hp : p.pieces = [""] := by
      unfold pieces
      rw [hempty]
      rfl
    rw [hjoined, hp, hkept]
    rfl
  · -- The path ends in a slash, so there is an empty piece before the name, which is no part.
    obtain ⟨xs, hxs⟩ : ∃ xs, p.text.toList = xs ++ ['/'] := List.getLast?_eq_some_iff.1 hslash
    have hjoined : (p.join q).text.toList = xs ++ '/' :: q.toList := by
      rw [htext, String.toList_append, hxs, List.append_assoc]
      rfl
    rw [pieces_of_text hjoined, pieces_of_text hxs, hq.pieces, List.filter_append,
      List.filter_append, hkept]
    simp [splitSlash]
  · -- Else a slash is put between the path and the name.
    have hjoined : (p.join q).text.toList = p.text.toList ++ '/' :: q.toList := by
      rw [htext, String.toList_append, String.toList_append, List.append_assoc]
      rfl
    rw [pieces_of_text hjoined, hq.pieces, List.filter_append, hkept]
    rfl

/-- A path is the beginning of what is joined to it. -/
theorem prefix_text_join (p : Path) (hq : IsPlain q) :
    p.text.toList <+: (p.join q).text.toList := by
  rcases text_join p hq with ⟨htext, _⟩ | ⟨htext, _⟩
  · rw [htext, String.toList_append]
    exact List.prefix_append _ _
  · rw [htext, String.toList_append, String.toList_append, List.append_assoc]
    exact List.prefix_append _ _

theorem size_le_size_join (p : Path) (hq : IsPlain q) :
    p.text.utf8ByteSize ≤ (p.join q).text.utf8ByteSize := by
  rcases text_join p hq with ⟨htext, _⟩ | ⟨htext, _⟩
  · rw [htext, String.utf8ByteSize_append]
    omega
  · rw [htext, String.utf8ByteSize_append, String.utf8ByteSize_append]
    omega

theorem text_join_ne_empty (p : Path) (hq : IsPlain q) : (p.join q).text ≠ "" := by
  rcases text_join p hq with ⟨htext, _⟩ | ⟨htext, _⟩
  · rw [htext]
    simp [hq.ne_empty]
  · rw [htext]
    simp

/-- A path starts where it started when something is joined to it. -/
theorem isAbsolute_join (hp : p.text ≠ "") (hq : IsPlain q) :
    (p.join q).isAbsolute = p.isAbsolute := by
  obtain ⟨rest, hrest⟩ := prefix_text_join p hq
  unfold isAbsolute
  rw [← hrest]
  cases htext : p.text.toList with
  | nil => exact absurd (String.toList_eq_nil_iff.1 htext) hp
  | cons c cs => rfl

/-- A path that ends in a plain name may lead to a file. -/
theorem namesDirectory_join (p : Path) (hq : IsPlain q) : (p.join q).namesDirectory = false := by
  have hend : ∃ front, (p.join q).text.toList = front ++ q.toList := by
    rcases text_join p hq with ⟨htext, _⟩ | ⟨htext, _⟩
    · exact ⟨_, by rw [htext, String.toList_append]⟩
    · exact ⟨_, by rw [htext, String.toList_append]⟩
  obtain ⟨front, hfront⟩ := hend
  have hne : q.toList ≠ [] := fun h => hq.ne_empty (String.toList_eq_nil_iff.1 h)
  unfold namesDirectory
  rw [Bool.eq_false_iff, ne_eq, List.isSuffixOf_iff_suffix, hfront]
  -- It would end in a slash, and the name has none.
  intro hsuffix
  have hlast : (front ++ q.toList).getLast? = some '/' := by
    obtain ⟨rest, hrest⟩ := hsuffix
    rw [← hrest]
    simp
  rw [List.getLast?_append_of_ne_nil _ hne] at hlast
  exact hq.no_slash (List.mem_of_mem_getLast? hlast)

/-! ## Directories above a path -/

/-- A path that starts where another one does and has its first parts. -/
structure Above (a p : Path) : Prop where
  parts : a.parts <+: p.parts
  isAbsolute : a.isAbsolute = p.isAbsolute

theorem toList_intercalate_slash (ps : List String) :
    ("/".intercalate ps).toList = ['/'].intercalate (ps.map String.toList) :=
  String.toList_intercalate

theorem not_mem_of_mem_pieces (h : q ∈ p.pieces) : '/' ∉ q.toList := by
  obtain ⟨cs, hcs, rfl⟩ := List.mem_map.1 h
  rw [String.toList_ofList]
  exact not_mem_of_mem_splitSlash hcs

/-- A path that is put together from pieces falls into them again. -/
theorem pieces_intercalate {ps : List String} (hne : ps ≠ []) (h : ∀ q ∈ ps, '/' ∉ q.toList) :
    pieces ⟨"/".intercalate ps⟩ = ps := by
  unfold pieces
  rw [toList_intercalate_slash, splitSlash_intercalate (by simpa using hne)
    (List.forall_mem_map.2 h), List.map_map]
  simp

theorem intercalate_pieces (p : Path) : "/".intercalate p.pieces = p.text := by
  rw [← String.toList_inj, toList_intercalate_slash]
  unfold pieces
  have hread : String.toList ∘ String.ofList = id := funext fun cs => String.toList_ofList
  rw [List.map_map, hread, List.map_id]
  exact intercalate_splitSlash p.text.toList

/-- A path is absolute if its first piece is empty and another one follows. -/
theorem isAbsolute_iff_pieces (p : Path) : p.isAbsolute = true ↔ ∃ ps, p.pieces = "" :: ps ∧
    ps ≠ [] := by
  unfold isAbsolute pieces
  cases htext : p.text.toList with
  | nil => simp [splitSlash]
  | cons c cs =>
    rw [splitSlash]
    by_cases hc : c = '/'
    · subst hc
      simp [splitSlash_ne_nil]
    · cases hparts : splitSlash cs with
      | nil => exact absurd hparts (splitSlash_ne_nil cs)
      | cons part parts =>
        rw [if_neg hc]
        simp [hc]

/-- The pieces of a directory above a path are the first ones of the path, up to one that is a
step. -/
theorem pieces_of_mem_ancestors {a : Path} (h : a ∈ p.ancestors) :
    a = p ∨ ∃ last, a.pieces <+: p.pieces ∧ a.pieces.getLast? = some last ∧ last ≠ "" := by
  unfold ancestors at h
  dsimp only at h
  split at h
  · cases h
  · rename_i first above hstarts
    rcases List.mem_cons.1 h with rfl | h
    · exact .inl rfl
    refine .inr ?_
    obtain ⟨start, hstart, rfl⟩ := List.mem_map.1 h
    have hmem : start ∈ (List.range p.pieces.length).map
        (fun k => p.pieces.take (p.pieces.length - k)) ∧ endsInStep start = true := by
      rw [← List.mem_filter, hstarts]
      exact List.mem_cons_of_mem _ hstart
    obtain ⟨⟨k, _, rfl⟩, hstep⟩ := And.imp_left List.mem_map.1 hmem
    generalize p.pieces.length - k = n at hstep
    unfold endsInStep at hstep
    cases hlast : (p.pieces.take n).getLast? with
    | none => simp [hlast] at hstep
    | some last =>
      simp only [hlast, Bool.and_eq_true, bne_iff_ne] at hstep
      have hne : p.pieces.take n ≠ [] := by
        intro heq
        rw [heq] at hlast
        cases hlast
      -- The path is put together from pieces and falls into the same pieces again.
      have hpieces : pieces ⟨"/".intercalate (p.pieces.take n)⟩ = p.pieces.take n :=
        pieces_intercalate hne fun q hq => not_mem_of_mem_pieces (List.mem_of_mem_take hq)
      rw [hpieces]
      exact ⟨last, List.take_prefix _ _, hlast, hstep.1⟩

/-- The directories above a path that are made for it have its first parts. -/
theorem above_of_mem_ancestors {a : Path} (h : a ∈ p.ancestors) : a.Above p := by
  rcases pieces_of_mem_ancestors h with rfl | ⟨last, hpieces, hlast, hname⟩
  · exact ⟨List.prefix_rfl, rfl⟩
  refine ⟨hpieces.filter _, ?_⟩
  rw [Bool.eq_iff_iff, isAbsolute_iff_pieces, isAbsolute_iff_pieces]
  obtain ⟨rest, hrest⟩ := hpieces
  rw [← hrest]
  -- Both paths have the first piece in common, which is empty if they are absolute.
  cases ha : a.pieces with
  | nil =>
    rw [ha] at hlast
    cases hlast
  | cons first others =>
    rw [ha] at hlast
    simp only [List.cons_append, List.cons.injEq]
    constructor
    · rintro ⟨ps, ⟨rfl, rfl⟩, hps⟩
      exact ⟨_, ⟨rfl, rfl⟩, by simp [hps]⟩
    · rintro ⟨ps, ⟨rfl, rfl⟩, _⟩
      refine ⟨_, ⟨rfl, rfl⟩, ?_⟩
      -- The root alone is no step, so more than the first piece is left.
      rintro rfl
      exact hname (Option.some.inj hlast).symm

/-! ## Several names -/

/-- Joins names one after the other. -/
def joinAll (p : Path) (qs : List String) : Path := qs.foldl join p

theorem text_joinAll_ne_empty (hp : p.text ≠ "") {qs : List String} (hqs : ∀ q ∈ qs, IsPlain q) :
    (p.joinAll qs).text ≠ "" := by
  induction qs generalizing p with
  | nil => exact hp
  | cons q qs ih =>
    obtain ⟨hq, hqs⟩ := List.forall_mem_cons.1 hqs
    exact ih (text_join_ne_empty p hq) hqs

/-- Joining plain names adds them to the parts. -/
theorem parts_joinAll (p : Path) {qs : List String} (hqs : ∀ q ∈ qs, IsPlain q) :
    (p.joinAll qs).parts = p.parts ++ qs := by
  induction qs generalizing p with
  | nil => exact (List.append_nil _).symm
  | cons q qs ih =>
    obtain ⟨hq, hqs⟩ := List.forall_mem_cons.1 hqs
    refine (ih (p.join q) hqs).trans ?_
    rw [parts_join p hq, List.append_assoc, List.singleton_append]

theorem isAbsolute_joinAll (hp : p.text ≠ "") {qs : List String} (hqs : ∀ q ∈ qs, IsPlain q) :
    (p.joinAll qs).isAbsolute = p.isAbsolute := by
  induction qs generalizing p with
  | nil => rfl
  | cons q qs ih =>
    obtain ⟨hq, hqs⟩ := List.forall_mem_cons.1 hqs
    exact (ih (text_join_ne_empty p hq) hqs).trans (isAbsolute_join hp hq)

/-- A plain name that is joined to one is the next piece. -/
theorem pieces_join_of_last {last : String} (hlast : p.pieces.getLast? = some last)
    (hname : last ≠ "") (hq : IsPlain q) : (p.join q).pieces = p.pieces ++ [q] := by
  rcases text_join p hq with ⟨_, hempty | hslash⟩ | ⟨htext, _, _⟩
  · -- An empty text has one piece, the empty one.
    unfold pieces at hlast
    rw [hempty] at hlast
    exact absurd (Option.some.inj hlast).symm hname
  · -- Behind a slash at the end stands an empty piece.
    obtain ⟨xs, hxs⟩ : ∃ xs, p.text.toList = xs ++ ['/'] := List.getLast?_eq_some_iff.1 hslash
    rw [pieces_of_text hxs] at hlast
    simp only [splitSlash, List.map_cons, List.map_nil, List.getLast?_concat] at hlast
    exact absurd (Option.some.inj hlast).symm hname
  · have hjoined : (p.join q).text.toList = p.text.toList ++ '/' :: q.toList := by
      rw [htext, String.toList_append, String.toList_append, List.append_assoc]
      rfl
    rw [pieces_of_text hjoined, hq.pieces]
    rfl

/-- The last piece is the name that was joined. -/
theorem getLast?_pieces_join (p : Path) (hq : IsPlain q) : (p.join q).pieces.getLast? = some q := by
  rcases text_join p hq with ⟨htext, hempty | hslash⟩ | ⟨htext, _, _⟩
  · unfold pieces
    rw [htext, hempty, String.empty_append, hq.pieces]
    rfl
  · obtain ⟨xs, hxs⟩ : ∃ xs, p.text.toList = xs ++ ['/'] := List.getLast?_eq_some_iff.1 hslash
    have hjoined : (p.join q).text.toList = xs ++ '/' :: q.toList := by
      rw [htext, String.toList_append, hxs, List.append_assoc]
      rfl
    rw [pieces_of_text hjoined, hq.pieces, List.getLast?_concat]
  · have hjoined : (p.join q).text.toList = p.text.toList ++ '/' :: q.toList := by
      rw [htext, String.toList_append, String.toList_append, List.append_assoc]
      rfl
    rw [pieces_of_text hjoined, hq.pieces, List.getLast?_concat]

/-- Behind a name the pieces go on by the names that are joined. -/
theorem pieces_prefix_joinAll {last : String} (hlast : p.pieces.getLast? = some last)
    (hname : last ≠ "") {qs : List String} (hqs : ∀ q ∈ qs, IsPlain q) :
    p.pieces <+: (p.joinAll qs).pieces := by
  induction qs generalizing p last with
  | nil => exact List.prefix_rfl
  | cons q qs ih =>
    obtain ⟨hq, hqs⟩ := List.forall_mem_cons.1 hqs
    have hrest := ih (getLast?_pieces_join p hq) hq.ne_empty hqs
    rw [pieces_join_of_last hlast hname hq] at hrest
    exact (List.prefix_append _ _).trans hrest

/-- Of two beginnings of a path that end in a name, the parts tell which is which. -/
theorem eq_of_parts_eq {a b : Path} {m n : String} (hab : a.pieces <+: b.pieces)
    (ha : a.pieces.getLast? = some m) (hb : b.pieces.getLast? = some n) (hn : n ≠ "")
    (hparts : a.parts = b.parts) : a = b := by
  obtain ⟨rest, hrest⟩ := hab
  -- What the longer path has more is left out of its parts, so it would end in an empty piece.
  have hempty : rest = [] := by
    by_contra hne
    unfold parts at hparts
    rw [← hrest, List.filter_append, List.self_eq_append_right, List.filter_eq_nil_iff] at hparts
    rw [← hrest, List.getLast?_append_of_ne_nil _ hne] at hb
    exact hparts n (List.mem_of_getLast? hb) (by simpa using hn)
  have hpieces : a.pieces = b.pieces := by
    rw [← hrest, hempty, List.append_nil]
  have htext : a.text = b.text := by
    rw [← intercalate_pieces a, ← intercalate_pieces b, hpieces]
  cases a
  cases b
  exact congrArg Path.mk htext

/-- The directory above joined names that ends after some of them is the path of those. -/
theorem eq_joinAll_of_mem_ancestors {a : Path} {qs rs : List String} (hqs : qs ≠ [])
    (hplain : ∀ q ∈ qs ++ rs, IsPlain q) (ha : a ∈ (p.joinAll (qs ++ rs)).ancestors)
    (hparts : a.parts = p.parts ++ qs) : a = p.joinAll qs := by
  have hqplain : ∀ q ∈ qs, IsPlain q := fun q hq => hplain q (List.mem_append_left _ hq)
  rcases pieces_of_mem_ancestors ha with rfl | ⟨last, hpieces, hlast, hname⟩
  · rw [parts_joinAll p hplain, ← List.append_assoc] at hparts
    rw [List.append_right_eq_self.1 hparts, List.append_nil]
  · obtain ⟨front, final, rfl⟩ : ∃ front final, qs = front ++ [final] :=
      (List.eq_nil_or_concat' qs).resolve_left hqs
    have hfinal : IsPlain final := hqplain final (by simp)
    have hend : (p.joinAll (front ++ [final])).pieces.getLast? = some final := by
      unfold joinAll
      rw [List.foldl_append]
      exact getLast?_pieces_join _ hfinal
    have hprefix : (p.joinAll (front ++ [final])).pieces <+:
        (p.joinAll (front ++ [final] ++ rs)).pieces := by
      have happend : p.joinAll (front ++ [final] ++ rs) =
          (p.joinAll (front ++ [final])).joinAll rs := List.foldl_append
      rw [happend]
      exact pieces_prefix_joinAll hend hfinal.ne_empty
        fun q hq => hplain q (List.mem_append_right _ hq)
    have heq : a.parts = (p.joinAll (front ++ [final])).parts :=
      hparts.trans (parts_joinAll p hqplain).symm
    -- Both are beginnings of one path that end in a name and have the same parts.
    rcases List.prefix_or_prefix_of_prefix hpieces hprefix with h | h
    · exact eq_of_parts_eq h hlast hend hfinal.ne_empty heq
    · exact (eq_of_parts_eq h hend hlast hname heq.symm).symm

end Path

/-! ## Trees -/

namespace FileTree

theorem find?_of_ne (t : FileTree) {l : Location} (hl : l ≠ []) : t.find? l = t.nodes.get? l :=
  if_neg hl

/-- What is put stands there, and all else is as before. Nothing is put at the root. -/
theorem find?_put (t : FileTree) {l : Location} (hl : l ≠ []) (n : FileNode) (m : Location) :
    (t.put l n).find? m = if m = l then some n else t.find? m := by
  unfold put find?
  rw [SortedMap.get?_insert]
  by_cases hm : m = []
  · subst hm
    rw [if_pos rfl, if_pos rfl, if_neg (fun h => hl h.symm)]
  · rw [if_neg hm, if_neg hm]

/-- What is erased is gone, and all else is as before. -/
theorem find?_erase (t : FileTree) {l : Location} (hl : l ≠ []) (m : Location) :
    (t.erase l).find? m = if m = l then none else t.find? m := by
  unfold erase find?
  rw [SortedMap.get?_erase]
  by_cases hm : m = []
  · subst hm
    rw [if_pos rfl, if_pos rfl, if_neg (fun h => hl h.symm)]
  · rw [if_neg hm, if_neg hm]

/-- The names in a directory are those of the nodes right below it. -/
theorem mem_children_iff (t : FileTree) (l : Location) (name : String) :
    name ∈ t.children l ↔ (t.find? (l ++ [name])).isSome = true := by
  rw [t.find?_of_ne (by simp), Option.isSome_iff_exists, ← SortedMap.mem_keys_iff]
  unfold children
  rw [List.mem_filterMap]
  constructor
  · rintro ⟨k, hk, heq⟩
    split at heq
    · -- A location right below is the directory with one name behind it.
      rename_i hl
      obtain ⟨front, rfl⟩ := List.getLast?_eq_some_iff.1 heq
      rw [List.dropLast_concat] at hl
      subst hl
      exact hk
    · cases heq
  · intro hk
    exact ⟨_, hk, by simp⟩

/-- All directories stay. -/
def Grows (t t' : FileTree) : Prop :=
  ∀ l, t.find? l = some .directory → t'.find? l = some .directory

end FileTree

/-! ## Walks -/

namespace Disk

open DurableState.Path (IsPlain)

variable {t t' : FileTree} {l m : Location} {d d' : Disk} {p : Path} {q : String}

/-- A walk goes on where its first part ends. -/
theorem walk_append (t : FileTree) (l : Location) (ps qs : List String) :
    walk t l (ps ++ qs) = (walk t l ps).bind fun m => walk t m qs := by
  induction ps generalizing l with
  | nil => rfl
  | cons p ps ih =>
    rw [List.cons_append, walk, walk]
    cases step t l p with
    | error e => rfl
    | ok m => exact ih m

/-- A part of a way starts in a directory. -/
theorem directory_of_step {part : String} (h : step t l part = .ok m) :
    t.find? l = some .directory := by
  unfold step at h
  cases hl : t.find? l with
  | none => simp [hl] at h
  | some n =>
    cases n with
    | file content => simp [hl] at h
    | directory => rfl

/-- A plain name leads one level down. -/
theorem step_eq_of_plain (hq : IsPlain q) (h : step t l q = .ok m) : m = l ++ [q] := by
  have hl := directory_of_step h
  unfold step at h
  rw [hl] at h
  simp only [hq.ne_here, hq.ne_up, ↓reduceIte] at h
  split at h
  · cases h
  · exact (Except.ok.inj h).symm

/-- Plain names lead down, one level each. -/
theorem walk_eq_of_plain {qs : List String} (hqs : ∀ q ∈ qs, IsPlain q)
    (h : walk t l qs = .ok m) : m = l ++ qs := by
  induction qs generalizing l with
  | nil =>
    rw [List.append_nil]
    exact (Except.ok.inj h).symm
  | cons q qs ih =>
    obtain ⟨hq, hqs⟩ := List.forall_mem_cons.1 hqs
    rw [walk] at h
    cases hstep : step t l q with
    | error e => simp [hstep] at h
    | ok k =>
      rw [hstep] at h
      rw [ih hqs h, step_eq_of_plain hq hstep, List.append_assoc, List.singleton_append]

/-- A walk that was possible stays possible while directories stay. -/
theorem walk_mono (hgrows : t.Grows t') {ps : List String} (h : walk t l ps = .ok m) :
    walk t' l ps = .ok m := by
  induction ps generalizing l with
  | nil => exact h
  | cons p ps ih =>
    rw [walk] at h ⊢
    cases hstep : step t l p with
    | error e => simp [hstep] at h
    | ok k =>
      have hl := directory_of_step hstep
      -- A step looks only at whether it starts in a directory.
      have hsame : step t' l p = step t l p := by
        unfold step
        rw [hl, hgrows l hl]
      rw [hstep] at h
      rw [hsame, hstep]
      exact ih h

/-- A walk that goes on is in a directory. -/
theorem directory_of_walk_cons {ps qs : List String} (h : walk t l (ps ++ q :: qs) = .ok m) :
    ∃ k, walk t l ps = .ok k ∧ t.find? k = some .directory ∧ walk t k (q :: qs) = .ok m := by
  rw [walk_append] at h
  cases hk : walk t l ps with
  | error e => simp [hk, Except.bind] at h
  | ok k =>
    rw [hk] at h
    have h : walk t k (q :: qs) = .ok m := h
    refine ⟨k, rfl, ?_, h⟩
    rw [walk] at h
    cases hstep : step t k q with
    | error e => simp [hstep] at h
    | ok _ => exact directory_of_step hstep

/-- A walk that goes on, or that ends in a directory, is in a directory on its way. -/
theorem directory_of_walk {ps qs : List String} (h : walk t l (ps ++ qs) = .ok m)
    (hm : t.find? m = some .directory) :
    ∃ k, walk t l ps = .ok k ∧ t.find? k = some .directory ∧ walk t k qs = .ok m := by
  cases qs with
  | nil =>
    rw [List.append_nil] at h
    exact ⟨m, h, hm, rfl⟩
  | cons q qs => exact directory_of_walk_cons h

/-! ## Paths on a disk -/

/-- Where the way of a path starts. -/
def start (d : Disk) (p : Path) : Location := if p.isAbsolute then [] else d.workingDirectory

/-- A path that a disk takes leads along its parts. -/
theorem locate_eq_walk (hnul : '\x00' ∉ p.text.toList) (hempty : p.text ≠ "")
    (hsize : p.text.utf8ByteSize < pathSizeBound) :
    d.locate p = walk d.tree (d.start p) p.parts := by
  have hnul : ¬ p.text.toList.contains '\x00' = true := by simpa using hnul
  have hsize : ¬ p.text.utf8ByteSize ≥ pathSizeBound := by omega
  unfold locate start
  rw [if_neg hnul, if_neg hempty, if_neg hsize]

/-- A path is located if a disk takes it and its parts can be walked. -/
theorem locate_eq_ok_iff : d.locate p = .ok l ↔ ('\x00' ∉ p.text.toList ∧ p.text ≠ "" ∧
    p.text.utf8ByteSize < pathSizeBound) ∧ walk d.tree (d.start p) p.parts = .ok l := by
  constructor
  · intro h
    have hvalid : '\x00' ∉ p.text.toList ∧ p.text ≠ "" ∧ p.text.utf8ByteSize < pathSizeBound := by
      unfold locate at h
      split at h
      next => cases h
      next hnul =>
        split at h
        next => cases h
        next hempty =>
          split at h
          next => cases h
          next hsize => exact ⟨by simpa using hnul, hempty, by omega⟩
    exact ⟨hvalid, by rw [← locate_eq_walk hvalid.1 hvalid.2.1 hvalid.2.2, h]⟩
  · rintro ⟨⟨hnul, hempty, hsize⟩, hwalk⟩
    rw [locate_eq_walk hnul hempty hsize, hwalk]

/-- A path that is located stays so while directories stay. -/
theorem locate_mono (hdir : d'.workingDirectory = d.workingDirectory)
    (hgrows : d.tree.Grows d'.tree) (h : d.locate p = .ok l) : d'.locate p = .ok l := by
  obtain ⟨hp, hwalk⟩ := locate_eq_ok_iff.1 h
  refine locate_eq_ok_iff.2 ⟨hp, ?_⟩
  unfold start at hwalk ⊢
  rw [hdir]
  exact walk_mono hgrows hwalk

/-- A path that is located has its directory in front of its last name. -/
theorem locate_of_join (hp : p.text ≠ "") (hq : IsPlain q) (h : d.locate (p.join q) = .ok l) :
    ∃ m, d.locate p = .ok m ∧ d.tree.find? m = some .directory ∧ l = m ++ [q] := by
  obtain ⟨⟨hnul, _, hsize⟩, hwalk⟩ := locate_eq_ok_iff.1 h
  have hstart : d.start (p.join q) = d.start p := by
    unfold start
    rw [Path.isAbsolute_join hp hq]
  rw [hstart, Path.parts_join p hq] at hwalk
  obtain ⟨m, hm, hdir, hlast⟩ := directory_of_walk_cons hwalk
  refine ⟨m, locate_eq_ok_iff.2 ⟨⟨?_, hp, ?_⟩, hm⟩, hdir, walk_eq_of_plain (by simpa) hlast⟩
  · exact fun hmem => hnul ((Path.prefix_text_join p hq).subset hmem)
  · exact Nat.lt_of_le_of_lt (Path.size_le_size_join p hq) hsize

/-- What is found stands where the path leads. -/
theorem of_find {n : FileNode} (h : d.find p = .ok (l, n)) :
    d.locate p = .ok l ∧ d.tree.find? l = some n := by
  unfold find at h
  cases hl : d.locate p with
  | error e => simp [hl] at h
  | ok k =>
    simp only [hl] at h
    split at h
    · -- A file is not found by a path that names a directory.
      rename_i content hnode
      split at h
      · cases h
      · obtain ⟨rfl, rfl⟩ := Prod.mk.inj (Except.ok.inj h)
        exact ⟨rfl, hnode⟩
    · rename_i hnode
      obtain ⟨rfl, rfl⟩ := Prod.mk.inj (Except.ok.inj h)
      exact ⟨rfl, hnode⟩
    · cases h

/-- A name in a directory leads to what stands under it. -/
theorem locate_join_eq (hfind : d.find p = .ok (l, .directory)) (hq : IsPlain q)
    (hm : d.locate (p.join q) = .ok m) : m = l ++ [q] := by
  obtain ⟨hl, _⟩ := of_find hfind
  have hp : p.text ≠ "" := (locate_eq_ok_iff.1 hl).1.2.1
  obtain ⟨l', hl', _, rfl⟩ := locate_of_join hp hq hm
  obtain rfl : l = l' := Except.ok.inj (hl.symm.trans hl')
  rfl

theorem find_directory (hl : d.locate p = .ok l) (hnode : d.tree.find? l = some .directory) :
    d.find p = .ok (l, .directory) := by
  unfold find
  simp only [hl, hnode]

theorem find_file (hl : d.locate p = .ok l) (hp : p.namesDirectory = false)
    {content : List UInt8} (hnode : d.tree.find? l = some (.file content)) :
    d.find p = .ok (l, .file content) := by
  unfold find
  simp only [hl, hnode, hp, Bool.false_eq_true, ↓reduceIte]

theorem find_missing (hl : d.locate p = .ok l) (hnode : d.tree.find? l = none) :
    d.find p = .error .notFound := by
  unfold find
  simp only [hl, hnode]

/-- A directory is there already, or it is made where there was nothing. -/
theorem ensureDirectory_cases (h : d.ensureDirectory p = .ok d') :
    d' = d ∨ ∃ l, d.locate p = .ok l ∧ d.tree.find? l = none ∧ d' = d.take (.makeDirectory l) := by
  unfold ensureDirectory makeDirectory at h
  cases hl : d.locate p with
  | error e =>
    -- The path leads nowhere, so nothing is made.
    simp only [hl] at h
    split at h
    · exact .inl (Except.ok.inj h).symm
    · cases h
  | ok l =>
    cases hnode : d.tree.find? l with
    | none =>
      simp only [hl, hnode] at h
      exact .inr ⟨l, rfl, hnode, (Except.ok.inj h).symm⟩
    | some n =>
      simp only [hl, hnode] at h
      split at h
      · exact .inl (Except.ok.inj h).symm
      · cases h

/-- What is kept by making each of some directories is kept by making all of them. -/
theorem ensureDirectories_induction {motive : Disk → Prop} {ps : List Path}
    (hstep : ∀ p ∈ ps, ∀ d d', motive d → d.ensureDirectory p = .ok d' → motive d')
    (h : motive d) : motive (d.ensureDirectories ps).2 := by
  induction ps generalizing d with
  | nil => exact h
  | cons p ps ih =>
    obtain ⟨hp, hps⟩ := List.forall_mem_cons.1 hstep
    unfold ensureDirectories
    cases hd : d.ensureDirectory p with
    | error e => exact h
    | ok d' => exact ih hps (hp d d' h hd)

/-- What holds of a disk and is kept by making any of the directories above a path holds when they
are made. -/
theorem makeDirectories_induction {motive : Disk → Prop}
    (hstep : ∀ a ∈ p.ancestors, ∀ d d', motive d → d.ensureDirectory a = .ok d' → motive d')
    (h : motive d) : motive (d.makeDirectories p).2 := by
  -- The recursion collects the missing directories on its way up, and makes them on its way down.
  suffices hgoal : ∀ above missing : List Path, (∀ a ∈ missing ++ above, a ∈ p.ancestors) →
      motive (d.makeMissing missing above).2 from hgoal p.ancestors [] (fun _ ha => ha)
  intro above
  induction above with
  | nil =>
    intro missing hall
    refine ensureDirectories_induction (fun a ha => hstep a (hall a ?_)) h
    exact List.mem_append_left _ ha
  | cons a above ih =>
    intro missing hall
    unfold makeMissing
    cases hd : d.ensureDirectory a with
    | ok d' =>
      refine ensureDirectories_induction (fun b hb => hstep b (hall b ?_)) ?_
      · exact List.mem_append_left _ hb
      · exact hstep a (hall a (by simp)) d d' h hd
    | error e =>
      -- The directory cannot be made yet if the one above it is missing.
      dsimp only
      split
      · refine ih (a :: missing) fun b hb => hall b ?_
        simp only [List.cons_append, List.mem_cons, List.mem_append] at hb ⊢
        tauto
      · exact h

/-! ## Steps -/

theorem takeAll_append (d : Disk) (xs ys : List DiskStep) :
    d.takeAll (xs ++ ys) = (d.takeAll xs).takeAll ys :=
  List.foldl_append

/-- Steps are recorded, the newest first. -/
theorem history_takeAll (d : Disk) (steps : List DiskStep) :
    (d.takeAll steps).history = steps.reverse ++ d.history := by
  induction steps generalizing d with
  | nil => rfl
  | cons step steps ih =>
    calc ((d.take step).takeAll steps).history
      _ = steps.reverse ++ (d.take step).history := ih _
      _ = (step :: steps).reverse ++ d.history := by simp [take]

/-- The steps that were taken are told apart from those before them. -/
theorem stepsTo_takeAll (d : Disk) (steps : List DiskStep) :
    d.stepsTo (d.takeAll steps) = steps := by
  unfold stepsTo
  rw [history_takeAll]
  simp

end Disk

end DurableState
