import DurableState.Proofs.Documents

/-!
# DurableState.Proofs.Room — spare room changes nothing

A decoder is told how many more levels it may enter. What it reads with some room it also reads with
any other in which its tree fits: it is *steady* (`Decoder.IsSteady`). Each combinator keeps that,
so it holds of every type that is persisted (`LawfulDocument`).

What follows is what a payload needs to be read back from a file: it is decoded from its own text,
and leaves one level for the envelope (`restorable_of_ofText?`). Without that level it can be lost:
arrays inside of each other are read up to the last level that there is room for, and not beyond it
(`Decoder.json_nested`).
-/

namespace DurableState

/-! ## The depth of trees -/

namespace Json

/-- The number of nested arrays and objects. -/
def Tree.depth : Tree → Nat
  | .null | .bool _ | .num _ | .str _ => 0
  | .arr items => itemsDepth items + 1
  | .obj fields => fieldsDepth fields + 1
where
  itemsDepth : List Tree → Nat
    | [] => 0
    | t :: rest => max (depth t) (itemsDepth rest)
  fieldsDepth : List (Option String × Tree) → Nat
    | [] => 0
    | (_, t) :: rest => max (depth t) (fieldsDepth rest)

namespace Tree

/-- Items are as deep as the deepest of them. -/
theorem itemsDepth_le_iff {items : List Tree} {n : Nat} :
    depth.itemsDepth items ≤ n ↔ ∀ t ∈ items, t.depth ≤ n := by
  induction items with
  | nil => simp [depth.itemsDepth]
  | cons t rest ih => rw [depth.itemsDepth, Nat.max_le, ih, List.forall_mem_cons]

/-- So are fields. -/
theorem fieldsDepth_le_iff {fields : List (Option String × Tree)} {n : Nat} :
    depth.fieldsDepth fields ≤ n ↔ ∀ f ∈ fields, f.2.depth ≤ n := by
  induction fields with
  | nil => simp [depth.fieldsDepth]
  | cons f rest ih => rw [depth.fieldsDepth, Nat.max_le, ih, List.forall_mem_cons]

/-- What is inside an array has one level less. -/
theorem exists_of_depth_arr_le {items : List Tree} {room : Nat}
    (h : (Tree.arr items).depth ≤ room) : ∃ r, room = r + 1 ∧ ∀ t ∈ items, t.depth ≤ r := by
  rw [depth] at h
  exact ⟨room - 1, by omega, itemsDepth_le_iff.1 (by omega)⟩

/-- What is inside an object has one level less. -/
theorem exists_of_depth_obj_le {fields : List (Option String × Tree)} {room : Nat}
    (h : (Tree.obj fields).depth ≤ room) : ∃ r, room = r + 1 ∧ ∀ f ∈ fields, f.2.depth ≤ r := by
  rw [depth] at h
  exact ⟨room - 1, by omega, fieldsDepth_le_iff.1 (by omega)⟩

end Tree

mutual

/-- The text of a value nests as deep as the value. -/
theorem depth_tree : ∀ j : Json, j.tree.depth = j.depth
  | .null | .bool _ | .num _ | .str _ => rfl
  | .arr items => congrArg (· + 1) (itemsDepth_tree items)
  | .obj fields => congrArg (· + 1) (fieldsDepth_tree fields)

theorem itemsDepth_tree : ∀ items : List Json,
    Tree.depth.itemsDepth (treeItems items) = depth.itemsDepth items
  | [] => rfl
  | j :: rest => by
    rw [treeItems, Tree.depth.itemsDepth, depth.itemsDepth, depth_tree j, itemsDepth_tree rest]

theorem fieldsDepth_tree : ∀ fields : List (String × Json),
    Tree.depth.fieldsDepth (treeFields fields) = depth.fieldsDepth fields
  | [] => rfl
  | (k, j) :: rest => by
    rw [treeFields, Tree.depth.fieldsDepth, depth.fieldsDepth, depth_tree j, fieldsDepth_tree rest]

end

end Json

/-! ## Steady decoders -/

namespace Decoder

variable {α β : Type}

/-- What is read with some room is read wherever there is room for the tree. -/
def IsSteady (d : Decoder α) : Prop :=
  ∀ ⦃room t a⦄, d room t = some a → ∀ ⦃room'⦄, t.depth ≤ room' → d room' t = some a

/-- What does not look at the room is steady. -/
theorem isSteady_of_eq {d : Decoder α} (h : ∀ room room' t, d room t = d room' t) : d.IsSteady :=
  fun _ _ _ hread _ _ => (h _ _ _).trans hread

/-- Strings do not nest. -/
theorem isSteady_string : string.IsSteady := isSteady_of_eq fun _ _ t => by cases t <;> rfl

theorem isSteady_bool : bool.IsSteady := isSteady_of_eq fun _ _ t => by cases t <;> rfl

/-- Neither do numbers. -/
theorem isSteady_int : int.IsSteady := isSteady_of_eq fun _ _ t => by cases t <;> rfl

/-- What is steady may be checked, and turned into something else, behind its reading. -/
theorem IsSteady.bind {d : Decoder α} (hd : d.IsSteady) (f : α → Option β) :
    IsSteady fun room t => (d room t).bind f := by
  intro room t b hread room' hdepth
  obtain ⟨a, ha, hb⟩ := Option.bind_eq_some_iff.1 hread
  exact Option.bind_eq_some_iff.2 ⟨a, hd ha hdepth, hb⟩

theorem isSteady_natBelow (bound : Nat) : (natBelow bound).IsSteady := isSteady_int.bind _

/-- Words are numbers below a bound. -/
theorem isSteady_ofNatBelow (bound : Nat) (f : Nat → α) :
    IsSteady fun room t => (natBelow bound room t).map f := by
  intro room t a hread room' hdepth
  obtain ⟨n, hn, rfl⟩ := Option.map_eq_some_iff.1 hread
  exact Option.map_eq_some_iff.2 ⟨n, isSteady_natBelow bound hn hdepth, rfl⟩

theorem isSteady_word64 : word64.IsSteady := isSteady_ofNatBelow _ _

theorem isSteady_word32 : word32.IsSteady := isSteady_ofNatBelow _ _

theorem isSteady_int32 : int32.IsSteady := isSteady_int.bind _

/-! ## Arrays and maps -/

/-- An array is read alike if its items are. -/
theorem IsSteady.list {d : Decoder α} (hd : d.IsSteady) : (list d).IsSteady := by
  intro room t xs hread room' hdepth
  cases t with
  | arr items =>
    -- The array takes one level in both, and each item is read with what is left.
    obtain ⟨r', rfl, hitems⟩ := Json.Tree.exists_of_depth_arr_le hdepth
    cases room with
    | zero => cases hread
    | succ r => exact mapM_eq_some_mono hread fun t ht x hx => hd hx (hitems t ht)
  | null | bool _ | num _ | str _ | obj _ => cases room <;> cases hread

/-- A map is read alike if its values are. -/
theorem IsSteady.map {d : Decoder α} (hd : d.IsSteady) : (map d).IsSteady := by
  intro room t m hread room' hdepth
  cases t with
  | obj fields =>
    obtain ⟨r', rfl, hfields⟩ := Json.Tree.exists_of_depth_obj_le hdepth
    cases room with
    | zero => cases hread
    | succ r =>
      obtain ⟨entries, hentries, rfl⟩ := Option.map_eq_some_iff.1 hread
      refine Option.map_eq_some_iff.2 ⟨entries, mapM_eq_some_mono hentries ?_, rfl⟩
      -- Keys do not nest, so only the values of the entries matter.
      rintro ⟨key, t⟩ ht e he
      unfold entry at he ⊢
      simp only [Option.bind_eq_bind, Option.bind_eq_some_iff, Option.pure_def] at he ⊢
      obtain ⟨k, hk, x, hx, he⟩ := he
      exact ⟨k, hk, x, hd hx (hfields _ ht), he⟩
  | null | bool _ | num _ | str _ | arr _ => cases room <;> cases hread

/-! ## Free values -/

mutual

/-- Free values are read alike, by their nesting. -/
theorem json_steady : ∀ (t : Json.Tree) {room room' : Nat} {j : Json}, json room t = some j →
    t.depth ≤ room' → json room' t = some j
  | .null, _, _, _, h, _ => by simpa [json] using h
  | .bool _, _, _, _, h, _ => by simpa [json] using h
  | .num _, _, _, _, h, _ => by simpa [json] using h
  | .str _, _, _, _, h, _ => by simpa [json] using h
  | .arr items, room, room', j, h, hdepth => by
    -- There was room for one level at least, and there is now.
    obtain ⟨r', rfl, hitems⟩ := Json.Tree.exists_of_depth_arr_le hdepth
    cases room with
    | zero => cases h
    | succ r =>
      rw [json] at h ⊢
      obtain ⟨js, hjs, rfl⟩ := Option.map_eq_some_iff.1 h
      rw [jsonItems_steady items hjs hitems]
      rfl
  | .obj fields, room, room', j, h, hdepth => by
    obtain ⟨r', rfl, hfields⟩ := Json.Tree.exists_of_depth_obj_le hdepth
    cases room with
    | zero => cases h
    | succ r =>
      rw [json] at h ⊢
      obtain ⟨fs, hfs, rfl⟩ := Option.map_eq_some_iff.1 h
      rw [jsonFields_steady fields hfs hfields]
      rfl

theorem jsonItems_steady : ∀ (items : List Json.Tree) {room room' : Nat} {js : List Json},
    jsonItems room items = some js → (∀ t ∈ items, t.depth ≤ room') →
    jsonItems room' items = some js
  | [], _, _, _, h, _ => by simpa [jsonItems] using h
  | t :: rest, room, room', js, h, hdepth => by
    obtain ⟨ht, hrest⟩ := List.forall_mem_cons.1 hdepth
    rw [jsonItems] at h ⊢
    simp only [Option.bind_eq_bind, Option.bind_eq_some_iff, Option.pure_def] at h ⊢
    obtain ⟨j, hj, js', hjs', h⟩ := h
    exact ⟨j, json_steady t hj ht, js', jsonItems_steady rest hjs' hrest, h⟩

theorem jsonFields_steady : ∀ (fields : List (Option String × Json.Tree)) {room room' : Nat}
    {fs : List (String × Json)}, jsonFields room fields = some fs →
    (∀ f ∈ fields, f.2.depth ≤ room') → jsonFields room' fields = some fs
  | [], _, _, _, h, _ => by simpa [jsonFields] using h
  | (k, t) :: rest, room, room', fs, h, hdepth => by
    obtain ⟨ht, hrest⟩ := List.forall_mem_cons.1 hdepth
    rw [jsonFields] at h ⊢
    simp only [Option.bind_eq_bind, Option.bind_eq_some_iff, Option.pure_def] at h ⊢
    obtain ⟨k', hk, j, hj, fs', hfs', h⟩ := h
    exact ⟨k', hk, j, json_steady t hj ht, fs', jsonFields_steady rest hfs' hrest, h⟩

end

/-- Free values are steady too. -/
theorem isSteady_json : IsSteady json := fun _ t _ h _ hdepth => json_steady t h hdepth

/-! ## Records -/

/-- What is put together from fields does not depend on spare room for them either. -/
def Fields.IsSteady (build : Fields → Option α) : Prop :=
  ∀ ⦃f a⦄, build f = some a → ∀ ⦃room⦄, (∀ v ∈ f.values, v.2.depth ≤ room) →
    build ⟨room, f.values⟩ = some a

/-- What looks at no field is steady. -/
theorem Fields.isSteady_pure (a : α) : Fields.IsSteady fun _ => pure a := fun _ _ h _ _ => h

/-- Fields that are read one after the other are read alike if each is. -/
theorem Fields.IsSteady.bind {p : Fields → Option α} {q : α → Fields → Option β}
    (hp : Fields.IsSteady p) (hq : ∀ a, Fields.IsSteady (q a)) :
    Fields.IsSteady fun f => p f >>= fun a => q a f := by
  intro f b h room hdepth
  obtain ⟨a, ha, hb⟩ := Option.bind_eq_some_iff.1 h
  exact Option.bind_eq_some_iff.2 ⟨a, hp ha hdepth, hq a hb hdepth⟩

/-- A field is read alike if its decoder does so. -/
theorem IsSteady.required {d : Decoder α} (hd : d.IsSteady) (name : String) :
    Fields.IsSteady fun f => f.required name d := by
  intro f a h room hdepth
  obtain ⟨t, ht, ha⟩ := Option.bind_eq_some_iff.1 h
  exact Option.bind_eq_some_iff.2 ⟨t, ht, hd ha (hdepth _ (mem_of_lookup_eq_some ht))⟩

/-- So is a field that may be left out. -/
theorem IsSteady.optional {d : Decoder α} (hd : d.IsSteady) (name : String) (missing : α) :
    Fields.IsSteady fun f => f.optional name d missing := by
  intro f a h room hdepth
  dsimp only [Fields.optional] at h ⊢
  cases ht : f.values.lookup name with
  | none =>
    -- Without the field its default is taken, whatever the room.
    rw [ht] at h
    exact h
  | some t =>
    rw [ht] at h
    exact hd h (hdepth _ (mem_of_lookup_eq_some ht))

/-- The known fields are among those of the object. -/
theorem mem_of_knownFields {names : List String} {fs : List (Option String × Json.Tree)}
    {known : List (String × Json.Tree)} (h : knownFields names fs = some known)
    {v : String × Json.Tree} (hv : v ∈ known) : ∃ key, (key, v.2) ∈ fs := by
  -- Fields are given their names first, and those that are not known are left out then.
  obtain ⟨named, hnamed, hrest⟩ := Option.bind_eq_some_iff.1 h
  obtain ⟨_, heq⟩ := Option.ite_none_right_eq_some.1 hrest
  obtain rfl := Option.some.inj heq
  obtain ⟨f, hf, hfv⟩ := exists_of_mapM_eq_some hnamed (List.mem_of_mem_filter hv)
  obtain ⟨k, _, rfl⟩ := Option.map_eq_some_iff.1 hfv
  exact ⟨f.1, hf⟩

/-- The fields that are found are those of the tree, with one level less for each of them. -/
theorem fields_steady {names : List String} {room room' : Nat} {t : Json.Tree} {f : Fields}
    (h : fields names room t = some f) (hdepth : t.depth ≤ room') :
    ∃ r, fields names room' t = some ⟨r, f.values⟩ ∧ ∀ v ∈ f.values, v.2.depth ≤ r := by
  cases t with
  | obj fs =>
    -- The object takes one level, whichever of its fields are known.
    obtain ⟨r, rfl, hfields⟩ := Json.Tree.exists_of_depth_obj_le hdepth
    cases room with
    | zero => cases h
    | succ _ =>
      obtain ⟨known, hknown, rfl⟩ := Option.map_eq_some_iff.1 h
      refine ⟨r, Option.map_eq_some_iff.2 ⟨known, hknown, rfl⟩, ?_⟩
      intro v hv
      obtain ⟨key, hmem⟩ := mem_of_knownFields hknown hv
      exact hfields _ hmem
  | arr items =>
    -- A record may also be written as an array, with a value for each name.
    obtain ⟨r, rfl, hitems⟩ := Json.Tree.exists_of_depth_arr_le hdepth
    cases room with
    | zero => cases h
    | succ _ =>
      obtain ⟨hlength, heq⟩ := Option.ite_none_right_eq_some.1 h
      obtain rfl := Option.some.inj heq
      refine ⟨r, if_pos hlength, ?_⟩
      rintro ⟨name, t⟩ hv
      exact hitems t (List.of_mem_zip hv).2
  | null | bool _ | num _ | str _ => cases room <;> cases h

/-- A record is read alike if it is put together from fields that are. -/
theorem isSteady_record {names : List String} {build : Fields → Option α}
    (h : Fields.IsSteady build) : IsSteady fun room t => (fields names room t).bind build := by
  intro room t a hread room' hdepth
  obtain ⟨f, hf, ha⟩ := Option.bind_eq_some_iff.1 hread
  obtain ⟨r, hf', hvalues⟩ := fields_steady hf hdepth
  exact Option.bind_eq_some_iff.2 ⟨_, hf', h ha hvalues⟩

end Decoder

/-! ## Documents -/

/-- A type whose values are read alike wherever there is room for their text. -/
class LawfulDocument (α : Type) [Document α] : Prop where
  steady : Decoder.IsSteady (Document.decode : Decoder α)

open Decoder

instance : LawfulDocument Json := ⟨isSteady_json⟩

instance : LawfulDocument IndexId where
  steady := isSteady_record <| (isSteady_string.required _).bind fun _ =>
    (isSteady_string.required _).bind fun _ => Fields.isSteady_pure _

/-- A state may also be written as an object, which takes one level. -/
instance : LawfulDocument IndexState where
  steady := by
    intro room t s hread room' hdepth
    have hread : IndexState.decode room t = some s := hread
    unfold IndexState.decode at hread
    split at hread
    · exact hread
    · obtain ⟨r, rfl, _⟩ := Json.Tree.exists_of_depth_obj_le hdepth
      exact hread
    · cases hread

instance : LawfulDocument IndexMetadata where
  steady := isSteady_record <| (LawfulDocument.steady.required _).bind fun _ =>
    (isSteady_word64.required _).bind fun _ => (LawfulDocument.steady.required _).bind fun _ =>
    (isSteady_word32.optional _ _).bind fun _ => (isSteady_string.map.optional _ _).bind fun _ =>
    (isSteady_json.optional _ _).bind fun _ => Fields.isSteady_pure _

instance : LawfulDocument Coordination where
  steady := isSteady_record <| (isSteady_word64.optional _ _).bind fun _ => Fields.isSteady_pure _

instance : LawfulDocument IndexTemplate where
  steady := isSteady_record <| (isSteady_string.list.required _).bind fun _ =>
    (isSteady_int32.optional _ _).bind fun _ => (isSteady_string.map.optional _ _).bind fun _ =>
    Fields.isSteady_pure _

instance : LawfulDocument GlobalState where
  steady := isSteady_record <| (isSteady_string.required _).bind fun _ =>
    (isSteady_bool.optional _ _).bind fun _ => (isSteady_word64.required _).bind fun _ =>
    (LawfulDocument.steady.required _).bind fun _ => (isSteady_string.map.required _).bind fun _ =>
    (LawfulDocument.steady.map.required _).bind fun _ =>
    (isSteady_json.map.required _).bind fun _ => Fields.isSteady_pure _

instance : LawfulDocument Manifest.Entry where
  steady := isSteady_record <| (LawfulDocument.steady.required _).bind fun _ =>
    ((isSteady_natBelow _).required _).bind fun _ => Fields.isSteady_pure _

instance : LawfulDocument Manifest where
  steady := isSteady_record <| (LawfulDocument.steady.list.required _).bind fun _ =>
    (isSteady_word64.required _).bind fun _ => (isSteady_word64.required _).bind fun _ =>
    ((isSteady_natBelow _).required _).bind fun _ => Fields.isSteady_pure _

section

variable {α : Type} [Document α] [LawfulDocument α] {x : α}

/-- A document that is read from its own text is readable. -/
theorem readable_of_ofText? (h : Document.ofText? (Document.text x) = some x) : Readable x where
  decodes room hdepth := by
    rw [ofText?_text] at h
    exact LawfulDocument.steady h ((Json.depth_tree _).trans_le hdepth)

/-- A payload that is read from its own text is read back from a file, if it leaves a level for the
envelope. -/
theorem restorable_of_ofText? (h : Document.ofText? (Document.text x) = some x)
    (hdepth : (Document.toJson x).depth < Json.maxDepth) : Restorable x :=
  (readable_of_ofText? h).restorable hdepth

end

/-! ## Values at the last level -/

namespace Json

/-- Arrays inside of each other, around the least integer. -/
def nested : Nat → Json
  | 0 => .num (.int (-9223372036854775808))
  | levels + 1 => .arr [nested levels]

/-- There are as many levels as arrays. -/
@[simp] theorem depth_nested (levels : Nat) : (nested levels).depth = levels := by
  induction levels with
  | zero => rfl
  | succ levels ih => simp [nested, depth, depth.itemsDepth, ih]

end Json

/-- A reader enters as many levels as it has room for, and none below. -/
theorem Decoder.json_nested (room levels : Nat) :
    json room (Json.nested levels).tree =
      if levels ≤ room then some (.nested levels) else none := by
  induction levels generalizing room with
  | zero =>
    have hleast : (Numeral.ofNumber (.int (-9223372036854775808))).toNumber? =
        some (.int (-9223372036854775808)) := by decide +kernel
    simp [Json.nested, Json.tree, json, hleast]
  | succ levels ih =>
    -- Each array takes one level of the room.
    cases room with
    -- There is no room left for an array.
    | zero => rfl
    | succ room =>
      rw [Json.nested, Json.tree, Json.treeItems, Json.treeItems, json, jsonItems, ih]
      by_cases hroom : levels ≤ room
      · rw [if_pos hroom, if_pos (Nat.succ_le_succ hroom)]
        rfl
      · rw [if_neg hroom, if_neg (fun h => hroom (Nat.le_of_succ_le_succ h))]
        rfl

/-- Such a value is readable, however deep it nests. -/
theorem readable_nested (levels : Nat) : Readable (Json.nested levels) where
  decodes room hdepth := by
    refine (Decoder.json_nested room levels).trans (if_pos ?_)
    rwa [← Json.depth_nested levels]

end DurableState
