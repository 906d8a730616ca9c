import DurableState.Cluster.Metadata
import DurableState.Proofs.Clock
import DurableState.Proofs.JsonText
import DurableState.Proofs.Maps
import DurableState.StateFile.Envelope

/-!
# DurableState.Proofs.Documents — documents are read back from their own text

A document is `Readable` if it is decoded from its own tree wherever there is room for its depth.
Then it is read back from its text (`Readable.ofText?_text`). Free values are readable if they are
canonical and all their numbers are integers (`readable_json`), and what is made of readable parts
is readable again. A payload is `Restorable` if it is read back from the text of its envelope, that
is, if it is decoded from its own tree with one level less than a text may have (`restorable_iff`).
-/

namespace DurableState

/-! ## Depth and trees -/

namespace Json

theorem treeItems_eq_map (items : List Json) : treeItems items = items.map tree := by
  induction items with
  | nil => rfl
  | cons j rest ih => rw [treeItems, ih, List.map_cons]

theorem treeFields_eq_map (fields : List (String × Json)) :
    treeFields fields = fields.map fun f => (some f.1, f.2.tree) := by
  induction fields with
  | nil => rfl
  | cons f rest ih => rw [treeFields, ih, List.map_cons]

/-- Items are as deep as the deepest of them. -/
theorem itemsDepth_le_iff {items : List Json} {n : Nat} :
    depth.itemsDepth items ≤ n ↔ ∀ j ∈ items, j.depth ≤ n := by
  induction items with
  | nil => simp [depth.itemsDepth]
  | cons j rest ih => rw [depth.itemsDepth, Nat.max_le, ih, List.forall_mem_cons]

/-- Fields are as deep as the deepest of them. -/
theorem fieldsDepth_le_iff {fields : List (String × Json)} {n : Nat} :
    depth.fieldsDepth fields ≤ n ↔ ∀ f ∈ fields, f.2.depth ≤ n := by
  induction fields with
  | nil => simp [depth.fieldsDepth]
  | cons f rest ih => rw [depth.fieldsDepth, Nat.max_le, ih, List.forall_mem_cons]

theorem depth_arr_le_iff {items : List Json} {n : Nat} :
    (Json.arr items).depth ≤ n + 1 ↔ ∀ j ∈ items, j.depth ≤ n := by
  rw [depth, ← itemsDepth_le_iff]
  omega

theorem depth_obj_le_iff {fields : List (String × Json)} {n : Nat} :
    (Json.obj fields).depth ≤ n + 1 ↔ ∀ f ∈ fields, f.2.depth ≤ n := by
  rw [depth, ← fieldsDepth_le_iff]
  omega

/-- What is inside an array has one level less. -/
theorem exists_of_depth_arr_le {items : List Json} {room : Nat}
    (h : (Json.arr items).depth ≤ room) :
    ∃ r, room = r + 1 ∧ ∀ j ∈ items, j.depth ≤ r := by
  cases room with
  | zero =>
    rw [depth] at h
    omega
  | succ r => exact ⟨r, rfl, depth_arr_le_iff.1 h⟩

/-- What is inside an object has one level less. -/
theorem exists_of_depth_obj_le {fields : List (String × Json)} {room : Nat}
    (h : (Json.obj fields).depth ≤ room) :
    ∃ r, room = r + 1 ∧ ∀ f ∈ fields, f.2.depth ≤ r := by
  cases room with
  | zero =>
    rw [depth] at h
    omega
  | succ r => exact ⟨r, rfl, depth_obj_le_iff.1 h⟩

/-- Canonical fields are sorted by their names, and none comes twice. -/
theorem pairwise_of_canonicalFields {fields : List (String × Json)}
    (h : canonicalFields fields = true) :
    fields.Pairwise fun a b => compare a.1 b.1 = .lt := by
  induction fields with
  | nil => exact .nil
  | cons f rest ih =>
    obtain ⟨k, j⟩ := f
    simp only [canonicalFields, Bool.and_eq_true] at h
    obtain ⟨⟨hnext, _⟩, hrest⟩ := h
    have hsorted := ih hrest
    refine List.pairwise_cons.2 ⟨?_, hsorted⟩
    cases rest with
    | nil => simp
    | cons g rest =>
      have hlt : compare k g.1 = .lt := by simpa using hnext
      intro e he
      rcases List.mem_cons.1 he with rfl | he
      · exact hlt
      · -- Neighbours are in order, and so is whatever stands further apart.
        exact Std.TransCmp.lt_trans hlt ((List.pairwise_cons.1 hsorted).1 e he)

end Json

/-! ## Readable documents -/

/-- A document that is decoded from its own tree wherever there is room for it. -/
structure Readable {α : Type} [Document α] (x : α) : Prop where
  decodes : ∀ room, (Document.toJson x).depth ≤ room →
    Document.decode room (Document.toJson x).tree = some x

/-- The text of a document is decoded as its tree, with all the room that a text has. -/
theorem ofText?_text {α : Type} [Document α] (x : α) :
    Document.ofText? (Document.text x) =
      (Document.decode Json.maxDepth (Document.toJson x).tree : Option α) := by
  unfold Document.ofText? Document.text
  rw [Json.ofText?_compact, Option.bind_some]

/-- A readable document is read back from its text, if it nests no deeper than a text may. -/
theorem Readable.ofText?_text {α : Type} [Document α] {x : α} (h : Readable x)
    (hdepth : (Document.toJson x).depth ≤ Json.maxDepth) :
    Document.ofText? (Document.text x) = some x := by
  rw [DurableState.ofText?_text, h.decodes _ hdepth]

namespace Decoder

open Json (tree)

/-! ## Plain values -/

/-- Integers are read back from the numerals that they are printed as. -/
theorem int_tree (room : Nat) (i : Int) : int room (Json.num (.int i)).tree = some i :=
  Numeral.toInt?_ofInt i

/-- A number below the bound is read back. The bound is what the decoder checks. -/
theorem natBelow_tree {bound n : Nat} (h : n < bound) (room : Nat) :
    natBelow bound room (Json.nat n).tree = some n := by
  have hint : int room (Json.nat n).tree = some (n : Int) := int_tree room n
  unfold natBelow
  rw [hint, Option.bind_some, if_pos (by omega)]
  rfl

theorem word64_tree (room : Nat) (w : UInt64) : word64 room (Json.nat w.toNat).tree = some w := by
  unfold word64
  rw [natBelow_tree w.toNat_lt, Option.map_some, UInt64.ofNat_toNat]

theorem word32_tree (room : Nat) (w : UInt32) : word32 room (Json.nat w.toNat).tree = some w := by
  unfold word32
  rw [natBelow_tree w.toNat_lt, Option.map_some, UInt32.ofNat_toNat]

theorem int32_tree (room : Nat) (i : Int32) :
    int32 room (Json.num (.int i.toInt)).tree = some i := by
  unfold int32
  have hlow := i.le_toInt
  have hhigh := i.toInt_lt
  rw [int_tree, Option.bind_some, if_pos (by omega), Int32.ofInt_toInt]

/-! ## Arrays, maps and records -/

/-- A list is read back if its members are. -/
theorem list_tree {α : Type} {d : Decoder α} {f : α → Json} {xs : List α} {room : Nat}
    (hd : ∀ x ∈ xs, ∀ room, (f x).depth ≤ room → d room (f x).tree = some x)
    (h : (Json.arr (xs.map f)).depth ≤ room) :
    list d room (Json.arr (xs.map f)).tree = some xs := by
  obtain ⟨r, rfl, hitems⟩ := Json.exists_of_depth_arr_le h
  rw [tree, Json.treeItems_eq_map, List.map_map]
  refine mapM_map_eq_some ?_
  intro x hx
  exact hd x hx r (hitems _ (List.mem_map_of_mem hx))

/-- A map is read back if its values are. -/
theorem map_tree {α : Type} {d : Decoder α} {f : α → Json} {m : SortedMap String α} {room : Nat}
    (hd : ∀ e ∈ m.entries, ∀ room, (f e.2).depth ≤ room → d room (f e.2).tree = some e.2)
    (h : (Json.ofMap f m).depth ≤ room) : map d room (Json.ofMap f m).tree = some m := by
  obtain ⟨r, rfl, hfields⟩ := Json.exists_of_depth_obj_le h
  have hentries : ((m.mapValues f).entries.map fun e => (some e.1, e.2.tree)).mapM (entry d r) =
      some m.entries := by
    show ((m.entries.map _).map _).mapM _ = _
    rw [List.map_map]
    refine mapM_map_eq_some ?_
    intro e he
    have hdepth := hfields (e.1, f e.2) (List.mem_map_of_mem he)
    simp only [Function.comp_apply, entry, hd e he r hdepth]
    rfl
  -- The entries come in the order of their keys, so the map is built as it was.
  have hm : SortedMap.ofList m.entries = m :=
    SortedMap.ext_entries (SortedMap.entries_ofList m.sorted)
  rw [Json.ofMap, tree, Json.treeFields_eq_map]
  show Option.map SortedMap.ofList (List.mapM (entry d r) _) = some m
  rw [hentries, Option.map_some, hm]

/-- The fields of a record in the order in which they are written. -/
theorem fields_tree {names : List String} {rs : List (String × Json)}
    (hnames : rs.map Prod.fst = names) (hnodup : names.Nodup) (room : Nat) :
    fields names (room + 1) (Json.obj rs).tree =
      some ⟨room, rs.map fun r => (r.1, r.2.tree)⟩ := by
  -- Every field has a name that could be read.
  have hnamed : (rs.map fun r => (some r.1, r.2.tree)).mapM
      (fun f => f.1.map fun k => (k, f.2)) = some (rs.map fun r => (r.1, r.2.tree)) := by
    have hmap : rs.map (fun r => (some r.1, r.2.tree)) =
        (rs.map fun r => (r.1, r.2.tree)).map fun f => (some f.1, f.2) := by simp
    rw [hmap]
    exact mapM_map_eq_some fun _ _ => rfl
  -- All names are known, so no field is dropped.
  have hknown : (rs.map fun r => (r.1, r.2.tree)).filter (fun f => names.contains f.1) =
      rs.map fun r => (r.1, r.2.tree) := by
    rw [List.filter_eq_self]
    intro f hf
    obtain ⟨r, hr, rfl⟩ := List.mem_map.1 hf
    rw [← hnames]
    simpa using ⟨r.2, hr⟩
  have hkeys : ((rs.map fun r => (r.1, r.2.tree)).map (·.1)) = names := by
    rw [List.map_map, ← hnames]
    rfl
  rw [tree, Json.treeFields_eq_map]
  show (knownFields names _).map _ = _
  unfold knownFields
  rw [hnamed]
  simp only [Option.bind_eq_bind, Option.bind_some, hknown, hkeys, if_pos hnodup, Option.map_some]

namespace Fields

/-- The fields have a value under its name, and room for it. -/
structure Has (f : Fields) (name : String) (j : Json) : Prop where
  lookup : f.values.lookup name = some j.tree
  depth : j.depth ≤ f.room

variable {α : Type} {f : Fields} {name : String} {j : Json} {d : Decoder α} {a : α}

/-- A field that is there is decoded. -/
theorem Has.required (h : f.Has name j) (hd : d f.room j.tree = some a) :
    f.required name d = some a := by
  unfold Fields.required
  rw [h.lookup, Option.bind_some, hd]

theorem Has.optional (h : f.Has name j) (hd : d f.room j.tree = some a) (missing : α) :
    f.optional name d missing = some a := by
  unfold Fields.optional
  rw [h.lookup]
  exact hd

end Fields

/-! ## Free values -/

end Decoder

namespace Json

mutual

/-- Whether all numbers in a value are integers. -/
def isIntegral : Json → Bool
  | .null | .bool _ | .str _ | .num (.int _) => true
  | .num (.float _) => false
  | .arr items => integralItems items
  | .obj fields => integralFields fields

def integralItems : List Json → Bool
  | [] => true
  | j :: rest => isIntegral j && integralItems rest

def integralFields : List (String × Json) → Bool
  | [] => true
  | (_, j) :: rest => isIntegral j && integralFields rest

end

end Json

namespace Decoder

open Json (tree)

mutual

/-- Free values are read back, by their nesting: each level takes one of the room. -/
theorem json_tree : ∀ (j : Json) (room : Nat), j.isCanonical = true → j.isIntegral = true →
    j.depth ≤ room → json room j.tree = some j
  | .null, _, _, _, _ => by simp [tree, json]
  | .bool _, _, _, _, _ => by simp [tree, json]
  | .str _, _, _, _, _ => by simp [tree, json]
  | .num (.float _), _, _, h, _ => by cases h
  | .num (.int i), _, hcanonical, _, _ => by
    -- A canonical integer is one that a reader keeps as an integer.
    have hnumber : (Numeral.ofInt i).toNumber? = some (.int i) := by
      unfold Numeral.toNumber?
      rw [Numeral.toInt?_ofInt]
      exact if_pos hcanonical
    simp [tree, json, Numeral.ofNumber, hnumber]
  | .arr items, room, hcanonical, hintegral, hdepth => by
    obtain ⟨r, rfl, hitems⟩ := Json.exists_of_depth_arr_le hdepth
    rw [tree, json, jsonItems_tree items r hcanonical hintegral hitems, Option.map_some]
  | .obj fields, room, hcanonical, hintegral, hdepth => by
    -- Canonical fields are sorted, so that none of them takes the place of another.
    obtain ⟨r, rfl, hfields⟩ := Json.exists_of_depth_obj_le hdepth
    rw [tree, json, jsonFields_tree fields r hcanonical hintegral hfields, Option.map_some,
      Json.ofFields, SortedMap.entries_ofList (Json.pairwise_of_canonicalFields hcanonical)]

theorem jsonItems_tree : ∀ (items : List Json) (room : Nat), Json.canonicalItems items = true →
    Json.integralItems items = true → (∀ j ∈ items, j.depth ≤ room) →
    jsonItems room (Json.treeItems items) = some items
  | [], _, _, _, _ => by simp [Json.treeItems, jsonItems]
  | j :: rest, room, hcanonical, hintegral, hdepth => by
    simp only [Json.canonicalItems, Bool.and_eq_true] at hcanonical
    simp only [Json.integralItems, Bool.and_eq_true] at hintegral
    obtain ⟨hj, hrest⟩ := List.forall_mem_cons.1 hdepth
    rw [Json.treeItems, jsonItems, json_tree j room hcanonical.1 hintegral.1 hj,
      jsonItems_tree rest room hcanonical.2 hintegral.2 hrest]
    rfl

theorem jsonFields_tree : ∀ (fields : List (String × Json)) (room : Nat),
    Json.canonicalFields fields = true → Json.integralFields fields = true →
    (∀ f ∈ fields, f.2.depth ≤ room) → jsonFields room (Json.treeFields fields) = some fields
  | [], _, _, _, _ => by simp [Json.treeFields, jsonFields]
  | (k, j) :: rest, room, hcanonical, hintegral, hdepth => by
    simp only [Json.canonicalFields, Bool.and_eq_true] at hcanonical
    simp only [Json.integralFields, Bool.and_eq_true] at hintegral
    obtain ⟨hj, hrest⟩ := List.forall_mem_cons.1 hdepth
    rw [Json.treeFields, jsonFields, json_tree j room hcanonical.1.2 hintegral.1 hj,
      jsonFields_tree rest room hcanonical.2 hintegral.2 hrest]
    rfl

end

end Decoder

/-- A free value is readable if it is canonical and has no double. -/
theorem readable_json {j : Json} (hcanonical : j.isCanonical = true)
    (hintegral : j.isIntegral = true) : Readable j :=
  ⟨fun room hdepth => Decoder.json_tree j room hcanonical hintegral hdepth⟩

/-- A record is decoded from its own tree as it is put together from its fields, with one level less
for each of them. -/
theorem decode_record {α : Type} [Document α] {x : α} (names : List String)
    {rs : List (String × Json)} {build : Decoder.Fields → Option α}
    (hjson : Document.toJson x = .obj rs)
    (hdecode : ∀ room t, Document.decode room t = (Decoder.fields names room t).bind build)
    (hnames : rs.map Prod.fst = names) (hnodup : names.Nodup) (room : Nat) :
    ∃ f : Decoder.Fields, Document.decode (room + 1) (Document.toJson x).tree = build f ∧
      f.room = room ∧ ∀ r ∈ rs, f.values.lookup r.1 = some r.2.tree := by
  refine ⟨⟨room, rs.map fun r => (r.1, r.2.tree)⟩, ?_, rfl, ?_⟩
  · rw [hjson, hdecode, Decoder.fields_tree hnames hnodup, Option.bind_some]
  · -- No name comes twice, so each field is found under its own.
    intro r hr
    have hkeys : ((rs.map fun r => (r.1, r.2.tree)).map Prod.fst).Nodup := by
      rw [List.map_map]
      exact hnames ▸ hnodup
    exact (lookup_eq_some_iff_mem hkeys).2 (List.mem_map_of_mem hr)

/-- A record is readable if it is put together from its fields as they are decoded. -/
theorem readable_of_fields {α : Type} [Document α] {x : α} (names : List String)
    {rs : List (String × Json)} {build : Decoder.Fields → Option α}
    (hjson : Document.toJson x = .obj rs)
    (hdecode : ∀ room t, Document.decode room t = (Decoder.fields names room t).bind build)
    (hnames : rs.map Prod.fst = names) (hnodup : names.Nodup)
    (hbuild : ∀ f : Decoder.Fields, (∀ r ∈ rs, f.Has r.1 r.2) → build f = some x) :
    Readable x where
  decodes room hdepth := by
    rw [hjson] at hdepth
    obtain ⟨r, rfl, hparts⟩ := Json.exists_of_depth_obj_le hdepth
    obtain ⟨f, hf, rfl, hlookup⟩ := decode_record names hjson hdecode hnames hnodup r
    rw [hf]
    exact hbuild f fun part hpart => ⟨hlookup part hpart, hparts part hpart⟩

/-! ## Indices -/

theorem readable_indexId (id : IndexId) : Readable id := by
  refine readable_of_fields ["name", "uuid"] rfl (fun _ _ => rfl) rfl (by decide) ?_
  intro f hf
  simp only [List.forall_mem_cons] at hf
  obtain ⟨hname, huuid, _⟩ := hf
  rw [hname.required (a := id.name) rfl, huuid.required (a := id.uuid) rfl]
  rfl

theorem readable_indexState (s : IndexState) : Readable s where
  decodes room _ := by cases s <;> rfl

theorem settings_tree {settings : SortedMap String String} {room : Nat}
    (h : (Json.ofSettings settings).depth ≤ room) :
    Decoder.map Decoder.string room (Json.ofSettings settings).tree = some settings :=
  Decoder.map_tree (fun _ _ _ _ => rfl) h

/-- The entry of an index is readable if its mappings are, the only free value in it. -/
theorem readable_indexMetadata {m : IndexMetadata} (h : Readable m.mappings) : Readable m := by
  refine readable_of_fields
    ["index", "version", "state", "number_of_shards", "settings", "mappings"]
    rfl (fun _ _ => rfl) rfl (by decide) ?_
  intro f hf
  simp only [List.forall_mem_cons] at hf
  obtain ⟨hindex, hversion, hstate, hshards, hsettings, hmappings, _⟩ := hf
  have hfree : Decoder.json f.room m.mappings.tree = some m.mappings :=
    h.decodes _ hmappings.depth
  rw [hindex.required ((readable_indexId m.index).decodes _ hindex.depth),
    hversion.required (Decoder.word64_tree _ m.version),
    hstate.required ((readable_indexState m.state).decodes _ hstate.depth),
    hshards.optional (Decoder.word32_tree _ m.numberOfShards),
    hsettings.optional (settings_tree hsettings.depth),
    hmappings.optional hfree]
  rfl

/-! ## Global parts -/

theorem readable_coordination (c : Coordination) : Readable c := by
  refine readable_of_fields ["term"] rfl (fun _ _ => rfl) rfl (by decide) ?_
  intro f hf
  simp only [List.forall_mem_cons] at hf
  rw [hf.1.optional (Decoder.word64_tree _ c.term)]
  rfl

theorem readable_indexTemplate (t : IndexTemplate) : Readable t := by
  refine readable_of_fields ["patterns", "order", "settings"]
    rfl (fun _ _ => rfl) rfl (by decide) ?_
  intro f hf
  simp only [List.forall_mem_cons] at hf
  obtain ⟨hpatterns, horder, hsettings, _⟩ := hf
  rw [hpatterns.required (Decoder.list_tree (fun _ _ _ _ => rfl) hpatterns.depth),
    horder.optional (Decoder.int32_tree _ t.order),
    hsettings.optional (settings_tree hsettings.depth)]
  rfl

/-- A global part is readable if its customs are. -/
theorem readable_globalState {g : GlobalState} (h : ∀ e ∈ g.customs.entries, Readable e.2) :
    Readable g := by
  refine readable_of_fields GlobalState.fieldNames
    rfl (fun _ _ => rfl) rfl (by decide) ?_
  intro f hf
  simp only [GlobalState.jsonFields, List.forall_mem_cons] at hf
  obtain ⟨huuid, hcommitted, hversion, hcoordination, hsettings, htemplates, hcustoms, _⟩ := hf
  -- Customs are free values, which are kept as they are.
  have hfree : ∀ e ∈ g.customs.entries, ∀ room, (id e.2).depth ≤ room →
      Decoder.json room (id e.2).tree = some e.2 := fun e he => (h e he).decodes
  rw [huuid.required (a := g.clusterUuid) rfl,
    hcommitted.optional (a := g.clusterUuidCommitted) rfl,
    hversion.required (Decoder.word64_tree _ g.version),
    hcoordination.required ((readable_coordination _).decodes _ hcoordination.depth),
    hsettings.required (settings_tree hsettings.depth),
    htemplates.required
      (Decoder.map_tree (fun e _ => (readable_indexTemplate e.2).decodes) htemplates.depth),
    hcustoms.required (Decoder.map_tree hfree hcustoms.depth)]
  rfl

/-! ## Manifests -/

/-- A generation is printed as a word, so it must be one. -/
theorem readable_manifestEntry {e : Manifest.Entry} (h : e.generation < Generation.bound) :
    Readable e := by
  refine readable_of_fields ["index", "generation"] rfl (fun _ _ => rfl) rfl (by decide) ?_
  intro f hf
  simp only [List.forall_mem_cons] at hf
  obtain ⟨hindex, hgeneration, _⟩ := hf
  rw [hindex.required ((readable_indexId e.index).decodes _ hindex.depth),
    hgeneration.required (Decoder.natBelow_tree h _)]
  rfl

/-- All generations of a manifest are words. -/
structure Manifest.InRange (m : Manifest) : Prop where
  global : m.globalGeneration < Generation.bound
  index : ∀ id g, m.indexGeneration? id = some g → g < Generation.bound

theorem Manifest.InRange.withTerm {m : Manifest} (h : m.InRange) (term : UInt64) :
    (m.withTerm term).InRange :=
  ⟨h.global, h.index⟩

/-- A manifest is readable if its generations are words. -/
theorem readable_manifest {m : Manifest} (h : m.InRange) : Readable m := by
  have hentries : ∀ e ∈ m.indexGenerations.entries,
      Readable (⟨e.1, e.2⟩ : Manifest.Entry) := by
    rintro ⟨id, g⟩ he
    exact readable_manifestEntry (h.index id g (SortedMap.get?_eq_some_iff.2 he))
  -- The generations are printed as a list, in the order of the map.
  have hmap : SortedMap.ofList ((m.indexGenerations.entries.map fun e =>
      (⟨e.1, e.2⟩ : Manifest.Entry)).map fun e => (e.index, e.generation)) =
      m.indexGenerations := by
    rw [List.map_map]
    have hid : m.indexGenerations.entries.map ((fun e : Manifest.Entry => (e.index, e.generation)) ∘
        fun e => ⟨e.1, e.2⟩) = m.indexGenerations.entries := List.map_id _
    rw [hid]
    exact SortedMap.ext_entries (SortedMap.entries_ofList m.indexGenerations.sorted)
  refine readable_of_fields
    ["current_term", "cluster_state_version", "global_generation", "index_generations"]
    rfl (fun _ _ => rfl) rfl (by decide) ?_
  intro f hf
  simp only [List.forall_mem_cons] at hf
  obtain ⟨hterm, hversion, hglobal, hindices, _⟩ := hf
  have hindices : f.Has "index_generations" (.arr ((m.indexGenerations.entries.map fun e =>
      (⟨e.1, e.2⟩ : Manifest.Entry)).map Document.toJson)) := by
    rw [List.map_map]
    exact hindices
  have hread : Decoder.list Document.decode f.room _ = some (m.indexGenerations.entries.map
      fun e => (⟨e.1, e.2⟩ : Manifest.Entry)) := Decoder.list_tree ?_ hindices.depth
  · rw [hindices.required hread, hterm.required (Decoder.word64_tree _ m.currentTerm),
      hversion.required (Decoder.word64_tree _ m.clusterStateVersion),
      hglobal.required (Decoder.natBelow_tree h.global _)]
    show some (Manifest.mk _ _ _ (SortedMap.ofList _)) = some m
    rw [hmap]
  · -- Each entry is readable on its own.
    intro x hx room hdepth
    obtain ⟨e, he, rfl⟩ := List.mem_map.1 hx
    exact (hentries e he).decodes room hdepth

/-- A manifest is an object with an array of entries inside. -/
theorem depth_manifest_le (m : Manifest) : (Document.toJson m).depth ≤ 4 := by
  refine Json.depth_obj_le_iff.2 ?_
  simp only [List.forall_mem_cons]
  refine ⟨Nat.zero_le _, Nat.zero_le _, Nat.zero_le _, ?_, by simp⟩
  refine Json.depth_arr_le_iff.2 (List.forall_mem_map.2 ?_)
  -- An entry is an object with the object of its index inside.
  exact fun _ _ => Nat.le_refl 2

/-! ## Envelopes -/

/-- An instant that a clock can show is readable. -/
theorem readable_instant {t : Instant} (h : t.IsValid) : Readable t where
  decodes _ _ := by
    show (some t.text).bind (fun s => Instant.ofChars? s.toList) = some t
    rw [Option.bind_some, Instant.ofChars?_text h]

section Envelope

variable {α : Type} [Document α] {e : Envelope α}

/-- The text of an envelope is read as far as its payload is: what is decoded of that, with the one
level less that the envelope leaves, comes back with the circumstances that were written. -/
theorem ofText?_envelope (hg : e.generation < Generation.bound) (ht : e.writtenAt.IsValid) :
    (Document.ofText? (Document.text e) : Option (Envelope α)) =
      (Document.decode (Json.maxDepth - 1) (Document.toJson e.payload).tree).map
        (Envelope.mk e.generation e.reason e.writtenAt) := by
  obtain ⟨f, hf, hroom, hlookup⟩ := decode_record (x := e)
    ["generation", "reason", "written_at", "payload"] rfl (fun _ _ => rfl) rfl (by decide) 126
  simp only [List.forall_mem_cons] at hlookup
  obtain ⟨hgeneration, hreason, htime, hpayload, _⟩ := hlookup
  have hg' : f.Has "generation" (.nat e.generation) := ⟨hgeneration, Nat.zero_le _⟩
  have hr' : f.Has "reason" (.str e.reason) := ⟨hreason, Nat.zero_le _⟩
  have ht' : f.Has "written_at" (Document.toJson e.writtenAt) := ⟨htime, Nat.zero_le _⟩
  refine (ofText?_text e).trans (hf.trans ?_)
  rw [hg'.required (Decoder.natBelow_tree hg _), hr'.required (a := e.reason) rfl,
    ht'.required ((readable_instant ht).decodes _ ht'.depth)]
  -- Nothing is said of the payload, so whatever is decoded of it is put into the envelope.
  unfold Decoder.Fields.required
  rw [hpayload, hroom]
  show (Document.decode 126 _).bind _ = (Document.decode 126 _).map _
  rw [Option.map_eq_bind]
  rfl

/-- A payload that is read back from the text of every envelope around it. -/
def Restorable (x : α) : Prop :=
  ∀ e : Envelope α, e.payload = x → e.generation < Generation.bound → e.writtenAt.IsValid →
    Document.ofText? (Document.text e) = some e

/-- That is, a payload that is decoded from its own tree with one level less than a text has. -/
theorem restorable_iff {x : α} :
    Restorable x ↔ Document.decode (Json.maxDepth - 1) (Document.toJson x).tree = some x := by
  constructor
  · intro h
    have hbound : 0 < Generation.bound := by decide
    have hnow : (⟨0, 0⟩ : Instant).IsValid := ⟨by decide, .inl (by decide)⟩
    -- Any envelope will do, so one is taken that is as small as can be.
    have hread := h ⟨0, "", ⟨0, 0⟩, x⟩ rfl hbound hnow
    rw [ofText?_envelope hbound hnow] at hread
    obtain ⟨x', hx', heq⟩ := Option.map_eq_some_iff.1 hread
    obtain rfl := (Envelope.mk.inj heq).2.2.2
    exact hx'
  · rintro h e rfl hg ht
    rw [ofText?_envelope hg ht, h, Option.map_some]

/-- A readable payload is restorable, if it leaves a level for the envelope. -/
theorem Readable.restorable {x : α} (h : Readable x)
    (hdepth : (Document.toJson x).depth < Json.maxDepth) : Restorable x :=
  restorable_iff.2 (h.decodes _ (Nat.le_sub_one_of_lt hdepth))

end Envelope

/-- Manifests nest four levels deep, so they always leave one. -/
theorem restorable_manifest {m : Manifest} (h : m.InRange) : Restorable m := by
  have hdepth := depth_manifest_le m
  refine (readable_manifest h).restorable ?_
  show (Document.toJson m).depth < 127
  omega

end DurableState
