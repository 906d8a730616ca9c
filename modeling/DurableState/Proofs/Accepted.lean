import DurableState.Proofs.Freshness
import DurableState.Proofs.RoundTrip

/-!
# DurableState.Proofs.Accepted — whatever is read in can be read back from disk

A reader enters at most 127 nested arrays and objects, a writer knows no limit. So what was read as
part of one document may stand too deep in another. The parts of a cluster state do not: what is
decoded is not deeper than the room that was left for it (`Json.Fits`), and a file has as much room
for a part as a cluster state has. For the global part there is no level to spare: its free values
stand three levels down in both.

`accepted_state_read_back` says so for every envelope around a part of a state that was read, and
for every file that it is written to.
-/

namespace DurableState

/-! ## Free values -/

namespace Json

/-- A free value that is canonical and not deeper than there is room. -/
structure Fits (room : Nat) (j : Json) : Prop where
  canonical : j.isCanonical = true
  depth : j.depth ≤ room

/-- An array of canonical values is canonical. -/
theorem canonicalItems_of_forall {items : List Json} (h : ∀ j ∈ items, j.isCanonical = true) :
    canonicalItems items = true := by
  induction items with
  | nil => rfl
  | cons j rest ih =>
    obtain ⟨hj, hrest⟩ := List.forall_mem_cons.1 h
    rw [canonicalItems, hj, ih hrest]
    rfl

/-- So is an object, if its names are in order. -/
theorem canonicalFields_of_pairwise {fields : List (String × Json)}
    (hsorted : fields.Pairwise fun a b => compare a.1 b.1 = .lt)
    (h : ∀ f ∈ fields, f.2.isCanonical = true) : canonicalFields fields = true := by
  induction fields with
  | nil => rfl
  | cons f rest ih =>
    obtain ⟨k, j⟩ := f
    obtain ⟨hj, hrest⟩ := List.forall_mem_cons.1 h
    obtain ⟨hfirst, hlater⟩ := List.pairwise_cons.1 hsorted
    simp only [canonicalFields, Bool.and_eq_true]
    refine ⟨⟨?_, hj⟩, ih hlater hrest⟩
    -- Each name is compared with the one behind it only.
    cases rest with
    | nil => rfl
    | cons g rest =>
      have hlt : compare k g.1 = .lt := hfirst g List.mem_cons_self
      simp [hlt]

end Json

/-- A number that is read is canonical. -/
theorem Numeral.isCanonical_of_toNumber? {n : Numeral} {x : Number} (h : n.toNumber? = some x) :
    x.isCanonical = true := by
  have hfloat : ∀ {x : Number}, n.toDouble?.map Number.float = some x → x.isCanonical = true := by
    intro x hx
    obtain ⟨y, _, rfl⟩ := Option.map_eq_some_iff.1 hx
    rfl
  unfold toNumber? at h
  -- An integer is taken if it is canonical. All else becomes a floating-point number.
  split at h
  · split at h
    · rename_i hcanonical
      obtain rfl := Option.some.inj h
      exact hcanonical
    · exact hfloat h
  · exact hfloat h

namespace Decoder

mutual

/-- A free value that is decoded fits the room that it was decoded with. -/
theorem fits_of_json : ∀ (t : Json.Tree) (room : Nat) (j : Json), json room t = some j →
    j.Fits room
  | .null, _, j, h => by
    rw [json] at h
    obtain rfl := Option.some.inj h
    exact ⟨rfl, Nat.zero_le _⟩
  | .bool b, _, j, h => by
    rw [json] at h
    obtain rfl := Option.some.inj h
    exact ⟨rfl, Nat.zero_le _⟩
  | .num n, _, j, h => by
    rw [json] at h
    obtain ⟨x, hx, rfl⟩ := Option.map_eq_some_iff.1 h
    exact ⟨Numeral.isCanonical_of_toNumber? hx, Nat.zero_le _⟩
  | .str s, _, j, h => by
    rw [json] at h
    obtain ⟨x, _, rfl⟩ := Option.map_eq_some_iff.1 h
    exact ⟨rfl, Nat.zero_le _⟩
  | .arr items, 0, j, h => by
    -- Without room no array and no object is entered.
    rw [json] at h
    cases h
  | .obj fields, 0, j, h => by
    rw [json] at h
    cases h
  | .arr items, room + 1, j, h => by
    rw [json] at h
    obtain ⟨js, hjs, rfl⟩ := Option.map_eq_some_iff.1 h
    have hall := fits_of_jsonItems items room js hjs
    constructor
    · exact Json.canonicalItems_of_forall fun j hj => (hall j hj).canonical
    · exact Json.depth_arr_le_iff.2 fun j hj => (hall j hj).depth
  | .obj fields, room + 1, j, h => by
    rw [json] at h
    obtain ⟨fs, hfs, rfl⟩ := Option.map_eq_some_iff.1 h
    have hall := fits_of_jsonFields fields room fs hfs
    -- Of two fields with one name the later one stays, and they are sorted.
    constructor
    · refine Json.canonicalFields_of_pairwise (SortedMap.ofList fs).sorted ?_
      exact fun f hf => (hall f (SortedMap.mem_of_mem_ofList hf)).canonical
    · refine Json.depth_obj_le_iff.2 ?_
      exact fun f hf => (hall f (SortedMap.mem_of_mem_ofList hf)).depth

theorem fits_of_jsonItems : ∀ (items : List Json.Tree) (room : Nat) (js : List Json),
    jsonItems room items = some js → ∀ j ∈ js, j.Fits room
  | [], _, js, h => by
    rw [jsonItems] at h
    obtain rfl := Option.some.inj h
    simp
  | t :: rest, room, js, h => by
    simp only [jsonItems, Option.bind_eq_bind, Option.bind_eq_some_iff, Option.pure_def,
      Option.some.injEq] at h
    obtain ⟨j, hj, js, hjs, rfl⟩ := h
    exact List.forall_mem_cons.2 ⟨fits_of_json t room j hj, fits_of_jsonItems rest room js hjs⟩

theorem fits_of_jsonFields : ∀ (fields : List (Option String × Json.Tree)) (room : Nat)
    (fs : List (String × Json)), jsonFields room fields = some fs → ∀ f ∈ fs, f.2.Fits room
  | [], _, fs, h => by
    rw [jsonFields] at h
    obtain rfl := Option.some.inj h
    simp
  | (k, t) :: rest, room, fs, h => by
    simp only [jsonFields, Option.bind_eq_bind, Option.bind_eq_some_iff, Option.pure_def,
      Option.some.injEq] at h
    obtain ⟨name, _, j, hj, fs, hfs, rfl⟩ := h
    exact List.forall_mem_cons.2 ⟨fits_of_json t room j hj, fits_of_jsonFields rest room fs hfs⟩

end

/-! ## Maps and records -/

variable {α : Type} {d : Decoder α} {room : Nat} {t : Json.Tree}

/-- The entries of a map were decoded one level down. -/
theorem of_map {m : SortedMap String α} (h : map d room t = some m) :
    ∃ r, room = r + 1 ∧ ∀ e ∈ m.entries, ∃ t, d r t = some e.2 := by
  unfold map at h
  split at h
  next r fields =>
    obtain ⟨es, hes, rfl⟩ := Option.map_eq_some_iff.1 h
    refine ⟨r, rfl, ?_⟩
    intro e he
    -- Of the entries with one key the map has the last, and it was decoded as the others were.
    obtain ⟨field, _, hfield⟩ := exists_of_mapM_eq_some hes (SortedMap.mem_of_mem_ofList he)
    simp only [entry, Option.bind_eq_bind, Option.bind_eq_some_iff, Option.pure_def,
      Option.some.injEq] at hfield
    obtain ⟨name, _, a, ha, rfl⟩ := hfield
    exact ⟨field.2, ha⟩
  next => cases h

/-- The fields of a record are one level down. -/
theorem room_of_fields {names : List String} {f : Fields} (h : fields names room t = some f) :
    room = f.room + 1 := by
  unfold fields at h
  split at h
  next =>
    obtain ⟨_, _, rfl⟩ := Option.map_eq_some_iff.1 h
    rfl
  next =>
    split at h
    · obtain rfl := Option.some.inj h
      rfl
    · cases h
  next => cases h

/-- A field was decoded, or it is the default. -/
theorem Fields.of_optional {f : Fields} {name : String} {missing a : α}
    (h : f.optional name d missing = some a) : a = missing ∨ ∃ t, d f.room t = some a := by
  unfold Fields.optional at h
  split at h
  · exact .inl (Option.some.inj h).symm
  · rename_i t _
    exact .inr ⟨t, h⟩

end Decoder

/-! ## Cluster states -/

/-- The mappings of an index that was decoded stand one level down. -/
theorem IndexMetadata.fits_of_decode {room : Nat} {t : Json.Tree} {m : IndexMetadata}
    (h : Document.decode room t = some m) : ∃ r, room = r + 1 ∧ m.mappings.Fits r := by
  have h : (Decoder.fields
      ["index", "version", "state", "number_of_shards", "settings", "mappings"] room t).bind _ =
      some m := h
  simp only [Option.bind_eq_bind, Option.bind_eq_some_iff, Option.pure_def,
    Option.some.injEq] at h
  obtain ⟨f, hf, index, _, version, _, state, _, shards, _, settings, _, mappings, hmappings,
    rfl⟩ := h
  -- Mappings that are left out are an empty object.
  refine ⟨f.room, Decoder.room_of_fields hf, ?_⟩
  rcases Decoder.Fields.of_optional hmappings with rfl | ⟨t, ht⟩
  · exact ⟨rfl, Nat.zero_le _⟩
  · exact Decoder.fits_of_json t _ _ ht

/-- The free values in metadata are not deeper than the room that is left where they stand. -/
structure Metadata.Fits (room : Nat) (m : Metadata) : Prop where
  customs : ∀ e ∈ m.customs.entries, e.2.isCanonical = true ∧ e.2.depth + 2 ≤ room
  mappings : ∀ e ∈ m.indices.entries,
    e.2.mappings.isCanonical = true ∧ e.2.mappings.depth + 3 ≤ room

/-- The free values of metadata that was decoded fit where they stand. -/
theorem Metadata.fits_of_decode {room : Nat} {t : Json.Tree} {m : Metadata}
    (h : Document.decode room t = some m) : m.Fits room := by
  have h : (Decoder.fields (GlobalState.fieldNames ++ ["indices"]) room t).bind _ = some m := h
  simp only [Option.bind_eq_bind, Option.bind_eq_some_iff, Option.pure_def,
    Option.some.injEq] at h
  obtain ⟨f, hf, uuid, _, committed, _, version, _, coordination, _, settings, _, templates, _,
    customs, hcustoms, indices, hindices, rfl⟩ := h
  have hroom := Decoder.room_of_fields hf
  constructor
  · rcases Decoder.Fields.of_optional hcustoms with rfl | ⟨t, ht⟩
    · intro e he
      cases he
    · -- One level for the record and one for the map.
      obtain ⟨r, hr, hall⟩ := Decoder.of_map ht
      intro e he
      obtain ⟨t, ht⟩ := hall e he
      have hfits := Decoder.fits_of_json t _ _ ht
      have hdepth := hfits.depth
      exact ⟨hfits.canonical, by omega⟩
  · rcases Decoder.Fields.of_optional hindices with rfl | ⟨t, ht⟩
    · intro e he
      cases he
    · -- The same, and one level for the index.
      obtain ⟨r, hr, hall⟩ := Decoder.of_map ht
      intro e he
      obtain ⟨t, ht⟩ := hall e he
      obtain ⟨r', hr', hfits⟩ := IndexMetadata.fits_of_decode ht
      have hdepth := hfits.depth
      exact ⟨hfits.canonical, by omega⟩

/-- A cluster state leaves one level less to its metadata. -/
theorem ClusterState.fits_of_decode {room : Nat} {t : Json.Tree} {s : ClusterState}
    (h : Document.decode (room + 1) t = some s) : s.metadata.Fits room := by
  have h : (Decoder.fields ["cluster_name", "version", "metadata", "nodes", "routing_table",
      "blocks"] (room + 1) t).bind _ = some s := h
  simp only [Option.bind_eq_bind, Option.bind_eq_some_iff, Option.pure_def,
    Option.some.injEq] at h
  obtain ⟨f, hf, name, _, version, _, metadata, hmetadata, nodes, _, routing, _, blocks, _,
    rfl⟩ := h
  have hroom : room = f.room := Nat.succ.inj (Decoder.room_of_fields hf)
  rcases Decoder.Fields.of_optional hmetadata with rfl | ⟨t, ht⟩
  · constructor <;> (intro e he; cases he)
  · rw [hroom]
    exact Metadata.fits_of_decode ht

/-- What is read stands in a text, and was decoded with all the room that there is. -/
theorem Document.exists_of_ofText {α : Type} [Document α] {text : String} {x : α}
    (h : Document.ofText text = .ok x) :
    ∃ t, Json.Tree.ofText? text = some t ∧ Document.decode Json.maxDepth t = some x := by
  unfold Document.ofText at h
  split at h
  next y hy =>
    obtain rfl := Except.ok.inj h
    exact Option.bind_eq_some_iff.1 hy
  next => cases h

/-! ## Parts of a state -/

/-- Metadata whose free values are without floating-point numbers. -/
structure Metadata.IsIntegral (m : Metadata) : Prop where
  customs : ∀ e ∈ m.customs.entries, e.2.isIntegral = true
  mappings : ∀ e ∈ m.indices.entries, e.2.mappings.isIntegral = true

theorem depth_globalState_le {g : GlobalState} {n : Nat} (hn : 2 ≤ n)
    (h : ∀ e ∈ g.customs.entries, e.2.depth ≤ n) : (Document.toJson g).depth ≤ n + 2 := by
  refine Json.depth_obj_le_iff.2 ?_
  simp only [GlobalState.jsonFields, List.forall_mem_cons]
  -- Coordination, settings and templates have a fixed depth; the customs decide.
  refine ⟨Nat.zero_le _, Nat.zero_le _, Nat.zero_le _, ?_, ?_, ?_, depth_ofMap_le h, by simp⟩
  · exact Nat.le_add_left 1 n
  · exact (depth_ofSettings_le _).trans (Nat.le_add_left 1 n)
  · refine (depth_ofMap_le fun e _ => depth_indexTemplate_le e.2).trans ?_
    exact Nat.succ_le_succ hn

theorem depth_indexMetadata_le {m : IndexMetadata} {n : Nat} (hn : 1 ≤ n)
    (h : m.mappings.depth ≤ n) : (Document.toJson m).depth ≤ n + 1 := by
  refine Json.depth_obj_le_iff.2 ?_
  simp only [List.forall_mem_cons]
  exact ⟨hn, Nat.zero_le _, Nat.zero_le _, Nat.zero_le _, (depth_ofSettings_le _).trans hn, h,
    by simp⟩

namespace Metadata

variable {m : Metadata}

/-- With the room that a cluster state leaves, the global part fits into a file, to the level. -/
theorem Fits.readable_global (h : m.Fits 126) (hintegral : m.IsIntegral) :
    Readable m.globalState ∧ (Document.toJson m.globalState).depth < Json.maxDepth := by
  constructor
  · exact readable_globalState fun e he =>
      readable_json (h.customs e he).1 (hintegral.customs e he)
  · have hdepth : ∀ e ∈ m.globalState.customs.entries, e.2.depth ≤ 124 := fun e he =>
      Nat.le_of_add_le_add_right (h.customs e he).2
    exact Nat.lt_succ_of_le (depth_globalState_le (by decide) hdepth)

/-- For an index there are two levels to spare. -/
theorem Fits.readable_index (h : m.Fits 126) (hintegral : m.IsIntegral)
    {e : String × IndexMetadata} (he : e ∈ m.indices.entries) :
    Readable e.2 ∧ (Document.toJson e.2).depth < Json.maxDepth := by
  constructor
  · exact readable_indexMetadata
      (readable_json (h.mappings e he).1 (hintegral.mappings e he))
  · have hdepth : e.2.mappings.depth ≤ 123 := Nat.le_of_add_le_add_right (h.mappings e he).2
    have hle : (Document.toJson e.2).depth ≤ 124 := depth_indexMetadata_le (by decide) hdepth
    exact Nat.lt_of_le_of_lt hle (by decide)

/-- The parts that metadata is written in, each to a file of its own. -/
def HasPart (m : Metadata) : StatePart → Prop
  | .global m' => m' = m
  | .index i => ∃ name, (name, i) ∈ m.indices.entries

/-- Every part of metadata that fits can be read back from an envelope. -/
theorem HasPart.restorable {part : StatePart} (hpart : m.HasPart part) (h : m.Fits 126)
    (hintegral : m.IsIntegral) : Restorable part.payload := by
  cases part with
  | global m' =>
    obtain rfl := hpart
    obtain ⟨hread, hdepth⟩ := h.readable_global hintegral
    exact hread.restorable hdepth
  | index i =>
    obtain ⟨name, hi⟩ := hpart
    obtain ⟨hread, hdepth⟩ := h.readable_index hintegral hi
    exact hread.restorable hdepth

end Metadata

/-- What was written is loaded, if every envelope around it can be read. -/
theorem FileStore.load_of_restorable {s s' : FileStore} {part : StatePart} {reason : String}
    {g : Generation} (hpart : Restorable part.payload) (hnow : s.now.IsValid)
    (h : part.write s reason = (.ok g, s')) :
    part.shelf.family.load s'.disk (s.slotDir part.slot) g = .ok (s.envelope part reason g) := by
  have hadds := addsFile_of_write h
  obtain ⟨l, _, hgains, _⟩ := hadds.gains
  exact hadds.loaded (hpart _ rfl hgains.lt_bound hnow)

/-- **Whatever is read in can be read back from disk.** If a text is read as a cluster state, and
its free values are without floating-point numbers, then every envelope around its global part and
around each of its indices is read back from its text, and each part is loaded from the file that
it is written to. -/
theorem accepted_state_read_back {text : String} {s : ClusterState}
    (hread : Document.ofText text = .ok s) (hintegral : s.metadata.IsIntegral) :
    (∀ e : Envelope GlobalState, e.payload = s.metadata.globalState →
      e.generation < Generation.bound → e.writtenAt.IsValid → ReadsBack e) ∧
    (∀ i ∈ s.metadata.indices.entries, ∀ e : Envelope IndexMetadata, e.payload = i.2 →
      e.generation < Generation.bound → e.writtenAt.IsValid → ReadsBack e) ∧
    ∀ (part : StatePart) (reason : String) (g : Generation) (fs fs' : FileStore),
      s.metadata.HasPart part → fs.now.IsValid → part.write fs reason = (.ok g, fs') →
      part.shelf.family.load fs'.disk (fs.slotDir part.slot) g =
        .ok (fs.envelope part reason g) := by
  -- Of the 127 levels the state itself takes one.
  have hfits : s.metadata.Fits 126 := by
    obtain ⟨t, _, ht⟩ := Document.exists_of_ofText hread
    exact ClusterState.fits_of_decode ht
  have hrestorable : ∀ part, s.metadata.HasPart part → Restorable part.payload :=
    fun part hpart => hpart.restorable hfits hintegral
  refine ⟨?_, ?_, ?_⟩
  · intro e he hg ht
    exact readsBack_of_ofText? (hrestorable (.global s.metadata) rfl e he hg ht)
  · intro i hi e he hg ht
    exact readsBack_of_ofText? (hrestorable (.index i.2) ⟨i.1, hi⟩ e he hg ht)
  · intro part reason g fs fs' hpart hnow h
    exact FileStore.load_of_restorable (hrestorable part hpart) hnow h

/-- An envelope around the global part of the deepest state: the greatest generation, and free
values at the last level that a reader enters. -/
def Envelope.deepest : Envelope GlobalState where
  generation := 18446744073709551615
  reason := "\x00\"\\"
  writtenAt := FileStore.fresh.now
  payload := ClusterState.deepest.metadata.globalState

/-- A state is read that has no level to spare, and neither has the file of its global part. -/
theorem deepest_state_read_back :
    Document.ofText (Document.text ClusterState.deepest) = .ok ClusterState.deepest ∧
      ClusterState.deepest.metadata.IsIntegral ∧
      (Document.toJson Envelope.deepest).depth = Json.maxDepth ∧ ReadsBack Envelope.deepest ∧
      ∃ fs', (StatePart.global ClusterState.deepest.metadata).write FileStore.fresh "" =
          (.ok 1, fs') ∧
        Shelf.globals.family.load fs'.disk (FileStore.fresh.slotDir .global) 1 =
          .ok (FileStore.fresh.envelope (.global ClusterState.deepest.metadata) "" 1) := by
  have hexact := ClusterState.isExact_deepest
  -- The state itself is as deep as a reader goes.
  have hread := ((readable_clusterState hexact).readsBack ClusterState.depth_deepest.le).1
  have hintegral : ClusterState.deepest.metadata.IsIntegral :=
    ⟨fun e he => (hexact.customs e he).2, fun e he => (hexact.mappings e he).2⟩
  have hnow : FileStore.fresh.now.IsValid := ⟨by decide, .inl (by decide)⟩
  have hwrite : ((StatePart.global ClusterState.deepest.metadata).write FileStore.fresh "").1 =
      .ok 1 := by decide +kernel
  obtain ⟨hglobal, _, hfile⟩ := accepted_state_read_back hread hintegral
  refine ⟨hread, hintegral, by decide +kernel, hglobal _ rfl (by decide) hnow, _,
    Prod.ext hwrite rfl, ?_⟩
  exact hfile (.global ClusterState.deepest.metadata) "" 1 .fresh _ rfl hnow (Prod.ext hwrite rfl)

end DurableState
