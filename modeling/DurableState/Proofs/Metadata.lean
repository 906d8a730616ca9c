import DurableState.Proofs.Equality

/-!
# DurableState.Proofs.Metadata — entries under the names of their indices

Metadata is *keyed* when every entry stands under the name of its own index, as `putIndex` and
`ofParts` leave it. In keyed metadata an index and its name determine each other:

* `Keyed.index_eq` — the entry found for an index is an entry of that index;
* `Keyed.eq_of_name_eq` — two indices of one name that are both found are one index;
* `Keyed.eq_of_index?` — its global part and the entries that it finds determine it;
* `get?_ofParts` — metadata from parts holds exactly the entries that it was made from, so keyed
  metadata is put together again from its parts in any order (`ofParts_globalState`).

What is compared (`sameGlobal_iff`), what is taken apart and what is put together are the same
fields but for the version. So a global part may stand for another that is the same, and only the
version is lost.
-/

namespace DurableState.Metadata

/-! ## Keyed metadata -/

/-- Every entry stands under the name of its own index. -/
def Keyed (m : Metadata) : Prop :=
  ∀ name e, m.indices.get? name = some e → e.index.name = name

/-- Whether metadata is keyed can be read off its entries. -/
theorem keyed_iff {m : Metadata} : m.Keyed ↔ ∀ p ∈ m.indices.entries, p.2.index.name = p.1 := by
  constructor
  · rintro h ⟨name, e⟩ hp
    exact h name e (SortedMap.get?_eq_some_iff.2 hp)
  · intro h name e he
    exact h (name, e) (SortedMap.get?_eq_some_iff.1 he)

instance (m : Metadata) : Decidable m.Keyed := decidable_of_iff _ keyed_iff.symm

/-- Putting an entry keeps metadata keyed. -/
theorem keyed_putIndex {m : Metadata} (h : m.Keyed) (entry : IndexMetadata) :
    (m.putIndex entry).Keyed := by
  intro name e he
  have he : (m.indices.insert entry.index.name entry).get? name = some e := he
  rw [SortedMap.get?_insert] at he
  split at he
  · rename_i hname
    obtain rfl := Option.some.inj he
    exact hname.symm
  · exact h name e he

/-- An index is found by its name, if the entry there has its unique id. -/
theorem index?_eq_some_iff {m : Metadata} {id : IndexId} {e : IndexMetadata} :
    m.index? id = some e ↔ m.indices.get? id.name = some e ∧ e.index.uuid = id.uuid := by
  unfold index?
  rw [Option.filter_eq_some_iff, beq_iff_eq]

theorem Keyed.index_eq {m : Metadata} (h : m.Keyed) {id : IndexId} {e : IndexMetadata}
    (he : m.index? id = some e) : e.index = id := by
  obtain ⟨hname, huuid⟩ := index?_eq_some_iff.1 he
  have hname := h _ _ hname
  cases hid : e.index
  cases id
  simp_all

theorem Keyed.index?_self {m : Metadata} (h : m.Keyed) {name : String} {e : IndexMetadata}
    (he : m.indices.get? name = some e) : m.index? e.index = some e := by
  rw [index?_eq_some_iff, h _ _ he]
  exact ⟨he, rfl⟩

/-- Under one name there is one entry, so two indices found under it are the same. -/
theorem Keyed.eq_of_name_eq {m : Metadata} (h : m.Keyed) {a b : IndexId} {x y : IndexMetadata}
    (ha : m.index? a = some x) (hb : m.index? b = some y) (hname : a.name = b.name) : a = b := by
  have hx := (index?_eq_some_iff.1 ha).1
  have hy := (index?_eq_some_iff.1 hb).1
  rw [hname, hy] at hx
  obtain rfl := Option.some.inj hx
  rw [← h.index_eq ha, ← h.index_eq hb]

/-- Metadata has nothing but a global part and indices. -/
theorem ext_globalState {a b : Metadata} (hglobal : a.globalState = b.globalState)
    (hindices : a.indices = b.indices) : a = b := by
  cases a
  cases b
  simp only [globalState, GlobalState.mk.injEq] at hglobal
  simp_all

/-- Keyed metadata is determined by its global part and by what it finds for every index. -/
theorem Keyed.eq_of_index? {a b : Metadata} (ha : a.Keyed) (hb : b.Keyed)
    (hglobal : a.globalState = b.globalState) (hindex : ∀ id, a.index? id = b.index? id) :
    a = b := by
  -- It is enough to go from one side to the other: an entry names its index, which is found on
  -- both.
  have hget : ∀ {a b : Metadata}, a.Keyed → (∀ id, a.index? id = b.index? id) → ∀ name e,
      a.indices.get? name = some e → b.indices.get? name = some e := by
    intro a b ha hindex name e he
    have hself := ha.index?_self he
    rw [hindex, index?_eq_some_iff, ha name e he] at hself
    exact hself.1
  refine ext_globalState hglobal ?_
  apply SortedMap.ext_get?
  intro name
  apply Option.ext
  intro e
  exact ⟨hget ha hindex name e, hget hb (fun id => (hindex id).symm) name e⟩

/-! ## Metadata from parts -/

/-- The metadata that holds a global part and no index. -/
def ofGlobal (g : GlobalState) : Metadata := ofParts g []

theorem ofParts_eq_foldl (g : GlobalState) (es : List IndexMetadata) :
    ofParts g es = es.foldl putIndex (ofGlobal g) := rfl

theorem globalState_foldl_putIndex (es : List IndexMetadata) (m : Metadata) :
    (es.foldl putIndex m).globalState = m.globalState := by
  induction es generalizing m with
  | nil => rfl
  | cons e es ih =>
    rw [List.foldl_cons, ih]
    rfl

@[simp]
theorem globalState_ofParts (g : GlobalState) (es : List IndexMetadata) :
    (ofParts g es).globalState = g := by
  rw [ofParts_eq_foldl, globalState_foldl_putIndex]
  rfl

theorem keyed_ofParts (g : GlobalState) (es : List IndexMetadata) : (ofParts g es).Keyed := by
  rw [ofParts_eq_foldl]
  have hstart : (ofGlobal g).Keyed := by
    intro name e h
    cases h
  -- The induction is over the entries that are put, from any keyed metadata.
  generalize ofGlobal g = m at hstart
  induction es generalizing m with
  | nil => exact hstart
  | cons e es ih => exact ih _ (keyed_putIndex hstart e)

/-- After entries of different names were put, each is found and all others are as before. -/
theorem get?_foldl_putIndex {es : List IndexMetadata} (h : (es.map (·.index.name)).Nodup)
    (m : Metadata) (name : String) (e : IndexMetadata) :
    (es.foldl putIndex m).indices.get? name = some e ↔
      (e ∈ es ∧ e.index.name = name) ∨
        (name ∉ es.map (·.index.name) ∧ m.indices.get? name = some e) := by
  induction es generalizing m with
  | nil => simp
  | cons x es ih =>
    obtain ⟨hnew, hrest⟩ := List.nodup_cons.1 h
    rw [List.foldl_cons, ih hrest]
    show _ ∨ (_ ∧ (m.indices.insert x.index.name x).get? name = some e) ↔ _
    rw [SortedMap.get?_insert, List.map_cons, List.mem_cons, List.mem_cons]
    by_cases hname : name = x.index.name
    · -- The name of the first entry does not come again.
      subst hname
      have hout : ¬ (e ∈ es ∧ e.index.name = x.index.name) := by
        rintro ⟨hin, heq⟩
        exact hnew (List.mem_map.2 ⟨e, hin, heq⟩)
      simp only [↓reduceIte, Option.some.injEq]
      constructor
      · rintro (hin | ⟨_, rfl⟩)
        · exact absurd hin hout
        · exact .inl ⟨.inl rfl, rfl⟩
      · rintro (⟨rfl | hin, heq⟩ | ⟨hne, _⟩)
        · exact .inr ⟨hnew, rfl⟩
        · exact absurd ⟨hin, heq⟩ hout
        · exact absurd (.inl trivial) hne
    · -- Under another name the first entry makes no difference.
      simp only [if_neg hname]
      constructor
      · rintro (⟨hin, heq⟩ | ⟨hout, hm⟩)
        · exact .inl ⟨.inr hin, heq⟩
        · refine .inr ⟨?_, hm⟩
          rintro (heq | hin)
          · exact hname heq
          · exact hout hin
      · rintro (⟨rfl | hin, heq⟩ | ⟨hout, hm⟩)
        · exact absurd heq.symm hname
        · exact .inl ⟨hin, heq⟩
        · exact .inr ⟨fun hin => hout (.inr hin), hm⟩

/-- Metadata from parts holds exactly the entries that it was made from. -/
theorem get?_ofParts {g : GlobalState} {es : List IndexMetadata}
    (h : (es.map (·.index.name)).Nodup) {name : String} {e : IndexMetadata} :
    (ofParts g es).indices.get? name = some e ↔ e ∈ es ∧ e.index.name = name := by
  rw [ofParts_eq_foldl, get?_foldl_putIndex h]
  have hnone : (ofGlobal g).indices.get? name = none := rfl
  simp [hnone]

/-- The entries of keyed metadata have different names. -/
theorem Keyed.names_nodup {m : Metadata} (h : m.Keyed) :
    (m.indices.values.map (·.index.name)).Nodup := by
  have hnames : m.indices.values.map (·.index.name) = m.indices.keys := by
    unfold SortedMap.values SortedMap.keys
    rw [List.map_map]
    exact List.map_congr_left (keyed_iff.1 h)
  rw [hnames]
  exact m.indices.keys_nodup

/-- Entries put in any order make the indices that they come from. -/
theorem Keyed.indices_ofParts {m : Metadata} (h : m.Keyed) (g : GlobalState)
    {es : List IndexMetadata} (hes : es.Perm m.indices.values) :
    (ofParts g es).indices = m.indices := by
  have hnodup : (es.map (·.index.name)).Nodup := (hes.map _).nodup_iff.2 h.names_nodup
  -- The order of the entries does not show in the look-ups.
  apply SortedMap.ext_get?
  intro name
  apply Option.ext
  intro e
  rw [get?_ofParts hnodup, hes.mem_iff, SortedMap.mem_values_iff]
  constructor
  · rintro ⟨⟨key, hkey⟩, rfl⟩
    rwa [h key e hkey]
  · intro he
    exact ⟨⟨name, he⟩, h name e he⟩

theorem Keyed.ofParts_globalState {m : Metadata} (h : m.Keyed) {es : List IndexMetadata}
    (hes : es.Perm m.indices.values) : ofParts m.globalState es = m :=
  ext_globalState (globalState_ofParts _ _) (h.indices_ofParts _ hes)

/-! ## Equality but for the version -/

/-- Equality in every field but the version. -/
def sameButVersion (a b : Metadata) : Bool :=
  a.sameGlobal b && a.indices.sameBy IndexMetadata.same b.indices

/-- The same entry, or none on both sides. -/
abbrev SameEntry (a b : Option IndexMetadata) : Prop :=
  Option.Rel (fun x y => IndexMetadata.same x y = true) a b

/-- Keyed metadata is the same if its global parts are and what is found for every index is. -/
theorem sameButVersion_of_index? {a b : Metadata} (ha : a.Keyed) (hb : b.Keyed)
    (hglobal : a.globalState.sameContent b.globalState = true)
    (hindex : ∀ id, SameEntry (a.index? id) (b.index? id)) : a.sameButVersion b = true := by
  unfold sameButVersion
  rw [Bool.and_eq_true, SortedMap.sameBy_iff, sameGlobal_eq]
  refine ⟨hglobal, ?_⟩
  intro name
  cases hx : a.indices.get? name with
  | some x =>
    -- An entry on the left names its index, and that index is found on the right.
    have hrel := hindex x.index
    rw [ha.index?_self hx] at hrel
    cases hy : b.index? x.index with
    | none =>
      rw [hy] at hrel
      cases hrel
    | some y =>
      rw [hy] at hrel
      have hget := (index?_eq_some_iff.1 hy).1
      rw [ha _ _ hx] at hget
      rw [hget]
      cases hrel with
      | some hsame => exact .some hsame
  | none =>
    -- Nothing on the left, so nothing on the right: what stood there would be found on the left.
    cases hy : b.indices.get? name with
    | none => exact .none
    | some y =>
      have hrel := hindex y.index
      rw [hb.index?_self hy] at hrel
      cases hx' : a.index? y.index with
      | none =>
        rw [hx'] at hrel
        cases hrel
      | some x =>
        have hget := (index?_eq_some_iff.1 hx').1
        rw [hb _ _ hy, hx] at hget
        cases hget

/-! ## A global part that stands for another -/

/-- Two global parts differ in a field that is not the version. -/
def DifferInContent (a b : GlobalState) : Prop :=
  a.clusterUuid ≠ b.clusterUuid ∨ a.clusterUuidCommitted ≠ b.clusterUuidCommitted ∨
    a.coordination ≠ b.coordination ∨ a.persistentSettings ≠ b.persistentSettings ∨
    a.templates ≠ b.templates ∨ a.customs.sameBy Json.same b.customs = false

/-- What is compared of two global parts: every field but the version. -/
theorem sameGlobal_iff {a b : Metadata} : a.sameGlobal b = true ↔
    a.clusterUuid = b.clusterUuid ∧ a.clusterUuidCommitted = b.clusterUuidCommitted ∧
      a.coordination = b.coordination ∧ a.persistentSettings = b.persistentSettings ∧
      a.templates = b.templates ∧ a.customs.sameBy Json.same b.customs = true := by
  unfold sameGlobal
  simp only [Bool.and_eq_true, beq_iff_eq, and_assoc]

theorem sameGlobal_eq_false_iff {a b : Metadata} :
    a.sameGlobal b = false ↔ DifferInContent a.globalState b.globalState := by
  unfold DifferInContent
  rw [← Bool.not_eq_true, sameGlobal_iff, ← Bool.not_eq_true]
  simp only [ne_eq, not_and_or]
  rfl

/-- **A global part that is the same loses nothing but the version.** Let `b` be keyed.

* If the global parts of `a` and `b` are the same, then that of `a` with the entries of `b`, in any
  order, makes metadata that is the same as `b` in every field but the version, which is that of
  `a`. It is `b` itself but for the version and the free values, where the two zeros of doubles are
  the same and that of `a` stays.
* If they are not, then they differ in a field that is not the version.
* The global part of `b` with its entries, in any order, makes `b`. -/
theorem rebuilt_but_for_version (a : Metadata) {b : Metadata} (hb : b.Keyed) :
    (a.sameGlobal b = true → ∀ es : List IndexMetadata, es.Perm b.indices.values →
      (ofParts a.globalState es).sameButVersion b = true ∧
        ofParts a.globalState es = { b with version := a.version, customs := a.customs }) ∧
    (a.sameGlobal b = false → DifferInContent a.globalState b.globalState) ∧
    ∀ es : List IndexMetadata, es.Perm b.indices.values → ofParts b.globalState es = b := by
  refine ⟨?_, sameGlobal_eq_false_iff.1, fun es hes => hb.ofParts_globalState hes⟩
  intro hsame es hes
  have hindices := hb.indices_ofParts a.globalState hes
  constructor
  · unfold sameButVersion
    rw [Bool.and_eq_true, hindices]
    refine ⟨?_, SortedMap.sameBy_refl IndexMetadata.same_refl _⟩
    rwa [sameGlobal_eq, globalState_ofParts]
  · -- Equal fields can be exchanged. The free values are the same without being equal, so they
    -- stay.
    refine ext_globalState ?_ hindices
    obtain ⟨huuid, hcommitted, hcoordination, hsettings, htemplates, _⟩ := sameGlobal_iff.1 hsame
    rw [globalState_ofParts]
    unfold globalState
    rw [huuid, hcommitted, hcoordination, hsettings, htemplates]

/-- Metadata of some version with a free value and two indices. -/
def withLimit (version : UInt64) (limit : Double) : Metadata :=
  { Metadata.empty with
    clusterUuid := "c1", version
    customs := .ofList [("limit", .num (.float limit))]
    indices := .ofList [("logs", .new ⟨"logs", "u1"⟩ 4), ("metrics", .new ⟨"metrics", "u2"⟩ 1)] }

/-- The two zeros are the same, so the global part is not written again, and the entries may come in
another order. -/
theorem rebuilt_with_other_zero :
    (ofParts (withLimit 3 ⟨false, 0, 0⟩).globalState
        [.new ⟨"metrics", "u2"⟩ 1, .new ⟨"logs", "u1"⟩ 4]).sameButVersion
          (withLimit 7 ⟨true, 0, 0⟩) = true ∧
      DifferInContent (withLimit 7 ⟨false, 0, 0⟩).globalState
        (withLimit 7 ⟨false, 1, 0⟩).globalState := by
  have hvalues : (withLimit 7 ⟨true, 0, 0⟩).indices.values =
      [.new ⟨"logs", "u1"⟩ 4, .new ⟨"metrics", "u2"⟩ 1] := rfl
  obtain ⟨hsame, _⟩ := rebuilt_but_for_version (withLimit 3 ⟨false, 0, 0⟩)
    (b := withLimit 7 ⟨true, 0, 0⟩) (by decide +kernel)
  obtain ⟨_, hdiffer, _⟩ := rebuilt_but_for_version (withLimit 7 ⟨false, 0, 0⟩)
    (b := withLimit 7 ⟨false, 1, 0⟩) (by decide +kernel)
  refine ⟨(hsame (by decide +kernel) _ ?_).1, hdiffer (by decide +kernel)⟩
  rw [hvalues]
  exact .swap _ _ _

end DurableState.Metadata
