import DurableState.Proofs.Metadata
import DurableState.Proofs.Units
import DurableState.Store.Memory
import Mathlib.Data.List.Nodup

/-!
# DurableState.Proofs.Loading — what a store in memory gives back

Loading follows the newest manifest and nothing else, so its result is fixed by what the store holds
under the generations that this manifest names:

* `loadFrom_isOk_iff` — loading succeeds exactly if all of them are held;
* `Holds.exists_loadFrom` — and then gives the global part and the entries that are held there;
* `Keeps.loadFrom_eq` — another store that keeps them gives the same result.
-/

namespace DurableState

/-- No two indices that the manifest names have one name. -/
def Manifest.DistinctNames (m : Manifest) : Prop :=
  ∀ a ∈ m.indexGenerations.keys, ∀ b ∈ m.indexGenerations.keys, a.name = b.name → a = b

/-- Indices that are all found in some metadata have different names. -/
theorem Manifest.distinctNames_of_index? {m : Manifest} {md : Metadata} (hmd : md.Keyed)
    (h : ∀ id g, m.indexGeneration? id = some g → ∃ e, md.index? id = some e) :
    m.DistinctNames := by
  intro a ha b hb hname
  obtain ⟨g, hg⟩ := SortedMap.mem_keys_iff.1 ha
  obtain ⟨r, hr⟩ := SortedMap.mem_keys_iff.1 hb
  obtain ⟨x, hx⟩ := h a g hg
  obtain ⟨y, hy⟩ := h b r hr
  -- Metadata has one entry for each name, and both indices are found under theirs.
  exact hmd.eq_of_name_eq hx hy hname

namespace Manifest

variable {m : Manifest} {u : Slot} {g : Generation}

/-- A manifest without a global part says so by its generation. -/
theorem isGlobalMissing_iff : m.isGlobalMissing = true ↔ m.globalGeneration = .missing := by
  unfold isGlobalMissing
  rw [beq_iff_eq]

/-- The generation of a slot that a manifest names. -/
def generation? (m : Manifest) : Slot → Option Generation
  | .global => if m.isGlobalMissing then none else some m.globalGeneration
  | .index id => m.indexGeneration? id

/-- The generation of the global part is named unless it says that there is none. -/
theorem generation?_global :
    m.generation? .global = some g ↔ m.globalGeneration ≠ .missing ∧ m.globalGeneration = g := by
  unfold generation?
  by_cases hmissing : m.isGlobalMissing = true
  · simp [hmissing, isGlobalMissing_iff.1 hmissing]
  · have hne : m.globalGeneration ≠ .missing := fun h => hmissing (isGlobalMissing_iff.2 h)
    simp [hmissing, hne]

/-- What a manifest names is what giving up goes back to. -/
theorem fallback?_of_generation? (h : m.generation? u = some g) : m.fallback? u = some g := by
  cases u with
  | global =>
    obtain ⟨_, hg⟩ := generation?_global.1 h
    exact congrArg some hg
  | index id => exact h

/-- Giving up goes back to what the manifest names, unless that is nothing. -/
theorem generation?_of_fallback? (h : m.fallback? u = some g) (hg : g ≠ .missing) :
    m.generation? u = some g := by
  cases u with
  | global =>
    have heq : m.globalGeneration = g := Option.some.inj h
    rw [generation?_global, heq]
    exact ⟨hg, rfl⟩
  | index id => exact h

end Manifest

namespace MemoryStore

open Manifest (isGlobalMissing_iff)

/-! ## Following a manifest -/

/-- The manifest from which the store is loaded. -/
def current (s : MemoryStore) : Manifest := s.manifest.getD .empty

/-- What loading gives if it starts from the given manifest. -/
def loadFrom (s : MemoryStore) (m : Manifest) : Except Error (Manifest × Metadata) := do
  let g ← s.loadGlobal m
  let entries ← s.loadIndices m.indexGenerations.entries
  return (m, .ofParts g entries)

/-- A store without a manifest is loaded as if it had the empty one. -/
theorem load_eq_loadFrom (s : MemoryStore) : s.load = s.loadFrom s.current := by
  unfold load current
  cases s.manifest with
  | none => rfl
  | some m => rfl

/-- Every generation that the manifest names is held. -/
structure Holds (s : MemoryStore) (m : Manifest) : Prop where
  global : m.globalGeneration ≠ .missing → ∃ x, s.global.get? m.globalGeneration = some x
  index : ∀ id g, m.indexGeneration? id = some g → ∃ e, s.indexAt? id g = some e

/-- The empty manifest names nothing, so every store holds it. -/
theorem holds_empty (s : MemoryStore) : s.Holds .empty where
  global h := absurd rfl h
  index _ _ h := by cases h

theorem Holds.withTerm {s : MemoryStore} {m : Manifest} (h : s.Holds m) (term : UInt64) :
    s.Holds (m.withTerm term) := ⟨h.global, h.index⟩

/-- The global part that the manifest names. -/
def globalOf (s : MemoryStore) (m : Manifest) : GlobalState :=
  if m.isGlobalMissing then .empty else (s.global.get? m.globalGeneration).getD .empty

/-- The entry that the manifest names for an index. -/
def entryOf? (s : MemoryStore) (m : Manifest) (id : IndexId) : Option IndexMetadata :=
  (m.indexGeneration? id).bind (s.indexAt? id)

/-- The global part can be loaded if it is held. -/
theorem Holds.loadGlobal_eq {s : MemoryStore} {m : Manifest} (h : s.Holds m) :
    s.loadGlobal m = .ok (s.globalOf m) := by
  unfold loadGlobal globalOf
  by_cases hmissing : m.isGlobalMissing = true
  · rw [if_pos hmissing, if_pos hmissing]
  · obtain ⟨x, hx⟩ := h.global fun heq => hmissing (isGlobalMissing_iff.2 heq)
    rw [if_neg hmissing, if_neg hmissing, hx]
    rfl

/-- Loading the global part succeeds exactly if what is named is held. -/
theorem loadGlobal_isOk_iff {s : MemoryStore} {m : Manifest} :
    (∃ x, s.loadGlobal m = .ok x) ↔
      (m.globalGeneration ≠ .missing → ∃ x, s.global.get? m.globalGeneration = some x) := by
  unfold loadGlobal
  by_cases hmissing : m.isGlobalMissing = true
  · have heq := isGlobalMissing_iff.1 hmissing
    simp [hmissing, heq]
  · have hne : m.globalGeneration ≠ .missing := fun heq => hmissing (isGlobalMissing_iff.2 heq)
    rw [if_neg hmissing]
    cases hx : s.global.get? m.globalGeneration <;> simp [hne]

/-- Loading entries gives, one for one, what is held under the generations that are asked for. -/
theorem loadIndices_eq_ok_iff {s : MemoryStore} {ns : List (IndexId × Generation)}
    {es : List IndexMetadata} :
    s.loadIndices ns = .ok es ↔
      List.Forall₂ (fun n e => s.indexAt? n.1 n.2 = some e) ns es := by
  -- By induction on what is asked for: the first one that is not held ends the loading.
  induction ns generalizing es with
  | nil =>
    rw [List.forall₂_nil_left_iff]
    simp [loadIndices, eq_comm]
  | cons n ns ih =>
    obtain ⟨id, g⟩ := n
    unfold loadIndices
    rw [List.forall₂_cons_left_iff]
    cases he : s.indexAt? id g with
    | none => simp
    | some e =>
      cases hes : s.loadIndices ns with
      | error x =>
        -- The rest cannot be loaded, so no list of entries fits it.
        have hnone : ∀ es', ¬ List.Forall₂ (fun n e => s.indexAt? n.1 n.2 = some e) ns es' := by
          intro es' hall
          rw [ih.2 hall] at hes
          cases hes
        simp [Except.map, hnone]
      | ok es' =>
        have hall := ih.1 hes
        simp only [Except.map, Except.ok.injEq, Option.some.injEq]
        constructor
        · rintro rfl
          exact ⟨e, es', rfl, hall, rfl⟩
        · rintro ⟨e', es'', rfl, hall', rfl⟩
          have heq := hes.symm.trans (ih.2 hall')
          rw [Except.ok.inj heq]

/-- Loading entries succeeds exactly if every one of them is held. -/
theorem loadIndices_isOk_iff {s : MemoryStore} {ns : List (IndexId × Generation)} :
    (∃ es, s.loadIndices ns = .ok es) ↔ ∀ n ∈ ns, ∃ e, s.indexAt? n.1 n.2 = some e := by
  induction ns with
  | nil => simp [loadIndices]
  | cons n ns ih =>
    obtain ⟨id, g⟩ := n
    unfold loadIndices
    rw [List.forall_mem_cons, ← ih]
    cases s.indexAt? id g with
    | none => simp
    | some e => cases s.loadIndices ns <;> simp [Except.map]

/-- Loading succeeds if and only if every generation that is named is held. -/
theorem loadFrom_isOk_iff {s : MemoryStore} {m : Manifest} :
    (∃ r, s.loadFrom m = .ok r) ↔ s.Holds m := by
  have hindex : (∃ es, s.loadIndices m.indexGenerations.entries = .ok es) ↔
      ∀ id g, m.indexGeneration? id = some g → ∃ e, s.indexAt? id g = some e := by
    rw [loadIndices_isOk_iff]
    constructor
    · intro h id g hg
      exact h (id, g) (SortedMap.get?_eq_some_iff.1 hg)
    · rintro h ⟨id, g⟩ hn
      exact h id g (SortedMap.get?_eq_some_iff.2 hn)
  -- The two parts are loaded one after the other, and neither looks at the other.
  have hboth : (∃ r, s.loadFrom m = .ok r) ↔
      (∃ x, s.loadGlobal m = .ok x) ∧ ∃ es, s.loadIndices m.indexGenerations.entries = .ok es := by
    unfold loadFrom
    cases s.loadGlobal m with
    | error x => simp [bind, Except.bind]
    | ok x =>
      cases s.loadIndices m.indexGenerations.entries with
      | error y => simp [bind, Except.bind]
      | ok es => simp [bind, Except.bind, pure, Except.pure]
  rw [hboth, loadGlobal_isOk_iff, hindex]
  exact ⟨fun h => ⟨h.1, h.2⟩, fun h => ⟨h.global, h.index⟩⟩

/-- What is loaded comes with the manifest that it was loaded from. -/
theorem fst_of_loadFrom {s : MemoryStore} {m : Manifest} {r : Manifest × Metadata}
    (h : s.loadFrom m = .ok r) : r.1 = m := by
  unfold loadFrom at h
  cases hglobal : s.loadGlobal m with
  | error e => simp [hglobal, bind, Except.bind] at h
  | ok g =>
    -- Only if both parts are loaded there is a result, and the manifest is put beside them.
    cases hindices : s.loadIndices m.indexGenerations.entries with
    | error e => simp [hglobal, hindices, bind, Except.bind] at h
    | ok es =>
      simp only [hglobal, hindices, bind, Except.bind, pure, Except.pure, Except.ok.injEq] at h
      rw [← h]

/-! ## Stores that keep what is named -/

/-- The second store has under every generation that the manifest names what the first has. -/
structure Keeps (s s' : MemoryStore) (m : Manifest) : Prop where
  global : m.globalGeneration ≠ .missing →
    s'.global.get? m.globalGeneration = s.global.get? m.globalGeneration
  index : ∀ id g, m.indexGeneration? id = some g → s'.indexAt? id g = s.indexAt? id g

namespace Keeps

variable {s s' s'' : MemoryStore} {m : Manifest}

theorem trans (h : Keeps s s' m) (h' : Keeps s' s'' m) : Keeps s s'' m where
  global hne := (h'.global hne).trans (h.global hne)
  index id g hg := (h'.index id g hg).trans (h.index id g hg)

theorem holds (h : Keeps s s' m) (hs : s.Holds m) : s'.Holds m where
  global hne := by
    rw [h.global hne]
    exact hs.global hne
  index id g hg := by
    rw [h.index id g hg]
    exact hs.index id g hg

theorem globalOf_eq (h : Keeps s s' m) : s'.globalOf m = s.globalOf m := by
  unfold globalOf
  by_cases hmissing : m.isGlobalMissing = true
  · rw [if_pos hmissing, if_pos hmissing]
  · rw [if_neg hmissing, if_neg hmissing,
      h.global fun heq => hmissing (isGlobalMissing_iff.2 heq)]

theorem entryOf?_eq (h : Keeps s s' m) (id : IndexId) : s'.entryOf? m id = s.entryOf? m id := by
  unfold entryOf?
  cases hg : m.indexGeneration? id with
  | none => rfl
  | some g => exact h.index id g hg

theorem loadIndices_eq (h : Keeps s s' m) :
    s'.loadIndices m.indexGenerations.entries = s.loadIndices m.indexGenerations.entries := by
  have hall : ∀ n ∈ m.indexGenerations.entries, s'.indexAt? n.1 n.2 = s.indexAt? n.1 n.2 := by
    rintro ⟨id, g⟩ hn
    exact h.index id g (SortedMap.get?_eq_some_iff.2 hn)
  -- The induction is on any list of names, of which the manifest's is one.
  revert hall
  generalize m.indexGenerations.entries = ns
  intro hall
  induction ns with
  | nil => rfl
  | cons n ns ih =>
    obtain ⟨hfirst, hrest⟩ := List.forall_mem_cons.1 hall
    obtain ⟨id, g⟩ := n
    unfold loadIndices
    rw [hfirst, ih hrest]

theorem loadFrom_eq (h : Keeps s s' m) : s'.loadFrom m = s.loadFrom m := by
  have hglobal : s'.loadGlobal m = s.loadGlobal m := by
    unfold loadGlobal
    by_cases hmissing : m.isGlobalMissing = true
    · rw [if_pos hmissing, if_pos hmissing]
    · rw [if_neg hmissing, if_neg hmissing,
        h.global fun heq => hmissing (isGlobalMissing_iff.2 heq)]
  unfold loadFrom
  rw [hglobal, h.loadIndices_eq]

/-- A store with the same manifest that keeps what it names is loaded alike. -/
theorem load_eq (h : Keeps s s' s.current) (hcurrent : s'.current = s.current) :
    s'.load = s.load := by
  rw [load_eq_loadFrom, load_eq_loadFrom, hcurrent]
  exact h.loadFrom_eq

end Keeps

/-! ## Slots -/

/-- The next generation of the indices with a unique id. -/
def nextFor (s : MemoryStore) (uuid : String) : Generation := (s.nextIndex.get? uuid).getD 1

/-- What is held of a slot. -/
def slotAt? (s : MemoryStore) : (u : Slot) → Generation → Option u.shelf.Payload
  | .global => s.global.get?
  | .index id => s.indexAt? id

/-- The generation that a slot gets next. -/
def slotNext (s : MemoryStore) : Slot → Generation
  | .global => s.nextGlobal
  | .index id => s.nextFor id.uuid

/-- Whether a generation of a slot is held. -/
def held (s : MemoryStore) (u : Slot) (g : Generation) : Bool := (s.slotAt? u g).isSome

theorem held_iff {s : MemoryStore} {u : Slot} {g : Generation} :
    s.held u g = true ↔ ∃ x, s.slotAt? u g = some x := Option.isSome_iff_exists

/-- A manifest is held if every generation that it names is, slot by slot. -/
theorem holds_iff {s : MemoryStore} {m : Manifest} :
    s.Holds m ↔ ∀ u g, m.generation? u = some g → s.held u g = true := by
  constructor
  · intro h u g hg
    cases u with
    | global =>
      obtain ⟨hne, rfl⟩ := Manifest.generation?_global.1 hg
      exact held_iff.2 (h.global hne)
    | index id => exact held_iff.2 (h.index id g hg)
  · intro h
    refine ⟨?_, ?_⟩
    · intro hne
      exact held_iff.1 (h .global _ (Manifest.generation?_global.2 ⟨hne, rfl⟩))
    · intro id g hg
      exact held_iff.1 (h (.index id) g hg)

/-- Generations count from one, what is held was handed out before, and an entry is held under its
own index. -/
structure WellFormed (s : MemoryStore) : Prop where
  next_pos : ∀ u, 0 < s.slotNext u
  lt_next : ∀ u g x, s.slotAt? u g = some x → 0 < g ∧ g < s.slotNext u
  index_eq : ∀ id g e, s.indexAt? id g = some e → e.index = id

theorem wellFormed_empty : MemoryStore.empty.WellFormed where
  next_pos u := by cases u <;> exact Nat.one_pos
  lt_next u g x h := by cases u <;> cases h
  index_eq _ _ _ h := by cases h

/-- A store that hands out the same generations and holds nothing more is well formed too. -/
theorem WellFormed.of_holds_less {s s' : MemoryStore} (hs : s.WellFormed)
    (hnext : ∀ u, s'.slotNext u = s.slotNext u)
    (hheld : ∀ u g x, s'.slotAt? u g = some x → s.slotAt? u g = some x) : s'.WellFormed where
  next_pos u := by
    rw [hnext]
    exact hs.next_pos u
  lt_next u g x hx := by
    rw [hnext]
    exact hs.lt_next u g x (hheld u g x hx)
  index_eq id g e he := hs.index_eq id g e (hheld (.index id) g e he)

/-- The manifest, the waiting failures and the record of calls do not matter for it. -/
theorem WellFormed.congr {s s' : MemoryStore} (hs : s.WellFormed)
    (hnext : ∀ u, s'.slotNext u = s.slotNext u)
    (hheld : ∀ u g, s'.slotAt? u g = s.slotAt? u g) : s'.WellFormed :=
  hs.of_holds_less hnext fun u g _ hx => (hheld u g).symm.trans hx

/-! ## What is loaded -/

/-- An entry is loaded if it is held under one of the generations that are asked for. -/
theorem mem_loaded_iff {s : MemoryStore} {ns : List (IndexId × Generation)}
    {es : List IndexMetadata}
    (h : List.Forall₂ (fun n e => s.indexAt? n.1 n.2 = some e) ns es) {e : IndexMetadata} :
    e ∈ es ↔ ∃ n ∈ ns, s.indexAt? n.1 n.2 = some e := by
  induction h with
  | nil => simp
  | @cons n x ns es hx _ ih =>
    rw [List.mem_cons, ih, List.exists_mem_cons_iff, hx, Option.some.injEq, eq_comm]

/-- The entries that are loaded are those that the manifest names. -/
theorem WellFormed.mem_loaded_iff_entryOf? {s : MemoryStore} (hs : s.WellFormed) {m : Manifest}
    {es : List IndexMetadata}
    (h : List.Forall₂ (fun n e => s.indexAt? n.1 n.2 = some e) m.indexGenerations.entries es)
    {e : IndexMetadata} : e ∈ es ↔ s.entryOf? m e.index = some e := by
  unfold entryOf?
  rw [mem_loaded_iff h, Option.bind_eq_some_iff]
  constructor
  · rintro ⟨⟨id, g⟩, hn, hat⟩
    -- An entry is held under its own index, so the index in the manifest is its own.
    rw [hs.index_eq id g e hat]
    exact ⟨g, SortedMap.get?_eq_some_iff.2 hn, hat⟩
  · rintro ⟨g, hg, hat⟩
    exact ⟨(e.index, g), SortedMap.get?_eq_some_iff.1 hg, hat⟩

/-- The names of the loaded entries are all different if those in the manifest are. -/
theorem WellFormed.names_nodup {s : MemoryStore} (hs : s.WellFormed) {m : Manifest}
    (hm : m.DistinctNames) {es : List IndexMetadata}
    (h : List.Forall₂ (fun n e => s.indexAt? n.1 n.2 = some e) m.indexGenerations.entries es) :
    (es.map (·.index.name)).Nodup := by
  -- An entry is held under its own index, so the indices that are loaded are those named.
  have hids : es.map (·.index) = m.indexGenerations.keys := by
    unfold SortedMap.keys
    revert h
    generalize m.indexGenerations.entries = ns
    intro h
    induction h with
    | nil => rfl
    | cons hx _ ih => rw [List.map_cons, List.map_cons, ih, hs.index_eq _ _ _ hx]
  have hnames : es.map (·.index.name) = m.indexGenerations.keys.map (·.name) := by
    rw [← hids, List.map_map]
    rfl
  rw [hnames]
  refine List.Nodup.map_on ?_ (SortedMap.keys_nodup _)
  exact fun a ha b hb heq => hm a ha b hb heq

/-- Loading gives the manifest, the global part that it names and the entries that it names. -/
theorem Holds.exists_loadFrom {s : MemoryStore} (hs : s.WellFormed) {m : Manifest}
    (h : s.Holds m) (hm : m.DistinctNames) :
    ∃ md, s.loadFrom m = .ok (m, md) ∧ md.Keyed ∧ md.globalState = s.globalOf m ∧
      ∀ id, md.index? id = s.entryOf? m id := by
  obtain ⟨es, hes⟩ : ∃ es, s.loadIndices m.indexGenerations.entries = .ok es := by
    rw [loadIndices_isOk_iff]
    rintro ⟨id, g⟩ hn
    exact h.index id g (SortedMap.get?_eq_some_iff.2 hn)
  have hall := loadIndices_eq_ok_iff.1 hes
  have hkeyed := Metadata.keyed_ofParts (s.globalOf m) es
  refine ⟨.ofParts (s.globalOf m) es, ?_, hkeyed, Metadata.globalState_ofParts _ _, ?_⟩
  · unfold loadFrom
    rw [h.loadGlobal_eq, hes]
    rfl
  · -- Metadata is keyed by name; as names are different no entry took the place of another.
    intro id
    apply Option.ext
    intro e
    constructor
    · intro he
      have hid := hkeyed.index_eq he
      have hget := (Metadata.index?_eq_some_iff.1 he).1
      have hmem := ((Metadata.get?_ofParts (hs.names_nodup hm hall)).1 hget).1
      rw [← hid]
      exact (hs.mem_loaded_iff_entryOf? hall).1 hmem
    · intro he
      have hid : e.index = id := by
        obtain ⟨g, _, hat⟩ := Option.bind_eq_some_iff.1 he
        exact hs.index_eq id g e hat
      rw [← hid] at he ⊢
      have hmem := (hs.mem_loaded_iff_entryOf? hall).2 he
      exact hkeyed.index?_self ((Metadata.get?_ofParts (hs.names_nodup hm hall)).2 ⟨hmem, rfl⟩)

end MemoryStore

end DurableState
