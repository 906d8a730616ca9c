import Mathlib.Data.List.Perm.Basic
import Mathlib.Tactic.Tauto
import Mathlib.Tactic.TypeStar
import DurableState.Data.SortedMap

/-!
# DurableState.Proofs.Maps — look-ups after the operations of a map

Every operation of a `SortedMap` is described by the look-ups of its result, so that later proofs
never open the list of entries:

* `get?_filter` and `get?_erase` — what is left after entries were taken out;
* `mem_keys_iff` and `mem_keys_insertMany` — which keys a map has;
* `keys_nodup` and `keys_eq_singleton` — every key is listed once;
* `entries_ofList` — a map made of sorted entries has these entries.
-/

namespace DurableState.SortedMap

variable {κ : Type*} {α : Type*} [Ord κ]

/-! ## Taking entries out -/

/-- A filter keeps or drops what is found under each key. -/
theorem get?_filter [Std.LawfulEqOrd κ] (m : SortedMap κ α) (keep : κ → α → Bool) (k : κ) :
    (m.filter keep).get? k = (m.get? k).filter (keep k) := by
  apply Option.ext
  intro a
  rw [get?_eq_some_iff, Option.filter_eq_some_iff, get?_eq_some_iff]
  show (k, a) ∈ m.entries.filter (fun e => keep e.1 e.2) ↔ _
  exact List.mem_filter

/-- Under a key that is erased nothing is found, and under others what was found. -/
theorem get?_erase [Std.LawfulEqOrd κ] [DecidableEq κ] (m : SortedMap κ α) (k q : κ) :
    (m.erase k).get? q = if q = k then none else m.get? q := by
  unfold erase
  rw [get?_filter]
  by_cases hq : q = k
  · subst hq
    cases m.get? q <;> simp
  · -- Keys are told apart by their order.
    have hne : compare k q ≠ .eq := fun heq => hq (Std.LawfulEqOrd.eq_of_compare heq).symm
    rw [if_neg hq]
    cases m.get? q <;> simp [hne]

/-- A map without entries finds nothing, and only such a map. -/
theorem isEmpty_entries_iff [Std.LawfulEqOrd κ] (m : SortedMap κ α) :
    m.entries.isEmpty = true ↔ ∀ k, m.get? k = none := by
  rw [List.isEmpty_iff]
  constructor
  · intro h k
    show lookup k m.entries = none
    rw [h]
    rfl
  · -- An entry would be found under its key.
    intro h
    apply List.eq_nil_iff_forall_not_mem.2
    rintro ⟨k, a⟩ he
    have hk := get?_eq_some_iff.2 he
    rw [h k] at hk
    cases hk

/-! ## Keys -/

/-- The keys are those under which something is found. -/
theorem mem_keys_iff [Std.LawfulEqOrd κ] {m : SortedMap κ α} {k : κ} :
    k ∈ m.keys ↔ ∃ a, m.get? k = some a := by
  unfold keys
  rw [List.mem_map]
  constructor
  · rintro ⟨⟨k', a⟩, he, rfl⟩
    exact ⟨a, get?_eq_some_iff.2 he⟩
  · rintro ⟨a, ha⟩
    exact ⟨(k, a), get?_eq_some_iff.1 ha, rfl⟩

theorem mem_values_iff [Std.LawfulEqOrd κ] {m : SortedMap κ α} {a : α} :
    a ∈ m.values ↔ ∃ k, m.get? k = some a := by
  unfold values
  rw [List.mem_map]
  constructor
  · rintro ⟨⟨k, a'⟩, he, rfl⟩
    exact ⟨k, get?_eq_some_iff.2 he⟩
  · rintro ⟨k, hk⟩
    exact ⟨(k, a), get?_eq_some_iff.1 hk, rfl⟩

/-- No key is listed twice, for entries are strictly sorted by their keys. -/
theorem keys_nodup [Std.TransOrd κ] (m : SortedMap κ α) : m.keys.Nodup := by
  unfold keys
  refine List.pairwise_map.2 (m.sorted.imp ?_)
  intro a b hlt heq
  rw [heq] at hlt
  simp at hlt

variable [Std.TransOrd κ] [Std.LawfulEqOrd κ]

/-- A map that finds something under one key alone lists that key. -/
theorem keys_eq_singleton {m : SortedMap κ α} {k : κ} {a : α} (hk : m.get? k = some a)
    (hothers : ∀ q, q ≠ k → m.get? q = none) : m.keys = [k] := by
  -- Lists without repetition are the same up to order if they have the same members.
  refine List.perm_singleton.1
    ((List.perm_ext_iff_of_nodup m.keys_nodup (List.pairwise_singleton _ k)).2 fun q => ?_)
  rw [mem_keys_iff, List.mem_singleton]
  constructor
  · rintro ⟨b, hb⟩
    by_contra hne
    rw [hothers q hne] at hb
    cases hb
  · rintro rfl
    exact ⟨a, hk⟩

theorem mem_keys_insert {m : SortedMap κ α} {k q : κ} {a : α} :
    q ∈ (m.insert k a).keys ↔ q = k ∨ q ∈ m.keys := by
  classical
  simp only [mem_keys_iff, get?_insert]
  by_cases hq : q = k
  · simp [hq]
  · simp [hq]

/-- The keys of a map are kept, and those of the entries come to them. -/
theorem mem_keys_insertMany {m : SortedMap κ α} {es : List (κ × α)} {q : κ} :
    q ∈ (m.insertMany es).keys ↔ q ∈ m.keys ∨ q ∈ es.map (·.1) := by
  induction es generalizing m with
  | nil => simp [insertMany]
  | cons e es ih =>
    have hstep : m.insertMany (e :: es) = (m.insert e.1 e.2).insertMany es := rfl
    rw [hstep, ih, mem_keys_insert, List.map_cons, List.mem_cons]
    tauto

theorem mem_keys_ofList {es : List (κ × α)} {q : κ} :
    q ∈ (ofList es).keys ↔ q ∈ es.map (·.1) := by
  unfold ofList
  rw [mem_keys_insertMany]
  have hnone : q ∉ (empty : SortedMap κ α).keys := by simp [keys, empty]
  tauto

/-! ## Maps from their entries -/

/-- Sorted entries that are inserted are found as in a list, in front of what was there. -/
theorem get?_insertMany_of_sorted {es : List (κ × α)}
    (h : es.Pairwise fun a b => compare a.1 b.1 = .lt) (m : SortedMap κ α) (k : κ) :
    (m.insertMany es).get? k = (lookup k es).or (m.get? k) := by
  induction es generalizing m with
  | nil => rfl
  | cons e es ih =>
    obtain ⟨k', a⟩ := e
    obtain ⟨hfirst, hrest⟩ := List.pairwise_cons.1 h
    refine (ih hrest (m.insert k' a)).trans ?_
    by_cases hk : k = k'
    · subst hk
      -- The key is less than all that follow, so it is not among them.
      have hnone : lookup k es = none := by
        refine lookup_eq_none_of_forall ?_
        rintro ⟨l, b⟩ he rfl
        have hlt := hfirst _ he
        simp at hlt
      simp [lookup, hnone]
    · have hne : compare k k' ≠ .eq := fun heq => hk (Std.LawfulEqOrd.eq_of_compare heq)
      simp [lookup, hne, get?_insert_of_ne m a hk]

/-- A map made of sorted entries lists them as they are. -/
theorem entries_ofList {es : List (κ × α)} (h : es.Pairwise fun a b => compare a.1 b.1 = .lt) :
    (ofList es).entries = es := by
  suffices hmap : ofList es = ⟨es, h⟩ by rw [hmap]
  apply ext_get?
  intro k
  refine (get?_insertMany_of_sorted h empty k).trans ?_
  rw [get?_empty, Option.or_none]
  rfl

/-- A map lists nothing but what it was made of. -/
theorem mem_of_mem_ofList {es : List (κ × α)} {e : κ × α} (h : e ∈ (ofList es).entries) :
    e ∈ es := by
  -- The induction is over what is inserted, into a map that is not empty any more.
  suffices hgoal : ∀ m : SortedMap κ α, e ∈ (m.insertMany es).entries → e ∈ m.entries ∨ e ∈ es by
    rcases hgoal empty h with hnone | hmem
    · cases hnone
    · exact hmem
  clear h
  induction es with
  | nil => exact fun m he => .inl he
  | cons first rest ih =>
    intro m he
    rcases ih (m.insert first.1 first.2) he with he | he
    · rcases mem_place he with rfl | he
      · exact .inr List.mem_cons_self
      · exact .inl he
    · exact .inr (List.mem_cons_of_mem _ he)

end DurableState.SortedMap
