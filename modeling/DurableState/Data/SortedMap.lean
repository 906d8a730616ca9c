/-!
# DurableState.Data.SortedMap — maps that list their keys in order

A `SortedMap` is a list of entries whose keys strictly increase. Every map has one such list, so
two maps with the same look-ups are equal (`SortedMap.ext_get?`), and what is printed from a map
never depends on the order in which it was filled.
-/

namespace DurableState

universe u v w

/-- Entries with strictly increasing keys. -/
structure SortedMap (κ : Type u) (α : Type v) [Ord κ] where
  entries : List (κ × α)
  sorted : entries.Pairwise fun a b => compare a.1 b.1 = .lt

namespace SortedMap

variable {κ : Type u} {α : Type v} {β : Type w} [Ord κ]

/-! ## Lists of entries -/

/-- The value stored under `k`. -/
def lookup (k : κ) : List (κ × α) → Option α
  | [] => none
  | (k', a) :: rest => if compare k k' = .eq then some a else lookup k rest

/-- Puts `a` under `k`, in place of an earlier value. -/
def place (k : κ) (a : α) : List (κ × α) → List (κ × α)
  | [] => [(k, a)]
  | (k', a') :: rest =>
    match compare k k' with
    | .lt => (k, a) :: (k', a') :: rest
    | .eq => (k, a) :: rest
    | .gt => (k', a') :: place k a rest

theorem mem_place {k : κ} {a : α} {es : List (κ × α)} {e : κ × α} (h : e ∈ place k a es) :
    e = (k, a) ∨ e ∈ es := by
  induction es with
  | nil => simpa [place] using h
  | cons e' rest ih =>
    obtain ⟨k', a'⟩ := e'
    simp only [place] at h
    split at h
    · simpa using h
    · rcases List.mem_cons.1 h with rfl | h
      · exact .inl rfl
      · exact .inr (List.mem_cons_of_mem _ h)
    · rcases List.mem_cons.1 h with rfl | h
      · exact .inr List.mem_cons_self
      · exact (ih h).imp id (List.mem_cons_of_mem _)

theorem sorted_place [Std.TransOrd κ] [Std.LawfulEqOrd κ] (k : κ) (a : α) {es : List (κ × α)}
    (h : es.Pairwise fun a b => compare a.1 b.1 = .lt) :
    (place k a es).Pairwise fun a b => compare a.1 b.1 = .lt := by
  induction es with
  | nil => simp [place]
  | cons e rest ih =>
    obtain ⟨k', a'⟩ := e
    obtain ⟨first, later⟩ := List.pairwise_cons.1 h
    simp only [place]
    split
    case h_1 hlt =>
      refine List.pairwise_cons.2 ⟨fun e he => ?_, h⟩
      rcases List.mem_cons.1 he with rfl | he
      · exact hlt
      · exact Std.TransCmp.lt_trans hlt (first e he)
    case h_2 heq =>
      obtain rfl := Std.LawfulEqOrd.eq_of_compare heq
      exact List.pairwise_cons.2 ⟨first, later⟩
    case h_3 hgt =>
      refine List.pairwise_cons.2 ⟨fun e he => ?_, ih later⟩
      rcases mem_place he with rfl | he
      · exact Std.OrientedCmp.lt_of_gt hgt
      · exact first e he

theorem lookup_place [Std.TransOrd κ] [Std.LawfulEqOrd κ] [DecidableEq κ] (k q : κ) (a : α)
    (es : List (κ × α)) : lookup q (place k a es) = if q = k then some a else lookup q es := by
  induction es with
  | nil => simp [place, lookup]
  | cons e rest ih =>
    obtain ⟨k', a'⟩ := e
    simp only [place]
    split
    · simp [lookup]
    case h_2 heq =>
      obtain rfl := Std.LawfulEqOrd.eq_of_compare heq
      by_cases hq : q = k <;> simp [lookup, hq]
    case h_3 hgt =>
      by_cases hq : q = k
      · subst hq
        simp [lookup, ih, hgt]
      · simp [lookup, ih, hq]

/-! ## Maps -/

/-- The map without entries. -/
def empty : SortedMap κ α := ⟨[], .nil⟩

instance : EmptyCollection (SortedMap κ α) := ⟨empty⟩

instance : Inhabited (SortedMap κ α) := ⟨empty⟩

instance [Repr κ] [Repr α] : Repr (SortedMap κ α) := ⟨fun m p => reprPrec m.entries p⟩

@[ext]
theorem ext_entries {m n : SortedMap κ α} (h : m.entries = n.entries) : m = n := by
  cases m; cases n; cases h; rfl

instance [DecidableEq κ] [DecidableEq α] : DecidableEq (SortedMap κ α) := fun m n =>
  if h : m.entries = n.entries then isTrue (ext_entries h)
  else isFalse fun hmn => h (hmn ▸ rfl)

/-- The value under `k`. -/
def get? (m : SortedMap κ α) (k : κ) : Option α := lookup k m.entries

/-- Whether there is a value under `k`. -/
def contains (m : SortedMap κ α) (k : κ) : Bool := (m.get? k).isSome

/-- The keys in order. -/
def keys (m : SortedMap κ α) : List κ := m.entries.map (·.1)

/-- The values in the order of their keys. -/
def values (m : SortedMap κ α) : List α := m.entries.map (·.2)

/-- How many entries there are. -/
def size (m : SortedMap κ α) : Nat := m.entries.length

/-- The entry with the greatest key. -/
def last? (m : SortedMap κ α) : Option (κ × α) := m.entries.getLast?

/-- The entries that pass a test. -/
def filter (m : SortedMap κ α) (keep : κ → α → Bool) : SortedMap κ α :=
  ⟨m.entries.filter fun e => keep e.1 e.2, m.sorted.filter _⟩

/-- The map without an entry for `k`. -/
def erase (m : SortedMap κ α) (k : κ) : SortedMap κ α := m.filter fun k' _ => compare k k' != .eq

/-- The map with every value changed by `f`. -/
def mapValues (f : α → β) (m : SortedMap κ α) : SortedMap κ β :=
  ⟨m.entries.map fun e => (e.1, f e.2), List.pairwise_map.2 m.sorted⟩

variable [Std.TransOrd κ] [Std.LawfulEqOrd κ]

/-- The map with `a` under `k`. -/
def insert (m : SortedMap κ α) (k : κ) (a : α) : SortedMap κ α :=
  ⟨place k a m.entries, sorted_place k a m.sorted⟩

/-- The map with all entries of a list; of two entries for one key the later one stays. -/
def insertMany (m : SortedMap κ α) (es : List (κ × α)) : SortedMap κ α :=
  es.foldl (fun m e => m.insert e.1 e.2) m

/-- The map of a list of entries; of two entries for one key the later one stays. -/
def ofList (es : List (κ × α)) : SortedMap κ α := empty.insertMany es

omit [Std.TransOrd κ] [Std.LawfulEqOrd κ] in
@[simp]
theorem get?_empty (k : κ) : (empty : SortedMap κ α).get? k = none := rfl

theorem get?_insert [DecidableEq κ] (m : SortedMap κ α) (k q : κ) (a : α) :
    (m.insert k a).get? q = if q = k then some a else m.get? q :=
  lookup_place k q a m.entries

@[simp]
theorem get?_insert_self (m : SortedMap κ α) (k : κ) (a : α) : (m.insert k a).get? k = some a := by
  classical simp [get?_insert]

theorem get?_insert_of_ne (m : SortedMap κ α) {k q : κ} (a : α) (h : q ≠ k) :
    (m.insert k a).get? q = m.get? q := by
  classical simp [get?_insert, h]

/-! ## Look-ups determine the map -/

omit [Std.TransOrd κ] in
theorem lookup_eq_none_of_forall {k : κ} {es : List (κ × α)} (h : ∀ e ∈ es, e.1 ≠ k) :
    lookup k es = none := by
  induction es with
  | nil => rfl
  | cons e rest ih =>
    have hne : compare k e.1 ≠ .eq := fun heq =>
      h e List.mem_cons_self (Std.LawfulEqOrd.eq_of_compare heq).symm
    simp [lookup, hne, ih fun e he => h e (List.mem_cons_of_mem _ he)]

omit [Std.TransOrd κ] in
theorem lookup_eq_some_iff {es : List (κ × α)}
    (hs : es.Pairwise fun a b => compare a.1 b.1 = .lt) {k : κ} {a : α} :
    lookup k es = some a ↔ (k, a) ∈ es := by
  induction es with
  | nil => simp [lookup]
  | cons e rest ih =>
    obtain ⟨k', a'⟩ := e
    obtain ⟨first, later⟩ := List.pairwise_cons.1 hs
    by_cases hk : k = k'
    · subst hk
      have hnot : (k, a) ∉ rest := fun hm => by
        have := first _ hm
        simp at this
      simp [lookup, hnot, eq_comm]
    · have hne : compare k k' ≠ .eq := fun heq => hk (Std.LawfulEqOrd.eq_of_compare heq)
      simp [lookup, hne, hk, ih later]

omit [Std.TransOrd κ] in
theorem get?_eq_some_iff {m : SortedMap κ α} {k : κ} {a : α} :
    m.get? k = some a ↔ (k, a) ∈ m.entries :=
  lookup_eq_some_iff m.sorted

omit [Std.LawfulEqOrd κ] in
theorem eq_of_mem_iff {xs ys : List (κ × α)}
    (hx : xs.Pairwise fun a b => compare a.1 b.1 = .lt)
    (hy : ys.Pairwise fun a b => compare a.1 b.1 = .lt) (h : ∀ e, e ∈ xs ↔ e ∈ ys) : xs = ys := by
  induction xs generalizing ys with
  | nil => exact (List.eq_nil_iff_forall_not_mem.2 fun e he => by simpa using (h e).2 he).symm
  | cons x xs ih =>
    cases ys with
    | nil => simpa using (h x).1 List.mem_cons_self
    | cons y ys =>
      obtain ⟨fx, lx⟩ := List.pairwise_cons.1 hx
      obtain ⟨fy, ly⟩ := List.pairwise_cons.1 hy
      have hxy : x = y := by
        rcases List.mem_cons.1 ((h x).1 List.mem_cons_self) with hxy | hxy
        · exact hxy
        rcases List.mem_cons.1 ((h y).2 List.mem_cons_self) with hyx | hyx
        · exact hyx.symm
        exact absurd (fx y hyx) (Std.OrientedCmp.not_lt_of_lt (fy x hxy))
      subst hxy
      have irrefl : ∀ e : κ × α, compare e.1 e.1 ≠ .lt := fun e => by simp
      congr 1
      refine ih lx ly fun e => ⟨fun he => ?_, fun he => ?_⟩
      · rcases List.mem_cons.1 ((h e).1 (List.mem_cons_of_mem _ he)) with rfl | he'
        · exact absurd (fx e he) (irrefl e)
        · exact he'
      · rcases List.mem_cons.1 ((h e).2 (List.mem_cons_of_mem _ he)) with rfl | he'
        · exact absurd (fy e he) (irrefl e)
        · exact he'

/-- Maps with the same look-ups are the same map. -/
theorem ext_get? {m n : SortedMap κ α} (h : ∀ k, m.get? k = n.get? k) : m = n := by
  refine ext_entries (eq_of_mem_iff m.sorted n.sorted fun e => ?_)
  obtain ⟨k, a⟩ := e
  rw [← get?_eq_some_iff, ← get?_eq_some_iff, h k]

end SortedMap

end DurableState
