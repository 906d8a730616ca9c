import DurableState.Cluster.Metadata
import DurableState.Proofs.Maps
import Mathlib.Data.List.Forall2
import Mathlib.Data.Option.Basic

/-!
# DurableState.Proofs.Equality — equality of values that may hold doubles

Free JSON values are compared as numbers, in which the two zeros of doubles are equal. That is an
equivalence and not equality of values, so everything built from such values inherits its own
notion of being the same:

* `Json.same_refl`, `Json.same_trans` — by the nesting of the values;
* `SortedMap.sameBy_iff` — two maps are the same if their look-ups are;
* `GlobalState.sameContent_refl`, `GlobalState.sameContent_trans` — and so for global parts.
-/

namespace DurableState

/-! ## Numbers and values -/

/-- Every double is the same as itself, for there is no double that is no number. -/
theorem Double.same_refl (x : Double) : x.same x = true := by
  simp [Double.same]

/-- Doubles that are the same are equal, or both are a zero. -/
theorem Double.same_trans {x y z : Double} (hxy : x.same y = true) (hyz : y.same z = true) :
    x.same z = true := by
  unfold Double.same at hxy hyz ⊢
  simp only [Bool.or_eq_true, beq_iff_eq, Bool.and_eq_true] at hxy hyz ⊢
  rcases hxy with rfl | hxy
  · exact hyz
  · rcases hyz with rfl | hyz
    · exact .inr hxy
    · exact .inr ⟨hxy.1, hyz.2⟩

/-- Numbers are compared as integers or as doubles, and never the one with the other. -/
theorem Number.same_refl (n : Number) : n.same n = true := by
  cases n with
  | int value => simp [Number.same]
  | float value => exact Double.same_refl value

theorem Number.same_trans {a b c : Number} (hab : a.same b = true) (hbc : b.same c = true) :
    a.same c = true := by
  cases a <;> cases b <;> cases c <;> simp only [Number.same, Bool.false_eq_true, beq_iff_eq]
    at hab hbc ⊢
  · exact hab.trans hbc
  · exact Double.same_trans hab hbc

namespace Json

mutual

/-- By the nesting of the value, with its items and its fields. -/
theorem same_refl : ∀ a : Json, a.same a = true
  | .null => rfl
  | .bool _ => by simp [same]
  | .num n => by simpa [same] using Number.same_refl n
  | .str _ => by simp [same]
  | .arr as => by simpa [same] using sameItems_refl as
  | .obj as => by simpa [same] using sameFields_refl as

theorem sameItems_refl : ∀ as : List Json, sameItems as as = true
  | [] => rfl
  | a :: as => by simp [sameItems, same_refl a, sameItems_refl as]

theorem sameFields_refl : ∀ as : List (String × Json), sameFields as as = true
  | [] => rfl
  | (_, a) :: as => by simp [sameFields, same_refl a, sameFields_refl as]

end

mutual

/-- Values that are the same have one shape, so the nesting of the first is that of all three. -/
theorem same_trans : ∀ {a b c : Json}, a.same b = true → b.same c = true → a.same c = true
  | .null, b, c, hab, hbc => by
    cases b <;> simp only [same, Bool.false_eq_true] at hab
    exact hbc
  | .bool _, b, c, hab, hbc => by
    cases b <;> simp only [same, Bool.false_eq_true, beq_iff_eq] at hab
    exact hab ▸ hbc
  | .num _, b, c, hab, hbc => by
    -- Only here the values need not be equal.
    cases b <;> simp only [same, Bool.false_eq_true] at hab
    cases c <;> simp only [same, Bool.false_eq_true] at hbc
    exact Number.same_trans hab hbc
  | .str _, b, c, hab, hbc => by
    cases b <;> simp only [same, Bool.false_eq_true, beq_iff_eq] at hab
    exact hab ▸ hbc
  | .arr as, b, c, hab, hbc => by
    cases b <;> simp only [same, Bool.false_eq_true] at hab
    cases c <;> simp only [same, Bool.false_eq_true] at hbc
    exact sameItems_trans hab hbc
  | .obj as, b, c, hab, hbc => by
    cases b <;> simp only [same, Bool.false_eq_true] at hab
    cases c <;> simp only [same, Bool.false_eq_true] at hbc
    exact sameFields_trans hab hbc

theorem sameItems_trans : ∀ {as bs cs : List Json},
    sameItems as bs = true → sameItems bs cs = true → sameItems as cs = true
  | [], bs, cs, hab, hbc => by
    cases bs <;> simp only [sameItems, Bool.false_eq_true] at hab
    exact hbc
  | a :: as, bs, cs, hab, hbc => by
    cases bs <;> simp only [sameItems, Bool.false_eq_true, Bool.and_eq_true] at hab
    cases cs <;> simp only [sameItems, Bool.false_eq_true, Bool.and_eq_true] at hbc ⊢
    exact ⟨same_trans hab.1 hbc.1, sameItems_trans hab.2 hbc.2⟩

theorem sameFields_trans : ∀ {as bs cs : List (String × Json)},
    sameFields as bs = true → sameFields bs cs = true → sameFields as cs = true
  | [], bs, cs, hab, hbc => by
    cases bs <;> simp only [sameFields, Bool.false_eq_true] at hab
    exact hbc
  | (k, a) :: as, bs, cs, hab, hbc => by
    cases bs <;> simp only [sameFields, Bool.false_eq_true, Bool.and_eq_true, beq_iff_eq] at hab
    cases cs <;> simp only [sameFields, Bool.false_eq_true, Bool.and_eq_true, beq_iff_eq] at hbc ⊢
    exact ⟨⟨hab.1.1.trans hbc.1.1, same_trans hab.1.2 hbc.1.2⟩, sameFields_trans hab.2 hbc.2⟩

end

end Json

/-! ## Maps -/

namespace SortedMap

/-- Under every key there is what the function makes of what was there. -/
theorem get?_mapValues {κ α β : Type*} [Ord κ] [Std.LawfulEqOrd κ] (f : α → β)
    (m : SortedMap κ α) (k : κ) : (m.mapValues f).get? k = (m.get? k).map f := by
  apply Option.ext
  intro b
  rw [get?_eq_some_iff, Option.map_eq_some_iff]
  show (k, b) ∈ m.entries.map (fun e => (e.1, f e.2)) ↔ _
  rw [List.mem_map]
  constructor
  · rintro ⟨⟨k', a⟩, he, heq⟩
    obtain ⟨rfl, rfl⟩ := Prod.mk.inj heq
    exact ⟨a, get?_eq_some_iff.2 he, rfl⟩
  · rintro ⟨a, ha, rfl⟩
    exact ⟨(k, a), get?_eq_some_iff.1 ha, rfl⟩

variable {κ α : Type} [Ord κ] [Std.TransOrd κ] [Std.LawfulEqOrd κ]

/-- Maps whose look-ups succeed for the same keys list the same keys. -/
theorem keys_eq_of_isSome {m n : SortedMap κ α}
    (h : ∀ k, (m.get? k).isSome = (n.get? k).isSome) : m.keys = n.keys := by
  -- Without their values the two maps are equal.
  have hunit : m.mapValues (fun _ => ()) = n.mapValues (fun _ => ()) := by
    apply ext_get?
    intro k
    have hk := h k
    rw [get?_mapValues, get?_mapValues]
    cases hm : m.get? k <;> cases hn : n.get? k <;> simp_all
  have hkeys := congrArg keys hunit
  simpa [keys, mapValues, Function.comp_def] using hkeys

variable {eq : α → α → Bool}

omit [Std.TransOrd κ] [Std.LawfulEqOrd κ] in
/-- Maps are compared entry by entry, in the order of their keys. -/
theorem sameBy_iff_forall₂ [BEq κ] [LawfulBEq κ] {m n : SortedMap κ α} :
    m.sameBy eq n = true ↔
      List.Forall₂ (fun a b => a.1 = b.1 ∧ eq a.2 b.2 = true) m.entries n.entries := by
  unfold sameBy
  rw [List.forall₂_iff_zip, Bool.and_eq_true, beq_iff_eq, List.all_eq_true]
  simp only [Bool.and_eq_true, beq_iff_eq, Prod.forall]

omit [Std.TransOrd κ] [Std.LawfulEqOrd κ] in
theorem lookup_rel {xs ys : List (κ × α)}
    (h : List.Forall₂ (fun a b => a.1 = b.1 ∧ eq a.2 b.2 = true) xs ys) (k : κ) :
    Option.Rel (fun a b => eq a b = true) (lookup k xs) (lookup k ys) := by
  induction h with
  | nil => exact .none
  | @cons x y xs ys hxy _ ih =>
    obtain ⟨k', a⟩ := x
    obtain ⟨l', b⟩ := y
    obtain ⟨rfl, hab⟩ := hxy
    unfold lookup
    -- The keys are those of the same position, so both look-ups end here or neither does.
    split
    · exact .some hab
    · exact ih

variable [BEq κ] [LawfulBEq κ]

/-- Two maps are the same entry by entry if and only if all their look-ups are. -/
theorem sameBy_iff {m n : SortedMap κ α} :
    m.sameBy eq n = true ↔
      ∀ k, Option.Rel (fun a b => eq a b = true) (m.get? k) (n.get? k) := by
  rw [sameBy_iff_forall₂]
  constructor
  · exact fun h k => lookup_rel h k
  · intro h
    -- The keys agree position by position; at each position both look-ups find their entry.
    have hkeys : m.keys = n.keys := by
      apply keys_eq_of_isSome
      intro k
      have hk := h k
      revert hk
      cases m.get? k <;> cases n.get? k <;> intro hk <;> cases hk <;> rfl
    have hlen : m.entries.length = n.entries.length := by
      simpa [keys] using congrArg List.length hkeys
    refine List.forall₂_iff_get.2 ⟨hlen, ?_⟩
    intro i hi hi'
    have hkey : (m.entries.get ⟨i, hi⟩).1 = (n.entries.get ⟨i, hi'⟩).1 := by
      have hget := congrArg (fun ks => ks[i]?) hkeys
      simpa [keys, hi, hi'] using hget
    have hm : m.get? (m.entries.get ⟨i, hi⟩).1 = some (m.entries.get ⟨i, hi⟩).2 :=
      get?_eq_some_iff.2 (List.get_mem _ _)
    have hn : n.get? (n.entries.get ⟨i, hi'⟩).1 = some (n.entries.get ⟨i, hi'⟩).2 :=
      get?_eq_some_iff.2 (List.get_mem _ _)
    have hrel := h (m.entries.get ⟨i, hi⟩).1
    rw [hm, hkey, hn] at hrel
    cases hrel with
    | some heq => exact ⟨hkey, heq⟩

/-- Maps are the same as themselves if their values are. -/
theorem sameBy_refl (hrefl : ∀ a, eq a a = true) (m : SortedMap κ α) : m.sameBy eq m = true := by
  rw [sameBy_iff]
  intro k
  cases m.get? k with
  | none => exact .none
  | some a => exact .some (hrefl a)

/-- Maps that are the same as a third one are the same. -/
theorem sameBy_trans (htrans : ∀ a b c, eq a b = true → eq b c = true → eq a c = true)
    {m n o : SortedMap κ α} (hmn : m.sameBy eq n = true) (hno : n.sameBy eq o = true) :
    m.sameBy eq o = true := by
  rw [sameBy_iff] at hmn hno ⊢
  intro k
  have hmn := hmn k
  have hno := hno k
  revert hmn hno
  -- Under each key there is something in all three or in none.
  cases m.get? k <;> cases n.get? k <;> cases o.get? k <;> intro hmn hno <;>
    cases hmn <;> cases hno
  · exact .none
  · rename_i hab hbc
    exact .some (htrans _ _ _ hab hbc)

end SortedMap

/-! ## Global parts and indices -/

namespace GlobalState

/-- A global part is the same as itself. -/
theorem sameContent_refl (g : GlobalState) : g.sameContent g = true := by
  simp [sameContent, SortedMap.sameBy_refl Json.same_refl]

/-- Being the same is kept from one global part to the next, so a chain of cycles may leave one in
place. -/
theorem sameContent_trans {a b c : GlobalState} (hab : a.sameContent b = true)
    (hbc : b.sameContent c = true) : a.sameContent c = true := by
  unfold sameContent at hab hbc ⊢
  simp only [Bool.and_eq_true, beq_iff_eq] at hab hbc ⊢
  obtain ⟨⟨⟨⟨⟨huuid, hcommitted⟩, hcoordination⟩, hsettings⟩, htemplates⟩, hcustoms⟩ := hab
  obtain ⟨⟨⟨⟨⟨huuid', hcommitted'⟩, hcoordination'⟩, hsettings'⟩, htemplates'⟩, hcustoms'⟩ := hbc
  -- All fields are equal but the free values, which are the same.
  have hcustoms'' : a.customs.sameBy Json.same c.customs = true := by
    refine SortedMap.sameBy_trans ?_ hcustoms hcustoms'
    intro x y z hxy hyz
    exact Json.same_trans hxy hyz
  exact ⟨⟨⟨⟨⟨huuid.trans huuid', hcommitted.trans hcommitted'⟩,
    hcoordination.trans hcoordination'⟩, hsettings.trans hsettings'⟩,
    htemplates.trans htemplates'⟩, hcustoms''⟩

end GlobalState

/-- Metadata is compared as its global part is. -/
theorem Metadata.sameGlobal_eq (a b : Metadata) :
    a.sameGlobal b = a.globalState.sameContent b.globalState := rfl

namespace IndexMetadata

theorem same_refl (m : IndexMetadata) : m.same m = true := by
  simp [same, Json.same_refl]

/-- Entries that are the same have one version. -/
theorem version_eq_of_same {a b : IndexMetadata} (h : a.same b = true) : a.version = b.version := by
  unfold same at h
  simp only [Bool.and_eq_true, beq_iff_eq] at h
  exact h.1.1.1.1.2

end IndexMetadata

end DurableState
