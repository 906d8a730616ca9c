import DurableState.Proofs.StateFile
import DurableState.Store.Files
import Mathlib.Data.List.Induction
import Mathlib.Data.Nat.Digits.Defs

/-!
# DurableState.Proofs.FileNames — the grammar of the names of state files

A name of a family is its stem, a non-empty run of the digits `0` to `9` and the ending, where the
digits denote a word of 64 bits (`Spells`). These are the names that tell a generation and no others
(`generationOf?_eq_some_iff_spells`). A writer makes the one among them that has no zeros in front.
-/

namespace DurableState

/-! ## Digits by their places -/

namespace Decimal

/-- The number that digits denote by their places: the last one counts ones, the one in front of it
tens, and so on. -/
def placeValue (ds : List Char) : Nat :=
  Nat.ofDigits 10 (ds.reverse.map fun c => c.toNat - '0'.toNat)

/-- Reading digits from the front gives what they denote by their places. -/
theorem value_eq_placeValue (ds : List Char) : value ds = placeValue ds := by
  -- The reader goes from the front and the places count from the end, so the last digit is split
  -- off.
  induction ds using List.reverseRecOn with
  | nil => rfl
  | append_singleton ds c ih =>
    have hplaces : placeValue (ds ++ [c]) = digitValue c + 10 * placeValue ds := by
      unfold placeValue
      rw [List.reverse_concat, List.map_cons, Nat.ofDigits_cons]
      rfl
    have hfront : value (ds ++ [c]) = 10 * value ds + digitValue c := List.foldl_concat ..
    rw [hplaces, hfront, ih, Nat.add_comm]

/-- A numeral is a non-empty run of the digits `0` to `9`, and of no digits of other scripts. -/
theorem isNumeral_iff_ascii {ds : List Char} :
    isNumeral ds = true ↔ ds ≠ [] ∧ ∀ c ∈ ds, '0' ≤ c ∧ c ≤ '9' := by
  rw [isNumeral_iff]
  simp only [Char.isDigit, Bool.and_eq_true, decide_eq_true_eq, ge_iff_le, Char.le_def]

/-- A number with zeros in front is a numeral still. -/
theorem isNumeral_replicate_append (k n : Nat) :
    isNumeral (List.replicate k '0' ++ digitChars n) = true := by
  rw [isNumeral_iff]
  have hdigits := (isNumeral_iff.1 (isNumeral_digitChars n)).2
  refine ⟨by simp [digitChars_ne_nil], ?_⟩
  intro c hc
  rcases List.mem_append.1 hc with hzero | hdigit
  · rw [List.eq_of_mem_replicate hzero]
    decide
  · exact hdigits c hdigit

end Decimal

/-! ## Names -/

namespace StateFamily

variable {f : StateFamily} {g : Generation} {name : String}

/-- A name of a file of a generation, with the digits that stand in it. -/
structure Spells (f : StateFamily) (digits : List Char) (g : Generation) (name : String) :
    Prop where
  name_eq : name = f.stem ++ String.ofList digits ++ ".st"
  ne_nil : digits ≠ []
  ascii : ∀ c ∈ digits, '0' ≤ c ∧ c ≤ '9'
  denotes : Decimal.placeValue digits = g
  word : g < 2 ^ 64

theorem toList_spelled (f : StateFamily) (middle : List Char) :
    (f.stem ++ String.ofList middle ++ ".st").toList =
      f.stem.toList ++ middle ++ ending.toList := by
  simp [ending]

/-- The names that tell a generation are those that spell it. -/
theorem generationOf?_eq_some_iff_spells :
    f.generationOf? name = some g ↔ ∃ digits, f.Spells digits g name := by
  rw [generationOf?_eq_some_iff]
  constructor
  · rintro ⟨digits, hname, hnumeral, hvalue, hbound⟩
    obtain ⟨hne, hascii⟩ := Decimal.isNumeral_iff_ascii.1 hnumeral
    rw [← toList_spelled, String.toList_inj] at hname
    exact ⟨digits, hname, hne, hascii, by rw [← Decimal.value_eq_placeValue, hvalue], hbound⟩
  · rintro ⟨digits, rfl, hne, hascii, hdenotes, hword⟩
    exact ⟨digits, f.toList_spelled digits, Decimal.isNumeral_iff_ascii.2 ⟨hne, hascii⟩,
      by rw [Decimal.value_eq_placeValue, hdenotes], hword⟩

/-- Between the stem and the ending, all that tells no generation is nothing at all, something with
a character that is no digit, and a number that is no word. -/
theorem generationOf?_spelled_eq_none_iff (f : StateFamily) (middle : List Char) :
    f.generationOf? (f.stem ++ String.ofList middle ++ ".st") = none ↔
      middle = [] ∨ (∃ c ∈ middle, ¬ ('0' ≤ c ∧ c ≤ '9')) ∨
        2 ^ 64 ≤ Decimal.placeValue middle := by
  have htells : (∃ g, f.generationOf? (f.stem ++ String.ofList middle ++ ".st") = some g) ↔
      middle ≠ [] ∧ (∀ c ∈ middle, '0' ≤ c ∧ c ≤ '9') ∧ Decimal.placeValue middle < 2 ^ 64 := by
    simp only [generationOf?_eq_some_iff_spells]
    constructor
    · rintro ⟨g, digits, hname, hne, hascii, rfl, hword⟩
      -- The stem and the ending are the same, so the digits are what stands between them.
      have hchars := congrArg String.toList hname
      rw [toList_spelled, toList_spelled, List.append_left_inj, List.append_right_inj] at hchars
      subst hchars
      exact ⟨hne, hascii, hword⟩
    · rintro ⟨hne, hascii, hword⟩
      exact ⟨_, middle, rfl, hne, hascii, rfl, hword⟩
  -- What tells no generation fails one of the three conditions.
  rw [← Option.not_isSome_iff_eq_none, Option.isSome_iff_exists, htells, not_and_or, not_and_or,
    not_not, Nat.not_lt]
  push Not
  rfl

/-- **The grammar of file names.** For every family:

* the name of a file tells its generation, and no two generations have one name;
* the name of a file that was never completed tells none;
* a name tells a generation if and only if it is the stem, one or more digits `0` to `9` that denote
  that generation and the ending, and the generation is a word;
* so zeros in front change nothing, and between the stem and the ending nothing is refused but
  nothing at all, another character anywhere, or a number that is no word. -/
theorem names_tell_generations (f : StateFamily) :
    (∀ g : UInt64, f.generationOf? (f.fileName g.toNat) = some g.toNat) ∧
    Function.Injective f.fileName ∧
    (∀ g, f.generationOf? (f.fileName g ++ ".tmp") = none) ∧
    (∀ name g, f.generationOf? name = some g ↔ ∃ digits, f.Spells digits g name) ∧
    (∀ (zeros : Nat) (g : UInt64), f.generationOf? (f.stem ++ String.ofList
      (List.replicate zeros '0' ++ Decimal.digitChars g.toNat) ++ ".st") = some g.toNat) ∧
    ∀ middle : List Char, f.generationOf? (f.stem ++ String.ofList middle ++ ".st") = none ↔
      middle = [] ∨ (∃ c ∈ middle, ¬ ('0' ≤ c ∧ c ≤ '9')) ∨
        2 ^ 64 ≤ Decimal.placeValue middle := by
  refine ⟨?_, ?_, ?_, ?_, ?_, f.generationOf?_spelled_eq_none_iff⟩
  · intro g
    exact f.generationOf?_fileName g.toNat_lt
  · intro g g' h
    exact fileName_inj h
  · exact f.generationOf?_tempName f
  · intro name g
    exact generationOf?_eq_some_iff_spells
  · -- Zeros in front add nothing to the value.
    intro zeros g
    refine generationOf?_eq_some_iff.2 ⟨_, f.toList_spelled _, ?_, ?_, g.toNat_lt⟩
    · exact Decimal.isNumeral_replicate_append zeros g.toNat
    · rw [Decimal.value_replicate_append, Decimal.value_digitChars]

/-- The greatest generation with zeros in front is told. One more, a sign, a digit of another script
and no digit at all are not. -/
theorem names_tell_generations_at_the_bound :
    FileStore.manifests.generationOf? "manifest-00018446744073709551615.st" =
        some 18446744073709551615 ∧
      FileStore.manifests.generationOf? "manifest-18446744073709551616.st" = none ∧
      FileStore.manifests.generationOf? "manifest-+7.st" = none ∧
      FileStore.manifests.generationOf? "manifest-٧.st" = none ∧
      FileStore.manifests.generationOf? "manifest-.st" = none ∧
      FileStore.manifests.fileName 7 ≠ FileStore.manifests.fileName 70 := by
  obtain ⟨_, hinjective, _, hgrammar, _, hrefused⟩ := names_tell_generations FileStore.manifests
  obtain ⟨hne, hascii⟩ := Decimal.isNumeral_iff_ascii.1
    (by decide : Decimal.isNumeral "00018446744073709551615".toList = true)
  refine ⟨?_, ?_, ?_, ?_, ?_, ?_⟩
  · exact (hgrammar _ _).2 ⟨_, by decide, hne, hascii, by decide, by decide⟩
  · exact (hrefused "18446744073709551616".toList).2 (.inr (.inr (by decide)))
  · exact (hrefused ['+', '7']).2 (.inr (.inl ⟨'+', by decide, by decide⟩))
  · exact (hrefused ['٧']).2 (.inr (.inl ⟨'٧', by decide, by decide⟩))
  · exact (hrefused []).2 (.inl rfl)
  · exact hinjective.ne (by decide)

end StateFamily

end DurableState
