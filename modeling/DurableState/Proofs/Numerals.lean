import DurableState.Json.Numeral
import DurableState.Json.Printer
import DurableState.Proofs.Digits

/-!
# DurableState.Proofs.Numerals — the text of every number is a numeral

A numeral that is well-formed is read back from its own text (`ofChars?_chars`). Integers and
doubles are printed as the text of such a numeral (`chars_ofInt`, `Double.exists_numeral`), whatever
the double is: of the digits that are searched for it at least one is not zero, so none is printed
with a zero in front that a reader would refuse.
-/

namespace DurableState

namespace Numeral

/-! ## Well-formed numerals -/

/-- An exponent as it is printed, always with a sign. -/
def Exponent.chars (e : Exponent) : List Char :=
  'e' :: (if e.negative then '-' else '+') :: e.digits

/-- The point and the digits behind it, if there are any. -/
def pointChars (fraction : List Char) : List Char :=
  if fraction.isEmpty then [] else '.' :: fraction

/-- What stands behind the sign of a numeral. -/
def unsignedChars (n : Numeral) : List Char :=
  n.whole ++ (pointChars n.fraction ++ n.exponent.elim [] Exponent.chars)

/-- A numeral as it is printed. -/
def chars (n : Numeral) : List Char := (if n.negative then ['-'] else []) ++ n.unsignedChars

/-- All parts are digits, and only zero itself begins with a zero. -/
structure IsWellFormed (n : Numeral) : Prop where
  whole : Decimal.isNumeral n.whole = true
  leading : n.whole = ['0'] ∨ n.whole.head? ≠ some '0'
  fraction : ∀ c ∈ n.fraction, c.isDigit = true
  exponent : ∀ e ∈ n.exponent, Decimal.isNumeral e.digits = true

/-- An exponent is read back, and so is a missing one. -/
theorem exponentOfChars?_chars {exponent : Option Exponent}
    (h : ∀ e ∈ exponent, Decimal.isNumeral e.digits = true) :
    exponentOfChars? (exponent.elim [] Exponent.chars) = some exponent := by
  cases exponent with
  | none => rfl
  | some e =>
    have he := h e rfl
    obtain ⟨negative, digits⟩ := e
    cases negative <;> simp_all [exponentOfChars?, Exponent.chars]

/-- Neither a point nor an exponent goes on with a digit. -/
theorem isDigit_head?_exponent (exponent : Option Exponent) :
    ∀ c ∈ (exponent.elim [] Exponent.chars).head?, c.isDigit = false := by
  cases exponent with
  | none => simp
  | some e => simp [Exponent.chars]

/-- What follows the whole part is read back. -/
theorem tailOfChars?_chars {fraction : List Char} {exponent : Option Exponent}
    (hfraction : ∀ c ∈ fraction, c.isDigit = true)
    (hexponent : ∀ e ∈ exponent, Decimal.isNumeral e.digits = true) :
    tailOfChars? (pointChars fraction ++ exponent.elim [] Exponent.chars) =
      some (fraction, exponent) := by
  have hread := exponentOfChars?_chars hexponent
  have hhead := isDigit_head?_exponent exponent
  cases fraction with
  | nil =>
    -- Without a point the exponent is all that is left.
    cases exponent with
    | none => rfl
    | some e => exact congrArg (Option.map fun e => ([], e)) hread
  | cons d ds =>
    have htake := Decimal.takeWhile_isDigit_append hfraction hhead
    have hdrop := Decimal.dropWhile_isDigit_append hfraction hhead
    have hpoint : pointChars (d :: ds) ++ exponent.elim [] Exponent.chars =
        '.' :: (d :: ds ++ exponent.elim [] Exponent.chars) := rfl
    rw [hpoint, tailOfChars?, htake, hdrop, hread]
    rfl

/-- A numeral is read back from what stands behind its sign. -/
theorem unsigned?_unsignedChars {n : Numeral} (h : n.IsWellFormed) :
    unsigned? n.negative n.unsignedChars = some n := by
  obtain ⟨hne, hwhole⟩ := Decimal.isNumeral_iff.1 h.whole
  -- The whole part ends where no digit follows.
  have hrest : ∀ c ∈ (pointChars n.fraction ++ n.exponent.elim [] Exponent.chars).head?,
      c.isDigit = false := by
    cases n.fraction with
    | nil => exact isDigit_head?_exponent n.exponent
    | cons d ds => simp [pointChars]
  unfold unsigned? unsignedChars
  rw [Decimal.takeWhile_isDigit_append hwhole hrest,
    Decimal.dropWhile_isDigit_append hwhole hrest, tailOfChars?_chars h.fraction h.exponent]
  dsimp only
  split
  · rename_i hnil
    exact absurd hnil hne
  · -- A zero in front stands alone.
    rename_i d ds hzero
    rcases h.leading with hleading | hleading
    · rw [hzero] at hleading
      cases hleading
    · rw [hzero] at hleading
      exact absurd rfl hleading
  · rfl

/-- A well-formed numeral is read back from its text. -/
theorem ofChars?_chars {n : Numeral} (h : n.IsWellFormed) : ofChars? n.chars = some n := by
  have hread := unsigned?_unsignedChars h
  unfold chars
  cases hnegative : n.negative with
  | true =>
    rw [hnegative] at hread
    exact hread
  | false =>
    rw [hnegative] at hread
    rw [← hread]
    unfold unsignedChars
    obtain ⟨hne, hdigits⟩ := Decimal.isNumeral_iff.1 h.whole
    cases hwhole : n.whole with
    | nil => exact absurd hwhole hne
    | cons d ds =>
      -- The first digit is not mistaken for a sign.
      have hsign : d ≠ '-' := by
        rintro rfl
        rw [hwhole] at hdigits
        cases hdigits '-' List.mem_cons_self
      show ofChars? (d :: _) = _
      unfold ofChars?
      split
      · rename_i heq
        exact absurd (List.cons.inj heq).1 hsign
      · rfl

/-! ## Integers -/

/-- An integer as it is written. -/
def ofInt (i : Int) : Numeral := ⟨decide (i < 0), Decimal.digitChars i.natAbs, [], none⟩

/-- Only zero itself is written with a zero in front. -/
theorem leading_digitChars (n : Nat) :
    Decimal.digitChars n = ['0'] ∨ (Decimal.digitChars n).head? ≠ some '0' := by
  rcases Nat.eq_zero_or_pos n with rfl | hn
  · exact .inl rfl
  · exact .inr (Decimal.head?_digitChars_ne_zero hn)

/-- Integers are written as well-formed numerals. -/
theorem isWellFormed_ofInt (i : Int) : (ofInt i).IsWellFormed where
  whole := Decimal.isNumeral_digitChars _
  leading := leading_digitChars _
  fraction := by simp [ofInt]
  exponent := by simp [ofInt]

theorem chars_ofInt (i : Int) : (ofInt i).chars = Number.intChars i := by
  unfold ofInt chars unsignedChars Number.intChars pointChars
  by_cases hi : i < 0 <;> simp [hi]

theorem toInt?_ofInt (i : Int) : (ofInt i).toInt? = some i := by
  unfold toInt? ofInt
  simp only [List.isEmpty_nil, Option.isNone_none, Bool.and_self, ↓reduceIte,
    Decimal.value_digitChars]
  by_cases hi : i < 0
  · rw [if_pos (by simpa using hi), if_neg (by omega)]
    congr 1
    omega
  · rw [if_neg (by simpa using hi)]
    congr 1
    omega

end Numeral

/-! ## Doubles -/

namespace Decimal

/-- A double other than zero has no zero in the interval of numbers that round to it. -/
theorem hits_zero {x : Double} (hx : x.isZero = false) (g : Int) : hits x 0 g = false := by
  have hmantissa : 0 < x.mantissa := by
    unfold Double.isZero at hx
    rw [beq_eq_false_iff_ne] at hx
    omega
  -- The interval around a double begins above zero unless the double is zero.
  have hlow : 0 < (interval x).low := by
    unfold interval
    dsimp only
    split <;> omega
  have hscale : 0 < Nat.pow 2 (x.exponent - 2).toNat * Nat.pow 10 (-g).toNat :=
    Nat.mul_pos (Nat.pow_pos (by decide)) (Nat.pow_pos (by decide))
  have hpos := Nat.mul_pos hlow hscale
  unfold hits
  simp only [Nat.zero_mul]
  split
  · rw [decide_eq_false_iff_not]
    rintro ⟨hle, _⟩
    exact absurd hpos (Nat.not_lt.2 hle)
  · rw [decide_eq_false_iff_not]
    rintro ⟨hlt, _⟩
    exact Nat.not_lt_zero _ hlt

/-- The digits that are found for a double other than zero are not all zero. -/
theorem pos_of_onGrid {x : Double} (hx : x.isZero = false) {g : Int} {c : Nat}
    (h : onGrid x g = some c) : 0 < c := by
  unfold onGrid at h
  dsimp only at h
  generalize x.num * Nat.pow 10 (-g).toNat / (x.den * Nat.pow 10 g.toNat) = n at h
  -- The lower neighbour on the grid is only taken if it is not zero.
  have hlower : hits x n g = true → 0 < n := by
    intro hhits
    rcases Nat.eq_zero_or_pos n with rfl | hn
    · rw [hits_zero hx] at hhits
      cases hhits
    · exact hn
  split at h
  · cases h
  · obtain rfl := Option.some.inj h
    exact hlower (by assumption)
  · -- The upper neighbour is one more, and so never zero.
    obtain rfl := Option.some.inj h
    exact Nat.succ_pos n
  · have hn := hlower (by assumption)
    obtain rfl := Option.some.inj h
    split <;> omega

/-- Taking zeros off the end leaves something. -/
theorem digits_trim_pos {s : Scientific} (h : 0 < s.digits) (fuel : Nat) :
    0 < (trim s fuel).digits := by
  induction fuel generalizing s with
  | zero => exact h
  | succ fuel ih =>
    unfold trim
    split
    · -- A number that ends in zero and is not zero has more digits in front.
      refine ih ?_
      show 0 < s.digits / 10
      omega
    · exact h

/-- So there is a digit other than zero among those that are printed. -/
theorem digits_shortest_pos {x : Double} (hx : x.isZero = false) : 0 < (shortest x).digits := by
  refine digits_trim_pos ?_ 20
  cases hfound : (List.range 17).findSome? fun n : Nat =>
      (onGrid x (magnitude x.num x.den - n)).map fun c =>
        (⟨c, magnitude x.num x.den - n⟩ : Scientific) with
  | none =>
    -- Without a hit the mantissa itself is printed.
    unfold Double.isZero at hx
    rw [beq_eq_false_iff_ne] at hx
    exact Nat.pos_of_ne_zero hx
  | some s =>
    obtain ⟨n, _, hn⟩ := List.exists_of_findSome?_eq_some hfound
    obtain ⟨c, hc, rfl⟩ := Option.map_eq_some_iff.1 hn
    exact pos_of_onGrid hx hc

/-! ## Layouts -/

section Layout

variable {ds : List Char}

theorem isDigit_of_mem_replicate {k : Nat} {c : Char} (h : c ∈ List.replicate k '0') :
    c.isDigit = true := by
  obtain rfl := List.eq_of_mem_replicate h
  rfl

/-- Digits with a point among them are a numeral. -/
theorem exists_numeral_positional (hdigits : isNumeral ds = true) (hleading : ds.head? ≠ some '0')
    (e : Int) : ∃ n : Numeral, n.IsWellFormed ∧ n.unsignedChars = positional ds e := by
  obtain ⟨hne, hall⟩ := isNumeral_iff.1 hdigits
  unfold positional
  split
  · -- A single zero stands before the point.
    refine ⟨⟨false, ['0'], List.replicate ((-e).toNat - 1) '0' ++ ds, none⟩, ?_, ?_⟩
    · refine ⟨rfl, .inl rfl, ?_, by simp⟩
      intro c hc
      rcases List.mem_append.1 hc with hc | hc
      · exact isDigit_of_mem_replicate hc
      · exact hall c hc
    · simp [Numeral.unsignedChars, Numeral.pointChars, hne]
  · -- The digits are filled up with zeros to the point, and a zero is put behind it if need be.
    dsimp only
    refine ⟨⟨false, ds.take (e.toNat + 1) ++ List.replicate (e.toNat + 1 - ds.length) '0',
      if (ds.drop (e.toNat + 1)).isEmpty then ['0'] else ds.drop (e.toNat + 1), none⟩, ?_, ?_⟩
    · refine ⟨isNumeral_iff.2 ⟨?_, ?_⟩, .inr ?_, ?_, by simp⟩
      · simp [hne]
      · intro c hc
        rcases List.mem_append.1 hc with hc | hc
        · exact hall c (List.mem_of_mem_take hc)
        · exact isDigit_of_mem_replicate hc
      · cases ds with
        | nil => exact absurd rfl hne
        | cons d rest => exact hleading
      · intro c hc
        dsimp only at hc
        split at hc
        · obtain rfl := List.mem_singleton.1 hc
          rfl
        · exact hall c (List.mem_of_mem_drop hc)
    · unfold Numeral.unsignedChars Numeral.pointChars
      split <;> simp_all

/-- Digits with an exponent behind them are a numeral. -/
theorem exists_numeral_scientific (hdigits : isNumeral ds = true) (hleading : ds.head? ≠ some '0')
    (e : Int) : ∃ n : Numeral, n.IsWellFormed ∧ n.unsignedChars = scientific ds e := by
  obtain ⟨_, hall⟩ := isNumeral_iff.1 hdigits
  cases ds with
  | nil => cases hdigits
  | cons d rest =>
    obtain ⟨hd, hrest⟩ := List.forall_mem_cons.1 hall
    -- One digit stands before the point, and it is not zero.
    refine ⟨⟨false, [d], rest, some ⟨decide (e < 0), digitChars e.natAbs⟩⟩, ?_, ?_⟩
    · refine ⟨?_, .inr hleading, hrest, ?_⟩
      · simp [isNumeral, hd]
      · simp [isNumeral_digitChars]
    · cases rest <;> simp [Numeral.unsignedChars, Numeral.pointChars, Numeral.Exponent.chars,
        scientific]

end Layout

end Decimal

/-- Every double is printed as a numeral. -/
theorem Double.exists_numeral (layout : FloatLayout) (x : Double) :
    ∃ n : Numeral, n.IsWellFormed ∧ n.chars = x.chars layout := by
  unfold Double.chars
  cases hx : x.isZero with
  | true =>
    have hzero : (⟨x.negative, ['0'], ['0'], none⟩ : Numeral).IsWellFormed :=
      ⟨rfl, .inl rfl, by simp, by simp⟩
    exact ⟨_, hzero, rfl⟩
  | false =>
    have hdigits := Decimal.isNumeral_digitChars (Decimal.shortest x).digits
    have hleading := Decimal.head?_digitChars_ne_zero (Decimal.digits_shortest_pos hx)
    -- The sign is put in front of either layout.
    have hsign : ∀ {cs : List Char}, (∃ n : Numeral, n.IsWellFormed ∧ n.unsignedChars = cs) →
        ∃ n : Numeral, n.IsWellFormed ∧ n.chars = (if x.negative then ['-'] else []) ++ cs := by
      rintro _ ⟨n, hn, rfl⟩
      exact ⟨{ n with negative := x.negative }, ⟨hn.whole, hn.leading, hn.fraction, hn.exponent⟩,
        rfl⟩
    apply hsign
    split
    · exact Decimal.exists_numeral_positional hdigits hleading _
    · exact Decimal.exists_numeral_scientific hdigits hleading _

/-- A number as it is written in a document. -/
def Numeral.ofNumber : Number → Numeral
  | .int i => .ofInt i
  | .float x => (Numeral.ofChars? (x.chars Json.floatLayout)).getD default

/-- Every number is printed as its numeral. -/
theorem Numeral.ofNumber_spec (n : Number) :
    (ofNumber n).IsWellFormed ∧ (ofNumber n).chars = n.chars := by
  cases n with
  | int i => exact ⟨isWellFormed_ofInt i, chars_ofInt i⟩
  | float x =>
    obtain ⟨n, hn, hchars⟩ := x.exists_numeral Json.floatLayout
    have hnumeral : ofNumber (.float x) = n := by
      show (ofChars? (x.chars Json.floatLayout)).getD default = n
      rw [← hchars, ofChars?_chars hn]
      rfl
    rw [hnumeral]
    exact ⟨hn, hchars⟩

end DurableState
