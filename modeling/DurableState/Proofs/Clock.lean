import DurableState.Proofs.Digits
import DurableState.Time.Instant

/-!
# DurableState.Proofs.Clock — instants are read back from their text

Days and dates correspond (`dayNumber_ofDayNumber`), and every date that a day has is in the
calendar (`isValid_ofDayNumber`). So an instant that a clock can show is read back from its text
(`ofChars?_text`), part by part as the text is written.
-/

namespace DurableState

namespace Calendar

/-! ## Days of a cycle -/

/-- A day of a cycle of 400 years as `a` centuries, `b` groups of four years, `d` years and `t`
days. Only in a leap year are there 365 days before a day. -/
structure YearParts (m a b d t : Int) : Prop where
  sum : m = 36524 * a + 1461 * b + 365 * d + t
  century : 0 ≤ a ∧ a ≤ 3
  group : 0 ≤ b ∧ b ≤ 24
  year : 0 ≤ d ∧ d ≤ 3
  day : 0 ≤ t ∧ t ≤ 365
  leap : t = 365 → d = 3 ∧ (b = 24 → a = 3)

/-- Every day of a cycle has such parts. -/
theorem exists_yearParts {m : Int} (h0 : 0 ≤ m) (h1 : m < 146097) :
    ∃ a b d t, YearParts m a b d t := by
  -- The last century, group and year of each may have a day more than the others.
  obtain ⟨a, r, hm, ha, hr⟩ : ∃ a r : Int, m = 36524 * a + r ∧ (0 ≤ a ∧ a ≤ 3) ∧
      0 ≤ r ∧ r ≤ 36524 ∧ (r = 36524 → a = 3) :=
    ⟨m / 36524 - m / 146096, m - 36524 * (m / 36524 - m / 146096), by omega⟩
  obtain ⟨b, s, hb, hgroup, hs⟩ : ∃ b s : Int, r = 1461 * b + s ∧ (0 ≤ b ∧ b ≤ 24) ∧
      0 ≤ s ∧ s ≤ 1460 :=
    ⟨r / 1461, r % 1461, by omega⟩
  obtain ⟨d, t, hd, hyear, ht, hlong⟩ : ∃ d t : Int, s = 365 * d + t ∧ (0 ≤ d ∧ d ≤ 3) ∧
      (0 ≤ t ∧ t ≤ 365) ∧ (t = 365 → d = 3) :=
    ⟨s / 365 - s / 1460, s - 365 * (s / 365 - s / 1460), by omega⟩
  refine ⟨a, b, d, t, by omega, ha, hgroup, hyear, ht, ?_⟩
  intro h
  have hthree := hlong h
  refine ⟨hthree, ?_⟩
  intro hlast
  omega

/-- The division that skips leap days finds the year of the parts. -/
theorem YearParts.yearOfCycle_eq {m a b d t : Int} (h : YearParts m a b d t) :
    (m - m / 1460 + m / 36524 - m / 146096) / 365 = 100 * a + 4 * b + d := by
  obtain ⟨hm, ha, hb, hd, ht, hleap⟩ := h
  -- The last day of the cycle is one too many for its century, and is looked at on its own.
  have hrest : 1461 * b + 365 * d + t < 36524 ∨
      m = 146096 ∧ a = 3 ∧ b = 24 ∧ d = 3 ∧ t = 365 := by omega
  rcases hrest with hrest | ⟨rfl, rfl, rfl, rfl, rfl⟩
  · have hcentury : m / 36524 = a := by omega
    have hlast : m / 146096 = 0 := by omega
    -- Leap days add up to at most one more group than there are.
    have hover : (24 * a + b + 365 * d + t) / 1460 =
        if 1460 ≤ 24 * a + b + 365 * d + t then 1 else 0 := by
      split <;> omega
    have hfour : m / 1460 = 25 * a + b + (24 * a + b + 365 * d + t) / 1460 := by omega
    rw [hcentury, hlast, hfour, hover]
    split <;> omega
  · rfl

/-- The leap years before a year are one for each group, less one for each century. -/
theorem YearParts.leapYears_eq {m a b d t : Int} (h : YearParts m a b d t) :
    (100 * a + 4 * b + d) / 4 = 25 * a + b ∧ (100 * a + 4 * b + d) / 100 = a := by
  have hgroup := h.group
  have hyear := h.year
  omega

/-- The date of a day of a year that starts in March. -/
def ofMarchYear (year dayOfYear : Int) : Date :=
  let monthFromMarch := (5 * dayOfYear + 2) / 153
  let month := if monthFromMarch < 10 then monthFromMarch + 3 else monthFromMarch - 9
  { year := if month ≤ 2 then year + 1 else year, month := month.toNat,
    day := (dayOfYear - (153 * monthFromMarch + 2) / 5 + 1).toNat }

/-- A date that was made from a year and a day of it has that number again. -/
theorem dayNumber_ofMarchYear (year : Int) {t : Int} (h0 : 0 ≤ t) (h1 : t ≤ 365) :
    dayNumber (ofMarchYear year t) = year / 400 * 146097 +
      (year % 400 * 365 + year % 400 / 4 - year % 400 / 100 + t) - 719468 := by
  unfold dayNumber ofMarchYear
  dsimp only
  generalize hm : (5 * t + 2) / 153 = m
  have hrange : 0 ≤ m ∧ m ≤ 11 := by omega
  by_cases hlate : m < 10
  · simp only [if_pos hlate]
    rw [if_neg (by omega : ¬ m + 3 ≤ 2), if_neg (by omega : ¬ (m + 3).toNat ≤ 2)]
    have hmonth : (((m + 3).toNat : Int) + 9) % 12 = m := by omega
    rw [hmonth]
    omega
  · -- January and February belong to the next year.
    simp only [if_neg hlate]
    rw [if_pos (by omega : m - 9 ≤ 2), if_pos (by omega : (m - 9).toNat ≤ 2)]
    have hmonth : (((m - 9).toNat : Int) + 9) % 12 = m := by omega
    have hyear : year + 1 - 1 = year := by omega
    rw [hmonth, hyear]
    omega

/-- A date made from a year and a day of it is in the calendar. -/
theorem isValid_ofMarchYear {year t : Int} (h0 : 0 ≤ t) (h1 : t ≤ 365)
    (hleap : t = 365 → isLeap (year + 1) = true) : (ofMarchYear year t).isValid = true := by
  unfold Date.isValid ofMarchYear
  dsimp only
  generalize hm : (5 * t + 2) / 153 = m
  have hrange : 0 ≤ m ∧ m ≤ 11 := by omega
  rw [Bool.and_eq_true, decide_eq_true_eq, decide_eq_true_eq]
  refine ⟨by omega, ?_⟩
  -- Counted from March, February is the last month; only a leap year has a day 365.
  by_cases hfebruary : m = 11
  · subst hfebruary
    simp only [daysInMonth, Int.reduceLT, ↓reduceIte, Int.reduceSub, Int.reduceToNat, BEq.rfl,
      Int.reduceLE]
    split
    · omega
    · rename_i hnot
      have hne : t ≠ 365 := fun h => hnot (hleap h)
      omega
  · obtain rfl | rfl | rfl | rfl | rfl | rfl | rfl | rfl | rfl | rfl | rfl :
        m = 0 ∨ m = 1 ∨ m = 2 ∨ m = 3 ∨ m = 4 ∨ m = 5 ∨ m = 6 ∨ m = 7 ∨ m = 8 ∨ m = 9 ∨ m = 10 := by
      omega
    all_goals
      simp [daysInMonth]
      omega

/-! ## Days and dates -/

theorem ofDayNumber_eq {n m y t : Int} (hm : (n + 719468) % 146097 = m)
    (hyear : (m - m / 1460 + m / 36524 - m / 146096) / 365 = y)
    (hday : m - (365 * y + y / 4 - y / 100) = t) :
    ofDayNumber n = ofMarchYear (y + (n + 719468) / 146097 * 400) t := by
  subst hday hyear hm
  rfl

/-- The date of a day is found from its parts. -/
theorem exists_ofDayNumber_eq (n : Int) :
    ∃ a b d t, YearParts ((n + 719468) % 146097) a b d t ∧
      ofDayNumber n =
        ofMarchYear (100 * a + 4 * b + d + (n + 719468) / 146097 * 400) t := by
  obtain ⟨a, b, d, t, h⟩ := exists_yearParts (m := (n + 719468) % 146097) (by omega) (by omega)
  refine ⟨a, b, d, t, h, ofDayNumber_eq rfl h.yearOfCycle_eq ?_⟩
  obtain ⟨hfour, hhundred⟩ := h.leapYears_eq
  have hm := h.sum
  rw [hfour, hhundred, hm]
  omega

/-- A day has the number that its date was made from. -/
theorem dayNumber_ofDayNumber (n : Int) : dayNumber (ofDayNumber n) = n := by
  obtain ⟨a, b, d, t, h, heq⟩ := exists_ofDayNumber_eq n
  obtain ⟨hfour, hhundred⟩ := h.leapYears_eq
  obtain ⟨hm, ha, hb, hd, ht, _⟩ := h
  rw [heq, dayNumber_ofMarchYear _ ht.1 ht.2]
  have hcycle : (100 * a + 4 * b + d + (n + 719468) / 146097 * 400) / 400 =
      (n + 719468) / 146097 := by omega
  have hyear : (100 * a + 4 * b + d + (n + 719468) / 146097 * 400) % 400 =
      100 * a + 4 * b + d := by omega
  rw [hcycle, hyear, hfour, hhundred]
  omega

/-- Every day has a date of the calendar. -/
theorem isValid_ofDayNumber (n : Int) : (ofDayNumber n).isValid = true := by
  obtain ⟨a, b, d, t, ⟨_, ha, hb, hd, ht, hleap⟩, heq⟩ := exists_ofDayNumber_eq n
  rw [heq]
  refine isValid_ofMarchYear ht.1 ht.2 ?_
  -- Day 365 is the leap day. Its year is a fourth one, and a hundredth one only if a four
  -- hundredth.
  intro h
  obtain ⟨rfl, hcentury⟩ := hleap h
  unfold isLeap
  simp only [Bool.and_eq_true, beq_iff_eq, Bool.or_eq_true, bne_iff_ne, ne_eq]
  omega

/-- Months and days are numbers of two digits. -/
theorem ofDayNumber_ranges (n : Int) :
    (1 ≤ (ofDayNumber n).month ∧ (ofDayNumber n).month ≤ 12) ∧
      1 ≤ (ofDayNumber n).day ∧ (ofDayNumber n).day ≤ 31 := by
  obtain ⟨a, b, d, t, ⟨_, _, _, _, ht, _⟩, heq⟩ := exists_ofDayNumber_eq n
  rw [heq]
  unfold ofMarchYear
  dsimp only
  split <;> omega

end Calendar

namespace Instant

/-- An instant that a clock can show: its year is in range, and it has more than a second of
nanoseconds only in a leap second. -/
structure IsValid (t : Instant) : Prop where
  year : isYearInRange (Calendar.ofDayNumber (t.seconds / 86400)).year = true
  nanos : t.nanos < 1000000000 ∨ t.nanos < 2000000000 ∧ t.seconds % 60 = 59

/-! ## Numbers in the text -/

theorem toList_padded (width n : Nat) :
    (padded width n).toList =
      List.replicate (width - (Decimal.digitChars n).length) '0' ++ Decimal.digitChars n :=
  String.toList_ofList

/-- A padded number is all digits. -/
theorem isDigit_of_mem_padded {width n : Nat} {c : Char} (h : c ∈ (padded width n).toList) :
    c.isDigit = true := by
  rw [toList_padded, List.mem_append] at h
  rcases h with h | h
  · rw [List.eq_of_mem_replicate h]
    rfl
  · exact Decimal.isDigit_of_mem_digitChars h

/-- Zeros in front do not change a number. -/
theorem value_padded (width n : Nat) : Decimal.value (padded width n).toList = n := by
  rw [toList_padded, Decimal.value_replicate_append, Decimal.value_digitChars]

/-- A number that fits its width is padded to that width. -/
theorem length_padded {width n : Nat} (hwidth : 0 < width) (h : n < 10 ^ width) :
    (padded width n).toList.length = width := by
  have hle := Decimal.length_digitChars_le hwidth h
  rw [toList_padded, List.length_append, List.length_replicate]
  omega

theorem padded_ne_nil (width n : Nat) : (padded width n).toList ≠ [] := by
  rw [toList_padded]
  simp [Decimal.digitChars_ne_nil]

/-! ## Parts of the reader -/

theorem run_bind_of_eq_ok {α β : Type} {r : Reader α} {f : α → Reader β} {cs cs' : List Char}
    {a : α} (h : r.run cs = .ok (a, cs')) : (r >>= f).run cs = (f a).run cs' := by
  rw [StateT.run_bind, h]
  rfl

/-- Where no blank stands, none is taken. -/
theorem run_blanks {cs : List Char} (h : ∀ c ∈ cs.head?, Text.isBlank c = false) :
    blanks.run cs = .ok ((), cs) := by
  have htrim : Text.trimLeft cs = cs := by
    cases cs with
    | nil => rfl
    | cons c cs => simp [Text.trimLeft, h c rfl]
  show Except.ok ((), Text.trimLeft cs) = _
  rw [htrim]

theorem not_isBlank_of_isDigit {c : Char} (h : c.isDigit = true) : Text.isBlank c = false := by
  rw [Char.isDigit_iff_toNat] at h
  have h : 48 ≤ c.toNat ∧ c.toNat ≤ 57 := h
  simp [Text.isBlank, Text.blankRanges]
  omega

/-- Digits are read up to what is none, or up to the width. -/
theorem run_digits {width : Nat} {ds rest : List Char} (hds : ∀ c ∈ ds, c.isDigit = true)
    (hne : ds ≠ []) (hwidth : ds.length = width ∨ ds.length ≤ width ∧
      ∀ c ∈ rest.head?, c.isDigit = false)
    (hvalue : Decimal.value ds < 9223372036854775808) :
    (digits width).run (ds ++ rest) = .ok (Decimal.value ds, rest) := by
  -- Reading stops at the width, or before it at what is no digit.
  have htake : ((ds ++ rest).take width).takeWhile Char.isDigit = ds := by
    rcases hwidth with hwidth | ⟨hwidth, hrest⟩
    · rw [← hwidth, List.take_left]
      exact List.takeWhile_eq_self_iff.2 hds
    · rw [List.take_append, List.take_of_length_le hwidth]
      refine Decimal.takeWhile_isDigit_append hds ?_
      intro c hc
      cases rest with
      | nil => simp at hc
      | cons d rest =>
        cases hk : width - ds.length with
        | zero => simp [hk] at hc
        | succ k =>
          refine hrest c ?_
          simpa [hk] using hc
  have hempty : ds.isEmpty = false := by simpa using hne
  have hall : (ds ++ rest).isEmpty = false := by simp [hne]
  have hbig : ¬ 9223372036854775808 ≤ Decimal.value ds := by omega
  unfold digits
  rw [run_bind_of_eq_ok (a := ds ++ rest) rfl]
  simp only [htake, hall, hempty, Bool.false_eq_true, ↓reduceIte, if_neg hbig]
  show Except.ok (Decimal.value ds, (ds ++ rest).drop ds.length) = _
  rw [List.drop_left]

/-- A padded number is read as far as its width goes, whatever follows. -/
theorem run_digits_padded (width n : Nat) (hwidth : 0 < width) (hle : width ≤ 18)
    (h : n < 10 ^ width) (rest : List Char) :
    (digits width).run ((padded width n).toList ++ rest) = .ok (n, rest) := by
  have hpow : (10 : Nat) ^ width ≤ 10 ^ 18 := Nat.pow_le_pow_right (by decide) hle
  have hvalue : Decimal.value (padded width n).toList < 9223372036854775808 := by
    rw [value_padded]
    omega
  rw [run_digits (fun c hc => isDigit_of_mem_padded hc) (padded_ne_nil width n)
    (.inl (length_padded hwidth h)) hvalue, value_padded]

theorem head?_padded_append (width n : Nat) {rest : List Char} {c : Char}
    (h : c ∈ ((padded width n).toList ++ rest).head?) : c.isDigit = true := by
  suffices hmem : c ∈ (padded width n).toList from isDigit_of_mem_padded hmem
  cases hp : (padded width n).toList with
  | nil => exact absurd hp (padded_ne_nil width n)
  | cons d ds =>
    rw [hp] at h
    simp at h
    simp [h]

theorem run_blanks_padded (width n : Nat) (rest : List Char) :
    blanks.run ((padded width n).toList ++ rest) = .ok ((), (padded width n).toList ++ rest) :=
  run_blanks fun _ hc => not_isBlank_of_isDigit (head?_padded_append width n hc)

theorem run_inRange {least greatest n : Int} (hleast : least ≤ n) (hgreatest : n ≤ greatest)
    (cs : List Char) : (inRange least greatest n).run cs = .ok (n, cs) := by
  unfold inRange
  rw [if_pos ⟨hleast, hgreatest⟩]
  rfl

/-- A number of two digits that is in range is read. -/
theorem run_number {least greatest n : Nat} (hleast : least ≤ n) (hgreatest : n ≤ greatest)
    (hn : n < 100) (rest : List Char) :
    (number least greatest).run ((padded 2 n).toList ++ rest) = .ok (n, rest) := by
  unfold number
  rw [run_bind_of_eq_ok (run_blanks_padded 2 n rest),
    run_bind_of_eq_ok (run_digits_padded 2 n (by decide) (by decide) hn rest),
    run_bind_of_eq_ok (run_inRange (by omega) (by omega) rest)]
  rfl

theorem run_mark {c : Char} (h : Text.isBlank c = false) (rest : List Char) :
    (mark c).run (c :: rest) = .ok ((), rest) := by
  have hblanks : blanks.run (c :: rest) = .ok ((), c :: rest) := by
    refine run_blanks ?_
    intro d hd
    obtain rfl : c = d := by simpa using hd
    exact h
  unfold mark
  rw [run_bind_of_eq_ok hblanks]
  show (if c = c then set rest else throw Fault.invalid : Reader Unit).run (c :: rest) = _
  rw [if_pos rfl]
  rfl

/-! ## Years and fractions -/

/-- A year with a sign is read up to what is no digit. -/
theorem run_year_of_sign (sign : Char) (n : Nat) (hsign : sign = '-' ∨ sign = '+')
    (hn : n ≤ 2147483647) {rest : List Char} (hrest : ∀ c ∈ rest.head?, c.isDigit = false) :
    year.run (sign :: ((padded 4 n).toList ++ rest)) =
      .ok (if sign = '-' then -(n : Int) else n, rest) := by
  -- Behind a sign a year may have any number of digits.
  have hdigits : (digits ((padded 4 n).toList ++ rest).length).run
      ((padded 4 n).toList ++ rest) = .ok (n, rest) := by
    rw [run_digits (fun c hc => isDigit_of_mem_padded hc) (padded_ne_nil 4 n)
      (.inr ⟨by simp, hrest⟩) (by rw [value_padded]; omega), value_padded]
  have hblanks : blanks.run (sign :: ((padded 4 n).toList ++ rest)) =
      .ok ((), sign :: ((padded 4 n).toList ++ rest)) := by
    refine run_blanks ?_
    intro c hc
    obtain rfl : sign = c := by simpa using hc
    rcases hsign with rfl | rfl <;> decide
  unfold year
  rw [run_bind_of_eq_ok hblanks]
  rw [run_bind_of_eq_ok (a := sign :: ((padded 4 n).toList ++ rest)) rfl]
  dsimp only
  split
  next cs heq =>
    obtain ⟨rfl, rfl⟩ := List.cons.inj heq
    rw [run_bind_of_eq_ok (a := ⟨⟩) rfl, run_bind_of_eq_ok hdigits,
      run_bind_of_eq_ok (a := -(n : Int)) rfl, if_pos rfl]
    exact run_inRange (by omega) (by omega) rest
  next cs heq =>
    obtain ⟨rfl, rfl⟩ := List.cons.inj heq
    rw [run_bind_of_eq_ok (a := ⟨⟩) rfl, run_bind_of_eq_ok hdigits,
      run_bind_of_eq_ok (a := (n : Int)) rfl, if_neg (by decide)]
    exact run_inRange (by omega) (by omega) rest
  -- There is a sign, so the branch without one is not taken.
  next hminus hplus =>
    rcases hsign with rfl | rfl
    · exact absurd rfl (hminus _)
    · exact absurd rfl (hplus _)

/-- A year in range is read as it was written. -/
theorem run_year {y : Int} (h : isYearInRange y = true) {rest : List Char}
    (hrest : ∀ c ∈ rest.head?, c.isDigit = false) :
    year.run ((yearText y).toList ++ rest) = .ok (y, rest) := by
  have hrange : -262143 ≤ y ∧ y ≤ 262142 := by
    simpa [isYearInRange] using h
  unfold yearText
  split
  next hfour =>
    -- Four digits without a sign. The text begins with a digit, so no branch for a sign is taken.
    have hdigits := run_digits_padded 4 y.toNat (by decide) (by decide) (by omega) rest
    have hto : (y.toNat : Int) = y := by omega
    unfold year
    rw [run_bind_of_eq_ok (run_blanks_padded 4 _ rest),
      run_bind_of_eq_ok (a := (padded 4 y.toNat).toList ++ rest) rfl]
    dsimp only
    split
    next heq =>
      have hdigit := head?_padded_append 4 y.toNat (c := '-') (by rw [heq]; rfl)
      exact absurd hdigit (by decide)
    next heq =>
      have hdigit := head?_padded_append 4 y.toNat (c := '+') (by rw [heq]; rfl)
      exact absurd hdigit (by decide)
    next =>
      rw [run_bind_of_eq_ok hdigits, run_bind_of_eq_ok (a := y) (by rw [hto]; rfl)]
      exact run_inRange (by omega) (by omega) rest
  next hsigned =>
    -- Years of more than four digits, or before the year zero, are written with a sign.
    by_cases hneg : y < 0
    · have hrun := run_year_of_sign '-' y.natAbs (.inl rfl) (by omega) hrest
      have habs : -(y.natAbs : Int) = y := by omega
      rw [if_pos rfl, habs] at hrun
      simpa [hneg] using hrun
    · have hrun := run_year_of_sign '+' y.natAbs (.inr rfl) (by omega) hrest
      have habs : (y.natAbs : Int) = y := by omega
      rw [if_neg (by decide), habs] at hrun
      simpa [hneg] using hrun

/-- A fraction of fewer than nine digits is read as if zeros stood behind it. -/
theorem run_fraction_digits (width n : Nat) (hwidth : 0 < width) (hle : width ≤ 9)
    (h : n < 10 ^ width) {rest : List Char} (hrest : ∀ c ∈ rest.head?, c.isDigit = false) :
    fraction.run ('.' :: ((padded width n).toList ++ rest)) =
      .ok (n * 10 ^ (9 - width), rest) := by
  have hlength := length_padded hwidth h
  have hpow : (10 : Nat) ^ width ≤ 10 ^ 9 := Nat.pow_le_pow_right (by decide) hle
  have hdigits : (digits 9).run ((padded width n).toList ++ rest) = .ok (n, rest) := by
    rw [run_digits (fun c hc => isDigit_of_mem_padded hc) (padded_ne_nil width n)
      (.inr ⟨by omega, hrest⟩) (by rw [value_padded]; omega), value_padded]
  have hcount : ((padded width n).toList ++ rest).length - rest.length = width := by
    rw [List.length_append]
    omega
  -- Digits behind the ninth would be dropped; there are none.
  have hdrop : rest.dropWhile Char.isDigit = rest := by
    cases rest with
    | nil => rfl
    | cons c rest => simp [hrest c rfl]
  unfold fraction
  rw [run_bind_of_eq_ok (a := '.' :: ((padded width n).toList ++ rest)) rfl]
  dsimp only
  split
  next cs heq =>
    obtain ⟨-, rfl⟩ := List.cons.inj heq
    rw [run_bind_of_eq_ok (a := ⟨⟩) rfl, run_bind_of_eq_ok hdigits,
      run_bind_of_eq_ok (a := rest) rfl, hcount]
    show Except.ok (n * Nat.pow 10 (9 - width), rest.dropWhile Char.isDigit) = _
    rw [hdrop]
    rfl
  next hnone =>
    exact absurd rfl (hnone _)

/-- Nanoseconds are read as they were written. -/
theorem run_fraction {n : Nat} (h : n < 1000000000) (rest : List Char) :
    fraction.run ((fractionText n).toList ++ 'Z' :: rest) = .ok (n, 'Z' :: rest) := by
  have hrest : ∀ c ∈ ('Z' :: rest).head?, c.isDigit = false := by
    intro c hc
    obtain rfl : 'Z' = c := by simpa using hc
    decide
  -- Three, six or nine digits are written, whichever are enough.
  unfold fractionText
  split
  next hzero =>
    subst hzero
    rfl
  split
  next hmilli =>
    have hrun := run_fraction_digits 3 (n / 1000000) (by decide) (by decide)
      (by omega) hrest
    have hvalue : n / 1000000 * 10 ^ (9 - 3) = n := by omega
    rw [hvalue] at hrun
    simpa using hrun
  split
  next hmicro =>
    have hrun := run_fraction_digits 6 (n / 1000) (by decide) (by decide)
      (by omega) hrest
    have hvalue : n / 1000 * 10 ^ (9 - 6) = n := by omega
    rw [hvalue] at hrun
    simpa using hrun
  next =>
    have hrun := run_fraction_digits 9 n (by decide) (by decide)
      (by omega) hrest
    simpa using hrun

/-! ## The whole text -/

/-- The parts of an instant that is valid make it up again. -/
theorem ofParts_eq {t : Instant} (h : t.IsValid) :
    ofParts (Calendar.ofDayNumber (t.seconds / 86400)) ((t.seconds % 86400).toNat / 3600)
        ((t.seconds % 86400).toNat / 60 % 60)
        ((t.seconds % 86400).toNat % 60 + t.nanos / 1000000000) (t.nanos % 1000000000) 0 =
      .ok t := by
  obtain ⟨hyear, hnanos⟩ := h
  generalize hclock : (t.seconds % 86400).toNat = clock
  have hlt : clock < 86400 := by omega
  have hsecond : min (clock % 60 + t.nanos / 1000000000) 59 = clock % 60 := by omega
  have hseconds : Calendar.dayNumber (Calendar.ofDayNumber (t.seconds / 86400)) * 86400 +
      ((clock / 3600 : Nat) * 3600 + (clock / 60 % 60 : Nat) * 60 +
        (clock % 60 : Nat)) - 0 = t.seconds := by
    rw [Calendar.dayNumber_ofDayNumber]
    omega
  -- A leap second is written as second 60, which is taken back here.
  have hnano : t.nanos % 1000000000 +
      (if clock % 60 + t.nanos / 1000000000 = 60 then 1000000000 else 0) = t.nanos := by
    split <;> omega
  unfold ofParts
  simp only [hyear, Calendar.isValid_ofDayNumber, hsecond, hseconds, hnano]
  rfl

/-- An instant is read from its text, and nothing of the text is left. -/
theorem run_reader_text {t : Instant} (h : t.IsValid) :
    reader.run t.text.toList = .ok (t, []) := by
  obtain ⟨hmonth, hday⟩ := Calendar.ofDayNumber_ranges (t.seconds / 86400)
  have hparts := ofParts_eq h
  have hyear := h.year
  have hsecond : (t.seconds % 86400).toNat % 60 + t.nanos / 1000000000 ≤ 60 := by
    have hnanos := h.nanos
    omega
  have hclock : (t.seconds % 86400).toNat < 86400 := by omega
  have hdash : ∀ rest : List Char, ∀ c ∈ ('-' :: rest).head?, c.isDigit = false := by
    intro rest c hc
    obtain rfl : '-' = c := by simpa using hc
    decide
  have hcolon : Text.isBlank ':' = false := by decide
  have hminus : Text.isBlank '-' = false := by decide
  have hdivider : ∀ rest, divider.run ('T' :: rest) = .ok ((), rest) := fun _ => rfl
  have hoffset : offset.run ['Z'] = .ok (0, []) := by decide
  unfold text reader
  dsimp only
  -- From here on it does not matter how the date and the time of day were found.
  generalize Calendar.ofDayNumber (t.seconds / 86400) = date at *
  generalize (t.seconds % 86400).toNat = clock at *
  simp only [String.toList_append, List.append_assoc, String.reduceToList, List.cons_append,
    List.nil_append]
  -- The reader takes the text apart piece by piece, from the year to the offset.
  rw [run_bind_of_eq_ok (run_year hyear (hdash _)), run_bind_of_eq_ok (run_mark hminus _),
    run_bind_of_eq_ok (run_number hmonth.1 hmonth.2 (by omega) _),
    run_bind_of_eq_ok (run_mark hminus _),
    run_bind_of_eq_ok (run_number hday.1 hday.2 (by omega) _),
    run_bind_of_eq_ok (hdivider _),
    run_bind_of_eq_ok (run_number (Nat.zero_le _) (by omega) (by omega) _),
    run_bind_of_eq_ok (run_mark hcolon _),
    run_bind_of_eq_ok (run_number (Nat.zero_le _) (by omega) (by omega) _),
    run_bind_of_eq_ok (run_mark hcolon _),
    run_bind_of_eq_ok (run_number (Nat.zero_le _) hsecond (by omega) _),
    run_bind_of_eq_ok (run_fraction (by omega) []), run_bind_of_eq_ok hoffset,
    run_bind_of_eq_ok (rfl : blanks.run [] = .ok ((), [])), run_bind_of_eq_ok (a := []) rfl]
  have hlift : (liftM (ofParts date (clock / 3600) (clock / 60 % 60)
      (clock % 60 + t.nanos / 1000000000) (t.nanos % 1000000000) 0) : Reader Instant).run [] =
      .ok (t, []) := by
    rw [hparts]
    rfl
  exact hlift

theorem ofChars?_text {t : Instant} (h : t.IsValid) : ofChars? t.text.toList = some t := by
  unfold ofChars? ofChars
  rw [run_reader_text h]
  rfl

end Instant

end DurableState
