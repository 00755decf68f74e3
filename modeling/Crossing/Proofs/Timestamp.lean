import Crossing.Timestamp
import Mathlib.Data.Nat.Digits.Defs

/-!
# Timestamps are read as they are written

A moment of the years 0 to 9999 is read back from its text. The calendar goes through the day
numbers: an era has 400 years that begin in March, and dates are found again from the day of their
era (`dateOfDay_dayNumber`).

The text has six numbers of a fixed width with marks between them, a fraction of the second of zero,
three, six or nine digits, and a `Z` at the end. Each part is read as it was written, for whatever
follows (`part_digitsWide`, `optionalFraction_fractionText`). What was read is then moved to
universal time, on the way through the day numbers; for `Z` this moves nothing, and the date has to
be found again. Main statement: `ofString_toText`.
-/

namespace Crossing.Timestamp

/-! ### The calendar -/

/-- The year of an era that a day belongs to. -/
def yearOfEra (n : ℕ) : ℕ := (n - n / 1460 + n / 36524 - n / 146096) / 365

/-- The first day of a year of an era. -/
def firstDay (y : ℕ) : ℕ := 365 * y + y / 4 - y / 100

/-- Years do not go back within an era. -/
theorem yearOfEra_mono {a b : ℕ} (h : a ≤ b) (hb : b < 146097) : yearOfEra a ≤ yearOfEra b := by
  apply Nat.div_le_div_right
  omega

/-- Whether a year that begins in March has 366 days. -/
def isLong (y : ℕ) : Bool := (y + 1) % 4 == 0 && ((y + 1) % 100 != 0 || (y + 1) % 400 == 0)

/-- The last day of a year of an era. -/
def lastDay (y : ℕ) : ℕ := firstDay y + if isLong y then 365 else 364

/-- The first and the last day of each year of an era are in this year. -/
theorem yearOfEra_ends : ∀ y < 400,
    yearOfEra (firstDay y) = y ∧ yearOfEra (lastDay y) = y ∧ lastDay y < 146097 := by
  decide +kernel

/-- The days from the first to the last of a year are of that year. -/
theorem yearOfEra_firstDay_add {y d : ℕ} (hy : y < 400) (hd : firstDay y + d ≤ lastDay y) :
    yearOfEra (firstDay y + d) = y := by
  obtain ⟨hfirst, hlast, hlt⟩ := yearOfEra_ends y hy
  have hlow := yearOfEra_mono (Nat.le_add_right (firstDay y) d) (by omega)
  have hhigh := yearOfEra_mono hd hlt
  omega

/-- The first day of a month of a year that begins in March. -/
def monthStart (m : ℕ) : ℕ := (153 * m + 2) / 5

/-- The days of a month of a year that begins in March; the last has what is left. -/
def monthLength (m : ℕ) : ℕ := if m = 11 then 29 else monthStart (m + 1) - monthStart m

/-- The month can be computed from the day, as months are counted from March. -/
theorem month_of_day : ∀ m < 12, ∀ d < 31, d < monthLength m →
    (5 * (monthStart m + d) + 2) / 153 = m := by
  decide

/-- A day is found again from its era, year, month and day of the month, each from zero on. -/
theorem dateOfDay_eq (era : ℤ) {y m d : ℕ} (hy : y < 400) (hm : m < 12) (hd : d < monthLength m)
    (hlast : firstDay y + (monthStart m + d) ≤ lastDay y) :
    dateOfDay (era * 146097 + (firstDay y + (monthStart m + d) : ℕ)) =
      if m < 10 then (y + era * 400, m + 3, d + 1) else (y + era * 400 + 1, m - 9, d + 1) := by
  have hlt := (yearOfEra_ends y hy).2.2
  have hyear := yearOfEra_firstDay_add hy hlast
  have hd' : d < 31 := by
    have hle : ∀ m < 12, monthLength m ≤ 31 := by decide
    exact lt_of_lt_of_le hd (hle m hm)
  have hmonth := month_of_day m hm d hd' hd
  generalize hn : firstDay y + (monthStart m + d) = n at *
  have hera : (era * 146097 + (n : ℤ)) / 146097 = era := by omega
  have hday : ((era * 146097 + (n : ℤ)) % 146097).toNat = n := by omega
  have hdoy : n - firstDay y = monthStart m + d := by omega
  have hdom : monthStart m + d - monthStart m + 1 = d + 1 := by omega
  rw [yearOfEra] at hyear
  rw [firstDay] at hdoy
  rw [monthStart] at hdoy hmonth hdom
  simp only [dateOfDay, hera, hday, hyear, hdoy, hmonth, hdom]
  split
  · rw [if_neg (by omega)]
  · rw [if_pos (by omega)]

/-- The lengths of months agree, apart from February. -/
theorem daysInMonth_eq (y : ℤ) : ∀ m < 12, m ≠ 11 →
    daysInMonth y (if m < 10 then m + 3 else m - 9) = monthLength m := by
  intro m hm hne
  have hcases : ∀ m < 12, m ≠ 11 → ∀ leap : Bool,
      (if (if m < 10 then m + 3 else m - 9) == 2 then (if leap then 29 else 28)
        else if (if m < 10 then m + 3 else m - 9) == 4 || (if m < 10 then m + 3 else m - 9) == 6 ||
          (if m < 10 then m + 3 else m - 9) == 9 || (if m < 10 then m + 3 else m - 9) == 11 then 30
        else 31) = monthLength m := by
    decide
  exact hcases m hm hne (isLeapYear y)

/-- A year that begins in March is long if it ends in a leap year. -/
theorem isLeapYear_succ (era : ℤ) (y : ℕ) : isLeapYear (y + era * 400 + 1) = isLong y := by
  have h₁ : ((y : ℤ) + era * 400 + 1) % 4 = ((y + 1) % 4 : ℕ) := by omega
  have h₂ : ((y : ℤ) + era * 400 + 1) % 100 = ((y + 1) % 100 : ℕ) := by omega
  have h₃ : ((y : ℤ) + era * 400 + 1) % 400 = ((y + 1) % 400 : ℕ) := by omega
  rw [isLeapYear, isLong, h₁, h₂, h₃, Bool.eq_iff_iff]
  simp only [Bool.and_eq_true, Bool.or_eq_true, beq_iff_eq, bne_iff_ne, ne_eq]
  omega

/-- A day of a month is no later than the last of its year. -/
theorem firstDay_add_le_lastDay (era : ℤ) {y m d : ℕ} (hm : m < 12)
    (hd : d < daysInMonth (if m < 10 then y + era * 400 else y + era * 400 + 1)
      (if m < 10 then m + 3 else m - 9)) :
    d < monthLength m ∧ firstDay y + (monthStart m + d) ≤ lastDay y := by
  by_cases hlast : m = 11
  · subst hlast
    rw [if_neg (by decide), if_neg (by decide), daysInMonth, if_pos (by decide),
      isLeapYear_succ] at hd
    have hstart : monthStart 11 = 337 := by decide
    have hlength : monthLength 11 = 29 := by decide
    rw [hstart, hlength, lastDay]
    split at hd <;> rename_i hlong
    · rw [if_pos hlong]
      omega
    · rw [if_neg hlong]
      omega
  · rw [daysInMonth_eq _ m hm hlast] at hd
    have hend : ∀ m < 11, monthStart m + monthLength m ≤ 337 := by decide
    have hle := hend m (by omega)
    refine ⟨hd, ?_⟩
    rw [lastDay]
    split <;> omega

/-- **Dates are found again from their day numbers.** -/
theorem dateOfDay_dayNumber {y : ℤ} {m d : ℕ} (hm : 1 ≤ m) (hm' : m ≤ 12) (hd : 1 ≤ d)
    (hd' : d ≤ daysInMonth y m) : dateOfDay (dayNumber y m d) = (y, m, d) := by
  -- years begin in March, so January and February belong to the year before
  obtain ⟨era, y', k, hy', hk, hy, hmonth⟩ : ∃ (era : ℤ) (y' k : ℕ), y' < 400 ∧ k < 12 ∧
      y = (if k < 10 then y' + era * 400 else y' + era * 400 + 1) ∧
      m = if k < 10 then k + 3 else k - 9 := by
    by_cases hearly : m ≤ 2
    · refine ⟨(y - 1) / 400, ((y - 1) % 400).toNat, m + 9, by omega, by omega, ?_, ?_⟩
      · rw [if_neg (by omega)]
        omega
      · rw [if_neg (by omega), Nat.add_sub_cancel]
    · refine ⟨y / 400, (y % 400).toNat, m - 3, by omega, by omega, ?_, ?_⟩
      · rw [if_pos (by omega)]
        omega
      · rw [if_pos (by omega)]
        omega
  obtain ⟨d, rfl⟩ : ∃ n, d = n + 1 := ⟨d - 1, by omega⟩
  rw [hy, hmonth] at hd'
  obtain ⟨hlength, hlast⟩ := firstDay_add_le_lastDay era hk hd'
  have hday : dayNumber y m (d + 1) = era * 146097 + (firstDay y' + (monthStart k + d) : ℕ) := by
    rw [dayNumber, firstDay, monthStart, hy, hmonth]
    split
    · rw [if_neg (by omega), if_neg (by omega), Nat.add_sub_cancel]
      push_cast
      omega
    · rw [if_pos (by omega), if_pos (by omega), show k - 9 + 9 = k by omega]
      push_cast
      omega
  rw [hday, dateOfDay_eq era hy' hk hlength hlast, hy, hmonth]
  split <;> rfl

/-- A moment of the years that are written with four digits. -/
structure IsValid (t : Timestamp) : Prop where
  year_nonneg : 0 ≤ t.year
  year_le : t.year ≤ 9999
  month_pos : 1 ≤ t.month
  month_le : t.month ≤ 12
  day_pos : 1 ≤ t.day
  day_le : t.day ≤ daysInMonth t.year t.month
  hour_le : t.hour ≤ 23
  minute_le : t.minute ≤ 59
  second_le : t.second ≤ 60
  nanos_lt : t.nanos < 1000000000

section

variable {t : Timestamp}

theorem inYears_of_isValid (h : t.IsValid) : inYears t.year = true := by
  have hlow := h.year_nonneg
  have hhigh := h.year_le
  rw [inYears, Bool.and_eq_true, decide_eq_true_eq, decide_eq_true_eq]
  omega

/-- A moment in universal time stays as it is. -/
theorem toUniversal_zero (h : t.IsValid) : toUniversal t 0 = .ok t := by
  have hhour := h.hour_le
  have hminute := h.minute_le
  have hsecond := h.second_le
  have hdate := dateOfDay_dayNumber h.month_pos h.month_le h.day_pos h.day_le
  have hrange : (!inYears t.year || decide (daysInMonth t.year t.month < t.day)) = false := by
    rw [inYears_of_isValid h, decide_eq_false (not_lt.2 h.day_le)]
    rfl
  generalize hn : t.hour * 3600 + t.minute * 60 + min t.second 59 = n
  have hlt : n < 86400 := by omega
  have hday : (dayNumber t.year t.month t.day * 86400 + (n : ℤ) - 0) / 86400 =
      dayNumber t.year t.month t.day := by omega
  have htime : ((dayNumber t.year t.month t.day * 86400 + (n : ℤ) - 0) % 86400).toNat = n := by
    omega
  rw [toUniversal]
  simp only [hn, hday, htime, hdate]
  rw [hrange, if_neg Bool.false_ne_true, if_neg (by decide),
    if_neg (by simp [inYears_of_isValid h])]
  have h₁ : n / 3600 = t.hour := by omega
  have h₂ : n / 60 % 60 = t.minute := by omega
  have h₃ : n % 60 + (t.second - min t.second 59) = t.second := by omega
  rw [h₁, h₂, h₃]
  rfl

end

/-! ### Parts of a text -/

section

variable {ds rest : List Char} {w n : ℕ}

/-- Digits are read up to the width, or up to the first character that is none. -/
theorem number_digits (hds : ∀ c ∈ ds, c.isDigit = true) (hne : ds ≠ [])
    (hwidth : ds.length = w ∨ ds.length ≤ w ∧ rest.takeWhile Char.isDigit = [])
    (hlt : Nat.ofDigitChars 10 ds 0 < 2 ^ 63) :
    number (some w) (ds ++ rest) = .ok (Nat.ofDigitChars 10 ds 0, rest) := by
  have hrun : ((ds ++ rest).takeWhile Char.isDigit).take w = ds := by
    rw [List.takeWhile_append_of_pos hds]
    rcases hwidth with rfl | ⟨hle, hrest⟩
    · exact List.take_left
    · rw [hrest, List.append_nil, List.take_of_length_le hle]
  have hempty : (ds ++ rest).isEmpty = false := by simp [hne]
  have hempty' : ds.isEmpty = false := by simp [hne]
  simp only [number, hrun, hempty, hempty', List.drop_left]
  exact if_neg (not_le.2 hlt)

theorem toList_digitsWide (w n : ℕ) : (digitsWide w n).toList =
    List.replicate (w - (Nat.toDigits 10 n).length) '0' ++ Nat.toDigits 10 n := by
  rw [digitsWide, String.toList_ofList]

theorem isDigit_digitsWide (w n : ℕ) : ∀ c ∈ (digitsWide w n).toList, c.isDigit = true := by
  intro c hc
  rw [toList_digitsWide, List.mem_append] at hc
  rcases hc with hc | hc
  · rw [List.eq_of_mem_replicate hc]
    rfl
  · exact Nat.isDigit_of_mem_toDigits (by decide) (by decide) hc

/-- A number that fits has the width that was asked for. -/
theorem length_digitsWide (hw : 0 < w) (hn : n < 10 ^ w) : (digitsWide w n).toList.length = w := by
  have hle := (Nat.length_toDigits_le_iff (by decide) hw).2 hn
  rw [toList_digitsWide, List.length_append, List.length_replicate, Nat.sub_add_cancel hle]

/-- Zeros in front do not change a number. -/
theorem ofDigitChars_digitsWide (w n : ℕ) :
    Nat.ofDigitChars 10 (digitsWide w n).toList 0 = n := by
  rw [toList_digitsWide, Nat.ofDigitChars_append, Nat.ofDigitChars_replicate_zero, mul_zero,
    Nat.ofDigitChars_ten_toDigits]

theorem digitsWide_ne_nil (w n : ℕ) : (digitsWide w n).toList ≠ [] := by
  rw [toList_digitsWide]
  exact List.append_ne_nil_of_right_ne_nil _ Nat.toDigits_ne_nil

/-- A number that has been padded to a width is read back, whatever follows. -/
theorem number_digitsWide (hw : 0 < w) (hw' : w ≤ 9) (hn : n < 10 ^ w) :
    number (some w) ((digitsWide w n).toList ++ rest) = .ok (n, rest) := by
  have hlt : n < 2 ^ 63 :=
    hn.trans_le ((Nat.pow_le_pow_right (by decide) hw').trans (by decide))
  rw [number_digits (isDigit_digitsWide w n) (digitsWide_ne_nil w n)
    (.inl (length_digitsWide hw hn)) (by rwa [ofDigitChars_digitsWide]), ofDigitChars_digitsWide]

theorem isBlank_of_isDigit {c : Char} (h : c.isDigit = true) : Text.isBlank c = false := by
  have hbounds : 48 ≤ c.toNat ∧ c.toNat ≤ 57 := by
    simpa [Char.isDigit, UInt32.le_iff_toNat_le] using h
  simp only [Text.isBlank, Bool.or_eq_false_iff, Bool.and_eq_false_iff, decide_eq_false_iff_not,
    beq_eq_false_iff_ne]
  omega

theorem trimStart_cons {c : Char} (hc : Text.isBlank c = false) (cs : List Char) :
    Text.trimStart (c :: cs) = c :: cs := by
  rw [Text.trimStart, List.dropWhile_cons, hc]
  rfl

/-- Nothing is trimmed before a number. -/
theorem trimStart_digitsWide (w n : ℕ) (rest : List Char) :
    Text.trimStart ((digitsWide w n).toList ++ rest) = (digitsWide w n).toList ++ rest := by
  have hdigits := isDigit_digitsWide w n
  obtain ⟨c, cs, hcs⟩ := List.exists_cons_of_ne_nil (digitsWide_ne_nil w n)
  rw [hcs] at hdigits ⊢
  exact trimStart_cons (isBlank_of_isDigit (hdigits c List.mem_cons_self)) _

/-- Two digits are read as the number that was written. -/
theorem part_digitsWide {least most : ℕ} (hlow : least ≤ n) (hhigh : n ≤ most) (hn : n < 100) :
    part least most ((digitsWide 2 n).toList ++ rest) = .ok (n, rest) := by
  have hrange : (decide (n < least) || decide (most < n)) = false := by
    rw [decide_eq_false (not_lt.2 hlow), decide_eq_false (not_lt.2 hhigh)]
    rfl
  rw [part, trimStart_digitsWide, number_digitsWide (by decide) (by decide) hn]
  simp only [bind, Except.bind, hrange]
  rfl

theorem mark_cons {c : Char} (hc : Text.isBlank c = false) (r : List Char) :
    mark c (c :: r) = .ok r := by
  rw [mark, trimStart_cons hc]
  exact if_pos (beq_self_eq_true c)

/-- Four digits are read as the year that was written. -/
theorem yearPart_digitsWide (hn : n ≤ 9999) :
    yearPart ((digitsWide 4 n).toList ++ rest) = .ok (n, rest) := by
  have hnumber := @number_digitsWide rest 4 n (by decide) (by decide) (by omega)
  have hsign {c : Char} (hc : c.isDigit = false) (r : List Char) :
      (digitsWide 4 n).toList ++ rest ≠ c :: r := by
    have hdigits := isDigit_digitsWide 4 n
    obtain ⟨d, ds, hds⟩ := List.exists_cons_of_ne_nil (digitsWide_ne_nil 4 n)
    rw [hds] at hdigits ⊢
    intro heq
    have hd := hdigits d List.mem_cons_self
    rw [(List.cons.inj heq).1, hc] at hd
    exact absurd hd (by decide)
  have hrange : (decide ((n : ℤ) < -2147483648) || decide (2147483648 ≤ (n : ℤ))) = false := by
    rw [decide_eq_false (by omega), decide_eq_false (by omega)]
    rfl
  rw [yearPart, trimStart_digitsWide]
  split
  · exact absurd ‹_› (hsign (by decide) _)
  · exact absurd ‹_› (hsign (by decide) _)
  · rw [hnumber]
    simp only [bind, Except.bind, pure, Except.pure, hrange]
    rfl

/-- A fraction of some digits, up to a character that is none. -/
theorem fraction_digitsWide (hw : 0 < w) (hw' : w ≤ 9) (hn : n < 10 ^ w)
    (hrest : rest.takeWhile Char.isDigit = []) :
    fraction ((digitsWide w n).toList ++ rest) = .ok (n * 10 ^ (9 - w), rest) := by
  have hlt : n < 2 ^ 63 :=
    hn.trans_le ((Nat.pow_le_pow_right (by decide) hw').trans (by decide))
  have hlength := length_digitsWide hw hn
  have hnumber : number (some 9) ((digitsWide w n).toList ++ rest) = .ok (n, rest) := by
    rw [number_digits (isDigit_digitsWide w n) (digitsWide_ne_nil w n) (.inr ⟨by omega, hrest⟩)
      (by rwa [ofDigitChars_digitsWide]), ofDigitChars_digitsWide]
  have hdrop : rest.dropWhile Char.isDigit = rest := by
    have happend := List.takeWhile_append_dropWhile (p := Char.isDigit) (l := rest)
    rwa [hrest, List.nil_append] at happend
  have hcount : ((digitsWide w n).toList ++ rest).length - rest.length = w := by
    rw [List.length_append, hlength, Nat.add_sub_cancel]
  rw [fraction, hnumber]
  simp only [bind, Except.bind, hdrop, hcount]
  rfl

/-- A fraction of three, six or nine digits, or none, is read as it was written. -/
theorem optionalFraction_fractionText (hn : n < 1000000000) :
    optionalFraction ((fractionText n).toList ++ ['Z']) = .ok (n, ['Z']) := by
  -- whichever unit it is given in, the fraction is its digits times what is left to billionths
  have hpoint (w k : ℕ) (hw : 0 < w) (hw' : w ≤ 9) (hk : k < 10 ^ w)
      (hvalue : k * 10 ^ (9 - w) = n) :
      optionalFraction (("." ++ digitsWide w k).toList ++ ['Z']) = .ok (n, ['Z']) := by
    have htext : ".".toList = ['.'] := rfl
    rw [String.toList_append, htext, List.append_assoc, List.cons_append, List.nil_append,
      optionalFraction, fraction_digitsWide hw hw' hk (by decide), hvalue]
  rw [fractionText]
  simp only [beq_iff_eq]
  split
  case isTrue h =>
    subst h
    rfl
  case isFalse =>
    split
    case isTrue h => exact hpoint 3 (n / 1000000) (by decide) (by decide) (by omega) (by omega)
    case isFalse =>
      split
      case isTrue h => exact hpoint 6 (n / 1000) (by decide) (by decide) (by omega) (by omega)
      case isFalse => exact hpoint 9 n (by decide) (by decide) hn (by omega)

end

/-- The text of a time that exists, part by part. -/
theorem toList_toText {t : Timestamp} (h : t.IsValid) : t.toText.toList =
    (digitsWide 4 t.year.toNat).toList ++ '-' :: ((digitsWide 2 t.month).toList ++
      '-' :: ((digitsWide 2 t.day).toList ++ 'T' :: ((digitsWide 2 t.hour).toList ++
        ':' :: ((digitsWide 2 t.minute).toList ++ ':' :: ((digitsWide 2 t.second).toList ++
          ((fractionText t.nanos).toList ++ ['Z'])))))) := by
  have hlow := h.year_nonneg
  have hyear : yearText t.year = digitsWide 4 t.year.toNat := by
    rw [yearText, decide_eq_true hlow, decide_eq_true h.year_le,
      show t.year.natAbs = t.year.toNat by omega]
    rfl
  have hdash : "-".toList = ['-'] := rfl
  have hcolon : ":".toList = [':'] := rfl
  have hmark : "T".toList = ['T'] := rfl
  have hzulu : "Z".toList = ['Z'] := rfl
  rw [toText, hyear]
  simp only [String.toList_append, hdash, hcolon, hmark, hzulu, List.append_assoc, List.cons_append,
    List.nil_append]

/-- **A moment is read back from its text.** -/
theorem ofString_toText {t : Timestamp} (h : t.IsValid) : ofString t.toText = .ok t := by
  have hlow := h.year_nonneg
  have hhigh := h.year_le
  have hyear : ((t.year.toNat : ℕ) : ℤ) = t.year := Int.toNat_of_nonneg hlow
  have hmonth := h.month_le
  have hday : t.day ≤ 31 := by
    refine h.day_le.trans ?_
    rw [daysInMonth]
    split_ifs <;> decide
  have hhour := h.hour_le
  have hminute := h.minute_le
  have hsecond := h.second_le
  have hdivider (r : List Char) : divider ('T' :: r) = .ok r := rfl
  have hzone : zone ['Z'] = .ok (0, []) := by decide
  have hend : (!(Text.trimStart []).isEmpty) = false := by decide
  rw [ofString, toList_toText h, yearPart_digitsWide (by omega)]
  simp only [bind, Except.bind, mark_cons (c := '-') (by decide), mark_cons (c := ':') (by decide),
    hdivider, part_digitsWide h.month_pos hmonth (by omega),
    part_digitsWide h.day_pos hday (by omega), part_digitsWide (Nat.zero_le _) hhour (by omega),
    part_digitsWide (Nat.zero_le _) hminute (by omega),
    part_digitsWide (Nat.zero_le _) hsecond (by omega), optionalFraction_fractionText h.nanos_lt,
    hzone, hend, hyear]
  rw [if_neg Bool.false_ne_true]
  exact toUniversal_zero h

end Crossing.Timestamp
