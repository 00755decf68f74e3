import Crossing.Json.Printer
import Crossing.Proofs.Outcome
import Crossing.Proofs.Text.Encoding
import Mathlib.Data.List.Basic
import Mathlib.Data.Nat.Digits.Defs

/-!
# Numbers as they are written and read

Reading goes through the digits of a number and ends with a significand and an exponent of ten.
For the numbers that are printed, these are the number itself (`readNumber_toDigits`), or the digits
and the exponent of its decimal, up to the zero that a whole number has after its point
(`readNumber_decimal`).

The reader has four stages: the whole part, the digits after the point, the exponent, and the end of
the number, where anything but a comma or a line break would be refused (`Stops`). Each stage has
its lemma, stated for whatever follows. What comes behind the digits only shifts their exponent
(`Shifts`), so decimals with a written exponent and decimals without one are treated alike.
-/

namespace Crossing.Json

open Text.Utf8 (encode encode_nil encode_append)

/-- Whether a value can end here: before a comma or a line break, or where the text ends. -/
def Stops (rest : List UInt8) : Prop := ∀ b ∈ rest.head?, b = ascii ',' ∨ b = ascii '\n'

/-- Whether a run of digits can end here. -/
def NoDigit (rest : List UInt8) : Prop := rest.head?.any isDigit = false

/-! ### Digits -/

section

variable {c : Char} {ds : List Char} {rest : List UInt8} {s : ℕ}

/-- A digit is one octet, with the same code. -/
theorem toNat_ascii (h : c.isDigit = true) :
    48 ≤ c.toNat ∧ c.toNat ≤ 57 ∧ (ascii c).toNat = c.toNat := by
  have hbounds : 48 ≤ c.toNat ∧ c.toNat ≤ 57 := by
    simpa [Char.isDigit, UInt32.le_iff_toNat_le] using h
  exact ⟨hbounds.1, hbounds.2, Text.toNat_toUInt8 (by omega)⟩

theorem isDigit_ascii (h : c.isDigit = true) : isDigit (ascii c) = true := by
  obtain ⟨hlow, hhigh, hc⟩ := toNat_ascii h
  rw [isDigit, Bool.and_eq_true, decide_eq_true_eq, decide_eq_true_eq, UInt8.le_iff_toNat_le,
    UInt8.le_iff_toNat_le, hc]
  exact ⟨hlow, hhigh⟩

theorem digitValue_ascii (h : c.isDigit = true) : digitValue (ascii c) = c.toNat - '0'.toNat := by
  rw [digitValue, (toNat_ascii h).2.2]
  rfl

theorem encode_cons_digit (h : c.isDigit = true) (cs : List Char) :
    encode (c :: cs) = ascii c :: encode cs := by
  have hc : c.toNat < 0x80 := by
    have := (toNat_ascii h).2.1
    omega
  rw [Text.Utf8.encode_cons, (Text.encodeChar_of_ascii hc).1]
  rfl

theorem le_ofDigitChars (ds : List Char) (s : ℕ) : s ≤ Nat.ofDigitChars 10 ds s := by
  induction ds generalizing s with
  | nil => exact le_rfl
  | cons c ds ih =>
    rw [Nat.ofDigitChars_cons]
    exact le_trans (by omega) (ih _)

theorem gather_noDigit (h : NoDigit rest) (s : ℕ) : gather s rest = (s, 0, rest) := by
  cases rest with
  | nil => rfl
  | cons b r =>
    have hb : isDigit b = false := by simpa [NoDigit] using h
    simp [gather, hb]

/-- Digits are gathered up to the first octet that is none. -/
theorem gather_digits (hds : ∀ c ∈ ds, c.isDigit = true)
    (hlt : Nat.ofDigitChars 10 ds s < UInt64.size) (hrest : NoDigit rest) :
    gather s (encode ds ++ rest) = (Nat.ofDigitChars 10 ds s, ds.length, rest) := by
  induction ds generalizing s with
  | nil => exact gather_noDigit hrest s
  | cons c ds ih =>
    have hc := hds c (List.mem_cons_self)
    rw [Nat.ofDigitChars_cons] at hlt ⊢
    have hfits := (le_ofDigitChars ds _).trans_lt hlt
    rw [encode_cons_digit hc, List.cons_append, gather, isDigit_ascii hc, digitValue_ascii hc,
      decide_eq_true hfits, ih (fun d hd ↦ hds d (List.mem_cons_of_mem _ hd)) hlt]
    rfl

/-- The digits of an exponent are gathered in the same way. -/
theorem exponentDigits_digits (hds : ∀ c ∈ ds, c.isDigit = true)
    (hlt : Nat.ofDigitChars 10 ds s < 2 ^ 31) (hrest : NoDigit rest) :
    exponentDigits s (encode ds ++ rest) = (some (Nat.ofDigitChars 10 ds s), rest) := by
  induction ds generalizing s with
  | nil =>
    cases rest with
    | nil => rfl
    | cons b r =>
      have hb : isDigit b = false := by simpa [NoDigit] using hrest
      simp [exponentDigits, hb]
  | cons c ds ih =>
    have hc := hds c (List.mem_cons_self)
    rw [Nat.ofDigitChars_cons] at hlt ⊢
    have hfits := (le_ofDigitChars ds _).trans_lt hlt
    rw [encode_cons_digit hc, List.cons_append, exponentDigits, if_pos (isDigit_ascii hc),
      digitValue_ascii hc]
    exact (if_neg (not_le.2 hfits)).trans
      (ih (fun d hd ↦ hds d (List.mem_cons_of_mem _ hd)) hlt)

end

/-! ### Whole parts -/

/-- The digits of a whole part: there are some, and they do not begin with a zero unless that is all
there is. -/
structure IsWhole (ds : List Char) : Prop where
  isDigit : ∀ c ∈ ds, c.isDigit = true
  ne_nil : ds ≠ []
  leading : ds.head? = some '0' → ds = ['0']

/-- A positive number does not begin with a zero. -/
theorem head?_toDigits {n : ℕ} (hn : 0 < n) : (Nat.toDigits 10 n).head? ≠ some '0' := by
  induction n using Nat.strong_induction_on with
  | h n ih =>
    rw [Nat.toDigits_eq_if (by decide)]
    split
    case isTrue h =>
      have hdigit : ∀ n < 10, 0 < n → [Nat.digitChar n].head? ≠ some '0' := by decide
      exact hdigit n h hn
    case isFalse h =>
      rw [List.head?_append_of_ne_nil _ Nat.toDigits_ne_nil]
      exact ih (n / 10) (by omega) (by omega)

theorem isDigit_toDigits (n : ℕ) : ∀ c ∈ Nat.toDigits 10 n, c.isDigit = true := fun _ hc ↦
  Nat.isDigit_of_mem_toDigits (by decide) (by decide) hc

/-- The digits of a number are a whole part as the grammar wants it. -/
theorem isWhole_toDigits (n : ℕ) : IsWhole (Nat.toDigits 10 n) where
  isDigit := isDigit_toDigits n
  ne_nil := Nat.toDigits_ne_nil
  leading h := by
    rcases n.eq_zero_or_pos with rfl | hn
    · rfl
    · exact absurd h (head?_toDigits hn)

/-- A number begins with its whole part. -/
theorem readNumber_whole {ds : List Char} {rest : List UInt8} (hds : IsWhole ds)
    (hlt : Nat.ofDigitChars 10 ds 0 < UInt64.size) (hrest : NoDigit rest) :
    readNumber true (encode ds ++ rest) = readRest true (Nat.ofDigitChars 10 ds 0) rest := by
  obtain ⟨c, cs, rfl⟩ := List.exists_cons_of_ne_nil hds.ne_nil
  have hc := hds.isDigit c List.mem_cons_self
  rw [encode_cons_digit hc, List.cons_append, readNumber]
  by_cases hzero : c = '0'
  · have hcs : cs = [] := (List.cons.inj (hds.leading (congrArg some hzero))).2
    subst hzero hcs
    rw [if_pos (by rfl), encode_nil, List.nil_append, hrest]
    rfl
  · have hne : (ascii c == ascii '0') = false := by
      rw [beq_eq_false_iff_ne]
      intro heq
      have hnat := congrArg UInt8.toNat heq
      rw [(toNat_ascii hc).2.2] at hnat
      exact hzero (Char.toNat_inj.1 hnat)
    have hgather := gather_digits (fun d hd ↦ hds.isDigit d (List.mem_cons_of_mem _ hd))
      (by rwa [Nat.ofDigitChars_cons, mul_zero, zero_add] at hlt) hrest
    rw [hne, isDigit_ascii hc, digitValue_ascii hc, hgather]
    rw [Nat.ofDigitChars_cons, mul_zero, zero_add]
    exact if_neg (Bool.eq_false_iff.1 hrest)

/-! ### Fractions and exponents -/

section

variable {ds : List Char} {rest : List UInt8} {s : ℕ}

/-- Where a value ends, there is no digit. -/
theorem Stops.noDigit (h : Stops rest) : NoDigit rest := by
  cases rest with
  | nil => rfl
  | cons b r => rcases h b rfl with rfl | rfl <;> rfl

/-- Where a value ends, there is no exponent either, and the parts are all there is. -/
theorem readScaled_stops (h : Stops rest) (s : ℕ) (e : ℤ) :
    readScaled true s e rest = (ofParts true s e).map (·, rest) := by
  cases rest with
  | nil => exact map_of_bind _ _
  | cons b r =>
    have hb : isExponentMark b = false := by rcases h b rfl with rfl | rfl <;> rfl
    rw [readScaled, hb]
    exact map_of_bind _ _

/-- Digits after the point go on with the significand, and each lowers the exponent by one. -/
theorem readFraction_digits (hds : ∀ c ∈ ds, c.isDigit = true) (hne : ds ≠ [])
    (hlt : Nat.ofDigitChars 10 ds s < UInt64.size) (hrest : NoDigit rest) (e : ℤ) :
    readFraction true s e (encode ds ++ rest) =
      readScaled true (Nat.ofDigitChars 10 ds s) (e - ds.length) rest := by
  have hlength : (ds.length == 0) = false := by
    simpa using hne
  rw [readFraction, gather_digits hds hlt hrest]
  simp only [hlength]
  exact if_neg (Bool.eq_false_iff.1 hrest)

/-- Exponents that fit are not changed. -/
theorem saturate_eq {e : ℤ} (h : e.natAbs < 2 ^ 31) : saturate e = e := by
  rw [saturate]
  omega

/-- An exponent with a sign is added or subtracted. -/
theorem readExponent_cons {c : Char} {d : UInt8} {r : List UInt8} {n : ℕ} (hc : c = '+' ∨ c = '-')
    (hd : isDigit d = true) (hdigits : exponentDigits (digitValue d) r = (some n, rest)) (e : ℤ) :
    readExponent true s e (ascii c :: d :: r) =
      (ofParts true s (saturate (if c = '+' then e + n else e - n))).map (·, rest) := by
  rcases hc with rfl | rfl
  all_goals
    simp only [readExponent]
    simp [ascii, hd, hdigits]
    exact map_of_bind _ _

/-- An exponent after its mark is added to the one of the digits. -/
theorem readExponent_signed {x : ℤ} (hx : x.natAbs < 2 ^ 31) {e : ℤ}
    (he : (e + x).natAbs < 2 ^ 31) (hrest : NoDigit rest) :
    readExponent true s e
        (encode (if x < 0 then ['-'] else ['+']) ++ (encode (Nat.toDigits 10 x.natAbs) ++ rest)) =
      (ofParts true s (e + x)).map (·, rest) := by
  obtain ⟨c, cs, hcs⟩ := List.exists_cons_of_ne_nil (@Nat.toDigits_ne_nil x.natAbs 10)
  have hdigits := isDigit_toDigits x.natAbs
  have hvalue := @Nat.ofDigitChars_ten_toDigits x.natAbs
  rw [hcs] at hdigits hvalue ⊢
  rw [Nat.ofDigitChars_cons, mul_zero, zero_add] at hvalue
  have hc := hdigits c List.mem_cons_self
  have hexponent := exponentDigits_digits (fun d hd ↦ hdigits d (List.mem_cons_of_mem _ hd))
    (by rwa [hvalue]) hrest
  rw [encode_cons_digit hc, List.cons_append]
  rw [← digitValue_ascii hc] at hexponent hvalue
  rw [hvalue] at hexponent
  split
  case isTrue hneg =>
    have hread := readExponent_cons (s := s) (.inr rfl) (isDigit_ascii hc) hexponent e
    rw [if_neg (by decide), show e - (x.natAbs : ℤ) = e + x by omega, saturate_eq he] at hread
    exact hread
  case isFalse hneg =>
    have hread := readExponent_cons (s := s) (.inl rfl) (isDigit_ascii hc) hexponent e
    rw [if_pos rfl, show e + (x.natAbs : ℤ) = e + x by omega, saturate_eq he] at hread
    exact hread

/-- A whole part with nothing behind it is a natural number. -/
theorem readRest_stops (h : Stops rest) (s : ℕ) :
    readRest true s rest = .ok (.natural s.toUInt64, rest) := by
  cases rest with
  | nil => rfl
  | cons b r => rcases h b rfl with rfl | rfl <;> rfl

/-- **A natural number of 64 bits is read as it was written.** -/
theorem readNumber_toDigits {n : ℕ} (hn : n < UInt64.size) (hrest : Stops rest) :
    readNumber true (encode (Nat.toDigits 10 n) ++ rest) = .ok (.natural n.toUInt64, rest) := by
  have hvalue := @Nat.ofDigitChars_ten_toDigits n
  rw [readNumber_whole (isWhole_toDigits n) (by rwa [hvalue]) hrest.noDigit, hvalue,
    readRest_stops hrest]

end

/-! ### Decimals -/

open Decimal (Layout)

/-- The significand and the exponent of ten that are read from a decimal as summaries write it. A
whole number that is written in full has a zero after its point. -/
def scanned (d : Decimal) : ℕ × ℤ :=
  if 0 ≤ d.exponent ∧ d.exponent + (Nat.toDigits 10 d.digits).length ≤ 16 then
    (d.digits * 10 ^ (d.exponent.toNat + 1), -1)
  else (d.digits, d.exponent)

/-- What a number is read as, once its digits have been read. -/
def doubleOf (s : ℕ) (e : ℤ) (rest : List UInt8) : Except Issue (Number × List UInt8) :=
  (ofParts true s e).map fun x ↦ (.double x, rest)

section

variable {ds fs : List Char} {tail rest : List UInt8} {x : ℤ}

/-- What may follow the digits of a number, and what it adds to their exponent. -/
structure Shifts (tail : List UInt8) (x : ℤ) (rest : List UInt8) : Prop where
  noDigit : NoDigit tail
  readScaled : ∀ s e, e.natAbs < 2 ^ 30 →
    readScaled true s e tail = (ofParts true s (e + x)).map (·, rest)

/-- Where a value ends, nothing is added to the exponent. -/
theorem Stops.shifts (h : Stops rest) : Shifts rest 0 rest where
  noDigit := h.noDigit
  readScaled s e _ := by rw [readScaled_stops h, add_zero]

/-- The text of an exponent with its mark. -/
def markedExponent (x : ℤ) : List Char :=
  'e' :: (if x < 0 then ['-'] else ['+']) ++ Nat.toDigits 10 x.natAbs

theorem encode_markedExponent (x : ℤ) (rest : List UInt8) :
    encode (markedExponent x) ++ rest = ascii 'e' ::
      (encode (if x < 0 then ['-'] else ['+']) ++ (encode (Nat.toDigits 10 x.natAbs) ++ rest)) := by
  rw [markedExponent, encode_append, Text.Utf8.encode_cons, List.append_assoc, List.append_assoc]
  rfl

/-- A written exponent is added to the one of the digits. -/
theorem shifts_markedExponent (hx : x.natAbs < 2 ^ 30) (h : Stops rest) :
    Shifts (encode (markedExponent x) ++ rest) x rest where
  noDigit := by
    rw [encode_markedExponent]
    rfl
  readScaled s e he := by
    rw [encode_markedExponent]
    exact readExponent_signed (by omega) (by omega) h.noDigit

/-- Digits with a point are read as one significand. -/
theorem readNumber_point {p : ℕ} {e : ℤ} (hds : IsWhole ds) (hfs : ∀ c ∈ fs, c.isDigit = true)
    (hne : fs ≠ []) (hlength : fs.length < 2 ^ 30) (htail : Shifts tail x rest)
    (hp : Nat.ofDigitChars 10 (ds ++ fs) 0 = p) (hlt : p < UInt64.size) (he : x - fs.length = e) :
    readNumber true (encode (ds ++ '.' :: fs) ++ tail) = doubleOf p e rest := by
  subst hp he
  rw [Nat.ofDigitChars_append] at hlt ⊢
  have hfraction := readFraction_digits hfs hne hlt htail.noDigit 0
  rw [htail.readScaled _ _ (by omega), zero_sub, neg_add_eq_sub] at hfraction
  rw [encode_append, List.append_assoc,
    readNumber_whole hds ((le_ofDigitChars _ _).trans_lt hlt) (by rfl)]
  have hread : readRest true (Nat.ofDigitChars 10 ds 0) (encode ('.' :: fs) ++ tail) =
      (readFraction true (Nat.ofDigitChars 10 ds 0) 0 (encode fs ++ tail)).map
        fun y ↦ (.double y.1, y.2) := rfl
  rw [hread, hfraction, except_map_map, doubleOf]

/-- Digits with an exponent and no point. -/
theorem readNumber_markedExponent (hds : IsWhole ds)
    (hlt : Nat.ofDigitChars 10 ds 0 < UInt64.size) (hx : x.natAbs < 2 ^ 30) (hrest : Stops rest) :
    readNumber true (encode ds ++ (encode (markedExponent x) ++ rest)) =
      doubleOf (Nat.ofDigitChars 10 ds 0) x rest := by
  have htail := shifts_markedExponent hx hrest
  have hscaled := htail.readScaled (Nat.ofDigitChars 10 ds 0) 0 (by decide)
  rw [readNumber_whole hds hlt htail.noDigit]
  rw [encode_markedExponent] at hscaled ⊢
  have hread (r : List UInt8) : readRest true (Nat.ofDigitChars 10 ds 0) (ascii 'e' :: r) =
      (readScaled true (Nat.ofDigitChars 10 ds 0) 0 (ascii 'e' :: r)).map
        fun y ↦ (.double y.1, y.2) := rfl
  rw [hread, hscaled, except_map_map, zero_add, doubleOf]

/-! ### Decimals as they are written -/

/-- Zeros behind a number leave it a whole part. -/
theorem isWhole_toDigits_append {p : ℕ} (hp : 0 < p) (n : ℕ) :
    IsWhole (Nat.toDigits 10 p ++ List.replicate n '0') where
  isDigit c hc := by
    rcases List.mem_append.1 hc with hc | hc
    · exact isDigit_toDigits p c hc
    · rw [List.eq_of_mem_replicate hc]
      rfl
  ne_nil := List.append_ne_nil_of_left_ne_nil Nat.toDigits_ne_nil _
  leading h := by
    rw [List.head?_append_of_ne_nil _ Nat.toDigits_ne_nil] at h
    exact absurd h (head?_toDigits hp)

/-- The first digits of a number are a whole part. -/
theorem isWhole_take {p w : ℕ} (hp : 0 < p) (hw : 0 < w) :
    IsWhole ((Nat.toDigits 10 p).take w) where
  isDigit c hc := isDigit_toDigits p c (List.mem_of_mem_take hc)
  ne_nil := by simp [hw.ne', Nat.toDigits_ne_nil]
  leading h := by
    rw [List.head?_take, if_neg hw.ne'] at h
    exact absurd h (head?_toDigits hp)

/-- The three ways to place the point: before the digits, behind them, or between them. -/
theorem toList_placePoint (point : Bool) (ds : List Char) (w : ℤ) :
    (Decimal.placePoint point (String.ofList ds) w).toList =
      if w ≤ 0 then ['0'] ++ '.' :: (List.replicate w.natAbs '0' ++ ds)
      else if ds.length ≤ w then
        ds ++ List.replicate (w.toNat - ds.length) '0' ++ if point then ['.', '0'] else []
      else ds.take w.toNat ++ '.' :: ds.drop w.toNat := by
  simp only [Decimal.placePoint, Decimal.zeros, String.length_ofList]
  split
  · simp
  split
  · cases point <;> simp
  · simp

/-- The four ways to write a decimal. -/
theorem toList_decimal (d : Decimal) :
    let ds := Nat.toDigits 10 d.digits
    let w := d.exponent + ds.length
    (Layout.summary.decimal d).toList =
      if -4 ≤ w ∧ w ≤ 16 then (Decimal.placePoint true (String.ofList ds) w).toList
      else (if ds.length = 1 then ds else (Decimal.placePoint false (String.ofList ds) 1).toList) ++
        markedExponent (w - 1) := by
  intro ds w
  have hiff : (-5 ≤ w - 1 ∧ w - 1 < 16) ↔ (-4 ≤ w ∧ w ≤ 16) := by omega
  simp only [Layout.decimal, Layout.summary, Decimal.digitText, String.length_ofList]
  by_cases h : -4 ≤ w ∧ w ≤ 16
  · rw [if_pos (hiff.2 h), if_pos h, sub_add_cancel]
  · rw [if_neg (hiff.not.2 h), if_neg h]
    simp only [String.toList_append, String.toList_ofList, apply_ite String.toList, beq_iff_eq,
      markedExponent, List.append_assoc]
    congr 1
    split <;> rfl

section

variable {p : ℕ}

/-- A number less than one: zeros stand before its digits. -/
theorem readNumber_leadingZeros {n : ℕ} (hlt : p < UInt64.size)
    (hlength : n + (Nat.toDigits 10 p).length < 2 ^ 30) (hrest : Stops rest) :
    readNumber true (encode (['0'] ++ '.' :: (List.replicate n '0' ++ Nat.toDigits 10 p)) ++ rest) =
      doubleOf p (-(n + (Nat.toDigits 10 p).length : ℕ)) rest := by
  refine readNumber_point (isWhole_toDigits 0) ?_ (by simp [Nat.toDigits_ne_nil]) ?_ hrest.shifts
    ?_ hlt ?_
  · intro c hc
    rcases List.mem_append.1 hc with hc | hc
    · rw [List.eq_of_mem_replicate hc]
      rfl
    · exact isDigit_toDigits p c hc
  · rwa [List.length_append, List.length_replicate]
  · rw [Nat.ofDigitChars_append, Nat.ofDigitChars_append, Nat.ofDigitChars_replicate_zero]
    exact Nat.ofDigitChars_ten_toDigits
  · rw [List.length_append, List.length_replicate, zero_sub]

/-- A whole number: zeros stand after its digits, and one more after the point. -/
theorem readNumber_trailingZeros {n : ℕ} (hp : 0 < p) (hlt : p * 10 ^ (n + 1) < UInt64.size)
    (hrest : Stops rest) :
    readNumber true (encode (Nat.toDigits 10 p ++ List.replicate n '0' ++ ['.', '0']) ++ rest) =
      doubleOf (p * 10 ^ (n + 1)) (-1) rest := by
  have hzero : ∀ c ∈ ['0'], c.isDigit = true := List.forall_mem_singleton.2 rfl
  refine readNumber_point (isWhole_toDigits_append hp n) hzero (by decide) (by decide)
    hrest.shifts ?_ hlt (by rfl)
  rw [Nat.ofDigitChars_append, Nat.ofDigitChars_append, Nat.ofDigitChars_ten_toDigits,
    Nat.ofDigitChars_replicate_zero, Nat.ofDigitChars_cons, Nat.ofDigitChars_nil, Nat.sub_self]
  ring

/-- A number with its point between its digits, and perhaps an exponent. -/
theorem readNumber_between {w : ℕ} (hp : 0 < p) (hlt : p < UInt64.size) (hw : 0 < w)
    (hlength : w < (Nat.toDigits 10 p).length) (hlength' : (Nat.toDigits 10 p).length < 2 ^ 30)
    (htail : Shifts tail x rest) :
    readNumber true
        (encode ((Nat.toDigits 10 p).take w ++ '.' :: (Nat.toDigits 10 p).drop w) ++ tail) =
      doubleOf p (x - ((Nat.toDigits 10 p).length - w : ℕ)) rest := by
  refine readNumber_point (isWhole_take hp hw)
    (fun c hc ↦ isDigit_toDigits p c (List.mem_of_mem_drop hc)) ?_ ?_ htail ?_ hlt ?_
  · rw [ne_eq, List.drop_eq_nil_iff]
    omega
  · rw [List.length_drop]
    omega
  · rw [List.take_append_drop, Nat.ofDigitChars_ten_toDigits]
  · rw [List.length_drop]

end

/-- The zeros that the layout adds do not make the significand too large. -/
theorem scanned_lt {d : Decimal} (hlt : d.digits < UInt64.size) : (scanned d).1 < UInt64.size := by
  rw [scanned]
  split
  case isTrue h =>
    calc d.digits * 10 ^ (d.exponent.toNat + 1)
        < 10 ^ (Nat.toDigits 10 d.digits).length * 10 ^ (d.exponent.toNat + 1) := by
          gcongr
          exact (Nat.length_toDigits_le_iff (by decide) Nat.length_toDigits_pos).1 le_rfl
      _ = 10 ^ ((Nat.toDigits 10 d.digits).length + (d.exponent.toNat + 1)) :=
        (pow_add _ _ _).symm
      _ ≤ 10 ^ 17 := Nat.pow_le_pow_right (by decide) (by omega)
      _ < UInt64.size := by decide
  case isFalse => exact hlt

/-- **A decimal is read as the digits and the exponent that it was written with**, up to the zero
that a whole number has after its point. -/
theorem readNumber_decimal {d : Decimal} (hd : 0 < d.digits) (hlt : d.digits < UInt64.size)
    (hk : d.exponent.natAbs < 2 ^ 29) (hrest : Stops rest) :
    readNumber true (encode (Layout.summary.decimal d).toList ++ rest) =
      doubleOf (scanned d).1 (scanned d).2 rest := by
  have hlength : (Nat.toDigits 10 d.digits).length ≤ 20 :=
    (Nat.length_toDigits_le_iff (by decide) (by decide)).2 (hlt.trans (by decide))
  have hpos : 0 < (Nat.toDigits 10 d.digits).length := Nat.length_toDigits_pos
  have hscanned := scanned.eq_1 d
  rw [toList_decimal]
  split
  case isTrue hfull =>
    rw [toList_placePoint]
    split
    case isTrue hsmall =>
      rw [if_neg (by omega)] at hscanned
      rw [hscanned, readNumber_leadingZeros hlt (by omega) hrest]
      congr 1
      omega
    case isFalse hlarge =>
      split
      case isTrue hinteger =>
        rw [if_pos (by omega)] at hscanned
        have hzeros : (d.exponent + (Nat.toDigits 10 d.digits).length).toNat -
            (Nat.toDigits 10 d.digits).length = d.exponent.toNat := by omega
        have hfits := scanned_lt hlt
        rw [hscanned] at hfits
        rw [hscanned, if_pos rfl, hzeros, readNumber_trailingZeros hd hfits hrest]
      case isFalse hfraction =>
        rw [if_neg (by omega)] at hscanned
        rw [hscanned, readNumber_between hd hlt (by omega) (by omega) (by omega) hrest.shifts]
        congr 1
        omega
  case isFalse hmarked =>
    rw [if_neg (by omega)] at hscanned
    rw [hscanned, encode_append, List.append_assoc]
    split
    case isTrue hone =>
      rw [readNumber_markedExponent (isWhole_toDigits _) (by rwa [Nat.ofDigitChars_ten_toDigits])
        (by omega) hrest, Nat.ofDigitChars_ten_toDigits]
      congr 1
      omega
    case isFalse hmany =>
      rw [toList_placePoint, if_neg (by decide), if_neg (by omega)]
      rw [readNumber_between hd hlt (by decide) (by show 1 < _; omega) (by omega)
        (shifts_markedExponent (by omega) hrest)]
      congr 1
      show _ - ((_ - 1 : ℕ) : ℤ) = _
      omega

end

end Crossing.Json
