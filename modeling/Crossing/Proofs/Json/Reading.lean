import Crossing.Proofs.Json.Doubles
import Crossing.Proofs.Outcome

/-!
# What readers make of printed values

`Yields reader text value` says what a reader makes of a text, whatever blanks stand before it and
whatever a value may be followed by. There is a law for each reader of the library, on the text that
the printer gives for a value of its kind. Records are read member by member: each member updates
what is known, unless its value is refused.

Quoted texts come first, since the names of members are quoted as well: an escape is read as the
character that it was written for, and all else octet by octet (`readOctets_quoted`). Lists and
records are read in a loop with fuel. By induction over the elements, the loop does what it should
as long as there is more fuel than elements, and the length of the text is always enough
(`length_prettyItems`, `length_prettyMembers`). Main statements: `yields_double`, `yields_list` and
`yields_record`.
-/

namespace Crossing.Json

open Text.Utf8 (encode encodeChar encode_nil encode_cons encode_append)
open Double (IsQuotient isFinite_of_isNormal)

/-! ### Quoted texts -/

section

variable {fuel : ℕ} {rest : List UInt8}

/-- An octet that stands for itself in a quoted text. -/
def IsPlain (b : UInt8) : Prop := b ≠ ascii '"' ∧ b ≠ ascii '\\' ∧ ¬b < 0x20

/-- Plain octets are read as they are. -/
theorem readOctets_plain {bs : List UInt8} (hbs : ∀ b ∈ bs, IsPlain b) :
    readOctets (bs.length + fuel) (bs ++ rest) =
      (readOctets fuel rest).map fun r ↦ (bs ++ r.1, r.2) := by
  induction bs with
  | nil =>
    rw [List.length_nil, Nat.zero_add, List.nil_append]
    cases readOctets fuel rest <;> rfl
  | cons b bs ih =>
    obtain ⟨hquote, hslash, hcontrol⟩ := hbs b List.mem_cons_self
    have ih := ih fun b hb ↦ hbs b (List.mem_cons_of_mem _ hb)
    have hfuel : (b :: bs).length + fuel = bs.length + fuel + 1 := Nat.add_right_comm _ _ _
    rw [hfuel, List.cons_append, readOctets.eq_def]
    dsimp only
    rw [if_neg (by simpa using hquote), if_neg (by simpa using hslash), if_neg hcontrol, ih]
    cases readOctets fuel rest <;> rfl

/-- A backslash and a letter are read as the octet that they stand for. -/
theorem readOctets_simple {e x : UInt8} (he : (e == ascii 'u') = false)
    (hx : simpleEscape? e = some x) :
    readOctets (fuel + 1) (ascii '\\' :: e :: rest) =
      (readOctets fuel rest).map fun r ↦ ([x] ++ r.1, r.2) := by
  rw [readOctets, if_neg (by decide), if_pos (by decide), if_neg (by simp [he]), hx]
  exact map_of_bind (readOctets fuel rest) _

/-- A backslash and four digits are read as the character with this number. -/
theorem readOctets_hex {x r : List UInt8} (hr : readHexEscape r = .ok (x, rest)) :
    readOctets (fuel + 1) (ascii '\\' :: ascii 'u' :: r) =
      (readOctets fuel rest).map fun r ↦ (x ++ r.1, r.2) := by
  rw [readOctets, if_neg (by decide), if_pos (by decide), if_pos (by decide), hr]
  exact map_of_bind (readOctets fuel rest) _

/-- The digits that are written for an escape can be read. -/
theorem hexDigit?_digitChar : ∀ n < 16, hexDigit? (ascii (Nat.digitChar n)) = some n := by
  decide

/-- Control characters are written as two zeros and two hexadecimal digits. -/
theorem readHexEscape_control {c : Char} (hc : c.toNat < 0x20) :
    readHexEscape (ascii '0' :: ascii '0' :: ascii (Nat.digitChar (c.toNat / 16)) ::
      ascii (Nat.digitChar (c.toNat % 16)) :: rest) = .ok (encodeChar c, rest) := by
  have hzero : hexDigit? (ascii '0') = some 0 := by decide
  have hnat : 4096 * 0 + 256 * 0 + 16 * (c.toNat / 16) + c.toNat % 16 = c.toNat := by omega
  have hlow : (decide (0xDC00 ≤ c.toNat) && decide (c.toNat ≤ 0xDFFF)) = false := by
    simp only [Bool.and_eq_false_iff, decide_eq_false_iff_not]
    omega
  have hhigh : (decide (c.toNat < 0xD800) || decide (0xDBFF < c.toNat)) = true := by
    simp only [Bool.or_eq_true, decide_eq_true_eq]
    omega
  rw [readHexEscape, readHex, hzero, hexDigit?_digitChar _ (by omega),
    hexDigit?_digitChar _ (by omega)]
  show (if (_ && _) = true then _ else if (_ || _) = true then _ else _) = _
  rw [hnat, hlow, hhigh, if_neg Bool.false_ne_true, if_pos rfl, codePoint, Char.ofNat_toNat]
  rfl

/-- A character that needs no escape is encoded in plain octets. -/
theorem isPlain_encodeChar {c : Char} (hquote : c ≠ '"') (hslash : c ≠ '\\')
    (hcontrol : ¬c.toNat < 0x20) : ∀ b ∈ encodeChar c, IsPlain b := by
  -- one octet is the character itself, and all of several octets are past ASCII
  have hplain {b : UInt8} (hb : 0x80 ≤ b.toNat) : IsPlain b := by
    refine ⟨?_, ?_, ?_⟩
    · rintro rfl
      exact absurd hb (by decide)
    · rintro rfl
      exact absurd hb (by decide)
    · rw [UInt8.lt_iff_toNat_lt]
      exact not_lt.2 (le_trans (by decide) hb)
  have hlt := Text.toNat_lt c
  intro b hb
  rw [encodeChar] at hb
  split at hb
  · rw [List.mem_singleton] at hb
    subst hb
    have hnat : c.toNat.toUInt8.toNat = c.toNat := Text.toNat_toUInt8 (by omega)
    refine ⟨?_, ?_, ?_⟩
    · intro heq
      exact hquote (Char.toNat_inj.1 (hnat.symm.trans (congrArg UInt8.toNat heq)))
    · intro heq
      exact hslash (Char.toNat_inj.1 (hnat.symm.trans (congrArg UInt8.toNat heq)))
    · rw [UInt8.lt_iff_toNat_lt, hnat]
      exact hcontrol
  · apply hplain
    split at hb
    case' isFalse => split at hb
    all_goals
      simp only [List.mem_cons, List.not_mem_nil, or_false] at hb
      rcases hb with rfl | rfl | rfl | rfl <;> rw [Text.toNat_toUInt8 (by omega)] <;> omega

/-- The characters that are written with a letter after a backslash. -/
def letters : List (Char × Char) :=
  [('"', '"'), ('\\', '\\'), ('\n', 'n'), ('\r', 'r'), ('\t', 't'), ('\x08', 'b'), ('\x0C', 'f')]

/-- The characters with a letter of their own, and what is read of it. -/
theorem escapeChar_letters : ∀ p ∈ letters,
    encode (escapeChar p.1).toList = [ascii '\\', ascii p.2] ∧ (ascii p.2 == ascii 'u') = false ∧
      simpleEscape? (ascii p.2) = some (ascii p.1) ∧ encodeChar p.1 = [ascii p.1] := by
  decide

/-- How a character is written: with a letter, with hexadecimal digits, or as itself. -/
theorem escapeChar_cases (c : Char) :
    (∃ p ∈ letters, c = p.1) ∨
    (c.toNat < 0x20 ∧ encode (escapeChar c).toList = [ascii '\\', ascii 'u', ascii '0', ascii '0',
      ascii (Nat.digitChar (c.toNat / 16)), ascii (Nat.digitChar (c.toNat % 16))]) ∨
    (encode (escapeChar c).toList = encodeChar c ∧ ∀ b ∈ encodeChar c, IsPlain b) := by
  by_cases hletter : ∃ p ∈ letters, c = p.1
  · exact .inl hletter
  · simp only [letters, List.mem_cons, List.not_mem_nil, or_false, exists_eq_or_imp,
      exists_eq_left, not_or] at hletter
    obtain ⟨h₁, h₂, h₃, h₄, h₅, h₆, h₇⟩ := hletter
    right
    by_cases hcontrol : c.toNat < 0x20
    · left
      refine ⟨hcontrol, ?_⟩
      have htext : (escapeChar c).toList = ['\\', 'u', '0', '0', Nat.digitChar (c.toNat / 16),
          Nat.digitChar (c.toNat % 16)] := by
        simp [escapeChar, h₁, h₂, h₃, h₄, h₅, h₆, h₇, hcontrol, hexPair]
      have hdigit : ∀ n < 16, encodeChar (Nat.digitChar n) = [ascii (Nat.digitChar n)] := by decide
      rw [htext]
      simp only [encode_cons, encode_nil, hdigit _ (show c.toNat / 16 < 16 by omega),
        hdigit _ (show c.toNat % 16 < 16 by omega)]
      rfl
    · right
      have htext : (escapeChar c).toList = [c] := by
        simp [escapeChar, h₁, h₂, h₃, h₄, h₅, h₆, h₇, hcontrol]
      rw [htext, encode_cons, encode_nil, List.append_nil]
      exact ⟨rfl, isPlain_encodeChar h₁ h₂ hcontrol⟩

/-- A character is read back from its escape. -/
theorem exists_readOctets_escapeChar (c : Char) (rest : List UInt8) {fuel : ℕ}
    (hfuel : (encode (escapeChar c).toList).length ≤ fuel) :
    ∃ fuel', fuel - (encode (escapeChar c).toList).length ≤ fuel' ∧
      readOctets fuel (encode (escapeChar c).toList ++ rest) =
        (readOctets fuel' rest).map fun r ↦ (encodeChar c ++ r.1, r.2) := by
  rcases escapeChar_cases c with ⟨p, hp, rfl⟩ | ⟨hc, htext⟩ | ⟨htext, hplain⟩
  · obtain ⟨htext, he, hx, hc⟩ := escapeChar_letters p hp
    rw [htext] at hfuel ⊢
    obtain ⟨n, rfl⟩ : ∃ n, fuel = n + 1 := ⟨fuel - 1, by simp at hfuel; omega⟩
    exact ⟨n, by simp, hc ▸ readOctets_simple he hx⟩
  · rw [htext] at hfuel ⊢
    obtain ⟨n, rfl⟩ : ∃ n, fuel = n + 1 := ⟨fuel - 1, by simp at hfuel; omega⟩
    exact ⟨n, by simp, readOctets_hex (readHexEscape_control hc)⟩
  · rw [htext] at hfuel ⊢
    refine ⟨fuel - (encodeChar c).length, le_rfl, ?_⟩
    rw [← readOctets_plain hplain, Nat.add_sub_cancel' hfuel]

/-- **A quoted text is read back.** -/
theorem readOctets_quoted (cs : List Char) (rest : List UInt8) {fuel : ℕ}
    (hfuel : (encode (cs.flatMap fun c ↦ (escapeChar c).toList)).length < fuel) :
    readOctets fuel (encode (cs.flatMap fun c ↦ (escapeChar c).toList) ++ ascii '"' :: rest) =
      .ok (encode cs, rest) := by
  induction cs generalizing fuel with
  | nil =>
    obtain ⟨fuel, rfl⟩ : ∃ n, fuel = n + 1 := ⟨fuel - 1, by omega⟩
    rfl
  | cons c cs ih =>
    rw [List.flatMap_cons, encode_append, List.length_append] at hfuel
    obtain ⟨fuel', hle, hread⟩ := @exists_readOctets_escapeChar c
      (encode (cs.flatMap fun c ↦ (escapeChar c).toList) ++ ascii '"' :: rest) fuel (by omega)
    rw [List.flatMap_cons, encode_append, List.append_assoc, hread, ih (by omega), encode_cons]
    rfl

theorem toList_quoted (s : String) :
    (quoted s).toList = '"' :: (s.toList.flatMap fun c ↦ (escapeChar c).toList) ++ ['"'] := by
  simp [quoted, List.flatMap_map]

/-- What was quoted is read again. -/
theorem readText_quoted (s : String) (rest : List UInt8) :
    readText (encode (s.toList.flatMap fun c ↦ (escapeChar c).toList) ++ ascii '"' :: rest) =
      .ok (s, rest) := by
  have hfuel (bs : List UInt8) : bs.length < (bs ++ ascii '"' :: rest).length + 1 := by
    rw [List.length_append]
    omega
  rw [readText, readOctets_quoted s.toList rest (hfuel _)]
  simp only [bind, Except.bind, Text.Utf8.decode?_encode, String.ofList_toList]
  rfl

end

/-! ### Single values -/

/-- What a reader makes of a value, however far it is indented, whatever blanks stand before it and
whatever may follow it. -/
def Yields {α : Type} (reader : Reader α) (v : Value) (read : Option α) : Prop :=
  ∀ level blanks rest, (∀ b ∈ blanks, isBlank b = true) → Stops rest →
    (reader (blanks ++ (encode (v.pretty level).toList ++ rest))).toOption = read.map (·, rest)

section

variable {α β : Type} {blanks rest : List UInt8}

/-- Blanks before a value are skipped. -/
theorem skipBlank_append (hblanks : ∀ b ∈ blanks, isBlank b = true) {b : UInt8} {r : List UInt8}
    (hb : isBlank b = false) : skipBlank (blanks ++ b :: r) = b :: r := by
  rw [skipBlank, List.dropWhile_append_of_pos hblanks, List.dropWhile_cons, hb]
  rfl

theorem skipBlank_cons {b : UInt8} {r : List UInt8} (hb : isBlank b = false) :
    skipBlank (b :: r) = b :: r :=
  @skipBlank_append [] (by simp) b r hb

theorem encode_quoted (s : String) (rest : List UInt8) :
    encode (quoted s).toList ++ rest = ascii '"' ::
      (encode (s.toList.flatMap fun c ↦ (escapeChar c).toList) ++ ascii '"' :: rest) := by
  rw [toList_quoted, encode_append, List.append_assoc, encode_cons, List.append_assoc]
  rfl

theorem readString_quoted (hblanks : ∀ b ∈ blanks, isBlank b = true) (expected s : String) :
    readString expected (blanks ++ (encode (quoted s).toList ++ rest)) = .ok (s, rest) := by
  rw [encode_quoted, readString, skipBlank_append hblanks (by decide)]
  exact readText_quoted s rest

/-- A text is read as it was written. -/
theorem yields_text (expected s : String) : Yields (readString expected) (.text s) (some s) := by
  intro level blanks rest hblanks _
  rw [Value.pretty, readString_quoted hblanks]
  rfl

theorem yields_bool (b : Bool) : Yields readBool (.bool b) (some b) := by
  intro level blanks rest hblanks _
  rw [Value.pretty]
  cases b
  · have htext : encode "false".toList ++ rest =
        ascii 'f' :: ascii 'a' :: ascii 'l' :: ascii 's' :: ascii 'e' :: rest := rfl
    rw [if_neg Bool.false_ne_true, htext, readBool, skipBlank_append hblanks (by decide)]
    rfl
  · have htext : encode "true".toList ++ rest =
        ascii 't' :: ascii 'r' :: ascii 'u' :: ascii 'e' :: rest := rfl
    rw [if_pos rfl, htext, readBool, skipBlank_append hblanks (by decide)]
    rfl

theorem encode_null (rest : List UInt8) :
    encode "null".toList ++ rest = ascii 'n' :: ascii 'u' :: ascii 'l' :: ascii 'l' :: rest := rfl

/-- Null is read as nothing, whatever the reader is. -/
theorem yields_none (reader : Reader α) : Yields (readOptional reader) .null (some none) := by
  intro level blanks rest hblanks _
  rw [Value.pretty, encode_null, readOptional, skipBlank_append hblanks (by decide)]
  rfl

/-- An optional text that is there is read as such. -/
theorem yields_some (expected s : String) :
    Yields (readOptional (readString expected)) (.text s) (some (some s)) := by
  intro level blanks rest hblanks _
  have hread := @readString_quoted [] rest (by simp) expected s
  rw [List.nil_append, encode_quoted] at hread
  rw [Value.pretty, encode_quoted, readOptional, skipBlank_append hblanks (by decide)]
  dsimp only
  rw [if_neg (by decide), hread]
  rfl

/-- A name that is known is read as what it stands for. -/
theorem yields_variant {variants : List (String × α)} {name : String} {a : α}
    (h : variants.find? (·.1 == name) = some (name, a)) :
    Yields (readVariant variants) (.text name) (some a) := by
  intro level blanks rest hblanks _
  rw [Value.pretty, encode_quoted, readVariant, skipBlank_append hblanks (by decide)]
  dsimp only
  rw [if_pos (by decide), readText_quoted]
  simp only [bind, Except.bind, h]
  rfl

/-! ### Numbers -/

/-- A number begins with a digit. -/
theorem isDigit_of_readNumber {bs : List UInt8} {x : Number × List UInt8}
    (h : readNumber true bs = .ok x) : ∃ b r, bs = b :: r ∧ isDigit b = true := by
  cases bs with
  | nil => cases h
  | cons b r =>
    refine ⟨b, r, rfl, ?_⟩
    by_contra hb
    have hzero : (b == ascii '0') = false := by
      rw [beq_eq_false_iff_ne]
      rintro rfl
      exact hb (by decide)
    rw [readNumber, hzero, Bool.eq_false_iff.2 hb] at h
    cases h

/-- A number without a sign is taken for what it is. -/
theorem readNumeric_of_readNumber {expected : String} {take : Number → Except Schema.Complaint α}
    (hblanks : ∀ b ∈ blanks, isBlank b = true) {bs : List UInt8} {n : Number}
    (hread : readNumber true bs = .ok (n, rest)) {a : α} (htake : take n = .ok a) :
    readNumeric expected take (blanks ++ bs) = .ok (a, rest) := by
  obtain ⟨b, r, rfl, hb⟩ := isDigit_of_readNumber hread
  have hne {c : UInt8} (hc : isDigit c = false) : (b == c) = false := by
    rw [beq_eq_false_iff_ne]
    rintro rfl
    exact absurd (hb.symm.trans hc) (by decide)
  have hblank : isBlank b = false := by
    rw [isBlank, hne (by decide), hne (by decide), hne (by decide), hne (by decide)]
    rfl
  rw [readNumeric, skipBlank_append hblanks hblank]
  dsimp only
  rw [hne (by decide), hb, hread]
  simp only [bind, Except.bind, htake]
  rfl

/-- A word is read as it was written. -/
theorem yields_nat (expected : String) (n : UInt64) :
    Yields (readUInt64 expected) (.nat n.toNat) (some n) := by
  intro level blanks rest hblanks hrest
  have hword : n.toNat.toUInt64 = n := UInt64.ofNat_toNat
  have htext : ((Value.nat n.toNat).pretty level).toList = Nat.toDigits 10 n.toNat := by
    rw [Value.nat, Value.pretty, Number.toText, hword, Nat.toString_eq_ofList_toDigits,
      String.toList_ofList]
  have hread := readNumber_toDigits n.toNat_lt hrest
  rw [hword] at hread
  rw [htext]
  exact congrArg Except.toOption (readNumeric_of_readNumber (a := n) hblanks hread rfl)

/-- **A double is read as what was written for it says**, and null is no double. -/
theorem yields_double {x : Float} (hx : IsQuotient x) :
    Yields readDouble (.double x) (reread x) := by
  intro level blanks rest hblanks hrest
  cases hx with
  | zero hx =>
    subst hx
    have hzero : ∀ c ∈ ['0'], c.isDigit = true := List.forall_mem_singleton.2 rfl
    have hread : readNumber true (encode "0.0".toList ++ rest) = .ok (.double 0, rest) :=
      readNumber_point (isWhole_toDigits 0) hzero (by decide) (by decide) hrest.shifts rfl
        (by decide) rfl
    exact congrArg Except.toOption (readNumeric_of_readNumber (a := (0 : Float)) hblanks hread rfl)
  | normal hx hlow hhigh =>
    obtain ⟨y, hy, -⟩ := exists_ofParts hlow hhigh
    obtain ⟨-, hpos, hlt, hk⟩ := decimalOf_spec hlow hhigh
    have hread := readNumber_decimal hpos hlt (by omega) hrest
    rw [doubleOf, hy] at hread
    rw [reread_of_isNormal hx, hy, Value.double, if_pos (isFinite_of_isNormal hx), Value.pretty,
      Number.toText, render_of_isNormal hx]
    exact congrArg Except.toOption (readNumeric_of_readNumber (a := y) hblanks hread rfl)
  | infinite hx =>
    have hfinite : Double.infinity.isFinite = false := rfl
    rw [hx, Value.double, reread, hfinite, if_neg Bool.false_ne_true, if_neg Bool.false_ne_true,
      Value.pretty, encode_null, readDouble, readNumeric, skipBlank_append hblanks (by decide)]
    rfl

end

/-! ### Lines -/

section

variable {rest : List UInt8}

/-- A line break is followed by two blanks for each level. -/
theorem encode_newLine (level : ℕ) :
    encode (Value.newLine level).toList = ascii '\n' :: List.replicate (2 * level) (ascii ' ') := by
  have hspaces (n : ℕ) : encode (List.replicate n ' ') = List.replicate n (ascii ' ') := by
    induction n with
    | zero => rfl
    | succ n ih =>
      rw [List.replicate_succ, encode_cons, ih]
      rfl
  simp only [Value.newLine, String.toList_append, String.toList_ofList, encode_append, hspaces]
  rfl

theorem isBlank_newLine (level : ℕ) :
    ∀ b ∈ encode (Value.newLine level).toList, isBlank b = true := by
  intro b hb
  rw [encode_newLine, List.mem_cons] at hb
  rcases hb with rfl | hb
  · decide
  · rw [List.eq_of_mem_replicate hb]
    decide

theorem stops_newLine (level : ℕ) (r : List UInt8) :
    Stops (encode (Value.newLine level).toList ++ r) := by
  rw [encode_newLine]
  rintro b ⟨⟩
  exact .inr rfl

theorem stops_comma (r : List UInt8) : Stops (ascii ',' :: r) := by
  rintro b ⟨⟩
  exact .inl rfl

/-- A value can end before the next item, or before the end of the list. -/
theorem stops_prettyItems (level level' : ℕ) (vs : List Value) (r : List UInt8) :
    Stops (encode (Value.prettyItems level vs).toList ++
      (encode (Value.newLine level').toList ++ r)) := by
  cases vs with
  | nil => exact stops_newLine level' r
  | cons v vs =>
    rw [Value.prettyItems]
    simp only [String.toList_append, encode_append, List.append_assoc]
    exact stops_comma _

/-- A value can end before the next member, or before the end of the object. -/
theorem stops_prettyMembers (level level' : ℕ) (ms : List (String × Value)) (r : List UInt8) :
    Stops (encode (Value.prettyMembers level ms).toList ++
      (encode (Value.newLine level').toList ++ r)) := by
  cases ms with
  | nil => exact stops_newLine level' r
  | cons m ms =>
    obtain ⟨k, v⟩ := m
    rw [Value.prettyMembers]
    simp only [String.toList_append, encode_append, List.append_assoc]
    exact stops_comma _

end

/-! ### Lists -/

section

variable {α β : Type} {element : Reader α} {rest : List UInt8}

/-- A list ends where its bracket is closed. -/
theorem toOption_readElements_none {fuel : ℕ} {first : Bool} {bs : List UInt8}
    (hnext : nextElement first bs = .ok none) (hend : endList bs = .ok rest) :
    (readElements element (fuel + 1) first bs).toOption = some ([], rest) := by
  rw [readElements, hnext]
  simp only [bind, Except.bind, hend]
  rfl

/-- An element is read, and then the others. -/
theorem toOption_readElements_some {fuel : ℕ} {first : Bool} {bs r tail : List UInt8}
    {read : Option α} (hnext : nextElement first bs = .ok (some r))
    (hread : (element r).toOption = read.map (·, tail)) :
    (readElements element (fuel + 1) first bs).toOption = read.bind fun a ↦
      (readElements element fuel false tail).toOption.map fun x ↦ (a :: x.1, x.2) := by
  rw [readElements, hnext]
  show (element r >>= fun x ↦ readElements element fuel false x.2 >>= fun y ↦
    pure (x.1 :: y.1, y.2)).toOption = _
  rw [toOption_bind, hread]
  cases read with
  | none => rfl
  | some a =>
    show (readElements element fuel false tail >>= fun y ↦ pure (a :: y.1, y.2)).toOption = _
    rw [toOption_bind]
    cases readElements element fuel false tail <;> rfl

/-- The octets of an object begin with a brace. -/
theorem encode_object (level : ℕ) (ms : List (String × Value)) :
    ∃ r, encode ((Value.object ms).pretty level).toList = ascii '\x7b' :: r := by
  cases ms with
  | nil =>
    rw [Value.pretty]
    exact ⟨_, rfl⟩
  | cons m ms =>
    obtain ⟨k, v⟩ := m
    rw [Value.pretty]
    simp only [String.toList_append, encode_append, List.append_assoc]
    exact ⟨_, rfl⟩

variable {vs : List Value} {read : List (Option α)}

/-- The items after the first. -/
theorem toOption_readElements (hobjects : ∀ v ∈ vs, ∃ ms, v = .object ms)
    (h : List.Forall₂ (Yields element) vs read) {fuel : ℕ} (hfuel : vs.length < fuel)
    (level level' : ℕ) :
    (readElements element fuel false (encode (Value.prettyItems level vs).toList ++
        (encode (Value.newLine level').toList ++ ascii ']' :: rest))).toOption =
      (read.mapM id).map (·, rest) := by
  induction h generalizing fuel with
  | nil =>
    obtain ⟨fuel, rfl⟩ : ∃ n, fuel = n + 1 := ⟨fuel - 1, by omega⟩
    have hskip := @skipBlank_append _ (isBlank_newLine level') (ascii ']') rest (by decide)
    rw [Value.prettyItems, String.toList_empty, encode_nil, List.nil_append]
    refine toOption_readElements_none ?_ ?_
    · rw [nextElement, hskip]
      rfl
    · rw [endList, hskip]
      rfl
  | @cons v o vs os hv _ ih =>
    obtain ⟨fuel, rfl⟩ : ∃ n, fuel = n + 1 := ⟨fuel - 1, by omega⟩
    obtain ⟨ms, rfl⟩ := hobjects v List.mem_cons_self
    obtain ⟨r, hr⟩ := encode_object level ms
    have hnext (tail : List UInt8) : nextElement false (ascii ',' ::
        (encode (Value.newLine level).toList ++ (encode ((Value.object ms).pretty level).toList ++
          tail))) = .ok (some (encode ((Value.object ms).pretty level).toList ++ tail)) := by
      rw [hr, List.cons_append, nextElement, skipBlank_cons (by decide)]
      dsimp only
      rw [if_neg (by decide), if_neg (by decide), if_pos (by decide),
        skipBlank_append (isBlank_newLine level) (by decide)]
      rfl
    rw [Value.prettyItems]
    simp only [String.toList_append, encode_append, List.append_assoc]
    refine (toOption_readElements_some (hnext _) (hv level [] _ (by simp)
      (stops_prettyItems level level' vs _))).trans ?_
    rw [ih (fun v hv ↦ hobjects v (List.mem_cons_of_mem _ hv)) (by simpa using hfuel),
      List.mapM_cons]
    cases o with
    | none => rfl
    | some a => cases List.mapM id os <;> rfl

/-- Each item has an octet at least, so the text is long enough as fuel. -/
theorem length_prettyItems (level : ℕ) (vs : List Value) :
    vs.length ≤ (encode (Value.prettyItems level vs).toList).length := by
  induction vs with
  | nil => exact Nat.zero_le _
  | cons v vs ih =>
    rw [Value.prettyItems]
    simp only [String.toList_append, encode_append, List.length_append, List.length_cons]
    have hcomma : (encode ",".toList).length = 1 := rfl
    omega

/-- **A list is read element by element**, and refused if an element is. -/
theorem yields_list (hobjects : ∀ v ∈ vs, ∃ ms, v = .object ms)
    (h : List.Forall₂ (Yields element) vs read) :
    Yields (readList element) (.list vs) (read.mapM id) := by
  intro level blanks rest hblanks _
  cases h with
  | nil =>
    have htext : encode "[]".toList ++ rest = ascii '[' :: ascii ']' :: rest := rfl
    rw [Value.pretty, htext, readList, skipBlank_append hblanks (by decide)]
    refine toOption_readElements_none ?_ ?_
    · rw [nextElement, skipBlank_cons (by decide)]
      rfl
    · rw [endList, skipBlank_cons (by decide)]
      rfl
  | @cons v o vs os hv hvs =>
    obtain ⟨ms, rfl⟩ := hobjects v List.mem_cons_self
    obtain ⟨r, hr⟩ := encode_object (level + 1) ms
    have htext : encode ((Value.list (.object ms :: vs)).pretty level).toList ++ rest =
        ascii '[' :: (encode (Value.newLine (level + 1)).toList ++
          (encode ((Value.object ms).pretty (level + 1)).toList ++
            (encode (Value.prettyItems (level + 1) vs).toList ++
              (encode (Value.newLine level).toList ++ ascii ']' :: rest)))) := by
      rw [Value.pretty]
      simp only [String.toList_append, encode_append, List.append_assoc]
      rfl
    have hnext (tail : List UInt8) : nextElement true (encode (Value.newLine (level + 1)).toList ++
        (encode ((Value.object ms).pretty (level + 1)).toList ++ tail)) =
          .ok (some (encode ((Value.object ms).pretty (level + 1)).toList ++ tail)) := by
      rw [hr, List.cons_append, nextElement, skipBlank_append (isBlank_newLine _) (by decide)]
      rfl
    rw [htext, readList, skipBlank_append hblanks (by decide)]
    refine (toOption_readElements_some (hnext _) (hv (level + 1) [] _ (by simp)
      (stops_prettyItems _ _ vs _))).trans ?_
    rw [toOption_readElements (fun v hv ↦ hobjects v (List.mem_cons_of_mem _ hv)) hvs,
      List.mapM_cons]
    · cases o with
      | none => rfl
      | some a => cases List.mapM id os <;> rfl
    · have hlength := length_prettyItems (level + 1) vs
      simp only [List.length_append, encode_newLine, List.length_cons]
      omega

end

/-! ### Records -/

/-- What is known after some updates, unless one of them is refused. -/
def applyAll {σ : Type} : List (Option (σ → σ)) → σ → Option σ
  | [], s => some s
  | update :: updates, s => update.bind fun f ↦ applyAll updates (f s)

section

variable {σ ρ : Type} {fields : List (Field σ)} {fuel level : ℕ} {first : Bool} {seen : List String}
  {acc : σ} {rest : List UInt8}

/-- What the reader of a field yields is set. -/
theorem yields_field {α : Type} {reader : Reader α} {v : Value} {read : Option α}
    (h : Yields reader v read) (name : String) (set : α → σ → σ) :
    Yields (Field.of name reader set).read v (read.map set) := by
  intro level blanks rest hblanks hrest
  rw [Field.of, toOption_map, h level blanks rest hblanks hrest, Option.map_map, Option.map_map]
  rfl

/-- What a member of an object does to what is known of a record. -/
def Updates (fields : List (Field σ)) (m : String × Value) (update : Option (σ → σ)) : Prop :=
  ∃ f, fields.find? (·.name == m.1) = some f ∧ Yields f.read m.2 update

/-- The octets of a member after the opening quote of its key. -/
def memberOctets (level : ℕ) (m : String × Value) (tail : List UInt8) : List UInt8 :=
  encode (m.1.toList.flatMap fun c ↦ (escapeChar c).toList) ++ ascii '"' ::
    ascii ':' :: ascii ' ' :: (encode (m.2.pretty level).toList ++ tail)

/-- A member with a new name updates the record, and then the others do. -/
theorem toOption_readFields_some {bs r tail : List UInt8} {m : String × Value}
    {update : Option (σ → σ)} (hnext : nextKey first bs = .ok (some (memberOctets level m tail), r))
    (hm : Updates fields m update) (hseen : m.1 ∉ seen) (htail : Stops tail) :
    (readFields fields (fuel + 1) first seen acc bs).toOption = update.bind fun f ↦
      (readFields fields fuel false (m.1 :: seen) (f acc) tail).toOption := by
  obtain ⟨f, hfind, hyields⟩ := hm
  have hread := hyields level [ascii ' '] tail (List.forall_mem_singleton.2 rfl) htail
  have hcontains : seen.contains m.1 = false := by simpa using hseen
  have hcolon (r : List UInt8) : readColon (ascii ':' :: r) = .ok ((), r) := by
    rw [readColon, skipBlank_cons (by decide)]
    rfl
  rw [readFields, hnext]
  simp only [bind, Except.bind, memberOctets, readText_quoted, hfind, hcontains, hcolon]
  rw [if_neg Bool.false_ne_true]
  show (f.read (ascii ' ' :: (encode (m.2.pretty level).toList ++ tail)) >>= fun x ↦
    readFields fields fuel false (m.1 :: seen) (x.1 acc) x.2).toOption = _
  rw [List.singleton_append] at hread
  rw [toOption_bind, hread]
  cases update <;> rfl

variable {ms : List (String × Value)} {updates : List (Option (σ → σ))}

/-- A member is a quoted name, a colon and a value. -/
theorem encode_member (level : ℕ) (m : String × Value) (tail : List UInt8) :
    encode (quoted m.1).toList ++ (encode ": ".toList ++
      (encode (m.2.pretty level).toList ++ tail)) = ascii '"' :: memberOctets level m tail := by
  rw [encode_quoted]
  rfl

/-- The members after the first. -/
theorem toOption_readFields (h : List.Forall₂ (Updates fields) ms updates)
    (hkeys : (ms.map Prod.fst).Nodup) (hseen : ∀ m ∈ ms, m.1 ∉ seen) (hfuel : ms.length < fuel)
    (level level' : ℕ) :
    (readFields fields fuel false seen acc (encode (Value.prettyMembers level ms).toList ++
        (encode (Value.newLine level').toList ++ ascii '\x7d' :: rest))).toOption =
      (applyAll updates acc).map (·, rest) := by
  induction h generalizing fuel seen acc with
  | nil =>
    obtain ⟨fuel, rfl⟩ : ∃ n, fuel = n + 1 := ⟨fuel - 1, by omega⟩
    rw [Value.prettyMembers, String.toList_empty, encode_nil, List.nil_append, readFields, nextKey,
      skipBlank_append (isBlank_newLine level') (by decide)]
    rfl
  | @cons m o ms os hm _ ih =>
    obtain ⟨fuel, rfl⟩ : ∃ n, fuel = n + 1 := ⟨fuel - 1, by omega⟩
    rw [List.map_cons, List.nodup_cons] at hkeys
    have hnext (tail : List UInt8) : nextKey false (ascii ',' ::
        (encode (Value.newLine level).toList ++ (ascii '"' :: memberOctets level m tail))) =
          .ok (some (memberOctets level m tail), memberOctets level m tail) := by
      rw [nextKey, skipBlank_cons (by decide)]
      dsimp only
      rw [if_neg (by decide), if_neg (by decide), if_pos (by decide),
        skipBlank_append (isBlank_newLine level) (by decide)]
      rfl
    have htext (tail : List UInt8) : encode (Value.prettyMembers level (m :: ms)).toList ++ tail =
        ascii ',' :: (encode (Value.newLine level).toList ++ (ascii '"' :: memberOctets level m
          (encode (Value.prettyMembers level ms).toList ++ tail))) := by
      rw [← encode_member, Value.prettyMembers]
      simp only [String.toList_append, encode_append, List.append_assoc]
      rfl
    rw [htext]
    refine (toOption_readFields_some (hnext _) hm (hseen m List.mem_cons_self)
      (stops_prettyMembers level level' ms _)).trans ?_
    cases o with
    | none => rfl
    | some f =>
      refine ih hkeys.2 ?_ (by simpa using hfuel)
      intro m' hm'
      rw [List.mem_cons, not_or]
      refine ⟨?_, hseen m' (List.mem_cons_of_mem _ hm')⟩
      rintro heq
      exact hkeys.1 (heq ▸ List.mem_map_of_mem hm')

/-- Each member has an octet at least, so the text is long enough as fuel. -/
theorem length_prettyMembers (level : ℕ) (ms : List (String × Value)) :
    ms.length ≤ (encode (Value.prettyMembers level ms).toList).length := by
  induction ms with
  | nil => exact Nat.zero_le _
  | cons m ms ih =>
    rw [Value.prettyMembers]
    simp only [String.toList_append, encode_append, List.length_append, List.length_cons]
    have hcomma : (encode ",".toList).length = 1 := rfl
    omega

/-- **A record is read member by member**, and refused if a member is or if it is not complete. -/
theorem yields_record {name : String} {blank : σ} {finish : σ → Except Schema.Complaint ρ}
    {read : Option ρ} (hne : ms ≠ []) (h : List.Forall₂ (Updates fields) ms updates)
    (hkeys : (ms.map Prod.fst).Nodup)
    (hread : ((applyAll updates blank).bind fun s ↦ (finish s).toOption) = read) :
    Yields (readRecord name fields blank finish) (.object ms) read := by
  intro level blanks rest hblanks _
  subst hread
  cases h with
  | nil => exact absurd rfl hne
  | @cons m o ms os hm hms =>
    rw [List.map_cons, List.nodup_cons] at hkeys
    have htext : encode ((Value.object (m :: ms)).pretty level).toList ++ rest =
        ascii '\x7b' :: (encode (Value.newLine (level + 1)).toList ++ (ascii '"' ::
          memberOctets (level + 1) m (encode (Value.prettyMembers (level + 1) ms).toList ++
            (encode (Value.newLine level).toList ++ ascii '\x7d' :: rest)))) := by
      rw [← encode_member, Value.pretty]
      simp only [String.toList_append, encode_append, List.append_assoc]
      rfl
    have hnext (tail : List UInt8) : nextKey true (encode (Value.newLine (level + 1)).toList ++
        (ascii '"' :: memberOctets (level + 1) m tail)) =
          .ok (some (memberOctets (level + 1) m tail), memberOctets (level + 1) m tail) := by
      rw [nextKey, skipBlank_append (isBlank_newLine _) (by decide)]
      rfl
    rw [htext, readRecord, skipBlank_append hblanks (by decide)]
    dsimp only
    rw [if_pos (by decide), toOption_bind, toOption_readFields_some (hnext _) hm (by simp)
      (stops_prettyMembers _ _ ms _)]
    cases o with
    | none => rfl
    | some f =>
      rw [Option.bind_some, toOption_readFields hms hkeys.2]
      · rw [applyAll, Option.bind_some]
        cases applyAll os (f blank) with
        | none => rfl
        | some s => cases hfinish : finish s <;> simp [hfinish, Except.toOption]
      · intro m' hm'
        rw [List.mem_singleton]
        rintro heq
        exact hkeys.1 (heq ▸ List.mem_map_of_mem hm')
      · have hlength := length_prettyMembers (level + 1) ms
        simp only [List.length_append, List.length_cons, memberOctets, encode_newLine]
        omega

end

/-- A value that is all of a text is read as it is anywhere. -/
theorem toOption_readWhole {α : Type} {reader : Reader α} {v : Value} {read : Option α}
    (h : Yields reader v read) :
    (readWhole reader (encode (v.pretty 0).toList)).toOption = read := by
  have hread := h 0 [] [] (by simp) (by simp [Stops])
  rw [List.nil_append, List.append_nil] at hread
  rw [readWhole, toOption_bind, hread]
  cases read <;> rfl

end Crossing.Json
