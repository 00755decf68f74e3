import Crossing.Proofs.Text.Encoding

/-!
# Well-formed octets and units

Reading is not only a left inverse of writing: what can be read at all is what writing makes, octet
by octet and unit by unit. Overlong forms, surrogates written in UTF-8, values past `U+10FFFF` and
sequences that end too early are therefore all refused. Main statements:

* `Utf8.decode?_eq_some_iff` and `Utf16.decode?_eq_some_iff`: a text is read from its own written
  form and from nothing else;
* `Utf8.encode_eq_flatMap`: the written form in UTF-8 is the one that strings have;
* `Utf16.isSome_decode?_iff`: units can be read exactly if no surrogate among them is unpaired,
  which is said of places and does not follow the reader.
-/

namespace Crossing.Text

/-- A scalar value is the code point of the character it stands for. -/
theorem toNat_of_scalar? {n : Nat} {c : Char} (h : scalar? n = some c) : c.toNat = n := by
  rw [scalar?] at h
  split at h
  case isTrue hvalid =>
    rw [← Option.some.inj h, Char.ofNat, dif_pos hvalid]
    rfl
  case isFalse => cases h

/-- The code points that are no characters are the surrogates and those past `U+10FFFF`. -/
theorem isSome_scalar?_iff {n : Nat} :
    (scalar? n).isSome ↔ n < 0xD800 ∨ 0xDFFF < n ∧ n < 0x110000 := by
  have hiff : n.isValidChar ↔ n < 0xD800 ∨ 0xDFFF < n ∧ n < 0x110000 := Iff.rfl
  rw [scalar?, ← hiff]
  split <;> simp_all

theorem toUInt8_eq {b : UInt8} {n : Nat} (h : b.toNat = n) : n.toUInt8 = b := by
  rw [← h]
  exact UInt8.ofNat_toNat

theorem toUInt16_eq {u : UInt16} {n : Nat} (h : u.toNat = n) : n.toUInt16 = u := by
  rw [← h]
  exact UInt16.ofNat_toNat

/-- The first character and the others are written one after the other. -/
theorem append_eq_flatMap {α : Type} {f : Char → List α} {c : Char} {cs cs' : List Char}
    {front rest : List α} (hfront : f c = front) (hrest : rest = cs'.flatMap f)
    (hcs : some (c :: cs') = some cs) : front ++ rest = cs.flatMap f := by
  rw [← Option.some.inj hcs, List.flatMap_cons, hfront, hrest]

namespace Utf8

/-! ### UTF-8 -/

theorem of_guard {p : Prop} [Decidable p] {u : Unit} (h : (guard p : Option Unit) = some u) :
    p := by
  by_contra hp
  rw [guard, if_neg hp] at h
  cases h

/-- An octet that goes on is six bits behind `10`. -/
theorem toNat_of_continuation? {b : UInt8} {k : Nat} (h : continuation? b = some k) :
    b.toNat = 0x80 + k ∧ k < 64 := by
  rw [continuation?] at h
  split at h
  case isTrue hrange =>
    have hk : b.toNat - 0x80 = k := Option.some.inj h
    simp only [Bool.and_eq_true, decide_eq_true_eq, UInt8.le_iff_toNat_le,
      UInt8.lt_iff_toNat_lt, UInt8.reduceToNat] at hrange
    omega
  case isFalse => cases h

section

variable {b b₁ b₂ b₃ : UInt8} {n k₁ k₂ k₃ : Nat} {c : Char}

/-- The character that was read of one octet is encoded in it. -/
theorem encodeChar_eq_one (hb : b.toNat < 0x80) (hc : c.toNat = b.toNat) : encodeChar c = [b] := by
  rw [encodeChar, hc, if_pos hb, toUInt8_eq rfl]

/-- Of two octets: they were needed, so the character is encoded in the same two. -/
theorem encodeChar_eq_two (hb : b.toNat = 0xC0 + n) (hn : n < 32)
    (h₁ : b₁.toNat = 0x80 + k₁ ∧ k₁ < 64) (hleast : 0x80 ≤ n * 64 + k₁)
    (hc : c.toNat = n * 64 + k₁) : encodeChar c = [b, b₁] := by
  rw [encodeChar, hc, if_neg (by omega), if_pos (by omega), toUInt8_eq (b := b) (by omega),
    toUInt8_eq (b := b₁) (by omega)]

theorem encodeChar_eq_three (hb : b.toNat = 0xE0 + n) (hn : n < 16)
    (h₁ : b₁.toNat = 0x80 + k₁ ∧ k₁ < 64) (h₂ : b₂.toNat = 0x80 + k₂ ∧ k₂ < 64)
    (hleast : 0x800 ≤ n * 4096 + k₁ * 64 + k₂) (hc : c.toNat = n * 4096 + k₁ * 64 + k₂) :
    encodeChar c = [b, b₁, b₂] := by
  rw [encodeChar, hc, if_neg (by omega), if_neg (by omega), if_pos (by omega),
    toUInt8_eq (b := b) (by omega), toUInt8_eq (b := b₁) (by omega),
    toUInt8_eq (b := b₂) (by omega)]

theorem encodeChar_eq_four (hb : b.toNat = 0xF0 + n)
    (h₁ : b₁.toNat = 0x80 + k₁ ∧ k₁ < 64) (h₂ : b₂.toNat = 0x80 + k₂ ∧ k₂ < 64)
    (h₃ : b₃.toNat = 0x80 + k₃ ∧ k₃ < 64)
    (hleast : 0x10000 ≤ n * 262144 + k₁ * 4096 + k₂ * 64 + k₃)
    (hc : c.toNat = n * 262144 + k₁ * 4096 + k₂ * 64 + k₃) :
    encodeChar c = [b, b₁, b₂, b₃] := by
  rw [encodeChar, hc, if_neg (by omega), if_neg (by omega), if_neg (by omega),
    toUInt8_eq (b := b) (by omega), toUInt8_eq (b := b₁) (by omega),
    toUInt8_eq (b := b₂) (by omega), toUInt8_eq (b := b₃) (by omega)]

end

/-- **What can be read as UTF-8 is the written form of what was read.** The guards of the reader
against overlong forms are what makes the written form the one that was there. -/
theorem eq_encode_of_decode? {bs : List UInt8} {cs : List Char} (h : decode? bs = some cs) :
    bs = encode cs := by
  fun_induction decode? bs generalizing cs with
  | case1 =>
    rw [← Option.some.inj h]
    rfl
  | case2 b r hb ih =>
    simp only [Option.bind_eq_bind, Option.bind_eq_some_iff] at h
    obtain ⟨c, hc, cs', hcs', heq⟩ := h
    have hchar : encodeChar c = [b] :=
      encodeChar_eq_one (UInt8.lt_iff_toNat_lt.1 hb) (toNat_of_scalar? hc)
    exact append_eq_flatMap hchar (ih hcs') heq
  | case3 b _ hE0 b₁ r ih =>
    simp only [Option.bind_eq_bind, Option.bind_eq_some_iff] at h
    obtain ⟨k₁, h₁, _, hguard, c, hc, cs', hcs', heq⟩ := h
    obtain ⟨hC0, hleast⟩ := of_guard hguard
    have hb : b.toNat = 0xC0 + (b.toNat - 0xC0) ∧ b.toNat - 0xC0 < 32 := by
      simp only [UInt8.lt_iff_toNat_lt, UInt8.le_iff_toNat_le, UInt8.reduceToNat] at hE0 hC0
      omega
    have hchar : encodeChar c = [b, b₁] :=
      encodeChar_eq_two hb.1 hb.2 (toNat_of_continuation? h₁) hleast (toNat_of_scalar? hc)
    exact append_eq_flatMap hchar (ih hcs') heq
  | case5 b _ hE0 hF0 b₁ b₂ r ih =>
    simp only [Option.bind_eq_bind, Option.bind_eq_some_iff] at h
    obtain ⟨k₁, h₁, k₂, h₂, _, hguard, c, hc, cs', hcs', heq⟩ := h
    have hb : b.toNat = 0xE0 + (b.toNat - 0xE0) ∧ b.toNat - 0xE0 < 16 := by
      simp only [UInt8.lt_iff_toNat_lt, UInt8.reduceToNat] at hE0 hF0
      omega
    have hchar : encodeChar c = [b, b₁, b₂] :=
      encodeChar_eq_three hb.1 hb.2 (toNat_of_continuation? h₁) (toNat_of_continuation? h₂)
        (of_guard hguard) (toNat_of_scalar? hc)
    exact append_eq_flatMap hchar (ih hcs') heq
  | case7 b _ _ hF0 b₁ b₂ b₃ r ih =>
    simp only [Option.bind_eq_bind, Option.bind_eq_some_iff] at h
    obtain ⟨k₁, h₁, k₂, h₂, k₃, h₃, _, hguard, c, hc, cs', hcs', heq⟩ := h
    have hb : b.toNat = 0xF0 + (b.toNat - 0xF0) := by
      simp only [UInt8.lt_iff_toNat_lt, UInt8.reduceToNat] at hF0
      omega
    have hchar : encodeChar c = [b, b₁, b₂, b₃] :=
      encodeChar_eq_four hb (toNat_of_continuation? h₁) (toNat_of_continuation? h₂)
        (toNat_of_continuation? h₃) (of_guard hguard) (toNat_of_scalar? hc)
    exact append_eq_flatMap hchar (ih hcs') heq
  | case4 | case6 | case8 => cases h

/-- Octets are decoded to a text exactly if they are its encoding. -/
theorem decode?_eq_some_iff {bs : List UInt8} {cs : List Char} :
    decode? bs = some cs ↔ bs = encode cs :=
  ⟨eq_encode_of_decode?, fun h ↦ h ▸ decode?_encode cs⟩

/-- Octets are malformed exactly if they encode no text. -/
theorem decode?_eq_none_iff {bs : List UInt8} : decode? bs = none ↔ ∀ cs, bs ≠ encode cs := by
  simp only [Option.eq_none_iff_forall_ne_some, ne_eq, decode?_eq_some_iff]

/-- Characters are encoded as in the standard library. -/
theorem encodeChar_eq_utf8EncodeChar (c : Char) : encodeChar c = String.utf8EncodeChar c := by
  have hlt := toNat_lt c
  have hval : c.val.toNat = c.toNat := rfl
  rw [encodeChar, String.utf8EncodeChar, hval]
  generalize c.toNat = n at hlt
  simp only [Nat.toUInt8_eq]
  grind

/-- The written form is that of strings. -/
theorem encode_eq_flatMap (cs : List Char) : encode cs = cs.flatMap String.utf8EncodeChar := by
  rw [encode, funext encodeChar_eq_utf8EncodeChar]

end Utf8

namespace Utf16

/-! ### UTF-16 -/

section

variable {u v : UInt16} {c : Char}

/-- A unit that begins a pair does not end one. -/
theorem isTrailing_of_isLeading (hu : isLeading u) : isTrailing u = false := by
  rw [isLeading_eq, decide_eq_true_eq] at hu
  rw [isTrailing_eq]
  exact decide_eq_false (by omega)

theorem isLeading_of_isTrailing (hu : isTrailing u) : isLeading u = false := by
  rw [isTrailing_eq, decide_eq_true_eq] at hu
  rw [isLeading_eq]
  exact decide_eq_false (by omega)

theorem encodeChar_eq_one (hc : c.toNat = u.toNat) : encodeChar c = [u] := by
  rw [encodeChar, hc, if_pos u.toNat_lt, toUInt16_eq rfl]

/-- The character that was read of a pair is encoded in it. -/
theorem encodeChar_eq_two (hu : isLeading u) (hv : isTrailing v)
    (hc : c.toNat = 0x10000 + (u.toNat - 0xD800) * 1024 + (v.toNat - 0xDC00)) :
    encodeChar c = [u, v] := by
  rw [isLeading_eq, decide_eq_true_eq] at hu
  rw [isTrailing_eq, decide_eq_true_eq] at hv
  rw [encodeChar, hc, if_neg (by omega), toUInt16_eq (u := u) (by omega),
    toUInt16_eq (u := v) (by omega)]

/-- A unit that leads no pair is a character, or the second half of a pair. -/
theorem isSome_scalar?_toNat (hu : isLeading u = false) :
    (scalar? u.toNat).isSome ↔ isTrailing u = false := by
  rw [isLeading_eq, decide_eq_false_iff_not] at hu
  have hlt := u.toNat_lt
  rw [isSome_scalar?_iff, isTrailing_eq, decide_eq_false_iff_not]
  omega

/-- Every pair of surrogates is a character. -/
theorem exists_scalar?_pair (hu : isLeading u) (hv : isTrailing v) :
    ∃ c, scalar? (0x10000 + (u.toNat - 0xD800) * 1024 + (v.toNat - 0xDC00)) = some c := by
  rw [isLeading_eq, decide_eq_true_eq] at hu
  rw [isTrailing_eq, decide_eq_true_eq] at hv
  refine Option.isSome_iff_exists.1 (isSome_scalar?_iff.2 ?_)
  omega

end

/-- **What can be read as UTF-16 is the written form of what was read.** -/
theorem eq_encode_of_decode? {us : List UInt16} {cs : List Char} (h : decode? us = some cs) :
    us = encode cs := by
  fun_induction decode? us generalizing cs with
  | case1 =>
    rw [← Option.some.inj h]
    rfl
  | case2 u hu v r hv ih =>
    simp only [Option.bind_eq_bind, Option.bind_eq_some_iff] at h
    obtain ⟨c, hc, cs', hcs', heq⟩ := h
    exact append_eq_flatMap (encodeChar_eq_two hu hv (toNat_of_scalar? hc)) (ih hcs') heq
  | case5 u r hu ih =>
    simp only [Option.bind_eq_bind, Option.bind_eq_some_iff] at h
    obtain ⟨c, hc, cs', hcs', heq⟩ := h
    exact append_eq_flatMap (encodeChar_eq_one (toNat_of_scalar? hc)) (ih hcs') heq
  | case3 | case4 => cases h

theorem decode?_eq_some_iff {us : List UInt16} {cs : List Char} :
    decode? us = some cs ↔ us = encode cs :=
  ⟨eq_encode_of_decode?, fun h ↦ h ▸ decode?_encode cs⟩

theorem decode?_eq_none_iff {us : List UInt16} : decode? us = none ↔ ∀ cs, us ≠ encode cs := by
  simp only [Option.eq_none_iff_forall_ne_some, ne_eq, decode?_eq_some_iff]

/-! ### Unpaired surrogates -/

/-- The unit at a place is a surrogate without its other half beside it: one that leads with none
that trails right after it, or one that trails with none that leads right before it. -/
def Unpaired (us : List UInt16) (i : Nat) : Prop :=
  us[i]?.any isLeading ∧ ¬us[i + 1]?.any isTrailing ∨
    us[i]?.any isTrailing ∧ ¬(i ≠ 0 ∧ us[i - 1]?.any isLeading)

instance (us : List UInt16) (i : Nat) : Decidable (Unpaired us i) :=
  inferInstanceAs (Decidable (_ ∨ _))

section

variable {u v : UInt16} {r : List UInt16}

/-- Whether a unit is paired depends on its neighbours only. -/
theorem unpaired_cons_succ_succ (i : Nat) : Unpaired (u :: r) (i + 2) ↔ Unpaired r (i + 1) := by
  simp [Unpaired]

theorem unpaired_cons_succ (hu : isLeading u = false) :
    ∀ i, Unpaired (u :: r) (i + 1) ↔ Unpaired r i
  | 0 => by simp [Unpaired, hu]
  | i + 1 => unpaired_cons_succ_succ i

/-- In front of a unit that leads no pair, the others are paired among themselves. -/
theorem forall_not_unpaired_cons (hu : isLeading u = false) :
    (∀ i, ¬Unpaired (u :: r) i) ↔ isTrailing u = false ∧ ∀ i, ¬Unpaired r i := by
  have hzero : Unpaired (u :: r) 0 ↔ isTrailing u := by simp [Unpaired, hu]
  rw [← Nat.and_forall_add_one, hzero, Bool.not_eq_true]
  simp only [unpaired_cons_succ hu]

/-- A pair has no influence on the units after it. -/
theorem forall_not_unpaired_pair (hu : isLeading u) (hv : isTrailing v) :
    (∀ i, ¬Unpaired (u :: v :: r) i) ↔ ∀ i, ¬Unpaired r i := by
  have hv' : isLeading v = false := isLeading_of_isTrailing hv
  have hsucc (i : Nat) : Unpaired (u :: v :: r) (i + 2) ↔ Unpaired r i :=
    (unpaired_cons_succ_succ i).trans (unpaired_cons_succ hv' i)
  have hzero : ¬Unpaired (u :: v :: r) 0 := by simp [Unpaired, hv, isTrailing_of_isLeading hu]
  have hone : ¬Unpaired (u :: v :: r) 1 := by simp [Unpaired, hu, hv']
  rw [← Nat.and_forall_add_one, ← Nat.and_forall_add_one]
  simp only [hsucc, hzero, hone, not_false_eq_true, true_and]

end

/-- **Units can be read exactly if none of them is an unpaired surrogate.** -/
theorem isSome_decode?_iff (us : List UInt16) : (decode? us).isSome ↔ ∀ i, ¬Unpaired us i := by
  fun_induction decode? us with
  | case1 => simp [Unpaired]
  | case2 u hu v r hv ih =>
    obtain ⟨c, hc⟩ := exists_scalar?_pair hu hv
    rw [forall_not_unpaired_pair hu hv, ← ih, hc]
    cases decode? r <;> simp
  | case3 u hu v r hv =>
    have hunpaired : Unpaired (u :: v :: r) 0 := .inl ⟨by simpa using hu, by simpa using hv⟩
    exact ⟨nofun, fun h ↦ absurd hunpaired (h 0)⟩
  | case4 u hu =>
    have hunpaired : Unpaired [u] 0 := .inl ⟨by simpa using hu, by simp⟩
    exact ⟨nofun, fun h ↦ absurd hunpaired (h 0)⟩
  | case5 u r hu ih =>
    have hu' : isLeading u = false := Bool.of_not_eq_true hu
    rw [forall_not_unpaired_cons hu', ← ih, ← isSome_scalar?_toNat hu']
    cases scalar? u.toNat <;> cases decode? r <;> simp

/-- The units of texts are those without an unpaired surrogate. -/
theorem exists_eq_encode_iff (us : List UInt16) :
    (∃ cs, us = encode cs) ↔ ∀ i, ¬Unpaired us i := by
  rw [← isSome_decode?_iff, Option.isSome_iff_exists]
  exact exists_congr fun cs ↦ decode?_eq_some_iff.symm

/-- The other half of a pair has to come second. -/
example : Unpaired [0xDE00, 0xD83D] 0 ∧ Unpaired [0xDE00, 0xD83D] 1 ∧
    ∀ i < 2, ¬Unpaired [0xD83D, 0xDE00] i := by decide

end Utf16

end Crossing.Text
