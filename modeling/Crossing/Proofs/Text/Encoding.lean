import Crossing.Boundary.Buffer
import Crossing.Text.Transcode
import Mathlib.Data.List.TakeWhile
import Mathlib.Data.Option.Basic

/-!
# Texts as octets and as units

What is written in UTF-8 or in UTF-16 can be read again, character by character, whatever comes
after it. Main statements:

* `Utf8.decode?_encode` and `Utf16.decode?_encode`: every text is read back as it was written;
* `Utf8.untilZero_encode` and `Utf16.untilZero_encode`: up to the first zero, both have the part of
  the text before its first `U+0000`;
* `writeTerminated_encode`: from units to octets there is no loss, if the buffer has room, and
  `length_encode_le` says how much room is always enough.
-/

namespace Crossing.Text

/-- The character that is written as a zero. -/
def nul : Char := Char.ofNat 0

theorem toNat_eq_zero_iff {c : Char} : c.toNat = 0 ↔ c = nul :=
  ⟨fun h ↦ by rw [← Char.ofNat_toNat c, h, nul], fun h ↦ by rw [h]; rfl⟩

theorem toNat_lt (c : Char) : c.toNat < 0x110000 := by
  rcases c.valid with h | ⟨-, h⟩
  · exact Nat.lt_trans h (by decide)
  · exact h

/-- The scalar values are the code points of characters. -/
theorem scalar?_toNat (c : Char) : scalar? c.toNat = some c := by
  have hvalid : c.toNat.isValidChar := c.valid
  rw [scalar?, if_pos hvalid, Char.ofNat_toNat]

theorem toNat_toUInt8 {n : Nat} (h : n < 256) : n.toUInt8.toNat = n := Nat.mod_eq_of_lt h

theorem toNat_toUInt16 {n : Nat} (h : n < 65536) : n.toUInt16.toNat = n := Nat.mod_eq_of_lt h

namespace Utf8

/-! ### UTF-8 -/

/-- An octet that goes on carries six bits. -/
theorem continuation?_eq_some {b : UInt8} {k : Nat} (hb : b.toNat = 0x80 + k) (hk : k < 64) :
    continuation? b = some k := by
  have hlow : (0x80 : UInt8) ≤ b := UInt8.le_iff_toNat_le.2 (by rw [hb]; exact Nat.le_add_right _ _)
  have hhigh : b < 0xC0 := UInt8.lt_iff_toNat_lt.2 (by rw [hb]; show _ < 0xC0; omega)
  rw [continuation?, decide_eq_true hlow, decide_eq_true hhigh, hb, Nat.add_sub_cancel_left]
  rfl

section

theorem bind_of_eq_some {α β : Type} {x : Option α} {a : α} (h : x = some a) (f : α → Option β) :
    (x >>= f) = f a := by
  rw [h, Option.bind_eq_bind, Option.bind_some]

theorem guard_of_pos {p : Prop} [Decidable p] (h : p) : (guard p : Option Unit) = some () :=
  if_pos h

variable {b b₁ b₂ b₃ : UInt8} {n k₁ k₂ k₃ : Nat} {c : Char} {rest : List UInt8}

/-- An octet below `0x80` is a character. -/
theorem decode?_cons_one (hb : b.toNat < 0x80) (hc : scalar? b.toNat = some c) :
    decode? (b :: rest) = (decode? rest).map (c :: ·) := by
  have h80 : b < 0x80 := UInt8.lt_iff_toNat_lt.2 hb
  rw [decode?.eq_def]
  dsimp only
  rw [if_pos h80, bind_of_eq_some hc]
  rcases decode? rest with - | cs <;> rfl

/-- Two octets make a character with eleven bits, if one would not have been enough. -/
theorem decode?_cons_two (hb : b.toNat = 0xC0 + n) (hn : n < 32) (h₁ : continuation? b₁ = some k₁)
    (hleast : 0x80 ≤ n * 64 + k₁) (hc : scalar? (n * 64 + k₁) = some c) :
    decode? (b :: b₁ :: rest) = (decode? rest).map (c :: ·) := by
  have h80 : ¬b < 0x80 := by simp only [UInt8.lt_iff_toNat_lt, hb, UInt8.reduceToNat]; omega
  have hE0 : b < 0xE0 := by simp only [UInt8.lt_iff_toNat_lt, hb, UInt8.reduceToNat]; omega
  have hC0 : (0xC0 : UInt8) ≤ b := by simp [UInt8.le_iff_toNat_le, hb]
  have hbits : b.toNat - 0xC0 = n := by rw [hb, Nat.add_sub_cancel_left]
  rw [decode?.eq_def]
  dsimp only
  rw [if_neg h80, if_pos hE0, hbits, bind_of_eq_some h₁,
    bind_of_eq_some (guard_of_pos ⟨hC0, hleast⟩), bind_of_eq_some hc]
  rcases decode? rest with - | cs <;> rfl

/-- Three octets make one with sixteen bits, if two would not have been enough. -/
theorem decode?_cons_three (hb : b.toNat = 0xE0 + n) (hn : n < 16)
    (h₁ : continuation? b₁ = some k₁) (h₂ : continuation? b₂ = some k₂)
    (hleast : 0x800 ≤ n * 4096 + k₁ * 64 + k₂) (hc : scalar? (n * 4096 + k₁ * 64 + k₂) = some c) :
    decode? (b :: b₁ :: b₂ :: rest) = (decode? rest).map (c :: ·) := by
  have h80 : ¬b < 0x80 := by simp only [UInt8.lt_iff_toNat_lt, hb, UInt8.reduceToNat]; omega
  have hE0 : ¬b < 0xE0 := by simp only [UInt8.lt_iff_toNat_lt, hb, UInt8.reduceToNat]; omega
  have hF0 : b < 0xF0 := by simp only [UInt8.lt_iff_toNat_lt, hb, UInt8.reduceToNat]; omega
  have hbits : b.toNat - 0xE0 = n := by rw [hb, Nat.add_sub_cancel_left]
  rw [decode?.eq_def]
  dsimp only
  rw [if_neg h80, if_neg hE0, if_pos hF0, hbits, bind_of_eq_some h₁, bind_of_eq_some h₂,
    bind_of_eq_some (guard_of_pos hleast), bind_of_eq_some hc]
  rcases decode? rest with - | cs <;> rfl

/-- Four octets make one with more bits, if three would not have been enough. -/
theorem decode?_cons_four (hb : b.toNat = 0xF0 + n)
    (h₁ : continuation? b₁ = some k₁) (h₂ : continuation? b₂ = some k₂)
    (h₃ : continuation? b₃ = some k₃) (hleast : 0x10000 ≤ n * 262144 + k₁ * 4096 + k₂ * 64 + k₃)
    (hc : scalar? (n * 262144 + k₁ * 4096 + k₂ * 64 + k₃) = some c) :
    decode? (b :: b₁ :: b₂ :: b₃ :: rest) = (decode? rest).map (c :: ·) := by
  have h80 : ¬b < 0x80 := by simp only [UInt8.lt_iff_toNat_lt, hb, UInt8.reduceToNat]; omega
  have hE0 : ¬b < 0xE0 := by simp only [UInt8.lt_iff_toNat_lt, hb, UInt8.reduceToNat]; omega
  have hF0 : ¬b < 0xF0 := by simp only [UInt8.lt_iff_toNat_lt, hb, UInt8.reduceToNat]; omega
  have hbits : b.toNat - 0xF0 = n := by rw [hb, Nat.add_sub_cancel_left]
  rw [decode?.eq_def]
  dsimp only
  rw [if_neg h80, if_neg hE0, if_neg hF0, hbits, bind_of_eq_some h₁, bind_of_eq_some h₂,
    bind_of_eq_some h₃, bind_of_eq_some (guard_of_pos hleast), bind_of_eq_some hc]
  rcases decode? rest with - | cs <;> rfl

end

/-- One character is read back, whatever follows. -/
theorem decode?_encodeChar_append (c : Char) (rest : List UInt8) :
    decode? (encodeChar c ++ rest) = (decode? rest).map (c :: ·) := by
  have hlt := toNat_lt c
  have hscalar := scalar?_toNat c
  have htail : ∀ k < 64, continuation? (0x80 + k).toUInt8 = some k := fun k hk ↦
    continuation?_eq_some (toNat_toUInt8 (by omega)) hk
  rw [encodeChar]
  generalize c.toNat = n at hlt hscalar
  split
  · exact decode?_cons_one (by rw [toNat_toUInt8] <;> omega) (by rw [toNat_toUInt8, hscalar]; omega)
  split
  · have hn : n / 64 * 64 + n % 64 = n := by omega
    exact decode?_cons_two (toNat_toUInt8 (by omega)) (by omega) (htail _ (by omega))
      (by omega) (by rw [hn, hscalar])
  split
  · have hn : n / 4096 * 4096 + n / 64 % 64 * 64 + n % 64 = n := by omega
    exact decode?_cons_three (toNat_toUInt8 (by omega)) (by omega) (htail _ (by omega))
      (htail _ (by omega)) (by omega) (by rw [hn, hscalar])
  · have hn : n / 262144 * 262144 + n / 4096 % 64 * 4096 + n / 64 % 64 * 64 + n % 64 = n := by omega
    exact decode?_cons_four (toNat_toUInt8 (by omega)) (htail _ (by omega)) (htail _ (by omega))
      (htail _ (by omega)) (by omega) (by rw [hn, hscalar])

@[simp] theorem encode_nil : encode [] = [] := rfl

@[simp] theorem encode_cons (c : Char) (cs : List Char) :
    encode (c :: cs) = encodeChar c ++ encode cs := rfl

theorem encode_append (cs ds : List Char) : encode (cs ++ ds) = encode cs ++ encode ds :=
  List.flatMap_append

/-- A character has as many octets as it takes. -/
theorem length_encodeChar (c : Char) : (encodeChar c).length = c.utf8Size := by
  have hval : c.val.toNat = c.toNat := rfl
  simp only [encodeChar, Char.utf8Size, UInt32.le_iff_toNat_le, hval]
  generalize c.toNat = n
  show _ = if n ≤ 0x7F then 1 else if n ≤ 0x7FF then 2 else if n ≤ 0xFFFF then 3 else 4
  grind

/-- There are as many octets as a string with these characters takes. -/
theorem length_encode (cs : List Char) : (encode cs).length = (String.ofList cs).utf8ByteSize := by
  induction cs with
  | nil => rfl
  | cons c cs ih =>
    rw [encode_cons, List.length_append, length_encodeChar, ih, String.ofList_cons,
      String.utf8ByteSize_append, String.utf8ByteSize_singleton]

/-- **What is written in UTF-8 is read back.** -/
theorem decode?_encode (cs : List Char) : decode? (encode cs) = some cs := by
  induction cs with
  | nil => rfl
  | cons c cs ih => rw [encode_cons, decode?_encodeChar_append, ih, Option.map_some]

theorem encodeChar_nul : encodeChar nul = [0] := rfl

/-- No character but `U+0000` is written with a zero. -/
theorem zero_notMem_encodeChar {c : Char} (h : c ≠ nul) : 0 ∉ encodeChar c := by
  have hpos : c.toNat ≠ 0 := fun h0 ↦ h (toNat_eq_zero_iff.1 h0)
  have hlt := toNat_lt c
  have hne : ∀ n : Nat, 0 < n → n < 256 → (0 : UInt8) ≠ n.toUInt8 := fun n hn hn' heq ↦ by
    have := congrArg UInt8.toNat heq
    rw [toNat_toUInt8 hn'] at this
    exact absurd this.symm (Nat.pos_iff_ne_zero.1 hn)
  rw [encodeChar]
  generalize c.toNat = n at hpos hlt
  split
  · simp only [List.mem_cons, List.not_mem_nil, or_false]
    exact hne n (by omega) (by omega)
  split
  · simp only [List.mem_cons, List.not_mem_nil, or_false, not_or]
    exact ⟨hne _ (by omega) (by omega), hne _ (by omega) (by omega)⟩
  split
  · simp only [List.mem_cons, List.not_mem_nil, or_false, not_or]
    exact ⟨hne _ (by omega) (by omega), hne _ (by omega) (by omega), hne _ (by omega) (by omega)⟩
  · simp only [List.mem_cons, List.not_mem_nil, or_false, not_or]
    exact ⟨hne _ (by omega) (by omega), hne _ (by omega) (by omega), hne _ (by omega) (by omega),
      hne _ (by omega) (by omega)⟩

/-- In UTF-8, a zero octet comes from NUL only. -/
theorem zero_mem_encode_iff {cs : List Char} : 0 ∈ encode cs ↔ nul ∈ cs := by
  rw [encode, List.mem_flatMap]
  refine ⟨fun ⟨c, hc, hzero⟩ ↦ ?_, fun h ↦ ⟨nul, h, by simp [encodeChar_nul]⟩⟩
  by_cases heq : c = nul
  · exact heq ▸ hc
  · exact absurd hzero (zero_notMem_encodeChar heq)

end Utf8

namespace Utf16

/-! ### UTF-16 -/

section

variable {u v : UInt16} {n k : Nat} {c : Char} {rest : List UInt16}

/-- The units that begin a pair. -/
theorem isLeading_eq (u : UInt16) : isLeading u = decide (0xD800 ≤ u.toNat ∧ u.toNat < 0xDC00) := by
  rw [isLeading, Bool.decide_and]
  rfl

/-- The units that end a pair. -/
theorem isTrailing_eq (u : UInt16) :
    isTrailing u = decide (0xDC00 ≤ u.toNat ∧ u.toNat < 0xE000) := by
  rw [isTrailing, Bool.decide_and]
  rfl

/-- A unit that is not part of a pair is a character. -/
theorem decode?_cons_one (hu : isLeading u = false) (hc : scalar? u.toNat = some c) :
    decode? (u :: rest) = (decode? rest).map (c :: ·) := by
  rw [decode?.eq_def]
  rcases hrest : decode? rest with - | cs <;> simp [hu, hc, hrest]

/-- A pair of units is one character. -/
theorem decode?_cons_two (hu : isLeading u) (hv : isTrailing v)
    (hc : scalar? (0x10000 + (u.toNat - 0xD800) * 1024 + (v.toNat - 0xDC00)) = some c) :
    decode? (u :: v :: rest) = (decode? rest).map (c :: ·) := by
  rw [decode?.eq_def]
  rcases hrest : decode? rest with - | cs <;> simp [hu, hv, hc, hrest]

theorem characters_cons_one (hu : isLeading u = false) (hc : scalar? u.toNat = some c) :
    characters (u :: rest) = some c :: characters rest := by
  rw [characters.eq_def]
  simp [hu, hc]

theorem characters_cons_two (hu : isLeading u) (hv : isTrailing v)
    (hc : scalar? (0x10000 + (u.toNat - 0xD800) * 1024 + (v.toNat - 0xDC00)) = some c) :
    characters (u :: v :: rest) = some c :: characters rest := by
  rw [characters.eq_def]
  simp [hu, hv, hc]

end

/-- The units of a character: one that is no surrogate, or a pair of surrogates. -/
theorem encodeChar_cases (c : Char) :
    (∃ u, encodeChar c = [u] ∧ isLeading u = false ∧ u.toNat = c.toNat) ∨
      ∃ u v, encodeChar c = [u, v] ∧ isLeading u ∧ isTrailing v ∧
        0x10000 + (u.toNat - 0xD800) * 1024 + (v.toNat - 0xDC00) = c.toNat := by
  have hlt := toNat_lt c
  have hvalid : c.toNat < 0xD800 ∨ 0xDFFF < c.toNat ∧ c.toNat < 0x110000 := c.valid
  rw [encodeChar]
  generalize c.toNat = n at hlt hvalid
  split
  · refine .inl ⟨_, rfl, ?_, toNat_toUInt16 (by omega)⟩
    rw [isLeading_eq, toNat_toUInt16 (by omega)]
    exact decide_eq_false (by omega)
  · have hu : (0xD800 + (n - 0x10000) / 1024).toUInt16.toNat = 0xD800 + (n - 0x10000) / 1024 :=
      toNat_toUInt16 (by omega)
    have hv : (0xDC00 + (n - 0x10000) % 1024).toUInt16.toNat = 0xDC00 + (n - 0x10000) % 1024 :=
      toNat_toUInt16 (by omega)
    refine .inr ⟨_, _, rfl, ?_, ?_, ?_⟩
    · rw [isLeading_eq, hu]
      exact decide_eq_true (by omega)
    · rw [isTrailing_eq, hv]
      exact decide_eq_true (by omega)
    · rw [hu, hv]
      omega

/-- One character is read back, whatever follows. -/
theorem decode?_encodeChar_append (c : Char) (rest : List UInt16) :
    decode? (encodeChar c ++ rest) = (decode? rest).map (c :: ·) := by
  obtain ⟨u, henc, hu, hn⟩ | ⟨u, v, henc, hu, hv, hn⟩ := encodeChar_cases c
  · rw [henc]
    exact decode?_cons_one hu (by rw [hn, scalar?_toNat])
  · rw [henc]
    exact decode?_cons_two hu hv (by rw [hn, scalar?_toNat])

/-- The first character of a text that goes on is read off its units. -/
theorem characters_encodeChar_append (c : Char) (rest : List UInt16) :
    characters (encodeChar c ++ rest) = some c :: characters rest := by
  obtain ⟨u, henc, hu, hn⟩ | ⟨u, v, henc, hu, hv, hn⟩ := encodeChar_cases c
  · rw [henc]
    exact characters_cons_one hu (by rw [hn, scalar?_toNat])
  · rw [henc]
    exact characters_cons_two hu hv (by rw [hn, scalar?_toNat])

@[simp] theorem encode_nil : encode [] = [] := rfl

@[simp] theorem encode_cons (c : Char) (cs : List Char) :
    encode (c :: cs) = encodeChar c ++ encode cs := rfl

/-- **What is written in UTF-16 is read back.** -/
theorem decode?_encode (cs : List Char) : decode? (encode cs) = some cs := by
  induction cs with
  | nil => rfl
  | cons c cs ih => rw [encode_cons, decode?_encodeChar_append, ih, Option.map_some]

/-- All characters of a text are read off its units. -/
theorem characters_encode (cs : List Char) : characters (encode cs) = cs.map some := by
  induction cs with
  | nil => rfl
  | cons c cs ih => rw [encode_cons, characters_encodeChar_append, ih, List.map_cons]

theorem encodeChar_nul : encodeChar nul = [0] := rfl

/-- No character but `U+0000` is written with a zero. -/
theorem zero_notMem_encodeChar {c : Char} (h : c ≠ nul) : 0 ∉ encodeChar c := by
  have hpos : c.toNat ≠ 0 := fun h0 ↦ h (toNat_eq_zero_iff.1 h0)
  obtain ⟨u, henc, -, hn⟩ | ⟨u, v, henc, hu, hv, -⟩ := encodeChar_cases c
  · rw [henc, List.mem_singleton]
    rintro rfl
    exact hpos hn.symm
  · rw [henc]
    simp only [List.mem_cons, List.not_mem_nil, or_false, not_or]
    constructor
    · rintro rfl
      exact absurd hu (by decide)
    · rintro rfl
      exact absurd hv (by decide)

end Utf16

/-! ### Texts that end with a zero -/

/-- Where only `U+0000` is written with a zero, the first zero is that of the first `U+0000`. -/
theorem untilZero_flatMap {α : Type} [BEq α] [LawfulBEq α] [OfNat α 0] {f : Char → List α}
    (hnul : f nul = [0]) (hne : ∀ c, c ≠ nul → 0 ∉ f c) (cs : List Char) :
    Boundary.untilZero (cs.flatMap f ++ [0]) = (cs.takeWhile (· != nul)).flatMap f := by
  induction cs with
  | nil => simp [Boundary.untilZero]
  | cons c cs ih =>
    rw [Boundary.untilZero] at ih ⊢
    rw [List.flatMap_cons, List.append_assoc]
    by_cases hc : c = nul
    · rw [hc, hnul]
      simp
    · have hpos : ∀ x ∈ f c, (x != 0) = true := fun x hx ↦
        bne_iff_ne.2 fun h0 ↦ hne c hc (h0 ▸ hx)
      rw [List.takeWhile_append_of_pos hpos, ih, List.takeWhile_cons, if_pos (bne_iff_ne.2 hc),
        List.flatMap_cons]

/-- Up to the first zero, octets are those of the text up to the first NUL. -/
theorem Utf8.untilZero_encode (cs : List Char) :
    Boundary.untilZero (Utf8.encode cs ++ [0]) = Utf8.encode (cs.takeWhile (· != nul)) :=
  untilZero_flatMap Utf8.encodeChar_nul (fun _ ↦ Utf8.zero_notMem_encodeChar) cs

theorem Utf16.untilZero_encode (cs : List Char) :
    Boundary.untilZero (Utf16.encode cs ++ [0]) = Utf16.encode (cs.takeWhile (· != nul)) :=
  untilZero_flatMap Utf16.encodeChar_nul (fun _ ↦ Utf16.zero_notMem_encodeChar) cs

/-- A text without NUL ends at its end. -/
theorem takeWhile_ne_nul {cs : List Char} (h : nul ∉ cs) : cs.takeWhile (· != nul) = cs := by
  rw [List.takeWhile_eq_self_iff]
  exact fun c hc ↦ bne_iff_ne.2 fun heq ↦ h (heq ▸ hc)

/-! ### From units to octets -/

/-- Characters are written in full, with their zero, where the buffer has room for both. -/
theorem writeCharacters_map_some (cs : List Char) (buffer : List UInt8)
    (h : (Utf8.encode cs).length < buffer.length) :
    writeCharacters (cs.map some) buffer =
      (some (Utf8.encode cs).length,
        Utf8.encode cs ++ 0 :: buffer.drop ((Utf8.encode cs).length + 1)) := by
  induction cs generalizing buffer with
  | nil =>
    rcases buffer with - | ⟨b, buffer⟩
    · simp at h
    · rfl
  | cons c cs ih =>
    rw [Utf8.encode_cons, List.length_append] at h
    -- the buffer after the first character still has room for the others
    obtain ⟨b, rest, hdrop⟩ : ∃ b rest, buffer.drop (Utf8.encodeChar c).length = b :: rest := by
      refine List.exists_cons_of_length_pos ?_
      rw [List.length_drop]
      omega
    have hlen := congrArg List.length hdrop
    rw [List.length_drop] at hlen
    rw [List.map_cons, writeCharacters]
    simp only [hdrop]
    rw [ih _ (by omega), ← hdrop, List.drop_drop, Utf8.encode_cons, List.length_append,
      List.append_assoc, Nat.add_assoc]
    exact Prod.ext (congrArg some (Nat.add_comm _ _)) rfl

/-- **Units of a text are written as the octets of that text**, if there is room for them. -/
theorem writeTerminated_encode (cs : List Char) (buffer : List UInt8)
    (h : (Utf8.encode cs).length < buffer.length) :
    writeTerminated (Utf16.encode cs) buffer =
      (some (Utf8.encode cs).length,
        Utf8.encode cs ++ 0 :: buffer.drop ((Utf8.encode cs).length + 1)) := by
  rw [writeTerminated, Utf16.characters_encode, writeCharacters_map_some cs buffer h]

/-- A character of ASCII is one octet and one unit. -/
theorem encodeChar_of_ascii {c : Char} (hc : c.toNat < 128) :
    Utf8.encodeChar c = [c.toNat.toUInt8] ∧ Utf16.encodeChar c = [c.toNat.toUInt16] :=
  ⟨if_pos hc, if_pos (Nat.lt_trans hc (by decide))⟩

/-- A text of ASCII has as many octets and units as characters. -/
theorem length_encode_of_ascii {cs : List Char} (hcs : ∀ c ∈ cs, c.toNat < 128) :
    (Utf8.encode cs).length = cs.length ∧ (Utf16.encode cs).length = cs.length := by
  induction cs with
  | nil => exact ⟨rfl, rfl⟩
  | cons c cs ih =>
    obtain ⟨hutf8, hutf16⟩ := encodeChar_of_ascii (hcs c List.mem_cons_self)
    obtain ⟨ih8, ih16⟩ := ih fun c hmem ↦ hcs c (List.mem_cons_of_mem _ hmem)
    rw [Utf8.encode_cons, Utf16.encode_cons, hutf8, hutf16]
    exact ⟨congrArg (· + 1) ih8, congrArg (· + 1) ih16⟩

/-- A unit needs three octets at most. -/
theorem length_encodeChar_le (c : Char) :
    (Utf8.encodeChar c).length ≤ 3 * (Utf16.encodeChar c).length := by
  rw [Utf8.encodeChar, Utf16.encodeChar]
  generalize c.toNat = n
  split <;> split
  all_goals simp
  all_goals split <;> simp

/-- Three octets for each unit are always enough. -/
theorem length_encode_le (cs : List Char) :
    (Utf8.encode cs).length ≤ 3 * (Utf16.encode cs).length := by
  induction cs with
  | nil => simp
  | cons c cs ih =>
    have hc := length_encodeChar_le c
    rw [Utf8.encode_cons, Utf16.encode_cons, List.length_append, List.length_append]
    omega

end Crossing.Text
