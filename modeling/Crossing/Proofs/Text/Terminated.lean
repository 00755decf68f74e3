import Crossing.Proofs.Text.WellFormed

/-!
# Units written as octets into a buffer

Characters are taken from units and written to a buffer one by one, as long as each of them leaves
room for the zero that ends the text. Main statement: `writeTerminated_by_text`, which says for all
units and all buffers when the whole text is written, and what is in the buffer in either case.

* `writeFrom?` writes by indexes, and fails if one of them lies outside of the buffer. It never
  does, and comes to the same as `writeTerminated` (`writeFrom?_characters`).
* `exists_of_writeCharacters` and `writeCharacters_of_eq_none` say which characters were written.
* `Utf16.exists_of_characters` says which units these characters came from.
-/

namespace Crossing.Text

/-! ### One character -/

section

variable {c : Char} {chars : List (Option Char)} {buffer : List UInt8}

/-- A character is not written if no room would be left for the zero. -/
theorem writeCharacters_of_full (h : buffer.length ≤ (Utf8.encodeChar c).length) :
    writeCharacters (some c :: chars) buffer = (none, buffer) := by
  rw [writeCharacters, List.drop_eq_nil_of_le h]

/-- A character is written to the front, and the others after it. -/
theorem writeCharacters_of_room (h : (Utf8.encodeChar c).length < buffer.length) :
    writeCharacters (some c :: chars) buffer =
      ((writeCharacters chars (buffer.drop (Utf8.encodeChar c).length)).1.map
          (· + (Utf8.encodeChar c).length),
        Utf8.encodeChar c ++
          (writeCharacters chars (buffer.drop (Utf8.encodeChar c).length)).2) := by
  obtain ⟨b, rest, hdrop⟩ : ∃ b rest, buffer.drop (Utf8.encodeChar c).length = b :: rest := by
    refine List.exists_cons_of_length_pos ?_
    rw [List.length_drop]
    omega
  simp only [writeCharacters, hdrop]

end

/-! ### By indexes -/

/-- Writes octets over the part of a buffer that starts at an index. The part has to lie within the
buffer. -/
def overwrite? (buffer : List UInt8) (i : Nat) (bs : List UInt8) : Option (List UInt8) :=
  if i + bs.length ≤ buffer.length then
    some (buffer.take i ++ bs ++ buffer.drop (i + bs.length))
  else none

/-- Where there is room, octets are written over what is there. -/
theorem overwrite?_append (front : List UInt8) {bs rest : List UInt8}
    (h : bs.length ≤ rest.length) :
    overwrite? (front ++ rest) front.length bs = some (front ++ bs ++ rest.drop bs.length) := by
  rw [overwrite?, if_pos (by rw [List.length_append]; omega), List.take_left,
    List.drop_length_add_append]

/-- Writes characters and a zero to a buffer from an index on. Returns the index of the zero, or
nothing if a character is missing or the buffer too short, and the buffer after it. There is no
result at all if the buffer is accessed outside of its bounds. -/
def writeFrom? : List (Option Char) → Nat → List UInt8 → Option (Option Nat × List UInt8)
  | [], i, buffer =>
    if i < buffer.length then (overwrite? buffer i [0]).map (some i, ·) else some (none, buffer)
  | none :: _, _, buffer => some (none, buffer)
  | some c :: cs, i, buffer =>
    if buffer.length ≤ i + c.utf8Size then some (none, buffer)
    else (overwrite? buffer i (Utf8.encodeChar c)).bind (writeFrom? cs (i + c.utf8Size))

/-- From the end of any front on, the indexes lie within the buffer, and the rest of the buffer is
written as if there were no front. -/
theorem writeFrom?_append (cs : List (Option Char)) (front rest : List UInt8) :
    writeFrom? cs front.length (front ++ rest) =
      some ((writeCharacters cs rest).1.map (· + front.length),
        front ++ (writeCharacters cs rest).2) := by
  induction cs generalizing front rest with
  | nil =>
    cases rest with
    | nil => simp [writeFrom?, writeCharacters]
    | cons b rest =>
      have hzero : overwrite? (front ++ b :: rest) front.length [0] = _ :=
        overwrite?_append front (by simp)
      rw [writeFrom?, if_pos (by simp), hzero]
      simp [writeCharacters]
  | cons c cs ih =>
    cases c with
    | none => rfl
    | some c =>
      rw [writeFrom?, ← Utf8.length_encodeChar, List.length_append]
      by_cases hfull : rest.length ≤ (Utf8.encodeChar c).length
      · rw [if_pos (by omega), writeCharacters_of_full hfull]
        rfl
      · have hroom : (Utf8.encodeChar c).length < rest.length := Nat.lt_of_not_le hfull
        -- what was written joins the front
        have hnext := ih (front ++ Utf8.encodeChar c) (rest.drop (Utf8.encodeChar c).length)
        rw [List.length_append] at hnext
        rw [if_neg (by omega), overwrite?_append front (Nat.le_of_lt hroom), Option.bind_some,
          hnext, writeCharacters_of_room hroom]
        simp [Function.comp_def, Nat.add_comm, Nat.add_left_comm]

/-- **No index lies outside of the buffer**, and writing by indexes comes to the same. -/
theorem writeFrom?_characters (units : List UInt16) (buffer : List UInt8) :
    writeFrom? (Utf16.characters units) 0 buffer = some (writeTerminated units buffer) := by
  have hwhole := writeFrom?_append (Utf16.characters units) [] buffer
  simpa [writeTerminated] using hwhole

/-! ### Which characters are written -/

/-- If all is written, no character is missing, and there is room for the zero. -/
theorem exists_of_writeCharacters {chars : List (Option Char)} {buffer : List UInt8} {n : Nat}
    (h : (writeCharacters chars buffer).1 = some n) :
    ∃ cs, chars = cs.map some ∧ n = (Utf8.encode cs).length ∧ n < buffer.length := by
  induction chars generalizing buffer n with
  | nil =>
    cases buffer with
    | nil => cases h
    | cons b rest =>
      obtain rfl : 0 = n := Option.some.inj h
      exact ⟨[], rfl, rfl, Nat.succ_pos _⟩
  | cons c chars ih =>
    cases c with
    | none => cases h
    | some c =>
      by_cases hfull : buffer.length ≤ (Utf8.encodeChar c).length
      · rw [writeCharacters_of_full hfull] at h
        cases h
      · rw [writeCharacters_of_room (Nat.lt_of_not_le hfull)] at h
        obtain ⟨m, hm, rfl⟩ := Option.map_eq_some_iff.1 h
        obtain ⟨cs, rfl, rfl, hlt⟩ := ih hm
        rw [List.length_drop] at hlt
        refine ⟨c :: cs, rfl, ?_, by omega⟩
        rw [Utf8.encode_cons, List.length_append, Nat.add_comm]

/-- Of some characters the first ones were written over the front of a buffer, whose rest is as it
was. -/
def WrittenOver (chars : List (Option Char)) (buffer out : List UInt8) : Prop :=
  ∃ cs, cs.map some <+: chars ∧ (Utf8.encode cs).length ≤ buffer.length ∧
    out = Utf8.encode cs ++ buffer.drop (Utf8.encode cs).length

theorem WrittenOver.refl (chars : List (Option Char)) (buffer : List UInt8) :
    WrittenOver chars buffer buffer :=
  ⟨[], List.nil_prefix, Nat.zero_le _, rfl⟩

/-- A character that fits is written, and the rest goes behind it. -/
theorem WrittenOver.cons {c : Char} {chars : List (Option Char)} {buffer out : List UInt8}
    (hroom : (Utf8.encodeChar c).length ≤ buffer.length)
    (h : WrittenOver chars (buffer.drop (Utf8.encodeChar c).length) out) :
    WrittenOver (some c :: chars) buffer (Utf8.encodeChar c ++ out) := by
  obtain ⟨cs, hprefix, hle, rfl⟩ := h
  rw [List.length_drop] at hle
  refine ⟨c :: cs, List.cons_prefix_cons.2 ⟨rfl, hprefix⟩, ?_, ?_⟩
  · rw [Utf8.encode_cons, List.length_append]
    omega
  · rw [Utf8.encode_cons, List.length_append, List.drop_drop, List.append_assoc]

/-- If not all is written, what is written are the first characters. -/
theorem writeCharacters_of_eq_none {chars : List (Option Char)} {buffer : List UInt8}
    (h : (writeCharacters chars buffer).1 = none) :
    WrittenOver chars buffer (writeCharacters chars buffer).2 := by
  induction chars generalizing buffer with
  | nil =>
    cases buffer with
    | nil => exact .refl [] []
    | cons b rest => cases h
  | cons c chars ih =>
    cases c with
    | none => exact .refl _ buffer
    | some c =>
      by_cases hfull : buffer.length ≤ (Utf8.encodeChar c).length
      · rw [writeCharacters_of_full hfull]
        exact .refl _ buffer
      · have hroom := Nat.lt_of_not_le hfull
        rw [writeCharacters_of_room hroom] at h ⊢
        exact .cons (Nat.le_of_lt hroom) (ih (Option.map_eq_none_iff.1 h))

/-! ### Which units they came from -/

namespace Utf16

/-- A text can be told from its units. -/
theorem encode_injective : Function.Injective encode := fun cs ds h ↦
  Option.some.inj ((decode?_encode cs).symm.trans ((congrArg decode? h).trans (decode?_encode ds)))

/-- Units without characters are no units. -/
theorem eq_nil_of_characters {units : List UInt16} : characters units = [] → units = [] := by
  fun_cases characters units with
  | case1 => exact fun _ ↦ rfl
  | _ => exact fun h ↦ absurd h (List.cons_ne_nil _ _)

/-- The first character came from the first units. -/
theorem exists_of_characters_cons {units : List UInt16} {c : Char} {chars : List (Option Char)} :
    characters units = some c :: chars →
      ∃ rest, units = encodeChar c ++ rest ∧ characters rest = chars := by
  fun_cases characters units with
  | case1 => exact fun h ↦ absurd h.symm (List.cons_ne_nil _ _)
  | case2 u hu v r hv =>
    intro h
    obtain ⟨hc, hrest⟩ := List.cons.inj h
    exact ⟨r, congrArg (· ++ r) (encodeChar_eq_two hu hv (toNat_of_scalar? hc)).symm, hrest⟩
  | case5 u r hu c' hc' =>
    intro h
    obtain ⟨hc, hrest⟩ := List.cons.inj h
    obtain rfl := Option.some.inj hc
    exact ⟨r, congrArg (· ++ r) (encodeChar_eq_one (toNat_of_scalar? hc')).symm, hrest⟩
  | case3 | case4 | case6 =>
    intro h
    cases h

/-- The first characters came from the first units. -/
theorem exists_of_characters {units : List UInt16} {cs : List Char} {chars : List (Option Char)}
    (h : characters units = cs.map some ++ chars) :
    ∃ rest, units = encode cs ++ rest ∧ characters rest = chars := by
  induction cs generalizing units with
  | nil => exact ⟨units, rfl, h⟩
  | cons c cs ih =>
    obtain ⟨rest, rfl, hrest⟩ := exists_of_characters_cons h
    obtain ⟨rest', rfl, hrest'⟩ := ih hrest
    exact ⟨rest', (List.append_assoc _ _ _).symm, hrest'⟩

/-- Units whose characters all exist are those of a text. -/
theorem eq_encode_of_characters {units : List UInt16} {cs : List Char}
    (h : characters units = cs.map some) : units = encode cs := by
  obtain ⟨rest, rfl, hrest⟩ := exists_of_characters (h.trans (List.append_nil _).symm)
  rw [eq_nil_of_characters hrest, List.append_nil]

end Utf16

/-- **What becomes of units and a buffer.** For all units and all buffers, of any length and with
any contents:

* no index lies outside of the buffer;
* the whole text is written exactly if no surrogate is unpaired and the UTF-8 of the text is shorter
  than the buffer. Then the number of its octets is returned, and the buffer has these octets, a
  zero, and after that what it had before;
* otherwise the buffer has the UTF-8 of the first characters, and after that what it had before;
* three octets for each unit are enough for the text, and one more for the zero. -/
theorem writeTerminated_by_text (units : List UInt16) (buffer : List UInt8) :
    let result := writeTerminated units buffer
    let utf8 (cs : List Char) : List UInt8 := cs.flatMap String.utf8EncodeChar
    writeFrom? (Utf16.characters units) 0 buffer = some result ∧
    (result.1.isSome ↔ (∀ i, ¬Utf16.Unpaired units i) ∧
      ∀ cs, units = Utf16.encode cs → (utf8 cs).length < buffer.length) ∧
    (∀ n, result.1 = some n → ∃ cs, units = Utf16.encode cs ∧ n = (utf8 cs).length ∧
      result.2 = utf8 cs ++ 0 :: buffer.drop (n + 1)) ∧
    (result.1 = none → ∃ cs, Utf16.encode cs <+: units ∧ (utf8 cs).length ≤ buffer.length ∧
      result.2 = utf8 cs ++ buffer.drop (utf8 cs).length) ∧
    ((∀ i, ¬Utf16.Unpaired units i) →
      (∃ cs, units = Utf16.encode cs ∧ (utf8 cs).length ≤ 3 * units.length) ∧
      (3 * units.length + 1 ≤ buffer.length → result.1.isSome)) := by
  intro result utf8
  have hutf8 (cs : List Char) : utf8 cs = Utf8.encode cs := (Utf8.encode_eq_flatMap cs).symm
  have hwhole (cs : List Char) (hcs : units = Utf16.encode cs)
      (hlt : (Utf8.encode cs).length < buffer.length) : result = _ :=
    hcs ▸ writeTerminated_encode cs buffer hlt
  have hsome {n : Nat} (hn : result.1 = some n) :
      ∃ cs, units = Utf16.encode cs ∧ n = (Utf8.encode cs).length ∧ n < buffer.length := by
    obtain ⟨cs, hcs, hn, hlt⟩ := exists_of_writeCharacters hn
    exact ⟨cs, Utf16.eq_encode_of_characters hcs, hn, hlt⟩
  simp only [hutf8]
  refine ⟨writeFrom?_characters units buffer, ?_, ?_, ?_, ?_⟩
  · constructor
    · intro hresult
      obtain ⟨n, hn⟩ := Option.isSome_iff_exists.1 hresult
      obtain ⟨cs, hcs, rfl, hlt⟩ := hsome hn
      refine ⟨(Utf16.exists_eq_encode_iff units).1 ⟨cs, hcs⟩, fun cs' hcs' ↦ ?_⟩
      rwa [← Utf16.encode_injective (hcs.symm.trans hcs')]
    · rintro ⟨hpaired, hroom⟩
      obtain ⟨cs, hcs⟩ := (Utf16.exists_eq_encode_iff units).2 hpaired
      rw [hwhole cs hcs (hroom cs hcs)]
      rfl
  · intro n hn
    obtain ⟨cs, hcs, rfl, hlt⟩ := hsome hn
    exact ⟨cs, hcs, rfl, by rw [hwhole cs hcs hlt]⟩
  · intro hnone
    obtain ⟨cs, ⟨chars, hchars⟩, hle, hout⟩ := writeCharacters_of_eq_none hnone
    obtain ⟨rest, hrest, -⟩ := Utf16.exists_of_characters hchars.symm
    exact ⟨cs, ⟨rest, hrest.symm⟩, hle, hout⟩
  · intro hpaired
    obtain ⟨cs, hcs⟩ := (Utf16.exists_eq_encode_iff units).2 hpaired
    have hle : (Utf8.encode cs).length ≤ 3 * units.length := hcs ▸ length_encode_le cs
    refine ⟨⟨cs, hcs, hle⟩, fun hroom ↦ ?_⟩
    rw [hwhole cs hcs (by omega)]
    rfl

/-- A letter and a pair of surrogates are five octets in UTF-8. With room for ten octets they are
written. In a buffer of just five there is no room for the zero, and only the letter is written; and
so it is if the second half of the pair is missing. -/
theorem writeTerminated_by_text_no_room :
    let units : List UInt16 := [0x68, 0xD83D, 0xDE00]
    (∀ i, ¬Utf16.Unpaired units i) ∧
    (writeTerminated units (List.replicate 10 0xFF)).1.isSome ∧
    writeTerminated units [1, 2, 3, 4, 5] = (none, [0x68, 2, 3, 4, 5]) ∧
    writeTerminated [0x68, 0xD83D] [1, 2, 3, 4, 5] = (none, [0x68, 2, 3, 4, 5]) ∧
    ∃ cs, Utf16.encode cs <+: units ∧
      [0x68, 2, 3, 4, 5] = cs.flatMap String.utf8EncodeChar ++
        [1, 2, 3, 4, 5].drop (cs.flatMap String.utf8EncodeChar).length := by
  intro units
  have hpaired : ∀ i, ¬Utf16.Unpaired units i :=
    (Utf16.exists_eq_encode_iff units).1 ⟨['h', '😀'], rfl⟩
  obtain ⟨-, -, -, -, hroom⟩ := writeTerminated_by_text units (List.replicate 10 0xFF)
  obtain ⟨-, -, -, hnone, -⟩ := writeTerminated_by_text units [1, 2, 3, 4, 5]
  obtain ⟨cs, hprefix, -, hout⟩ := hnone rfl
  exact ⟨hpaired, (hroom hpaired).2 (by decide), rfl, rfl, cs, hprefix, hout⟩

end Crossing.Text
