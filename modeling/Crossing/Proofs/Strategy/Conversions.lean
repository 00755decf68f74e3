import Crossing.Proofs.Strategy.TextCalls
import Crossing.Proofs.Text.WellFormed
import Mathlib.Data.List.Forall2

/-!
# Conversions on the caller's side

The caller has a text as units and hands it over as octets: as UTF-8 or as ASCII, in new memory, in
the pool, or in a buffer on the stack that is on the heap for long texts. A buffer that was there
before holds whatever was written to it last, and is longer than the text.

The strategies leave open which entry point takes the octets. `Hands` says what they hand over, and
that they make all their rounds, for every entry point that does not fail. Main statement:
`conversions_agree`, by which the ways to convert a text cannot be told apart up to the zero that
ends it.
-/

namespace Crossing.Text

/-! ### Units as ASCII -/

/-- An octet stands for a unit: it is the unit itself if that is ASCII, else a question mark. -/
def IsAsciiOf (u : UInt16) (b : UInt8) : Prop :=
  b.toNat = if u.toNat < 128 then u.toNat else '?'.toNat

/-- The octet of a unit is what it is said to be. -/
theorem isAsciiOf_asciiOctet (u : UInt16) : IsAsciiOf u (asciiOctet u) := by
  have hlt : u < 128 ↔ u.toNat < 128 := UInt16.lt_iff_toNat_lt
  rw [IsAsciiOf, asciiOctet]
  simp only [hlt]
  split
  case isTrue h => exact Nat.mod_eq_of_lt (Nat.lt_trans h (by decide))
  case isFalse => rfl

/-- Units are written over the front of a buffer, one octet a unit. -/
theorem writeAscii_eq {us : List UInt16} {buffer : List UInt8} (h : us.length ≤ buffer.length) :
    writeAscii us buffer = us.map asciiOctet ++ buffer.drop us.length := by
  induction us generalizing buffer with
  | nil => rfl
  | cons u us ih =>
    obtain ⟨b, rest, rfl⟩ := List.exists_cons_of_length_pos (Nat.lt_of_lt_of_le (Nat.succ_pos _) h)
    rw [writeAscii, ih (Nat.le_of_succ_le_succ h), List.map_cons, List.length_cons,
      List.drop_succ_cons, List.cons_append]

/-- In ASCII, units are octets. -/
theorem map_asciiOctet_encode {cs : List Char} (hcs : ∀ c ∈ cs, c.toNat < 128) :
    (Utf16.encode cs).map asciiOctet = Utf8.encode cs := by
  induction cs with
  | nil => rfl
  | cons c cs ih =>
    obtain ⟨hc, hcs⟩ := List.forall_mem_cons.1 hcs
    obtain ⟨h8, h16⟩ := encodeChar_of_ascii hc
    have hunit : c.toNat.toUInt16.toNat = c.toNat := toNat_toUInt16 (Nat.lt_trans hc (by decide))
    have hoctet : asciiOctet c.toNat.toUInt16 = c.toNat.toUInt8 := by
      refine (toUInt8_eq ?_).symm
      rw [isAsciiOf_asciiOctet, hunit, if_pos hc]
    rw [Utf16.encode_cons, Utf8.encode_cons, List.map_append, ih hcs, h8, h16, List.map_singleton,
      hoctet]

end Crossing.Text

namespace Crossing.Strategy.TextCalls

open Boundary Step Text

variable {h : TextCalls}

/-- The octets that are handed over are those of the text. -/
theorem bytes_eq_toUTF8 (h : TextCalls) : h.bytes = h.text.toUTF8.data.toList := by
  rw [bytes, octetsOf, Utf8.encode_eq_flatMap, String.toUTF8, ← String.utf8Encode_toList,
    List.utf8Encode, List.data_toByteArray, List.toList_toArray]

/-- Octets depend on the text only, not on the pool or the sink. -/
theorem bytes_of_text {h' : TextCalls} (htext : h'.text = h.text) : h'.bytes = h.bytes := by
  rw [bytes, bytes, htext]

theorem units_of_text {h' : TextCalls} (htext : h'.text = h.text) : h'.units = h.units := by
  rw [units, units, htext]

/-- The pool has room for the units and a zero, and no more of it is handed over, so nothing is left
of what it held. -/
theorem asciiPooled_fst (h : TextCalls) : h.asciiPooled.1 = h.asciiFresh := by
  have hroom : ((h.pool.grow (h.length + 1)).front (h.length + 1)).length = h.length + 1 := by
    rw [Pool.front, Pool.grow, List.length_take, List.length_append, List.length_replicate]
    omega
  show (writeAscii h.units _).set h.length 0 = _
  obtain ⟨b, hlast⟩ : ∃ b,
      ((h.pool.grow (h.length + 1)).front (h.length + 1)).drop h.units.length = [b] := by
    refine List.length_eq_one_iff.1 ?_
    rw [List.length_drop, hroom, length, Nat.add_sub_cancel_left]
  rw [writeAscii_eq (by rw [hroom]; exact Nat.le_succ _), hlast, asciiFresh, length,
    List.set_append_right _ _ (by rw [List.length_map]), List.length_map, Nat.sub_self,
    List.set_cons_zero]

/-! ### What is handed over -/

/-- A step that hands octets over, with the entry point left open. -/
abbrev HandOver (α : Type) := ∀ N : Type, (List UInt8 → Call N Unit) → Step TextCalls N α

/-- An entry point does not fail; `after` says what it leaves behind. -/
def Takes {N : Type} (take : List UInt8 → Call N Unit) (after : N → List UInt8 → N) : Prop :=
  ∀ bs n, (take bs).run n = (.ok (), after n bs)

/-- A step succeeds, and `handed` is what it hands over, one after the other. What it hands over,
returns and leaves of the holder does not depend on what the entry point does. -/
def Hands {α : Type} (step : HandOver α) (h : TextCalls) (handed : List (List UInt8)) (a : α)
    (h' : TextCalls) : Prop :=
  ∀ (N : Type) (take : List UInt8 → Call N Unit) (after : N → List UInt8 → N), Takes take after →
    ∀ n, (step N take).run (h, n) = (.ok a, (h', handed.foldl after n))

/-- All rounds are made, and in each of them octets are handed over that are as `Q` says. -/
def HandsEachRound (strategy : HandOver UInt64) (h : TextCalls) (Q : List UInt8 → Prop) : Prop :=
  ∃ handed h', Hands strategy h handed h.rounds h' ∧ handed.length = h.rounds.toNat ∧
    ∀ bs ∈ handed, Q bs

section

variable {α β : Type} {h h' h'' : TextCalls} {handed handed' : List (List UInt8)} {a : α} {b : β}

theorem Hands.pure (h : TextCalls) (a : α) : Hands (fun _ _ ↦ Pure.pure a) h [] a h :=
  fun _ _ _ _ _ ↦ rfl

theorem Hands.bind {step : HandOver α} {f : α → HandOver β} (hstep : Hands step h handed a h')
    (hf : Hands (f a) h' handed' b h'') :
    Hands (fun N take ↦ step N take >>= fun a ↦ f a N take) h (handed ++ handed') b h'' := by
  intro N take after htake n
  rw [run_bind_ok (hstep N take after htake n), hf N take after htake, List.foldl_append]

/-- To look at the holder hands nothing over. -/
theorem Hands.bind_holder {f : TextCalls → HandOver β} (hf : Hands (f h) h handed b h') :
    Hands (fun N take ↦ holder >>= fun h ↦ f h N take) h handed b h' := by
  have hholder : Hands (fun _ _ ↦ holder) h [] h h := fun _ _ _ _ _ ↦ rfl
  exact hholder.bind hf

/-- A call hands over what it is made with. -/
theorem hands_call (h : TextCalls) (bs : List UInt8) :
    Hands (fun _ take ↦ call narrowEntry (take bs)) h [bs] () h := by
  intro N take after htake n
  have hcall : (call narrowEntry (take bs)).Yields (h, n) fun _ s' ↦ s' = (h, after n bs) :=
    .call (htake bs n) rfl
  obtain ⟨_, _, hrun, rfl⟩ := hcall
  exact hrun

/-- What one round keeps is kept by `k` rounds, and what it hands over is handed over by each. -/
theorem times_hands {round : HandOver Unit} {Q : List UInt8 → Prop} {text : String}
    (hround : ∀ h : TextCalls, h.text = text →
      ∃ bs h', Hands round h [bs] () h' ∧ h'.text = text ∧ Q bs) (k : Nat) (htext : h.text = text) :
    ∃ handed h', Hands (fun N take ↦ times k (round N take)) h handed () h' ∧ handed.length = k ∧
      ∀ bs ∈ handed, Q bs := by
  induction k generalizing h with
  | zero => exact ⟨[], h, .pure h (), rfl, List.forall_mem_nil _⟩
  | succ k ih =>
    obtain ⟨bs, h', honce, htext', hQ⟩ := hround h htext
    obtain ⟨handed, h'', hrest, hlength, hall⟩ := ih htext'
    exact ⟨bs :: handed, h'', honce.bind hrest, congrArg (· + 1) hlength,
      List.forall_mem_cons.2 ⟨hQ, hall⟩⟩

/-- Where one round hands over one list, a strategy hands over one in each of its rounds. -/
theorem eachRound_hands {round : HandOver Unit} {Q : List UInt8 → Prop}
    (hround : ∀ h₁ : TextCalls, h₁.text = h.text →
      ∃ bs h₂, Hands round h₁ [bs] () h₂ ∧ h₂.text = h.text ∧ Q bs) :
    HandsEachRound (fun N take ↦ eachRound (round N take)) h Q := by
  obtain ⟨handed, h', htimes, hlength, hall⟩ := times_hands hround h.rounds.toNat rfl
  have hloop := htimes.bind (f := fun _ _ _ ↦ Pure.pure h.rounds) (.pure h' h.rounds)
  rw [List.append_nil] at hloop
  exact ⟨handed, h', hloop.bind_holder, hlength, hall⟩

/-- What is handed over may be said with less precision. -/
theorem HandsEachRound.mono {strategy : HandOver UInt64} {Q R : List UInt8 → Prop}
    (hQ : HandsEachRound strategy h Q) (hR : ∀ bs, Q bs → R bs) : HandsEachRound strategy h R := by
  obtain ⟨handed, h', hhands, hlength, hall⟩ := hQ
  exact ⟨handed, h', hhands, hlength, fun bs hbs ↦ hR bs (hall bs hbs)⟩

/-- A strategy that makes octets from the text hands them over in each round. -/
theorem handOver_hands {make : TextCalls → List UInt8} {Q : List UInt8 → Prop}
    (hmake : ∀ h₁ : TextCalls, h₁.text = h.text → Q (make h₁)) :
    HandsEachRound (fun _ take ↦ handOver narrowEntry make take) h Q :=
  eachRound_hands fun h₁ htext ↦
    ⟨make h₁, h₁, (hands_call h₁ (make h₁)).bind_holder, htext, hmake h₁ htext⟩

/-- So does a strategy whose octets might not be made, if they can be made of this text. -/
theorem handOverNarrow_hands {make : TextCalls → Except Fault (List UInt8)} {Q : List UInt8 → Prop}
    (hmake : ∀ h₁ : TextCalls, h₁.text = h.text → ∃ bs, make h₁ = .ok bs ∧ Q bs) :
    HandsEachRound (fun _ take ↦ handOverNarrow make take) h Q := by
  refine eachRound_hands fun h₁ htext ↦ ?_
  obtain ⟨bs, hbs, hQ⟩ := hmake h₁ htext
  refine ⟨bs, h₁, .bind_holder ?_, htext, hQ⟩
  rw [hbs]
  exact hands_call h₁ bs

/-- So does a strategy that makes its octets in the pool, which changes from round to round. -/
theorem handOverPooled_hands {make : TextCalls → Except Fault (List UInt8) × Pool}
    {Q : List UInt8 → Prop}
    (hmake : ∀ h₁ : TextCalls, h₁.text = h.text → ∃ bs, (make h₁).1 = .ok bs ∧ Q bs) :
    HandsEachRound (fun _ take ↦ handOverPooled make take) h Q := by
  refine eachRound_hands fun h₁ htext ↦ ?_
  obtain ⟨bs, hbs, hQ⟩ := hmake h₁ htext
  refine ⟨bs, { h₁ with pool := (make h₁).2 }, .bind_holder ?_, htext, hQ⟩
  rcases hmade : make h₁ with ⟨r, pool⟩
  rw [hmade] at hbs
  dsimp only at hbs ⊢
  rw [hbs]
  exact hands_call { h₁ with pool } bs

end

/-! ### The strategies -/

/-- The strategies that convert to UTF-8. -/
def toUtf8 : List (HandOver UInt64) :=
  [fun _ take ↦ paramToUtf8Fresh take, fun _ take ↦ paramToUtf8Pooled take,
    fun _ take ↦ paramToUtf8Stack take]

/-- The strategies that convert to ASCII. -/
def toAscii : List (HandOver UInt64) :=
  [fun _ take ↦ paramToAsciiFresh take, fun _ take ↦ paramToAsciiPooled take]

/-- The strategy that copies octets. -/
def copyNarrow : HandOver UInt64 := fun _ take ↦ paramNarrowCopy take

/-- Some octets and a zero come first. -/
def Terminated (front bs : List UInt8) : Prop := front ++ [0] <+: bs

/-- What comes behind the first zero does not matter. -/
theorem terminated_append (front rest : List UInt8) : Terminated front (front ++ 0 :: rest) :=
  ⟨rest, by rw [List.append_assoc, List.singleton_append]⟩

/-- Each strategy for UTF-8 hands over the octets of the text with a zero behind them. -/
theorem toUtf8_hands (h : TextCalls) {strategy : HandOver UInt64} (hs : strategy ∈ toUtf8) :
    HandsEachRound strategy h (Terminated h.bytes) := by
  have hall : ∀ strategy ∈ toUtf8, HandsEachRound strategy h (Terminated h.bytes) := by
    simp only [toUtf8, List.forall_mem_cons]
    refine ⟨?_, ?_, ?_, List.forall_mem_nil _⟩
    · refine handOverNarrow_hands fun h₁ htext ↦ ⟨_, h₁.utf8Fresh_eq, ?_⟩
      rw [bytes_of_text htext]
      exact terminated_append h.bytes []
    · refine handOverPooled_hands fun h₁ htext ↦ ?_
      obtain ⟨rest, hrest⟩ := h₁.utf8Pooled_ok
      exact ⟨_, hrest, bytes_of_text htext ▸ terminated_append h₁.bytes rest⟩
    · refine handOverNarrow_hands fun h₁ htext ↦ ?_
      obtain ⟨rest, hrest⟩ := h₁.utf8Stack_ok
      exact ⟨_, hrest, bytes_of_text htext ▸ terminated_append h₁.bytes rest⟩
  exact hall strategy hs

/-- Each strategy for ASCII hands over the same octets. -/
theorem toAscii_hands (h : TextCalls) {strategy : HandOver UInt64} (hs : strategy ∈ toAscii) :
    HandsEachRound strategy h (· = h.asciiFresh) := by
  have hfresh : ∀ h₁ : TextCalls, h₁.text = h.text → h₁.asciiFresh = h.asciiFresh := by
    intro h₁ htext
    rw [asciiFresh, asciiFresh, units_of_text htext]
  have hall : ∀ strategy ∈ toAscii, HandsEachRound strategy h (· = h.asciiFresh) := by
    simp only [toAscii, List.forall_mem_cons]
    refine ⟨?_, ?_, List.forall_mem_nil _⟩
    · exact handOver_hands hfresh
    · refine handOverPooled_hands fun h₁ htext ↦ ⟨_, rfl, ?_⟩
      rw [asciiPooled_fst, hfresh h₁ htext]
  exact hall strategy hs

/-- A text without NUL can be copied with a zero behind it. -/
theorem copyNarrow_hands (hnul : nul ∉ h.text.toList) :
    HandsEachRound copyNarrow h (Terminated h.bytes) := by
  refine handOverNarrow_hands fun h₁ htext ↦ ⟨h₁.bytes ++ [0], ?_, ?_⟩
  · rw [copied_eq, htext, if_neg hnul]
  · rw [bytes_of_text htext]
    exact terminated_append h.bytes []

/-- **The conversions agree.** Whatever the text, whatever scratch buffers hold and however large
they are, and whatever an entry point does with octets, as long as it does not fail:

* each conversion to UTF-8 makes all rounds, and hands over the octets of the text and a zero in
  each of them, in front of whatever is in the rest of its buffer;
* each conversion to ASCII makes all rounds, and hands over an octet for each unit and a zero;
* if the text is ASCII and has no zero, all of them and the plain copy hand over the same octets up
  to the first zero. -/
theorem conversions_agree (h : TextCalls) :
    let utf8 := h.text.toUTF8.data.toList
    (∀ strategy ∈ toUtf8, HandsEachRound strategy h (Terminated utf8)) ∧
    (∀ strategy ∈ toAscii, HandsEachRound strategy h fun bs ↦
      ∃ octets, bs = octets ++ [0] ∧ List.Forall₂ IsAsciiOf h.units octets) ∧
    ((∀ c ∈ h.text.toList, c.toNat < 128 ∧ c ≠ nul) →
      0 ∉ utf8 ∧ ∀ strategy ∈ toUtf8 ++ toAscii ++ [copyNarrow],
        HandsEachRound strategy h (Terminated utf8)) := by
  intro utf8
  have hutf8 : h.bytes = utf8 := h.bytes_eq_toUTF8
  refine ⟨fun strategy hs ↦ hutf8 ▸ h.toUtf8_hands hs, fun strategy hs ↦ ?_, fun hascii ↦ ?_⟩
  · refine (h.toAscii_hands hs).mono fun bs hbs ↦ ⟨_, hbs, ?_⟩
    exact List.forall₂_map_right_iff.2 (List.forall₂_same.2 fun u _ ↦ isAsciiOf_asciiOctet u)
  · have hnul : nul ∉ h.text.toList := fun hmem ↦ (hascii nul hmem).2 rfl
    rw [← hutf8]
    refine ⟨fun hzero ↦ hnul (Utf8.zero_mem_encode_iff.1 hzero), fun strategy hs ↦ ?_⟩
    simp only [List.mem_append, List.mem_singleton] at hs
    rcases hs with (hs | hs) | rfl
    · exact h.toUtf8_hands hs
    · refine (h.toAscii_hands hs).mono fun bs hbs ↦ ?_
      rw [hbs, asciiFresh, units, map_asciiOctet_encode fun c hc ↦ (hascii c hc).1]
      exact terminated_append h.bytes []
    · exact copyNarrow_hands hnul

/-- A pool that is full of sevens, with more room than it takes: what is handed over ends after two
characters all the same, in both rounds and in every way. -/
theorem conversions_agree_used_pool :
    let h : TextCalls := { text := "a9", rounds := 2, pool := ⟨List.replicate 9 7, []⟩ }
    (∀ c ∈ h.text.toList, c.toNat < 128 ∧ c ≠ nul) ∧
      ∀ strategy ∈ toUtf8 ++ toAscii ++ [copyNarrow],
        HandsEachRound strategy h (Terminated [97, 57]) := by
  intro h
  have hascii : ∀ c ∈ h.text.toList, c.toNat < 128 ∧ c ≠ nul := by simp [h, nul]
  exact ⟨hascii, (h.conversions_agree.2.2 hascii).2⟩

end Crossing.Strategy.TextCalls
