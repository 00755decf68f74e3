import Crossing.Proofs.Boundary.Transcoding

/-!
# Three ways to have a narrow text owned

The native side can be asked to own octets that end before a zero, octets with their number, or the
octets of units. It reads the first two as UTF-8 and the third as UTF-16, and the first only up to
the zero. Main statement: `owning_agrees`, by which it comes to the same, in what is returned and in
the state that is left, wherever the three are about the same text.
-/

namespace Crossing.Boundary

open Call Text

variable {S : Type}

/-- Nothing after the first zero counts. -/
theorem untilZero_append {front : List UInt8} (h : 0 ∉ front) (rest : List UInt8) :
    untilZero (front ++ 0 :: rest) = front := by
  have hpos : ∀ b ∈ front, (b != 0) = true := fun b hb ↦ bne_iff_ne.2 fun h0 ↦ h (h0 ▸ hb)
  rw [untilZero, List.takeWhile_append_of_pos hpos, List.takeWhile_cons]
  exact List.append_nil front

namespace Native

variable (n : Native S)

/-- A copy that is made of well-formed octets is kept. -/
theorem ownNarrow_encode (cs : List Char) :
    (ownNarrow (some (Utf8.encode cs))).run n =
      (.ok (), { n with ownedNarrow := Utf8.encode cs }) := by
  simp only [ownNarrow, run_bind, run_demand_some, Utf8.decode?_encode, run_demandText_some,
    run_modify]

/-- Octets that encode nothing are refused, and what was kept stays. -/
theorem ownNarrow_malformed {bs : List UInt8} (h : ∀ cs, bs ≠ Utf8.encode cs) :
    (ownNarrow (some bs)).run n = (.error .invalidEncoding, n) := by
  simp only [ownNarrow, run_bind, run_demand_some, Utf8.decode?_eq_none_iff.2 h,
    run_demandText_none]

/-- Octets that end before a zero are owned as if their number had been given, whatever follows. -/
theorem ownTerminated_append {front : List UInt8} (h : 0 ∉ front) (rest : List UInt8) :
    (ownTerminated (some (front ++ 0 :: rest))).run n = (ownNarrow (some front)).run n := by
  rw [ownTerminated, Option.map_some, untilZero_append h]

/-- Units of a text are owned as its octets. -/
theorem ownTranscoded_eq_ownNarrow (cs : List Char) :
    (ownTranscoded (some (Utf16.encode cs))).run n =
      (ownNarrow (some (Utf8.encode cs))).run n := by
  rw [ownTranscoded_encode, ownNarrow_encode]

/-- **The three ways to have a narrow text owned agree**, from every state.

* Octets with their number are owned in place of what was owned before if they are the written form
  of some text; otherwise they are refused and the state is as it was.
* Without zeros among them, they are owned in the same way if they end before a zero, whatever comes
  after it, and so are the units of the text if there is one.
* With zeros among them, they are owned as the part before the first zero is. So nothing after it
  has any influence, be it well-formed or not. -/
theorem owning_agrees (bs after : List UInt8) :
    ((∀ cs : List Char, bs = cs.flatMap String.utf8EncodeChar →
        (ownNarrow (some bs)).run n = (.ok (), { n with ownedNarrow := bs })) ∧
      ((∀ cs : List Char, bs ≠ cs.flatMap String.utf8EncodeChar) →
        (ownNarrow (some bs)).run n = (.error .invalidEncoding, n))) ∧
    (0 ∉ bs → (ownTerminated (some (bs ++ 0 :: after))).run n = (ownNarrow (some bs)).run n) ∧
    (∀ cs : List Char, bs = cs.flatMap String.utf8EncodeChar →
      (ownTranscoded (some (Utf16.encode cs))).run n = (ownNarrow (some bs)).run n) ∧
    (0 ∈ bs → ∃ front rest, bs = front ++ 0 :: rest ∧ 0 ∉ front ∧
      (ownTerminated (some (bs ++ 0 :: after))).run n = (ownNarrow (some front)).run n ∧
      ∀ rest', (ownTerminated (some (front ++ 0 :: rest'))).run n =
        (ownTerminated (some (bs ++ 0 :: after))).run n) := by
  simp only [← Utf8.encode_eq_flatMap]
  refine ⟨⟨?_, n.ownNarrow_malformed⟩, fun h ↦ n.ownTerminated_append h after, ?_, fun h ↦ ?_⟩
  · rintro cs rfl
    exact n.ownNarrow_encode cs
  · rintro cs rfl
    exact n.ownTranscoded_eq_ownNarrow cs
  · obtain ⟨front, rest, rfl, hfront⟩ := List.eq_append_cons_of_mem h
    have hcut : (ownTerminated (some (front ++ 0 :: rest ++ 0 :: after))).run n =
        (ownNarrow (some front)).run n := by
      rw [List.append_assoc, List.cons_append, n.ownTerminated_append hfront]
    exact ⟨front, rest, rfl, hfront, hcut, fun rest' ↦ by rw [hcut, n.ownTerminated_append hfront]⟩

/-- An accented letter is owned although what follows the zero after it is no text, as it is where
its two octets are counted and where it comes as a unit. With one of its octets less it is refused
in both narrow ways. -/
theorem owning_agrees_cut_off :
    let n : Native Empty := { ownedNarrow := [97], ownedWide := [98] }
    (ownTerminated (some [0xC3, 0xA9, 0, 0xC3, 0, 0xFF])).run n =
      (.ok (), { ownedNarrow := [0xC3, 0xA9], ownedWide := [98] }) ∧
    (ownTranscoded (some [0xE9])).run n = (ownNarrow (some [0xC3, 0xA9])).run n ∧
    (ownTerminated (some [0xC3, 0, 0xFF])).run n = (.error .invalidEncoding, n) := by
  intro n
  have hwhole := n.owning_agrees [0xC3, 0xA9] [0xC3, 0, 0xFF]
  have hpart := n.owning_agrees [0xC3] [0xFF]
  have hcs : [0xC3, 0xA9] = ['é'].flatMap String.utf8EncodeChar := by decide
  have hno : ∀ cs : List Char, [0xC3] ≠ cs.flatMap String.utf8EncodeChar := by
    intro cs hcs
    rw [← Utf8.encode_eq_flatMap, ← Utf8.decode?_eq_some_iff] at hcs
    cases hcs
  exact ⟨(hwhole.2.1 (by decide)).trans (hwhole.1.1 _ hcs), hwhole.2.2.1 _ hcs,
    (hpart.2.1 (by decide)).trans (hpart.1.2 hno)⟩

end Native

end Crossing.Boundary
