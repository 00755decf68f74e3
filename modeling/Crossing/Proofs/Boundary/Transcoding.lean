import Crossing.Proofs.Boundary.Execution
import Crossing.Proofs.Text.WellFormed

/-!
# Texts across the boundary, both ways

Setting the test text makes units of octets, and owning a wide text as a narrow one makes octets of
units. Both are decided by the text alone, whatever state they start from. Main statement:
`transcodings_inverse`, by which each undoes the other and each takes the well-formed texts and no
others.
-/

namespace Crossing.Boundary

open Call Text

variable {S : Type}

theorem Call.run_demandText_none {σ α : Type} (s : σ) :
    (demandText none : Call σ α).run s = (.error .invalidEncoding, s) := rfl

namespace Native

variable (n : Native S)

theorem lendWide_run : (lendWide true true).run n = (.ok ⟨.stored, n.testUnits⟩, n) := rfl

/-! ### Octets that are set as the test text -/

/-- Octets that can be decoded are stored, and the units are read from them after that. -/
theorem setTestString_of_read {octets : Octets} {cs : List Char}
    (h : octets.read n.testBytes = Utf8.encode cs) :
    (setTestString (some octets)).run n =
      (.ok (), { n with testBytes := Utf8.encode cs, testUnits := octets.unitsAfterFree cs }) := by
  simp only [setTestString, run_bind, run_demand_some, run_get, h, Utf8.decode?_encode,
    run_demandText_some, run_modify]

/-- A well-formed text is stored in both encodings. -/
theorem setTestString_encode (cs : List Char) :
    (setTestString (some (.own (Utf8.encode cs)))).run n =
      (.ok (), { n with testBytes := Utf8.encode cs, testUnits := Utf16.encode cs }) :=
  n.setTestString_of_read rfl

/-- Octets that encode nothing are refused, and what was stored stays. -/
theorem setTestString_malformed {octets : Octets}
    (h : ∀ cs, octets.read n.testBytes ≠ Utf8.encode cs) :
    (setTestString (some octets)).run n = (.error .invalidEncoding, n) := by
  simp only [setTestString, run_bind, run_demand_some, run_get, Utf8.decode?_eq_none_iff.2 h,
    run_demandText_none]

/-- Exactly the well-formed octets are accepted as a test text. -/
theorem setTestString_accepts_iff (bs : List UInt8) :
    (∃ n', (setTestString (some (.own bs))).run n = (.ok (), n')) ↔ ∃ cs, bs = Utf8.encode cs := by
  refine ⟨fun ⟨n', hrun⟩ ↦ ?_, fun ⟨cs, hcs⟩ ↦ ⟨_, hcs ▸ n.setTestString_encode cs⟩⟩
  by_contra hne
  have hread : ∀ cs, (Octets.own bs).read n.testBytes ≠ Utf8.encode cs := not_exists.1 hne
  rw [n.setTestString_malformed hread] at hrun
  cases hrun

/-! ### Units that are owned as octets -/

/-- Well-formed units are copied as octets. -/
theorem ownTranscoded_encode (cs : List Char) :
    (ownTranscoded (some (Utf16.encode cs))).run n =
      (.ok (), { n with ownedNarrow := Utf8.encode cs }) := by
  simp only [ownTranscoded, run_bind, run_demand_some, Utf16.decode?_encode, run_demandText_some,
    run_modify]

/-- Units that encode nothing are refused, and the copy stays. -/
theorem ownTranscoded_malformed {us : List UInt16} (h : ∀ cs, us ≠ Utf16.encode cs) :
    (ownTranscoded (some us)).run n = (.error .invalidEncoding, n) := by
  simp only [ownTranscoded, run_bind, run_demand_some, Utf16.decode?_eq_none_iff.2 h,
    run_demandText_none]

/-- Exactly the well-formed units can be owned as a narrow text. -/
theorem ownTranscoded_accepts_iff (us : List UInt16) :
    (∃ n', (ownTranscoded (some us)).run n = (.ok (), n')) ↔ ∃ cs, us = Utf16.encode cs := by
  refine ⟨fun ⟨n', hrun⟩ ↦ ?_, fun ⟨cs, hcs⟩ ↦ ⟨_, hcs ▸ n.ownTranscoded_encode cs⟩⟩
  by_contra hne
  rw [n.ownTranscoded_malformed (not_exists.1 hne)] at hrun
  cases hrun

/-! ### There and back -/

/-- From octets to units and back to octets. -/
theorem ownTranscoded_setTestString {bs : List UInt8} {n' : Native S}
    (h : (setTestString (some (.own bs))).run n = (.ok (), n')) :
    (ownTranscoded (some n'.testUnits)).run n' = (.ok (), { n' with ownedNarrow := bs }) := by
  obtain ⟨cs, rfl⟩ := (n.setTestString_accepts_iff bs).1 ⟨n', h⟩
  rw [n.setTestString_encode cs] at h
  cases h
  exact ownTranscoded_encode _ cs

/-- From units to octets and back to units. -/
theorem setTestString_ownTranscoded {us : List UInt16} {n' : Native S}
    (h : (ownTranscoded (some us)).run n = (.ok (), n')) :
    (setTestString (some (.own n'.ownedNarrow))).run n' =
      (.ok (), { n' with testBytes := n'.ownedNarrow, testUnits := us }) := by
  obtain ⟨cs, rfl⟩ := (n.ownTranscoded_accepts_iff us).1 ⟨n', h⟩
  rw [n.ownTranscoded_encode cs] at h
  cases h
  exact setTestString_encode _ cs

/-- **The two transcodings are inverse to each other on the well-formed texts, and take no other
texts.** Well-formed octets are what the characters of some text are written as, and well-formed
units are those without an unpaired surrogate. -/
theorem transcodings_inverse :
    (∀ bs : List UInt8,
      ((∃ n', (setTestString (some (.own bs))).run n = (.ok (), n')) ↔
        ∃ cs : List Char, bs = cs.flatMap String.utf8EncodeChar) ∧
      ∀ n', (setTestString (some (.own bs))).run n = (.ok (), n') →
        ∃ us n'', (lendWide true true).run n' = (.ok ⟨.stored, us⟩, n') ∧
          (ownTranscoded (some us)).run n' = (.ok (), n'') ∧ n''.ownedNarrow = bs) ∧
    ∀ us : List UInt16,
      ((∃ n', (ownTranscoded (some us)).run n = (.ok (), n')) ↔ ∀ i, ¬Utf16.Unpaired us i) ∧
      ∀ n', (ownTranscoded (some us)).run n = (.ok (), n') →
        ∃ n'', (setTestString (some (.own n'.ownedNarrow))).run n' = (.ok (), n'') ∧
          (lendWide true true).run n'' = (.ok ⟨.stored, us⟩, n'') := by
  refine ⟨fun bs ↦ ⟨?_, fun n' h ↦ ?_⟩, fun us ↦ ⟨?_, fun n' h ↦ ?_⟩⟩
  · simp only [← Utf8.encode_eq_flatMap]
    exact n.setTestString_accepts_iff bs
  · exact ⟨n'.testUnits, _, n'.lendWide_run, n.ownTranscoded_setTestString h, rfl⟩
  · rw [n.ownTranscoded_accepts_iff us, Utf16.exists_eq_encode_iff]
  · exact ⟨_, n.setTestString_ownTranscoded h, lendWide_run _⟩

/-- The octets of a letter with an accent and of a character that takes a pair of surrogates come
back from the units, and the units from the octets. -/
theorem transcodings_inverse_supplementary :
    (∃ n' : Native Empty,
      (setTestString (some (.own [0xC3, 0xA9, 0xF0, 0x9F, 0x98, 0x80]))).run {} = (.ok (), n') ∧
      ∃ us n'', (lendWide true true).run n' = (.ok ⟨.stored, us⟩, n') ∧
        (ownTranscoded (some us)).run n' = (.ok (), n'') ∧
        n''.ownedNarrow = [0xC3, 0xA9, 0xF0, 0x9F, 0x98, 0x80]) ∧
    ∃ n' : Native Empty, (ownTranscoded (some [0xE9, 0xD83D, 0xDE00])).run {} = (.ok (), n') ∧
      ∃ n'', (setTestString (some (.own n'.ownedNarrow))).run n' = (.ok (), n'') ∧
        (lendWide true true).run n'' = (.ok ⟨.stored, [0xE9, 0xD83D, 0xDE00]⟩, n'') := by
  obtain ⟨octets, units⟩ := transcodings_inverse ({} : Native Empty)
  have hset : (setTestString (some (.own [0xC3, 0xA9, 0xF0, 0x9F, 0x98, 0x80]))).run
      ({} : Native Empty) = _ := setTestString_encode {} ['é', '😀']
  have hown : (ownTranscoded (some [0xE9, 0xD83D, 0xDE00])).run ({} : Native Empty) = _ :=
    ownTranscoded_encode {} ['é', '😀']
  exact ⟨⟨_, hset, (octets _).2 _ hset⟩, ⟨_, hown, (units _).2 _ hown⟩⟩

end Native

end Crossing.Boundary
