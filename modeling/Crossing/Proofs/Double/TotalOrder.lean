import Crossing.Proofs.Sample
import Mathlib

/-!
# The total order of doubles

Every double has a *place* among the integers: those without a sign are placed by their bits, from 0
on, and those with a sign by the rest of their bits, from -1 downwards. Places order all doubles,
those that are not numbers as well, and no two doubles have the same place. Samples are sorted by
place (`inOrder_sortTotal`). So the element in the middle has half of their number as its rank
(`InOrder.isMedian_middle`), whatever order they were in before, and no other one has
(`IsMedian.unique`).

The bits of a number are the same everywhere, but for those of `0 / 0` there are many choices. All
of this holds for each of them.

No single file of Mathlib has the lemmas on the bits of a double, so all of it is imported here.
-/

namespace Crossing

/-- On each platform, doubles can be told by their bits. -/
theorem Platform.bits_injective [Platform] : Function.Injective bits := by
  -- the bits of a number are never those that the platform has for what is not one
  have hne {x : Float} (hx : ¬x.isNaN = true) : x.toBits ≠ nanBits := by
    intro h
    have hnan : (Float.ofBits nanBits).isNaN = true := isNaN
    rw [← h, Float.ofBits_toBits] at hnan
    exact hx hnan
  intro x y h
  rw [bits, bits] at h
  split_ifs at h with hx hy hy
  · rw [Float.isNaN_eq_decide_eq_nan, decide_eq_true_iff] at hx hy
    rw [hx, hy]
  · exact absurd h.symm (hne hy)
  · exact absurd h (hne hx)
  · exact Float.toBits_inj.1 h

namespace Double

section

variable [Platform]

/-- The place of a double in the total order. -/
def place (x : Float) : ℤ :=
  if (Platform.bits x).toNat < 2 ^ 63 then (Platform.bits x).toNat
  else 2 ^ 63 - 1 - (Platform.bits x).toNat

/-- The key of a double is its place, shifted to be positive. -/
theorem toNat_totalKey (x : Float) :
    ((totalKey (Platform.bits x)).toNat : ℤ) = place x + 2 ^ 63 := by
  have hlt := (Platform.bits x).toNat_lt
  rw [totalKey, place]
  by_cases h : (Platform.bits x).toNat < 2 ^ 63
  · have hhalf : (0x8000000000000000 : UInt64).toNat = 2 ^ 63 := rfl
    rw [if_pos (UInt64.lt_iff_toNat_lt.2 h), if_pos h, UInt64.toNat_add, hhalf,
      Nat.mod_eq_of_lt (by omega)]
    push_cast
    rfl
  · rw [if_neg fun hlt ↦ h (UInt64.lt_iff_toNat_lt.1 hlt), if_neg h, UInt64.toNat_not, UInt64.size]
    omega

/-- Doubles are sorted by their places. -/
theorem totalKey_le_iff {x y : Float} :
    totalKey (Platform.bits x) ≤ totalKey (Platform.bits y) ↔ place x ≤ place y := by
  rw [UInt64.le_iff_toNat_le, ← Int.ofNat_le, toNat_totalKey, toNat_totalKey]
  exact Int.add_le_add_iff_right _

/-- Different doubles have different places. -/
theorem place_injective : Function.Injective place := by
  intro x y h
  refine Platform.bits_injective (UInt64.toNat_inj.1 ?_)
  rw [place, place] at h
  split_ifs at h <;> omega

/-! ### Lists in order -/

variable {xs ys : List Float} {k : ℕ} {x : Float}

/-- Whether doubles follow each other in the total order. -/
def InOrder (xs : List Float) : Prop := xs.Pairwise fun x y ↦ place x ≤ place y

theorem inOrder_sortTotal (xs : List Float) : InOrder (sortTotal Platform.bits xs) :=
  (pairwise_sortTotal Platform.bits xs).imp totalKey_le_iff.1

/-! ### Ranks -/

/-- `x` is what stands at `k` when `xs` are put in order: at most `k` of them are below it, and more
than `k` are not above it. -/
structure HasRank (xs : List Float) (k : ℕ) (x : Float) : Prop where
  mem : x ∈ xs
  below : xs.countP (place · < place x) ≤ k
  upTo : k < xs.countP (place · ≤ place x)

/-- Ranks do not depend on the order of a list. -/
theorem HasRank.of_perm (h : HasRank xs k x) (hperm : xs.Perm ys) : HasRank ys k x where
  mem := hperm.mem_iff.1 h.mem
  below := hperm.countP_eq _ ▸ h.below
  upTo := hperm.countP_eq _ ▸ h.upTo

/-- Places are distinct, so no two doubles have the same rank. -/
theorem HasRank.unique {y : Float} (hx : HasRank xs k x) (hy : HasRank xs k y) : x = y := by
  have hnot {x y : Float} (hx : HasRank xs k x) (hy : HasRank xs k y) : ¬place x < place y := by
    intro hlt
    have hmono : xs.countP (place · ≤ place x) ≤ xs.countP (place · < place y) :=
      List.countP_mono_left fun z _ hz ↦ by simpa using (of_decide_eq_true hz).trans_lt hlt
    exact (hx.upTo.trans_le (hmono.trans hy.below)).false
  exact place_injective (le_antisymm (not_lt.1 (hnot hy hx)) (not_lt.1 (hnot hx hy)))

/-- In a list that is in order, an element has the rank of its position. -/
theorem InOrder.hasRank_append {before after : List Float} (h : InOrder (before ++ x :: after)) :
    HasRank (before ++ x :: after) before.length x := by
  obtain ⟨-, hrest, hbefore⟩ := List.pairwise_append.1 h
  obtain ⟨hafter, -⟩ := List.pairwise_cons.1 hrest
  refine ⟨by simp, ?_, ?_⟩
  · -- nothing from `x` on is below it
    have hnone : (x :: after).countP (place · < place x) = 0 := by
      simpa [List.countP_eq_zero] using hafter
    rw [List.countP_append, hnone]
    exact List.countP_le_length
  · -- everything up to `x` is not above it
    have hall : before.countP (place · ≤ place x) = before.length :=
      List.countP_eq_length.2 fun y hy ↦ by simpa using hbefore y hy x List.mem_cons_self
    rw [List.countP_append, hall, List.countP_cons_of_pos (by simp)]
    omega

theorem InOrder.hasRank_getElem (h : InOrder xs) (hk : k < xs.length) : HasRank xs k xs[k] := by
  have hsplit : xs.take k ++ xs[k] :: xs.drop (k + 1) = xs := by simp
  have hrank := InOrder.hasRank_append (hsplit.symm ▸ h)
  rwa [hsplit, List.length_take_of_le hk.le] at hrank

/-- The median of doubles, which is zero if there are none. -/
def IsMedian (xs : List Float) (x : Float) : Prop :=
  if xs = [] then x = 0 else HasRank xs (xs.length / 2) x

/-- There is one median only. -/
theorem IsMedian.unique {y : Float} (hx : IsMedian xs x) (hy : IsMedian xs y) : x = y := by
  rw [IsMedian] at hx hy
  split_ifs at hx hy with hxs
  · rw [hx, hy]
  · exact hx.unique hy

/-- **The middle of sorted doubles is their median**, and that of any list that has the same
doubles. -/
theorem InOrder.isMedian_middle (h : InOrder xs) (hperm : xs.Perm ys) :
    IsMedian ys (middle 0 xs) := by
  rw [IsMedian, middle]
  split_ifs with hys
  · subst hys
    rw [hperm.eq_nil]
    rfl
  · have hpos : 0 < xs.length := hperm.length_eq ▸ List.length_pos_of_ne_nil hys
    have hk : xs.length / 2 < xs.length := Nat.div_lt_self hpos one_lt_two
    rw [List.getD_eq_getElem _ _ hk, ← hperm.length_eq]
    exact (h.hasRank_getElem hk).of_perm hperm

end

end Double

end Crossing
