import Crossing.Boundary.Arena
import Mathlib.Data.List.Nodup
import Mathlib.Data.List.Perm.Subperm

/-!
# Arenas in order

The operations of an arena are seen through two views: `get?`, what is behind a handle, and
`handles`, which handles are in use. An arena is *tidy* if every handle in use was given out, no two
are the same, and no handle was ever released that held nothing. Making and replacing keep that, and
so does releasing a handle in use.

To follow what happens to handles over many operations, `Grown` compares an arena with what it was
at first: the handles in use are those of then and some extra ones, and all extra ones were given
out later. Callers account for the extra handles, and never have to look into the list.
-/

namespace Crossing.Boundary.Arena

variable {α : Type} {a : Arena α} {handle : Nat} {x : α}

/-- The handles in use. -/
def handles (a : Arena α) : List Nat := a.live.map Prod.fst

/-! ### What is behind a handle -/

/-- What was inserted is found under the handle that was issued for it, and all else where it
was. -/
@[simp] theorem get?_insert (a : Arena α) (x : α) (k : Nat) :
    (a.insert x).2.get? k = if k = a.issued then some x else a.get? k := by
  show ((a.issued, x) :: a.live).lookup k = _
  rw [List.lookup_cons]
  by_cases hk : k = a.issued
  · rw [hk, BEq.rfl, if_pos rfl]
  · rw [beq_false_of_ne hk, if_neg hk]
    rfl

/-- A value is only replaced where there is one. -/
@[simp] theorem get?_set (a : Arena α) (handle : Nat) (x : α) (k : Nat) :
    (a.set handle x).get? k = if k = handle then (a.get? k).map fun _ ↦ x else a.get? k := by
  show (a.live.map fun p ↦ if p.1 == handle then (handle, x) else p).lookup k = _
  rw [get?]
  induction a.live with
  | nil => split <;> rfl
  | cons p live ih =>
    obtain ⟨j, y⟩ := p
    rw [List.map_cons, List.lookup_cons]
    by_cases hj : j = handle
    · subst hj
      rw [if_pos BEq.rfl, List.lookup_cons]
      by_cases hk : k = j
      · simp [hk]
      · rw [beq_false_of_ne hk, ih, if_neg hk]
    · rw [if_neg (by simpa using hj), List.lookup_cons]
      by_cases hk : k = j
      · simp [hk, hj]
      · rw [beq_false_of_ne hk, ih]

/-- What was put behind a handle in use is there. -/
theorem get?_set_self (h : (a.get? handle).isSome) (x : α) :
    (a.set handle x).get? handle = some x := by
  obtain ⟨y, hy⟩ := Option.isSome_iff_exists.1 h
  rw [get?_set, if_pos rfl, hy]
  rfl

/-- Nothing is found under a handle that was released. -/
@[simp] theorem get?_release (a : Arena α) (handle k : Nat) :
    (a.release handle).get? k = if k = handle then none else a.get? k := by
  have hlookup (live : List (Nat × α)) : (live.filter fun p ↦ p.1 != handle).lookup k =
      if k = handle then none else live.lookup k := by
    induction live with
    | nil => split <;> rfl
    | cons p live ih =>
      obtain ⟨j, y⟩ := p
      rw [List.filter_cons]
      by_cases hj : j = handle
      · rw [if_neg (by simpa using hj), ih, List.lookup_cons, hj]
        by_cases hk : k = handle
        · rw [if_pos hk, if_pos hk]
        · rw [beq_false_of_ne hk]
      · rw [if_pos (by simpa using hj), List.lookup_cons, List.lookup_cons, ih]
        by_cases hk : k = j
        · simp [hk, hj]
        · rw [beq_false_of_ne hk]
  rw [release]
  split
  · exact hlookup a.live
  · rename_i hdead
    show a.get? k = _
    by_cases hk : k = handle
    · rw [if_pos hk, hk]
      simpa [isLive] using hdead
    · rw [if_neg hk]

/-! ### Which handles are in use -/

/-- A handle is live as long as something is listed under it. -/
theorem isLive_iff : a.isLive handle ↔ handle ∈ a.handles := by
  rw [isLive, get?, List.lookup_isSome_iff, handles, List.mem_map]
  refine exists_congr fun p ↦ and_congr_right fun _ ↦ ?_
  rw [beq_iff_eq, eq_comm]

@[simp] theorem handles_set (a : Arena α) (handle : Nat) (x : α) :
    (a.set handle x).handles = a.handles := by
  show (a.live.map _).map Prod.fst = a.live.map Prod.fst
  rw [List.map_map]
  refine List.map_congr_left fun p _ ↦ ?_
  rw [Function.comp_apply]
  split
  · rename_i hp
    exact (beq_iff_eq.1 hp).symm
  · rfl

/-! ### Tidy arenas -/

/-- The handles in use are different, each was given out, and none was released in vain. -/
structure Tidy (a : Arena α) : Prop where
  nodup : a.handles.Nodup
  lt_issued : ∀ handle ∈ a.handles, handle < a.issued
  strayed_eq : a.strayed = 0

theorem tidy_empty : ({} : Arena α).Tidy := ⟨List.nodup_nil, by simp [handles], rfl⟩

namespace Tidy

/-- A handle that was never issued cannot be in use, so handles still differ. -/
theorem insert (ha : a.Tidy) (x : α) : (a.insert x).2.Tidy where
  nodup := List.nodup_cons.2 ⟨fun hmem ↦ Nat.lt_irrefl _ (ha.lt_issued _ hmem), ha.nodup⟩
  lt_issued := by
    intro handle hmem
    rcases List.mem_cons.1 hmem with rfl | hmem
    · exact Nat.lt_succ_self _
    · exact Nat.lt_succ_of_lt (ha.lt_issued handle hmem)
  strayed_eq := ha.strayed_eq

theorem set (ha : a.Tidy) (handle : Nat) (x : α) : (a.set handle x).Tidy where
  nodup := by
    rw [handles_set]
    exact ha.nodup
  lt_issued := by
    rw [handles_set]
    exact ha.lt_issued
  strayed_eq := ha.strayed_eq

/-- Where handles differ, lookup and list agree. -/
theorem get?_eq_some_iff (ha : a.Tidy) : a.get? handle = some x ↔ (handle, x) ∈ a.live := by
  constructor
  · intro h
    obtain ⟨before, after, hlive, -⟩ := List.lookup_eq_some_iff.1 h
    exact hlive ▸ List.mem_append_right _ List.mem_cons_self
  · intro hmem
    obtain ⟨y, hy⟩ := Option.isSome_iff_exists.1 (isLive_iff.2 (List.mem_map_of_mem hmem))
    obtain ⟨before, after, hlive, -⟩ := List.lookup_eq_some_iff.1 hy
    have hmem' : (handle, y) ∈ a.live := hlive ▸ List.mem_append_right _ List.mem_cons_self
    exact hy.trans (congrArg (some ·.2) (List.inj_on_of_nodup_map ha.nodup hmem' hmem rfl))

/-- Nothing is behind the next handle. -/
theorem get?_issued (ha : a.Tidy) : a.get? a.issued = none := by
  by_contra hlive
  exact Nat.lt_irrefl _ (ha.lt_issued _ (isLive_iff.1 (Option.isSome_iff_ne_none.2 hlive)))

/-- A handle in use has its place among the live things; replacing puts something else there, and
releasing takes it out. -/
theorem exists_place (ha : a.Tidy) (h : a.get? handle = some x) :
    ∃ before after, a.live = before ++ (handle, x) :: after ∧
      (∀ y, (a.set handle y).live = before ++ (handle, y) :: after) ∧
      (a.release handle).live = before ++ after := by
  obtain ⟨before, after, hlive, -⟩ := List.lookup_eq_some_iff.1 h
  have hnodup := ha.nodup
  rw [handles, hlive, List.map_append, List.map_cons, List.nodup_middle, List.nodup_cons,
    ← List.map_append] at hnodup
  -- no other thing has this handle, so neither operation touches another
  have hother : ∀ p ∈ before ++ after, p.1 ≠ handle := by
    rintro ⟨k, y⟩ hp rfl
    exact hnodup.1 (List.mem_map.2 ⟨_, hp, rfl⟩)
  refine ⟨before, after, hlive, fun y ↦ ?_, ?_⟩
  · have hsame (l : List (Nat × α)) (hl : ∀ p ∈ l, p.1 ≠ handle) :
        (l.map fun p ↦ if p.1 == handle then (handle, y) else p) = l := by
      refine (List.map_congr_left fun p hp ↦ ?_).trans l.map_id
      rw [beq_false_of_ne (hl p hp)]
      rfl
    show a.live.map _ = _
    rw [hlive, List.map_append, List.map_cons, if_pos BEq.rfl, hsame before, hsame after]
    · exact fun p hp ↦ hother p (List.mem_append_right _ hp)
    · exact fun p hp ↦ hother p (List.mem_append_left _ hp)
  · rw [Arena.release, if_pos (by rw [isLive, h]; rfl)]
    show a.live.filter _ = _
    rw [hlive, List.filter_append, List.filter_cons_of_neg (by simp), ← List.filter_append,
      List.filter_eq_self.2 fun p hp ↦ bne_iff_ne.2 (hother p hp)]

/-- The thing that is released and those that are left are the things there were. -/
theorem perm_release (ha : a.Tidy) (h : a.get? handle = some x) :
    a.live.Perm ((handle, x) :: (a.release handle).live) := by
  obtain ⟨before, after, hlive, -, hrelease⟩ := ha.exists_place h
  rw [hlive, hrelease]
  exact List.perm_middle

/-- Replacing a thing is releasing it and putting the new one there. -/
theorem perm_set (ha : a.Tidy) (h : a.get? handle = some x) (y : α) :
    (a.set handle y).live.Perm ((handle, y) :: (a.release handle).live) := by
  obtain ⟨before, after, -, hset, hrelease⟩ := ha.exists_place h
  rw [hset, hrelease]
  exact List.perm_middle

/-- Putting the same thing there again changes nothing. -/
theorem set_self (ha : a.Tidy) (h : a.get? handle = some x) : a.set handle x = a := by
  obtain ⟨before, after, hlive, hset, -⟩ := ha.exists_place h
  have heq : (a.set handle x).live = a.live := by rw [hset, hlive]
  exact congrArg (fun live ↦ { a with live }) heq

/-- A handle in use is released once, and then the others are left. -/
theorem handles_release (ha : a.Tidy) {rest : List Nat} (h : a.handles.Perm (handle :: rest)) :
    (a.release handle).handles.Perm rest := by
  obtain ⟨x, hx⟩ := Option.isSome_iff_exists.1 (isLive_iff.2 (h.mem_iff.2 List.mem_cons_self))
  exact (((ha.perm_release hx).map Prod.fst).symm.trans h).cons_inv

/-- A live handle is released, and is not counted as live any more. -/
theorem release (ha : a.Tidy) (h : handle ∈ a.handles) : (a.release handle).Tidy := by
  have hperm := ha.handles_release (List.perm_cons_erase h)
  refine ⟨hperm.nodup_iff.2 (ha.nodup.erase handle), fun k hk ↦ ?_, ?_⟩
  · rw [Arena.release, if_pos (isLive_iff.2 h)]
    exact ha.lt_issued k (List.mem_of_mem_erase (hperm.mem_iff.1 hk))
  · rw [Arena.release, if_pos (isLive_iff.2 h)]
    exact ha.strayed_eq

/-- Every handle that was given out is in use or was released. -/
theorem released_add_length (ha : a.Tidy) : a.released + a.handles.length = a.issued := by
  have hle : a.handles.length ≤ a.issued := by
    have hsub : a.handles ⊆ List.range a.issued :=
      fun handle hmem ↦ List.mem_range.2 (ha.lt_issued handle hmem)
    simpa using (List.subperm_of_subset ha.nodup hsub).length_le
  rw [handles, List.length_map] at hle ⊢
  rw [released, Nat.sub_add_cancel hle]

end Tidy

/-! ### What has come since -/

/-- Since an earlier moment, **no more than some handles have come into use**: others that were
given out in between were released again, each once, and what was in use then still is. -/
structure Grown (a₀ a : Arena α) (extra : List Nat) : Prop where
  tidy : a.Tidy
  issued_le : a₀.issued ≤ a.issued
  handles_perm : a.handles.Perm (extra ++ a₀.handles)

namespace Grown

variable {a₀ : Arena α} {extra : List Nat}

theorem refl (ha : a.Tidy) : a.Grown a [] := ⟨ha, Nat.le_refl _, .refl _⟩

/-- One more handle that was not there at first. -/
theorem insert (h : a₀.Grown a extra) (x : α) : a₀.Grown (a.insert x).2 (a.issued :: extra) :=
  ⟨h.tidy.insert x, Nat.le_succ_of_le h.issued_le, h.handles_perm.cons _⟩

theorem set (h : a₀.Grown a extra) (handle : Nat) (x : α) : a₀.Grown (a.set handle x) extra := by
  refine ⟨h.tidy.set handle x, h.issued_le, ?_⟩
  rw [handles_set]
  exact h.handles_perm

/-- One handle less that was not there at first. -/
theorem release (h : a₀.Grown a (handle :: extra)) : a₀.Grown (a.release handle) extra := by
  have hmem : handle ∈ a.handles := h.handles_perm.mem_iff.2 List.mem_cons_self
  refine ⟨h.tidy.release hmem, ?_, h.tidy.handles_release h.handles_perm⟩
  rw [Arena.release, if_pos (isLive_iff.2 hmem)]
  exact h.issued_le

theorem perm {extra' : List Nat} (h : a₀.Grown a extra) (hperm : extra.Perm extra') :
    a₀.Grown a extra' :=
  ⟨h.tidy, h.issued_le, h.handles_perm.trans (hperm.append_right _)⟩

theorem isLive (h : a₀.Grown a (handle :: extra)) : a.isLive handle :=
  isLive_iff.2 (h.handles_perm.mem_iff.2 List.mem_cons_self)

/-- What was made since then is gone, if nothing has come into use. -/
theorem not_isLive (h : a₀.Grown a []) (ha₀ : a₀.Tidy) (hhandle : a₀.issued ≤ handle) :
    ¬a.isLive handle := by
  intro hlive
  have hmem : handle ∈ a₀.handles := h.handles_perm.mem_iff.1 (isLive_iff.1 hlive)
  exact absurd (ha₀.lt_issued handle hmem) (Nat.not_lt.2 hhandle)

end Grown

end Crossing.Boundary.Arena
