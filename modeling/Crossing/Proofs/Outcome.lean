import Mathlib.Data.List.Forall2

/-!
# Outcomes, and lists of them

General facts that several parts of the development use: on outcomes that may be errors, on steps
that change a state, and on lists that are related element by element.

Readers, checks and discoveries return outcomes, and what is said of them is often about success
only. Then `Except.toOption` forgets the error, and the laws here say how it goes with the ways to
make an outcome of others.
-/

namespace Crossing

variable {ε α β γ σ : Type}

/-! ### Outcomes -/

theorem ok_bind (a : α) (f : α → Except ε β) : (Except.ok a >>= f) = f a := rfl

theorem error_bind (e : ε) (f : α → Except ε β) : (Except.error e >>= f) = .error e := rfl

theorem ok_ne_error {a : α} {e : ε} : (.ok a : Except ε α) ≠ .error e := by
  intro h
  cases h

theorem error_eq_error_iff {e e' : ε} : (.error e' : Except ε α) = .error e ↔ e = e' :=
  ⟨fun h ↦ (Except.error.inj h).symm, fun h ↦ congrArg Except.error h.symm⟩

/-- A value comes out of two steps if it comes out of the second for what comes out of the first. -/
theorem bind_eq_ok_iff {x : Except ε α} {f : α → Except ε β} {b : β} :
    (x >>= f) = .ok b ↔ ∃ a, x = .ok a ∧ f a = .ok b := by
  cases x with
  | error e => exact iff_of_false nofun fun ⟨_, h, _⟩ ↦ nomatch h
  | ok a =>
    constructor
    · exact fun h ↦ ⟨a, rfl, h⟩
    · rintro ⟨_, ⟨⟩, h⟩
      exact h

theorem map_of_bind (x : Except ε α) (f : α → β) : (x >>= fun a ↦ pure (f a)) = x.map f := by
  cases x <;> rfl

theorem except_map_map (f : α → β) (g : β → γ) (r : Except ε α) :
    (r.map f).map g = r.map fun a ↦ g (f a) := by
  cases r <;> rfl

/-- Whether two steps succeed does not depend on the errors. -/
theorem toOption_bind (r : Except ε α) (f : α → Except ε β) :
    (r >>= f).toOption = r.toOption.bind fun a ↦ (f a).toOption := by
  cases r <;> rfl

theorem toOption_map (r : Except ε α) (f : α → β) : (r.map f).toOption = r.toOption.map f := by
  cases r <;> rfl

/-- Another wording of an error does not matter for the value. -/
theorem toOption_mapError {ε' : Type} (g : ε → ε') (r : Except ε α) :
    (r.mapError g).toOption = r.toOption := by
  cases r <;> rfl

theorem isOk_eq_isSome_toOption (r : Except ε α) : r.isOk = r.toOption.isSome := by
  cases r <;> rfl

theorem eq_ok_of_toOption {r : Except ε α} {a : α} (h : r.toOption = some a) : r = .ok a := by
  cases r with
  | error e => cases h
  | ok b => exact congrArg Except.ok (Option.some.inj h)

/-- An answer without a value says nothing but that it is no error. -/
theorem eq_ok_of_isOk {r : Except ε Unit × σ} (h : r.1.isOk) : r = (.ok (), r.2) := by
  rcases r with ⟨e | ⟨⟩, s⟩
  · cases h
  · rfl

/-! ### Steps -/

theorem bind_apply (f : StateM σ α) (g : α → StateM σ β) (s : σ) :
    (f >>= g) s = g (f s).1 (f s).2 :=
  rfl

/-- A step that succeeds is followed by the next one. -/
theorem bind_of_ok {x : ExceptT ε (StateM σ) α} {f : α → ExceptT ε (StateM σ) β} {s s' : σ} {a : α}
    (h : x s = (.ok a, s')) : (x >>= f) s = f a s' := by
  show ExceptT.bindCont f (x s).1 (x s).2 = f a s'
  rw [h]
  rfl

/-! ### Lists -/

section

variable {R : α → β → Prop} {as : List α} {bs : List β}

/-- Each element of the first list has a partner in the second. -/
theorem exists_rel_of_mem {a : α} (h : List.Forall₂ R as bs) (ha : a ∈ as) : ∃ b ∈ bs, R a b := by
  induction h with
  | nil => cases ha
  | @cons _ b _ bs hb _ ih =>
    rcases List.mem_cons.1 ha with rfl | ha
    · exact ⟨b, List.mem_cons_self, hb⟩
    · obtain ⟨b', hb', hR⟩ := ih ha
      exact ⟨b', List.mem_cons_of_mem _ hb', hR⟩

/-- Where each element has a partner, there is a list of them. -/
theorem exists_forall₂ (h : ∀ a ∈ as, ∃ b, R a b) : ∃ bs, List.Forall₂ R as bs := by
  induction as with
  | nil => exact ⟨[], .nil⟩
  | cons a as ih =>
    obtain ⟨ha, has⟩ := List.forall_mem_cons.1 h
    obtain ⟨b, hb⟩ := ha
    obtain ⟨bs, hbs⟩ := ih has
    exact ⟨b :: bs, .cons hb hbs⟩

variable {f : α → Option β}

/-- What a list is mapped to, element by element. -/
theorem forall₂_of_mapM (h : as.mapM f = some bs) :
    List.Forall₂ (fun a b ↦ f a = some b) as bs := by
  induction as generalizing bs with
  | nil =>
    cases h
    exact .nil
  | cons a as ih =>
    rw [List.mapM_cons] at h
    simp only [Option.bind_eq_bind, Option.bind_eq_some_iff, Option.pure_def,
      Option.some.injEq] at h
    obtain ⟨b, hb, bs, hbs, rfl⟩ := h
    exact .cons hb (ih hbs)

/-- A list can be mapped if each of its elements can. -/
theorem isSome_mapM_iff : (as.mapM f).isSome ↔ ∀ a ∈ as, (f a).isSome := by
  induction as with
  | nil => simp
  | cons a as ih =>
    rw [List.mapM_cons, List.forall_mem_cons, ← ih]
    cases f a <;> cases as.mapM f <;> simp

end

/-- A list whose keys come in blocks, each of a key of its own, is the blocks one after the
other. -/
theorem eq_flatMap_filter {κ : Type} [DecidableEq κ] {key : α → κ} {keyOf : β → κ}
    {block : β → List κ} {bs : List β} {l : List α} (hl : l.map key = bs.flatMap block)
    (hblock : ∀ b ∈ bs, ∀ k ∈ block b, k = keyOf b) (hnodup : (bs.map keyOf).Nodup) :
    l = bs.flatMap fun b ↦ l.filter fun a ↦ key a = keyOf b := by
  induction bs generalizing l with
  | nil => exact List.map_eq_nil_iff.1 hl
  | cons b bs ih =>
    -- the first block is what has its key, and there is nothing of it in the others
    obtain ⟨l₁, l₂, rfl, h₁, h₂⟩ := List.map_eq_append_iff.1 hl
    obtain ⟨hb, hbs⟩ := List.nodup_cons.1 hnodup
    have hl₁ : ∀ a ∈ l₁, key a = keyOf b := fun a ha ↦
      hblock b List.mem_cons_self _ (h₁ ▸ List.mem_map_of_mem ha)
    have hl₂ : ∀ a ∈ l₂, key a ≠ keyOf b := by
      intro a ha heq
      obtain ⟨b', hb', hmem⟩ := List.mem_flatMap.1 (h₂ ▸ List.mem_map_of_mem ha)
      have hkey := hblock b' (List.mem_cons_of_mem _ hb') _ hmem
      exact hb (List.mem_map.2 ⟨b', hb', hkey.symm.trans heq⟩)
    have hfirst : (l₁ ++ l₂).filter (fun a ↦ key a = keyOf b) = l₁ := by
      rw [List.filter_append, List.filter_eq_self.2 (by simpa using hl₁),
        List.filter_eq_nil_iff.2 (by simpa using hl₂), List.append_nil]
    have hrest : ∀ b' ∈ bs, (l₁ ++ l₂).filter (fun a ↦ key a = keyOf b') =
        l₂.filter fun a ↦ key a = keyOf b' := by
      intro b' hb'
      have hne : ∀ a ∈ l₁, key a ≠ keyOf b' := fun a ha heq ↦
        hb (List.mem_map.2 ⟨b', hb', heq.symm.trans (hl₁ a ha)⟩)
      rw [List.filter_append, List.filter_eq_nil_iff.2 (by simpa using hne), List.nil_append]
    rw [List.flatMap_cons, hfirst, List.flatMap_congr hrest]
    exact congrArg (l₁ ++ ·) (ih h₂ (fun b' hb' ↦ hblock b' (List.mem_cons_of_mem _ hb')) hbs)

end Crossing
