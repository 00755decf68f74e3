import Crossing.Boundary.Native

/-!
# Executing a call

Calls and steps are programs with a state that may fail. The equations here say what such a program
comes to from a state, one for each way to make it, so that `simp only` with them executes a program
symbolically.
-/

namespace Crossing

section

variable {ε σ α β : Type} (x : ExceptT ε (StateM σ) α) (s : σ)

/-- The rest is only executed if the first part did not fail. -/
theorem run_bind (f : α → ExceptT ε (StateM σ) β) :
    (x >>= f).run s =
      match x.run s with
      | (.ok a, s') => (f a).run s'
      | (.error e, s') => (.error e, s') := by
  show ExceptT.bindCont f (x.run s).1 (x.run s).2 = _
  rcases x.run s with ⟨- | a, s'⟩ <;> rfl

theorem run_get : (get : ExceptT ε (StateM σ) σ).run s = (.ok s, s) := rfl

theorem run_set (s' : σ) : (set s' : ExceptT ε (StateM σ) PUnit).run s = (.ok ⟨⟩, s') := rfl

theorem run_modify (f : σ → σ) :
    (modify f : ExceptT ε (StateM σ) PUnit).run s = (.ok ⟨⟩, f s) := rfl

theorem run_modifyGet (f : σ → α × σ) :
    (modifyGet f : ExceptT ε (StateM σ) α).run s = (.ok (f s).1, (f s).2) := rfl

end

namespace Boundary.Call

variable {σ α : Type} (s : σ)

theorem run_demand_some (a : α) : (demand (some a) : Call σ α).run s = (.ok a, s) := rfl

theorem run_demandOut_true : (demandOut true : Call σ Unit).run s = (.ok (), s) := rfl

theorem run_demandText_some (a : α) : (demandText (some a) : Call σ α).run s = (.ok a, s) := rfl

theorem run_always (f : StateM σ α) : (always f : Call σ α).run s = (.ok (f s).1, (f s).2) := rfl

end Boundary.Call

end Crossing
