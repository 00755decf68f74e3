import Crossing.Label
import Mathlib.Logic.Function.Defs

/-!
# What names and categories look like

Neither is empty and neither has a line break. Besides, a name has no character but letters, digits
and underscores, while a category may look like anything else that fits on a line.

Names are checked when they are made and are never changed, so these facts hold of each name and
each category that there is. Reports rely on them: a name can be told from what stands around it,
and a category from the lines below it.
-/

namespace Crossing

/-- A name is not empty, has 128 octets at most, and is made of name characters. -/
theorem isTestName_iff {s : String} : isTestName s = true ↔
    s ≠ "" ∧ s.utf8ByteSize ≤ 128 ∧ ∀ c ∈ s.toList, isNameCharacter c = true := by
  rw [isTestName, Bool.and_eq_true, Bool.and_eq_true, List.all_eq_true, decide_eq_true_iff,
    Bool.not_eq_true', and_assoc, ← Bool.not_eq_true, String.isEmpty_iff]

/-- A category has a character that is not blank, and no line break. -/
theorem isCategory_iff {s : String} : isCategory s = true ↔
    (∃ c ∈ s.toList, Text.isBlank c = false) ∧ ∀ c ∈ s.toList, c ≠ '\n' ∧ c ≠ '\r' := by
  rw [isCategory, Bool.and_eq_true, Bool.not_eq_true', Bool.not_eq_true', Text.isBlankText]
  simp only [List.all_eq_false, List.any_eq_false, Bool.or_eq_true, beq_iff_eq, not_or,
    Bool.not_eq_true, ne_eq]

namespace TestName

theorem toList_ne_nil (n : TestName) : n.text.toList ≠ [] := by
  intro hnil
  exact (isTestName_iff.1 n.valid).1 (String.toList_inj.1 hnil)

/-- What is no name character is not in a name. -/
theorem notMem_toList (n : TestName) {c : Char} (hc : isNameCharacter c = false) :
    c ∉ n.text.toList := by
  intro hmem
  exact Bool.false_ne_true (hc.symm.trans ((isTestName_iff.1 n.valid).2.2 c hmem))

end TestName

namespace Category

theorem toList_ne_nil (c : Category) : c.label.toList ≠ [] := by
  obtain ⟨⟨x, hx, -⟩, -⟩ := isCategory_iff.1 c.valid
  exact List.ne_nil_of_mem hx

theorem newline_notMem_toList (c : Category) : '\n' ∉ c.label.toList := by
  intro hmem
  exact ((isCategory_iff.1 c.valid).2 '\n' hmem).1 rfl

theorem label_injective : Function.Injective label := by
  rintro ⟨label, _⟩ ⟨_, _⟩ rfl
  rfl

end Category

end Crossing
