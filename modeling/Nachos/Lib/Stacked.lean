import Mathlib.Data.List.Basic

/-!
# Stacks in order

A stack is a list, top first.  `Stacked R` says that every entry is in order
over the entries below it.  Machines push at the top and leave the rest alone,
so a step has to show the order for what it pushes only.
-/

namespace Nachos
namespace Lib

variable {α : Type}

/-- Every entry `f` of the stack stands over a list `fs` with `R f fs`. -/
def Stacked (R : α → List α → Prop) : List α → Prop
  | [] => True
  | f :: fs => R f fs ∧ Stacked R fs

variable {R R' : α → List α → Prop} {above below fs gs : List α} {f : α}

@[simp]
theorem stacked_nil : Stacked R [] :=
  trivial

@[simp]
theorem stacked_cons : Stacked R (f :: fs) ↔ R f fs ∧ Stacked R fs :=
  Iff.rfl

theorem Stacked.of_append (h : Stacked R (gs ++ fs)) : Stacked R fs := by
  induction gs with
  | nil => exact h
  | cons g gs ih => exact ih h.2

/-- What stands over what is below an entry. -/
theorem Stacked.over (h : Stacked R (above ++ f :: below)) : R f below :=
  h.of_append.1

/-- A weaker order. -/
theorem Stacked.imp (himp : ∀ f fs, R f fs → R' f fs) (h : Stacked R fs) :
    Stacked R' fs := by
  induction fs with
  | nil => trivial
  | cons f fs ih => exact ⟨himp f fs h.1, ih h.2⟩

/-- An entry that is not among the pushed ones was there before the push. -/
theorem append_split_of_notMem (h : gs ++ fs = above ++ f :: below) (hf : f ∉ gs) :
    ∃ later, above = gs ++ later ∧ fs = later ++ f :: below := by
  rcases List.append_eq_append_iff.mp h with ⟨later, habove, hfs⟩ | ⟨later, hgs, hbelow⟩
  · exact ⟨later, habove, hfs⟩
  · cases later with
    | nil => exact ⟨[], by simpa using hgs.symm, by simpa using hbelow.symm⟩
    | cons g later =>
        obtain ⟨rfl, -⟩ := List.cons.inj hbelow
        exact absurd (hgs ▸ List.mem_append_right _ List.mem_cons_self) hf

/-- An entry that was not there before the push is among the pushed ones. -/
theorem append_split_of_notMem_right (h : gs ++ fs = above ++ f :: below) (hf : f ∉ fs) :
    ∃ later, gs = above ++ f :: later ∧ below = later ++ fs := by
  rcases List.append_eq_append_iff.mp h with ⟨later, habove, hfs⟩ | ⟨later, hgs, hbelow⟩
  · exact absurd (hfs ▸ List.mem_append_right _ List.mem_cons_self) hf
  · cases later with
    | nil =>
        rw [List.nil_append] at hbelow
        exact absurd (hbelow ▸ List.mem_cons_self) hf
    | cons g later =>
        obtain ⟨rfl, rfl⟩ := List.cons.inj hbelow
        exact ⟨later, hgs, rfl⟩

end Lib
end Nachos
