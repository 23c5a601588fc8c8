import Mathlib.Data.Fintype.Basic
import Mathlib.Data.Finset.Card

/-!
# Agents at program points

Agents are at program points, and one agent moves at a time.  Two things are kept track
of: how many agents are at points of some kind, and that the one that holds a lock is the
only one at the points the lock guards.

Agents and points are of any type.
-/

namespace Nachos
namespace Lib

variable {T α : Type} {f : T → α} {t u : T} {a : α}

section Headcount

variable [Fintype T] {P : α → Prop} [DecidablePred P]

/-- How many agents are at points of a kind. -/
def headcount (P : α → Prop) [DecidablePred P] (f : T → α) : Nat :=
  (Finset.univ.filter fun t => P (f t)).card

theorem headcount_pos (h : P (f t)) : 0 < headcount P f :=
  Finset.card_pos.mpr ⟨t, Finset.mem_filter.mpr ⟨Finset.mem_univ t, h⟩⟩

variable [DecidableEq T]

/-- An agent moves to a point of the same kind. -/
theorem headcount_keep (h : P a ↔ P (f t)) : headcount P (Function.update f t a) = headcount P f := by
  unfold headcount
  congr 1
  ext u
  by_cases hu : u = t
  · subst hu
    simp [h]
  · simp [hu]

/-- An agent comes in. -/
theorem headcount_enter (hf : ¬ P (f t)) (ha : P a) :
    headcount P (Function.update f t a) = headcount P f + 1 := by
  have hset : (Finset.univ.filter fun u => P (Function.update f t a u)) =
      insert t (Finset.univ.filter fun u => P (f u)) := by
    ext u
    by_cases hu : u = t
    · subst hu
      simp [ha]
    · simp [hu]
  unfold headcount
  rw [hset, Finset.card_insert_of_notMem (by simp [hf])]

/-- An agent goes out. -/
theorem headcount_leave (hf : P (f t)) (ha : ¬ P a) :
    headcount P (Function.update f t a) + 1 = headcount P f := by
  have hset : (Finset.univ.filter fun u => P (Function.update f t a u)) =
      (Finset.univ.filter fun u => P (f u)).erase t := by
    ext u
    by_cases hu : u = t
    · subst hu
      simp [ha]
    · simp [hu]
  unfold headcount
  rw [hset]
  exact Finset.card_erase_add_one (Finset.mem_filter.mpr ⟨Finset.mem_univ t, hf⟩)

/-- An agent moves. -/
theorem headcount_update : headcount P (Function.update f t a) + (if P (f t) then 1 else 0) =
    headcount P f + if P a then 1 else 0 := by
  by_cases hf : P (f t)
  · by_cases ha : P a
    · rw [if_pos hf, if_pos ha, headcount_keep (iff_of_true ha hf)]
    · rw [if_pos hf, if_neg ha, headcount_leave hf ha, Nat.add_zero]
  · by_cases ha : P a
    · rw [if_neg hf, if_pos ha, headcount_enter hf ha, Nat.add_zero]
    · rw [if_neg hf, if_neg ha, headcount_keep (iff_of_false ha hf)]

end Headcount

section Locks

variable {owner : Option T} {holds : α → Prop}

/-- Whoever is at a point that a lock guards owns the lock. -/
def Guarded (owner : Option T) (holds : α → Prop) (f : T → α) : Prop :=
  ∀ t, holds (f t) → owner = some t

/-- Mutual exclusion. -/
theorem Guarded.unique (h : Guarded owner holds f) (ht : holds (f t)) (hu : holds (f u)) :
    t = u :=
  Option.some.inj ((h t ht).symm.trans (h u hu))

variable [DecidableEq T]

/-- A step that takes its agent to no guarded point from outside. -/
theorem Guarded.keep (h : Guarded owner holds f) (ha : holds a → holds (f t)) :
    Guarded owner holds (Function.update f t a) := by
  intro u hu
  by_cases heq : u = t
  · subst heq
    rw [Function.update_self] at hu
    exact h u (ha hu)
  · rw [Function.update_of_ne heq] at hu
    exact h u hu

/-- The lock is free, or its owner asks for it again. -/
theorem Guarded.acquire (h : Guarded owner holds f) (hfree : owner = none ∨ owner = some t) :
    Guarded (some t) holds (Function.update f t a) := by
  intro u hu
  by_cases heq : u = t
  · rw [heq]
  · rw [Function.update_of_ne heq] at hu
    rcases hfree with hnone | hown
    · exact absurd ((h u hu).symm.trans hnone) (by simp)
    · exact absurd (Option.some.inj ((h u hu).symm.trans hown)) heq

/-- The owner gives the lock up. -/
theorem Guarded.drop (h : Guarded owner holds f) (ht : holds (f t)) (ha : ¬ holds a) :
    Guarded none holds (Function.update f t a) := by
  intro u hu
  by_cases heq : u = t
  · subst heq
    rw [Function.update_self] at hu
    exact absurd hu ha
  · rw [Function.update_of_ne heq] at hu
    exact absurd (h.unique hu ht) heq

/-- One of several locks is acquired. -/
theorem Guarded.acquire_at {I : Type} [DecidableEq I] {owners : I → Option T}
    {holds : I → α → Prop} (h : ∀ j, Guarded (owners j) (holds j) f) {i : I}
    (hfree : owners i = none ∨ owners i = some t)
    (hother : ∀ j, j ≠ i → holds j a → holds j (f t)) (j : I) :
    Guarded (Function.update owners i (some t) j) (holds j) (Function.update f t a) := by
  by_cases hj : j = i
  · subst hj
    rw [Function.update_self]
    exact (h j).acquire hfree
  · rw [Function.update_of_ne hj]
    exact (h j).keep (hother j hj)

/-- One of several locks is given up. -/
theorem Guarded.drop_at {I : Type} [DecidableEq I] {owners : I → Option T}
    {holds : I → α → Prop} (h : ∀ j, Guarded (owners j) (holds j) f) {i : I}
    (ht : holds i (f t)) (ha : ¬ holds i a)
    (hother : ∀ j, j ≠ i → holds j a → holds j (f t)) (j : I) :
    Guarded (Function.update owners i none j) (holds j) (Function.update f t a) := by
  by_cases hj : j = i
  · subst hj
    rw [Function.update_self]
    exact (h j).drop ht ha
  · rw [Function.update_of_ne hj]
    exact (h j).keep (hother j hj)

section Families

variable {I : Type} [DecidableEq I] {owners owners' : I → Option T} {holds : I → α → Prop}
  {f' : T → α}

/-- Whoever is at a point that a lock of a family guards owns that lock. -/
def AllGuarded (owners : I → Option T) (holds : I → α → Prop) (f : T → α) : Prop :=
  ∀ j, Guarded (owners j) (holds j) f

omit [DecidableEq I] in
/-- An agent goes on under the locks it has. -/
theorem AllGuarded.keep (h : AllGuarded owners holds f) (hf : f' = Function.update f t a)
    (howners : owners' = owners) (hkeep : ∀ j, holds j a → holds j (f t)) :
    AllGuarded owners' holds f' := by
  intro j
  rw [howners, hf]
  exact (h j).keep (hkeep j)

/-- An agent gets a lock that is free. -/
theorem AllGuarded.acquire (h : AllGuarded owners holds f) (i : I)
    (hf : f' = Function.update f t a) (hfree : owners i = none ∨ owners i = some t)
    (howners : owners' = Function.update owners i (some t))
    (hkeep : ∀ j, j ≠ i → holds j a → holds j (f t)) : AllGuarded owners' holds f' := by
  intro j
  rw [howners, hf]
  exact Guarded.acquire_at h hfree hkeep j

/-- An agent gives a lock up. -/
theorem AllGuarded.release (h : AllGuarded owners holds f) (i : I)
    (hf : f' = Function.update f t a) (hheld : holds i (f t)) (ha : ¬ holds i a)
    (howners : owners' = Function.update owners i none)
    (hkeep : ∀ j, j ≠ i → holds j a → holds j (f t)) : AllGuarded owners' holds f' := by
  intro j
  rw [howners, hf]
  exact Guarded.drop_at h hheld ha hkeep j

end Families

end Locks

end Lib
end Nachos
