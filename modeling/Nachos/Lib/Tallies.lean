import Mathlib.Algebra.BigOperators.Group.Finset.Piecewise
import Mathlib.Algebra.GroupWithZero.Nat
import Mathlib.Algebra.Order.BigOperators.Group.Finset

/-!
# What agents carry, added up

Each agent carries something, and one agent changes at a time: `sum_change` says how the sum
changes.  `tally` adds up a weight over the agents with some property, and compares two
properties one of which implies the other.
-/

namespace Nachos
namespace Lib

open Finset

variable {T : Type}

/-- One of the terms of a sum changes. -/
theorem sum_change [DecidableEq T] {agents : Finset T} {f g : T → Nat} {t : T} (ht : t ∈ agents)
    (h : ∀ u, u ≠ t → g u = f u) :
    (∑ u ∈ agents, g u) + f t = (∑ u ∈ agents, f u) + g t := by
  have hrest : ∑ u ∈ agents.erase t, g u = ∑ u ∈ agents.erase t, f u :=
    sum_congr rfl fun u hu => h u (ne_of_mem_erase hu)
  have hnew := add_sum_erase agents g ht
  have hold := add_sum_erase agents f ht
  omega

section Tally

variable [Fintype T] {P Q : T → Prop} [DecidablePred P] [DecidablePred Q]

/-- The weight of the agents with a property. -/
def tally (w : T → Nat) (P : T → Prop) [DecidablePred P] : Nat := ∑ t, if P t then w t else 0

theorem tally_congr (w : T → Nat) (h : ∀ t, P t ↔ Q t) : tally w P = tally w Q :=
  sum_congr rfl fun t _ => by simp [h t]

theorem tally_mono (w : T → Nat) (h : ∀ t, P t → Q t) : tally w P ≤ tally w Q := by
  refine sum_le_sum fun t _ => ?_
  by_cases ht : P t
  · simp [ht, h t ht]
  · simp [ht]

theorem tally_none (w : T → Nat) (h : ∀ t, ¬ P t) : tally w P = 0 := by
  simp [tally, h]

theorem tally_pos (w : T → Nat) {t : T} (ht : P t) (hw : 0 < w t) : 0 < tally w P := by
  refine sum_pos' (fun _ _ => Nat.zero_le _) ⟨t, mem_univ t, ?_⟩
  rw [if_pos ht]
  exact hw

/-- One agent more has the property. -/
theorem tally_enter [DecidableEq T] (w : T → Nat) {t : T} (ht : ¬ P t)
    (h : ∀ u, Q u ↔ P u ∨ u = t) : tally w Q = tally w P + w t := by
  unfold tally
  rw [← add_sum_erase univ (fun u => if Q u then w u else 0) (mem_univ t),
    ← add_sum_erase univ (fun u => if P u then w u else 0) (mem_univ t)]
  have hrest : ∑ u ∈ univ.erase t, (if Q u then w u else 0) =
      ∑ u ∈ univ.erase t, if P u then w u else 0 := by
    refine sum_congr rfl fun u hu => ?_
    simp [h u, ne_of_mem_erase hu]
  rw [hrest, if_pos ((h t).mpr (Or.inr rfl)), if_neg ht]
  omega

/-- A list of the agents with a property gives the tally. -/
theorem tally_list [DecidableEq T] (w : T → Nat) {agents : List T} (hnodup : agents.Nodup)
    (h : ∀ t, t ∈ agents ↔ P t) : tally w P = (agents.map w).sum := by
  have hset : univ.filter P = agents.toFinset := by
    ext t
    simp [h t]
  unfold tally
  rw [← sum_filter, hset, List.sum_toFinset w hnodup]

/-- If as many agents have the stronger property, all that have the weaker one have it. -/
theorem tally_saturated (h : ∀ t, P t → Q t) (heq : tally (fun _ => 1) Q ≤ tally (fun _ => 1) P)
    {t : T} (ht : Q t) : P t := by
  have hle : ∀ u ∈ (univ : Finset T), (if P u then 1 else 0) ≤ if Q u then 1 else 0 := by
    intro u _
    by_cases hu : P u
    · simp [hu, h u hu]
    · simp [hu]
  have hsum : ∑ u, (if P u then 1 else 0) = ∑ u, if Q u then 1 else 0 :=
    le_antisymm (tally_mono (fun _ => 1) h) heq
  have hpoint := (sum_eq_sum_iff_of_le hle).mp hsum t (mem_univ t)
  by_contra hnot
  simp [hnot, ht] at hpoint

/-- The tallies over the values that the agents have add up to the agents that have a value. -/
theorem sum_tally {I : Type} [DecidableEq I] (w : T → Nat) {f : T → Option I} {s : Finset I}
    (h : ∀ t i, f t = some i → i ∈ s) :
    ∑ i ∈ s, tally w (fun t => f t = some i) = tally w fun t => (f t).isSome = true := by
  unfold tally
  rw [sum_comm]
  refine sum_congr rfl fun t _ => ?_
  cases ht : f t with
  | none => simp [ht]
  | some i => simp [ht, h t i ht]

/-- Somebody does not have the property. -/
theorem tally_lt_card {t : T} (ht : ¬ P t) : tally (fun _ => 1) P < Fintype.card T := by
  have hcard : Fintype.card T = ∑ _u : T, 1 := card_eq_sum_ones univ
  rw [hcard]
  refine sum_lt_sum (fun u _ => ?_) ⟨t, mem_univ t, ?_⟩
  · by_cases hu : P u
    · rw [if_pos hu]
    · rw [if_neg hu]
      exact Nat.zero_le 1
  · rw [if_neg ht]
    exact Nat.zero_lt_one

end Tally

section Lists

/-- A list split up by a number below `N`. -/
theorem sum_filter_length {A : Type} (f : A → Nat) (P : A → Prop) [DecidablePred P] {N : Nat} :
    ∀ {l : List A}, (∀ x ∈ l, f x < N) →
      ∑ i ∈ Finset.range N, (l.filter fun x => f x = i ∧ P x).length =
        (l.filter fun x => P x).length := by
  intro l
  induction l with
  | nil => simp
  | cons x l ih =>
      intro h
      have hrest := ih fun y hy => h y (List.mem_cons_of_mem x hy)
      by_cases hx : P x
      · have hterm : ∀ i, ((x :: l).filter fun x => f x = i ∧ P x).length =
            (l.filter fun x => f x = i ∧ P x).length + if f x = i then 1 else 0 := by
          intro i
          by_cases hi : f x = i
          · rw [List.filter_cons_of_pos (by simpa using ⟨hi, hx⟩), if_pos hi, List.length_cons]
          · rw [List.filter_cons_of_neg (by simpa using fun habs => absurd habs hi), if_neg hi,
              Nat.add_zero]
        rw [List.filter_cons_of_pos (by simpa using hx), List.length_cons, ← hrest,
          Finset.sum_congr rfl fun i _ => hterm i, Finset.sum_add_distrib, Finset.sum_ite_eq,
          if_pos (Finset.mem_range.mpr (h x List.mem_cons_self))]
      · have hterm : ∀ i, ((x :: l).filter fun x => f x = i ∧ P x) =
            l.filter fun x => f x = i ∧ P x := fun i =>
          List.filter_cons_of_neg (by simpa using fun _ => hx)
        rw [List.filter_cons_of_neg (by simpa using hx), ← hrest]
        exact Finset.sum_congr rfl fun i _ => by rw [hterm i]

end Lists

end Lib
end Nachos
