import Mathlib.Order.Lattice

/-!
# Extents of an array

A request for part of an array of fixed length is cut at the end of the array.  Requests
that follow one another, each from where the one before ended, come to one request for
the whole.
-/

namespace Nachos
namespace Lib

/-- How much of a request at `position` is inside of an array of this length. -/
def inside (length request position : Int) : Int := max 0 (min request (length - position))

section Inside

variable {length a b position : Int}

theorem inside_nonneg (length a position : Int) : 0 ≤ inside length a position := by
  unfold inside
  omega

theorem inside_le (length position : Int) (ha : 0 ≤ a) : inside length a position ≤ a := by
  unfold inside
  omega

theorem inside_zero : inside length 0 position = 0 := by
  unfold inside
  omega

/-- Two requests that follow one another. -/
theorem inside_add (length position : Int) (ha : 0 ≤ a) (hb : 0 ≤ b) :
    inside length a position + inside length b (position + inside length a position) =
      inside length (a + b) position := by
  unfold inside
  omega

/-- Behind a request that was cut there is nothing left. -/
theorem inside_of_cut (ha : 0 ≤ a) (hcut : inside length a position ≠ a) :
    inside length b (position + inside length a position) = 0 := by
  unfold inside at *
  omega

end Inside

section Overwrite

variable {α : Type} {target source source' : Nat → α} {start a b : Nat}

/-- An array with `count` entries from `start` on taken from `source`. -/
def overwrite (target : Nat → α) (start count : Nat) (source : Nat → α) : Nat → α :=
  fun k => if start ≤ k ∧ k < start + count then source (k - start) else target k

theorem overwrite_zero : overwrite target start 0 source = target := by
  funext k
  unfold overwrite
  rw [if_neg]
  omega

theorem overwrite_congr (h : ∀ k, k < a → source k = source' k) :
    overwrite target start a source = overwrite target start a source' := by
  funext k
  unfold overwrite
  by_cases hk : start ≤ k ∧ k < start + a
  · rw [if_pos hk, if_pos hk]
    apply h
    omega
  · rw [if_neg hk, if_neg hk]

/-- One part, and the next one behind it. -/
theorem overwrite_overwrite (h : ∀ k, k < b → source' k = source (a + k)) :
    overwrite (overwrite target start a source) (start + a) b source' =
      overwrite target start (a + b) source := by
  funext k
  unfold overwrite
  by_cases hlate : start + a ≤ k ∧ k < start + a + b
  · rw [if_pos hlate, if_pos (by omega), h _ (by omega)]
    congr 1
    omega
  · rw [if_neg hlate]
    by_cases hearly : start ≤ k ∧ k < start + a
    · rw [if_pos hearly, if_pos (by omega)]
    · rw [if_neg hearly, if_neg (by omega)]

end Overwrite

end Lib
end Nachos
