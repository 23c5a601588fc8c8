import Nachos.Lib.Objects
import Nachos.Threads.Kernel
import Nachos.Userprog.BitMap

/-!
# A bitmap is a set

`BitMap::BitMap` clears the bits of a map one by one, and leaves what is behind them in the last
word as it was.  From then on a bitmap behaves as the set of its marked bits.
-/

namespace Nachos
namespace Userprog
namespace BitMap

open Threads Lib

/-- The loop of `BitMap::BitMap` at bit `i`, with `rounds` to go. -/
def clearLoop : Nat → Nat → BitMap → BitMap
  | 0, _, b => b
  | rounds + 1, i, b => clearLoop rounds (i + 1) (b.clear i)

/-- `BitMap::BitMap`, with what is in the new words. -/
def construct (garbage : Nat → Word) (nitems : Nat) : BitMap :=
  clearLoop nitems 0
    { numBits := nitems
      map := (List.range (divRoundUp nitems bitsInWord)).map garbage
      words := by
        rw [List.length_map, List.length_range]
        exact le_mul_divRoundUp nitems }

/-- The calls of a bitmap. -/
inductive Call
  | mark (which : Int)
  | clear (which : Int)
  | test (which : Int)
  | find
  | numClear
  deriving DecidableEq, Repr

inductive Answer
  | done
  | bool (b : Bool)
  | int (n : Int)
  deriving DecidableEq, Repr

/-- The `ASSERT` on the argument of a call. -/
def Call.Admitted (n : Nat) : Call → Prop
  | .mark which | .clear which | .test which => 0 ≤ which ∧ which < n
  | .find | .numClear => True

instance (n : Nat) (call : Call) : Decidable (call.Admitted n) :=
  match call with
  | .mark _ | .clear _ | .test _ => inferInstanceAs (Decidable (_ ∧ _))
  | .find | .numClear => inferInstanceAs (Decidable True)

def perform (call : Call) (b : BitMap) : Except Stop (Answer × BitMap) :=
  if call.Admitted b.numBits then
    .ok (match call with
      | .mark which => (.done, b.mark which.toNat)
      | .clear which => (.done, b.clear which.toNat)
      | .test which => (.bool (b.test which.toNat), b)
      | .find => (.int b.find.1, b.find.2)
      | .numClear => (.int b.numClear, b))
  else .error .assertFailed

/-- What the calls are for, on a set of numbers below `n`. -/
inductive Allows (n : Nat) : Call → Finset Nat → Answer → Finset Nat → Prop
  | mark {S : Finset Nat} (i : Nat) (hi : i < n) : Allows n (.mark i) S .done (insert i S)
  | clear {S : Finset Nat} (i : Nat) (hi : i < n) : Allows n (.clear i) S .done (S.erase i)
  | test {S : Finset Nat} (i : Nat) (hi : i < n) : Allows n (.test i) S (.bool (i ∈ S)) S
  | found {S : Finset Nat} (i : Nat) (hi : i < n) (hfree : i ∉ S) (hleast : ∀ j < i, j ∈ S) :
      Allows n .find S (.int i) (insert i S)
  | full {S : Finset Nat} (hfull : S = Finset.range n) : Allows n .find S (.int (-1)) S
  | numClear {S : Finset Nat} : Allows n .numClear S (.int ((n : Int) - S.card)) S

/-- The set of the marked bits. -/
def marked (b : BitMap) : Finset Nat := {i ∈ Finset.range b.numBits | b.test i = true}

/-- A map of `n` bits with as many words as it needs. -/
structure Sized (n : Nat) (b : BitMap) : Prop where
  numBits : b.numBits = n
  words : b.map.length = divRoundUp n bitsInWord

section Sets

variable {b : BitMap} {n i : Nat}

theorem mem_marked : i ∈ b.marked ↔ i < b.numBits ∧ b.test i = true := by
  simp [marked]

theorem Sized.setWord (h : b.Sized n) (i : Nat) (f : Word → Word) : (b.setWord i f).Sized n :=
  ⟨h.numBits, setWord_length.trans h.words⟩

theorem marked_mark (hi : i < b.numBits) : (b.mark i).marked = insert i b.marked := by
  ext k
  rw [Finset.mem_insert, mem_marked, mem_marked, mark_numBits]
  by_cases hk : i = k
  · subst hk
    simp [test_mark_self hi, hi]
  · rw [test_mark_ne hk, or_iff_right (Ne.symm hk)]

theorem marked_clear (hi : i < b.numBits) : (b.clear i).marked = b.marked.erase i := by
  ext k
  rw [Finset.mem_erase, mem_marked, mem_marked, clear_numBits]
  by_cases hk : i = k
  · subst hk
    simp [test_clear_self hi]
  · rw [test_clear_ne hk, and_iff_right (Ne.symm hk)]

/-- The marked bits and the clear ones are all bits. -/
theorem card_marked (b : BitMap) : (b.numClear : Int) = b.numBits - b.marked.card := by
  have hsplit := Finset.card_filter_add_card_filter_not (s := Finset.range b.numBits)
    fun i => b.test i = true
  have hclear : b.clearBits = {i ∈ Finset.range b.numBits | ¬ b.test i = true} := by
    unfold clearBits
    simp only [Bool.not_eq_true]
  rw [Finset.card_range, ← hclear] at hsplit
  rw [numClear_eq]
  unfold marked
  omega

/-- The loop of `Find` has passed marked bits only. -/
theorem findLoop_least {rounds j k : Nat} (h : b.findLoop rounds i = some j) (hle : i ≤ k)
    (hlt : k < j) : b.test k = true := by
  induction rounds generalizing i with
  | zero => exact absurd h (by simp [findLoop])
  | succ rounds ih =>
      rw [findLoop] at h
      split at h
      · rename_i hset
        by_cases hik : i = k
        · exact hik ▸ hset
        · exact ih h (by omega)
      · obtain rfl := Option.some.inj h
        omega

/-- `Find` marks the first clear bit, or there is none. -/
theorem find_spec (b : BitMap) :
    (∃ i, i < b.numBits ∧ b.test i = false ∧ (∀ j < i, b.test j = true) ∧
      b.find = ((i : Int), b.mark i)) ∨
    (∀ j < b.numBits, b.test j = true) ∧ b.find = (-1, b) := by
  unfold find
  split
  · rename_i i hfound
    obtain ⟨-, hlt, hclear⟩ := findLoop_eq_some hfound
    refine Or.inl ⟨i, by omega, hclear, fun j hj => ?_, rfl⟩
    exact findLoop_least hfound (Nat.zero_le j) hj
  · rename_i hnone
    refine Or.inr ⟨fun j hj => ?_, rfl⟩
    exact findLoop_eq_none hnone (Nat.zero_le j) (by omega)

theorem find_allowed (b : BitMap) :
    Allows b.numBits .find b.marked (.int b.find.1) b.find.2.marked := by
  rcases b.find_spec with ⟨i, hi, hclear, hleast, hfind⟩ | ⟨hall, hfind⟩
  · rw [hfind, marked_mark hi]
    refine .found i hi ?_ fun j hj => mem_marked.mpr ⟨by omega, hleast j hj⟩
    rw [mem_marked, hclear]
    simp
  · rw [hfind]
    refine .full ?_
    ext i
    rw [mem_marked, Finset.mem_range, and_iff_left_iff_imp]
    exact hall i

/-- A bitmap implements a set. -/
theorem implements_set (n : Nat) : Implements (Allows n) (Sized n) marked perform := by
  rintro call b answer b' hsized hperform
  obtain rfl := hsized.numBits
  unfold perform at hperform
  split at hperform
  · rename_i hadmitted
    obtain ⟨rfl, rfl⟩ := Prod.mk.inj (Except.ok.inj hperform)
    cases call with
    | mark which =>
        obtain ⟨i, rfl⟩ := Int.eq_ofNat_of_zero_le hadmitted.1
        have hi : i < b.numBits := Int.ofNat_lt.mp hadmitted.2
        refine ⟨hsized.setWord _ _, ?_⟩
        show Allows _ _ _ _ (b.mark i).marked
        rw [marked_mark hi]
        exact .mark i hi
    | clear which =>
        obtain ⟨i, rfl⟩ := Int.eq_ofNat_of_zero_le hadmitted.1
        have hi : i < b.numBits := Int.ofNat_lt.mp hadmitted.2
        refine ⟨hsized.setWord _ _, ?_⟩
        show Allows _ _ _ _ (b.clear i).marked
        rw [marked_clear hi]
        exact .clear i hi
    | test which =>
        obtain ⟨i, rfl⟩ := Int.eq_ofNat_of_zero_le hadmitted.1
        have hi : i < b.numBits := Int.ofNat_lt.mp hadmitted.2
        have htest : b.test i = decide (i ∈ b.marked) := by
          simp [mem_marked, hi]
        refine ⟨hsized, ?_⟩
        show Allows _ _ _ (.bool (b.test i)) _
        rw [htest]
        exact .test i hi
    | find =>
        refine ⟨?_, find_allowed b⟩
        rcases b.find_cases with hfind | ⟨i, -, -, hfind⟩
        · rw [hfind]
          exact hsized
        · rw [hfind]
          exact hsized.setWord _ _
    | numClear =>
        refine ⟨hsized, ?_⟩
        show Allows _ _ _ (.int b.numClear) _
        rw [card_marked]
        exact .numClear
  · exact absurd hperform (by simp)

theorem clearLoop_sized (h : b.Sized n) (rounds i : Nat) : (clearLoop rounds i b).Sized n := by
  induction rounds generalizing b i with
  | zero => exact h
  | succ rounds ih => exact ih (h.setWord _ _) _

/-- The loop clears the bits that it passes, and marks none. -/
theorem test_clearLoop {rounds : Nat} (hclear : ∀ k < i, b.test k = false)
    (hend : i + rounds = b.numBits) :
    ∀ k < b.numBits, (clearLoop rounds i b).test k = false := by
  induction rounds generalizing b i with
  | zero => exact fun k hk => hclear k (by omega)
  | succ rounds ih =>
      refine ih (b := b.clear i) (i := i + 1) ?_ ?_
      · intro k hk
        by_cases heq : i = k
        · subst heq
          exact test_clear_self (by omega)
        · rw [test_clear_ne heq]
          exact hclear k (by omega)
      · rw [clear_numBits]
        omega

theorem construct_sized (garbage : Nat → Word) (n : Nat) : (construct garbage n).Sized n := by
  unfold construct
  refine clearLoop_sized (n := n) ⟨rfl, ?_⟩ n 0
  rw [List.length_map, List.length_range]

/-- A new map is empty, whatever was in its words. -/
theorem construct_marked (garbage : Nat → Word) (n : Nat) : (construct garbage n).marked = ∅ := by
  refine Finset.eq_empty_of_forall_notMem fun i hi => ?_
  obtain ⟨hlt, htest⟩ := mem_marked.mp hi
  rw [(construct_sized garbage n).numBits] at hlt
  have hclear : (construct garbage n).test i = false :=
    test_clearLoop (fun k hk => absurd hk (Nat.not_lt_zero k)) (Nat.zero_add n) i hlt
  rw [hclear] at htest
  simp at htest

end Sets

end BitMap
end Userprog
end Nachos
