import Mathlib.Order.Interval.Finset.Nat
import Nachos.Machine.Translate

/-!
# Bitmaps

This module embeds `userprog/bitmap.cc`: bits packed into words.  `Test`, `Mark`
and `Clear` assert that the bit is one of the map; every caller has checked it,
or is the loop of `Find` or `NumClear`.
-/

namespace Nachos
namespace Userprog

/-- `BitsInWord`. -/
def bitsInWord : Nat := 32

/-- `divRoundUp`. -/
def divRoundUp (n s : Nat) : Nat := n / s + if n % s > 0 then 1 else 0

/-- `class BitMap`; there are words for all bits. -/
structure BitMap where
  numBits : Nat
  map : List Word
  words : numBits ≤ bitsInWord * map.length

namespace BitMap

theorem le_mul_divRoundUp (n : Nat) : n ≤ bitsInWord * divRoundUp n bitsInWord := by
  unfold divRoundUp bitsInWord
  split <;> omega

/-- `BitMap::BitMap`. -/
def new (nitems : Nat) : BitMap where
  numBits := nitems
  map := List.replicate (divRoundUp nitems bitsInWord) 0
  words := by
    rw [List.length_replicate]
    exact le_mul_divRoundUp nitems

/-- `1 << (which % BitsInWord)`. -/
def mask (which : Nat) : Word := 1 <<< (which % bitsInWord)

/-- `BitMap::Test`. -/
def test (b : BitMap) (which : Nat) : Bool :=
  b.map.getD (which / bitsInWord) 0 &&& mask which ≠ 0

/-- Assign to the word of a bit. -/
def setWord (b : BitMap) (which : Nat) (f : Word → Word) : BitMap where
  numBits := b.numBits
  map := b.map.modify (which / bitsInWord) f
  words := by
    rw [List.length_modify]
    exact b.words

/-- `BitMap::Mark`. -/
def mark (b : BitMap) (which : Nat) : BitMap := b.setWord which (· ||| mask which)

/-- `BitMap::Clear`. -/
def clear (b : BitMap) (which : Nat) : BitMap := b.setWord which (· &&& ~~~mask which)

/-- The loop of `Find` at bit `i`, with `rounds` to go. -/
def findLoop (b : BitMap) : Nat → Nat → Option Nat
  | 0, _ => none
  | rounds + 1, i => if b.test i then b.findLoop rounds (i + 1) else some i

/-- `BitMap::Find`. -/
def find (b : BitMap) : Int × BitMap :=
  match b.findLoop b.numBits 0 with
  | some i => (i, b.mark i)
  | none => (-1, b)

/-- The loop of `NumClear` at bit `i`, with `rounds` to go. -/
def numClearLoop (b : BitMap) : Nat → Nat → Nat → Nat
  | 0, _, count => count
  | rounds + 1, i, count =>
      b.numClearLoop rounds (i + 1) (if b.test i then count else count + 1)

/-- `BitMap::NumClear`. -/
def numClear (b : BitMap) : Nat := b.numClearLoop b.numBits 0 0

section Bits

variable {b : BitMap} {i j : Nat}

theorem mask_eq_twoPow (i : Nat) : mask i = BitVec.twoPow 32 (i % bitsInWord) :=
  (BitVec.twoPow_eq 32 _).symm

theorem mod_lt_bitsInWord (i : Nat) : i % bitsInWord < 32 := Nat.mod_lt _ (by decide)

/-- Testing a bit looks at that bit of its word. -/
theorem test_eq_getLsbD (b : BitMap) (i : Nat) :
    b.test i = (b.map.getD (i / bitsInWord) 0).getLsbD (i % bitsInWord) := by
  rw [test, mask_eq_twoPow, BitVec.and_twoPow]
  split
  · rename_i hbit
    have hne : BitVec.twoPow 32 (i % bitsInWord) ≠ 0#32 := by
      intro hzero
      have hset : (BitVec.twoPow 32 (i % bitsInWord)).getLsbD (i % bitsInWord) = true := by
        simp [mod_lt_bitsInWord]
      rw [hzero] at hset
      simp at hset
    rw [hbit]
    exact decide_eq_true hne
  · rename_i hbit
    rw [Bool.not_eq_true] at hbit
    rw [hbit]
    rfl

/-- Two bits of one word are at different positions of it. -/
theorem mod_ne_of_div_eq (hne : i ≠ j) (hdiv : i / bitsInWord = j / bitsInWord) :
    i % bitsInWord ≠ j % bitsInWord := by
  unfold bitsInWord at *
  omega

theorem word_lt (hi : i < b.numBits) : i / bitsInWord < b.map.length := by
  have hwords := b.words
  unfold bitsInWord at *
  omega

theorem setWord_length {f : Word → Word} : (b.setWord i f).map.length = b.map.length :=
  List.length_modify ..

/-- An assignment that keeps the other bits of the word keeps every other bit. -/
theorem test_setWord_ne {f : Word → Word} (hne : i ≠ j)
    (hf : ∀ word n, n ≠ i % bitsInWord → (f word).getLsbD n = word.getLsbD n) :
    (b.setWord i f).test j = b.test j := by
  simp only [test_eq_getLsbD, setWord]
  by_cases hdiv : i / bitsInWord = j / bitsInWord
  · rw [← hdiv, List.getD_eq_getElem?_getD, List.getD_eq_getElem?_getD,
      List.getElem?_modify_eq]
    cases b.map[i / bitsInWord]? with
    | none => rfl
    | some word => exact hf word _ (mod_ne_of_div_eq hne hdiv).symm
  · rw [List.getD_eq_getElem?_getD, List.getD_eq_getElem?_getD,
      List.getElem?_modify_ne f b.map hdiv]

theorem test_setWord_self {f : Word → Word} (hi : i < b.numBits) :
    (b.setWord i f).test i =
      (f (b.map.getD (i / bitsInWord) 0)).getLsbD (i % bitsInWord) := by
  rw [test_eq_getLsbD, setWord]
  simp only [List.getD_eq_getElem?_getD, List.getElem?_modify_eq,
    List.getElem?_eq_getElem (word_lt hi), Option.map_eq_map, Option.map_some,
    Option.getD_some]

/-- `Mark` sets its bit. -/
theorem test_mark_self (hi : i < b.numBits) : (b.mark i).test i = true := by
  rw [mark, test_setWord_self hi, BitVec.getLsbD_or, mask_eq_twoPow, BitVec.getLsbD_twoPow]
  simp [mod_lt_bitsInWord]

/-- `Mark` leaves every other bit alone. -/
theorem test_mark_ne (hne : i ≠ j) : (b.mark i).test j = b.test j := by
  refine test_setWord_ne hne fun word n hn => ?_
  rw [BitVec.getLsbD_or, mask_eq_twoPow, BitVec.getLsbD_twoPow]
  simp [Ne.symm hn]

/-- `Mark` clears no bit. -/
theorem test_mark_of_test (h : b.test j = true) : (b.mark i).test j = true := by
  by_cases hne : i = j
  · subst hne
    by_cases hi : i / bitsInWord < b.map.length
    · rw [test_eq_getLsbD] at h
      rw [test_eq_getLsbD, mark, setWord]
      simp only [List.getD_eq_getElem?_getD, List.getElem?_modify_eq,
        List.getElem?_eq_getElem hi, Option.map_eq_map, Option.map_some,
        Option.getD_some] at h ⊢
      rw [BitVec.getLsbD_or, h, Bool.true_or]
    · rw [test_eq_getLsbD, List.getD_eq_getElem?_getD,
        List.getElem?_eq_none (Nat.le_of_not_lt hi)] at h
      simp at h
  · rw [test_mark_ne hne, h]

/-- `Clear` clears its bit. -/
theorem test_clear_self (hi : i < b.numBits) : (b.clear i).test i = false := by
  rw [clear, test_setWord_self hi, BitVec.getLsbD_and, BitVec.getLsbD_not, mask_eq_twoPow,
    BitVec.getLsbD_twoPow]
  simp [mod_lt_bitsInWord]

/-- `Clear` leaves every other bit alone. -/
theorem test_clear_ne (hne : i ≠ j) : (b.clear i).test j = b.test j := by
  refine test_setWord_ne hne fun word n hn => ?_
  rw [BitVec.getLsbD_and, BitVec.getLsbD_not, mask_eq_twoPow, BitVec.getLsbD_twoPow]
  by_cases hword : n < 32
  · simp [Ne.symm hn, hword]
  · rw [BitVec.getLsbD_of_ge word n (by omega), Bool.false_and]

/-- The loop of `Find` answers with the first clear bit it meets. -/
theorem findLoop_eq_some {rounds : Nat} (h : b.findLoop rounds i = some j) :
    i ≤ j ∧ j < i + rounds ∧ b.test j = false := by
  induction rounds generalizing i with
  | zero => exact absurd h (by simp [findLoop])
  | succ rounds ih =>
      rw [findLoop] at h
      split at h
      · obtain ⟨hle, hlt, hclear⟩ := ih h
        exact ⟨by omega, by omega, hclear⟩
      · rename_i hclear
        obtain rfl := Option.some.inj h
        exact ⟨le_rfl, by omega, by simpa using hclear⟩

/-- `Find` answers -1, or the number of a clear bit, which it sets. -/
theorem find_cases (b : BitMap) :
    b.find = (-1, b) ∨
      ∃ i, i < b.numBits ∧ b.test i = false ∧ b.find = ((i : Int), b.mark i) := by
  unfold find
  split
  · rename_i i hfound
    obtain ⟨-, hlt, hclear⟩ := findLoop_eq_some hfound
    exact Or.inr ⟨i, by omega, hclear, rfl⟩
  · exact Or.inl rfl

/-- The clear bits of a map. -/
def clearBits (b : BitMap) : Finset Nat :=
  {i ∈ Finset.range b.numBits | b.test i = false}

theorem mem_clearBits : i ∈ b.clearBits ↔ i < b.numBits ∧ b.test i = false := by
  simp [clearBits]

/-- The loop of `NumClear` adds the clear bits it meets. -/
theorem numClearLoop_eq (b : BitMap) (rounds i count : Nat) :
    b.numClearLoop rounds i count =
      count + {k ∈ Finset.Ico i (i + rounds) | b.test k = false}.card := by
  induction rounds generalizing i count with
  | zero => simp [numClearLoop]
  | succ rounds ih =>
      have hsplit : Finset.Ico i (i + (rounds + 1)) =
          insert i (Finset.Ico (i + 1) (i + 1 + rounds)) := by
        ext k
        simp only [Finset.mem_Ico, Finset.mem_insert]
        omega
      rw [numClearLoop, ih, hsplit, Finset.filter_insert]
      by_cases htest : b.test i = true
      · simp [htest]
      · rw [Bool.not_eq_true] at htest
        simp only [htest, if_true, Bool.false_eq_true, if_false]
        rw [Finset.card_insert_of_notMem (by simp)]
        omega

/-- `NumClear` counts the clear bits. -/
theorem numClear_eq (b : BitMap) : b.numClear = b.clearBits.card := by
  rw [numClear, numClearLoop_eq, Nat.zero_add, Nat.zero_add, clearBits, Finset.range_eq_Ico]

theorem findLoop_eq_none {rounds : Nat} (h : b.findLoop rounds i = none) (hle : i ≤ j)
    (hlt : j < i + rounds) : b.test j = true := by
  induction rounds generalizing i with
  | zero => omega
  | succ rounds ih =>
      rw [findLoop] at h
      split at h
      · rename_i hset
        by_cases hij : i = j
        · rw [← hij]
          exact hset
        · exact ih h (by omega) (by omega)
      · exact absurd h (by simp)

/-- `Find` finds a bit as long as there are clear ones. -/
theorem find_of_clear (h : 0 < b.clearBits.card) :
    ∃ i, i < b.numBits ∧ b.test i = false ∧ b.find = ((i : Int), b.mark i) := by
  rcases b.find_cases with hnone | hfound
  · obtain ⟨i, hi⟩ := Finset.card_pos.mp h
    obtain ⟨hlt, hclear⟩ := mem_clearBits.mp hi
    unfold find at hnone
    split at hnone
    · rename_i k hk
      have hneg : (k : Int) = -1 := congrArg Prod.fst hnone
      omega
    · rename_i hloop
      have hset := findLoop_eq_none hloop (Nat.zero_le i) (by omega)
      rw [hclear] at hset
      exact absurd hset (by simp)
  · exact hfound

/-- `Mark` takes its bit off the clear ones. -/
theorem clearBits_mark (hi : i < b.numBits) : (b.mark i).clearBits = b.clearBits.erase i := by
  ext k
  rw [Finset.mem_erase, mem_clearBits, mem_clearBits]
  by_cases hk : i = k
  · subst hk
    simp [test_mark_self hi]
  · rw [test_mark_ne hk]
    simp [Ne.symm hk, mark, setWord]

@[simp] theorem clear_numBits (b : BitMap) (i : Nat) : (b.clear i).numBits = b.numBits :=
  rfl

@[simp] theorem mark_numBits (b : BitMap) (i : Nat) : (b.mark i).numBits = b.numBits :=
  rfl

/-- At first every bit is clear. -/
theorem test_new (nitems i : Nat) : (new nitems).test i = false := by
  rw [test_eq_getLsbD, new, List.getD_eq_getElem?_getD, List.getElem?_replicate]
  split <;> simp

end Bits

end BitMap

end Userprog
end Nachos
