import Nachos.Userprog.UserCopies

/-!
# `printf_Syscall`

The call hands a format and up to three integers to the `printf` of the host, but takes
two: the user programs pass one integer as `(a, -1)`, two as `(a, b)` and three as
`(a, x + (100 * y + 100))`.  Nothing tells a packed pair from a second integer of 100 or
more, nor where a first half of 100 or more ends.
-/

namespace Nachos
namespace Userprog
namespace PrintfCall

open Threads Lib Machine

/-- The integers that a user program means. -/
inductive Ints
  | one (a : Word)
  | two (a b : Word)
  | three (a x y : Word)
  deriving DecidableEq, Repr

namespace Ints

/-- In order. -/
def list : Ints → List Word
  | one a => [a]
  | two a b => [a, b]
  | three a x y => [a, x, y]

/-- The second argument of the call in the user programs. -/
def packed : Ints → Word
  | one _ => -1
  | two _ b => b
  | three _ x y => x + (100 * y + 100)

/-- The first one. -/
def first : Ints → Word
  | one a => a
  | two a _ => a
  | three a _ _ => a

/-- The integers are not negative, and what is packed does not overflow an `int`. -/
def Packable : Ints → Prop
  | one a => 0 ≤ a.toInt
  | two a b => 0 ≤ a.toInt ∧ 0 ≤ b.toInt
  | three a x y => 0 ≤ a.toInt ∧ 0 ≤ x.toInt ∧ 0 ≤ y.toInt ∧
      x.toInt + (100 * y.toInt + 100) < 2 ^ 31

/-- What the threshold of the call tells apart. -/
def Unambiguous : Ints → Prop
  | one _ => True
  | two _ b => b.toInt < 100
  | three _ x _ => x.toInt < 100

end Ints

/-- The integers that the call hands on. -/
def unpack (a b : Word) : List Word :=
  if 100 ≤ b.toInt then
    let x := b.srem 100
    let y := b.sdiv 100 - 1
    [a, x, y]
  else if b = -1 then [a]
  else if a = -1 ∧ b = -1 then []
  else [a, b]

/-- What the `printf` of the host gets. -/
structure HostPrintf where
  format : List Byte
  ints : List Word
  deriving DecidableEq, Repr

/-- `printf_Syscall`. -/
def printfSyscall (m : Machine) (vaddr : Word) (len : Nat) (a b : Word) :
    Except Stop (HostPrintf × Machine) :=
  match copyinResult m vaddr len with
  | none => .error .halted
  | some (_, buf, m') => .ok (⟨buf, unpack a b⟩, m')

section Halves

/-- The packed word is the number that was meant. -/
theorem toInt_packed {x y : Word} (hx : 0 ≤ x.toInt) (hy : 0 ≤ y.toInt)
    (hfits : x.toInt + (100 * y.toInt + 100) < 2 ^ 31) :
    (x + (100 * y + 100)).toInt = x.toInt + (100 * y.toInt + 100) := by
  have hhundred : (100 : Word).toInt = 100 := rfl
  have hproduct : (100 * y).toInt = 100 * y.toInt := by
    rw [BitVec.toInt_mul, hhundred]
    exact Int.bmod_eq_of_le (by omega) (by omega)
  have hupper : (100 * y + 100).toInt = 100 * y.toInt + 100 := by
    rw [BitVec.toInt_add, hproduct, hhundred]
    exact Int.bmod_eq_of_le (by omega) (by omega)
  rw [BitVec.toInt_add, hupper]
  exact Int.bmod_eq_of_le (by omega) (by omega)

theorem toInt_lower {b : Word} (hb : 0 ≤ b.toInt) : (b.srem 100).toInt = b.toInt % 100 := by
  have hhundred : (100 : Word).toInt = 100 := rfl
  rw [BitVec.toInt_srem, hhundred]
  exact Int.tmod_eq_emod_of_nonneg hb

theorem toInt_upper {b : Word} (hb : 100 ≤ b.toInt) :
    (b.sdiv 100 - 1).toInt = b.toInt / 100 - 1 := by
  have hhundred : (100 : Word).toInt = 100 := rfl
  have hone : (1 : Word).toInt = 1 := rfl
  have hlt : b.toInt < 2 ^ 31 := BitVec.toInt_lt
  have hquotient : (b.sdiv 100).toInt = b.toInt / 100 := by
    rw [BitVec.toInt_sdiv, hhundred, Int.tdiv_eq_ediv_of_nonneg (by omega)]
    exact Int.bmod_eq_of_le (by omega) (by omega)
  rw [BitVec.toInt_sub, hquotient, hone]
  exact Int.bmod_eq_of_le (by omega) (by omega)

end Halves

/-- The call hands on what was meant exactly if the threshold tells it apart. -/
theorem unpack_iff {ints : Ints} (h : ints.Packable) :
    unpack ints.first ints.packed = ints.list ↔ ints.Unambiguous := by
  cases ints with
  | one a => exact iff_of_true rfl trivial
  | two a b =>
      obtain ⟨-, hb⟩ := h
      show unpack a b = [a, b] ↔ b.toInt < 100
      unfold unpack
      by_cases hlarge : 100 ≤ b.toInt
      · rw [if_pos hlarge]
        simp [hlarge]
      · have hminus : b ≠ -1 := by
          rintro rfl
          exact absurd hb (by decide)
        rw [if_neg hlarge, if_neg hminus, if_neg fun hboth => hminus hboth.2]
        exact iff_of_true rfl (by omega)
  | three a x y =>
      obtain ⟨-, hx, hy, hfits⟩ := h
      have hpacked := toInt_packed hx hy hfits
      show unpack a (x + (100 * y + 100)) = [a, x, y] ↔ x.toInt < 100
      generalize x + (100 * y + 100) = b at hpacked ⊢
      have hlower := toInt_lower (b := b) (by omega)
      have hupper := toInt_upper (b := b) (by omega)
      unfold unpack
      rw [if_pos (by omega)]
      simp only [List.cons.injEq, true_and, and_true, ← BitVec.toInt_inj, hlower, hupper]
      omega

/-- Whatever the memory and the format, the integers arrive exactly if the second of two,
and the second of three, is less than 100. -/
theorem printf_lossless_iff (ints : Ints) (hpackable : ints.Packable) {m m' : Machine}
    {vaddr : Word} {len : Nat} {out : HostPrintf}
    (h : printfSyscall m vaddr len ints.first ints.packed = .ok (out, m')) :
    out.ints = ints.list ↔ ints.Unambiguous := by
  have hout : out.ints = unpack ints.first ints.packed := by
    unfold printfSyscall at h
    cases hcopy : copyinResult m vaddr len with
    | none =>
        rw [hcopy] at h
        exact absurd h (by simp)
    | some result =>
        rw [hcopy] at h
        obtain ⟨rfl, -⟩ := Prod.mk.inj (Except.ok.inj h)
        rfl
  rw [hout]
  exact unpack_iff hpackable

/-- A user program with the format `"%d%d"` at address 0. -/
def formatMachine : Machine where
  registers := fun _ => 0
  mainMemory := fun a => [37, 100, 37, 100, 0].getD a 0
  pageTable := some [⟨0, 0, true, false, false, false⟩]
  pageTableSize := 1
  overflowed := false

theorem printf_lossless_iff_two :
    ∃ out m', printfSyscall formatMachine 0 5 7 99 = .ok (out, m') ∧
      (out.ints = (Ints.two 7 99).list ↔ (Ints.two 7 99).Unambiguous) := by
  obtain ⟨out, m', h⟩ : ∃ out m', printfSyscall formatMachine 0 5 7 99 = .ok (out, m') :=
    ⟨_, _, rfl⟩
  exact ⟨out, m', h, printf_lossless_iff (.two 7 99) ⟨by decide, by decide⟩ h⟩

/-- Two integers, of which the second is 100, arrive as three. -/
theorem printf_not_lossless :
    (Ints.two 7 100).Packable ∧
      ∃ out m', printfSyscall formatMachine 0 5 7 100 = .ok (out, m') ∧
        out.format = [37, 100, 37, 100, 0] ∧ out.ints = [7, 0, 0] ∧
        out.ints ≠ (Ints.two 7 100).list :=
  ⟨⟨by decide, by decide⟩, _, _, rfl, by decide +kernel, by decide, by decide⟩

end PrintfCall
end Userprog
end Nachos
