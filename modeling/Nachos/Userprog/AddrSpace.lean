import Nachos.Threads.Kernel
import Nachos.Userprog.BitMap

/-!
# Address spaces

This module embeds the rest of `userprog/addrspace.cc`: how `AddrSpace::AddrSpace`
reads the header of an executable, takes page frames from `memMap` and copies the
file into them, and what `InitRegisters` gives a program to start with.

The file system is the stub on top of the host's: reading from an open file is
one `read`, which nothing interrupts.  A file that is too short leaves the rest
of the header as it was on the stack.
-/

namespace Nachos
namespace Userprog

open Threads

/-- `UserStackSize`. -/
def userStackSize : Nat := 1024

/-- `NOFFMAGIC`. -/
def noffMagic : Word := 0xbadfad

/-- An open executable of the host's file system. -/
structure Executable where
  length : Nat
  byte : Nat → Byte

/-- `struct segment`. -/
structure Segment where
  virtualAddr : Word
  inFileAddr : Word
  size : Word
  deriving DecidableEq, Repr

/-- `struct noffHeader`. -/
structure NoffHeader where
  noffMagic : Word
  code : Segment
  initData : Segment
  uninitData : Segment
  deriving DecidableEq, Repr

/-- `sizeof(noffH)`. -/
def noffHeaderSize : Nat := 40

/-- `class AddrSpace` without its file table.  `size` is a ghost: the bytes of
code and data of the program. -/
structure AddrSpace where
  numPages : Nat
  pageTable : List TranslationEntry
  size : Nat

/-- `OpenFile::ReadAt`, which gives up when `Lseek` fails on a negative
position. -/
def Executable.readAt (file : Executable) (into : Memory) (base numBytes : Nat)
    (position : Word) : Option Memory :=
  if position.msb then none
  else some fun a =>
    if base ≤ a ∧ a < base + min numBytes (file.length - position.toNat) then
      file.byte (position.toNat + (a - base))
    else into a

namespace Segment

/-- The segment that is stored at `a`. -/
def read (bytes : Memory) (a : Nat) : Segment :=
  ⟨bytes.loadInt a, bytes.loadInt (a + 4), bytes.loadInt (a + 8)⟩

/-- `WordToHost` on the fields of a segment. -/
def swap (s : Segment) : Segment :=
  ⟨wordToHost s.virtualAddr, wordToHost s.inFileAddr, wordToHost s.size⟩

end Segment

namespace NoffHeader

/-- The header that is stored in a buffer. -/
def read (bytes : Memory) : NoffHeader :=
  ⟨bytes.loadInt 0, Segment.read bytes 4, Segment.read bytes 16, Segment.read bytes 28⟩

/-- `SwapHeader`. -/
def swap (noffH : NoffHeader) : NoffHeader :=
  ⟨wordToHost noffH.noffMagic, noffH.code.swap, noffH.initData.swap, noffH.uninitData.swap⟩

/-- `SwapHeader` if the bytes of the magic number are turned around. -/
def normalize (noffH : NoffHeader) : NoffHeader :=
  if noffH.noffMagic ≠ Userprog.noffMagic ∧
      wordToHost noffH.noffMagic = Userprog.noffMagic then noffH.swap
  else noffH

/-- `noffH.code.size + noffH.initData.size + noffH.uninitData.size`. -/
def size (noffH : NoffHeader) : Nat :=
  (noffH.code.size + noffH.initData.size + noffH.uninitData.size).toNat

/-- `numPages`. -/
def numPages (noffH : NoffHeader) : Nat :=
  divRoundUp noffH.size pageSize + divRoundUp userStackSize pageSize

end NoffHeader

/-- What the loop of `AddrSpace::AddrSpace` works on. -/
structure Loading where
  memMap : BitMap
  mainMemory : Memory
  pageTable : List TranslationEntry

/-- The loop of `AddrSpace::AddrSpace` at page `i`, with `rounds` to go. -/
def loadPages (executable : Executable) (inFileAddr : Word) :
    Nat → Nat → Loading → Except Stop Loading
  | 0, _, l => .ok l
  | rounds + 1, i, l =>
      let (ppn, memMap) := l.memMap.find
      if ppn < 0 then .error .halted
      else
        match executable.readAt l.mainMemory (ppn.toNat * pageSize) pageSize
            (inFileAddr + BitVec.ofNat 32 (i * pageSize)) with
        | none => .error .assertFailed
        | some mainMemory => loadPages executable inFileAddr rounds (i + 1)
            ⟨memMap, mainMemory, l.pageTable ++ [⟨i, ppn, true, false, false, false⟩]⟩

/-- `AddrSpace::AddrSpace` behind its two `fileTable.Put(0)`.  `garbage` is what
was on the stack in place of `noffH`. -/
def AddrSpace.load (executable : Executable) (garbage : Memory) (memMap : BitMap)
    (mainMemory : Memory) : Except Stop (AddrSpace × BitMap × Memory) :=
  match executable.readAt garbage 0 noffHeaderSize 0 with
  | none => .error .assertFailed
  | some bytes =>
      let noffH := (NoffHeader.read bytes).normalize
      if noffH.noffMagic = noffMagic then
        if noffH.numPages ≤ numPhysPages then
          match loadPages executable noffH.code.inFileAddr noffH.numPages 0
              ⟨memMap, mainMemory, []⟩ with
          | .ok l => .ok (⟨noffH.numPages, l.pageTable, noffH.size⟩, l.memMap, l.mainMemory)
          | .error stop => .error stop
        else .error .assertFailed
      else .error .assertFailed

namespace AddrSpace

/-- `AddrSpace::InitRegisters`. -/
def initRegisters (space : AddrSpace) : Registers :=
  Function.update (Function.update (Function.update (fun _ => 0) pcReg 0) nextPCReg 4) stackReg
    (BitVec.ofNat 32 (space.numPages * pageSize) - 16)

end AddrSpace

section Loading

variable {executable : Executable} {inFileAddr : Word}

/-- `ReadAt` changes the bytes it was asked for at most. -/
theorem Executable.readAt_other {into mem : Memory} {base numBytes : Nat} {position : Word}
    (h : executable.readAt into base numBytes position = some mem) {a : Nat}
    (ha : ¬ (base ≤ a ∧ a < base + numBytes)) : mem a = into a := by
  unfold Executable.readAt at h
  split at h
  · exact absurd h (by simp)
  · rw [← Option.some.inj h]
    have hout : ¬ (base ≤ a ∧
        a < base + min numBytes (executable.length - position.toNat)) := by
      omega
    simp only [if_neg hout]

/-- The entry the loop writes for page `i` in frame `p`. -/
def pageEntry (i p : Nat) : TranslationEntry := ⟨i, p, true, false, false, false⟩

/-- What the loop has done when it has taken the frames `taken` for the pages
from `i` on. -/
structure Loaded (i : Nat) (taken : List Nat) (l l' : Loading) : Prop where
  pageTable : l'.pageTable =
    l.pageTable ++ taken.mapIdx fun k p => pageEntry (i + k) p
  numBits : l'.memMap.numBits = l.memMap.numBits
  nodup : taken.Nodup
  clear : ∀ p ∈ taken, p < l.memMap.numBits ∧ l.memMap.test p = false
  test : ∀ p, l'.memMap.test p = true ↔ l.memMap.test p = true ∨ p ∈ taken
  memory : ∀ a, a / pageSize ∉ taken → l'.mainMemory a = l.mainMemory a

theorem Loaded.nil (i : Nat) (l : Loading) : Loaded i [] l l where
  pageTable := by simp
  numBits := rfl
  nodup := List.nodup_nil
  clear := by simp
  test := by simp
  memory := fun _ _ => rfl

/-- One round of the loop, followed by the rest of it. -/
theorem Loaded.cons {i p : Nat} {taken : List Nat} {l l' : Loading} {mem : Memory}
    (hp : p < l.memMap.numBits) (hclear : l.memMap.test p = false)
    (hmem : ∀ a, ¬ (p * pageSize ≤ a ∧ a < p * pageSize + pageSize) → mem a = l.mainMemory a)
    (h : Loaded (i + 1) taken
      ⟨l.memMap.mark p, mem, l.pageTable ++ [pageEntry i p]⟩ l') :
    Loaded i (p :: taken) l l' where
  pageTable := by
    rw [h.pageTable, List.mapIdx_cons, List.append_assoc]
    simp [Nat.add_assoc, Nat.add_comm 1]
  numBits := h.numBits
  nodup := by
    refine List.nodup_cons.mpr ⟨fun hmem' => ?_, h.nodup⟩
    have hset := (h.clear p hmem').2
    rw [BitMap.test_mark_self hp] at hset
    exact absurd hset (by simp)
  clear := by
    intro q hq
    rcases List.mem_cons.mp hq with rfl | hq
    · exact ⟨hp, hclear⟩
    · obtain ⟨hlt, hclear'⟩ := h.clear q hq
      refine ⟨hlt, ?_⟩
      by_contra hne
      rw [Bool.not_eq_false] at hne
      rw [BitMap.test_mark_of_test hne] at hclear'
      exact absurd hclear' (by simp)
  test := by
    intro q
    rw [h.test q, List.mem_cons]
    by_cases hq : p = q
    · subst hq
      simp [BitMap.test_mark_self hp]
    · rw [BitMap.test_mark_ne hq]
      constructor
      · rintro (hold | hold)
        · exact Or.inl hold
        · exact Or.inr (Or.inr hold)
      · rintro (hold | rfl | hold)
        · exact Or.inl hold
        · exact absurd rfl hq
        · exact Or.inr hold
  memory := by
    intro a ha
    rw [List.mem_cons, not_or] at ha
    rw [h.memory a ha.2]
    refine hmem a fun hin => ha.1 ?_
    unfold pageSize at *
    omega

/-- The loop takes a clear frame for every page. -/
theorem loadPages_ok {rounds i : Nat} {l l' : Loading}
    (h : loadPages executable inFileAddr rounds i l = .ok l') :
    ∃ taken, taken.length = rounds ∧ Loaded i taken l l' := by
  induction rounds generalizing i l with
  | zero =>
      rw [loadPages, Except.ok.injEq] at h
      exact ⟨[], rfl, h ▸ Loaded.nil i l⟩
  | succ rounds ih =>
      rw [loadPages] at h
      rcases l.memMap.find_cases with hfull | ⟨p, hp, hclear, hfound⟩
      · simp [hfull] at h
      · simp only [hfound, Int.toNat_natCast] at h
        rw [if_neg (by omega)] at h
        split at h
        · exact absurd h (by simp)
        · rename_i mem hread
          obtain ⟨taken, hlength, hloaded⟩ := ih h
          refine ⟨p :: taken, by rw [List.length_cons, hlength], ?_⟩
          exact Loaded.cons hp hclear (fun a ha => Executable.readAt_other hread ha) hloaded

/-- A new address space has a clear frame for every page, at least the pages of a
stack, and nothing outside these frames has changed. -/
theorem AddrSpace.load_ok {garbage mem mem' : Memory} {memMap memMap' : BitMap}
    {space : AddrSpace}
    (h : AddrSpace.load executable garbage memMap mem = .ok (space, memMap', mem')) :
    ∃ taken, taken.length = space.numPages ∧
      Loaded 0 taken ⟨memMap, mem, []⟩ ⟨memMap', mem', space.pageTable⟩ ∧
      space.numPages = divRoundUp space.size pageSize + divRoundUp userStackSize pageSize ∧
      space.numPages ≤ numPhysPages := by
  unfold AddrSpace.load at h
  split at h
  · exact absurd h (by simp)
  · simp only at h
    split at h
    · split at h
      · rename_i hfits
        split at h
        · rename_i l hload
          obtain ⟨taken, hlength, hloaded⟩ := loadPages_ok hload
          rw [Except.ok.injEq, Prod.mk.injEq, Prod.mk.injEq] at h
          obtain ⟨rfl, rfl, rfl⟩ := h
          exact ⟨taken, hlength, hloaded, rfl, hfits⟩
        · exact absurd h (by simp)
      · exact absurd h (by simp)
    · exact absurd h (by simp)

end Loading

end Userprog
end Nachos
