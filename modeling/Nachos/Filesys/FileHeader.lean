import Nachos.Filesys.SynchDisk
import Nachos.Userprog.BitMap

/-!
# File headers

This module embeds `filesys/filehdr.cc`.  A file header is written to its sector as it
is in memory, so it is modelled by its bytes: two numbers and the table of data
sectors, each an `int`.  What the memory of a new header holds is the environment's
choice.

The disk is what `SynchDisk` makes of it: its requests are carried out one at a time.
-/

namespace Nachos
namespace Filesys

open Threads Userprog

/-- `SectorSize`. -/
def sectorSize : Nat := 128

/-- The sectors of the disk. -/
abbrev Sectors := Int → Memory

/-- `synchDisk->ReadSector`. -/
def readSector (disk : Sectors) (n : Int) : Except Stop Memory :=
  if IsSector n then .ok (disk n) else .error .assertFailed

/-- `synchDisk->WriteSector`. -/
def writeSector (disk : Sectors) (n : Int) (data : Memory) : Except Stop Sectors :=
  if IsSector n then .ok (Function.update disk n data) else .error .assertFailed

/-- `bcopy(&source[i], &target[j], n)`. -/
def bcopy (source : Memory) (i : Nat) (target : Memory) (j n : Nat) : Memory :=
  fun k => if j ≤ k ∧ k < j + n then source (i + (k - j)) else target k

/-- `divRoundUp`, for an `int`. -/
def divRoundUp (n s : Int) : Int := n.tdiv s + if n.tmod s > 0 then 1 else 0

/-- `NumDirect`. -/
def numDirect : Nat := 30

/-- `MaxFileSize`. -/
def maxFileSize : Nat := numDirect * sectorSize

/-- `class FileHeader`, by its bytes. -/
abbrev FileHeader := Memory

namespace FileHeader

/-- The field `numBytes`. -/
def numBytes (h : FileHeader) : Int := (Memory.loadInt h 0).toInt

/-- The field `numSectors`. -/
def numSectors (h : FileHeader) : Int := (Memory.loadInt h 4).toInt

/-- The field `dataSectors`. -/
def dataSectors (h : FileHeader) (i : Nat) : Int := (Memory.loadInt h (8 + 4 * i)).toInt

/-- Assign to `numBytes`. -/
def setNumBytes (h : FileHeader) (n : Int) : FileHeader :=
  Memory.storeInt h 0 (BitVec.ofInt 32 n)

/-- Assign to `numSectors`. -/
def setNumSectors (h : FileHeader) (n : Int) : FileHeader :=
  Memory.storeInt h 4 (BitVec.ofInt 32 n)

/-- Assign to `dataSectors[i]`. -/
def setDataSector (h : FileHeader) (i : Nat) (n : Int) : FileHeader :=
  Memory.storeInt h (8 + 4 * i) (BitVec.ofInt 32 n)

/-- `FileHeader::FileLength`. -/
def fileLength (h : FileHeader) : Int := h.numBytes

/-- `FileHeader::ByteToSector`. -/
def byteToSector (h : FileHeader) (offset : Nat) : Except Stop Int :=
  if offset / sectorSize < numDirect then .ok (h.dataSectors (offset / sectorSize))
  else .error .outOfBounds

/-- `FileHeader::FetchFrom`. -/
def fetchFrom (disk : Sectors) (sector : Int) : Except Stop FileHeader :=
  readSector disk sector

/-- `FileHeader::WriteBack`. -/
def writeBack (h : FileHeader) (disk : Sectors) (sector : Int) : Except Stop Sectors :=
  writeSector disk sector h

/-- The loop of `Allocate` at index `i`, with `rounds` to go. -/
def allocateLoop : Nat → Nat → FileHeader → BitMap → Except Stop (FileHeader × BitMap)
  | 0, _, h, freeMap => .ok (h, freeMap)
  | rounds + 1, i, h, freeMap =>
      if i < numDirect then
        allocateLoop rounds (i + 1) (h.setDataSector i freeMap.find.1) freeMap.find.2
      else .error .outOfBounds

/-- `FileHeader::Allocate`. -/
def allocate (h : FileHeader) (freeMap : BitMap) (fileSize : Int) :
    Except Stop (Bool × FileHeader × BitMap) :=
  let sectors := divRoundUp fileSize sectorSize
  let h := (h.setNumBytes fileSize).setNumSectors sectors
  if freeMap.numClear < sectors then .ok (false, h, freeMap)
  else
    match allocateLoop sectors.toNat 0 h freeMap with
    | .ok (h, freeMap) => .ok (true, h, freeMap)
    | .error stop => .error stop

/-- The loop of `Deallocate` at index `i`, with `rounds` to go. -/
def deallocateLoop (h : FileHeader) : Nat → Nat → BitMap → Except Stop BitMap
  | 0, _, freeMap => .ok freeMap
  | rounds + 1, i, freeMap =>
      if i < numDirect then
        if 0 ≤ h.dataSectors i ∧ h.dataSectors i < freeMap.numBits ∧
            freeMap.test (h.dataSectors i).toNat = true then
          h.deallocateLoop rounds (i + 1) (freeMap.clear (h.dataSectors i).toNat)
        else .error .assertFailed
      else .error .outOfBounds

/-- `FileHeader::Deallocate`. -/
def deallocate (h : FileHeader) (freeMap : BitMap) : Except Stop BitMap :=
  h.deallocateLoop h.numSectors.toNat 0 freeMap

end FileHeader

section Words

variable {mem : Memory} {a c : Nat} {w : Word}

/-- A word is made of its bytes. -/
theorem append_bytes (w : Word) :
    w.extractLsb' 24 8 ++ w.extractLsb' 16 8 ++ w.extractLsb' 8 8 ++ w.extractLsb' 0 8 = w := by
  ext i hi
  simp
  grind

@[simp]
theorem loadInt_storeInt_self (mem : Memory) (a : Nat) (w : Word) :
    (mem.storeInt a w).loadInt a = w := by
  have hbytes : (mem.storeInt a w).loadInt a =
      w.extractLsb' 24 8 ++ w.extractLsb' 16 8 ++ w.extractLsb' 8 8 ++ w.extractLsb' 0 8 := by
    simp [Memory.storeInt, Memory.loadInt, Memory.storeByte, Function.update]
  rw [hbytes, append_bytes]

/-- A word depends on its bytes. -/
theorem loadInt_congr {mem' : Memory} (h : ∀ k, a ≤ k → k < a + 4 → mem k = mem' k) :
    mem.loadInt a = mem'.loadInt a := by
  unfold Memory.loadInt
  rw [h a (by omega) (by omega), h (a + 1) (by omega) (by omega),
    h (a + 2) (by omega) (by omega), h (a + 3) (by omega) (by omega)]

/-- Bytes outside of the word that is stored. -/
theorem storeInt_of_ne {k : Nat} (h : k < a ∨ a + 4 ≤ k) : mem.storeInt a w k = mem k := by
  have hne : ∀ j, j < 4 → k ≠ a + j := by
    intro j hj
    omega
  unfold Memory.storeInt Memory.storeByte
  rw [Function.update_of_ne (hne 3 (by omega)), Function.update_of_ne (hne 2 (by omega)),
    Function.update_of_ne (hne 1 (by omega)), Function.update_of_ne (by omega : k ≠ a)]

/-- Two words that do not overlap. -/
theorem loadInt_storeInt_of_ne (h : a + 4 ≤ c ∨ c + 4 ≤ a) :
    (mem.storeInt a w).loadInt c = mem.loadInt c := by
  apply loadInt_congr
  intro k hle hlt
  apply storeInt_of_ne
  omega

/-- An `int` is stored as it is. -/
theorem toInt_ofInt_of_range {n : Int} (hlow : -2 ^ 31 ≤ n) (hhigh : n < 2 ^ 31) :
    (BitVec.ofInt 32 n).toInt = n := by
  rw [BitVec.toInt_ofInt]
  apply Int.bmod_eq_of_le
  · omega
  · omega

theorem divRoundUp_of_nonneg {n : Int} (h : 0 ≤ n) :
    divRoundUp n sectorSize = (n + 127) / 128 := by
  unfold divRoundUp
  rw [Int.tdiv_eq_ediv_of_nonneg h, Int.tmod_eq_emod_of_nonneg h]
  show n / 128 + (if n % 128 > 0 then 1 else 0) = _
  split
  · omega
  · omega

theorem divRoundUp_of_neg {n : Int} (h : n < 0) :
    n ≤ divRoundUp n sectorSize ∧ divRoundUp n sectorSize ≤ 0 := by
  have hdiv : n.tdiv sectorSize = -((-n) / 128) := by
    have hneg := Int.neg_tdiv (-n) sectorSize
    rw [Int.neg_neg] at hneg
    rw [hneg, Int.tdiv_eq_ediv_of_nonneg (by omega)]
    rfl
  have hmod : ¬ n.tmod sectorSize > 0 := by
    have hneg := Int.neg_tmod (-n) sectorSize
    have hnonneg := Int.tmod_nonneg sectorSize (a := -n) (by omega)
    rw [Int.neg_neg] at hneg
    omega
  unfold divRoundUp
  rw [if_neg hmod, hdiv]
  omega

/-- A file has a sector for each of its bytes. -/
theorem lt_divRoundUp {n : Int} {j : Nat} :
    j < (divRoundUp n sectorSize).toNat ↔ (j : Int) * 128 < n := by
  rcases Int.lt_or_le n 0 with hneg | hnonneg
  · have hbounds := divRoundUp_of_neg hneg
    omega
  · rw [divRoundUp_of_nonneg hnonneg]
    omega

end Words

namespace FileHeader

variable {h h' : FileHeader} {b b' : BitMap} {i rounds : Nat}

theorem dataSectors_setDataSector_self {n : Int} (hlow : 0 ≤ n) (hhigh : n < 2 ^ 31) :
    (h.setDataSector i n).dataSectors i = n := by
  unfold dataSectors setDataSector
  rw [loadInt_storeInt_self, toInt_ofInt_of_range (by omega) hhigh]

/-- The bytes in front of an entry of the table. -/
theorem setDataSector_before {n : Int} {k : Nat} (hk : k < 8 + 4 * i) :
    h.setDataSector i n k = h k :=
  storeInt_of_ne (Or.inl hk)

/-- Entries in front of byte `n` depend on the bytes there. -/
theorem dataSectors_congr {n : Nat} (hsame : ∀ k, k < n → h' k = h k) (hi : 8 + 4 * i + 4 ≤ n) :
    h'.dataSectors i = h.dataSectors i := by
  unfold dataSectors
  rw [loadInt_congr fun k _ hlt => hsame k (by omega)]

/-- What the loop of `Allocate` does from index `i` on: it takes clear sectors, all of
them different. -/
structure Allocated (i rounds : Nat) (h : FileHeader) (b : BitMap) (h' : FileHeader)
    (b' : BitMap) : Prop where
  numBits : b'.numBits = b.numBits
  words : b'.map.length = b.map.length
  fresh : ∀ j, i ≤ j → j < i + rounds →
    ∃ s : Nat, s < b.numBits ∧ b.test s = false ∧ h'.dataSectors j = s
  distinct : ∀ j j', i ≤ j → j < i + rounds → i ≤ j' → j' < i + rounds →
    h'.dataSectors j = h'.dataSectors j' → j = j'
  test : ∀ s : Nat, b'.test s = true ↔
    b.test s = true ∨ ∃ j, i ≤ j ∧ j < i + rounds ∧ h'.dataSectors j = s
  before : ∀ k, k < 8 + 4 * i → h' k = h k

theorem Allocated.zero : Allocated i 0 h b h b where
  numBits := rfl
  words := rfl
  fresh j hle hlt := by omega
  distinct j j' hle hlt := by omega
  test s := by
    constructor
    · exact Or.inl
    · rintro (htest | ⟨j, hle, hlt, -⟩)
      · exact htest
      · omega
  before k _ := rfl

/-- One sector, and then the rest. -/
theorem Allocated.succ {s : Nat} (hs : s < b.numBits) (hsmall : b.numBits < 2 ^ 31)
    (hclear : b.test s = false)
    (hrest : Allocated (i + 1) rounds (h.setDataSector i s) (b.mark s) h' b') :
    Allocated i (rounds + 1) h b h' b' := by
  have hentry : h'.dataSectors i = s := by
    rw [dataSectors_congr hrest.before (by omega)]
    exact dataSectors_setDataSector_self (by omega) (by omega)
  have hother : ∀ j, i + 1 ≤ j → j < i + 1 + rounds → h'.dataSectors j ≠ s := by
    intro j hle hlt heq
    obtain ⟨s', -, hclear', hs'⟩ := hrest.fresh j hle hlt
    obtain rfl : s' = s := by omega
    rw [BitMap.test_mark_self hs] at hclear'
    exact absurd hclear' (by simp)
  constructor
  case numBits => exact hrest.numBits
  case words =>
    rw [hrest.words]
    exact BitMap.setWord_length
  case fresh =>
    intro j hle hlt
    by_cases hj : j = i
    · rw [hj]
      exact ⟨s, hs, hclear, hentry⟩
    · obtain ⟨s', hs', hclear', hdata⟩ := hrest.fresh j (by omega) (by omega)
      have hne : s ≠ s' := by
        rintro rfl
        exact hother j (by omega) (by omega) hdata
      rw [BitMap.test_mark_ne hne] at hclear'
      exact ⟨s', hs', hclear', hdata⟩
  case distinct =>
    intro j j' hle hlt hle' hlt' heq
    by_cases hj : j = i
    · by_cases hj' : j' = i
      · rw [hj, hj']
      · rw [hj, hentry] at heq
        exact absurd heq.symm (hother j' (by omega) (by omega))
    · by_cases hj' : j' = i
      · rw [hj', hentry] at heq
        exact absurd heq (hother j (by omega) (by omega))
      · exact hrest.distinct j j' (by omega) (by omega) (by omega) (by omega) heq
  case test =>
    intro x
    rw [hrest.test x]
    by_cases hx : s = x
    · subst hx
      constructor
      · exact fun _ => Or.inr ⟨i, by omega, by omega, hentry⟩
      · exact fun _ => Or.inl (BitMap.test_mark_self hs)
    · rw [BitMap.test_mark_ne hx]
      constructor
      · rintro (htest | ⟨j, hle, hlt, hdata⟩)
        · exact Or.inl htest
        · exact Or.inr ⟨j, by omega, by omega, hdata⟩
      · rintro (htest | ⟨j, hle, hlt, hdata⟩)
        · exact Or.inl htest
        · have hne : j ≠ i := by
            rintro rfl
            rw [hentry] at hdata
            omega
          exact Or.inr ⟨j, by omega, by omega, hdata⟩
  case before =>
    intro k hk
    rw [hrest.before k (by omega)]
    exact setDataSector_before hk

/-- The loop of `Allocate` succeeds when there are enough clear sectors. -/
theorem allocateLoop_ok (rounds i : Nat) (h : FileHeader) (b : BitMap)
    (hroom : i + rounds ≤ numDirect) (hsmall : b.numBits < 2 ^ 31)
    (hclear : rounds ≤ b.clearBits.card) :
    ∃ h' b', allocateLoop rounds i h b = .ok (h', b') ∧ Allocated i rounds h b h' b' := by
  induction rounds generalizing i h b with
  | zero => exact ⟨h, b, rfl, .zero⟩
  | succ rounds ih =>
      obtain ⟨s, hs, htest, hfind⟩ := BitMap.find_of_clear (b := b) (by omega)
      have hcard : (b.mark s).clearBits.card = b.clearBits.card - 1 := by
        rw [BitMap.clearBits_mark hs]
        exact Finset.card_erase_of_mem (BitMap.mem_clearBits.mpr ⟨hs, htest⟩)
      obtain ⟨h', b', hloop, hrest⟩ :=
        ih (i + 1) (h.setDataSector i s) (b.mark s) (by omega) hsmall (by omega)
      refine ⟨h', b', ?_, .succ hs hsmall htest hrest⟩
      rw [allocateLoop, if_pos (by omega), hfind]
      exact hloop

/-- A header behind `Allocate`. -/
structure AllocatedFile (fileSize : Int) (b : BitMap) (h' : FileHeader) (b' : BitMap) :
    Prop where
  numBytes : h'.numBytes = fileSize
  numSectors : h'.numSectors = divRoundUp fileSize sectorSize
  sectors : ∃ h, Allocated 0 (divRoundUp fileSize sectorSize).toNat h b h' b'

/-- `Allocate` has no room for the data, or takes clear sectors for it. -/
theorem allocate_ok {fileSize : Int} (hlow : -2 ^ 31 ≤ fileSize)
    (hsize : fileSize ≤ maxFileSize) (hsmall : b.numBits < 2 ^ 31) :
    (∃ h', h.allocate b fileSize = .ok (false, h', b)) ∨
      ∃ h' b', h.allocate b fileSize = .ok (true, h', b') ∧ AllocatedFile fileSize b h' b' := by
  have hmax : maxFileSize = 3840 := rfl
  have hsectors : divRoundUp fileSize sectorSize ≤ numDirect ∧
      -2 ^ 31 ≤ divRoundUp fileSize sectorSize := by
    have hdirect : numDirect = 30 := rfl
    rcases Int.lt_or_le fileSize 0 with hneg | hnonneg
    · have hbounds := divRoundUp_of_neg hneg
      omega
    · rw [divRoundUp_of_nonneg hnonneg]
      omega
  unfold allocate
  simp only
  split
  · exact Or.inl ⟨_, rfl⟩
  · rename_i hroom
    rw [BitMap.numClear_eq] at hroom
    obtain ⟨h', b', hloop, hallocated⟩ := allocateLoop_ok
      (divRoundUp fileSize sectorSize).toNat 0
      ((h.setNumBytes fileSize).setNumSectors (divRoundUp fileSize sectorSize)) b (by omega) hsmall (by omega)
    rw [hloop]
    refine Or.inr ⟨h', b', rfl, ?_, ?_, _, hallocated⟩
    · unfold numBytes
      rw [loadInt_congr fun k _ hlt => hallocated.before k (by omega)]
      unfold setNumSectors setNumBytes
      rw [loadInt_storeInt_of_ne (by omega), loadInt_storeInt_self]
      exact toInt_ofInt_of_range hlow (by omega)
    · unfold numSectors
      rw [loadInt_congr fun k _ hlt => hallocated.before k (by omega)]
      unfold setNumSectors
      rw [loadInt_storeInt_self]
      have hdirect : numDirect = 30 := rfl
      exact toInt_ofInt_of_range hsectors.2 (by omega)

/-- The loop of `Allocate` does not get beyond the table. -/
theorem le_of_allocateLoop_ok {result : FileHeader × BitMap}
    (hloop : allocateLoop rounds i h b = .ok result) : rounds = 0 ∨ i + rounds ≤ numDirect := by
  induction rounds generalizing i h b with
  | zero => exact Or.inl rfl
  | succ rounds ih =>
      rw [allocateLoop] at hloop
      split at hloop
      · rcases ih hloop with hzero | hle
        · omega
        · omega
      · exact absurd hloop (by simp)

/-- A file that is too long is not allocated. -/
theorem allocate_too_long {fileSize : Int} (hsize : maxFileSize < fileSize) :
    (∃ h', h.allocate b fileSize = .ok (false, h', b)) ∨
      ∃ stop, h.allocate b fileSize = .error stop := by
  unfold allocate
  simp only
  split
  · exact Or.inl ⟨_, rfl⟩
  · split
    · rename_i h' b' hloop
      have hmax : maxFileSize = 3840 := rfl
      have hdirect : numDirect = 30 := rfl
      have hbound := le_of_allocateLoop_ok hloop
      rw [divRoundUp_of_nonneg (by omega)] at hbound
      omega
    · exact Or.inr ⟨_, rfl⟩

/-- The loop of `Deallocate` clears marked sectors that are all different. -/
theorem deallocateLoop_ok (h : FileHeader) (rounds i : Nat) (b : BitMap)
    (hroom : i + rounds ≤ numDirect)
    (hdata : ∀ j, i ≤ j → j < i + rounds →
      ∃ s : Nat, s < b.numBits ∧ b.test s = true ∧ h.dataSectors j = s)
    (hdistinct : ∀ j j', i ≤ j → j < i + rounds → i ≤ j' → j' < i + rounds →
      h.dataSectors j = h.dataSectors j' → j = j') :
    ∃ b', h.deallocateLoop rounds i b = .ok b' ∧ b'.numBits = b.numBits ∧
      b'.map.length = b.map.length ∧ ∀ s : Nat, b'.test s = true ↔
        b.test s = true ∧ ∀ j, i ≤ j → j < i + rounds → h.dataSectors j ≠ s := by
  induction rounds generalizing i b with
  | zero =>
      refine ⟨b, rfl, rfl, rfl, fun s => ?_⟩
      constructor
      · exact fun htest => ⟨htest, fun j hle hlt => by omega⟩
      · exact fun htest => htest.1
  | succ rounds ih =>
      obtain ⟨s, hs, htest, hentry⟩ := hdata i (by omega) (by omega)
      have hne : ∀ j, i + 1 ≤ j → j < i + 1 + rounds → h.dataSectors j ≠ s := by
        intro j hle hlt heq
        have := hdistinct i j (by omega) (by omega) (by omega) (by omega) (hentry.trans heq.symm)
        omega
      obtain ⟨b', hloop, hbits, hwords, htests⟩ := ih (i + 1) (b.clear s) (by omega) (by
          intro j hle hlt
          obtain ⟨s', hs', htest', hdata'⟩ := hdata j (by omega) (by omega)
          have hss : s ≠ s' := by
            rintro rfl
            exact hne j hle hlt hdata'
          exact ⟨s', hs', by rw [BitMap.test_clear_ne hss]; exact htest', hdata'⟩)
        (fun j j' hle hlt hle' hlt' =>
          hdistinct j j' (by omega) (by omega) (by omega) (by omega))
      refine ⟨b', ?_, hbits, hwords.trans BitMap.setWord_length, ?_⟩
      · rw [deallocateLoop, if_pos (by omega), if_pos, hentry]
        · exact hloop
        · rw [hentry]
          exact ⟨by omega, by omega, htest⟩
      · intro x
        rw [htests x]
        by_cases hx : s = x
        · subst hx
          rw [BitMap.test_clear_self hs]
          constructor
          · rintro ⟨hfalse, -⟩
            exact absurd hfalse (by simp)
          · rintro ⟨-, hall⟩
            exact absurd hentry (hall i (by omega) (by omega))
        · rw [BitMap.test_clear_ne hx]
          constructor
          · rintro ⟨htest', hall⟩
            refine ⟨htest', fun j hle hlt heq => ?_⟩
            by_cases hj : j = i
            · rw [hj, hentry] at heq
              omega
            · exact hall j (by omega) (by omega) heq
          · rintro ⟨htest', hall⟩
            exact ⟨htest', fun j hle hlt => hall j (by omega) (by omega)⟩

end FileHeader

end Filesys
end Nachos
