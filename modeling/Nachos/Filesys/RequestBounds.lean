import Nachos.Filesys.Transfers
import Nachos.Lib.GuardedRun

/-!
# What requests compute

`ReadAt` and `WriteAt` compute with numbers that come from a user program.  This module
embeds their arithmetic, as C++ has it: every sum, product and difference of `int`s is
checked for overflow, every number of a sector of the file for its range, and the bytes
that are copied for being bytes of the file.
-/

namespace Nachos
namespace Filesys

open Threads Lib

/-- What a request must not do. -/
inductive Fault
  | overflow
  | noSector
  | outsideFile
  deriving DecidableEq

/-- The result of an operation on `int`s. -/
def signed (n : Int) : Except Fault Int :=
  if -2 ^ 31 ≤ n ∧ n < 2 ^ 31 then .ok n else .error .overflow

/-- A condition that a request is to meet. -/
def require (condition : Prop) [Decidable condition] (fault : Fault) : Except Fault Unit :=
  if condition then .ok () else .error fault

namespace FileHeader

/-- `ByteToSector` finds its sector among those of the file. -/
def checkSector (hdr : FileHeader) (offset : Int) : Except Fault Unit :=
  require (0 ≤ offset.tdiv sectorSize ∧ offset.tdiv sectorSize < hdr.numSectors) .noSector

/-- The loop of `ReadAt` or `WriteAt` at sector `i` of the file, with `rounds` to go. -/
def checkLoop (hdr : FileHeader) (firstSector : Int) : Nat → Int → Except Fault Unit
  | 0, _ => .ok ()
  | rounds + 1, i => do
      let offset ← signed (i * sectorSize)
      hdr.checkSector offset
      let sectors ← signed (i - firstSector)
      let _ ← signed (sectors * sectorSize)
      checkLoop hdr firstSector rounds (i + 1)

/-- The request is cut at the end of the file. -/
def checkCut (hdr : FileHeader) (numBytes position : Int) : Except Fault Int := do
  let stop ← signed (position + numBytes)
  if stop > hdr.fileLength then signed (hdr.fileLength - position) else .ok numBytes

/-- The numbers of the first and the last sector of a request, and the size of its
buffer. -/
def checkRange (numBytes position : Int) : Except Fault (Int × Int) := do
  let firstSector := position.tdiv sectorSize
  let stop ← signed (position + numBytes)
  let last ← signed (stop - 1)
  let lastSector := last.tdiv sectorSize
  let next ← signed (1 + lastSector)
  let sectors ← signed (next - firstSector)
  let _ ← signed (sectors * sectorSize)
  .ok (firstSector, lastSector)

/-- The bytes that are copied, from or to `&buf[position - firstSector * SectorSize]`. -/
def checkCopy (hdr : FileHeader) (numBytes position firstSector : Int) : Except Fault Unit := do
  let start ← signed (firstSector * sectorSize)
  let _ ← signed (position - start)
  require (0 ≤ position ∧ position + numBytes ≤ hdr.fileLength) .outsideFile

/-- The arithmetic of `OpenFile::ReadAt`. -/
def checkReadAt (hdr : FileHeader) (numBytes position : Int) : Except Fault Int :=
  if numBytes ≤ 0 ∨ position ≥ hdr.fileLength then .ok 0
  else do
    let numBytes ← hdr.checkCut numBytes position
    let (firstSector, lastSector) ← checkRange numBytes position
    hdr.checkLoop firstSector (lastSector - firstSector + 1).toNat firstSector
    hdr.checkCopy numBytes position firstSector
    .ok numBytes

/-- `WriteAt` reads sector `n` of the file if it is to be modified in part.  Its place in
the buffer is 0 for the first one. -/
def checkPart (hdr : FileHeader) (inPart : Prop) [Decidable inPart] (firstSector n : Int) :
    Except Fault Unit :=
  if inPart then do
    let sectors ← signed (n - firstSector)
    let _ ← signed (sectors * sectorSize)
    let start ← signed (n * sectorSize)
    let _ ← hdr.checkReadAt sectorSize start
    .ok ()
  else .ok ()

/-- The arithmetic of `OpenFile::WriteAt`. -/
def checkWriteAt (hdr : FileHeader) (numBytes position : Int) : Except Fault Int :=
  if numBytes ≤ 0 ∨ position ≥ hdr.fileLength then .ok 0
  else do
    let numBytes ← hdr.checkCut numBytes position
    let (firstSector, lastSector) ← checkRange numBytes position
    let start ← signed (firstSector * sectorSize)
    let stop ← signed (position + numBytes)
    let next ← signed (lastSector + 1)
    let nextStart ← signed (next * sectorSize)
    hdr.checkPart (position ≠ start) firstSector firstSector
    hdr.checkPart (stop ≠ nextStart ∧ (firstSector ≠ lastSector ∨ position = start)) firstSector
      lastSector
    hdr.checkCopy numBytes position firstSector
    hdr.checkLoop firstSector (lastSector - firstSector + 1).toNat firstSector
    .ok numBytes

end FileHeader

section Checks

variable {n m : Int} {hdr : FileHeader} {numBytes position : Int}

theorem signed_ok (hlow : -2 ^ 31 ≤ n) (hhigh : n < 2 ^ 31) : signed n = .ok n :=
  if_pos ⟨hlow, hhigh⟩

theorem signed_eq_ok (h : signed n = .ok m) : m = n ∧ -2 ^ 31 ≤ n ∧ n < 2 ^ 31 := by
  unfold signed at h
  split at h
  · rename_i hrange
    exact ⟨(Except.ok.inj h).symm, hrange⟩
  · exact absurd h (by simp)

theorem require_ok {condition : Prop} [Decidable condition] {fault : Fault} (h : condition) :
    require condition fault = .ok () :=
  if_pos h

theorem require_eq_ok {condition : Prop} [Decidable condition] {fault : Fault}
    (h : require condition fault = .ok ()) : condition := by
  unfold require at h
  split at h
  · assumption
  · exact absurd h (by simp)

namespace FileHeader

/-- The loop stays within the sectors of the file. -/
theorem checkLoop_ok {firstSector : Int} (hfirst : 0 ≤ firstSector) (rounds : Nat) (i : Int)
    (hi : firstSector ≤ i) (hsectors : i + rounds ≤ hdr.numSectors)
    (hend : (i + rounds) * 128 ≤ 2 ^ 31) :
    hdr.checkLoop firstSector rounds i = .ok () := by
  induction rounds generalizing i with
  | zero => rfl
  | succ rounds ih =>
      have hsize : ((sectorSize : Nat) : Int) = 128 := rfl
      have hindex : (i * 128).tdiv 128 = i := by
        rw [Int.tdiv_eq_ediv_of_nonneg (by omega)]
        omega
      rw [checkLoop, hsize, signed_ok (by omega) (by omega)]
      show (hdr.checkSector (i * 128) >>= _) = _
      rw [checkSector, require_ok (by rw [hsize, hindex]; omega)]
      show (signed (i - firstSector) >>= _) = _
      rw [signed_ok (by omega) (by omega)]
      show (signed ((i - firstSector) * 128) >>= _) = _
      rw [signed_ok (by omega) (by omega)]
      exact ih (i + 1) (by omega) (by omega) (by omega)

theorem fileLength_lt (hdr : FileHeader) : hdr.fileLength < 2 ^ 31 := by
  unfold fileLength numBytes
  have hlt := BitVec.toInt_lt (x := Memory.loadInt hdr 0)
  omega

theorem checkCut_ok (hpos : 0 < numBytes) (hposition : 0 ≤ position)
    (hinside : position < hdr.fileLength) (hend : position + numBytes < 2 ^ 31) :
    hdr.checkCut numBytes position = .ok (min numBytes (hdr.fileLength - position)) := by
  have hlength := hdr.fileLength_lt
  unfold checkCut
  rw [signed_ok (by omega) hend]
  show (if position + numBytes > hdr.fileLength then _ else _) = _
  split
  · rw [signed_ok (by omega) (by omega)]
    congr 1
    omega
  · congr 1
    omega

theorem checkRange_ok (hpos : 0 < numBytes) (hposition : 0 ≤ position)
    (hend : position + numBytes < 2 ^ 31)
    (hbuf : 1 + (position + numBytes - 1) / 128 - position / 128 < 2 ^ 24) :
    checkRange numBytes position = .ok (position / 128, (position + numBytes - 1) / 128) := by
  have hsize : ((sectorSize : Nat) : Int) = 128 := rfl
  have hfirst : position.tdiv 128 = position / 128 := Int.tdiv_eq_ediv_of_nonneg hposition
  have hlast : (position + numBytes - 1).tdiv 128 = (position + numBytes - 1) / 128 :=
    Int.tdiv_eq_ediv_of_nonneg (by omega)
  unfold checkRange
  rw [hsize, hfirst, signed_ok (by omega) hend]
  simp only [bind, Except.bind]
  rw [signed_ok (by omega) (by omega)]
  simp only
  rw [hlast, signed_ok (by omega) (by omega)]
  simp only
  rw [signed_ok (by omega) (by omega)]
  simp only
  rw [signed_ok (by omega) (by omega)]

theorem checkCopy_ok (hposition : 0 ≤ position) (hpos : 0 < numBytes)
    (hend : position + numBytes ≤ hdr.fileLength) :
    hdr.checkCopy numBytes position (position / 128) = .ok () := by
  have hsize : ((sectorSize : Nat) : Int) = 128 := rfl
  have hlength := hdr.fileLength_lt
  unfold checkCopy
  rw [hsize, signed_ok (by omega) (by omega)]
  simp only [bind, Except.bind]
  rw [signed_ok (by omega) (by omega)]
  exact require_ok ⟨hposition, hend⟩

/-- `ReadAt` is in order when its buffer has a size that is an `int`. -/
theorem checkReadAt_ok (hsectors : hdr.numSectors = divRoundUp hdr.numBytes sectorSize)
    (hpos : 0 < numBytes) (hposition : 0 ≤ position) (hinside : position < hdr.fileLength)
    (hend : position + numBytes < 2 ^ 31)
    (hbuf : 128 ≤ position ∨ min (position + numBytes) hdr.fileLength ≤ 2 ^ 31 - 128) :
    hdr.checkReadAt numBytes position = .ok (min numBytes (hdr.fileLength - position)) := by
  have hlength := hdr.fileLength_lt
  have hbytes : hdr.fileLength = hdr.numBytes := rfl
  rw [divRoundUp_of_nonneg (by omega)] at hsectors
  unfold checkReadAt
  rw [if_neg (by omega), checkCut_ok hpos hposition hinside hend]
  simp only [bind, Except.bind]
  generalize hcount : min numBytes (hdr.fileLength - position) = count
  rw [checkRange_ok (by omega) hposition (by omega) (by omega)]
  simp only
  rw [checkLoop_ok (by omega) _ _ (Int.le_refl _) (by omega) (by omega)]
  simp only
  rw [checkCopy_ok hposition (by omega) (by omega)]

theorem checkPart_ok (hsectors : hdr.numSectors = divRoundUp hdr.numBytes sectorSize)
    (inPart : Prop) [Decidable inPart] {firstSector n : Int} (hfirst : 0 ≤ firstSector)
    (hn : firstSector ≤ n) (hinside : n * 128 < hdr.fileLength) (hend : n < 2 ^ 24 - 1) :
    hdr.checkPart inPart firstSector n = .ok () := by
  have hsize : ((sectorSize : Nat) : Int) = 128 := rfl
  unfold checkPart
  split
  · rw [hsize, signed_ok (by omega) (by omega)]
    simp only [bind, Except.bind]
    rw [signed_ok (by omega) (by omega)]
    simp only
    rw [signed_ok (by omega) (by omega)]
    simp only
    rw [checkReadAt_ok hsectors (by omega) (by omega) hinside (by omega) (by omega)]
  · rfl

/-- `WriteAt` is in order when the end of its last sector is an `int`. -/
theorem checkWriteAt_ok (hsectors : hdr.numSectors = divRoundUp hdr.numBytes sectorSize)
    (hpos : 0 < numBytes) (hposition : 0 ≤ position) (hinside : position < hdr.fileLength)
    (hend : position + numBytes < 2 ^ 31)
    (hlast : min (position + numBytes) hdr.fileLength ≤ 2 ^ 31 - 128) :
    hdr.checkWriteAt numBytes position = .ok (min numBytes (hdr.fileLength - position)) := by
  have hsize : ((sectorSize : Nat) : Int) = 128 := rfl
  have hlength := hdr.fileLength_lt
  have hbytes : hdr.fileLength = hdr.numBytes := rfl
  have hnum := hsectors
  rw [divRoundUp_of_nonneg (by omega)] at hnum
  unfold checkWriteAt
  rw [if_neg (by omega), checkCut_ok hpos hposition hinside hend, hsize]
  simp only [bind, Except.bind]
  generalize hcount : min numBytes (hdr.fileLength - position) = count
  rw [checkRange_ok (by omega) hposition (by omega) (by omega)]
  simp only
  rw [signed_ok (by omega) (by omega)]
  simp only
  rw [signed_ok (by omega) (by omega)]
  simp only
  rw [signed_ok (by omega) (by omega)]
  simp only
  rw [signed_ok (by omega) (by omega)]
  simp only
  rw [checkPart_ok hsectors _ (by omega) (Int.le_refl _) (by omega) (by omega)]
  simp only
  rw [checkPart_ok hsectors _ (by omega) (by omega) (by omega) (by omega)]
  simp only
  rw [checkCopy_ok hposition (by omega) (by omega)]
  simp only
  rw [checkLoop_ok (by omega) _ _ (Int.le_refl _) (by omega) (by omega)]

/-- The sum of the two arguments is an `int`. -/
theorem checkCut_eq_ok {count : Int} (h : hdr.checkCut numBytes position = .ok count) :
    position + numBytes < 2 ^ 31 ∧
      (position + numBytes > hdr.fileLength → count = hdr.fileLength - position) ∧
      (¬ position + numBytes > hdr.fileLength → count = numBytes) := by
  obtain ⟨stop, hstop, hrest⟩ := bind_eq_ok h
  obtain ⟨rfl, -, hhigh⟩ := signed_eq_ok hstop
  refine ⟨hhigh, fun hcut => ?_, fun hwhole => ?_⟩
  · rw [if_pos hcut] at hrest
    exact (signed_eq_ok hrest).1
  · rw [if_neg hwhole] at hrest
    exact (Except.ok.inj hrest).symm

theorem checkCopy_eq_ok {firstSector : Int}
    (h : hdr.checkCopy numBytes position firstSector = .ok ()) :
    0 ≤ position ∧ position + numBytes ≤ hdr.fileLength := by
  obtain ⟨start, -, h⟩ := bind_eq_ok h
  obtain ⟨index, -, h⟩ := bind_eq_ok h
  exact require_eq_ok h

/-- The size of the buffer is an `int`. -/
theorem checkRange_eq_ok {first last : Int} (hposition : 0 ≤ position) (hpos : 0 < numBytes)
    (h : checkRange numBytes position = .ok (first, last)) :
    first = position / 128 ∧ last = (position + numBytes - 1) / 128 ∧
      1 + last - first < 2 ^ 24 := by
  obtain ⟨stop, hstop, h⟩ := bind_eq_ok h
  obtain ⟨rfl, -, -⟩ := signed_eq_ok hstop
  obtain ⟨end', hend, h⟩ := bind_eq_ok h
  obtain ⟨rfl, -, -⟩ := signed_eq_ok hend
  obtain ⟨next, hnext, h⟩ := bind_eq_ok h
  obtain ⟨rfl, -, -⟩ := signed_eq_ok hnext
  obtain ⟨sectors, hsectors, h⟩ := bind_eq_ok h
  obtain ⟨rfl, -, -⟩ := signed_eq_ok hsectors
  obtain ⟨size, hsize, h⟩ := bind_eq_ok h
  obtain ⟨rfl, -, hhigh⟩ := signed_eq_ok hsize
  obtain ⟨rfl, rfl⟩ := Prod.mk.inj (Except.ok.inj h)
  have hsector : ((sectorSize : Nat) : Int) = 128 := rfl
  rw [hsector, Int.tdiv_eq_ediv_of_nonneg hposition,
    Int.tdiv_eq_ediv_of_nonneg (by omega)] at hhigh ⊢
  exact ⟨rfl, rfl, by omega⟩

/-- A request that `ReadAt` carries out in order. -/
def ReadAtBounded (length numBytes position : Int) : Prop :=
  numBytes ≤ 0 ∨ length ≤ position ∨ 0 ≤ position ∧ position + numBytes < 2 ^ 31 ∧
    (128 ≤ position ∨ min (position + numBytes) length ≤ 2 ^ 31 - 128)

/-- A request that `WriteAt` carries out in order. -/
def WriteAtBounded (length numBytes position : Int) : Prop :=
  numBytes ≤ 0 ∨ length ≤ position ∨ 0 ≤ position ∧ position + numBytes < 2 ^ 31 ∧
    min (position + numBytes) length ≤ 2 ^ 31 - 128

instance (length numBytes position : Int) : Decidable (ReadAtBounded length numBytes position) :=
  inferInstanceAs (Decidable (_ ∨ _))

instance (length numBytes position : Int) : Decidable (WriteAtBounded length numBytes position) :=
  inferInstanceAs (Decidable (_ ∨ _))

theorem checkReadAt_iff (hsectors : hdr.numSectors = divRoundUp hdr.numBytes sectorSize) :
    (∃ k, hdr.checkReadAt numBytes position = .ok k) ↔
      ReadAtBounded hdr.fileLength numBytes position := by
  unfold ReadAtBounded
  by_cases hrequest : numBytes ≤ 0 ∨ position ≥ hdr.fileLength
  · constructor
    · intro _
      omega
    · intro _
      exact ⟨0, if_pos hrequest⟩
  · constructor
    · rintro ⟨k, hk⟩
      rw [checkReadAt, if_neg hrequest] at hk
      obtain ⟨count, hcut, hk⟩ := bind_eq_ok hk
      obtain ⟨⟨first, last⟩, hrange, hk⟩ := bind_eq_ok hk
      obtain ⟨-, -, hk⟩ := bind_eq_ok hk
      obtain ⟨⟨⟩, hcopy, -⟩ := bind_eq_ok hk
      obtain ⟨hend, hlong, hshort⟩ := checkCut_eq_ok hcut
      obtain ⟨hposition, hinside⟩ := checkCopy_eq_ok hcopy
      obtain ⟨rfl, rfl, hbuf⟩ := checkRange_eq_ok hposition (by omega) hrange
      omega
    · intro hbounded
      exact ⟨_, checkReadAt_ok hsectors (by omega) (by omega) (by omega) (by omega) (by omega)⟩

theorem checkWriteAt_iff (hsectors : hdr.numSectors = divRoundUp hdr.numBytes sectorSize) :
    (∃ k, hdr.checkWriteAt numBytes position = .ok k) ↔
      WriteAtBounded hdr.fileLength numBytes position := by
  unfold WriteAtBounded
  by_cases hrequest : numBytes ≤ 0 ∨ position ≥ hdr.fileLength
  · constructor
    · intro _
      omega
    · intro _
      exact ⟨0, if_pos hrequest⟩
  · constructor
    · rintro ⟨k, hk⟩
      rw [checkWriteAt, if_neg hrequest] at hk
      obtain ⟨count, hcut, hk⟩ := bind_eq_ok hk
      obtain ⟨⟨first, last⟩, hrange, hk⟩ := bind_eq_ok hk
      obtain ⟨start, -, hk⟩ := bind_eq_ok hk
      obtain ⟨stop, -, hk⟩ := bind_eq_ok hk
      obtain ⟨next, hnext, hk⟩ := bind_eq_ok hk
      obtain ⟨nextStart, hstart, hk⟩ := bind_eq_ok hk
      obtain ⟨-, -, hk⟩ := bind_eq_ok hk
      obtain ⟨-, -, hk⟩ := bind_eq_ok hk
      obtain ⟨⟨⟩, hcopy, -⟩ := bind_eq_ok hk
      obtain ⟨hend, hlong, hshort⟩ := checkCut_eq_ok hcut
      obtain ⟨hposition, hinside⟩ := checkCopy_eq_ok hcopy
      obtain ⟨rfl, rfl, hbuf⟩ := checkRange_eq_ok hposition (by omega) hrange
      obtain ⟨rfl, -, -⟩ := signed_eq_ok hnext
      obtain ⟨-, -, hlast⟩ := signed_eq_ok hstart
      have hsize : ((sectorSize : Nat) : Int) = 128 := rfl
      rw [hsize] at hlast
      omega
    · intro hbounded
      exact ⟨_, checkWriteAt_ok hsectors (by omega) (by omega) (by omega) (by omega) (by omega)⟩

end FileHeader

end Checks

section Requests

variable {f : OpenFile} {numBytes position : Int}

/-- `ReadAt` succeeds on a file in order exactly when its arithmetic does. -/
theorem OpenFile.readAt_iff_check (hvalid : f.hdr.Valid)
    (hsectors : f.hdr.numSectors = divRoundUp f.hdr.numBytes sectorSize) (disk : Sectors)
    (into : Memory) (offset : Nat) :
    (∃ r, f.readAt disk into offset numBytes position = .ok r) ↔
      ∃ k, f.hdr.checkReadAt numBytes position = .ok k := by
  have hmax : maxFileSize = 3840 := rfl
  have hint : intMax = 2147483647 := rfl
  have hsize := hvalid.size
  have hlength : f.hdr.fileLength = f.hdr.numBytes := rfl
  rw [FileHeader.checkReadAt_iff hsectors, FileHeader.ReadAtBounded]
  by_cases hrequest : numBytes ≤ 0 ∨ position ≥ f.hdr.fileLength
  · constructor
    · intro _
      omega
    · intro _
      exact ⟨(0, into), if_pos hrequest⟩
  · by_cases hmeaning : position < 0 ∨ position + numBytes > intMax
    · constructor
      · rintro ⟨r, hr⟩
        rw [OpenFile.readAt, if_neg hrequest, if_pos hmeaning] at hr
        exact absurd hr (by simp)
      · intro hbounded
        omega
    · constructor
      · intro _
        omega
      · intro _
        obtain ⟨into', hread, -⟩ := OpenFile.readAt_ok hvalid disk into offset numBytes position
          (by omega) (by omega)
        exact ⟨_, hread⟩

/-- `WriteAt` succeeds on a file in order exactly when its arithmetic does. -/
theorem OpenFile.writeAt_iff_check (hvalid : f.hdr.Valid) (hdistinct : f.hdr.Distinct)
    (hsectors : f.hdr.numSectors = divRoundUp f.hdr.numBytes sectorSize) (disk : Sectors)
    (fresh source : Memory) :
    (∃ r, f.writeAt disk fresh source numBytes position = .ok r) ↔
      ∃ k, f.hdr.checkWriteAt numBytes position = .ok k := by
  have hmax : maxFileSize = 3840 := rfl
  have hint : intMax = 2147483647 := rfl
  have hsize := hvalid.size
  have hlength : f.hdr.fileLength = f.hdr.numBytes := rfl
  rw [FileHeader.checkWriteAt_iff hsectors, FileHeader.WriteAtBounded]
  by_cases hrequest : numBytes ≤ 0 ∨ position ≥ f.hdr.fileLength
  · constructor
    · intro _
      omega
    · intro _
      exact ⟨(0, disk), if_pos hrequest⟩
  · by_cases hmeaning : position < 0 ∨ position + numBytes > intMax
    · constructor
      · rintro ⟨r, hr⟩
        rw [OpenFile.writeAt, if_neg hrequest, if_pos hmeaning] at hr
        exact absurd hr (by simp)
      · intro hbounded
        omega
    · constructor
      · intro _
        omega
      · intro _
        obtain ⟨disk', hwrite, -⟩ := OpenFile.writeAt_ok hvalid hdistinct disk fresh source
          numBytes position (by omega) (by omega)
        exact ⟨_, hwrite⟩

end Requests

/-- A request stays within the file and within the range of `int` exactly when it asks for
nothing that is in the file, or for bytes from a position that is not negative to an end
that is an `int`, and, where the file is that long, the numbers of the bytes in the
sectors from the first one to the last one are `int`s. -/
theorem request_bounded_iff (hdr : FileHeader)
    (hsectors : hdr.numSectors = divRoundUp hdr.numBytes sectorSize) (numBytes position : Word) :
    ((∃ k, hdr.checkReadAt numBytes.toInt position.toInt = .ok k) ↔
      FileHeader.ReadAtBounded hdr.fileLength numBytes.toInt position.toInt) ∧
    ((∃ k, hdr.checkWriteAt numBytes.toInt position.toInt = .ok k) ↔
      FileHeader.WriteAtBounded hdr.fileLength numBytes.toInt position.toInt) :=
  ⟨FileHeader.checkReadAt_iff hsectors, FileHeader.checkWriteAt_iff hsectors⟩

/-- The first byte of a file of 200 bytes can be read, and written to, but not with a
request for as many bytes as there are `int`s from there. -/
theorem request_bounded_twoSectors :
    (∃ k, OpenFile.twoSectors.hdr.checkReadAt 1 0 = .ok k) ∧
      ¬ ∃ k, OpenFile.twoSectors.hdr.checkWriteAt (2 ^ 31 - 1) 1 = .ok k := by
  have hsectors : OpenFile.twoSectors.hdr.numSectors =
      divRoundUp OpenFile.twoSectors.hdr.numBytes sectorSize := by decide
  constructor
  · exact (request_bounded_iff _ hsectors 1 0).1.mpr (by decide)
  · intro h
    have hbounded := (request_bounded_iff _ hsectors 0x7fffffff 1).2.mp h
    have hlength : OpenFile.twoSectors.hdr.fileLength = 200 := by decide
    rw [hlength] at hbounded
    exact absurd hbounded (by decide)

/-- `Read` of all that there may be, behind the first byte, and a byte before the file. -/
theorem request_not_bounded :
    ¬ ∀ (hdr : FileHeader), hdr.numSectors = divRoundUp hdr.numBytes sectorSize →
      ∀ numBytes position : Word,
        (∃ k, hdr.checkReadAt numBytes.toInt position.toInt = .ok k) ∧
          ∃ k, hdr.checkWriteAt numBytes.toInt position.toInt = .ok k := by
  intro hall
  obtain ⟨⟨k, hk⟩, -⟩ := hall OpenFile.twoSectors.hdr (by decide) 0x7fffffff 1
  have hfault : OpenFile.twoSectors.hdr.checkReadAt (2 ^ 31 - 1) 1 = .error .overflow := by
    decide
  exact absurd (hfault.symm.trans hk) (by simp)

end Filesys
end Nachos
