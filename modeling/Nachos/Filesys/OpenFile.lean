import Nachos.Filesys.FileHeader

/-!
# Open files

This module embeds `filesys/openfile.cc`: `ReadAt` and `WriteAt`, which turn a request
for bytes into requests for sectors.  An open file has its own copy of the header.

Two requests have no meaning in C++ and stop the model: one at a negative position,
with which the code leaves its buffer or the table of the header, and one whose end is
beyond the range of `int`.
-/

namespace Nachos
namespace Filesys

open Threads

/-- `class OpenFile`. -/
structure OpenFile where
  hdr : FileHeader
  seekPosition : Int

/-- The largest `int`. -/
def intMax : Int := 2 ^ 31 - 1

namespace OpenFile

/-- `OpenFile::OpenFile`. -/
def new (disk : Sectors) (sector : Int) : Except Stop OpenFile := do
  let hdr ← FileHeader.fetchFrom disk sector
  .ok ⟨hdr, 0⟩

/-- A request is cut at the end of the file. -/
def cut (f : OpenFile) (numBytes position : Int) : Int :=
  if position + numBytes > f.hdr.fileLength then f.hdr.fileLength - position else numBytes

/-- The loop of `ReadAt` at sector `i` of the file, with `rounds` to go. -/
def readLoop (hdr : FileHeader) (disk : Sectors) (firstSector : Nat) :
    Nat → Nat → Memory → Except Stop Memory
  | 0, _, buf => .ok buf
  | rounds + 1, i, buf => do
      let sector ← hdr.byteToSector (i * sectorSize)
      let data ← readSector disk sector
      readLoop hdr disk firstSector rounds (i + 1)
        (bcopy data 0 buf ((i - firstSector) * sectorSize) sectorSize)

/-- `OpenFile::ReadAt`, to `&into[offset]`.  Its buffer is filled by the loop. -/
def readAt (f : OpenFile) (disk : Sectors) (into : Memory) (offset : Nat)
    (numBytes position : Int) : Except Stop (Int × Memory) :=
  if numBytes ≤ 0 ∨ position ≥ f.hdr.fileLength then .ok (0, into)
  else if position < 0 ∨ position + numBytes > intMax then .error .outOfBounds
  else do
    let count := (f.cut numBytes position).toNat
    let start := position.toNat
    let firstSector := start / sectorSize
    let lastSector := (start + count - 1) / sectorSize
    let buf ← readLoop f.hdr disk firstSector (1 + lastSector - firstSector) firstSector fun _ => 0
    .ok (count, bcopy buf (start - firstSector * sectorSize) into offset count)

/-- The loop of `WriteAt` at sector `i` of the file, with `rounds` to go. -/
def writeLoop (hdr : FileHeader) (buf : Memory) (firstSector : Nat) :
    Nat → Nat → Sectors → Except Stop Sectors
  | 0, _, disk => .ok disk
  | rounds + 1, i, disk => do
      let sector ← hdr.byteToSector (i * sectorSize)
      let disk ← writeSector disk sector fun k => buf ((i - firstSector) * sectorSize + k)
      writeLoop hdr buf firstSector rounds (i + 1) disk

/-- `WriteAt` reads sector `n` of the file to `&buf[offset]`, if it is to be modified in
part. -/
def readPart (f : OpenFile) (disk : Sectors) (inPart : Prop) [Decidable inPart] (buf : Memory)
    (offset n : Nat) : Except Stop Memory :=
  if inPart then (f.readAt disk buf offset sectorSize (n * sectorSize : Nat)).map Prod.snd
  else .ok buf

/-- `OpenFile::WriteAt`; `fresh` is what its new buffer holds. -/
def writeAt (f : OpenFile) (disk : Sectors) (fresh source : Memory) (numBytes position : Int) :
    Except Stop (Int × Sectors) :=
  if numBytes ≤ 0 ∨ position ≥ f.hdr.fileLength then .ok (0, disk)
  else if position < 0 ∨ position + numBytes > intMax then .error .outOfBounds
  else do
    let count := (f.cut numBytes position).toNat
    let start := position.toNat
    let firstSector := start / sectorSize
    let lastSector := (start + count - 1) / sectorSize
    let firstAligned := start = firstSector * sectorSize
    let lastAligned := start + count = (lastSector + 1) * sectorSize
    let buf ← f.readPart disk (¬ firstAligned) fresh 0 firstSector
    let buf ← f.readPart disk (¬ lastAligned ∧ (firstSector ≠ lastSector ∨ firstAligned)) buf
      ((lastSector - firstSector) * sectorSize) lastSector
    let disk ← writeLoop f.hdr (bcopy source 0 buf (start - firstSector * sectorSize) count)
      firstSector (1 + lastSector - firstSector) firstSector disk
    .ok (count, disk)

/-- `OpenFile::Read`. -/
def read (f : OpenFile) (disk : Sectors) (into : Memory) (numBytes : Int) :
    Except Stop (Int × Memory × OpenFile) := do
  let (result, into) ← f.readAt disk into 0 numBytes f.seekPosition
  .ok (result, into, { f with seekPosition := f.seekPosition + result })

/-- `OpenFile::Write`. -/
def write (f : OpenFile) (disk : Sectors) (fresh source : Memory) (numBytes : Int) :
    Except Stop (Int × Sectors × OpenFile) := do
  let (result, disk) ← f.writeAt disk fresh source numBytes f.seekPosition
  .ok (result, disk, { f with seekPosition := f.seekPosition + result })

/-- `OpenFile::Seek`. -/
def seek (f : OpenFile) (position : Int) : OpenFile := { f with seekPosition := position }

/-- `OpenFile::Length`. -/
def length (f : OpenFile) : Int := f.hdr.fileLength

end OpenFile

/-- A byte of a file. -/
def FileHeader.fileByte (hdr : FileHeader) (disk : Sectors) (j : Nat) : Byte :=
  disk (hdr.dataSectors (j / sectorSize)) (j % sectorSize)

/-- A header that can be used: the file is not too long, and its sectors are on the
disk. -/
structure FileHeader.Valid (hdr : FileHeader) : Prop where
  size : hdr.numBytes ≤ maxFileSize
  sectors : ∀ j : Nat, (j : Int) * 128 < hdr.numBytes → IsSector (hdr.dataSectors j)

/-- The sectors of a file are all different. -/
def FileHeader.Distinct (hdr : FileHeader) : Prop :=
  ∀ j j' : Nat, (j : Int) * 128 < hdr.numBytes → (j' : Int) * 128 < hdr.numBytes →
    hdr.dataSectors j = hdr.dataSectors j' → j = j'

theorem FileHeader.byteToSector_ok {hdr : FileHeader} {i : Nat} (hi : i < numDirect) :
    hdr.byteToSector (i * sectorSize) = .ok (hdr.dataSectors i) := by
  have hdiv : i * sectorSize / sectorSize = i := Nat.mul_div_cancel i (by decide)
  rw [FileHeader.byteToSector, hdiv, if_pos hi]

/-- The sectors of a file are in the table of its header. -/
theorem FileHeader.Valid.lt_numDirect {hdr : FileHeader} (h : hdr.Valid) {j : Nat}
    (hj : (j : Int) * 128 < hdr.numBytes) : j < numDirect := by
  have hsize := h.size
  have hmax : maxFileSize = 3840 := rfl
  have hdirect : numDirect = 30 := rfl
  omega

namespace OpenFile

section Transfers

variable {disk : Sectors} {f : OpenFile} {numBytes position : Int}

/-- The loop of `ReadAt` reads whole sectors. -/
theorem readLoop_ok (hdr : FileHeader) (disk : Sectors) (first rounds i : Nat) (buf : Memory)
    (hfirst : first ≤ i)
    (hsectors : ∀ j, i ≤ j → j < i + rounds →
      j < numDirect ∧ IsSector (hdr.dataSectors j)) :
    ∃ buf', readLoop hdr disk first rounds i buf = .ok buf' ∧
      ∀ k, buf' k = if (i - first) * 128 ≤ k ∧ k < (i + rounds - first) * 128 then
        disk (hdr.dataSectors (first + k / 128)) (k % 128) else buf k := by
  induction rounds generalizing i buf with
  | zero =>
      refine ⟨buf, rfl, fun k => ?_⟩
      rw [if_neg]
      omega
  | succ rounds ih =>
      obtain ⟨hroom, hsector⟩ := hsectors i (by omega) (by omega)
      obtain ⟨buf', hloop, hbuf⟩ := ih (i + 1)
        (bcopy (disk (hdr.dataSectors i)) 0 buf ((i - first) * sectorSize) sectorSize)
        (by omega) fun j hle hlt => hsectors j (by omega) (by omega)
      refine ⟨buf', ?_, fun k => ?_⟩
      · rw [readLoop, FileHeader.byteToSector_ok hroom]
        show (readSector disk _ >>= _) = _
        rw [readSector, if_pos hsector]
        exact hloop
      · rw [hbuf k]
        unfold bcopy sectorSize
        by_cases hlate : (i + 1 - first) * 128 ≤ k ∧ k < (i + 1 + rounds - first) * 128
        · rw [if_pos hlate, if_pos (by omega)]
        · rw [if_neg hlate]
          by_cases hhere : (i - first) * 128 ≤ k ∧ k < (i - first) * 128 + 128
          · rw [if_pos hhere, if_pos (by omega)]
            have hsector : first + k / 128 = i := by omega
            have hbyte : 0 + (k - (i - first) * 128) = k % 128 := by omega
            rw [hsector, hbyte]
          · rw [if_neg hhere, if_neg (by omega)]

/-- What a request transfers. -/
def count (f : OpenFile) (numBytes position : Int) : Nat :=
  if numBytes ≤ 0 ∨ position ≥ f.hdr.fileLength then 0 else (f.cut numBytes position).toNat

/-- A request that transfers something is inside of the file. -/
theorem cut_bounds (hrequest : ¬ (numBytes ≤ 0 ∨ position ≥ f.hdr.fileLength))
    (hposition : 0 ≤ position) :
    0 < (f.cut numBytes position).toNat ∧
      (position.toNat + (f.cut numBytes position).toNat : Int) ≤ f.hdr.numBytes := by
  unfold cut
  unfold FileHeader.fileLength at *
  split
  · omega
  · omega

/-- `ReadAt` reads the bytes of the file. -/
theorem readAt_ok (hvalid : f.hdr.Valid) (disk : Sectors) (into : Memory) (offset : Nat)
    (numBytes position : Int) (hposition : 0 ≤ position)
    (hend : position + numBytes ≤ intMax) :
    ∃ into', f.readAt disk into offset numBytes position =
        .ok (f.count numBytes position, into') ∧
      ∀ k, into' k = if offset ≤ k ∧ k < offset + f.count numBytes position then
        f.hdr.fileByte disk (position.toNat + (k - offset)) else into k := by
  unfold readAt count
  by_cases hrequest : numBytes ≤ 0 ∨ position ≥ f.hdr.fileLength
  · rw [if_pos hrequest, if_pos hrequest]
    refine ⟨into, rfl, fun k => ?_⟩
    rw [if_neg]
    omega
  · obtain ⟨hpos, hfits⟩ := cut_bounds hrequest hposition
    rw [if_neg hrequest, if_neg hrequest, if_neg (by omega)]
    generalize hcount : (f.cut numBytes position).toNat = count at *
    generalize hstart : position.toNat = start at *
    simp only
    obtain ⟨buf, hloop, hbuf⟩ := readLoop_ok f.hdr disk (start / sectorSize)
      (1 + (start + count - 1) / sectorSize - start / sectorSize) (start / sectorSize)
      (fun _ => 0) (Nat.le_refl _) (by
        intro j hle hlt
        have hbyte : (j : Int) * 128 < f.hdr.numBytes := by
          unfold sectorSize at *
          omega
        exact ⟨hvalid.lt_numDirect hbyte, hvalid.sectors j hbyte⟩)
    rw [hloop]
    refine ⟨_, rfl, fun k => ?_⟩
    unfold bcopy
    by_cases hk : offset ≤ k ∧ k < offset + count
    · rw [if_pos hk, if_pos hk, hbuf, if_pos]
      · have hsector : start / 128 + (start - start / 128 * 128 + (k - offset)) / 128 =
            (start + (k - offset)) / 128 := by omega
        have hbyte : (start - start / 128 * 128 + (k - offset)) % 128 =
            (start + (k - offset)) % 128 := by omega
        unfold FileHeader.fileByte sectorSize
        rw [hsector, hbyte]
      · unfold sectorSize
        omega
    · rw [if_neg hk, if_neg hk]

/-- The loop of `WriteAt` writes whole sectors of the file, and no others. -/
theorem writeLoop_ok (hdr : FileHeader) (buf : Memory) (first rounds i : Nat) (disk : Sectors)
    (hfirst : first ≤ i)
    (hsectors : ∀ j, i ≤ j → j < i + rounds → j < numDirect ∧ IsSector (hdr.dataSectors j))
    (hdistinct : ∀ j j', i ≤ j → j < i + rounds → i ≤ j' → j' < i + rounds →
      hdr.dataSectors j = hdr.dataSectors j' → j = j') :
    ∃ disk', writeLoop hdr buf first rounds i disk = .ok disk' ∧
      (∀ s, (∀ j, i ≤ j → j < i + rounds → hdr.dataSectors j ≠ s) → disk' s = disk s) ∧
      ∀ j, i ≤ j → j < i + rounds →
        disk' (hdr.dataSectors j) = fun k => buf ((j - first) * sectorSize + k) := by
  induction rounds generalizing i disk with
  | zero => exact ⟨disk, rfl, fun s _ => rfl, fun j hle hlt => by omega⟩
  | succ rounds ih =>
      obtain ⟨hroom, hsector⟩ := hsectors i (by omega) (by omega)
      have hne : ∀ j, i + 1 ≤ j → j < i + 1 + rounds → hdr.dataSectors j ≠ hdr.dataSectors i := by
        intro j hle hlt heq
        have hij := hdistinct j i (by omega) (by omega) (by omega) (by omega) heq
        omega
      obtain ⟨disk', hloop, hframe, hwritten⟩ := ih (i + 1)
        (Function.update disk (hdr.dataSectors i)
          fun k => buf ((i - first) * sectorSize + k)) (by omega)
        (fun j hle hlt => hsectors j (by omega) (by omega))
        fun j j' hle hlt hle' hlt' => hdistinct j j' (by omega) (by omega) (by omega) (by omega)
      refine ⟨disk', ?_, ?_, ?_⟩
      · rw [writeLoop, FileHeader.byteToSector_ok hroom]
        show (writeSector disk _ _ >>= _) = _
        rw [writeSector, if_pos hsector]
        exact hloop
      · intro s hs
        rw [hframe s fun j hle hlt => hs j (by omega) (by omega)]
        exact Function.update_of_ne (hs i (by omega) (by omega)).symm _ _
      · intro j hle hlt
        by_cases hj : j = i
        · rw [hj, hframe _ hne]
          exact Function.update_self ..
        · exact hwritten j (by omega) (by omega)

/-- A sector that is modified in part is read. -/
theorem readPart_ok (hvalid : f.hdr.Valid) (disk : Sectors) (inPart : Prop) [Decidable inPart]
    (buf : Memory) (offset n : Nat) (hn : (n : Int) * 128 < f.hdr.numBytes) :
    ∃ buf', f.readPart disk inPart buf offset n = .ok buf' ∧
      (inPart → ∀ k : Nat, k < 128 → (n * 128 + k : Int) < f.hdr.numBytes →
        buf' (offset + k) = f.hdr.fileByte disk (n * 128 + k)) ∧
      (inPart → ∀ k : Nat, k < offset → buf' k = buf k) ∧ (¬ inPart → buf' = buf) := by
  have hsize := hvalid.size
  have hmax : maxFileSize = 3840 := rfl
  have hint : intMax = 2147483647 := rfl
  unfold readPart sectorSize
  split
  case isFalse hnot => exact ⟨buf, rfl, fun h => absurd h hnot, fun h => absurd h hnot, fun _ => rfl⟩
  case isTrue hpart =>
  obtain ⟨buf', hread, hbuf⟩ := readAt_ok hvalid disk buf offset (128 : Nat) (n * 128 : Nat)
    (by omega) (by omega)
  refine ⟨buf', ?_, ?_, ?_, fun h => absurd hpart h⟩
  · rw [hread]
    rfl
  · intro _ k hk hbyte
    have hcount : k < f.count (128 : Nat) (n * 128 : Nat) := by
      unfold count cut FileHeader.fileLength
      split
      · omega
      · split
        · omega
        · omega
    rw [hbuf, if_pos (by omega)]
    congr 1
    omega
  · intro _ k hk
    rw [hbuf, if_neg (by omega)]

/-- `WriteAt` changes the bytes of its request, and no other sector. -/
theorem writeAt_ok (hvalid : f.hdr.Valid) (hdistinct : f.hdr.Distinct) (disk : Sectors)
    (fresh source : Memory) (numBytes position : Int) (hposition : 0 ≤ position)
    (hend : position + numBytes ≤ intMax) :
    ∃ disk', f.writeAt disk fresh source numBytes position =
        .ok (f.count numBytes position, disk') ∧
      (∀ s, (∀ j : Nat, (j : Int) * 128 < f.hdr.numBytes → f.hdr.dataSectors j ≠ s) →
        disk' s = disk s) ∧
      ∀ j : Nat, (j : Int) < f.hdr.numBytes → f.hdr.fileByte disk' j =
        if position.toNat ≤ j ∧ j < position.toNat + f.count numBytes position then
          source (j - position.toNat) else f.hdr.fileByte disk j := by
  unfold writeAt count
  by_cases hrequest : numBytes ≤ 0 ∨ position ≥ f.hdr.fileLength
  · rw [if_pos hrequest, if_pos hrequest]
    refine ⟨disk, rfl, fun s _ => rfl, fun j _ => ?_⟩
    rw [if_neg]
    omega
  · obtain ⟨hpos, hfits⟩ := cut_bounds hrequest hposition
    rw [if_neg hrequest, if_neg hrequest, if_neg (by omega)]
    generalize (f.cut numBytes position).toNat = count at *
    generalize position.toNat = start at *
    have hsector : sectorSize = 128 := rfl
    simp only
    generalize hfirst : start / sectorSize = first
    generalize hlast : (start + count - 1) / sectorSize = last
    rw [hsector] at hfirst hlast
    obtain ⟨buf₁, hread₁, hbuf₁, -, -⟩ := readPart_ok hvalid disk
      (¬ start = first * sectorSize) fresh 0 first (by omega)
    obtain ⟨buf₂, hread₂, hbuf₂, hkeep₂, hsame₂⟩ := readPart_ok hvalid disk
      (¬ start + count = (last + 1) * sectorSize ∧ (first ≠ last ∨ start = first * sectorSize))
      buf₁ ((last - first) * sectorSize) last (by omega)
    rw [hsector] at hbuf₁ hbuf₂ hkeep₂ hsame₂
    -- the bytes that are not to be changed have been read
    have hold : ∀ j : Nat, first * 128 ≤ j → j < (last + 1) * 128 →
        (j : Int) < f.hdr.numBytes → ¬ (start ≤ j ∧ j < start + count) →
        buf₂ (j - first * 128) = f.hdr.fileByte disk j := by
      intro j hlow hhigh hbyte hout
      have hbefore : start ≠ first * 128 → j < first * 128 + 128 →
          buf₁ (j - first * 128) = f.hdr.fileByte disk j := by
        intro hne hj
        have hread := hbuf₁ hne (j - first * 128) (by omega) (by omega)
        rw [Nat.zero_add] at hread
        rw [hread]
        congr 1
        omega
      by_cases hpart : start + count ≠ (last + 1) * 128 ∧ (first ≠ last ∨ start = first * 128)
      · by_cases hj : j < start
        · rw [hkeep₂ hpart _ (by omega)]
          exact hbefore (by omega) (by omega)
        · have hindex : j - first * 128 = (last - first) * 128 + (j - last * 128) := by omega
          rw [hindex, hbuf₂ hpart _ (by omega) (by omega)]
          congr 1
          omega
      · rw [hsame₂ hpart]
        exact hbefore (by omega) (by omega)
    have hinside : ∀ j, first ≤ j → j < first + (1 + last - first) →
        (j : Int) * 128 < f.hdr.numBytes := by
      intro j hle hlt
      omega
    obtain ⟨disk', hloop, hframe, hwritten⟩ := writeLoop_ok f.hdr
      (bcopy source 0 buf₂ (start - first * sectorSize) count) first (1 + last - first) first disk
      (Nat.le_refl _)
      (fun j hle hlt => ⟨hvalid.lt_numDirect (hinside j hle hlt),
        hvalid.sectors j (hinside j hle hlt)⟩)
      fun j j' hle hlt hle' hlt' => hdistinct j j' (hinside j hle hlt) (hinside j' hle' hlt')
    refine ⟨disk', ?_, ?_, ?_⟩
    · rw [hread₁]
      show (f.readPart disk _ buf₁ _ _ >>= _) = _
      rw [hread₂]
      show (writeLoop f.hdr _ _ _ _ _ >>= _) = _
      rw [hloop]
      rfl
    · intro s hs
      exact hframe s fun j hle hlt => hs j (hinside j hle hlt)
    · intro j hj
      unfold FileHeader.fileByte
      rw [hsector]
      by_cases hrange : first * 128 ≤ j ∧ j < (last + 1) * 128
      · rw [hwritten (j / 128) (by omega) (by omega)]
        unfold bcopy
        rw [hsector]
        beta_reduce
        have hindex : (j / 128 - first) * 128 + j % 128 = j - first * 128 := by omega
        rw [hindex]
        by_cases hnew : start ≤ j ∧ j < start + count
        · rw [if_pos (by omega), if_pos hnew]
          congr 1
          omega
        · rw [if_neg (by omega), if_neg hnew, hold j hrange.1 hrange.2 hj hnew]
          rfl
      · have hother : ∀ i, first ≤ i → i < first + (1 + last - first) →
            f.hdr.dataSectors i ≠ f.hdr.dataSectors (j / 128) := by
          intro i hle hlt heq
          have hij := hdistinct i (j / 128) (hinside i hle hlt) (by omega) heq
          omega
        rw [hframe _ hother, if_neg (by omega)]

/-- Whatever it is asked for, `WriteAt` changes no sector that is not one of its file. -/
theorem writeAt_frame (hvalid : f.hdr.Valid) (hdistinct : f.hdr.Distinct)
    {fresh source : Memory} {result : Int} {disk' : Sectors}
    (h : f.writeAt disk fresh source numBytes position = .ok (result, disk')) {s : Int}
    (hs : ∀ j : Nat, (j : Int) * 128 < f.hdr.numBytes → f.hdr.dataSectors j ≠ s) :
    disk' s = disk s := by
  by_cases hrequest : numBytes ≤ 0 ∨ position ≥ f.hdr.fileLength
  · rw [writeAt, if_pos hrequest] at h
    obtain ⟨-, rfl⟩ := Prod.mk.inj (Except.ok.inj h)
    rfl
  · by_cases hmeaning : position < 0 ∨ position + numBytes > intMax
    · rw [writeAt, if_neg hrequest, if_pos hmeaning] at h
      exact absurd h (by simp)
    · obtain ⟨disk'', hwrite, hframe, -⟩ := writeAt_ok hvalid hdistinct disk fresh
        source numBytes position (by omega) (by omega)
      obtain ⟨-, rfl⟩ := Prod.mk.inj (Except.ok.inj (hwrite.symm.trans h))
      exact hframe s hs

end Transfers

end OpenFile

end Filesys
end Nachos
