import Nachos.Filesys.OpenFile
import Nachos.Lib.Extents

/-!
# A file is an array of bytes

`ReadAt` and `WriteAt` transfer the bytes of a request that are inside of the file, and
touch nothing else.  A sequence of `Read` or `Write`, each of which goes on where the
one before ended, does what one call for the whole does.
-/

namespace Nachos
namespace Filesys

open Threads Lib

namespace OpenFile

/-- `Read(&into[offset], numBytes)`. -/
def readTo (f : OpenFile) (disk : Sectors) (into : Memory) (offset : Nat) (numBytes : Int) :
    Except Stop (Int × Memory × OpenFile) := do
  let (result, target, f) ← f.read disk (fun k => into (offset + k)) numBytes
  .ok (result, fun k => if k < offset then into k else target (k - offset), f)

/-- A part of a file is read in chunks, one behind the other. -/
def readChunks (disk : Sectors) : OpenFile → List Nat → Memory → Nat →
    Except Stop (Int × Memory × OpenFile)
  | f, [], into, _ => .ok (0, into, f)
  | f, numBytes :: chunks, into, offset => do
      let (result, into, f) ← f.readTo disk into offset numBytes
      let (results, into, f) ← readChunks disk f chunks into (offset + numBytes)
      .ok (result + results, into, f)

/-- `&source[offset]` is written in chunks, one behind the other; `fresh n` is what the
buffer of the n-th call holds. -/
def writeChunks (fresh : Nat → Memory) (source : Memory) : OpenFile → Sectors → List Nat → Nat →
    Except Stop (Int × Sectors × OpenFile)
  | f, disk, [], _ => .ok (0, disk, f)
  | f, disk, numBytes :: chunks, offset => do
      let (result, disk, f) ← f.write disk (fresh chunks.length) (fun k => source (offset + k))
        numBytes
      let (results, disk, f) ← writeChunks fresh source f disk chunks (offset + numBytes)
      .ok (result + results, disk, f)

/-- The bytes of a file from `position` on. -/
def tail (f : OpenFile) (disk : Sectors) (position : Int) : Memory :=
  fun k => f.hdr.fileByte disk (position.toNat + k)

end OpenFile

/-- Bytes of a file have been replaced by those of `source`, and nothing else is
changed. -/
structure Written (hdr : FileHeader) (start count : Nat) (source : Memory)
    (disk disk' : Sectors) : Prop where
  bytes : ∀ j : Nat, (j : Int) < hdr.numBytes →
    hdr.fileByte disk' j = overwrite (hdr.fileByte disk) start count source j
  others : ∀ s, (∀ j : Nat, (j : Int) * 128 < hdr.numBytes → hdr.dataSectors j ≠ s) →
    disk' s = disk s

section Writing

variable {hdr : FileHeader} {start a b : Nat} {source source' : Memory}
  {disk disk' disk'' : Sectors}

theorem Written.zero : Written hdr start 0 source disk disk where
  bytes j _ := by rw [overwrite_zero]
  others s _ := rfl

/-- One part is written, and the next one behind it. -/
theorem Written.append (h : Written hdr start a source disk disk')
    (h' : Written hdr (start + a) b source' disk' disk'')
    (hsource : ∀ k, k < b → source' k = source (a + k)) :
    Written hdr start (a + b) source disk disk'' := by
  constructor
  case bytes =>
    intro j hj
    rw [h'.bytes j hj, ← overwrite_overwrite hsource]
    unfold overwrite
    by_cases hlate : start + a ≤ j ∧ j < start + a + b
    · rw [if_pos hlate, if_pos hlate]
    · rw [if_neg hlate, if_neg hlate]
      exact h.bytes j hj
  case others =>
    intro s hs
    rw [h'.others s hs, h.others s hs]

theorem Written.append_zero {start' : Nat} (h : Written hdr start a source disk disk')
    (h' : Written hdr start' 0 source' disk' disk'') : Written hdr start a source disk disk'' := by
  constructor
  case bytes =>
    intro j hj
    rw [h'.bytes j hj, overwrite_zero, h.bytes j hj]
  case others =>
    intro s hs
    rw [h'.others s hs, h.others s hs]

end Writing

namespace OpenFile

section Requests

variable {f : OpenFile} {numBytes position : Int}

/-- A request is cut to the file. -/
theorem count_eq_inside :
    (f.count numBytes position : Int) = inside f.hdr.fileLength numBytes position := by
  unfold count cut inside
  split
  · omega
  · split
    · omega
    · omega

theorem readAt_inside (hvalid : f.hdr.Valid) (disk : Sectors) (into : Memory) (offset : Nat)
    (hposition : 0 ≤ position) (hend : position + numBytes < 2 ^ 31) :
    f.readAt disk into offset numBytes position = .ok (inside f.hdr.fileLength numBytes position,
      overwrite into offset (inside f.hdr.fileLength numBytes position).toNat
        (f.tail disk position)) := by
  have hint : intMax = 2147483647 := rfl
  obtain ⟨into', hread, hinto⟩ := readAt_ok hvalid disk into offset numBytes position hposition
    (by omega)
  have hcount : (f.count numBytes position : Int) = _ := count_eq_inside
  rw [hread, ← hcount, Int.toNat_natCast]
  congr 2
  funext k
  rw [hinto k]
  rfl

theorem writeAt_inside (hvalid : f.hdr.Valid) (hdistinct : f.hdr.Distinct) (disk : Sectors)
    (fresh source : Memory) (hposition : 0 ≤ position) (hend : position + numBytes < 2 ^ 31) :
    ∃ disk', f.writeAt disk fresh source numBytes position =
        .ok (inside f.hdr.fileLength numBytes position, disk') ∧
      Written f.hdr position.toNat (inside f.hdr.fileLength numBytes position).toNat source
        disk disk' := by
  have hint : intMax = 2147483647 := rfl
  obtain ⟨disk', hwrite, hothers, hbytes⟩ := writeAt_ok hvalid hdistinct disk fresh source
    numBytes position hposition (by omega)
  have hcount : (f.count numBytes position : Int) = _ := count_eq_inside
  refine ⟨disk', ?_, ?_, hothers⟩
  · rw [hwrite, hcount]
  · intro j hj
    rw [hbytes j hj, ← hcount, Int.toNat_natCast]
    rfl

end Requests

section Chunks

variable {f : OpenFile} {disk : Sectors}

/-- What `Read` leaves of the open file. -/
def advanced (f : OpenFile) (result : Int) : OpenFile :=
  { f with seekPosition := f.seekPosition + result }

theorem read_inside (hvalid : f.hdr.Valid) (disk : Sectors) (into : Memory) {numBytes : Int}
    (hposition : 0 ≤ f.seekPosition) (hend : f.seekPosition + numBytes < 2 ^ 31) :
    f.read disk into numBytes = .ok (inside f.hdr.fileLength numBytes f.seekPosition,
      overwrite into 0 (inside f.hdr.fileLength numBytes f.seekPosition).toNat
        (f.tail disk f.seekPosition),
      f.advanced (inside f.hdr.fileLength numBytes f.seekPosition)) := by
  unfold read
  rw [readAt_inside hvalid disk into 0 hposition hend]
  rfl

theorem readTo_inside (hvalid : f.hdr.Valid) (disk : Sectors) (into : Memory) (offset : Nat)
    {numBytes : Int} (hposition : 0 ≤ f.seekPosition)
    (hend : f.seekPosition + numBytes < 2 ^ 31) :
    f.readTo disk into offset numBytes = .ok (inside f.hdr.fileLength numBytes f.seekPosition,
      overwrite into offset (inside f.hdr.fileLength numBytes f.seekPosition).toNat
        (f.tail disk f.seekPosition),
      f.advanced (inside f.hdr.fileLength numBytes f.seekPosition)) := by
  unfold readTo
  rw [read_inside hvalid disk _ hposition hend]
  simp only [bind, Except.bind]
  congr 3
  funext k
  unfold overwrite
  by_cases hbefore : k < offset
  · rw [if_pos hbefore, if_neg (by omega)]
  · have hk : offset + (k - offset) = k := by omega
    rw [if_neg hbefore]
    beta_reduce
    rw [hk]
    split
    · rw [if_pos (by omega)]
      rfl
    · rw [if_neg (by omega)]

/-- What follows a request: the rest of the file, or nothing if the request was cut. -/
theorem overwrite_chunk (into : Memory) (offset a : Nat) {b : Nat} {position : Int}
    (hposition : 0 ≤ position) :
    overwrite (overwrite into offset (inside f.hdr.fileLength a position).toNat
        (f.tail disk position)) (offset + a)
        (inside f.hdr.fileLength b (position + inside f.hdr.fileLength a position)).toNat
        (f.tail disk (position + inside f.hdr.fileLength a position)) =
      overwrite into offset (inside f.hdr.fileLength (a + b) position).toNat
        (f.tail disk position) := by
  have hadd := inside_add f.hdr.fileLength position
    (Int.natCast_nonneg a) (Int.natCast_nonneg b)
  by_cases hwhole : inside f.hdr.fileLength a position = a
  · rw [← hadd, hwhole, Int.toNat_natCast, Int.toNat_add (by omega) (inside_nonneg _ _ _),
      Int.toNat_natCast]
    refine overwrite_overwrite fun k _ => ?_
    unfold tail
    congr 1
    omega
  · rw [← hadd, inside_of_cut (Int.natCast_nonneg a) hwhole, Int.add_zero, Int.toNat_zero,
      overwrite_zero]

/-- Chunks that are read one behind the other are what is read at once. -/
theorem readChunks_inside (disk : Sectors) (chunks : List Nat) (f : OpenFile) (into : Memory)
    (offset : Nat) (hvalid : f.hdr.Valid) (hposition : 0 ≤ f.seekPosition)
    (hend : f.seekPosition + chunks.sum < 2 ^ 31) :
    readChunks disk f chunks into offset =
      .ok (inside f.hdr.fileLength chunks.sum f.seekPosition,
        overwrite into offset (inside f.hdr.fileLength chunks.sum f.seekPosition).toNat
          (f.tail disk f.seekPosition),
        f.advanced (inside f.hdr.fileLength chunks.sum f.seekPosition)) := by
  induction chunks generalizing f into offset with
  | nil =>
      have hzero : inside f.hdr.fileLength ([] : List Nat).sum f.seekPosition = 0 := inside_zero
      rw [hzero, Int.toNat_zero, overwrite_zero, advanced, Int.add_zero]
      rfl
  | cons a chunks ih =>
      rw [List.sum_cons, Nat.cast_add] at hend
      have hle := inside_le f.hdr.fileLength f.seekPosition
        (Int.natCast_nonneg a)
      have hnonneg := inside_nonneg f.hdr.fileLength a f.seekPosition
      rw [readChunks, readTo_inside hvalid disk into offset hposition (by omega)]
      simp only [bind, Except.bind]
      rw [ih (f.advanced _) _ _ hvalid (by simp only [advanced]; omega)
        (by simp only [advanced]; omega)]
      have hadd := inside_add f.hdr.fileLength f.seekPosition
        (Int.natCast_nonneg a) (Int.natCast_nonneg chunks.sum)
      rw [List.sum_cons, Nat.cast_add]
      simp only [advanced]
      rw [hadd, Int.add_assoc, hadd]
      congr 3
      exact overwrite_chunk into offset a hposition

theorem write_inside (hvalid : f.hdr.Valid) (hdistinct : f.hdr.Distinct) (disk : Sectors)
    (fresh source : Memory) (numBytes : Int) (hposition : 0 ≤ f.seekPosition)
    (hend : f.seekPosition + numBytes < 2 ^ 31) :
    ∃ disk', f.write disk fresh source numBytes =
        .ok (inside f.hdr.fileLength numBytes f.seekPosition, disk',
          f.advanced (inside f.hdr.fileLength numBytes f.seekPosition)) ∧
      Written f.hdr f.seekPosition.toNat
        (inside f.hdr.fileLength numBytes f.seekPosition).toNat source disk disk' := by
  obtain ⟨disk', hwrite, hwritten⟩ := writeAt_inside hvalid hdistinct disk fresh source
    hposition hend
  refine ⟨disk', ?_, hwritten⟩
  unfold write
  rw [hwrite]
  rfl

/-- Chunks that are written one behind the other are what is written at once. -/
theorem writeChunks_inside (fresh : Nat → Memory) (source : Memory) (chunks : List Nat)
    (f : OpenFile) (disk : Sectors) (offset : Nat) (hvalid : f.hdr.Valid)
    (hdistinct : f.hdr.Distinct) (hposition : 0 ≤ f.seekPosition)
    (hend : f.seekPosition + chunks.sum < 2 ^ 31) :
    ∃ disk', writeChunks fresh source f disk chunks offset =
        .ok (inside f.hdr.fileLength chunks.sum f.seekPosition, disk',
          f.advanced (inside f.hdr.fileLength chunks.sum f.seekPosition)) ∧
      Written f.hdr f.seekPosition.toNat
        (inside f.hdr.fileLength chunks.sum f.seekPosition).toNat
        (fun k => source (offset + k)) disk disk' := by
  induction chunks generalizing f disk offset with
  | nil =>
      have hzero : inside f.hdr.fileLength ([] : List Nat).sum f.seekPosition = 0 := inside_zero
      rw [hzero, advanced, Int.add_zero]
      exact ⟨disk, rfl, Written.zero⟩
  | cons a chunks ih =>
      rw [List.sum_cons, Nat.cast_add] at hend
      have hle := inside_le f.hdr.fileLength f.seekPosition
        (Int.natCast_nonneg a)
      have hnonneg := inside_nonneg f.hdr.fileLength a f.seekPosition
      obtain ⟨disk₁, hwrite₁, hwritten₁⟩ := write_inside hvalid hdistinct disk
        (fresh chunks.length) (fun k => source (offset + k)) a hposition (by omega)
      have hadd := inside_add f.hdr.fileLength f.seekPosition
        (Int.natCast_nonneg a) (Int.natCast_nonneg chunks.sum)
      obtain ⟨disk₂, hwrite₂, hwritten₂⟩ := ih (f.advanced _) disk₁ (offset + a) hvalid hdistinct
        (Int.add_nonneg hposition hnonneg) (by simp only [advanced]; omega)
      rw [List.sum_cons, Nat.cast_add]
      refine ⟨disk₂, ?_, ?_⟩
      · rw [writeChunks, hwrite₁]
        simp only [bind, Except.bind]
        rw [hwrite₂]
        simp only [advanced]
        rw [hadd, Int.add_assoc, hadd]
      · simp only [advanced] at hwritten₂
        by_cases hwhole : inside f.hdr.fileLength a f.seekPosition = a
        · rw [hwhole] at hadd hwritten₁ hwritten₂
          rw [← hadd, Int.toNat_add (Int.natCast_nonneg a) (inside_nonneg _ _ _)]
          rw [Int.toNat_add hposition (Int.natCast_nonneg a)] at hwritten₂
          refine hwritten₁.append hwritten₂ fun k _ => ?_
          rw [Int.toNat_natCast, Nat.add_assoc]
        · rw [inside_of_cut (Int.natCast_nonneg a) hwhole] at hadd hwritten₂
          rw [← hadd, Int.add_zero]
          exact hwritten₁.append_zero hwritten₂

end Chunks

/-- An open file is an array of bytes of fixed length: `ReadAt` copies the bytes of the
request that are inside of it, `WriteAt` replaces them and changes no other byte and no
sector of another file, and a transfer can be split into chunks. -/
theorem byteArray (f : OpenFile) (hvalid : f.hdr.Valid) (hdistinct : f.hdr.Distinct)
    (disk : Sectors) (numBytes position : Int) (hposition : 0 ≤ position)
    (hend : position + numBytes < 2 ^ 31) :
    (∀ into offset, f.readAt disk into offset numBytes position =
      .ok (inside f.hdr.fileLength numBytes position,
        overwrite into offset (inside f.hdr.fileLength numBytes position).toNat
          (f.tail disk position))) ∧
    (∀ fresh source, ∃ disk', f.writeAt disk fresh source numBytes position =
        .ok (inside f.hdr.fileLength numBytes position, disk') ∧
      Written f.hdr position.toNat (inside f.hdr.fileLength numBytes position).toNat source
        disk disk') ∧
    ∀ chunks : List Nat, (chunks.sum : Int) = numBytes →
      (∀ into, readChunks disk (f.seek position) chunks into 0 =
        (f.seek position).read disk into numBytes) ∧
      ∀ fresh freshes source, ∃ disk₁ disk₂ f',
        (f.seek position).write disk fresh source numBytes =
          .ok (inside f.hdr.fileLength numBytes position, disk₁, f') ∧
        writeChunks freshes source (f.seek position) disk chunks 0 =
          .ok (inside f.hdr.fileLength numBytes position, disk₂, f') ∧
        (∀ j : Nat, (j : Int) < f.hdr.numBytes →
          f.hdr.fileByte disk₂ j = f.hdr.fileByte disk₁ j) ∧
        ∀ s, (∀ j : Nat, (j : Int) * 128 < f.hdr.numBytes → f.hdr.dataSectors j ≠ s) →
          disk₂ s = disk₁ s := by
  refine ⟨fun into offset => readAt_inside hvalid disk into offset hposition hend,
    fun fresh source => writeAt_inside hvalid hdistinct disk fresh source hposition hend, ?_⟩
  rintro chunks rfl
  have hvalid' : (f.seek position).hdr.Valid := hvalid
  have hdistinct' : (f.seek position).hdr.Distinct := hdistinct
  constructor
  · intro into
    rw [readChunks_inside disk chunks (f.seek position) into 0 hvalid' hposition hend,
      read_inside hvalid' disk into hposition hend]
  · intro fresh freshes source
    obtain ⟨disk₁, hwrite₁, hwritten₁⟩ := write_inside hvalid' hdistinct' disk fresh source
      chunks.sum hposition hend
    obtain ⟨disk₂, hwrite₂, hwritten₂⟩ := writeChunks_inside freshes source chunks
      (f.seek position) disk 0 hvalid' hdistinct' hposition hend
    simp only [Nat.zero_add] at hwritten₂
    refine ⟨disk₁, disk₂, _, hwrite₁, hwrite₂, ?_, ?_⟩
    · intro j hj
      exact (hwritten₂.bytes j hj).trans (hwritten₁.bytes j hj).symm
    · intro s hs
      exact (hwritten₂.others s hs).trans (hwritten₁.others s hs).symm

/-- A file of 200 bytes, in sectors 5 and 7. -/
def twoSectors : OpenFile where
  hdr := FileHeader.setDataSector (FileHeader.setDataSector
    (FileHeader.setNumSectors (FileHeader.setNumBytes (fun _ => 0) 200) 2) 0 5) 1 7
  seekPosition := 0

/-- A request for 150 bytes at position 100 is cut to 100 bytes, also when it is made in
two chunks. -/
theorem byteArray_twoSectors :
    (∃ into, twoSectors.readAt (fun _ _ => 1) (fun _ => 0) 0 150 100 = .ok (100, into)) ∧
    ∃ disk' f', writeChunks (fun _ _ => 0) (fun _ => 2) (twoSectors.seek 100) (fun _ _ => 1)
      [50, 100] 0 = .ok (100, disk', f') := by
  have hbytes : twoSectors.hdr.numBytes = 200 := by decide
  have hvalid : twoSectors.hdr.Valid := by
    refine ⟨by rw [hbytes]; decide, fun j hj => ?_⟩
    rw [hbytes] at hj
    obtain rfl | rfl : j = 0 ∨ j = 1 := by omega
    · decide
    · decide
  have hdistinct : twoSectors.hdr.Distinct := by
    intro j j' hj hj' heq
    rw [hbytes] at hj hj'
    obtain rfl | rfl : j = 0 ∨ j = 1 := by omega
    · obtain rfl | rfl : j' = 0 ∨ j' = 1 := by omega
      · rfl
      · exact absurd heq (by decide)
    · obtain rfl | rfl : j' = 0 ∨ j' = 1 := by omega
      · exact absurd heq (by decide)
      · rfl
  have hinside : inside twoSectors.hdr.fileLength 150 100 = 100 := by decide
  obtain ⟨hread, -, hchunks⟩ := byteArray twoSectors hvalid hdistinct (fun _ _ => 1) 150 100
    (by decide) (by decide)
  rw [hinside] at hread hchunks
  obtain ⟨disk₁, disk₂, f', -, hwrite, -, -⟩ := (hchunks [50, 100] rfl).2 (fun _ => 0)
    (fun _ _ => 0) fun _ => 2
  exact ⟨⟨_, hread (fun _ => 0) 0⟩, disk₂, f', hwrite⟩

end OpenFile

end Filesys
end Nachos
