import Nachos.Filesys.ArchiveStops

/-!
# Copying a file and printing it

This module embeds `Copy` and `Print` of `filesys/fstest.cc`.  Both go through a buffer of
`TransferSize` bytes, and leave their loop when a transfer is empty; the loops are given a number
of rounds, and answer `none` if it is too small.  The UNIX file is the list of its bytes, or
`none` if it cannot be opened.
-/

namespace Nachos
namespace Filesys

open Threads Userprog Lib

/-- `TransferSize`. -/
def transferSize : Nat := 10

/-- How `Copy` ends. -/
inductive CopyEnd
  /-- `"Copy: couldn't open input file"` -/
  | noInput
  /-- `"Copy: couldn't create output file"` -/
  | noOutput
  | copied
  deriving DecidableEq

/-- The buffer behind `fread(buffer, sizeof(char), TransferSize, fp)`, when `left` is what is
left of the file. -/
def fread (left : List Byte) (buffer : Memory) : Memory :=
  fun k => if k < min transferSize left.length then left.getD k 0 else buffer k

/-- The loop of `Copy`; `fresh n` is what the buffer of `Write` holds with `n` rounds to go. -/
def copyLoop (fresh : Fresh) : Nat → List Byte → Memory → OpenFile → Sectors →
    Except Stop (Option Sectors)
  | 0, _, _, _, _ => .ok none
  | rounds + 1, left, buffer, openFile, disk =>
      let amountRead := min transferSize left.length
      if amountRead > 0 then do
        let (_, disk, openFile) ← openFile.write disk (fresh rounds) (fread left buffer) amountRead
        copyLoop fresh rounds (left.drop transferSize) (fread left buffer) openFile disk
      else .ok (some disk)

/-- The loop of `Print`, and what it has printed. -/
def printLoop (disk : Sectors) : Nat → Memory → OpenFile → List Byte →
    Except Stop (Option (List Byte))
  | 0, _, _, _ => .ok none
  | rounds + 1, buffer, openFile, printed => do
      let (amountRead, buffer, openFile) ← openFile.read disk buffer transferSize
      if amountRead > 0 then
        printLoop disk rounds buffer openFile
          (printed ++ (List.range amountRead.toNat).map buffer)
      else .ok (some printed)

namespace FileSystem

/-- `Copy`.  The new memory of its calls is that of `fresh`, in their order. -/
def copy (fs : FileSystem) (fresh : Nat → Fresh) (rounds : Nat) (source : Option (List Byte))
    (toName : Memory) : Except Stop (Option (CopyEnd × FileSystem)) :=
  match source with
  | none => .ok (some (.noInput, fs))
  | some bytes => do
      let (ok, fs) ← fs.create (fresh 0) toName bytes.length
      if ok then
        match ← fs.openFile (fresh 1) toName with
        | none => .error .assertFailed
        | some openFile => do
            let disk ← copyLoop (fresh 3) rounds bytes (fresh 2 0) openFile fs.disk
            .ok (disk.map fun disk => (.copied, { fs with disk := disk }))
      else .ok (some (.noOutput, fs))

/-- `Print`: what it prints of the file, or `"Print: unable to open file"`. -/
def print (fs : FileSystem) (fresh : Nat → Fresh) (rounds : Nat) (name : Memory) :
    Except Stop (Option (Option (List Byte))) := do
  match ← fs.openFile (fresh 0) name with
  | none => .ok (some none)
  | some openFile =>
      let printed ← printLoop fs.disk rounds (fresh 1 0) openFile []
      .ok (printed.map some)

end FileSystem

section Loops

variable {f : OpenFile} {disk : Sectors} {rounds : Nat}

/-- The loop of `Copy` puts the bytes where the file is. -/
theorem copyLoop_ok (fresh : Fresh) (left : List Byte) (buffer : Memory) (f : OpenFile)
    (disk : Sectors) (hvalid : f.hdr.Valid) (hdistinct : f.hdr.Distinct)
    (hposition : 0 ≤ f.seekPosition)
    (hfits : f.seekPosition + left.length ≤ max f.seekPosition f.hdr.numBytes)
    (hrounds : left.length < rounds) :
    ∃ disk', copyLoop fresh rounds left buffer f disk = .ok (some disk') ∧
      Written f.hdr f.seekPosition.toNat left.length (fun k => left.getD k 0) disk disk' := by
  induction rounds generalizing left buffer f disk with
  | zero => omega
  | succ rounds ih =>
      have hsize := hvalid.size
      have hmax : maxFileSize = 3840 := rfl
      rw [copyLoop]
      cases left with
      | nil => exact ⟨disk, rfl, Written.zero⟩
      | cons x xs =>
          obtain ⟨a, ha⟩ : ∃ a, a = min transferSize (x :: xs).length := ⟨_, rfl⟩
          have hten : transferSize = 10 := rfl
          have hlength : (x :: xs).length = xs.length + 1 := rfl
          have hdrop : ((x :: xs).drop transferSize).length = (x :: xs).length - transferSize :=
            List.length_drop
          have hinside : inside f.hdr.fileLength a f.seekPosition = a := by
            unfold inside FileHeader.fileLength
            omega
          obtain ⟨disk₁, hwrite, hwritten⟩ := OpenFile.write_inside hvalid hdistinct disk
            (fresh rounds) (fread (x :: xs) buffer) a hposition (by omega)
          rw [hinside] at hwrite hwritten
          obtain ⟨disk₂, hloop, hrest⟩ := ih ((x :: xs).drop transferSize)
            (fread (x :: xs) buffer) (f.advanced a) disk₁ hvalid hdistinct
            (Int.add_nonneg hposition (by omega)) (by simp only [OpenFile.advanced]; omega)
            (by omega)
          refine ⟨disk₂, ?_, ?_⟩
          · simp only [← ha]
            rw [if_pos (by omega), hwrite]
            exact hloop
          · -- the first chunk, and the others behind it
            have hsplit : (x :: xs).length = a + ((x :: xs).drop transferSize).length := by omega
            have hchunk : Written f.hdr f.seekPosition.toNat a (fun k => (x :: xs).getD k 0)
                disk disk₁ := by
              refine ⟨fun j hj => ?_, hwritten.others⟩
              rw [hwritten.bytes j hj, Int.toNat_natCast]
              refine congrFun (overwrite_congr fun k hk => ?_) j
              rw [fread, if_pos (by omega)]
            rw [hsplit]
            have hstart : (f.advanced a).seekPosition.toNat = f.seekPosition.toNat + a := by
              simp only [OpenFile.advanced]
              omega
            rw [hstart] at hrest
            refine hchunk.append hrest fun k hk => ?_
            rw [List.getD_eq_getElem?_getD, List.getD_eq_getElem?_getD, List.getElem?_drop,
              show transferSize + k = a + k by omega]

/-- The loop of `Print` prints the rest of the file. -/
theorem printLoop_ok (buffer : Memory) (f : OpenFile) (printed : List Byte) (hvalid : f.hdr.Valid)
    (hposition : 0 ≤ f.seekPosition) (hend : f.seekPosition ≤ max 0 f.hdr.numBytes)
    (hrounds : f.hdr.numBytes < f.seekPosition + rounds) (hround : 0 < rounds) :
    printLoop disk rounds buffer f printed =
      .ok (some (printed ++ (f.hdr.bytes disk).drop f.seekPosition.toNat)) := by
  induction rounds generalizing buffer f printed with
  | zero => omega
  | succ rounds ih =>
      have hsize := hvalid.size
      have hmax : maxFileSize = 3840 := rfl
      have hten : transferSize = 10 := rfl
      obtain ⟨r, hr⟩ : ∃ r, r = inside f.hdr.fileLength transferSize f.seekPosition := ⟨_, rfl⟩
      have hread := OpenFile.read_inside hvalid disk buffer hposition
        (show f.seekPosition + (transferSize : Int) < 2 ^ 31 by omega)
      rw [← hr] at hread
      unfold inside FileHeader.fileLength at hr
      rw [printLoop, hread]
      show (if r > 0 then _ else _) = _
      by_cases hmore : r > 0
      · rw [if_pos hmore, ih _ (f.advanced r) _ hvalid (by simp only [OpenFile.advanced]; omega)
          (by simp only [OpenFile.advanced]; omega) (by simp only [OpenFile.advanced]; omega)
          (by omega)]
        -- what was printed now is the front of the rest
        obtain ⟨hbytes, -⟩ := OpenFile.readAt_answer hvalid
          (OpenFile.readAt_inside hvalid disk buffer 0 hposition
            (show f.seekPosition + (transferSize : Int) < 2 ^ 31 by omega))
        have hfront : (List.range r.toNat).map
            (overwrite buffer 0 r.toNat (f.tail disk f.seekPosition)) =
              ((f.hdr.bytes disk).drop f.seekPosition.toNat).take transferSize := by
          rw [portion, if_pos hposition] at hbytes
          rw [hr]
          exact hbytes
        have hadvanced : (f.advanced r).seekPosition.toNat = f.seekPosition.toNat + r.toNat := by
          simp only [OpenFile.advanced]
          omega
        have hrest : ((f.hdr.bytes disk).drop f.seekPosition.toNat).drop transferSize =
            (f.hdr.bytes disk).drop (f.seekPosition.toNat + r.toNat) := by
          rw [List.drop_drop]
          by_cases hwhole : r = transferSize
          · rw [hwhole, Int.toNat_natCast]
          · rw [List.drop_eq_nil_of_le, List.drop_eq_nil_of_le]
            · rw [FileHeader.bytes_length]
              omega
            · rw [FileHeader.bytes_length]
              omega
        rw [hfront, hadvanced, show (f.advanced r).hdr = f.hdr from rfl, ← hrest,
          List.append_assoc, List.take_append_drop]
      · rw [if_neg hmore, List.drop_eq_nil_of_le, List.append_nil]
        rw [FileHeader.bytes_length]
        omega

end Loops

section Copies

variable {v : Volume} {s : FileStore StoredName Byte} {rounds : Nat} {toName name : Memory}
  {bytes : List Byte}

/-- `Print` prints what the file holds. -/
theorem Represents.print (hv : Represents v s) (fresh : Nat → Fresh) (name : Memory)
    (hrounds : maxFileSize < rounds) : v.fs.print fresh rounds name =
      .ok (some (if storedName name ∈ s.names then some (s.content (storedName name))
        else none)) := by
  rcases hv.holds.sound.openFile_cases (fresh 0) name with
    ⟨hnone, -, hnull⟩ | ⟨i, hi, hname, -, hopen⟩
  · rw [← hv.holds.names] at hnone
    rw [if_neg hnone, FileSystem.print, hnull]
    rfl
  · have hmem : storedName name ∈ s.names := by
      rw [hv.holds.names, mem_names]
      exact ⟨i, hi, hname⟩
    have hvalid := (hv.holds.sound.headerAt_usable hi).1
    have hsize := hvalid.size
    have hprinted : printLoop v.fs.disk rounds (fresh 1 0) ⟨v.fs.headerAt i, 0⟩ [] = _ :=
      printLoop_ok _ _ [] hvalid (Int.le_refl 0) (by simp only; omega) (by simp only; omega)
        (by omega)
    rw [if_pos hmem, FileSystem.print, hopen]
    show (printLoop v.fs.disk rounds (fresh 1 0) ⟨v.fs.headerAt i, 0⟩ [] >>= _) = _
    rw [hprinted, ← hname, hv.holds.content i hi]
    rfl

/-- The bytes of a buffer, read one by one. -/
theorem map_getD_range (bytes : List Byte) :
    (List.range bytes.length).map (fun k => bytes.getD k 0) = bytes := by
  apply List.ext_getElem?
  intro k
  rw [List.getElem?_map]
  by_cases hk : k < bytes.length
  · rw [List.getElem?_range hk, Option.map_some, List.getD_eq_getElem?_getD,
      List.getElem?_eq_getElem hk, Option.getD_some]
  · rw [List.getElem?_eq_none (by rw [List.length_range]; omega),
      List.getElem?_eq_none (by omega), Option.map_none]

/-- A file that is written from its front to its end has new bytes. -/
theorem Represents.replaced (hv : Represents v s) {i : Nat} (hi : i ∈ v.fs.entries)
    {disk' : Sectors} (hlength : (v.fs.headerAt i).numBytes.toNat = bytes.length)
    (hwritten : Written (v.fs.headerAt i) (0 : Int).toNat bytes.length
      (fun k => bytes.getD k 0) v.fs.disk disk') :
    Represents { v with fs := { v.fs with disk := disk' } } (s.put (v.fs.nameAt i) bytes 0) := by
  have hcount : (bytes.length : Int) =
      inside (v.fs.headerAt i).fileLength (bytes.length : Int) 0 := by
    unfold inside FileHeader.fileLength
    omega
  have hbytes := bytes_written hwritten hcount
  rw [Int.toNat_natCast, map_getD_range] at hbytes
  refine hv.written hi hwritten.others ?_
  rw [if_pos (Int.le_refl 0)]
  exact hbytes

/-- What `Copy` does: it makes a file of these bytes, or refuses to. -/
theorem Represents.copy (hv : Represents v s) (fresh : Nat → Fresh) (toName : Memory)
    (hlength : bytes.length ≤ maxFileSize) (hrounds : bytes.length < rounds) :
    (CreateRefused v.fs toName bytes.length ∧
      v.fs.copy fresh rounds (some bytes) toName = .ok (some (.noOutput, v.fs))) ∨
    (¬ CreateRefused v.fs toName bytes.length ∧ ∃ fs',
      v.fs.copy fresh rounds (some bytes) toName = .ok (some (.copied, fs')) ∧
      Represents { v with fs := fs' } (s.insert (storedName toName) bytes.length bytes)) := by
  have hfalse : v.fs.create (fresh 0) toName bytes.length = .ok (false, v.fs) ↔
      CreateRefused v.fs toName bytes.length := hv.holds.sound.create_false_iff (fresh 0)
  rcases hv.holds.sound.create_cases (fresh 0) toName
      (show -2 ^ 31 ≤ (bytes.length : Int) by omega) with
    hno | ⟨hlong, -⟩ | ⟨sector, hdr, i, d, b, b', disk', -, -, hyes⟩
  · refine Or.inl ⟨hfalse.mp hno, ?_⟩
    rw [FileSystem.copy, hno]
    rfl
  · omega
  · refine Or.inr ⟨fun hrefused => ?_, ?_⟩
    · exact absurd ((hfalse.mpr hrefused).symm.trans hyes) (by simp)
    -- The new file holds some bytes of the right number, which the loop replaces.
    generalize ({ v.fs with disk := disk' } : FileSystem) = fs₁ at hyes
    obtain ⟨s₁, hdoes, hv₁⟩ := hv.create (by omega) hyes
    obtain ⟨old, hold, rfl⟩ : ∃ old : List Byte, old.length = bytes.length ∧
        s₁ = s.insert (storedName toName) bytes.length old := by
      cases hdoes with
      | created _ _ hsize => exact ⟨_, by simpa using hsize, rfl⟩
    rcases hv₁.holds.sound.openFile_cases (fresh 1) toName with
      ⟨hnone, -, -⟩ | ⟨j, hj, hname, -, hopen⟩
    · rw [← hv₁.holds.names] at hnone
      exact absurd (Finset.mem_insert_self ..) hnone
    obtain ⟨hvalid, hdistinct⟩ := hv₁.holds.sound.headerAt_usable hj
    have hcontent := hv₁.holds.content j hj
    rw [hname, FileStore.insert_content] at hcontent
    have hbytes : (fs₁.headerAt j).numBytes.toNat = bytes.length := by
      rw [← hold, hcontent]
      exact FileHeader.bytes_length.symm
    obtain ⟨disk₂, hloop, hwritten⟩ := copyLoop_ok (fresh 3) bytes (fresh 2 0)
      ⟨fs₁.headerAt j, 0⟩ fs₁.disk hvalid hdistinct (Int.le_refl 0) (by simp only; omega) hrounds
    refine ⟨{ fs₁ with disk := disk₂ }, ?_, ?_⟩
    · rw [FileSystem.copy, hyes]
      show (fs₁.openFile (fresh 1) toName >>= _) = _
      rw [hopen]
      show (copyLoop (fresh 3) rounds bytes (fresh 2 0) _ fs₁.disk >>= _) = _
      rw [hloop]
      rfl
    · have hput := hv₁.replaced hj hbytes hwritten
      rw [hname, FileStore.insert_put hold.symm] at hput
      exact hput

end Copies

section Runs

variable {disk : Sectors} {format : Fresh} {fs : FileSystem} {v : Volume} {rounds : Nat}
  {events : List (StoreEvent StoredName Byte)}

/-- A file that is copied to the disk is printed as it was, and every other file is printed as
before; if it cannot be created, nothing is changed. -/
theorem copied_prints (hformat : FileSystem.format disk format = .ok fs)
    (hrun : Volume.History ⟨fs, []⟩ events v) {bytes : List Byte}
    (hlength : bytes.length ≤ maxFileSize) (hrounds : maxFileSize < rounds)
    (fresh : Nat → Fresh) (toName : Memory) :
    (CreateRefused v.fs toName bytes.length ∧
      v.fs.copy fresh rounds (some bytes) toName = .ok (some (.noOutput, v.fs))) ∨
    (¬ CreateRefused v.fs toName bytes.length ∧ ∃ fs',
      v.fs.copy fresh rounds (some bytes) toName = .ok (some (.copied, fs')) ∧
      (∀ fresh', fs'.print fresh' rounds toName = .ok (some (some bytes))) ∧
      ∀ fresh' name, storedName name ≠ storedName toName →
        fs'.print fresh' rounds name = v.fs.print fresh' rounds name) := by
  obtain ⟨s, hs⟩ := represents_of_history hformat hrun
  rcases hs.copy fresh toName hlength (show bytes.length < rounds by omega) with
    hrefused | ⟨hroom, fs', hcopy, hs'⟩
  · exact Or.inl hrefused
  · refine Or.inr ⟨hroom, fs', hcopy, fun fresh' => ?_, fun fresh' name hother => ?_⟩
    · rw [hs'.print fresh' toName hrounds, if_pos (FileStore.mem_insert.mpr (Or.inl rfl)),
        FileStore.insert_content]
    · rw [hs'.print fresh' name hrounds, hs.print fresh' name hrounds,
        FileStore.insert_content_of_ne hother]
      simp only [FileStore.mem_insert, hother, false_or]

/-- Three bytes are copied to a new disk. -/
theorem copied_prints_new : ∃ fs fs', FileSystem.format (fun _ _ => 0) (fun _ _ => 0) = .ok fs ∧
    fs.copy (fun _ _ _ => 0) 4000 (some [120, 121, 122]) (shortName 97) =
      .ok (some (.copied, fs')) ∧
    fs'.print (fun _ _ _ => 0) 4000 (shortName 97) = .ok (some (some [120, 121, 122])) := by
  obtain ⟨fs, hformat, -⟩ := format_ok (fun _ _ => 0) (fun _ _ => 0)
  have hlength : [120, 121, (122 : Byte)].length ≤ maxFileSize := by decide
  have hrounds : maxFileSize < 4000 := by decide
  rcases copied_prints hformat .refl hlength hrounds (fun _ _ _ => 0) (shortName 97) with
    ⟨hrefused, -⟩ | ⟨-, fs', hcopy, hprint, -⟩
  · -- a new disk has room
    have hroom := (represents_of_format hformat).holds.refused_iff.mp hrefused
    refine absurd hroom ?_
    unfold FileStore.Room FileStore.taken FileStore.empty
    rw [not_or, not_not]
    refine ⟨Finset.notMem_empty _, by decide, ?_⟩
    rw [Finset.sum_empty]
    decide
  · exact ⟨fs, fs', hformat, hcopy, hprint _⟩

end Runs

end Filesys
end Nachos
