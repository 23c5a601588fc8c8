import Nachos.Filesys.Volumes
import Nachos.Filesys.Transfers

/-!
# The size of a new file

`Create` makes a file of the size that is asked for and records the sectors that it
took, as long as the size is one that a header can have.  `Allocate` does not look at
the size: a negative one needs no sector, and one that is too large overruns the table of
the header, where there is room on the disk.
-/

namespace Nachos
namespace Filesys

open Threads Userprog Lib

section Names

variable {s s' t : Memory}

/-- `strncmp` looks at the first characters. -/
theorem strncmpEqual_congr {n i : Nat} (h : ∀ k, i ≤ k → k < i + n → s' k = s k) :
    strncmpEqual s' t n i = strncmpEqual s t n i := by
  induction n generalizing i with
  | zero => rfl
  | succ n ih =>
      rw [strncmpEqual, strncmpEqual, h i (by omega) (by omega),
        ih fun k hle hlt => h k (by omega) (by omega)]

end Names

namespace Directory

variable {d : Directory} {name : Memory} {n : Int} {i rounds : Nat}

theorem addLoop_eq_none :
    d.addLoop name n rounds i = none ↔ ∀ j, i ≤ j → j < i + rounds → d.inUse j = true := by
  induction rounds generalizing i with
  | zero =>
      constructor
      · intro _ j hle hlt
        omega
      · intro _
        rfl
  | succ rounds ih =>
      rw [addLoop]
      by_cases hused : d.inUse i = true
      · rw [if_pos hused, ih]
        constructor
        · intro h j hle hlt
          by_cases hj : j = i
          · rw [hj]
            exact hused
          · exact h j (by omega) (by omega)
        · intro h j hle hlt
          exact h j (by omega) (by omega)
      · rw [if_neg hused]
        constructor
        · intro h
          exact absurd h (by simp)
        · intro h
          exact absurd (h i (by omega) (by omega)) hused

end Directory

/-- `Allocate` answers `FALSE` when there are too few clear sectors. -/
theorem FileHeader.allocate_false_iff {h : FileHeader} {b : BitMap} {fileSize : Int} :
    (∃ h' b', h.allocate b fileSize = .ok (false, h', b')) ↔
      (b.clearBits.card : Int) < divRoundUp fileSize sectorSize := by
  unfold FileHeader.allocate
  rw [BitMap.numClear_eq]
  by_cases hfew : (b.clearBits.card : Int) < divRoundUp fileSize sectorSize
  · simp [hfew]
  · simp only [hfew, if_false, iff_false]
    rintro ⟨h', b', hresult⟩
    split at hresult
    · exact absurd hresult (by simp)
    · exact absurd hresult (by simp)

/-- The sectors that are not marked in the free map. -/
def FileSystem.freeSectors (fs : FileSystem) : Finset Nat :=
  {s ∈ Finset.range numSectors | fs.bit s = false}

/-- `Create` has a reason not to make the file: its name is taken, the directory is full,
or there are too few free sectors for the header and the data. -/
def CreateRefused (fs : FileSystem) (name : Memory) (initialSize : Int) : Prop :=
  (∃ i, IsFile fs.directoryImage i ∧
    strncmpEqual (fs.directoryImage.name i) name fileNameMaxLen 0 = true) ∨
  (∀ i, i < numDirEntries → fs.directoryImage.inUse i = true) ∨
  (fs.freeSectors.card : Int) < 1 + max 0 (divRoundUp initialSize sectorSize)

/-- The new file is on the disk: it can be opened by its name and read, its length is
the one that was asked for, and its header records the sectors that were free and no
longer are. -/
structure Recorded (fs fs' : FileSystem) (name : Memory) (initialSize : Int) (sector : Int) :
    Prop where
  opens : ∀ fresh, fs'.openFile fresh name = .ok (some ⟨fs'.disk sector, 0⟩)
  length : FileHeader.fileLength (fs'.disk sector) = initialSize
  reads : ∀ into, ∃ into', OpenFile.readAt ⟨fs'.disk sector, 0⟩ fs'.disk into 0 initialSize 0 =
    .ok (initialSize, into')
  few : FileHeader.numSectors (fs'.disk sector) ≤ numDirect
  used : ∀ s, fs'.Used s ↔ fs.Used s ∨ s = sector ∨ ∃ j, IsData (fs'.disk sector) j s
  header_free : ¬ fs.Used sector
  data_free : ∀ j s, IsData (fs'.disk sector) j s → ¬ fs.Used s ∧ s ≠ sector
  data_once : ∀ j j' s, IsData (fs'.disk sector) j s → IsData (fs'.disk sector) j' s → j = j'

/-- What `Create` is to do: it refuses a size that a header cannot have, and records the
file that it makes. -/
def CreateMeets (fs : FileSystem) (fresh : Fresh) (name : Memory) (initialSize : Int) : Prop :=
  (maxFileSize < initialSize ∨ initialSize < 0 →
    fs.create fresh name initialSize = .ok (false, fs)) ∧
  ∀ fs', fs.create fresh name initialSize = .ok (true, fs') →
    ∃ sector, Recorded fs fs' name initialSize sector

section Outcomes

variable {fs : FileSystem} {name : Memory} {initialSize : Int}

/-- The end of `Create` refuses when there are too few sectors. -/
theorem createFile_false_iff {fresh : Fresh} {d : Directory} {b : BitMap} {sector : Int} :
    fs.createFile fresh d b sector initialSize = .ok (false, fs) ↔
      (b.clearBits.card : Int) < divRoundUp initialSize sectorSize := by
  rw [← FileHeader.allocate_false_iff (h := fresh 1)]
  constructor
  · intro h
    obtain ⟨⟨ok, hdr, b'⟩, hallocate, h⟩ := bind_eq_ok h
    cases ok with
    | false => exact ⟨hdr, b', hallocate⟩
    | true =>
        obtain ⟨disk₁, -, h⟩ := bind_eq_ok h
        obtain ⟨disk₂, -, h⟩ := bind_eq_ok h
        obtain ⟨disk₃, -, h⟩ := bind_eq_ok h
        exact absurd h (by simp)
  · rintro ⟨hdr, b', hallocate⟩
    rw [FileSystem.createFile, hallocate]
    rfl

/-- The map that is read has the free sectors of the disk. -/
theorem clearBits_eq_freeSectors {b : BitMap} (hbits : b.numBits = numSectors)
    (htest : ∀ s, s < numSectors → b.test s = fs.bit s) : b.clearBits = fs.freeSectors := by
  ext s
  rw [BitMap.mem_clearBits, FileSystem.freeSectors, Finset.mem_filter, Finset.mem_range, hbits]
  refine and_congr_right fun hs => ?_
  rw [htest s hs]

/-- A name that the directory has. -/
theorem Sound.find_ne_iff (h : Sound fs) {d : Directory}
    (hd : ∀ k, k < directoryFileSize → d k = fs.directoryImage k) (name : Memory) :
    d.find name ≠ -1 ↔ ∃ i, IsFile fs.directoryImage i ∧
      strncmpEqual (fs.directoryImage.name i) name fileNameMaxLen 0 = true := by
  have hname : ∀ i, i < numDirEntries →
      strncmpEqual (d.name i) name fileNameMaxLen 0 =
        strncmpEqual (fs.directoryImage.name i) name fileNameMaxLen 0 := by
    intro i hi
    apply strncmpEqual_congr
    intro k _ hk
    exact Directory.name_congr (entry_agree hd hi) (by omega)
  rcases h.find_cases hd name with ⟨hnone, hfind⟩ | ⟨i, hfile, hindex, hfind, hsector⟩
  · constructor
    · intro hne
      exact absurd hfind hne
    · rintro ⟨i, hfile, hequal⟩
      have hother := Directory.findIndexLoop_eq_none hnone (Nat.zero_le i)
        (by rw [Nat.zero_add]; exact hfile.1) ((isFile_congr hd).mpr hfile).2
      rw [hname i hfile.1, hequal] at hother
      exact absurd hother (by simp)
  · constructor
    · intro _
      obtain ⟨-, -, -, hequal⟩ := Directory.findIndexLoop_eq_some hindex
      rw [hname i hfile.1] at hequal
      exact ⟨i, hfile, hequal⟩
    · intro _
      unfold IsSector at hsector
      omega

/-- `Create` answers `FALSE` exactly when it has a reason. -/
theorem Sound.create_false_iff (h : Sound fs) (fresh : Fresh) :
    fs.create fresh name initialSize = .ok (false, fs) ↔ CreateRefused fs name initialSize := by
  obtain ⟨d, hfetchD, hd⟩ := h.fetchDirectory (fresh 0)
  obtain ⟨b, hfetchB, hbits, hwords, htest⟩ := h.fetchFreeMap
  have hnamed := h.find_ne_iff hd name
  unfold CreateRefused
  by_cases hfound : d.find name = -1
  case neg =>
    have hfalse : fs.create fresh name initialSize = .ok (false, fs) := by
      simp only [FileSystem.create, hfetchD, bind, Except.bind]
      exact if_pos hfound
    exact ⟨fun _ => Or.inl (hnamed.mp hfound), fun _ => hfalse⟩
  rw [create_of_find_eq hfetchD hfetchB hfound, ← hnamed, or_iff_right (not_not.mpr hfound),
    ← clearBits_eq_freeSectors hbits htest]
  rcases Nat.eq_zero_or_pos b.clearBits.card with hzero | hpos
  · -- no sector is free
    have hfind : b.find.1 = -1 := by
      rcases b.find_cases with hnone | ⟨s, hs, hclear, -⟩
      · rw [hnone]
      · have hmem := BitMap.mem_clearBits.mpr ⟨hs, hclear⟩
        rw [Finset.card_eq_zero.mp hzero] at hmem
        exact absurd hmem (by simp)
    rw [if_pos hfind, hzero]
    constructor
    · intro _
      right
      omega
    · intro _
      rfl
  · obtain ⟨s, hs, hclear, hfind⟩ := BitMap.find_of_clear hpos
    have hindex : d.findIndex name = none := by
      rcases h.find_cases hd name with ⟨hnone, -⟩ | ⟨i, -, -, hsome, hsector⟩
      · exact hnone
      · unfold IsSector at hsector
        omega
    have hcard : (b.mark s).clearBits.card = b.clearBits.card - 1 := by
      rw [BitMap.clearBits_mark hs]
      exact Finset.card_erase_of_mem (BitMap.mem_clearBits.mpr ⟨hs, hclear⟩)
    have hfull : d.add name s = none ↔
        ∀ i, i < numDirEntries → fs.directoryImage.inUse i = true := by
      rw [Directory.add, hindex]
      rw [Directory.addLoop_eq_none]
      constructor
      · intro hused i hi
        rw [← Directory.inUse_congr (entry_agree hd hi)]
        exact hused i (Nat.zero_le i) (by omega)
      · intro hused i _ hi
        rw [Directory.inUse_congr (entry_agree hd (by omega))]
        exact hused i (by omega)
    rw [hfind, if_neg (by omega), ← hfull]
    cases hadd : d.add name s with
    | none =>
        constructor
        · intro _
          exact Or.inl rfl
        · intro _
          rfl
    | some d' =>
        simp only [createFile_false_iff, hcard, reduceCtorEq, false_or]
        omega

end Outcomes

section NewFile

variable {fs : FileSystem} {sector i : Nat} {hdr : FileHeader} {name : Memory} {initialSize : Int}
  {d : Directory} {b b' : BitMap} {disk' : Sectors}
  (h : Creation fs sector hdr i name initialSize d b b')
  (hcommit : Committed fs (Function.update fs.disk sector hdr) disk' (d.filled i name sector) b')

include h hcommit

/-- The new entry is the one that has the name. -/
theorem Creation.named_iff {j : Nat}
    (hfile : IsFile (FileSystem.directoryImage { fs with disk := disk' }) j) :
    strncmpEqual ((FileSystem.directoryImage { fs with disk := disk' }).name j) name
      fileNameMaxLen 0 = true ↔ j = i := by
  constructor
  · intro hequal
    by_contra hji
    have hold := (isFile_other (h.entry_other hcommit) hji).mp hfile
    have hd := entry_agree h.directory hold.1
    have hother := h.name_new j hold.1 ((Directory.inUse_congr hd).trans hold.2)
    have hsame : strncmpEqual ((FileSystem.directoryImage { fs with disk := disk' }).name j) name
        fileNameMaxLen 0 = strncmpEqual (d.name j) name fileNameMaxLen 0 := by
      apply strncmpEqual_congr
      intro k _ hk
      rw [Directory.name_congr (h.entry_other hcommit j hold.1 hji) (by omega),
        Directory.name_congr hd (by omega)]
    rw [hsame, hother] at hequal
    exact absurd hequal (by simp)
  · rintro rfl
    refine strncmpEqual_of_stored (fun k _ hk => ?_) (by simp)
    rw [Directory.name_congr (h.entry_new hcommit) (by omega)]
    exact Directory.filled_name (by omega)

variable (hsound : Sound fs)

include hsound

/-- The directory finds the new entry. -/
theorem Creation.find_new {d' : Directory}
    (hd' : ∀ k, k < directoryFileSize →
      d' k = FileSystem.directoryImage { fs with disk := disk' } k) : d'.find name = sector := by
  have hsound' := h.sound hcommit hsound
  have hfile := h.isFile_new hcommit
  rcases hsound'.find_cases hd' name with ⟨-, hnone⟩ | ⟨j, hj, hindex, hfind, -⟩
  · exact absurd hnone ((hsound'.find_ne_iff hd' name).mpr
      ⟨i, hfile, (h.named_iff hcommit hfile).mpr rfl⟩)
  · obtain ⟨-, -, -, hequal⟩ := Directory.findIndexLoop_eq_some hindex
    have hji : j = i := by
      rw [← h.named_iff hcommit hj, ← hequal]
      apply strncmpEqual_congr
      intro k _ hk
      exact (Directory.name_congr (entry_agree hd' hj.1) (by omega)).symm
    rw [hfind, hji]
    exact h.sector_new hcommit

/-- The new file is opened by its name. -/
theorem Creation.opens (fresh : Fresh) :
    FileSystem.openFile { fs with disk := disk' } fresh name = .ok (some ⟨disk' sector, 0⟩) := by
  have hsound' := h.sound hcommit hsound
  obtain ⟨d', hfetch, hd'⟩ := hsound'.fetchDirectory (fresh 0)
  have hfind := h.find_new hcommit hsound hd'
  have hsector : IsSector sector := by
    have hlt := h.sector_lt
    exact ⟨by omega, by omega⟩
  have hnew : OpenFile.new disk' sector = .ok ⟨disk' sector, 0⟩ := by
    unfold OpenFile.new FileHeader.fetchFrom readSector
    rw [if_pos hsector]
    rfl
  simp only [FileSystem.openFile, FileSystem.lookup, hfetch, bind, Except.bind, hfind]
  rw [if_pos (by omega), hnew]

/-- What `Create` has recorded. -/
theorem Creation.recorded (hsize : 0 ≤ initialSize) :
    Recorded fs { fs with disk := disk' } name initialSize sector := by
  have hsound' := h.sound hcommit hsound
  have hhdr : disk' sector = hdr := h.newHeader hcommit hsound
  have hmax : maxFileSize = 3840 := rfl
  have hdirect : numDirect = 30 := rfl
  have hfits := h.size
  have hgood : FileHeader.Good hdr := by
    refine ⟨?_, ?_⟩
    · rw [h.header.numBytes]
      exact hfits
    · rw [h.header.numBytes]
      exact h.header.numSectors
  constructor
  case opens => exact h.opens hcommit hsound
  case length =>
    show FileHeader.numBytes (disk' sector) = initialSize
    rw [hhdr]
    exact h.header.numBytes
  case reads =>
    intro into
    show ∃ into', OpenFile.readAt ⟨disk' sector, 0⟩ disk' into 0 initialSize 0 = _
    rw [hhdr]
    have hvalid : hdr.Valid := by
      refine (hsound'.usable (.data i) hgood (fun _ _ heq => (Role.data.inj heq).2) ?_).1
      intro j s hdata
      exact (h.plays_data hcommit hsound j s).mpr hdata
    have hinside : inside (OpenFile.hdr ⟨hdr, 0⟩).fileLength initialSize 0 = initialSize := by
      have hlength : (OpenFile.hdr ⟨hdr, 0⟩).fileLength = initialSize := h.header.numBytes
      rw [hlength]
      unfold inside
      omega
    have hread : OpenFile.readAt ⟨hdr, 0⟩ disk' into 0 initialSize 0 = _ :=
      OpenFile.readAt_inside hvalid disk' into 0 (Int.le_refl 0) (by omega)
    rw [hinside] at hread
    exact ⟨_, hread⟩
  case few =>
    show FileHeader.numSectors (disk' sector) ≤ numDirect
    rw [hhdr, h.header.numSectors, divRoundUp_of_nonneg hsize]
    omega
  case used =>
    intro s
    show FileSystem.Used { fs with disk := disk' } s ↔
      fs.Used s ∨ s = sector ∨ ∃ j, IsData (disk' sector) j s
    rw [hhdr]
    by_cases hs : IsSector s
    · have hrange : 0 ≤ s ∧ s.toNat < numSectors := by
        unfold IsSector at hs
        omega
      have hbit := (hcommit.bit hrange.2).symm ▸ h.marked hrange.2
      rw [Int.toNat_of_nonneg hrange.1] at hbit
      unfold FileSystem.Used
      rw [and_iff_right hs, and_iff_right hs, hbit]
      refine or_congr_right (or_congr_left ?_)
      omega
    · constructor
      · rintro ⟨hsector, -⟩
        exact absurd hsector hs
      · rintro (⟨hsector, -⟩ | rfl | ⟨j, hdata⟩)
        · exact absurd hsector hs
        · have hlt := h.sector_lt
          exact absurd ⟨by omega, by omega⟩ hs
        · obtain ⟨n, hn, rfl, -, -⟩ := h.data hdata
          exact absurd ⟨by omega, by omega⟩ hs
  case header_free => exact h.free
  case data_free =>
    intro j s hdata
    rw [show FileSystem.disk { fs with disk := disk' } sector = hdr from hhdr] at hdata
    obtain ⟨n, -, rfl, hne, hfree⟩ := h.data hdata
    exact ⟨hfree, by omega⟩
  case data_once =>
    intro j j' s hdata hdata'
    rw [show FileSystem.disk { fs with disk := disk' } sector = hdr from hhdr] at hdata hdata'
    exact h.data_unique hdata hdata'

end NewFile

/-- On a disk whose structures agree, `Create` does what it is to do exactly when the size
is one that a header can have, or there is another reason to refuse. -/
theorem Sound.createMeets_iff {fs : FileSystem} (h : Sound fs) (fresh : Fresh) (name : Memory)
    {initialSize : Int} (hlow : -2 ^ 31 ≤ initialSize) :
    CreateMeets fs fresh name initialSize ↔
      (0 ≤ initialSize ∧ initialSize ≤ maxFileSize) ∨ CreateRefused fs name initialSize := by
  rw [← h.create_false_iff fresh]
  constructor
  · rintro ⟨hrefuses, -⟩
    by_cases hsize : 0 ≤ initialSize ∧ initialSize ≤ maxFileSize
    · exact Or.inl hsize
    · exact Or.inr (hrefuses (by omega))
  · rintro (⟨hnonneg, hsize⟩ | hfalse)
    · refine ⟨fun hout => by omega, fun fs' htrue => ?_⟩
      rcases h.create_cases fresh name hlow with
        hno | ⟨hlong, -⟩ | ⟨sector, hdr, i, d, b, b', disk', hcreation, hcommit, hyes⟩
      · rw [hno] at htrue
        exact absurd htrue (by simp)
      · omega
      · rw [hyes] at htrue
        obtain ⟨-, rfl⟩ := Prod.mk.inj (Except.ok.inj htrue)
        exact ⟨sector, hcreation.recorded hcommit h hnonneg⟩
    · refine ⟨fun _ => hfalse, fun fs' htrue => ?_⟩
      rw [hfalse] at htrue
      exact absurd htrue (by simp)

/-- In every run from a formatted disk in which no removed file is written to, `Create`
refuses the sizes that a header cannot have, and records the file that it makes, exactly
when the size is one that a header can have or there is another reason to refuse. -/
theorem createMeets_of_run (disk : Sectors) (fresh : Fresh) (fs : FileSystem) (v : Volume)
    (hformat : FileSystem.format disk fresh = .ok fs) (hrun : Volume.Run ⟨fs, []⟩ v)
    (fresh' : Fresh) (name : Memory) (initialSize : Word) :
    CreateMeets v.fs fresh' name initialSize.toInt ↔
      (0 ≤ initialSize.toInt ∧ initialSize.toInt ≤ maxFileSize) ∨
        CreateRefused v.fs name initialSize.toInt :=
  ((Volume.steady_of_format hformat).run hrun).sound.createMeets_iff fresh' name
    (by have hlow := BitVec.le_toInt initialSize; omega)

/-- A file of 200 bytes is created beside another one. -/
theorem createMeets_of_run_second :
    ∃ fs v, FileSystem.format (fun _ _ => 0) (fun _ _ => 0) = .ok fs ∧
      Volume.Run ⟨fs, []⟩ v ∧ CreateMeets v.fs (fun _ _ => 0) (shortName 98) 200 := by
  obtain ⟨fs, v, hformat, hrun, -⟩ := exists_run (cleanCalls [.create (shortName 97) 1])
    (P := fun _ => True) (by decide +kernel)
  refine ⟨fs, v, hformat, hrun, ?_⟩
  exact (createMeets_of_run _ _ fs v hformat hrun _ _ 200).mpr (Or.inl (by decide))

/-- On a new disk a file of 3841 bytes needs 31 sectors, and the table of the header has
room for 30. -/
theorem create_too_long :
    ¬ ∀ (disk : Sectors) (fresh : Fresh) (fs : FileSystem) (v : Volume),
      FileSystem.format disk fresh = .ok fs → Reach Volume.step (fun _ _ => True) ⟨fs, []⟩ v →
      ∀ (fresh' : Fresh) (name : Memory) (initialSize : Word),
        CreateMeets v.fs fresh' name initialSize.toInt := by
  intro hall
  obtain ⟨fs, v, hformat, hrun, hstop⟩ := exists_run (cleanCalls [])
    (P := fun v => (v.fs.create (fun _ _ => 0) (shortName 97) 3841).isOk = false)
    (by decide +kernel)
  obtain ⟨hrefuses, -⟩ := hall _ _ fs v hformat (hrun.mono fun _ _ _ => trivial) (fun _ _ => 0)
    (shortName 97) 3841
  have hfalse := hrefuses (Or.inl (by decide))
  have hsize : BitVec.toInt (3841 : Word) = 3841 := by decide
  rw [hsize] at hfalse
  rw [hfalse] at hstop
  exact absurd hstop (by simp [Except.isOk, Except.toBool])

end Filesys
end Nachos
