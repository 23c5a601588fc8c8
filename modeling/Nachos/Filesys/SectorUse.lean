import Nachos.Filesys.FileSystem
import Nachos.Lib.Ownership

/-!
# Every sector is used in one way

The free map and the directory are files of the file system itself.  `Sound` says that
what they hold on the disk, and the headers that the directory leads to, agree: the
sectors whose bit is set are used in one way each, and the others are not used.
`Create` grants free sectors to a new file, `Remove` takes them back, and writing to a
file touches its data sectors only.
-/

namespace Nachos
namespace Filesys

open Threads Userprog Lib

/-- The number of bytes of the free map. -/
def freeMapBytes : Nat := 128

namespace FileSystem

/-- The table of the directory, as it is on the disk. -/
def directoryImage (fs : FileSystem) : Directory :=
  fun k => fs.directoryFile.hdr.fileByte fs.disk k

/-- The free map, as it is on the disk. -/
def mapImage (fs : FileSystem) : Memory :=
  fun k => fs.freeMapFile.hdr.fileByte fs.disk k

/-- A bit of the free map. -/
def bit (fs : FileSystem) (s : Nat) : Bool :=
  (fs.mapImage.loadInt (4 * (s / bitsInWord))).getLsbD (s % bitsInWord)

/-- The sector is marked in the free map. -/
def Used (fs : FileSystem) (s : Int) : Prop := IsSector s ∧ fs.bit s.toNat = true

end FileSystem

/-- A header of a file that is not too long, with a sector for each of its bytes. -/
structure FileHeader.Good (h : FileHeader) : Prop where
  size : h.numBytes ≤ maxFileSize
  numSectors : h.numSectors = divRoundUp h.numBytes sectorSize

theorem FileHeader.Good.isData_iff {h : FileHeader} (hgood : h.Good) {j : Nat} {s : Int} :
    IsData h j s ↔ (j : Int) * 128 < h.numBytes ∧ h.dataSectors j = s := by
  unfold IsData
  rw [hgood.numSectors, lt_divRoundUp]

/-- The structures on the disk agree. -/
structure Sound (fs : FileSystem) : Prop where
  mapHdr : fs.freeMapFile.hdr = fs.disk freeMapSector
  dirHdr : fs.directoryFile.hdr = fs.disk directorySector
  mapSize : fs.freeMapFile.hdr.numBytes = freeMapBytes
  dirSize : fs.directoryFile.hdr.numBytes = directoryFileSize
  mapGood : fs.freeMapFile.hdr.Good
  dirGood : fs.directoryFile.hdr.Good
  fileGood : ∀ i, IsFile fs.directoryImage i →
    FileHeader.Good (fs.disk (fs.directoryImage.sector i))
  exclusive : Exclusive fs.Used (Plays fs.disk fs.directoryImage)
  names : ∀ i j, IsFile fs.directoryImage i → IsFile fs.directoryImage j → i ≠ j →
    ∃ k, k < fileNameMaxLen ∧ fs.directoryImage.name i k ≠ fs.directoryImage.name j k

section Fetching

variable {fs : FileSystem} {f : OpenFile} {hdr : FileHeader}

/-- A file whose data sectors play roles of their own can be read and written. -/
theorem Sound.usable (h : Sound fs) (role : Nat → Role) (hgood : hdr.Good)
    (hrole : ∀ j j', role j = role j' → j = j')
    (hplays : ∀ j s, IsData hdr j s → Plays fs.disk fs.directoryImage (role j) s) :
    hdr.Valid ∧ hdr.Distinct := by
  constructor
  · refine ⟨hgood.size, fun j hj => ?_⟩
    have hdata : IsData hdr j (hdr.dataSectors j) := hgood.isData_iff.mpr ⟨hj, rfl⟩
    exact ((h.exclusive.used_iff _).mpr ⟨_, hplays j _ hdata⟩).1
  · intro j j' hj hj' heq
    have hdata : IsData hdr j (hdr.dataSectors j) := hgood.isData_iff.mpr ⟨hj, rfl⟩
    have hdata' : IsData hdr j' (hdr.dataSectors j) := hgood.isData_iff.mpr ⟨hj', heq.symm⟩
    exact hrole j j' (h.exclusive.unique _ _ _ (hplays j _ hdata) (hplays j' _ hdata'))

theorem Sound.mapPlays (h : Sound fs) (j : Nat) (s : Int) (hdata : IsData fs.freeMapFile.hdr j s) :
    Plays fs.disk fs.directoryImage (.freeMapData j) s := by
  rw [h.mapHdr] at hdata
  exact hdata

theorem Sound.dirPlays (h : Sound fs) (j : Nat) (s : Int)
    (hdata : IsData fs.directoryFile.hdr j s) :
    Plays fs.disk fs.directoryImage (.directoryData j) s := by
  rw [h.dirHdr] at hdata
  exact hdata

theorem Sound.mapUsable (h : Sound fs) :
    fs.freeMapFile.hdr.Valid ∧ fs.freeMapFile.hdr.Distinct :=
  h.usable .freeMapData h.mapGood (fun _ _ heq => Role.freeMapData.inj heq) h.mapPlays

theorem Sound.dirUsable (h : Sound fs) :
    fs.directoryFile.hdr.Valid ∧ fs.directoryFile.hdr.Distinct :=
  h.usable .directoryData h.dirGood (fun _ _ heq => Role.directoryData.inj heq) h.dirPlays

/-- What is read from a file that is read whole. -/
theorem readAt_whole (hvalid : f.hdr.Valid) {n : Nat} (hsize : f.hdr.numBytes = n)
    (disk : Sectors) (into : Memory) :
    ∃ r into', f.readAt disk into 0 n 0 = .ok (r, into') ∧
      ∀ k, k < n → into' k = f.hdr.fileByte disk k := by
  have hmax : maxFileSize = 3840 := rfl
  have hint : intMax = 2147483647 := rfl
  have hbound := hvalid.size
  obtain ⟨into', hread, hinto⟩ := OpenFile.readAt_ok hvalid disk into 0 n 0
    (Int.le_refl 0) (by omega)
  refine ⟨_, into', hread, fun k hk => ?_⟩
  have hcount : f.count n 0 = n := by
    unfold OpenFile.count OpenFile.cut FileHeader.fileLength
    rw [hsize, if_neg (by omega), if_neg (by omega)]
    rfl
  rw [hinto, hcount, if_pos (by omega)]
  simp

/-- What a file holds that is written whole. -/
theorem writeAt_whole (hvalid : f.hdr.Valid) (hdistinct : f.hdr.Distinct)
    {n : Nat} (hsize : f.hdr.numBytes = n) (disk : Sectors) (fresh source : Memory) :
    ∃ r disk', f.writeAt disk fresh source n 0 = .ok (r, disk') ∧
      (∀ s, (∀ j : Nat, (j : Int) * 128 < f.hdr.numBytes → f.hdr.dataSectors j ≠ s) →
        disk' s = disk s) ∧
      ∀ k, k < n → f.hdr.fileByte disk' k = source k := by
  have hmax : maxFileSize = 3840 := rfl
  have hint : intMax = 2147483647 := rfl
  have hbound := hvalid.size
  obtain ⟨disk', hwrite, hframe, hbytes⟩ := OpenFile.writeAt_ok hvalid hdistinct disk fresh
    source n 0 (Int.le_refl 0) (by omega)
  refine ⟨_, disk', hwrite, hframe, fun k hk => ?_⟩
  have hcount : f.count n 0 = n := by
    unfold OpenFile.count OpenFile.cut FileHeader.fileLength
    rw [hsize, if_neg (by omega), if_neg (by omega)]
    rfl
  rw [hbytes k (by omega), hcount, if_pos (by simpa using hk)]
  simp

/-- The map that is read has the bits of the disk. -/
theorem Sound.fetchFreeMap (h : Sound fs) :
    ∃ b, fs.fetchFreeMap = .ok b ∧ b.numBits = numSectors ∧ b.map.length = 32 ∧
      ∀ s, s < numSectors → b.test s = fs.bit s := by
  obtain ⟨r, into, hread, hinto⟩ := readAt_whole h.mapUsable.1 h.mapSize fs.disk
    (BitMap.new numSectors).image
  refine ⟨BitMap.ofImage numSectors into, ?_, rfl, ?_, fun s hs => ?_⟩
  · have hsize : (BitMap.new numSectors).imageSize = freeMapBytes := by decide
    unfold FileSystem.fetchFreeMap BitMap.fetchFrom
    rw [hsize, hread]
    rfl
  · simp [BitMap.ofImage, numSectors, Userprog.divRoundUp, bitsInWord]
  · rw [BitMap.test_ofImage hs, FileSystem.bit]
    congr 1
    apply loadInt_congr
    intro k hle hlt
    refine hinto k ?_
    unfold numSectors bitsInWord freeMapBytes at *
    omega

/-- The directory that is read is the one of the disk. -/
theorem Sound.fetchDirectory (h : Sound fs) (fresh : Memory) :
    ∃ d, fs.fetchDirectory fresh = .ok d ∧
      ∀ k, k < directoryFileSize → d k = fs.directoryImage k := by
  obtain ⟨r, into, hread, hinto⟩ := readAt_whole h.dirUsable.1 h.dirSize fs.disk
    (Directory.new fresh)
  refine ⟨into, ?_, hinto⟩
  unfold FileSystem.fetchDirectory Directory.fetchFrom
  rw [hread]
  rfl

end Fetching

section Entries

variable {d d' : Directory} {i : Nat}

/-- Tables that agree have the same entries. -/
theorem entry_agree (h : ∀ k, k < directoryFileSize → d' k = d k) (hi : i < numDirEntries) :
    ∀ k, entrySize * i ≤ k → k < entrySize * i + entrySize → d' k = d k := by
  intro k _ hlt
  apply h
  unfold directoryFileSize numDirEntries entrySize at *
  omega

theorem isFile_congr (h : ∀ k, k < directoryFileSize → d' k = d k) :
    IsFile d' i ↔ IsFile d i := by
  unfold IsFile
  constructor
  · rintro ⟨hi, hused⟩
    exact ⟨hi, (Directory.inUse_congr (entry_agree h hi)) ▸ hused⟩
  · rintro ⟨hi, hused⟩
    exact ⟨hi, (Directory.inUse_congr (entry_agree h hi)).trans hused⟩

theorem plays_congr {disk : Sectors} (h : ∀ k, k < directoryFileSize → d' k = d k) {r : Role}
    {s : Int} : Plays disk d' r s ↔ Plays disk d r s := by
  have hsector : ∀ {i}, IsFile d i → d'.sector i = d.sector i := fun hfile =>
    Directory.sector_congr (entry_agree h hfile.1)
  cases r with
  | header i =>
      simp only [Plays]
      rw [isFile_congr h]
      constructor
      · rintro ⟨hfile, hs⟩
        exact ⟨hfile, hsector hfile ▸ hs⟩
      · rintro ⟨hfile, hs⟩
        exact ⟨hfile, (hsector hfile).trans hs⟩
  | data i j =>
      simp only [Plays]
      rw [isFile_congr h]
      constructor
      · rintro ⟨hfile, hs⟩
        exact ⟨hfile, hsector hfile ▸ hs⟩
      · rintro ⟨hfile, hs⟩
        refine ⟨hfile, ?_⟩
        rw [hsector hfile]
        exact hs
  | _ => exact Iff.rfl

/-- The roles of a file. -/
def FileRole (i : Nat) (r : Role) : Prop := r = .header i ∨ ∃ j, r = .data i j

theorem isFile_other {j : Nat} (hentry : ∀ j, j < numDirEntries → j ≠ i → ∀ k, entrySize * j ≤ k →
    k < entrySize * j + entrySize → d' k = d k) (hji : j ≠ i) : IsFile d' j ↔ IsFile d j := by
  unfold IsFile
  refine and_congr_right fun hj => ?_
  rw [Directory.inUse_congr (hentry j hj hji)]

/-- Where only entry `i` of the directory is changed and the headers stay, other roles
are played as before. -/
theorem plays_other {disk disk' : Sectors} (hentry : ∀ j, j < numDirEntries → j ≠ i → ∀ k,
      entrySize * j ≤ k → k < entrySize * j + entrySize → d' k = d k)
    (hkeep : ∀ r s, Plays disk d r s → (∀ j, r ≠ .freeMapData j) → (∀ j, r ≠ .directoryData j) →
      disk' s = disk s) {r : Role} {s : Int} (hr : ¬ FileRole i r) :
    Plays disk' d' r s ↔ Plays disk d r s := by
  cases r with
  | freeMapHeader => exact Iff.rfl
  | directoryHeader => exact Iff.rfl
  | freeMapData j => simp only [Plays, hkeep .freeMapHeader freeMapSector rfl (by simp) (by simp)]
  | directoryData j =>
      simp only [Plays, hkeep .directoryHeader directorySector rfl (by simp) (by simp)]
  | header j =>
      have hji : j ≠ i := by
        rintro rfl
        exact hr (Or.inl rfl)
      simp only [Plays]
      rw [isFile_other hentry hji]
      refine and_congr_right fun hfile => ?_
      rw [Directory.sector_congr (hentry j hfile.1 hji)]
  | data j k =>
      have hji : j ≠ i := by
        rintro rfl
        exact hr (Or.inr ⟨k, rfl⟩)
      simp only [Plays]
      rw [isFile_other hentry hji]
      refine and_congr_right fun hfile => ?_
      rw [Directory.sector_congr (hentry j hfile.1 hji),
        hkeep (.header j) _ ⟨hfile, rfl⟩ (by simp) (by simp)]

end Entries

section Commits

variable {fs : FileSystem} {disk disk' : Sectors} {d : Directory} {b : BitMap}

/-- A byte of a file depends on its data sectors. -/
theorem fileByte_congr {hdr : FileHeader} (hgood : hdr.Good)
    (h : ∀ j s, IsData hdr j s → disk' s = disk s) {k : Nat} (hk : (k : Int) < hdr.numBytes) :
    hdr.fileByte disk' k = hdr.fileByte disk k := by
  unfold FileHeader.fileByte
  rw [h (k / sectorSize) _ (hgood.isData_iff.mpr ⟨?_, rfl⟩)]
  unfold sectorSize
  omega

/-- The free map and the directory have no sector in common. -/
theorem Sound.map_ne_dir (h : Sound fs) {j j' : Nat} {s : Int}
    (hmap : IsData fs.freeMapFile.hdr j s) : ¬ IsData fs.directoryFile.hdr j' s := by
  intro hdir
  have hrole := h.exclusive.unique _ _ _ (h.mapPlays j s hmap) (h.dirPlays j' s hdir)
  exact absurd hrole (by simp)

theorem Sound.writeDirectory (h : Sound fs) (d : Directory) (disk : Sectors) (fresh : Memory) :
    ∃ disk', d.writeBack fs.directoryFile disk fresh = .ok disk' ∧
      (∀ s, (∀ j, ¬ IsData fs.directoryFile.hdr j s) → disk' s = disk s) ∧
      ∀ k, k < directoryFileSize → fs.directoryFile.hdr.fileByte disk' k = d k := by
  obtain ⟨hvalid, hdistinct⟩ := h.dirUsable
  obtain ⟨r, disk', hwrite, hframe, hbytes⟩ := writeAt_whole hvalid hdistinct h.dirSize disk
    fresh d
  refine ⟨disk', ?_, fun s hs => ?_, hbytes⟩
  · unfold Directory.writeBack
    rw [hwrite]
    rfl
  · exact hframe s fun j hj heq => hs j (h.dirGood.isData_iff.mpr ⟨hj, heq⟩)

theorem Sound.writeMap (h : Sound fs) (hwords : b.map.length = 32) (disk : Sectors)
    (fresh : Memory) :
    ∃ disk', b.writeBack fs.freeMapFile disk fresh = .ok disk' ∧
      (∀ s, (∀ j, ¬ IsData fs.freeMapFile.hdr j s) → disk' s = disk s) ∧
      ∀ k, k < freeMapBytes → fs.freeMapFile.hdr.fileByte disk' k = b.image k := by
  obtain ⟨hvalid, hdistinct⟩ := h.mapUsable
  obtain ⟨r, disk', hwrite, hframe, hbytes⟩ := writeAt_whole hvalid hdistinct h.mapSize disk
    fresh b.image
  refine ⟨disk', ?_, fun s hs => ?_, hbytes⟩
  · have hsize : b.imageSize = freeMapBytes := by
      rw [BitMap.imageSize, hwords]
      rfl
    unfold BitMap.writeBack
    rw [hsize, hwrite]
    rfl
  · exact hframe s fun j hj heq => hs j (h.mapGood.isData_iff.mpr ⟨hj, heq⟩)

/-- The free map and the directory have been written back. -/
structure Committed (fs : FileSystem) (disk disk' : Sectors) (d : Directory) (b : BitMap) :
    Prop where
  frame : ∀ s, (∀ j, ¬ IsData fs.freeMapFile.hdr j s) →
    (∀ j, ¬ IsData fs.directoryFile.hdr j s) → disk' s = disk s
  directory : ∀ k, k < directoryFileSize → fs.directoryFile.hdr.fileByte disk' k = d k
  freeMap : ∀ k, k < freeMapBytes → fs.freeMapFile.hdr.fileByte disk' k = b.image k

/-- `Create` writes the directory first. -/
theorem Sound.commit_create (h : Sound fs) (hwords : b.map.length = 32) (d : Directory)
    (disk : Sectors) (fresh fresh' : Memory) :
    ∃ disk₁ disk', d.writeBack fs.directoryFile disk fresh = .ok disk₁ ∧
      b.writeBack fs.freeMapFile disk₁ fresh' = .ok disk' ∧ Committed fs disk disk' d b := by
  obtain ⟨disk₁, hwrite₁, hframe₁, hbytes₁⟩ := h.writeDirectory d disk fresh
  obtain ⟨disk', hwrite', hframe', hbytes'⟩ := h.writeMap hwords disk₁ fresh'
  refine ⟨disk₁, disk', hwrite₁, hwrite', ?_, ?_, hbytes'⟩
  · intro s hmap hdir
    rw [hframe' s hmap, hframe₁ s hdir]
  · intro k hk
    rw [fileByte_congr h.dirGood ?_ (by rw [h.dirSize]; omega)]
    · exact hbytes₁ k hk
    · intro j s hdata
      exact hframe' s fun j' hmap => h.map_ne_dir hmap hdata

/-- `Remove` writes the free map first. -/
theorem Sound.commit_remove (h : Sound fs) (hwords : b.map.length = 32) (d : Directory)
    (disk : Sectors) (fresh fresh' : Memory) :
    ∃ disk₁ disk', b.writeBack fs.freeMapFile disk fresh = .ok disk₁ ∧
      d.writeBack fs.directoryFile disk₁ fresh' = .ok disk' ∧ Committed fs disk disk' d b := by
  obtain ⟨disk₁, hwrite₁, hframe₁, hbytes₁⟩ := h.writeMap hwords disk fresh
  obtain ⟨disk', hwrite', hframe', hbytes'⟩ := h.writeDirectory d disk₁ fresh'
  refine ⟨disk₁, disk', hwrite₁, hwrite', ?_, hbytes', ?_⟩
  · intro s hmap hdir
    rw [hframe' s hdir, hframe₁ s hmap]
  · intro k hk
    rw [fileByte_congr h.mapGood ?_ (by rw [h.mapSize]; omega)]
    · exact hbytes₁ k hk
    · intro j s hdata
      exact hframe' s fun j' hdir => h.map_ne_dir hdata hdir

/-- The bits behind a commit are those of the map that was written. -/
theorem Committed.bit (h : Committed fs disk disk' d b) {s : Nat} (hs : s < numSectors) :
    FileSystem.bit { fs with disk := disk' } s = b.test s := by
  rw [BitMap.test_eq_getLsbD, ← BitMap.loadInt_image, FileSystem.bit]
  congr 1
  apply loadInt_congr
  intro k hle hlt
  apply h.freeMap
  unfold numSectors bitsInWord freeMapBytes at *
  omega

/-- A sector that plays another role than to hold the map or the directory. -/
theorem Committed.keeps (hsound : Sound fs) (h : Committed fs disk disk' d b) {r : Role} {s : Int}
    (hplays : Plays fs.disk fs.directoryImage r s) (hmap : ∀ j, r ≠ .freeMapData j)
    (hdir : ∀ j, r ≠ .directoryData j) : disk' s = disk s := by
  apply h.frame
  · intro j hdata
    exact hmap j (hsound.exclusive.unique _ _ _ hplays (hsound.mapPlays j s hdata))
  · intro j hdata
    exact hdir j (hsound.exclusive.unique _ _ _ hplays (hsound.dirPlays j s hdata))

/-- So does a sector that plays no role. -/
theorem Committed.keeps_free (hsound : Sound fs) (h : Committed fs disk disk' d b) {s : Int}
    (hfree : ¬ fs.Used s) : disk' s = disk s := by
  apply h.frame
  · intro j hdata
    exact hfree ((hsound.exclusive.used_iff s).mpr ⟨_, hsound.mapPlays j s hdata⟩)
  · intro j hdata
    exact hfree ((hsound.exclusive.used_iff s).mpr ⟨_, hsound.dirPlays j s hdata⟩)

end Commits

section Creation

/-- What `Create` has done when it writes back: sector `sector` was free and holds the
new header, entry `i` of the directory is filled in, and `b'` marks the sectors. -/
structure Creation (fs : FileSystem) (sector : Nat) (hdr : FileHeader) (i : Nat) (name : Memory)
    (initialSize : Int) (d : Directory) (b b' : BitMap) : Prop where
  numBits : b.numBits = numSectors
  test : ∀ s, s < numSectors → b.test s = fs.bit s
  directory : ∀ k, k < directoryFileSize → d k = fs.directoryImage k
  sector_lt : sector < numSectors
  sector_clear : b.test sector = false
  entry_lt : i < numDirEntries
  entry_free : d.inUse i = false
  name_new : ∀ j, j < numDirEntries → d.inUse j = true →
    strncmpEqual (d.name j) name fileNameMaxLen 0 = false
  size : initialSize ≤ maxFileSize
  header : hdr.AllocatedFile initialSize (b.mark sector) b'

variable {fs : FileSystem} {sector i : Nat} {hdr : FileHeader} {name : Memory} {initialSize : Int}
  {d : Directory} {b b' : BitMap} {disk' : Sectors}

theorem Creation.free (h : Creation fs sector hdr i name initialSize d b b') :
    ¬ fs.Used sector := by
  rintro ⟨-, hbit⟩
  rw [Int.toNat_natCast, ← h.test sector h.sector_lt, h.sector_clear] at hbit
  exact absurd hbit (by simp)

theorem Creation.not_file (h : Creation fs sector hdr i name initialSize d b b') :
    ¬ IsFile fs.directoryImage i := by
  rintro ⟨hi, hused⟩
  rw [← Directory.inUse_congr (entry_agree h.directory hi), h.entry_free] at hused
  exact absurd hused (by simp)

/-- The new data sectors are free, all different, and not the one of the header. -/
theorem Creation.data (h : Creation fs sector hdr i name initialSize d b b') {j : Nat} {s : Int}
    (hdata : IsData hdr j s) :
    ∃ n : Nat, n < numSectors ∧ s = n ∧ n ≠ sector ∧ ¬ fs.Used s := by
  obtain ⟨h₀, hsectors⟩ := h.header.sectors
  obtain ⟨hj, hs⟩ := hdata
  rw [h.header.numSectors] at hj
  obtain ⟨n, hn, hclear, hentry⟩ := hsectors.fresh j (Nat.zero_le j) (by omega)
  have hlt : n < numSectors := by
    rw [← h.numBits]
    exact hn
  have hne : sector ≠ n := by
    rintro rfl
    rw [BitMap.test_mark_self (by rw [h.numBits]; exact hlt)] at hclear
    exact absurd hclear (by simp)
  rw [BitMap.test_mark_ne hne, h.test n hlt] at hclear
  refine ⟨n, hlt, hs.symm.trans hentry, Ne.symm hne, ?_⟩
  rintro ⟨-, hbit⟩
  rw [← hs, hentry, Int.toNat_natCast, hclear] at hbit
  exact absurd hbit (by simp)

theorem Creation.data_unique (h : Creation fs sector hdr i name initialSize d b b') {j j' : Nat}
    {s : Int} (hdata : IsData hdr j s) (hdata' : IsData hdr j' s) : j = j' := by
  obtain ⟨h₀, hsectors⟩ := h.header.sectors
  obtain ⟨hj, hs⟩ := hdata
  obtain ⟨hj', hs'⟩ := hdata'
  rw [h.header.numSectors] at hj hj'
  exact hsectors.distinct j j' (Nat.zero_le j) (by omega) (Nat.zero_le j') (by omega)
    (hs.trans hs'.symm)

/-- The bits that are set behind `Create`. -/
theorem Creation.marked (h : Creation fs sector hdr i name initialSize d b b') {s : Nat}
    (hs : s < numSectors) :
    b'.test s = true ↔ fs.bit s = true ∨ s = sector ∨ ∃ j, IsData hdr j s := by
  obtain ⟨h₀, hsectors⟩ := h.header.sectors
  have hexists : (∃ j, 0 ≤ j ∧ j < 0 + (divRoundUp initialSize sectorSize).toNat ∧
      hdr.dataSectors j = s) ↔ ∃ j, IsData hdr j s := by
    unfold IsData
    rw [h.header.numSectors]
    simp
  rw [hsectors.test s, hexists, ← or_assoc]
  apply or_congr_left
  by_cases hne : sector = s
  · subst hne
    simp [BitMap.test_mark_self (h.numBits.symm ▸ h.sector_lt)]
  · rw [BitMap.test_mark_ne hne, h.test s hs]
    simp [Ne.symm hne]

section Behind

variable (h : Creation fs sector hdr i name initialSize d b b')
  (hcommit : Committed fs (Function.update fs.disk sector hdr) disk' (d.filled i name sector) b')

include h hcommit

/-- The other entries of the directory stay. -/
theorem Creation.entry_other (j : Nat) (hj : j < numDirEntries) (hji : j ≠ i) : ∀ k, entrySize * j ≤ k → k < entrySize * j + entrySize →
      FileSystem.directoryImage { fs with disk := disk' } k = fs.directoryImage k := by
  intro k hle hlt
  have hk : k < directoryFileSize := by
    unfold directoryFileSize numDirEntries entrySize at *
    omega
  have hdirectory := hcommit.directory k hk
  rw [Directory.filled_outside (by unfold entrySize at *; omega), h.directory k hk] at hdirectory
  exact hdirectory

theorem Creation.entry_new :
    ∀ k, entrySize * i ≤ k → k < entrySize * i + entrySize →
      FileSystem.directoryImage { fs with disk := disk' } k = d.filled i name sector k := by
  intro k _ hlt
  apply hcommit.directory
  have hi := h.entry_lt
  unfold directoryFileSize numDirEntries entrySize at *
  omega

theorem Creation.isFile_new : IsFile (FileSystem.directoryImage { fs with disk := disk' }) i := by
  refine ⟨h.entry_lt, ?_⟩
  rw [Directory.inUse_congr (h.entry_new hcommit)]
  exact Directory.filled_inUse

theorem Creation.sector_new :
    (FileSystem.directoryImage { fs with disk := disk' }).sector i = sector := by
  rw [Directory.sector_congr (h.entry_new hcommit)]
  have hlt := h.sector_lt
  unfold numSectors at hlt
  exact Directory.filled_sector (by omega) (by omega)

theorem Creation.plays_header (s : Int) :
    Plays disk' (FileSystem.directoryImage { fs with disk := disk' }) (.header i) s ↔
      s = sector := by
  simp only [Plays, h.sector_new hcommit, h.isFile_new hcommit, true_and]
  exact eq_comm

variable (hsound : Sound fs)

include hsound

/-- What else is on the disk stays there. -/
theorem Creation.keeps {r : Role} {s : Int} (hplays : Plays fs.disk fs.directoryImage r s)
    (hmap : ∀ j, r ≠ .freeMapData j) (hdir : ∀ j, r ≠ .directoryData j) : disk' s = fs.disk s := by
  rw [hcommit.keeps hsound hplays hmap hdir]
  apply Function.update_of_ne
  rintro rfl
  exact h.free ((hsound.exclusive.used_iff _).mpr ⟨r, hplays⟩)

theorem Creation.newHeader : disk' sector = hdr := by
  rw [hcommit.keeps_free hsound h.free]
  exact Function.update_self ..

theorem Creation.plays_data (j : Nat) (s : Int) :
    Plays disk' (FileSystem.directoryImage { fs with disk := disk' }) (.data i j) s ↔
      IsData hdr j s := by
  simp only [Plays, h.sector_new hcommit, h.isFile_new hcommit, true_and,
    h.newHeader hcommit hsound]

theorem Creation.exclusive :
    Exclusive (FileSystem.Used { fs with disk := disk' })
      (Plays disk' (FileSystem.directoryImage { fs with disk := disk' })) := by
  have hheader := h.plays_header hcommit
  have hdata := h.plays_data hcommit hsound
  refine hsound.exclusive.grant (FileRole i) (fun r s hr =>
      plays_other (h.entry_other hcommit) (fun _ _ => h.keeps hcommit hsound) hr)
    ?_ ?_ ?_ ?_
  · rintro r s (rfl | ⟨j, rfl⟩) hplays
    · exact h.not_file hplays.1
    · exact h.not_file hplays.1
  · rintro r s (rfl | ⟨j, rfl⟩) hplays
    · rw [(hheader _).mp hplays]
      exact h.free
    · obtain ⟨n, -, -, -, hfree⟩ := h.data ((hdata _ _).mp hplays)
      exact hfree
  · rintro r r' s (rfl | ⟨j, rfl⟩) (rfl | ⟨j', rfl⟩) hr hr'
    · rfl
    · obtain ⟨n, -, hn, hne, -⟩ := h.data ((hdata _ _).mp hr')
      have heq := (hheader _).mp hr
      omega
    · obtain ⟨n, -, hn, hne, -⟩ := h.data ((hdata _ _).mp hr)
      have heq := (hheader _).mp hr'
      omega
    · rw [h.data_unique ((hdata _ _).mp hr) ((hdata _ _).mp hr')]
  · intro s
    constructor
    · rintro ⟨hsector, hbit⟩
      have hlt : s.toNat < numSectors := by
        unfold IsSector at hsector
        omega
      rw [hcommit.bit hlt, h.marked hlt] at hbit
      rcases hbit with hold | hnew | ⟨j, hj⟩
      · exact Or.inl ⟨hsector, hold⟩
      · refine Or.inr ⟨.header i, Or.inl rfl, (hheader _).mpr ?_⟩
        unfold IsSector at hsector
        omega
      · refine Or.inr ⟨.data i j, Or.inr ⟨j, rfl⟩, (hdata _ _).mpr ?_⟩
        unfold IsSector at hsector
        rwa [Int.toNat_of_nonneg hsector.1] at hj
    · have hset : ∀ n : Nat, n < numSectors →
          (fs.bit n = true ∨ n = sector ∨ ∃ j, IsData hdr j n) →
          FileSystem.Used { fs with disk := disk' } n := by
        intro n hn hcases
        refine ⟨⟨by omega, by omega⟩, ?_⟩
        rw [Int.toNat_natCast, hcommit.bit hn, h.marked hn]
        exact hcases
      rintro (⟨hsector, hbit⟩ | ⟨r, rfl | ⟨j, rfl⟩, hplays⟩)
      · unfold IsSector at hsector
        have hused := hset s.toNat (by omega) (Or.inl hbit)
        rwa [Int.toNat_of_nonneg hsector.1] at hused
      · rw [(hheader _).mp hplays]
        exact hset sector h.sector_lt (Or.inr (Or.inl rfl))
      · have hj := (hdata _ _).mp hplays
        obtain ⟨n, hn, rfl, -, -⟩ := h.data hj
        exact hset n hn (Or.inr (Or.inr ⟨j, hj⟩))

/-- The new file is in order, and so is everything else. -/
theorem Creation.sound : Sound { fs with disk := disk' } := by
  have hmapHdr : disk' freeMapSector = fs.disk freeMapSector :=
    h.keeps hcommit hsound (r := .freeMapHeader) rfl (by simp) (by simp)
  have hdirHdr : disk' directorySector = fs.disk directorySector :=
    h.keeps hcommit hsound (r := .directoryHeader) rfl (by simp) (by simp)
  constructor
  case mapHdr => exact hsound.mapHdr.trans hmapHdr.symm
  case dirHdr => exact hsound.dirHdr.trans hdirHdr.symm
  case mapSize => exact hsound.mapSize
  case dirSize => exact hsound.dirSize
  case mapGood => exact hsound.mapGood
  case dirGood => exact hsound.dirGood
  case fileGood =>
    intro j hj
    by_cases hji : j = i
    · subst hji
      rw [h.sector_new hcommit]
      show FileHeader.Good (disk' sector)
      rw [h.newHeader hcommit hsound]
      refine ⟨?_, ?_⟩
      · rw [h.header.numBytes]
        exact h.size
      · rw [h.header.numBytes]
        exact h.header.numSectors
    · have hfile := (isFile_other (h.entry_other hcommit) hji).mp hj
      rw [Directory.sector_congr (h.entry_other hcommit _ hfile.1 hji)]
      show FileHeader.Good (disk' _)
      rw [h.keeps hcommit hsound (r := .header j) ⟨hfile, rfl⟩ (by simp) (by simp)]
      exact hsound.fileGood j hfile
  case exclusive => exact h.exclusive hcommit hsound
  case names =>
    -- the new name differs from that of every other entry
    have hnew : ∀ j, j ≠ i → IsFile fs.directoryImage j → ∃ k, k < fileNameMaxLen ∧
        (FileSystem.directoryImage { fs with disk := disk' }).name j k ≠
          (FileSystem.directoryImage { fs with disk := disk' }).name i k := by
      intro j hji hfile
      have hd := entry_agree h.directory hfile.1
      obtain ⟨k, hk, hne⟩ := Directory.exists_char_ne (h.name_new j hfile.1
        ((Directory.inUse_congr hd).trans hfile.2))
      refine ⟨k, hk, ?_⟩
      rw [Directory.name_congr (h.entry_new hcommit) hk, Directory.filled_name hk,
        Directory.name_congr (h.entry_other hcommit _ hfile.1 hji) hk,
        ← Directory.name_congr hd hk]
      exact hne
    intro j j' hj hj' hne
    by_cases hji : j = i
    · subst hji
      have hfile := (isFile_other (h.entry_other hcommit) (Ne.symm hne)).mp hj'
      obtain ⟨k, hk, hchar⟩ := hnew j' (Ne.symm hne) hfile
      exact ⟨k, hk, Ne.symm hchar⟩
    · by_cases hji' : j' = i
      · subst hji'
        exact hnew j hne ((isFile_other (h.entry_other hcommit) hne).mp hj)
      · have hfile := (isFile_other (h.entry_other hcommit) hji).mp hj
        have hfile' := (isFile_other (h.entry_other hcommit) hji').mp hj'
        obtain ⟨k, hk, hchar⟩ := hsound.names j j' hfile hfile' hne
        refine ⟨k, hk, ?_⟩
        rw [Directory.name_congr (h.entry_other hcommit _ hfile.1 hji) hk,
          Directory.name_congr (h.entry_other hcommit _ hfile'.1 hji') hk]
        exact hchar

end Behind

end Creation

section Removal

/-- What `Remove` has done when it writes back: entry `i` of the directory is no longer
used, and `b'` does not mark the sectors of the file. -/
structure Removal (fs : FileSystem) (i : Nat) (d : Directory) (b' : BitMap) : Prop where
  file : IsFile fs.directoryImage i
  directory : ∀ k, k < directoryFileSize → d k = fs.directoryImage k
  test : ∀ s, s < numSectors → (b'.test s = true ↔ fs.bit s = true ∧
    ∀ r, FileRole i r → ¬ Plays fs.disk fs.directoryImage r s)

variable {fs : FileSystem} {i : Nat} {d : Directory} {b' : BitMap} {disk' : Sectors}
  (h : Removal fs i d b') (hcommit : Committed fs fs.disk disk' (d.setInUse i false) b')

include h hcommit

/-- The other entries of the directory stay. -/
theorem Removal.entry_other (j : Nat) (hj : j < numDirEntries) (hji : j ≠ i) : ∀ k, entrySize * j ≤ k → k < entrySize * j + entrySize →
      FileSystem.directoryImage { fs with disk := disk' } k = fs.directoryImage k := by
  intro k hle hlt
  have hk : k < directoryFileSize := by
    unfold directoryFileSize numDirEntries entrySize at *
    omega
  have hdirectory := hcommit.directory k hk
  rw [Directory.cleared_other hji k hle hlt, h.directory k hk] at hdirectory
  exact hdirectory

omit h in
theorem Committed.not_file : ¬ IsFile (FileSystem.directoryImage { fs with disk := disk' }) i := by
  rintro ⟨hi, hused⟩
  have hsame : (FileSystem.directoryImage { fs with disk := disk' }).inUse i =
      (d.setInUse i false).inUse i := by
    apply Directory.inUse_congr
    intro k _ hlt
    apply hcommit.directory
    unfold directoryFileSize numDirEntries entrySize at *
    omega
  rw [hsame, Directory.cleared_inUse] at hused
  exact absurd hused (by simp)

variable (hsound : Sound fs)

include hsound

theorem Removal.exclusive :
    Exclusive (FileSystem.Used { fs with disk := disk' })
      (Plays disk' (FileSystem.directoryImage { fs with disk := disk' })) := by
  refine hsound.exclusive.revoke (FileRole i) (fun r s hr =>
      plays_other (h.entry_other hcommit) (fun _ _ => hcommit.keeps hsound) hr)
    ?_ ?_
  · rintro r s (rfl | ⟨j, rfl⟩) hplays
    · exact hcommit.not_file hplays.1
    · exact hcommit.not_file hplays.1
  · intro s
    unfold FileSystem.Used
    rw [and_assoc]
    refine and_congr_right fun hsector => ?_
    unfold IsSector at hsector
    have hlt : s.toNat < numSectors := by omega
    rw [hcommit.bit hlt, h.test s.toNat hlt, Int.toNat_of_nonneg hsector.1]

/-- What is left behind `Remove` is in order. -/
theorem Removal.sound : Sound { fs with disk := disk' } := by
  have hmapHdr : disk' freeMapSector = fs.disk freeMapSector :=
    hcommit.keeps hsound (r := .freeMapHeader) rfl (by simp) (by simp)
  have hdirHdr : disk' directorySector = fs.disk directorySector :=
    hcommit.keeps hsound (r := .directoryHeader) rfl (by simp) (by simp)
  have hother : ∀ {j}, IsFile (FileSystem.directoryImage { fs with disk := disk' }) j →
      j ≠ i ∧ IsFile fs.directoryImage j := by
    intro j hj
    have hji : j ≠ i := by
      rintro rfl
      exact hcommit.not_file hj
    exact ⟨hji, (isFile_other (h.entry_other hcommit) hji).mp hj⟩
  constructor
  case mapHdr => exact hsound.mapHdr.trans hmapHdr.symm
  case dirHdr => exact hsound.dirHdr.trans hdirHdr.symm
  case mapSize => exact hsound.mapSize
  case dirSize => exact hsound.dirSize
  case mapGood => exact hsound.mapGood
  case dirGood => exact hsound.dirGood
  case fileGood =>
    intro j hj
    obtain ⟨hji, hfile⟩ := hother hj
    rw [Directory.sector_congr (h.entry_other hcommit _ hfile.1 hji)]
    show FileHeader.Good (disk' _)
    rw [hcommit.keeps hsound (r := .header j) ⟨hfile, rfl⟩ (by simp) (by simp)]
    exact hsound.fileGood j hfile
  case exclusive => exact h.exclusive hcommit hsound
  case names =>
    intro j j' hj hj' hne
    obtain ⟨hji, hfile⟩ := hother hj
    obtain ⟨hji', hfile'⟩ := hother hj'
    obtain ⟨k, hk, hchar⟩ := hsound.names j j' hfile hfile' hne
    refine ⟨k, hk, ?_⟩
    rw [Directory.name_congr (h.entry_other hcommit _ hfile.1 hji) hk,
      Directory.name_congr (h.entry_other hcommit _ hfile'.1 hji') hk]
    exact hchar

end Removal

section Writing

variable {fs : FileSystem} {disk' : Sectors}

/-- Writing to the data sectors of a file changes no sector in another role. -/
theorem Sound.written_keeps (h : Sound fs) {i : Nat}
    (hframe : ∀ s, (∀ j, ¬ Plays fs.disk fs.directoryImage (.data i j) s) →
      disk' s = fs.disk s) {r : Role} {s : Int} (hplays : Plays fs.disk fs.directoryImage r s)
    (hr : ∀ j, r ≠ .data i j) : disk' s = fs.disk s :=
  hframe s fun j hdata => hr j (h.exclusive.unique _ _ _ hplays hdata)

theorem Sound.written_directory (h : Sound fs) {i : Nat}
    (hframe : ∀ s, (∀ j, ¬ Plays fs.disk fs.directoryImage (.data i j) s) →
      disk' s = fs.disk s) : ∀ k, k < directoryFileSize →
      FileSystem.directoryImage { fs with disk := disk' } k = fs.directoryImage k := by
  intro k hk
  refine fileByte_congr h.dirGood (fun j s hdata => ?_) (by rw [h.dirSize]; omega)
  exact h.written_keeps hframe (h.dirPlays j s hdata) (by simp)

/-- Writing to the data sectors of a file changes nothing else. -/
theorem Sound.written (h : Sound fs) {i : Nat}
    (hframe : ∀ s, (∀ j, ¬ Plays fs.disk fs.directoryImage (.data i j) s) →
      disk' s = fs.disk s) : Sound { fs with disk := disk' } := by
  have hmapHdr : disk' freeMapSector = fs.disk freeMapSector :=
    h.written_keeps hframe (r := .freeMapHeader) rfl (by simp)
  have hdirHdr : disk' directorySector = fs.disk directorySector :=
    h.written_keeps hframe (r := .directoryHeader) rfl (by simp)
  have hdirectory := h.written_directory hframe
  have hbit : ∀ s, s < numSectors → FileSystem.bit { fs with disk := disk' } s = fs.bit s := by
    intro s hs
    unfold FileSystem.bit
    congr 1
    apply loadInt_congr
    intro k hle hlt
    refine fileByte_congr h.mapGood (fun j s hdata => ?_) ?_
    · exact h.written_keeps hframe (h.mapPlays j s hdata) (by simp)
    · rw [h.mapSize]
      unfold numSectors bitsInWord freeMapBytes at *
      omega
  have hplays : ∀ r s, Plays disk' (FileSystem.directoryImage { fs with disk := disk' }) r s ↔
      Plays fs.disk fs.directoryImage r s := by
    intro r s
    rw [plays_congr hdirectory]
    cases r with
    | freeMapData j => simp only [Plays, hmapHdr]
    | directoryData j => simp only [Plays, hdirHdr]
    | data j k =>
        simp only [Plays]
        refine and_congr_right fun hfile => ?_
        rw [h.written_keeps hframe (r := .header j) ⟨hfile, rfl⟩ (by simp)]
    | _ => exact Iff.rfl
  have hisFile : ∀ j, IsFile (FileSystem.directoryImage { fs with disk := disk' }) j ↔
      IsFile fs.directoryImage j := fun j => isFile_congr hdirectory
  constructor
  case mapHdr => exact h.mapHdr.trans hmapHdr.symm
  case dirHdr => exact h.dirHdr.trans hdirHdr.symm
  case mapSize => exact h.mapSize
  case dirSize => exact h.dirSize
  case mapGood => exact h.mapGood
  case dirGood => exact h.dirGood
  case fileGood =>
    intro j hj
    have hold := (hisFile j).mp hj
    rw [Directory.sector_congr (entry_agree hdirectory hold.1)]
    show FileHeader.Good (disk' _)
    rw [h.written_keeps hframe (r := .header j) ⟨hold, rfl⟩ (by simp)]
    exact h.fileGood j hold
  case exclusive =>
    refine h.exclusive.congr hplays fun s => ?_
    unfold FileSystem.Used
    refine and_congr_right fun hsector => ?_
    unfold IsSector at hsector
    rw [hbit s.toNat (by omega)]
  case names =>
    intro j j' hj hj' hne
    have hold := (hisFile j).mp hj
    have hold' := (hisFile j').mp hj'
    obtain ⟨k, hk, hchar⟩ := h.names j j' hold hold' hne
    refine ⟨k, hk, ?_⟩
    rw [Directory.name_congr (entry_agree hdirectory hold.1) hk,
      Directory.name_congr (entry_agree hdirectory hold'.1) hk]
    exact hchar

end Writing

end Filesys
end Nachos
