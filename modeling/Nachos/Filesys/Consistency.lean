import Nachos.Filesys.SectorUse

/-!
# The file system stays consistent

Formatting makes a sound file system, and `Create`, `Remove` and writing to open files
keep it one, as long as no file is written to that has been removed since it was
opened.  An open file that has not been removed has the header that is on the disk.
-/

namespace Nachos
namespace Filesys

open Threads Userprog Lib

section Operations

variable {fs : FileSystem} {fresh : Fresh} {name : Memory} {initialSize : Int}

theorem writeHeader_ok {hdr : FileHeader} {disk : Sectors} {s : Nat} (hs : s < numSectors) :
    hdr.writeBack disk s = .ok (Function.update disk s hdr) := by
  have hsector : IsSector s := ⟨by omega, by omega⟩
  unfold FileHeader.writeBack writeSector
  rw [if_pos hsector]

/-- The end of `Create`. -/
theorem Sound.createFile_cases (h : Sound fs) (fresh : Fresh) {sector i : Nat} {d : Directory} {b : BitMap}
    (hlow : -2 ^ 31 ≤ initialSize) (hbits : b.numBits = numSectors) (hwords : b.map.length = 32)
    (htest : ∀ s, s < numSectors → b.test s = fs.bit s)
    (hd : ∀ k, k < directoryFileSize → d k = fs.directoryImage k) (hsector : sector < numSectors)
    (hclear : b.test sector = false) (hi : i < numDirEntries) (hentry : d.inUse i = false)
    (hname : ∀ j, j < numDirEntries → d.inUse j = true →
      strncmpEqual (d.name j) name fileNameMaxLen 0 = false) :
    fs.createFile fresh (d.filled i name sector) (b.mark sector) sector initialSize =
        .ok (false, fs) ∨
    (maxFileSize < initialSize ∧
      ∃ stop, fs.createFile fresh (d.filled i name sector) (b.mark sector) sector initialSize =
        .error stop) ∨
    ∃ hdr b' disk', Creation fs sector hdr i name initialSize d b b' ∧
      Committed fs (Function.update fs.disk sector hdr) disk' (d.filled i name sector) b' ∧
      fs.createFile fresh (d.filled i name sector) (b.mark sector) sector initialSize =
        .ok (true, { fs with disk := disk' }) := by
  unfold FileSystem.createFile
  rcases Int.lt_or_le maxFileSize initialSize with hlong | hsize
  · rcases FileHeader.allocate_too_long (h := fresh 1) (b := b.mark sector) hlong with
      ⟨hdr, hno⟩ | ⟨stop, hstop⟩
    · rw [hno]
      exact Or.inl rfl
    · rw [hstop]
      exact Or.inr (Or.inl ⟨hlong, stop, rfl⟩)
  · have hsmall : (b.mark sector).numBits < 2 ^ 31 := by
      rw [BitMap.mark_numBits, hbits]
      decide
    rcases FileHeader.allocate_ok (h := fresh 1) (b := b.mark sector) hlow hsize hsmall with
      ⟨hdr, hno⟩ | ⟨hdr, b', hyes, hallocated⟩
    · rw [hno]
      exact Or.inl rfl
    · have hlength : b'.map.length = 32 := by
        obtain ⟨h₀, hsectors⟩ := hallocated.sectors
        rw [hsectors.words, BitMap.mark, BitMap.setWord_length, hwords]
      obtain ⟨disk₁, disk', hdir, hmap, hcommit⟩ := h.commit_create hlength
        (d.filled i name sector) (Function.update fs.disk sector hdr) (fresh 2) (fresh 3)
      refine Or.inr (Or.inr ⟨hdr, b', disk', ?_, hcommit, ?_⟩)
      · exact ⟨hbits, htest, hd, hsector, hclear, hi, hentry, hname, hsize, hallocated⟩
      · rw [hyes]
        simp only [bind, Except.bind, if_true, writeHeader_ok hsector, hdir, hmap]

/-- What `Create` does about a name that the directory does not have. -/
theorem create_of_find_eq {d : Directory} {b : BitMap}
    (hfetchD : fs.fetchDirectory (fresh 0) = .ok d) (hfetchB : fs.fetchFreeMap = .ok b)
    (hfound : d.find name = -1) :
    fs.create fresh name initialSize =
      if b.find.1 = -1 then .ok (false, fs)
      else
        match d.add name b.find.1 with
        | none => .ok (false, fs)
        | some d' => fs.createFile fresh d' b.find.2 b.find.1 initialSize := by
  simp only [FileSystem.create, hfetchD, hfetchB, bind, Except.bind]
  exact if_neg (not_not.mpr hfound)

/-- What `Create` does: nothing, or it makes a file. -/
theorem Sound.create_cases (h : Sound fs) (fresh : Fresh) (name : Memory)
    (hlow : -2 ^ 31 ≤ initialSize) :
    fs.create fresh name initialSize = .ok (false, fs) ∨
    (maxFileSize < initialSize ∧ ∃ stop, fs.create fresh name initialSize = .error stop) ∨
    ∃ sector hdr i d b b' disk', Creation fs sector hdr i name initialSize d b b' ∧
      Committed fs (Function.update fs.disk sector hdr) disk' (d.filled i name sector) b' ∧
      fs.create fresh name initialSize = .ok (true, { fs with disk := disk' }) := by
  obtain ⟨d, hfetchD, hd⟩ := h.fetchDirectory (fresh 0)
  obtain ⟨b, hfetchB, hbits, hwords, htest⟩ := h.fetchFreeMap
  by_cases hfound : d.find name = -1
  case neg =>
    refine Or.inl ?_
    simp only [FileSystem.create, hfetchD, bind, Except.bind]
    exact if_pos hfound
  rw [create_of_find_eq hfetchD hfetchB hfound]
  rcases b.find_cases with hnone | ⟨sector, hsector, hclear, hfind⟩
  · rw [hnone]
    exact Or.inl rfl
  rw [hfind, if_neg (by omega)]
  cases hadd : d.add name sector with
  | none => exact Or.inl rfl
  | some d' =>
      obtain ⟨i, hi, hentry, rfl, hname⟩ := Directory.add_eq_some hadd
      rcases h.createFile_cases fresh hlow hbits hwords htest hd (hbits ▸ hsector)
        hclear hi hentry hname with hno | hstop | ⟨hdr, b', disk', hcreation, hcommit, hyes⟩
      · exact Or.inl hno
      · exact Or.inr (Or.inl hstop)
      · exact Or.inr (Or.inr ⟨sector, hdr, i, d, b, b', disk', hcreation, hcommit, hyes⟩)

/-- What the directory says about a name. -/
theorem Sound.find_cases (h : Sound fs) {d : Directory}
    (hd : ∀ k, k < directoryFileSize → d k = fs.directoryImage k) (name : Memory) :
    (d.findIndex name = none ∧ d.find name = -1) ∨
      ∃ i, IsFile fs.directoryImage i ∧ d.findIndex name = some i ∧
        d.find name = fs.directoryImage.sector i ∧ IsSector (fs.directoryImage.sector i) := by
  cases hindex : d.findIndex name with
  | none =>
      refine Or.inl ⟨rfl, ?_⟩
      unfold Directory.find
      rw [hindex]
  | some i =>
      obtain ⟨-, hi, hused, -⟩ := Directory.findIndexLoop_eq_some hindex
      have hfile : IsFile fs.directoryImage i := (isFile_congr hd).mp ⟨by omega, hused⟩
      have hplays : Plays fs.disk fs.directoryImage (.header i) (fs.directoryImage.sector i) :=
        ⟨hfile, rfl⟩
      refine Or.inr ⟨i, hfile, rfl, ?_, ((h.exclusive.used_iff _).mpr ⟨_, hplays⟩).1⟩
      unfold Directory.find
      rw [hindex]
      exact Directory.sector_congr (entry_agree hd hfile.1)

/-- `Deallocate` clears the bits of the data sectors of a file. -/
theorem Sound.deallocate_ok (h : Sound fs) {i : Nat} {b : BitMap}
    (hfile : IsFile fs.directoryImage i) (hbits : b.numBits = numSectors)
    (htest : ∀ s, s < numSectors → b.test s = fs.bit s) :
    ∃ b', FileHeader.deallocate (fs.disk (fs.directoryImage.sector i)) b = .ok b' ∧
      b'.numBits = b.numBits ∧ b'.map.length = b.map.length ∧
      ∀ s : Nat, b'.test s = true ↔
        b.test s = true ∧ ∀ j, ¬ Plays fs.disk fs.directoryImage (.data i j) s := by
  have hgood := h.fileGood i hfile
  have hplays : ∀ j s, IsData (fs.disk (fs.directoryImage.sector i)) j s →
      Plays fs.disk fs.directoryImage (.data i j) s := fun j s hdata => ⟨hfile, hdata⟩
  obtain ⟨b', hloop, hbits', hwords', htest'⟩ := FileHeader.deallocateLoop_ok
    (fs.disk (fs.directoryImage.sector i))
    (FileHeader.numSectors (fs.disk (fs.directoryImage.sector i))).toNat 0 b
    (by
      have hsize := hgood.size
      have hmax : maxFileSize = 3840 := rfl
      have hdirect : numDirect = 30 := rfl
      by_contra hmany
      have hlast := (hgood.isData_iff (j := 30)).mp ⟨by omega, rfl⟩
      omega)
    (by
      intro j _ hj
      have hdata := hplays j _ ⟨by omega, rfl⟩
      obtain ⟨hsector, hbit⟩ := (h.exclusive.used_iff _).mpr ⟨_, hdata⟩
      unfold IsSector at hsector
      refine ⟨_, ?_, ?_, (Int.toNat_of_nonneg hsector.1).symm⟩
      · omega
      · rw [htest _ (by omega)]
        exact hbit)
    (by
      intro j j' _ hj _ hj' heq
      have hrole := h.exclusive.unique _ _ _ (hplays j _ ⟨by omega, rfl⟩)
        (hplays j' _ ⟨by omega, heq.symm⟩)
      exact (Role.data.inj hrole).2)
  refine ⟨b', hloop, hbits', hwords', fun s => ?_⟩
  rw [htest' s]
  refine and_congr_right fun _ => ?_
  constructor
  · rintro hall j ⟨-, hj, hdata⟩
    exact hall j (Nat.zero_le j) (by omega) hdata
  · intro hall j _ hj hdata
    exact hall j (hplays j s ⟨by omega, hdata⟩)

/-- What `Remove` does: nothing, or it removes the file that the directory has for the
name. -/
theorem Sound.remove_cases (h : Sound fs) (fresh : Fresh) (name : Memory) :
    fs.remove fresh name = .ok (false, fs) ∨
    ∃ i d b' disk', Removal fs i d b' ∧ Committed fs fs.disk disk' (d.setInUse i false) b' ∧
      fs.lookup fresh name = .ok (fs.directoryImage.sector i) ∧
      fs.remove fresh name = .ok (true, { fs with disk := disk' }) := by
  obtain ⟨d, hfetchD, hd⟩ := h.fetchDirectory (fresh 0)
  obtain ⟨b, hfetchB, hbits, hwords, htest⟩ := h.fetchFreeMap
  rcases h.find_cases hd name with ⟨-, hfind⟩ | ⟨i, hfile, hindex, hfind, hsector⟩
  · refine Or.inl ?_
    simp only [FileSystem.remove, hfetchD, bind, Except.bind]
    exact if_pos hfind
  obtain ⟨b₁, hdeallocate, hbits₁, hwords₁, htest₁⟩ := h.deallocate_ok hfile hbits htest
  have hheader : FileHeader.fetchFrom fs.disk (fs.directoryImage.sector i) =
      .ok (fs.disk (fs.directoryImage.sector i)) := if_pos hsector
  unfold IsSector at hsector
  generalize hs : fs.directoryImage.sector i = sector at *
  have hclear : FileSystem.clearSector b₁ sector = .ok (b₁.clear sector.toNat) :=
    if_pos ⟨hsector.1, by omega⟩
  obtain ⟨disk₁, disk', hmap, hdir, hcommit⟩ := h.commit_remove
    (b := b₁.clear sector.toNat)
    (by rw [BitMap.clear, BitMap.setWord_length, hwords₁, hwords]) (d.setInUse i false) fs.disk
    (fresh 2) (fresh 3)
  have hremoved : (d.remove name).getD d = d.setInUse i false := by
    unfold Directory.remove
    rw [hindex]
    rfl
  refine Or.inr ⟨i, d, b₁.clear sector.toNat, disk', ⟨hfile, hd, ?_⟩, hcommit, ?_, ?_⟩
  · intro s hs'
    have hroles : (∀ r, FileRole i r → ¬ Plays fs.disk fs.directoryImage r s) ↔
        (s : Int) ≠ sector ∧ ∀ j, ¬ Plays fs.disk fs.directoryImage (.data i j) s := by
      constructor
      · intro hall
        refine ⟨fun heq => hall _ (Or.inl rfl) ⟨hfile, ?_⟩, fun j => hall _ (Or.inr ⟨j, rfl⟩)⟩
        rw [hs, heq]
      · rintro ⟨hne, hall⟩ r (rfl | ⟨j, rfl⟩)
        · rintro ⟨-, heq⟩
          exact hne (heq.symm.trans hs)
        · exact hall j
    rw [hroles]
    by_cases heq : sector.toNat = s
    · subst heq
      rw [BitMap.test_clear_self (by omega)]
      simp [Int.toNat_of_nonneg hsector.1]
    · rw [BitMap.test_clear_ne heq, htest₁ s, htest s hs']
      have hne : (s : Int) ≠ sector := by omega
      simp [hne]
  · simp only [FileSystem.lookup, hfetchD, bind, Except.bind, hfind, hs]
  · simp only [FileSystem.remove, hfetchD, bind, Except.bind, hfind, hheader, hfetchB,
      hdeallocate, hclear, hmap, hremoved, hdir]
    exact if_neg (by omega)

end Operations

section Formatting

/-- The map in which the sectors of the two headers are marked. -/
def reservedMap : BitMap :=
  ((BitMap.new numSectors).mark freeMapSector.toNat).mark directorySector.toNat

/-- The map behind formatting. -/
def formattedMap : BitMap := ((reservedMap.mark 2).mark 3).mark 4

/-- The header of the free map, with its sector. -/
def mapHeader (h : FileHeader) : FileHeader :=
  ((h.setNumBytes 128).setNumSectors 1).setDataSector 0 2

/-- The header of the directory, with its sectors. -/
def directoryHeader (h : FileHeader) : FileHeader :=
  (((h.setNumBytes 200).setNumSectors 2).setDataSector 0 3).setDataSector 1 4

theorem allocate_mapHeader (h : FileHeader) :
    h.allocate reservedMap freeMapFileSize = .ok (true, mapHeader h, reservedMap.mark 2) := by
  have hsectors : divRoundUp freeMapFileSize sectorSize = 1 := by decide
  have hclear : reservedMap.numClear = 1022 := by decide +kernel
  have hfind : reservedMap.find = (2, reservedMap.mark 2) := rfl
  simp only [FileHeader.allocate, hsectors, hclear]
  rw [if_neg (by decide)]
  simp only [Int.toNat_one, FileHeader.allocateLoop, hfind]
  rfl

theorem allocate_directoryHeader (h : FileHeader) :
    h.allocate (reservedMap.mark 2) directoryFileSize =
      .ok (true, directoryHeader h, formattedMap) := by
  have hsectors : divRoundUp directoryFileSize sectorSize = 2 := by decide
  have hclear : (reservedMap.mark 2).numClear = 1021 := by decide +kernel
  have hfind : (reservedMap.mark 2).find = (3, (reservedMap.mark 2).mark 3) := rfl
  have hfind' : ((reservedMap.mark 2).mark 3).find = (4, formattedMap) := rfl
  simp only [FileHeader.allocate, hsectors, hclear]
  rw [if_neg (by decide)]
  simp only [Int.reduceToNat, FileHeader.allocateLoop, hfind, hfind']
  rfl

theorem mapHeader_fields (h : FileHeader) :
    (mapHeader h).numBytes = 128 ∧ (mapHeader h).numSectors = 1 ∧
      (mapHeader h).dataSectors 0 = 2 := by
  unfold mapHeader FileHeader.numBytes FileHeader.numSectors FileHeader.dataSectors
    FileHeader.setNumBytes FileHeader.setNumSectors FileHeader.setDataSector
  refine ⟨?_, ?_, ?_⟩
  · rw [loadInt_storeInt_of_ne (by omega), loadInt_storeInt_of_ne (by omega),
      loadInt_storeInt_self]
    rfl
  · rw [loadInt_storeInt_of_ne (by omega), loadInt_storeInt_self]
    rfl
  · rw [loadInt_storeInt_self]
    rfl

theorem directoryHeader_fields (h : FileHeader) :
    (directoryHeader h).numBytes = 200 ∧ (directoryHeader h).numSectors = 2 ∧
      (directoryHeader h).dataSectors 0 = 3 ∧ (directoryHeader h).dataSectors 1 = 4 := by
  unfold directoryHeader FileHeader.numBytes FileHeader.numSectors FileHeader.dataSectors
    FileHeader.setNumBytes FileHeader.setNumSectors FileHeader.setDataSector
  refine ⟨?_, ?_, ?_, ?_⟩
  · rw [loadInt_storeInt_of_ne (by omega), loadInt_storeInt_of_ne (by omega),
      loadInt_storeInt_of_ne (by omega), loadInt_storeInt_self]
    rfl
  · rw [loadInt_storeInt_of_ne (by omega), loadInt_storeInt_of_ne (by omega),
      loadInt_storeInt_self]
    rfl
  · rw [loadInt_storeInt_of_ne (by omega), loadInt_storeInt_self]
    rfl
  · rw [loadInt_storeInt_self]
    rfl

theorem isData_mapHeader {h : FileHeader} {j : Nat} {s : Int} :
    IsData (mapHeader h) j s ↔ j = 0 ∧ s = 2 := by
  obtain ⟨-, hsectors, hzero⟩ := mapHeader_fields h
  unfold IsData
  rw [hsectors]
  constructor
  · rintro ⟨hj, hs⟩
    obtain rfl : j = 0 := by simpa using hj
    exact ⟨rfl, hs.symm.trans hzero⟩
  · rintro ⟨rfl, rfl⟩
    exact ⟨by decide, hzero⟩

theorem isData_directoryHeader {h : FileHeader} {j : Nat} {s : Int} :
    IsData (directoryHeader h) j s ↔ (j = 0 ∧ s = 3) ∨ (j = 1 ∧ s = 4) := by
  obtain ⟨-, hsectors, hzero, hone⟩ := directoryHeader_fields h
  unfold IsData
  rw [hsectors]
  constructor
  · rintro ⟨hj, hs⟩
    have hcases : j = 0 ∨ j = 1 := by
      have : j < 2 := hj
      omega
    rcases hcases with rfl | rfl
    · exact Or.inl ⟨rfl, hs.symm.trans hzero⟩
    · exact Or.inr ⟨rfl, hs.symm.trans hone⟩
  · rintro (⟨rfl, rfl⟩ | ⟨rfl, rfl⟩)
    · exact ⟨by decide, hzero⟩
    · exact ⟨by decide, hone⟩

theorem mapHeader_good (h : FileHeader) : (mapHeader h).Good := by
  obtain ⟨hbytes, hsectors, -⟩ := mapHeader_fields h
  constructor
  · rw [hbytes]
    decide
  · rw [hbytes, hsectors]
    decide

theorem directoryHeader_good (h : FileHeader) : (directoryHeader h).Good := by
  obtain ⟨hbytes, hsectors, -⟩ := directoryHeader_fields h
  constructor
  · rw [hbytes]
    decide
  · rw [hbytes, hsectors]
    decide

/-- A header whose data sectors are on the disk and all different can be used. -/
theorem FileHeader.Good.usable {h : FileHeader} (hgood : h.Good)
    (hsector : ∀ j s, IsData h j s → IsSector s)
    (hunique : ∀ j j' s, IsData h j s → IsData h j' s → j = j') : h.Valid ∧ h.Distinct := by
  refine ⟨⟨hgood.size, fun j hj => hsector j _ (hgood.isData_iff.mpr ⟨hj, rfl⟩)⟩, ?_⟩
  intro j j' hj hj' heq
  exact hunique j j' _ (hgood.isData_iff.mpr ⟨hj, rfl⟩) (hgood.isData_iff.mpr ⟨hj', heq.symm⟩)

theorem test_formattedMap {s : Nat} : formattedMap.test s = true ↔ s < 5 := by
  have hmark : ∀ {b : BitMap} {i : Nat}, i < b.numBits →
      ((b.mark i).test s = true ↔ s = i ∨ b.test s = true) := by
    intro b i hi
    by_cases hs : i = s
    · subst hs
      simp [BitMap.test_mark_self hi]
    · rw [BitMap.test_mark_ne hs]
      simp [Ne.symm hs]
  unfold formattedMap reservedMap
  rw [hmark (by decide), hmark (by decide), hmark (by decide), hmark (by decide),
    hmark (by decide), BitMap.test_new]
  simp only [freeMapSector, directorySector, Int.toNat_zero, Int.toNat_one, Bool.false_eq_true,
    or_false]
  omega

/-- What is on the disk behind formatting. -/
structure Formatted (fs : FileSystem) (fresh : Fresh) : Prop where
  mapHdr : fs.freeMapFile.hdr = mapHeader (fresh 1)
  dirHdr : fs.directoryFile.hdr = directoryHeader (fresh 2)
  mapSector : fs.disk freeMapSector = mapHeader (fresh 1)
  dirSector : fs.disk directorySector = directoryHeader (fresh 2)
  freeMap : ∀ k, k < freeMapBytes → fs.mapImage k = formattedMap.image k
  directory : ∀ k, k < directoryFileSize → fs.directoryImage k = Directory.new (fresh 0) k

/-- Formatting does not fail. -/
theorem format_ok (disk : Sectors) (fresh : Fresh) :
    ∃ fs, FileSystem.format disk fresh = .ok fs ∧ Formatted fs fresh := by
  obtain ⟨hmapBytes, -⟩ := mapHeader_fields (fresh 1)
  obtain ⟨hdirBytes, -⟩ := directoryHeader_fields (fresh 2)
  have hmapUsable := (mapHeader_good (fresh 1)).usable
    (fun j s hdata => by
      rw [(isData_mapHeader.mp hdata).2]
      decide)
    (fun j j' s hdata hdata' => by
      rw [(isData_mapHeader.mp hdata).1, (isData_mapHeader.mp hdata').1])
  have hdirUsable := (directoryHeader_good (fresh 2)).usable
    (fun j s hdata => by
      rcases isData_directoryHeader.mp hdata with ⟨-, rfl⟩ | ⟨-, rfl⟩
      · decide
      · decide)
    (fun j j' s hdata hdata' => by
      have hfirst := isData_directoryHeader.mp hdata
      have hsecond := isData_directoryHeader.mp hdata'
      omega)
  have hheader : ∀ (h : FileHeader) (disk : Sectors) (n : Int), IsSector n →
      h.writeBack disk n = .ok (Function.update disk n h) := fun h disk n hn => if_pos hn
  have hopen : ∀ (disk : Sectors) (n : Int), IsSector n →
      OpenFile.new disk n = .ok ⟨disk n, 0⟩ := by
    intro disk n hn
    simp only [OpenFile.new, FileHeader.fetchFrom, readSector, if_pos hn, bind, Except.bind]
  -- the disk with the two headers on it
  obtain ⟨disk₁, hdisk₁⟩ : ∃ disk₁, disk₁ = Function.update (Function.update disk freeMapSector
    (mapHeader (fresh 1))) directorySector (directoryHeader (fresh 2)) := ⟨_, rfl⟩
  have hmapSector : disk₁ freeMapSector = mapHeader (fresh 1) := by
    rw [hdisk₁, Function.update_of_ne (by decide), Function.update_self]
  have hdirSector : disk₁ directorySector = directoryHeader (fresh 2) := by
    rw [hdisk₁, Function.update_self]
  obtain ⟨r₁, disk₂, hwriteMap, hframe₂, hbytes₂⟩ := writeAt_whole
    (f := ⟨mapHeader (fresh 1), 0⟩) hmapUsable.1 hmapUsable.2 (n := 128) hmapBytes disk₁ (fresh 3)
    formattedMap.image
  obtain ⟨r₂, disk₃, hwriteDir, hframe₃, hbytes₃⟩ := writeAt_whole
    (f := ⟨directoryHeader (fresh 2), 0⟩) hdirUsable.1 hdirUsable.2 (n := 200) hdirBytes disk₂
    (fresh 4) (Directory.new (fresh 0))
  have hkeepMap : ∀ s : Int, s ≠ 2 → disk₂ s = disk₁ s := by
    intro s hs
    apply hframe₂
    intro j hj heq
    exact hs (isData_mapHeader.mp ((mapHeader_good _).isData_iff.mpr ⟨hj, heq⟩)).2
  have hkeepDir : ∀ s : Int, s ≠ 3 → s ≠ 4 → disk₃ s = disk₂ s := by
    intro s hs hs'
    apply hframe₃
    intro j hj heq
    have hdata := isData_directoryHeader.mp ((directoryHeader_good _).isData_iff.mpr ⟨hj, heq⟩)
    omega
  refine ⟨⟨disk₃, ⟨mapHeader (fresh 1), 0⟩, ⟨directoryHeader (fresh 2), 0⟩⟩, ?_, ?_⟩
  · have hfirst := allocate_mapHeader (fresh 1)
    have hsecond := allocate_directoryHeader (fresh 2)
    have hmapWritten : formattedMap.writeBack ⟨mapHeader (fresh 1), 0⟩ disk₁ (fresh 3) =
        .ok disk₂ := congrArg (Except.map Prod.snd) hwriteMap
    have hdirWritten : (Directory.new (fresh 0)).writeBack ⟨directoryHeader (fresh 2), 0⟩ disk₂
        (fresh 4) = .ok disk₃ := congrArg (Except.map Prod.snd) hwriteDir
    unfold reservedMap at hfirst hsecond
    simp only [FileSystem.format, bind, Except.bind, hfirst, hsecond, assert, if_true,
      hheader _ _ freeMapSector (by decide), hheader _ _ directorySector (by decide), ← hdisk₁,
      hopen _ freeMapSector (by decide), hopen _ directorySector (by decide), hmapSector,
      hdirSector, hmapWritten, hdirWritten]
  constructor
  case mapHdr => rfl
  case dirHdr => rfl
  case mapSector =>
    show disk₃ freeMapSector = _
    rw [hkeepDir _ (by decide) (by decide), hkeepMap _ (by decide), hmapSector]
  case dirSector =>
    show disk₃ directorySector = _
    rw [hkeepDir _ (by decide) (by decide), hkeepMap _ (by decide), hdirSector]
  case freeMap =>
    intro k hk
    show (mapHeader (fresh 1)).fileByte disk₃ k = _
    rw [fileByte_congr (mapHeader_good _) ?_ (by rw [hmapBytes]; exact_mod_cast hk)]
    · exact hbytes₂ k hk
    · intro j s hdata
      rw [(isData_mapHeader.mp hdata).2]
      exact hkeepDir 2 (by decide) (by decide)
  case directory => exact hbytes₃

/-- Nothing but the free map and the directory is on a new disk. -/
theorem Formatted.sound {fs : FileSystem} {fresh : Fresh} (h : Formatted fs fresh) :
    Sound fs := by
  have hnone : ∀ i, ¬ IsFile fs.directoryImage i := by
    rintro i hfile
    obtain ⟨hi, hused⟩ := (isFile_congr h.directory).mp hfile
    unfold Directory.inUse Directory.new at hused
    simp at hused
  have hbit : ∀ s, s < numSectors → (fs.bit s = true ↔ s < 5) := by
    intro s hs
    rw [← test_formattedMap, BitMap.test_eq_getLsbD, ← BitMap.loadInt_image, FileSystem.bit]
    rw [loadInt_congr fun k _ hlt => h.freeMap k ?_]
    unfold numSectors bitsInWord freeMapBytes at *
    omega
  obtain ⟨hmapBytes, -⟩ := mapHeader_fields (fresh 1)
  obtain ⟨hdirBytes, -⟩ := directoryHeader_fields (fresh 2)
  constructor
  case mapHdr => rw [h.mapHdr, h.mapSector]
  case dirHdr => rw [h.dirHdr, h.dirSector]
  case mapSize =>
    rw [h.mapHdr, hmapBytes]
    rfl
  case dirSize =>
    rw [h.dirHdr, hdirBytes]
    rfl
  case mapGood =>
    rw [h.mapHdr]
    exact mapHeader_good _
  case dirGood =>
    rw [h.dirHdr]
    exact directoryHeader_good _
  case fileGood => exact fun i hfile => absurd hfile (hnone i)
  case names => exact fun i j hfile => absurd hfile (hnone i)
  case exclusive =>
    -- which sector plays which role
    have hplays : ∀ r s, Plays fs.disk fs.directoryImage r s ↔
        (r = .freeMapHeader ∧ s = 0) ∨ (r = .directoryHeader ∧ s = 1) ∨
        (r = .freeMapData 0 ∧ s = 2) ∨ (r = .directoryData 0 ∧ s = 3) ∨
        (r = .directoryData 1 ∧ s = 4) := by
      intro r s
      cases r with
      | freeMapHeader => simp [Plays, freeMapSector]
      | directoryHeader => simp [Plays, directorySector]
      | freeMapData j => simp [Plays, h.mapSector, isData_mapHeader]
      | directoryData j => simp [Plays, h.dirSector, isData_directoryHeader]
      | header i => simp [Plays, hnone i]
      | data i j => simp [Plays, hnone i]
    constructor
    case unique =>
      intro r r' s hr hr'
      have hfirst := (hplays r s).mp hr
      have hsecond := (hplays r' s).mp hr'
      grind
    case used_iff =>
      intro s
      constructor
      · rintro ⟨hsector, hset⟩
        unfold IsSector at hsector
        have hlt := (hbit s.toNat (by omega)).mp hset
        have hcases : s = 0 ∨ s = 1 ∨ s = 2 ∨ s = 3 ∨ s = 4 := by omega
        rcases hcases with rfl | rfl | rfl | rfl | rfl
        · exact ⟨.freeMapHeader, (hplays _ _).mpr (by simp)⟩
        · exact ⟨.directoryHeader, (hplays _ _).mpr (by simp)⟩
        · exact ⟨.freeMapData 0, (hplays _ _).mpr (by simp)⟩
        · exact ⟨.directoryData 0, (hplays _ _).mpr (by simp)⟩
        · exact ⟨.directoryData 1, (hplays _ _).mpr (by simp)⟩
      · rintro ⟨r, hr⟩
        have hrange : 0 ≤ s ∧ s < 5 := by
          have hcases := (hplays r s).mp hr
          omega
        have hnum : numSectors = 1024 := rfl
        exact ⟨⟨hrange.1, by omega⟩, (hbit s.toNat (by omega)).mpr (by omega)⟩

end Formatting

section Files

variable {fs : FileSystem} {disk' : Sectors} {j : Nat}

/-- File `j` is where it was, with the same header. -/
def KeepsFile (fs fs' : FileSystem) (j : Nat) : Prop :=
  IsFile fs'.directoryImage j ∧ fs'.directoryImage.sector j = fs.directoryImage.sector j ∧
    fs'.disk (fs.directoryImage.sector j) = fs.disk (fs.directoryImage.sector j)

/-- `Create` keeps every file. -/
theorem Creation.keepsFile {sector i : Nat} {hdr : FileHeader} {name : Memory}
    {initialSize : Int} {d : Directory} {b b' : BitMap}
    (h : Creation fs sector hdr i name initialSize d b b')
    (hcommit : Committed fs (Function.update fs.disk sector hdr) disk'
      (d.filled i name sector) b') (hsound : Sound fs) (hfile : IsFile fs.directoryImage j) :
    KeepsFile fs { fs with disk := disk' } j := by
  have hji : j ≠ i := by
    rintro rfl
    exact h.not_file hfile
  refine ⟨?_, ?_, ?_⟩
  · exact (isFile_other (h.entry_other hcommit) hji).mpr hfile
  · exact Directory.sector_congr (h.entry_other hcommit j hfile.1 hji)
  · exact h.keeps hcommit hsound (r := .header j) ⟨hfile, rfl⟩ (by simp) (by simp)

/-- `Remove` keeps every other file. -/
theorem Removal.keepsFile {i : Nat} {d : Directory} {b' : BitMap} (h : Removal fs i d b')
    (hcommit : Committed fs fs.disk disk' (d.setInUse i false) b') (hsound : Sound fs)
    (hji : j ≠ i) (hfile : IsFile fs.directoryImage j) :
    KeepsFile fs { fs with disk := disk' } j := by
  refine ⟨?_, ?_, ?_⟩
  · exact (isFile_other (h.entry_other hcommit) hji).mpr hfile
  · exact Directory.sector_congr (h.entry_other hcommit j hfile.1 hji)
  · exact hcommit.keeps hsound (r := .header j) ⟨hfile, rfl⟩ (by simp) (by simp)

/-- Writing to a file keeps every file where it is. -/
theorem Sound.written_keepsFile (h : Sound fs) {i : Nat}
    (hframe : ∀ s, (∀ j, ¬ Plays fs.disk fs.directoryImage (.data i j) s) →
      disk' s = fs.disk s) (hfile : IsFile fs.directoryImage j) :
    KeepsFile fs { fs with disk := disk' } j := by
  have hdirectory := h.written_directory hframe
  refine ⟨?_, ?_, ?_⟩
  · exact (isFile_congr hdirectory).mpr hfile
  · exact Directory.sector_congr (entry_agree hdirectory hfile.1)
  · exact h.written_keeps hframe (r := .header j) ⟨hfile, rfl⟩ (by simp)

end Files

end Filesys
end Nachos
