import Nachos.Filesys.CreateSizes

/-!
# What the files hold

The bytes of a file are those of its data sectors, and its name is what the directory has,
up to the end of the characters that are stored.  `Create` adds a file and `Remove` takes one
away, `WriteAt` replaces bytes of one file, and the other files keep name and bytes.
-/

namespace Nachos
namespace Filesys

open Threads Userprog Lib

/-- A name as it is stored. -/
abbrev StoredName := Fin fileNameMaxLen → Byte

def storedName (name : Memory) : StoredName := fun k => strncpyChar name k

/-- The bytes of a file. -/
def FileHeader.bytes (hdr : FileHeader) (disk : Sectors) : List Byte :=
  (List.range hdr.numBytes.toNat).map (hdr.fileByte disk)

namespace FileSystem

variable (fs : FileSystem) (i : Nat)

/-- The entries of the directory that are files. -/
def entries : Finset Nat := {i ∈ Finset.range numDirEntries | fs.directoryImage.inUse i = true}

/-- The header of the file in entry `i`, its name and its bytes. -/
def headerAt : FileHeader := fs.disk (fs.directoryImage.sector i)

def nameAt : StoredName := storedName (fs.directoryImage.name i)

def bytesAt : List Byte := (fs.headerAt i).bytes fs.disk

/-- The names of the files. -/
def names : Finset StoredName := fs.entries.image fs.nameAt

end FileSystem

section Names

variable {s t : Memory}

/-- Names are equal for `strncmp` when they are stored alike. -/
theorem strncmpEqual_iff_stored {n i : Nat} (hs : ∀ j, j < i → s j ≠ 0)
    (ht : ∀ j, j < i → t j ≠ 0) :
    strncmpEqual s t n i = true ↔
      ∀ k, i ≤ k → k < i + n → strncpyChar s k = strncpyChar t k := by
  induction n generalizing i with
  | zero =>
      constructor
      · intro _ k hle hlt
        omega
      · intro _
        rfl
  | succ n ih =>
      have hsi : strncpyChar s i = s i := if_neg fun ⟨j, hj, hzero⟩ => hs j hj hzero
      have hti : strncpyChar t i = t i := if_neg fun ⟨j, hj, hzero⟩ => ht j hj hzero
      rw [strncmpEqual]
      by_cases hne : s i ≠ t i
      · rw [if_pos hne]
        constructor
        · intro h
          exact absurd h (by simp)
        · intro h
          have hhere := h i (Nat.le_refl i) (by omega)
          rw [hsi, hti] at hhere
          exact absurd hhere hne
      · rw [if_neg hne]
        have heq : s i = t i := not_not.mp hne
        by_cases hzero : s i = 0
        · -- both names end here
          rw [if_pos hzero]
          have hpad : ∀ k, i ≤ k → strncpyChar s k = strncpyChar t k := by
            intro k hle
            by_cases hk : k = i
            · rw [hk, hsi, hti, heq]
            · have hks : strncpyChar s k = 0 := if_pos ⟨i, by omega, hzero⟩
              have hkt : strncpyChar t k = 0 := if_pos ⟨i, by omega, heq ▸ hzero⟩
              rw [hks, hkt]
          exact ⟨fun _ k hle _ => hpad k hle, fun _ => rfl⟩
        · rw [if_neg hzero, ih (i := i + 1)]
          · constructor
            · intro h k hle hlt
              by_cases hk : k = i
              · rw [hk, hsi, hti, heq]
              · exact h k (by omega) (by omega)
            · intro h k hle hlt
              exact h k (by omega) (by omega)
          · intro j hj
            by_cases hji : j = i
            · rw [hji]
              exact hzero
            · exact hs j (by omega)
          · intro j hj
            by_cases hji : j = i
            · rw [hji, ← heq]
              exact hzero
            · exact ht j (by omega)

theorem storedName_eq_iff :
    storedName s = storedName t ↔ strncmpEqual s t fileNameMaxLen 0 = true := by
  rw [strncmpEqual_iff_stored (by simp) (by simp)]
  constructor
  · intro h k _ hk
    exact congrFun h ⟨k, by omega⟩
  · intro h
    funext k
    exact h k (Nat.zero_le _) (by omega)

theorem storedName_congr (h : ∀ k, k < fileNameMaxLen → s k = t k) :
    storedName s = storedName t := by
  funext k
  have hend : (∃ j, j < (k : Nat) ∧ s j = 0) ↔ ∃ j, j < (k : Nat) ∧ t j = 0 := by
    refine exists_congr fun j => and_congr_right fun hj => ?_
    rw [h j (by omega)]
  simp only [storedName, strncpyChar, hend, h k k.isLt]

end Names

section Files

variable {fs fs' : FileSystem} {i : Nat} {disk disk' : Sectors} {hdr : FileHeader}

theorem mem_entries : i ∈ fs.entries ↔ IsFile fs.directoryImage i := by
  rw [FileSystem.entries, Finset.mem_filter, Finset.mem_range]
  exact Iff.rfl

@[simp]
theorem FileHeader.bytes_length : (hdr.bytes disk).length = hdr.numBytes.toNat := by
  rw [FileHeader.bytes, List.length_map, List.length_range]

theorem FileHeader.bytes_getElem? {k : Nat} : (hdr.bytes disk)[k]? =
    if k < hdr.numBytes.toNat then some (hdr.fileByte disk k) else none := by
  rw [FileHeader.bytes, List.getElem?_map]
  by_cases hk : k < hdr.numBytes.toNat
  · rw [List.getElem?_range hk, if_pos hk]
    rfl
  · rw [List.getElem?_eq_none (by rw [List.length_range]; omega), if_neg hk]
    rfl

/-- The bytes of a file depend on its data sectors. -/
theorem bytes_congr (hgood : hdr.Good) (h : ∀ j s, IsData hdr j s → disk' s = disk s) :
    hdr.bytes disk' = hdr.bytes disk := by
  refine List.map_congr_left fun k hk => ?_
  rw [List.mem_range] at hk
  exact fileByte_congr hgood h (by omega)

/-- A file whose entry, header and data sectors stay keeps its name and its bytes. -/
structure SameFile (fs fs' : FileSystem) (i : Nat) : Prop where
  kept : KeepsFile fs fs' i
  name : fs'.nameAt i = fs.nameAt i
  bytes : fs'.bytesAt i = fs.bytesAt i

theorem nameAt_congr (h : ∀ k, entrySize * i ≤ k → k < entrySize * i + entrySize →
    fs'.directoryImage k = fs.directoryImage k) : fs'.nameAt i = fs.nameAt i :=
  storedName_congr fun _ hk => Directory.name_congr h hk

theorem KeepsFile.headerAt_eq (h : KeepsFile fs fs' i) : fs'.headerAt i = fs.headerAt i := by
  rw [FileSystem.headerAt, h.2.1]
  exact h.2.2

theorem Sound.sameFile (h : Sound fs) (hfile : IsFile fs.directoryImage i)
    (hkept : KeepsFile fs fs' i) (hname : fs'.nameAt i = fs.nameAt i)
    (hdata : ∀ j s, Plays fs.disk fs.directoryImage (.data i j) s → fs'.disk s = fs.disk s) :
    SameFile fs fs' i := by
  refine ⟨hkept, hname, ?_⟩
  rw [FileSystem.bytesAt, hkept.headerAt_eq]
  exact bytes_congr (h.fileGood i hfile) fun j s hj => hdata j s ⟨hfile, hj⟩

end Files

section Creating

variable {fs : FileSystem} {sector i : Nat} {hdr : FileHeader} {name : Memory} {initialSize : Int}
  {d : Directory} {b b' : BitMap} {disk' : Sectors}
  (h : Creation fs sector hdr i name initialSize d b b')
  (hcommit : Committed fs (Function.update fs.disk sector hdr) disk' (d.filled i name sector) b')

include h hcommit

theorem Creation.entries :
    FileSystem.entries { fs with disk := disk' } = insert i fs.entries := by
  ext j
  rw [Finset.mem_insert, mem_entries, mem_entries]
  by_cases hji : j = i
  · subst hji
    simp [h.isFile_new hcommit]
  · rw [isFile_other (h.entry_other hcommit) hji]
    simp [hji]

theorem Creation.nameAt_new :
    FileSystem.nameAt { fs with disk := disk' } i = storedName name :=
  storedName_eq_iff.mpr ((h.named_iff hcommit (h.isFile_new hcommit)).mpr rfl)

variable (hsound : Sound fs)

include hsound

/-- The other files stay as they are. -/
theorem Creation.sameFile {j : Nat} (hfile : IsFile fs.directoryImage j) :
    SameFile fs { fs with disk := disk' } j := by
  have hji : j ≠ i := by
    rintro rfl
    exact h.not_file hfile
  refine hsound.sameFile hfile (h.keepsFile hcommit hsound hfile)
    (nameAt_congr (h.entry_other hcommit j hfile.1 hji)) fun k s hdata => ?_
  exact h.keeps hcommit hsound hdata (by simp) (by simp)

omit hcommit hsound in
/-- No other file has the name. -/
theorem Creation.name_fresh : storedName name ∉ fs.names := by
  intro hmem
  obtain ⟨j, hj, hname⟩ := Finset.mem_image.mp hmem
  have hfile := mem_entries.mp hj
  have hequal := storedName_eq_iff.mp hname
  have hd := entry_agree h.directory hfile.1
  have hother := h.name_new j hfile.1 ((Directory.inUse_congr hd).trans hfile.2)
  rw [strncmpEqual_congr fun k _ hk => Directory.name_congr hd (by omega), hequal] at hother
  exact absurd hother (by simp)

theorem Creation.headerAt_new : FileSystem.headerAt { fs with disk := disk' } i = hdr := by
  rw [FileSystem.headerAt, h.sector_new hcommit]
  exact h.newHeader hcommit hsound

theorem Creation.bytesAt_length :
    (FileSystem.bytesAt { fs with disk := disk' } i).length = initialSize.toNat := by
  rw [FileSystem.bytesAt, FileHeader.bytes_length, h.headerAt_new hcommit hsound,
    h.header.numBytes]

end Creating

section Removing

variable {fs : FileSystem} {i : Nat} {d : Directory} {b' : BitMap} {disk' : Sectors}
  (h : Removal fs i d b') (hcommit : Committed fs fs.disk disk' (d.setInUse i false) b')

include h hcommit

theorem Removal.entries :
    FileSystem.entries { fs with disk := disk' } = fs.entries.erase i := by
  ext j
  rw [Finset.mem_erase, mem_entries, mem_entries]
  by_cases hji : j = i
  · subst hji
    simp [hcommit.not_file]
  · rw [isFile_other (h.entry_other hcommit) hji]
    simp [hji]

theorem Removal.sameFile (hsound : Sound fs) {j : Nat} (hji : j ≠ i)
    (hfile : IsFile fs.directoryImage j) : SameFile fs { fs with disk := disk' } j := by
  refine hsound.sameFile hfile (h.keepsFile hcommit hsound hji hfile)
    (nameAt_congr (h.entry_other hcommit j hfile.1 hji)) fun k s hdata => ?_
  exact hcommit.keeps hsound hdata (by simp) (by simp)

end Removing

section Writing

variable {fs : FileSystem} {disk' : Sectors} {i j : Nat}

theorem Sound.written_entries (h : Sound fs)
    (hframe : ∀ s, (∀ j, ¬ Plays fs.disk fs.directoryImage (.data i j) s) →
      disk' s = fs.disk s) : FileSystem.entries { fs with disk := disk' } = fs.entries := by
  ext k
  rw [mem_entries, mem_entries]
  exact isFile_congr (h.written_directory hframe)

theorem Sound.written_nameAt (h : Sound fs)
    (hframe : ∀ s, (∀ j, ¬ Plays fs.disk fs.directoryImage (.data i j) s) →
      disk' s = fs.disk s) (hj : j < numDirEntries) :
    FileSystem.nameAt { fs with disk := disk' } j = fs.nameAt j :=
  nameAt_congr (entry_agree (h.written_directory hframe) hj)

/-- Writing to one file leaves the others as they are. -/
theorem Sound.written_sameFile (h : Sound fs)
    (hframe : ∀ s, (∀ j, ¬ Plays fs.disk fs.directoryImage (.data i j) s) →
      disk' s = fs.disk s) (hji : j ≠ i) (hfile : IsFile fs.directoryImage j) :
    SameFile fs { fs with disk := disk' } j := by
  refine h.sameFile hfile (h.written_keepsFile hframe hfile)
    (h.written_nameAt hframe hfile.1) fun k s hdata => ?_
  refine h.written_keeps hframe hdata fun k' heq => ?_
  exact hji (Role.data.inj heq).1

end Writing

end Filesys
end Nachos
