import Nachos.Filesys.OpenFile

/-!
# The directory

This module embeds `filesys/directory.cc`, and the two operations of
`userprog/bitmap.cc` that read and write a map.  The table of the directory is written
to its file as it is in memory, so it is modelled by its bytes: an entry has 20 of them,
`inUse`, `sector` and `name`, with padding between and behind.  A name is a pointer to
characters, the last of which is a null character.
-/

namespace Nachos
namespace Filesys

open Threads Userprog

/-- `FileNameMaxLen`. -/
def fileNameMaxLen : Nat := 9

/-- `NumDirEntries`. -/
def numDirEntries : Nat := 10

/-- `sizeof(DirectoryEntry)`. -/
def entrySize : Nat := 20

/-- `DirectoryFileSize`. -/
def directoryFileSize : Nat := entrySize * numDirEntries

/-- `!strncmp(&s[i], &t[i], n)`. -/
def strncmpEqual (s t : Memory) : Nat → Nat → Bool
  | 0, _ => true
  | n + 1, i =>
      if s i ≠ t i then false else if s i = 0 then true else strncmpEqual s t n (i + 1)

/-- What `strncpy` copies to character `k`: behind the end of the source it pads. -/
def strncpyChar (source : Memory) (k : Nat) : Byte :=
  if ∃ j, j < k ∧ source j = 0 then 0 else source k

/-- `class Directory`, by the bytes of its table of `numDirEntries` entries. -/
abbrev Directory := Memory

namespace Directory

/-- The field `inUse` of entry `i`. -/
def inUse (d : Directory) (i : Nat) : Bool := d (entrySize * i) ≠ 0

/-- The field `sector` of entry `i`. -/
def sector (d : Directory) (i : Nat) : Int := (Memory.loadInt d (entrySize * i + 4)).toInt

/-- The field `name` of entry `i`. -/
def name (d : Directory) (i : Nat) : Memory := fun k => d (entrySize * i + 8 + k)

/-- Assign to `inUse`. -/
def setInUse (d : Directory) (i : Nat) (used : Bool) : Directory :=
  Memory.storeByte d (entrySize * i) (if used then 1 else 0)

/-- Assign to `sector`. -/
def setSector (d : Directory) (i : Nat) (n : Int) : Directory :=
  Memory.storeInt d (entrySize * i + 4) (BitVec.ofInt 32 n)

/-- `strncpy(table[i].name, name, FileNameMaxLen)`. -/
def setName (d : Directory) (i : Nat) (name : Memory) : Directory :=
  bcopy (strncpyChar name) 0 d (entrySize * i + 8) fileNameMaxLen

/-- `Directory::Directory`; `fresh` is what the new table holds. -/
def new (fresh : Memory) : Directory :=
  fun k => if k % entrySize = 0 then 0 else fresh k

/-- `Directory::FetchFrom`. -/
def fetchFrom (d : Directory) (file : OpenFile) (disk : Sectors) : Except Stop Directory :=
  (file.readAt disk d 0 directoryFileSize 0).map Prod.snd

/-- `Directory::WriteBack`. -/
def writeBack (d : Directory) (file : OpenFile) (disk : Sectors) (fresh : Memory) :
    Except Stop Sectors :=
  (file.writeAt disk fresh d directoryFileSize 0).map Prod.snd

/-- The loop of `FindIndex` at entry `i`, with `rounds` to go. -/
def findIndexLoop (d : Directory) (name : Memory) : Nat → Nat → Option Nat
  | 0, _ => none
  | rounds + 1, i =>
      if d.inUse i ∧ strncmpEqual (d.name i) name fileNameMaxLen 0 then some i
      else d.findIndexLoop name rounds (i + 1)

/-- `Directory::FindIndex`; -1 is `none`. -/
def findIndex (d : Directory) (name : Memory) : Option Nat :=
  d.findIndexLoop name numDirEntries 0

/-- `Directory::Find`. -/
def find (d : Directory) (name : Memory) : Int :=
  match d.findIndex name with
  | some i => d.sector i
  | none => -1

/-- The loop of `Add` at entry `i`, with `rounds` to go. -/
def addLoop (d : Directory) (name : Memory) (newSector : Int) : Nat → Nat → Option Directory
  | 0, _ => none
  | rounds + 1, i =>
      if d.inUse i then d.addLoop name newSector rounds (i + 1)
      else some (((d.setInUse i true).setName i name).setSector i newSector)

/-- `Directory::Add`; `none` is `FALSE`. -/
def add (d : Directory) (name : Memory) (newSector : Int) : Option Directory :=
  match d.findIndex name with
  | some _ => none
  | none => d.addLoop name newSector numDirEntries 0

/-- `Directory::Remove`; `none` is `FALSE`. -/
def remove (d : Directory) (name : Memory) : Option Directory :=
  match d.findIndex name with
  | some i => some (d.setInUse i false)
  | none => none

end Directory

section Names

variable {s t : Memory}

/-- Names that are stored alike are equal for `strncmp`. -/
theorem strncmpEqual_of_stored {n i : Nat}
    (hstored : ∀ k, i ≤ k → k < i + n → s k = strncpyChar t k)
    (hbefore : ∀ j, j < i → t j ≠ 0) : strncmpEqual s t n i = true := by
  induction n generalizing i with
  | zero => rfl
  | succ n ih =>
      have hhere : s i = t i := by
        rw [hstored i (by omega) (by omega), strncpyChar, if_neg]
        rintro ⟨j, hj, hzero⟩
        exact hbefore j hj hzero
      rw [strncmpEqual, if_neg (by simpa using hhere)]
      split
      · rfl
      · rename_i hchar
        apply ih
        · intro k hle hlt
          exact hstored k (by omega) (by omega)
        · intro j hj
          by_cases hji : j = i
          · rw [hji, ← hhere]
            exact hchar
          · exact hbefore j (by omega)

end Names

namespace Directory

variable {d d' : Directory} {name : Memory} {i j : Nat}

section Entries

/-- An entry depends on its bytes. -/
theorem inUse_congr (h : ∀ k, entrySize * i ≤ k → k < entrySize * i + entrySize → d' k = d k) :
    d'.inUse i = d.inUse i := by
  unfold inUse
  rw [h _ (Nat.le_refl _) (by unfold entrySize; omega)]

theorem sector_congr (h : ∀ k, entrySize * i ≤ k → k < entrySize * i + entrySize → d' k = d k) :
    d'.sector i = d.sector i := by
  unfold sector
  rw [loadInt_congr fun k hle hlt => h k (by omega) (by unfold entrySize at *; omega)]

theorem name_congr (h : ∀ k, entrySize * i ≤ k → k < entrySize * i + entrySize → d' k = d k)
    {k : Nat} (hk : k < fileNameMaxLen) : d'.name i k = d.name i k := by
  unfold fileNameMaxLen at hk
  exact h _ (by omega) (by unfold entrySize; omega)

/-- The entry that `Add` fills in. -/
def filled (d : Directory) (i : Nat) (name : Memory) (n : Int) : Directory :=
  ((d.setInUse i true).setName i name).setSector i n

theorem filled_outside {n : Int} {k : Nat}
    (hk : k < entrySize * i ∨ entrySize * i + entrySize ≤ k) : d.filled i name n k = d k := by
  unfold filled setSector setName setInUse bcopy Memory.storeByte
  unfold entrySize at *
  rw [storeInt_of_ne (by omega), if_neg (by unfold fileNameMaxLen; omega),
    Function.update_of_ne (by omega)]

theorem filled_inUse {n : Int} : (d.filled i name n).inUse i = true := by
  unfold inUse filled setSector setName bcopy
  rw [storeInt_of_ne (by omega), if_neg (by omega), setInUse, Memory.storeByte,
    Function.update_self]
  rfl

theorem filled_sector {n : Int} (hlow : 0 ≤ n) (hhigh : n < 2 ^ 31) :
    (d.filled i name n).sector i = n := by
  unfold sector filled setSector
  rw [loadInt_storeInt_self, toInt_ofInt_of_range (by omega) hhigh]

theorem filled_name {n : Int} {k : Nat} (hk : k < fileNameMaxLen) :
    (d.filled i name n).name i k = strncpyChar name k := by
  unfold Directory.name filled setSector setName bcopy
  unfold fileNameMaxLen at *
  rw [storeInt_of_ne (by omega), if_pos (by omega)]
  congr 1
  omega

theorem cleared_other (hij : j ≠ i) : ∀ k, entrySize * j ≤ k → k < entrySize * j + entrySize →
    d.setInUse i false k = d k := by
  intro k hle hlt
  unfold setInUse Memory.storeByte
  unfold entrySize at *
  rw [Function.update_of_ne (by omega)]

theorem cleared_inUse : (d.setInUse i false).inUse i = false := by
  unfold inUse setInUse Memory.storeByte
  rw [Function.update_self]
  rfl

end Entries

/-- The entry that `FindIndex` answers with. -/
theorem findIndexLoop_eq_some {rounds : Nat} (h : d.findIndexLoop name rounds i = some j) :
    i ≤ j ∧ j < i + rounds ∧ d.inUse j = true ∧
      strncmpEqual (d.name j) name fileNameMaxLen 0 = true := by
  induction rounds generalizing i with
  | zero => exact absurd h (by simp [findIndexLoop])
  | succ rounds ih =>
      rw [findIndexLoop] at h
      split at h
      · rename_i hfound
        obtain rfl := Option.some.inj h
        exact ⟨Nat.le_refl _, by omega, hfound.1, hfound.2⟩
      · obtain ⟨hle, hlt, hrest⟩ := ih h
        exact ⟨by omega, by omega, hrest⟩

theorem findIndexLoop_eq_none {rounds : Nat} (h : d.findIndexLoop name rounds i = none)
    (hle : i ≤ j) (hlt : j < i + rounds) (hused : d.inUse j = true) :
    strncmpEqual (d.name j) name fileNameMaxLen 0 = false := by
  induction rounds generalizing i with
  | zero => omega
  | succ rounds ih =>
      rw [findIndexLoop] at h
      split at h
      · exact absurd h (by simp)
      · rename_i hother
        by_cases hij : i = j
        · subst hij
          simpa [hused] using hother
        · exact ih h (by omega) (by omega)

/-- The entry that `Add` takes is free. -/
theorem addLoop_eq_some {n : Int} {rounds : Nat} (h : d.addLoop name n rounds i = some d') :
    ∃ j, i ≤ j ∧ j < i + rounds ∧ d.inUse j = false ∧ d' = d.filled j name n := by
  induction rounds generalizing i with
  | zero => exact absurd h (by simp [addLoop])
  | succ rounds ih =>
      rw [addLoop] at h
      split at h
      · obtain ⟨j, hle, hlt, hrest⟩ := ih h
        exact ⟨j, by omega, by omega, hrest⟩
      · rename_i hfree
        exact ⟨i, Nat.le_refl _, by omega, by simpa using hfree, (Option.some.inj h).symm⟩

/-- What `Add` does: it fills in a free entry, with a name that no other entry has. -/
theorem add_eq_some {n : Int} (h : d.add name n = some d') :
    ∃ i, i < numDirEntries ∧ d.inUse i = false ∧ d' = d.filled i name n ∧
      ∀ j, j < numDirEntries → d.inUse j = true →
        strncmpEqual (d.name j) name fileNameMaxLen 0 = false := by
  unfold add at h
  split at h
  · exact absurd h (by simp)
  · rename_i hnone
    obtain ⟨i, -, hlt, hfree, hd'⟩ := addLoop_eq_some h
    refine ⟨i, by omega, hfree, hd', fun j hj hused => ?_⟩
    exact findIndexLoop_eq_none hnone (Nat.zero_le j) (by omega) hused

/-- The new name differs from all others in its first characters. -/
theorem exists_char_ne (h : strncmpEqual (d.name j) name fileNameMaxLen 0 = false) :
    ∃ k, k < fileNameMaxLen ∧ d.name j k ≠ strncpyChar name k := by
  by_contra hall
  have hstored : ∀ k, 0 ≤ k → k < 0 + fileNameMaxLen → d.name j k = strncpyChar name k := by
    intro k _ hk
    by_contra hne
    exact hall ⟨k, by omega, hne⟩
  rw [strncmpEqual_of_stored hstored (by simp)] at h
  exact absurd h (by simp)

end Directory

end Filesys

namespace Userprog
namespace BitMap

open Threads Filesys

/-- The bytes of a map. -/
def image (b : BitMap) : Memory :=
  fun k => (b.map.getD (k / 4) 0).extractLsb' (24 - 8 * (k % 4)) 8

/-- A map by its bytes. -/
def ofImage (numBits : Nat) (m : Memory) : BitMap where
  numBits := numBits
  map := (List.range (divRoundUp numBits bitsInWord)).map fun w => m.loadInt (4 * w)
  words := by
    rw [List.length_map, List.length_range]
    exact le_mul_divRoundUp numBits

/-- The number of bytes of a map. -/
def imageSize (b : BitMap) : Nat := 4 * b.map.length

/-- `BitMap::FetchFrom`. -/
def fetchFrom (b : BitMap) (file : OpenFile) (disk : Sectors) : Except Stop BitMap :=
  (file.readAt disk b.image 0 b.imageSize 0).map fun r => ofImage b.numBits r.2

/-- `BitMap::WriteBack`. -/
def writeBack (b : BitMap) (file : OpenFile) (disk : Sectors) (fresh : Memory) :
    Except Stop Sectors :=
  (file.writeAt disk fresh b.image b.imageSize 0).map Prod.snd

variable {b : BitMap} {m : Memory} {i n : Nat}

/-- A word of a map by its bytes. -/
theorem loadInt_image (b : BitMap) (w : Nat) : b.image.loadInt (4 * w) = b.map.getD w 0 := by
  have hbyte : ∀ j, j < 4 →
      b.image (4 * w + j) = (b.map.getD w 0).extractLsb' (24 - 8 * j) 8 := by
    intro j hj
    unfold image
    rw [show (4 * w + j) / 4 = w by omega, show (4 * w + j) % 4 = j by omega]
  rw [← append_bytes (b.map.getD w 0)]
  unfold Memory.loadInt
  rw [hbyte 1 (by omega), hbyte 2 (by omega), hbyte 3 (by omega)]
  exact congrArg (fun byte : Byte => byte ++ _ ++ _ ++ _) (hbyte 0 (by omega))

/-- A bit of a map that was read. -/
theorem test_ofImage (hi : i < n) : (ofImage n m).test i =
    (m.loadInt (4 * (i / bitsInWord))).getLsbD (i % bitsInWord) := by
  have hword : i / bitsInWord < divRoundUp n bitsInWord := by
    have hwords := le_mul_divRoundUp n
    unfold bitsInWord at *
    omega
  rw [test_eq_getLsbD, ofImage, List.getD_eq_getElem?_getD, List.getElem?_map,
    List.getElem?_range hword]
  rfl

end BitMap
end Userprog
end Nachos
