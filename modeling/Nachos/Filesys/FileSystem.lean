import Nachos.Filesys.Directory
import Nachos.Lib.FileStore

/-!
# The file system

This module embeds `filesys/filesys.cc`: formatting, `Create`, `Open` and `Remove`, and
the operations of open files beside them.  The memory that `new` gives out holds what
the environment chooses; `fresh n` is that of the n-th object of a call.

`Plays` says what a sector is used for, as the structures on the disk tell it.  The
sector that a file was opened at, and whether the file has been removed since, are
ghosts.
-/

namespace Nachos
namespace Filesys

open Threads Userprog Lib

/-- What new memory holds. -/
abbrev Fresh := Nat → Memory

/-- `FreeMapSector` and `DirectorySector`. -/
def freeMapSector : Int := 0

def directorySector : Int := 1

/-- `FreeMapFileSize`. -/
def freeMapFileSize : Nat := numSectors / 8

/-- `class FileSystem`, with the disk. -/
structure FileSystem where
  disk : Sectors
  freeMapFile : OpenFile
  directoryFile : OpenFile

/-- `ASSERT`. -/
def assert (condition : Bool) : Except Stop Unit :=
  if condition then .ok () else .error .assertFailed

namespace FileSystem

/-- `FileSystem::FileSystem(TRUE)`. -/
def format (disk : Sectors) (fresh : Fresh) : Except Stop FileSystem := do
  let freeMap := ((BitMap.new numSectors).mark freeMapSector.toNat).mark directorySector.toNat
  let directory := Directory.new (fresh 0)
  let (ok, mapHdr, freeMap) ← FileHeader.allocate (fresh 1) freeMap freeMapFileSize
  assert ok
  let (ok, dirHdr, freeMap) ← FileHeader.allocate (fresh 2) freeMap directoryFileSize
  assert ok
  let disk ← mapHdr.writeBack disk freeMapSector
  let disk ← dirHdr.writeBack disk directorySector
  let freeMapFile ← OpenFile.new disk freeMapSector
  let directoryFile ← OpenFile.new disk directorySector
  let disk ← freeMap.writeBack freeMapFile disk (fresh 3)
  let disk ← directory.writeBack directoryFile disk (fresh 4)
  .ok ⟨disk, freeMapFile, directoryFile⟩

/-- `directory->FetchFrom(directoryFile)`, for a new directory. -/
def fetchDirectory (fs : FileSystem) (fresh : Memory) : Except Stop Directory :=
  (Directory.new fresh).fetchFrom fs.directoryFile fs.disk

/-- `freeMap->FetchFrom(freeMapFile)`, for a new map. -/
def fetchFreeMap (fs : FileSystem) : Except Stop BitMap :=
  (BitMap.new numSectors).fetchFrom fs.freeMapFile fs.disk

/-- The end of `Create`: the header is allocated, and everything is written. -/
def createFile (fs : FileSystem) (fresh : Fresh) (directory : Directory) (freeMap : BitMap)
    (sector initialSize : Int) : Except Stop (Bool × FileSystem) := do
  let (ok, hdr, freeMap) ← FileHeader.allocate (fresh 1) freeMap initialSize
  if ok then
    let disk ← hdr.writeBack fs.disk sector
    let disk ← directory.writeBack fs.directoryFile disk (fresh 2)
    let disk ← freeMap.writeBack fs.freeMapFile disk (fresh 3)
    .ok (true, { fs with disk := disk })
  else .ok (false, fs)

/-- `FileSystem::Create`. -/
def create (fs : FileSystem) (fresh : Fresh) (name : Memory) (initialSize : Int) :
    Except Stop (Bool × FileSystem) := do
  let directory ← fs.fetchDirectory (fresh 0)
  if directory.find name ≠ -1 then .ok (false, fs)
  else
    let freeMap ← fs.fetchFreeMap
    if freeMap.find.1 = -1 then .ok (false, fs)
    else
      match directory.add name freeMap.find.1 with
      | none => .ok (false, fs)
      | some directory =>
          fs.createFile fresh directory freeMap.find.2 freeMap.find.1 initialSize

/-- The sector that the directory has for a name. -/
def lookup (fs : FileSystem) (fresh : Fresh) (name : Memory) : Except Stop Int := do
  let directory ← fs.fetchDirectory (fresh 0)
  .ok (directory.find name)

/-- `FileSystem::Open`; `none` is the null pointer. -/
def openFile (fs : FileSystem) (fresh : Fresh) (name : Memory) :
    Except Stop (Option OpenFile) := do
  let sector ← fs.lookup fresh name
  if sector ≥ 0 then
    let file ← OpenFile.new fs.disk sector
    .ok (some file)
  else .ok none

/-- `freeMap->Clear(sector)`. -/
def clearSector (freeMap : BitMap) (sector : Int) : Except Stop BitMap :=
  if 0 ≤ sector ∧ sector < freeMap.numBits then .ok (freeMap.clear sector.toNat)
  else .error .assertFailed

/-- `FileSystem::Remove`. -/
def remove (fs : FileSystem) (fresh : Fresh) (name : Memory) :
    Except Stop (Bool × FileSystem) := do
  let directory ← fs.fetchDirectory (fresh 0)
  if directory.find name = -1 then .ok (false, fs)
  else
    let fileHdr ← FileHeader.fetchFrom fs.disk (directory.find name)
    let freeMap ← fs.fetchFreeMap
    let freeMap ← fileHdr.deallocate freeMap
    let freeMap ← clearSector freeMap (directory.find name)
    let disk ← freeMap.writeBack fs.freeMapFile fs.disk (fresh 2)
    let disk ← ((directory.remove name).getD directory).writeBack fs.directoryFile disk (fresh 3)
    .ok (true, { fs with disk := disk })

end FileSystem

/-- A file that was opened, at which sector, and whether it has been removed since. -/
structure Handle where
  file : OpenFile
  sector : Int
  removed : Bool

/-- The file system and the files that were opened. -/
structure Volume where
  fs : FileSystem
  opened : List Handle

/-- A call of the file system or of an open file.  Files are numbered as they were
opened. -/
inductive FileCall
  | create (name : Memory) (initialSize : Word)
  | openFile (name : Memory)
  | remove (name : Memory)
  | length (file : Nat)
  | seek (file : Nat) (position : Word)
  | read (file : Nat) (into : Memory) (numBytes : Word)
  | readAt (file : Nat) (into : Memory) (numBytes position : Word)
  | write (file : Nat) (source : Memory) (numBytes : Word)
  | writeAt (file : Nat) (source : Memory) (numBytes position : Word)

/-- A call, and what new memory holds in it. -/
structure FileChoice where
  call : FileCall
  fresh : Fresh

namespace Volume

/-- The file that was opened as the n-th one. -/
def handle (v : Volume) (n : Nat) : Except Stop Handle :=
  match v.opened[n]? with
  | some h => .ok h
  | none => .error .nullDereference

/-- Assign to the n-th file. -/
def setFile (v : Volume) (n : Nat) (file : OpenFile) : Volume :=
  { v with opened := v.opened.modify n fun h => { h with file := file } }

/-- The files that were opened at a sector are removed. -/
def markRemoved (v : Volume) (sector : Int) : Volume :=
  { v with opened := v.opened.map fun h =>
      if h.sector = sector then { h with removed := true } else h }

/-- One call, with its answer: what it returns, and the bytes that it read. -/
def perform (choice : FileChoice) (v : Volume) :
    Except Stop (StoreAnswer Byte × Volume) :=
  match choice.call with
  | .create name initialSize => do
      let (ok, fs) ← v.fs.create choice.fresh name initialSize.toInt
      .ok (.done ok, { v with fs := fs })
  | .openFile name => do
      let sector ← v.fs.lookup choice.fresh name
      let file ← v.fs.openFile choice.fresh name
      .ok (.done file.isSome,
        { v with opened := v.opened ++ (file.map fun f => ⟨f, sector, false⟩).toList })
  | .remove name => do
      let sector ← v.fs.lookup choice.fresh name
      let (ok, fs) ← v.fs.remove choice.fresh name
      .ok (.done ok, if ok then { v with fs := fs }.markRemoved sector else { v with fs := fs })
  | .length n => do
      let h ← v.handle n
      .ok (.count h.file.length, v)
  | .seek n position => do
      let h ← v.handle n
      .ok (.sought, v.setFile n (h.file.seek position.toInt))
  | .read n into numBytes => do
      let h ← v.handle n
      let (result, into, file) ← h.file.read v.fs.disk into numBytes.toInt
      .ok (.data ((List.range result.toNat).map into), v.setFile n file)
  | .readAt n into numBytes position => do
      let h ← v.handle n
      let (result, into) ← h.file.readAt v.fs.disk into 0 numBytes.toInt position.toInt
      .ok (.data ((List.range result.toNat).map into), v)
  | .write n source numBytes => do
      let h ← v.handle n
      let (result, disk, file) ← h.file.write v.fs.disk (choice.fresh 0) source numBytes.toInt
      .ok (.count result, { v with fs := { v.fs with disk := disk } }.setFile n file)
  | .writeAt n source numBytes position => do
      let h ← v.handle n
      let (result, disk) ← h.file.writeAt v.fs.disk (choice.fresh 0) source numBytes.toInt
        position.toInt
      .ok (.count result, { v with fs := { v.fs with disk := disk } })

/-- One call. -/
def step (choice : FileChoice) (v : Volume) : Except Stop Volume :=
  (v.perform choice).map Prod.snd

/-- The file that a call writes to. -/
def writtenFile : FileCall → Option Nat
  | .write n _ _ => some n
  | .writeAt n _ _ _ => some n
  | _ => none

/-- A call does not write through a file that has been removed since it was opened. -/
def WritesLive (v : Volume) (choice : FileChoice) : Prop :=
  ∀ n h, writtenFile choice.call = some n → v.opened[n]? = some h → h.removed = false

/-- The runs in which no removed file is written to. -/
abbrev Run : Volume → Volume → Prop := Reach step WritesLive

end Volume

/-- What a sector is used for.  Files are numbered as in the directory. -/
inductive Role
  | freeMapHeader
  | directoryHeader
  | freeMapData (j : Nat)
  | directoryData (j : Nat)
  | header (i : Nat)
  | data (i j : Nat)
  deriving DecidableEq

/-- Entry `i` of the directory is a file. -/
def IsFile (d : Directory) (i : Nat) : Prop := i < numDirEntries ∧ d.inUse i = true

/-- The sector is a data sector of the file with this header. -/
def IsData (h : FileHeader) (j : Nat) (s : Int) : Prop :=
  j < h.numSectors.toNat ∧ h.dataSectors j = s

/-- Sector `s` is used in this way, on a disk with directory `d`. -/
def Plays (disk : Sectors) (d : Directory) : Role → Int → Prop
  | .freeMapHeader, s => s = freeMapSector
  | .directoryHeader, s => s = directorySector
  | .freeMapData j, s => IsData (disk freeMapSector) j s
  | .directoryData j, s => IsData (disk directorySector) j s
  | .header i, s => IsFile d i ∧ d.sector i = s
  | .data i j, s => IsFile d i ∧ IsData (disk (d.sector i)) j s

/-- The structures on the disk agree with one another. -/
structure Consistent (fs : FileSystem) : Prop where
  /-- A bit of the free map is set when its sector is used, in one way only. -/
  freeMap : ∀ fresh, ∃ freeMap d, fs.fetchFreeMap = .ok freeMap ∧
    fs.fetchDirectory fresh = .ok d ∧
    (∀ s : Nat, s < numSectors → (freeMap.test s = true ↔ ∃ r, Plays fs.disk d r s)) ∧
    (∀ r r' s, Plays fs.disk d r s → Plays fs.disk d r' s → r = r') ∧
    (∀ r s, Plays fs.disk d r s → IsSector s) ∧
    ∀ i j, IsFile d i → IsFile d j → i ≠ j →
      ∃ k, k < fileNameMaxLen ∧ d.name i k ≠ d.name j k
  /-- `ASSERT(freeMap->Test(...))` of `Deallocate` does not fail, nor does any other. -/
  remove : ∀ fresh name, ∃ result, fs.remove fresh name = .ok result

end Filesys
end Nachos
