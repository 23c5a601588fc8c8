import Mathlib.Data.List.Forall2
import Nachos.Filesys.Space
import Nachos.Lib.FileStore
import Nachos.Lib.Traces

/-!
# The file system is a store of named files

`mount` is what Nachos does when it is started on a disk that has a file system.  `Represents`
relates the disk and the open files to a store of named files: what the calls answer is what
the store answers, also when Nachos is started again in between.
-/

namespace Nachos
namespace Filesys

open Threads Userprog Lib

/-- What the disk has room for. -/
def diskCapacity : Capacity := ⟨numDirEntries, numSectors - 5, sectorSize⟩

/-- `FileSystem::FileSystem(FALSE)`. -/
def FileSystem.mount (disk : Sectors) : Except Stop FileSystem := do
  let freeMapFile ← OpenFile.new disk freeMapSector
  let directoryFile ← OpenFile.new disk directorySector
  .ok ⟨disk, freeMapFile, directoryFile⟩

/-- What a call is to the store. -/
def FileCall.asked : FileCall → StoreCall StoredName Byte
  | .create name initialSize => .create (storedName name) initialSize.toInt
  | .openFile name => .openFile (storedName name)
  | .remove name => .remove (storedName name)
  | .length n => .length n
  | .seek n position => .seek n position.toInt
  | .read n _ numBytes => .read n numBytes.toInt
  | .readAt n _ numBytes position => .readAt n numBytes.toInt position.toInt
  | .write n source numBytes => .write n ((List.range numBytes.toInt.toNat).map source)
  | .writeAt n source numBytes position =>
      .writeAt n ((List.range numBytes.toInt.toNat).map source) position.toInt

/-- The files on the disk are those of the store. -/
structure Holds (fs : FileSystem) (s : FileStore StoredName Byte) : Prop where
  sound : Sound fs
  injective : Set.InjOn fs.nameAt fs.entries
  names : s.names = fs.names
  size : ∀ i ∈ fs.entries, s.size (fs.nameAt i) = (fs.headerAt i).fileLength
  content : ∀ i ∈ fs.entries, s.content (fs.nameAt i) = fs.bytesAt i

/-- An open file, and what the store has for it. -/
structure Handle.Grips (fs : FileSystem) (h : Handle) (g : Grip StoredName) : Prop where
  valid : h.file.hdr.Valid
  position : h.file.seekPosition = g.position
  live : g.live = !h.removed
  file : h.removed = false → ∃ i ∈ fs.entries, fs.directoryImage.sector i = h.sector ∧
    h.file.hdr = fs.headerAt i ∧ fs.nameAt i = g.name

/-- The disk and the open files are a store of named files. -/
structure Represents (v : Volume) (s : FileStore StoredName Byte) : Prop where
  holds : Holds v.fs s
  grips : List.Forall₂ (Handle.Grips v.fs) v.opened s.opened

section Room

variable {fs : FileSystem} {s : FileStore StoredName Byte} {name : Memory} {initialSize : Int}

theorem mem_names {stored : StoredName} :
    stored ∈ fs.names ↔ ∃ i ∈ fs.entries, fs.nameAt i = stored := Finset.mem_image

theorem Holds.card_names (h : Holds fs s) : s.names.card = fs.entries.card := by
  rw [h.names, FileSystem.names, Finset.card_image_of_injOn h.injective]

theorem blocksOf_toNat (n : Int) : diskCapacity.blocksOf n.toNat =
    1 + (divRoundUp n sectorSize).toNat := by
  show 1 + (n.toNat + sectorSize - 1) / sectorSize = _
  rcases Int.lt_or_le n 0 with hneg | hnonneg
  · have hbounds := divRoundUp_of_neg hneg
    unfold sectorSize at *
    omega
  · rw [divRoundUp_of_nonneg hnonneg]
    unfold sectorSize
    omega

/-- The blocks of the store are the sectors of the files. -/
theorem Holds.taken (h : Holds fs s) : s.taken diskCapacity =
    ∑ i ∈ fs.entries, (1 + (fs.headerAt i).numSectors.toNat) := by
  unfold FileStore.taken
  rw [h.names, FileSystem.names, Finset.sum_image h.injective]
  refine Finset.sum_congr rfl fun i hi => ?_
  have hgood : (fs.headerAt i).Good := h.sound.fileGood i (mem_entries.mp hi)
  rw [h.content i hi, FileSystem.bytesAt, FileHeader.bytes_length, blocksOf_toNat,
    hgood.numSectors]

/-- `Create` has a reason to refuse when the name is taken, or there is no room. -/
theorem Holds.refused_iff (h : Holds fs s) : CreateRefused fs name initialSize ↔
    storedName name ∈ s.names ∨ ¬ s.Room diskCapacity initialSize.toNat := by
  have hspace := h.sound.space
  have htaken := h.taken
  have hcard := h.card_names
  have hfull : (∀ i, i < numDirEntries → fs.directoryImage.inUse i = true) ↔
      ¬ fs.entries.card < numDirEntries := by
    have hall := Finset.card_filter_eq_iff (s := Finset.range numDirEntries)
      (p := fun i => fs.directoryImage.inUse i = true)
    have hle := Finset.card_filter_le (Finset.range numDirEntries)
      (fun i => fs.directoryImage.inUse i = true)
    simp only [Finset.card_range, Finset.mem_range] at hall hle
    rw [← hall]
    show _ ↔ ¬ (Finset.filter _ _).card < _
    omega
  unfold CreateRefused FileStore.Room
  rw [not_and_or, hfull, hcard, htaken, blocksOf_toNat, h.names, mem_names]
  refine or_congr ?_ (or_congr Iff.rfl ?_)
  · refine exists_congr fun i => ?_
    rw [mem_entries, ← storedName_eq_iff]
    exact Iff.rfl
  · show _ ↔ ¬ _ ≤ numSectors - 5
    have hnum : numSectors = 1024 := rfl
    omega

end Room

section Changes

variable {fs : FileSystem} {s : FileStore StoredName Byte} {disk' : Sectors} {i : Nat}

/-- The new file is one of the store. -/
theorem Holds.created (hs : Holds fs s) {sector : Nat} {hdr : FileHeader} {name : Memory}
    {initialSize : Int} {d : Directory} {b b' : BitMap}
    (h : Creation fs sector hdr i name initialSize d b b')
    (hcommit : Committed fs (Function.update fs.disk sector hdr) disk'
      (d.filled i name sector) b') :
    Holds { fs with disk := disk' } (s.insert (storedName name) initialSize
      (FileSystem.bytesAt { fs with disk := disk' } i)) := by
  have hsame := fun j => h.sameFile (j := j) hcommit hs.sound
  have hentries := h.entries hcommit
  have hnew := h.nameAt_new hcommit
  have hfresh := h.name_fresh
  have hother : ∀ j ∈ fs.entries, fs.nameAt j ≠ storedName name := by
    intro j hj heq
    exact hfresh (mem_names.mpr ⟨j, hj, heq⟩)
  constructor
  case sound => exact h.sound hcommit hs.sound
  case injective =>
    rw [hentries, Finset.coe_insert, Set.injOn_insert]
    · constructor
      · intro j hj j' hj' heq
        rw [(hsame j (mem_entries.mp hj)).name, (hsame j' (mem_entries.mp hj')).name] at heq
        exact hs.injective hj hj' heq
      · rintro ⟨j, hj, heq⟩
        rw [hnew, (hsame j (mem_entries.mp hj)).name] at heq
        exact hother j hj heq
    · intro hmem
      exact h.not_file (mem_entries.mp hmem)
  case names =>
    rw [FileSystem.names, hentries, Finset.image_insert, hnew]
    show Insert.insert (storedName name) s.names = _
    rw [hs.names, FileSystem.names]
    congr 1
    exact Finset.image_congr fun j hj => (hsame j (mem_entries.mp hj)).name.symm
  -- The header of the new file has the size that was asked for.
  case size =>
    intro j hj
    rw [hentries, Finset.mem_insert] at hj
    rcases hj with rfl | hj
    · rw [hnew, h.headerAt_new hcommit hs.sound, FileHeader.fileLength, h.header.numBytes]
      exact Function.update_self ..
    · have hj' := hsame j (mem_entries.mp hj)
      rw [hj'.name, hj'.kept.headerAt_eq, ← hs.size j hj]
      exact Function.update_of_ne (hother j hj) ..
  case content =>
    intro j hj
    rw [hentries, Finset.mem_insert] at hj
    rcases hj with rfl | hj
    · rw [hnew]
      exact Function.update_self ..
    · have hj' := hsame j (mem_entries.mp hj)
      rw [hj'.name, hj'.bytes, ← hs.content j hj]
      exact Function.update_of_ne (hother j hj) ..

/-- The file that is removed is none of the store any more. -/
theorem Holds.removed (hs : Holds fs s) {d : Directory} {b' : BitMap} (h : Removal fs i d b')
    (hcommit : Committed fs fs.disk disk' (d.setInUse i false) b') :
    Holds { fs with disk := disk' } (s.erase (fs.nameAt i)) := by
  have hsame := fun j hji => h.sameFile (j := j) hcommit hs.sound hji
  have hentries := h.entries hcommit
  have hold : ∀ {j}, j ∈ FileSystem.entries { fs with disk := disk' } →
      j ∈ fs.entries ∧ SameFile fs { fs with disk := disk' } j := by
    intro j hj
    rw [hentries, Finset.mem_erase] at hj
    exact ⟨hj.2, hsame j hj.1 (mem_entries.mp hj.2)⟩
  constructor
  case sound => exact h.sound hcommit hs.sound
  case injective =>
    intro j hj j' hj' heq
    obtain ⟨hmem, hj⟩ := hold hj
    obtain ⟨hmem', hj'⟩ := hold hj'
    rw [hj.name, hj'.name] at heq
    exact hs.injective hmem hmem' heq
  case names =>
    show s.names.erase (fs.nameAt i) = _
    ext stored
    rw [Finset.mem_erase, hs.names, mem_names, mem_names]
    constructor
    · rintro ⟨hne, j, hj, rfl⟩
      have hji : j ≠ i := by
        rintro rfl
        exact hne rfl
      refine ⟨j, ?_, (hsame j hji (mem_entries.mp hj)).name⟩
      rw [hentries, Finset.mem_erase]
      exact ⟨hji, hj⟩
    · rintro ⟨j, hj, rfl⟩
      obtain ⟨hmem, hkept⟩ := hold hj
      rw [hentries, Finset.mem_erase] at hj
      refine ⟨fun heq => hj.1 ?_, j, hmem, hkept.name.symm⟩
      rw [hkept.name] at heq
      exact hs.injective hmem (mem_entries.mpr h.file) heq
  case size =>
    intro j hj
    obtain ⟨hmem, hkept⟩ := hold hj
    rw [hkept.name, hkept.kept.headerAt_eq]
    exact hs.size j hmem
  case content =>
    intro j hj
    obtain ⟨hmem, hkept⟩ := hold hj
    rw [hkept.name, hkept.bytes]
    exact hs.content j hmem

/-- Writing to a file changes its bytes in the store. -/
theorem Holds.written (hs : Holds fs s) (hi : i ∈ fs.entries) {data : List Byte} {position : Int}
    (hframe : ∀ t, (∀ j, ¬ Plays fs.disk fs.directoryImage (.data i j) t) →
      disk' t = fs.disk t)
    (hbytes : (fs.headerAt i).bytes disk' = if 0 ≤ position then
      splice (fs.bytesAt i) data position.toNat else fs.bytesAt i) :
    Holds { fs with disk := disk' } (s.put (fs.nameAt i) data position) := by
  have hentries := hs.sound.written_entries hframe
  have hname : ∀ {j}, j ∈ fs.entries →
      FileSystem.nameAt { fs with disk := disk' } j = fs.nameAt j := fun hj =>
    hs.sound.written_nameAt hframe (mem_entries.mp hj).1
  constructor
  case sound => exact hs.sound.written hframe
  case injective =>
    rw [hentries]
    intro j hj j' hj' heq
    rw [hname hj, hname hj'] at heq
    exact hs.injective hj hj' heq
  case names =>
    rw [FileSystem.names, hentries]
    show s.names = _
    rw [hs.names, FileSystem.names]
    exact Finset.image_congr fun j hj => (hname hj).symm
  case size =>
    rw [hentries]
    intro j hj
    rw [hname hj, (hs.sound.written_keepsFile hframe (mem_entries.mp hj)).headerAt_eq]
    exact hs.size j hj
  case content =>
    rw [hentries]
    intro j hj
    rw [hname hj]
    by_cases hji : j = i
    · subst hji
      have hkept := hs.sound.written_keepsFile hframe (mem_entries.mp hj)
      rw [FileSystem.bytesAt, hkept.headerAt_eq, hbytes, ← hs.content j hj]
      exact Function.update_self ..
    · have hne : fs.nameAt j ≠ fs.nameAt i := fun heq => hji (hs.injective hj hi heq)
      rw [(hs.sound.written_sameFile hframe hji (mem_entries.mp hj)).bytes, ← hs.content j hj]
      exact Function.update_of_ne hne ..

end Changes

section Answers

variable {f : OpenFile} {disk disk' : Sectors} {numBytes position r : Int}

/-- What `ReadAt` transfers is the part of the file that was asked for. -/
theorem OpenFile.readAt_answer (hvalid : f.hdr.Valid) {into into' : Memory}
    (h : f.readAt disk into 0 numBytes position = .ok (r, into')) :
    (List.range r.toNat).map into' = portion (f.hdr.bytes disk) numBytes position ∧ 0 ≤ r := by
  by_cases hrequest : numBytes ≤ 0 ∨ position ≥ f.hdr.fileLength
  · rw [OpenFile.readAt, if_pos hrequest] at h
    obtain ⟨rfl, rfl⟩ := Prod.mk.inj (Except.ok.inj h)
    refine ⟨?_, Int.le_refl 0⟩
    symm
    by_cases hposition : 0 ≤ position
    · apply List.eq_nil_of_length_eq_zero
      rw [portion_length hposition, FileHeader.bytes_length]
      unfold FileHeader.fileLength at hrequest
      omega
    · exact if_neg hposition
  · -- a request that would leave the arrays of the file has no answer
    by_cases hmeaning : position < 0 ∨ position + numBytes > intMax
    · rw [OpenFile.readAt, if_neg hrequest, if_pos hmeaning] at h
      exact absurd h (by simp)
    · have hint : intMax = 2147483647 := rfl
      rw [OpenFile.readAt_inside hvalid disk into 0 (by omega) (by omega)] at h
      obtain ⟨rfl, rfl⟩ := Prod.mk.inj (Except.ok.inj h)
      refine ⟨?_, inside_nonneg ..⟩
      apply List.ext_getElem?
      intro k
      rw [portion, if_pos (by omega), List.getElem?_take, List.getElem?_drop,
        FileHeader.bytes_getElem?, List.getElem?_map]
      unfold inside overwrite FileHeader.fileLength OpenFile.tail
      by_cases hk : k < (max 0 (min numBytes (f.hdr.numBytes - position))).toNat
      · rw [List.getElem?_range hk, if_pos (by omega), if_pos (by omega), Option.map_some,
          if_pos (by omega)]
        rfl
      · rw [List.getElem?_eq_none (by rw [List.length_range]; omega), Option.map_none]
        split
        · rw [if_neg (by omega)]
        · rfl

/-- The bytes of a file that has been written to. -/
theorem bytes_written {hdr : FileHeader} {source : Memory} {count : Nat}
    (h : Written hdr position.toNat count source disk disk')
    (hcount : (count : Int) = inside hdr.fileLength numBytes position) :
    hdr.bytes disk' = splice (hdr.bytes disk) ((List.range numBytes.toNat).map source)
      position.toNat := by
  unfold inside FileHeader.fileLength at hcount
  apply List.ext_getElem?
  intro k
  rw [splice_getElem?, FileHeader.bytes_getElem?, FileHeader.bytes_getElem?]
  by_cases hk : k < hdr.numBytes.toNat
  · rw [if_pos hk, if_pos hk, h.bytes k (by omega), Option.map_some, overwrite]
    congr 1
    by_cases hstart : position.toNat ≤ k
    · rw [if_pos hstart, List.getD_eq_getElem?_getD, List.getElem?_map]
      by_cases hend : k - position.toNat < numBytes.toNat
      · rw [List.getElem?_range hend, if_pos (by omega)]
        rfl
      · rw [List.getElem?_eq_none (by rw [List.length_range]; omega), if_neg (by omega)]
        rfl
    · rw [if_neg hstart, if_neg (by omega)]
  · rw [if_neg hk, if_neg hk]
    rfl

/-- What `WriteAt` answers, and what it does to the bytes of the file. -/
theorem OpenFile.writeAt_answer (hvalid : f.hdr.Valid) (hdistinct : f.hdr.Distinct)
    {fresh source : Memory}
    (h : f.writeAt disk fresh source numBytes position = .ok (r, disk')) :
    r = fits (f.hdr.bytes disk) ((List.range numBytes.toNat).map source) position ∧
      f.hdr.bytes disk' = if 0 ≤ position then splice (f.hdr.bytes disk)
        ((List.range numBytes.toNat).map source) position.toNat else f.hdr.bytes disk := by
  have hdata : ((List.range numBytes.toNat).map source).length = numBytes.toNat := by simp
  unfold fits
  rw [hdata, FileHeader.bytes_length]
  by_cases hrequest : numBytes ≤ 0 ∨ position ≥ f.hdr.fileLength
  · rw [OpenFile.writeAt, if_pos hrequest] at h
    obtain ⟨rfl, rfl⟩ := Prod.mk.inj (Except.ok.inj h)
    unfold FileHeader.fileLength at hrequest
    by_cases hposition : 0 ≤ position
    · rw [if_pos hposition, if_pos hposition]
      refine ⟨by omega, ?_⟩
      have hzero : Written f.hdr position.toNat 0 source disk disk := Written.zero
      refine bytes_written hzero ?_
      unfold inside FileHeader.fileLength
      omega
    · rw [if_neg hposition, if_neg hposition]
      exact ⟨rfl, rfl⟩
  · by_cases hmeaning : position < 0 ∨ position + numBytes > intMax
    · rw [OpenFile.writeAt, if_neg hrequest, if_pos hmeaning] at h
      exact absurd h (by simp)
    · have hint : intMax = 2147483647 := rfl
      have hlow : 0 ≤ position := by omega
      have hend : position + numBytes < 2 ^ 31 := by omega
      obtain ⟨disk'', hwrite, hwritten⟩ :=
        OpenFile.writeAt_inside hvalid hdistinct disk fresh source hlow hend
      obtain ⟨rfl, rfl⟩ := Prod.mk.inj (Except.ok.inj (hwrite.symm.trans h))
      rw [if_pos (by omega), if_pos (by omega)]
      refine ⟨?_, bytes_written hwritten (Int.toNat_of_nonneg (inside_nonneg ..))⟩
      unfold inside FileHeader.fileLength
      omega

end Answers

section Lists

variable {A B : Type} {R : A → B → Prop} {l : List A} {l' : List B} {n : Nat} {a : A}

theorem forall₂_getElem? (h : List.Forall₂ R l l') (hn : l[n]? = some a) :
    ∃ b, l'[n]? = some b ∧ R a b := by
  induction h generalizing n with
  | nil => exact absurd hn (by simp)
  | cons hab _ ih =>
      cases n with
      | zero =>
          obtain rfl := Option.some.inj hn
          exact ⟨_, rfl, hab⟩
      | succ n => exact ih hn

theorem forall₂_modify {f : A → A} {g : B → B} (h : List.Forall₂ R l l')
    (hmodify : ∀ a b, l[n]? = some a → l'[n]? = some b → R a b → R (f a) (g b)) :
    List.Forall₂ R (l.modify n f) (l'.modify n g) := by
  induction h generalizing n with
  | nil =>
      rw [List.modify_nil, List.modify_nil]
      exact .nil
  | cons hab hrest ih =>
      cases n with
      | zero =>
          rw [List.modify_zero_cons, List.modify_zero_cons]
          exact .cons (hmodify _ _ rfl rfl hab) hrest
      | succ n =>
          rw [List.modify_succ_cons, List.modify_succ_cons]
          exact .cons hab (ih hmodify)

end Lists

section Open

variable {fs fs' : FileSystem} {h : Handle} {g : Grip StoredName}

/-- An open file goes on where its file is kept. -/
theorem Handle.Grips.keeps (hg : h.Grips fs g)
    (hkept : ∀ i ∈ fs.entries, fs.directoryImage.sector i = h.sector →
      KeepsFile fs fs' i ∧ fs'.nameAt i = fs.nameAt i) : h.Grips fs' g := by
  refine ⟨hg.valid, hg.position, hg.live, fun hlive => ?_⟩
  obtain ⟨i, hi, hsector, hheader, hname⟩ := hg.file hlive
  obtain ⟨⟨hfile, hsector', hdisk⟩, hname'⟩ := hkept i hi hsector
  refine ⟨i, mem_entries.mpr hfile, hsector'.trans hsector, ?_, hname'.trans hname⟩
  rw [hheader, FileSystem.headerAt, FileSystem.headerAt, hsector', hdisk]

/-- The header of a file can be used. -/
theorem Sound.headerAt_usable (hsound : Sound fs) {i : Nat} (hi : i ∈ fs.entries) :
    (fs.headerAt i).Valid ∧ (fs.headerAt i).Distinct := by
  have hfile := mem_entries.mp hi
  refine hsound.usable (.data i) (hsound.fileGood i hfile)
    (fun j j' heq => (Role.data.inj heq).2) fun j s hdata => ⟨hfile, hdata⟩

/-- What the directory has for a name, and what `Open` makes of it. -/
theorem Sound.openFile_cases (hsound : Sound fs) (fresh : Fresh) (name : Memory) :
    (storedName name ∉ fs.names ∧ fs.lookup fresh name = .ok (-1) ∧
      fs.openFile fresh name = .ok none) ∨
    ∃ i ∈ fs.entries, fs.nameAt i = storedName name ∧
      fs.lookup fresh name = .ok (fs.directoryImage.sector i) ∧
      fs.openFile fresh name = .ok (some ⟨fs.headerAt i, 0⟩) := by
  obtain ⟨d, hfetch, hd⟩ := hsound.fetchDirectory (fresh 0)
  have hlookup : fs.lookup fresh name = .ok (d.find name) := by
    simp only [FileSystem.lookup, hfetch, bind, Except.bind]
  have hnamed := hsound.find_ne_iff hd name
  rcases hsound.find_cases hd name with ⟨-, hfind⟩ | ⟨i, hfile, hindex, hfind, hsector⟩
  · rw [hfind] at hlookup hnamed
    refine Or.inl ⟨?_, hlookup, ?_⟩
    · intro hmem
      obtain ⟨i, hi, hname⟩ := mem_names.mp hmem
      exact hnamed.mpr ⟨i, mem_entries.mp hi, storedName_eq_iff.mp hname⟩ rfl
    · simp only [FileSystem.openFile, hlookup, bind, Except.bind]
      exact if_neg (by omega)
  · rw [hfind] at hlookup
    refine Or.inr ⟨i, mem_entries.mpr hfile, ?_, hlookup, ?_⟩
    · obtain ⟨-, -, -, hequal⟩ := Directory.findIndexLoop_eq_some hindex
      refine storedName_eq_iff.mpr ?_
      rw [← hequal]
      refine strncmpEqual_congr fun k _ hk => ?_
      exact (Directory.name_congr (entry_agree hd hfile.1) (by omega)).symm
    · simp only [FileSystem.openFile, hlookup, OpenFile.new, FileHeader.fetchFrom, readSector,
        if_pos hsector, bind, Except.bind]
      exact if_pos hsector.1

/-- `Remove` answers `FALSE` when the directory does not have the name. -/
theorem lookup_of_remove_false {fresh : Fresh} {name : Memory} {sector : Int}
    (hlookup : fs.lookup fresh name = .ok sector)
    (hremove : fs.remove fresh name = .ok (false, fs')) : sector = -1 := by
  obtain ⟨d, hfetch, hfind⟩ := bind_eq_ok hlookup
  obtain ⟨d', hfetch', hrest⟩ := bind_eq_ok hremove
  obtain rfl := Except.ok.inj (hfetch.symm.trans hfetch')
  obtain rfl := Except.ok.inj hfind
  by_contra hne
  -- Behind the test every way through `Remove` ends with `TRUE`.
  rw [if_neg hne] at hrest
  obtain ⟨_, -, hrest⟩ := bind_eq_ok hrest
  obtain ⟨_, -, hrest⟩ := bind_eq_ok hrest
  obtain ⟨_, -, hrest⟩ := bind_eq_ok hrest
  obtain ⟨_, -, hrest⟩ := bind_eq_ok hrest
  obtain ⟨_, -, hrest⟩ := bind_eq_ok hrest
  obtain ⟨_, -, hrest⟩ := bind_eq_ok hrest
  exact absurd (Except.ok.inj hrest) (by simp)

end Open

namespace Represents

variable {v v' : Volume} {s : FileStore StoredName Byte} {fs' : FileSystem} {n : Nat}
  {h : Handle} {fresh : Fresh} {name : Memory} {initialSize : Int}

/-- What the store has for an open file. -/
theorem grip (hv : Represents v s) (hok : v.handle n = .ok h) :
    ∃ g, s.opened[n]? = some g ∧ h.Grips v.fs g :=
  forall₂_getElem? hv.grips (Volume.handle_eq_ok hok)

/-- The position of an open file is moved. -/
theorem moved (hv : Represents v s) {file : OpenFile} {position : Int}
    (hhdr : ∀ h, v.opened[n]? = some h → file.hdr = h.file.hdr)
    (hposition : file.seekPosition = position) :
    Represents (v.setFile n file) (s.move n position) := by
  refine ⟨⟨hv.holds.sound, hv.holds.injective, hv.holds.names, hv.holds.size, hv.holds.content⟩, ?_⟩
  refine forall₂_modify hv.grips fun h g hn _ hg => ?_
  have hsame := hhdr h hn
  refine ⟨?_, hposition, hg.live, fun hlive => ?_⟩
  · show file.hdr.Valid
    rw [hsame]
    exact hg.valid
  · obtain ⟨i, hi, hsector, hheader, hname⟩ := hg.file hlive
    exact ⟨i, hi, hsector, hsame.trans hheader, hname⟩

theorem create (hv : Represents v s) {ok : Bool} (hlow : -2 ^ 31 ≤ initialSize)
    (hcreate : v.fs.create fresh name initialSize = .ok (ok, fs')) :
    ∃ s', FileStore.Does diskCapacity s (.create (storedName name) initialSize)
      (.done ok) s' ∧ Represents { v with fs := fs' } s' := by
  have hfalse : v.fs.create fresh name initialSize = .ok (false, v.fs) ↔
      CreateRefused v.fs name initialSize := hv.holds.sound.create_false_iff fresh
  rw [hv.holds.refused_iff] at hfalse
  rcases hv.holds.sound.create_cases fresh name hlow with
    hno | ⟨-, stop, hstop⟩ | ⟨sector, hdr, i, d, b, b', disk', hcreation, hcommit, hyes⟩
  · obtain ⟨rfl, rfl⟩ := Prod.mk.inj (Except.ok.inj (hno.symm.trans hcreate))
    exact ⟨s, .refused (hfalse.mp hno), hv⟩
  · rw [hstop] at hcreate
    exact absurd hcreate (by simp)
  · obtain ⟨rfl, rfl⟩ := Prod.mk.inj (Except.ok.inj (hyes.symm.trans hcreate))
    have hroom : storedName name ∉ s.names ∧ s.Room diskCapacity initialSize.toNat := by
      rw [← not_not (a := s.Room _ _), ← not_or, ← hfalse, hyes]
      simp
    refine ⟨_, .created hroom.1 hroom.2 (hcreation.bytesAt_length hcommit hv.holds.sound),
      hv.holds.created hcreation hcommit, ?_⟩
    refine hv.grips.imp fun h g hg => hg.keeps fun j hj _ => ?_
    have hsame := hcreation.sameFile hcommit hv.holds.sound (mem_entries.mp hj)
    exact ⟨hsame.kept, hsame.name⟩

theorem openFile (hv : Represents v s) {sector : Int} {file : Option OpenFile}
    (hlookup : v.fs.lookup fresh name = .ok sector)
    (hopen : v.fs.openFile fresh name = .ok file) :
    ∃ s', FileStore.Does diskCapacity s (.openFile (storedName name)) (.done file.isSome) s' ∧
      Represents { v with opened := v.opened ++ (file.map fun f => ⟨f, sector, false⟩).toList }
        s' := by
  rcases hv.holds.sound.openFile_cases fresh name with
    ⟨hnone, -, hnull⟩ | ⟨i, hi, hname, hfound, hyes⟩
  · obtain rfl := Except.ok.inj (hnull.symm.trans hopen)
    rw [← hv.holds.names] at hnone
    refine ⟨s, .missing hnone, hv.holds, ?_⟩
    simpa using hv.grips
  · obtain rfl := Except.ok.inj (hyes.symm.trans hopen)
    obtain rfl := Except.ok.inj (hfound.symm.trans hlookup)
    have hmem : storedName name ∈ s.names := by
      rw [hv.holds.names, mem_names]
      exact ⟨i, hi, hname⟩
    refine ⟨_, .opened hmem, ⟨hv.holds.sound, hv.holds.injective, hv.holds.names,
      hv.holds.size, hv.holds.content⟩, ?_⟩
    refine List.rel_append hv.grips (.cons ?_ .nil)
    exact ⟨(hv.holds.sound.headerAt_usable hi).1, rfl, rfl, fun _ => ⟨i, hi, rfl, rfl, hname⟩⟩

theorem remove (hv : Represents v s) {sector : Int} {ok : Bool}
    (hlookup : v.fs.lookup fresh name = .ok sector)
    (hremove : v.fs.remove fresh name = .ok (ok, fs')) :
    ∃ s', FileStore.Does diskCapacity s (.remove (storedName name)) (.done ok) s' ∧
      Represents (if ok then { v with fs := fs' }.markRemoved sector else { v with fs := fs' })
        s' := by
  have hsound := hv.holds.sound
  rcases hsound.openFile_cases fresh name with
    ⟨hnone, hmissing, -⟩ | ⟨i, hi, hname, hfound, -⟩
  · -- there is no such file
    obtain rfl := Except.ok.inj (hmissing.symm.trans hlookup)
    rcases hsound.remove_cases fresh name with
      hno | ⟨i, d, b', disk', hremoval, -, hsector, -⟩
    · obtain ⟨rfl, rfl⟩ := Prod.mk.inj (Except.ok.inj (hno.symm.trans hremove))
      rw [← hv.holds.names] at hnone
      exact ⟨s, .unknown hnone, hv⟩
    -- `Remove` can have found nothing else than `Open`: there is no sector -1.
    · have hplays : Plays v.fs.disk v.fs.directoryImage (.header i) (-1) :=
        ⟨hremoval.file, Except.ok.inj (hsector.symm.trans hlookup)⟩
      have hused := ((hsound.exclusive.used_iff _).mpr ⟨_, hplays⟩).1
      unfold IsSector at hused
      omega
  · obtain rfl := Except.ok.inj (hfound.symm.trans hlookup)
    have hplays : Plays v.fs.disk v.fs.directoryImage (.header i)
        (v.fs.directoryImage.sector i) := ⟨mem_entries.mp hi, rfl⟩
    rcases hsound.remove_cases fresh name with
      hno | ⟨i', d, b', disk', hremoval, hcommit, hsector, hyes⟩
    · have hused := ((hsound.exclusive.used_iff _).mpr ⟨_, hplays⟩).1
      have hneg := lookup_of_remove_false hlookup hno
      unfold IsSector at hused
      omega
    · obtain ⟨rfl, rfl⟩ := Prod.mk.inj (Except.ok.inj (hyes.symm.trans hremove))
      have hheader := hsound.exclusive.unique _ (.header i') _ hplays
        ⟨hremoval.file, Except.ok.inj (hsector.symm.trans hlookup)⟩
      obtain rfl := Role.header.inj hheader
      have hmem : storedName name ∈ s.names := by
        rw [hv.holds.names, mem_names]
        exact ⟨i, hi, hname⟩
      refine ⟨_, .removed hmem, ?_⟩
      rw [if_pos rfl, ← hname]
      refine ⟨hv.holds.removed hremoval hcommit, ?_⟩
      refine List.rel_map ?_ hv.grips
      intro h g hg
      show Handle.Grips { v.fs with disk := disk' }
        (if h.sector = v.fs.directoryImage.sector i then { h with removed := true } else h)
        (if g.name = v.fs.nameAt i then { g with live := false } else g)
      -- the open files of this sector are those of this name
      by_cases hthis : h.sector = v.fs.directoryImage.sector i
      · rw [if_pos hthis]
        refine ⟨hg.valid, ?_, ?_, fun hlive => absurd hlive (by simp)⟩
        · split
          · exact hg.position
          · exact hg.position
        · split
          · rfl
          · rename_i hother
            rw [hg.live]
            cases hremoved : h.removed with
            | true => rfl
            | false =>
                obtain ⟨j, hj, hj', -, hgname⟩ := hg.file hremoved
                have hji := hsound.exclusive.unique (.header j) _ _
                  ⟨mem_entries.mp hj, hj'.trans hthis⟩ hplays
                obtain rfl := Role.header.inj hji
                exact absurd hgname.symm hother
      · rw [if_neg hthis]
        have hkeeps : h.Grips { v.fs with disk := disk' } g := by
          refine hg.keeps fun j hj hj' => ?_
          have hji : j ≠ i := by
            rintro rfl
            exact hthis hj'.symm
          have hsame := hremoval.sameFile hcommit hsound hji (mem_entries.mp hj)
          exact ⟨hsame.kept, hsame.name⟩
        by_cases hgname : g.name = v.fs.nameAt i
        · rw [if_pos hgname]
          -- such a file is open no more
          have hremoved : h.removed = true := by
            by_contra hlive
            obtain ⟨j, hj, hj', -, hjname⟩ := hg.file (by simpa using hlive)
            have hji := hv.holds.injective hj hi (hjname.trans hgname)
            exact hthis (hji ▸ hj'.symm)
          exact ⟨hkeeps.valid, hkeeps.position, by simp [hremoved], hkeeps.file⟩
        · rw [if_neg hgname]
          exact hkeeps

/-- Bytes of a file are replaced on the disk. -/
theorem written (hv : Represents v s) {i : Nat} (hi : i ∈ v.fs.entries) {disk' : Sectors}
    {data : List Byte} {position : Int}
    (hothers : ∀ t, (∀ j : Nat, (j : Int) * 128 < (v.fs.headerAt i).numBytes →
      (v.fs.headerAt i).dataSectors j ≠ t) → disk' t = v.fs.disk t)
    (hbytes : (v.fs.headerAt i).bytes disk' = if 0 ≤ position then
      splice (v.fs.bytesAt i) data position.toNat else v.fs.bytesAt i) :
    Represents { v with fs := { v.fs with disk := disk' } }
      (s.put (v.fs.nameAt i) data position) := by
  have hsound := hv.holds.sound
  have hgood : (v.fs.headerAt i).Good := hsound.fileGood i (mem_entries.mp hi)
  have hframe : ∀ t, (∀ j, ¬ Plays v.fs.disk v.fs.directoryImage (.data i j) t) →
      disk' t = v.fs.disk t := by
    intro t ht
    refine hothers t fun j hj heq => ht j ?_
    exact ⟨mem_entries.mp hi, hgood.isData_iff.mpr ⟨hj, heq⟩⟩
  refine ⟨hv.holds.written hi hframe hbytes, ?_⟩
  refine hv.grips.imp fun h' g' hg' => hg'.keeps fun j hj _ => ?_
  have hfile := mem_entries.mp hj
  exact ⟨hsound.written_keepsFile hframe hfile, hsound.written_nameAt hframe hfile.1⟩

/-- `WriteAt`, through a file that has not been removed. -/
theorem writeAt (hv : Represents v s) (hok : v.handle n = .ok h) (hlive : h.removed = false)
    {buffer source : Memory} {numBytes position r : Int} {disk' : Sectors}
    (hwrite : h.file.writeAt v.fs.disk buffer source numBytes position = .ok (r, disk')) :
    ∃ g, s.opened[n]? = some g ∧ g.live = true ∧ g.position = h.file.seekPosition ∧
      r = fits (s.content g.name) ((List.range numBytes.toNat).map source) position ∧
      Represents { v with fs := { v.fs with disk := disk' } }
        (s.put g.name ((List.range numBytes.toNat).map source) position) := by
  obtain ⟨g, hn, hg⟩ := hv.grip hok
  obtain ⟨i, hi, hsector, hheader, hname⟩ := hg.file hlive
  obtain ⟨hvalid, hdistinct⟩ := hv.holds.sound.headerAt_usable hi
  rw [← hheader] at hvalid hdistinct
  obtain ⟨hcount, hbytes⟩ := OpenFile.writeAt_answer hvalid hdistinct hwrite
  have hothers := fun t => OpenFile.writeAt_frame hvalid hdistinct hwrite (s := t)
  rw [hheader] at hcount hbytes hothers
  refine ⟨g, hn, ?_, hg.position.symm, ?_, ?_⟩
  · rw [hg.live, hlive]
    rfl
  · rw [hcount, ← hname, hv.holds.content i hi]
    rfl
  · rw [← hname]
    exact hv.written hi hothers hbytes

/-- `ReadAt`, and what the store has to say about it. -/
theorem readAt (hv : Represents v s) (hok : v.handle n = .ok h) {into into' : Memory}
    {numBytes position r : Int}
    (hread : h.file.readAt v.fs.disk into 0 numBytes position = .ok (r, into')) :
    ∃ g, s.opened[n]? = some g ∧ g.position = h.file.seekPosition ∧ 0 ≤ r ∧
      (g.live = true →
        (List.range r.toNat).map into' = portion (s.content g.name) numBytes position) := by
  obtain ⟨g, hn, hg⟩ := hv.grip hok
  obtain ⟨hbytes, hr⟩ := OpenFile.readAt_answer hg.valid hread
  refine ⟨g, hn, hg.position.symm, hr, fun hlive => ?_⟩
  rw [hg.live] at hlive
  obtain ⟨i, hi, -, hheader, hname⟩ := hg.file (by simpa using hlive)
  rw [hbytes, ← hname, hv.holds.content i hi, hheader]
  rfl

/-- `Length`, through a file that has not been removed, is the size of the file. -/
theorem length (hv : Represents v s) (hok : v.handle n = .ok h) :
    ∃ g, s.opened[n]? = some g ∧ (g.live = true → h.file.length = s.size g.name) := by
  obtain ⟨g, hn, hg⟩ := hv.grip hok
  refine ⟨g, hn, fun hlive => ?_⟩
  rw [hg.live] at hlive
  obtain ⟨i, hi, -, hheader, hname⟩ := hg.file (by simpa using hlive)
  rw [OpenFile.length, hheader, ← hname, hv.holds.size i hi]

/-- A call is one of the store. -/
theorem perform (hv : Represents v s) {choice : FileChoice} {answer : StoreAnswer Byte}
    (hlive : v.WritesLive choice) (hcall : v.perform choice = .ok (answer, v')) :
    ∃ s', FileStore.Does diskCapacity s choice.call.asked answer s' ∧ Represents v' s' := by
  unfold Volume.perform at hcall
  unfold Volume.WritesLive at hlive
  cases hchoice : choice.call with
  | create name initialSize =>
      simp only [hchoice] at hcall
      obtain ⟨⟨ok, fs'⟩, hcreate, hend⟩ := bind_eq_ok hcall
      obtain ⟨rfl, rfl⟩ := Prod.mk.inj (Except.ok.inj hend)
      exact hv.create (BitVec.le_toInt initialSize) hcreate
  | openFile name =>
      simp only [hchoice] at hcall
      obtain ⟨sector, hlookup, hrest⟩ := bind_eq_ok hcall
      obtain ⟨file, hopen, hend⟩ := bind_eq_ok hrest
      obtain ⟨rfl, rfl⟩ := Prod.mk.inj (Except.ok.inj hend)
      exact hv.openFile hlookup hopen
  | remove name =>
      simp only [hchoice] at hcall
      obtain ⟨sector, hlookup, hrest⟩ := bind_eq_ok hcall
      obtain ⟨⟨ok, fs'⟩, hremove, hend⟩ := bind_eq_ok hrest
      obtain ⟨rfl, rfl⟩ := Prod.mk.inj (Except.ok.inj hend)
      exact hv.remove hlookup hremove
  | length n =>
      simp only [hchoice] at hcall
      obtain ⟨h, hok, hend⟩ := bind_eq_ok hcall
      obtain ⟨rfl, rfl⟩ := Prod.mk.inj (Except.ok.inj hend)
      obtain ⟨g, hn, hsize⟩ := hv.length hok
      exact ⟨s, .length hn hsize, hv⟩
  | seek n position =>
      simp only [hchoice] at hcall
      obtain ⟨h, hok, hend⟩ := bind_eq_ok hcall
      obtain ⟨rfl, rfl⟩ := Prod.mk.inj (Except.ok.inj hend)
      obtain ⟨g, hn, -⟩ := hv.grip hok
      refine ⟨_, .sought hn, hv.moved (fun h' hn' => ?_) rfl⟩
      obtain rfl := Option.some.inj ((Volume.handle_eq_ok hok).symm.trans hn')
      rfl
  -- `Read` is `ReadAt` at the position, which then moves by what was read.
  | read n into numBytes =>
      simp only [hchoice] at hcall
      obtain ⟨h, hok, hrest⟩ := bind_eq_ok hcall
      obtain ⟨⟨r, into', file⟩, hread, hend⟩ := bind_eq_ok hrest
      obtain ⟨rfl, rfl⟩ := Prod.mk.inj (Except.ok.inj hend)
      obtain ⟨⟨r', into''⟩, hreadAt, hfile⟩ := bind_eq_ok hread
      obtain ⟨rfl, rfl, rfl⟩ : r' = r ∧ into'' = into' ∧
          { h.file with seekPosition := h.file.seekPosition + r' } = file := by
        simpa using hfile
      obtain ⟨g, hn, hposition, hr, hbytes⟩ := hv.readAt hok hreadAt
      rw [← hposition] at hbytes
      refine ⟨_, .read hn hbytes, hv.moved (fun h' hn' => ?_) ?_⟩
      · obtain rfl := Option.some.inj ((Volume.handle_eq_ok hok).symm.trans hn')
        rfl
      · rw [List.length_map, List.length_range, hposition]
        show h.file.seekPosition + r' = _
        omega
  | readAt n into numBytes position =>
      simp only [hchoice] at hcall
      obtain ⟨h, hok, hrest⟩ := bind_eq_ok hcall
      obtain ⟨⟨r, into'⟩, hreadAt, hend⟩ := bind_eq_ok hrest
      obtain ⟨rfl, rfl⟩ := Prod.mk.inj (Except.ok.inj hend)
      obtain ⟨g, hn, -, -, hbytes⟩ := hv.readAt hok hreadAt
      exact ⟨s, .readAt hn hbytes, hv⟩
  | write n source numBytes =>
      simp only [hchoice] at hcall hlive
      obtain ⟨h, hok, hrest⟩ := bind_eq_ok hcall
      obtain ⟨⟨r, disk', file⟩, hwrite, hend⟩ := bind_eq_ok hrest
      obtain ⟨rfl, rfl⟩ := Prod.mk.inj (Except.ok.inj hend)
      obtain ⟨⟨r', disk''⟩, hwriteAt, hfile⟩ := bind_eq_ok hwrite
      obtain ⟨rfl, rfl, rfl⟩ : r' = r ∧ disk'' = disk' ∧
          { h.file with seekPosition := h.file.seekPosition + r' } = file := by
        simpa using hfile
      obtain ⟨g, hn, hg, hposition, hr, hput⟩ := hv.writeAt hok
        (hlive n h rfl (Volume.handle_eq_ok hok)) hwriteAt
      rw [← hposition] at hr hput
      subst hr
      refine ⟨_, .write hn hg, hput.moved (fun h' hn' => ?_) ?_⟩
      · obtain rfl := Option.some.inj ((Volume.handle_eq_ok hok).symm.trans hn')
        rfl
      · rw [hposition]
  | writeAt n source numBytes position =>
      simp only [hchoice] at hcall hlive
      obtain ⟨h, hok, hrest⟩ := bind_eq_ok hcall
      obtain ⟨⟨r, disk'⟩, hwriteAt, hend⟩ := bind_eq_ok hrest
      obtain ⟨rfl, rfl⟩ := Prod.mk.inj (Except.ok.inj hend)
      obtain ⟨g, hn, hg, -, hr, hput⟩ := hv.writeAt hok
        (hlive n h rfl (Volume.handle_eq_ok hok)) hwriteAt
      subst hr
      exact ⟨_, .writeAt hn hg, hput⟩

/-- What is on the disk is found again. -/
theorem mount (hv : Represents v s) :
    ∃ fs', FileSystem.mount v.fs.disk = .ok fs' ∧ Represents ⟨fs', []⟩ s.restart := by
  obtain ⟨⟨disk, ⟨mapHdr, mapPosition⟩, ⟨dirHdr, dirPosition⟩⟩, opened⟩ := v
  obtain ⟨hsound, hinjective, hnames, hsize, hcontent⟩ := hv.holds
  obtain rfl : mapHdr = disk freeMapSector := hsound.mapHdr
  obtain rfl : dirHdr = disk directorySector := hsound.dirHdr
  refine ⟨⟨disk, ⟨disk freeMapSector, 0⟩, ⟨disk directorySector, 0⟩⟩, rfl, ?_, .nil⟩
  exact ⟨⟨rfl, rfl, hsound.mapSize, hsound.dirSize, hsound.mapGood, hsound.dirGood,
    hsound.fileGood, hsound.exclusive, hsound.names⟩, hinjective, hnames, hsize, hcontent⟩

end Represents

section Runs

/-- What happens to a disk: a call of the file system or of an open file, or Nachos is started
again. -/
inductive DiskEvent
  | call (choice : FileChoice)
  | restart

namespace Volume

/-- What happens, and what is seen of it. -/
def happen (event : DiskEvent) (v : Volume) :
    Except Stop (StoreEvent StoredName Byte × Volume) :=
  match event with
  | .call choice => do
      let (answer, v) ← v.perform choice
      .ok (.call choice.call.asked answer, v)
  | .restart => do
      let fs ← FileSystem.mount v.fs.disk
      .ok (.restart, ⟨fs, []⟩)

/-- No write goes through a file that has been removed. -/
def Careful (v : Volume) : DiskEvent → Prop
  | .call choice => v.WritesLive choice
  | .restart => True

/-- The runs of the file system, with what is seen of them. -/
abbrev History : Volume → List (StoreEvent StoredName Byte) → Volume → Prop :=
  Traced (Answers happen Careful)

end Volume

variable {v v' : Volume} {s : FileStore StoredName Byte} {fs : FileSystem} {disk : Sectors}
  {fresh : Fresh}

theorem Represents.happen (hv : Represents v s) {event : StoreEvent StoredName Byte}
    (h : Answers Volume.happen Volume.Careful v event v') :
    ∃ s', FileStore.Step diskCapacity s event s' ∧ Represents v' s' := by
  obtain ⟨input, hcareful, h⟩ := h
  cases input with
  | call choice =>
      obtain ⟨⟨answer, v₁⟩, hcall, hend⟩ := bind_eq_ok h
      obtain ⟨rfl, rfl⟩ := Prod.mk.inj (Except.ok.inj hend)
      obtain ⟨s', hdoes, hv'⟩ := hv.perform hcareful hcall
      exact ⟨s', .call hdoes, hv'⟩
  | restart =>
      obtain ⟨fs', hmount, hend⟩ := bind_eq_ok h
      obtain ⟨rfl, rfl⟩ := Prod.mk.inj (Except.ok.inj hend)
      obtain ⟨fs'', hmount', hv'⟩ := hv.mount
      obtain rfl := Except.ok.inj (hmount'.symm.trans hmount)
      exact ⟨s.restart, .restart, hv'⟩

/-- A new disk holds no file. -/
theorem represents_of_format (hformat : FileSystem.format disk fresh = .ok fs) :
    Represents ⟨fs, []⟩ .empty := by
  obtain ⟨fs', hformat', hformatted⟩ := format_ok disk fresh
  obtain rfl := Except.ok.inj (hformat'.symm.trans hformat)
  have hnone : fs'.entries = ∅ := by
    rw [Finset.eq_empty_iff_forall_notMem]
    intro i hi
    obtain ⟨-, hused⟩ := (isFile_congr hformatted.directory).mp (mem_entries.mp hi)
    unfold Directory.inUse Directory.new at hused
    simp at hused
  refine ⟨⟨hformatted.sound, ?_, ?_, ?_, ?_⟩, .nil⟩
  · rw [hnone]
    simp
  · rw [FileSystem.names, hnone]
    rfl
  · rw [hnone]
    simp
  · rw [hnone]
    simp

/-- The file system is a store of named files: whatever is asked of it, and however often Nachos
is started again, it answers as the store does. -/
theorem store_of_format (hformat : FileSystem.format disk fresh = .ok fs)
    {events : List (StoreEvent StoredName Byte)} (hrun : Volume.History ⟨fs, []⟩ events v) :
    ∃ s, Traced (FileStore.Step diskCapacity) .empty events s ∧ Represents v s :=
  hrun.simulate (fun _ _ _ _ hv hstep => hv.happen hstep) (represents_of_format hformat)

/-- `Careful`, as it can be checked. -/
def Volume.carefully (v : Volume) : DiskEvent → Bool
  | .call choice =>
      match writtenFile choice.call with
      | none => true
      | some n => v.opened[n]?.any fun h => !h.removed
  | .restart => true

theorem Volume.careful_of_carefully {event : DiskEvent} (h : v.carefully event = true) :
    v.Careful event := by
  cases event with
  | restart => exact trivial
  | call choice =>
      intro n h' hn hopened
      simp only [carefully, hn, hopened, Option.any_some] at h
      simpa using h

/-- A file of three bytes is written to, Nachos is started again, and the file is read. -/
def reopening : List DiskEvent :=
  [.call ⟨.create (shortName 97) 3, fun _ _ => 0⟩, .call ⟨.openFile (shortName 97), fun _ _ => 0⟩,
    .call ⟨.write 0 (fun _ => 120) 5, fun _ _ => 0⟩, .restart,
    .call ⟨.openFile (shortName 97), fun _ _ => 0⟩, .call ⟨.length 0, fun _ _ => 0⟩,
    .call ⟨.read 0 (fun _ => 0) 5, fun _ _ => 0⟩]

/-- What has been answered behind the start, and that the file is there and open. -/
def Reopened (events : List (StoreEvent StoredName Byte)) (v : Volume) : Prop :=
  events.drop 5 = [.call (.length 0) (.count 3), .call (.read 0 5) (.data [120, 120, 120])] ∧
    (∃ h ∈ v.opened[0]?, h.removed = false ∧ h.file.hdr.fileLength = 3) ∧
    v.fs.directoryImage.inUse 0 = true

instance (events : List (StoreEvent StoredName Byte)) (v : Volume) :
    Decidable (Reopened events v) :=
  inferInstanceAs (Decidable (_ ∧ _ ∧ _))

theorem exists_reopened : ∃ fs events v,
    FileSystem.format (fun _ _ => 0) (fun _ _ => 0) = .ok fs ∧
    Volume.History ⟨fs, []⟩ events v ∧ Reopened events v := by
  have hrecord : (FileSystem.format (fun _ _ => 0) fun _ _ => 0).toOption.any (fun fs =>
      (record Volume.happen Volume.carefully reopening ⟨fs, []⟩).any fun r =>
        decide (Reopened r.1 r.2)) = true := by
    decide +kernel
  obtain ⟨fs, hformat, hany⟩ := (Option.any_eq_true _ _).mp hrecord
  obtain ⟨⟨events, v⟩, hevents, hreopened⟩ := (Option.any_eq_true _ _).mp hany
  refine ⟨fs, events, v, ?_, traced_of_record (fun _ _ => Volume.careful_of_carefully) hevents,
    of_decide_eq_true hreopened⟩
  cases hresult : FileSystem.format (fun _ _ => 0) fun _ _ => 0 with
  | error stop =>
      rw [hresult] at hformat
      exact absurd hformat (by simp [Except.toOption])
  | ok fs' =>
      rw [hresult] at hformat
      rw [Option.some.inj hformat]

theorem store_of_format_reopened : ∃ fs v s events,
    FileSystem.format (fun _ _ => 0) (fun _ _ => 0) = .ok fs ∧
    Volume.History ⟨fs, []⟩ events v ∧
    Traced (FileStore.Step diskCapacity) .empty events s ∧ Represents v s ∧
    events.drop 5 = [.call (.length 0) (.count 3),
      .call (.read 0 5) (.data [120, 120, 120])] := by
  obtain ⟨fs, events, v, hformat, hrun, hanswers, -⟩ := exists_reopened
  obtain ⟨s, htrace, hs⟩ := store_of_format hformat hrun
  exact ⟨fs, v, s, events, hformat, hrun, htrace, hs, hanswers⟩

end Runs

end Filesys
end Nachos
