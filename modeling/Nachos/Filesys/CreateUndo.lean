import Nachos.Filesys.CreateSizes

/-!
# Create and its inverse

`Create` refuses for one of three reasons, and then no sector has changed: what it did to
the copies of the map and the directory in memory is thrown away.  When it makes the
file, `Remove` of the same name takes everything back: the header's sector and the data
sectors are clear again, and the entries of the directory in use are those of before.

A write through a file that has been removed since it was opened can put numbers of
foreign sectors into a header, and then neither holds.
-/

namespace Nachos
namespace Filesys

open Threads Userprog Lib

/-- The free map and the entries in use are those of before. -/
structure Restored (fs fs' : FileSystem) : Prop where
  freeMap : ∀ s, s < numSectors → fs'.bit s = fs.bit s
  inUse : ∀ i, IsFile fs'.directoryImage i ↔ IsFile fs.directoryImage i
  sector : ∀ i, IsFile fs.directoryImage i →
    fs'.directoryImage.sector i = fs.directoryImage.sector i
  name : ∀ i, IsFile fs.directoryImage i → ∀ k, k < fileNameMaxLen →
    fs'.directoryImage.name i k = fs.directoryImage.name i k

/-- `Create` answers, refuses exactly with a reason and without a trace, and is undone by
`Remove`. -/
structure CreateExact (fs : FileSystem) (fresh : Fresh) (name : Memory) (initialSize : Int) :
    Prop where
  answers : ∃ ok fs', fs.create fresh name initialSize = .ok (ok, fs')
  refuses : (∃ fs', fs.create fresh name initialSize = .ok (false, fs')) ↔
    CreateRefused fs name initialSize
  unchanged : ∀ fs', fs.create fresh name initialSize = .ok (false, fs') → fs'.disk = fs.disk
  undone : ∀ fs', fs.create fresh name initialSize = .ok (true, fs') → ∀ fresh',
    ∃ fs'', fs'.remove fresh' name = .ok (true, fs'') ∧ Restored fs fs''

section Inverse

variable {fs : FileSystem} {sector i : Nat} {hdr : FileHeader} {name : Memory} {initialSize : Int}
  {d : Directory} {b b' : BitMap} {disk' : Sectors}
  (h : Creation fs sector hdr i name initialSize d b b')
  (hcommit : Committed fs (Function.update fs.disk sector hdr) disk' (d.filled i name sector) b')
  (hsound : Sound fs)

include h hcommit hsound

/-- Only the entry of the new file is opened at its sector. -/
theorem Creation.entry_unique {j : Nat}
    (hfile : IsFile (FileSystem.directoryImage { fs with disk := disk' }) j)
    (hsector : (FileSystem.directoryImage { fs with disk := disk' }).sector j = sector) :
    j = i := by
  have hsound' := h.sound hcommit hsound
  have hplays := (h.plays_header hcommit (sector : Int)).mpr rfl
  exact Role.header.inj (hsound'.exclusive.unique _ _ _ ⟨hfile, hsector⟩ hplays)

/-- Behind `Remove` the sectors of the file are clear, and the others as before. -/
theorem Creation.removed_bit {b'' : BitMap} {d'' : Directory}
    (hremoval : Removal { fs with disk := disk' } i d'' b'') {s : Nat} (hs : s < numSectors) :
    b''.test s = fs.bit s := by
  have hnew := h.marked hs
  have hheader := h.plays_header hcommit (s : Int)
  have hdata (j : Nat) := h.plays_data hcommit hsound j (s : Int)
  have hroles : (∀ r, FileRole i r → ¬ Plays disk'
      (FileSystem.directoryImage { fs with disk := disk' }) r s) ↔
        ¬ (s = sector ∨ ∃ j, IsData hdr j s) := by
    constructor
    · rintro hnone (rfl | ⟨j, hj⟩)
      · exact hnone _ (Or.inl rfl) (hheader.mpr rfl)
      · exact hnone _ (Or.inr ⟨j, rfl⟩) ((hdata j).mpr hj)
    · rintro hnot r (rfl | ⟨j, rfl⟩) hplays
      · exact hnot (Or.inl (by exact_mod_cast hheader.mp hplays))
      · exact hnot (Or.inr ⟨j, (hdata j).mp hplays⟩)
  have hfree : s = sector ∨ (∃ j, IsData hdr j s) → fs.bit s = false := by
    have hclear : ¬ fs.Used s → fs.bit s = false := fun hunused =>
      Bool.eq_false_iff.mpr fun hbit => hunused ⟨⟨by omega, by omega⟩, hbit⟩
    rintro (rfl | ⟨j, hj⟩)
    · exact hclear h.free
    · obtain ⟨-, -, -, -, hunused⟩ := h.data hj
      exact hclear hunused
  have htest := hremoval.test s hs
  rw [hcommit.bit hs, hnew, hroles] at htest
  rw [Bool.eq_iff_iff, htest]
  constructor
  · rintro ⟨hold | hmine, hnot⟩
    · exact hold
    · exact absurd hmine hnot
  · intro hold
    refine ⟨Or.inl hold, fun hmine => ?_⟩
    rw [hfree hmine] at hold
    exact absurd hold (by simp)

/-- What `Remove` of the new file leaves. -/
theorem Creation.restored {b'' : BitMap} {d'' : Directory} {disk'' : Sectors}
    (hremoval : Removal { fs with disk := disk' } i d'' b'')
    (hcommit' : Committed { fs with disk := disk' } disk' disk'' (d''.setInUse i false) b'') :
    Restored fs { fs with disk := disk'' } := by
  have hother {j : Nat} (hj : j < numDirEntries) (hji : j ≠ i) : ∀ k, entrySize * j ≤ k →
      k < entrySize * j + entrySize →
      FileSystem.directoryImage { fs with disk := disk'' } k = fs.directoryImage k := by
    intro k hle hlt
    rw [← h.entry_other hcommit j hj hji k hle hlt]
    exact hremoval.entry_other hcommit' j hj hji k hle hlt
  have hold {j : Nat} (hj : IsFile fs.directoryImage j) : j ≠ i := by
    rintro rfl
    exact h.not_file hj
  constructor
  case freeMap =>
    intro s hs
    rw [← h.removed_bit hcommit hsound hremoval hs]
    exact hcommit'.bit hs
  case inUse =>
    intro j
    constructor
    · intro hj
      have hji : j ≠ i := by
        rintro rfl
        exact hcommit'.not_file hj
      refine ⟨hj.1, ?_⟩
      rw [← Directory.inUse_congr (hother hj.1 hji)]
      exact hj.2
    · intro hj
      refine ⟨hj.1, ?_⟩
      rw [Directory.inUse_congr (hother hj.1 (hold hj))]
      exact hj.2
  case sector =>
    intro j hj
    exact Directory.sector_congr (hother hj.1 (hold hj))
  case name =>
    intro j hj k hk
    exact Directory.name_congr (hother hj.1 (hold hj)) hk

/-- `Remove` takes back what `Create` has done. -/
theorem Creation.undone (fresh : Fresh) :
    ∃ fs'', FileSystem.remove { fs with disk := disk' } fresh name = .ok (true, fs'') ∧
      Restored fs fs'' := by
  have hsound' := h.sound hcommit hsound
  obtain ⟨d', hfetch, hd'⟩ := hsound'.fetchDirectory (fresh 0)
  have hfind := h.find_new hcommit hsound hd'
  rcases hsound'.remove_cases fresh name with
    hno | ⟨j, d'', b'', disk'', hremoval, hcommit', hlookup, hyes⟩
  · -- the name is there
    have hne : ¬ d'.find name = -1 := by omega
    obtain ⟨d₀, hd₀, hno⟩ := bind_eq_ok hno
    obtain rfl := Except.ok.inj (hfetch.symm.trans hd₀)
    rw [if_neg hne] at hno
    obtain ⟨fileHdr, -, hno⟩ := bind_eq_ok hno
    obtain ⟨map₀, -, hno⟩ := bind_eq_ok hno
    obtain ⟨map₁, -, hno⟩ := bind_eq_ok hno
    obtain ⟨map₂, -, hno⟩ := bind_eq_ok hno
    obtain ⟨disk₁, -, hno⟩ := bind_eq_ok hno
    obtain ⟨disk₂, -, hno⟩ := bind_eq_ok hno
    exact absurd hno (by simp)
  · have hsector : (FileSystem.directoryImage { fs with disk := disk' }).sector j = sector := by
      simp only [FileSystem.lookup, hfetch, bind, Except.bind, hfind] at hlookup
      exact (Except.ok.inj hlookup).symm
    obtain rfl := h.entry_unique hcommit hsound hremoval.file hsector
    exact ⟨_, hyes, h.restored hcommit hsound hremoval hcommit'⟩

end Inverse

/-- On a disk whose structures agree, `Create` is exact for every size that a header can
have. -/
theorem Sound.createExact {fs : FileSystem} (h : Sound fs) (fresh : Fresh) (name : Memory)
    {initialSize : Int} (hnonneg : 0 ≤ initialSize) (hsize : initialSize ≤ maxFileSize) :
    CreateExact fs fresh name initialSize := by
  have hlow : -2 ^ 31 ≤ initialSize := by omega
  have hcases := h.create_cases fresh name hlow
  constructor
  case answers =>
    rcases hcases with hno | ⟨hlong, -⟩ | ⟨sector, hdr, i, d, b, b', disk', -, -, hyes⟩
    · exact ⟨false, fs, hno⟩
    · omega
    · exact ⟨true, _, hyes⟩
  case refuses =>
    rw [← h.create_false_iff fresh]
    constructor
    · rintro ⟨fs', hfalse⟩
      rcases hcases with hno | ⟨hlong, -⟩ | ⟨sector, hdr, i, d, b, b', disk', -, -, hyes⟩
      · exact hno
      · omega
      · rw [hyes] at hfalse
        exact absurd hfalse (by simp)
    · exact fun hfalse => ⟨fs, hfalse⟩
  case unchanged =>
    intro fs' hfalse
    rcases hcases with hno | ⟨hlong, -⟩ | ⟨sector, hdr, i, d, b, b', disk', -, -, hyes⟩
    · rw [hno] at hfalse
      rw [(Prod.mk.inj (Except.ok.inj hfalse)).2]
    · omega
    · rw [hyes] at hfalse
      exact absurd hfalse (by simp)
  case undone =>
    intro fs' htrue fresh'
    rcases hcases with hno | ⟨hlong, -⟩ | ⟨sector, hdr, i, d, b, b', disk', hcreation, hcommit, hyes⟩
    · rw [hno] at htrue
      exact absurd htrue (by simp)
    · omega
    · rw [hyes] at htrue
      obtain ⟨-, rfl⟩ := Prod.mk.inj (Except.ok.inj htrue)
      exact hcreation.undone hcommit h fresh'

/-- In every run from a formatted disk in which no removed file is written to, `Create`
answers `FALSE` exactly with a reason and then leaves every sector alone, and `Remove`
takes back what it has done. -/
theorem createExact_of_run (disk : Sectors) (fresh : Fresh) (fs : FileSystem) (v : Volume)
    (hformat : FileSystem.format disk fresh = .ok fs) (hrun : Volume.Run ⟨fs, []⟩ v)
    (fresh' : Fresh) (name : Memory) (initialSize : Word) (hnonneg : 0 ≤ initialSize.toInt)
    (hsize : initialSize.toInt ≤ maxFileSize) :
    CreateExact v.fs fresh' name initialSize.toInt :=
  ((Volume.steady_of_format hformat).run hrun).sound.createExact fresh' name hnonneg hsize

/-- A file of 200 bytes is created behind one that has been removed. -/
theorem createExact_of_run_second :
    ∃ fs v, FileSystem.format (fun _ _ => 0) (fun _ _ => 0) = .ok fs ∧
      Volume.Run ⟨fs, []⟩ v ∧ CreateExact v.fs (fun _ _ => 0) (shortName 98) 200 := by
  obtain ⟨fs, v, hformat, hrun, -⟩ := exists_run
    (cleanCalls [.create (shortName 97) 1, .remove (shortName 97)])
    (P := fun _ => True) (by decide +kernel)
  refine ⟨fs, v, hformat, hrun, ?_⟩
  exact createExact_of_run _ _ fs v hformat hrun _ _ 200 (by decide) (by decide)

/-- The first 12 bytes of a header for one sector, sector 2, where the free map is. -/
def forgedHeader : Memory := fun k => [0, 0, 0, 1, 0, 0, 0, 1, 0, 0, 0, 2].getD k 0

/-- The header of the third file is written over through the first one, which has been
removed, and the third file is removed. -/
def forgingCalls : List FileChoice :=
  cleanCalls [.create (shortName 97) 128, .openFile (shortName 97), .remove (shortName 97),
    .create (shortName 98) 0, .create (shortName 99) 0, .write 0 forgedHeader 12,
    .remove (shortName 99)]

/-- `Create` and `Remove` of a file of 128 bytes leave sector 6 marked, which was clear. -/
def LeaksSector (v : Volume) : Prop :=
  ∃ created ∈ (v.fs.create (fun _ _ => 0) (shortName 100) 128).toOption, created.1 = true ∧
    ∃ removed ∈ (created.2.remove (fun _ _ => 0) (shortName 100)).toOption,
      removed.2.bit 6 = true ∧ v.fs.bit 6 = false

instance (v : Volume) : Decidable (LeaksSector v) :=
  inferInstanceAs (Decidable (∃ _ ∈ _, _ ∧ ∃ _ ∈ _, _ ∧ _))

theorem eq_ok_of_mem {E A : Type} {x : Except E A} {a : A} (h : a ∈ x.toOption) : x = .ok a := by
  cases x with
  | error stop => exact absurd h (by simp [Except.toOption])
  | ok b => rw [Option.some.inj h]

/-- The sector of the free map is given to a file, and its header is not read back. -/
theorem create_not_undone :
    ¬ ∀ (disk : Sectors) (fresh : Fresh) (fs : FileSystem) (v : Volume),
      FileSystem.format disk fresh = .ok fs → Reach Volume.step (fun _ _ => True) ⟨fs, []⟩ v →
      ∀ (fresh' : Fresh) (name : Memory) (initialSize : Word), 0 ≤ initialSize.toInt →
        initialSize.toInt ≤ maxFileSize → CreateExact v.fs fresh' name initialSize.toInt := by
  intro hall
  have hcompute : (FileSystem.format (fun _ _ => 0) fun _ _ => 0).toOption.any (fun fs =>
      (replay Volume.step (fun _ _ => true) forgingCalls ⟨fs, []⟩).any fun v =>
        decide (LeaksSector v)) = true := by
    decide +kernel
  obtain ⟨fs, hformat, hreplay⟩ := (Option.any_eq_true _ _).mp hcompute
  obtain ⟨v, hreach, created, hcreate, hok, removed, hremove, hmarked, hclear⟩ :=
    exists_reach_of_replay (fun _ _ _ => trivial) hreplay
  have hexact := hall _ _ fs v (eq_ok_of_mem hformat) hreach (fun _ _ => 0) (shortName 100) 128
    (by decide) (by decide)
  have hcreated : v.fs.create (fun _ _ => 0) (shortName 100) 128 = .ok (true, created.2) := by
    rw [eq_ok_of_mem hcreate, ← hok]
  obtain ⟨fs'', hremoved, hrestored⟩ := hexact.undone created.2 hcreated fun _ _ => 0
  rw [eq_ok_of_mem hremove] at hremoved
  have hsame : removed.2 = fs'' := (Prod.ext_iff.mp (Except.ok.inj hremoved)).2
  have hbit := hrestored.freeMap 6 (by decide)
  rw [← hsame, hmarked, hclear] at hbit
  exact absurd hbit (by simp)

end Filesys
end Nachos
