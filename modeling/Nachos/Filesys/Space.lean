import Mathlib.Algebra.BigOperators.Group.Finset.Basic
import Mathlib.Algebra.Ring.CharZero
import Nachos.Filesys.Contents

/-!
# Every sector is accounted for

Each sector of the disk is free, or one of the five of the file system itself, or one of a
file: its header, or a sector of its bytes.
-/

namespace Nachos
namespace Filesys

open Threads Userprog Lib

section Roles

variable {fs : FileSystem}

/-- The sector of a role. -/
def FileSystem.place (fs : FileSystem) : Role → Int
  | .freeMapHeader => freeMapSector
  | .directoryHeader => directorySector
  | .freeMapData j => FileHeader.dataSectors (fs.disk freeMapSector) j
  | .directoryData j => FileHeader.dataSectors (fs.disk directorySector) j
  | .header i => fs.directoryImage.sector i
  | .data i j => (fs.headerAt i).dataSectors j

theorem Sound.mapSectors (h : Sound fs) : FileHeader.numSectors (fs.disk freeMapSector) = 1 := by
  rw [← h.mapHdr, h.mapGood.numSectors, h.mapSize]
  rfl

theorem Sound.dirSectors (h : Sound fs) :
    FileHeader.numSectors (fs.disk directorySector) = 2 := by
  rw [← h.dirHdr, h.dirGood.numSectors, h.dirSize]
  rfl

/-- The roles of a file. -/
def FileSystem.rolesAt (fs : FileSystem) (i : Nat) : Finset Role :=
  insert (.header i) ((Finset.range (fs.headerAt i).numSectors.toNat).image (.data i))

theorem mem_rolesAt {i : Nat} {r : Role} : r ∈ fs.rolesAt i ↔
    r = .header i ∨ ∃ j < (fs.headerAt i).numSectors.toNat, r = .data i j := by
  simp [FileSystem.rolesAt, eq_comm]

/-- The roles that are played. -/
def FileSystem.roles (fs : FileSystem) : Finset Role :=
  {.freeMapHeader, .directoryHeader, .freeMapData 0, .directoryData 0, .directoryData 1} ∪
    fs.entries.biUnion fs.rolesAt

theorem Sound.plays_iff (h : Sound fs) (r : Role) (s : Int) :
    Plays fs.disk fs.directoryImage r s ↔ r ∈ fs.roles ∧ fs.place r = s := by
  unfold FileSystem.roles
  simp only [Finset.mem_union, Finset.mem_biUnion, mem_rolesAt, mem_entries, Finset.mem_insert,
    Finset.mem_singleton]
  cases r with
  | freeMapHeader => simp [Plays, FileSystem.place, eq_comm]
  | directoryHeader => simp [Plays, FileSystem.place, eq_comm]
  | freeMapData j => simp [Plays, IsData, FileSystem.place, h.mapSectors]
  -- The directory takes two sectors.
  | directoryData j =>
      have htwo : j < 2 ↔ j = 0 ∨ j = 1 := by omega
      simp [Plays, IsData, FileSystem.place, h.dirSectors, htwo]
  | header i => simp [Plays, FileSystem.place]
  | data i j =>
      simp only [Plays, IsData, FileSystem.place, FileSystem.headerAt]
      constructor
      · rintro ⟨hfile, hj, hs⟩
        exact ⟨Or.inr ⟨i, hfile, Or.inr ⟨j, hj, rfl⟩⟩, hs⟩
      · rintro ⟨hsystem | ⟨i', hfile, hheader | ⟨j', hj, heq⟩⟩, hs⟩
        · simp at hsystem
        · exact absurd hheader (by simp)
        · obtain ⟨rfl, rfl⟩ := Role.data.inj heq
          exact ⟨hfile, hj, hs⟩

theorem card_roles :
    fs.roles.card = 5 + ∑ i ∈ fs.entries, (1 + (fs.headerAt i).numSectors.toNat) := by
  unfold FileSystem.roles
  rw [Finset.card_union_of_disjoint, Finset.card_biUnion]
  · congr 1
    refine Finset.sum_congr rfl fun i _ => ?_
    rw [FileSystem.rolesAt, Finset.card_insert_of_notMem (by simp),
      Finset.card_image_of_injective, Finset.card_range]
    · omega
    · intro j j' heq
      exact (Role.data.inj heq).2
  · intro i _ i' _ hne
    refine Finset.disjoint_left.mpr fun r hr hr' => ?_
    rw [mem_rolesAt] at hr hr'
    rcases hr with rfl | ⟨j, -, rfl⟩
    · rcases hr' with heq | ⟨j', -, heq⟩
      · exact hne (Role.header.inj heq)
      · exact absurd heq (by simp)
    · rcases hr' with heq | ⟨j', -, heq⟩
      · exact absurd heq (by simp)
      · exact hne (Role.data.inj heq).1
  · rw [Finset.disjoint_left]
    intro r hr hr'
    obtain ⟨i, -, hrole⟩ := Finset.mem_biUnion.mp hr'
    rw [mem_rolesAt] at hrole
    rcases hrole with rfl | ⟨j, -, rfl⟩
    · simp at hr
    · simp at hr

/-- The sectors that are marked in the free map. -/
def FileSystem.usedSectors (fs : FileSystem) : Finset Int :=
  {s ∈ Finset.range numSectors | fs.bit s = true}.map Nat.castEmbedding

theorem mem_usedSectors {s : Int} : s ∈ fs.usedSectors ↔ fs.Used s := by
  unfold FileSystem.usedSectors FileSystem.Used IsSector
  rw [Finset.mem_map]
  constructor
  · rintro ⟨n, hn, rfl⟩
    obtain ⟨hlt, hbit⟩ := Finset.mem_filter.mp hn
    rw [Finset.mem_range] at hlt
    rw [Nat.castEmbedding_apply, Int.toNat_natCast]
    exact ⟨⟨by omega, by omega⟩, hbit⟩
  · rintro ⟨⟨hlow, hhigh⟩, hbit⟩
    refine ⟨s.toNat, Finset.mem_filter.mpr ⟨Finset.mem_range.mpr (by omega), hbit⟩, ?_⟩
    exact Int.toNat_of_nonneg hlow

theorem card_usedSectors : fs.usedSectors.card + fs.freeSectors.card = numSectors := by
  have hsplit := Finset.card_filter_add_card_filter_not (s := Finset.range numSectors)
    (fun s => fs.bit s = true)
  simp only [Bool.not_eq_true, Finset.card_range] at hsplit
  rw [FileSystem.usedSectors, Finset.card_map]
  exact hsplit

/-- Where the sectors of the disk are. -/
theorem Sound.space (h : Sound fs) :
    fs.freeSectors.card + 5 + ∑ i ∈ fs.entries, (1 + (fs.headerAt i).numSectors.toNat) =
      numSectors := by
  have hused : fs.usedSectors.card = fs.roles.card :=
    h.exclusive.card_eq (fun s => mem_usedSectors) h.plays_iff
  have htotal : fs.usedSectors.card + fs.freeSectors.card = numSectors := card_usedSectors
  rw [hused, card_roles] at htotal
  omega

end Roles

end Filesys
end Nachos
