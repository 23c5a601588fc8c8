import Nachos.Filesys.Directory
import Nachos.Userprog.BitMapSets

/-!
# Bitmaps in files

`FetchFrom` brings the set back that `WriteBack` has written, into any map of the same size.
-/

namespace Nachos
namespace Userprog
namespace BitMap

open Threads Filesys Lib

/-- `WriteBack` and then `FetchFrom`, into any map of this size, bring the set back. -/
def Restored (n : Nat) (b : BitMap) : Prop :=
  ∀ (file : OpenFile) (disk : Sectors) (fresh : Memory), file.hdr.Valid → file.hdr.Distinct →
    ((divRoundUp n bitsInWord * 4 : Nat) : Int) ≤ file.hdr.numBytes →
    ∃ disk', b.writeBack file disk fresh = .ok disk' ∧
      ∀ b' : BitMap, b'.Sized n → ∃ b'', b'.fetchFrom file disk' = .ok b'' ∧ b''.Sized n ∧
        b''.marked = b.marked

section Files

variable {b : BitMap} {n : Nat}

/-- The bytes that `WriteBack` has written are those that `FetchFrom` reads. -/
theorem Sized.restored (h : b.Sized n) : b.Restored n := by
  intro file disk fresh hvalid hdistinct hlength
  have hmax : file.hdr.numBytes ≤ 3840 := hvalid.size
  have hsize : b.imageSize = divRoundUp n bitsInWord * 4 := by
    rw [imageSize, h.words, Nat.mul_comm]
  have hcount : file.count b.imageSize 0 = b.imageSize := by
    unfold OpenFile.count OpenFile.cut FileHeader.fileLength
    split
    · omega
    · rw [if_neg (by omega)]
      rfl
  obtain ⟨disk', hwrite, -, hbytes⟩ := OpenFile.writeAt_ok hvalid hdistinct disk fresh b.image
    b.imageSize 0 (Int.le_refl 0) (by unfold intMax; omega)
  refine ⟨disk', by unfold writeBack; rw [hwrite]; rfl, fun b' hb' => ?_⟩
  have hsize' : b'.imageSize = b.imageSize := by
    rw [hsize, imageSize, hb'.words, Nat.mul_comm]
  obtain ⟨into, hread, hinto⟩ := OpenFile.readAt_ok hvalid disk' b'.image 0 b.imageSize 0
    (Int.le_refl 0) (by unfold intMax; omega)
  have himage : ∀ k < b.imageSize, into k = b.image k := by
    intro k hk
    rw [hinto k, hcount, if_pos ⟨Nat.zero_le k, by omega⟩]
    have hbyte := hbytes k (by omega)
    rw [hcount, if_pos (by simpa using hk)] at hbyte
    simpa using hbyte
  refine ⟨ofImage b'.numBits into, ?_, ⟨hb'.numBits, ?_⟩, ?_⟩
  · unfold fetchFrom
    rw [hsize', hread]
    rfl
  · rw [ofImage, List.length_map, List.length_range, hb'.numBits]
  · ext i
    rw [mem_marked, mem_marked, h.numBits, hb'.numBits]
    refine and_congr_right fun hi => ?_
    have hi' : i < n := hi
    rw [test_ofImage hi', test_eq_getLsbD, ← loadInt_image]
    have hword : i / bitsInWord < divRoundUp n bitsInWord := by
      have hwords := le_mul_divRoundUp n
      unfold bitsInWord at *
      omega
    rw [loadInt_congr (fun k _ hk => himage k (by omega))]

/-- A bitmap behaves as the set of its marked bits, which is empty at first, as long as no `ASSERT`
fails; and it can be written to a file and read again. -/
theorem bitmap_is_set (garbage : Nat → Word) (nitems : Nat) (calls : List Call)
    (hcalls : ∀ call ∈ calls, call.Admitted nitems) :
    ∃ answers b, history perform calls (construct garbage nitems) = .ok (answers, b) ∧
      Follows (Allows nitems) ∅ calls answers b.marked ∧ b.Restored nitems := by
  have hsized := construct_sized garbage nitems
  obtain ⟨answers, b, hrun⟩ := (implements_set nitems).exists_history hsized fun call hcall u hu => by
    have hadmitted : call.Admitted u.numBits := hu.numBits ▸ hcalls call hcall
    exact ⟨_, _, if_pos hadmitted⟩
  obtain ⟨hb, hfollows⟩ := (implements_set nitems).history hsized hrun
  rw [construct_marked] at hfollows
  exact ⟨answers, b, hrun, hfollows, hb.restored⟩

/-- Bit 32 of a map of 33 bits is in a word of its own. -/
theorem bitmap_is_set_find :
    ∃ answers b, history perform [.mark 0, .mark 32, .test 31, .find, .clear 32, .numClear]
        (construct (fun _ => 0xffffffff) 33) = .ok (answers, b) ∧
      answers = [.done, .done, .bool false, .int 1, .done, .int 31] ∧ b.Restored 33 := by
  obtain ⟨answers, b, hrun, -, hrestored⟩ := bitmap_is_set (fun _ => 0xffffffff) 33
    [.mark 0, .mark 32, .test 31, .find, .clear 32, .numClear] (by decide)
  refine ⟨answers, b, hrun, ?_, hrestored⟩
  have hanswers : ((history perform [.mark 0, .mark 32, .test 31, .find, .clear 32, .numClear]
      (construct (fun _ => 0xffffffff) 33)).toOption.map Prod.fst) =
        some [.done, .done, .bool false, .int 1, .done, .int 31] := by decide +kernel
  rw [hrun] at hanswers
  exact Option.some.inj hanswers

end Files

end BitMap
end Userprog
end Nachos
