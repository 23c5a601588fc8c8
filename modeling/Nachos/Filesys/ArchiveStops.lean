import Nachos.Filesys.Archive

/-!
# Which calls stop

A call of the file system is answered in every state that a run leads to, but for three kinds:
`Create` with a size that no header can record, where there is room for the file, a request
that transfers something and starts in front of the file or ends beyond the integers, and any
use of a file that was not opened.
-/

namespace Nachos
namespace Filesys

open Threads Userprog Lib

section Stopping

variable {E A B : Type}

/-- Where the rest is done, a sequence stops in its first part. -/
theorem bind_stops_iff {x : Except E A} {f : A → Except E B}
    (hf : ∀ a, x = .ok a → ∃ b, f a = .ok b) :
    (∃ e, (x >>= f) = .error e) ↔ ∃ e, x = .error e := by
  cases x with
  | error e => exact ⟨fun _ => ⟨e, rfl⟩, fun _ => ⟨e, rfl⟩⟩
  | ok a =>
      obtain ⟨b, hb⟩ := hf a rfl
      constructor
      · rintro ⟨e, he⟩
        exact absurd (hb.symm.trans he) (by simp)
      · rintro ⟨e, he⟩
        exact absurd he (by simp)

theorem stops_of_bind {x : Except E A} {f : A → Except E B} {a : A} (hx : x = .ok a) :
    (∃ e, (x >>= f) = .error e) ↔ ∃ e, f a = .error e := by
  rw [hx]
  exact Iff.rfl

theorem not_stops {x : Except E A} {a : A} (hx : x = .ok a) : ¬ ∃ e, x = .error e := by
  rintro ⟨e, he⟩
  exact absurd (hx.symm.trans he) (by simp)

end Stopping

namespace OpenFile

variable {f : OpenFile} {disk : Sectors} {numBytes position : Int}

/-- A request that transfers something, and starts in front of the file or ends beyond the
integers. -/
def Overruns (f : OpenFile) (numBytes position : Int) : Prop :=
  0 < numBytes ∧ position < f.hdr.fileLength ∧ (position < 0 ∨ intMax < position + numBytes)

theorem readAt_stops_iff (hvalid : f.hdr.Valid) (into : Memory) (offset : Nat) :
    (∃ stop, f.readAt disk into offset numBytes position = .error stop) ↔
      f.Overruns numBytes position := by
  by_cases hrequest : numBytes ≤ 0 ∨ position ≥ f.hdr.fileLength
  · have hdone : f.readAt disk into offset numBytes position = .ok (0, into) := if_pos hrequest
    refine iff_of_false (not_stops hdone) ?_
    rintro ⟨hpos, hinside, -⟩
    omega
  · by_cases hmeaning : position < 0 ∨ position + numBytes > intMax
    · refine iff_of_true ⟨.outOfBounds, ?_⟩ ⟨by omega, by omega, hmeaning⟩
      rw [readAt, if_neg hrequest, if_pos hmeaning]
    · obtain ⟨into', hread, -⟩ := readAt_ok hvalid disk into offset numBytes position (by omega)
        (by omega)
      exact iff_of_false (not_stops hread) fun hoverruns => hmeaning hoverruns.2.2

theorem writeAt_stops_iff (hvalid : f.hdr.Valid) (hdistinct : f.hdr.Distinct)
    (fresh source : Memory) :
    (∃ stop, f.writeAt disk fresh source numBytes position = .error stop) ↔
      f.Overruns numBytes position := by
  by_cases hrequest : numBytes ≤ 0 ∨ position ≥ f.hdr.fileLength
  · have hdone : f.writeAt disk fresh source numBytes position = .ok (0, disk) :=
      if_pos hrequest
    refine iff_of_false (not_stops hdone) ?_
    rintro ⟨hpos, hinside, -⟩
    omega
  · by_cases hmeaning : position < 0 ∨ position + numBytes > intMax
    · refine iff_of_true ⟨.outOfBounds, ?_⟩ ⟨by omega, by omega, hmeaning⟩
      rw [writeAt, if_neg hrequest, if_pos hmeaning]
    · obtain ⟨disk', hwrite, -⟩ := writeAt_ok hvalid hdistinct disk fresh source numBytes position
        (by omega) (by omega)
      exact iff_of_false (not_stops hwrite) fun hoverruns => hmeaning hoverruns.2.2

end OpenFile

namespace Volume

/-- The calls that stop. -/
def Improper (v : Volume) : FileCall → Prop
  | .create name initialSize =>
      maxFileSize < initialSize.toInt ∧ ¬ CreateRefused v.fs name initialSize.toInt
  | .openFile _ => False
  | .remove _ => False
  | .length n => v.opened[n]? = none
  | .seek n _ => v.opened[n]? = none
  | .read n _ numBytes => ∀ h, v.opened[n]? = some h →
      h.file.Overruns numBytes.toInt h.file.seekPosition
  | .readAt n _ numBytes position => ∀ h, v.opened[n]? = some h →
      h.file.Overruns numBytes.toInt position.toInt
  | .write n _ numBytes => ∀ h, v.opened[n]? = some h →
      h.file.Overruns numBytes.toInt h.file.seekPosition
  | .writeAt n _ numBytes position => ∀ h, v.opened[n]? = some h →
      h.file.Overruns numBytes.toInt position.toInt

end Volume

namespace Represents

variable {v : Volume} {s : FileStore StoredName Byte} {n : Nat} {h : Handle} {fresh : Fresh}
  {name : Memory} {initialSize : Int}

theorem create_stops_iff (hv : Represents v s) (hlow : -2 ^ 31 ≤ initialSize) :
    (∃ stop, v.fs.create fresh name initialSize = .error stop) ↔
      maxFileSize < initialSize ∧ ¬ CreateRefused v.fs name initialSize := by
  have hfalse : v.fs.create fresh name initialSize = .ok (false, v.fs) ↔
      CreateRefused v.fs name initialSize := hv.holds.sound.create_false_iff fresh
  rcases hv.holds.sound.create_cases fresh name hlow with
    hno | ⟨hlong, stop, hstop⟩ | ⟨sector, hdr, i, d, b, b', disk', hcreation, -, hyes⟩
  · exact iff_of_false (not_stops hno) fun himproper => himproper.2 (hfalse.mp hno)
  · -- the header has no place for so many sectors
    refine iff_of_true ⟨stop, hstop⟩ ⟨hlong, fun hrefused => ?_⟩
    exact absurd ((hfalse.mpr hrefused).symm.trans hstop) (by simp)
  · refine iff_of_false (not_stops hyes) fun himproper => ?_
    exact absurd hcreation.size (Int.not_le.mpr himproper.1)

/-- The header of an open file can be used, and can be written through while the file is
there. -/
theorem usable (hv : Represents v s) (hn : v.opened[n]? = some h) :
    h.file.hdr.Valid ∧ (h.removed = false → h.file.hdr.Distinct) := by
  obtain ⟨g, -, hg⟩ := forall₂_getElem? hv.grips hn
  refine ⟨hg.valid, fun hlive => ?_⟩
  obtain ⟨i, hi, -, hheader, -⟩ := hg.file hlive
  rw [hheader]
  exact (hv.holds.sound.headerAt_usable hi).2

/-- A use of an open file stops where no such file is open, or what is done with it stops. -/
theorem use_stops_iff {A : Type} (v : Volume) (n : Nat) {use : Handle → Except Stop A}
    {bad : Handle → Prop}
    (huse : ∀ h, v.opened[n]? = some h → ((∃ stop, use h = .error stop) ↔ bad h)) :
    (∃ stop, (v.handle n >>= use) = .error stop) ↔ ∀ h, v.opened[n]? = some h → bad h := by
  unfold Volume.handle
  cases hn : v.opened[n]? with
  | none => exact iff_of_true ⟨.nullDereference, rfl⟩ fun h hsome => absurd hsome (by simp)
  | some h =>
      rw [stops_of_bind rfl, huse h hn]
      constructor
      · rintro hbad h' hsame
        exact Option.some.inj hsame ▸ hbad
      · intro hall
        exact hall h rfl

theorem perform_stops_iff (hv : Represents v s) {choice : FileChoice}
    (hlive : v.WritesLive choice) :
    (∃ stop, v.perform choice = .error stop) ↔ v.Improper choice.call := by
  unfold Volume.perform
  unfold Volume.WritesLive at hlive
  cases hchoice : choice.call with
  | create name initialSize =>
      rw [bind_stops_iff fun a _ => ⟨_, rfl⟩]
      exact hv.create_stops_iff (BitVec.le_toInt initialSize)
  | openFile name =>
      refine iff_of_false ?_ id
      rcases hv.holds.sound.openFile_cases choice.fresh name with
        ⟨-, hlookup, hopen⟩ | ⟨i, -, -, hlookup, hopen⟩
      · rw [stops_of_bind hlookup, stops_of_bind hopen]
        exact not_stops rfl
      · rw [stops_of_bind hlookup, stops_of_bind hopen]
        exact not_stops rfl
  | remove name =>
      refine iff_of_false ?_ id
      obtain ⟨sector, hlookup⟩ : ∃ sector, v.fs.lookup choice.fresh name = .ok sector := by
        rcases hv.holds.sound.openFile_cases choice.fresh name with
          ⟨-, hlookup, -⟩ | ⟨i, -, -, hlookup, -⟩
        · exact ⟨_, hlookup⟩
        · exact ⟨_, hlookup⟩
      rw [stops_of_bind hlookup]
      rcases hv.holds.sound.remove_cases choice.fresh name with
        hno | ⟨i, d, b', disk', -, -, -, hyes⟩
      · rw [stops_of_bind hno]
        exact not_stops rfl
      · rw [stops_of_bind hyes]
        exact not_stops rfl
  | length n =>
      show _ ↔ v.opened[n]? = none
      rw [use_stops_iff v n fun h _ => show _ ↔ False from iff_of_false (not_stops rfl) id]
      cases v.opened[n]? <;> simp
  | seek n position =>
      show _ ↔ v.opened[n]? = none
      rw [use_stops_iff v n fun h _ => show _ ↔ False from iff_of_false (not_stops rfl) id]
      cases v.opened[n]? <;> simp
  | read n into numBytes =>
      refine use_stops_iff v n fun h hn => ?_
      rw [bind_stops_iff fun a _ => ⟨_, rfl⟩, OpenFile.read, bind_stops_iff fun a _ => ⟨_, rfl⟩]
      exact OpenFile.readAt_stops_iff (hv.usable hn).1 into 0
  | readAt n into numBytes position =>
      refine use_stops_iff v n fun h hn => ?_
      rw [bind_stops_iff fun a _ => ⟨_, rfl⟩]
      exact OpenFile.readAt_stops_iff (hv.usable hn).1 into 0
  -- The sectors of a file are known to be distinct as long as it is there.
  | write n source numBytes =>
      refine use_stops_iff v n fun h hn => ?_
      rw [bind_stops_iff fun a _ => ⟨_, rfl⟩, OpenFile.write, bind_stops_iff fun a _ => ⟨_, rfl⟩]
      obtain ⟨hvalid, hdistinct⟩ := hv.usable hn
      rw [hchoice] at hlive
      exact OpenFile.writeAt_stops_iff hvalid (hdistinct (hlive n h rfl hn)) _ source
  | writeAt n source numBytes position =>
      refine use_stops_iff v n fun h hn => ?_
      rw [bind_stops_iff fun a _ => ⟨_, rfl⟩]
      obtain ⟨hvalid, hdistinct⟩ := hv.usable hn
      rw [hchoice] at hlive
      exact OpenFile.writeAt_stops_iff hvalid (hdistinct (hlive n h rfl hn)) _ source

end Represents

section Runs

variable {disk : Sectors} {fresh : Fresh} {fs : FileSystem} {v : Volume}
  {events : List (StoreEvent StoredName Byte)}

theorem represents_of_history (hformat : FileSystem.format disk fresh = .ok fs)
    (hrun : Volume.History ⟨fs, []⟩ events v) : ∃ s, Represents v s := by
  refine hrun.invariant (P := fun v => ∃ s, Represents v s) ?_ ⟨_, represents_of_format hformat⟩
  rintro u event w ⟨s, hs⟩ hstep
  obtain ⟨s', -, hs'⟩ := hs.happen hstep
  exact ⟨s', hs'⟩

/-- In every run exactly the improper calls stop. -/
theorem stops_iff_of_history (hformat : FileSystem.format disk fresh = .ok fs)
    (hrun : Volume.History ⟨fs, []⟩ events v) {choice : FileChoice}
    (hlive : v.WritesLive choice) :
    (∃ stop, v.perform choice = .error stop) ↔ v.Improper choice.call := by
  obtain ⟨s, hs⟩ := represents_of_history hformat hrun
  exact hs.perform_stops_iff hlive

/-- A write of two bytes through the first open file. -/
def writeFrom (position : Word) : FileChoice :=
  ⟨.writeAt 0 (fun _ => 120) 2 position, fun _ _ => 0⟩

/-- Through a file of three bytes, a write stops in front of the file and is answered inside. -/
theorem stops_iff_of_history_reopened : ∃ fs events v,
    FileSystem.format (fun _ _ => 0) (fun _ _ => 0) = .ok fs ∧
    Volume.History ⟨fs, []⟩ events v ∧
    (∃ h, v.opened[0]? = some h ∧ h.removed = false ∧ h.file.hdr.fileLength = 3) ∧
    (∃ stop, v.perform (writeFrom (-1)) = .error stop) ∧
    ¬ ∃ stop, v.perform (writeFrom 1) = .error stop := by
  obtain ⟨fs, events, v, hformat, hrun, -, ⟨h, hopened, hlive, hlength⟩, -⟩ := exists_reopened
  -- The file that is open has not been removed.
  have hwrites : ∀ position, v.WritesLive (writeFrom position) := by
    intro position n h' hn hopened'
    obtain rfl := Option.some.inj hn
    obtain rfl := Option.some.inj (hopened.symm.trans hopened')
    exact hlive
  refine ⟨fs, events, v, hformat, hrun, ⟨h, hopened, hlive, hlength⟩, ?_, ?_⟩
  · refine (stops_iff_of_history hformat hrun (hwrites (-1))).mpr fun h' hopened' => ?_
    obtain rfl := Option.some.inj (hopened.symm.trans hopened')
    exact ⟨by decide, by rw [hlength]; decide, .inl (by decide)⟩
  · rw [stops_iff_of_history hformat hrun (hwrites 1)]
    intro himproper
    exact absurd (himproper h hopened).2.2 (by decide)

/-- In every run each sector is free, one of the file system itself, or one of a file. -/
theorem space_of_history (hformat : FileSystem.format disk fresh = .ok fs)
    (hrun : Volume.History ⟨fs, []⟩ events v) :
    v.fs.freeSectors.card + 5 +
      ∑ i ∈ v.fs.entries, (1 + (v.fs.headerAt i).numSectors.toNat) = numSectors := by
  obtain ⟨s, hs⟩ := represents_of_history hformat hrun
  exact hs.holds.sound.space

/-- A file of three bytes takes two sectors. -/
theorem space_of_history_reopened : ∃ fs events v,
    FileSystem.format (fun _ _ => 0) (fun _ _ => 0) = .ok fs ∧
    Volume.History ⟨fs, []⟩ events v ∧ v.fs.entries.Nonempty ∧
    v.fs.freeSectors.card + 5 +
      ∑ i ∈ v.fs.entries, (1 + (v.fs.headerAt i).numSectors.toNat) = numSectors := by
  obtain ⟨fs, events, v, hformat, hrun, -, -, hfile⟩ := exists_reopened
  refine ⟨fs, events, v, hformat, hrun, ⟨0, ?_⟩, space_of_history hformat hrun⟩
  exact Finset.mem_filter.mpr ⟨Finset.mem_range.mpr (by decide), hfile⟩

end Runs

end Filesys
end Nachos
