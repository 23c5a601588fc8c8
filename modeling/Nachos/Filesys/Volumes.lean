import Nachos.Filesys.Consistency

/-!
# Runs of the file system

`Steady` is kept by every call that does not write to a removed file: the file system is
sound, and an open file that has not been removed has the header that is on the disk.
The structures on the disk then agree with one another in every run, and a write
touches the data sectors of its own file only.
-/

namespace Nachos
namespace Filesys

open Threads Userprog Lib

variable {v v' : Volume} {fs fs' : FileSystem} {h : Handle} {n : Nat} {choice : FileChoice}

/-- An open file that has not been removed is a file of the directory. -/
def Handle.Live (fs : FileSystem) (h : Handle) : Prop :=
  h.removed = false → ∃ i, IsFile fs.directoryImage i ∧ fs.directoryImage.sector i = h.sector ∧
    h.file.hdr = fs.disk h.sector

/-- The invariant of the runs. -/
structure Volume.Steady (v : Volume) : Prop where
  sound : Sound v.fs
  live : ∀ h ∈ v.opened, h.Live v.fs

namespace Volume

theorem handle_eq_ok (hok : v.handle n = .ok h) : v.opened[n]? = some h := by
  unfold handle at hok
  split at hok
  · rename_i h' hn
    rw [hn, Except.ok.inj hok]
  · exact absurd hok (by simp)

theorem mem_setFile {file : OpenFile} (hmem : h ∈ (v.setFile n file).opened) :
    h ∈ v.opened ∨ ∃ h₀, v.opened[n]? = some h₀ ∧ h = { h₀ with file := file } := by
  obtain ⟨k, hk⟩ := List.mem_iff_getElem?.mp hmem
  unfold setFile at hk
  rw [List.getElem?_modify] at hk
  split at hk
  · rename_i hnk
    subst hnk
    cases hn : v.opened[n]? with
    | none => simp [hn] at hk
    | some h₀ =>
        rw [hn] at hk
        exact Or.inr ⟨h₀, rfl, (Option.some.inj hk).symm⟩
  · refine Or.inl (List.mem_iff_getElem?.mpr ⟨k, ?_⟩)
    simpa using hk

/-- Moving the position of an open file matters to nothing here. -/
theorem Steady.setFile (hv : v.Steady) {file : OpenFile}
    (hhdr : ∀ h, v.opened[n]? = some h → file.hdr = h.file.hdr) : (v.setFile n file).Steady := by
  refine ⟨hv.sound, fun h hmem => ?_⟩
  rcases mem_setFile hmem with hold | ⟨h₀, hn, rfl⟩
  · exact hv.live h hold
  · intro hremoved
    obtain ⟨i, hfile, hsector, hdisk⟩ :=
      hv.live h₀ (List.mem_of_getElem? hn) hremoved
    exact ⟨i, hfile, hsector, (hhdr h₀ hn).trans hdisk⟩

theorem Steady.keeps (hv : v.Steady) (hsound : Sound fs')
    (hkeeps : ∀ j, IsFile v.fs.directoryImage j → KeepsFile v.fs fs' j) :
    Steady { v with fs := fs' } := by
  refine ⟨hsound, fun h hmem hremoved => ?_⟩
  obtain ⟨i, hfile, hsector, hdisk⟩ := hv.live h hmem hremoved
  obtain ⟨hfile', hsector', hdisk'⟩ := hkeeps i hfile
  rw [hsector] at hsector' hdisk'
  exact ⟨i, hfile', hsector', hdisk.trans hdisk'.symm⟩

theorem Steady.create (hv : v.Steady) {name : Memory} {initialSize : Word} {ok : Bool}
    {fresh : Fresh} (hcreate : v.fs.create fresh name initialSize.toInt = .ok (ok, fs')) :
    Steady { v with fs := fs' } := by
  rcases hv.sound.create_cases fresh name (BitVec.le_toInt initialSize) with
    hno | ⟨-, stop, hstop⟩ | ⟨sector, hdr, i, d, b, b', disk', hcreation, hcommit, hyes⟩
  · rw [hno] at hcreate
    obtain ⟨-, rfl⟩ := Prod.mk.inj (Except.ok.inj hcreate)
    exact hv
  · rw [hstop] at hcreate
    exact absurd hcreate (by simp)
  · rw [hyes] at hcreate
    obtain ⟨-, rfl⟩ := Prod.mk.inj (Except.ok.inj hcreate)
    exact hv.keeps (hcreation.sound hcommit hv.sound)
      fun j hfile => hcreation.keepsFile hcommit hv.sound hfile

theorem Steady.remove (hv : v.Steady) {name : Memory} {sector : Int} {ok : Bool} {fresh : Fresh}
    (hlookup : v.fs.lookup fresh name = .ok sector)
    (hremove : v.fs.remove fresh name = .ok (ok, fs')) :
    Steady (if ok then { v with fs := fs' }.markRemoved sector else { v with fs := fs' }) := by
  rcases hv.sound.remove_cases fresh name with
    hno | ⟨i, d, b', disk', hremoval, hcommit, hsector, hyes⟩
  · rw [hno] at hremove
    obtain ⟨rfl, rfl⟩ := Prod.mk.inj (Except.ok.inj hremove)
    exact hv
  · rw [hyes] at hremove
    obtain ⟨rfl, rfl⟩ := Prod.mk.inj (Except.ok.inj hremove)
    obtain rfl := Except.ok.inj (hsector.symm.trans hlookup)
    rw [if_pos rfl]
    refine ⟨hremoval.sound hcommit hv.sound, fun h hmem hremoved => ?_⟩
    obtain ⟨h₀, hmem₀, rfl⟩ := List.mem_map.mp hmem
    by_cases hsame : h₀.sector = v.fs.directoryImage.sector i
    · rw [if_pos hsame] at hremoved
      exact absurd hremoved (by simp)
    · rw [if_neg hsame] at hremoved ⊢
      obtain ⟨j, hfile, hj, hdisk⟩ := hv.live h₀ hmem₀ hremoved
      have hji : j ≠ i := by
        rintro rfl
        exact hsame hj.symm
      obtain ⟨hfile', hsector', hdisk'⟩ := hremoval.keepsFile hcommit hv.sound hji hfile
      rw [hj] at hsector' hdisk'
      exact ⟨j, hfile', hsector', hdisk.trans hdisk'.symm⟩

theorem Steady.openFile (hv : v.Steady) {name : Memory} {sector : Int} {file : Option OpenFile}
    {fresh : Fresh} (hlookup : v.fs.lookup fresh name = .ok sector)
    (hopen : v.fs.openFile fresh name = .ok file) :
    Steady { v with opened := v.opened ++ (file.map fun f => ⟨f, sector, false⟩).toList } := by
  refine ⟨hv.sound, fun h hmem => ?_⟩
  rcases List.mem_append.mp hmem with hold | hnew
  · exact hv.live h hold
  · intro _
    obtain ⟨f, rfl, rfl⟩ : ∃ f, file = some f ∧ h = ⟨f, sector, false⟩ := by
      cases file with
      | none => simp at hnew
      | some f => exact ⟨f, rfl, by simpa using hnew⟩
    obtain ⟨d, hfetch, hd⟩ := hv.sound.fetchDirectory (fresh 0)
    have hfound : d.find name = sector := by
      simp only [FileSystem.lookup, hfetch, bind, Except.bind] at hlookup
      exact Except.ok.inj hlookup
    simp only [FileSystem.openFile, hlookup, bind, Except.bind] at hopen
    rcases hv.sound.find_cases hd name with ⟨-, hnone⟩ | ⟨i, hfile, -, hfind, hsector⟩
    · rw [if_neg (by omega)] at hopen
      exact absurd hopen (by simp)
    · obtain rfl : v.fs.directoryImage.sector i = sector := hfind.symm.trans hfound
      rw [if_pos hsector.1] at hopen
      simp only [OpenFile.new, FileHeader.fetchFrom, readSector, if_pos hsector, bind,
        Except.bind] at hopen
      obtain rfl := Option.some.inj (Except.ok.inj hopen)
      exact ⟨i, hfile, rfl, rfl⟩

/-- A write through a file that has not been removed touches its data sectors only. -/
theorem Steady.write_frame (hv : v.Steady) (hmem : h ∈ v.opened) (hlive : h.removed = false)
    {fresh source : Memory} {numBytes position r : Int} {disk' : Sectors}
    (hwrite : h.file.writeAt v.fs.disk fresh source numBytes position = .ok (r, disk')) :
    ∃ i, IsFile v.fs.directoryImage i ∧ v.fs.directoryImage.sector i = h.sector ∧
      ∀ s, (∀ j, ¬ Plays v.fs.disk v.fs.directoryImage (.data i j) s) →
        disk' s = v.fs.disk s := by
  obtain ⟨i, hfile, hsector, hdisk⟩ := hv.live h hmem hlive
  have hgood : h.file.hdr.Good := by
    rw [hdisk, ← hsector]
    exact hv.sound.fileGood i hfile
  have hplays : ∀ j s, IsData h.file.hdr j s →
      Plays v.fs.disk v.fs.directoryImage (.data i j) s := by
    intro j s hdata
    rw [hdisk, ← hsector] at hdata
    exact ⟨hfile, hdata⟩
  obtain ⟨hvalid, hdistinct⟩ :=
    hv.sound.usable (.data i) hgood (fun j j' heq => (Role.data.inj heq).2) hplays
  refine ⟨i, hfile, hsector, fun s hs => ?_⟩
  refine OpenFile.writeAt_frame hvalid hdistinct hwrite fun j hj heq => ?_
  exact hs j (hplays j s (hgood.isData_iff.mpr ⟨hj, heq⟩))

theorem Steady.write (hv : v.Steady) (hmem : h ∈ v.opened) (hlive : h.removed = false)
    {fresh source : Memory} {numBytes position r : Int} {disk' : Sectors}
    (hwrite : h.file.writeAt v.fs.disk fresh source numBytes position = .ok (r, disk')) :
    Steady { v with fs := { v.fs with disk := disk' } } := by
  obtain ⟨i, -, -, hframe⟩ := hv.write_frame hmem hlive hwrite
  exact hv.keeps (hv.sound.written hframe) fun j hfile => hv.sound.written_keepsFile hframe hfile

/-- A step is a call with some answer. -/
theorem perform_of_step (hstep : step choice v = .ok v') :
    ∃ answer, v.perform choice = .ok (answer, v') := by
  unfold step at hstep
  cases hperform : v.perform choice with
  | error stop =>
      rw [hperform] at hstep
      exact absurd hstep (by simp [Except.map])
  | ok result =>
      rw [hperform] at hstep
      obtain rfl := Except.ok.inj hstep
      exact ⟨result.1, rfl⟩

/-- What a call that writes does. -/
theorem step_write (hwrites : writtenFile choice.call = some n)
    (hstep : step choice v = .ok v') :
    ∃ h source numBytes position r disk', v.opened[n]? = some h ∧
      h.file.writeAt v.fs.disk (choice.fresh 0) source numBytes position = .ok (r, disk') ∧
      (v' = { v with fs := { v.fs with disk := disk' } } ∨
        ∃ file : OpenFile, file.hdr = h.file.hdr ∧
          v' = { v with fs := { v.fs with disk := disk' } }.setFile n file) := by
  obtain ⟨answer, hstep⟩ := perform_of_step hstep
  unfold perform at hstep
  cases hcall : choice.call with
  | write k source numBytes =>
      obtain rfl : k = n := by
        rw [hcall] at hwrites
        exact Option.some.inj hwrites
      simp only [hcall] at hstep
      obtain ⟨h, hn, hstep⟩ := bind_eq_ok hstep
      obtain ⟨⟨r, disk', file⟩, hwrite, hstep⟩ := bind_eq_ok hstep
      obtain ⟨⟨r', disk''⟩, hwriteAt, hfile⟩ := bind_eq_ok hwrite
      obtain ⟨rfl, rfl, rfl⟩ : r' = r ∧ disk'' = disk' ∧
          { h.file with seekPosition := h.file.seekPosition + r' } = file := by
        simpa using hfile
      refine ⟨h, source, numBytes.toInt, _, _, _, handle_eq_ok hn, hwriteAt, Or.inr ?_⟩
      exact ⟨{ h.file with seekPosition := h.file.seekPosition + r' }, rfl,
        (Prod.mk.inj (Except.ok.inj hstep)).2.symm⟩
  | writeAt k source numBytes position =>
      obtain rfl : k = n := by
        rw [hcall] at hwrites
        exact Option.some.inj hwrites
      simp only [hcall] at hstep
      obtain ⟨h, hn, hstep⟩ := bind_eq_ok hstep
      obtain ⟨⟨r, disk'⟩, hwriteAt, hstep⟩ := bind_eq_ok hstep
      refine ⟨h, source, numBytes.toInt, _, _, _, handle_eq_ok hn, hwriteAt, Or.inl ?_⟩
      exact (Prod.mk.inj (Except.ok.inj hstep)).2.symm
  | _ =>
      rw [hcall] at hwrites
      exact absurd hwrites (by simp [writtenFile])

/-- One call keeps the invariant. -/
theorem Steady.step (hv : v.Steady) (hlive : WritesLive v choice)
    (hstep : step choice v = .ok v') : v'.Steady := by
  cases hwritten : writtenFile choice.call with
  | some n =>
      obtain ⟨h, source, numBytes, position, r, disk', hn, hwrite, hv'⟩ :=
        step_write hwritten hstep
      have hsteady := hv.write (List.mem_of_getElem? hn) (hlive n h hwritten hn) hwrite
      rcases hv' with rfl | ⟨file, hhdr, rfl⟩
      · exact hsteady
      · refine hsteady.setFile fun h' hn' => ?_
        obtain rfl := Option.some.inj (hn.symm.trans hn')
        exact hhdr
  | none =>
      obtain ⟨answer, hstep⟩ := perform_of_step hstep
      unfold perform at hstep
      cases hcall : choice.call with
      | create name initialSize =>
          simp only [hcall] at hstep
          obtain ⟨⟨ok, fs'⟩, hcreate, hstep⟩ := bind_eq_ok hstep
          obtain ⟨-, rfl⟩ := Prod.mk.inj (Except.ok.inj hstep)
          exact hv.create hcreate
      | openFile name =>
          simp only [hcall] at hstep
          obtain ⟨sector, hlookup, hstep⟩ := bind_eq_ok hstep
          obtain ⟨file, hopen, hstep⟩ := bind_eq_ok hstep
          obtain ⟨-, rfl⟩ := Prod.mk.inj (Except.ok.inj hstep)
          exact hv.openFile hlookup hopen
      | remove name =>
          simp only [hcall] at hstep
          obtain ⟨sector, hlookup, hstep⟩ := bind_eq_ok hstep
          obtain ⟨⟨ok, fs'⟩, hremove, hstep⟩ := bind_eq_ok hstep
          obtain ⟨-, rfl⟩ := Prod.mk.inj (Except.ok.inj hstep)
          exact hv.remove hlookup hremove
      | length n =>
          simp only [hcall] at hstep
          obtain ⟨h, -, hstep⟩ := bind_eq_ok hstep
          obtain ⟨-, rfl⟩ := Prod.mk.inj (Except.ok.inj hstep)
          exact hv
      | seek n position =>
          simp only [hcall] at hstep
          obtain ⟨h, hn, hstep⟩ := bind_eq_ok hstep
          obtain ⟨-, rfl⟩ := Prod.mk.inj (Except.ok.inj hstep)
          refine hv.setFile fun h' hn' => ?_
          obtain rfl := Option.some.inj ((handle_eq_ok hn).symm.trans hn')
          rfl
      | read n into numBytes =>
          simp only [hcall] at hstep
          obtain ⟨h, hn, hstep⟩ := bind_eq_ok hstep
          obtain ⟨⟨r, into', file⟩, hread, hstep⟩ := bind_eq_ok hstep
          obtain ⟨-, rfl⟩ := Prod.mk.inj (Except.ok.inj hstep)
          refine hv.setFile fun h' hn' => ?_
          obtain rfl := Option.some.inj ((handle_eq_ok hn).symm.trans hn')
          obtain ⟨⟨r', into''⟩, -, hfile⟩ := bind_eq_ok hread
          obtain ⟨-, -, rfl⟩ : r' = r ∧ into'' = into' ∧
              { h.file with seekPosition := h.file.seekPosition + r' } = file := by
            simpa using hfile
          rfl
      | readAt n into numBytes position =>
          simp only [hcall] at hstep
          obtain ⟨h, -, hstep⟩ := bind_eq_ok hstep
          obtain ⟨_, -, hstep⟩ := bind_eq_ok hstep
          obtain ⟨-, rfl⟩ := Prod.mk.inj (Except.ok.inj hstep)
          exact hv
      | write n source numBytes =>
          rw [hcall] at hwritten
          exact absurd hwritten (by simp [writtenFile])
      | writeAt n source numBytes position =>
          rw [hcall] at hwritten
          exact absurd hwritten (by simp [writtenFile])

theorem steady_of_format {disk : Sectors} {fresh : Fresh}
    (hformat : FileSystem.format disk fresh = .ok fs) : Steady ⟨fs, []⟩ := by
  obtain ⟨fs', hformat', hformatted⟩ := format_ok disk fresh
  obtain rfl := Except.ok.inj (hformat'.symm.trans hformat)
  exact ⟨hformatted.sound, by simp⟩

/-- Every run keeps the invariant. -/
theorem Steady.run {u : Volume} (hu : u.Steady) (hrun : Run u v) : v.Steady :=
  hrun.invariant (P := Steady) (fun _ _ _ hsteady hguard hstep => hsteady.step hguard hstep) hu

end Volume

/-- A sound file system is a consistent one. -/
theorem Sound.consistent (h : Sound fs) : Consistent fs := by
  constructor
  case freeMap =>
    intro fresh
    obtain ⟨b, hfetchB, -, -, htest⟩ := h.fetchFreeMap
    obtain ⟨d, hfetchD, hd⟩ := h.fetchDirectory fresh
    refine ⟨b, d, hfetchB, hfetchD, ?_, ?_, ?_, ?_⟩
    · intro s hs
      have hused := h.exclusive.used_iff s
      unfold FileSystem.Used at hused
      rw [Int.toNat_natCast] at hused
      have hsector : IsSector s := ⟨by omega, by omega⟩
      simp only [plays_congr hd, htest s hs]
      rw [← hused]
      exact ⟨fun hbit => ⟨hsector, hbit⟩, fun hboth => hboth.2⟩
    · intro r r' s hr hr'
      exact h.exclusive.unique r r' s ((plays_congr hd).mp hr) ((plays_congr hd).mp hr')
    · intro r s hr
      exact ((h.exclusive.used_iff s).mpr ⟨r, (plays_congr hd).mp hr⟩).1
    · intro i j hi hj hne
      have hi' := (isFile_congr hd).mp hi
      have hj' := (isFile_congr hd).mp hj
      obtain ⟨k, hk, hchar⟩ := h.names i j hi' hj' hne
      refine ⟨k, hk, ?_⟩
      rw [Directory.name_congr (entry_agree hd hi'.1) hk,
        Directory.name_congr (entry_agree hd hj'.1) hk]
      exact hchar
  case remove =>
    intro fresh name
    rcases h.remove_cases fresh name with hno | ⟨i, d, b', disk', -, -, -, hyes⟩
    · exact ⟨_, hno⟩
    · exact ⟨_, hyes⟩

section Scenarios

/-- A disk full of zeros is formatted, and the calls, which write to no file, are made. -/
theorem exists_run (calls : List FileChoice) {P : Volume → Prop} [DecidablePred P]
    (h : (FileSystem.format (fun _ _ => 0) fun _ _ => 0).toOption.any (fun fs =>
      (replay Volume.step (fun _ choice => (Volume.writtenFile choice.call).isNone) calls
        ⟨fs, []⟩).any fun v => decide (P v)) = true) :
    ∃ fs v, FileSystem.format (fun _ _ => 0) (fun _ _ => 0) = .ok fs ∧
      Volume.Run ⟨fs, []⟩ v ∧ P v := by
  obtain ⟨fs, hformat, hreplay⟩ := (Option.any_eq_true _ _).mp h
  have hcheck : ∀ (u : Volume) (choice : FileChoice),
      (Volume.writtenFile choice.call).isNone = true → Volume.WritesLive u choice := by
    intro u choice hnone n h hn _
    rw [hn] at hnone
    exact absurd hnone (by simp)
  obtain ⟨v, hrun, hv⟩ := exists_reach_of_replay hcheck hreplay
  refine ⟨fs, v, ?_, hrun, hv⟩
  cases hresult : FileSystem.format (fun _ _ => 0) fun _ _ => 0 with
  | error stop =>
      rw [hresult] at hformat
      exact absurd hformat (by simp [Except.toOption])
  | ok fs' =>
      rw [hresult] at hformat
      rw [Option.some.inj hformat]

/-- A name of one character. -/
def shortName (c : Byte) : Memory := fun k => if k = 0 then c else 0

/-- The calls, in memory full of zeros. -/
def cleanCalls (calls : List FileCall) : List FileChoice :=
  calls.map fun call => ⟨call, fun _ _ => 0⟩

end Scenarios

/-- The structures on the disk agree with one another in every run from a formatted
disk in which no removed file is written to. -/
theorem consistent_of_run (disk : Sectors) (fresh : Fresh) (fs : FileSystem) (v : Volume)
    (hformat : FileSystem.format disk fresh = .ok fs) (hrun : Volume.Run ⟨fs, []⟩ v) :
    Consistent v.fs :=
  ((Volume.steady_of_format hformat).run hrun).sound.consistent

/-- A file is created, opened and removed, and two others are created. -/
theorem consistent_of_run_removed :
    ∃ fs v, FileSystem.format (fun _ _ => 0) (fun _ _ => 0) = .ok fs ∧
      Volume.Run ⟨fs, []⟩ v ∧ (∃ h ∈ v.opened[0]?, h.removed = true) ∧ Consistent v.fs := by
  obtain ⟨fs, v, hformat, hrun, hremoved⟩ := exists_run
    (cleanCalls [.create (shortName 97) 1, .openFile (shortName 97),
      .remove (shortName 97), .create (shortName 98) 0, .create (shortName 99) 3840])
    (P := fun v => ∃ h ∈ v.opened[0]?, h.removed = true) (by decide +kernel)
  exact ⟨fs, v, hformat, hrun, hremoved, consistent_of_run _ _ fs v hformat hrun⟩

/-- The roles of the sectors that hold the bytes of an open file. -/
def OwnRole (d : Directory) (h : Handle) : Role → Prop
  | .data i _ => h.removed = false ∧ d.sector i = h.sector
  | _ => False

/-- Only the bytes of the open file `h` may differ between two states: those of the
other files and of the file system itself are the same. -/
def WriteConfined (v v' : Volume) (h : Handle) : Prop :=
  ∀ fresh d, v.fs.fetchDirectory fresh = .ok d → ∀ r s, Plays v.fs.disk d r s →
    ¬ OwnRole d h r → v'.fs.disk s = v.fs.disk s

/-- In every run in which no removed file is written to, a write changes the bytes of its
own file only. -/
theorem write_confined (disk : Sectors) (fresh : Fresh) (fs : FileSystem) (v v' : Volume)
    (choice : FileChoice) (n : Nat) (h : Handle)
    (hformat : FileSystem.format disk fresh = .ok fs) (hrun : Volume.Run ⟨fs, []⟩ v)
    (hlive : Volume.WritesLive v choice) (hstep : Volume.step choice v = .ok v')
    (hwrites : Volume.writtenFile choice.call = some n) (hn : v.opened[n]? = some h) :
    WriteConfined v v' h := by
  have hv : v.Steady := (Volume.steady_of_format hformat).run hrun
  obtain ⟨h', source, numBytes, position, result, disk', hn', hwrite, hv'⟩ :=
    Volume.step_write hwrites hstep
  obtain rfl := Option.some.inj (hn.symm.trans hn')
  have hremoved := hlive n h hwrites hn
  obtain ⟨i, hfile, hsector, hframe⟩ := hv.write_frame (List.mem_of_getElem? hn) hremoved hwrite
  have hdisk : v'.fs.disk = disk' := by
    rcases hv' with rfl | ⟨file, -, rfl⟩
    · rfl
    · rfl
  intro fresh' d hfetch r s hplays hown
  obtain ⟨d', hfetch', hd'⟩ := hv.sound.fetchDirectory fresh'
  obtain rfl := Except.ok.inj (hfetch'.symm.trans hfetch)
  rw [hdisk]
  refine hv.sound.written_keeps hframe ((plays_congr hd').mp hplays) ?_
  rintro j rfl
  exact hown ⟨hremoved, (Directory.sector_congr (entry_agree hd' hfile.1)).trans hsector⟩

/-- A file of one byte is created, opened and written to. -/
theorem write_confined_created :
    ∃ fs v v' h, FileSystem.format (fun _ _ => 0) (fun _ _ => 0) = .ok fs ∧
      Volume.Run ⟨fs, []⟩ v ∧ v.opened[0]? = some h ∧
      Volume.step ⟨.writeAt 0 (fun _ => 7) 1 0, fun _ _ => 0⟩ v = .ok v' ∧
      WriteConfined v v' h := by
  obtain ⟨fs, v, hformat, hrun, ⟨h, hn, hremoved⟩, hstep⟩ := exists_run
    (cleanCalls [.create (shortName 97) 1, .openFile (shortName 97)])
    (P := fun v => (∃ h ∈ v.opened[0]?, h.removed = false) ∧
      (Volume.step ⟨.writeAt 0 (fun _ => 7) 1 0, fun _ _ => 0⟩ v).isOk = true)
    (by decide +kernel)
  cases hresult : Volume.step ⟨.writeAt 0 (fun _ => 7) 1 0, fun _ _ => 0⟩ v with
  | error stop =>
      rw [hresult] at hstep
      exact absurd hstep (by simp [Except.isOk, Except.toBool])
  | ok v' =>
      refine ⟨fs, v, v', h, hformat, hrun, hn, hresult, ?_⟩
      refine write_confined _ _ fs v v' _ 0 h hformat hrun ?_ hresult rfl hn
      intro k h' hk hn'
      obtain rfl := Option.some.inj hk
      obtain rfl := Option.some.inj (hn.symm.trans hn')
      exact hremoved

instance (h : FileHeader) (j : Nat) (s : Int) : Decidable (IsData h j s) :=
  inferInstanceAs (Decidable (_ ∧ _))

instance (d : Directory) (i : Nat) : Decidable (IsFile d i) :=
  inferInstanceAs (Decidable (_ ∧ _))

/-- The first open file has been removed, and its only sector is that of a file in the
directory. -/
def SectorReused (v : Volume) : Prop :=
  (∃ h ∈ v.opened[0]?, h.removed = true ∧ h.file.hdr.numBytes = 1 ∧
    h.file.hdr.dataSectors 0 = 6) ∧
  (∃ d ∈ (v.fs.fetchDirectory fun _ => 0).toOption, IsFile d 0 ∧
    IsData (v.fs.disk (d.sector 0)) 0 6) ∧ v.fs.disk 6 0 = 0

instance (v : Volume) : Decidable (SectorReused v) :=
  inferInstanceAs (Decidable (_ ∧ _ ∧ _))

/-- The sectors of a removed file are given to the next one, and a write through the
removed file changes it. -/
theorem write_through_removed :
    ¬ ∀ (disk : Sectors) (fresh : Fresh) (fs : FileSystem) (v v' : Volume) (choice : FileChoice)
      (n : Nat) (h : Handle), FileSystem.format disk fresh = .ok fs →
      Reach Volume.step (fun _ _ => True) ⟨fs, []⟩ v → Volume.step choice v = .ok v' →
      Volume.writtenFile choice.call = some n → v.opened[n]? = some h → WriteConfined v v' h := by
  intro hall
  obtain ⟨fs, v, hformat, hrun, ⟨h, hn, hremoved, hbytes, hsector⟩,
    ⟨d, hfetch, hfile, hdata⟩, hbyte⟩ := exists_run
    (cleanCalls [.create (shortName 97) 1, .openFile (shortName 97),
      .remove (shortName 97), .create (shortName 98) 1])
    (P := SectorReused) (by decide +kernel)
  have hfirst : ∀ j : Nat, (j : Int) * 128 < h.file.hdr.numBytes → j = 0 := by
    intro j hj
    rw [hbytes] at hj
    omega
  have hvalid : h.file.hdr.Valid := by
    refine ⟨by rw [hbytes]; decide, fun j hj => ?_⟩
    rw [hfirst j hj, hsector]
    decide
  have hdistinct : h.file.hdr.Distinct := by
    intro j j' hj hj' _
    rw [hfirst j hj, hfirst j' hj']
  obtain ⟨r, disk', hwrite, -, hwritten⟩ := writeAt_whole hvalid hdistinct (n := 1) hbytes
    v.fs.disk (fun _ => 0) fun _ => 7
  have hstep : Volume.step ⟨.writeAt 0 (fun _ => 7) 1 0, fun _ _ => 0⟩ v =
      .ok { v with fs := { v.fs with disk := disk' } } := by
    have hhandle : v.handle 0 = .ok h := by
      unfold Volume.handle
      rw [hn]
    -- A call has words, where the lemma on the transfer has natural numbers.
    have hwrite' : h.file.writeAt v.fs.disk (fun _ => 0) (fun _ => 7) (1 : Word).toInt
        (0 : Word).toInt = .ok (r, disk') := by
      rw [show (1 : Word).toInt = ((1 : Nat) : Int) from by decide,
        show (0 : Word).toInt = 0 from by decide, hwrite]
    unfold Volume.step Volume.perform
    simp only [hhandle, bind, Except.bind, hwrite']
    rfl
  have hfetched : (v.fs.fetchDirectory fun _ => 0) = .ok d := by
    cases hresult : v.fs.fetchDirectory fun _ => 0 with
    | error stop =>
        rw [hresult] at hfetch
        exact absurd hfetch (by simp [Except.toOption])
    | ok d' =>
        rw [hresult] at hfetch
        rw [Option.some.inj hfetch]
  have hconfined := hall _ _ fs v _ _ 0 h hformat (hrun.mono fun _ _ _ => trivial) hstep rfl hn
  have hother : ¬ OwnRole d h (.data 0 0) := by
    rintro ⟨hopen, -⟩
    rw [hremoved] at hopen
    exact absurd hopen (by simp)
  have hsame := hconfined _ d hfetched (.data 0 0) 6 ⟨hfile, hdata⟩ hother
  have hseven := hwritten 0 (by decide)
  unfold FileHeader.fileByte at hseven
  rw [show (0 : Nat) / sectorSize = 0 from rfl, hsector] at hseven
  have hbyte' : disk' 6 0 = 0 := (congrFun hsame 0).trans hbyte
  rw [show (0 : Nat) % sectorSize = 0 from rfl, hbyte'] at hseven
  exact absurd hseven (by decide)

end Filesys
end Nachos
