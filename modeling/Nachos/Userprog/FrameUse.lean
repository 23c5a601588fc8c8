import Nachos.Userprog.PageTables
import Nachos.Userprog.StackAreas

/-!
# Which frames are in use

The frames that are marked in `memMap` are those of the page tables of all address
spaces that have ever been constructed, because nothing clears them again: neither
`Exit_Syscall`, when the last thread of a process leaves, nor `Exec_Syscall`, when
the process table is full, gives the frames back.  So they are the frames of the
processes with a live thread if and only if every address space still has one, and
this is kept by every run in which neither of the two happens.
-/

namespace Nachos
namespace Userprog

open Threads Lib

/-- The page frames of an address space. -/
def AddrSpace.frames (a : AddrSpace) : Set Nat := {p | ∃ e ∈ a.pageTable, e.physicalPage = p}

namespace System

/-- An address space has a live thread, or its first thread is on its way. -/
def Inhabited (m : System) (space : SpaceId) : Prop :=
  ∃ t, m.Live t ∧ m.kernel.client.space t = space ∨
    carried (m.kernel.stack t) = some (space, true)

/-- The marked frames are those of the processes that have a thread. -/
def FramesExact (m : System) : Prop :=
  ∀ p, m.memMap.test p = true ↔
    ∃ space a, m.addrSpace space = some a ∧ p ∈ a.frames ∧ m.Inhabited space

section Marked

variable {m m' w : System} {env : Environment} {input : Input} {frame : Frame UserFrame}
  {rest gs : List (Frame UserFrame)}

theorem frames_of_unused {a a' : AddrSpace} (h : a'.unused = a.unused) : a'.frames = a.frames := by
  have hhalf : ∀ {b b' : AddrSpace}, b'.unused = b.unused → b'.frames ⊆ b.frames := by
    rintro b b' hsame p ⟨e', he', hp⟩
    obtain ⟨i, hi⟩ := List.mem_iff_getElem?.mp he'
    obtain ⟨e, he, -, -, hphysical⟩ := entry_of_unused hsame hi
    exact ⟨e, List.mem_of_getElem? he, hphysical.trans hp⟩
  exact Set.Subset.antisymm (hhalf h) (hhalf h.symm)

theorem WellPlaced.frame_unique (h : WellPlaced m) {space space' : SpaceId} {a a' : AddrSpace}
    (ha : m.addrSpace space = some a) (ha' : m.addrSpace space' = some a') {p : Nat}
    (hp : p ∈ a.frames) (hp' : p ∈ a'.frames) : space = space' := by
  obtain ⟨e, he, hphysical⟩ := hp
  obtain ⟨e', he', hphysical'⟩ := hp'
  obtain ⟨i, hi⟩ := List.mem_iff_getElem?.mp he
  obtain ⟨i', hi'⟩ := List.mem_iff_getElem?.mp he'
  exact (h.once space space' a a' i i' e e' ha ha' hi hi'
    (hphysical.trans hphysical'.symm)).1

/-- The constructor puts every frame it takes in the page table. -/
theorem Loaded.frames {taken : List Nat} {memMap memMap' : BitMap} {mem mem' : Memory}
    {built : AddrSpace}
    (h : Loaded 0 taken ⟨memMap, mem, []⟩ ⟨memMap', mem', built.pageTable⟩) {p : Nat}
    (hp : p ∈ taken) : p ∈ built.frames := by
  have htable : built.pageTable = taken.mapIdx fun k p => pageEntry (0 + k) p := h.pageTable
  obtain ⟨i, hi⟩ := List.mem_iff_getElem?.mp hp
  refine ⟨pageEntry (0 + i) p, ?_, rfl⟩
  rw [htable]
  refine List.mem_of_getElem? (i := i) ?_
  rw [List.getElem?_mapIdx, hi]
  rfl

/-- Every marked frame is in a page table. -/
theorem StepAt.marked (hat : StepAt m m' w env input frame rest gs) (hhoused : Housed m)
    (h : ∀ p, m.memMap.test p = true → ∃ space a, m.addrSpace space = some a ∧ p ∈ a.frames)
    (p : Nat) (hp : m'.memMap.test p = true) :
    ∃ space a, m'.addrSpace space = some a ∧ p ∈ a.frames := by
  rcases hat.spaces with ⟨hsame, -⟩ | ⟨space', use, built, rfl, hload, haddr⟩
  · rw [hsame.memMap] at hp
    obtain ⟨space, a, ha, hin⟩ := h p hp
    have hunused := hsame.addrSpace space
    rw [ha, Option.map_some] at hunused
    obtain ⟨a', ha', hshape⟩ := Option.map_eq_some_iff.mp hunused
    exact ⟨space, a', ha', frames_of_unused hshape ▸ hin⟩
  · obtain ⟨taken, -, hloaded, -, -⟩ := AddrSpace.load_ok hload
    rcases (hloaded.test p).mp hp with hold | hnew
    · obtain ⟨space, a, ha, hin⟩ := h p hold
      have hunbuilt := (hhoused.carried m.current space' false (hat.carried_top rfl)).2
      have hne : space ≠ space' := by
        rintro rfl
        rw [ha] at hunbuilt
        simp at hunbuilt
      exact ⟨space, a, by rw [haddr, Function.update_of_ne hne, ha], hin⟩
    · exact ⟨space', built, by rw [haddr, Function.update_self], Loaded.frames hloaded hnew⟩

/-- Nothing is ever cleared in `memMap`. -/
theorem Reachable.marked_iff (h : m.Reachable) (p : Nat) :
    m.memMap.test p = true ↔ ∃ space a, m.addrSpace space = some a ∧ p ∈ a.frames := by
  constructor
  · obtain ⟨pid, hrun⟩ := h
    suffices hall : Housed m ∧ ∀ p, m.memMap.test p = true →
        ∃ space a, m.addrSpace space = some a ∧ p ∈ a.frames from hall.2 p
    refine hrun.stepAt_invariant (P := fun u => Housed u ∧ ∀ p, u.memMap.test p = true →
      ∃ space a, u.addrSpace space = some a ∧ p ∈ a.frames) (orderly_boot pid)
      ⟨housed_boot pid, fun p hp => ?_⟩ ?_
    · rw [show (boot pid).memMap.test p = false from BitMap.test_new _ _] at hp
      simp at hp
    · rintro u v w env input frame rest gs hu - - hat ⟨hhoused, hmarked⟩
      exact ⟨hhoused.step hu hat, hat.marked hhoused hmarked⟩
  · rintro ⟨space, a, ha, e, he, hp⟩
    obtain ⟨i, hi⟩ := List.mem_iff_getElem?.mp he
    have hmarked := (h.paged.entry space a i e ha hi).2.2.2.2
    rw [hp, Int.toNat_natCast] at hmarked
    exact hmarked

/-- Every address space has a frame. -/
theorem Reachable.frames_nonempty (h : m.Reachable) {space : SpaceId} {a : AddrSpace}
    (ha : m.addrSpace space = some a) : ∃ p, p ∈ a.frames := by
  have hlow := (h.furnished.sized space a ha).pages.1
  have hlength := h.paged.length space a ha
  have hlt : 0 < a.pageTable.length := by omega
  have hentry : a.pageTable[0]? = some a.pageTable[0] := List.getElem?_eq_getElem hlt
  have hnonneg := (h.paged.entry space a 0 _ ha hentry).2.2.1
  exact ⟨a.pageTable[0].physicalPage.toNat, a.pageTable[0], List.getElem_mem hlt,
    (Int.toNat_of_nonneg hnonneg).symm⟩

/-- The marked frames are exact as long as no address space is left alone. -/
theorem framesExact_iff (h : m.Reachable) :
    m.FramesExact ↔ ∀ space, (m.addrSpace space).isSome = true → m.Inhabited space := by
  constructor
  · intro hexact space hspace
    obtain ⟨a, ha⟩ := Option.isSome_iff_exists.mp hspace
    obtain ⟨p, hp⟩ := h.frames_nonempty ha
    obtain ⟨space', a', ha', hp', hin⟩ :=
      (hexact p).mp ((h.marked_iff p).mpr ⟨space, a, ha, hp⟩)
    obtain rfl : space = space' := h.paged.toWellPlaced.frame_unique ha ha' hp hp'
    exact hin
  · intro hall p
    rw [h.marked_iff p]
    constructor
    · rintro ⟨space, a, ha, hp⟩
      exact ⟨space, a, ha, hp, hall space (by rw [ha]; rfl)⟩
    · rintro ⟨space, a, ha, hp, -⟩
      exact ⟨space, a, ha, hp⟩

end Marked

/-- The thread in `Exit_Syscall` is the last live one of its address space. -/
def LastExits (m : System) : Prop :=
  m.kernel.top = some (.client .exitBody) ∧
    ∀ t, m.Live t → m.kernel.client.space t = m.currentSpace → t = m.current

/-- `Exec_Syscall` has constructed an address space and finds no entry for it in the
process table. -/
def ExecFails (m : System) : Prop :=
  ∃ space, m.kernel.top = some (.client (.processStore space (-1) .exec))

section Inhabited

variable {m m' w : System} {env : Environment} {input : Input} {frame : Frame UserFrame}
  {rest gs : List (Frame UserFrame)} {space : SpaceId}

/-- A live thread keeps its address space inhabited, unless it is the last one to
exit. -/
theorem Inhabited.live_step {t : ThreadId} (ht : m.Live t)
    (hspace : m.kernel.client.space t = space) (hat : StepAt m m' w env input frame rest gs)
    (hhoused : Housed m) (hbegun : Begun m) (hs : Orderly m.kernel)
    (hlast : ¬ m.LastExits) : m'.Inhabited space := by
  by_cases hexit : t = m.current ∧ frame = .client .exitBody
  · obtain ⟨rfl, rfl⟩ := hexit
    -- another thread of the space is live
    have hother : ∃ t', m.Live t' ∧ m.kernel.client.space t' = m.currentSpace ∧
        t' ≠ m.current := by
      by_contra hnone
      refine hlast ⟨hat.kernel.top, fun t' ht' hspace' => ?_⟩
      by_contra hne
      exact hnone ⟨t', ht', hspace', hne⟩
    obtain ⟨t', ht', hspace', hne⟩ := hother
    refine ⟨t', Or.inl ⟨ht'.step hat hhoused hbegun hs fun hcur => absurd hcur hne, ?_⟩⟩
    rw [hat.tenant_kept hhoused hbegun hs ht'.1, hspace']
    exact hspace
  · refine ⟨t, Or.inl ⟨ht.step hat hhoused hbegun hs fun hcur hframe => hexit ⟨hcur, hframe⟩, ?_⟩⟩
    rw [hat.tenant_kept hhoused hbegun hs ht.1]
    exact hspace

/-- `Exec_Syscall` gives a new address space its first thread. -/
theorem StepAt.exec_inhabits {processID : Int}
    (hat : StepAt m m' w env input (.client (.execFork space processID)) rest gs)
    (hhoused : Housed m) (hs : Orderly m.kernel) : m'.Inhabited space := by
  cases hat.tenancy hs with
  | same _ _ _ _ hgs =>
      rcases stepAt_cases hat.kernel with ⟨k, rs, hk, hexec, rfl⟩ | ⟨hclient, -⟩
      · obtain rfl := Frame.client.inj hk
        have hasks : rs = [.call (.threadFork .newProcess), .client (.sysReturn processID)] :=
          userExec_asks hexec
        exact absurd (by simp [hasks, Request.frame]) (hgs .newProcess)
      · exact absurd rfl (hclient _)
  | @forks _ space' body later hframe hhas hspace _ =>
      obtain rfl : space = space' := by simpa using hframe
      refine ⟨m.kernel.threadCount, Or.inl ⟨live_unborn hhoused hs hat ?_, ?_⟩⟩
      · rw [hhas, Function.update_self]
      · rw [hspace, Function.update_self]

/-- What becomes of a constructed address space that waits for its first thread. -/
theorem Inhabited.carried_step {t : ThreadId}
    (ht : Userprog.carried (m.kernel.stack t) = some (space, true))
    (hat : StepAt m m' w env input frame rest gs) (hhoused : Housed m) (hbegun : Begun m)
    (hs : Orderly m.kernel) (hlast : ¬ m.LastExits) (hfails : ¬ m.ExecFails) :
    m'.Inhabited space := by
  by_cases hcur : t = m.current
  · subst hcur
    rcases hhoused.staged.core_cases hs hat.kernel with ⟨-, hsame⟩ | ⟨hinner, hcore, -⟩
    · exact ⟨m.current, Or.inr ((carried_of_core hsame).trans ht)⟩
    · rcases stepAt_cases hat.kernel with ⟨k, rs, rfl, hexec, rfl⟩ | ⟨hclient, -⟩
      · have hasks : k.Asks m.kernel.pop rs := userExec_asks hexec
        rw [hat.carried_top hinner] at ht
        have hstack : m'.kernel.stack m.current = rs.map Request.frame ++ rest :=
          hat.kernel.stack_self
        cases k with
        | processFind space' use =>
            obtain ⟨rfl, -⟩ := Prod.mk.inj (Option.some.inj ht)
            obtain rfl := hasks
            exact ⟨m.current, Or.inr (by rw [hstack]; rfl)⟩
        | processStore space' i use =>
            obtain ⟨rfl, -⟩ := Prod.mk.inj (Option.some.inj ht)
            rcases hasks with ⟨rfl, -⟩ | ⟨rfl, rfl, -⟩ | ⟨rfl, -, rfl⟩
            · -- `StartProcess` has given the space to its own thread
              obtain ⟨hhas, hspace⟩ := hhoused.settled _ _ rest space' hcore rfl
              have hfin : ¬ m.kernel.Finished m.current :=
                hs.wellFormed.not_finished hat.kernel.top rfl
              exact Inhabited.live_step ⟨hhas, hfin, not_leaving_client hcore⟩ hspace hat hhoused
                hbegun hs hlast
            · exact absurd ⟨space', hat.kernel.top⟩ hfails
            · exact ⟨m.current, Or.inr (by rw [hstack]; rfl)⟩
        | execFork space' processID =>
            obtain ⟨rfl, -⟩ := Prod.mk.inj (Option.some.inj ht)
            exact hat.exec_inhabits hhoused hs
        | _ => simp [UserFrame.carries] at ht
      · -- the core begins with a program point
        rw [Userprog.carried, show core (m.kernel.stack m.current) = _ from hcore] at ht
        cases frame with
        | client k => exact absurd rfl (hclient k)
        | _ => simp at ht
  · rcases hat.kernel.stack_other t hcur with hsame | ⟨body, rfl, hnew, -⟩
    · exact ⟨t, Or.inr (by rw [hsame]; exact ht)⟩
    · rw [hs.wellFormed.unborn t (Nat.le_of_eq hnew.symm)] at ht
      simp [Userprog.carried, core] at ht

/-- Every address space has a live thread or gets one. -/
theorem StepAt.inhabited (hat : StepAt m m' w env input frame rest gs) (hhoused : Housed m)
    (hbegun : Begun m) (hs : Orderly m.kernel) (hlast : ¬ m.LastExits) (hfails : ¬ m.ExecFails)
    (h : ∀ space, (m.addrSpace space).isSome = true → m.Inhabited space) (space : SpaceId)
    (hspace : (m'.addrSpace space).isSome = true) : m'.Inhabited space := by
  have hold : (m.addrSpace space).isSome = true → m'.Inhabited space := by
    intro hbefore
    obtain ⟨t, ⟨hlive, hin⟩ | hcarried⟩ := h space hbefore
    · exact Inhabited.live_step hlive hin hat hhoused hbegun hs hlast
    · exact Inhabited.carried_step hcarried hat hhoused hbegun hs hlast hfails
  rcases hat.spaces with ⟨hsame, -⟩ | ⟨space', use, built, rfl, -, haddr⟩
  · exact hold (hsame.isSome space ▸ hspace)
  · by_cases hne : space = space'
    · subst hne
      have hnext : Userprog.carried (m'.kernel.stack m.kernel.currentThread) =
          some (space, true) := by
        rcases stepAt_cases hat.kernel with ⟨k, rs, hk, hexec, rfl⟩ | ⟨hclient, -⟩
        · obtain rfl := Frame.client.inj hk
          have houtcome := hat.effect.outcome
          rw [hat.kernel.stack_self]
          simp only [userExec, spaceDone, houtcome, Except.ok.injEq, Prod.mk.injEq] at hexec
          rw [← hexec.2]
          rfl
        · exact absurd rfl (hclient _)
      exact ⟨_, Or.inr hnext⟩
    · rw [haddr, Function.update_of_ne hne] at hspace
      exact hold hspace

/-- The marked frames, state by state and over a run: they are those of the processes
with a thread if and only if every address space has one, and this holds in every
state of a run in which no last thread exits and no `Exec_Syscall` finds the process
table full. -/
theorem frames_exact (hreach : m.Reachable) :
    (m.FramesExact ↔ ∀ space, (m.addrSpace space).isSome = true → m.Inhabited space) ∧
    ((∃ pid, Run (fun u _ => ¬ u.LastExits ∧ ¬ u.ExecFails) (boot pid) m) → m.FramesExact) := by
  refine ⟨framesExact_iff hreach, ?_⟩
  rintro ⟨pid, hrun⟩
  rw [framesExact_iff hreach]
  suffices hall : (Housed m ∧ Begun m) ∧ ∀ space, (m.addrSpace space).isSome = true →
      m.Inhabited space from hall.2
  refine hrun.stepAt_invariant (P := fun u => (Housed u ∧ Begun u) ∧ ∀ space,
    (u.addrSpace space).isSome = true → u.Inhabited space) (orderly_boot pid)
    ⟨⟨housed_boot pid, begun_boot pid⟩, fun _ h => absurd h (by simp [boot])⟩ ?_
  rintro u v w env input frame rest gs hu - ⟨hlast, hfails⟩ hat ⟨⟨hhoused, hbegun⟩, hall⟩
  exact ⟨⟨hhoused.step hu hat, hbegun.step hhoused hu hat⟩,
    hat.inhabited hhoused hbegun hu hlast hfails hall⟩

/-- A step at which frames should be given back. -/
def givesBack : Option (Frame UserFrame) → Bool
  | some (.client .exitBody) => true
  | some (.client (.processStore _ i .exec)) => decide (i = -1)
  | _ => false

theorem not_givesBack (h : givesBack m.kernel.top = false) : ¬ m.LastExits ∧ ¬ m.ExecFails := by
  constructor
  · rintro ⟨htop, -⟩
    simp [htop, givesBack] at h
  · rintro ⟨space, htop⟩
    simp [htop, givesBack] at h

/-- `StartProcess` has constructed an address space, and its thread is live. -/
theorem frames_exact_startProcess :
    ∃ m : System, m.Reachable ∧ (m.addrSpace 0).isSome = true ∧ m.FramesExact := by
  obtain ⟨m, hrun, hspace⟩ := exists_run (P := fun m => (m.addrSpace 0).isSome = true)
    (fun u _ => !givesBack u.kernel.top) (fun _ => 0)
    (List.replicate 19 (undisturbed (program [0] 0))) (by decide +kernel)
  have hkept : Run (fun u _ => ¬ u.LastExits ∧ ¬ u.ExecFails) (boot fun _ => 0) m :=
    hrun.mono fun u _ h => not_givesBack (by simpa using h)
  have hreach : m.Reachable := ⟨_, hkept.mono fun _ _ _ => trivial⟩
  exact ⟨m, hreach, hspace, (frames_exact hreach).2 ⟨_, hkept⟩⟩

/-- A program calls `Exec`, and the new process exits: its frames stay marked. -/
theorem frames_leak_exec :
    ¬ ∀ m : System, m.Reachable → m.FramesExact := by
  intro hclaim
  obtain ⟨m, hreach, hspace, hcount, htop, hfirst, hfin, hidle, hidle'⟩ := exists_reachable
    (P := fun m => (m.addrSpace 1).isSome = true ∧ m.kernel.threadCount = 2 ∧
      m.kernel.top = some .sleep ∧ m.kernel.client.space 0 = 0 ∧ m.kernel.Finished 1 ∧
      carried (m.kernel.stack 0) = none ∧ carried (m.kernel.stack 1) = none) (fun _ => 0)
    -- `Exec` and `Yield` in the one program, `Exit` in the other
    (List.replicate 30 (undisturbed (program [0x24020002, 0xc, 0x2402000a, 0xc] 0)) ++
      List.replicate 46 (undisturbed (program [0x24020001, 0xc] 0))) (by decide +kernel)
  have hboth : ∀ n : Nat, n < 2 → n = 0 ∨ n = 1 := by omega
  obtain ⟨t, ⟨hlive, hin⟩ | hcarried⟩ :=
    (framesExact_iff hreach).mp (hclaim m hreach) 1 hspace
  · rcases hreach.housed.born t hlive.1 with hlt | ⟨-, body, hfork⟩
    · rw [hcount] at hlt
      obtain rfl | rfl := hboth t hlt
      · rw [hfirst] at hin
        simp at hin
      · exact hlive.2.1 hfin
    · rw [htop] at hfork
      simp at hfork
  · have hlt : t < m.kernel.threadCount := by
      by_contra hunborn
      rw [hreach.orderly.wellFormed.unborn t (Nat.le_of_not_lt hunborn)] at hcarried
      simp [carried, core] at hcarried
    rw [hcount] at hlt
    obtain rfl | rfl := hboth t hlt
    · simp [hidle] at hcarried
    · simp [hidle'] at hcarried

end Inhabited

end System

end Userprog
end Nachos
