import Nachos.Userprog.PageTables

/-!
# Registers and page tables across context switches

`Scheduler::Run` saves the registers of the old thread and restores those of the
thread it goes back to; a thread that runs for the first time gets its registers
from `InitRegisters` or `kernelRun` instead.  `Switched` is what holds between
two steps: the saved registers are settled, the machine's own registers are
settled unless an instruction has just been run, and the machine has the page
table of the thread that runs.

`Owes` says which registers a thread will have at its next instruction, as far
as its stack tells.  No step of another thread changes it, and no step of its own
but an instruction.
-/

namespace Nachos
namespace Userprog

open Threads Lib

/-- A thread is about to run an instruction, or has run one and the tick behind it
is due: a load may be on its way. -/
def AtInstruction (stack : List (Frame UserFrame)) : Prop :=
  (∃ rest, stack = .client .oneInstruction :: rest) ∨
    ∃ rest, stack = .oneTick :: .client .oneInstruction :: rest

/-- The cores of threads whose program has been started. -/
def Running (c : List (Frame UserFrame)) : Prop :=
  c = userCore ∨ (∃ k, c = .client k :: userLoop) ∨ c = .call .threadFinish :: userLoop

theorem Running.resident {c : List (Frame UserFrame)} (h : Running c) : System.Resident c := by
  rcases h with h | h | h
  · exact Or.inl h
  · exact Or.inr (Or.inl h)
  · exact Or.inr (Or.inr (Or.inl h))

theorem settled_zero : Settled fun _ => 0 := ⟨rfl, rfl, rfl⟩

theorem returnRegisters_settled {registers : Registers} (h : Settled registers) (rv : Int) :
    Settled (returnRegisters rv registers) := by
  have hresult := h.update (r := 2) (by decide) (by decide) (by decide) (BitVec.ofInt 32 rv)
  have hprevious := hresult.update (r := prevPCReg) (by decide) (by decide) (by decide)
  exact ((hprevious _).update (r := pcReg) (by decide) (by decide) (by decide) _).update
    (r := nextPCReg) (by decide) (by decide) (by decide) _

theorem kernelRunRegisters_settled {registers : Registers} (h : Settled registers)
    (vaddr : Word) (numPages : Nat) : Settled (kernelRunRegisters vaddr numPages registers) := by
  have hpc := h.update (r := pcReg) (by decide) (by decide) (by decide) vaddr
  have hnext := hpc.update (r := nextPCReg) (by decide) (by decide) (by decide) (vaddr + 4)
  exact hnext.update (r := stackReg) (by decide) (by decide) (by decide) _

theorem AddrSpace.initRegisters_settled (a : AddrSpace) : Settled a.initRegisters := by
  have hpc := settled_zero.update (r := pcReg) (by decide) (by decide) (by decide) 0
  have hnext := hpc.update (r := nextPCReg) (by decide) (by decide) (by decide) 4
  exact hnext.update (r := stackReg) (by decide) (by decide) (by decide) _

namespace System

section Scheduling

variable {m m' w : System} {env : Environment} {input : Input} {frame : Frame UserFrame}
  {rest gs : List (Frame UserFrame)}

/-- What `Scheduler::Run` does to the machine around `SWITCH`. -/
inductive Scheduled (m : System) (frame : Frame UserFrame) : System → Prop
  | restored (hframe : frame = .afterSwitch) (hspace : m.hasSpace m.current = true) :
      Scheduled m frame
        ((m.setRegisters (m.userRegisters m.current)).restoreState m.currentSpace)
  | saved (hframe : frame = .call .threadYield ∨ frame = .sleepLoop)
      (hready : m.kernel.readyList ≠ []) (hspace : m.hasSpace m.current = true) :
      Scheduled m frame
        { m with userRegisters := Function.update m.userRegisters m.current m.cpu.registers }
  | same (hrestore : frame = .afterSwitch → m.hasSpace m.current = false)
      (hsave : frame = .call .threadYield ∨ frame = .sleepLoop → m.kernel.readyList ≠ [] →
        m.hasSpace m.current = false) : Scheduled m frame m

theorem scheduled (m : System) (frame : Frame UserFrame) :
    Scheduled m frame (m.schedule frame) := by
  -- the two places that save
  have hsave : ∀ frame : Frame UserFrame, frame = .call .threadYield ∨ frame = .sleepLoop →
      Scheduled m frame (if m.kernel.readyList = [] then m else schedule.save m) := by
    intro frame hframe
    have hne : frame ≠ .afterSwitch := by
      rcases hframe with rfl | rfl <;> simp
    split
    · rename_i hready
      exact .same (fun h => absurd h hne) fun _ h => absurd hready h
    · rename_i hready
      unfold schedule.save
      split
      · rename_i hspace
        exact .saved hframe hready hspace
      · rename_i hspace
        exact .same (fun h => absurd h hne) fun _ _ => by simpa using hspace
  cases frame with
  | afterSwitch =>
      simp only [schedule]
      split
      · rename_i hspace
        exact .restored rfl hspace
      · rename_i hspace
        exact .same (fun _ => by simpa using hspace) (by simp)
  | sleepLoop => exact hsave _ (Or.inr rfl)
  | call op =>
      cases op with
      | threadYield => exact hsave _ (Or.inl rfl)
      | _ => exact .same (by simp) (by simp)
  | _ => exact .same (by simp) (by simp)

/-- Everything but an instruction leaves settled registers settled. -/
theorem Effect.settled (h : Effect m env frame w input)
    (hframe : frame ≠ .client .oneInstruction) (hm : Settled m.cpu.registers) :
    Settled w.cpu.registers := by
  have hcopy : ∀ {machine : Machine} {pointerOk : Bool},
      Copied m.machine machine pointerOk → Settled machine.registers := by
    intro machine pointerOk hcopied
    cases pointerOk with
    | true =>
        rw [hcopied.registers rfl]
        exact hm
    | false => exact hcopied.settled rfl
  cases h with
  | instruction hended => exact absurd rfl hframe
  | entered harguments hfound hcopied hbad => exact hcopy hcopied
  | returned rv => exact returnRegisters_settled hm rv
  | printed hcopied => exact hcopy hcopied
  | @flushed frame registers hframe hflushed =>
      have hsame : registers = m.cpu.registers := hflushed.same (Or.inl hm)
      show Settled registers
      rw [hsame]
      exact hm
  | started hframe =>
      unfold startProgram
      split
      · rename_i loaded hloaded
        exact loaded.initRegisters_settled
      · exact hm
  | ranForked => exact kernelRunRegisters_settled hm _ _
  | _ => exact hm

/-- The code at a program point leaves saved registers alone. -/
theorem Effect.userRegisters (h : Effect m env frame w input) :
    w.userRegisters = m.userRegisters := by
  cases h with
  | started hframe =>
      unfold startProgram
      split
      · rfl
      · rfl
  | _ => rfl

end Scheduling

/-- What holds of the registers and of the page table between two steps. -/
structure Switched (m : System) : Prop where
  switching : m.kernel.Switching fun body => body.isEntry = true
  saved : ∀ t, Settled (m.userRegisters t)
  cpu : ¬ AtInstruction (m.kernel.stack m.current) → Settled m.cpu.registers
  loads : m.machine.LoadBounded
  mapped : m.kernel.top ≠ some .afterSwitch → Running (core (m.kernel.stack m.current)) →
    m.cpu.pageTable = some m.currentSpace ∧ m.cpu.pageTableSize = m.numPages m.currentSpace

section Switching

variable {m m' w : System} {env : Environment} {input : Input} {frame : Frame UserFrame}
  {rest gs : List (Frame UserFrame)}

/-- The registers are settled, but for the code that runs an instruction and the
tick behind it. -/
theorem Switched.settled (h : Switched m) (hat : StepAt m m' w env input frame rest gs)
    (hframe : frame ≠ .client .oneInstruction) (htick : frame ≠ .oneTick) :
    Settled m.cpu.registers := by
  refine h.cpu ?_
  rintro (⟨later, hstack⟩ | ⟨later, hstack⟩)
  · exact hframe (List.cons.inj (hat.kernel.stack.symm.trans hstack)).1
  · exact htick (List.cons.inj (hat.kernel.stack.symm.trans hstack)).1

theorem Switched.scheduled_settled (h : Switched m) (hm : Settled m.cpu.registers) :
    Settled (m.schedule frame).cpu.registers := by
  have hscheduled := scheduled m frame
  generalize m.schedule frame = u at hscheduled ⊢
  cases hscheduled with
  | restored hswitch hspace => exact h.saved m.current
  | saved hswitch hready hspace => exact hm
  | same hrestore hsave => exact hm

/-- What becomes of the registers in a step. -/
theorem Switched.registers_cases (h : Switched m)
    (hat : StepAt m m' w env input frame rest gs) :
    Settled m'.cpu.registers ∨
      (m'.cpu.registers = m.cpu.registers ∧ frame = .oneTick ∧ gs = []) ∨
      ∃ machine, Ended m.machine machine .instruction ∧
        m'.cpu.registers = machine.registers ∧ frame = .client .oneInstruction ∧
        input.event = .instruction := by
  have hcpu : m'.cpu = w.cpu := by rw [hat.after]
  rw [hcpu]
  have heffect := hat.effect
  by_cases hframe : frame = .client .oneInstruction
  · subst hframe
    cases heffect with
    | quiet hquiet => exact hquiet.elim
    | @instruction machine event hended =>
        by_cases hevent : event = .instruction
        · subst hevent
          exact Or.inr (Or.inr ⟨machine, hended, rfl, rfl, rfl⟩)
        · exact Or.inl (hended.settled hevent)
    | flushed habs _ => simp at habs
    | started habs => simp at habs
  · by_cases htick : frame = .oneTick
    · subst htick
      cases heffect with
      | quiet hquiet => exact hquiet.elim
      | flushed _ hflushed =>
          by_cases hnone : env.interrupts = []
          · refine Or.inr (Or.inl ⟨hflushed.same (Or.inr hnone), rfl, ?_⟩)
            exact hat.kernel.quietTick h.switching.noYield hnone
          · exact Or.inl (hflushed.settled hnone)
      | started habs => simp at habs
    · have hm := h.settled hat hframe htick
      exact Or.inl (heffect.settled hframe (h.scheduled_settled hm))

theorem Switched.cpu_step (h : Switched m) (hat : StepAt m m' w env input frame rest gs)
    (hat' : ¬ AtInstruction (m'.kernel.stack m'.current)) : Settled m'.cpu.registers := by
  rcases h.registers_cases hat with hsettled | ⟨hsame, rfl, rfl⟩ | ⟨-, -, -, rfl, hevent⟩
  · exact hsettled
  · have hcurrent : m'.kernel.currentThread = m.kernel.currentThread := by
      rcases hat.kernel.currentThread with hsame | ⟨_, _, -, -, ⟨habs, -⟩ | ⟨habs, -⟩⟩
      · exact hsame
      · simp at habs
      · simp at habs
    rw [current, hcurrent, hat.kernel.stack_self, List.nil_append] at hat'
    rw [hsame]
    refine h.cpu ?_
    -- an instruction stays below its tick
    rintro (⟨later, hstack⟩ | ⟨later, hstack⟩)
    · exact absurd (hat.kernel.stack.symm.trans hstack) (by simp)
    · exact hat' (Or.inl ⟨later, (List.cons.inj (hat.kernel.stack.symm.trans hstack)).2⟩)
  · refine absurd ?_ hat'
    rcases stepAt_cases hat.kernel with ⟨k, rs, hk, hexec, rfl⟩ | ⟨hclient, -⟩
    · obtain rfl := Frame.client.inj hk
      simp only [userExec, oneInstruction, hevent, Except.ok.injEq, Prod.mk.injEq] at hexec
      obtain ⟨-, rfl⟩ := hexec
      rw [current, hat.client_current, hat.kernel.stack_self]
      exact Or.inr ⟨rest, rfl⟩
    · exact absurd rfl (hclient _)

theorem Switched.loads_step (h : Switched m) (hat : StepAt m m' w env input frame rest gs) :
    m'.machine.LoadBounded := by
  rcases h.registers_cases hat with hsettled | ⟨hsame, -, -⟩ | ⟨machine, hended, hsame, -, -⟩
  · exact hsettled.loadBounded
  · have hloads : (m.cpu.registers loadReg).toNat < numTotalRegs := h.loads
    show (m'.cpu.registers loadReg).toNat < numTotalRegs
    rw [hsame]
    exact hloads
  · show (m'.cpu.registers loadReg).toNat < numTotalRegs
    rw [hsame]
    exact hended.loadBounded h.loads

theorem Switched.saved_step (h : Switched m) (hat : StepAt m m' w env input frame rest gs)
    (t : ThreadId) : Settled (m'.userRegisters t) := by
  have hsame : m'.userRegisters = (m.schedule frame).userRegisters := by
    rw [hat.after]
    exact hat.effect.userRegisters
  rw [hsame]
  have hscheduled := scheduled m frame
  generalize m.schedule frame = u at hscheduled ⊢
  cases hscheduled with
  | restored hswitch hspace => exact h.saved t
  | same hrestore hsave => exact h.saved t
  | saved hswitch hready hspace =>
      show Settled (Function.update m.userRegisters m.current m.cpu.registers t)
      by_cases ht : t = m.current
      · rw [ht, Function.update_self]
        rcases hswitch with rfl | rfl
        · exact h.settled hat (by simp) (by simp)
        · exact h.settled hat (by simp) (by simp)
      · rw [Function.update_of_ne ht]
        exact h.saved t

/-- An address space keeps its size. -/
theorem Housed.numPages_step (h : Housed m) (hat : StepAt m m' w env input frame rest gs)
    {space : SpaceId} (hspace : (m.addrSpace space).isSome = true) :
    m'.numPages space = m.numPages space := by
  unfold numPages
  rcases hat.spaces with ⟨hsame, -⟩ | ⟨space', use, built, rfl, -, haddr⟩
  · have hpages := congrArg (Option.map AddrSpace.numPages) (hsame.addrSpace space)
    simp only [Option.map_map] at hpages
    exact congrArg (Option.getD · 0) hpages
  · have hunbuilt := (h.carried m.current space' false (hat.carried_top rfl)).2
    have hne : space ≠ space' := by
      rintro rfl
      exact absurd (hspace.symm.trans hunbuilt) (by simp)
    rw [haddr, Function.update_of_ne hne]

/-- A thread that has been born keeps its address space, but for `StartProcess`. -/
theorem StepAt.space_kept (hat : StepAt m m' w env input frame rest gs) (hs : Orderly m.kernel)
    {t : ThreadId} (hborn : t < m.kernel.threadCount)
    (hframe : ∀ space, frame = .client (.spaceDone space .startProcess) → t ≠ m.current) :
    m'.kernel.client.space t = m.kernel.client.space t := by
  have htenancy := hat.tenancy hs
  cases htenancy with
  | same _ hspace _ _ _ => rw [hspace]
  | moves space _ hspace _ _ => rw [hspace, Function.update_of_ne (hframe space rfl)]
  | forks _ _ _ _ hspace _ => rw [hspace, Function.update_of_ne (Nat.ne_of_lt hborn)]

/-- What becomes of the page table the machine has, but for the start of a
program. -/
theorem Effect.pageTable (h : Effect m env frame w input)
    (hentry : ∀ k : UserFrame, k.isEntry = true → frame ≠ .client k)
    (hstart : ∀ space i, frame ≠ .client (.processStore space i .startProcess)) :
    (w.cpu.pageTable = m.cpu.pageTable ∧ w.cpu.pageTableSize = m.cpu.pageTableSize) ∨
      (w.cpu.pageTable = some m.currentSpace ∧
        w.cpu.pageTableSize = m.numPages m.currentSpace) := by
  cases h with
  | started hframe =>
      rcases hframe with ⟨i, rfl⟩ | ⟨rfl, -⟩
      · exact absurd rfl (hstart _ i)
      · exact absurd rfl (hentry .newProcess rfl)
  | ranForked => exact absurd rfl (hentry .kernelRun rfl)
  | released hend => exact Or.inr ⟨rfl, rfl⟩
  | _ => exact Or.inl ⟨rfl, rfl⟩

/-- The start of a program gives the machine its page table. -/
theorem Effect.pageTable_start (h : Effect m env frame w input)
    (hspace : (m.addrSpace m.currentSpace).isSome = true)
    (hframe : (∃ k : UserFrame, k.isEntry = true ∧ frame = .client k) ∨
      ∃ i, frame = .client (.processStore m.currentSpace i .startProcess)) :
    w.cpu.pageTable = some m.currentSpace ∧
      w.cpu.pageTableSize = m.numPages m.currentSpace := by
  obtain ⟨loaded, hloaded⟩ := Option.isSome_iff_exists.mp hspace
  rcases hframe with ⟨k, hk, rfl⟩ | ⟨i, rfl⟩
  · cases k with
    | newProcess =>
        cases h with
        | quiet hquiet => exact hquiet.elim
        | flushed habs _ => simp at habs
        | started hwhich =>
            rcases hwhich with ⟨i, habs⟩ | ⟨-, rfl⟩
            · simp at habs
            · simp only [startProgram, hloaded]
              exact ⟨rfl, rfl⟩
    | kernelRun =>
        cases h with
        | quiet hquiet => exact hquiet.elim
        | flushed habs _ => simp at habs
        | started habs => simp at habs
        | ranForked => exact ⟨rfl, rfl⟩
    | _ => simp [UserFrame.isEntry] at hk
  · cases h with
    | quiet hquiet => exact hquiet.elim
    | flushed habs _ => simp at habs
    | started hwhich =>
        rcases hwhich with ⟨i, hsame⟩ | ⟨habs, -⟩
        · obtain ⟨rfl, -⟩ := UserFrame.processStore.inj (Frame.client.inj hsame)
          simp only [startProgram, hloaded]
          exact ⟨rfl, rfl⟩
        · simp at habs

/-- A thread that gets the processor stands behind `SWITCH` or has not started. -/
theorem Switched.dispatched (h : Switched m) (hat : StepAt m m' w env input frame rest gs)
    (hcurrent : m'.current ≠ m.current) (htop : m'.kernel.top ≠ some .afterSwitch) :
    ¬ Running (core (m'.kernel.stack m'.current)) := by
  have hfork : ∀ body, frame ≠ .call (.threadFork body) := by
    rintro body rfl
    rcases hat.kernel.currentThread with hsame | ⟨_, _, -, -, ⟨habs, -⟩ | ⟨habs, -⟩⟩
    · exact hcurrent hsame
    · simp at habs
    · simp at habs
  have hstack : m'.kernel.stack m'.current = m.kernel.stack m'.current := by
    rcases hat.kernel.stack_other m'.current hcurrent with hsame | ⟨body, habs, -⟩
    · exact hsame
    · exact absurd habs (hfork body)
  rw [hstack]
  rcases h.switching.suspended m'.current hcurrent with
    ⟨later, hlater⟩ | ⟨body, hbody, hroot⟩ | hempty
  · refine absurd ?_ htop
    rw [Kernel.top, show m'.kernel.currentThread = m'.current from rfl, hstack, hlater]
    rfl
  · rw [hroot, core_root hbody]
    rintro (heq | ⟨k, heq⟩ | heq)
    · obtain rfl : body = .oneInstruction := by simpa [userCore] using heq
      simp [UserFrame.isEntry] at hbody
    · simp [userLoop] at heq
    · simp at heq
  · rw [hempty]
    exact fun hrunning => not_resident_nil hrunning.resident

theorem Switched.mapped_step (h : Switched m) (hhoused : Housed m) (hs : Orderly m.kernel)
    (hat : StepAt m m' w env input frame rest gs) (htop : m'.kernel.top ≠ some .afterSwitch)
    (hrunning : Running (core (m'.kernel.stack m'.current))) :
    m'.cpu.pageTable = some m'.currentSpace ∧
      m'.cpu.pageTableSize = m'.numPages m'.currentSpace := by
  by_cases hcurrent : m'.current = m.current
  swap
  · exact absurd hrunning (h.dispatched hat hcurrent htop)
  rw [hcurrent] at hrunning
  -- the thread has had its address space before
  have hbefore := hhoused.resident_before hs hat hrunning.resident
  have hhas : m.hasSpace m.current = true := by
    rcases hbefore with hresident | ⟨space, i, rfl⟩
    · exact hhoused.resident _ hresident
    · exact (hhoused.settled _ _ rest space (hat.core_outer rfl) rfl).1
  have hspace : m'.currentSpace = m.currentSpace := by
    show m'.kernel.client.space m'.current = _
    rw [hcurrent]
    refine hat.space_kept hs hs.wellFormed.current_lt ?_
    rintro space rfl
    have hstage := hhoused.staged.stage m.current
    rcases hbefore with hresident | ⟨space', i, habs⟩
    · rw [hat.core_outer rfl] at hresident hstage
      rw [hstage.below_boot rfl] at hresident
      exact absurd hresident (not_resident_boot rfl)
    · simp at habs
  have hsome := (hhoused.housed _ hhas).2
  have hpages : m'.numPages m'.currentSpace = m.numPages m.currentSpace := by
    rw [hspace]
    exact hhoused.numPages_step hat hsome
  have hcpu : m'.cpu = w.cpu := by rw [hat.after]
  rw [hpages, hspace, hcpu]
  have heffect := hat.effect
  by_cases hswitch : frame = .afterSwitch
  · subst hswitch
    have hrestored : m.schedule .afterSwitch =
        (m.setRegisters (m.userRegisters m.current)).restoreState m.currentSpace := by
      simp only [schedule, hhas, if_true]
    rw [hrestored] at heffect
    cases heffect with
    | quiet hquiet => exact ⟨rfl, rfl⟩
    | flushed habs _ => simp at habs
    | started habs => simp at habs
  · by_cases hstart : (∃ k : UserFrame, k.isEntry = true ∧ frame = .client k) ∨
        ∃ i, frame = .client (.processStore m.currentSpace i .startProcess)
    · have hsame : m.schedule frame = m := by
        rcases hstart with ⟨k, -, rfl⟩ | ⟨i, rfl⟩
        · rfl
        · rfl
      rw [hsame] at heffect
      exact heffect.pageTable_start hsome hstart
    · have hentry : ∀ k : UserFrame, k.isEntry = true → frame ≠ .client k :=
        fun k hk hframe => hstart (Or.inl ⟨k, hk, hframe⟩)
      have hstore : ∀ space i, frame ≠ .client (.processStore space i .startProcess) := by
        rintro space i rfl
        obtain ⟨-, rfl⟩ := hhoused.settled _ _ rest space (hat.core_outer rfl) rfl
        exact hstart (Or.inr ⟨i, rfl⟩)
      have hrunning₀ : Running (core (m.kernel.stack m.current)) := by
        rcases hhoused.staged.core_cases hs hat.kernel with ⟨-, hsame⟩ | ⟨-, hcore, -⟩
        · rw [current] at hrunning ⊢
          exact hsame ▸ hrunning
        · rcases hbefore with (heq | heq | heq | ⟨k, hk, heq⟩) | ⟨space, i, habs⟩
          · exact Or.inl heq
          · exact Or.inr (Or.inl heq)
          · exact Or.inr (Or.inr heq)
          · exact absurd (List.cons.inj (hcore.symm.trans heq)).1 (hentry k hk)
          · exact absurd habs (hstore space i)
      have htop₀ : m.kernel.top ≠ some .afterSwitch := by
        rw [hat.kernel.top]
        simpa using hswitch
      have hmapped := h.mapped htop₀ hrunning₀
      have hscheduled := scheduled m frame
      generalize m.schedule frame = u at hscheduled heffect
      cases hscheduled with
      | restored habs _ => exact absurd habs hswitch
      | saved _ _ _ =>
          rcases heffect.pageTable hentry hstore with ⟨htable, hsize⟩ | hset
          · exact ⟨htable.trans hmapped.1, hsize.trans hmapped.2⟩
          · exact hset
      | same _ _ =>
          rcases heffect.pageTable hentry hstore with ⟨htable, hsize⟩ | hset
          · exact ⟨htable.trans hmapped.1, hsize.trans hmapped.2⟩
          · exact hset

theorem Switched.step (h : Switched m) (hhoused : Housed m) (hs : Orderly m.kernel)
    (hat : StepAt m m' w env input frame rest gs) : Switched m' where
  switching := by
    refine h.switching.step hat.kernel ?_
    rintro body rfl
    exact (hhoused.staged.fork m.kernel.currentThread body (by simp [hat.kernel.stack])).2
  saved := h.saved_step hat
  cpu := h.cpu_step hat
  loads := h.loads_step hat
  mapped := h.mapped_step hhoused hs hat

theorem switched_boot (pid : ThreadId → Int) : Switched (boot pid) where
  switching := Kernel.switching_boot _ _ _ _
  saved := fun _ => settled_zero
  cpu := fun _ => settled_zero
  loads := settled_zero.loadBounded
  mapped := fun _ hrunning => absurd hrunning.resident (not_resident_boot rfl)

theorem Reachable.switched (h : m.Reachable) : Switched m := by
  obtain ⟨pid, hrun⟩ := h
  suffices hboth : Housed m ∧ Switched m from hboth.2
  refine hrun.stepAt_invariant (P := fun u => Housed u ∧ Switched u) (orderly_boot pid)
    ⟨housed_boot pid, switched_boot pid⟩ ?_
  rintro u v w env input frame rest gs hu - - hat ⟨hhoused, hswitched⟩
  exact ⟨hhoused.step hu hat, hswitched.step hhoused hu hat⟩

end Switching

section Resumption

variable {m m' w : System} {env : Environment} {input : Input} {frame : Frame UserFrame}
  {rest gs : List (Frame UserFrame)}

/-- The result of a thread is written when its system call returns. -/
theorem userExec_result {s : UserKernel} {k : UserFrame} {state : Userland}
    {rs : List (Request UserFrame)} (h : userExec input k s = .ok (state, rs))
    (hk : ∀ rv, k ≠ .sysReturn rv) : state.result = s.client.result := by
  cases k with
  | exceptionHandler call => rw [exceptionHandler_state h]
  | printfBody => rw [withBuffer_state h answer_state]
  | sysReturn rv => exact absurd rfl (hk rv)
  | _ =>
      simp only [userExec, oneInstruction, acquireCheck, releaseCheck, releaseTail, waitCheck,
        waitBody, waitTail, releaseOnError, signalCheck, signalTail, broadcastCheck,
        createLockBody, createCVBody, destroyLockBody, destroyCVBody, openFind, openStore,
        closeBody, newAddrSpace, spacePut, spaceDone, processFind, processStore, execFork,
        forkBody, exitBody, exitRemove, removeBody] at h
      repeat' split at h
      all_goals first
        | exact (congrArg Userland.result (answer_state h)).trans rfl
        | simp at h

/-- The registers of a thread: they are in the machine while it runs, and saved
while it does not. -/
def registersOf (m : System) (t : ThreadId) : Registers :=
  if m.current = t ∧ m.kernel.top ≠ some .afterSwitch then m.cpu.registers
  else m.userRegisters t

/-- The registers with which a thread runs its next instruction, as far as its
stack tells: its own, with the result and the program counters of the system call
it is in, or those a new program is started with. -/
inductive Owes (m : System) (t : ThreadId) (rv : Int) (space : SpaceId) (a : AddrSpace) :
    Registers → Prop
  | user (hcore : core (m.kernel.stack t) = userCore)
      (hresult : m.kernel.client.result t = rv) (hspace : m.kernel.client.space t = space)
      (hpages : m.numPages space = a.numPages) : Owes m t rv space a (m.registersOf t)
  | calling {k : UserFrame} (hcore : core (m.kernel.stack t) = .client k :: userLoop)
      (hspace : m.kernel.client.space t = space) (hpages : m.numPages space = a.numPages) :
      Owes m t rv space a (returnRegisters rv (m.registersOf t))
  | forked (hcore : core (m.kernel.stack t) = [.client .kernelRun, .call .threadFinish])
      (hspace : m.kernel.client.space t = space) (hpages : m.numPages space = a.numPages) :
      Owes m t rv space a (kernelRunRegisters (m.initialArg t) a.numPages (m.registersOf t))
  | starting {k : UserFrame} (hk : k = .newProcess ∨ k.isBoot = true)
      (hcore : core (m.kernel.stack t) = [.client k, .call .threadFinish]) :
      Owes m t rv space a a.initRegisters

/-- A thread that has run before, and has no load on its way. -/
structure Held (m : System) (t : ThreadId) : Prop where
  started : t = m.current ∨ ∃ later, m.kernel.stack t = .afterSwitch :: later
  settled : t = m.current → Settled m.cpu.registers

theorem Held.born {t : ThreadId} (h : Held m t) (hs : Orderly m.kernel) :
    t < m.kernel.threadCount := by
  rcases h.started with rfl | ⟨later, hstack⟩
  · exact hs.wellFormed.current_lt
  · by_contra hunborn
    rw [hs.wellFormed.unborn t (Nat.le_of_not_lt hunborn)] at hstack
    simp at hstack

/-- A thread other than the current one keeps its stack. -/
theorem Held.stack_other {t : ThreadId} (h : Held m t) (hs : Orderly m.kernel)
    (hat : StepAt m m' w env input frame rest gs) (ht : t ≠ m.current) :
    m'.kernel.stack t = m.kernel.stack t := by
  rcases hat.kernel.stack_other t ht with hsame | ⟨body, -, hnew, -⟩
  · exact hsame
  · exact absurd (h.born hs) (hnew ▸ Nat.lt_irrefl _)

theorem Switched.top_ne (h : Switched m) (hat : StepAt m m' w env input frame rest gs)
    (hcurrent : m'.kernel.currentThread = m.kernel.currentThread) (hgs : .afterSwitch ∉ gs) :
    m'.kernel.top ≠ some .afterSwitch := by
  intro htop
  have hmem : .afterSwitch ∈ m'.kernel.stack m'.kernel.currentThread :=
    List.mem_of_mem_head? htop
  rw [hcurrent, hat.kernel.stack_self] at hmem
  have hbelow := h.switching.below m.kernel.currentThread
  rw [hat.kernel.stack, List.tail_cons] at hbelow
  rcases List.mem_append.mp hmem with hnew | hold
  · exact hgs hnew
  · exact hbelow hold

/-- The code of `Yield` and `Sleep` apart, a step stays with its thread, which does
not stand behind `SWITCH` then. -/
theorem Switched.stays (h : Switched m) (hat : StepAt m m' w env input frame rest gs)
    (hcall : ¬ (frame = .call .threadYield ∨ frame = .sleepLoop)) :
    m'.kernel.currentThread = m.kernel.currentThread ∧ m'.kernel.top ≠ some .afterSwitch := by
  have hcurrent : m'.kernel.currentThread = m.kernel.currentThread := by
    rcases hat.kernel.currentThread with hsame | ⟨_, _, -, -, ⟨habs, -⟩ | ⟨habs, -⟩⟩
    · exact hsame
    · exact absurd (Or.inl habs) hcall
    · exact absurd (Or.inr habs) hcall
  refine ⟨hcurrent, h.top_ne hat hcurrent fun hnew => ?_⟩
  exact hcall ((Kernel.pushes_afterSwitch hat.kernel.pushes).2 hnew)

theorem registersOf_current (htop : m.kernel.top ≠ some .afterSwitch) :
    m.registersOf m.current = m.cpu.registers :=
  if_pos ⟨rfl, htop⟩

theorem registersOf_saved {t : ThreadId} {later : List (Frame UserFrame)}
    (hstack : m.kernel.stack t = .afterSwitch :: later) :
    m.registersOf t = m.userRegisters t := by
  refine if_neg ?_
  rintro ⟨rfl, htop⟩
  refine htop ?_
  show (m.kernel.stack m.current).head? = _
  rw [hstack]
  rfl

/-- The frames that end by themselves leave settled registers alone. -/
theorem Effect.registers_inner (h : Effect m env frame w input) (hinner : isInner frame = true)
    (hm : Settled m.cpu.registers) : w.cpu.registers = m.cpu.registers := by
  cases h with
  | quiet hquiet => rfl
  | flushed hframe hflushed => exact hflushed.same (Or.inl hm)
  | released hend => rfl
  | started hframe =>
      rcases hframe with ⟨i, rfl⟩ | ⟨rfl, -⟩
      · simp [isInner] at hinner
      · simp [isInner] at hinner
  | _ => simp [isInner] at hinner

/-- The registers of a thread while another one makes a step. -/
theorem Held.registersOf_other {t : ThreadId} (h : Held m t) (hs : Orderly m.kernel)
    (hat : StepAt m m' w env input frame rest gs) (ht : t ≠ m.current) :
    m'.registersOf t = m.registersOf t := by
  obtain ⟨later, hstack⟩ := h.started.resolve_left ht
  have hstack' := (h.stack_other hs hat ht).trans hstack
  rw [registersOf_saved hstack, registersOf_saved hstack', hat.after]
  show w.userRegisters t = _
  rw [hat.effect.userRegisters]
  have hscheduled := scheduled m frame
  generalize m.schedule frame = u at hscheduled ⊢
  cases hscheduled with
  | restored _ _ => rfl
  | saved _ _ _ => exact Function.update_of_ne ht _ _
  | same _ _ => rfl

/-- The registers of a thread while it runs the kernel's code: `Scheduler::Run`
saves and restores them. -/
theorem Held.registersOf_inner (h : Held m m.current) (hswitched : Switched m)
    (hat : StepAt m m' w env input frame rest gs) (hinner : isInner frame = true)
    (hspace : m.hasSpace m.current = true) :
    m'.registersOf m.current = m.registersOf m.current := by
  have hsettled := h.settled rfl
  have hcpu : m'.cpu = w.cpu := by rw [hat.after]
  have heffect := hat.effect
  by_cases hcall : frame = .call .threadYield ∨ frame = .sleepLoop
  · have htop : m.kernel.top ≠ some .afterSwitch := by
      rw [hat.kernel.top]
      rcases hcall with rfl | rfl <;> simp
    rw [registersOf_current htop]
    rcases hat.kernel.switch_cases hcall with ⟨hready, later, rfl⟩ | ⟨hready, hgs, hcurrent⟩
    · -- the registers are saved
      rw [registersOf_saved (t := m.current) hat.kernel.stack_self, hat.after]
      show w.userRegisters m.current = _
      rw [heffect.userRegisters]
      have hscheduled := scheduled m frame
      generalize m.schedule frame = u at hscheduled ⊢
      cases hscheduled with
      | restored habs _ => rcases hcall with rfl | rfl <;> simp at habs
      | saved _ _ _ => exact Function.update_self _ _ _
      | same _ hsave => exact absurd (hspace.symm.trans (hsave hcall hready)) (by simp)
    · have hself : m'.registersOf m.current = m'.cpu.registers := by
        rw [show m.current = m'.current from hcurrent.symm]
        exact registersOf_current (hswitched.top_ne hat hcurrent hgs)
      rw [hself, hcpu]
      have hscheduled := scheduled m frame
      generalize m.schedule frame = u at hscheduled heffect
      cases hscheduled with
      | restored habs _ => rcases hcall with rfl | rfl <;> simp at habs
      | saved _ hne _ => exact absurd hready hne
      | same _ _ => exact heffect.registers_inner hinner hsettled
  · obtain ⟨hcurrent, htop⟩ := hswitched.stays hat hcall
    have hself : m'.registersOf m.current = m'.cpu.registers := by
      rw [show m.current = m'.current from hcurrent.symm]
      exact registersOf_current htop
    rw [hself, hcpu]
    have hscheduled := scheduled m frame
    generalize m.schedule frame = u at hscheduled heffect
    cases hscheduled with
    | restored hswitch _ =>
        -- the registers are restored
        subst hswitch
        rw [registersOf_saved (t := m.current) hat.kernel.stack]
        exact heffect.registers_inner hinner (hswitched.saved m.current)
    | saved habs _ _ => exact absurd habs hcall
    | same hrestore _ =>
        have htop₀ : m.kernel.top ≠ some .afterSwitch := by
          intro habs
          have hfalse := hrestore (Option.some.inj (hat.kernel.top.symm.trans habs))
          exact absurd (hspace.symm.trans hfalse) (by simp)
        rw [registersOf_current htop₀]
        exact heffect.registers_inner hinner hsettled

/-- A thread that runs no instruction stays without a load on its way. -/
theorem Held.step {t : ThreadId} (h : Held m t) (hswitched : Switched m)
    (hs : Orderly m.kernel) (hat : StepAt m m' w env input frame rest gs)
    (hquiet : ¬ (m.current = t ∧ frame = .client .oneInstruction)) : Held m' t := by
  constructor
  case started =>
    by_cases ht : t = m.current
    · rcases hat.kernel.currentThread with hsame | ⟨_, later, -, hstack, -⟩
      · exact Or.inl (ht.trans hsame.symm)
      · exact Or.inr ⟨later, ht ▸ hstack⟩
    · obtain ⟨later, hstack⟩ := h.started.resolve_left ht
      exact Or.inr ⟨later, (h.stack_other hs hat ht).trans hstack⟩
  case settled =>
    intro hcurrent'
    rw [show m'.cpu = w.cpu by rw [hat.after]]
    by_cases ht : t = m.current
    · subst ht
      have hframe : frame ≠ .client .oneInstruction := fun hframe => hquiet ⟨rfl, hframe⟩
      exact hat.effect.settled hframe (hswitched.scheduled_settled (h.settled rfl))
    · have hcall : frame = .call .threadYield ∨ frame = .sleepLoop := by
        by_contra hcall
        exact ht (hcurrent'.trans (hswitched.stays hat hcall).1)
      have hframe : frame ≠ .client .oneInstruction := by
        rcases hcall with rfl | rfl <;> simp
      have htick : frame ≠ .oneTick := by
        rcases hcall with rfl | rfl <;> simp
      exact hat.effect.settled hframe
        (hswitched.scheduled_settled (hswitched.settled hat hframe htick))

theorem StepAt.result (hat : StepAt m m' w env input frame rest gs) {t : ThreadId}
    (ht : t ≠ m.current ∨ ∀ rv, frame ≠ .client (.sysReturn rv)) :
    m'.kernel.client.result t = m.kernel.client.result t := by
  rcases stepAt_cases hat.kernel with ⟨k, rs, rfl, hexec, -⟩ | ⟨-, hsame⟩
  · by_cases hk : ∃ rv, k = .sysReturn rv
    · obtain ⟨rv, rfl⟩ := hk
      have hne : t ≠ m.current := ht.resolve_right fun h => h rv rfl
      obtain ⟨hstate, -⟩ := Prod.mk.inj (Except.ok.inj hexec)
      rw [← hstate]
      exact Function.update_of_ne hne _ _
    · have hsame := userExec_result hexec fun rv hrv => hk ⟨rv, hrv⟩
      exact congrFun hsame t
  · rw [hsame]

/-- The argument of a forked thread is written before it is born. -/
theorem StepAt.initialArg (hat : StepAt m m' w env input frame rest gs) {t : ThreadId}
    (hborn : t < m.kernel.threadCount) : m'.initialArg t = m.initialArg t := by
  obtain ⟨cpu, userRegisters, hschedule⟩ := schedule_eq m frame
  have heffect := hat.effect
  rw [hschedule] at heffect
  rw [hat.after]
  show w.initialArg t = m.initialArg t
  cases heffect with
  | started hframe =>
      unfold startProgram
      split
      · rfl
      · rfl
  | execForked => exact Function.update_of_ne (Nat.ne_of_lt hborn) _ _
  | forked hp => exact Function.update_of_ne (Nat.ne_of_lt hborn) _ _
  | _ => rfl

/-- A system call leaves the registers alone up to its return. -/
theorem Effect.registers_call {k : UserFrame} {state : Userland}
    {rs : List (Request UserFrame)} (h : Effect m env (.client k) w input)
    (hk : k.isCall = true) (hreturn : ∀ rv, k ≠ .sysReturn rv)
    (hexec : userExec input k m.kernel.pop = .ok (state, rs)) (hrs : rs ≠ [.halt]) :
    w.cpu.registers = m.cpu.registers := by
  cases h with
  | @entered call machine pointerOk value arguments found nextFile _ _ hcopied hbad =>
      cases pointerOk with
      | true => exact hcopied.registers rfl
      | false => exact absurd (hbad rfl _ state rs rfl hexec) hrs
  | returned rv => exact absurd rfl (hreturn rv)
  | @printed machine pointerOk value hcopied =>
      cases pointerOk with
      | true => exact hcopied.registers rfl
      | false => exact absurd (withBuffer_bad rfl hexec) hrs
  | instruction hended => exact absurd hk (by simp [UserFrame.isCall])
  | flushed habs _ => simp at habs
  | started hframe =>
      rcases hframe with ⟨i, hsame⟩ | ⟨hsame, -⟩
      · obtain rfl := Frame.client.inj hsame
        simp [UserFrame.isCall, UserFrame.isBoot] at hk
      · obtain rfl := Frame.client.inj hsame
        simp [UserFrame.isCall, UserFrame.isBoot, UserFrame.isEntry] at hk
  | ranForked => exact absurd hk (by simp [UserFrame.isCall, UserFrame.isBoot, UserFrame.isEntry])
  | _ => rfl

section Owing

variable {t : ThreadId} {rv : Int} {space : SpaceId} {a : AddrSpace} {regs : Registers}

/-- A step that leaves the core and the registers of a thread alone. -/
theorem Owes.keep (h : Owes m' t rv space a regs) (hhoused : Housed m) (hs : Orderly m.kernel)
    (hat : StepAt m m' w env input frame rest gs) (hborn : t < m.kernel.threadCount)
    (hcore : core (m'.kernel.stack t) = core (m.kernel.stack t))
    (hregs : m.hasSpace t = true → m'.registersOf t = m.registersOf t)
    (hdone : ∀ space, frame = .client (.spaceDone space .startProcess) → t ≠ m.current)
    (hreturn : t ≠ m.current ∨ ∀ rv, frame ≠ .client (.sysReturn rv)) : Owes m t rv space a regs := by
  have hresident : Resident (core (m.kernel.stack t)) →
      m'.registersOf t = m.registersOf t ∧
        (m'.kernel.client.space t = space → m.kernel.client.space t = space ∧
          m'.numPages space = m.numPages space) := by
    intro hresident
    have hhas := hhoused.resident t hresident
    refine ⟨hregs hhas, ?_⟩
    rintro rfl
    rw [hat.space_kept hs hborn hdone]
    exact ⟨rfl, hhoused.numPages_step hat (hhoused.housed t hhas).2⟩
  cases h with
  | user hcore' hresult hspace hpages =>
      obtain ⟨hsame, hkept⟩ := hresident (Or.inl (hcore.symm.trans hcore'))
      obtain ⟨hspace₀, hpages₀⟩ := hkept hspace
      rw [hsame]
      exact .user (hcore.symm.trans hcore') ((hat.result hreturn).symm.trans hresult) hspace₀
        (hpages₀.symm.trans hpages)
  | calling hcore' hspace hpages =>
      obtain ⟨hsame, hkept⟩ := hresident (Or.inr (Or.inl ⟨_, hcore.symm.trans hcore'⟩))
      obtain ⟨hspace₀, hpages₀⟩ := hkept hspace
      rw [hsame]
      exact .calling (hcore.symm.trans hcore') hspace₀ (hpages₀.symm.trans hpages)
  | forked hcore' hspace hpages =>
      obtain ⟨hsame, hkept⟩ :=
        hresident (Or.inr (Or.inr (Or.inr ⟨_, rfl, hcore.symm.trans hcore'⟩)))
      obtain ⟨hspace₀, hpages₀⟩ := hkept hspace
      rw [hsame, hat.initialArg hborn]
      exact .forked (hcore.symm.trans hcore') hspace₀ (hpages₀.symm.trans hpages)
  | starting hk hcore' => exact .starting hk (hcore.symm.trans hcore')

/-- A thread that is to run an instruction is at a program point. -/
theorem Owes.head (h : Owes m t rv space a regs) :
    ∃ k below, core (m.kernel.stack t) = .client k :: below := by
  cases h with
  | user hcore _ _ _ => exact ⟨_, _, hcore⟩
  | calling hcore _ _ => exact ⟨_, _, hcore⟩
  | forked hcore _ _ => exact ⟨_, _, hcore⟩
  | starting _ hcore => exact ⟨_, _, hcore⟩

theorem Owes.of_user (h : Owes m t rv space a regs) (hcore : core (m.kernel.stack t) = userCore) :
    regs = m.registersOf t ∧ m.kernel.client.result t = rv ∧
      m.kernel.client.space t = space ∧ m.numPages space = a.numPages := by
  cases h with
  | user _ hresult hspace hpages => exact ⟨rfl, hresult, hspace, hpages⟩
  | calling hcore' _ _ => exact absurd (hcore.symm.trans hcore') (by simp [userCore, userLoop])
  | forked hcore' _ _ => exact absurd (hcore.symm.trans hcore') (by simp [userCore])
  | @starting k hk hcore' =>
      obtain rfl : k = .oneInstruction := by
        simpa [userCore] using (hcore.symm.trans hcore').symm
      simp [UserFrame.isBoot] at hk

theorem Owes.of_calling (h : Owes m t rv space a regs) {k : UserFrame}
    (hcore : core (m.kernel.stack t) = .client k :: userLoop) :
    regs = returnRegisters rv (m.registersOf t) ∧ m.kernel.client.space t = space ∧
      m.numPages space = a.numPages := by
  cases h with
  | user hcore' _ _ _ => exact absurd (hcore.symm.trans hcore') (by simp [userCore, userLoop])
  | calling _ hspace hpages => exact ⟨rfl, hspace, hpages⟩
  | forked hcore' _ _ => exact absurd (hcore.symm.trans hcore') (by simp [userLoop])
  | starting _ hcore' => exact absurd (hcore.symm.trans hcore') (by simp [userLoop])

theorem Owes.of_boot (h : Owes m t rv space a regs) {k : UserFrame} (hk : k.isBoot = true)
    (hcore : core (m.kernel.stack t) = [.client k, .call .threadFinish]) :
    regs = a.initRegisters := by
  cases h with
  | user hcore' _ _ _ =>
      obtain rfl : k = .oneInstruction := by simpa [userCore] using hcore.symm.trans hcore'
      simp [UserFrame.isBoot] at hk
  | calling hcore' _ _ => exact absurd (hcore.symm.trans hcore') (by simp [userLoop])
  | forked hcore' _ _ =>
      obtain rfl : k = .kernelRun := by simpa using hcore.symm.trans hcore'
      simp [UserFrame.isBoot] at hk
  | starting _ _ => rfl

/-- Two address spaces of one size start their programs alike. -/
theorem AddrSpace.initRegisters_congr {a b : AddrSpace} (h : a.numPages = b.numPages) :
    a.initRegisters = b.initRegisters := by
  unfold AddrSpace.initRegisters
  rw [h]

/-- The start of a program. -/
theorem Effect.registers_start (h : Effect m env frame w input)
    (hspace : (m.addrSpace m.currentSpace).isSome = true)
    (hframe : frame = .client .newProcess ∨
      ∃ i, frame = .client (.processStore m.currentSpace i .startProcess))
    (hpages : m.numPages m.currentSpace = a.numPages) : w.cpu.registers = a.initRegisters := by
  obtain ⟨loaded, hloaded⟩ := Option.isSome_iff_exists.mp hspace
  have hsize : loaded.numPages = a.numPages := by
    simpa [numPages, hloaded] using hpages
  have hstart : (m.startProgram m.currentSpace).cpu.registers = a.initRegisters := by
    simp only [startProgram, hloaded]
    exact AddrSpace.initRegisters_congr hsize
  rcases hframe with rfl | ⟨i, rfl⟩
  · cases h with
    | quiet hquiet => exact hquiet.elim
    | flushed habs _ => simp at habs
    | started hwhich =>
        rcases hwhich with ⟨i, habs⟩ | ⟨-, rfl⟩
        · simp at habs
        · exact hstart
  · cases h with
    | quiet hquiet => exact hquiet.elim
    | flushed habs _ => simp at habs
    | started hwhich =>
        rcases hwhich with ⟨i, hsame⟩ | ⟨habs, -⟩
        · obtain ⟨rfl, -⟩ := UserFrame.processStore.inj (Frame.client.inj hsame)
          exact hstart
        · simp at habs

/-- What a thread owed before it ran the first frame of its core. -/
theorem Owes.before_outer (h : Owes m' m.current rv space a regs) (hhoused : Housed m)
    (hswitched : Switched m) (hs : Orderly m.kernel)
    (hat : StepAt m m' w env input frame rest gs)
    (hcore : core (m.kernel.stack m.current) = frame :: rest)
    (hstep : CoreStep frame (core (m'.kernel.stack m.current)))
    (hquiet : frame ≠ .client .oneInstruction) (hfin : ¬ m'.kernel.Finished m.current) :
    Owes m m.current rv space a regs := by
  obtain ⟨k', below, hhead⟩ := h.head
  have hstage := hhoused.staged.stage m.current
  rw [hcore] at hstage
  -- the threads that have an address space
  have hkept : m.hasSpace m.current = true →
      (∀ space, frame ≠ .client (.spaceDone space .startProcess)) →
      m'.kernel.client.space m.current = space → m'.numPages space = a.numPages →
      m.currentSpace = space ∧ m.numPages space = a.numPages := by
    intro hhas hframe hspace hpages
    have hsame : m'.kernel.client.space m.current = m.currentSpace :=
      hat.space_kept hs hs.wellFormed.current_lt fun space habs => absurd habs (hframe space)
    rw [hsame] at hspace
    subst hspace
    exact ⟨rfl, (hhoused.numPages_step hat (hhoused.housed _ hhas).2).symm.trans hpages⟩
  have hcpu : m'.cpu = w.cpu := by rw [hat.after]
  -- the program points find and leave the registers in the machine
  have hmachine : ∀ k : UserFrame, frame = .client k →
      m'.registersOf m.current = w.cpu.registers ∧
        m.registersOf m.current = m.cpu.registers := by
    rintro k rfl
    obtain ⟨hcurrent, htop⟩ := hswitched.stays hat (by simp)
    refine ⟨?_, registersOf_current (by rw [hat.kernel.top]; simp)⟩
    rw [show m.current = m'.current from hcurrent.symm, registersOf_current htop, hcpu]
  generalize hcore' : core (m'.kernel.stack m.current) = c at hstep
  cases hstep with
  | boots hk hk' =>
      rw [h.of_boot hk' hcore']
      rw [hstage.below_boot hk] at hcore
      exact .starting (Or.inr hk) hcore
  | noFile => exact absurd (hcore'.symm.trans hhead) (by simp)
  | booted space₁ i =>
      obtain ⟨hhas, rfl⟩ := hhoused.settled _ _ rest space₁ hcore rfl
      obtain ⟨rfl, -, hspace, hpages⟩ := h.of_user hcore'
      obtain ⟨rfl, hpages⟩ := hkept hhas (by simp) hspace hpages
      rw [(hmachine _ rfl).1, hat.effect.registers_start (hhoused.housed _ hhas).2
        (Or.inr ⟨i, rfl⟩) hpages]
      rw [hstage.below_boot rfl] at hcore
      exact .starting (Or.inr rfl) hcore
  | @started k hk =>
      have hbelow : rest = [.call .threadFinish] := by
        cases hstage with
        | booting _ => rfl
        | starting _ => rfl
        | user => rfl
        | calling hcall => exact absurd hk (by simp [(UserFrame.isCall_cases hcall).2.1])
      rw [hbelow] at hcore
      have hhas : m.hasSpace m.current = true :=
        hhoused.resident _ (Or.inr (Or.inr (Or.inr ⟨k, hk, hcore⟩)))
      obtain ⟨rfl, -, hspace, hpages⟩ := h.of_user hcore'
      cases k with
      | newProcess =>
          obtain ⟨rfl, hpages⟩ := hkept hhas (by simp) hspace hpages
          rw [(hmachine _ rfl).1, hat.effect.registers_start (hhoused.housed _ hhas).2
            (Or.inl rfl) hpages]
          exact .starting (Or.inl rfl) hcore
      | kernelRun =>
          obtain ⟨rfl, hpages⟩ := hkept hhas (by simp) hspace hpages
          have heffect : Effect m env (.client .kernelRun) w input := hat.effect
          have hregs : w.cpu.registers = kernelRunRegisters (m.initialArg m.current) a.numPages
              m.cpu.registers := by
            cases heffect with
            | quiet hquiet => exact hquiet.elim
            | flushed habs _ => simp at habs
            | started habs => simp at habs
            | ranForked => rw [← hpages]; rfl
          rw [(hmachine _ rfl).1, hregs, ← (hmachine _ rfl).2]
          exact .forked hcore rfl hpages
      | _ => simp [UserFrame.isEntry] at hk
  | instruction => exact absurd rfl hquiet
  | traps call => exact absurd rfl hquiet
  | @goesOn k k'' hk hk' hreturn hexit =>
      rw [hstage.below_call hk] at hcore
      have hhas : m.hasSpace m.current = true :=
        hhoused.resident _ (Or.inr (Or.inl ⟨k, hcore⟩))
      obtain ⟨rfl, hspace, hpages⟩ := h.of_calling hcore'
      have hnotDone : ∀ space, Frame.client k ≠ .client (.spaceDone space .startProcess) := by
        intro space habs
        rw [Frame.client.inj habs] at hk
        simp [UserFrame.isCall, UserFrame.isBoot] at hk
      obtain ⟨rfl, hpages⟩ := hkept hhas hnotDone hspace hpages
      have hregs : w.cpu.registers = m.cpu.registers := by
        rcases stepAt_cases hat.kernel with ⟨k₁, rs, hk₁, hexec, rfl⟩ | ⟨hclient, -⟩
        · obtain rfl := Frame.client.inj hk₁
          refine hat.effect.registers_call hk hreturn hexec ?_
          rintro rfl
          rw [current, hat.kernel.stack_self] at hhead
          exact absurd hhead (by simp [Request.frame, core, isInner])
        · exact absurd rfl (hclient k)
      rw [(hmachine _ rfl).1, hregs, ← (hmachine _ rfl).2]
      exact .calling hcore rfl hpages
  | returns rv' =>
      rw [hstage.below_call rfl] at hcore
      have hhas : m.hasSpace m.current = true :=
        hhoused.resident _ (Or.inr (Or.inl ⟨_, hcore⟩))
      obtain ⟨rfl, hresult, hspace, hpages⟩ := h.of_user hcore'
      obtain ⟨rfl, hpages⟩ := hkept hhas (by simp) hspace hpages
      have hrv : rv' = rv := by
        rcases stepAt_cases hat.kernel with ⟨k₁, rs, hk₁, hexec, -⟩ | ⟨hclient, -⟩
        · obtain rfl := Frame.client.inj hk₁
          obtain ⟨hstate, -⟩ := Prod.mk.inj (Except.ok.inj hexec)
          rw [← hstate] at hresult
          exact (Function.update_self _ _ _).symm.trans hresult
        · exact absurd rfl (hclient _)
      have heffect : Effect m env (.client (.sysReturn rv')) w input := hat.effect
      have hregs : w.cpu.registers = returnRegisters rv' m.cpu.registers := by
        cases heffect with
        | quiet hquiet => exact hquiet.elim
        | flushed habs _ => simp at habs
        | started habs => simp at habs
        | returned _ => rfl
      rw [(hmachine _ rfl).1, hregs, hrv, ← (hmachine _ rfl).2]
      exact .calling hcore rfl hpages
  | exits => exact absurd (hcore'.symm.trans hhead) (by simp)
  | halts k below => exact absurd (hcore'.symm.trans hhead) (by simp)
  | finishes =>
      refine absurd ?_ hfin
      rcases hat.kernel.life with ⟨body, habs, -⟩ | ⟨-, -, hfinished⟩ | ⟨-, habs, -⟩
      · simp at habs
      · exact (hfinished _).mpr (Or.inr rfl)
      · exact absurd rfl habs
  | ends => exact absurd (hcore'.symm.trans hhead) (by simp)

/-- What a thread owed before a step in which it ran no instruction. -/
theorem Owes.before (h : Owes m' t rv space a regs) (hheld : Held m t) (hhoused : Housed m)
    (hswitched : Switched m) (hs : Orderly m.kernel)
    (hat : StepAt m m' w env input frame rest gs)
    (hquiet : ¬ (m.current = t ∧ frame = .client .oneInstruction))
    (hfin : ¬ m'.kernel.Finished t) : Owes m t rv space a regs := by
  by_cases ht : t = m.current
  · subst ht
    have hframe : frame ≠ .client .oneInstruction := fun hframe => hquiet ⟨rfl, hframe⟩
    rcases hhoused.staged.core_cases hs hat.kernel with ⟨hinner, hsame⟩ | ⟨-, hcore, hstep⟩
    · refine h.keep hhoused hs hat (hheld.born hs) hsame
        (hheld.registersOf_inner hswitched hat hinner) ?_ (Or.inr ?_)
      · rintro space rfl
        simp [isInner] at hinner
      · rintro rv rfl
        simp [isInner] at hinner
    · exact h.before_outer hhoused hswitched hs hat hcore hstep hframe hfin
  · refine h.keep hhoused hs hat (hheld.born hs) (by rw [hheld.stack_other hs hat ht])
      (fun _ => hheld.registersOf_other hs hat ht) (fun _ _ => ht) (Or.inl ht)

/-- The next thing that happens is an instruction of this thread. -/
def Executes (m : System) (t : ThreadId) : Prop :=
  m.current = t ∧ m.kernel.top = some (.client .oneInstruction)

/-- This thread is about to give up the processor, in `Yield` or in `Sleep`. -/
def GivesUp (m : System) (t : ThreadId) : Prop :=
  m.current = t ∧ m.kernel.readyList ≠ [] ∧
    (m.kernel.top = some (.call .threadYield) ∨ m.kernel.top = some .sleepLoop)

instance (m : System) (t : ThreadId) : Decidable (m.Executes t) :=
  inferInstanceAs (Decidable (_ ∧ _))

instance (m : System) (t : ThreadId) : Decidable (m.GivesUp t) :=
  inferInstanceAs (Decidable (_ ∧ _ ∧ _))

/-- What a thread owed at the beginning of a run in which it ran no instruction. -/
theorem Owes.run (hreach : m.Reachable) (hheld : Held m t)
    (hrun : Run (fun u _ => ¬ u.Executes t) m m') :
    Held m' t ∧ ∀ regs, ¬ m'.kernel.Finished t → Owes m' t rv space a regs →
      Owes m t rv space a regs := by
  induction hrun with
  | refl => exact ⟨hheld, fun _ _ h => h⟩
  | @tail u v env hrun hguard hstep ih =>
      obtain ⟨hheldu, howes⟩ := ih
      have hreachu := hreach.run hrun
      have hs := hreachu.orderly
      obtain ⟨w, input, frame, rest, gs, hat⟩ := step_at hs.wellFormed hstep
      have hquiet : ¬ (u.current = t ∧ frame = .client .oneInstruction) := by
        rintro ⟨hcurrent, rfl⟩
        exact hguard ⟨hcurrent, hat.kernel.top⟩
      refine ⟨hheldu.step hreachu.switched hs hat hquiet, fun regs hfin hv => ?_⟩
      refine howes regs (fun hfinu => hfin (hat.kernel.finished hfinu)) ?_
      exact hv.before hheldu hreachu.housed hreachu.switched hs hat hquiet hfin

theorem Executes.core (h : m.Executes t) (hreach : m.Reachable) :
    core (m.kernel.stack t) = userCore := by
  obtain ⟨rfl, htop⟩ := h
  have hstack : m.kernel.stack m.current = _ := Kernel.stack_of_top htop
  have hstage := hreach.housed.staged.stage m.current
  rw [hstack, core_cons_outer rfl] at hstage ⊢
  rw [hstage.below_instruction]
  rfl

/-- The registers with which a thread runs its next instruction are those it owed
in any state since its last. -/
theorem Owes.of_next (hreach : m.Reachable) (hheld : Held m t)
    (hrun : Run (fun u _ => ¬ u.Executes t) m m') (hnext : m'.Executes t) :
    ∃ a, m'.addrSpace (m'.kernel.client.space t) = some a ∧
      Owes m t (m'.kernel.client.result t) (m'.kernel.client.space t) a m'.cpu.registers := by
  have hreach' := hreach.run hrun
  have hcore := hnext.core hreach'
  obtain ⟨hcurrent, htop⟩ := hnext
  have hhas := hreach'.housed.resident t (Or.inl hcore)
  obtain ⟨a, ha⟩ := Option.isSome_iff_exists.mp (hreach'.housed.housed _ hhas).2
  have hpages : m'.numPages (m'.kernel.client.space t) = a.numPages := by
    simp [numPages, ha]
  have hfin : ¬ m'.kernel.Finished t := by
    rw [← hcurrent]
    exact hreach'.orderly.wellFormed.not_finished htop rfl
  have hself : m'.registersOf t = m'.cpu.registers := by
    rw [← hcurrent]
    exact registersOf_current (by simp [htop])
  have hend := Owes.user (m := m') hcore rfl rfl hpages
  rw [hself] at hend
  exact ⟨a, ha, (Owes.run hreach hheld hrun).2 _ hfin hend⟩

/-- When a thread that has given up the processor runs its next instruction, all
registers of the machine are those it had, as far as code run for the thread
itself has not changed them: a system call it was in has written its result and
advanced the program counters, and a program it was about to start has been
started.  The page table is that of its address space, and the one it had. -/
theorem registers_resumed (hreach : m.Reachable) (hgives : m.GivesUp t)
    (hrun : Run (fun u _ => ¬ u.Executes t) m m') (hnext : m'.Executes t) :
    ∃ a, m'.addrSpace (m'.kernel.client.space t) = some a ∧
      m.registersOf t = m.cpu.registers ∧
      Owes m t (m'.kernel.client.result t) (m'.kernel.client.space t) a m'.cpu.registers ∧
      (core (m.kernel.stack t) = userCore → m'.cpu.registers = m.cpu.registers) ∧
      (∀ k, core (m.kernel.stack t) = .client k :: userLoop →
        m'.cpu.registers =
          returnRegisters (m'.kernel.client.result t) m.cpu.registers) ∧
      m'.cpu.pageTable = some (m'.kernel.client.space t) ∧
      m'.cpu.pageTableSize = a.numPages ∧
      (Running (core (m.kernel.stack t)) → m'.cpu.pageTable = m.cpu.pageTable ∧
        m'.cpu.pageTableSize = m.cpu.pageTableSize) := by
  obtain ⟨rfl, -, hframe⟩ := hgives
  have hcore' := hnext.core (hreach.run hrun)
  have htop : m.kernel.top ≠ some .afterSwitch := by
    rcases hframe with htop | htop
    · simp [htop]
    · simp [htop]
  have hsettled : Settled m.cpu.registers := by
    refine hreach.switched.cpu ?_
    rintro (⟨later, hstack⟩ | ⟨later, hstack⟩)
    · rcases hframe with htop | htop <;>
        simp [Kernel.top, show m.kernel.stack m.kernel.currentThread = _ from hstack] at htop
    · rcases hframe with htop | htop <;>
        simp [Kernel.top, show m.kernel.stack m.kernel.currentThread = _ from hstack] at htop
  have hregs : m.registersOf m.current = m.cpu.registers := registersOf_current htop
  obtain ⟨a, ha, howes⟩ := Owes.of_next hreach ⟨Or.inl rfl, fun _ => hsettled⟩ hrun hnext
  obtain ⟨hcurrent, htop'⟩ := hnext
  have hmapped' := (hreach.run hrun).switched.mapped (by simp [htop'])
    (by rw [hcurrent]; exact Or.inl hcore')
  have hspace' : m'.currentSpace = m'.kernel.client.space m.current := by
    show m'.kernel.client.space m'.current = _
    rw [hcurrent]
  have hpages : m'.numPages (m'.kernel.client.space m.current) = a.numPages := by
    simp [numPages, ha]
  rw [hspace', hpages] at hmapped'
  refine ⟨a, ha, hregs, howes, ?_, ?_, hmapped'.1, hmapped'.2, ?_⟩
  · intro hcore
    rw [← hregs]
    exact (howes.of_user hcore).1
  · intro k hcore
    rw [← hregs]
    exact (howes.of_calling hcore).1
  · intro hrunning
    have hmapped := hreach.switched.mapped htop hrunning
    have hkept : m.currentSpace = m'.kernel.client.space m.current ∧
        m.numPages (m'.kernel.client.space m.current) = a.numPages := by
      rcases hrunning with hcore | ⟨k, hcore⟩ | hcore
      · exact (howes.of_user hcore).2.2
      · exact (howes.of_calling hcore).2
      · obtain ⟨k, below, hhead⟩ := howes.head
        exact absurd (hcore.symm.trans hhead) (by simp)
    rw [hkept.1, hkept.2] at hmapped
    exact ⟨hmapped'.1.trans hmapped.1.symm, hmapped'.2.trans hmapped.2.symm⟩

/-- A program calls `Exec` and then `Yield`, and goes on when the other program
has yielded, too. -/
theorem registers_resumed_yield :
    ∃ m m' : System, m.Reachable ∧ m.GivesUp 0 ∧ m'.Executes 0 ∧
      m'.cpu.registers = returnRegisters (m'.kernel.client.result 0) m.cpu.registers := by
  obtain ⟨m, m', hreach, hrun, hgives, hnext, hcore⟩ := exists_reachable_run
    (P := fun m m' => m.GivesUp 0 ∧ m'.Executes 0 ∧
      core (m.kernel.stack 0) = .client (.sysReturn 0) :: userLoop)
    (fun u _ => !decide (u.Executes 0)) (fun _ => 0)
    -- `addiu r2, r0, 2`, `syscall`, `addiu r2, r0, 10`, `syscall`
    (List.replicate 30 (undisturbed (program [0x24020002, 0xc, 0x2402000a, 0xc] 0)) ++
      List.replicate 25 (undisturbed (program [0x2402000a, 0xc] 0)))
    (List.replicate 17 (undisturbed (program [0x2402000a, 0xc] 0))) (by decide +kernel)
  have hquiet : Run (fun u _ => ¬ u.Executes 0) m m' := hrun.mono fun u _ h => by simpa using h
  obtain ⟨a, -, -, -, -, hcalling, -⟩ := registers_resumed hreach hgives hquiet hnext
  exact ⟨m, m', hreach, hgives, hnext, hcalling _ hcore⟩

end Owing

end Resumption

end System

end Userprog
end Nachos
