import Nachos.Userprog.ContextSwitch

/-!
# The registers a forked thread starts with

`kernelRun` writes the program counters and the stack pointer and leaves the other
registers as the machine has them, which is as the thread that ran before has left
them.  So two runs that make the same `Fork_Syscall` start the new thread with the
same registers if and only if those leftovers agree.
-/

namespace Nachos
namespace Userprog

open Threads Lib

namespace System

section Forked

variable {m m' m₁ m₁' m₂ m₂' : System} {t : ThreadId}

/-- A thread made by `Fork_Syscall` gets the processor for the first time. -/
def Dispatched (m : System) (t : ThreadId) : Prop :=
  m.current = t ∧ m.kernel.stack t = Kernel.rootFrames .kernelRun

instance (m : System) (t : ThreadId) : Decidable (m.Dispatched t) :=
  inferInstanceAs (Decidable (_ ∧ _))

/-- The same call of `Fork_Syscall`: the procedure has the same address, and the
address space the same size. -/
structure SameFork (m₁ m₂ : System) (t : ThreadId) : Prop where
  initialArg : m₁.initialArg t = m₂.initialArg t
  numPages : m₁.numPages (m₁.kernel.client.space t) = m₂.numPages (m₂.kernel.client.space t)

theorem Owes.of_forked {rv : Int} {space : SpaceId} {a : AddrSpace} {regs : Registers}
    (h : Owes m t rv space a regs)
    (hcore : core (m.kernel.stack t) = [.client .kernelRun, .call .threadFinish]) :
    regs = kernelRunRegisters (m.initialArg t) a.numPages (m.registersOf t) ∧
      m.kernel.client.space t = space ∧ m.numPages space = a.numPages := by
  cases h with
  | user hcore' _ _ _ => exact absurd (hcore.symm.trans hcore') (by simp [userCore])
  | calling hcore' _ _ => exact absurd (hcore.symm.trans hcore') (by simp [userLoop])
  | forked _ hspace hpages => exact ⟨rfl, hspace, hpages⟩
  | @starting k hk hcore' =>
      obtain rfl : k = .kernelRun := by simpa using (hcore.symm.trans hcore').symm
      simp [UserFrame.isBoot] at hk

/-- The registers with which a forked thread runs its first instruction. -/
theorem Dispatched.registers (h : m.Dispatched t) (hreach : m.Reachable)
    (hrun : Run (fun u _ => ¬ u.Executes t) m m') (hnext : m'.Executes t) :
    m'.cpu.registers = kernelRunRegisters (m.initialArg t)
      (m.numPages (m.kernel.client.space t)) m.cpu.registers := by
  obtain ⟨rfl, hstack⟩ := h
  have hcore : core (m.kernel.stack m.current) = [.client .kernelRun, .call .threadFinish] := by
    rw [hstack]
    rfl
  have hsettled : Settled m.cpu.registers := by
    refine hreach.switched.cpu ?_
    rw [hstack]
    rintro (⟨later, heq⟩ | ⟨later, heq⟩)
    · simp [Kernel.rootFrames] at heq
    · simp [Kernel.rootFrames] at heq
  have htop : m.kernel.top ≠ some .afterSwitch := by
    rw [Kernel.top, show m.kernel.stack m.kernel.currentThread = _ from hstack]
    simp [Kernel.rootFrames]
  obtain ⟨a, -, howes⟩ := Owes.of_next hreach ⟨Or.inl rfl, fun _ => hsettled⟩ hrun hnext
  obtain ⟨hregs, hspace, hpages⟩ := howes.of_forked hcore
  rw [hregs, registersOf_current htop, hspace, hpages]

/-- The registers that `kernelRun` does not write. -/
def Leftover (r : Register) : Prop := r ≠ pcReg ∧ r ≠ nextPCReg ∧ r ≠ stackReg

theorem kernelRunRegisters_leftover {r : Register} (hr : Leftover r) (vaddr : Word)
    (numPages : Nat) (registers : Registers) :
    kernelRunRegisters vaddr numPages registers r = registers r := by
  unfold kernelRunRegisters
  rw [Function.update_of_ne hr.2.2, Function.update_of_ne hr.2.1, Function.update_of_ne hr.1]

/-- `kernelRun` forgets what it writes over, and nothing else. -/
theorem kernelRunRegisters_eq_iff (vaddr : Word) (numPages : Nat)
    (registers₁ registers₂ : Registers) :
    kernelRunRegisters vaddr numPages registers₁ = kernelRunRegisters vaddr numPages registers₂ ↔
      ∀ r, Leftover r → registers₁ r = registers₂ r := by
  constructor
  · intro heq r hr
    have hsame := congrFun heq r
    rwa [kernelRunRegisters_leftover hr, kernelRunRegisters_leftover hr] at hsame
  · intro hsame
    funext r
    by_cases hr : Leftover r
    · rw [kernelRunRegisters_leftover hr, kernelRunRegisters_leftover hr]
      exact hsame r hr
    · unfold kernelRunRegisters
      by_cases hstack : r = stackReg
      · rw [hstack, Function.update_self, Function.update_self]
      · rw [Function.update_of_ne hstack, Function.update_of_ne hstack]
        by_cases hnext : r = nextPCReg
        · rw [hnext, Function.update_self, Function.update_self]
        · rw [Function.update_of_ne hnext, Function.update_of_ne hnext]
          by_cases hpc : r = pcReg
          · rw [hpc, Function.update_self, Function.update_self]
          · exact absurd ⟨hpc, hnext, hstack⟩ hr

/-- In two runs that make the same `Fork_Syscall` the new thread runs its first
instruction with the same registers if and only if the registers that `kernelRun`
does not write had been left alike in the machine when it was first dispatched. -/
theorem forked_registers_iff (hreach₁ : m₁.Reachable) (hreach₂ : m₂.Reachable)
    (hfirst₁ : m₁.Dispatched t) (hfirst₂ : m₂.Dispatched t) (hfork : SameFork m₁ m₂ t)
    (hrun₁ : Run (fun u _ => ¬ u.Executes t) m₁ m₁') (hnext₁ : m₁'.Executes t)
    (hrun₂ : Run (fun u _ => ¬ u.Executes t) m₂ m₂') (hnext₂ : m₂'.Executes t) :
    m₁'.cpu.registers = m₂'.cpu.registers ↔
      ∀ r, Leftover r → m₁.cpu.registers r = m₂.cpu.registers r := by
  rw [hfirst₁.registers hreach₁ hrun₁ hnext₁, hfirst₂.registers hreach₂ hrun₂ hnext₂,
    hfork.initialArg, hfork.numPages]
  exact kernelRunRegisters_eq_iff _ _ _ _

/-- Two states that agree on all threads but for the registers of threads of other
processes. -/
def OthersDiffer (m₁ m₂ : System) (t : ThreadId) : Prop :=
  m₁.kernel.threadCount = m₂.kernel.threadCount ∧
  m₁.kernel.readyList = m₂.kernel.readyList ∧
  m₁.kernel.client.processTable = m₂.kernel.client.processTable ∧
  ∀ u < m₁.kernel.threadCount, m₁.kernel.stack u = m₂.kernel.stack u ∧
    m₁.kernel.client.space u = m₂.kernel.client.space u ∧
    m₁.kernel.client.pid u = m₂.kernel.client.pid u ∧ m₁.id u = m₂.id u ∧
    m₁.initialArg u = m₂.initialArg u ∧
    m₁.numPages (m₁.kernel.client.space u) = m₂.numPages (m₂.kernel.client.space u) ∧
    (m₁.kernel.client.space u = m₁.kernel.client.space t →
      ∀ r, m₁.userRegisters u r = m₂.userRegisters u r)

instance (m₁ m₂ : System) (t : ThreadId) : Decidable (OthersDiffer m₁ m₂ t) :=
  inferInstanceAs (Decidable (_ ∧ _ ∧ _ ∧ _))

/-- The thread that makes the step is of another process than this one. -/
def OtherProcess (t : ThreadId) (m : System) (_ : Environment) : Prop :=
  m.currentSpace ≠ m.kernel.client.space t

instance (t : ThreadId) (m : System) (env : Environment) : Decidable (OtherProcess t m env) :=
  inferInstanceAs (Decidable (_ ≠ _))

/-- A program that calls `Exec`, `Fork` and `Yield`. -/
def forker : Executable :=
  -- `addiu r2, r0, n` and `syscall`, three times
  program [0x24020002, 0xc, 0x24020009, 0xc, 0x2402000a, 0xc] 0

/-- A program that calls `Rand`, keeps the result in `r8` and calls `Yield`. -/
def keeper : Executable :=
  -- `addiu r2, r0, 21`, `syscall`, `addu r8, r2, r0`, `addiu r2, r0, 10`, `syscall`
  program [0x24020015, 0xc, 0x00404021, 0x2402000a, 0xc] 0

/-- The steps of a run in which `Rand` answers `n`. -/
def keeping (n : Int) (steps : Nat) : List Environment :=
  List.replicate steps { undisturbed keeper with random := n }

/-- What is seen of two runs from one state: the new thread is dispatched in both,
and runs its first instruction with registers that differ. -/
def Leaks (m₁ m₁' m₂ m₂' : System) : Prop :=
  m₁.Dispatched 2 ∧ m₂.Dispatched 2 ∧ OthersDiffer m₁ m₂ 2 ∧ m₁'.Executes 2 ∧ m₂'.Executes 2 ∧
    m₁'.cpu.registers 8 ≠ m₂'.cpu.registers 8

instance (m₁ m₁' m₂ m₂' : System) : Decidable (Leaks m₁ m₁' m₂ m₂') :=
  inferInstanceAs (Decidable (_ ∧ _ ∧ _ ∧ _ ∧ _ ∧ _))

theorem exists_leak :
    ∃ u m₁ m₁' m₂ m₂' : System, u.Reachable ∧ 2 < u.kernel.threadCount ∧
      Run (OtherProcess 2) u m₁ ∧ Run (OtherProcess 2) u m₂ ∧
      Run (fun u _ => ¬ u.Executes 2) m₁ m₁' ∧ Run (fun u _ => ¬ u.Executes 2) m₂ m₂' ∧
      Leaks m₁ m₁' m₂ m₂' := by
  let others : System → Environment → Bool := fun u env => decide (OtherProcess 2 u env)
  let quiet : System → Environment → Bool := fun u _ => !decide (u.Executes 2)
  have hreplay : (replay step (fun _ _ => true) (List.replicate 30 (undisturbed forker) ++
      keeping 0 50) (boot fun _ => 0)).any (fun u =>
        (replay step others (keeping 0 12) u).any fun m₁ =>
        (replay step quiet (keeping 0 4) m₁).any fun m₁' =>
        (replay step others (keeping 5 12) u).any fun m₂ =>
        (replay step quiet (keeping 5 4) m₂).any fun m₂' =>
          decide (2 < u.kernel.threadCount ∧ Leaks m₁ m₁' m₂ m₂')) = true := by
    decide +kernel
  obtain ⟨u, hu, hreplay⟩ := (Option.any_eq_true _ _).mp hreplay
  obtain ⟨m₁, hm₁, hreplay⟩ := (Option.any_eq_true _ _).mp hreplay
  obtain ⟨m₁', hm₁', hreplay⟩ := (Option.any_eq_true _ _).mp hreplay
  obtain ⟨m₂, hm₂, hreplay⟩ := (Option.any_eq_true _ _).mp hreplay
  obtain ⟨m₂', hm₂', hreplay⟩ := (Option.any_eq_true _ _).mp hreplay
  have hothers : ∀ v env, others v env = true → OtherProcess 2 v env :=
    fun v env h => of_decide_eq_true h
  have hquiet : ∀ v env, quiet v env = true → ¬ v.Executes 2 := fun v env h => by
    simpa [quiet] using h
  obtain ⟨hborn, hleaks⟩ := of_decide_eq_true hreplay
  exact ⟨u, m₁, m₁', m₂, m₂', ⟨_, reach_of_replay (fun _ _ _ => trivial) _ hu⟩, hborn,
    reach_of_replay hothers _ hm₁, reach_of_replay hothers _ hm₂,
    reach_of_replay hquiet _ hm₁', reach_of_replay hquiet _ hm₂', hleaks⟩

/-- Two runs part after a `Fork_Syscall`, in steps of a thread of another process:
what that thread has in its registers shows up in those of the new thread. -/
theorem forked_registers_leak :
    ¬ ∀ (u m₁ m₁' m₂ m₂' : System) (t : ThreadId), u.Reachable → t < u.kernel.threadCount →
      Run (OtherProcess t) u m₁ → Run (OtherProcess t) u m₂ → m₁.Dispatched t →
      m₂.Dispatched t → OthersDiffer m₁ m₂ t →
      Run (fun u _ => ¬ u.Executes t) m₁ m₁' → m₁'.Executes t →
      Run (fun u _ => ¬ u.Executes t) m₂ m₂' → m₂'.Executes t →
      m₁'.cpu.registers = m₂'.cpu.registers := by
  intro hclaim
  obtain ⟨u, m₁, m₁', m₂, m₂', hreach, hborn, hrun₁, hrun₂, hquiet₁, hquiet₂, hfirst₁, hfirst₂,
    hothers, hnext₁, hnext₂, hne⟩ := exists_leak
  have hregs := hclaim u m₁ m₁' m₂ m₂' 2 hreach hborn hrun₁ hrun₂ hfirst₁ hfirst₂ hothers
    hquiet₁ hnext₁ hquiet₂ hnext₂
  exact hne (congrFun hregs 8)

/-- The two runs start the new thread with different registers, because the
registers they find differ. -/
theorem forked_registers_iff_rand :
    ∃ m₁ m₂ : System, m₁.Reachable ∧ m₂.Reachable ∧ m₁.Dispatched 2 ∧ m₂.Dispatched 2 ∧
      SameFork m₁ m₂ 2 ∧ ¬ ∀ r, Leftover r → m₁.cpu.registers r = m₂.cpu.registers r := by
  obtain ⟨u, m₁, m₁', m₂, m₂', hreach, -, hrun₁, hrun₂, hquiet₁, hquiet₂, hfirst₁, hfirst₂,
    hothers, hnext₁, hnext₂, hne⟩ := exists_leak
  have hreach₁ := hreach.run hrun₁
  have hreach₂ := hreach.run hrun₂
  have hlt : 2 < m₁.kernel.threadCount := by
    have hlt := hreach₁.orderly.wellFormed.current_lt
    rwa [show m₁.kernel.currentThread = 2 from hfirst₁.1] at hlt
  obtain ⟨-, -, -, hsame⟩ := hothers
  obtain ⟨-, -, -, -, harg, hpages, -⟩ := hsame 2 hlt
  have hfork : SameFork m₁ m₂ 2 := ⟨harg, hpages⟩
  refine ⟨m₁, m₂, hreach₁, hreach₂, hfirst₁, hfirst₂, hfork, fun hleft => hne ?_⟩
  have hregs := (forked_registers_iff hreach₁ hreach₂ hfirst₁ hfirst₂ hfork hquiet₁ hnext₁
    hquiet₂ hnext₂).mpr hleft
  rw [hregs]

end Forked

end System

end Userprog
end Nachos
