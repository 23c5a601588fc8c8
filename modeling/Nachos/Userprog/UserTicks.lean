import Nachos.Threads.TickCounters
import Nachos.Userprog.Frames

/-!
# The tick counters of a machine with user programs

The machine runs user threads, with the code of the system calls, beside kernel
threads with any code.  Kernel code calls the operations of the kernel and may call
`StartProcess`; it sets no mode and calls no `OneTick` of its own, as nothing in the
repository does but `Machine::Run` and `Machine::RaiseException`.
-/

namespace Nachos
namespace Userprog

open Threads Lib

variable {κ σ ι : Type}

/-- Code of the machine: of the system calls, or other kernel code. -/
inductive Code (κ : Type)
  | user (frame : UserFrame)
  | kernel (k : κ)
  deriving DecidableEq

/-- What kernel code may ask for. -/
inductive KernelRequest (κ : Type)
  | call (op : Op κ)
  | setLevel (now : IntStatus)
  | halt
  | client (k : κ)
  /-- `StartProcess`. -/
  | startProcess

/-- Rename the code a thread is started with. -/
def opMap {κ' : Type} (f : κ → κ') : Op κ → Op κ'
  | .semaphoreP s => .semaphoreP s
  | .semaphoreV s => .semaphoreV s
  | .lockAcquire l => .lockAcquire l
  | .lockRelease l => .lockRelease l
  | .conditionWait c l => .conditionWait c l
  | .conditionSignal c l => .conditionSignal c l
  | .conditionBroadcast c l => .conditionBroadcast c l
  | .threadFork body => .threadFork (f body)
  | .threadYield => .threadYield
  | .threadFinish => .threadFinish

/-- A request of the system calls, as code of the machine. -/
def userRequest : Request UserFrame → Request (Code κ)
  | .call op => .call (opMap .user op)
  | .setLevel now => .setLevel now
  | .oneTick => .oneTick
  | .setStatus m => .setStatus m
  | .halt => .halt
  | .client frame => .client (.user frame)

/-- A request of kernel code, as code of the machine. -/
def kernelRequest : KernelRequest κ → Request (Code κ)
  | .call op => .call (opMap .kernel op)
  | .setLevel now => .setLevel now
  | .halt => .halt
  | .client k => .client (.kernel k)
  | .startProcess => .client (.user .startProcess)

/-- Kernel code: its own state, and the calls it makes next. -/
abbrev KernelCode (κ σ ι : Type) :=
  ι → κ → Kernel (Code κ) (Userland × σ) → Except Stop (σ × List (KernelRequest κ))

/-- The kernel as the system calls see it.  They look at no stack. -/
def userView (s : Kernel (Code κ) (Userland × σ)) : UserKernel :=
  { s with stack := fun _ => [], client := s.client.1 }

/-- User threads and kernel threads. -/
def mixedClient (code : KernelCode κ σ ι) : Client (Code κ) (Userland × σ) (Input × ι) where
  exec input k s :=
    match k with
    | .user frame =>
        match userExec input.1 frame (userView s) with
        | .ok (state, requests) => .ok ((state, s.client.2), requests.map userRequest)
        | .error stop => .error stop
    | .kernel k =>
        match code input.2 k s with
        | .ok (state, requests) => .ok ((s.client.1, state), requests.map kernelRequest)
        | .error stop => .error stop

/-- The loop of `Machine::Run`. -/
def machineRun : Code κ := .user .oneInstruction

section Loop

variable {input : Input} {s : UserKernel} {state : Userland} {rs : List (Request UserFrame)}

theorem enters_ne_oneInstruction {call : Syscall} {g : LockId} {k : UserFrame}
    (h : call.enters s = some (g, k)) : k ≠ .oneInstruction := by
  rintro rfl
  cases call <;> simp [Syscall.enters] at h

/-- The system calls set the mode and call `OneTick` in the places of `Machine::Run`
and `RaiseException` only. -/
theorem userExec_runsLoop {frame : UserFrame} (h : userExec input frame s = .ok (state, rs)) :
    RunsLoop .oneInstruction frame rs := by
  have hasks := userExec_asks h
  cases frame with
  | oneInstruction =>
      rcases hasks with rfl | rfl | ⟨call, rfl⟩
      · exact .instruction
      · exact .halts
      · exact .raises (by simp)
  | newProcess =>
      obtain rfl := hasks
      exact .run (by simp)
  | kernelRun =>
      obtain rfl := hasks
      exact .run (by simp)
  | processStore space i use =>
      rcases hasks with ⟨-, rfl⟩ | ⟨-, -, rfl⟩ | ⟨-, -, rfl⟩
      · exact .run (by simp)
      · exact .other (by simp) (by simp [Request.IsModeless])
      · exact .other (by simp) (by simp [Request.IsModeless])
  | exceptionHandler call =>
      refine .other (by simp) ?_
      rcases hasks with rfl | ⟨rv, rfl⟩ | rfl | ⟨g, k, henters, rfl⟩
      · simp [Request.IsModeless]
      · simp [Request.IsModeless]
      · simp [Request.IsModeless]
      · simpa [Request.IsModeless] using enters_ne_oneInstruction henters
  | _ =>
      refine .other (by simp) ?_
      simp only [UserFrame.Asks] at hasks
      grind [Request.IsModeless]

/-- What the system calls ask for stays right when they are code of the machine. -/
theorem RunsLoop.user {frame : UserFrame} (h : RunsLoop .oneInstruction frame rs) :
    RunsLoop (machineRun : Code κ) (.user frame) (rs.map userRequest) := by
  have hcode : ∀ k : UserFrame, k ≠ .oneInstruction → (Code.user k : Code κ) ≠ machineRun := by
    intro k hk heq
    exact hk (Code.user.inj heq)
  cases h with
  | run hk => exact .run (hcode _ hk)
  | instruction => exact .instruction
  | raises hhandler => exact .raises (hcode _ hhandler)
  | halts => exact .halts
  | other hk hrs =>
      refine .other (hcode _ hk) ?_
      intro r hr
      obtain ⟨q, hq, rfl⟩ := List.mem_map.mp hr
      have hmodeless := hrs q hq
      cases q with
      | call op =>
          cases op with
          | threadFork body => exact hcode _ hmodeless
          | _ => trivial
      | client k => exact hcode _ hmodeless
      | setLevel now => trivial
      | halt => trivial
      | oneTick => exact hmodeless
      | setStatus m => exact hmodeless

end Loop

theorem kernel_ne_machineRun (k : κ) : Code.kernel k ≠ machineRun := by
  simp [machineRun]

/-- Kernel code asks for nothing that has to do with the mode. -/
theorem kernelRequest_isModeless (r : KernelRequest κ) :
    (kernelRequest r).IsModeless machineRun := by
  cases r with
  | call op =>
      cases op with
      | threadFork body => exact kernel_ne_machineRun body
      | _ => trivial
  | setLevel now => trivial
  | halt => trivial
  | client k => exact kernel_ne_machineRun k
  | startProcess =>
      intro heq
      exact UserFrame.noConfusion (Code.user.inj heq)

theorem mixedClient_runsMachine (code : KernelCode κ σ ι) :
    (mixedClient code).RunsMachine machineRun := by
  intro input k s state rs h
  cases k with
  | user frame =>
      simp only [mixedClient] at h
      split at h
      · rename_i u requests hexec
        simp only [Except.ok.injEq, Prod.mk.injEq] at h
        rw [← h.2]
        exact RunsLoop.user (userExec_runsLoop hexec)
      · exact absurd h (by simp)
  | kernel k =>
      simp only [mixedClient] at h
      split at h
      · rename_i u requests hexec
        simp only [Except.ok.injEq, Prod.mk.injEq] at h
        rw [← h.2]
        refine .other (kernel_ne_machineRun k) fun r hr => ?_
        obtain ⟨q, -, rfl⟩ := List.mem_map.mp hr
        exact kernelRequest_isModeless q
      · exact absurd h (by simp)

/-- In every run of user and kernel threads the total is what was spent idling, in
the system and in user programs, and user programs are charged one tick for every
call of `OneTick` in the loop of `Machine::Run`. -/
theorem ticks_charged [DecidableEq κ] (code : KernelCode κ σ ι)
    {initialValue : SemaphoreId → Int} {state : Userland × σ} {main : κ}
    {m : Metered (Code κ) (Userland × σ)}
    (hrun : Metered.Run (mixedClient code) machineRun
      (Metered.boot initialValue state (.kernel main)) m) : m.Charged :=
  hrun.charged (mixedClient_runsMachine code) (kernel_ne_machineRun main)

/-- Kernel code that makes the calls its input lists. -/
def freeCode : KernelCode Unit Unit (List (KernelRequest Unit)) :=
  fun requests _ _ => .ok ((), requests)

/-- A step in which all goes well and the user program runs one instruction. -/
def plainly (requests : List (KernelRequest Unit)) (interrupts : List Interrupt) :
    Choice (Input × List (KernelRequest Unit)) :=
  ⟨interrupts, none, ⟨.instruction, true, true, true, .constructed, 0⟩, requests⟩

/-- The main thread forks a kernel thread and starts a user program, and a time
slice ends behind the second instruction of the program. -/
theorem ticks_charged_slice :
    ∃ m : Metered (Code Unit) (Userland × Unit),
      Metered.Run (mixedClient freeCode) machineRun
        (Metered.boot (fun _ => 0) (userland fun _ => 0, ()) (.kernel ())) m ∧
      m.kernel.currentThread = 1 ∧ m.loopTicks = 2 ∧ m.kernel.stats.userTicks = 2 := by
  obtain ⟨m, hrun, hcurrent, hticks⟩ :=
    Metered.exists_run (mixedClient freeCode) machineRun
      (P := fun m : Metered (Code Unit) (Userland × Unit) =>
        m.kernel.currentThread = 1 ∧ m.loopTicks = 2)
      (fun _ => 0) (userland fun _ => 0, ()) (.kernel ())
      ([plainly [] [], plainly [] [], plainly [.call (.threadFork ()), .startProcess] []] ++
        List.replicate 23 (plainly [] []) ++ [plainly [] [.timer], plainly [] []])
      (by decide +kernel)
  exact ⟨m, hrun, hcurrent, hticks, (ticks_charged freeCode hrun).user.trans hticks⟩

end Userprog
end Nachos
