import Nachos.Machine.DelayedLoads
import Nachos.Userprog.System

/-!
# What one step of the system can do

Every step of the system is one of the kernel, so its runs are runs of
`userClient` and what is known about these is known here.  `Effect` lists, for
every program point, what its code does beyond that, and every later invariant
of the system is derived from it.
-/

namespace Nachos
namespace Userprog

open Threads Lib

namespace System

section Work

variable {m m' : System} {env : Environment}

@[simp] theorem schedule_kernel (m : System) (frame : Frame UserFrame) :
    (m.schedule frame).kernel = m.kernel := by
  cases frame with
  | call op =>
      cases op with
      | threadYield =>
          simp only [schedule, schedule.save]
          repeat' split
          all_goals rfl
      | _ => rfl
  | sleepLoop =>
      simp only [schedule, schedule.save]
      repeat' split
      all_goals rfl
  | afterSwitch =>
      simp only [schedule]
      split
      · rfl
      · rfl
  | _ => rfl

/-- Code that changes registers only changes registers only. -/
theorem install_registers (m : System) (registers : Registers) :
    m.install { m.machine with registers := registers } = m.setRegisters registers := by
  have htable : m.setPageTable m.machine.pageTable = m.addrSpace := by
    simp only [setPageTable, machine]
    cases hspace : m.cpu.pageTable with
    | none => rfl
    | some space =>
        cases hloaded : m.addrSpace space with
        | none => simp [hloaded]
        | some loaded =>
            simp only [Option.bind_some, hloaded, Option.map_some]
            exact Function.update_eq_self_iff.mpr hloaded.symm
  simp only [install, htable, setRegisters]
  rfl

/-- What the handlers of interrupts leave in the registers. -/
structure Flushed (interrupts : List Interrupt) (registers registers' : Registers) : Prop where
  settled : interrupts ≠ [] → Settled registers'
  same : Settled registers ∨ interrupts = [] → registers' = registers

theorem flush_ok {interrupts : List Interrupt} {w : System}
    (h : m.flush interrupts = .ok w) :
    ∃ registers, w = m.setRegisters registers ∧
      Flushed interrupts m.cpu.registers registers := by
  induction interrupts generalizing m with
  | nil =>
      rw [flush, Except.ok.injEq] at h
      exact ⟨m.cpu.registers, h.symm, fun hne => absurd rfl hne, fun _ => rfl⟩
  | cons i interrupts ih =>
      rw [flush] at h
      split at h
      · rename_i u machine hload
        obtain ⟨hsettled, hsame, hmachine⟩ := Machine.delayedLoad_settled hload
        rw [hmachine, install_registers] at h
        obtain ⟨registers, rfl, hrest⟩ := ih h
        have hlater : registers = machine.registers := hrest.same (Or.inl hsettled)
        refine ⟨registers, rfl, fun _ => hlater ▸ hsettled, ?_⟩
        rintro (hbefore | hnil)
        · exact hlater.trans (hsame hbefore)
        · exact absurd hnil (by simp)
      · exact absurd h (by simp)

/-- What `copyin` and `copyout` leave behind. -/
structure Copied (machine machine' : Machine) (pointerOk : Bool) : Prop where
  confined : Machine.Confined machine machine'
  registers : pointerOk = true → machine'.registers = machine.registers
  settled : pointerOk = false → Settled machine'.registers

/-- Code that only accesses memory. -/
structure Copies {A : Type} (code : Machine.Code A) : Prop where
  confined : Ends (fun machine _ machine' => Machine.Confined machine machine') code
  registers : Ends (fun machine trap machine' =>
    trap = none → machine'.registers = machine.registers) code
  settled : Ends (fun _ trap machine' =>
    ∀ which, trap = some (.exception which) → Settled machine'.registers) code

theorem Copies.pure {A : Type} (a : A) : Copies (pure a : Machine.Code A) where
  confined := Machine.confined_rule.pure a
  registers := fun _ _ => rfl
  settled := Machine.settled_rule.pure a

theorem Copies.bind {A B : Type} {x : Machine.Code A} {f : A → Machine.Code B}
    (hx : Copies x) (hf : ∀ a, Copies (f a)) : Copies (x >>= f) where
  confined := Machine.confined_rule.bind hx.confined fun a => (hf a).confined
  registers := by
    refine Ends.bind ?_ hx.registers fun a => (hf a).registers
    exact fun _ _ _ _ hfirst hsecond htrap => (hsecond htrap).trans (hfirst rfl)
  settled := Machine.settled_rule.bind hx.settled fun a => (hf a).settled

theorem Copies.of_access {A : Type} {x : Machine.Code A} {addr : Word}
    (hx : ∀ machine, Machine.Access x addr machine) : Copies x where
  confined := Machine.confined_rule.access hx
  registers := by
    intro machine htrap
    rcases hx machine with ⟨value, machine', hok, hdone⟩ | ⟨which, hraise⟩ | ⟨trap, hfail, -, -⟩
    · rw [hok]
      exact hdone.registers
    · obtain ⟨noted, -, ⟨machine', -, heq⟩ | ⟨-, heq⟩⟩ :=
        Machine.raiseException_cases (A := A) which addr machine
      · simp [hraise, heq] at htrap
      · simp [hraise, heq] at htrap
    · simp [hfail] at htrap
  settled := Machine.settled_rule.access hx

theorem copyin_copies (len : Nat) (vaddr : Word) : Copies (copyin len vaddr) := by
  induction len generalizing vaddr with
  | zero => exact Copies.pure _
  | succ len ih =>
      refine Copies.bind (.of_access fun machine =>
        Machine.readMem_access machine vaddr (Or.inl rfl)) fun value => ?_
      exact Copies.bind (ih _) fun _ => Copies.pure _

theorem copyout_copies (buf : Nat → Byte) (len n : Nat) (vaddr : Word) :
    Copies (copyout buf len n vaddr) := by
  induction len generalizing n vaddr with
  | zero => exact Copies.pure _
  | succ len ih =>
      refine Copies.bind (.of_access fun machine =>
        Machine.writeMem_access machine vaddr _ (Or.inl rfl)) fun _ => ?_
      exact ih _ _

/-- Copying ends in a good pointer or in a bad one. -/
theorem copy_ok {A : Type} {code : Machine.Code A} {value : Int} {w : System} {input : Input}
    (h : m.copy env code value = .ok (w, input)) (hcode : Copies code) :
    ∃ machine pointerOk value', w = m.install machine ∧
      input = { noInput env with pointerOk := pointerOk, value := value' } ∧
      Copied m.machine machine pointerOk := by
  have hconfined := hcode.confined m.machine
  have hregisters := hcode.registers m.machine
  have hsettled := hcode.settled m.machine
  unfold copy at h
  simp only at h
  split at h
  · rename_i a machine hrun
    rw [hrun] at hconfined hregisters
    simp only [Except.ok.injEq, Prod.mk.injEq] at h
    obtain ⟨rfl, rfl⟩ := h
    exact ⟨machine, true, value, rfl, rfl, hconfined, fun _ => hregisters rfl,
      fun hfalse => absurd hfalse (by simp)⟩
  · rename_i which machine hrun
    rw [hrun] at hconfined hsettled
    simp only [Except.ok.injEq, Prod.mk.injEq] at h
    obtain ⟨rfl, rfl⟩ := h
    exact ⟨machine, false, env.random, rfl, rfl, hconfined,
      fun htrue => absurd htrue (by simp), fun _ => hsettled _ rfl⟩
  · exact absurd h (by simp)

/-- How `OneInstruction` ends, as the kernel sees it. -/
inductive Ended (machine machine' : Machine) : UserEvent → Prop
  | instruction (h : Machine.oneInstruction machine = .ok () machine') :
      Ended machine machine' .instruction
  | syscall (h : Machine.oneInstruction machine =
        .error (.exception .syscallException) machine') :
      Ended machine machine' (.syscall (syscallOf machine'.registers))
  | exception {which : ExceptionType} (hwhich : which ≠ .syscallException)
      (h : Machine.oneInstruction machine = .error (.exception which) machine') :
      Ended machine machine' .exception

theorem Ended.endState {machine machine' : Machine} {event : UserEvent}
    (h : Ended machine machine' event) :
    Lib.endState (Machine.oneInstruction machine) = machine' := by
  cases h with
  | instruction h => rw [h]; rfl
  | syscall h => rw [h]; rfl
  | exception _ h => rw [h]; rfl

theorem Ended.confined {machine machine' : Machine} {event : UserEvent}
    (h : Ended machine machine' event) : Machine.Confined machine machine' := by
  have hend := Machine.confined_rule.oneInstruction machine
  rwa [h.endState] at hend

theorem Ended.loadBounded {machine machine' : Machine} {event : UserEvent}
    (h : Ended machine machine' event) (hbound : machine.LoadBounded) :
    machine'.LoadBounded := by
  have hend := Machine.loadBounded_rule.oneInstruction machine hbound
  rwa [h.endState] at hend

/-- The kernel sees settled registers only. -/
theorem Ended.settled {machine machine' : Machine} {event : UserEvent}
    (h : Ended machine machine' event) (hevent : event ≠ .instruction) :
    Settled machine'.registers := by
  have hend := Machine.settled_rule.oneInstruction machine
  cases h with
  | instruction _ => exact absurd rfl hevent
  | syscall h =>
      rw [h] at hend
      exact hend _ rfl
  | exception _ h =>
      rw [h] at hend
      exact hend _ rfl

theorem runInstruction_ok {w : System} {input : Input}
    (h : m.runInstruction env = .ok (w, input)) :
    ∃ machine event, w = m.install machine ∧
      input = { noInput env with event := event } ∧ Ended m.machine machine event := by
  unfold runInstruction at h
  simp only at h
  split at h
  · rename_i u machine hrun
    simp only [Except.ok.injEq, Prod.mk.injEq] at h
    obtain ⟨rfl, rfl⟩ := h
    exact ⟨machine, _, rfl, rfl, .instruction hrun⟩
  · rename_i machine hrun
    simp only [Except.ok.injEq, Prod.mk.injEq] at h
    obtain ⟨rfl, rfl⟩ := h
    exact ⟨machine, _, rfl, rfl, .syscall hrun⟩
  · rename_i which machine hnot hrun
    simp only [Except.ok.injEq, Prod.mk.injEq] at h
    obtain ⟨rfl, rfl⟩ := h
    refine ⟨machine, _, rfl, rfl, .exception ?_ hrun⟩
    rintro rfl
    exact hnot rfl
  · exact absurd h (by simp)

/-- The program points whose code touches neither the machine nor the data that
`Userland` leaves out. -/
def Quiet (m : System) : Frame UserFrame → Prop
  | .client k =>
      match k with
      | .oneInstruction | .exceptionHandler _ | .sysReturn _ | .printfBody | .closeBody _
      | .spaceDone _ _ | .processStore _ _ .startProcess | .execFork _ _ | .newProcess
      | .kernelRun => False
      | .openStore i => i = -1
      | .forkBody =>
          m.kernel.client.processTable.get (m.kernel.client.pid m.current) = none
      | _ => True
  | .oneTick => False
  | .sleepLoop => m.kernel.readyList ≠ []
  | .call (.lockRelease l) => ¬ (l = syscallLock ∧ m.atForkEnd)
  | _ => True

/-- The parameters `ExceptionHandler` passes to a system call. -/
def argumentsOf (registers : Registers) : Arguments :=
  ⟨registers 4, registers 5, registers 6, registers 7⟩

/-- A system call that copies in its buffer first of all halts the machine on a bad
pointer. -/
def HaltsOnBadPointer (s : UserKernel) (call : Syscall) : Prop :=
  ∀ input state rs, input.pointerOk = false → exceptionHandler input s call = .ok (state, rs) →
    rs = [.halt]

/-- What the code at a program point does to the machine and to the data that
`Userland` leaves out, with the input it takes. -/
inductive Effect (m : System) (env : Environment) : Frame UserFrame → System → Input → Prop
  | quiet {frame : Frame UserFrame} (hquiet : m.Quiet frame) :
      Effect m env frame m (noInput env)
  | instruction {machine : Machine} {event : UserEvent} (hended : Ended m.machine machine event) :
      Effect m env (.client .oneInstruction) (m.install machine)
        { noInput env with event := event }
  | entered {call : Syscall} {machine : Machine} {pointerOk : Bool} {value : Int}
      {arguments : ThreadId → Arguments} {found : ThreadId → FileId} {nextFile : FileId}
      (harguments : arguments =
        Function.update m.arguments m.current (argumentsOf m.cpu.registers))
      (hfound : call ≠ .openFile ∧ found = m.found ∧ nextFile = m.nextFile ∨
        call = .openFile ∧ found = Function.update m.found m.current m.nextFile ∧
          nextFile = m.nextFile + 1)
      (hcopied : Copied m.machine machine pointerOk)
      (hbad : pointerOk = false → HaltsOnBadPointer m.kernel.pop call) :
      Effect m env (.client (.exceptionHandler call))
        ({ m with arguments := arguments, found := found, nextFile := nextFile }.install machine)
        { noInput env with pointerOk := pointerOk, value := value }
  | returned (rv : Int) :
      Effect m env (.client (.sysReturn rv))
        (m.setRegisters (returnRegisters rv m.cpu.registers)) (noInput env)
  | printed {machine : Machine} {pointerOk : Bool} {value : Int}
      (hcopied : Copied m.machine machine pointerOk) :
      Effect m env (.client .printfBody) (m.install machine)
        { noInput env with pointerOk := pointerOk, value := value }
  | flushed {frame : Frame UserFrame} {registers : Registers}
      (hframe : frame = .oneTick ∨ frame = .sleepLoop ∧ m.kernel.readyList = [])
      (hflushed : Flushed env.interrupts m.cpu.registers registers) :
      Effect m env frame (m.setRegisters registers) (noInput env)
  | stored {i : Int} (hi : i ≠ -1) :
      Effect m env (.client (.openStore i))
        { m with
          file := Function.update m.file m.currentSpace
            (Function.update (m.file m.currentSpace) i (m.found m.current))
          opened := Function.update m.opened m.currentSpace
            (Function.update (m.opened m.currentSpace) i (some (m.found m.current))) }
        (noInput env)
  | closed (fd : Int) :
      Effect m env (.client (.closeBody fd))
        { m with
          opened := Function.update m.opened m.currentSpace
            (Function.update (m.opened m.currentSpace) fd none) }
        (noInput env)
  | loaded {space : SpaceId} {use : SpaceUse} {built : AddrSpace} {memMap : BitMap}
      {mainMemory : Memory} (hload : AddrSpace.load env.executable env.garbage m.memMap
        m.mainMemory = .ok (built, memMap, mainMemory)) :
      Effect m env (.client (.spaceDone space use))
        { m with
          memMap := memMap
          mainMemory := mainMemory
          addrSpace := Function.update m.addrSpace space (some built)
          hasSpace := match use with
            | .exec => m.hasSpace
            | .startProcess => Function.update m.hasSpace m.current true }
        (noInput env)
  | started {frame : Frame UserFrame} {space : SpaceId}
      (hframe : (∃ i, frame = .client (.processStore space i .startProcess)) ∨
        frame = .client .newProcess ∧ space = m.currentSpace) :
      Effect m env frame (m.startProgram space) (noInput env)
  | ranForked :
      Effect m env (.client .kernelRun)
        (m.start m.currentSpace (kernelRunRegisters (m.initialArg m.current)
          (m.numPages m.currentSpace) m.cpu.registers)) (noInput env)
  | execForked {space : SpaceId} {processID : Int} :
      Effect m env (.client (.execFork space processID)) (m.newThread 1 0 false) (noInput env)
  | forked {p : Process} (hp : m.kernel.client.processTable.get
        (m.kernel.client.pid m.current) = some p) :
      Effect m env (.client .forkBody)
        (m.newThread (p.inactiveThreadCount + (p.activeThreadCount + 1))
          (m.arguments m.current).r4 true) (noInput env)
  | released (hend : m.atForkEnd) :
      Effect m env (.call (.lockRelease syscallLock)) (m.restoreState m.currentSpace)
        (noInput env)

theorem withBuffer_bad {input : Input} {s : UserKernel} {answer : Answer} {state : Userland}
    {rs : List (Request UserFrame)} (hfalse : input.pointerOk = false)
    (h : withBuffer input s answer = .ok (state, rs)) : rs = [.halt] := by
  unfold withBuffer at h
  rw [hfalse] at h
  split at h
  · exact answer_ok h
  · exact absurd h (by simp)

/-- The parameters of a system call are passed and the buffer is copied. -/
theorem enterSyscall_ok {call : Syscall} {w : System} {input : Input}
    (h : m.enterSyscall env call = .ok (w, input)) :
    Effect m env (.client (.exceptionHandler call)) w input := by
  have hplain : ∀ {call : Syscall} {w : System} {input : Input}, call ≠ .openFile →
      ({ m with
        arguments := Function.update m.arguments m.current (argumentsOf m.cpu.registers) },
        noInput env) = (w, input) →
      Effect m env (.client (.exceptionHandler call)) w input := by
    intro call w input hcall h
    obtain ⟨rfl, rfl⟩ := Prod.mk.inj h
    have hentered := @Effect.entered m env call m.machine true env.random _ _ _ rfl
      (Or.inl ⟨hcall, rfl, rfl⟩)
      ⟨Machine.Confined.refl _, fun _ => rfl, fun hfalse => absurd hfalse (by simp)⟩
      (fun hfalse => absurd hfalse (by simp))
    have hsame : install { m with
        arguments := Function.update m.arguments m.current (argumentsOf m.cpu.registers) }
        m.machine = { m with
        arguments := Function.update m.arguments m.current (argumentsOf m.cpu.registers) } :=
      install_registers _ m.cpu.registers
    rw [hsame] at hentered
    exact hentered
  have hcopy : ∀ {A : Type} {code : Machine.Code A} {value : Int} {call : Syscall} {w : System}
      {input : Input} {found : ThreadId → FileId} {nextFile : FileId}, Copies code →
      (call ≠ .openFile ∧ found = m.found ∧ nextFile = m.nextFile ∨
        call = .openFile ∧ found = Function.update m.found m.current m.nextFile ∧
          nextFile = m.nextFile + 1) →
      HaltsOnBadPointer m.kernel.pop call →
      copy { m with
        arguments := Function.update m.arguments m.current (argumentsOf m.cpu.registers)
        found := found
        nextFile := nextFile } env code value = .ok (w, input) →
      Effect m env (.client (.exceptionHandler call)) w input := by
    intro A code value call w input found nextFile hcode hfound hbad h
    obtain ⟨machine, pointerOk, value', rfl, rfl, hcopied⟩ := copy_ok h hcode
    exact .entered rfl hfound hcopied fun _ => hbad
  unfold enterSyscall at h
  cases call with
  | create =>
      exact hcopy (copyin_copies _ _) (Or.inl ⟨by simp, rfl, rfl⟩)
        (fun _ _ _ => withBuffer_bad) h
  | openFile =>
      exact hcopy (copyin_copies _ _) (Or.inr ⟨rfl, rfl, rfl⟩) (fun _ _ _ => withBuffer_bad) h
  | write id =>
      simp only at h
      split at h
      · exact hplain (by simp) (Except.ok.inj h)
      · rename_i hid
        refine hcopy (copyin_copies _ _) (Or.inl ⟨by simp, rfl, rfl⟩) ?_ h
        intro input state rs hfalse hcall
        simp only [exceptionHandler, writeSyscall, if_neg hid] at hcall
        exact withBuffer_bad hfalse hcall
  | read id =>
      simp only at h
      split at h
      · exact hplain (by simp) (Except.ok.inj h)
      · rename_i hid
        split at h
        · rename_i hzero
          refine hcopy (copyout_copies _ _ _ _) (Or.inl ⟨by simp, rfl, rfl⟩) ?_ h
          intro input state rs hfalse hcall
          simp only [exceptionHandler, readSyscall, if_neg hid, if_pos hzero] at hcall
          exact withBuffer_bad hfalse hcall
        · rename_i hzero
          split at h
          · exact hplain (by simp) (Except.ok.inj h)
          · rename_i f hget
            refine hcopy (copyout_copies _ _ _ _) (Or.inl ⟨by simp, rfl, rfl⟩) ?_ h
            intro input state rs hfalse hcall
            have hget' : (currentFileTable m.kernel.pop).get id = some f := hget
            simp only [exceptionHandler, readSyscall, if_neg hid, if_neg hzero, hget'] at hcall
            exact withBuffer_bad hfalse hcall
  | exec =>
      exact hcopy (copyin_copies _ _) (Or.inl ⟨by simp, rfl, rfl⟩)
        (fun _ _ _ => withBuffer_bad) h
  | _ => exact hplain (by simp) (Except.ok.inj h)

/-- What the code at every program point does. -/
theorem work_effect {frame : Frame UserFrame} {w : System} {input : Input}
    (h : m.work env frame = .ok (w, input)) : Effect m env frame w input := by
  have hquiet : m.Quiet frame → (m, noInput env) = (w, input) → Effect m env frame w input := by
    intro hquiet heq
    obtain ⟨rfl, rfl⟩ := Prod.mk.inj heq
    exact .quiet hquiet
  cases frame with
  | client k =>
      cases k with
      | oneInstruction =>
          obtain ⟨machine, event, rfl, rfl, hended⟩ := runInstruction_ok h
          exact .instruction hended
      | exceptionHandler call => exact enterSyscall_ok h
      | sysReturn rv =>
          obtain ⟨rfl, rfl⟩ := Prod.mk.inj (Except.ok.inj h)
          exact .returned rv
      | printfBody =>
          obtain ⟨machine, pointerOk, value, rfl, rfl, hcopied⟩ := copy_ok h (copyin_copies _ _)
          exact .printed hcopied
      | openStore i =>
          simp only [work, clientWork] at h
          split at h
          · rename_i hi
            exact hquiet hi (Except.ok.inj h)
          · rename_i hi
            obtain ⟨rfl, rfl⟩ := Prod.mk.inj (Except.ok.inj h)
            exact .stored hi
      | closeBody fd =>
          obtain ⟨rfl, rfl⟩ := Prod.mk.inj (Except.ok.inj h)
          exact .closed fd
      | spaceDone space use =>
          simp only [work, clientWork, loadSpace] at h
          split at h
          · exact absurd h (by simp)
          · rename_i built memMap mainMemory hload
            obtain ⟨rfl, rfl⟩ := Prod.mk.inj (Except.ok.inj h)
            exact .loaded hload
      | processStore space i use =>
          cases use with
          | exec => exact hquiet trivial (Except.ok.inj h)
          | startProcess =>
              obtain ⟨rfl, rfl⟩ := Prod.mk.inj (Except.ok.inj h)
              exact .started (Or.inl ⟨i, rfl⟩)
      | execFork space processID =>
          obtain ⟨rfl, rfl⟩ := Prod.mk.inj (Except.ok.inj h)
          exact .execForked
      | forkBody =>
          simp only [work, clientWork] at h
          split at h
          · rename_i hnone
            exact hquiet hnone (Except.ok.inj h)
          · rename_i p hp
            obtain ⟨rfl, rfl⟩ := Prod.mk.inj (Except.ok.inj h)
            exact .forked hp
      | newProcess =>
          obtain ⟨rfl, rfl⟩ := Prod.mk.inj (Except.ok.inj h)
          exact .started (Or.inr ⟨rfl, rfl⟩)
      | kernelRun =>
          obtain ⟨rfl, rfl⟩ := Prod.mk.inj (Except.ok.inj h)
          exact .ranForked
      | _ => exact hquiet trivial (Except.ok.inj h)
  | oneTick =>
      simp only [work] at h
      split at h
      · rename_i flushed hflush
        obtain ⟨rfl, rfl⟩ := Prod.mk.inj (Except.ok.inj h)
        obtain ⟨registers, rfl, hflushed⟩ := flush_ok hflush
        exact .flushed (Or.inl rfl) hflushed
      · exact absurd h (by simp)
  | sleepLoop =>
      simp only [work] at h
      split at h
      · rename_i hready
        split at h
        · rename_i flushed hflush
          obtain ⟨rfl, rfl⟩ := Prod.mk.inj (Except.ok.inj h)
          obtain ⟨registers, rfl, hflushed⟩ := flush_ok hflush
          exact .flushed (Or.inr ⟨rfl, hready⟩) hflushed
        · exact absurd h (by simp)
      · rename_i hready
        exact hquiet hready (Except.ok.inj h)
  | call op =>
      cases op with
      | lockRelease l =>
          simp only [work] at h
          split at h
          · rename_i hend
            obtain ⟨rfl, rfl⟩ := Prod.mk.inj (Except.ok.inj h)
            obtain ⟨rfl, hend⟩ := hend
            exact .released hend
          · rename_i hend
            exact hquiet hend (Except.ok.inj h)
      | _ => exact hquiet trivial (Except.ok.inj h)
  | _ => exact hquiet trivial (Except.ok.inj h)

/-- The kernel is not touched before its own step. -/
theorem Effect.kernel {frame : Frame UserFrame} {w : System} {input : Input}
    (h : Effect m env frame w input) : w.kernel = m.kernel := by
  cases h with
  | @started frame space hframe =>
      unfold startProgram
      split
      · rfl
      · rfl
  | _ => rfl

end Work

section Steps

variable {m m' : System} {env : Environment}

/-- What one step of the system does: the registers change hands as
`Scheduler::Run` has it, the code at the program point does its work, and the
kernel makes its own step. -/
structure StepAt (m m' w : System) (env : Environment) (input : Input)
    (frame : Frame UserFrame) (rest gs : List (Frame UserFrame)) : Prop where
  effect : Effect (m.schedule frame) env frame w input
  kernel : Kernel.StepAt userClient ⟨env.interrupts, env.nextPending, input⟩ m.kernel m'.kernel
    frame rest gs
  after : m' = { w with kernel := m'.kernel }

/-- A step of the system makes a step of the kernel. -/
theorem step_kernel (h : m.step env = .ok m') :
    ∃ frame w input, m.kernel.top = some frame ∧ Effect (m.schedule frame) env frame w input ∧
      m.kernel.step userClient ⟨env.interrupts, env.nextPending, input⟩ = .ok m'.kernel ∧
      m' = { w with kernel := m'.kernel } := by
  unfold step at h
  split at h
  · exact absurd h (by simp)
  · rename_i frame htop
    split at h
    · rename_i w input hwork
      have heffect := work_effect hwork
      have hkernel : w.kernel = m.kernel := heffect.kernel.trans (schedule_kernel m frame)
      unfold kernelStep at h
      split at h
      · rename_i kernel hstep
        obtain rfl := Except.ok.inj h
        exact ⟨frame, w, input, htop, heffect, hkernel ▸ hstep, rfl⟩
      · exact absurd h (by simp)
    · exact absurd h (by simp)

theorem step_at (hwf : m.kernel.WellFormed) (h : m.step env = .ok m') :
    ∃ w input frame rest gs, StepAt m m' w env input frame rest gs := by
  obtain ⟨frame, w, input, htop, heffect, hstep, hafter⟩ := step_kernel h
  obtain ⟨frame', rest, gs, hat⟩ := hwf.step_at hstep
  obtain rfl : frame' = frame := Option.some.inj (hat.top.symm.trans htop)
  exact ⟨w, input, frame', rest, gs, heffect, hat, hafter⟩

/-- Every run of the system is one of its kernel. -/
theorem Run.kernel {guard : System → Environment → Prop} (hrun : Run guard m m') :
    Kernel.Run userClient (fun _ _ => True) m.kernel m'.kernel := by
  induction hrun with
  | refl => exact .refl
  | tail _ _ hstep ih =>
      obtain ⟨_, _, _, _, _, hkernel, _⟩ := step_kernel hstep
      exact ih.tail trivial hkernel

/-- The invariant rule for runs of the system, with what is known about its
kernel and about every step. -/
theorem Run.stepAt_invariant {P : System → Prop} {guard : System → Environment → Prop}
    (hrun : Run guard m m') (hm : Orderly m.kernel) (hP : P m)
    (hstep : ∀ u v w env input frame rest gs, Orderly u.kernel → Orderly v.kernel → guard u env →
      StepAt u v w env input frame rest gs → P u → P v) : P m' := by
  suffices h : Orderly m'.kernel ∧ P m' from h.2
  refine hrun.invariant (P := fun u => Orderly u.kernel ∧ P u) ?_ ⟨hm, hP⟩
  rintro u v env ⟨hu, hPu⟩ hguard h
  obtain ⟨w, input, frame, rest, gs, hat⟩ := step_at hu.wellFormed h
  obtain ⟨_, _, _, _, _, hkernel, _⟩ := step_kernel h
  have hv : Orderly v.kernel := hu.stepAt (hu.toGrounded.step hkernel) hat.kernel
  exact ⟨hv, hstep u v w env input frame rest gs hu hv hguard hat hPu⟩

theorem Reachable.orderly (h : m.Reachable) : Orderly m.kernel := by
  obtain ⟨pid, hrun⟩ := h
  exact UserReachable.orderly ⟨pid, hrun.kernel⟩

theorem Reachable.run {guard : System → Environment → Prop} (h : m.Reachable)
    (hrun : Run guard m m') : m'.Reachable := by
  obtain ⟨pid, hboot⟩ := h
  exact ⟨pid, hboot.trans (hrun.mono fun _ _ _ => trivial)⟩

end Steps

section Replays

/-- The bytes of an `int`, the high one first. -/
def intBytes (n : Nat) : List Byte :=
  [BitVec.ofNat 8 (n >>> 24), BitVec.ofNat 8 (n >>> 16), BitVec.ofNat 8 (n >>> 8),
    BitVec.ofNat 8 n]

/-- An executable with these instructions as its code, `bss` bytes of data that
are not initialized, and nothing else.  The header is in the order of the host,
the code in that of the simulated machine. -/
def program (code : List Nat) (bss : Nat) : Executable :=
  let header := intBytes 0xbadfad ++ intBytes 0 ++ intBytes noffHeaderSize ++
    intBytes (4 * code.length) ++ intBytes 0 ++ intBytes 0 ++ intBytes 0 ++ intBytes 0 ++
    intBytes 0 ++ intBytes bss
  let bytes := header ++ code.flatMap fun word => (intBytes word).reverse
  ⟨bytes.length, fun i => bytes.getD i 0⟩

/-- A step at which no interrupt is due; the executable is what `Exec` or
`StartProcess` finds. -/
def undisturbed (executable : Executable) : Environment :=
  ⟨[], none, true, true, executable, fun _ => 0, fun _ => 0, 0, 0⟩

/-- The end of a run from boot, found by replaying what the environment does. -/
theorem exists_run {P : System → Prop} [DecidablePred P] (guard : System → Environment → Bool)
    (pid : ThreadId → Int) (environments : List Environment)
    (h : (replay step guard environments (boot pid)).any (fun m => decide (P m)) = true) :
    ∃ m, Run (fun u env => guard u env = true) (boot pid) m ∧ P m :=
  exists_reach_of_replay (fun _ _ hguard => hguard) h

theorem exists_reachable {P : System → Prop} [DecidablePred P]
    (pid : ThreadId → Int) (environments : List Environment)
    (h : (replay step (fun _ _ => true) environments (boot pid)).any
      (fun m => decide (P m)) = true) : ∃ m, Reachable m ∧ P m := by
  obtain ⟨m, hrun, hm⟩ := exists_reach_of_replay (fun _ _ _ => trivial) h
  exact ⟨m, ⟨pid, hrun⟩, hm⟩

/-- A state of a run from boot and a later one. -/
theorem exists_reachable_run {P : System → System → Prop} [∀ m m', Decidable (P m m')]
    (guard : System → Environment → Bool) (pid : ThreadId → Int)
    (first second : List Environment)
    (h : (replay step (fun _ _ => true) first (boot pid)).any (fun m =>
      (replay step guard second m).any fun m' => decide (P m m')) = true) :
    ∃ m m', Reachable m ∧ Run (fun u env => guard u env = true) m m' ∧ P m m' := by
  obtain ⟨m, hfirst, hm⟩ := (Option.any_eq_true _ _).mp h
  obtain ⟨m', hrun, hP⟩ := exists_reach_of_replay (fun _ _ hguard => hguard) hm
  exact ⟨m, m', ⟨pid, reach_of_replay (fun _ _ _ => trivial) first hfirst⟩, hrun, hP⟩

end Replays

end System

end Userprog
end Nachos
