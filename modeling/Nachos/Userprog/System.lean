import Nachos.Machine.Mipssim
import Nachos.Userprog.AddrSpace
import Nachos.Userprog.Stacks

/-!
# The machine with its programs

`Userland` leaves to the client's input what the user program does.  Here the
input is computed: the processor fetches and runs the instructions of the
programs that `AddrSpace::AddrSpace` has loaded, system calls take their
arguments from its registers and copy in and out of user memory, and
`Scheduler::Run` saves and restores the registers of the threads.

A step of the `System` is one of the kernel with that input, so every run of it
is a run of `userClient`.  Before the kernel's step, `schedule` does what
`Scheduler::Run` does to the processor and `work` what the code at the program
point does to the processor, to memory and to the data that `Userland` leaves
out.  What is left to the environment is the interrupts, the host's memory and
file system, and the console.

`initialStack`, `forked` and `opened` are ghosts: the stack pointer a thread was
given to start with, whether `Fork_Syscall` made it, and the files a space has
open as the results of `Open_Syscall` and the calls of `Close_Syscall` tell.
-/

namespace Nachos
namespace Userprog

open Threads Lib

abbrev FileId := Nat

/-- The part of `class Machine` that a context switch is about; the page table
is named by the address space it belongs to. -/
structure Cpu where
  registers : Registers
  pageTable : Option SpaceId
  pageTableSize : Nat

/-- The arguments of a system call, in `r4` to `r7`. -/
structure Arguments where
  r4 : Word
  r5 : Word
  r6 : Word
  r7 : Word
  deriving DecidableEq, Repr

/-- The kernel, the machine and the fields of threads and address spaces that
`Userland` leaves out. -/
structure System where
  kernel : UserKernel
  cpu : Cpu
  mainMemory : Memory
  memMap : BitMap
  /-- The address spaces whose construction is complete. -/
  addrSpace : SpaceId → Option AddrSpace
  /-- `space != NULL`. -/
  hasSpace : ThreadId → Bool
  userRegisters : ThreadId → Registers
  /-- `machineState[InitialArgState]`. -/
  initialArg : ThreadId → Word
  /-- The field `id` of a thread. -/
  id : ThreadId → Int
  /-- The parameters of the system call a thread is in. -/
  arguments : ThreadId → Arguments
  /-- The variable `f` of the `Open_Syscall` a thread is in. -/
  found : ThreadId → FileId
  nextFile : FileId
  /-- The file an entry of a file table points to, if it is not null. -/
  file : SpaceId → Int → FileId
  initialStack : ThreadId → Option Word
  forked : ThreadId → Bool
  opened : SpaceId → Int → Option FileId

/-- What the environment decides in a step. -/
structure Environment where
  interrupts : List Interrupt
  nextPending : Option Nat
  memoryOk : Bool
  fileFound : Bool
  executable : Executable
  garbage : Memory
  /-- What `Read` gets from a file or the console, and how much. -/
  buffer : Nat → Byte
  count : Int
  random : Int

/-- The system call in the registers: `r2` has its number. -/
def syscallOf (registers : Registers) : Syscall :=
  let a := (registers 4).toInt
  let b := (registers 5).toInt
  match (registers 2).toInt with
  | 0 => .halt
  | 1 => .exit a
  | 2 => .exec
  | 4 => .create
  | 5 => .openFile
  | 6 => .read (registers 6).toInt
  | 7 => .write (registers 6).toInt
  | 8 => .close a
  | 9 => .fork
  | 10 => .yield
  | 11 => .acquire a
  | 12 => .release a
  | 13 => .wait a b
  | 14 => .signal a b
  | 15 => .broadcast a b
  | 16 => .createLock
  | 17 => .destroyLock a
  | 18 => .createCV
  | 19 => .destroyCV a
  | 20 => .printf
  | 21 => .rand
  | _ => .unknown

/-- `MAXFILENAME`. -/
def maxFileName : Nat := 256

/-- `copyin`, with `len` bytes to go. -/
def copyin : Nat → Word → Machine.Code (List Byte)
  | 0, _ => return []
  | len + 1, vaddr => do
      let value ← Machine.readMem vaddr 1
      return value.setWidth 8 :: (← copyin len (vaddr + 1))

/-- `copyout` at byte `n` of the buffer, with `len` bytes to go. -/
def copyout (buf : Nat → Byte) : Nat → Nat → Word → Machine.Code Unit
  | 0, _, _ => return ()
  | len + 1, n, vaddr => do
      Machine.writeMem vaddr 1 ((buf n).signExtend 32)
      copyout buf len (n + 1) (vaddr + 1)

/-- The end of `ExceptionHandler`: the result and the program counters. -/
def returnRegisters (rv : Int) (registers : Registers) : Registers :=
  let written := Function.update registers 2 (BitVec.ofInt 32 rv)
  let previous := Function.update written prevPCReg (written pcReg)
  let current := Function.update previous pcReg (previous nextPCReg)
  Function.update current nextPCReg (current pcReg + 4)

/-- The registers `kernelRun` writes. -/
def kernelRunRegisters (vaddr : Word) (numPages : Nat) (registers : Registers) : Registers :=
  Function.update (Function.update (Function.update registers pcReg vaddr) nextPCReg (vaddr + 4))
    stackReg (BitVec.ofNat 32 (numPages * pageSize) - 8)

/-- The host gives the process up. -/
def Trap.stop : Trap → Stop
  | .undefined => .outOfBounds
  | _ => .assertFailed

namespace System

/-- `currentThread`. -/
def current (m : System) : ThreadId := m.kernel.currentThread

/-- `currentThread->space`. -/
def currentSpace (m : System) : SpaceId := m.kernel.client.space m.current

/-- `space->getNumPages()`. -/
def numPages (m : System) (space : SpaceId) : Nat :=
  ((m.addrSpace space).map AddrSpace.numPages).getD 0

/-- The machine as its own code sees it. -/
def machine (m : System) : Machine where
  registers := m.cpu.registers
  mainMemory := m.mainMemory
  pageTable := (m.cpu.pageTable.bind m.addrSpace).map AddrSpace.pageTable
  pageTableSize := m.cpu.pageTableSize
  overflowed := false

/-- The page table of the machine is that of an address space. -/
def setPageTable (m : System) (table : Option (List TranslationEntry)) :
    SpaceId → Option AddrSpace :=
  match m.cpu.pageTable, table with
  | some space, some entries =>
      Function.update m.addrSpace space
        ((m.addrSpace space).map fun a => { a with pageTable := entries })
  | _, _ => m.addrSpace

/-- What code of the machine leaves behind. -/
def install (m : System) (machine : Machine) : System :=
  { m with
    cpu := { m.cpu with registers := machine.registers }
    mainMemory := machine.mainMemory
    addrSpace := m.setPageTable machine.pageTable }

/-- `AddrSpace::RestoreState`. -/
def restoreState (m : System) (space : SpaceId) : System :=
  { m with cpu := { m.cpu with
      pageTable := some space
      pageTableSize := m.numPages space } }

/-- Write the registers of the machine. -/
def setRegisters (m : System) (registers : Registers) : System :=
  { m with cpu := { m.cpu with registers := registers } }

/-- The part of `Scheduler::Run` that is under `USER_PROGRAM`: the old thread's
registers are saved before `SWITCH`, the new one's restored behind it. -/
def schedule (m : System) : Frame UserFrame → System
  | .afterSwitch =>
      if m.hasSpace m.current then
        (m.setRegisters (m.userRegisters m.current)).restoreState m.currentSpace
      else m
  | .call .threadYield => if m.kernel.readyList = [] then m else save
  | .sleepLoop => if m.kernel.readyList = [] then m else save
  | _ => m
where
  /-- `SaveUserState`, if the thread is a user program. -/
  save : System :=
    if m.hasSpace m.current then
      { m with
        userRegisters := Function.update m.userRegisters m.current m.cpu.registers }
    else m

/-- The input of a step that needs none. -/
def noInput (env : Environment) : Input :=
  ⟨.instruction, env.memoryOk, true, env.fileFound, .constructed, env.random⟩

/-- `CheckIfDue` finishes a load on its way before it calls a handler. -/
def flush (m : System) : List Interrupt → Except Stop System
  | [] => .ok m
  | _ :: interrupts =>
      match Machine.delayedLoad 0 0 m.machine with
      | .ok _ machine => (m.install machine).flush interrupts
      | .error trap _ => .error (Trap.stop trap)

/-- Copy to or from user memory; a bad pointer raises an exception. -/
def copy {α : Type} (m : System) (env : Environment) (code : Machine.Code α) (value : Int) :
    Except Stop (System × Input) :=
  let input := noInput env
  match code m.machine with
  | .ok _ machine => .ok (m.install machine, { input with value := value })
  | .error (.exception _) machine => .ok (m.install machine, { input with pointerOk := false })
  | .error trap _ => .error (Trap.stop trap)

/-- `OneInstruction`, and `ExceptionHandler` up to its `switch`. -/
def runInstruction (m : System) (env : Environment) : Except Stop (System × Input) :=
  let input := noInput env
  match Machine.oneInstruction m.machine with
  | .ok _ machine => .ok (m.install machine, input)
  | .error (.exception .syscallException) machine =>
      .ok (m.install machine, { input with event := .syscall (syscallOf machine.registers) })
  | .error (.exception _) machine =>
      .ok (m.install machine, { input with event := .exception })
  | .error trap _ => .error (Trap.stop trap)

/-- `int` lengths: nothing is copied for a negative one. -/
def length (len : Word) : Nat := len.toInt.toNat

/-- The `switch` of `ExceptionHandler`: the parameters are passed, and the calls
that take no lock first copy. -/
def enterSyscall (m : System) (env : Environment) (call : Syscall) :
    Except Stop (System × Input) :=
  let regs := m.cpu.registers
  let entered := { m with
    arguments := Function.update m.arguments m.current ⟨regs 4, regs 5, regs 6, regs 7⟩ }
  match call with
  | .create => entered.copy env (copyin (length (regs 5)) (regs 4)) 0
  | .openFile =>
      { entered with
        found := Function.update m.found m.current m.nextFile
        nextFile := m.nextFile + 1 }.copy env (copyin (length (regs 5)) (regs 4)) 0
  | .write id =>
      if id = 0 then .ok (entered, noInput env)
      else entered.copy env (copyin (length (regs 5)) (regs 4)) 0
  | .read id =>
      if id = 1 then .ok (entered, noInput env)
      else if id = 0 then
        entered.copy env (copyout env.buffer (length (regs 5)) 0 (regs 4)) (regs 5).toInt
      else
        match (m.kernel.client.fileTable m.currentSpace).get id with
        | none => .ok (entered, noInput env)
        | some _ =>
            let len := min env.count (regs 5).toInt
            entered.copy env (copyout env.buffer len.toNat 0 (regs 4)) len
  | .exec => entered.copy env (copyin maxFileName (regs 4)) 0
  | _ => .ok (entered, noInput env)

/-- The rest of `AddrSpace::AddrSpace`, and `currentThread->space = space` in
`StartProcess`. -/
def loadSpace (m : System) (env : Environment) (space : SpaceId) (use : SpaceUse) :
    Except Stop (System × Input) :=
  match AddrSpace.load env.executable env.garbage m.memMap m.mainMemory with
  | .error stop => .error stop
  | .ok (loaded, memMap, mainMemory) =>
      .ok ({ m with
        memMap := memMap
        mainMemory := mainMemory
        addrSpace := Function.update m.addrSpace space (some loaded)
        hasSpace := match use with
          | .exec => m.hasSpace
          | .startProcess => Function.update m.hasSpace m.current true }, noInput env)

/-- Start the user program of `currentThread` with these registers. -/
def start (m : System) (space : SpaceId) (registers : Registers) : System :=
  { (m.setRegisters registers).restoreState space with
    initialStack := Function.update m.initialStack m.current (some (registers stackReg)) }

/-- `InitRegisters` and `RestoreState`, in `StartProcess` and `newProcess`. -/
def startProgram (m : System) (space : SpaceId) : System :=
  match m.addrSpace space with
  | some loaded => m.start space loaded.initRegisters
  | none => m

/-- The fields of the thread that `Fork` starts next. -/
def newThread (m : System) (id : Int) (arg : Word) (forked : Bool) : System :=
  let t := m.kernel.threadCount
  { m with
    hasSpace := Function.update m.hasSpace t true
    id := Function.update m.id t id
    initialArg := Function.update m.initialArg t arg
    forked := Function.update m.forked t forked }

/-- `currentThread` is at the end of `Fork_Syscall`, behind `t->Fork`. -/
def atForkEnd (m : System) : Prop :=
  (m.kernel.stack m.current).tail.head? = some (.client (.sysReturn 0))

instance (m : System) : Decidable m.atForkEnd :=
  inferInstanceAs (Decidable (_ = _))

/-- What the code of a system call does to the machine and to the data that
`Userland` leaves out. -/
def clientWork (m : System) (env : Environment) : UserFrame → Except Stop (System × Input)
  | .oneInstruction => m.runInstruction env
  | .exceptionHandler call => m.enterSyscall env call
  | .sysReturn rv =>
      .ok (m.setRegisters (returnRegisters rv m.cpu.registers), noInput env)
  | .printfBody =>
      m.copy env (copyin (length (m.arguments m.current).r5) (m.arguments m.current).r4) 0
  | .openStore i =>
      if i = -1 then .ok (m, noInput env)
      else
        let f := m.found m.current
        .ok ({ m with
          file := Function.update m.file m.currentSpace
            (Function.update (m.file m.currentSpace) i f)
          opened := Function.update m.opened m.currentSpace
            (Function.update (m.opened m.currentSpace) i (some f)) }, noInput env)
  | .closeBody fd =>
      .ok ({ m with
        opened := Function.update m.opened m.currentSpace
          (Function.update (m.opened m.currentSpace) fd none) }, noInput env)
  | .spaceDone space use => m.loadSpace env space use
  | .processStore space _ .startProcess => .ok (m.startProgram space, noInput env)
  | .execFork _ _ => .ok (m.newThread 1 0 false, noInput env)
  | .forkBody =>
      match m.kernel.client.processTable.get (m.kernel.client.pid m.current) with
      | none => .ok (m, noInput env)
      | some p =>
          .ok (m.newThread (p.inactiveThreadCount + (p.activeThreadCount + 1))
            (m.arguments m.current).r4 true, noInput env)
  | .newProcess => .ok (m.startProgram m.currentSpace, noInput env)
  | .kernelRun =>
      .ok (m.start m.currentSpace (kernelRunRegisters (m.initialArg m.current)
        (m.numPages m.currentSpace) m.cpu.registers), noInput env)
  | _ => .ok (m, noInput env)

/-- What the code at a program point does to the machine and to the data that
`Userland` leaves out, and the input it takes. -/
def work (m : System) (env : Environment) : Frame UserFrame → Except Stop (System × Input)
  | .client k => m.clientWork env k
  | .oneTick =>
      match m.flush env.interrupts with
      | .ok flushed => .ok (flushed, noInput env)
      | .error stop => .error stop
  | .sleepLoop =>
      if m.kernel.readyList = [] then
        match m.flush env.interrupts with
        | .ok flushed => .ok (flushed, noInput env)
        | .error stop => .error stop
      else .ok (m, noInput env)
  | .call (.lockRelease l) =>
      -- `currentThread->space->RestoreState()` in `Fork_Syscall`
      if l = syscallLock ∧ m.atForkEnd then .ok (m.restoreState m.currentSpace, noInput env)
      else .ok (m, noInput env)
  | _ => .ok (m, noInput env)

/-- The kernel's part of a step. -/
def kernelStep (m : System) (env : Environment) (input : Input) : Except Stop System :=
  match m.kernel.step userClient ⟨env.interrupts, env.nextPending, input⟩ with
  | .ok kernel => .ok { m with kernel := kernel }
  | .error stop => .error stop

/-- One step of the system. -/
def step (env : Environment) (m : System) : Except Stop System :=
  match m.kernel.top with
  | none => .error .noCode
  | some frame =>
      match (m.schedule frame).work env frame with
      | .ok (worked, input) => worked.kernelStep env input
      | .error stop => .error stop

/-- The system that is about to run a user program. -/
def boot (pid : ThreadId → Int) : System where
  kernel := userBoot pid
  cpu := ⟨fun _ => 0, none, 0⟩
  mainMemory := fun _ => 0
  memMap := BitMap.new numPhysPages
  addrSpace := fun _ => none
  hasSpace := fun _ => false
  userRegisters := fun _ _ => 0
  initialArg := fun _ => 0
  id := fun _ => 0
  arguments := fun _ => ⟨0, 0, 0, 0⟩
  found := fun _ => 0
  nextFile := 0
  file := fun _ _ => 0
  initialStack := fun _ => none
  forked := fun _ => false
  opened := fun _ _ => none

/-- The runs of the system under a guard. -/
abbrev Run (guard : System → Environment → Prop) : System → System → Prop :=
  Reach step guard

/-- The states of a system that runs user programs. -/
def Reachable (m : System) : Prop := ∃ pid, Run (fun _ _ => True) (boot pid) m

end System

end Userprog
end Nachos
