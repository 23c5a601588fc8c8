import Nachos.Threads.Runs

/-!
# The system calls

This module embeds `userprog/exception.cc`, the `Table` of
`userprog/addrspace.cc`, `StartProcess` of `userprog/progtest.cc` and the loop
of `Machine::Run`, as a client of the thread kernel.

Between two calls of the kernel the code of a system call is one step, so a
`UserFrame` is a program point right behind such a call.  What the user program
and the file system do is the client's input: which instruction comes next,
whether a pointer is good, whether a file is found.  The contents of memory and
files and the texts on the console are left out; an access through a bad pointer
raises an exception, which halts the machine.

`lockObjects` and `cvObjects` are ghosts: the lock and the condition that the
constructor of an entry allocated, which the entry forgets when it is deleted.
-/

namespace Nachos
namespace Userprog

open Threads

/-- `syscallLock`. -/
def syscallLock : LockId := 0

/-- `PrintfLock`. -/
def printfLock : LockId := 1

/-- `LockTableLock`. -/
def lockTableLock : LockId := 2

/-- `CVTableLock`. -/
def cvTableLock : LockId := 3

/-- The lock of `processTable`. -/
def processTableLock : LockId := 4

/-- `PROCESS_TABLE_MAX_SIZE`. -/
def processTableMaxSize : Nat := 32

/-- `MaxOpenFiles`. -/
def maxOpenFiles : Nat := 256

abbrev SpaceId := Nat

/-- `struct KernelLock`; its field `Owner` is set to `NULL` and never read. -/
structure KernelLock where
  kernelLock : Option LockId
  isDeleted : Bool
  deriving DecidableEq, Repr

/-- `struct KernelCV`. -/
structure KernelCV where
  cv : Option ConditionId
  isDeleted : Bool
  deriving DecidableEq, Repr

/-- `struct Process`. -/
structure Process where
  id : Int
  activeThreadCount : Int
  inactiveThreadCount : Int
  deriving DecidableEq, Repr

/-- `class Table`; a null pointer in it is `none`. -/
structure Table (α : Type) where
  map : List Bool
  table : List (Option α)
  lock : LockId
  deriving DecidableEq, Repr

/-- `table[n]`, or `none` when `n < 0 || n > (signed)table.size() - 1`. -/
def index? {α : Type} (table : List α) (n : Int) : Option α :=
  if n < 0 then none else table[n.toNat]?

namespace Table

variable {α : Type}

/-- `Table::Table`. -/
def new (size : Nat) (lock : LockId) : Table α :=
  ⟨List.replicate size false, List.replicate size none, lock⟩

/-- The field `size`. -/
def size (t : Table α) : Nat := t.map.length

/-- `Table::Get`. -/
def get (t : Table α) (i : Int) : Option α :=
  if index? t.map i = some true then (index? t.table i).join else none

/-- `BitMap::Find` without its side effect: the first clear bit, or -1. -/
def firstClear (t : Table α) : Int :=
  match t.map.findIdx? (· = false) with
  | some i => i
  | none => -1

/-- The side effect of `BitMap::Find`. -/
def mark (t : Table α) (i : Int) : Table α :=
  if i < 0 then t else { t with map := t.map.set i.toNat true }

/-- `table[i] = f`, when `i` is not -1. -/
def store (t : Table α) (i : Int) (f : Option α) : Table α :=
  if i < 0 then t else { t with table := t.table.set i.toNat f }

/-- `Table::Remove` between its `Acquire` and its `Release`. -/
def clear (t : Table α) (i : Int) : Table α :=
  if index? t.map i = some true then
    { t with map := t.map.set i.toNat false, table := t.table.set i.toNat none }
  else t

end Table

/-- The system calls `ExceptionHandler` dispatches, with the arguments that
decide what they do. -/
inductive Syscall
  | halt
  | create
  | openFile
  | write (id : Int)
  | read (id : Int)
  | close (fd : Int)
  | exec
  | fork
  | exit (code : Int)
  | yield
  | acquire (n : Int)
  | release (n : Int)
  | wait (x lock : Int)
  | signal (y a : Int)
  | broadcast (z b : Int)
  | createLock
  | destroyLock (n : Int)
  | createCV
  | destroyCV (n : Int)
  | printf
  | rand
  | unknown
  deriving DecidableEq, Repr

/-- What the construction of an address space is for. -/
inductive SpaceUse
  | exec
  | startProcess
  deriving DecidableEq, Repr

/-- The program points of the system calls. -/
inductive UserFrame
  /-- `StartProcess`, on the main thread. -/
  | startProcess
  /-- `newProcess`. -/
  | newProcess
  /-- `kernelRun`. -/
  | kernelRun
  /-- The loop of `Machine::Run`. -/
  | oneInstruction
  /-- `ExceptionHandler(SyscallException)`. -/
  | exceptionHandler (call : Syscall)
  /-- The end of `ExceptionHandler`: the result is written to a register. -/
  | sysReturn (rv : Int)
  | acquireCheck (n : Int)
  | releaseCheck (n : Int)
  /-- `Release_Syscall` after it has released both locks. -/
  | releaseTail (n : Int)
  | waitCheck (x lock : Int)
  /-- `Wait_Syscall` after it has released `CVTableLock`. -/
  | waitBody (x lock : Int)
  /-- `Wait_Syscall` after `Condition::Wait`. -/
  | waitTail (lock : Int)
  | signalCheck (y a : Int)
  /-- `Signal_Syscall` after `Condition::Signal`. -/
  | signalTail (y : Int)
  | broadcastCheck (z b : Int)
  /-- `LockTable[lock].Kernel_Lock->Release()` in the error branches. -/
  | releaseOnError (lock : Int)
  | createLockBody
  | destroyLockBody (n : Int)
  | createCVBody
  | destroyCVBody (n : Int)
  | printfBody
  | openFind
  | openStore (i : Int)
  | closeBody (fd : Int)
  | execBody
  /-- `fileTable.Put(0)` in `AddrSpace::AddrSpace`; `more` of them follow. -/
  | spacePut (space : SpaceId) (more : Nat) (use : SpaceUse)
  /-- The address space is constructed: `processTable->Put(p)` is next. -/
  | spaceDone (space : SpaceId) (use : SpaceUse)
  | processFind (space : SpaceId) (use : SpaceUse)
  | processStore (space : SpaceId) (i : Int) (use : SpaceUse)
  /-- `t->Fork(newProcess, 0)` of `Exec_Syscall`. -/
  | execFork (space : SpaceId) (processID : Int)
  | forkBody
  | exitBody
  /-- `processTable->Remove(processID)` in `Exit_Syscall`. -/
  | exitRemove (processID : Int)
  | removeBody (processID : Int)
  deriving DecidableEq, Repr

/-- The globals of the system calls and the fields of threads they use. -/
structure Userland where
  lockTable : List KernelLock
  cvTable : List KernelCV
  processTable : Table Process
  /-- `space->fileTable`. -/
  fileTable : SpaceId → Table Unit
  /-- `currentThread->space`. -/
  space : ThreadId → SpaceId
  /-- `currentThread->pid`. -/
  pid : ThreadId → Int
  /-- The result register of a thread. -/
  result : ThreadId → Int
  nextLock : LockId
  nextCondition : ConditionId
  nextSpace : SpaceId
  lockObjects : List LockId
  cvObjects : List ConditionId

/-- What the user program does next. -/
inductive UserEvent
  | instruction
  | syscall (call : Syscall)
  | exception
  deriving DecidableEq, Repr

/-- How the construction of an address space ends: the assertions on the
executable hold or not, and there are enough pages or not. -/
inductive SpaceOutcome
  | constructed
  | assertFailed
  | outOfPages
  deriving DecidableEq, Repr

/-- The input of a step of the system calls. -/
structure Input where
  event : UserEvent
  memoryOk : Bool
  pointerOk : Bool
  fileFound : Bool
  outcome : SpaceOutcome
  value : Int
  deriving DecidableEq, Repr

abbrev UserKernel := Kernel UserFrame Userland

/-- What a step of a system call answers. -/
abbrev Answer := Except Stop (Userland × List (Request UserFrame))

/-- `LockTable[n].Kernel_Lock`, when `n` is in range and the pointer is not
null. -/
def Userland.lockAt (u : Userland) (n : Int) : Option LockId :=
  (index? u.lockTable n).bind KernelLock.kernelLock

/-- `CVTable[n].CV`, when `n` is in range and the pointer is not null. -/
def Userland.cvAt (u : Userland) (n : Int) : Option ConditionId :=
  (index? u.cvTable n).bind KernelCV.cv

namespace Userland

/-- `LockTable[n] = entry`. -/
def setLockEntry (u : Userland) (n : Int) (entry : KernelLock) : Userland :=
  { u with lockTable := u.lockTable.set n.toNat entry }

/-- `CVTable[n] = entry`. -/
def setCVEntry (u : Userland) (n : Int) (entry : KernelCV) : Userland :=
  { u with cvTable := u.cvTable.set n.toNat entry }

end Userland

section LockCalls

variable (s : UserKernel)

/-- `Acquire_Syscall` behind `LockTableLock->Acquire()`. -/
def acquireCheck (n : Int) : Answer :=
  match index? s.client.lockTable n with
  | some ⟨some k, false⟩ =>
      .ok (s.client, [.call (.lockAcquire k), .call (.lockRelease lockTableLock),
        .client (.sysReturn 0)])
  | _ => .ok (s.client, [.call (.lockRelease lockTableLock), .client (.sysReturn 0)])

/-- `Release_Syscall` behind `LockTableLock->Acquire()`. -/
def releaseCheck (n : Int) : Answer :=
  match s.client.lockAt n with
  | some k =>
      .ok (s.client, [.call (.lockRelease k), .call (.lockRelease lockTableLock),
        .client (.releaseTail n)])
  | none => .ok (s.client, [.call (.lockRelease lockTableLock), .client (.sysReturn 0)])

/-- The end of `Release_Syscall`: complete a pending deletion. -/
def releaseTail (n : Int) : Answer :=
  match index? s.client.lockTable n with
  | none => .error .outOfBounds
  | some entry =>
      if entry.isDeleted then
        match entry.kernelLock with
        | none => .error .nullDereference
        | some k =>
            if (s.lock k).waitingThreads = [] then
              .ok (s.client.setLockEntry n { entry with kernelLock := none },
                [.client (.sysReturn 0)])
            else .ok (s.client, [.client (.sysReturn 0)])
      else .ok (s.client, [.client (.sysReturn 0)])

/-- The second statement of the error branches of `Wait_Syscall`,
`Signal_Syscall` and `Broadcast_Syscall`. -/
def releaseOnError (lock : Int) : Answer :=
  match index? s.client.lockTable lock with
  | none => .error .outOfBounds
  | some ⟨none, _⟩ => .error .nullDereference
  | some ⟨some k, _⟩ => .ok (s.client, [.call (.lockRelease k), .client (.sysReturn 0)])

/-- `CreateLock_Syscall` behind `LockTableLock->Acquire()`. -/
def createLockBody : Answer :=
  .ok ({ s.client with
      lockTable := s.client.lockTable ++ [⟨some s.client.nextLock, false⟩]
      lockObjects := s.client.lockObjects ++ [s.client.nextLock]
      nextLock := s.client.nextLock + 1 },
    [.call (.lockRelease lockTableLock), .client (.sysReturn s.client.lockTable.length)])

/-- `DestroyLock_Syscall` behind `LockTableLock->Acquire()`. -/
def destroyLockBody (n : Int) : Answer :=
  let done := [Request.call (.lockRelease lockTableLock), .client (.sysReturn 0)]
  match index? s.client.lockTable n with
  | some ⟨some k, isDeleted⟩ =>
      if (s.lock k).waitingThreads ≠ [] ∧ isDeleted = false then
        .ok (s.client.setLockEntry n ⟨some k, true⟩, done)
      else if (s.lock k).waitingThreads = [] ∧ isDeleted = false then
        .ok (s.client.setLockEntry n ⟨none, true⟩, done)
      else if (s.lock k).waitingThreads = [] ∧ isDeleted = true then
        .ok (s.client.setLockEntry n ⟨none, isDeleted⟩, done)
      else .ok (s.client, done)
  | _ => .ok (s.client, done)

end LockCalls

section ConditionCalls

variable (s : UserKernel)

/-- `Wait_Syscall` behind `CVTableLock->Acquire()`. -/
def waitCheck (x lock : Int) : Answer :=
  match s.client.cvAt x, s.client.lockAt lock with
  | some _, some _ =>
      .ok (s.client, [.call (.lockRelease cvTableLock), .client (.waitBody x lock)])
  | _, _ =>
      .ok (s.client, [.call (.lockRelease cvTableLock), .client (.releaseOnError lock)])

/-- `CVTable[x].CV->Wait(LockTable[lock].Kernel_Lock)`. -/
def waitBody (x lock : Int) : Answer :=
  match index? s.client.cvTable x, index? s.client.lockTable lock with
  | some ⟨some c, _⟩, some entry =>
      .ok (s.client, [.call (.conditionWait c entry.kernelLock), .client (.waitTail lock)])
  | some ⟨none, _⟩, some _ => .error .nullDereference
  | _, _ => .error .outOfBounds

/-- `LockTable[lock].Kernel_Lock->Release()` at the end of `Wait_Syscall`. -/
def waitTail (lock : Int) : Answer := releaseOnError s lock

/-- `Signal_Syscall` behind `CVTableLock->Acquire()`. -/
def signalCheck (y a : Int) : Answer :=
  match s.client.cvAt y, s.client.lockAt a with
  | some c, some k =>
      .ok (s.client, [.call (.conditionSignal c (some k)), .client (.signalTail y)])
  | _, _ => .ok (s.client, [.call (.lockRelease cvTableLock), .client (.releaseOnError a)])

/-- `Signal_Syscall` behind `Condition::Signal`: complete a pending deletion. -/
def signalTail (y : Int) : Answer :=
  let done := [Request.call (.lockRelease cvTableLock), .client (.sysReturn 0)]
  match index? s.client.cvTable y with
  | none => .error .outOfBounds
  | some entry =>
      if entry.isDeleted then
        match entry.cv with
        | none => .error .nullDereference
        | some c =>
            if (s.condition c).waitingCV = [] then
              .ok (s.client.setCVEntry y { entry with cv := none }, done)
            else .ok (s.client, done)
      else .ok (s.client, done)

/-- `Broadcast_Syscall` behind `CVTableLock->Acquire()`. -/
def broadcastCheck (z b : Int) : Answer :=
  match s.client.cvAt z, s.client.lockAt b with
  | some c, some k =>
      .ok (s.client, [.call (.conditionBroadcast c (some k)),
        .call (.lockRelease cvTableLock), .client (.sysReturn 0)])
  | _, _ => .ok (s.client, [.call (.lockRelease cvTableLock), .client (.releaseOnError b)])

/-- `CreateCV_Syscall` behind `CVTableLock->Acquire()`. -/
def createCVBody : Answer :=
  .ok ({ s.client with
      cvTable := s.client.cvTable ++ [⟨some s.client.nextCondition, false⟩]
      cvObjects := s.client.cvObjects ++ [s.client.nextCondition]
      nextCondition := s.client.nextCondition + 1 },
    [.call (.lockRelease cvTableLock), .client (.sysReturn s.client.cvTable.length)])

/-- `DestroyCV_Syscall` behind `CVTableLock->Acquire()`. -/
def destroyCVBody (n : Int) : Answer :=
  let done := [Request.call (.lockRelease cvTableLock), .client (.sysReturn 0)]
  match index? s.client.cvTable n with
  | some ⟨some c, isDeleted⟩ =>
      if (s.condition c).waitingCV ≠ [] ∧ isDeleted = false then
        .ok (s.client.setCVEntry n ⟨some c, true⟩, done)
      else if (s.condition c).waitingCV = [] ∧ isDeleted = false then
        .ok (s.client.setCVEntry n ⟨none, true⟩, done)
      else if (s.condition c).waitingCV = [] ∧ isDeleted = true then
        .ok (s.client.setCVEntry n ⟨none, isDeleted⟩, done)
      else .ok (s.client, done)
  | _ => .ok (s.client, done)

end ConditionCalls

section FileCalls

variable (input : Input) (s : UserKernel)

/-- The buffer is allocated and copied in; then the call goes on. -/
def withBuffer (answer : Answer) : Answer :=
  if input.memoryOk then
    if input.pointerOk then answer else .ok (s.client, [.halt])
  else .error .badAlloc

/-- The file table of `currentThread`. -/
def currentFileTable : Table Unit := s.client.fileTable (s.client.space s.currentThread)

/-- Assign to the file table of `currentThread`. -/
def setCurrentFileTable (table : Table Unit) : Userland :=
  { s.client with
    fileTable := Function.update s.client.fileTable (s.client.space s.currentThread) table }

/-- `Create_Syscall`, which returns nothing; the file is none of the kernel's data. -/
def createSyscall : Answer :=
  withBuffer input s (.ok (s.client, [.client (.sysReturn 0)]))

/-- `Open_Syscall` up to `fileTable.Put(f)`. -/
def openSyscall : Answer :=
  withBuffer input s (if input.fileFound then
      .ok (s.client, [.call (.lockAcquire (currentFileTable s).lock), .client .openFind])
    else .ok (s.client, [.client (.sysReturn (-1))]))

/-- `Table::Put` behind its `Acquire`, in `Open_Syscall`. -/
def openFind : Answer :=
  let i := (currentFileTable s).firstClear
  .ok (setCurrentFileTable s ((currentFileTable s).mark i),
    [.call (.lockRelease (currentFileTable s).lock), .client (.openStore i)])

/-- The end of `Table::Put` in `Open_Syscall`. -/
def openStore (i : Int) : Answer :=
  .ok (setCurrentFileTable s ((currentFileTable s).store i (some ())),
    [.client (.sysReturn i)])

/-- `Close_Syscall`. -/
def closeSyscall (fd : Int) : Answer :=
  if 0 ≤ fd ∧ fd < (currentFileTable s).size then
    .ok (s.client, [.call (.lockAcquire (currentFileTable s).lock), .client (.closeBody fd)])
  else .ok (s.client, [.client (.sysReturn 0)])

/-- `Table::Remove` behind its `Acquire`, in `Close_Syscall`. -/
def closeBody (fd : Int) : Answer :=
  .ok (setCurrentFileTable s ((currentFileTable s).clear fd),
    [.call (.lockRelease (currentFileTable s).lock), .client (.sysReturn 0)])

/-- `Read_Syscall`; how much is read from a file is the input's `value`. -/
def readSyscall (id : Int) : Answer :=
  if id = 1 then .ok (s.client, [.client (.sysReturn (-1))])
  else if id = 0 then withBuffer input s (.ok (s.client, [.client (.sysReturn input.value)]))
  else
    match (currentFileTable s).get id with
    | some _ => withBuffer input s (.ok (s.client, [.client (.sysReturn input.value)]))
    | none =>
        if input.memoryOk then .ok (s.client, [.client (.sysReturn (-1))])
        else .error .badAlloc

/-- `Write_Syscall`. -/
def writeSyscall (id : Int) : Answer :=
  if id = 0 then .ok (s.client, [.client (.sysReturn 0)])
  else withBuffer input s (.ok (s.client, [.client (.sysReturn 0)]))

/-- `printf_Syscall` behind `PrintfLock->Acquire()`. -/
def printfBody : Answer :=
  withBuffer input s
    (.ok (s.client, [.call (.lockRelease printfLock), .client (.sysReturn 0)]))

end FileCalls

section ProcessCalls

variable (input : Input) (s : UserKernel)

/-- `new AddrSpace(file)` up to its first `fileTable.Put(0)`. -/
def newAddrSpace (use : SpaceUse) : Answer :=
  .ok ({ s.client with
      fileTable := Function.update s.client.fileTable s.client.nextSpace
        (Table.new maxOpenFiles s.client.nextLock)
      nextSpace := s.client.nextSpace + 1
      nextLock := s.client.nextLock + 1 },
    [.call (.lockAcquire s.client.nextLock), .client (.spacePut s.client.nextSpace 1 use)])

/-- `Table::Put(0)` behind its `Acquire`, in `AddrSpace::AddrSpace`. -/
def spacePut (space : SpaceId) (more : Nat) (use : SpaceUse) : Answer :=
  let table := s.client.fileTable space
  let state := { s.client with
    fileTable := Function.update s.client.fileTable space
      ((table.mark table.firstClear).store table.firstClear none) }
  match more with
  | 0 => .ok (state, [.call (.lockRelease table.lock), .client (.spaceDone space use)])
  | more + 1 =>
      .ok (state, [.call (.lockRelease table.lock), .call (.lockAcquire table.lock),
        .client (.spacePut space more use)])

/-- The rest of `AddrSpace::AddrSpace`, up to `processTable->Put(p)`. -/
def spaceDone (space : SpaceId) (use : SpaceUse) : Answer :=
  match input.outcome with
  | .assertFailed => .error .assertFailed
  | .outOfPages => .ok (s.client, [.halt])
  | .constructed =>
      .ok (match use with
        | .exec => s.client
        | .startProcess =>
            { s.client with space := Function.update s.client.space s.currentThread space },
        [.call (.lockAcquire processTableLock), .client (.processFind space use)])

/-- `Table::Put` behind its `Acquire`, in `Exec_Syscall` and `StartProcess`. -/
def processFind (space : SpaceId) (use : SpaceUse) : Answer :=
  let i := s.client.processTable.firstClear
  .ok ({ s.client with processTable := s.client.processTable.mark i },
    [.call (.lockRelease processTableLock), .client (.processStore space i use)])

/-- The end of `processTable->Put(p)` and what follows it in `Exec_Syscall` and
`StartProcess`.  `Exec_Syscall` returns from here when the table is full. -/
def processStore (space : SpaceId) (i : Int) (use : SpaceUse) : Answer :=
  let state := { s.client with
    processTable := s.client.processTable.store i (some ⟨i, 1, 0⟩) }
  match use with
  | .exec =>
      if i = -1 then .ok (state, [.client (.sysReturn (-1))])
      else .ok (state, [.call (.lockRelease syscallLock), .client (.execFork space i)])
  | .startProcess => .ok (state, [.setStatus .userMode, .client .oneInstruction])

/-- The new thread's `space` and `pid`, for the thread that `Fork` starts next. -/
def adopt (space : SpaceId) (pid : Int) : Userland :=
  { s.client with
    space := Function.update s.client.space s.threadCount space
    pid := Function.update s.client.pid s.threadCount pid }

/-- `t->Fork((VoidFunctionPtr) newProcess, 0)` and the end of `Exec_Syscall`. -/
def execFork (space : SpaceId) (processID : Int) : Answer :=
  .ok (adopt s space processID,
    [.call (.threadFork .newProcess), .client (.sysReturn processID)])

/-- `Fork_Syscall` behind `syscallLock->Acquire()`.  It returns from here when
the process is not in the table. -/
def forkBody : Answer :=
  let processID := s.client.pid s.currentThread
  match s.client.processTable.get processID with
  | none => .ok (s.client, [.client (.sysReturn 0)])
  | some p =>
      .ok ({ adopt s (s.client.space s.currentThread) processID with
          processTable := s.client.processTable.store processID
            (some { p with activeThreadCount := p.activeThreadCount + 1 }) },
        [.call (.threadFork .kernelRun), .call (.lockRelease syscallLock),
          .client (.sysReturn 0)])

/-- `Exit_Syscall` behind `syscallLock->Acquire()`. -/
def exitBody : Answer :=
  let processID := s.client.pid s.currentThread
  match s.client.processTable.get processID with
  | none => .error .nullDereference
  | some p =>
      let finishing := { s.client with
        processTable := s.client.processTable.store processID
          (some { p with
            activeThreadCount := p.activeThreadCount - 1
            inactiveThreadCount := p.inactiveThreadCount + 1 }) }
      if s.client.processTable.size > 1 then
        if p.activeThreadCount = 1 then
          .ok (s.client, [.call (.lockRelease syscallLock), .client (.exitRemove processID),
            .call .threadFinish])
        else .ok (finishing, [.call (.lockRelease syscallLock), .call .threadFinish])
      else if p.activeThreadCount = 1 then
        .ok (s.client, [.client (.exitRemove processID), .halt])
      else .ok (finishing, [.call (.lockRelease syscallLock), .call .threadFinish])

/-- `processTable->Remove(processID)` up to its `Acquire`. -/
def exitRemove (processID : Int) : Answer :=
  if 0 ≤ processID ∧ processID < s.client.processTable.size then
    .ok (s.client, [.call (.lockAcquire processTableLock), .client (.removeBody processID)])
  else .ok (s.client, [])

/-- `Table::Remove` behind its `Acquire`, in `Exit_Syscall`. -/
def removeBody (processID : Int) : Answer :=
  .ok ({ s.client with processTable := s.client.processTable.clear processID },
    [.call (.lockRelease processTableLock)])

end ProcessCalls

/-- The `switch` of `ExceptionHandler`. -/
def exceptionHandler (input : Input) (s : UserKernel) : Syscall → Answer
  | .halt => .ok (s.client, [.halt])
  | .create => createSyscall input s
  | .openFile => openSyscall input s
  | .write id => writeSyscall input s id
  | .read id => readSyscall input s id
  | .close fd => closeSyscall s fd
  | .exec =>
      withBuffer input s (if input.fileFound then
          .ok (s.client, [.call (.lockAcquire syscallLock), .client .execBody])
        else .ok (s.client, [.client (.sysReturn (-1))]))
  | .fork => .ok (s.client, [.call (.lockAcquire syscallLock), .client .forkBody])
  | .exit _ => .ok (s.client, [.call (.lockAcquire syscallLock), .client .exitBody])
  | .yield => .ok (s.client, [.call .threadYield, .client (.sysReturn 0)])
  | .acquire n => .ok (s.client, [.call (.lockAcquire lockTableLock), .client (.acquireCheck n)])
  | .release n => .ok (s.client, [.call (.lockAcquire lockTableLock), .client (.releaseCheck n)])
  | .wait x lock =>
      .ok (s.client, [.call (.lockAcquire cvTableLock), .client (.waitCheck x lock)])
  | .signal y a =>
      .ok (s.client, [.call (.lockAcquire cvTableLock), .client (.signalCheck y a)])
  | .broadcast z b =>
      .ok (s.client, [.call (.lockAcquire cvTableLock), .client (.broadcastCheck z b)])
  | .createLock =>
      .ok (s.client, [.call (.lockAcquire lockTableLock), .client .createLockBody])
  | .destroyLock n =>
      .ok (s.client, [.call (.lockAcquire lockTableLock), .client (.destroyLockBody n)])
  | .createCV => .ok (s.client, [.call (.lockAcquire cvTableLock), .client .createCVBody])
  | .destroyCV n =>
      .ok (s.client, [.call (.lockAcquire cvTableLock), .client (.destroyCVBody n)])
  | .printf => .ok (s.client, [.call (.lockAcquire printfLock), .client .printfBody])
  | .rand => .ok (s.client, [.client (.sysReturn input.value)])
  | .unknown => .ok (s.client, [.client (.sysReturn 0)])

/-- One round of the loop of `Machine::Run`. -/
def oneInstruction (input : Input) (s : UserKernel) : Answer :=
  match input.event with
  | .instruction => .ok (s.client, [.oneTick, .client .oneInstruction])
  | .syscall call =>
      .ok (s.client, [.setStatus .systemMode, .client (.exceptionHandler call),
        .setStatus .userMode, .oneTick, .client .oneInstruction])
  | .exception => .ok (s.client, [.setStatus .systemMode, .halt])

/-- The code of the system calls. -/
def userExec (input : Input) (frame : UserFrame) (s : UserKernel) : Answer :=
  match frame with
  | .startProcess =>
      if input.fileFound then newAddrSpace s .startProcess else .ok (s.client, [])
  | .newProcess => .ok (s.client, [.setStatus .userMode, .client .oneInstruction])
  | .kernelRun => .ok (s.client, [.setStatus .userMode, .client .oneInstruction])
  | .oneInstruction => oneInstruction input s
  | .exceptionHandler call => exceptionHandler input s call
  | .sysReturn rv =>
      .ok ({ s.client with result := Function.update s.client.result s.currentThread rv }, [])
  | .acquireCheck n => acquireCheck s n
  | .releaseCheck n => releaseCheck s n
  | .releaseTail n => releaseTail s n
  | .waitCheck x lock => waitCheck s x lock
  | .waitBody x lock => waitBody s x lock
  | .waitTail lock => waitTail s lock
  | .signalCheck y a => signalCheck s y a
  | .signalTail y => signalTail s y
  | .broadcastCheck z b => broadcastCheck s z b
  | .releaseOnError lock => releaseOnError s lock
  | .createLockBody => createLockBody s
  | .destroyLockBody n => destroyLockBody s n
  | .createCVBody => createCVBody s
  | .destroyCVBody n => destroyCVBody s n
  | .printfBody => printfBody input s
  | .openFind => openFind s
  | .openStore i => openStore s i
  | .closeBody fd => closeBody s fd
  | .execBody => newAddrSpace s .exec
  | .spacePut space more use => spacePut s space more use
  | .spaceDone space use => spaceDone input s space use
  | .processFind space use => processFind s space use
  | .processStore space i use => processStore s space i use
  | .execFork space processID => execFork s space processID
  | .forkBody => forkBody s
  | .exitBody => exitBody s
  | .exitRemove processID => exitRemove s processID
  | .removeBody processID => removeBody s processID

/-- The system calls as a client of the kernel. -/
def userClient : Client UserFrame Userland Input where
  exec := userExec

/-- The globals at boot.  Nothing sets the `pid` of the main thread. -/
def userland (pid : ThreadId → Int) : Userland where
  lockTable := []
  cvTable := []
  processTable := Table.new processTableMaxSize processTableLock
  fileTable := fun _ => Table.new maxOpenFiles processTableLock
  space := fun _ => 0
  pid := pid
  result := fun _ => 0
  nextLock := processTableLock + 1
  nextCondition := 0
  nextSpace := 0
  lockObjects := []
  cvObjects := []

/-- The machine that is about to run a user program. -/
def userBoot (pid : ThreadId → Int) : UserKernel :=
  Kernel.boot (fun _ => 0) (userland pid) .startProcess

/-- The states of a machine that runs user programs. -/
def UserReachable (s : UserKernel) : Prop :=
  ∃ pid, Kernel.Run userClient (fun _ _ => True) (userBoot pid) s

/-- What holds in every run of the kernel holds here. -/
theorem UserReachable.reachable {s : UserKernel} (h : UserReachable s) :
    Kernel.Reachable userClient s := by
  obtain ⟨pid, hrun⟩ := h
  exact ⟨_, _, _, hrun⟩

end Userprog
end Nachos
