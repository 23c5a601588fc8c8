import Mathlib.Logic.Function.Basic
import Nachos.Lib.GuardedRun

/-!
# The Nachos thread kernel

This module embeds `threads/synch.cc`, `threads/thread.cc`,
`threads/scheduler.cc` and the part of `machine/interrupt.cc` they rest on.

The machine is a uniprocessor and its code is not preemptible by itself: the
processor changes hands only inside `Thread::Yield` and `Thread::Sleep`, and an
interrupt handler runs only inside `Interrupt::OneTick` and `Interrupt::Idle`.
Every stretch of code between two calls that may get there is therefore one
step.  What a thread still has to do is its stack of `Frame`s: the program
points at which its pending C++ calls go on, innermost first.  A step pops the
top frame of `currentThread` and runs its code up to the next call that may
suspend; the calls that are still to be made are pushed.

Code that uses the kernel is a `Client`: its own state, its own frames and a
function that runs a client frame and answers with the calls to make next.
The choices the kernel does not make (which interrupts fire at a tick, whether
one is pending when the machine idles, what a client does next) come with the
label of a step.

`history` is a ghost: kernel code appends to it and never reads it.
-/

namespace Nachos
namespace Threads

abbrev ThreadId := Nat
abbrev LockId := Nat
abbrev ConditionId := Nat
abbrev SemaphoreId := Nat

/-- `enum IntStatus`. -/
inductive IntStatus
  | intOff
  | intOn
  deriving DecidableEq, Repr

/-- `enum MachineStatus`. -/
inductive MachineStatus
  | idleMode
  | systemMode
  | userMode
  deriving DecidableEq, Repr

/-- `enum ThreadStatus`. -/
inductive ThreadStatus
  | justCreated
  | running
  | ready
  | blocked
  deriving DecidableEq, Repr

/-- `class Semaphore`.  `value` is an `int`: this is what it holds as long as the value that the
semaphore was made with and the number of its `V`s are below 2^31 together. -/
structure Semaphore where
  value : Int
  queue : List ThreadId
  deriving DecidableEq, Repr

/-- `class Lock`. -/
structure Lock where
  available : Bool
  owner : Option ThreadId
  waitingThreads : List ThreadId
  deriving DecidableEq, Repr

/-- `class Condition`. -/
structure Condition where
  waitingLock : Option LockId
  waitingCV : List ThreadId
  deriving DecidableEq, Repr

/-- The tick counters of `class Statistics`. -/
structure Statistics where
  totalTicks : Nat
  idleTicks : Nat
  systemTicks : Nat
  userTicks : Nat
  deriving DecidableEq, Repr

/-- `Lock::Lock`, with the unset `owner` field taken to be `NULL`. -/
def newLock : Lock := ⟨true, none, []⟩

/-- `Condition::Condition`. -/
def newCondition : Condition := ⟨none, []⟩

/-- `Semaphore::Semaphore`. -/
def newSemaphore (initialValue : Int) : Semaphore := ⟨initialValue, []⟩

/-- The operations a thread can call.  `threadFork body` is `new Thread`
followed by `Fork`, the only way the repository starts a thread; a `NULL` lock
argument of a condition operation is `none`. -/
inductive Op (κ : Type)
  | semaphoreP (s : SemaphoreId)
  | semaphoreV (s : SemaphoreId)
  | lockAcquire (l : LockId)
  | lockRelease (l : LockId)
  | conditionWait (c : ConditionId) (conditionLock : Option LockId)
  | conditionSignal (c : ConditionId) (conditionLock : Option LockId)
  | conditionBroadcast (c : ConditionId) (conditionLock : Option LockId)
  | threadFork (body : κ)
  | threadYield
  | threadFinish
  deriving DecidableEq, Repr

/-- A program point at which a pending call goes on. -/
inductive Frame (κ : Type)
  /-- The call of an operation. -/
  | call (op : Op κ)
  /-- `interrupt->SetLevel(now)`. -/
  | setLevel (now : IntStatus)
  /-- `interrupt->OneTick()`. -/
  | oneTick
  /-- `status = old` in `OneTick`, or `interrupt->setStatus(m)`. -/
  | setStatus (m : MachineStatus)
  /-- `currentThread->Sleep()`. -/
  | sleep
  /-- The `while` loop of `Thread::Sleep`. -/
  | sleepLoop
  /-- `Scheduler::Run` after `SWITCH` has returned. -/
  | afterSwitch
  /-- The `while (value == 0)` loop of `Semaphore::P`. -/
  | whileValueZero (s : SemaphoreId)
  /-- `Condition::Wait` after it has released the lock. -/
  | waitAppend (c : ConditionId) (l : LockId)
  /-- `Condition::Wait` after it has slept. -/
  | waitReacquire (c : ConditionId) (l : LockId)
  /-- The `while` loop of `Condition::Broadcast`. -/
  | broadcastLoop (c : ConditionId) (conditionLock : Option LockId)
  /-- `interrupt->Halt()`. -/
  | halt
  /-- Code of the client. -/
  | client (k : κ)
  deriving DecidableEq, Repr

/-- The frames a client may ask for: public calls and its own code. -/
inductive Request (κ : Type)
  | call (op : Op κ)
  | setLevel (now : IntStatus)
  | oneTick
  | setStatus (m : MachineStatus)
  | halt
  | client (k : κ)
  deriving DecidableEq, Repr

/-- The frame of a request. -/
def Request.frame {κ : Type} : Request κ → Frame κ
  | .call op => .call op
  | .setLevel now => .setLevel now
  | .oneTick => .oneTick
  | .setStatus m => .setStatus m
  | .halt => .halt
  | .client k => .client k

/-- Ghost record of what the synchronization operations did. -/
inductive Event
  | lockQueued (l : LockId) (t : ThreadId)
  | lockGranted (l : LockId) (t : ThreadId)
  | conditionQueued (c : ConditionId) (l : LockId) (t : ThreadId)
  | conditionWoken (c : ConditionId) (t : ThreadId)
  | semaphoreTaken (s : SemaphoreId) (t : ThreadId)
  | semaphoreRaised (s : SemaphoreId)
  | threadFinished (t : ThreadId)
  | threadDeleted (t : ThreadId)
  deriving DecidableEq, Repr

/-- The kernel's globals, the threads' stacks and the client's state. -/
structure Kernel (κ σ : Type) where
  level : IntStatus
  machineStatus : MachineStatus
  yieldOnReturn : Bool
  stats : Statistics
  currentThread : ThreadId
  threadToBeDestroyed : Option ThreadId
  readyList : List ThreadId
  threadStatus : ThreadId → ThreadStatus
  stack : ThreadId → List (Frame κ)
  /-- Thread identities below this one have been given out. -/
  threadCount : Nat
  semaphore : SemaphoreId → Semaphore
  lock : LockId → Lock
  condition : ConditionId → Condition
  client : σ
  history : List Event

/-- Why the machine stops. -/
inductive Stop
  | assertFailed
  | nullDereference
  | outOfBounds
  | badAlloc
  | halted
  | noCode
  deriving DecidableEq, Repr

/-- What an interrupt handler does.  The timer's handler asks for a context
switch; the handlers of the disk, the console and the network end in a
`Semaphore::V`. -/
inductive Interrupt
  | timer
  | device (s : SemaphoreId)
  deriving DecidableEq, Repr

/-- The environment's part of a step: the interrupts that are due, how far the
clock runs to the next pending interrupt when the machine idles (`none` when
nothing is pending), and the client's input. -/
structure Choice (ι : Type) where
  interrupts : List Interrupt
  nextPending : Option Nat
  input : ι

/-- Code on top of the kernel.  `exec` runs a client frame of `currentThread`:
it reads the kernel, changes the client's state and says what comes next. -/
structure Client (κ σ ι : Type) where
  exec : ι → κ → Kernel κ σ → Except Stop (σ × List (Request κ))

section Operations

variable {κ σ ι : Type}

namespace Kernel

/-- Push frames on the stack of `currentThread`. -/
def push (frames : List (Frame κ)) (s : Kernel κ σ) : Kernel κ σ :=
  { s with
    stack := Function.update s.stack s.currentThread (frames ++ s.stack s.currentThread) }

/-- Append to the ghost history. -/
def record (events : List Event) (s : Kernel κ σ) : Kernel κ σ :=
  { s with history := s.history ++ events }

/-- Assign to a semaphore. -/
def setSemaphore (i : SemaphoreId) (sem : Semaphore) (s : Kernel κ σ) : Kernel κ σ :=
  { s with semaphore := Function.update s.semaphore i sem }

/-- Assign to a lock. -/
def setLock (l : LockId) (lk : Lock) (s : Kernel κ σ) : Kernel κ σ :=
  { s with lock := Function.update s.lock l lk }

/-- Assign to a condition. -/
def setCondition (c : ConditionId) (cv : Condition) (s : Kernel κ σ) : Kernel κ σ :=
  { s with condition := Function.update s.condition c cv }

/-- `Interrupt::ChangeLevel`. -/
def changeLevel (now : IntStatus) (s : Kernel κ σ) : Kernel κ σ :=
  { s with level := now }

/-- `Scheduler::ReadyToRun`. -/
def readyToRun (t : ThreadId) (s : Kernel κ σ) : Kernel κ σ :=
  { s with
    threadStatus := Function.update s.threadStatus t .ready
    readyList := s.readyList ++ [t] }

/-- `Scheduler::Run` up to `SWITCH`.  The old thread's stack already says that
it goes on behind `SWITCH`. -/
def run (next : ThreadId) (s : Kernel κ σ) : Kernel κ σ :=
  { s with
    currentThread := next
    threadStatus := Function.update s.threadStatus next .running }

/-- `Interrupt::SetLevel`.  Switching interrupts on from off is a tick. -/
def setLevel (now : IntStatus) (s : Kernel κ σ) : Kernel κ σ :=
  if now = .intOn ∧ s.level = .intOff then (s.changeLevel now).push [.oneTick]
  else s.changeLevel now

/-- `Semaphore::V` between its two `SetLevel` calls. -/
def raiseSemaphore (i : SemaphoreId) (s : Kernel κ σ) : Kernel κ σ :=
  match (s.semaphore i).queue with
  | [] =>
      (s.setSemaphore i ⟨(s.semaphore i).value + 1, []⟩).record [.semaphoreRaised i]
  | t :: rest =>
      ((s.setSemaphore i ⟨(s.semaphore i).value + 1, rest⟩).readyToRun t).record
        [.semaphoreRaised i]

/-- `Semaphore::P`. -/
def semaphoreP (i : SemaphoreId) (s : Kernel κ σ) : Kernel κ σ :=
  (s.changeLevel .intOff).push [.whileValueZero i, .setLevel s.level]

/-- The loop of `Semaphore::P` and the decrement after it. -/
def whileValueZero (i : SemaphoreId) (s : Kernel κ σ) : Kernel κ σ :=
  if (s.semaphore i).value = 0 then
    (s.setSemaphore i ⟨0, (s.semaphore i).queue ++ [s.currentThread]⟩).push
      [.sleep, .whileValueZero i]
  else
    (s.setSemaphore i ⟨(s.semaphore i).value - 1, (s.semaphore i).queue⟩).record
      [.semaphoreTaken i s.currentThread]

/-- `Semaphore::V`. -/
def semaphoreV (i : SemaphoreId) (s : Kernel κ σ) : Kernel κ σ :=
  ((s.changeLevel .intOff).raiseSemaphore i).push [.setLevel s.level]

/-- `Lock::isHeldByCurrentThread`. -/
def isHeldByCurrentThread (l : LockId) (s : Kernel κ σ) : Prop :=
  (s.lock l).owner = some s.currentThread

instance (l : LockId) (s : Kernel κ σ) : Decidable (s.isHeldByCurrentThread l) :=
  inferInstanceAs (Decidable ((s.lock l).owner = some s.currentThread))

/-- `Lock::Acquire`. -/
def lockAcquire (l : LockId) (s : Kernel κ σ) : Kernel κ σ :=
  if s.isHeldByCurrentThread l then
    (s.changeLevel .intOff).push [.setLevel s.level]
  else if (s.lock l).available then
    ((s.changeLevel .intOff).setLock l
      ⟨false, some s.currentThread, (s.lock l).waitingThreads⟩).push [.setLevel s.level]
  else
    (((s.changeLevel .intOff).setLock l
      ⟨(s.lock l).available, (s.lock l).owner,
        (s.lock l).waitingThreads ++ [s.currentThread]⟩).record
      [.lockQueued l s.currentThread]).push [.sleep, .setLevel s.level]

/-- `Lock::Release`.  The branch that gives the lock up does not restore the
interrupt level. -/
def lockRelease (l : LockId) (s : Kernel κ σ) : Kernel κ σ :=
  if s.isHeldByCurrentThread l then
    match (s.lock l).waitingThreads with
    | t :: rest =>
        (((s.changeLevel .intOff).setLock l ⟨(s.lock l).available, some t, rest⟩).readyToRun
          t).record [.lockGranted l t]
    | [] => (s.changeLevel .intOff).setLock l ⟨true, none, []⟩
  else (s.changeLevel .intOff).push [.setLevel s.level]

/-- `Condition::Wait` up to the call of `Lock::Release`. -/
def conditionWait (c : ConditionId) (conditionLock : Option LockId) (s : Kernel κ σ) :
    Kernel κ σ :=
  match conditionLock with
  | none => (s.changeLevel .intOff).push [.setLevel s.level]
  | some l =>
      match (s.condition c).waitingLock with
      | none =>
          ((s.changeLevel .intOff).setCondition c
            ⟨some l, (s.condition c).waitingCV⟩).push
            [.call (.lockRelease l), .waitAppend c l, .setLevel s.level]
      | some bound =>
          if l = bound then
            (s.changeLevel .intOff).push
              [.call (.lockRelease l), .waitAppend c l, .setLevel s.level]
          else (s.changeLevel .intOff).push [.setLevel s.level]

/-- `waitingCV->Append(currentThread)` and the rest of `Condition::Wait`. -/
def waitAppend (c : ConditionId) (l : LockId) (s : Kernel κ σ) : Kernel κ σ :=
  ((s.setCondition c ⟨(s.condition c).waitingLock,
    (s.condition c).waitingCV ++ [s.currentThread]⟩).record
    [.conditionQueued c l s.currentThread]).push [.sleep, .waitReacquire c l]

/-- `Condition::Signal`. -/
def conditionSignal (c : ConditionId) (conditionLock : Option LockId) (s : Kernel κ σ) :
    Kernel κ σ :=
  match (s.condition c).waitingCV with
  | [] => (s.changeLevel .intOff).push [.setLevel s.level]
  | t :: rest =>
      if conditionLock = (s.condition c).waitingLock then
        ((((s.changeLevel .intOff).setCondition c
          ⟨if rest = [] then none else (s.condition c).waitingLock, rest⟩).readyToRun
          t).record [.conditionWoken c t]).push [.setLevel s.level]
      else (s.changeLevel .intOff).push [.setLevel s.level]

/-- The loop of `Condition::Broadcast`. -/
def broadcastLoop (c : ConditionId) (conditionLock : Option LockId) (s : Kernel κ σ) :
    Kernel κ σ :=
  if (s.condition c).waitingCV = [] then s
  else s.push [.call (.conditionSignal c conditionLock), .broadcastLoop c conditionLock]

/-- `new Thread` and `Thread::Fork`.  The first frames of the new thread are
those of `ThreadRoot`: enable interrupts, call the procedure, finish. -/
def threadFork (body : κ) (s : Kernel κ σ) : Kernel κ σ :=
  (({ s with
      stack := Function.update s.stack s.threadCount
        [.setLevel .intOn, .client body, .call .threadFinish]
      threadCount := s.threadCount + 1 }.changeLevel .intOff).readyToRun
    s.threadCount).push [.setLevel s.level]

/-- `Thread::Yield`.  `FindNextToRun` takes the first thread off the ready list
before `ReadyToRun` puts the caller at its end. -/
def threadYield (s : Kernel κ σ) : Kernel κ σ :=
  match s.readyList with
  | [] => (s.changeLevel .intOff).push [.setLevel s.level]
  | next :: rest =>
      ((({ s with readyList := rest }.changeLevel .intOff).readyToRun s.currentThread).push
        [.afterSwitch, .setLevel s.level]).run next

/-- `Thread::Finish` up to its call of `Sleep`. -/
def threadFinish (s : Kernel κ σ) : Kernel κ σ :=
  (({ s with threadToBeDestroyed := some s.currentThread }.changeLevel .intOff).record
    [.threadFinished s.currentThread]).push [.sleep]

/-- The handler of one interrupt.  It runs with interrupts off, so the
`SetLevel` calls of `Semaphore::V` change nothing. -/
def handle (s : Kernel κ σ) : Interrupt → Kernel κ σ
  | .timer => { s with yieldOnReturn := true }
  | .device i => s.raiseSemaphore i

/-- The handlers of the interrupts that are due, in order. -/
def handleAll (interrupts : List Interrupt) (s : Kernel κ σ) : Kernel κ σ :=
  interrupts.foldl handle s

/-- `SystemTick` and `UserTick`. -/
def systemTick : Nat := 10

def userTick : Nat := 1

/-- The clock part of `Interrupt::OneTick`. -/
def advanceClock (s : Kernel κ σ) : Kernel κ σ :=
  if s.machineStatus = .systemMode then
    { s with stats := { s.stats with
        totalTicks := s.stats.totalTicks + systemTick
        systemTicks := s.stats.systemTicks + systemTick } }
  else
    { s with stats := { s.stats with
        totalTicks := s.stats.totalTicks + userTick
        userTicks := s.stats.userTicks + userTick } }

/-- `Interrupt::OneTick`. -/
def oneTick (interrupts : List Interrupt) (s : Kernel κ σ) : Kernel κ σ :=
  let handled := (s.advanceClock.changeLevel .intOff).handleAll interrupts
  if handled.yieldOnReturn then
    ({ handled with
        yieldOnReturn := false
        machineStatus := .systemMode }.changeLevel .intOn).push
      [.call .threadYield, .setStatus s.machineStatus]
  else handled.changeLevel .intOn

/-- `Interrupt::Idle` when an interrupt is pending. -/
def idle (advance : Nat) (interrupts : List Interrupt) (s : Kernel κ σ) : Kernel κ σ :=
  { ({ s with stats := { s.stats with
        totalTicks := s.stats.totalTicks + advance
        idleTicks := s.stats.idleTicks + advance } }).handleAll interrupts with
    yieldOnReturn := false
    machineStatus := .systemMode }

/-- `Thread::Sleep` up to its loop. -/
def threadSleep (s : Kernel κ σ) : Except Stop (Kernel κ σ) :=
  if s.level = .intOff then
    .ok ({ s with
      threadStatus := Function.update s.threadStatus s.currentThread .blocked }.push
      [.sleepLoop])
  else .error .assertFailed

/-- The loop of `Thread::Sleep`, and the dispatch after it. -/
def sleepLoop (choice : Choice ι) (s : Kernel κ σ) : Except Stop (Kernel κ σ) :=
  match s.readyList with
  | next :: rest => .ok (({ s with readyList := rest }.push [.afterSwitch]).run next)
  | [] =>
      if s.level = .intOff then
        match choice.nextPending with
        | none => .error .halted
        | some advance => .ok ((s.idle advance choice.interrupts).push [.sleepLoop])
      else .error .assertFailed

/-- The end of `Scheduler::Run`: delete the thread that has finished. -/
def afterSwitch (s : Kernel κ σ) : Except Stop (Kernel κ σ) :=
  match s.threadToBeDestroyed with
  | none => .ok s
  | some t =>
      if t = s.currentThread then .error .assertFailed
      else .ok ({ s with threadToBeDestroyed := none }.record [.threadDeleted t])

/-- The code of an operation, up to the next call that may suspend. -/
def execOp (s : Kernel κ σ) : Op κ → Kernel κ σ
  | .semaphoreP i => s.semaphoreP i
  | .semaphoreV i => s.semaphoreV i
  | .lockAcquire l => s.lockAcquire l
  | .lockRelease l => s.lockRelease l
  | .conditionWait c l => s.conditionWait c l
  | .conditionSignal c l => s.conditionSignal c l
  | .conditionBroadcast c l => s.push [.broadcastLoop c l]
  | .threadFork body => s.threadFork body
  | .threadYield => s.threadYield
  | .threadFinish => s.threadFinish

/-- The code at a frame of `currentThread`, up to the next call that may
suspend. -/
def exec (client : Client κ σ ι) (choice : Choice ι) (s : Kernel κ σ) :
    Frame κ → Except Stop (Kernel κ σ)
  | .call op => .ok (s.execOp op)
  | .setLevel now => .ok (s.setLevel now)
  | .oneTick => .ok (s.oneTick choice.interrupts)
  | .setStatus m => .ok { s with machineStatus := m }
  | .sleep => s.threadSleep
  | .sleepLoop => s.sleepLoop choice
  | .afterSwitch => s.afterSwitch
  | .whileValueZero i => .ok (s.whileValueZero i)
  | .waitAppend c l => .ok (s.waitAppend c l)
  | .waitReacquire _ l => .ok (s.push [.call (.lockAcquire l)])
  | .broadcastLoop c l => .ok (s.broadcastLoop c l)
  | .halt => .error .halted
  | .client k =>
      match client.exec choice.input k s with
      | .ok (state, requests) => .ok ({ s with client := state }.push
          (requests.map Request.frame))
      | .error stop => .error stop

/-- Drop the top frame of `currentThread`. -/
def pop (s : Kernel κ σ) : Kernel κ σ :=
  { s with
    stack := Function.update s.stack s.currentThread (s.stack s.currentThread).tail }

/-- The program point `currentThread` is at. -/
def top (s : Kernel κ σ) : Option (Frame κ) :=
  (s.stack s.currentThread).head?

/-- One step of the machine. -/
def step (client : Client κ σ ι) (choice : Choice ι) (s : Kernel κ σ) :
    Except Stop (Kernel κ σ) :=
  match s.top with
  | none => .error .noCode
  | some frame => s.pop.exec client choice frame

/-- The machine when `Initialize` is about to enable interrupts: one thread,
`main`, is running, and no synchronization object has been used yet. -/
def boot (initialValue : SemaphoreId → Int) (state : σ) (main : κ) : Kernel κ σ where
  level := .intOff
  machineStatus := .systemMode
  yieldOnReturn := false
  stats := ⟨0, 0, 0, 0⟩
  currentThread := 0
  threadToBeDestroyed := none
  readyList := []
  threadStatus := Function.update (fun _ => .justCreated) 0 .running
  stack := Function.update (fun _ => []) 0
    [.setLevel .intOn, .client main, .call .threadFinish]
  threadCount := 1
  semaphore := fun i => newSemaphore (initialValue i)
  lock := fun _ => newLock
  condition := fun _ => newCondition
  client := state
  history := []

end Kernel

end Operations

end Threads
end Nachos
