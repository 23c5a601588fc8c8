import Nachos.Threads.Programs
import Nachos.Threads.StepAccounts

/-!
# The synchronous disk

This module embeds `filesys/synchdisk.cc` and the requests and the interrupt of
`machine/disk.cc`, beside any program.  The private lock and semaphore of `SynchDisk`
are number 0.  A request schedules one interrupt; which tick it is due at is the
environment's choice.  Sectors hold data of any type.

The log of requests, their numbers and the list of owners are ghosts.
-/

namespace Nachos
namespace Filesys

open Threads Lib

/-- `NumSectors`. -/
def numSectors : Nat := 1024

/-- A call of `ReadSector` or `WriteSector`. -/
inductive DiskCall (δ : Type)
  | readSector (sectorNumber : Int)
  | writeSector (sectorNumber : Int) (data : δ)
  deriving DecidableEq

/-- The program points of `SynchDisk`, and that of the program. -/
inductive DiskFrame (δ : Type)
  | program
  /-- `ReadSector` and `WriteSector` are called. -/
  | enter (call : DiskCall δ)
  /-- `disk->ReadRequest` and `disk->WriteRequest`. -/
  | request (call : DiskCall δ)
  /-- The call is about to return. -/
  | returned
  deriving DecidableEq

/-- A request that was made: who made it, and the data read or written. -/
structure Entry (δ : Type) where
  thread : ThreadId
  call : DiskCall δ
  data : δ

/-- `class Disk`, with what the buffers of the callers hold. -/
structure Disk (δ : Type) where
  active : Bool
  contents : Int → δ
  /-- The buffer that a thread last had a sector read to. -/
  buffer : ThreadId → Option δ
  log : List (Entry δ)
  /-- The request a thread made last. -/
  number : ThreadId → Nat
  /-- The requests whose interrupt is pending. -/
  scheduled : List Nat
  /-- The requests whose interrupt has fired. -/
  completed : List Nat

variable {δ : Type}

/-- `ASSERT((sectorNumber >= 0) && (sectorNumber < NumSectors))`. -/
def IsSector (n : Int) : Prop := 0 ≤ n ∧ n < numSectors

instance (n : Int) : Decidable (IsSector n) :=
  inferInstanceAs (Decidable (_ ∧ _))

namespace Disk

/-- A request is made by thread `t`. -/
def enqueue (d : Disk δ) (t : ThreadId) (call : DiskCall δ) (data : δ) : Disk δ :=
  { d with
    active := true
    log := d.log ++ [⟨t, call, data⟩]
    number := Function.update d.number t d.log.length
    scheduled := d.scheduled ++ [d.log.length] }

/-- `Disk::ReadRequest` and `Disk::WriteRequest`. -/
def request (d : Disk δ) (t : ThreadId) : DiskCall δ → Except Stop (Disk δ)
  | .readSector n =>
      if d.active = false ∧ IsSector n then
        .ok ({ d with buffer := Function.update d.buffer t (some (d.contents n)) }.enqueue t
          (.readSector n) (d.contents n))
      else .error .assertFailed
  | .writeSector n data =>
      if d.active = false ∧ IsSector n then
        .ok ({ d with contents := Function.update d.contents n data }.enqueue t
          (.writeSector n data) data)
      else .error .assertFailed

/-- `Disk::HandleInterrupt` up to the call of its handler, `fired` times. -/
def handleInterrupt (d : Disk δ) (fired : Nat) : Disk δ :=
  { d with
    active := if fired = 0 then d.active else false
    scheduled := d.scheduled.drop fired
    completed := d.completed ++ d.scheduled.take fired }

/-- The disk before the first request. -/
def new (contents : Int → δ) : Disk δ where
  active := false
  contents := contents
  buffer := fun _ => none
  log := []
  number := fun _ => 0
  scheduled := []
  completed := []

end Disk

abbrev DiskKernel (δ : Type) := Kernel (DiskFrame δ) (Disk δ)

/-- The program and `SynchDisk`. -/
def diskClient : Client (DiskFrame δ) (Disk δ) (List (ProgramCall (DiskCall δ))) where
  exec input k s :=
    match k with
    | .program => .ok (s.client, input.map (ProgramCall.request 1 .program .enter))
    | .enter call =>
        .ok (s.client, [.call (.lockAcquire 0), .client (.request call), .call (.semaphoreP 0),
          .call (.lockRelease 0), .client .returned])
    | .request call =>
        match s.client.request s.currentThread call with
        | .ok d => .ok (d, [])
        | .error stop => .error stop
    | .returned => .ok (s.client, [])

/-- The environment's part of a step. -/
abbrev DiskChoice (δ : Type) := Choice (List (ProgramCall (DiskCall δ)))

/-- The kernel with the disk, and the owners of the lock in their order. -/
structure DiskSystem (δ : Type) where
  kernel : DiskKernel δ
  owners : List ThreadId

namespace DiskSystem

/-- How many interrupts of the disk fire in a step: handlers run in a tick, and when
the machine idles. -/
def firing (s : DiskKernel δ) (interrupts : List Interrupt) : Nat :=
  match s.top with
  | some .oneTick => Kernel.raisesOf 0 interrupts
  | some .sleepLoop => if s.readyList = [] then Kernel.raisesOf 0 interrupts else 0
  | _ => 0

/-- The kernel in which `fired` interrupts of the disk have been handled, up to the
call of `semaphore->V()`. -/
def interrupted (s : DiskKernel δ) (fired : Nat) : DiskKernel δ :=
  { s with client := s.client.handleInterrupt fired }

/-- The owners behind a step. -/
def ownersNext (m : DiskSystem δ) (kernel : DiskKernel δ) : List ThreadId :=
  if (kernel.lock 0).owner = (m.kernel.lock 0).owner then m.owners
  else m.owners ++ (kernel.lock 0).owner.toList

/-- One step of the system.  The disk fires no interrupt that was not scheduled. -/
def step (choice : DiskChoice δ) (m : DiskSystem δ) : Except Stop (DiskSystem δ) :=
  let fired := firing m.kernel choice.interrupts
  if fired ≤ m.kernel.client.scheduled.length then
    match (interrupted m.kernel fired).step diskClient choice with
    | .ok kernel => .ok ⟨kernel, m.ownersNext kernel⟩
    | .error stop => .error stop
  else .error .noCode

/-- The system at its start. -/
def boot (initialValue : SemaphoreId → Int) (contents : Int → δ) : DiskSystem δ :=
  ⟨Kernel.boot (Function.update initialValue 0 0) (Disk.new contents) .program, []⟩

/-- The runs of the system. -/
abbrev Run : DiskSystem δ → DiskSystem δ → Prop :=
  Reach step fun _ _ => True

end DiskSystem

section Specification

/-- What a request does to the contents of a disk. -/
def DiskCall.apply (contents : Int → δ) : DiskCall δ → Int → δ
  | .readSector _ => contents
  | .writeSector n data => Function.update contents n data

/-- The contents of a disk after requests that are executed one after another. -/
def contentsAfter (contents : Int → δ) (log : List (Entry δ)) : Int → δ :=
  log.foldl (fun c e => e.call.apply c) contents

/-- Every read of the log yields what the requests before it have left. -/
def SequentialLog (contents : Int → δ) (log : List (Entry δ)) : Prop :=
  ∀ i e n, log[i]? = some e → e.call = .readSector n →
    e.data = contentsAfter contents (log.take i) n

/-- The thread that owns the lock and has not made its request. -/
def pendingOwner (s : DiskKernel δ) : List ThreadId :=
  (s.lock 0).owner.toList.filter fun t =>
    (s.stack t).any fun f => match f with | .client (.request _) => true | _ => false

/-- What `SynchDisk` is for. -/
structure Synchronous (contents : Int → δ) (m : DiskSystem δ) : Prop where
  /-- `ASSERT(!active)` holds whenever a request is made. -/
  notActive : ∀ call, m.kernel.top = some (.client (.request call)) →
    m.kernel.client.active = false
  /-- A call returns after the interrupt of its own request, and a read has its data
  in the buffer. -/
  completed : m.kernel.top = some (.client .returned) →
    m.kernel.client.number m.kernel.currentThread ∈ m.kernel.client.completed ∧
      ∃ e, m.kernel.client.log[m.kernel.client.number m.kernel.currentThread]? = some e ∧
        e.thread = m.kernel.currentThread ∧
        ∀ n, e.call = .readSector n →
          m.kernel.client.buffer m.kernel.currentThread = some e.data
  /-- The requests are executed one after another, in the order in which their
  threads acquired the lock. -/
  order : m.owners = m.kernel.client.log.map Entry.thread ++ pendingOwner m.kernel
  sequential : SequentialLog contents m.kernel.client.log

end Specification

end Filesys
end Nachos
