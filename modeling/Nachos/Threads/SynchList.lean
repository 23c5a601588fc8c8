import Nachos.Threads.Programs

/-!
# The synchronized list

This module embeds `threads/synchlist.cc` beside any program.  The private lock and
condition of `SynchList` are number 0.  An item is a pointer, `none` the null pointer;
`Append` is called with items that are not null.  The function that `Mapcar` applies
does not touch the list.

The logs of the items and the list of signalled threads are ghosts.
-/

namespace Nachos
namespace Threads

open Lib

/-- A call of a method of `SynchList`. -/
inductive ListCall (α : Type)
  | append (item : α)
  | remove
  | mapcar
  deriving DecidableEq

/-- The program points of `SynchList`, and that of the program. -/
inductive ListFrame (α : Type)
  | program
  | enter (call : ListCall α)
  /-- `list->Append(item)`. -/
  | appendBody (item : α)
  /-- The loop of `Remove`, and what follows it up to `lock->Release()`. -/
  | removeLoop
  /-- `Remove` is about to return. -/
  | removed
  /-- `list->Mapcar(func)`. -/
  | mapcarBody
  deriving DecidableEq

/-- `class SynchList`, with what `Remove` returns. -/
structure SynchList (α : Type) where
  list : List (Option α)
  /-- The variable `item` of the `Remove` a thread is in. -/
  item : ThreadId → Option α
  /-- The items in the order in which they were appended. -/
  appended : List α
  /-- Who took which item off the list, in order. -/
  taken : List (ThreadId × Option α)

variable {α : Type}

abbrev ListKernel (α : Type) := Kernel (ListFrame α) (SynchList α)

/-- `list->Append(item)`. -/
def SynchList.append (l : SynchList α) (item : α) : SynchList α :=
  { l with list := l.list ++ [some item], appended := l.appended ++ [item] }

/-- The loop of `Remove` and the code behind it. -/
def SynchList.remove (l : SynchList α) (t : ThreadId) :
    Except Stop (SynchList α × List (Request (ListFrame α))) :=
  match l.list with
  | [] => .ok (l, [.call (.conditionWait 0 (some 0)), .client .removeLoop])
  | none :: _ => .error .assertFailed
  | some item :: rest =>
      .ok ({ l with
          list := rest
          item := Function.update l.item t (some item)
          taken := l.taken ++ [(t, some item)] },
        [.call (.lockRelease 0), .client .removed])

/-- The program and `SynchList`. -/
def listClient : Client (ListFrame α) (SynchList α) (List (ProgramCall (ListCall α))) where
  exec input k s :=
    match k with
    | .program => .ok (s.client, input.map (ProgramCall.request 1 .program .enter))
    | .enter (.append item) =>
        .ok (s.client, [.call (.lockAcquire 0), .client (.appendBody item),
          .call (.conditionSignal 0 (some 0)), .call (.lockRelease 0)])
    | .enter .remove => .ok (s.client, [.call (.lockAcquire 0), .client .removeLoop])
    | .enter .mapcar =>
        .ok (s.client, [.call (.lockAcquire 0), .client .mapcarBody, .call (.lockRelease 0)])
    | .appendBody item => .ok (s.client.append item, [])
    | .removeLoop => s.client.remove s.currentThread
    | .removed => .ok (s.client, [])
    | .mapcarBody => .ok (s.client, [])

/-- The environment's part of a step. -/
abbrev ListChoice (α : Type) := Choice (List (ProgramCall (ListCall α)))

/-- The kernel with the list, and the consumers that were signalled and have not
tested the list again. -/
structure ListSystem (α : Type) where
  kernel : ListKernel α
  signalled : List ThreadId

namespace ListSystem

/-- The signalled consumers behind a step: `Signal` adds the first that waits, and the
loop of `Remove` tests. -/
def signalledNext (m : ListSystem α) : List ThreadId :=
  match m.kernel.top with
  | some (.call (.conditionSignal 0 conditionLock)) =>
      match (m.kernel.condition 0).waitingCV with
      | [] => m.signalled
      | t :: _ =>
          if conditionLock = (m.kernel.condition 0).waitingLock then t :: m.signalled
          else m.signalled
  | some (.client .removeLoop) => m.signalled.erase m.kernel.currentThread
  | _ => m.signalled

/-- One step of the system. -/
def step (choice : ListChoice α) (m : ListSystem α) : Except Stop (ListSystem α) :=
  match m.kernel.step listClient choice with
  | .ok kernel => .ok ⟨kernel, m.signalledNext⟩
  | .error stop => .error stop

/-- The system at its start. -/
def boot (initialValue : SemaphoreId → Int) : ListSystem α :=
  ⟨Kernel.boot initialValue ⟨[], fun _ => none, [], []⟩ .program, []⟩

/-- The runs of the system. -/
abbrev Run : ListSystem α → ListSystem α → Prop :=
  Reach step fun _ _ => True

/-- The item at the end of the list that `Append` has not signalled yet. -/
def unsignalled (m : ListSystem α) : Nat :=
  match m.kernel.top with
  | some (.call (.conditionSignal 0 (some 0))) => 1
  | _ => 0

/-- What `SynchList` is for. -/
structure Fifo (m : ListSystem α) : Prop where
  /-- What was taken, followed by what is in the list, is what was appended. -/
  order : m.kernel.client.taken.map Prod.snd ++ m.kernel.client.list =
    m.kernel.client.appended.map some
  /-- Items are appended and taken under the lock. -/
  locked : (m.kernel.top = some (.client .removeLoop) ∨
      ∃ item, m.kernel.top = some (.client (.appendBody item))) →
    (m.kernel.lock 0).owner = some m.kernel.currentThread
  /-- `Remove` returns the item that its thread took last. -/
  returns : m.kernel.top = some (.client .removed) →
    (m.kernel.client.taken.filter fun e => e.1 = m.kernel.currentThread).getLast? =
      some (m.kernel.currentThread, m.kernel.client.item m.kernel.currentThread)
  /-- `ASSERT(item != NULL)` does not fail. -/
  notNull : m.kernel.top = some (.client .removeLoop) → ∀ choice,
    ∃ m', m.step choice = .ok m'
  /-- The signalled consumers are different threads, and none of them is blocked. -/
  signalled : m.signalled.Nodup ∧
    ∀ t ∈ m.signalled, t ∉ (m.kernel.condition 0).waitingCV
  /-- While a consumer is blocked there are not more items than signalled consumers,
  but for an item that `Append` has just put at the end of the list. -/
  wakeUp : (m.kernel.condition 0).waitingCV ≠ [] →
    m.kernel.client.list.length ≤ m.signalled.length + m.unsignalled

end ListSystem

end Threads
end Nachos
