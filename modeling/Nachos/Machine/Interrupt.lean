import Nachos.Lib.Agenda
import Nachos.Threads.Kernel

/-!
# The interrupt controller

This module embeds `machine/interrupt.cc` with the sorted `List` of `threads/list.cc`:
`Schedule`, `SetLevel`, `OneTick`, `Idle` and `CheckIfDue`.

The two loops over `CheckIfDue(FALSE)` run one round a step, and `place` says which of
them the code is in; meanwhile nothing else runs.  A handler is a function pointer of
type `H` with its argument.  `code` is the text behind the pointers: what a handler
does to the state of the devices and which public functions of `Interrupt` it calls.
Times are natural numbers: a `fromNow` below zero fails the same `ASSERT` as zero, and the clock
and the times at which interrupts are due, `int64_t` in the source, stay below 2^63.
`DelayedLoad`, which `CheckIfDue` calls before a handler, belongs to the machine.

`scheduled` and `fired` are ghosts, as is the `serial` of an interrupt.
-/

namespace Nachos
namespace Hardware

open Threads Lib

/-- `enum IntType`. -/
inductive IntType
  | timerInt
  | diskInt
  | consoleWriteInt
  | consoleReadInt
  | networkSendInt
  | networkRecvInt
  deriving DecidableEq, Repr

/-- `class PendingInterrupt`. -/
structure PendingInterrupt (H : Type) where
  handler : H
  arg : Int
  when : Nat
  type : IntType
  serial : Nat
  deriving DecidableEq, Repr

/-- Where the code of `class Interrupt` is. -/
inductive Place
  | outside
  /-- The loop of `OneTick`. -/
  | oneTick
  /-- The loop of `Idle`. -/
  | idle
  deriving DecidableEq, Repr

/-- `class Interrupt`, the clock and the devices. -/
structure Interrupt (H σ : Type) where
  level : IntStatus
  pending : List (PendingInterrupt H)
  inHandler : Bool
  yieldOnReturn : Bool
  status : MachineStatus
  stats : Statistics
  devices : σ
  place : Place
  scheduled : List (PendingInterrupt H)
  /-- The interrupts that have fired, with the time. -/
  fired : List (PendingInterrupt H × Nat)

/-- The public functions that a handler calls. -/
inductive Call (H : Type)
  | schedule (handler : H) (arg : Int) (fromNow : Nat) (type : IntType)
  | setLevel (now : IntStatus)
  | yieldOnReturn
  deriving DecidableEq, Repr

/-- The text of the handlers. -/
abbrev Code (H σ : Type) := H → Int → Interrupt H σ → σ × List (Call H)

namespace Interrupt

variable {H σ : Type}

/-- `List::SortedInsert`. -/
def sortedInsert (item : PendingInterrupt H) (s : Interrupt H σ) : Interrupt H σ :=
  { s with pending := insertDue PendingInterrupt.when item s.pending }

/-- `Interrupt::Schedule`. -/
def schedule (handler : H) (arg : Int) (fromNow : Nat) (type : IntType) (s : Interrupt H σ) :
    Except Stop (Interrupt H σ) :=
  let toOccur : PendingInterrupt H :=
    ⟨handler, arg, s.stats.totalTicks + fromNow, type, s.scheduled.length⟩
  if 0 < fromNow then
    .ok { s.sortedInsert toOccur with scheduled := s.scheduled ++ [toOccur] }
  else .error .assertFailed

/-- A call of a handler.  `SetLevel` cannot enable interrupts here, so it never gets
to `OneTick`. -/
def handlerCall (s : Interrupt H σ) : Call H → Except Stop (Interrupt H σ)
  | .schedule handler arg fromNow type => s.schedule handler arg fromNow type
  | .setLevel now =>
      if now = .intOff ∨ s.inHandler = false then .ok { s with level := now }
      else .error .assertFailed
  | .yieldOnReturn =>
      if s.inHandler then .ok { s with yieldOnReturn := true } else .error .assertFailed

/-- The calls of a handler, in order. -/
def handlerCalls : List (Call H) → Interrupt H σ → Except Stop (Interrupt H σ)
  | [], s => .ok s
  | call :: calls, s =>
      match s.handlerCall call with
      | .ok s' => handlerCalls calls s'
      | .error stop => .error stop

/-- `(*(toOccur->handler))(toOccur->arg)` with the assignments around it. -/
def fire (code : Code H σ) (toOccur : PendingInterrupt H) (s : Interrupt H σ) :
    Except Stop (Interrupt H σ) :=
  let entered := { s with
    inHandler := true
    status := .systemMode
    fired := s.fired ++ [(toOccur, s.stats.totalTicks)] }
  let (devices, calls) := code toOccur.handler toOccur.arg entered
  match handlerCalls calls { entered with devices := devices } with
  | .ok handled => .ok { handled with status := s.status, inHandler := false }
  | .error stop => .error stop

/-- Advance the clock to the time of the next interrupt. -/
def advanceTo (when : Nat) (s : Interrupt H σ) : Interrupt H σ :=
  if s.stats.totalTicks < when then
    { s with stats := { s.stats with
        idleTicks := s.stats.idleTicks + (when - s.stats.totalTicks)
        totalTicks := when } }
  else s

/-- `CheckIfDue` once it has taken `toOccur` off the list. -/
def checkRemoved (code : Code H σ) (toOccur : PendingInterrupt H) (s : Interrupt H σ) :
    Except Stop (Bool × Interrupt H σ) :=
  if s.status = .idleMode ∧ toOccur.type = .timerInt ∧ s.pending = [] then
    .ok (false, s.sortedInsert toOccur)
  else
    match s.fire code toOccur with
    | .ok fired => .ok (true, fired)
    | .error stop => .error stop

/-- `Interrupt::CheckIfDue`. -/
def checkIfDue (code : Code H σ) (advanceClock : Bool) (s : Interrupt H σ) :
    Except Stop (Bool × Interrupt H σ) :=
  if s.level = .intOff then
    match s.pending with
    | [] => .ok (false, s)
    | toOccur :: rest =>
        let removed := { s with pending := rest }
        if advanceClock then (removed.advanceTo toOccur.when).checkRemoved code toOccur
        else if s.stats.totalTicks < toOccur.when then .ok (false, removed.sortedInsert toOccur)
        else removed.checkRemoved code toOccur
  else .error .assertFailed

/-- `Interrupt::OneTick` up to its loop. -/
def oneTick (s : Interrupt H σ) : Interrupt H σ :=
  { s with
    level := .intOff
    place := .oneTick
    stats := if s.status = .systemMode then
        { s.stats with
          totalTicks := s.stats.totalTicks + Kernel.systemTick
          systemTicks := s.stats.systemTicks + Kernel.systemTick }
      else
        { s.stats with
          totalTicks := s.stats.totalTicks + Kernel.userTick
          userTicks := s.stats.userTicks + Kernel.userTick } }

/-- `Interrupt::OneTick` behind its loop, up to `currentThread->Yield()`. -/
def endTick (s : Interrupt H σ) : Interrupt H σ :=
  if s.yieldOnReturn then
    { s with level := .intOn, place := .outside, yieldOnReturn := false, status := .systemMode }
  else { s with level := .intOn, place := .outside }

/-- `Interrupt::Idle` behind its loop. -/
def endIdle (s : Interrupt H σ) : Interrupt H σ :=
  { s with place := .outside, yieldOnReturn := false, status := .systemMode }

/-- `Interrupt::SetLevel`. -/
def setLevel (now : IntStatus) (s : Interrupt H σ) : Except Stop (Interrupt H σ) :=
  if now = .intOff ∨ s.inHandler = false then
    if now = .intOn ∧ s.level = .intOff then .ok ({ s with level := now }.oneTick)
    else .ok { s with level := now }
  else .error .assertFailed

/-- `Interrupt::Idle` up to its loop. -/
def idle (code : Code H σ) (s : Interrupt H σ) : Except Stop (Interrupt H σ) :=
  match { s with status := .idleMode }.checkIfDue code true with
  | .ok (true, fired) => .ok { fired with place := .idle }
  | .ok (false, _) => .error .halted
  | .error stop => .error stop

/-- A round of the loop the code is in. -/
def round (code : Code H σ) (s : Interrupt H σ) : Except Stop (Interrupt H σ) :=
  match s.checkIfDue code false with
  | .ok (true, fired) => .ok fired
  | .ok (false, last) =>
      .ok (match s.place with
        | .outside => last
        | .oneTick => last.endTick
        | .idle => last.endIdle)
  | .error stop => .error stop

/-- What the rest of the system does with `Interrupt`. -/
inductive Op (H σ : Type)
  | schedule (handler : H) (arg : Int) (fromNow : Nat) (type : IntType)
  | setLevel (now : IntStatus)
  | oneTick
  | idle
  /-- The next round of a loop. -/
  | round
  /-- `setStatus(SystemMode)`, or `status = old` behind a yield. -/
  | enterSystem
  /-- `setStatus(UserMode)`, or `status = old` behind a yield. -/
  | enterUser
  /-- A device is used. -/
  | device (devices : σ)

/-- One step: a round of the loop the code is in, or a call from outside. -/
def step (code : Code H σ) (op : Op H σ) (s : Interrupt H σ) : Except Stop (Interrupt H σ) :=
  match s.place, op with
  | .outside, .schedule handler arg fromNow type => s.schedule handler arg fromNow type
  | .outside, .setLevel now => s.setLevel now
  | .outside, .oneTick => .ok s.oneTick
  | .outside, .idle => s.idle code
  | .outside, .enterSystem => .ok { s with status := .systemMode }
  | .outside, .enterUser => .ok { s with status := .userMode }
  | .outside, .device devices => .ok { s with devices := devices }
  | .outside, .round => .error .noCode
  | _, .round => s.round code
  | _, _ => .error .noCode

/-- `Interrupt::Interrupt`. -/
def new (devices : σ) : Interrupt H σ where
  level := .intOff
  pending := []
  inHandler := false
  yieldOnReturn := false
  status := .systemMode
  stats := ⟨0, 0, 0, 0⟩
  devices := devices
  place := .outside
  scheduled := []
  fired := []

/-- Rounds of a loop, until it ends. -/
def rounds (code : Code H σ) : Nat → Interrupt H σ → Except Stop (Interrupt H σ)
  | 0, s => .ok s
  | n + 1, s =>
      match s.place with
      | .outside => .ok s
      | _ =>
          match s.round code with
          | .ok s' => rounds code n s'
          | .error stop => .error stop

/-- The runs of the controller. -/
abbrev Run (code : Code H σ) : Interrupt H σ → Interrupt H σ → Prop :=
  Reach (step code) fun _ _ => True

end Interrupt

end Hardware
end Nachos
