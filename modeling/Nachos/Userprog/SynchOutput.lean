import Nachos.Lib.GuardedRun
import Nachos.Machine.Translate
import Nachos.Threads.Kernel

/-!
# The display of the synchronised console

This module embeds the display side of `machine/console.cc` and `SynchConsole::WriteLine`, for
any number of threads.  `PutChar` hands one character to the display and may not be called
again before the interrupt that says that it is written; `WriteLine` waits for this interrupt
on a semaphore, behind every character, and holds a lock for the whole line.

A thread makes one step from one place where interrupts can be on, or where it sleeps, to the
next; which thread comes next, and when the interrupt comes, is left open.  `called` and
`returned` record the calls of `WriteLine`, in the order in which they ask for the lock and in
the order in which they return.
-/

namespace Nachos

namespace Hardware

/-- The display side of `class Console`, with the number of its interrupts that are pending
and the counter of `stats` that is its own. -/
structure Display where
  writeFile : List Byte
  putBusy : Bool
  pending : Nat
  numConsoleCharsWritten : Nat
  deriving Repr, DecidableEq

namespace Display

/-- `Console::PutChar`, or nothing if its assertion fails. -/
def putChar (ch : Byte) (d : Display) : Option Display :=
  if d.putBusy = false then
    some { d with writeFile := d.writeFile ++ [ch], putBusy := true, pending := d.pending + 1 }
  else none

/-- `Console::WriteDone`, up to the call of the handler. -/
def writeDone (d : Display) : Display :=
  { d with
    putBusy := false
    pending := d.pending - 1
    numConsoleCharsWritten := d.numConsoleCharsWritten + 1 }

end Display

end Hardware

namespace Userprog

open Hardware Lib Threads

/-- Where a thread is that may write. -/
inductive WriterPoint
  | outside
  /-- Asleep in `outputMutex->Acquire()`. -/
  | acquiring
  /-- In front of the test of the loop. -/
  | looping
  /-- In `outputDone->P()`, in front of the test of the value. -/
  | checking
  /-- In `P`, on the queue of the semaphore. -/
  | asleep
  deriving Repr, DecidableEq

/-- A thread with the variables of its call: `line` has moved on by `written`. -/
structure Writer where
  point : WriterPoint
  line : Memory
  written : Nat
  size : Int

/-- A call of `WriteLine`. -/
structure LineCall where
  thread : ThreadId
  line : Memory
  size : Int

/-- What it is to write. -/
def LineCall.bytes (c : LineCall) : List Byte := (List.range c.size.toNat).map c.line

/-- The output side of `class SynchConsole`, with its threads. -/
structure SynchOutput where
  console : Display
  outputMutex : Lock
  outputDone : Semaphore
  writer : ThreadId → Writer
  called : List LineCall
  returned : List LineCall

/-- What happens next: a thread calls `WriteLine`, a thread in it goes on, or the interrupt of
the console comes. -/
inductive OutputLabel
  | writeLine (t : ThreadId) (line : Memory) (size : Int)
  | goOn (t : ThreadId)
  | writeDone

/-- Why there is no step. -/
inductive OutputStop
  | assertFailed
  | busy
  | notWriting
  | waiting
  | notPending
  deriving Repr, DecidableEq

namespace SynchOutput

/-- `SynchConsole::SynchConsole`. -/
def construct : SynchOutput where
  console := ⟨[], false, 0, 0⟩
  outputMutex := newLock
  outputDone := newSemaphore 0
  writer := fun _ => ⟨.outside, fun _ => 0, 0, 0⟩
  called := []
  returned := []

/-- A thread goes on to another point. -/
def move (t : ThreadId) (point : WriterPoint) (s : SynchOutput) : SynchOutput :=
  { s with writer := Function.update s.writer t { s.writer t with point := point } }

/-- A thread calls `WriteLine`. -/
def enter (t : ThreadId) (line : Memory) (size : Int) (s : SynchOutput) : SynchOutput :=
  { s with
    writer := Function.update s.writer t ⟨.outside, line, 0, size⟩
    called := s.called ++ [⟨t, line, size⟩] }

/-- The call of `WriteLine`, up to the loop. -/
def writeLine (t : ThreadId) (line : Memory) (size : Int) (s : SynchOutput) :
    Except OutputStop SynchOutput :=
  if (s.writer t).point ≠ .outside then .error .busy
  else if s.outputMutex.owner = some t then .ok ((s.enter t line size).move t .looping)
  else if s.outputMutex.available then
    .ok ({ s.enter t line size with
      outputMutex := ⟨false, some t, s.outputMutex.waitingThreads⟩ }.move t .looping)
  else
    .ok ({ s.enter t line size with
      outputMutex := { s.outputMutex with
        waitingThreads := s.outputMutex.waitingThreads ++ [t] } }.move t .acquiring)

/-- The call that a thread is in. -/
def call (s : SynchOutput) (t : ThreadId) : LineCall :=
  ⟨t, (s.writer t).line, (s.writer t).size + (s.writer t).written⟩

/-- `console->PutChar(*line); line++`, behind the test of `size--`. -/
def putChar (t : ThreadId) (s : SynchOutput) : Except OutputStop SynchOutput :=
  let w := s.writer t
  match s.console.putChar (w.line w.written) with
  | none => .error .assertFailed
  | some console => .ok { s with
      console := console
      writer := Function.update s.writer t
        { w with point := .checking, written := w.written + 1, size := w.size - 1 } }

/-- `outputDone->P()`, from the test of the value on. -/
def await (t : ThreadId) (s : SynchOutput) : SynchOutput :=
  if s.outputDone.value = 0 then
    { s with outputDone := ⟨0, s.outputDone.queue ++ [t]⟩ }.move t .asleep
  else { s with outputDone := ⟨s.outputDone.value - 1, s.outputDone.queue⟩ }.move t .looping

/-- `outputMutex->Release()`, and the return of `WriteLine`. -/
def finish (t : ThreadId) (s : SynchOutput) : SynchOutput :=
  let returned := { s with returned := s.returned ++ [s.call t] }.move t .outside
  if s.outputMutex.owner = some t then
    match s.outputMutex.waitingThreads with
    | [] => { returned with outputMutex := ⟨true, none, []⟩ }
    | next :: rest =>
        { returned with
          outputMutex := ⟨s.outputMutex.available, some next, rest⟩ }.move next .looping
  else returned

/-- A thread in `WriteLine` goes on. -/
def goOn (t : ThreadId) (s : SynchOutput) : Except OutputStop SynchOutput :=
  match (s.writer t).point with
  | .outside => .error .notWriting
  | .acquiring => .error .waiting
  | .looping => if (s.writer t).size ≠ 0 then s.putChar t else .ok (s.finish t)
  | .checking => .ok (s.await t)
  | .asleep => .error .waiting

/-- The interrupt of the console: `SynchConsole::WriteDone`, which is a `V`. -/
def writeDone (s : SynchOutput) : Except OutputStop SynchOutput :=
  if s.console.pending = 0 then .error .notPending
  else
    let written := { s with console := s.console.writeDone }
    match s.outputDone.queue with
    | [] => .ok { written with outputDone := ⟨s.outputDone.value + 1, []⟩ }
    | next :: rest =>
        .ok ({ written with outputDone := ⟨s.outputDone.value + 1, rest⟩ }.move next .checking)

/-- One step. -/
def step : OutputLabel → SynchOutput → Except OutputStop SynchOutput
  | .writeLine t line size, s => s.writeLine t line size
  | .goOn t, s => s.goOn t
  | .writeDone, s => s.writeDone

/-- The threads that are in `WriteLine`, in the order in which they have or get the lock. -/
def inside (s : SynchOutput) : List ThreadId :=
  s.outputMutex.owner.toList ++ s.outputMutex.waitingThreads

/-- What a thread has written of its line. -/
def sofar (s : SynchOutput) (t : ThreadId) : List Byte :=
  (List.range (s.writer t).written).map (s.writer t).line

/-- The state of the display and of the semaphore. -/
structure Device (s : SynchOutput) (busy : Bool) (value : Int) (queue : List ThreadId) : Prop where
  putBusy : s.console.putBusy = busy
  pending : s.console.pending = busy.toNat
  outputDone : s.outputDone = ⟨value, queue⟩

/-- How far the owner of the lock is with its character. -/
inductive Handshake (s : SynchOutput) : Option ThreadId → Prop
  | free (hdevice : s.Device false 0 []) : Handshake s none
  | ready (t : ThreadId) (hpoint : (s.writer t).point = .looping) (hdevice : s.Device false 0 []) :
      Handshake s (some t)
  | sent (t : ThreadId) (hpoint : (s.writer t).point = .checking) (hdevice : s.Device true 0 []) :
      Handshake s (some t)
  | sleeps (t : ThreadId) (hpoint : (s.writer t).point = .asleep) (hdevice : s.Device true 0 [t]) :
      Handshake s (some t)
  | written (t : ThreadId) (hpoint : (s.writer t).point = .checking)
      (hdevice : s.Device false 1 []) : Handshake s (some t)

/-- What has been written is what the calls that have returned were to write, and a part of
the line of the owner; the calls return in the order in which they were made. -/
structure InOrder (s : SynchOutput) : Prop where
  handshake : s.Handshake s.outputMutex.owner
  acquiring : ∀ t, (s.writer t).point = .acquiring ↔ t ∈ s.outputMutex.waitingThreads
  outside : ∀ t, (s.writer t).point = .outside ↔ t ∉ s.inside
  nodup : s.inside.Nodup
  available : s.outputMutex.available = s.outputMutex.owner.isNone
  idle : s.outputMutex.owner = none → s.outputMutex.waitingThreads = []
  fresh : ∀ t ∈ s.outputMutex.waitingThreads, (s.writer t).written = 0
  called : s.called = s.returned ++ s.inside.map s.call
  file : s.console.writeFile = (s.returned.map LineCall.bytes).flatten ++
    (s.outputMutex.owner.toList.map s.sofar).flatten
  counted : s.console.numConsoleCharsWritten + s.console.pending = s.console.writeFile.length

theorem inOrder_construct : construct.InOrder where
  handshake := .free ⟨rfl, rfl, rfl⟩
  acquiring t := by simp [construct, newLock]
  outside t := by simp [construct, newLock, inside]
  nodup := List.nodup_nil
  available := rfl
  idle _ := rfl
  fresh t ht := absurd ht (by simp [construct, newLock])
  called := rfl
  file := rfl
  counted := rfl

section Points

variable {s s' : SynchOutput} {t u : ThreadId}

/-- A thread that is in the loop has the lock. -/
theorem InOrder.owner_eq (h : s.InOrder) (hin : (s.writer t).point ≠ .outside)
    (hacquired : (s.writer t).point ≠ .acquiring) : s.outputMutex.owner = some t := by
  have hmem : t ∈ s.inside := by
    by_contra hout
    exact hin ((h.outside t).mpr hout)
  rcases List.mem_append.mp hmem with howner | hwaiting
  · exact Option.mem_toList.mp howner
  · exact absurd ((h.acquiring t).mpr hwaiting) hacquired

theorem InOrder.inside_eq (h : s.outputMutex.owner = some t) :
    s.inside = t :: s.outputMutex.waitingThreads := by
  rw [inside, h]
  rfl

@[simp] theorem move_point (point : WriterPoint) (s : SynchOutput) (t u : ThreadId) :
    ((s.move t point).writer u).point = if u = t then point else (s.writer u).point := by
  by_cases hu : u = t
  · subst hu
    simp [move]
  · simp [move, hu]

/-- Moving on changes neither a line nor how far it is written. -/
@[simp] theorem move_call (point : WriterPoint) (s : SynchOutput) (t : ThreadId) :
    (s.move t point).call = s.call := by
  funext u
  by_cases hu : u = t
  · subst hu
    simp [move, call]
  · simp [move, call, hu]

@[simp] theorem move_sofar (point : WriterPoint) (s : SynchOutput) (t : ThreadId) :
    (s.move t point).sofar = s.sofar := by
  funext u
  by_cases hu : u = t
  · subst hu
    simp [move, sofar]
  · simp [move, sofar, hu]

@[simp] theorem move_written (point : WriterPoint) (s : SynchOutput) (t u : ThreadId) :
    ((s.move t point).writer u).written = (s.writer u).written := by
  by_cases hu : u = t
  · subst hu
    simp [move]
  · simp [move, hu]

end Points

section Steps

variable {s s' : SynchOutput} {t : ThreadId}

/-- The three ways in which a thread goes on. -/
theorem goOn_cases (h : s.goOn t = .ok s') :
    (s.writer t).point = .looping ∧ (s.writer t).size ≠ 0 ∧ s.putChar t = .ok s' ∨
    (s.writer t).point = .looping ∧ (s.writer t).size = 0 ∧ s' = s.finish t ∨
    (s.writer t).point = .checking ∧ s' = s.await t := by
  unfold goOn at h
  cases hpoint : (s.writer t).point with
  | outside => simp [hpoint] at h
  | acquiring => simp [hpoint] at h
  | asleep => simp [hpoint] at h
  | looping =>
      by_cases hsize : (s.writer t).size ≠ 0
      · simp only [hpoint, if_pos hsize] at h
        exact Or.inl ⟨rfl, hsize, h⟩
      · simp only [hpoint, if_neg hsize] at h
        exact Or.inr (Or.inl ⟨rfl, Decidable.not_not.mp hsize, (Except.ok.inj h).symm⟩)
  | checking =>
      simp only [hpoint] at h
      exact Or.inr (Or.inr ⟨rfl, (Except.ok.inj h).symm⟩)

/-- What is left of a line behind `PutChar`. -/
theorem putChar_ok (h : s.putChar t = .ok s') : ∃ console, s' = { s with
    console := console
    writer := Function.update s.writer t { s.writer t with
      point := .checking
      written := (s.writer t).written + 1
      size := (s.writer t).size - 1 } } := by
  simp only [putChar] at h
  split at h
  · exact absurd h (by simp)
  · rename_i console hput
    exact ⟨console, (Except.ok.inj h).symm⟩

/-- The interrupt leaves its signal, or wakes the thread that waits for it. -/
theorem writeDone_cases (h : s.writeDone = .ok s') : s.console.pending ≠ 0 ∧
    (s.outputDone.queue = [] ∧ s' = { s with
      console := s.console.writeDone, outputDone := ⟨s.outputDone.value + 1, []⟩ } ∨
    ∃ next rest, s.outputDone.queue = next :: rest ∧ s' = move next .checking { s with
      console := s.console.writeDone, outputDone := ⟨s.outputDone.value + 1, rest⟩ }) := by
  unfold writeDone at h
  split at h
  · exact absurd h (by simp)
  · rename_i hpending
    refine ⟨hpending, ?_⟩
    cases hqueue : s.outputDone.queue with
    | nil =>
        rw [hqueue] at h
        exact Or.inl ⟨rfl, (Except.ok.inj h).symm⟩
    | cons next rest =>
        rw [hqueue] at h
        exact Or.inr ⟨next, rest, rfl, (Except.ok.inj h).symm⟩

theorem await_frame (t : ThreadId) (s : SynchOutput) :
    (s.await t).called = s.called ∧ (s.await t).returned = s.returned := by
  unfold await
  split
  · exact ⟨rfl, rfl⟩
  · exact ⟨rfl, rfl⟩

theorem finish_frame (howner : s.outputMutex.owner = some t) :
    (s.finish t).called = s.called ∧ (s.finish t).returned = s.returned ++ [s.call t] := by
  unfold finish
  simp only [howner, if_true]
  split
  · exact ⟨rfl, rfl⟩
  · exact ⟨rfl, rfl⟩

/-- The owner makes a step in the loop: it stays in the same call. -/
theorem InOrder.ownerStep (h : s.InOrder) (howner : s.outputMutex.owner = some t)
    (w : Writer) (console : Display) (outputDone : Semaphore)
    (hpoint : w.point ≠ .outside ∧ w.point ≠ .acquiring) (hline : w.line = (s.writer t).line)
    (hsize : w.size + w.written = (s.writer t).size + (s.writer t).written)
    (hshake : Handshake { s with
      console := console, outputDone := outputDone
      writer := Function.update s.writer t w } (some t))
    (hfile : console.writeFile = (s.returned.map LineCall.bytes).flatten ++
      (List.range w.written).map w.line)
    (hcounted : console.numConsoleCharsWritten + console.pending = console.writeFile.length) :
    InOrder { s with
      console := console, outputDone := outputDone
      writer := Function.update s.writer t w } := by
  have hinside := inside_eq howner
  have hnodup := h.nodup
  rw [hinside, List.nodup_cons] at hnodup
  constructor
  case handshake => exact howner.symm ▸ hshake
  case acquiring =>
    intro u
    by_cases hu : u = t
    · subst hu
      simp only [Function.update_self]
      exact iff_of_false hpoint.2 hnodup.1
    · simp only [Function.update_of_ne hu]
      exact h.acquiring u
  case outside =>
    intro u
    show _ ↔ u ∉ s.inside
    by_cases hu : u = t
    · subst hu
      simp only [Function.update_self, hinside]
      exact iff_of_false hpoint.1 (by simp)
    · simp only [Function.update_of_ne hu]
      exact h.outside u
  case nodup => exact h.nodup
  case available => exact h.available
  case idle => exact h.idle
  case fresh =>
    intro u hu
    have hne : u ≠ t := fun heq => hnodup.1 (heq ▸ hu)
    simp only [Function.update_of_ne hne]
    exact h.fresh u hu
  case called =>
    rw [h.called]
    congr 1
    show s.inside.map s.call = s.inside.map _
    refine List.map_congr_left fun u _ => ?_
    by_cases hu : u = t
    · subst hu
      simp only [call, Function.update_self, hline, hsize]
    · simp only [call, Function.update_of_ne hu]
  case file =>
    rw [hfile]
    simp [howner, sofar]
  case counted => exact hcounted

/-- A character is handed to the display, which is ready for it. -/
theorem InOrder.putChar (h : s.InOrder) (hpoint : (s.writer t).point = .looping) :
    ∃ s', s.putChar t = .ok s' ∧ s'.InOrder := by
  have howner := h.owner_eq (t := t) (by simp [hpoint]) (by simp [hpoint])
  have hshake := h.handshake
  rw [howner] at hshake
  cases hshake with
  | sent _ hother _ => simp [hpoint] at hother
  | sleeps _ hother _ => simp [hpoint] at hother
  | written _ hother _ => simp [hpoint] at hother
  | ready _ _ hdevice =>
      have hfile := h.file
      have hcounted := h.counted
      have hpending := hdevice.pending
      simp only [SynchOutput.putChar, Display.putChar, hdevice.putBusy, if_true]
      refine ⟨_, rfl, h.ownerStep howner _ _ _ (by simp) rfl ?_ ?_ ?_ ?_⟩
      · push_cast
        omega
      · exact .sent t (by simp) ⟨rfl, by simpa using hpending, hdevice.outputDone⟩
      · rw [hfile, howner, List.range_succ]
        simp [sofar]
      · simp only [List.length_append, List.length_singleton, ← hcounted]
        rfl

/-- The wait for the interrupt. -/
theorem InOrder.await (h : s.InOrder) (hpoint : (s.writer t).point = .checking) :
    (s.await t).InOrder := by
  have howner := h.owner_eq (t := t) (by simp [hpoint]) (by simp [hpoint])
  have hshake := h.handshake
  have hfile := h.file
  rw [howner] at hshake hfile
  have hsofar : s.console.writeFile = (s.returned.map LineCall.bytes).flatten ++
      (List.range (s.writer t).written).map (s.writer t).line := by simpa [sofar] using hfile
  cases hshake with
  | ready _ hother _ => simp [hpoint] at hother
  | sleeps _ hother _ => simp [hpoint] at hother
  | sent _ _ hdevice =>
      rw [SynchOutput.await, hdevice.outputDone]
      exact h.ownerStep howner _ _ _ (by simp) rfl rfl
        (.sleeps t (by simp) ⟨hdevice.putBusy, hdevice.pending, rfl⟩) hsofar h.counted
  | written _ _ hdevice =>
      rw [SynchOutput.await, hdevice.outputDone]
      exact h.ownerStep howner _ _ _ (by simp) rfl rfl
        (.ready t (by simp) ⟨hdevice.putBusy, hdevice.pending, rfl⟩) hsofar h.counted

/-- The interrupt of the display. -/
theorem InOrder.writeDone (h : s.InOrder) (hstep : s.writeDone = .ok s') : s'.InOrder := by
  unfold SynchOutput.writeDone at hstep
  split at hstep
  case isTrue => exact absurd hstep (by simp)
  case isFalse hpending =>
  have hshake := h.handshake
  have hcounted := h.counted
  cases howner : s.outputMutex.owner with
  -- Nothing is pending when nobody has the lock.
  | none =>
      rw [howner] at hshake
      cases hshake with
      | free hdevice => exact absurd hdevice.pending hpending
  | some t =>
      have hfile := h.file
      rw [howner] at hshake hfile
      have hsofar : s.console.writeFile = (s.returned.map LineCall.bytes).flatten ++
          (List.range (s.writer t).written).map (s.writer t).line := by
        simpa [sofar] using hfile
      cases hshake with
      | ready _ _ hdevice => exact absurd hdevice.pending hpending
      | written _ _ hdevice => exact absurd hdevice.pending hpending
      -- The owner has not come to `outputDone->P()` yet, and will not sleep there.
      | sent _ hpoint hdevice =>
          have hone : s.console.pending = 1 := hdevice.pending
          rw [hdevice.outputDone] at hstep
          obtain rfl := Except.ok.inj hstep
          have hnext := h.ownerStep howner (s.writer t) s.console.writeDone ⟨1, []⟩
            (by simp [hpoint]) rfl rfl
            (.written t (by simp [hpoint]) ⟨rfl, by simp [Display.writeDone, hone], rfl⟩) hsofar
            (by simp only [Display.writeDone]; omega)
          rw [Function.update_eq_self] at hnext
          exact hnext
      | sleeps _ hpoint hdevice =>
          have hone : s.console.pending = 1 := hdevice.pending
          rw [hdevice.outputDone] at hstep
          obtain rfl := Except.ok.inj hstep
          exact h.ownerStep howner _ s.console.writeDone ⟨1, []⟩ (by simp) rfl rfl
            (.written t (by simp) ⟨rfl, by simp [Display.writeDone, hone], rfl⟩) hsofar
            (by simp only [Display.writeDone]; omega)

/-- The call returns, and nobody waits for the lock. -/
theorem finish_last (howner : s.outputMutex.owner = some t)
    (hwaiting : s.outputMutex.waitingThreads = []) :
    s.finish t = { s with
      outputMutex := ⟨true, none, []⟩
      writer := Function.update s.writer t { s.writer t with point := .outside }
      returned := s.returned ++ [s.call t] } := by
  simp only [SynchOutput.finish, howner, hwaiting, if_true]
  rfl

/-- The call returns, and the first thread that waits for the lock gets it. -/
theorem finish_next {next : ThreadId} {rest : List ThreadId}
    (howner : s.outputMutex.owner = some t)
    (hwaiting : s.outputMutex.waitingThreads = next :: rest) (hne : next ≠ t) :
    s.finish t = { s with
      outputMutex := ⟨s.outputMutex.available, some next, rest⟩
      writer := Function.update
        (Function.update s.writer t { s.writer t with point := .outside }) next
        { s.writer next with point := .looping }
      returned := s.returned ++ [s.call t] } := by
  simp only [SynchOutput.finish, howner, hwaiting, if_true, move, Function.update_of_ne hne]

/-- The lock is released, to the first thread that waits for it, and the call returns. -/
theorem InOrder.finish (h : s.InOrder) (hpoint : (s.writer t).point = .looping)
    (hsize : (s.writer t).size = 0) : (s.finish t).InOrder := by
  have howner := h.owner_eq (t := t) (by simp [hpoint]) (by simp [hpoint])
  have hinside := inside_eq howner
  have hnodup := h.nodup
  have hshake := h.handshake
  have hfile := h.file
  have hcalled := h.called
  rw [hinside] at hnodup hcalled
  rw [howner] at hshake hfile
  have hbytes : (s.call t).bytes = s.sofar t := by
    simp [LineCall.bytes, call, sofar, hsize]
  have hwritten : s.console.writeFile =
      ((s.returned ++ [s.call t]).map LineCall.bytes).flatten := by
    rw [hfile]
    simp [hbytes]
  -- A thread at the head of its loop has seen the interrupt of its last character.
  cases hshake with
  | sent _ hother _ => simp [hpoint] at hother
  | sleeps _ hother _ => simp [hpoint] at hother
  | written _ hother _ => simp [hpoint] at hother
  | ready _ _ hdevice =>
      cases hwaiting : s.outputMutex.waitingThreads with
      | nil =>
          rw [hwaiting] at hcalled hinside
          rw [finish_last howner hwaiting]
          constructor
          case handshake => exact .free ⟨hdevice.putBusy, hdevice.pending, hdevice.outputDone⟩
          case acquiring =>
            intro u
            have hold := h.acquiring u
            rw [hwaiting] at hold
            by_cases hu : u = t
            · simp [hu]
            · simpa [hu] using hold
          case outside =>
            intro u
            have hold := h.outside u
            rw [hinside] at hold
            by_cases hu : u = t
            · simp [hu, inside]
            · simpa [hu, inside] using hold
          case nodup => exact List.nodup_nil
          case available => rfl
          case idle => exact fun _ => rfl
          case fresh => exact fun u hu => absurd hu List.not_mem_nil
          case called => simpa [inside] using hcalled
          case file => simpa using hwritten
          case counted => exact h.counted
      -- The lock goes on to `next`, whose call begins its line.
      | cons next rest =>
          rw [hwaiting] at hcalled hinside hnodup
          have hne : next ≠ t := fun heq => by simp [heq] at hnodup
          rw [finish_next howner hwaiting hne]
          have hsame : ∀ u, u ≠ t → u ≠ next → Function.update
              (Function.update s.writer t { s.writer t with point := .outside }) next
              { s.writer next with point := .looping } u = s.writer u := by
            intro u hut hun
            rw [Function.update_of_ne hun, Function.update_of_ne hut]
          constructor
          case handshake =>
            exact .ready next (by simp) ⟨hdevice.putBusy, hdevice.pending, hdevice.outputDone⟩
          case acquiring =>
            intro u
            have hold := h.acquiring u
            rw [hwaiting] at hold
            by_cases hun : u = next
            · subst hun
              simpa using hnodup.of_cons.notMem
            · by_cases hut : u = t
              · subst hut
                have hout : u ∉ rest := fun hu => hnodup.notMem (List.mem_cons_of_mem _ hu)
                simpa [Function.update_of_ne hun] using hout
              · simp only [hsame u hut hun]
                simpa [hun] using hold
          case outside =>
            intro u
            have hold := h.outside u
            rw [hinside] at hold
            show _ ↔ u ∉ next :: rest
            by_cases hun : u = next
            · simp [hun]
            · by_cases hut : u = t
              · subst hut
                simpa [Function.update_of_ne hun] using hnodup.notMem
              · simp only [hsame u hut hun]
                simpa [hut] using hold
          case nodup => exact hnodup.of_cons
          case available =>
            have havailable := h.available
            rw [howner] at havailable
            exact havailable
          case idle => exact fun hnone => absurd hnone (by simp)
          case fresh =>
            intro u hu
            have hun : u ≠ next := fun heq => hnodup.of_cons.notMem (heq ▸ hu)
            have hut : u ≠ t := fun heq => hnodup.notMem (heq ▸ List.mem_cons_of_mem _ hu)
            simp only [hsame u hut hun]
            exact h.fresh u (hwaiting ▸ List.mem_cons_of_mem _ hu)
          case called =>
            rw [hcalled, List.map_cons, List.append_cons]
            congr 1
            show (next :: rest).map s.call = (next :: rest).map _
            refine List.map_congr_left fun u hu => ?_
            by_cases hun : u = next
            · subst hun
              simp [call]
            · have hut : u ≠ t := fun heq => hnodup.notMem (heq ▸ hu)
              simp only [call, hsame u hut hun]
          case file =>
            have hfresh := h.fresh next (hwaiting ▸ List.mem_cons_self)
            rw [hwritten]
            simp [sofar, hfresh]
          case counted => exact h.counted

/-- Another thread has changed its variables. -/
theorem Handshake.of_same {owner : Option ThreadId}
    (hpoint : ∀ u, owner = some u → (s'.writer u).point = (s.writer u).point)
    (hconsole : s'.console = s.console) (hdone : s'.outputDone = s.outputDone)
    (h : s.Handshake owner) : s'.Handshake owner := by
  have hdevice : ∀ {busy value queue}, s.Device busy value queue → s'.Device busy value queue := by
    intro busy value queue hold
    exact ⟨hconsole ▸ hold.putBusy, hconsole ▸ hold.pending, hdone ▸ hold.outputDone⟩
  cases h with
  | free hold => exact .free (hdevice hold)
  | ready u hu hold => exact .ready u ((hpoint u rfl).trans hu) (hdevice hold)
  | sent u hu hold => exact .sent u ((hpoint u rfl).trans hu) (hdevice hold)
  | sleeps u hu hold => exact .sleeps u ((hpoint u rfl).trans hu) (hdevice hold)
  | written u hu hold => exact .written u ((hpoint u rfl).trans hu) (hdevice hold)

/-- The call of `WriteLine`. -/
theorem InOrder.writeLine (h : s.InOrder) {line : Memory} {size : Int}
    (hstep : s.writeLine t line size = .ok s') : s'.InOrder := by
  unfold SynchOutput.writeLine at hstep
  split at hstep
  case isTrue => exact absurd hstep (by simp)
  case isFalse hpoint =>
  have hout : t ∉ s.inside := (h.outside t).mp (Decidable.not_not.mp hpoint)
  have howner : s.outputMutex.owner ≠ some t := by
    intro howner
    rw [inside_eq howner] at hout
    simp at hout
  rw [if_neg howner] at hstep
  have hsame : ∀ u, u ≠ t → (s.enter t line size).writer u = s.writer u :=
    fun u hu => Function.update_of_ne hu _ _
  have hcall : (s.enter t line size).call t = ⟨t, line, size⟩ := by simp [enter, call]
  by_cases havailable : s.outputMutex.available = true
  · have hnone : s.outputMutex.owner = none := by
      have hfree := h.available
      rw [havailable] at hfree
      exact Option.isNone_iff_eq_none.mp hfree.symm
    have hwaiting := h.idle hnone
    have hempty : s.inside = [] := by simp [inside, hnone, hwaiting]
    have hshake := h.handshake
    have hcalled := h.called
    have hfile := h.file
    rw [hnone] at hshake hfile
    rw [hempty] at hcalled
    rw [if_pos havailable, hwaiting] at hstep
    obtain rfl := Except.ok.inj hstep
    cases hshake with
    | free hdevice =>
        constructor
        case handshake =>
          exact .ready t (by simp) ⟨hdevice.putBusy, hdevice.pending, hdevice.outputDone⟩
        case acquiring =>
          intro u
          have hold := h.acquiring u
          rw [hwaiting] at hold
          by_cases hu : u = t
          · simp [hu, move]
          · simpa [hu, hsame u hu, move] using hold
        case outside =>
          intro u
          have hold := h.outside u
          rw [hempty] at hold
          show _ ↔ u ∉ [t]
          by_cases hu : u = t
          · simp [hu]
          · simpa [hu, hsame u hu] using hold
        case nodup => exact List.nodup_singleton t
        case available => rfl
        case idle => exact fun habs => absurd habs (by simp [move])
        case fresh => exact fun u hu => absurd hu (by simp [move])
        case called =>
          rw [move_call]
          show s.called ++ [⟨t, line, size⟩] = s.returned ++ [(s.enter t line size).call t]
          rw [hcalled, hcall]
          simp
        case file =>
          show s.console.writeFile = _
          rw [hfile]
          simp [sofar, enter, move]
        case counted => exact h.counted
  · -- the lock is taken, and the thread joins those that wait
    obtain ⟨o, ho⟩ : ∃ o, s.outputMutex.owner = some o := by
      cases ho : s.outputMutex.owner with
      | some o => exact ⟨o, rfl⟩
      | none => exact absurd (by rw [h.available, ho]; rfl) havailable
    have hne : o ≠ t := fun heq => howner (heq ▸ ho)
    rw [if_neg havailable] at hstep
    obtain rfl := Except.ok.inj hstep
    have hinside : s.inside ++ [t] = s.outputMutex.owner.toList ++
        (s.outputMutex.waitingThreads ++ [t]) := by rw [inside, List.append_assoc]
    constructor
    case handshake =>
      refine Handshake.of_same (s := s) ?_ rfl rfl h.handshake
      intro u hu
      have hut : u ≠ t := fun heq => howner (heq ▸ hu)
      simp [hut, hsame u hut]
    case acquiring =>
      intro u
      show _ ↔ u ∈ s.outputMutex.waitingThreads ++ [t]
      by_cases hu : u = t
      · simp [hu]
      · simpa [hu, hsame u hu] using h.acquiring u
    case outside =>
      intro u
      show _ ↔ u ∉ s.outputMutex.owner.toList ++ (s.outputMutex.waitingThreads ++ [t])
      rw [← hinside]
      by_cases hu : u = t
      · simp [hu]
      · simpa [hu, hsame u hu] using h.outside u
    case nodup =>
      show (s.outputMutex.owner.toList ++ (s.outputMutex.waitingThreads ++ [t])).Nodup
      rw [← hinside]
      exact h.nodup.append (List.nodup_singleton t) (by simpa using hout)
    case available => exact h.available
    case idle => exact fun hnone => absurd (ho.symm.trans hnone) (by simp)
    case fresh =>
      intro u hu
      rw [move_written]
      rcases List.mem_append.mp hu with hold | hnew
      · have hut : u ≠ t := fun heq => hout (heq ▸ List.mem_append_right _ hold)
        show ((s.enter t line size).writer u).written = 0
        rw [hsame u hut]
        exact h.fresh u hold
      · obtain rfl := List.mem_singleton.mp hnew
        simp [enter]
    case called =>
      rw [move_call]
      show s.called ++ [⟨t, line, size⟩] = s.returned ++
        (s.outputMutex.owner.toList ++ (s.outputMutex.waitingThreads ++ [t])).map
          (s.enter t line size).call
      rw [← hinside, List.map_append, h.called, ← List.append_assoc, List.map_singleton, hcall]
      congr 2
      refine List.map_congr_left fun u hu => ?_
      have hut : u ≠ t := fun heq => hout (heq ▸ hu)
      simp only [call, hsame u hut]
    case file =>
      rw [move_sofar]
      show s.console.writeFile = (s.returned.map LineCall.bytes).flatten ++
        (s.outputMutex.owner.toList.map (s.enter t line size).sofar).flatten
      rw [h.file, ho]
      simp [sofar, hsame o hne]
    case counted => exact h.counted

/-- A thread in `WriteLine` goes on, unless it sleeps. -/
theorem InOrder.goOn (h : s.InOrder) (t : ThreadId) :
    (∃ s', s.goOn t = .ok s' ∧ s'.InOrder) ∨
      (s.goOn t = .error .notWriting ∧ (s.writer t).point = .outside) ∨
      s.goOn t = .error .waiting ∧
        ((s.writer t).point = .acquiring ∨ (s.writer t).point = .asleep) := by
  unfold SynchOutput.goOn
  cases hpoint : (s.writer t).point with
  | outside => exact Or.inr (Or.inl ⟨rfl, rfl⟩)
  | acquiring => exact Or.inr (Or.inr ⟨rfl, Or.inl rfl⟩)
  | looping =>
      by_cases hsize : (s.writer t).size ≠ 0
      · simp only [if_pos hsize]
        exact Or.inl (h.putChar hpoint)
      · simp only [if_neg hsize]
        exact Or.inl ⟨_, rfl, h.finish hpoint (Decidable.not_not.mp hsize)⟩
  | checking => exact Or.inl ⟨_, rfl, h.await hpoint⟩
  | asleep => exact Or.inr (Or.inr ⟨rfl, Or.inr rfl⟩)

theorem InOrder.step (h : s.InOrder) {label : OutputLabel} (hstep : step label s = .ok s') :
    s'.InOrder := by
  cases label with
  | writeLine t line size => exact h.writeLine hstep
  | goOn t =>
      have hgo : s.goOn t = .ok s' := hstep
      rcases h.goOn t with ⟨s'', hok, hnext⟩ | ⟨hno, -⟩ | ⟨hno, -⟩
      · obtain rfl := Except.ok.inj (hok.symm.trans hgo)
        exact hnext
      · exact absurd (hno.symm.trans hgo) (by simp)
      · exact absurd (hno.symm.trans hgo) (by simp)
  | writeDone => exact h.writeDone hstep

/-- The assertion of `PutChar` does not fail. -/
theorem InOrder.not_assertFailed (h : s.InOrder) (label : OutputLabel) :
    SynchOutput.step label s ≠ .error .assertFailed := by
  cases label with
  | writeLine t line size =>
      show s.writeLine t line size ≠ _
      unfold SynchOutput.writeLine
      split
      · simp
      · split
        · simp
        · split <;> simp
  | goOn t =>
      show s.goOn t ≠ _
      rcases h.goOn t with ⟨s', hok, -⟩ | ⟨hno, -⟩ | ⟨hno, -⟩
      · simp [hok]
      · simp [hno]
      · simp [hno]
  | writeDone =>
      show s.writeDone ≠ _
      unfold SynchOutput.writeDone
      split
      · simp
      · split <;> simp

/-- A call that returns has written its line, to the last interrupt. -/
theorem InOrder.returns (h : s.InOrder) (hstep : s.goOn t = .ok s')
    (hreturns : s'.returned ≠ s.returned) :
    s'.returned = s.returned ++ [s.call t] ∧ s.sofar t = (s.call t).bytes ∧
      s.console.numConsoleCharsWritten = s.console.writeFile.length := by
  rcases goOn_cases hstep with ⟨-, -, hput⟩ | ⟨hpoint, hsize, rfl⟩ | ⟨-, rfl⟩
  · obtain ⟨console, rfl⟩ := putChar_ok hput
    exact absurd rfl hreturns
  · have howner := h.owner_eq (t := t) (by simp [hpoint]) (by simp [hpoint])
    have hshake := h.handshake
    have hcounted := h.counted
    rw [howner] at hshake
    refine ⟨(finish_frame howner).2, by simp [LineCall.bytes, call, sofar, hsize], ?_⟩
    cases hshake with
    | ready _ _ hdevice =>
        have hpending : s.console.pending = 0 := hdevice.pending
        omega
    | sent _ hother _ => simp [hpoint] at hother
    | sleeps _ hother _ => simp [hpoint] at hother
    | written _ hother _ => simp [hpoint] at hother
  · exact absurd (await_frame t s).2 hreturns

end Steps

section Runs

variable {s : SynchOutput}

theorem inOrder_of_reach (hrun : Reach step (fun _ _ => True) construct s) : s.InOrder :=
  hrun.invariant (fun _ _ _ hu _ hstep => hu.step hstep) inOrder_construct

/-- In every run of any number of writing threads the assertion of `PutChar` never fails, the
calls return in the order in which they were made, the display shows the lines of the calls
that have returned and then a part of the line of the owner, and a call returns when its whole
line is there and every interrupt has come. -/
theorem lines_in_order (hrun : Reach step (fun _ _ => True) construct s) :
    (∀ label, step label s ≠ .error .assertFailed) ∧
    s.called = s.returned ++ s.inside.map s.call ∧
    s.console.writeFile = (s.returned.map LineCall.bytes).flatten ++
      (s.outputMutex.owner.toList.map s.sofar).flatten ∧
    ∀ t s', step (.goOn t) s = .ok s' → s'.returned ≠ s.returned →
      s'.returned = s.returned ++ [s.call t] ∧ s.sofar t = (s.call t).bytes ∧
        s.console.numConsoleCharsWritten = s.console.writeFile.length := by
  have h := inOrder_of_reach hrun
  exact ⟨h.not_assertFailed, h.called, h.file, fun t s' hstep hreturns => h.returns hstep hreturns⟩

/-- Two threads write a line each; the second one calls while the first one waits for its
first character. -/
def twoLines : List OutputLabel :=
  [.writeLine 0 (fun k => BitVec.ofNat 8 (97 + k)) 2, .goOn 0, .writeLine 1 (fun _ => 120) 1,
    .goOn 0]

theorem lines_in_order_twoLines : ∃ s, Reach step (fun _ _ => True) construct s ∧
    s.console.writeFile = [97] ∧ s.inside = [0, 1] ∧
    s.called = s.returned ++ s.inside.map s.call ∧
    ∀ label, step label s ≠ .error .assertFailed := by
  have hreplay : (replay step (fun _ _ => true) twoLines construct).any
      (fun s => decide (s.console.writeFile = [97] ∧ s.inside = [0, 1])) = true := by decide
  obtain ⟨s, hrun, hfile, hinside⟩ := exists_reach_of_replay (fun _ _ _ => trivial) hreplay
  obtain ⟨hassert, hcalled, -, -⟩ := lines_in_order hrun
  exact ⟨s, hrun, hfile, hinside, hcalled, hassert⟩

end Runs

end SynchOutput

end Userprog
end Nachos
