import Mathlib.Algebra.BigOperators.Group.Finset.Basic
import Nachos.Lib.MesaCounter
import Nachos.Threads.StepAccounts
import Nachos.Threads.ThreadLife

/-!
# Semaphores keep count

`V` readies the first thread of the queue and adds a unit, but the thread does not
own the unit: it goes back to the test of `P`, and whoever tests first takes it.
So a semaphore is a counter in the sense of `Lib.Counter`, and every step of the
kernel, whatever thread or interrupt handler it belongs to, is a sequence of moves
of that counter.

Which threads `V` has readied the kernel does not say.  `Watch` runs beside it and
writes it down, together with the number of calls of `P`.
-/

namespace Nachos
namespace Threads

open Lib Relation

variable {κ σ ι : Type}

/-- The event is a decrement of semaphore `i`. -/
def Event.takes (i : SemaphoreId) : Event → Bool
  | .semaphoreTaken j _ => j = i
  | _ => false

/-- The event is a `V` of semaphore `i`. -/
def Event.raises (i : SemaphoreId) : Event → Bool
  | .semaphoreRaised j => j = i
  | _ => false

/-- The frame is the loop of a call of `P`. -/
def Frame.tests (i : SemaphoreId) : Frame κ → Bool
  | .whileValueZero j => j = i
  | _ => false

/-- The kernel, the threads each semaphore has readied and that have not tested
`value` again, and the number of calls of `P`. -/
structure Watch (κ σ : Type) where
  kernel : Kernel κ σ
  readied : SemaphoreId → List ThreadId
  called : SemaphoreId → Nat

namespace Watch

/-- `V` readies the first thread of the queue. -/
def wake (i : SemaphoreId) (s : Kernel κ σ) (readied : SemaphoreId → List ThreadId) :
    SemaphoreId → List ThreadId :=
  match (s.semaphore i).queue with
  | [] => readied
  | t :: _ => Function.update readied i (t :: readied i)

/-- The handlers of interrupts that are due. -/
def wakeAll : List Interrupt → Kernel κ σ → (SemaphoreId → List ThreadId) →
    SemaphoreId → List ThreadId
  | [], _, readied => readied
  | .timer :: interrupts, s, readied => wakeAll interrupts (s.handle .timer) readied
  | .device i :: interrupts, s, readied =>
      wakeAll interrupts (s.handle (.device i)) (wake i s readied)

/-- The threads that are readied, and not back at their test, after a step. -/
def readiedNext (choice : Choice ι) (w : Watch κ σ) : SemaphoreId → List ThreadId :=
  match w.kernel.top with
  | some (.call (.semaphoreV i)) => wake i w.kernel w.readied
  | some .oneTick => wakeAll choice.interrupts w.kernel w.readied
  | some .sleepLoop =>
      match w.kernel.readyList with
      | [] => wakeAll choice.interrupts w.kernel w.readied
      | _ :: _ => w.readied
  | some (.whileValueZero i) =>
      Function.update w.readied i ((w.readied i).erase w.kernel.currentThread)
  | _ => w.readied

/-- The calls of `P` after a step. -/
def calledNext (w : Watch κ σ) : SemaphoreId → Nat :=
  match w.kernel.top with
  | some (.call (.semaphoreP i)) => Function.update w.called i (w.called i + 1)
  | _ => w.called

/-- One step of the kernel, watched. -/
def step (client : Client κ σ ι) (choice : Choice ι) (w : Watch κ σ) :
    Except Stop (Watch κ σ) :=
  match w.kernel.step client choice with
  | .ok kernel => .ok ⟨kernel, w.readiedNext choice, w.calledNext⟩
  | .error stop => .error stop

/-- The watch begins at boot. -/
def boot (initialValue : SemaphoreId → Int) (state : σ) (main : κ) : Watch κ σ :=
  ⟨Kernel.boot initialValue state main, fun _ => [], fun _ => 0⟩

/-- The watched runs. -/
abbrev Run (client : Client κ σ ι) : Watch κ σ → Watch κ σ → Prop :=
  Reach (step client) fun _ _ => True

end Watch

namespace Kernel

/-- The calls of `V` on semaphore `i`, by threads and by interrupt handlers. -/
def raised (s : Kernel κ σ) (i : SemaphoreId) : Nat := s.history.countP (Event.raises i)

/-- The calls of `P` on semaphore `i` that have decremented `value`. -/
def taken (s : Kernel κ σ) (i : SemaphoreId) : Nat := s.history.countP (Event.takes i)

/-- The calls of `P` on semaphore `i` that are still in their loop. -/
def testing (s : Kernel κ σ) (i : SemaphoreId) : Nat :=
  ∑ t ∈ Finset.range s.threadCount, (s.stack t).countP (Frame.tests i)

/-- Semaphore `i` as a counter. -/
def counter (s : Kernel κ σ) (readied : SemaphoreId → List ThreadId) (i : SemaphoreId) :
    Counter ThreadId where
  value := (s.semaphore i).value
  queue := (s.semaphore i).queue
  readied := readied i
  raised := s.raised i
  taken := s.taken i

section Moves

variable {s s' : Kernel κ σ} {readied : SemaphoreId → List ThreadId} {i : SemaphoreId}

/-- A step that is not about the semaphore. -/
theorem counter_same (hsemaphore : s'.semaphore i = s.semaphore i) {events : List Event}
    (hadds : s.Adds s' events)
    (hother : ∀ e ∈ events, e.raises i = false ∧ e.takes i = false) :
    s'.counter readied i = s.counter readied i := by
  have hcount : ∀ p : Event → Bool, (∀ e ∈ events, p e = false) →
      s'.history.countP p = s.history.countP p := by
    intro p hp
    have hnone : events.countP p = 0 := List.countP_eq_zero.mpr fun e he => by simp [hp e he]
    rw [hadds, List.countP_append, hnone]
    rfl
  have hraised : s'.raised i = s.raised i := hcount _ fun e he => (hother e he).1
  have htaken : s'.taken i = s.taken i := hcount _ fun e he => (hother e he).2
  simp only [counter, hsemaphore, hraised, htaken]

theorem counter_of_sameAccounts (h : SameAccounts s s') (i : SemaphoreId) :
    s'.counter readied i = s.counter readied i := by
  obtain ⟨events, hadds, hother⟩ := h.history
  refine counter_same (by rw [h.semaphore]) hadds fun e he => ?_
  have hkind := hother e he
  cases e <;> simp_all [Event.isAccounted, Event.raises, Event.takes]

/-- `V` of a semaphore is a raise of its counter and of no other. -/
theorem raiseSemaphore_moves_counter (s : Kernel κ σ) (readied : SemaphoreId → List ThreadId)
    (i j : SemaphoreId) :
    ReflTransGen Counter.Move (s.counter readied i)
      ((s.raiseSemaphore j).counter (Watch.wake j s readied) i) := by
  have hadds : s.Adds (s.raiseSemaphore j) [.semaphoreRaised j] := by
    unfold raiseSemaphore
    split
    · rfl
    · rfl
  by_cases hij : i = j
  · subst hij
    have hraised : (s.raiseSemaphore i).raised i = s.raised i + 1 := by
      rw [raised, hadds, List.countP_append]
      simp [raised, Event.raises]
    have htaken : (s.raiseSemaphore i).taken i = s.taken i := by
      rw [taken, hadds, List.countP_append]
      simp [taken, Event.takes]
    have hraise : (s.raiseSemaphore i).counter (Watch.wake i s readied) i =
        (s.counter readied i).raise := by
      rw [counter, hraised, htaken]
      unfold Counter.raise raiseSemaphore Watch.wake
      cases hqueue : (s.semaphore i).queue with
      | nil => simp [counter, hqueue, setSemaphore, record]
      | cons t rest => simp [counter, hqueue, setSemaphore, record, readyToRun]
    rw [hraise]
    exact .single (.raise _)
  · have hsemaphore : (s.raiseSemaphore j).semaphore i = s.semaphore i := by
      unfold raiseSemaphore
      split
      · simp [record, setSemaphore, hij]
      · simp [record, setSemaphore, readyToRun, hij]
    have hreadied : Watch.wake j s readied i = readied i := by
      unfold Watch.wake
      cases (s.semaphore j).queue with
      | nil => rfl
      | cons t rest => exact Function.update_of_ne hij _ _
    have hsame : (s.raiseSemaphore j).counter (Watch.wake j s readied) i =
        (s.raiseSemaphore j).counter readied i := by
      simp only [counter, hreadied]
    rw [hsame, counter_same hsemaphore hadds (by simp [Event.raises, Event.takes, Ne.symm hij])]

theorem handleAll_moves_counter (interrupts : List Interrupt) (s : Kernel κ σ)
    (readied : SemaphoreId → List ThreadId) (i : SemaphoreId) :
    ReflTransGen Counter.Move (s.counter readied i)
      ((s.handleAll interrupts).counter (Watch.wakeAll interrupts s readied) i) := by
  induction interrupts generalizing s readied with
  | nil => exact .refl
  | cons irq interrupts ih =>
      cases irq with
      | timer => exact ih (s.handle .timer) readied
      | device j =>
          exact (raiseSemaphore_moves_counter s readied i j).trans
            (ih (s.handle (.device j)) (Watch.wake j s readied))

/-- The handlers look at the semaphores only. -/
theorem wakeAll_congr (interrupts : List Interrupt) {s s' : Kernel κ σ}
    (hsemaphore : s'.semaphore = s.semaphore) (readied : SemaphoreId → List ThreadId) :
    Watch.wakeAll interrupts s' readied = Watch.wakeAll interrupts s readied := by
  induction interrupts generalizing s s' readied with
  | nil => rfl
  | cons irq interrupts ih =>
      cases irq with
      | timer =>
          have hsame : (s'.handle .timer).semaphore = (s.handle .timer).semaphore := hsemaphore
          exact ih hsame readied
      | device j =>
          have hwake : Watch.wake j s' readied = Watch.wake j s readied := by
            unfold Watch.wake
            rw [hsemaphore]
          have hraise : (s'.raiseSemaphore j).semaphore = (s.raiseSemaphore j).semaphore := by
            unfold raiseSemaphore
            rw [hsemaphore]
            split
            · simp [record, setSemaphore, hsemaphore]
            · simp [record, setSemaphore, readyToRun, hsemaphore]
          show Watch.wakeAll interrupts (s'.raiseSemaphore j) (Watch.wake j s' readied) =
            Watch.wakeAll interrupts (s.raiseSemaphore j) (Watch.wake j s readied)
          rw [hwake]
          exact ih hraise _

/-- A test of `P` takes a unit or goes to the queue. -/
theorem whileValueZero_moves_counter (s : Kernel κ σ) (readied : SemaphoreId → List ThreadId)
    (i j : SemaphoreId) (hfree : s.currentThread ∉ (s.semaphore j).queue) :
    ReflTransGen Counter.Move (s.counter readied i)
      ((s.whileValueZero j).counter
        (Function.update readied j ((readied j).erase s.currentThread)) i) := by
  by_cases hij : i = j
  · subst hij
    by_cases hzero : (s.semaphore i).value = 0
    · have hblock : (s.whileValueZero i).counter
          (Function.update readied i ((readied i).erase s.currentThread)) i =
          (s.counter readied i).block s.currentThread := by
        simp [whileValueZero, hzero, counter, Counter.block, setSemaphore, push, raised, taken]
      rw [hblock]
      exact .single (.block _ _ hzero hfree)
    · have htake : (s.whileValueZero i).counter
          (Function.update readied i ((readied i).erase s.currentThread)) i =
          (s.counter readied i).take s.currentThread := by
        simp [whileValueZero, hzero, counter, Counter.take, setSemaphore, record, raised, taken,
          Event.raises, Event.takes]
      rw [htake]
      exact .single (.take _ _ hzero)
  · have hreadied : Function.update readied j ((readied j).erase s.currentThread) i = readied i :=
      Function.update_of_ne hij _ _
    have hsame : (s.whileValueZero j).counter
        (Function.update readied j ((readied j).erase s.currentThread)) i =
        s.counter readied i := by
      simp only [counter, hreadied]
      unfold whileValueZero
      split
      · simp [setSemaphore, push, hij, raised, taken]
      · simp [setSemaphore, record, hij, raised, taken, Event.raises, Event.takes, Ne.symm hij]
    rw [hsame]

end Moves

section Steps

variable {client : Client κ σ ι} {choice : Choice ι} {s s' : Kernel κ σ} {frame : Frame κ}
  {rest gs : List (Frame κ)}

/-- **Refinement.**  Every step of the kernel is a sequence of moves of every
semaphore's counter. -/
theorem StepAt.moves_counter (hat : StepAt client choice s s' frame rest gs)
    (hwf : s.WellFormed) (readied : SemaphoreId → List ThreadId) (called : SemaphoreId → Nat)
    (i : SemaphoreId) :
    ReflTransGen Counter.Move (s.counter readied i)
      (s'.counter (Watch.readiedNext choice ⟨s, readied, called⟩) i) := by
  have hexec := hat.exec
  have htop := hat.top
  -- at most program points nobody is readied and nobody tests
  have hsame : Watch.readiedNext choice ⟨s, readied, called⟩ = readied →
      s'.counter readied i = s.counter readied i →
      ReflTransGen Counter.Move (s.counter readied i)
        (s'.counter (Watch.readiedNext choice ⟨s, readied, called⟩) i) := by
    intro hreadied hcounter
    rw [hreadied, hcounter]
  have hquiet : frame.isAccounting = false → ReflTransGen Counter.Move (s.counter readied i)
      (s'.counter (Watch.readiedNext choice ⟨s, readied, called⟩) i) := by
    intro hframe
    refine hsame ?_ (counter_of_sameAccounts (hat.sameAccounts hframe) i)
    unfold Watch.readiedNext
    simp only [htop]
    split
    all_goals simp_all [Frame.isAccounting]
  have hevent : ∀ e : Event, e.raises i = false → e.takes i = false →
      s'.semaphore i = s.semaphore i → s.Adds s' [e] →
      s'.counter readied i = s.counter readied i := by
    intro e hraises htakes hsemaphore hadds
    exact counter_same hsemaphore hadds (by simp [hraises, htakes])
  cases frame with
  | call op =>
      cases op with
      | semaphoreV j =>
          obtain rfl := Except.ok.inj hexec
          have hmoves := raiseSemaphore_moves_counter (s.pop.changeLevel .intOff) readied i j
          have hnext : Watch.readiedNext choice ⟨s, readied, called⟩ =
              Watch.wake j (s.pop.changeLevel .intOff) readied := by
            unfold Watch.readiedNext
            simp only [htop]
            rfl
          rw [hnext]
          exact hmoves
      | threadFinish =>
          obtain rfl := Except.ok.inj hexec
          refine hsame ?_ (hevent (.threadFinished s.currentThread) rfl rfl rfl rfl)
          unfold Watch.readiedNext
          simp only [htop]
      | _ => exact hquiet rfl
  | oneTick =>
      obtain rfl := Except.ok.inj hexec
      have hclock : (s.pop.advanceClock.changeLevel .intOff).semaphore = s.semaphore ∧
          (s.pop.advanceClock.changeLevel .intOff).history = s.history := by
        unfold advanceClock
        split
        · exact ⟨rfl, rfl⟩
        · exact ⟨rfl, rfl⟩
      have hmoves := handleAll_moves_counter choice.interrupts
        (s.pop.advanceClock.changeLevel .intOff) readied i
      have hnext : Watch.readiedNext choice ⟨s, readied, called⟩ =
          Watch.wakeAll choice.interrupts (s.pop.advanceClock.changeLevel .intOff) readied := by
        unfold Watch.readiedNext
        simp only [htop]
        exact (wakeAll_congr choice.interrupts hclock.1 readied).symm
      have hbefore : (s.pop.advanceClock.changeLevel .intOff).counter readied i =
          s.counter readied i :=
        counter_same (by rw [hclock.1]) (Adds.nil hclock.2) (by simp)
      have hafter : ∀ r, (s.pop.oneTick choice.interrupts).counter r i =
          ((s.pop.advanceClock.changeLevel .intOff).handleAll choice.interrupts).counter r i := by
        intro r
        unfold oneTick
        simp only
        split
        · rfl
        · rfl
      rw [hnext, hafter, ← hbefore]
      exact hmoves
  | setStatus m =>
      obtain rfl := Except.ok.inj hexec
      refine hsame ?_ rfl
      unfold Watch.readiedNext
      simp only [htop]
  | sleepLoop =>
      rcases sleepLoop_ok hexec with ⟨next, ready, hready, rfl⟩ | ⟨hready, -, advance, rfl⟩
      · refine hsame ?_ rfl
        have hlist : s.readyList = next :: ready := hready
        unfold Watch.readiedNext
        simp only [htop, hlist]
      · have hmoves := handleAll_moves_counter choice.interrupts (s.pop.advanceIdle advance)
          readied i
        have hsemaphore : (s.pop.advanceIdle advance).semaphore = s.semaphore := rfl
        have hnext : Watch.readiedNext choice ⟨s, readied, called⟩ =
            Watch.wakeAll choice.interrupts (s.pop.advanceIdle advance) readied := by
          have hlist : s.readyList = [] := hready
          unfold Watch.readiedNext
          simp only [htop, hlist]
          exact (wakeAll_congr choice.interrupts hsemaphore readied).symm
        rw [hnext]
        exact hmoves
  | afterSwitch =>
      have hnext : Watch.readiedNext choice ⟨s, readied, called⟩ = readied := by
        unfold Watch.readiedNext
        simp only [htop]
      rcases afterSwitch_ok hexec with rfl | ⟨t, -, -, rfl⟩
      · exact hsame hnext rfl
      · exact hsame hnext (hevent (.threadDeleted t) rfl rfl rfl rfl)
  | whileValueZero j =>
      obtain rfl := Except.ok.inj hexec
      have hnext : Watch.readiedNext choice ⟨s, readied, called⟩ =
          Function.update readied j ((readied j).erase s.currentThread) := by
        unfold Watch.readiedNext
        simp only [htop]
      rw [hnext]
      have hfree : s.currentThread ∉ (s.semaphore j).queue := by
        intro hmem
        have hparked := hwf.isParked_of_mem htop (.waiting (.semaphore j)) hmem
        simp [Frame.isParked] at hparked
      exact whileValueZero_moves_counter s.pop readied i j hfree
  | _ => exact hquiet rfl

/-- A unit is taken in the loop of `P` only. -/
theorem StepAt.taken_same (hat : StepAt client choice s s' frame rest gs) {i : SemaphoreId}
    (hframe : frame ≠ .whileValueZero i) : s'.taken i = s.taken i := by
  obtain ⟨events, hadds, henters⟩ := hat.entries
  have hzero : events.countP (Event.takes i) = 0 := by
    refine List.countP_eq_zero.mpr fun e he htakes => ?_
    have hentry := henters e he
    cases e with
    | semaphoreTaken j t =>
        obtain rfl : j = i := by simpa [Event.takes] using htakes
        exact hframe hentry.1
    | _ => simp [Event.takes] at htakes
  rw [taken, hadds, List.countP_append, hzero]
  rfl

/-- How many calls of `P` are in their loop after a step. -/
theorem StepAt.testing (hat : StepAt client choice s s' frame rest gs) (hwf : s.WellFormed)
    (i : SemaphoreId) :
    s'.testing i + [frame].countP (Frame.tests i) =
      s.testing i + gs.countP (Frame.tests i) := by
  -- the sum over the threads that were there before
  have hsum : ∑ t ∈ Finset.range s.threadCount, (s'.stack t).countP (Frame.tests i) +
      [frame].countP (Frame.tests i) = s.testing i + gs.countP (Frame.tests i) := by
    have hmem : s.currentThread ∈ Finset.range s.threadCount :=
      Finset.mem_range.mpr hwf.current_lt
    have hrest : ∑ t ∈ (Finset.range s.threadCount).erase s.currentThread,
        (s'.stack t).countP (Frame.tests i) =
        ∑ t ∈ (Finset.range s.threadCount).erase s.currentThread,
          (s.stack t).countP (Frame.tests i) := by
      refine Finset.sum_congr rfl fun t ht => ?_
      obtain ⟨hne, hlt⟩ := Finset.mem_erase.mp ht
      rw [hat.stack_of_ne (Finset.mem_range.mp hlt) hne]
    have hbefore : (s.stack s.currentThread).countP (Frame.tests i) +
        ∑ t ∈ (Finset.range s.threadCount).erase s.currentThread,
          (s.stack t).countP (Frame.tests i) = s.testing i := by
      rw [Kernel.testing, ← Finset.add_sum_erase _ _ hmem]
    have hafter : (s'.stack s.currentThread).countP (Frame.tests i) +
        ∑ t ∈ (Finset.range s.threadCount).erase s.currentThread,
          (s'.stack t).countP (Frame.tests i) =
        ∑ t ∈ Finset.range s.threadCount, (s'.stack t).countP (Frame.tests i) := by
      rw [← Finset.add_sum_erase _ _ hmem]
    rw [hat.stack, List.countP_cons] at hbefore
    rw [hat.stack_self, List.countP_append, hrest] at hafter
    rw [List.countP_singleton]
    omega
  rcases hat.life with ⟨body, rfl, hcount, -⟩ | ⟨-, hcount, -⟩ | ⟨-, -, hcount, -⟩
  · -- the new thread is in no loop
    have hroot : (s'.stack s.threadCount).countP (Frame.tests i) = 0 := by
      rw [(hat.forked hwf).2.1]
      rfl
    rw [Kernel.testing, hcount, Finset.sum_range_succ, hroot]
    exact hsum
  · rw [Kernel.testing, hcount]
    exact hsum
  · rw [Kernel.testing, hcount]
    exact hsum

/-- The calls of `P` are those that have decremented `value` and those that are in
their loop. -/
theorem StepAt.called (hat : StepAt client choice s s' frame rest gs) (hwf : s.WellFormed)
    (readied : SemaphoreId → List ThreadId) {called : SemaphoreId → Nat} {i : SemaphoreId}
    (h : called i = s.taken i + s.testing i) :
    Watch.calledNext ⟨s, readied, called⟩ i = s'.taken i + s'.testing i := by
  have htesting := hat.testing hwf i
  have htop := hat.top
  have hpushes := hat.pushes
  have hother : frame.tests i = false → gs.countP (Frame.tests i) = 0 →
      Watch.calledNext ⟨s, readied, called⟩ i = called i →
      Watch.calledNext ⟨s, readied, called⟩ i = s'.taken i + s'.testing i := by
    intro htests hgs hcalled
    have htaken : s'.taken i = s.taken i := by
      refine hat.taken_same ?_
      rintro rfl
      simp [Frame.tests] at htests
    rw [List.countP_singleton, htests, hgs] at htesting
    simp only [Bool.false_eq_true, if_false] at htesting
    omega
  cases frame with
  | call op =>
      cases op with
      | semaphoreP j =>
          obtain rfl : gs = [.whileValueZero j, .setLevel s.level] := hpushes
          have htaken : s'.taken i = s.taken i := hat.taken_same (by simp)
          have hcalled : Watch.calledNext ⟨s, readied, called⟩ i =
              called i + if j = i then 1 else 0 := by
            unfold Watch.calledNext
            simp only [htop]
            by_cases hij : i = j
            · subst hij
              simp
            · simp [Function.update_of_ne hij, Ne.symm hij]
          simp [List.countP_cons, Frame.tests] at htesting
          omega
      | _ =>
          refine hother rfl ?_ ?_
          · simp only [Frame.Pushes] at hpushes
            grind [Frame.tests]
          · unfold Watch.calledNext
            simp only [htop]
  | whileValueZero j =>
      have hcalled : Watch.calledNext ⟨s, readied, called⟩ i = called i := by
        unfold Watch.calledNext
        simp only [htop]
      by_cases hij : j = i
      · subst hij
        obtain rfl := Except.ok.inj hat.exec
        by_cases hzero : (s.semaphore j).value = 0
        · -- back to the queue: still in the loop
          have hsame : s.pop.whileValueZero j = (s.pop.setSemaphore j
              ⟨0, (s.pop.semaphore j).queue ++ [s.pop.currentThread]⟩).push
              [.sleep, .whileValueZero j] := if_pos hzero
          have hgs : gs = [.sleep, .whileValueZero j] := by
            refine List.append_cancel_right (hat.stack_self.symm.trans ?_)
            rw [hsame]
            exact hat.stack_of_push (u := s.pop.setSemaphore j _) rfl rfl _
          have htaken : (s.pop.whileValueZero j).taken j = s.taken j := by
            rw [hsame]
            rfl
          rw [hgs] at htesting
          simp [Frame.tests] at htesting
          omega
        · have hsame : s.pop.whileValueZero j = (s.pop.setSemaphore j
              ⟨(s.pop.semaphore j).value - 1, (s.pop.semaphore j).queue⟩).record
              [.semaphoreTaken j s.pop.currentThread] := if_neg hzero
          have hgs : gs = [] := by
            refine List.append_cancel_right (hat.stack_self.symm.trans ?_)
            rw [hsame]
            show s.pop.stack s.currentThread = [] ++ rest
            rw [pop_stack_self, hat.stack, List.tail_cons, List.nil_append]
          have htaken : (s.pop.whileValueZero j).taken j = s.taken j + 1 := by
            rw [hsame]
            show (s.history ++ [Event.semaphoreTaken j s.currentThread]).countP (Event.takes j) = _
            rw [List.countP_append]
            simp [taken, Event.takes]
          rw [hgs] at htesting
          simp [Frame.tests] at htesting
          omega
      · refine hother (by simp [Frame.tests, hij]) ?_ hcalled
        rcases hpushes with rfl | rfl
        · rfl
        · simp [Frame.tests, hij]
  | client k =>
      refine hother rfl ?_ ?_
      · obtain ⟨requests, rfl⟩ := hpushes
        refine List.countP_eq_zero.mpr fun f hf => ?_
        obtain ⟨r, -, rfl⟩ := List.mem_map.mp hf
        cases r <;> simp [Request.frame, Frame.tests]
      · unfold Watch.calledNext
        simp only [htop]
  | halt => exact hpushes.elim
  | _ =>
      refine hother rfl ?_ ?_
      · simp only [Frame.Pushes] at hpushes
        grind [Frame.tests]
      · unfold Watch.calledNext
        simp only [htop]

end Steps

end Kernel

section Runs

variable {client : Client κ σ ι} {choice : Choice ι} {w w' : Watch κ σ}

/-- What semaphore `i` guarantees when its initial value is `initial`. -/
structure Watch.KeepsCount (initial : Int) (i : SemaphoreId) (w : Watch κ σ) : Prop where
  nonneg : 0 ≤ (w.kernel.semaphore i).value
  balance : (w.kernel.semaphore i).value = initial + w.kernel.raised i - w.kernel.taken i
  /-- Every call of `P` has decremented `value` or is still in its loop. -/
  calls : w.called i = w.kernel.taken i + w.kernel.testing i
  /-- So the calls that are past their loop, and among them all that have returned,
  are at most as many as there have been units. -/
  passed : (w.called i : Int) - w.kernel.testing i ≤ initial + w.kernel.raised i
  /-- The threads that have been readied are different threads, and none waits. -/
  readied : (w.readied i).Nodup ∧ ∀ t ∈ w.readied i, t ∉ (w.kernel.semaphore i).queue
  noLostWakeUp : (w.kernel.semaphore i).queue ≠ [] →
    (w.kernel.semaphore i).value ≤ (w.readied i).length

theorem Watch.step_ok (h : w.step client choice = .ok w') :
    w.kernel.step client choice = .ok w'.kernel ∧ w'.readied = w.readiedNext choice ∧
      w'.called = w.calledNext := by
  unfold Watch.step at h
  split at h
  · rename_i kernel hkernel
    obtain rfl := Except.ok.inj h
    exact ⟨hkernel, rfl, rfl⟩
  · exact absurd h (by simp)

/-- A semaphore keeps count in every run, whoever calls `P` and `V`. -/
theorem semaphore_keepsCount {initialValue : SemaphoreId → Int} {state : σ} {main : κ}
    (hrun : Watch.Run client (Watch.boot initialValue state main) w) {i : SemaphoreId}
    (hinitial : 0 ≤ initialValue i) : w.KeepsCount (initialValue i) i := by
  have hinvariant : w.kernel.WellFormed ∧
      (w.kernel.counter w.readied i).Sound (initialValue i) ∧
      w.called i = w.kernel.taken i + w.kernel.testing i := by
    refine hrun.invariant (P := fun u => u.kernel.WellFormed ∧
      (u.kernel.counter u.readied i).Sound (initialValue i) ∧
      u.called i = u.kernel.taken i + u.kernel.testing i) ?_ ⟨Kernel.wellFormed_boot _ _ _, ?_, ?_⟩
    · rintro u v choice ⟨hwf, hsound, hcalls⟩ - hstep
      obtain ⟨hkernel, hreadied, hcalled⟩ := Watch.step_ok hstep
      obtain ⟨frame, rest, gs, hat⟩ := hwf.step_at hkernel
      refine ⟨Kernel.wellFormed_step hwf hkernel, ?_, ?_⟩
      · rw [hreadied]
        exact Counter.Moves.sound (hat.moves_counter hwf u.readied u.called i) hsound
      · rw [hcalled]
        exact hat.called hwf u.readied hcalls
    · constructor
      case nonneg => exact hinitial
      case balance =>
        show initialValue i = initialValue i + (0 : Nat) - (0 : Nat)
        omega
      case queue_nodup => exact List.nodup_nil
      case readied_nodup => exact List.nodup_nil
      case disjoint => exact fun _ _ => List.not_mem_nil
      case noLostWakeUp => exact fun hne => absurd rfl hne
    · simp [Watch.boot, Kernel.boot, Kernel.taken, Kernel.testing, Frame.tests]
  obtain ⟨-, hsound, hcalls⟩ := hinvariant
  have hbound : (w.kernel.taken i : Int) ≤ initialValue i + w.kernel.raised i := hsound.taken_le
  constructor
  case nonneg => exact hsound.nonneg
  case balance => exact hsound.balance
  case calls => exact hcalls
  case passed => omega
  case readied => exact ⟨hsound.readied_nodup, hsound.disjoint⟩
  case noLostWakeUp => exact hsound.noLostWakeUp

/-- The end of a watched run, found by replaying choices. -/
theorem Watch.exists_run (client : Client κ σ ι) {P : Watch κ σ → Prop} [DecidablePred P]
    (initialValue : SemaphoreId → Int) (state : σ) (main : κ) (choices : List (Choice ι))
    (h : (replay (Watch.step client) (fun _ _ => true) choices
      (Watch.boot initialValue state main)).any (fun w => decide (P w)) = true) :
    ∃ w, Watch.Run client (Watch.boot initialValue state main) w ∧ P w :=
  exists_reach_of_replay (fun _ _ _ => trivial) h

/-- Two threads wait for a semaphore and an interrupt readies the first of them:
the unit is there for it, and the second thread is still in the queue. -/
theorem semaphore_keepsCount_device :
    ∃ w : Watch Unit Unit, Watch.Run freeClient (Watch.boot (fun _ => 0) () ()) w ∧
      (w.kernel.semaphore 0).queue = [1] ∧ (w.kernel.semaphore 0).value = 1 ∧
      (1 : Int) ≤ (w.readied 0).length := by
  obtain ⟨w, hrun, hqueue, hvalue⟩ :=
    Watch.exists_run freeClient
      (P := fun w => (w.kernel.semaphore 0).queue = [1] ∧ (w.kernel.semaphore 0).value = 1)
      (fun _ => 0) () ()
      (steps 2 ++ [quietly [.call (.threadFork ()), .call (.semaphoreP 0)]] ++ steps 9 ++
        [quietly [.call (.semaphoreP 0)]] ++ steps 3 ++ [⟨[.device 0], some 5, []⟩])
      (by decide +kernel)
  have hkept := semaphore_keepsCount hrun (i := 0) (by decide)
  refine ⟨w, hrun, hqueue, hvalue, ?_⟩
  rw [← hvalue]
  exact hkept.noLostWakeUp (by simp [hqueue])

end Runs

end Threads
end Nachos
