import Mathlib.Tactic.Common
import Nachos.Threads.Kernel

/-!
# What one step can do

Each component of the kernel's state is changed by a few program points only.
This module says, component by component, what a step can do to it:

* the stacks: a step pops the top frame of `currentThread` and pushes one of
  the frame lists that `Frame.Pushes` allows; no other stack changes, but for
  the one of a thread that is being started;
* the locks: `LockEffect`;
* the conditions: `ConditionEffect`.

The invariants of the later modules are derived from these effects, so that a
change to the code of one operation is felt here and not in every invariant.
-/

namespace Nachos
namespace Threads

variable {κ σ ι : Type}

namespace Kernel

section Handlers

/-- What interrupt handlers leave alone. -/
structure HandlerFrame (s s' : Kernel κ σ) : Prop where
  level : s'.level = s.level
  currentThread : s'.currentThread = s.currentThread
  threadToBeDestroyed : s'.threadToBeDestroyed = s.threadToBeDestroyed
  stack : s'.stack = s.stack
  threadCount : s'.threadCount = s.threadCount
  lock : s'.lock = s.lock
  condition : s'.condition = s.condition
  client : s'.client = s.client

theorem HandlerFrame.refl (s : Kernel κ σ) : HandlerFrame s s :=
  ⟨rfl, rfl, rfl, rfl, rfl, rfl, rfl, rfl⟩

theorem HandlerFrame.trans {s s' s'' : Kernel κ σ} (h : HandlerFrame s s')
    (h' : HandlerFrame s' s'') : HandlerFrame s s'' where
  level := h'.level.trans h.level
  currentThread := h'.currentThread.trans h.currentThread
  threadToBeDestroyed := h'.threadToBeDestroyed.trans h.threadToBeDestroyed
  stack := h'.stack.trans h.stack
  threadCount := h'.threadCount.trans h.threadCount
  lock := h'.lock.trans h.lock
  condition := h'.condition.trans h.condition
  client := h'.client.trans h.client

/-- The part of `Semaphore::V` that handlers share with threads. -/
theorem raiseSemaphore_frame (i : SemaphoreId) (s : Kernel κ σ) :
    HandlerFrame s (s.raiseSemaphore i) := by
  unfold raiseSemaphore
  split
  · exact ⟨rfl, rfl, rfl, rfl, rfl, rfl, rfl, rfl⟩
  · exact ⟨rfl, rfl, rfl, rfl, rfl, rfl, rfl, rfl⟩

theorem handleAll_frame (interrupts : List Interrupt) (s : Kernel κ σ) :
    HandlerFrame s (s.handleAll interrupts) := by
  induction interrupts generalizing s with
  | nil => exact HandlerFrame.refl s
  | cons irq interrupts ih =>
      refine HandlerFrame.trans ?_ (ih (s.handle irq))
      cases irq with
      | timer => exact ⟨rfl, rfl, rfl, rfl, rfl, rfl, rfl, rfl⟩
      | device i => exact raiseSemaphore_frame i s

/-- The state in which a tick's handlers have run. -/
def tickHandled (interrupts : List Interrupt) (s : Kernel κ σ) : Kernel κ σ :=
  (s.advanceClock.changeLevel .intOff).handleAll interrupts

theorem advanceClock_frame (s : Kernel κ σ) : HandlerFrame s s.advanceClock := by
  unfold advanceClock
  split
  · exact ⟨rfl, rfl, rfl, rfl, rfl, rfl, rfl, rfl⟩
  · exact ⟨rfl, rfl, rfl, rfl, rfl, rfl, rfl, rfl⟩

/-- Up to the interrupt level, a tick's handlers only touch what handlers
touch. -/
theorem tickHandled_frame (interrupts : List Interrupt) (s : Kernel κ σ) :
    HandlerFrame (s.changeLevel .intOff) (s.tickHandled interrupts) := by
  have hclock := advanceClock_frame s
  refine HandlerFrame.trans ?_ (handleAll_frame interrupts _)
  exact ⟨rfl, hclock.currentThread, hclock.threadToBeDestroyed, hclock.stack,
    hclock.threadCount, hclock.lock, hclock.condition, hclock.client⟩

/-- A tick either ends with interrupts on, or calls `Yield` with interrupts
on. -/
theorem oneTick_eq (interrupts : List Interrupt) (s : Kernel κ σ) :
    s.oneTick interrupts = (s.tickHandled interrupts).changeLevel .intOn ∨
      s.oneTick interrupts =
        (({ s.tickHandled interrupts with
            yieldOnReturn := false
            machineStatus := .systemMode }).changeLevel .intOn).push
          [.call .threadYield, .setStatus s.machineStatus] := by
  unfold oneTick tickHandled
  simp only
  split
  · exact Or.inr rfl
  · exact Or.inl rfl

theorem idle_frame (advance : Nat) (interrupts : List Interrupt) (s : Kernel κ σ) :
    HandlerFrame s (s.idle advance interrupts) := by
  have hall := handleAll_frame interrupts { s with stats := { s.stats with
    totalTicks := s.stats.totalTicks + advance
    idleTicks := s.stats.idleTicks + advance } }
  exact ⟨hall.level, hall.currentThread, hall.threadToBeDestroyed, hall.stack,
    hall.threadCount, hall.lock, hall.condition, hall.client⟩

end Handlers

section Inversion

variable {client : Client κ σ ι} {choice : Choice ι} {s s' : Kernel κ σ}

/-- A step runs the code at the top frame. -/
theorem step_ok (h : s.step client choice = .ok s') :
    ∃ frame, s.top = some frame ∧ s.pop.exec client choice frame = .ok s' := by
  unfold step at h
  split at h
  · exact absurd h (by simp)
  · rename_i frame htop
    exact ⟨frame, htop, h⟩

theorem stack_of_top {frame : Frame κ} (h : s.top = some frame) :
    s.stack s.currentThread = frame :: (s.stack s.currentThread).tail := by
  unfold top at h
  cases hstack : s.stack s.currentThread with
  | nil => simp [hstack] at h
  | cons first rest =>
      rw [hstack, List.head?_cons, Option.some.injEq] at h
      rw [h, List.tail_cons]

theorem threadSleep_ok (h : s.threadSleep = .ok s') :
    s.level = .intOff ∧
      s' = { s with
        threadStatus := Function.update s.threadStatus s.currentThread .blocked }.push
        [.sleepLoop] := by
  unfold threadSleep at h
  split at h
  · rename_i hlevel
    exact ⟨hlevel, (Except.ok.inj h).symm⟩
  · exact absurd h (by simp)

theorem sleepLoop_ok (h : s.sleepLoop choice = .ok s') :
    (∃ next rest, s.readyList = next :: rest ∧
      s' = ({ s with readyList := rest }.push [.afterSwitch]).run next) ∨
    (s.readyList = [] ∧ s.level = .intOff ∧ ∃ advance,
      s' = (s.idle advance choice.interrupts).push [.sleepLoop]) := by
  unfold sleepLoop at h
  split at h
  · rename_i next rest hready
    exact Or.inl ⟨next, rest, hready, (Except.ok.inj h).symm⟩
  · rename_i hready
    split at h
    · rename_i hlevel
      split at h
      · exact absurd h (by simp)
      · rename_i advance _
        exact Or.inr ⟨hready, hlevel, advance, (Except.ok.inj h).symm⟩
    · exact absurd h (by simp)

theorem afterSwitch_ok (h : s.afterSwitch = .ok s') :
    s' = s ∨ ∃ t, s.threadToBeDestroyed = some t ∧ t ≠ s.currentThread ∧
      s' = { s with threadToBeDestroyed := none }.record [.threadDeleted t] := by
  unfold afterSwitch at h
  split at h
  · exact Or.inl (Except.ok.inj h).symm
  · rename_i t ht
    split at h
    · exact absurd h (by simp)
    · rename_i hne
      exact Or.inr ⟨t, ht, hne, (Except.ok.inj h).symm⟩

theorem exec_client_ok {k : κ} (h : s.exec client choice (.client k) = .ok s') :
    ∃ state requests, client.exec choice.input k s = .ok (state, requests) ∧
      s' = { s with client := state }.push (requests.map Request.frame) := by
  simp only [exec] at h
  split at h
  · rename_i state requests hexec
    exact ⟨state, requests, hexec, (Except.ok.inj h).symm⟩
  · exact absurd h (by simp)

end Inversion

end Kernel

section Stacks

/-- The frame lists the code at a frame may push when interrupts are at
`level`. -/
def Frame.Pushes (level : IntStatus) : Frame κ → List (Frame κ) → Prop
  | .call (.semaphoreP i), gs => gs = [.whileValueZero i, .setLevel level]
  | .call (.semaphoreV _), gs => gs = [.setLevel level]
  | .call (.lockAcquire _), gs => gs = [.setLevel level] ∨ gs = [.sleep, .setLevel level]
  | .call (.lockRelease _), gs => gs = [] ∨ gs = [.setLevel level]
  | .call (.conditionWait c conditionLock), gs => gs = [.setLevel level] ∨
      ∃ l, conditionLock = some l ∧
        gs = [.call (.lockRelease l), .waitAppend c l, .setLevel level]
  | .call (.conditionSignal _ _), gs => gs = [.setLevel level]
  | .call (.conditionBroadcast c l), gs => gs = [.broadcastLoop c l]
  | .call (.threadFork _), gs => gs = [.setLevel level]
  | .call .threadYield, gs => gs = [.setLevel level] ∨ gs = [.afterSwitch, .setLevel level]
  | .call .threadFinish, gs => gs = [.sleep]
  | .setLevel now, gs => gs = [] ∨ now = .intOn ∧ gs = [.oneTick]
  | .oneTick, gs => gs = [] ∨ ∃ m, gs = [.call .threadYield, .setStatus m]
  | .setStatus _, gs => gs = []
  | .sleep, gs => gs = [.sleepLoop]
  | .sleepLoop, gs => gs = [.afterSwitch] ∨ gs = [.sleepLoop]
  | .afterSwitch, gs => gs = []
  | .whileValueZero i, gs => gs = [] ∨ gs = [.sleep, .whileValueZero i]
  | .waitAppend c l, gs => gs = [.sleep, .waitReacquire c l]
  | .waitReacquire _ l, gs => gs = [.call (.lockAcquire l)]
  | .broadcastLoop c l, gs => gs = [] ∨
      gs = [.call (.conditionSignal c l), .broadcastLoop c l]
  | .halt, _ => False
  | .client _, gs => ∃ requests : List (Request κ), gs = requests.map Request.frame

namespace Kernel

variable {client : Client κ σ ι} {choice : Choice ι} {s s' : Kernel κ σ}

theorem push_stack_self (gs : List (Frame κ)) {u : Kernel κ σ} {t : ThreadId}
    (hu : u.currentThread = t) : (u.push gs).stack t = gs ++ u.stack t := by
  subst hu
  simp [push]

theorem push_stack_other (gs : List (Frame κ)) {u : Kernel κ σ} {t : ThreadId}
    (hu : t ≠ u.currentThread) : (u.push gs).stack t = u.stack t := by
  simp [push, Function.update_of_ne hu]

/-- What is pushed is what `Pushes` allows. -/
theorem execOp_stack_self (op : Op κ) (hfresh : s.currentThread ≠ s.threadCount) :
    ∃ gs, (Frame.call op).Pushes s.level gs ∧
      (s.execOp op).stack s.currentThread = gs ++ s.stack s.currentThread := by
  cases op with
  | semaphoreP i => exact ⟨_, rfl, by simp [execOp, semaphoreP, push, changeLevel]⟩
  | semaphoreV i =>
      have hframe := raiseSemaphore_frame i (s.changeLevel .intOff)
      refine ⟨_, rfl, ?_⟩
      refine (push_stack_self _ (t := s.currentThread) hframe.currentThread).trans ?_
      exact congrArg _ (congrFun hframe.stack _)
  | lockAcquire l =>
      simp only [execOp, lockAcquire]
      split
      · exact ⟨_, Or.inl rfl, by simp [push, changeLevel]⟩
      · split
        · exact ⟨_, Or.inl rfl, by simp [push, changeLevel, setLock]⟩
        · exact ⟨_, Or.inr rfl, by simp [push, changeLevel, setLock, record]⟩
  | lockRelease l =>
      simp only [execOp, lockRelease]
      split
      · split
        · exact ⟨_, Or.inl rfl, by simp [changeLevel, setLock, readyToRun, record]⟩
        · exact ⟨_, Or.inl rfl, by simp [changeLevel, setLock]⟩
      · exact ⟨_, Or.inr rfl, by simp [push, changeLevel]⟩
  | conditionWait c conditionLock =>
      cases conditionLock with
      | none => exact ⟨_, Or.inl rfl, by simp [execOp, conditionWait, push, changeLevel]⟩
      | some l =>
          simp only [execOp, conditionWait]
          split
          · exact ⟨_, Or.inr ⟨l, rfl, rfl⟩, by simp [push, changeLevel, setCondition]⟩
          · split
            · exact ⟨_, Or.inr ⟨l, rfl, rfl⟩, by simp [push, changeLevel]⟩
            · exact ⟨_, Or.inl rfl, by simp [push, changeLevel]⟩
  | conditionSignal c conditionLock =>
      simp only [execOp, conditionSignal]
      split
      · exact ⟨_, rfl, by simp [push, changeLevel]⟩
      · split
        · exact ⟨_, rfl, by simp [push, changeLevel, setCondition, readyToRun, record]⟩
        · exact ⟨_, rfl, by simp [push, changeLevel]⟩
  | conditionBroadcast c conditionLock => exact ⟨_, rfl, by simp [execOp, push]⟩
  | threadFork body =>
      exact ⟨_, rfl, by
        simp [execOp, threadFork, push, changeLevel, readyToRun,
          Function.update_of_ne hfresh]⟩
  | threadYield =>
      simp only [execOp, threadYield]
      split
      · exact ⟨_, Or.inl rfl, by simp [push, changeLevel]⟩
      · exact ⟨_, Or.inr rfl, by simp [push, changeLevel, readyToRun, run]⟩
  | threadFinish => exact ⟨_, rfl, by simp [execOp, threadFinish, push, changeLevel, record]⟩

/-- The code at a frame pushes what `Pushes` allows on the stack of
`currentThread`. -/
theorem exec_stack_self {frame : Frame κ} (h : s.exec client choice frame = .ok s')
    (hfresh : s.currentThread ≠ s.threadCount) :
    ∃ gs, frame.Pushes s.level gs ∧
      s'.stack s.currentThread = gs ++ s.stack s.currentThread := by
  cases frame with
  | call op =>
      obtain rfl := Except.ok.inj h
      exact execOp_stack_self op hfresh
  | setLevel now =>
      obtain rfl := Except.ok.inj h
      unfold setLevel
      split
      · rename_i hon
        exact ⟨_, Or.inr ⟨hon.1, rfl⟩, by simp [push, changeLevel]⟩
      · exact ⟨_, Or.inl rfl, by simp [changeLevel]⟩
  | oneTick =>
      obtain rfl := Except.ok.inj h
      have hframe := tickHandled_frame choice.interrupts s
      rcases oneTick_eq choice.interrupts s with heq | heq
      · refine ⟨_, Or.inl rfl, ?_⟩
        rw [heq]
        exact congrFun hframe.stack _
      · refine ⟨_, Or.inr ⟨s.machineStatus, rfl⟩, ?_⟩
        rw [heq]
        refine (push_stack_self _ (t := s.currentThread) hframe.currentThread).trans ?_
        exact congrArg _ (congrFun hframe.stack _)
  | setStatus m =>
      obtain rfl := Except.ok.inj h
      exact ⟨_, rfl, rfl⟩
  | sleep =>
      obtain ⟨-, rfl⟩ := threadSleep_ok h
      exact ⟨_, rfl, by simp [push]⟩
  | sleepLoop =>
      rcases sleepLoop_ok h with ⟨next, rest, -, rfl⟩ | ⟨-, -, advance, rfl⟩
      · exact ⟨_, Or.inl rfl, by simp [push, run]⟩
      · have hframe := idle_frame advance choice.interrupts s
        refine ⟨_, Or.inr rfl, ?_⟩
        rw [push_stack_self _ hframe.currentThread, hframe.stack]
  | afterSwitch =>
      rcases afterSwitch_ok h with rfl | ⟨t, -, -, rfl⟩
      · exact ⟨_, rfl, rfl⟩
      · exact ⟨_, rfl, rfl⟩
  | whileValueZero i =>
      obtain rfl := Except.ok.inj h
      unfold whileValueZero
      split
      · exact ⟨_, Or.inr rfl, by simp [push, setSemaphore]⟩
      · exact ⟨_, Or.inl rfl, by simp [setSemaphore, record]⟩
  | waitAppend c l =>
      obtain rfl := Except.ok.inj h
      exact ⟨_, rfl, by simp [waitAppend, push, setCondition, record]⟩
  | waitReacquire c l =>
      obtain rfl := Except.ok.inj h
      exact ⟨_, rfl, by simp [push]⟩
  | broadcastLoop c l =>
      obtain rfl := Except.ok.inj h
      unfold broadcastLoop
      split
      · exact ⟨_, Or.inl rfl, rfl⟩
      · exact ⟨_, Or.inr rfl, by simp [push]⟩
  | halt => exact absurd h (by simp [exec])
  | client k =>
      obtain ⟨state, requests, -, rfl⟩ := exec_client_ok h
      exact ⟨_, ⟨requests, rfl⟩, by simp [push]⟩

/-- The first frames of a thread: those of `ThreadRoot`. -/
def rootFrames (body : κ) : List (Frame κ) :=
  [.setLevel .intOn, .client body, .call .threadFinish]

/-- No other stack changes, but for the one of a thread that is being
started. -/
theorem exec_stack_other {frame : Frame κ} (h : s.exec client choice frame = .ok s')
    {t : ThreadId} (ht : t ≠ s.currentThread) :
    s'.stack t = s.stack t ∨ ∃ body, frame = .call (.threadFork body) ∧
      t = s.threadCount ∧ s'.stack t = rootFrames body := by
  have hpush : ∀ (gs : List (Frame κ)) (u : Kernel κ σ), u.currentThread = s.currentThread →
      (u.push gs).stack t = u.stack t :=
    fun gs u hu => push_stack_other gs (hu ▸ ht)
  cases frame with
  | call op =>
      obtain rfl := Except.ok.inj h
      cases op with
      | semaphoreV i =>
          have hframe := raiseSemaphore_frame i (s.changeLevel .intOff)
          refine Or.inl ?_
          exact (hpush _ _ hframe.currentThread).trans (congrFun hframe.stack t)
      | threadFork body =>
          by_cases hnew : t = s.threadCount
          · refine Or.inr ⟨body, rfl, hnew, ?_⟩
            refine (hpush _ _ ?_).trans ?_
            · rfl
            · simp [changeLevel, readyToRun, hnew, rootFrames]
          · refine Or.inl ?_
            refine (hpush _ _ ?_).trans ?_
            · rfl
            · simp [changeLevel, readyToRun, Function.update_of_ne hnew]
      | _ =>
          refine Or.inl ?_
          simp only [execOp, semaphoreP, lockAcquire, lockRelease, conditionWait,
            conditionSignal, threadYield, threadFinish]
          repeat' split
          all_goals simp [push, changeLevel, setLock, setCondition, readyToRun, record,
            run, Function.update_of_ne ht]
  | setLevel now =>
      obtain rfl := Except.ok.inj h
      refine Or.inl ?_
      unfold setLevel
      split
      · exact hpush _ _ rfl
      · rfl
  | oneTick =>
      obtain rfl := Except.ok.inj h
      have hframe := tickHandled_frame choice.interrupts s
      refine Or.inl ?_
      rcases oneTick_eq choice.interrupts s with heq | heq
      · rw [heq]
        exact congrFun hframe.stack t
      · rw [heq]
        exact (hpush _ _ hframe.currentThread).trans (congrFun hframe.stack t)
  | setStatus m =>
      obtain rfl := Except.ok.inj h
      exact Or.inl rfl
  | sleep =>
      obtain ⟨-, rfl⟩ := threadSleep_ok h
      exact Or.inl (hpush _ _ rfl)
  | sleepLoop =>
      rcases sleepLoop_ok h with ⟨next, rest, -, rfl⟩ | ⟨-, -, advance, rfl⟩
      · exact Or.inl (hpush [.afterSwitch] { s with readyList := rest } rfl)
      · have hframe := idle_frame advance choice.interrupts s
        refine Or.inl ?_
        rw [hpush _ _ hframe.currentThread, hframe.stack]
  | afterSwitch =>
      rcases afterSwitch_ok h with rfl | ⟨d, -, -, rfl⟩
      · exact Or.inl rfl
      · exact Or.inl rfl
  | whileValueZero i =>
      obtain rfl := Except.ok.inj h
      refine Or.inl ?_
      unfold whileValueZero
      split
      · exact hpush _ _ rfl
      · rfl
  | waitAppend c l =>
      obtain rfl := Except.ok.inj h
      exact Or.inl (hpush _ _ rfl)
  | waitReacquire c l =>
      obtain rfl := Except.ok.inj h
      exact Or.inl (hpush _ _ rfl)
  | broadcastLoop c l =>
      obtain rfl := Except.ok.inj h
      refine Or.inl ?_
      unfold broadcastLoop
      split
      · rfl
      · exact hpush _ _ rfl
  | halt => exact absurd h (by simp [exec])
  | client k =>
      obtain ⟨state, requests, -, rfl⟩ := exec_client_ok h
      exact Or.inl (hpush _ { s with client := state } rfl)

/-- The processor changes hands in `Yield` and at the end of `Sleep` only: the
first ready thread gets it, interrupts are off in `Yield` and as `Sleep` left
them, and the old thread goes on behind `SWITCH`. -/
theorem exec_currentThread {frame : Frame κ} (h : s.exec client choice frame = .ok s') :
    s'.currentThread = s.currentThread ∨
      (∃ rest gs, s.readyList = s'.currentThread :: rest ∧
        s'.stack s.currentThread = .afterSwitch :: gs ∧
        (frame = .call .threadYield ∧ s'.level = .intOff ∨
          frame = .sleepLoop ∧ s'.level = s.level)) := by
  cases frame with
  | call op =>
      obtain rfl := Except.ok.inj h
      cases op with
      | semaphoreV i =>
          exact Or.inl (raiseSemaphore_frame i (s.changeLevel .intOff)).currentThread
      | threadYield =>
          simp only [execOp, threadYield]
          split
          · exact Or.inl rfl
          · rename_i next rest hready
            exact Or.inr ⟨rest, _, hready, push_stack_self _ rfl, Or.inl ⟨trivial, rfl⟩⟩
      | _ =>
          refine Or.inl ?_
          simp only [execOp, semaphoreP, lockAcquire, lockRelease, conditionWait,
            conditionSignal, threadFork, threadFinish]
          repeat' split
          all_goals rfl
  | setLevel now =>
      obtain rfl := Except.ok.inj h
      refine Or.inl ?_
      unfold setLevel
      split
      · rfl
      · rfl
  | oneTick =>
      obtain rfl := Except.ok.inj h
      have hframe := tickHandled_frame choice.interrupts s
      refine Or.inl ?_
      rcases oneTick_eq choice.interrupts s with heq | heq
      · rw [heq]
        exact hframe.currentThread
      · rw [heq]
        exact hframe.currentThread
  | setStatus m =>
      obtain rfl := Except.ok.inj h
      exact Or.inl rfl
  | sleep =>
      obtain ⟨-, rfl⟩ := threadSleep_ok h
      exact Or.inl rfl
  | sleepLoop =>
      rcases sleepLoop_ok h with ⟨next, rest, hready, rfl⟩ | ⟨-, -, advance, rfl⟩
      · exact Or.inr ⟨rest, _, hready, push_stack_self _ rfl, Or.inr ⟨rfl, rfl⟩⟩
      · exact Or.inl (idle_frame advance choice.interrupts s).currentThread
  | afterSwitch =>
      rcases afterSwitch_ok h with rfl | ⟨t, -, -, rfl⟩
      · exact Or.inl rfl
      · exact Or.inl rfl
  | whileValueZero i =>
      obtain rfl := Except.ok.inj h
      refine Or.inl ?_
      unfold whileValueZero
      split
      · rfl
      · rfl
  | waitAppend c l =>
      obtain rfl := Except.ok.inj h
      exact Or.inl rfl
  | waitReacquire c l =>
      obtain rfl := Except.ok.inj h
      exact Or.inl rfl
  | broadcastLoop c l =>
      obtain rfl := Except.ok.inj h
      refine Or.inl ?_
      unfold broadcastLoop
      split
      · rfl
      · rfl
  | halt => exact absurd h (by simp [exec])
  | client k =>
      obtain ⟨state, requests, -, rfl⟩ := exec_client_ok h
      exact Or.inl rfl

theorem pop_stack_self (s : Kernel κ σ) :
    s.pop.stack s.currentThread = (s.stack s.currentThread).tail := by
  simp [pop]

theorem pop_stack_other {t : ThreadId} (ht : t ≠ s.currentThread) :
    s.pop.stack t = s.stack t := by
  simp [pop, ht]

/-- A step from `s` to `s'` that runs the code at `frame`, with `rest` below it,
and pushes `gs`. -/
structure StepAt (client : Client κ σ ι) (choice : Choice ι) (s s' : Kernel κ σ)
    (frame : Frame κ) (rest gs : List (Frame κ)) : Prop where
  stack : s.stack s.currentThread = frame :: rest
  exec : s.pop.exec client choice frame = .ok s'
  pushes : frame.Pushes s.level gs
  stack_self : s'.stack s.currentThread = gs ++ rest
  stack_other : ∀ t, t ≠ s.currentThread → s'.stack t = s.stack t ∨
    ∃ body, frame = .call (.threadFork body) ∧ t = s.threadCount ∧
      s'.stack t = rootFrames body

/-- Every step runs the code at some frame. -/
theorem step_at (h : s.step client choice = .ok s')
    (hfresh : s.currentThread ≠ s.threadCount) :
    ∃ frame rest gs, StepAt client choice s s' frame rest gs := by
  obtain ⟨frame, htop, hexec⟩ := step_ok h
  obtain ⟨gs, hpushes, hself⟩ := exec_stack_self hexec hfresh
  refine ⟨frame, _, gs, stack_of_top htop, hexec, hpushes, ?_, ?_⟩
  · exact hself.trans (congrArg _ (pop_stack_self s))
  · intro t ht
    rw [← pop_stack_other ht]
    exact exec_stack_other hexec ht

theorem StepAt.top {frame : Frame κ} {rest gs : List (Frame κ)}
    (h : StepAt client choice s s' frame rest gs) : s.top = some frame := by
  rw [Kernel.top, h.stack, List.head?_cons]

/-- The stack after a push by the code at `frame`. -/
theorem StepAt.stack_of_push {frame : Frame κ} {rest gs : List (Frame κ)}
    (h : StepAt client choice s s' frame rest gs) {u : Kernel κ σ}
    (hcurrent : u.currentThread = s.currentThread) (hstack : u.stack = s.pop.stack)
    (pushed : List (Frame κ)) : (u.push pushed).stack s.currentThread = pushed ++ rest := by
  rw [push_stack_self pushed hcurrent, hstack, pop_stack_self, h.stack, List.tail_cons]

/-- Where a frame that is on a stack after a step comes from. -/
inductive Origin (s : Kernel κ σ) (frame : Frame κ) (rest gs : List (Frame κ))
    (t : ThreadId) (above : List (Frame κ)) (f : Frame κ) (below : List (Frame κ)) : Prop
  /-- It is on the stack of another thread. -/
  | other (ht : t ≠ s.currentThread) (hstack : s.stack t = above ++ f :: below)
  /-- It is on the stack of a thread that has just been forked. -/
  | root (ht : t ≠ s.currentThread) (body : κ) (hframe : frame = .call (.threadFork body))
      (hmem : f ∈ rootFrames body)
  /-- It was below the frame that ran. -/
  | below (ht : t = s.currentThread) (later : List (Frame κ)) (habove : above = gs ++ later)
      (hrest : rest = later ++ f :: below)
  /-- It has just been pushed. -/
  | pushed (ht : t = s.currentThread) (later : List (Frame κ)) (hgs : gs = above ++ f :: later)
      (hbelow : below = later ++ rest)

theorem StepAt.origin {frame : Frame κ} {rest gs : List (Frame κ)}
    (h : StepAt client choice s s' frame rest gs) {t : ThreadId} {f : Frame κ}
    {above below : List (Frame κ)} (hstack : s'.stack t = above ++ f :: below) :
    Origin s frame rest gs t above f below := by
  by_cases ht : t = s.currentThread
  · subst ht
    rw [h.stack_self] at hstack
    rcases List.append_eq_append_iff.mp hstack with ⟨later, habove, hrest⟩ | ⟨later, hgs, hbelow⟩
    · exact .below rfl later habove hrest
    · cases later with
      | nil =>
          rw [List.append_nil] at hgs
          exact .below rfl [] (by simp [hgs]) hbelow.symm
      | cons g later =>
          obtain ⟨rfl, rfl⟩ := List.cons.inj hbelow
          exact .pushed rfl later hgs rfl
  · rcases h.stack_other t ht with hsame | ⟨body, hframe, -, hroot⟩
    · exact .other ht (hsame ▸ hstack)
    · refine .root ht body hframe ?_
      rw [← hroot, hstack]
      simp

/-- The processor changes hands in `Yield` and in the loop of `Sleep` only. -/
theorem StepAt.currentThread {frame : Frame κ} {rest gs : List (Frame κ)}
    (h : StepAt client choice s s' frame rest gs) :
    s'.currentThread = s.currentThread ∨
      (∃ ready later, s.readyList = s'.currentThread :: ready ∧
        s'.stack s.currentThread = .afterSwitch :: later ∧
        (frame = .call .threadYield ∧ s'.level = .intOff ∨
          frame = .sleepLoop ∧ s'.level = s.level)) := by
  have hswitch := exec_currentThread h.exec
  exact hswitch

end Kernel

end Stacks

section History

/-- The thread an event appends to the waiting list of a lock. -/
def Event.queuedOn (l : LockId) : Event → Option ThreadId
  | .lockQueued l' t => if l' = l then some t else none
  | _ => none

/-- The thread an event gives a lock to. -/
def Event.grantedOn (l : LockId) : Event → Option ThreadId
  | .lockGranted l' t => if l' = l then some t else none
  | _ => none

/-- The thread an event appends to the waiting list of a condition. -/
def Event.waitsOn (c : ConditionId) : Event → Option ThreadId
  | .conditionQueued c' _ t => if c' = c then some t else none
  | _ => none

/-- The thread an event takes off the waiting list of a condition. -/
def Event.wokenOn (c : ConditionId) : Event → Option ThreadId
  | .conditionWoken c' t => if c' = c then some t else none
  | _ => none

/-- Events that concern neither locks nor conditions. -/
def Event.isNeutral : Event → Bool
  | .lockQueued _ _ => false
  | .lockGranted _ _ => false
  | .conditionQueued _ _ _ => false
  | .conditionWoken _ _ => false
  | _ => true

theorem Event.isNeutral.lock {e : Event} (he : e.isNeutral = true) (l : LockId) :
    e.queuedOn l = none ∧ e.grantedOn l = none := by
  cases e <;> simp_all [Event.isNeutral, Event.queuedOn, Event.grantedOn]

theorem Event.isNeutral.condition {e : Event} (he : e.isNeutral = true) (c : ConditionId) :
    e.waitsOn c = none ∧ e.wokenOn c = none := by
  cases e <;> simp_all [Event.isNeutral, Event.waitsOn, Event.wokenOn]

namespace Kernel

/-- The events a step adds to the history. -/
def Adds (s s' : Kernel κ σ) (events : List Event) : Prop :=
  s'.history = s.history ++ events

theorem Adds.nil {s s' : Kernel κ σ} (h : s'.history = s.history) : s.Adds s' [] := by
  rw [Adds, h, List.append_nil]

/-- Handlers append neutral events to the history. -/
theorem handleAll_history (interrupts : List Interrupt) (s : Kernel κ σ) :
    ∃ events, s.Adds (s.handleAll interrupts) events ∧ ∀ e ∈ events, e.isNeutral = true := by
  induction interrupts generalizing s with
  | nil => exact ⟨[], Adds.nil rfl, by simp⟩
  | cons irq interrupts ih =>
      have hone : ∃ events, s.Adds (s.handle irq) events ∧
          ∀ e ∈ events, e.isNeutral = true := by
        cases irq with
        | timer => exact ⟨[], Adds.nil rfl, by simp⟩
        | device i =>
            refine ⟨[.semaphoreRaised i], ?_, by simp [Event.isNeutral]⟩
            simp only [handle, raiseSemaphore]
            split
            · rfl
            · rfl
      obtain ⟨first, hfirst, hfirstNeutral⟩ := hone
      obtain ⟨later, hlater, hlaterNeutral⟩ := ih (s.handle irq)
      refine ⟨first ++ later, ?_, ?_⟩
      · rw [Adds, ← List.append_assoc, ← hfirst, ← hlater]
        rfl
      · intro e he
        rcases List.mem_append.mp he with h | h
        · exact hfirstNeutral e h
        · exact hlaterNeutral e h

theorem tickHandled_history (interrupts : List Interrupt) (s : Kernel κ σ) :
    ∃ events, s.Adds (s.tickHandled interrupts) events ∧
      ∀ e ∈ events, e.isNeutral = true := by
  obtain ⟨events, hevents, hneutral⟩ :=
    handleAll_history interrupts (s.advanceClock.changeLevel .intOff)
  refine ⟨events, ?_, hneutral⟩
  rw [Adds, tickHandled, hevents]
  unfold advanceClock
  split
  · rfl
  · rfl

end Kernel

end History

section Objects

/-- The program points that touch locks or conditions. -/
def Frame.isSynch : Frame κ → Bool
  | .call (.lockAcquire _) => true
  | .call (.lockRelease _) => true
  | .call (.conditionWait _ _) => true
  | .call (.conditionSignal _ _) => true
  | .waitAppend _ _ => true
  | _ => false

/-- What a step does to the locks and the conditions when it does nothing. -/
structure Kernel.Neutral (s s' : Kernel κ σ) : Prop where
  lock : s'.lock = s.lock
  condition : s'.condition = s.condition
  history : ∃ events, s.Adds s' events ∧ ∀ e ∈ events, e.isNeutral = true

namespace Kernel

variable {client : Client κ σ ι} {choice : Choice ι} {s s' : Kernel κ σ}

theorem Neutral.of_eq (hlock : s'.lock = s.lock) (hcondition : s'.condition = s.condition)
    (hhistory : s'.history = s.history) : s.Neutral s' :=
  ⟨hlock, hcondition, [], Adds.nil hhistory, by simp⟩

theorem Neutral.of_event (e : Event) (hlock : s'.lock = s.lock)
    (hcondition : s'.condition = s.condition) (hadds : s.Adds s' [e])
    (hneutral : e.isNeutral = true) : s.Neutral s' :=
  ⟨hlock, hcondition, [e], hadds, by simpa using hneutral⟩

/-- No other program point touches locks or conditions. -/
theorem exec_neutral {frame : Frame κ} (h : s.exec client choice frame = .ok s')
    (hframe : frame.isSynch = false) : s.Neutral s' := by
  cases frame with
  | call op =>
      obtain rfl := Except.ok.inj h
      cases op with
      | lockAcquire l => simp [Frame.isSynch] at hframe
      | lockRelease l => simp [Frame.isSynch] at hframe
      | conditionWait c conditionLock => simp [Frame.isSynch] at hframe
      | conditionSignal c conditionLock => simp [Frame.isSynch] at hframe
      | semaphoreP i => exact .of_eq rfl rfl rfl
      | semaphoreV i =>
          have hraise := raiseSemaphore_frame i (s.changeLevel .intOff)
          exact ⟨hraise.lock, hraise.condition,
            handleAll_history [.device i] (s.changeLevel .intOff)⟩
      | conditionBroadcast c conditionLock => exact .of_eq rfl rfl rfl
      | threadFork body => exact .of_eq rfl rfl rfl
      | threadYield =>
          simp only [execOp, threadYield]
          split
          · exact .of_eq rfl rfl rfl
          · exact .of_eq rfl rfl rfl
      | threadFinish => exact .of_event (.threadFinished s.currentThread) rfl rfl rfl rfl
  | setLevel now =>
      obtain rfl := Except.ok.inj h
      unfold setLevel
      split
      · exact .of_eq rfl rfl rfl
      · exact .of_eq rfl rfl rfl
  | oneTick =>
      obtain rfl := Except.ok.inj h
      have hhandled := tickHandled_frame choice.interrupts s
      have hhistory := tickHandled_history choice.interrupts s
      rcases oneTick_eq choice.interrupts s with heq | heq
      · rw [heq]
        exact ⟨hhandled.lock, hhandled.condition, hhistory⟩
      · rw [heq]
        exact ⟨hhandled.lock, hhandled.condition, hhistory⟩
  | setStatus m =>
      obtain rfl := Except.ok.inj h
      exact .of_eq rfl rfl rfl
  | sleep =>
      obtain ⟨-, rfl⟩ := threadSleep_ok h
      exact .of_eq rfl rfl rfl
  | sleepLoop =>
      rcases sleepLoop_ok h with ⟨next, rest, -, rfl⟩ | ⟨-, -, advance, rfl⟩
      · exact .of_eq rfl rfl rfl
      · have hidle := idle_frame advance choice.interrupts s
        exact ⟨hidle.lock, hidle.condition, handleAll_history choice.interrupts _⟩
  | afterSwitch =>
      rcases afterSwitch_ok h with rfl | ⟨t, -, -, rfl⟩
      · exact .of_eq rfl rfl rfl
      · exact .of_event (.threadDeleted t) rfl rfl rfl rfl
  | whileValueZero i =>
      obtain rfl := Except.ok.inj h
      unfold whileValueZero
      split
      · exact .of_eq rfl rfl rfl
      · exact .of_event (.semaphoreTaken i s.currentThread) rfl rfl rfl rfl
  | waitAppend c l => simp [Frame.isSynch] at hframe
  | waitReacquire c l =>
      obtain rfl := Except.ok.inj h
      exact .of_eq rfl rfl rfl
  | broadcastLoop c conditionLock =>
      obtain rfl := Except.ok.inj h
      unfold broadcastLoop
      split
      · exact .of_eq rfl rfl rfl
      · exact .of_eq rfl rfl rfl
  | halt => exact absurd h (by simp [exec])
  | client k =>
      obtain ⟨state, requests, -, rfl⟩ := exec_client_ok h
      exact .of_eq rfl rfl rfl

end Kernel

/-- What a step at `frame` can do to lock `l`, and the events it records. -/
inductive LockEffect (s s' : Kernel κ σ) (frame : Frame κ) (l : LockId) : Prop
  /-- Nothing happens to the lock. -/
  | same (hlock : s'.lock l = s.lock l) (events : List Event) (hadds : s.Adds s' events)
      (hquiet : ∀ e ∈ events, e.queuedOn l = none ∧ e.grantedOn l = none)
  /-- `Acquire` takes the free lock. -/
  | taken (hframe : frame = .call (.lockAcquire l))
      (howner : (s.lock l).owner ≠ some s.currentThread)
      (havailable : (s.lock l).available = true)
      (hlock : s'.lock l = ⟨false, some s.currentThread, (s.lock l).waitingThreads⟩)
      (hadds : s.Adds s' [])
  /-- `Acquire` queues for the lock. -/
  | queued (hframe : frame = .call (.lockAcquire l))
      (howner : (s.lock l).owner ≠ some s.currentThread)
      (havailable : (s.lock l).available = false)
      (hlock : s'.lock l = ⟨false, (s.lock l).owner,
        (s.lock l).waitingThreads ++ [s.currentThread]⟩)
      (hadds : s.Adds s' [.lockQueued l s.currentThread])
  /-- `Release` hands the lock over. -/
  | granted (t : ThreadId) (rest : List ThreadId) (hframe : frame = .call (.lockRelease l))
      (howner : (s.lock l).owner = some s.currentThread)
      (hwaiting : (s.lock l).waitingThreads = t :: rest)
      (hlock : s'.lock l = ⟨(s.lock l).available, some t, rest⟩)
      (hadds : s.Adds s' [.lockGranted l t])
  /-- `Release` frees the lock. -/
  | freed (hframe : frame = .call (.lockRelease l))
      (howner : (s.lock l).owner = some s.currentThread)
      (hwaiting : (s.lock l).waitingThreads = [])
      (hlock : s'.lock l = ⟨true, none, []⟩) (hadds : s.Adds s' [])

/-- What a step at `frame` can do to condition `c`, and the events it
records. -/
inductive ConditionEffect (s s' : Kernel κ σ) (frame : Frame κ) (c : ConditionId) : Prop
  /-- Nothing happens to the condition. -/
  | same (hcondition : s'.condition c = s.condition c) (events : List Event)
      (hadds : s.Adds s' events)
      (hquiet : ∀ e ∈ events, e.waitsOn c = none ∧ e.wokenOn c = none)
  /-- `Wait` binds the condition to its lock. -/
  | bound (l : LockId) (hframe : frame = .call (.conditionWait c (some l)))
      (hfree : (s.condition c).waitingLock = none)
      (hcondition : s'.condition c = ⟨some l, (s.condition c).waitingCV⟩)
      (hadds : s.Adds s' [])
  /-- `Wait` appends its thread. -/
  | queued (l : LockId) (hframe : frame = .waitAppend c l)
      (hcondition : s'.condition c = ⟨(s.condition c).waitingLock,
        (s.condition c).waitingCV ++ [s.currentThread]⟩)
      (hadds : s.Adds s' [.conditionQueued c l s.currentThread])
  /-- `Signal` with the bound lock wakes the first thread. -/
  | woken (t : ThreadId) (rest : List ThreadId)
      (hframe : frame = .call (.conditionSignal c (s.condition c).waitingLock))
      (hwaiting : (s.condition c).waitingCV = t :: rest)
      (hcondition : s'.condition c =
        ⟨if rest = [] then none else (s.condition c).waitingLock, rest⟩)
      (hadds : s.Adds s' [.conditionWoken c t])

section Effects

variable {client : Client κ σ ι} {choice : Choice ι} {s s' : Kernel κ σ}
  {frame : Frame κ} {l : LockId} {c : ConditionId}

theorem LockEffect.of_eq (hlock : s'.lock l = s.lock l) (hhistory : s'.history = s.history) :
    LockEffect s s' frame l :=
  .same hlock [] (Kernel.Adds.nil hhistory) (by simp)

theorem LockEffect.of_event (e : Event) (hlock : s'.lock l = s.lock l)
    (hadds : s.Adds s' [e]) (hqueued : e.queuedOn l = none)
    (hgranted : e.grantedOn l = none) : LockEffect s s' frame l :=
  .same hlock [e] hadds (by simp [hqueued, hgranted])

theorem LockEffect.of_neutral (h : s.Neutral s') : LockEffect s s' frame l := by
  obtain ⟨events, hadds, hneutral⟩ := h.history
  exact .same (congrFun h.lock l) events hadds fun e he =>
    Event.isNeutral.lock (hneutral e he) l

theorem ConditionEffect.of_eq (hcondition : s'.condition c = s.condition c)
    (hhistory : s'.history = s.history) : ConditionEffect s s' frame c :=
  .same hcondition [] (Kernel.Adds.nil hhistory) (by simp)

theorem ConditionEffect.of_event (e : Event) (hcondition : s'.condition c = s.condition c)
    (hadds : s.Adds s' [e]) (hwaits : e.waitsOn c = none) (hwoken : e.wokenOn c = none) :
    ConditionEffect s s' frame c :=
  .same hcondition [e] hadds (by simp [hwaits, hwoken])

theorem ConditionEffect.of_neutral (h : s.Neutral s') : ConditionEffect s s' frame c := by
  obtain ⟨events, hadds, hneutral⟩ := h.history
  exact .same (congrFun h.condition c) events hadds fun e he =>
    Event.isNeutral.condition (hneutral e he) c

end Effects

namespace Kernel

variable {client : Client κ σ ι} {choice : Choice ι} {s s' : Kernel κ σ}

theorem lockAcquire_lock (l' l : LockId) :
    LockEffect s (s.lockAcquire l') (.call (.lockAcquire l')) l := by
  unfold lockAcquire
  by_cases hl : l = l'
  · subst hl
    split
    · exact .of_eq rfl rfl
    · rename_i howner
      split
      · rename_i havailable
        exact .taken rfl howner havailable (by simp [push, setLock]) (Adds.nil rfl)
      · rename_i havailable
        have hbusy : (s.lock l).available = false := by simpa using havailable
        exact .queued rfl howner hbusy (by simp [push, setLock, record, hbusy]) rfl
  · split
    · exact .of_eq rfl rfl
    · split
      · exact .of_eq (by simp [push, setLock, changeLevel, hl]) rfl
      · refine .of_event (.lockQueued l' s.currentThread) ?_ rfl ?_ rfl
        · simp [push, setLock, changeLevel, record, hl]
        · simp [Event.queuedOn, Ne.symm hl]

theorem lockRelease_lock (l' l : LockId) :
    LockEffect s (s.lockRelease l') (.call (.lockRelease l')) l := by
  unfold lockRelease
  by_cases hl : l = l'
  · subst hl
    split
    · rename_i howner
      split
      · rename_i t rest hwaiting
        exact .granted t rest rfl howner hwaiting
          (by simp [setLock, readyToRun, record]) rfl
      · rename_i hwaiting
        exact .freed rfl howner hwaiting (by simp [setLock]) (Adds.nil rfl)
    · exact .of_eq rfl rfl
  · split
    · split
      · rename_i t rest _
        refine .of_event (.lockGranted l' t) ?_ rfl rfl ?_
        · simp [setLock, changeLevel, readyToRun, record, hl]
        · simp [Event.grantedOn, Ne.symm hl]
      · exact .of_eq (by simp [setLock, changeLevel, hl]) rfl
    · exact .of_eq rfl rfl

theorem conditionWait_condition (c' : ConditionId) (conditionLock : Option LockId)
    (c : ConditionId) :
    ConditionEffect s (s.conditionWait c' conditionLock)
      (.call (.conditionWait c' conditionLock)) c := by
  cases conditionLock with
  | none => exact .of_eq rfl rfl
  | some l =>
      simp only [conditionWait]
      split
      · rename_i hfree
        by_cases hc : c = c'
        · subst hc
          exact .bound l rfl hfree (by simp [push, setCondition]) (Adds.nil rfl)
        · exact .of_eq (by simp [push, setCondition, changeLevel, hc]) rfl
      · split
        · exact .of_eq rfl rfl
        · exact .of_eq rfl rfl

theorem conditionSignal_condition (c' : ConditionId) (conditionLock : Option LockId)
    (c : ConditionId) :
    ConditionEffect s (s.conditionSignal c' conditionLock)
      (.call (.conditionSignal c' conditionLock)) c := by
  unfold conditionSignal
  split
  · exact .of_eq rfl rfl
  · rename_i t rest hwaiting
    split
    · rename_i hlock
      subst hlock
      by_cases hc : c = c'
      · subst hc
        exact .woken t rest rfl hwaiting (by simp [push, setCondition, readyToRun, record]) rfl
      · refine .of_event (.conditionWoken c' t) ?_ rfl rfl ?_
        · simp [push, setCondition, changeLevel, readyToRun, record, hc]
        · simp [Event.wokenOn, Ne.symm hc]
    · exact .of_eq rfl rfl

theorem waitAppend_condition (c' : ConditionId) (l : LockId) (c : ConditionId) :
    ConditionEffect s (s.waitAppend c' l) (.waitAppend c' l) c := by
  by_cases hc : c = c'
  · subst hc
    exact .queued l rfl (by simp [waitAppend, push, setCondition, record]) rfl
  · refine .of_event (.conditionQueued c' l s.currentThread) ?_ rfl ?_ rfl
    · simp [waitAppend, push, setCondition, record, hc]
    · simp [Event.waitsOn, Ne.symm hc]

/-- Only `Acquire` and `Release` touch locks. -/
theorem exec_lock {frame : Frame κ} (h : s.exec client choice frame = .ok s')
    (l : LockId) : LockEffect s s' frame l := by
  cases hsynch : frame.isSynch with
  | false => exact .of_neutral (exec_neutral h hsynch)
  | true =>
      cases frame with
      | call op =>
          obtain rfl := Except.ok.inj h
          cases op with
          | lockAcquire l' => exact lockAcquire_lock l' l
          | lockRelease l' => exact lockRelease_lock l' l
          | conditionWait c conditionLock =>
              simp only [execOp, conditionWait]
              repeat' split
              all_goals exact .of_eq rfl rfl
          | conditionSignal c conditionLock =>
              simp only [execOp, conditionSignal]
              split
              · exact .of_eq rfl rfl
              · rename_i t rest _
                split
                · exact .of_event (.conditionWoken c t) rfl rfl rfl rfl
                · exact .of_eq rfl rfl
          | _ => simp [Frame.isSynch] at hsynch
      | waitAppend c l' =>
          obtain rfl := Except.ok.inj h
          exact .of_event (.conditionQueued c l' s.currentThread) rfl rfl rfl rfl
      | _ => simp [Frame.isSynch] at hsynch

/-- Only `Wait` and `Signal` touch conditions. -/
theorem exec_condition {frame : Frame κ} (h : s.exec client choice frame = .ok s')
    (c : ConditionId) : ConditionEffect s s' frame c := by
  cases hsynch : frame.isSynch with
  | false => exact .of_neutral (exec_neutral h hsynch)
  | true =>
      cases frame with
      | call op =>
          obtain rfl := Except.ok.inj h
          cases op with
          | lockAcquire l =>
              simp only [execOp, lockAcquire]
              split
              · exact .of_eq rfl rfl
              · split
                · exact .of_eq rfl rfl
                · exact .of_event (.lockQueued l s.currentThread) rfl rfl rfl rfl
          | lockRelease l =>
              simp only [execOp, lockRelease]
              split
              · split
                · rename_i t rest _
                  exact .of_event (.lockGranted l t) rfl rfl rfl rfl
                · exact .of_eq rfl rfl
              · exact .of_eq rfl rfl
          | conditionWait c' conditionLock => exact conditionWait_condition c' conditionLock c
          | conditionSignal c' conditionLock =>
              exact conditionSignal_condition c' conditionLock c
          | _ => simp [Frame.isSynch] at hsynch
      | waitAppend c' l =>
          obtain rfl := Except.ok.inj h
          exact waitAppend_condition c' l c
      | _ => simp [Frame.isSynch] at hsynch

/-- Kernel code does not touch the client's state. -/
theorem exec_client_same {frame : Frame κ} (h : s.exec client choice frame = .ok s')
    (hframe : ∀ k, frame ≠ .client k) : s'.client = s.client := by
  cases frame with
  | call op =>
      obtain rfl := Except.ok.inj h
      cases op with
      | semaphoreV i => exact (raiseSemaphore_frame i (s.changeLevel .intOff)).client
      | _ =>
          simp only [execOp, semaphoreP, lockAcquire, lockRelease, conditionWait,
            conditionSignal, threadFork, threadYield, threadFinish]
          repeat' split
          all_goals rfl
  | setLevel now =>
      obtain rfl := Except.ok.inj h
      unfold setLevel
      split
      · rfl
      · rfl
  | oneTick =>
      obtain rfl := Except.ok.inj h
      have hhandled := tickHandled_frame choice.interrupts s
      rcases oneTick_eq choice.interrupts s with heq | heq
      · rw [heq]
        exact hhandled.client
      · rw [heq]
        exact hhandled.client
  | setStatus m =>
      obtain rfl := Except.ok.inj h
      rfl
  | sleep =>
      obtain ⟨-, rfl⟩ := threadSleep_ok h
      rfl
  | sleepLoop =>
      rcases sleepLoop_ok h with ⟨next, rest, -, rfl⟩ | ⟨-, -, advance, rfl⟩
      · rfl
      · exact (idle_frame advance choice.interrupts s).client
  | afterSwitch =>
      rcases afterSwitch_ok h with rfl | ⟨t, -, -, rfl⟩
      · rfl
      · rfl
  | whileValueZero i =>
      obtain rfl := Except.ok.inj h
      unfold whileValueZero
      split
      · rfl
      · rfl
  | waitAppend c l =>
      obtain rfl := Except.ok.inj h
      rfl
  | waitReacquire c l =>
      obtain rfl := Except.ok.inj h
      rfl
  | broadcastLoop c conditionLock =>
      obtain rfl := Except.ok.inj h
      unfold broadcastLoop
      split
      · rfl
      · rfl
  | halt => exact absurd h (by simp [exec])
  | client k => exact absurd rfl (hframe k)

/-- Handlers wake nobody when nobody waits for a semaphore, and finish no
thread. -/
theorem handleAll_idle (interrupts : List Interrupt) (s : Kernel κ σ) :
    ((∀ i, (s.semaphore i).queue = []) →
      ∀ i, ((s.handleAll interrupts).semaphore i).queue = []) ∧
    ∀ t, .threadFinished t ∈ (s.handleAll interrupts).history →
      .threadFinished t ∈ s.history := by
  induction interrupts generalizing s with
  | nil => exact ⟨fun h => h, fun t h => h⟩
  | cons irq interrupts ih =>
      obtain ⟨hqueues, hfinished⟩ := ih (s.handle irq)
      cases irq with
      | timer => exact ⟨hqueues, hfinished⟩
      | device i =>
          constructor
          · intro hempty
            refine hqueues fun j => ?_
            simp only [handle, raiseSemaphore, hempty i, record, setSemaphore]
            by_cases hj : j = i
            · simp [hj]
            · simp [hj, hempty j]
          · intro t ht
            have hold := hfinished t ht
            simp only [handle, raiseSemaphore] at hold
            split at hold
            · simpa [record, setSemaphore] using hold
            · simpa [record, setSemaphore, readyToRun] using hold

theorem tickHandled_idle (interrupts : List Interrupt) (s : Kernel κ σ) :
    ((∀ i, (s.semaphore i).queue = []) →
      ∀ i, ((s.tickHandled interrupts).semaphore i).queue = []) ∧
    ∀ t, .threadFinished t ∈ (s.tickHandled interrupts).history →
      .threadFinished t ∈ s.history := by
  have hidle := handleAll_idle interrupts (s.advanceClock.changeLevel .intOff)
  have hsame : (s.advanceClock.changeLevel .intOff).semaphore = s.semaphore ∧
      (s.advanceClock.changeLevel .intOff).history = s.history := by
    unfold advanceClock
    split
    · exact ⟨rfl, rfl⟩
    · exact ⟨rfl, rfl⟩
  rw [hsame.1, hsame.2] at hidle
  exact hidle

/-- A thread finishes by its own `Finish`, and waits for a semaphore by its own
`P`. -/
theorem exec_idle {frame : Frame κ} (h : s.exec client choice frame = .ok s')
    (hqueue : ∀ i, frame ≠ .whileValueZero i) (hfinish : frame ≠ .call .threadFinish) :
    ((∀ i, (s.semaphore i).queue = []) → ∀ i, (s'.semaphore i).queue = []) ∧
    ∀ t, .threadFinished t ∈ s'.history → .threadFinished t ∈ s.history := by
  have hself : ((∀ i, (s.semaphore i).queue = []) → ∀ i, (s.semaphore i).queue = []) ∧
      ∀ t, .threadFinished t ∈ s.history → .threadFinished t ∈ s.history :=
    ⟨fun h => h, fun t h => h⟩
  cases frame with
  | call op =>
      obtain rfl := Except.ok.inj h
      cases op with
      | semaphoreV i => exact handleAll_idle [.device i] (s.changeLevel .intOff)
      | threadFinish => exact absurd rfl hfinish
      | _ =>
          simp only [execOp, semaphoreP, lockAcquire, lockRelease, conditionWait,
            conditionSignal, threadFork, threadYield]
          repeat' split
          all_goals first
            | exact hself
            | exact ⟨fun h => h, fun t ht => by
                simpa [record, push, setLock, setCondition, changeLevel, readyToRun] using ht⟩
  | setLevel now =>
      obtain rfl := Except.ok.inj h
      unfold setLevel
      split
      · exact hself
      · exact hself
  | oneTick =>
      obtain rfl := Except.ok.inj h
      have hhandled := tickHandled_idle choice.interrupts s
      rcases oneTick_eq choice.interrupts s with heq | heq
      · rw [heq]
        exact hhandled
      · rw [heq]
        exact hhandled
  | setStatus m =>
      obtain rfl := Except.ok.inj h
      exact hself
  | sleep =>
      obtain ⟨-, rfl⟩ := threadSleep_ok h
      exact hself
  | sleepLoop =>
      rcases sleepLoop_ok h with ⟨next, rest, -, rfl⟩ | ⟨-, -, advance, rfl⟩
      · exact hself
      · exact handleAll_idle choice.interrupts { s with stats := { s.stats with
          totalTicks := s.stats.totalTicks + advance
          idleTicks := s.stats.idleTicks + advance } }
  | afterSwitch =>
      rcases afterSwitch_ok h with rfl | ⟨t, -, -, rfl⟩
      · exact hself
      · exact ⟨fun h => h, fun t ht => by simpa [record] using ht⟩
  | whileValueZero i => exact absurd rfl (hqueue i)
  | waitAppend c l =>
      obtain rfl := Except.ok.inj h
      exact ⟨fun h => h, fun t ht => by
        simpa [waitAppend, record, push, setCondition] using ht⟩
  | waitReacquire c l =>
      obtain rfl := Except.ok.inj h
      exact hself
  | broadcastLoop c conditionLock =>
      obtain rfl := Except.ok.inj h
      unfold broadcastLoop
      split
      · exact hself
      · exact hself
  | halt => exact absurd h (by simp [exec])
  | client k =>
      obtain ⟨state, requests, -, rfl⟩ := exec_client_ok h
      exact hself

/-- What a step does to a lock. -/
theorem StepAt.lock {frame : Frame κ} {rest gs : List (Frame κ)}
    (h : StepAt client choice s s' frame rest gs) (l : LockId) : LockEffect s s' frame l := by
  cases exec_lock h.exec l with
  | same hlock events hadds hquiet => exact .same hlock events hadds hquiet
  | taken hframe howner havailable hlock hadds =>
      exact .taken hframe howner havailable hlock hadds
  | queued hframe howner havailable hlock hadds =>
      exact .queued hframe howner havailable hlock hadds
  | granted t rest hframe howner hwaiting hlock hadds =>
      exact .granted t rest hframe howner hwaiting hlock hadds
  | freed hframe howner hwaiting hlock hadds => exact .freed hframe howner hwaiting hlock hadds

/-- What a step does to a condition. -/
theorem StepAt.condition {frame : Frame κ} {rest gs : List (Frame κ)}
    (h : StepAt client choice s s' frame rest gs) (c : ConditionId) :
    ConditionEffect s s' frame c := by
  cases exec_condition h.exec c with
  | same hcondition events hadds hquiet => exact .same hcondition events hadds hquiet
  | bound l hframe hfree hcondition hadds => exact .bound l hframe hfree hcondition hadds
  | queued l hframe hcondition hadds => exact .queued l hframe hcondition hadds
  | woken t rest hframe hwaiting hcondition hadds =>
      exact .woken t rest hframe hwaiting hcondition hadds

end Kernel

end Objects

end Threads
end Nachos
