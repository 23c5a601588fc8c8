import Nachos.Threads.Processor
import Nachos.Threads.StepEffects

/-!
# The kernel refines the abstract processor

`Kernel.view` reads the abstract processor off the kernel: the phase is told by
the top frame of `currentThread`, the slots are the ready list and the waiting
lists of the synchronization objects, and the finished threads are those the
history records.

`step_moves` is the refinement: every step of the kernel, at whatever program
point and whatever the environment chooses, is a finite sequence of moves of
the processor.  It needs one fact about the stacks, `StackShape`: a thread that
is parked or asleep shows it at the top of its stack, and only there.
`wellFormed_step` carries both invariants along a run.
-/

namespace Nachos
namespace Threads

open Lib Relation

variable {κ σ ι : Type}

/-- The frames of a thread that has parked itself. -/
def Frame.isParked : Frame κ → Bool
  | .sleep => true
  | .sleepLoop => true
  | _ => false

/-- The phase a top frame stands for. -/
def phaseOf : Option (Frame κ) → Phase
  | some .sleep => .parking
  | some .sleepLoop => .idle
  | _ => .active

theorem phaseOf_active {top : Option (Frame κ)}
    (h : ∀ frame, top = some frame → frame.isParked = false) : phaseOf top = .active := by
  cases top with
  | none => rfl
  | some frame =>
      have hframe := h frame rfl
      cases frame <;> simp_all [phaseOf, Frame.isParked]

theorem phaseOf_some {frame : Frame κ} (h : frame.isParked = false) :
    phaseOf (some frame) = .active :=
  phaseOf_active fun _ heq => Option.some.inj heq ▸ h

namespace Kernel

/-- The threads listed at a slot. -/
def slots (s : Kernel κ σ) : Slot → List ThreadId
  | .ready => s.readyList
  | .waiting (.semaphore i) => (s.semaphore i).queue
  | .waiting (.lock l) => (s.lock l).waitingThreads
  | .waiting (.condition c) => (s.condition c).waitingCV

/-- The processor the kernel shows at a phase. -/
def viewAt (phase : Phase) (s : Kernel κ σ) : Processor where
  phase := phase
  current := s.currentThread
  status := s.threadStatus
  slots := s.slots
  born := s.threadCount
  finished := { t | .threadFinished t ∈ s.history }

/-- The abstract processor of a kernel state. -/
def view (s : Kernel κ σ) : Processor := s.viewAt (phaseOf s.top)

/-- Parked frames are found at the top of a stack only, and a thread that is
not current has none at all. -/
structure StackShape (s : Kernel κ σ) : Prop where
  tail : ∀ t, ∀ frame ∈ (s.stack t).tail, frame.isParked = false
  head : ∀ t, t ≠ s.currentThread → ∀ frame, (s.stack t).head? = some frame →
    frame.isParked = false

section Slots

variable (s : Kernel κ σ)

@[simp] theorem slots_push (gs : List (Frame κ)) : (s.push gs).slots = s.slots := rfl

@[simp] theorem slots_record (events : List Event) : (s.record events).slots = s.slots := rfl

@[simp] theorem slots_changeLevel (now : IntStatus) : (s.changeLevel now).slots = s.slots :=
  rfl

@[simp] theorem slots_run (next : ThreadId) : (s.run next).slots = s.slots := rfl

@[simp] theorem slots_setSemaphore (i : SemaphoreId) (sem : Semaphore) :
    (s.setSemaphore i sem).slots =
      Function.update s.slots (.waiting (.semaphore i)) sem.queue := by
  funext slot
  rcases slot with _ | q
  · rfl
  · cases q with
    | semaphore j =>
        by_cases hj : j = i
        · subst hj
          simp [slots, setSemaphore]
        · simp [slots, setSemaphore, hj]
    | lock l => rfl
    | condition c => rfl

@[simp] theorem slots_setLock (l : LockId) (lk : Lock) :
    (s.setLock l lk).slots =
      Function.update s.slots (.waiting (.lock l)) lk.waitingThreads := by
  funext slot
  rcases slot with _ | q
  · rfl
  · cases q with
    | semaphore j => rfl
    | lock l' =>
        by_cases hl : l' = l
        · subst hl
          simp [slots, setLock]
        · simp [slots, setLock, hl]
    | condition c => rfl

@[simp] theorem slots_setCondition (c : ConditionId) (cv : Condition) :
    (s.setCondition c cv).slots =
      Function.update s.slots (.waiting (.condition c)) cv.waitingCV := by
  funext slot
  rcases slot with _ | q
  · rfl
  · cases q with
    | semaphore j => rfl
    | lock l' => rfl
    | condition c' =>
        by_cases hc : c' = c
        · subst hc
          simp [slots, setCondition]
        · simp [slots, setCondition, hc]

@[simp] theorem slots_readyToRun (t : ThreadId) :
    (s.readyToRun t).slots = Function.update s.slots .ready (s.slots .ready ++ [t]) := by
  funext slot
  rcases slot with _ | q
  · simp [slots, readyToRun]
  · cases q <;> rfl

@[simp] theorem slots_setReadyList (ready : List ThreadId) :
    ({ s with readyList := ready } : Kernel κ σ).slots =
      Function.update s.slots .ready ready := by
  funext slot
  rcases slot with _ | q
  · simp [slots]
  · cases q <;> rfl

end Slots

section Views

variable {s s' : Kernel κ σ}

theorem view_of_phase {p : Phase} (h : phaseOf s.top = p) : s.view = s.viewAt p := by
  rw [view, h]

theorem viewAt_ext {phase : Phase} (hcurrent : s'.currentThread = s.currentThread)
    (hstatus : s'.threadStatus = s.threadStatus) (hslots : s'.slots = s.slots)
    (hcount : s'.threadCount = s.threadCount)
    (hfinished : ∀ t, Event.threadFinished t ∈ s'.history ↔ .threadFinished t ∈ s.history) :
    s'.viewAt phase = s.viewAt phase := by
  simp only [viewAt, hcurrent, hstatus, hslots, hcount, hfinished]

theorem moves_of_viewAt_eq {phase : Phase} (h : s'.viewAt phase = s.viewAt phase) :
    ReflTransGen Move (s.viewAt phase) (s'.viewAt phase) := by
  rw [h]

/-- The current thread parks itself, seen abstractly. -/
theorem park_moves (q : WaitQueue) (hcurrent : s'.currentThread = s.currentThread)
    (hstatus : s'.threadStatus = s.threadStatus)
    (hslots : s'.slots = Function.update s.slots (.waiting q)
      (s.slots (.waiting q) ++ [s.currentThread]))
    (hcount : s'.threadCount = s.threadCount)
    (hfinished : ∀ t, Event.threadFinished t ∈ s'.history ↔ .threadFinished t ∈ s.history) :
    ReflTransGen Move (s.viewAt .active) (s'.viewAt .parking) := by
  have hmove := Move.park (s.viewAt .active) q rfl
  have heq : s'.viewAt .parking = { s.viewAt .active with
      phase := .parking
      slots := Function.update (s.viewAt .active).slots (.waiting q)
        ((s.viewAt .active).slots (.waiting q) ++ [(s.viewAt .active).current]) } := by
    simp only [viewAt, hcurrent, hstatus, hslots, hcount, hfinished]
  rw [heq]
  exact .single hmove

/-- The wake-up of the first thread of a queue, seen abstractly. -/
theorem wake_moves {phase : Phase} (hphase : phase ≠ .parking) {q : WaitQueue} {t : ThreadId}
    {rest : List ThreadId} (hhead : s.slots (.waiting q) = t :: rest)
    (hcurrent : s'.currentThread = s.currentThread)
    (hstatus : s'.threadStatus = Function.update s.threadStatus t .ready)
    (hslots : s'.slots = Function.update (Function.update s.slots (.waiting q) rest) .ready
      (s.slots .ready ++ [t]))
    (hcount : s'.threadCount = s.threadCount)
    (hfinished : ∀ t, Event.threadFinished t ∈ s'.history ↔ .threadFinished t ∈ s.history) :
    ReflTransGen Move (s.viewAt phase) (s'.viewAt phase) := by
  have hmove := Move.wake (s.viewAt phase) q t rest hphase hhead
  have heq : s'.viewAt phase = { s.viewAt phase with
      status := Function.update (s.viewAt phase).status t .ready
      slots := Function.update (Function.update (s.viewAt phase).slots (.waiting q) rest)
        .ready ((s.viewAt phase).slots .ready ++ [t]) } := by
    simp only [viewAt, hcurrent, hstatus, hslots, hcount, hfinished]
  rw [heq]
  exact .single hmove

theorem raiseSemaphore_moves {phase : Phase} (hphase : phase ≠ .parking) (i : SemaphoreId) :
    ReflTransGen Move (s.viewAt phase) ((s.raiseSemaphore i).viewAt phase) := by
  unfold raiseSemaphore
  split
  · rename_i hqueue
    refine moves_of_viewAt_eq (viewAt_ext rfl rfl ?_ rfl (by simp [record, setSemaphore]))
    exact (slots_setSemaphore s i _).trans (Function.update_eq_self_iff.mpr hqueue.symm)
  · rename_i t rest hqueue
    refine wake_moves hphase (q := .semaphore i) hqueue rfl rfl ?_ rfl
      (by simp [record, readyToRun, setSemaphore])
    refine (slots_readyToRun _ t).trans ?_
    rw [slots_setSemaphore]
    simp

theorem handleAll_moves {phase : Phase} (hphase : phase ≠ .parking)
    (interrupts : List Interrupt) (s : Kernel κ σ) :
    ReflTransGen Move (s.viewAt phase) ((s.handleAll interrupts).viewAt phase) := by
  induction interrupts generalizing s with
  | nil => exact .refl
  | cons irq interrupts ih =>
      refine ReflTransGen.trans ?_ (ih (s.handle irq))
      cases irq with
      | timer => exact .refl
      | device i => exact raiseSemaphore_moves hphase i

end Views

section Steps

variable {client : Client κ σ ι} {choice : Choice ι} {s s' : Kernel κ σ}

theorem top_push_cons (g : Frame κ) (gs : List (Frame κ)) (u : Kernel κ σ) :
    (u.push (g :: gs)).top = some g := by
  simp [top, push]

/-- The frames below the one that is being executed are not parked. -/
def RestActive (s : Kernel κ σ) : Prop := ∀ frame, s.top = some frame → frame.isParked = false

/-- A push that starts with an unparked frame leaves the processor active. -/
theorem moves_push {p : Processor} {g : Frame κ} {gs : List (Frame κ)} {u : Kernel κ σ}
    (hg : g.isParked = false) (hmoves : ReflTransGen Move p (u.viewAt .active)) :
    ReflTransGen Move p (u.push (g :: gs)).view := by
  rw [view_of_phase (top_push_cons g gs u ▸ phaseOf_some hg)]
  exact hmoves

/-- A push of `Sleep` is a processor that is parking. -/
theorem moves_push_sleep {p : Processor} {gs : List (Frame κ)} {u : Kernel κ σ}
    (hmoves : ReflTransGen Move p (u.viewAt .parking)) :
    ReflTransGen Move p (u.push (.sleep :: gs)).view := by
  rw [view_of_phase (p := .parking) (by rw [top_push_cons]; rfl)]
  exact hmoves

/-- With nothing pushed, the processor goes on with the frame below. -/
theorem moves_rest {p : Processor} (hrest : s.RestActive)
    (hcurrent : s'.currentThread = s.currentThread) (hstack : s'.stack = s.stack)
    (hmoves : ReflTransGen Move p (s'.viewAt .active)) : ReflTransGen Move p s'.view := by
  rw [view_of_phase (p := .active)]
  · exact hmoves
  · refine phaseOf_active ?_
    intro frame hframe
    rw [top, hcurrent, hstack] at hframe
    exact hrest frame hframe

/-- After a dispatch the processor is active: a thread that was not current is
not parked, and the current thread has just been switched out. -/
theorem moves_run {p : Processor} {gs : List (Frame κ)} {next : ThreadId}
    {u : Kernel κ σ} (hothers : ∀ t, t ≠ u.currentThread → ∀ frame,
      (u.stack t).head? = some frame → frame.isParked = false)
    (hmoves : ReflTransGen Move p ((u.run next).viewAt .active)) :
    ReflTransGen Move p ((u.push (.afterSwitch :: gs)).run next).view := by
  rw [view_of_phase (p := .active)]
  · exact hmoves
  · refine phaseOf_active ?_
    intro frame hframe
    change ((u.push (.afterSwitch :: gs)).stack next).head? = some frame at hframe
    by_cases hnext : next = u.currentThread
    · rw [push_stack_self _ hnext.symm] at hframe
      simp only [List.cons_append, List.head?_cons, Option.some.injEq] at hframe
      exact hframe ▸ rfl
    · rw [push_stack_other _ hnext] at hframe
      exact hothers next hnext frame hframe

theorem lockAcquire_moves (l : LockId) :
    ReflTransGen Move (s.viewAt .active) (s.lockAcquire l).view := by
  unfold lockAcquire
  split
  · exact moves_push rfl .refl
  · split
    · refine moves_push rfl (moves_of_viewAt_eq (viewAt_ext rfl rfl ?_ rfl fun _ => Iff.rfl))
      simp [slots]
    · refine moves_push_sleep (park_moves (.lock l) rfl rfl ?_ rfl ?_)
      · simp [slots]
      · simp [record, setLock, changeLevel]

theorem lockRelease_moves (hrest : s.RestActive) (l : LockId) :
    ReflTransGen Move (s.viewAt .active) (s.lockRelease l).view := by
  unfold lockRelease
  split
  · split
    · rename_i t rest hwaiting
      refine moves_rest hrest rfl rfl
        (wake_moves (by simp) (q := .lock l) hwaiting rfl rfl ?_ rfl ?_)
      · simp
      · simp [record, readyToRun, setLock, changeLevel]
    · rename_i hwaiting
      refine moves_rest hrest rfl rfl
        (moves_of_viewAt_eq (viewAt_ext rfl rfl ?_ rfl fun _ => Iff.rfl))
      simp [slots, hwaiting]
  · exact moves_push rfl .refl

theorem conditionWait_moves (c : ConditionId) (conditionLock : Option LockId) :
    ReflTransGen Move (s.viewAt .active) (s.conditionWait c conditionLock).view := by
  cases conditionLock with
  | none => exact moves_push rfl .refl
  | some l =>
      simp only [conditionWait]
      split
      · refine moves_push rfl
          (moves_of_viewAt_eq (viewAt_ext rfl rfl ?_ rfl fun _ => Iff.rfl))
        simp [slots]
      · split
        · exact moves_push rfl .refl
        · exact moves_push rfl .refl

theorem conditionSignal_moves (c : ConditionId) (conditionLock : Option LockId) :
    ReflTransGen Move (s.viewAt .active) (s.conditionSignal c conditionLock).view := by
  unfold conditionSignal
  split
  · exact moves_push rfl .refl
  · rename_i t rest hwaiting
    split
    · refine moves_push rfl
        (wake_moves (by simp) (q := .condition c) hwaiting rfl rfl ?_ rfl ?_)
      · simp
      · simp [record, readyToRun, setCondition, changeLevel]
    · exact moves_push rfl .refl

theorem waitAppend_moves (c : ConditionId) (l : LockId) :
    ReflTransGen Move (s.viewAt .active) (s.waitAppend c l).view := by
  refine moves_push_sleep (park_moves (.condition c) rfl rfl ?_ rfl ?_)
  · simp [slots]
  · simp [record, setCondition]

theorem whileValueZero_moves (hrest : s.RestActive) (i : SemaphoreId) :
    ReflTransGen Move (s.viewAt .active) (s.whileValueZero i).view := by
  unfold whileValueZero
  split
  · refine moves_push_sleep (park_moves (.semaphore i) rfl rfl ?_ rfl fun _ => Iff.rfl)
    simp [slots]
  · refine moves_rest hrest rfl rfl (moves_of_viewAt_eq (viewAt_ext rfl rfl ?_ rfl ?_))
    · simp [slots]
    · simp [record, setSemaphore]

theorem threadFork_moves (body : κ) :
    ReflTransGen Move (s.viewAt .active) (s.threadFork body).view := by
  refine moves_push rfl (.single ?_)
  have hmove := Move.spawn (s.viewAt .active) rfl
  convert hmove using 1
  simp only [viewAt, slots_readyToRun]
  rfl

theorem threadYield_moves (hothers : ∀ t, t ≠ s.currentThread → ∀ frame,
      (s.stack t).head? = some frame → frame.isParked = false) :
    ReflTransGen Move (s.viewAt .active) s.threadYield.view := by
  unfold threadYield
  split
  · exact moves_push rfl .refl
  · rename_i next rest hready
    refine moves_run hothers (.single ?_)
    have hmove := Move.preempt (s.viewAt .active) next rest rfl hready
    convert hmove using 1
    simp only [viewAt, slots_run, slots_readyToRun, slots_changeLevel, slots_setReadyList,
      Function.update_self, Function.update_idem]
    rfl

theorem threadFinish_moves :
    ReflTransGen Move (s.viewAt .active) s.threadFinish.view := by
  refine moves_push_sleep (.single ?_)
  have hmove := Move.retire (s.viewAt .active) rfl
  convert hmove using 1
  simp only [viewAt, slots_record, slots_changeLevel]
  congr 1
  ext t
  simp [record, changeLevel, or_comm]

/-- The moves of an operation. -/
theorem execOp_moves (hrest : s.RestActive) (hothers : ∀ t, t ≠ s.currentThread →
      ∀ frame, (s.stack t).head? = some frame → frame.isParked = false) (op : Op κ) :
    ReflTransGen Move (s.viewAt .active) (s.execOp op).view := by
  cases op with
  | semaphoreP i => exact moves_push rfl .refl
  | semaphoreV i =>
      exact moves_push rfl (raiseSemaphore_moves (s := s.changeLevel .intOff) (by simp) i)
  | lockAcquire l => exact lockAcquire_moves l
  | lockRelease l => exact lockRelease_moves hrest l
  | conditionWait c conditionLock => exact conditionWait_moves c conditionLock
  | conditionSignal c conditionLock => exact conditionSignal_moves c conditionLock
  | conditionBroadcast c conditionLock => exact moves_push rfl .refl
  | threadFork body => exact threadFork_moves body
  | threadYield => exact threadYield_moves hothers
  | threadFinish => exact threadFinish_moves

theorem oneTick_moves (hrest : s.RestActive) (interrupts : List Interrupt) :
    ReflTransGen Move (s.viewAt .active) (s.oneTick interrupts).view := by
  have hframe := tickHandled_frame interrupts s
  have hclock : (s.advanceClock.changeLevel .intOff).viewAt .active = s.viewAt .active := by
    unfold advanceClock
    split
    · rfl
    · rfl
  have hmoves : ReflTransGen Move (s.viewAt .active)
      ((s.tickHandled interrupts).viewAt .active) :=
    hclock ▸ handleAll_moves (by simp) interrupts (s.advanceClock.changeLevel .intOff)
  rcases oneTick_eq interrupts s with heq | heq
  · rw [heq]
    exact moves_rest hrest hframe.currentThread hframe.stack hmoves
  · rw [heq]
    exact moves_push rfl hmoves

theorem sleepLoop_moves (hothers : ∀ t, t ≠ s.currentThread → ∀ frame,
      (s.stack t).head? = some frame → frame.isParked = false)
    (h : s.sleepLoop choice = .ok s') :
    ReflTransGen Move (s.viewAt .idle) s'.view := by
  rcases sleepLoop_ok h with ⟨next, rest, hready, rfl⟩ | ⟨-, -, advance, rfl⟩
  · refine moves_run hothers (.single ?_)
    have hmove := Move.dispatch (s.viewAt .idle) next rest rfl hready
    convert hmove using 1
    simp only [viewAt, slots_run, slots_setReadyList]
    rfl
  · rw [view_of_phase (p := .idle) (by rw [top_push_cons]; rfl)]
    exact handleAll_moves (by simp) choice.interrupts { s with stats := { s.stats with
      totalTicks := s.stats.totalTicks + advance
      idleTicks := s.stats.idleTicks + advance } }

/-- The code at a frame makes moves of the processor. -/
theorem exec_moves {frame : Frame κ} (h : s.exec client choice frame = .ok s')
    (hrest : s.RestActive) (hothers : ∀ t, t ≠ s.currentThread →
      ∀ frame, (s.stack t).head? = some frame → frame.isParked = false) :
    ReflTransGen Move (s.viewAt (phaseOf (some frame))) s'.view := by
  cases frame with
  | call op =>
      obtain rfl := Except.ok.inj h
      exact execOp_moves hrest hothers op
  | setLevel now =>
      obtain rfl := Except.ok.inj h
      unfold setLevel
      split
      · exact moves_push rfl .refl
      · exact moves_rest hrest rfl rfl .refl
  | oneTick =>
      obtain rfl := Except.ok.inj h
      exact oneTick_moves hrest choice.interrupts
  | setStatus m =>
      obtain rfl := Except.ok.inj h
      exact moves_rest hrest rfl rfl .refl
  | sleep =>
      obtain ⟨-, rfl⟩ := threadSleep_ok h
      rw [view_of_phase (p := .idle) (by rw [top_push_cons]; rfl)]
      exact .single (Move.block (s.viewAt .parking) rfl)
  | sleepLoop => exact sleepLoop_moves hothers h
  | afterSwitch =>
      rcases afterSwitch_ok h with rfl | ⟨t, -, -, rfl⟩
      · exact moves_rest hrest rfl rfl .refl
      · refine moves_rest hrest rfl rfl (moves_of_viewAt_eq (viewAt_ext rfl rfl rfl rfl ?_))
        simp [record]
  | whileValueZero i =>
      obtain rfl := Except.ok.inj h
      exact whileValueZero_moves hrest i
  | waitAppend c l =>
      obtain rfl := Except.ok.inj h
      exact waitAppend_moves c l
  | waitReacquire c l =>
      obtain rfl := Except.ok.inj h
      exact moves_push rfl .refl
  | broadcastLoop c conditionLock =>
      obtain rfl := Except.ok.inj h
      unfold broadcastLoop
      split
      · exact moves_rest hrest rfl rfl .refl
      · exact moves_push rfl .refl
  | halt => exact absurd h (by simp [exec])
  | client k =>
      obtain ⟨state, requests, -, rfl⟩ := exec_client_ok h
      cases requests with
      | nil => exact moves_rest hrest rfl (by simp [push]) .refl
      | cons request requests =>
          refine moves_push ?_ .refl
          cases request <;> rfl

end Steps

section WellFormed

variable {client : Client κ σ ι} {choice : Choice ι} {s s' : Kernel κ σ}

/-- Nothing pushed below the first frame is parked. -/
theorem pushes_tail {level : IntStatus} {frame : Frame κ} {gs : List (Frame κ)}
    (h : frame.Pushes level gs) : ∀ g ∈ gs.tail, g.isParked = false := by
  cases frame with
  | client k =>
      obtain ⟨requests, rfl⟩ := h
      intro g hg
      obtain ⟨request, -, rfl⟩ := List.mem_map.mp (List.mem_of_mem_tail hg)
      cases request <;> rfl
  | call op =>
      cases op <;> simp only [Frame.Pushes] at h
      case conditionWait c l =>
        rcases h with rfl | ⟨l, -, rfl⟩ <;> simp [Frame.isParked]
      all_goals first
        | (subst h; simp [Frame.isParked])
        | (rcases h with rfl | rfl <;> simp [Frame.isParked])
  | setLevel now => rcases h with rfl | ⟨-, rfl⟩ <;> simp
  | oneTick => rcases h with rfl | ⟨m, rfl⟩ <;> simp [Frame.isParked]
  | halt => exact absurd h (by simp [Frame.Pushes])
  | _ =>
      simp only [Frame.Pushes] at h
      first
        | (subst h; simp [Frame.isParked])
        | (rcases h with rfl | rfl <;> simp [Frame.isParked])

/-- The invariant of the kernel: parked frames are at the top of stacks, the
abstract processor is sound, and a thread that has not been started has nothing
to do. -/
structure WellFormed (s : Kernel κ σ) : Prop where
  shape : s.StackShape
  sound : s.view.Sound
  unborn : ∀ t, s.threadCount ≤ t → s.stack t = []

theorem WellFormed.rest_active (h : s.WellFormed) : s.pop.RestActive := by
  intro frame hframe
  refine h.shape.tail s.currentThread frame ?_
  change (s.pop.stack s.currentThread).head? = some frame at hframe
  rw [pop_stack_self] at hframe
  exact List.mem_of_mem_head? hframe

theorem WellFormed.others_active (h : s.WellFormed) (t : ThreadId)
    (ht : t ≠ s.currentThread) (frame : Frame κ)
    (hframe : (s.pop.stack t).head? = some frame) : frame.isParked = false := by
  refine h.shape.head t ht frame ?_
  rwa [pop_stack_other ht] at hframe

theorem WellFormed.current_lt (h : s.WellFormed) : s.currentThread < s.threadCount :=
  h.sound.current_born

/-- A thread is on one list at most. -/
theorem WellFormed.slot_unique (h : s.WellFormed) (q q' : Slot) {t : ThreadId}
    (hmem : t ∈ s.slots q) (hmem' : t ∈ s.slots q') : q = q' :=
  Processor.Sound.slot_unique h.sound hmem hmem'

/-- Listed threads have been started. -/
theorem WellFormed.born_of_mem (h : s.WellFormed) (q : Slot) {t : ThreadId}
    (hmem : t ∈ s.slots q) : t < s.threadCount :=
  Processor.Sound.born_of_mem h.sound hmem

/-- A computing thread is on no list. -/
theorem WellFormed.isParked_of_mem (hwf : s.WellFormed) {frame : Frame κ}
    (htop : s.top = some frame) (q : Slot) (hmem : s.currentThread ∈ s.slots q) :
    frame.isParked = true := by
  by_contra hparked
  have hactive : s.view.phase = .active := by
    change phaseOf s.top = .active
    rw [htop]
    exact phaseOf_some (by simpa using hparked)
  exact hwf.sound.current_notMem hactive q hmem

/-- Every step of a well-formed kernel runs the code at some frame. -/
theorem WellFormed.step_at (hwf : s.WellFormed) (h : s.step client choice = .ok s') :
    ∃ frame rest gs, StepAt client choice s s' frame rest gs :=
  Kernel.step_at h (Nat.ne_of_lt hwf.current_lt)

/-- **Refinement.**  Every step of a well-formed kernel is a finite sequence of
moves of its processor. -/
theorem step_moves (hwf : s.WellFormed) (h : s.step client choice = .ok s') :
    ReflTransGen Move s.view s'.view := by
  obtain ⟨frame, htop, hexec⟩ := step_ok h
  have hmoves := exec_moves hexec hwf.rest_active hwf.others_active
  rw [view, htop]
  exact hmoves

theorem stackShape_step (hwf : s.WellFormed) (h : s.step client choice = .ok s') :
    s'.StackShape := by
  obtain ⟨frame, rest, gs, hat⟩ := hwf.step_at h
  have hrest : ∀ g ∈ rest, g.isParked = false := by
    intro g hg
    refine hwf.shape.tail s.currentThread g ?_
    rwa [hat.stack, List.tail_cons]
  constructor
  · intro t g hg
    by_cases ht : t = s.currentThread
    · rw [ht, hat.stack_self] at hg
      cases gs with
      | nil => exact hrest g (List.mem_of_mem_tail hg)
      | cons first later =>
          rcases List.mem_append.mp hg with hlater | hbelow
          · exact pushes_tail hat.pushes g hlater
          · exact hrest g hbelow
    · rcases hat.stack_other t ht with hsame | ⟨body, -, -, hroot⟩
      · exact hwf.shape.tail t g (hsame ▸ hg)
      · rw [hroot] at hg
        simp only [rootFrames, List.tail_cons, List.mem_cons, List.not_mem_nil, or_false] at hg
        rcases hg with rfl | rfl
        · rfl
        · rfl
  · intro t ht g hg
    by_cases hcur : t = s.currentThread
    · subst hcur
      rcases hat.currentThread with hsame | ⟨ready, later, -, hstack, -⟩
      · exact absurd hsame.symm ht
      · rw [hstack, List.head?_cons, Option.some.injEq] at hg
        exact hg ▸ rfl
    · rcases hat.stack_other t hcur with hsame | ⟨body, -, -, hroot⟩
      · exact hwf.shape.head t hcur g (hsame ▸ hg)
      · rw [hroot] at hg
        simp only [rootFrames, List.head?_cons, Option.some.injEq] at hg
        exact hg ▸ rfl

theorem moves_born {p p' : Processor} (hmoves : ReflTransGen Move p p') :
    p.born ≤ p'.born := by
  induction hmoves with
  | refl => exact Nat.le_refl _
  | tail _ hmove ih =>
      cases hmove with
      | spawn hphase => exact Nat.le_succ_of_le ih
      | _ => exact ih

/-- Threads are never taken back. -/
theorem step_threadCount (hwf : s.WellFormed) (h : s.step client choice = .ok s') :
    s.threadCount ≤ s'.threadCount :=
  moves_born (step_moves hwf h)

theorem unborn_step (hwf : s.WellFormed) (h : s.step client choice = .ok s') :
    ∀ t, s'.threadCount ≤ t → s'.stack t = [] := by
  intro t ht
  obtain ⟨frame, rest, gs, hat⟩ := hwf.step_at h
  have hborn := Nat.le_trans (step_threadCount hwf h) ht
  rcases hat.stack_other t (Nat.ne_of_gt (Nat.lt_of_lt_of_le hwf.current_lt hborn)) with
    hsame | ⟨body, rfl, hnew, -⟩
  · rw [hsame]
    exact hwf.unborn t hborn
  · have hs' : s.pop.threadFork body = s' := Except.ok.inj hat.exec
    have hcount : s'.threadCount = s.threadCount + 1 := by
      rw [← hs']
      rfl
    rw [hcount, hnew] at ht
    exact absurd ht (Nat.not_succ_le_self _)

/-- Steps keep the kernel well-formed. -/
theorem wellFormed_step (hwf : s.WellFormed) (h : s.step client choice = .ok s') :
    s'.WellFormed :=
  ⟨stackShape_step hwf h, Moves.sound (step_moves hwf h) hwf.sound, unborn_step hwf h⟩

/-- The machine boots into a well-formed state. -/
theorem wellFormed_boot (initialValue : SemaphoreId → Int) (state : σ) (main : κ) :
    (boot initialValue state main).WellFormed := by
  refine ⟨?_, ?_, ?_⟩
  · constructor
    · intro t frame hframe
      by_cases ht : t = 0
      · subst ht
        simp only [boot, Function.update_self, List.tail_cons, List.mem_cons,
          List.not_mem_nil, or_false] at hframe
        rcases hframe with rfl | rfl <;> rfl
      · simp [boot, ht] at hframe
    · intro t ht frame hframe
      simp only [boot] at ht
      simp [boot, ht] at hframe
  · refine ⟨fun _ => none, ?_⟩
    have hslots : ∀ slot, (boot initialValue state main).slots slot = [] := by
      intro slot
      rcases slot with _ | q
      · rfl
      · cases q <;> rfl
    constructor
    case partition =>
      constructor
      · intro slot
        change ((boot initialValue state main).slots slot).Nodup
        rw [hslots]
        exact List.nodup_nil
      · intro slot t
        change t ∈ (boot initialValue state main).slots slot ↔ _
        rw [hslots]
        simp
    case nowhere =>
      intro t ht _
      exact Or.inr ⟨Nat.lt_one_iff.mp ht, rfl⟩
    case current_born => exact Nat.zero_lt_one
    case finished_born => exact fun t ht => absurd ht (by simp [view, viewAt, boot])
    case active =>
      intro _
      exact ⟨by simp [view, viewAt, boot], rfl, by simp [view, viewAt, boot]⟩
    case parking => exact fun habs => absurd habs (by simp [view, viewAt, top, boot, phaseOf])
    case idle => exact fun habs => absurd habs (by simp [view, viewAt, top, boot, phaseOf])
    all_goals simp
  · intro t ht
    have hne : t ≠ 0 := Nat.ne_of_gt ht
    simp [boot, hne]

end WellFormed

end Kernel

end Threads
end Nachos
