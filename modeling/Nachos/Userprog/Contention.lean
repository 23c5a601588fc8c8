import Nachos.Threads.ThreadLife
import Nachos.Userprog.Momentary

/-!
# Two levels of locks

`Acquire_Syscall` asks for a lock of the lock table while it owns
`LockTableLock`, and `Release_Syscall` needs `LockTableLock` to give the lock
back.  So a thread that calls `Acquire(n)` while another one owns lock `n` goes
to sleep with `LockTableLock`, and the owner of lock `n` can never release it.

Here every thread brackets its work with `Acquire(n)` and `Release(n)` for one
lock that nobody destroys, and does nothing else.  As long as no
`Acquire_Syscall` finds the lock with another thread, threads wait for
`LockTableLock` only, and its owner is always able to run.
-/

namespace Nachos
namespace Userprog

open Threads Lib

section Brackets

/-- What a user thread always comes back to: the loop of `Machine::Run`, or the
procedure that gets a new thread there. -/
def isHome : UserFrame → Bool
  | .oneInstruction => true
  | .newProcess => true
  | .kernelRun => true
  | _ => false

/-- The frames of `Acquire(n)` and `Release(n)`, where `k` is the lock of entry
`n`. -/
def ofCall (n : Int) (k : LockId) : Frame UserFrame → Bool
  | .client (.exceptionHandler (.acquire m)) => m = n
  | .client (.exceptionHandler (.release m)) => m = n
  | .client (.acquireCheck m) => m = n
  | .client (.releaseCheck m) => m = n
  | .client (.releaseTail m) => m = n
  | .client (.sysReturn _) => true
  | .call (.lockAcquire l) => l = lockTableLock ∨ l = k
  | .call (.lockRelease l) => l = lockTableLock ∨ l = k
  | f => f.isQuiet

/-- The frames of a thread that runs user code or has been preempted there. -/
def isCalm (f : Frame UserFrame) : Bool := f.isQuiet && !f.isParked

/-- Frames that meet `p` over the frames every user thread begins with. -/
def isBased (p : Frame UserFrame → Bool) : List (Frame UserFrame) → Bool
  | [.client b, .call .threadFinish] => isHome b
  | f :: fs => p f && isBased p fs
  | [] => false

/-- The meaning of `isBased`. -/
def Based (p : Frame UserFrame → Bool) (fs : List (Frame UserFrame)) : Prop :=
  ∃ calls b, fs = calls ++ [.client b, .call .threadFinish] ∧ isHome b = true ∧
    ∀ f ∈ calls, p f = true

theorem based_of_isBased {p : Frame UserFrame → Bool} :
    ∀ {fs : List (Frame UserFrame)}, isBased p fs = true → Based p fs := by
  intro fs
  induction fs with
  | nil => simp [isBased]
  | cons f fs ih =>
      intro h
      unfold isBased at h
      split at h
      · rename_i b heq
        exact ⟨[], b, heq, h, by simp⟩
      · rename_i g later heq
        obtain ⟨rfl, rfl⟩ := List.cons.inj heq
        obtain ⟨hf, hfs⟩ := Bool.and_eq_true_iff.mp h
        obtain ⟨calls, b, rfl, hb, hcalls⟩ := ih hfs
        exact ⟨f :: calls, b, rfl, hb, by simpa using ⟨hf, hcalls⟩⟩
      · rename_i heq
        exact absurd heq (by simp)

/-- The thread can run: it is on the processor or ready for it. -/
def Runnable (s : UserKernel) (t : ThreadId) : Prop :=
  t = s.currentThread ∨ t ∈ s.readyList

instance (s : UserKernel) (t : ThreadId) : Decidable (Runnable s t) :=
  inferInstanceAs (Decidable (_ ∨ _))

/-- No thread is in a system call, and lock `k` of entry `n` is free. -/
def Quiescent (n : Int) (k : LockId) (s : UserKernel) : Prop :=
  index? s.client.lockTable n = some ⟨some k, false⟩ ∧
    (s.lock lockTableLock).owner = none ∧ (s.lock k).owner = none ∧
    ∀ t < s.threadCount, s.Finished t ∨ Runnable s t ∧ isBased isCalm (s.stack t) = true

instance (n : Int) (k : LockId) (s : UserKernel) : Decidable (Quiescent n k s) :=
  inferInstanceAs (Decidable (_ ∧ _ ∧ _ ∧ ∀ t < _, _))

/-- The user program makes a well-bracketed call: it calls `Acquire(n)` without
the lock, `Release(n)` with it, and nothing else. -/
def wellBracketed (n : Int) (k : LockId) (s : UserKernel) (choice : Choice Input) : Bool :=
  match s.top with
  | some (.client .oneInstruction) =>
      match choice.input.event with
      | .instruction => true
      | .syscall (.acquire m) => m = n ∧ (s.lock k).owner ≠ some s.currentThread
      | .syscall (.release m) => m = n ∧ (s.lock k).owner = some s.currentThread
      | _ => false
  | _ => true

/-- `Acquire_Syscall` does not find the lock with another thread. -/
def uncontended (n : Int) (k : LockId) (s : UserKernel) : Bool :=
  match s.top with
  | some (.client (.acquireCheck m)) =>
      m ≠ n ∨ (s.lock k).owner = none ∨ (s.lock k).owner = some s.currentThread
  | _ => true

/-- What holds while threads bracket their work without contention. -/
structure Bracketing (n : Int) (k : LockId) (s : UserKernel) : Prop where
  entry : index? s.client.lockTable n = some ⟨some k, false⟩
  /-- A thread that has been started and has not finished is in one of the two
  calls, or in none. -/
  shape : ∀ t, s.stack t = [] ∨ s.Finished t ∨ Based (ofCall n k) (s.stack t)
  /-- Threads wait for `LockTableLock` only. -/
  waiting : ∀ q, q ≠ .lock lockTableLock → s.slots (.waiting q) = []
  /-- The lock is asked for when no other thread owns it. -/
  asking : s.top = some (.call (.lockAcquire k)) →
    (s.lock k).owner = none ∨ (s.lock k).owner = some s.currentThread
  /-- The owners have not finished. -/
  live : ∀ l t, l = lockTableLock ∨ l = k → (s.lock l).owner = some t →
    t < s.threadCount ∧ ¬ s.Finished t

end Brackets

section Start

variable {n : Int} {k : LockId} {s : UserKernel}

/-- In a quiescent state nobody waits for anything. -/
theorem Quiescent.waiting (h : Quiescent n k s) (hwf : s.WellFormed) (q : WaitQueue) :
    s.slots (.waiting q) = [] := by
  refine List.eq_nil_iff_forall_not_mem.mpr fun t hmem => ?_
  obtain ⟨-, -, -, hidle⟩ := h
  rcases hidle t (hwf.born_of_mem _ hmem) with hfinished | ⟨hcurrent | hready, hbased⟩
  · exact hwf.sound.finished_notMem hfinished _ hmem
  · subst hcurrent
    obtain ⟨calls, b, hstack, -, hcalls⟩ := based_of_isBased hbased
    -- the top frame of a thread at user level is not parked
    cases calls with
    | nil =>
        have htop : s.top = some (.client b) := by simp [Kernel.top, hstack]
        exact absurd (hwf.isParked_of_mem htop _ hmem) (by simp [Frame.isParked])
    | cons f calls =>
        have htop : s.top = some f := by simp [Kernel.top, hstack]
        have hcalm := hcalls f List.mem_cons_self
        simp [isCalm, hwf.isParked_of_mem htop _ hmem] at hcalm
  · exact absurd (hwf.slot_unique .ready (.waiting q) hready hmem) (by simp)

theorem ofCall_of_isQuiet {f : Frame UserFrame} (h : f.isQuiet = true) :
    ofCall n k f = true := by
  cases f with
  | call op => cases op <;> simp_all [ofCall, Frame.isQuiet]
  | client b => simp [Frame.isQuiet] at h
  | _ => simp_all [ofCall, Frame.isQuiet]

theorem Quiescent.bracketing (h : Quiescent n k s) (hs : Orderly s) : Bracketing n k s := by
  have hwaiting := h.waiting hs.wellFormed
  obtain ⟨hentry, htable, hlock, hidle⟩ := h
  have hstacks : ∀ t, s.stack t = [] ∨ s.Finished t ∨ Based isCalm (s.stack t) := by
    intro t
    rcases Nat.lt_or_ge t s.threadCount with hborn | hunborn
    · exact Or.inr ((hidle t hborn).imp_right fun hrest => based_of_isBased hrest.2)
    · exact Or.inl (hs.wellFormed.unborn t hunborn)
  constructor
  · exact hentry
  · intro t
    refine (hstacks t).imp_right (Or.imp_right ?_)
    rintro ⟨calls, b, hstack, hb, hcalls⟩
    refine ⟨calls, b, hstack, hb, fun f hf => ofCall_of_isQuiet ?_⟩
    have hcalm := hcalls f hf
    simp only [isCalm, Bool.and_eq_true] at hcalm
    exact hcalm.1
  · exact fun q _ => hwaiting q
  · exact fun _ => Or.inl hlock
  · rintro l t (rfl | rfl) howner
    · simp [htable] at howner
    · simp [hlock] at howner

end Start

section Step

variable {n : Int} {k : LockId} {choice : Choice Input} {s s' : UserKernel}
  {frame : Frame UserFrame} {rest gs : List (Frame UserFrame)}

/-- The frame that runs belongs to one of the two calls, or is at the bottom of
its stack. -/
theorem Bracketing.frame_cases (h : Bracketing n k s) (hs : Orderly s)
    (hat : Kernel.StepAt userClient choice s s' frame rest gs) :
    ofCall n k frame = true ∨
      ∃ b, frame = .client b ∧ isHome b = true ∧ rest = [.call .threadFinish] := by
  rcases h.shape s.currentThread with hempty | hfinished | ⟨calls, b, hstack, hb, hcalls⟩
  · rw [hat.stack] at hempty
    simp at hempty
  · -- a finished thread only waits to be deleted
    refine Or.inl (ofCall_of_isQuiet ?_)
    by_contra hquiet
    refine hs.wellFormed.not_finished hat.top ?_ hfinished
    cases frame <;> simp_all [Frame.isQuiet, Frame.isParked]
  · rw [hat.stack] at hstack
    cases calls with
    | nil =>
        obtain ⟨rfl, rfl⟩ := List.cons.inj hstack
        exact Or.inr ⟨b, rfl, hb, rfl⟩
    | cons f calls =>
        obtain ⟨rfl, -⟩ := List.cons.inj hstack
        exact Or.inl (hcalls frame List.mem_cons_self)

/-- What the two calls push belongs to them. -/
theorem Bracketing.pushes_ofCall (h : Bracketing n k s)
    (hat : Kernel.StepAt userClient choice s s' frame rest gs) (hframe : ofCall n k frame = true) :
    ∀ f ∈ gs, ofCall n k f = true := by
  have hlock : s.client.lockAt n = some k := by simp [Userland.lockAt, h.entry]
  rcases stepAt_cases hat with ⟨b, rs, rfl, hexec, rfl⟩ | ⟨hkernel, -⟩
  · cases b <;> simp only [ofCall, Frame.isQuiet, Bool.false_eq_true, decide_eq_true_eq] at hframe
    case exceptionHandler call =>
      cases call <;> simp only [Bool.false_eq_true, decide_eq_true_eq] at hframe
      all_goals
        subst hframe
        obtain rfl := answer_ok hexec
        simp [Request.frame, ofCall]
    case sysReturn rv =>
      obtain rfl := answer_ok hexec
      simp
    case acquireCheck m =>
      subst hframe
      rcases userExec_asks hexec with rfl | ⟨l, hentry, rfl⟩
      · simp [Request.frame, ofCall]
      · have hsame := hentry.symm.trans h.entry
        simp only [Option.some.injEq, KernelLock.mk.injEq, and_true] at hsame
        simp [Request.frame, ofCall, hsame]
    case releaseCheck m =>
      subst hframe
      rcases userExec_asks hexec with rfl | ⟨l, hl, rfl⟩
      · simp [Request.frame, ofCall]
      · have hsame := Option.some.inj (hl.symm.trans hlock)
        simp [Request.frame, ofCall, hsame]
    case releaseTail m =>
      obtain rfl := userExec_asks hexec
      simp [Request.frame, ofCall]
  · intro f hf
    cases Frame.pushed_of_pushes hkernel hat.pushes hf with
    | quiet _ _ hquiet => exact ofCall_of_isQuiet hquiet
    | _ => simp [ofCall, Frame.isQuiet] at hframe

/-- A step at the bottom of a stack leaves a stack of the same shape. -/
theorem Bracketing.pushes_home (hat : Kernel.StepAt userClient choice s s' frame rest gs)
    (hbracketed : wellBracketed n k s choice = true) {b : UserFrame} (hframe : frame = .client b)
    (hb : isHome b = true) :
    ∃ calls, gs = calls ++ [.client .oneInstruction] ∧ ∀ f ∈ calls, ofCall n k f = true := by
  subst hframe
  rcases stepAt_cases hat with ⟨b', rs, hb', hexec, rfl⟩ | ⟨hkernel, -⟩
  · obtain rfl := Frame.client.inj hb'
    cases b <;> simp only [isHome, Bool.false_eq_true] at hb
    case oneInstruction =>
      simp only [wellBracketed, hat.top] at hbracketed
      simp only [userExec, oneInstruction] at hexec
      split at hexec
      · obtain rfl := answer_ok hexec
        exact ⟨[.oneTick], rfl, by simp [ofCall, Frame.isQuiet]⟩
      · rename_i call hcall
        rw [hcall] at hbracketed
        obtain rfl := answer_ok hexec
        refine ⟨[.setStatus .systemMode, .client (.exceptionHandler call), .setStatus .userMode,
          .oneTick], rfl, ?_⟩
        cases call <;> simp_all [ofCall, Frame.isQuiet]
      · rename_i hexception
        rw [hexception] at hbracketed
        simp at hbracketed
    case newProcess =>
      obtain rfl := answer_ok hexec
      exact ⟨[.setStatus .userMode], rfl, by simp [ofCall, Frame.isQuiet]⟩
    case kernelRun =>
      obtain rfl := answer_ok hexec
      exact ⟨[.setStatus .userMode], rfl, by simp [ofCall, Frame.isQuiet]⟩
  · exact absurd rfl (hkernel b)

theorem Bracketing.shape_step (h : Bracketing n k s) (hs : Orderly s)
    (hbracketed : wellBracketed n k s choice = true)
    (hat : Kernel.StepAt userClient choice s s' frame rest gs) :
    ∀ t, s'.stack t = [] ∨ s'.Finished t ∨ Based (ofCall n k) (s'.stack t) := by
  intro t
  have hfinished : s.Finished t → s'.Finished t := hat.finished
  by_cases ht : t = s.currentThread
  · subst ht
    rw [hat.stack_self]
    rcases h.shape s.currentThread with hempty | hdone | ⟨calls, b, hstack, hb, hcalls⟩
    · rw [hat.stack] at hempty
      simp at hempty
    · exact Or.inr (Or.inl (hfinished hdone))
    · refine Or.inr (Or.inr ?_)
      rw [hat.stack] at hstack
      cases calls with
      | nil =>
          obtain ⟨hframe, rfl⟩ := List.cons.inj hstack
          obtain ⟨calls, rfl, hcalls⟩ := Bracketing.pushes_home hat hbracketed hframe hb
          exact ⟨calls, .oneInstruction, by simp, rfl, hcalls⟩
      | cons f calls =>
          obtain ⟨rfl, rfl⟩ := List.cons.inj hstack
          refine ⟨gs ++ calls, b, by simp, hb, fun f hf => ?_⟩
          rcases List.mem_append.mp hf with hpushed | hold
          · exact h.pushes_ofCall hat (hcalls frame List.mem_cons_self) f hpushed
          · exact hcalls f (List.mem_cons_of_mem _ hold)
  · rcases hat.stack_other t ht with hsame | ⟨body, rfl, -, -⟩
    · rw [hsame]
      exact (h.shape t).imp_right (Or.imp_left hfinished)
    · rcases h.frame_cases hs hat with habs | ⟨b, habs, -⟩
      · simp [ofCall, Frame.isQuiet] at habs
      · simp at habs

/-- Nothing of the two calls deletes the lock. -/
theorem Bracketing.entry_step (h : Bracketing n k s) (hs : Orderly s)
    (hat : Kernel.StepAt userClient choice s s' frame rest gs) :
    index? s'.client.lockTable n = some ⟨some k, false⟩ := by
  rcases stepAt_cases hat with ⟨b, rs, rfl, hexec, -⟩ | ⟨-, hclient⟩
  · have hedits : b.editsTables = false ∨ b = .releaseTail n := by
      rcases h.frame_cases hs hat with hcall | ⟨b', hb', hhome, -⟩
      · cases b <;> simp_all [ofCall, Frame.isQuiet, UserFrame.editsTables]
      · obtain rfl := Frame.client.inj hb'
        cases b <;> simp_all [isHome, UserFrame.editsTables]
    rcases hedits with hsame | rfl
    · rw [(userExec_sameTables hexec hsame).lockTable]
      exact h.entry
    · cases userExec_lockTable hexec with
      | same htable hobjects =>
          rw [htable]
          exact h.entry
      | created hframe htable hobjects => simp at hframe
      | marked m l hframe hentry hwaiting htable hobjects => simp at hframe
      | killed m l isDeleted hframe hentry hwaiting htable hobjects =>
          -- the entry is not marked
          rcases hframe with habs | ⟨hframe, rfl⟩
          · simp at habs
          · obtain rfl := UserFrame.releaseTail.inj hframe
            exact absurd (hentry.symm.trans h.entry) (by simp)
  · rw [hclient]
    exact h.entry

theorem Bracketing.asking_step (h : Bracketing n k s) (hmomentary : Momentary s) (hs : Orderly s)
    (huncontended : uncontended n k s = true)
    (hat : Kernel.StepAt userClient choice s s' frame rest gs)
    (htop : s'.top = some (.call (.lockAcquire k))) :
    (s'.lock k).owner = none ∨ (s'.lock k).owner = some s'.currentThread := by
  have hobject := hs.sane.lock_object n k false h.entry
  have hstack : s'.stack s'.currentThread =
      [] ++ .call (.lockAcquire k) :: (s'.stack s'.currentThread).tail :=
    Kernel.stack_of_top htop
  cases hat.origin hstack with
  | other ht hold => exact absurd (hmomentary.asking _ _ n k _ hold hobject).1 ht
  | root ht body hframe hmem => simp [Kernel.rootFrames] at hmem
  | below ht later habove hrest =>
      have hcons : s.stack s.currentThread = (frame :: later) ++ .call (.lockAcquire k) ::
          (s'.stack s'.currentThread).tail := by
        rw [hat.stack, hrest]
        rfl
      exact absurd (hmomentary.asking _ _ n k _ hcons hobject).2.1 (by simp)
  | pushed ht later hgs hbelow =>
      have hmem : Frame.call (.lockAcquire k) ∈ gs := by
        rw [hgs]
        simp
      rcases stepAt_cases hat with ⟨b, rs, rfl, hexec, rfl⟩ | ⟨hkernel, -⟩
      · obtain ⟨rfl, -, -⟩ := asks_acquire (s := s.pop) hs.sane (userExec_asks hexec)
          (mem_requests_call.mp hmem) hobject
        have hstep := clientStep_of_stepAt hat
        rw [hstep.lock, hstep.currentThread]
        simpa [uncontended, hat.top] using huncontended
      · obtain ⟨-, c, rfl⟩ := (pushes_calls hkernel hat.pushes).2 k hmem
        rcases h.frame_cases hs hat with habs | ⟨b, habs, -⟩
        · simp [ofCall, Frame.isQuiet] at habs
        · simp at habs

theorem Bracketing.waiting_step (h : Bracketing n k s) (hs : Orderly s)
    (hat : Kernel.StepAt userClient choice s s' frame rest gs) :
    ∀ q, q ≠ .lock lockTableLock → s'.slots (.waiting q) = [] := by
  have hframe := h.frame_cases hs hat
  intro q hq
  have hempty := h.waiting q hq
  cases q with
  | semaphore i =>
      have hidle := (Kernel.exec_idle hat.exec ?_ ?_).1
      · exact hidle (fun j => h.waiting (.semaphore j) (by simp)) i
      · rintro j rfl
        simp [ofCall, Frame.isQuiet] at hframe
      · rintro rfl
        simp [ofCall, Frame.isQuiet] at hframe
  | lock l =>
      have hl : l ≠ lockTableLock := fun heq => hq (heq ▸ rfl)
      change (s.lock l).waitingThreads = [] at hempty
      change (s'.lock l).waitingThreads = []
      cases hat.lock l with
      | same hlock events hadds hquiet => rw [hlock, hempty]
      | taken hcall howner havailable hlock hadds => rw [hlock, hempty]
      | queued hcall howner havailable hlock hadds =>
          -- the lock would be `k`, which is free or the thread's own
          subst hcall
          have hk : l = k := by
            simp only [ofCall, decide_eq_true_eq, reduceCtorEq, false_and, exists_false,
              or_false] at hframe
            exact hframe.resolve_left hl
          subst hk
          rcases h.asking hat.top with hfree | hself
          · rw [← (hs.lockInvariant l).available_iff, havailable] at hfree
            exact absurd hfree (by simp)
          · exact absurd hself howner
      | granted t later hcall howner hwaiting hlock hadds =>
          rw [hempty] at hwaiting
          exact absurd hwaiting (by simp)
      | freed hcall howner hwaiting hlock hadds => rw [hlock]
  | condition c =>
      change (s.condition c).waitingCV = [] at hempty
      change (s'.condition c).waitingCV = []
      cases hat.condition c with
      | same hcondition events hadds hquiet => rw [hcondition, hempty]
      | bound l hcall hfree hcondition hadds => rw [hcondition, hempty]
      | queued l hcall hcondition hadds =>
          subst hcall
          simp [ofCall, Frame.isQuiet] at hframe
      | woken t later hcall hwaiting hcondition hadds =>
          rw [hempty] at hwaiting
          exact absurd hwaiting (by simp)

theorem Bracketing.live_step (h : Bracketing n k s) (hs : Orderly s)
    (hcount : s.threadCount ≤ s'.threadCount)
    (hat : Kernel.StepAt userClient choice s s' frame rest gs) :
    ∀ l t, l = lockTableLock ∨ l = k → (s'.lock l).owner = some t →
      t < s'.threadCount ∧ ¬ s'.Finished t := by
  intro l t hl howner
  have hframe := h.frame_cases hs hat
  have hidle := (Kernel.exec_idle hat.exec (by rintro j rfl; simp [ofCall, Frame.isQuiet] at hframe)
    (by rintro rfl; simp [ofCall, Frame.isQuiet] at hframe)).2
  have hlive : t < s.threadCount ∧ ¬ s.Finished t := by
    rcases hat.claimed (Or.inl howner) with (hold | hwaiting) | ⟨rfl, rfl⟩
    · exact h.live l t hl hold
    · refine ⟨hs.wellFormed.born_of_mem (.waiting (.lock l)) hwaiting, fun hfinished => ?_⟩
      exact hs.wellFormed.sound.finished_notMem hfinished (.waiting (.lock l)) hwaiting
    · exact ⟨hs.wellFormed.current_lt, hs.wellFormed.not_finished hat.top rfl⟩
  exact ⟨Nat.lt_of_lt_of_le hlive.1 hcount, fun hfinished => hlive.2 (hidle t hfinished)⟩

/-- The steps of threads that bracket their work and do not meet at the lock. -/
def Bracketed (n : Int) (k : LockId) (s : UserKernel) (choice : Choice Input) : Prop :=
  wellBracketed n k s choice = true ∧ uncontended n k s = true

theorem Bracketing.step (h : Bracketing n k s) (hmomentary : Momentary s) (hs : Orderly s)
    (hguard : Bracketed n k s choice)
    (hat : Kernel.StepAt userClient choice s s' frame rest gs) : Bracketing n k s' where
  entry := h.entry_step hs hat
  shape := h.shape_step hs hguard.1 hat
  waiting := h.waiting_step hs hat
  asking := h.asking_step hmomentary hs hguard.2 hat
  live := by
    have hstep : s.step userClient choice = .ok s' := by
      simp [Kernel.step, hat.top, hat.exec]
    exact h.live_step hs (Kernel.step_threadCount hs.wellFormed hstep) hat

end Step

section NoDeadlock

variable {n : Int} {k : LockId} {s s₀ : UserKernel}

/-- The owner of one of the two locks can run, or waits for `LockTableLock`. -/
theorem Bracketing.runnable (h : Bracketing n k s) (hs : Orderly s) {l : LockId} {t : ThreadId}
    (hl : l = lockTableLock ∨ l = k) (howner : (s.lock l).owner = some t) :
    Runnable s t ∨ t ∈ (s.lock lockTableLock).waitingThreads := by
  obtain ⟨hborn, hlive⟩ := h.live l t hl howner
  obtain ⟨place, hplaced⟩ := hs.wellFormed.sound
  cases hplace : place t with
  | none =>
      rcases hplaced.nowhere t hborn hplace with hfinished | ⟨hcurrent, -⟩
      · exact absurd hfinished hlive
      · exact Or.inl (Or.inl hcurrent)
  | some slot =>
      have hmem : t ∈ s.slots slot := (hplaced.partition.mem_iff slot t).mpr hplace
      cases slot with
      | ready => exact Or.inl (Or.inr hmem)
      | waiting q =>
          by_cases hq : q = .lock lockTableLock
          · subst hq
            exact Or.inr hmem
          · rw [h.waiting q hq] at hmem
            exact absurd hmem (by simp)

theorem Bracketing.tableOwner_runnable (h : Bracketing n k s) (hs : Orderly s) {t : ThreadId}
    (howner : (s.lock lockTableLock).owner = some t) : Runnable s t := by
  rcases h.runnable hs (Or.inl rfl) howner with hrunnable | hwaiting
  · exact hrunnable
  · exact absurd hwaiting ((hs.lockInvariant lockTableLock).owner_notMem t howner)

/-- Nobody is stuck: whoever is blocked waits for `LockTableLock`, and its owner can
run. -/
structure NoDeadlock (n : Int) (k : LockId) (s : UserKernel) : Prop where
  /-- The owner of `LockTableLock` is not blocked at the lock. -/
  tableOwner : ∀ t, (s.lock lockTableLock).owner = some t → t ∉ (s.lock k).waitingThreads
  /-- Whoever is blocked waits for a thread that can run. -/
  waiters : ∀ q t, t ∈ s.slots (.waiting q) →
    ∃ l u, q = .lock l ∧ (s.lock l).owner = some u ∧ Runnable s u
  /-- The owner of the lock can run, or waits for `LockTableLock`. -/
  owner : ∀ t, (s.lock k).owner = some t →
    Runnable s t ∨ t ∈ (s.lock lockTableLock).waitingThreads
  /-- With `LockTableLock` it completes its `Release_Syscall`. -/
  release : ∀ base, s.stack s.currentThread = .client (.releaseCheck n) :: base →
    (s.lock k).owner = some s.currentThread →
    ∃ s', Kernel.Run userClient (Bracketed n k) s s' ∧ s'.currentThread = s.currentThread ∧
      s'.stack s.currentThread = base ∧ (s'.lock k).owner ≠ some s.currentThread

theorem bracketed_of_stack {choice : Choice Input} {f : Frame UserFrame}
    {base : List (Frame UserFrame)} (hstack : s.stack s.currentThread = f :: base)
    (hturn : f ≠ .client .oneInstruction) (hcheck : ∀ m, f ≠ .client (.acquireCheck m)) :
    Bracketed n k s choice := by
  have htop : s.top = some f := by simp [Kernel.top, hstack]
  constructor
  · unfold wellBracketed
    split
    · rename_i heq
      exact absurd (Option.some.inj (htop.symm.trans heq)) hturn
    · rfl
  · unfold uncontended
    split
    · rename_i m heq
      exact absurd (Option.some.inj (htop.symm.trans heq)) (hcheck m)
    · rfl

/-- The end of `Release_Syscall` for a lock that is not marked. -/
theorem exists_run_releaseTail (hs : Grounded s)
    (hentry : index? s.client.lockTable n = some ⟨some k, false⟩)
    {base : List (Frame UserFrame)}
    (hstack : s.stack s.currentThread = .client (.releaseTail n) :: base) :
    ∃ s', Kernel.Run userClient (Bracketed n k) s s' ∧ s'.currentThread = s.currentThread ∧
      s'.stack s.currentThread = base ∧ s'.lock = s.lock := by
  have choice : Choice Input := doing .instruction
  have hentry' : index? s.pop.client.lockTable n = some ⟨some k, false⟩ := hentry
  have htail : userExec choice.input (.releaseTail n) s.pop =
      .ok (s.pop.client, [.client (.sysReturn 0)]) := by
    simp [userExec, releaseTail, hentry']
  obtain ⟨s₁, h₁, -, hat₁⟩ := exists_step_client hs.wellFormed hstack htail
  have hs₁ := hs.step h₁
  have hstep₁ := clientStep_of_stepAt hat₁
  have hstack₁ : s₁.stack s₁.currentThread = .client (.sysReturn 0) :: base := by
    rw [hstep₁.currentThread]
    exact hat₁.stack_self
  have hreturn : userExec choice.input (.sysReturn 0) s₁.pop = .ok (_, []) := rfl
  obtain ⟨s₂, h₂, -, hat₂⟩ := exists_step_client hs₁.wellFormed hstack₁ hreturn
  have hstep₂ := clientStep_of_stepAt hat₂
  refine ⟨s₂, ?_, hstep₂.currentThread.trans hstep₁.currentThread, ?_, ?_⟩
  · refine Reach.head (bracketed_of_stack hstack (by simp) (by simp)) h₁ ?_
    exact Reach.head (bracketed_of_stack hstack₁ (by simp) (by simp)) h₂ .refl
  · rw [← hstep₁.currentThread]
    exact hat₂.stack_self
  · rw [hstep₂.lock, hstep₁.lock]

/-- A thread that has both locks gives them back without giving up the
processor. -/
theorem Bracketing.release (h : Bracketing n k s) (hs : Orderly s) (hk : k ≠ lockTableLock)
    {base : List (Frame UserFrame)}
    (hstack : s.stack s.currentThread = .client (.releaseCheck n) :: base)
    (howner : (s.lock k).owner = some s.currentThread) :
    ∃ s', Kernel.Run userClient (Bracketed n k) s s' ∧ s'.currentThread = s.currentThread ∧
      s'.stack s.currentThread = base ∧ (s'.lock k).owner ≠ some s.currentThread := by
  have choice : Choice Input := doing .instruction
  have htable : (s.lock lockTableLock).owner = some s.currentThread :=
    (hs.holding _ [] _ base lockTableLock hstack rfl).owns
  -- the check pushes the two releases
  have hcheck : userExec choice.input (.releaseCheck n) s.pop = .ok (s.pop.client,
      [.call (.lockRelease k), .call (.lockRelease lockTableLock),
        .client (.releaseTail n)]) := by
    have hlock : s.pop.client.lockAt n = some k := by
      change s.client.lockAt n = some k
      simp [Userland.lockAt, h.entry]
    simp [userExec, releaseCheck, hlock]
  obtain ⟨s₁, h₁, hclient₁, hat₁⟩ := exists_step_client hs.wellFormed hstack hcheck
  have hs₁ := hs.toGrounded.step h₁
  have hstep₁ := clientStep_of_stepAt hat₁
  have hstack₁ : s₁.stack s₁.currentThread = .call (.lockRelease k) ::
      .call (.lockRelease lockTableLock) :: .client (.releaseTail n) :: base := by
    rw [hstep₁.currentThread]
    exact hat₁.stack_self
  -- the lock is given up
  obtain ⟨s₂, gs₂, h₂, hat₂⟩ := exists_step_call hs₁.wellFormed choice hstack₁
  have hs₂ := hs₁.step h₂
  obtain ⟨rfl, -, hcurrent₂⟩ := hat₂.release_held
    (by rw [hstep₁.lock, hstep₁.currentThread, howner])
  obtain ⟨hlost, hunlisted⟩ := hat₂.released hs₁.wellFormed
  have hstack₂ : s₂.stack s₂.currentThread =
      .call (.lockRelease lockTableLock) :: .client (.releaseTail n) :: base := by
    rw [hcurrent₂]
    exact hat₂.stack_self
  have htable₂ : (s₂.lock lockTableLock).owner = some s₂.currentThread := by
    by_contra hnot
    rw [hcurrent₂] at hnot
    have habs := (hs₁.lockInvariant lockTableLock).owner_lost hat₂
      (by rw [hstep₁.lock, htable, hstep₁.currentThread]) hnot
    simp only [Frame.call.injEq, Op.lockRelease.injEq] at habs
    exact hk habs.2
  -- and so is `LockTableLock`
  obtain ⟨s₃, gs₃, h₃, hat₃⟩ := exists_step_call hs₂.wellFormed choice hstack₂
  obtain ⟨rfl, -, hcurrent₃⟩ := hat₃.release_held htable₂
  have hstack₃ : s₃.stack s₃.currentThread = .client (.releaseTail n) :: base := by
    rw [hcurrent₃]
    exact hat₃.stack_self
  have hlock₃ : (s₃.lock k).owner ≠ some s₁.currentThread := by
    intro habs
    rcases hat₃.claimed (Or.inl habs) with (hold | hold) | ⟨-, habs⟩
    · exact hlost hold
    · exact hunlisted hold
    · simp at habs
  have hentry₃ : index? s₃.client.lockTable n = some ⟨some k, false⟩ := by
    rw [client_same hat₃ (by simp), client_same hat₂ (by simp), hclient₁]
    exact h.entry
  obtain ⟨s', hrun, hcurrent, hbase, hlock⟩ :=
    exists_run_releaseTail (hs₂.step h₃) hentry₃ hstack₃
  have hsame : s₃.currentThread = s.currentThread := by
    rw [hcurrent₃, hcurrent₂, hstep₁.currentThread]
  refine ⟨s', ?_, hcurrent.trans hsame, hsame ▸ hbase, ?_⟩
  · refine Reach.head (bracketed_of_stack hstack (by simp) (by simp)) h₁ ?_
    refine Reach.head (bracketed_of_stack hstack₁ (by simp) (by simp)) h₂ ?_
    exact Reach.head (bracketed_of_stack hstack₂ (by simp) (by simp)) h₃ hrun
  · rw [hlock, ← hstep₁.currentThread]
    exact hlock₃

theorem Bracketing.noDeadlock (h : Bracketing n k s) (hs : Orderly s) (hk : k ≠ lockTableLock) :
    NoDeadlock n k s where
  tableOwner := by
    intro t _ hmem
    have hempty := h.waiting (.lock k) (by simpa using hk)
    rw [Kernel.slots] at hempty
    simp [hempty] at hmem
  waiters := by
    intro q t hmem
    by_cases hq : q = .lock lockTableLock
    · subst hq
      -- the lock has an owner, since somebody waits for it
      have hwaiting : t ∈ (s.lock lockTableLock).waitingThreads := hmem
      obtain ⟨u, hu⟩ : ∃ u, (s.lock lockTableLock).owner = some u := by
        rw [← Option.ne_none_iff_exists']
        intro hnone
        have hfree := (hs.lockInvariant lockTableLock).available_iff.mpr hnone
        rw [(hs.lockInvariant lockTableLock).available_waiting hfree] at hwaiting
        simp at hwaiting
      exact ⟨lockTableLock, u, rfl, hu, h.tableOwner_runnable hs hu⟩
    · rw [h.waiting q hq] at hmem
      simp at hmem
  owner := fun t howner => h.runnable hs (Or.inr rfl) howner
  release := fun base hstack howner => h.release hs hk hstack howner

/-- From a state in which no thread is in a system call, whatever the schedule:
as long as threads only bracket their work with `Acquire(n)` and `Release(n)` and no
`Acquire_Syscall` finds the lock with another thread, nobody is stuck. -/
theorem bracketed_noDeadlock (hreach : UserReachable s₀) (hstart : Quiescent n k s₀)
    (hrun : Kernel.Run userClient (Bracketed n k) s₀ s) : NoDeadlock n k s := by
  have hs₀ := hreach.orderly
  obtain ⟨hs, h, -⟩ := hs₀.invariant (P := fun u => Bracketing n k u ∧ Momentary u) hrun
    (fun u v choice frame rest gs hu _ hguard hat ⟨h, hmomentary⟩ =>
      ⟨h.step hmomentary hu hguard hat, hmomentary.step hu hat⟩)
    ⟨hstart.bracketing hs₀, hreach.momentary⟩
  refine h.noDeadlock hs ?_
  rintro rfl
  exact (hs.sane.not_isGlobal (hs.sane.lock_object n _ false h.entry)).2 (Or.inl rfl)

end NoDeadlock

/-- A run from a reachable state, found by replaying choices in two stages. -/
theorem exists_bracketedRun {P : UserKernel → UserKernel → Prop}
    [∀ s₀ s, Decidable (P s₀ s)] (guard : UserKernel → Choice Input → Bool)
    (pid : ThreadId → Int) (first second : List (Choice Input))
    (h : (replay (Kernel.step userClient) (fun _ _ => true) first (userBoot pid)).any
      (fun s₀ => (replay (Kernel.step userClient) guard second s₀).any
        (fun s => decide (P s₀ s))) = true) :
    ∃ s₀ s, UserReachable s₀ ∧
      Kernel.Run userClient (fun u choice => guard u choice = true) s₀ s ∧ P s₀ s := by
  obtain ⟨s₀, hfirst, hrest⟩ := (Option.any_eq_true _ _).mp h
  obtain ⟨s, hsecond, hP⟩ := exists_reach_of_replay (fun _ _ hguard => hguard) hrest
  exact ⟨s₀, s, ⟨pid, reach_of_replay (fun _ _ _ => trivial) first hfirst⟩, hsecond, hP⟩

/-- The main thread makes a lock and forks a thread. -/
def lockAndFork : List (Choice Input) :=
  startup ++ calling .createLock 10 ++ calling .fork 14

/-- A thread that is preempted with `LockTableLock` can run while another one waits
for it. -/
theorem bracketed_noDeadlock_preempted :
    ∃ s₀ s k, UserReachable s₀ ∧ Quiescent 0 k s₀ ∧
      Kernel.Run userClient (Bracketed 0 k) s₀ s ∧
      1 ∈ (s.lock lockTableLock).waitingThreads ∧
      ∃ l u, WaitQueue.lock lockTableLock = .lock l ∧ (s.lock l).owner = some u ∧
        Runnable s u := by
  obtain ⟨s₀, s, hreach, hrun, hstart, hwaiting⟩ :=
    exists_bracketedRun
      (P := fun s₀ s => Quiescent 0 (processTableLock + 2) s₀ ∧
        1 ∈ (s.lock lockTableLock).waitingThreads)
      (fun u choice => wellBracketed 0 (processTableLock + 2) u choice &&
        uncontended 0 (processTableLock + 2) u)
      (fun _ => 0) lockAndFork
      (calling (.acquire 0) 5 ++ [timerTick] ++ calling (.acquire 0) 9) (by decide +kernel)
  have hguarded : Kernel.Run userClient (Bracketed 0 (processTableLock + 2)) s₀ s :=
    hrun.mono fun u choice hguard => Bool.and_eq_true_iff.mp hguard
  refine ⟨s₀, s, _, hreach, hstart, hguarded, hwaiting, ?_⟩
  exact (bracketed_noDeadlock hreach hstart hguarded).waiters (.lock lockTableLock) 1 hwaiting

/-- A thread calls `Acquire(0)` while the main thread owns lock 0, and the main thread
calls `Release(0)`: the two wait for each other, and no thread is left to run. -/
theorem bracketed_deadlock :
    ∃ s₀ s k, UserReachable s₀ ∧ Quiescent 0 k s₀ ∧
      Kernel.Run userClient (fun u choice => wellBracketed 0 k u choice = true) s₀ s ∧
      (s.lock lockTableLock).owner = some 1 ∧ 1 ∈ (s.lock k).waitingThreads ∧
      (s.lock k).owner = some 0 ∧ 0 ∈ (s.lock lockTableLock).waitingThreads ∧
      s.readyList = [] := by
  obtain ⟨s₀, s, hreach, hrun, hstart, hdeadlock⟩ :=
    exists_bracketedRun
      (P := fun s₀ s => Quiescent 0 (processTableLock + 2) s₀ ∧
        (s.lock lockTableLock).owner = some 1 ∧
        1 ∈ (s.lock (processTableLock + 2)).waitingThreads ∧
        (s.lock (processTableLock + 2)).owner = some 0 ∧
        0 ∈ (s.lock lockTableLock).waitingThreads ∧ s.readyList = [])
      (wellBracketed 0 (processTableLock + 2)) (fun _ => 0) lockAndFork
      (calling (.acquire 0) 14 ++ [doing .instruction, timerTick] ++ calling (.acquire 0) 19 ++
        calling (.release 0) 5) (by decide +kernel)
  exact ⟨s₀, s, _, hreach, hstart, hrun, hdeadlock⟩

end Userprog
end Nachos
