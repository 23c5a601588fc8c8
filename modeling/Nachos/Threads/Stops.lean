import Nachos.Threads.InterruptLevel
import Nachos.Threads.ThreadDestruction
import Nachos.Threads.ThreadLife

/-!
# Why the machine stops

The kernel stops in three places by itself: at the two assertions of `Thread::Sleep`, which
want interrupts off, at the assertion of `Scheduler::Run` that a thread does not delete
itself, and in `Interrupt::Idle` when nothing is left to wait for.  In every run of every
client no assertion fails and no thread runs off its stack; and when the machine halts by
itself, every thread has finished or waits in a queue.

`Guarded` follows the interrupt level down a stack, as far as some frame below depends on it:
a thread that has the processor goes on at the level of the machine, the others with
interrupts off.
-/

namespace Nachos
namespace Threads

open Lib

variable {κ σ ι : Type}

section Frames

/-- The code at the frame, or what it calls next, asserts that interrupts are off. -/
def Frame.needsOff : Frame κ → Bool
  | .sleep => true
  | .sleepLoop => true
  | .whileValueZero _ => true
  | .waitAppend _ _ => true
  | _ => false

/-- No frame depends on the interrupt level. -/
def Calm (frames : List (Frame κ)) : Prop := ∀ frame ∈ frames, frame.needsOff = false

/-- From `level`, every frame that needs it finds interrupts off. -/
def Guarded : List (Frame κ) → IntStatus → Prop
  | [], _ => True
  | frame :: rest, level =>
      (frame.needsOff = true → level = .intOff) ∧
        (frame.Harmless level ∧ Guarded rest (frame.leaves level) ∨ Calm rest)

variable {level : IntStatus} {frame : Frame κ} {rest gs : List (Frame κ)}

theorem Calm.guarded {frames : List (Frame κ)} (h : Calm frames) (level : IntStatus) :
    Guarded frames level := by
  cases frames with
  | nil => trivial
  | cons frame rest =>
      refine ⟨fun hneeds => ?_, Or.inr fun g hg => h g (List.mem_cons_of_mem _ hg)⟩
      rw [h frame List.mem_cons_self] at hneeds
      exact absurd hneeds (by simp)

theorem calm_requests (requests : List (Request κ)) : Calm (requests.map Request.frame) := by
  intro frame hframe
  obtain ⟨request, -, rfl⟩ := List.mem_map.mp hframe
  cases request <;> rfl

theorem Calm.append (h : Calm gs) (h' : Calm rest) : Calm (gs ++ rest) := by
  intro frame hframe
  rcases List.mem_append.mp hframe with hnew | hold
  · exact h frame hnew
  · exact h' frame hold

/-- A frame that puts the level back, in front of frames that are guarded from there. -/
theorem Guarded.cons (hneeds : frame.needsOff = true → level = .intOff)
    (hharmless : frame.Harmless level) (h : Guarded rest (frame.leaves level)) :
    Guarded (frame :: rest) level :=
  ⟨hneeds, Or.inl ⟨hharmless, h⟩⟩

/-- Below a frame that puts the level back the stack is guarded from where it leads. -/
theorem Guarded.below (h : Guarded (frame :: rest) level) : Guarded rest (frame.leaves level) := by
  rcases h.2 with ⟨-, hrest⟩ | hcalm
  · exact hrest
  · exact hcalm.guarded _

/-- What the code at a frame pushes finds the level it needs. -/
theorem Guarded.pushes (h : Guarded (frame :: rest) level) (hpushes : frame.Pushes level gs) :
    Guarded (gs ++ rest) (frame.levelAfter level) := by
  have hrest := h.below
  have hpassed : ∀ restored, restored = level → frame.leaves level = level →
      Guarded (.setLevel restored :: rest) .intOff := by
    rintro restored rfl hleaves
    rw [hleaves] at hrest
    exact .cons (by simp [Frame.needsOff]) trivial hrest
  cases frame with
  | call op =>
      cases op with
      | semaphoreP i =>
          subst hpushes
          exact .cons (fun _ => rfl) trivial (hpassed level rfl rfl)
      | semaphoreV i =>
          subst hpushes
          exact hpassed level rfl rfl
      | lockAcquire l =>
          rcases hpushes with rfl | rfl
          · exact hpassed level rfl rfl
          · exact .cons (fun _ => rfl) trivial (hpassed level rfl rfl)
      | lockRelease l =>
          rcases hpushes with rfl | rfl
          · -- the lock has been given up, and interrupts stay off
            rcases h.2 with ⟨hharmless, hguarded⟩ | hcalm
            · have hlevel : level = .intOff := hharmless
              subst hlevel
              exact hguarded
            · exact hcalm.guarded _
          · exact hpassed level rfl rfl
      | conditionWait c conditionLock =>
          rcases hpushes with rfl | ⟨l, -, rfl⟩
          · exact hpassed level rfl rfl
          · exact .cons (by simp [Frame.needsOff]) rfl
              (.cons (fun _ => rfl) trivial (hpassed level rfl rfl))
      | conditionSignal c conditionLock =>
          subst hpushes
          exact hpassed level rfl rfl
      | conditionBroadcast c conditionLock =>
          subst hpushes
          exact .cons (by simp [Frame.needsOff]) trivial hrest
      | threadFork body =>
          subst hpushes
          exact hpassed level rfl rfl
      | threadYield =>
          rcases hpushes with rfl | rfl
          · exact hpassed level rfl rfl
          · exact .cons (by simp [Frame.needsOff]) trivial (hpassed level rfl rfl)
      | threadFinish =>
          subst hpushes
          rcases h.2 with ⟨hharmless, -⟩ | hcalm
          · exact absurd hharmless id
          · exact ⟨fun _ => rfl, Or.inr hcalm⟩
  | setLevel now =>
      rcases hpushes with rfl | ⟨rfl, rfl⟩
      · exact hrest
      · exact .cons (by simp [Frame.needsOff]) trivial hrest
  | oneTick =>
      rcases hpushes with rfl | ⟨m, rfl⟩
      · exact hrest
      · exact .cons (by simp [Frame.needsOff]) trivial
          (.cons (by simp [Frame.needsOff]) trivial hrest)
  | setStatus m =>
      subst hpushes
      exact hrest
  | sleep =>
      subst hpushes
      exact .cons (fun _ => h.1 rfl) trivial hrest
  | sleepLoop =>
      rcases hpushes with rfl | rfl
      · exact .cons (by simp [Frame.needsOff]) trivial hrest
      · exact .cons (fun _ => h.1 rfl) trivial hrest
  | afterSwitch =>
      subst hpushes
      exact hrest
  | whileValueZero i =>
      rcases hpushes with rfl | rfl
      · exact hrest
      · exact .cons (fun _ => h.1 rfl) trivial (.cons (fun _ => h.1 rfl) trivial hrest)
  | waitAppend c l =>
      subst hpushes
      exact .cons (fun _ => h.1 rfl) trivial (.cons (by simp [Frame.needsOff]) trivial hrest)
  | waitReacquire c l =>
      subst hpushes
      exact .cons (by simp [Frame.needsOff]) trivial hrest
  | broadcastLoop c conditionLock =>
      rcases hpushes with rfl | rfl
      · exact hrest
      · exact .cons (by simp [Frame.needsOff]) trivial
          (.cons (by simp [Frame.needsOff]) trivial hrest)
  | halt => exact absurd hpushes id
  | client k =>
      obtain ⟨requests, rfl⟩ := hpushes
      rcases h.2 with ⟨hharmless, -⟩ | hcalm
      · exact absurd hharmless id
      · exact ((calm_requests requests).append hcalm).guarded _

end Frames

namespace Kernel

/-- Every thread goes on at a level that its stack can stand. -/
def StacksGuarded (s : Kernel κ σ) : Prop :=
  ∀ t, Guarded (s.stack t) (if s.currentThread = t then s.level else .intOff)

/-- A thread that is to be deleted has finished. -/
def StoredFinished (s : Kernel κ σ) : Prop :=
  ∀ t, s.threadToBeDestroyed = some t → s.Finished t

/-- The last thing a thread does is to finish, and the current one has something to do. -/
structure EndsInFinish (s : Kernel κ σ) : Prop where
  last : ∀ t, t < s.threadCount → ¬ s.Finished t →
    (s.stack t).getLast? = some (.call .threadFinish)
  current : s.stack s.currentThread ≠ []

section Steps

variable {client : Client κ σ ι} {choice : Choice ι} {s s' : Kernel κ σ} {frame : Frame κ}
  {rest gs : List (Frame κ)}

theorem StacksGuarded.step (h : s.StacksGuarded) (hoff : s.SleepsOff)
    (hat : StepAt client choice s s' frame rest gs) : s'.StacksGuarded := by
  intro t
  by_cases ht : t = s.currentThread
  · subst ht
    have hold := h s.currentThread
    rw [if_pos rfl, hat.stack] at hold
    have hnext : Guarded (s'.stack s.currentThread) s'.level := by
      rw [hat.stack_self, hat.level]
      exact hold.pushes hat.pushes
    by_cases hsame : s'.currentThread = s.currentThread
    · rw [if_pos hsame]
      exact hnext
    · rw [if_neg hsame, ← hat.switched_off hoff hsame]
      exact hnext
  · have hnow : (if s'.currentThread = t then s'.level else .intOff) = .intOff := by
      by_cases hcur : s'.currentThread = t
      · rw [if_pos hcur]
        exact hat.switched_off hoff (hcur ▸ ht)
      · rw [if_neg hcur]
    rw [hnow]
    rcases hat.stack_other t ht with hsame | ⟨body, -, -, hroot⟩
    · have hold := h t
      rw [if_neg (Ne.symm ht)] at hold
      rw [hsame]
      exact hold
    · rw [hroot]
      have hcalm : Calm (rootFrames body) := by simp [Calm, rootFrames, Frame.needsOff]
      exact hcalm.guarded _

theorem StoredFinished.step (h : s.StoredFinished)
    (hat : StepAt client choice s s' frame rest gs) : s'.StoredFinished := by
  intro t ht
  cases hat.endEffect with
  | finishes hframe hstored hadds =>
      obtain rfl := Option.some.inj (hstored.symm.trans ht)
      unfold Finished
      rw [hadds]
      simp
  | deletes t' hframe hstored hnone hadds =>
      rw [hnone] at ht
      exact absurd ht (by simp)
  | same hframe hstored events hadds hend =>
      exact hat.finished (h t (hstored ▸ ht))

/-- A thread that has finished is at a frame of `Sleep`, which is never the last thing. -/
theorem StepAt.pushes_of_finished (hat : StepAt client choice s s' frame rest gs)
    (hwf : s.WellFormed) (hfinished : s.Finished s.currentThread) : gs ≠ [] := by
  have hparked : frame.isParked = true := by
    rw [← Bool.not_eq_false]
    intro hactive
    exact hwf.not_finished hat.top hactive hfinished
  have hpushes := hat.pushes
  cases frame with
  | sleep =>
      rw [show gs = [.sleepLoop] from hpushes]
      simp
  | sleepLoop => rcases hpushes with rfl | rfl <;> simp
  | _ => simp [Frame.isParked] at hparked

theorem EndsInFinish.step (h : s.EndsInFinish) (hwf : s.WellFormed) (hwf' : s'.WellFormed)
    (hat : StepAt client choice s s' frame rest gs) : s'.EndsInFinish := by
  have hlast : ∀ t, t < s'.threadCount → ¬ s'.Finished t →
      (s'.stack t).getLast? = some (.call .threadFinish) := by
    intro t hborn hlive
    have hlive' : ¬ s.Finished t := fun hold => hlive (hat.finished hold)
    rcases hat.born_cases hwf hborn with hborn' | ⟨-, -, body, -, hroot⟩
    · have hold := h.last t hborn' hlive'
      by_cases ht : t = s.currentThread
      · subst ht
        rw [hat.stack] at hold
        rw [hat.stack_self]
        cases rest with
        | nil =>
            -- the frame was the last one, so that the thread finishes now
            have hframe : frame = .call .threadFinish := by simpa using hold
            rcases hat.life with ⟨body, hfork, -⟩ | ⟨-, -, hfinishes⟩ | ⟨-, hother, -⟩
            · rw [hframe] at hfork
              exact absurd hfork (by simp)
            · exact absurd ((hfinishes _).mpr (Or.inr rfl)) hlive
            · exact absurd hframe hother
        | cons next later =>
            rw [List.getLast?_cons_cons] at hold
            rw [List.getLast?_append, hold]
            rfl
      · rcases hat.stack_other t ht with hsame | ⟨body, -, -, hroot⟩
        · rw [hsame]
          exact hold
        · rw [hroot]
          rfl
    · rw [hroot]
      rfl
  refine ⟨hlast, ?_⟩
  rcases hat.currentThread with hsame | ⟨ready, later, hready, -, hframe⟩
  · rw [hsame, hat.stack_self]
    intro hempty
    obtain ⟨hgs, hrest⟩ := List.append_eq_nil_iff.mp hempty
    by_cases hfinished : s.Finished s.currentThread
    · exact hat.pushes_of_finished hwf hfinished hgs
    · have hold := h.last _ hwf.current_lt hfinished
      rw [hat.stack, hrest] at hold
      have hframe : frame = .call .threadFinish := by simpa using hold
      have hpushes := hat.pushes
      rw [hframe, hgs] at hpushes
      exact absurd (show [] = [Frame.sleep] from hpushes) (by simp)
  · -- a thread that is switched to has not finished
    have hmem : s'.currentThread ∈ s.readyList := by
      rw [hready]
      exact List.mem_cons_self
    have hlive : ¬ s'.Finished s'.currentThread := by
      intro hfinished
      refine hwf.sound.finished_notMem ?_ .ready hmem
      rcases hat.life with ⟨-, -, -, hiff⟩ | ⟨rfl, -, -⟩ | ⟨-, -, -, hiff⟩
      · exact (hiff _).mp hfinished
      · rcases hframe with ⟨habs, -⟩ | ⟨habs, -⟩
        · exact absurd habs (by simp)
        · exact absurd habs (by simp)
      · exact (hiff _).mp hfinished
    intro hempty
    have hend := hlast _ hwf'.current_lt hlive
    rw [hempty] at hend
    exact absurd hend (by simp)

theorem endsInFinish_boot (initialValue : SemaphoreId → Int) (state : σ) (main : κ) :
    (boot initialValue state main).EndsInFinish := by
  constructor
  · intro t ht _
    obtain rfl : t = 0 := Nat.lt_one_iff.mp ht
    simp [boot]
  · simp [boot]

end Steps

section Stops

variable {client : Client κ σ ι} {choice : Choice ι} {s : Kernel κ σ} {stop : Stop}

theorem Reachable.stacksGuarded (hreach : Reachable client s) : s.StacksGuarded := by
  suffices h : s.SleepsOff ∧ s.StacksGuarded from h.2
  refine hreach.stepAt_invariant (P := fun u => u.SleepsOff ∧ u.StacksGuarded) ?_ ?_
  · intro initialValue state main
    refine ⟨by simp [SleepsOff, boot, top], fun t => ?_⟩
    have hcalm : Calm ((boot initialValue state main).stack t) := by
      intro frame hframe
      by_cases ht : t = 0
      · subst ht
        simp only [boot, Function.update_self, List.mem_cons, List.not_mem_nil, or_false] at hframe
        rcases hframe with rfl | rfl | rfl <;> rfl
      · simp [boot, ht] at hframe
    exact hcalm.guarded _
  · rintro u v choice frame rest gs hwf - hat ⟨hoff, hguarded⟩
    exact ⟨hoff.step hwf hat, hguarded.step hoff hat⟩

theorem Reachable.storedFinished (hreach : Reachable client s) : s.StoredFinished :=
  hreach.stepAt_invariant (fun _ _ _ t ht => absurd ht (by simp [boot]))
    fun _ _ _ _ _ _ _ _ hat h => h.step hat

theorem Reachable.endsInFinish (hreach : Reachable client s) : s.EndsInFinish :=
  hreach.stepAt_invariant endsInFinish_boot fun _ _ _ _ _ _ hwf hwf' hat h => h.step hwf hwf' hat

/-- At its top frame the current thread finds the interrupt level it needs. -/
theorem Reachable.level_of_needsOff (hreach : Reachable client s) {frame : Frame κ}
    (htop : s.top = some frame) (hneeds : frame.needsOff = true) : s.level = .intOff := by
  have hguarded := hreach.stacksGuarded s.currentThread
  rw [if_pos rfl, stack_of_top htop] at hguarded
  exact hguarded.1 hneeds

/-- When nothing is ready, every thread has finished or waits. -/
theorem WellFormed.waiting_of_idle (hwf : s.WellFormed) (htop : s.top = some .sleepLoop)
    (hready : s.readyList = []) {t : ThreadId} (hborn : t < s.threadCount) :
    s.Finished t ∨ ∃ q, s.threadStatus t = .blocked ∧ (s.slots (.waiting q)).count t = 1 := by
  have hphase : s.view.phase = .idle := by
    show phaseOf s.top = .idle
    rw [htop]
    rfl
  obtain ⟨place, hplaced⟩ := hwf.sound
  by_cases hfinished : s.Finished t
  · exact Or.inl hfinished
  · cases hplace : place t with
    | none =>
        rcases hplaced.nowhere t hborn hplace with hold | ⟨-, hactive⟩
        · exact absurd hold hfinished
        · rw [hphase] at hactive
          exact absurd hactive (by simp)
    | some slot =>
        have hcount := hplaced.partition.count_eq slot t
        rw [if_pos hplace] at hcount
        cases slot with
        | ready =>
            have hnone : (s.readyList).count t = 1 := hcount
            rw [hready] at hnone
            exact absurd hnone (by simp)
        | waiting q =>
            rcases hplaced.waiting_status t q hplace with hblocked | ⟨-, hparking⟩
            · exact Or.inr ⟨q, hblocked, hcount⟩
            · rw [hphase] at hparking
              exact absurd hparking (by simp)

/-- `Sleep` stops the machine when nothing is left to wait for. -/
theorem Reachable.sleepLoop_stops (hreach : Reachable client s) (htop : s.top = some .sleepLoop)
    (h : s.pop.exec client choice .sleepLoop = .error stop) :
    stop = .halted ∧ choice.nextPending = none ∧ ∀ t, t < s.threadCount → s.Finished t ∨
      ∃ q, s.threadStatus t = .blocked ∧ (s.slots (.waiting q)).count t = 1 := by
  have hlevel : s.pop.level = .intOff := hreach.level_of_needsOff htop rfl
  simp only [exec, sleepLoop] at h
  cases hready : s.readyList with
  | cons next later =>
      rw [show s.pop.readyList = next :: later from hready] at h
      exact absurd h (by simp)
  | nil =>
      rw [show s.pop.readyList = [] from hready] at h
      simp only [if_pos hlevel] at h
      cases hpending : choice.nextPending with
      | none =>
          rw [hpending] at h
          refine ⟨(Except.error.inj h).symm, rfl, fun t hborn => ?_⟩
          exact hreach.wellFormed.waiting_of_idle htop hready hborn
      | some advance =>
          rw [hpending] at h
          exact absurd h (by simp)

/-- The thread behind `SWITCH` has not finished, so that it is not the one to be deleted. -/
theorem Reachable.afterSwitch_ne (hreach : Reachable client s) (htop : s.top = some .afterSwitch) :
    s.pop.exec client choice .afterSwitch ≠ .error stop := by
  intro h
  simp only [exec, afterSwitch] at h
  cases hstored : s.threadToBeDestroyed with
  | none =>
      rw [show s.pop.threadToBeDestroyed = none from hstored] at h
      exact absurd h (by simp)
  | some t =>
      rw [show s.pop.threadToBeDestroyed = some t from hstored] at h
      have hne : t ≠ s.pop.currentThread := by
        rintro rfl
        exact hreach.wellFormed.not_finished htop rfl (hreach.storedFinished _ hstored)
      simp only [if_neg hne] at h
      exact absurd h (by simp)

/-- The machine stops because the client stops it, because it is halted, or because nothing
is left to wait for and every thread has finished or waits. -/
theorem stops_of_reachable (hreach : Reachable client s) (h : s.step client choice = .error stop) :
    (∃ k, s.top = some (.client k) ∧ client.exec choice.input k s.pop = .error stop) ∨
    (s.top = some .halt ∧ stop = .halted) ∨
    (s.top = some .sleepLoop ∧ stop = .halted ∧ choice.nextPending = none ∧
      ∀ t, t < s.threadCount → s.Finished t ∨
        ∃ q, s.threadStatus t = .blocked ∧ (s.slots (.waiting q)).count t = 1) := by
  unfold step at h
  cases htop : s.top with
  | none =>
      -- no thread runs off its stack
      have hcurrent := hreach.endsInFinish.current
      exact absurd (List.head?_eq_none_iff.mp htop) hcurrent
  | some frame =>
      rw [htop] at h
      cases frame with
      | client k =>
          refine Or.inl ⟨k, rfl, ?_⟩
          simp only [exec] at h
          cases hexec : client.exec choice.input k s.pop with
          | ok answer =>
              rw [hexec] at h
              exact absurd h (by simp)
          | error reason =>
              rw [hexec] at h
              exact congrArg Except.error (Except.error.inj h)
      | halt => exact Or.inr (Or.inl ⟨rfl, (Except.error.inj h).symm⟩)
      | sleep =>
          have hlevel : s.pop.level = .intOff := hreach.level_of_needsOff htop rfl
          simp only [exec, threadSleep, if_pos hlevel] at h
          exact absurd h (by simp)
      | sleepLoop =>
          obtain ⟨hstop, hpending, hall⟩ := hreach.sleepLoop_stops htop h
          exact Or.inr (Or.inr ⟨rfl, hstop, hpending, hall⟩)
      | afterSwitch => exact absurd h (hreach.afterSwitch_ne htop)
      -- The other frames have no way to stop.
      | _ => exact absurd h (by simp [exec])

end Stops

end Kernel

/-- The main thread finishes with a lock that another thread waits for, and the machine
halts. -/
theorem stops_of_reachable_deadlock :
    ∃ s, Kernel.Reachable freeClient s ∧ s.Finished 0 ∧ ¬ s.Finished 1 ∧
      s.step freeClient (quietly []) = .error .halted ∧ (s.lock 0).waitingThreads = [1] ∧
      ∀ t, t < s.threadCount → s.Finished t ∨
        ∃ q, s.threadStatus t = .blocked ∧ (s.slots (.waiting q)).count t = 1 := by
  obtain ⟨s, hreach, htop, hready, hlevel, hmain, hother, hwaiting⟩ :=
    exists_reachable freeClient
      (P := fun s => s.top = some .sleepLoop ∧ s.readyList = [] ∧ s.level = .intOff ∧
        s.Finished 0 ∧ ¬ s.Finished 1 ∧ (s.lock 0).waitingThreads = [1])
      (fun _ => 0) () ()
      (steps 2 ++ [quietly [.call (.threadFork ()), .call (.lockAcquire 0),
        .call .threadYield]] ++ steps 9 ++ [quietly [.call (.lockAcquire 0)]] ++ steps 8)
      (by decide +kernel)
  have hstop : s.step freeClient (quietly []) = .error .halted := by
    have hempty : s.pop.readyList = [] := hready
    have hoff : s.pop.level = .intOff := hlevel
    simp only [Kernel.step, htop, Kernel.exec, Kernel.sleepLoop, hempty, if_pos hoff, quietly]
  rcases Kernel.stops_of_reachable hreach hstop with
    ⟨k, habs, -⟩ | ⟨habs, -⟩ | ⟨-, -, -, hall⟩
  · rw [htop] at habs
    exact absurd habs (by simp)
  · rw [htop] at habs
    exact absurd habs (by simp)
  · exact ⟨s, hreach, hmain, hother, hstop, hwaiting, hall⟩

end Threads
end Nachos
