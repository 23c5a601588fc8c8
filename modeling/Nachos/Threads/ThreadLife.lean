import Nachos.Threads.Runs

/-!
# The life of a thread

Threads are born in `Fork` and end in `Finish`, and nothing else changes who is
there.  Between two steps no yield is pending: `OneTick` and `Idle` take the
request of a timer back before they are done, so that a tick without an interrupt
never yields.
-/

namespace Nachos
namespace Threads

open Lib

variable {κ σ ι : Type}

namespace Kernel

/-- What every step but `Fork` and `Finish` leaves alone. -/
structure SameThreads (s s' : Kernel κ σ) : Prop where
  threadCount : s'.threadCount = s.threadCount
  finished : ∀ t, s'.Finished t → s.Finished t
  yieldOnReturn : s.yieldOnReturn = false → s'.yieldOnReturn = false

section Steps

variable {client : Client κ σ ι} {choice : Choice ι} {s s' : Kernel κ σ}

theorem SameThreads.of_eq (hcount : s'.threadCount = s.threadCount)
    (hhistory : s'.history = s.history) (hyield : s'.yieldOnReturn = s.yieldOnReturn) :
    SameThreads s s' :=
  ⟨hcount, fun t h => by rwa [Finished, hhistory] at h, fun h => hyield.trans h⟩

theorem SameThreads.of_event (e : Event) (hcount : s'.threadCount = s.threadCount)
    (hhistory : s'.history = s.history ++ [e]) (hyield : s'.yieldOnReturn = s.yieldOnReturn)
    (he : ∀ t, e ≠ .threadFinished t) : SameThreads s s' := by
  refine ⟨hcount, fun t h => ?_, fun h => hyield.trans h⟩
  rw [Finished, hhistory, List.mem_append, List.mem_singleton] at h
  rcases h with hold | hnew
  · exact hold
  · exact absurd hnew.symm (he t)

theorem raiseSemaphore_sameThreads (i : SemaphoreId) (s : Kernel κ σ) :
    SameThreads s (s.raiseSemaphore i) := by
  unfold raiseSemaphore
  split
  · exact .of_event _ rfl rfl rfl (by simp)
  · exact .of_event _ rfl rfl rfl (by simp)

/-- The code of the operations. -/
theorem execOp_sameThreads {op : Op κ} (hfork : ∀ body, op ≠ .threadFork body)
    (hfinish : op ≠ .threadFinish) (s : Kernel κ σ) : SameThreads s (s.execOp op) := by
  cases op with
  | semaphoreP i => exact .of_eq rfl rfl rfl
  | semaphoreV i =>
      have hraise := raiseSemaphore_sameThreads i (s.changeLevel .intOff)
      exact ⟨hraise.threadCount, hraise.finished, hraise.yieldOnReturn⟩
  | threadFork body => exact absurd rfl (hfork body)
  | threadFinish => exact absurd rfl hfinish
  | conditionBroadcast c l => exact .of_eq rfl rfl rfl
  | lockAcquire l =>
      simp only [execOp, lockAcquire]
      split
      · exact .of_eq rfl rfl rfl
      · split
        · exact .of_eq rfl rfl rfl
        · exact .of_event _ rfl rfl rfl (by simp)
  | lockRelease l =>
      simp only [execOp, lockRelease]
      split
      · split
        · exact .of_event _ rfl rfl rfl (by simp)
        · exact .of_eq rfl rfl rfl
      · exact .of_eq rfl rfl rfl
  | conditionWait c conditionLock =>
      simp only [execOp, conditionWait]
      repeat' split
      all_goals exact .of_eq rfl rfl rfl
  | conditionSignal c conditionLock =>
      simp only [execOp, conditionSignal]
      split
      · exact .of_eq rfl rfl rfl
      · split
        · exact .of_event _ rfl rfl rfl (by simp)
        · exact .of_eq rfl rfl rfl
  | threadYield =>
      simp only [execOp, threadYield]
      split
      · exact .of_eq rfl rfl rfl
      · exact .of_eq rfl rfl rfl

/-- A tick asks for no yield that it does not make. -/
theorem oneTick_sameThreads (interrupts : List Interrupt) (s : Kernel κ σ) :
    SameThreads s (s.oneTick interrupts) := by
  have hframe := tickHandled_frame interrupts s
  have hfinished : ∀ t, (s.tickHandled interrupts).Finished t → s.Finished t :=
    (tickHandled_idle interrupts s).2
  unfold oneTick
  simp only
  split
  · exact ⟨hframe.threadCount, hfinished, fun _ => rfl⟩
  · rename_i hyield
    exact ⟨hframe.threadCount, hfinished, fun _ => Bool.eq_false_of_not_eq_true hyield⟩

/-- The code at every program point but the calls of `Fork` and `Finish`. -/
theorem exec_sameThreads {frame : Frame κ} (h : s.exec client choice frame = .ok s')
    (hfork : ∀ body, frame ≠ .call (.threadFork body)) (hfinish : frame ≠ .call .threadFinish) :
    SameThreads s s' := by
  cases frame with
  | call op =>
      obtain rfl := Except.ok.inj h
      exact execOp_sameThreads (fun body hop => hfork body (by rw [hop]))
        (fun hop => hfinish (by rw [hop])) s
  | setLevel now =>
      obtain rfl := Except.ok.inj h
      unfold setLevel
      split
      · exact .of_eq rfl rfl rfl
      · exact .of_eq rfl rfl rfl
  | oneTick =>
      obtain rfl := Except.ok.inj h
      exact oneTick_sameThreads choice.interrupts s
  | setStatus m =>
      obtain rfl := Except.ok.inj h
      exact .of_eq rfl rfl rfl
  | sleep =>
      obtain ⟨-, rfl⟩ := threadSleep_ok h
      exact .of_eq rfl rfl rfl
  | sleepLoop =>
      rcases sleepLoop_ok h with ⟨next, rest, -, rfl⟩ | ⟨-, -, advance, rfl⟩
      · exact .of_eq rfl rfl rfl
      · exact ⟨(idle_frame advance choice.interrupts s).threadCount,
          (handleAll_idle choice.interrupts { s with stats := { s.stats with
            totalTicks := s.stats.totalTicks + advance
            idleTicks := s.stats.idleTicks + advance } }).2, fun _ => rfl⟩
  | afterSwitch =>
      rcases afterSwitch_ok h with rfl | ⟨t, -, -, rfl⟩
      · exact .of_eq rfl rfl rfl
      · exact .of_event _ rfl rfl rfl (by simp)
  | whileValueZero i =>
      obtain rfl := Except.ok.inj h
      unfold whileValueZero
      split
      · exact .of_eq rfl rfl rfl
      · exact .of_event _ rfl rfl rfl (by simp)
  | waitAppend c l =>
      obtain rfl := Except.ok.inj h
      exact .of_event _ rfl rfl rfl (by simp)
  | waitReacquire c l =>
      obtain rfl := Except.ok.inj h
      exact .of_eq rfl rfl rfl
  | broadcastLoop c conditionLock =>
      obtain rfl := Except.ok.inj h
      unfold broadcastLoop
      split
      · exact .of_eq rfl rfl rfl
      · exact .of_eq rfl rfl rfl
  | halt => exact absurd h (by simp [exec])
  | client k =>
      obtain ⟨state, requests, -, rfl⟩ := exec_client_ok h
      exact .of_eq rfl rfl rfl

variable {frame : Frame κ} {rest gs : List (Frame κ)}

/-- A thread that has finished stays so. -/
theorem StepAt.finished (hat : StepAt client choice s s' frame rest gs) {t : ThreadId}
    (h : s.Finished t) : s'.Finished t := by
  have hadds : ∃ events, s.Adds s' events := by
    cases hat.lock 0 with
    | same hlock events hadds hquiet => exact ⟨events, hadds⟩
    | taken hframe howner havailable hlock hadds => exact ⟨_, hadds⟩
    | queued hframe howner havailable hlock hadds => exact ⟨_, hadds⟩
    | granted t rest hframe howner hwaiting hlock hadds => exact ⟨_, hadds⟩
    | freed hframe howner hwaiting hlock hadds => exact ⟨_, hadds⟩
  obtain ⟨events, hhistory⟩ := hadds
  rw [Finished, hhistory]
  exact List.mem_append_left _ h

/-- What a step does to the set of threads: one is born, the current one
finishes, or nothing happens. -/
theorem StepAt.life (hat : StepAt client choice s s' frame rest gs) :
    (∃ body, frame = .call (.threadFork body) ∧ s'.threadCount = s.threadCount + 1 ∧
      ∀ t, s'.Finished t ↔ s.Finished t) ∨
    (frame = .call .threadFinish ∧ s'.threadCount = s.threadCount ∧
      ∀ t, s'.Finished t ↔ s.Finished t ∨ t = s.currentThread) ∨
    ((∀ body, frame ≠ .call (.threadFork body)) ∧ frame ≠ .call .threadFinish ∧
      s'.threadCount = s.threadCount ∧ ∀ t, s'.Finished t ↔ s.Finished t) := by
  by_cases hfork : ∃ body, frame = .call (.threadFork body)
  · obtain ⟨body, rfl⟩ := hfork
    have hs' : s.pop.threadFork body = s' := Except.ok.inj hat.exec
    refine Or.inl ⟨body, rfl, ?_, fun t => ?_⟩
    · rw [← hs']
      rfl
    · rw [← hs']
      rfl
  · by_cases hfinish : frame = .call .threadFinish
    · have hs' : s.pop.threadFinish = s' := by
        have hexec := hat.exec
        rw [hfinish] at hexec
        exact Except.ok.inj hexec
      refine Or.inr (Or.inl ⟨hfinish, ?_, fun t => ?_⟩)
      · rw [← hs']
        rfl
      · have hhistory : s'.history = s.history ++ [.threadFinished s.currentThread] := by
          rw [← hs']
          rfl
        simp [Finished, hhistory]
    · have hsame : SameThreads s.pop s' :=
        exec_sameThreads hat.exec (fun body hbody => hfork ⟨body, hbody⟩) hfinish
      exact Or.inr (Or.inr ⟨fun body hbody => hfork ⟨body, hbody⟩, hfinish, hsame.threadCount,
        fun t => ⟨hsame.finished t, hat.finished⟩⟩)

/-- The new thread starts with the frames of `ThreadRoot`. -/
theorem StepAt.forked {body : κ}
    (hat : StepAt client choice s s' (.call (.threadFork body)) rest gs)
    (hwf : s.WellFormed) :
    s'.threadCount = s.threadCount + 1 ∧ s'.stack s.threadCount = rootFrames body ∧
      s'.currentThread = s.currentThread := by
  obtain rfl : s.pop.threadFork body = s' := Except.ok.inj hat.exec
  refine ⟨rfl, ?_, rfl⟩
  have hne : s.threadCount ≠ s.currentThread := Nat.ne_of_gt hwf.current_lt
  simp [threadFork, push, changeLevel, readyToRun, rootFrames, pop, hne]

/-- A thread that is there after a step was there before, or has just been
forked. -/
theorem StepAt.born_cases (hat : StepAt client choice s s' frame rest gs) (hwf : s.WellFormed)
    {t : ThreadId} (hborn : t < s'.threadCount) :
    t < s.threadCount ∨ t = s.threadCount ∧ t ≠ s.currentThread ∧
      ∃ body, frame = .call (.threadFork body) ∧ s'.stack t = rootFrames body := by
  rcases hat.life with ⟨body, rfl, hcount, -⟩ | ⟨-, hcount, -⟩ | ⟨-, -, hcount, -⟩
  · by_cases hold : t < s.threadCount
    · exact Or.inl hold
    · obtain rfl : t = s.threadCount :=
        Nat.le_antisymm (Nat.lt_succ_iff.mp (Nat.lt_of_lt_of_eq hborn hcount))
          (Nat.le_of_not_lt hold)
      exact Or.inr ⟨rfl, Nat.ne_of_gt hwf.current_lt, body, rfl, (hat.forked hwf).2.1⟩
  · exact Or.inl (hcount ▸ hborn)
  · exact Or.inl (hcount ▸ hborn)

/-- No yield is pending between two steps. -/
theorem StepAt.yieldOnReturn (hat : StepAt client choice s s' frame rest gs)
    (h : s.yieldOnReturn = false) : s'.yieldOnReturn = false := by
  by_cases hfork : ∃ body, frame = .call (.threadFork body)
  · obtain ⟨body, rfl⟩ := hfork
    have hs' : s.pop.threadFork body = s' := Except.ok.inj hat.exec
    rw [← hs']
    exact h
  · by_cases hfinish : frame = .call .threadFinish
    · have hexec := hat.exec
      rw [hfinish] at hexec
      obtain rfl := Except.ok.inj hexec
      exact h
    · have hsame : SameThreads s.pop s' :=
        exec_sameThreads hat.exec (fun body hbody => hfork ⟨body, hbody⟩) hfinish
      exact hsame.yieldOnReturn h

/-- A tick without an interrupt goes on with the code below it. -/
theorem StepAt.quietTick (hat : StepAt client choice s s' .oneTick rest gs)
    (hyield : s.yieldOnReturn = false) (hquiet : choice.interrupts = []) : gs = [] := by
  have hexec := Except.ok.inj hat.exec
  have hstack : s'.stack s.currentThread = rest := by
    rw [← hexec, hquiet]
    have hclock : s.pop.advanceClock.yieldOnReturn = false := by
      unfold advanceClock
      split
      · exact hyield
      · exact hyield
    have hsame : s.pop.advanceClock.stack = s.pop.stack := (advanceClock_frame s.pop).stack
    simp only [oneTick, handleAll, List.foldl_nil, changeLevel, hclock, Bool.false_eq_true,
      if_false, hsame]
    rw [pop_stack_self, hat.stack, List.tail_cons]
  have happend := hat.stack_self.symm.trans hstack
  simpa using happend

/-- A thread that is not running stands behind `SWITCH`, or it has not started the
procedure it was forked for. -/
def Suspended (Entry : κ → Prop) (s : Kernel κ σ) (t : ThreadId) : Prop :=
  (∃ later, s.stack t = .afterSwitch :: later) ∨
    (∃ body, Entry body ∧ s.stack t = rootFrames body) ∨ s.stack t = []

/-- The program point behind `SWITCH` is the first of a stack, and all threads but
the current one are suspended. -/
structure Switching (Entry : κ → Prop) (s : Kernel κ σ) : Prop where
  below : ∀ t, .afterSwitch ∉ (s.stack t).tail
  suspended : ∀ t, t ≠ s.currentThread → s.Suspended Entry t
  noYield : s.yieldOnReturn = false

/-- `SWITCH` is called by `Yield` and by `Sleep`, as the last thing they do. -/
theorem pushes_afterSwitch {level : IntStatus} (hpushes : frame.Pushes level gs) :
    .afterSwitch ∉ gs.tail ∧
      (.afterSwitch ∈ gs → frame = .call .threadYield ∨ frame = .sleepLoop) := by
  cases frame with
  | client k =>
      obtain ⟨requests, rfl⟩ := hpushes
      have hnone : Frame.afterSwitch ∉ requests.map Request.frame := by
        intro hmem
        obtain ⟨r, -, hr⟩ := List.mem_map.mp hmem
        cases r <;> simp [Request.frame] at hr
      exact ⟨fun hmem => hnone (List.mem_of_mem_tail hmem), fun hmem => absurd hmem hnone⟩
  | halt => exact hpushes.elim
  | call op => cases op <;> simp only [Frame.Pushes] at hpushes <;> grind
  | _ => simp only [Frame.Pushes] at hpushes; grind

theorem Switching.step {Entry : κ → Prop} (h : s.Switching Entry)
    (hat : StepAt client choice s s' frame rest gs)
    (hentry : ∀ body, frame = .call (.threadFork body) → Entry body) : s'.Switching Entry where
  below := by
    intro t hmem
    by_cases ht : t = s.currentThread
    · subst ht
      have hrest : Frame.afterSwitch ∉ rest := by
        have hbelow := h.below s.currentThread
        rwa [hat.stack, List.tail_cons] at hbelow
      rw [hat.stack_self] at hmem
      cases hgs : gs with
      | nil =>
          rw [hgs] at hmem
          exact hrest (List.mem_of_mem_tail hmem)
      | cons g later =>
          have hlater := (pushes_afterSwitch hat.pushes).1
          rw [hgs] at hmem hlater
          rcases List.mem_append.mp hmem with hnew | hold
          · exact hlater hnew
          · exact hrest hold
    · rcases hat.stack_other t ht with hsame | ⟨body, -, -, hroot⟩
      · exact h.below t (hsame ▸ hmem)
      · rw [hroot] at hmem
        simp [rootFrames] at hmem
  suspended := by
    intro t ht
    by_cases hcur : t = s.currentThread
    · rcases hat.currentThread with hsame | ⟨_, later, -, hstack, -⟩
      · exact absurd (hcur.trans hsame.symm) ht
      · exact Or.inl ⟨later, hcur ▸ hstack⟩
    · rcases hat.stack_other t hcur with hsame | ⟨body, hfork, -, hroot⟩
      · have hold := h.suspended t hcur
        unfold Suspended at hold ⊢
        rwa [hsame]
      · exact Or.inr (Or.inl ⟨body, hentry body hfork, hroot⟩)
  noYield := hat.yieldOnReturn h.noYield

/-- `Yield` and `Sleep` call `SWITCH` if some thread is ready. -/
theorem StepAt.switch_cases (hat : StepAt client choice s s' frame rest gs)
    (hframe : frame = .call .threadYield ∨ frame = .sleepLoop) :
    (s.readyList ≠ [] ∧ ∃ later, gs = .afterSwitch :: later) ∨
      (s.readyList = [] ∧ .afterSwitch ∉ gs ∧ s'.currentThread = s.currentThread) := by
  have hpushed : ∀ {u : Kernel κ σ} {fs : List (Frame κ)}, u.stack = s.pop.stack →
      u.currentThread = s.currentThread → s'.stack = (u.push fs).stack → gs = fs := by
    intro u fs hstack hcurrent hs'
    have hself := hat.stack_self
    rw [hs', push_stack_self fs hcurrent, hstack, pop_stack_self, hat.stack,
      List.tail_cons] at hself
    exact (List.append_cancel_right hself).symm
  rcases hframe with rfl | rfl
  · have hexec : s.pop.threadYield = s' := Except.ok.inj hat.exec
    unfold threadYield at hexec
    split at hexec
    · rename_i hready
      have hgs : gs = [.setLevel s.pop.level] := by
        refine hpushed (u := s.pop.changeLevel .intOff) rfl rfl ?_
        rw [← hexec]
      refine Or.inr ⟨hready, by simp [hgs], ?_⟩
      rw [← hexec]
      rfl
    · rename_i next ready hready
      have hne : s.readyList ≠ [] := by
        rw [show s.readyList = next :: ready from hready]
        simp
      have hgs : gs = [.afterSwitch, .setLevel s.pop.level] := by
        refine hpushed (u := ({ s.pop with readyList := ready }.changeLevel .intOff).readyToRun
          s.pop.currentThread) rfl rfl ?_
        rw [← hexec]
        rfl
      exact Or.inl ⟨hne, _, hgs⟩
  · rcases sleepLoop_ok hat.exec with ⟨next, ready, hready, hs'⟩ | ⟨hready, -, advance, hs'⟩
    · have hne : s.readyList ≠ [] := by
        rw [show s.readyList = next :: ready from hready]
        simp
      have hgs : gs = [.afterSwitch] := by
        refine hpushed (u := { s.pop with readyList := ready }) rfl rfl ?_
        rw [hs']
        rfl
      exact Or.inl ⟨hne, _, hgs⟩
    · have hidle := idle_frame advance choice.interrupts s.pop
      have hgs : gs = [.sleepLoop] :=
        hpushed hidle.stack hidle.currentThread (congrArg Kernel.stack hs')
      refine Or.inr ⟨hready, by simp [hgs], ?_⟩
      rw [hs']
      exact hidle.currentThread

theorem switching_boot (Entry : κ → Prop) (initialValue : SemaphoreId → Int) (state : σ)
    (main : κ) : (boot initialValue state main).Switching Entry where
  below := by
    intro t
    by_cases ht : t = 0
    · simp [boot, ht]
    · simp [boot, ht]
  suspended := by
    intro t ht
    have hzero : t ≠ 0 := ht
    refine Or.inr (Or.inr ?_)
    simp [boot, hzero]
  noYield := rfl

end Steps

end Kernel

end Threads
end Nachos
