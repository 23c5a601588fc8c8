import Nachos.Threads.LockDiscipline

/-!
# The interrupt level across a call

Every synchronization operation switches interrupts off and is expected to put
the level back before it returns.  `Restores` follows the level through the
frames of a call that are still pending, and the call rule of `Runs` carries it
along whatever other threads and interrupt handlers do while the call sleeps:
a thread that gets the processor back finds interrupts off (`switched_off`).

`Lock::Release` is the exception.  Its branches that give the lock up end
without a `SetLevel`, so the call returns with interrupts off whatever the level
was before.
-/

namespace Nachos
namespace Threads

open Lib

variable {κ σ ι : Type}

/-- The level right after the code at a frame, up to the next call that may
suspend. -/
def Frame.levelAfter (level : IntStatus) : Frame κ → IntStatus
  | .call (.conditionBroadcast _ _) => level
  | .call _ => .intOff
  | .setLevel now => now
  | .oneTick => .intOn
  | _ => level

/-- The level when everything a frame stands for has been done, if it was
`level` before. -/
def Frame.leaves (level : IntStatus) : Frame κ → IntStatus
  | .setLevel now => now
  | .oneTick => .intOn
  | _ => level

/-- The frames of the operations, at levels at which they put the level back. -/
def Frame.Harmless (level : IntStatus) : Frame κ → Prop
  | .call (.lockRelease _) => level = .intOff
  | .call .threadFinish => False
  | .client _ => False
  | .halt => False
  | _ => True

/-- From `level`, the pending frames lead to `target`. -/
def Restores (target : IntStatus) : List (Frame κ) → IntStatus → Prop
  | [], level => level = target
  | frame :: rest, level => frame.Harmless level ∧ Restores target rest (frame.leaves level)

/-- If a frame may be executed at a level, then what it pushes leads from the
level it leaves to where the frame leads. -/
theorem Restores.pushes {target level : IntStatus} {frame : Frame κ} {rest gs : List (Frame κ)}
    (h : Restores target (frame :: rest) level) (hpushes : frame.Pushes level gs) :
    Restores target (gs ++ rest) (frame.levelAfter level) := by
  obtain ⟨hharmless, hrest⟩ := h
  cases frame with
  | call op =>
      cases op with
      | semaphoreP i =>
          subst hpushes
          exact ⟨trivial, trivial, hrest⟩
      | semaphoreV i =>
          subst hpushes
          exact ⟨trivial, hrest⟩
      | lockAcquire l =>
          rcases hpushes with rfl | rfl
          · exact ⟨trivial, hrest⟩
          · exact ⟨trivial, trivial, hrest⟩
      | lockRelease l =>
          have hlevel : level = .intOff := hharmless
          subst hlevel
          rcases hpushes with rfl | rfl
          · exact hrest
          · exact ⟨trivial, hrest⟩
      | conditionWait c conditionLock =>
          rcases hpushes with rfl | ⟨l, -, rfl⟩
          · exact ⟨trivial, hrest⟩
          · exact ⟨rfl, trivial, trivial, hrest⟩
      | conditionSignal c conditionLock =>
          subst hpushes
          exact ⟨trivial, hrest⟩
      | conditionBroadcast c conditionLock =>
          subst hpushes
          exact ⟨trivial, hrest⟩
      | threadFork body =>
          subst hpushes
          exact ⟨trivial, hrest⟩
      | threadYield =>
          rcases hpushes with rfl | rfl
          · exact ⟨trivial, hrest⟩
          · exact ⟨trivial, trivial, hrest⟩
      | threadFinish => exact absurd hharmless id
  | setLevel now =>
      rcases hpushes with rfl | ⟨rfl, rfl⟩
      · exact hrest
      · exact ⟨trivial, hrest⟩
  | oneTick =>
      rcases hpushes with rfl | ⟨m, rfl⟩
      · exact hrest
      · exact ⟨trivial, trivial, hrest⟩
  | setStatus m =>
      subst hpushes
      exact hrest
  | sleep =>
      subst hpushes
      exact ⟨trivial, hrest⟩
  | sleepLoop =>
      rcases hpushes with rfl | rfl
      · exact ⟨trivial, hrest⟩
      · exact ⟨trivial, hrest⟩
  | afterSwitch =>
      subst hpushes
      exact hrest
  | whileValueZero i =>
      rcases hpushes with rfl | rfl
      · exact hrest
      · exact ⟨trivial, trivial, hrest⟩
  | waitAppend c l =>
      subst hpushes
      exact ⟨trivial, trivial, hrest⟩
  | waitReacquire c l =>
      subst hpushes
      exact ⟨trivial, hrest⟩
  | broadcastLoop c conditionLock =>
      rcases hpushes with rfl | rfl
      · exact hrest
      · exact ⟨trivial, trivial, hrest⟩
  | halt => exact absurd hharmless id
  | client k => exact absurd hharmless id

namespace Kernel

variable {client : Client κ σ ι} {choice : Choice ι} {s s' : Kernel κ σ}
  {frame : Frame κ} {rest gs : List (Frame κ)}

/-- The level after a step is told by the frame. -/
theorem exec_level (h : s.exec client choice frame = .ok s') :
    s'.level = frame.levelAfter s.level := by
  cases frame with
  | call op =>
      obtain rfl := Except.ok.inj h
      cases op with
      | semaphoreV i => exact (raiseSemaphore_frame i (s.changeLevel .intOff)).level
      | _ =>
          simp only [execOp, semaphoreP, lockAcquire, lockRelease, conditionWait,
            conditionSignal, threadFork, threadYield, threadFinish]
          repeat' split
          all_goals rfl
  | setLevel now =>
      obtain rfl := Except.ok.inj h
      unfold setLevel
      split
      · rfl
      · rfl
  | oneTick =>
      obtain rfl := Except.ok.inj h
      rcases oneTick_eq choice.interrupts s with heq | heq
      · rw [heq]
        rfl
      · rw [heq]
        rfl
  | setStatus m =>
      obtain rfl := Except.ok.inj h
      rfl
  | sleep =>
      obtain ⟨-, rfl⟩ := threadSleep_ok h
      rfl
  | sleepLoop =>
      rcases sleepLoop_ok h with ⟨next, ready, -, rfl⟩ | ⟨-, -, advance, rfl⟩
      · rfl
      · exact (idle_frame advance choice.interrupts s).level
  | afterSwitch =>
      rcases afterSwitch_ok h with rfl | ⟨t, -, -, rfl⟩
      · rfl
      · rfl
  | whileValueZero i =>
      obtain rfl := Except.ok.inj h
      unfold whileValueZero
      split
      · rfl
      · rfl
  | waitAppend c l =>
      obtain rfl := Except.ok.inj h
      rfl
  | waitReacquire c l =>
      obtain rfl := Except.ok.inj h
      rfl
  | broadcastLoop c conditionLock =>
      obtain rfl := Except.ok.inj h
      unfold broadcastLoop
      split
      · rfl
      · rfl
  | halt => exact absurd h (by simp [exec])
  | client k =>
      obtain ⟨state, requests, -, rfl⟩ := exec_client_ok h
      rfl

theorem StepAt.level (hat : StepAt client choice s s' frame rest gs) :
    s'.level = frame.levelAfter s.level := by
  have hlevel := exec_level hat.exec
  exact hlevel

/-- A thread in the loop of `Sleep` has interrupts off. -/
def SleepsOff (s : Kernel κ σ) : Prop := s.top = some .sleepLoop → s.level = .intOff

theorem SleepsOff.step (hoff : s.SleepsOff) (hwf : s.WellFormed)
    (hat : StepAt client choice s s' frame rest gs) : s'.SleepsOff := by
  intro htop
  rw [hat.level]
  rcases hat.currentThread with hsame | ⟨ready, later, hready, -, -⟩
  · -- the frame is pushed by `sleep`, or pushed again by the loop itself
    rw [top, hsame, hat.stack_self] at htop
    cases gs with
    | nil =>
        have hactive := hwf.shape.tail s.currentThread .sleepLoop (by
          rw [hat.stack, List.tail_cons]
          exact List.mem_of_mem_head? htop)
        exact absurd hactive (by simp [Frame.isParked])
    | cons first later =>
        rw [List.cons_append, List.head?_cons, Option.some.injEq] at htop
        subst htop
        have hpushes := hat.pushes
        cases frame with
        | sleep => exact (threadSleep_ok hat.exec).1
        | sleepLoop => exact hoff hat.top
        | client k =>
            obtain ⟨requests, hrequests⟩ := hpushes
            have hmem : Frame.sleepLoop ∈ requests.map Request.frame := by
              rw [← hrequests]
              exact List.mem_cons_self
            obtain ⟨request, -, habs⟩ := List.mem_map.mp hmem
            cases request <;> simp [Request.frame] at habs
        | call op =>
            cases op <;> simp [Frame.Pushes] at hpushes
        | _ => simp [Frame.Pushes] at hpushes
  · -- a thread that is switched to is not parked
    have hmem : s'.currentThread ∈ s.readyList := by
      rw [hready]
      exact List.mem_cons_self
    by_cases hself : s'.currentThread = s.currentThread
    · have hparked := hwf.isParked_of_mem hat.top .ready (hself ▸ hmem)
      cases frame with
      | sleep => exact (threadSleep_ok hat.exec).1
      | sleepLoop => exact hoff hat.top
      | _ => simp [Frame.isParked] at hparked
    · have hborn := hwf.born_of_mem .ready hmem
      rw [top, hat.stack_of_ne hborn hself] at htop
      have hactive := hwf.shape.head _ hself _ htop
      exact absurd hactive (by simp [Frame.isParked])

theorem Reachable.sleepsOff (hreach : Reachable client s) : s.SleepsOff :=
  hreach.stepAt_invariant (P := SleepsOff) (fun _ _ _ => by simp [SleepsOff, boot, top])
    fun _ _ _ _ _ _ hwf _ hat hoff => hoff.step hwf hat

/-- A thread gets the processor with interrupts off. -/
theorem StepAt.switched_off (hat : StepAt client choice s s' frame rest gs)
    (hoff : s.SleepsOff) (hne : s'.currentThread ≠ s.currentThread) :
    s'.level = .intOff := by
  rcases hat.currentThread with hsame | ⟨ready, later, -, -, hframe⟩
  · exact absurd hsame hne
  · rcases hframe with ⟨-, hlevel⟩ | ⟨rfl, hlevel⟩
    · exact hlevel
    · exact hlevel.trans (hoff hat.top)

/-- While a call of `t` is pending, its frames lead to `target` from the level
at which `t` goes on. -/
structure Restoring (t : ThreadId) (target : IntStatus) (pending : List (Frame κ))
    (s : Kernel κ σ) : Prop where
  sleepsOff : s.SleepsOff
  restores : Restores target pending (if s.currentThread = t then s.level else .intOff)

theorem Restoring.self {t : ThreadId} {target : IntStatus} {base : List (Frame κ)}
    (h : Restoring t target (frame :: rest) s) (hwf : s.WellFormed)
    (hcurrent : s.currentThread = t)
    (hat : StepAt client choice s s' frame (rest ++ base) gs) :
    Restoring t target (gs ++ rest) s' := by
  refine ⟨h.sleepsOff.step hwf hat, ?_⟩
  have hrestores := h.restores
  rw [if_pos hcurrent] at hrestores
  have hnext : Restores target (gs ++ rest) s'.level := by
    rw [hat.level]
    exact hrestores.pushes hat.pushes
  split
  · exact hnext
  · rename_i hswitched
    rw [← hat.switched_off h.sleepsOff (hcurrent ▸ hswitched)]
    exact hnext

theorem Restoring.other {t : ThreadId} {target : IntStatus} {pending : List (Frame κ)}
    (h : Restoring t target pending s) (hwf : s.WellFormed) (hcurrent : s.currentThread ≠ t)
    (hat : StepAt client choice s s' frame rest gs) : Restoring t target pending s' := by
  refine ⟨h.sleepsOff.step hwf hat, ?_⟩
  have hrestores := h.restores
  rw [if_neg hcurrent] at hrestores
  split
  · rename_i hback
    rw [hat.switched_off h.sleepsOff (hback ▸ Ne.symm hcurrent)]
    exact hrestores
  · exact hrestores

/-- A run inside a call whose frames lead to `target` returns at `target`. -/
theorem Run.level_of_restoring {t : ThreadId} {base pending : List (Frame κ)}
    {target : IntStatus} (hrun : Run client (fun u _ => u.Inside t base) s s')
    (hwf : s.WellFormed) (hborn : t < s.threadCount) (hstack : s.stack t = pending ++ base)
    (hrestoring : Restoring t target pending s)
    (hreturned : s'.currentThread = t ∧ s'.stack t = base) : s'.level = target := by
  obtain ⟨last, hlast, hend⟩ := Run.call_invariant (Q := Restoring t target)
    (fun _ _ _ _ _ _ hwf _ hcurrent hat hQ => hQ.self hwf hcurrent hat)
    (fun _ _ _ _ _ _ _ _ hwf _ hcurrent hat hQ => hQ.other hwf hcurrent hat)
    hwf hborn hrun hstack hrestoring
  rw [hreturned.2] at hlast
  obtain rfl := List.self_eq_append_left.mp hlast
  have hrestores := hend.restores
  rw [if_pos hreturned.1] at hrestores
  exact hrestores

theorem Returns.level_of_restores {op : Op κ} {t : ThreadId} {base : List (Frame κ)}
    {target : IntStatus} (hreach : Reachable client s) (h : Returns client (.call op) t base s s')
    (hop : Restores target [.call op] s.level) : s'.level = target := by
  have hwf := hreach.wellFormed
  have hstack : s.stack t = [.call op] ++ base := h.called
  refine Run.level_of_restoring h.run hwf (h.current ▸ hwf.current_lt) hstack
    ⟨hreach.sleepsOff, ?_⟩ h.returned
  rw [if_pos h.current]
  exact hop

/-- Where a `Release` goes on: the owner's returns at once and with interrupts
off, any other restores the level. -/
theorem Returns.level_of_release {l : LockId} {t : ThreadId} {base : List (Frame κ)}
    (hreach : Reachable client s) (h : Returns client (.call (.lockRelease l)) t base s s') :
    s'.level = if (s.lock l).owner = some t then .intOff else s.level := by
  have hwf := hreach.wellFormed
  obtain ⟨choice, u, gs, hat, hstep, hrun⟩ := h.first hwf
  have hu : s.pop.lockRelease l = u := Except.ok.inj hat.exec
  have hlevel : u.level = .intOff := hat.level
  split
  · rename_i howner
    have hheld : s.pop.isHeldByCurrentThread l := howner.trans (h.current ▸ rfl)
    have hstack : u.stack t = base := by
      have hpop : s.pop.stack t = base := by
        rw [← h.current, pop_stack_self, hat.stack, List.tail_cons]
      rw [← hu]
      unfold lockRelease
      rw [if_pos hheld]
      split
      · exact hpop
      · exact hpop
    rw [Run.eq_of_returned hrun hstack, hlevel]
  · rename_i howner
    have hrefused : ¬ s.pop.isHeldByCurrentThread l := fun hheld =>
      howner (hheld.trans (h.current ▸ rfl))
    have hu' : u = (s.pop.changeLevel .intOff).push [.setLevel s.level] := by
      rw [← hu]
      unfold lockRelease
      rw [if_neg hrefused]
      rfl
    have hcurrent : u.currentThread = t := by
      rw [hu']
      exact h.current
    have hstack : u.stack t = [.setLevel s.level] ++ base := by
      rw [hu', ← h.current]
      refine hat.stack_of_push ?_ ?_ _
      · rfl
      · rfl
    have hborn : t < u.threadCount := by
      rw [hu', ← h.current]
      exact hwf.current_lt
    refine Run.level_of_restoring hrun (wellFormed_step hwf hstep) hborn hstack
      ⟨hreach.sleepsOff.step hwf hat, ?_⟩ h.returned
    rw [if_pos hcurrent]
    exact ⟨trivial, rfl⟩

/-- A call of one of the nine operations returns at the interrupt level at
which it was made, unless it is the `Release` of a lock by its owner with
interrupts on; that one returns with interrupts off. -/
theorem level_restored_iff (hreach : Reachable client s) {op : Op κ} {t : ThreadId}
    {base : List (Frame κ)} (hop : op ≠ .threadFinish) (h : Returns client (.call op) t base s s') :
    s'.level = s.level ↔
      ¬ ∃ l, op = .lockRelease l ∧ (s.lock l).owner = some t ∧ s.level = .intOn := by
  constructor
  · rintro hsame ⟨l, rfl, howner, hon⟩
    rw [h.level_of_release hreach, if_pos howner, hon] at hsame
    exact absurd hsame (by simp)
  · intro hgood
    cases op with
    | lockRelease l =>
        rw [h.level_of_release hreach]
        split
        · rename_i howner
          cases hlevel : s.level with
          | intOff => rfl
          | intOn => exact absurd ⟨l, rfl, howner, hlevel⟩ hgood
        · rfl
    | threadFinish => exact absurd rfl hop
    | _ => exact h.level_of_restores hreach ⟨trivial, rfl⟩

end Kernel

/-- A contended `Acquire` made with interrupts on returns with interrupts on. -/
theorem level_restored_iff_freeClient :
    ∃ s s' base, Kernel.Reachable freeClient s ∧
      Kernel.Returns freeClient (.call (.lockAcquire 0)) 1 base s s' ∧
      Event.lockQueued 0 1 ∈ s'.history ∧ s'.level = .intOn := by
  obtain ⟨s, s', hreach, hreturns, hlevel, hqueued⟩ :=
    exists_returns freeClient
      (P := fun s s' => s.level = .intOn ∧ Event.lockQueued 0 1 ∈ s'.history)
      (.call (.lockAcquire 0)) 1 [.call .threadFinish] (fun _ => 0) () ()
      (steps 2 ++ [quietly [.call (.threadFork ()), .call (.lockAcquire 0),
        .call .threadYield, .call (.lockRelease 0), .call .threadYield]] ++ steps 9 ++
        [quietly [.call (.lockAcquire 0)]])
      (steps 11) (by decide +kernel)
  have hrestored := (Kernel.level_restored_iff hreach (by simp) hreturns).mpr (by simp)
  exact ⟨s, s', _, hreach, hreturns, hqueued, hrestored.trans hlevel⟩

/-- `Release` by the owner: interrupts are on at the call and off when it has
returned. -/
theorem level_not_restored_freeClient :
    ∃ s s' base, Kernel.Reachable freeClient s ∧
      Kernel.Returns freeClient (.call (.lockRelease 0)) 0 base s s' ∧ s'.level ≠ s.level := by
  obtain ⟨s, s', hreach, hreturns, hlevel⟩ :=
    exists_returns freeClient (P := fun s s' => s'.level ≠ s.level)
      (.call (.lockRelease 0)) 0 [.call .threadFinish] (fun _ => 0) () ()
      (steps 2 ++ [quietly [.call (.lockAcquire 0), .call (.lockRelease 0)]] ++ steps 3)
      (steps 1) (by decide +kernel)
  exact ⟨s, s', _, hreach, hreturns, hlevel⟩

end Threads
end Nachos
