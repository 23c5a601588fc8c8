import Nachos.Userprog.Stacks

/-!
# What `Wait_Syscall` comes back with

`Condition::Wait` comes back with the lock, and the user programs rely on it:
`forktest.c` releases the lock after its `Wait`.  But `Wait_Syscall` releases
the lock once more after `Condition::Wait`, and its error branch releases it
too, so on every path the calling thread comes back without it.
-/

namespace Nachos
namespace Userprog

open Threads Lib

/-- What a `Wait` of condition `c` with lock `l` promises to thread `t`: the
thread was put to sleep and woken since, and it owns the lock. -/
def MesaWait (c : ConditionId) (l : LockId) (t : ThreadId) (s s' : UserKernel) : Prop :=
  (∃ events, s'.history = s.history ++ events ∧ Kernel.WasWoken t c l events) ∧
    (s'.lock l).owner = some t

/-- The program points of `Wait_Syscall(x, lock)` before its last `Release`. -/
def isWaitPoint (x lock : Int) : UserFrame → Bool
  | .exceptionHandler call => call = .wait x lock
  | .waitCheck x' lock' => x' = x ∧ lock' = lock
  | .waitBody x' lock' => x' = x ∧ lock' = lock
  | .waitTail lock' => lock' = lock
  | .releaseOnError lock' => lock' = lock
  | _ => false

/-- The phases of a call of `Wait_Syscall(x, lock)` by thread `t`, where `l` is
the lock of the entry. -/
inductive WaitPhase (x lock : Int) (l : LockId) (t : ThreadId)
    (pending : List (Frame UserFrame)) (s : UserKernel) : Prop
  /-- The last `Release` has not been reached. -/
  | before (above : List (Frame UserFrame)) (k : UserFrame)
      (hpending : pending = above ++ [.client k])
      (hkernel : ∀ k', .client k' ∉ above) (hk : isWaitPoint x lock k = true)
  /-- The last `Release` is next. -/
  | releasing (hpending : pending = [.call (.lockRelease l), .client (.sysReturn 0)])
  /-- The thread has let go of the lock. -/
  | released (howner : (s.lock l).owner ≠ some t)
      (hwaiting : t ∉ (s.lock l).waitingThreads)
      (hquiet : ∀ f ∈ pending, f.isQuiet = true ∨ f = .client (.sysReturn 0))

section Phases

variable {choice : Choice Input} {s s' : UserKernel} {frame : Frame UserFrame}
  {rest gs base pending : List (Frame UserFrame)} {x lock : Int} {l : LockId} {t : ThreadId}

theorem Grounded.stepAt (hs : Grounded s) (hwf' : s'.WellFormed)
    (hat : Kernel.StepAt userClient choice s s' frame rest gs) : Grounded s' :=
  ⟨hwf', sane_step hs.sane hat, fun l => (hs.lockInvariant l).step hwf' hat⟩

/-- A program point before the last `Release` leads to another one or to the
last `Release`. -/
theorem isWaitPoint.asks (hu : s.client.Sane)
    (hobject : index? s.client.lockObjects lock = some l) {k : UserFrame}
    {input : Input} {state : Userland} {rs : List (Request UserFrame)}
    (hk : isWaitPoint x lock k = true) (hexec : userExec input k s = .ok (state, rs)) :
    (∃ op k', rs = [.call op, .client k'] ∧ isWaitPoint x lock k' = true) ∨
      rs = [.call (.lockRelease l), .client (.sysReturn 0)] := by
  have hsame : ∀ l', s.client.lockAt lock = some l' → l' = l := by
    intro l' hl'
    have hobject' := hu.lockAt_object hl'
    rw [hobject] at hobject'
    exact (Option.some.inj hobject').symm
  cases k <;> simp only [isWaitPoint, Bool.false_eq_true, decide_eq_true_eq] at hk
  case exceptionHandler call =>
    subst hk
    exact Or.inl ⟨_, _, answer_ok hexec, by simp [isWaitPoint]⟩
  case waitCheck x' lock' =>
    obtain ⟨rfl, rfl⟩ := hk
    rcases userExec_asks hexec with rfl | ⟨-, -, rfl⟩
    · exact Or.inl ⟨_, _, rfl, by simp [isWaitPoint]⟩
    · exact Or.inl ⟨_, _, rfl, by simp [isWaitPoint]⟩
  case waitBody x' lock' =>
    obtain ⟨rfl, rfl⟩ := hk
    obtain ⟨c, isDeleted, entry, -, -, rfl⟩ := userExec_asks hexec
    exact Or.inl ⟨_, _, rfl, by simp [isWaitPoint]⟩
  case waitTail lock' =>
    subst hk
    obtain ⟨l', hl', rfl⟩ := userExec_asks hexec
    exact Or.inr (by rw [hsame l' hl'])
  case releaseOnError lock' =>
    subst hk
    obtain ⟨l', hl', rfl⟩ := userExec_asks hexec
    exact Or.inr (by rw [hsame l' hl'])

/-- The thread's own steps carry the call from phase to phase. -/
theorem WaitPhase.self (h : WaitPhase x lock l t (frame :: rest) s) (hs : Grounded s)
    (hobject : index? s.client.lockObjects lock = some l) (hcurrent : s.currentThread = t)
    (hat : Kernel.StepAt userClient choice s s' frame (rest ++ base) gs) :
    WaitPhase x lock l t (gs ++ rest) s' := by
  cases h with
  | before above k hpending hkernel hk =>
      cases above with
      | nil =>
          -- the program point itself runs
          obtain ⟨rfl, rfl⟩ := List.cons.inj hpending
          rcases stepAt_cases hat with ⟨k', rs, hframe, hexec, rfl⟩ | ⟨hframe, -⟩
          · obtain rfl := Frame.client.inj hframe
            rcases isWaitPoint.asks (s := s.pop) hs.sane hobject hk hexec with
              ⟨op, k', rfl, hk'⟩ | rfl
            · exact .before [.call op] k' rfl (by simp) hk'
            · exact .releasing rfl
          · exact absurd rfl (hframe k)
      | cons first above =>
          obtain ⟨rfl, rfl⟩ := List.cons.inj hpending
          have hframe : ∀ k', frame ≠ .client k' := by
            rintro k' rfl
            exact hkernel k' List.mem_cons_self
          refine .before (gs ++ above) k (by simp) ?_ hk
          intro k' hmem
          rcases List.mem_append.mp hmem with hpushed | habove
          · exact Frame.pushes_not_client hframe hat.pushes k' hpushed
          · exact hkernel k' (List.mem_cons_of_mem _ habove)
  | releasing hpending =>
      obtain ⟨rfl, rfl⟩ := List.cons.inj hpending
      obtain ⟨howner, hwaiting⟩ := hat.released hs.wellFormed
      rw [hcurrent] at howner hwaiting
      refine .released howner hwaiting ?_
      rcases hat.pushes with rfl | rfl
      · simp
      · simp [Frame.isQuiet]
  | released howner hwaiting hquiet =>
      have hframe := hquiet frame List.mem_cons_self
      have hlock : s'.lock = s.lock := by
        refine (Kernel.exec_neutral hat.exec ?_).lock
        rcases hframe with hframe | rfl
        · exact Frame.isSynch_of_quiet hframe
        · rfl
      refine .released (hlock ▸ howner) (hlock ▸ hwaiting) ?_
      intro f hf
      rcases List.mem_append.mp hf with hpushed | hrest
      · rcases hframe with hframe | rfl
        · exact Or.inl (Frame.quiet_pushes hframe hat.pushes f hpushed)
        · rcases stepAt_cases hat with ⟨k, rs, hclient, hexec, rfl⟩ | ⟨hclient, -⟩
          · obtain rfl := Frame.client.inj hclient
            rw [show rs = [] from userExec_asks hexec] at hpushed
            exact absurd hpushed (by simp)
          · exact absurd rfl (hclient _)
      · exact hquiet f (List.mem_cons_of_mem _ hrest)

/-- The steps of other threads do not move the call out of its phase. -/
theorem WaitPhase.other (h : WaitPhase x lock l t pending s) (hcurrent : s.currentThread ≠ t)
    (hat : Kernel.StepAt userClient choice s s' frame rest gs) :
    WaitPhase x lock l t pending s' := by
  cases h with
  | before above k hpending hkernel hk => exact .before above k hpending hkernel hk
  | releasing hpending => exact .releasing hpending
  | released howner hwaiting hquiet =>
      have hnot : ¬ ((s'.lock l).owner = some t ∨ t ∈ (s'.lock l).waitingThreads) := by
        intro hclaim
        rcases hat.claimed hclaim with hold | ⟨rfl, -⟩
        · exact hold.elim howner hwaiting
        · exact hcurrent rfl
      exact .released (fun h => hnot (Or.inl h)) (fun h => hnot (Or.inr h)) hquiet

/-- A `Wait_Syscall` that returns leaves its thread without the lock. -/
theorem Returns.wait_owner (hs : Grounded s)
    (hobject : index? s.client.lockObjects lock = some l)
    (h : Kernel.Returns userClient (.client (.exceptionHandler (.wait x lock))) t base s s') :
    (s'.lock l).owner ≠ some t := by
  have hend : Grounded s' ∧ index? s'.client.lockObjects lock = some l ∧
      WaitPhase x lock l t [] s' := by
    refine h.call_invariant (Q := fun pending u => Grounded u ∧
      index? u.client.lockObjects lock = some l ∧ WaitPhase x lock l t pending u) ?_ ?_
      hs.wellFormed ?_
    · rintro u v choice frame rest gs - hwf' hcurrent hat ⟨hu, hobject, hphase⟩
      exact ⟨hu.stepAt hwf' hat, (grows_step hat).lock lock l hobject,
        hphase.self hu hobject hcurrent hat⟩
    · rintro u v choice frame rest gs pending - - hwf' hcurrent hat ⟨hu, hobject, hphase⟩
      exact ⟨hu.stepAt hwf' hat, (grows_step hat).lock lock l hobject,
        hphase.other hcurrent hat⟩
    · exact ⟨hs, hobject, .before [] _ rfl (by simp) (by simp [isWaitPoint])⟩
  cases hend.2.2 with
  | before above k hpending hkernel hk => exact absurd hpending (by simp)
  | releasing hpending => exact absurd hpending (by simp)
  | released howner hwaiting hquiet => exact howner

/-- `Wait_Syscall` never does what a `Wait` promises: whatever thread calls it
with a valid lock, and whatever the other threads do meanwhile, when it returns
its thread does not own the lock. -/
theorem waitSyscall_not_mesaWait (hreach : UserReachable s)
    (hlock : s.client.lockAt lock = some l)
    (h : Kernel.Returns userClient (.client (.exceptionHandler (.wait x lock))) t base s s') :
    (s'.lock l).owner ≠ some t ∧ ∀ c, ¬ MesaWait c l t s s' := by
  have hs := hreach.orderly.toGrounded
  have howner := Returns.wait_owner hs (hs.sane.lockAt_object hlock) h
  exact ⟨howner, fun c hmesa => howner hmesa.2⟩

end Phases

section ForkTest

/-- `main` of `forktest.c` up to its `Wait`: it makes a lock and a condition,
takes the lock and forks `func1`. -/
def forkTestMain : List (Choice Input) :=
  startup ++ calling .createLock 10 ++ calling .createCV 11 ++ calling (.acquire 0) 14 ++
    calling .fork 14 ++ calling (.wait 0 0) 2

/-- The `Wait` of `main` goes to sleep; `func1` takes the lock, signals, gives the
lock back and yields. -/
def forkTestWait : List (Choice Input) :=
  calling (.wait 0 0) 16 ++ calling (.acquire 0) 14 ++ calling (.signal 0 0) 15 ++
    calling (.release 0) 13 ++ calling .yield 12

/-- The `Wait` of `forktest.c` comes back after the signal, and by the theorem
without the lock. -/
theorem waitSyscall_not_mesaWait_forktest :
    ∃ s s', UserReachable s ∧ s.client.lockAt 0 = some 6 ∧
      Kernel.Returns userClient (.client (.exceptionHandler (.wait 0 0))) 0 mainLoop s s' ∧
      ¬ MesaWait 0 6 0 s s' := by
  obtain ⟨s, s', hrun, hreturns, hlock⟩ :=
    exists_run_returns userClient (P := fun s _ => s.client.lockAt 0 = some 6)
      (.client (.exceptionHandler (.wait 0 0))) 0 mainLoop (userBoot fun _ => 0)
      forkTestMain forkTestWait (by decide +kernel)
  exact ⟨s, s', ⟨_, hrun⟩, hlock, hreturns,
    (waitSyscall_not_mesaWait ⟨_, hrun⟩ hlock hreturns).2 0⟩

/-- `main` of `forktest.c` owns the lock when it calls `Wait` with valid ids, it
is put to sleep and woken by the `Signal`, and it does not own the lock when the
call returns. -/
theorem waitSyscall_without_lock_forktest :
    ∃ s s', UserReachable s ∧ s.client.cvAt 0 = some 0 ∧ s.client.lockAt 0 = some 6 ∧
      (s.lock 6).owner = some 0 ∧
      Kernel.Returns userClient (.client (.exceptionHandler (.wait 0 0))) 0 mainLoop s s' ∧
      Event.conditionWoken 0 0 ∈ s'.history ∧ (s'.lock 6).owner ≠ some 0 := by
  obtain ⟨s, s', hrun, hreturns, hcv, hlock, howner, hwoken, hlost⟩ :=
    exists_run_returns userClient
      (P := fun s s' => s.client.cvAt 0 = some 0 ∧ s.client.lockAt 0 = some 6 ∧
        (s.lock 6).owner = some 0 ∧ Event.conditionWoken 0 0 ∈ s'.history ∧
        (s'.lock 6).owner ≠ some 0)
      (.client (.exceptionHandler (.wait 0 0))) 0 mainLoop (userBoot fun _ => 0)
      forkTestMain forkTestWait (by decide +kernel)
  exact ⟨s, s', ⟨_, hrun⟩, hcv, hlock, howner, hreturns, hwoken, hlost⟩

end ForkTest

end Userprog
end Nachos
