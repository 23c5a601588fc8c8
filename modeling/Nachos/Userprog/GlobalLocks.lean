import Nachos.Userprog.Stacks

/-!
# The four global locks

`syscallLock`, `PrintfLock`, `LockTableLock` and `CVTableLock` are taken and
given back inside one system call.  Two error paths of `exception.cc` return
without giving `syscallLock` back: `Exec_Syscall` when the process table is
full, and `Fork_Syscall` when the process of the thread is not in the table.
Every other path is sound: in a run that takes neither of the two, whoever owns
or waits for a global lock has the program point that gives it back ahead, and
so nobody leaves a system call with one.
-/

namespace Nachos
namespace Userprog

open Threads Lib

/-- The step takes neither of the two leaking returns: `Exec_Syscall` finds room
in the process table, and `Fork_Syscall` finds the process of its thread. -/
def leakFree (s : UserKernel) : Bool :=
  match s.top with
  | some (.client (.processFind _ .exec)) => s.client.processTable.firstClear ≠ -1
  | some (.client .forkBody) =>
      (s.client.processTable.get (s.client.pid s.currentThread)).isSome
  | _ => true

/-- Whoever owns or waits for a global lock has the frame that gives it back on
the stack. -/
def Covered (s : UserKernel) : Prop :=
  ∀ g, isGlobal g → ∀ t,
    ((s.lock g).owner = some t ∨ t ∈ (s.lock g).waitingThreads) → Guarded g (s.stack t)

section Step

variable {choice : Choice Input} {s s' : UserKernel} {frame : Frame UserFrame}
  {rest gs : List (Frame UserFrame)}

theorem Guarded.append_right {g : LockId} {fs : List (Frame UserFrame)} (h : Guarded g fs)
    (gs : List (Frame UserFrame)) : Guarded g (gs ++ fs) := by
  obtain ⟨f, hf, hguards⟩ := h
  exact ⟨f, List.mem_append_right _ hf, hguards⟩

theorem Guarded.append_left {g : LockId} {gs : List (Frame UserFrame)} (h : Guarded g gs)
    (fs : List (Frame UserFrame)) : Guarded g (gs ++ fs) := by
  obtain ⟨f, hf, hguards⟩ := h
  exact ⟨f, List.mem_append_left _ hf, hguards⟩

/-- A program point that holds a global lock gives it back or passes it on, but
for the two leaks. -/
theorem asks_guarded {k : UserFrame} {rs : List (Request UserFrame)} {g : LockId}
    (hasks : k.Asks s rs) (hk : k.holds = some g)
    (hexec : ∀ space, k = .processFind space .exec →
      s.client.processTable.firstClear ≠ -1)
    (hfork : k = .forkBody →
      s.client.processTable.get (s.client.pid s.currentThread) ≠ none) :
    Guarded g (rs.map Request.frame) := by
  cases k <;> simp only [UserFrame.holds, Option.some.injEq, reduceCtorEq] at hk
  case acquireCheck n =>
    subst hk
    rcases hasks with rfl | ⟨l, -, rfl⟩
    · simp [Guarded, guards, Request.frame]
    · simp [Guarded, guards, Request.frame]
  case releaseCheck n =>
    subst hk
    rcases hasks with rfl | ⟨l, -, rfl⟩
    · simp [Guarded, guards, Request.frame]
    · simp [Guarded, guards, Request.frame]
  case createLockBody =>
    subst hk
    obtain ⟨rv, rfl⟩ := hasks
    simp [Guarded, guards, Request.frame]
  case destroyLockBody n =>
    subst hk hasks
    simp [Guarded, guards, Request.frame]
  case waitCheck x lock =>
    subst hk
    rcases hasks with rfl | ⟨-, -, rfl⟩
    · simp [Guarded, guards, Request.frame]
    · simp [Guarded, guards, Request.frame]
  case signalCheck y a =>
    subst hk
    rcases hasks with rfl | ⟨c, l, -, -, rfl⟩
    · simp [Guarded, guards, Request.frame]
    · simp [Guarded, guards, Request.frame, UserFrame.holds]
  case signalTail y =>
    subst hk hasks
    simp [Guarded, guards, Request.frame]
  case broadcastCheck z b =>
    subst hk
    rcases hasks with rfl | ⟨c, l, -, -, rfl⟩
    · simp [Guarded, guards, Request.frame]
    · simp [Guarded, guards, Request.frame]
  case createCVBody =>
    subst hk
    obtain ⟨rv, rfl⟩ := hasks
    simp [Guarded, guards, Request.frame]
  case destroyCVBody n =>
    subst hk hasks
    simp [Guarded, guards, Request.frame]
  case printfBody =>
    subst hk
    rcases hasks with rfl | rfl
    · simp [Guarded, guards, Request.frame]
    · simp [Guarded, guards, Request.frame]
  case execBody =>
    subst hk hasks
    simp [Guarded, guards, Request.frame, UserFrame.holds]
  case spacePut space more use =>
    cases use <;> simp only [Option.some.injEq, reduceCtorEq] at hk
    subst hk
    rcases hasks with ⟨-, rfl⟩ | ⟨m, -, rfl⟩
    · simp [Guarded, guards, Request.frame, UserFrame.holds]
    · simp [Guarded, guards, Request.frame, UserFrame.holds]
  case spaceDone space use =>
    cases use <;> simp only [Option.some.injEq, reduceCtorEq] at hk
    subst hk
    rcases hasks with rfl | rfl
    · simp [Guarded, guards, Request.frame]
    · simp [Guarded, guards, Request.frame, UserFrame.holds]
  case processFind space use =>
    cases use <;> simp only [Option.some.injEq, reduceCtorEq] at hk
    subst hk hasks
    simp [Guarded, guards, Request.frame, UserFrame.holds, hexec space rfl]
  case processStore space i use =>
    cases use <;> simp only [reduceCtorEq] at hk
    split at hk
    · exact absurd hk (by simp)
    · rename_i hfound
      obtain rfl := Option.some.inj hk
      rcases hasks with ⟨habs, -⟩ | ⟨-, hfull, -⟩ | ⟨-, -, rfl⟩
      · exact absurd habs (by simp)
      · exact absurd hfull hfound
      · simp [Guarded, guards, Request.frame]
  case forkBody =>
    subst hk
    rcases hasks with ⟨hnone, -⟩ | ⟨-, rfl⟩
    · exact absurd hnone (hfork rfl)
    · simp [Guarded, guards, Request.frame]
  case exitBody =>
    subst hk
    obtain ⟨processID, rfl | rfl | ⟨-, rfl⟩⟩ := hasks
    · simp [Guarded, guards, Request.frame]
    · simp [Guarded, guards, Request.frame]
    · simp [Guarded, guards, Request.frame]

/-- A step that takes no leaking return keeps the global locks covered. -/
theorem Covered.step (h : Covered s) (hs : Orderly s) (hleak : leakFree s = true)
    (hat : Kernel.StepAt userClient choice s s' frame rest gs) : Covered s' := by
  intro g hg t hclaim
  rcases hat.claimed hclaim with hold | ⟨rfl, rfl⟩
  · have hguarded := h g hg t hold
    by_cases ht : t = s.currentThread
    · subst ht
      rw [hat.stack_self]
      rw [hat.stack] at hguarded
      obtain ⟨f, hf, hguards⟩ := hguarded
      rcases List.mem_cons.mp hf with rfl | hrest
      · -- the frame that gives the lock back is the one that runs
        rcases stepAt_cases hat with ⟨k, rs, rfl, hexec, rfl⟩ | ⟨hframe, -⟩
        · refine (asks_guarded (userExec_asks hexec) ?_ ?_ ?_).append_left rest
          · simpa [guards] using hguards
          · rintro space rfl
            change s.client.processTable.firstClear ≠ -1
            simpa [leakFree, hat.top] using hleak
          · rintro rfl
            rw [leakFree, hat.top] at hleak
            exact Option.isSome_iff_ne_none.mp hleak
        · cases f with
          | call op =>
              cases op <;> simp only [guards, Bool.false_eq_true, decide_eq_true_eq] at hguards
              subst hguards
              have hfree := hat.released hs.wellFormed
              exact absurd hclaim (by simp [hfree.1, hfree.2])
          | halt => exact absurd hat.pushes (by simp [Frame.Pushes])
          | client k => exact absurd rfl (hframe k)
          | _ => simp [guards] at hguards
      · exact (Guarded.append_right ⟨f, hrest, hguards⟩ gs)
    · rcases hat.stack_other t ht with hsame | ⟨body, -, hnew, -⟩
      · rw [hsame]
        exact hguarded
      · rw [hs.wellFormed.unborn t (Nat.le_of_eq hnew.symm)] at hguarded
        obtain ⟨f, hf, -⟩ := hguarded
        exact absurd hf (by simp)
  · have hover := (hat.stack ▸ hs.ordered s.currentThread).1
    rw [hat.stack_self]
    exact (hover.2 hg).append_right gs

theorem covered_boot (pid : ThreadId → Int) : Covered (userBoot pid) := by
  intro g _ t h
  simp [userBoot, Kernel.boot, newLock] at h

/-- Below a program point of a system call nothing gives a lock back. -/
theorem not_guarded_of_isBase {g : LockId} (h : ∀ f ∈ rest, isBase f = true) :
    ¬ Guarded g rest := by
  rintro ⟨f, hf, hguards⟩
  rw [guards_of_isBase (h f hf) g] at hguards
  exact absurd hguards (by simp)

/-- The thread is about to leave a system call: the call has returned to the end
of `ExceptionHandler`, or it ends the thread. -/
def Leaves (s : UserKernel) : Prop :=
  (∃ rv, s.top = some (.client (.sysReturn rv))) ∨ s.top = some (.call .threadFinish)

/-- A thread that leaves a system call owns no global lock that is covered. -/
theorem Covered.leaves (h : Covered s) (hs : Orderly s) (hleaves : Leaves s) {g : LockId}
    (hg : isGlobal g) : (s.lock g).owner ≠ some s.currentThread := by
  intro howner
  have hguarded := h g hg s.currentThread (Or.inl howner)
  have hordered := hs.ordered s.currentThread
  rcases hleaves with ⟨rv, htop⟩ | htop
  · have hstack := Kernel.stack_of_top htop
    rw [hstack] at hordered hguarded
    obtain ⟨f, hf, hguards⟩ := hguarded
    rcases List.mem_cons.mp hf with rfl | hrest
    · simp [guards, UserFrame.holds] at hguards
    · exact not_guarded_of_isBase hordered.1 ⟨f, hrest, hguards⟩
  · have hstack := Kernel.stack_of_top htop
    rw [hstack] at hordered hguarded
    obtain ⟨f, hf, hguards⟩ := hguarded
    rcases List.mem_cons.mp hf with rfl | hrest
    · simp [guards] at hguards
    · exact not_guarded_of_isBase hordered.1 ⟨f, hrest, hguards⟩

/-- In every run that takes neither of the two leaking returns, a thread that
leaves a system call owns none of the global locks, and whoever owns or waits
for one of them has the program point that gives it back ahead. -/
theorem globalLocks_released {pid : ThreadId → Int}
    (hrun : Kernel.Run userClient (fun u _ => leakFree u = true) (userBoot pid) s) :
    (Leaves s → ∀ g ∈ [syscallLock, lockTableLock, cvTableLock, printfLock],
      (s.lock g).owner ≠ some s.currentThread) ∧
    ∀ g ∈ [syscallLock, lockTableLock, cvTableLock, printfLock], ∀ t,
      (s.lock g).owner = some t ∨ t ∈ (s.lock g).waitingThreads → Guarded g (s.stack t) := by
  obtain ⟨hs, hcovered⟩ := (orderly_boot pid).invariant (P := Covered) hrun
    (fun u v choice frame rest gs hu _ hleak hat h => h.step hu hleak hat)
    (covered_boot pid)
  have hglobal : ∀ g ∈ [syscallLock, lockTableLock, cvTableLock, printfLock], isGlobal g := by
    decide
  exact ⟨fun hleaves g hg => hcovered.leaves hs hleaves (hglobal g hg),
    fun g hg t h => hcovered g (hglobal g hg) t h⟩

end Step

/-- An `Exec_Syscall` that finds room in the process table comes back without
`syscallLock`. -/
theorem globalLocks_released_exec :
    ∃ s, Kernel.Run userClient (fun u _ => leakFree u = true) (userBoot fun _ => 0) s ∧
      s.top = some (.client (.sysReturn 1)) ∧
      (s.lock syscallLock).owner ≠ some s.currentThread := by
  obtain ⟨s, hrun, htop⟩ :=
    exists_userRun (P := fun s => s.top = some (.client (.sysReturn 1))) leakFree (fun _ => 0)
      (startup ++ [doing (.syscall .exec)] ++ instructions 23) (by decide +kernel)
  refine ⟨s, hrun, htop, ?_⟩
  exact (globalLocks_released hrun).1 (Or.inl ⟨1, htop⟩) syscallLock (by decide)

/-- The process table has 32 entries.  A program that calls `Exec` 32 times
leaves the last call with `syscallLock`. -/
theorem globalLocks_leaked_exec :
    ∃ s, UserReachable s ∧ Leaves s ∧
      (s.lock syscallLock).owner = some s.currentThread := by
  obtain ⟨s, hreach, htop, howner⟩ :=
    exists_userReachable
      (P := fun s => s.top = some (.client (.sysReturn (-1))) ∧
        (s.lock syscallLock).owner = some s.currentThread)
      (fun _ => 0) (List.replicate 938 (doing (.syscall .exec))) (by decide +kernel)
  exact ⟨s, hreach, Or.inl ⟨-1, htop⟩, howner⟩

end Userprog
end Nachos
