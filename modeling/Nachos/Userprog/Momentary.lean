import Nachos.Userprog.Stacks

/-!
# Program points that no other thread sees

Some program points are reached and left without a switch: `Wait_Syscall`
between its check and `Condition::Wait`, the call of `Condition::Wait`, and the
`Acquire` of a lock of the lock table.  They stand at the top of the stack of
`currentThread`, so whatever another thread does to the tables, no thread is at
one of them.
-/

namespace Nachos
namespace Userprog

open Threads Lib

section Requests

variable {s : UserKernel} {rs : List (Request UserFrame)} {k : UserFrame}

theorem mem_requests_call {op : Op UserFrame} :
    Frame.call op ∈ rs.map Request.frame ↔ Request.call op ∈ rs := by
  constructor
  · intro h
    obtain ⟨request, hrequest, hframe⟩ := List.mem_map.mp h
    cases request <;> simp only [Request.frame, Frame.call.injEq, reduceCtorEq] at hframe
    exact hframe ▸ hrequest
  · exact fun h => List.mem_map.mpr ⟨_, h, rfl⟩

theorem mem_requests_client {k' : UserFrame} :
    Frame.client k' ∈ rs.map Request.frame ↔ Request.client k' ∈ rs := by
  constructor
  · intro h
    obtain ⟨request, hrequest, hframe⟩ := List.mem_map.mp h
    cases request <;> simp only [Request.frame, Frame.client.injEq, reduceCtorEq] at hframe
    exact hframe ▸ hrequest
  · exact fun h => List.mem_map.mpr ⟨_, h, rfl⟩

/-- The program point a system call enters is not one of those below. -/
theorem Syscall.enters_ne {call : Syscall} {g : LockId} {k' : UserFrame}
    (h : call.enters s = some (g, k')) (x n : Int) :
    k' ≠ .waitBody x n ∧ k' ≠ .waitTail n := by
  cases call <;> simp only [Syscall.enters, Option.some.injEq, Prod.mk.injEq, reduceCtorEq] at h
  all_goals
    obtain ⟨-, rfl⟩ := h
    simp

theorem asks_waitBody {x n : Int} (hasks : k.Asks s rs)
    (hmem : Request.client (.waitBody x n) ∈ rs) :
    k = .waitCheck x n ∧ s.client.cvAt x ≠ none ∧ s.client.lockAt n ≠ none ∧
      rs = [.call (.lockRelease cvTableLock), .client (.waitBody x n)] := by
  cases k
  all_goals simp only [UserFrame.Asks] at hasks
  case exceptionHandler call =>
    rcases hasks with rfl | ⟨rv, rfl⟩ | rfl | ⟨g, k', henters, rfl⟩
    · simp at hmem
    · simp at hmem
    · simp at hmem
    · have hne := (Syscall.enters_ne henters x n).1
      simp [Ne.symm hne] at hmem
  case waitCheck x' n' =>
    rcases hasks with rfl | ⟨hcv, hlock, rfl⟩
    · simp at hmem
    · simp only [List.mem_cons, reduceCtorEq, Request.client.injEq, UserFrame.waitBody.injEq,
        List.not_mem_nil, or_false, false_or] at hmem
      obtain ⟨rfl, rfl⟩ := hmem
      exact ⟨rfl, hcv, hlock, rfl⟩
  all_goals grind

theorem asks_waitTail {n : Int} (hasks : k.Asks s rs)
    (hmem : Request.client (.waitTail n) ∈ rs) : ∃ x, k = .waitBody x n := by
  cases k
  all_goals simp only [UserFrame.Asks] at hasks
  case exceptionHandler call =>
    rcases hasks with rfl | ⟨rv, rfl⟩ | rfl | ⟨g, k', henters, rfl⟩
    · simp at hmem
    · simp at hmem
    · simp at hmem
    · have hne := (Syscall.enters_ne henters 0 n).2
      simp [Ne.symm hne] at hmem
  case waitBody x n' =>
    obtain ⟨c, isDeleted, entry, -, -, rfl⟩ := hasks
    simp only [List.mem_cons, reduceCtorEq, Request.client.injEq, UserFrame.waitTail.injEq,
      List.not_mem_nil, or_false, false_or] at hmem
    exact ⟨x, by rw [hmem]⟩
  all_goals grind

theorem asks_conditionWait {c : ConditionId} {o : Option LockId} (hasks : k.Asks s rs)
    (hmem : Request.call (.conditionWait c o) ∈ rs) :
    ∃ x n isDeleted entry, k = .waitBody x n ∧
      index? s.client.cvTable x = some ⟨some c, isDeleted⟩ ∧
      index? s.client.lockTable n = some entry ∧ o = entry.kernelLock ∧
      rs = [.call (.conditionWait c o), .client (.waitTail n)] := by
  cases k
  all_goals simp only [UserFrame.Asks] at hasks
  case oneInstruction =>
    rcases hasks with rfl | rfl | ⟨call, rfl⟩
    · simp at hmem
    · simp at hmem
    · simp at hmem
  case waitBody x n =>
    obtain ⟨c', isDeleted, entry, hcv, hlock, rfl⟩ := hasks
    simp only [List.mem_cons, reduceCtorEq, Request.call.injEq, Op.conditionWait.injEq,
      List.not_mem_nil, or_false] at hmem
    obtain ⟨rfl, rfl⟩ := hmem
    exact ⟨x, n, isDeleted, entry, rfl, hcv, hlock, rfl, rfl⟩
  all_goals grind

/-- Only `Acquire_Syscall` asks for a lock of the lock table. -/
theorem asks_acquire (hu : s.client.Sane) {n : Int} {l : LockId} (hasks : k.Asks s rs)
    (hmem : Request.call (.lockAcquire l) ∈ rs)
    (hobject : index? s.client.lockObjects n = some l) :
    k = .acquireCheck n ∧ index? s.client.lockTable n = some ⟨some l, false⟩ ∧
      rs = [.call (.lockAcquire l), .call (.lockRelease lockTableLock),
        .client (.sysReturn 0)] := by
  have hglobal := (hu.not_isGlobal hobject).1
  have hlt := hu.object_lt hobject
  have hnext : l ≠ s.client.nextLock := Nat.ne_of_lt hlt
  have hprocess : l ≠ processTableLock :=
    Ne.symm (Nat.ne_of_lt (hu.lock_bounds l (index?_mem hobject)).1)
  have hfile : ∀ space, l ≠ (s.client.fileTable space).lock := by
    rintro space rfl
    exact (hu.fileLock space).2.2 (index?_mem hobject)
  cases k
  all_goals simp only [UserFrame.Asks] at hasks
  case exceptionHandler call =>
    rcases hasks with rfl | ⟨rv, rfl⟩ | rfl | ⟨g, k', henters, rfl⟩
    · simp at hmem
    · simp at hmem
    · simp at hmem
    · simp only [List.mem_cons, reduceCtorEq, Request.call.injEq, Op.lockAcquire.injEq,
        List.not_mem_nil, or_false] at hmem
      subst hmem
      cases call <;>
        simp only [Syscall.enters, Option.some.injEq, Prod.mk.injEq, reduceCtorEq] at henters
      case openFile => exact absurd henters.1.symm (hfile _)
      case close fd => exact absurd henters.1.symm (hfile _)
      all_goals
        obtain ⟨rfl, -⟩ := henters
        exact absurd (by decide) hglobal
  case acquireCheck n' =>
    rcases hasks with rfl | ⟨l', hentry, rfl⟩
    · simp at hmem
    · simp only [List.mem_cons, reduceCtorEq, Request.call.injEq, Op.lockAcquire.injEq,
        List.not_mem_nil, or_false] at hmem
      subst hmem
      have hsame : n' = n :=
        index?_injective hu.lock_nodup (hu.lock_object n' l false hentry) hobject
      subst hsame
      exact ⟨rfl, hentry, rfl⟩
  case oneInstruction =>
    rcases hasks with rfl | rfl | ⟨call, rfl⟩
    · simp at hmem
    · simp at hmem
    · simp at hmem
  all_goals grind

end Requests

section Momentary

variable {choice : Choice Input} {s s' : UserKernel} {frame : Frame UserFrame}
  {rest gs : List (Frame UserFrame)}

/-- The program points that no other thread sees, and what is known there. -/
structure Momentary (s : UserKernel) : Prop where
  /-- `Wait_Syscall` behind its check. -/
  passing : ∀ t above x n below, s.stack t = above ++ .client (.waitBody x n) :: below →
    t = s.currentThread ∧ (above = [] ∨ above = [.call (.lockRelease cvTableLock)]) ∧
      s.client.cvAt x ≠ none ∧ s.client.lockAt n ≠ none
  /-- The call of `Condition::Wait`. -/
  waiting : ∀ t above c o below, s.stack t = above ++ .call (.conditionWait c o) :: below →
    t = s.currentThread ∧ above = []
  /-- The `Acquire` of a lock of the lock table: the entry is live, or the thread
  comes from `Condition::Wait`. -/
  asking : ∀ t above n l below, s.stack t = above ++ .call (.lockAcquire l) :: below →
    index? s.client.lockObjects n = some l → t = s.currentThread ∧ above = [] ∧
      (s.client.lockAt n = some l ∨ .client (.waitTail n) ∈ below)

/-- A frame at the head of what is pushed is at the top of the stack. -/
theorem eq_nil_of_cons_eq {f g : Frame UserFrame} {above later : List (Frame UserFrame)}
    {fs : List (Frame UserFrame)} (h : f :: fs = above ++ g :: later) (hg : g ∉ fs) :
    above = [] := by
  cases above with
  | nil => rfl
  | cons first above =>
      obtain ⟨-, htail⟩ := List.cons.inj h
      exact absurd (htail ▸ List.mem_append_right _ List.mem_cons_self) hg

/-- A step that is not a `Yield` or the loop of `Sleep` does not switch. -/
theorem currentThread_of_ne (hat : Kernel.StepAt userClient choice s s' frame rest gs)
    (hyield : frame ≠ .call .threadYield) (hsleep : frame ≠ .sleepLoop) :
    s'.currentThread = s.currentThread := by
  rcases hat.currentThread with hsame | ⟨_, _, -, -, ⟨habs, -⟩ | ⟨habs, -⟩⟩
  · exact hsame
  · exact absurd habs hyield
  · exact absurd habs hsleep

theorem Momentary.passing_step (h : Momentary s) (hs : Orderly s)
    (hat : Kernel.StepAt userClient choice s s' frame rest gs) :
    ∀ t above x n below, s'.stack t = above ++ .client (.waitBody x n) :: below →
      t = s'.currentThread ∧ (above = [] ∨ above = [.call (.lockRelease cvTableLock)]) ∧
        s'.client.cvAt x ≠ none ∧ s'.client.lockAt n ≠ none := by
  intro t above x n below hstack
  have hover := (hat.stack ▸ hs.ordered s.currentThread).1
  cases hat.origin hstack with
  | other ht hold => exact absurd (h.passing t above x n below hold).1 ht
  | root ht body hframe hmem =>
      subst hframe
      rcases hover with rfl | rfl
      · simp [Kernel.rootFrames] at hmem
      · simp [Kernel.rootFrames] at hmem
  | below ht later habove hrest =>
      subst ht
      -- the frame that ran is the `Release` of `CVTableLock`
      have hcons : s.stack s.currentThread =
          (frame :: later) ++ .client (.waitBody x n) :: below := by
        rw [hat.stack, hrest]
        rfl
      obtain ⟨-, habove', hcv, hlock⟩ := h.passing _ _ x n below hcons
      obtain ⟨rfl, rfl⟩ : frame = .call (.lockRelease cvTableLock) ∧ later = [] := by
        rcases habove' with habs | hrelease
        · exact absurd habs (by simp)
        · exact List.cons.inj hrelease
      have howner : (s.lock cvTableLock).owner = some s.currentThread := by
        refine hs.keeping _ cvTableLock (.call (.lockRelease cvTableLock)) ?_ (by decide)
        rw [hat.stack]
        exact List.mem_cons_self
      obtain ⟨rfl, -, hcurrent⟩ := hat.release_held howner
      rcases stepAt_cases hat with ⟨k, rs, hframe, -, -⟩ | ⟨-, hclient⟩
      · exact absurd hframe (by simp)
      · rw [hclient]
        exact ⟨hcurrent.symm, Or.inl habove, hcv, hlock⟩
  | pushed ht later hgs hbelow =>
      subst ht
      rcases stepAt_cases hat with ⟨k, rs, rfl, hexec, rfl⟩ | ⟨hframe, -⟩
      · have hmem : Request.client (.waitBody x n) ∈ rs :=
          mem_requests_client.mp (hgs ▸ List.mem_append_right _ List.mem_cons_self)
        obtain ⟨rfl, hcv, hlock, rfl⟩ := asks_waitBody (userExec_asks hexec) hmem
        have htables := userExec_sameTables hexec rfl
        refine ⟨(clientStep_of_stepAt hat).currentThread.symm, Or.inr ?_, ?_, ?_⟩
        · cases above with
          | nil => simp [Request.frame] at hgs
          | cons first above =>
              obtain ⟨rfl, htail⟩ := List.cons.inj hgs
              rw [eq_nil_of_cons_eq htail (by simp)]
              rfl
        · rw [Userland.cvAt, htables.cvTable]
          exact hcv
        · rw [Userland.lockAt, htables.lockTable]
          exact hlock
      · refine absurd ?_ (Frame.pushes_not_client hframe hat.pushes (.waitBody x n))
        rw [hgs]
        simp

/-- The kernel makes no call of `Condition::Wait`, and asks for a lock behind a
`Wait` only. -/
theorem pushes_calls {level : IntStatus} (hframe : ∀ k, frame ≠ .client k)
    (hpushes : frame.Pushes level gs) :
    (∀ c o, .call (.conditionWait c o) ∉ gs) ∧
      ∀ l, .call (.lockAcquire l) ∈ gs →
        gs = [.call (.lockAcquire l)] ∧ ∃ c, frame = .waitReacquire c l := by
  constructor
  · intro c o hmem
    cases Frame.pushed_of_pushes hframe hpushes hmem with
    | quiet _ _ hquiet => simp [Frame.isQuiet] at hquiet
  · intro l hmem
    cases Frame.pushed_of_pushes hframe hpushes hmem with
    | quiet _ _ hquiet => simp [Frame.isQuiet] at hquiet
    | acquire c l => exact ⟨hpushes, c, rfl⟩

theorem Momentary.waiting_step (h : Momentary s)
    (hat : Kernel.StepAt userClient choice s s' frame rest gs) :
    ∀ t above c o below, s'.stack t = above ++ .call (.conditionWait c o) :: below →
      t = s'.currentThread ∧ above = [] := by
  intro t above c o below hstack
  cases hat.origin hstack with
  | other ht hold => exact absurd (h.waiting t above c o below hold).1 ht
  | root ht body hframe hmem => simp [Kernel.rootFrames] at hmem
  | below ht later habove hrest =>
      subst ht
      have hcons : s.stack s.currentThread =
          (frame :: later) ++ .call (.conditionWait c o) :: below := by
        rw [hat.stack, hrest]
        rfl
      exact absurd (h.waiting _ _ c o below hcons).2 (by simp)
  | pushed ht later hgs hbelow =>
      subst ht
      rcases stepAt_cases hat with ⟨k, rs, rfl, hexec, rfl⟩ | ⟨hframe, -⟩
      · have hmem : Request.call (.conditionWait c o) ∈ rs :=
          mem_requests_call.mp (hgs ▸ List.mem_append_right _ List.mem_cons_self)
        obtain ⟨x, n, isDeleted, entry, rfl, -, -, -, rfl⟩ :=
          asks_conditionWait (userExec_asks hexec) hmem
        exact ⟨(clientStep_of_stepAt hat).currentThread.symm,
          eq_nil_of_cons_eq hgs (by simp [Request.frame])⟩
      · refine absurd ?_ ((pushes_calls hframe hat.pushes).1 c o)
        rw [hgs]
        simp

theorem Momentary.asking_step (h : Momentary s) (hs : Orderly s)
    (hat : Kernel.StepAt userClient choice s s' frame rest gs) :
    ∀ t above n l below, s'.stack t = above ++ .call (.lockAcquire l) :: below →
      index? s'.client.lockObjects n = some l → t = s'.currentThread ∧ above = [] ∧
        (s'.client.lockAt n = some l ∨ .client (.waitTail n) ∈ below) := by
  intro t above n l below hstack hobject
  -- a lock that is created by the step is not asked for yet
  have hobject_of_lt : l < s.client.nextLock → index? s.client.lockObjects n = some l := by
    intro hlt
    rcases stepAt_cases hat with ⟨k, rs, -, hexec, -⟩ | ⟨-, hclient⟩
    · rcases (userExec_lockTable hexec).objects with hsame | ⟨-, hnew⟩
      · exact hsame ▸ hobject
      · rw [hnew] at hobject
        rcases index?_append_cases hobject with hold | ⟨-, habs⟩
        · exact hold
        · exact absurd habs (Nat.ne_of_lt hlt)
    · exact hclient ▸ hobject
  cases hat.origin hstack with
  | other ht hold =>
      have hlt : l < s.client.nextLock := (hold ▸ hs.ordered t).over.1
      exact absurd (h.asking t above n l below hold (hobject_of_lt hlt)).1 ht
  | root ht body hframe hmem => simp [Kernel.rootFrames] at hmem
  | below ht later habove hrest =>
      subst ht
      have hcons : s.stack s.currentThread =
          (frame :: later) ++ .call (.lockAcquire l) :: below := by
        rw [hat.stack, hrest]
        rfl
      have hlt : l < s.client.nextLock := (hcons ▸ hs.ordered s.currentThread).over.1
      exact absurd (h.asking _ _ n l below hcons (hobject_of_lt hlt)).2.1 (by simp)
  | pushed ht later hgs hbelow =>
      subst ht
      have hmem : Frame.call (.lockAcquire l) ∈ gs := by
        rw [hgs]
        simp
      rcases stepAt_cases hat with ⟨k, rs, rfl, hexec, rfl⟩ | ⟨hframe, hclient⟩
      · have hrequest := mem_requests_call.mp hmem
        have hlt : l < s.client.nextLock := by
          rcases (userExec_lockTable hexec).objects with hsame | ⟨rfl, -⟩
          · exact hs.sane.object_lt (hsame ▸ hobject)
          · obtain ⟨rv, rfl⟩ := userExec_asks hexec
            simp at hrequest
        obtain ⟨rfl, hentry, rfl⟩ := asks_acquire (s := s.pop) hs.sane (userExec_asks hexec)
          hrequest (hobject_of_lt hlt)
        have htables := userExec_sameTables hexec rfl
        refine ⟨(clientStep_of_stepAt hat).currentThread.symm,
          eq_nil_of_cons_eq hgs (by simp [Request.frame]), Or.inl ?_⟩
        have hsame : s'.client.lockTable = s.client.lockTable := htables.lockTable
        have hold : index? s.client.lockTable n = some ⟨some l, false⟩ := hentry
        rw [Userland.lockAt, hsame, hold]
        rfl
      · obtain ⟨hsingle, c, rfl⟩ := (pushes_calls hframe hat.pushes).2 l hmem
        rw [hsingle] at hgs
        have habove := eq_nil_of_cons_eq hgs (by simp)
        refine ⟨(currentThread_of_ne hat (by simp) (by simp)).symm, habove, Or.inr ?_⟩
        have hends : EndsWait s.client l rest := (hat.stack ▸ hs.ordered s.currentThread).1
        obtain ⟨m, hm, htail⟩ := hends
        have hnm : m = n := by
          rw [hclient] at hobject
          exact index?_injective hs.sane.lock_nodup hm hobject
        rw [hbelow]
        exact List.mem_append_right _ (hnm ▸ htail)

/-- Every step keeps these program points to `currentThread`. -/
theorem Momentary.step (h : Momentary s) (hs : Orderly s)
    (hat : Kernel.StepAt userClient choice s s' frame rest gs) : Momentary s' :=
  ⟨h.passing_step hs hat, h.waiting_step hat, h.asking_step hs hat⟩

theorem momentary_boot (pid : ThreadId → Int) : Momentary (userBoot pid) := by
  have hframes : ∀ t f, f ∈ (userBoot pid).stack t →
      f = .setLevel .intOn ∨ f = .client .startProcess ∨ f = .call .threadFinish := by
    intro t f hf
    by_cases ht : t = 0
    · simpa [userBoot, Kernel.boot, ht] using hf
    · simp [userBoot, Kernel.boot, ht] at hf
  constructor
  · intro t above x n below hstack
    have hf := hframes t (.client (.waitBody x n)) (by rw [hstack]; simp)
    simp at hf
  · intro t above c o below hstack
    have hf := hframes t (.call (.conditionWait c o)) (by rw [hstack]; simp)
    simp at hf
  · intro t above n l below hstack
    have hf := hframes t (.call (.lockAcquire l)) (by rw [hstack]; simp)
    simp at hf

theorem UserReachable.momentary (h : UserReachable s) : Momentary s := by
  obtain ⟨pid, hrun⟩ := h
  have hend := (orderly_boot pid).invariant (P := Momentary) hrun
    (fun _ _ _ _ _ _ hu _ _ hat hmomentary => hmomentary.step hu hat) (momentary_boot pid)
  exact hend.2

end Momentary

end Userprog
end Nachos
