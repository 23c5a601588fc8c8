import Nachos.Userprog.Stacks

/-!
# System calls with invalid ids

The calls on the lock table and the condition table look at their ids behind the
`Acquire` of the table's lock.  With an invalid id they are to return without a
trace.  `Acquire`, `Release`, `DestroyLock` and `DestroyCV` do.  `Wait`,
`Signal` and `Broadcast` go on to `LockTable[lock].Kernel_Lock->Release()` in
their error branch: that indexes out of bounds or dereferences null when it is
the lock's id that is invalid, and when it is the condition's id it takes the
lock away from a caller that owns it.
-/

namespace Nachos
namespace Userprog

open Threads Lib

/-- An id of the call is out of range or names an entry whose object is null. -/
def Syscall.Invalid (u : Userland) : Syscall → Prop
  | .acquire n => u.lockAt n = none
  | .release n => u.lockAt n = none
  | .destroyLock n => u.lockAt n = none
  | .destroyCV n => u.cvAt n = none
  | .wait x lock => u.cvAt x = none ∨ u.lockAt lock = none
  | .signal y a => u.cvAt y = none ∨ u.lockAt a = none
  | .broadcast z b => u.cvAt z = none ∨ u.lockAt b = none
  | _ => False

/-- The lock id whose lock the error branch releases. -/
def Syscall.releasedOnError : Syscall → Option Int
  | .wait _ lock => some lock
  | .signal _ a => some a
  | .broadcast _ b => some b
  | _ => none

/-- The error branch finds a lock to release, and the caller does not own it. -/
def Syscall.Tolerates (s : UserKernel) (call : Syscall) : Prop :=
  ∀ a, call.releasedOnError = some a →
    ∃ l, s.client.lockAt a = some l ∧ (s.lock l).owner ≠ some s.currentThread

/-- Nothing but lock `g` differs among the tables, the locks and the
conditions. -/
structure Untouched (g : LockId) (s s' : UserKernel) : Prop where
  lockTable : s'.client.lockTable = s.client.lockTable
  cvTable : s'.client.cvTable = s.client.cvTable
  lock : ∀ l, l ≠ g → s'.lock l = s.lock l
  condition : s'.condition = s.condition

/-- The next step does not fault and touches nothing but lock `g`. -/
def Spares (g : LockId) (s : UserKernel) : Prop :=
  ∀ choice, (∀ stop, s.step userClient choice = .error stop →
      stop ≠ .outOfBounds ∧ stop ≠ .nullDereference) ∧
    ∀ s', s.step userClient choice = .ok s' → Untouched g s s'

/-- No step of the rest of a call of thread `t` faults or touches anything but
lock `g`, which it gives back. -/
structure Harmless (g : LockId) (t : ThreadId) (base : List (Frame UserFrame))
    (s : UserKernel) : Prop where
  spares : ∀ u, Kernel.Run userClient (fun v _ => v.Inside t base) s u → u.Inside t base →
    u.currentThread = t → Spares g u
  givesBack : ∀ u, Kernel.Run userClient (fun v _ => v.Inside t base) s u →
    u.stack t = base → (u.lock g).owner ≠ some t

section Checks

variable {s s' : UserKernel} {g : LockId} {k : UserFrame} {call : Syscall}

/-- The rest of the error branch behind the `Release` of the table's lock. -/
def Syscall.errorExit (call : Syscall) : UserFrame :=
  match call.releasedOnError with
  | some a => .releaseOnError a
  | none => .sysReturn 0

/-- The check of an invalid id leads to the error branch and changes nothing. -/
theorem check_invalid (hcall : call.enters s = some (g, k))
    (hinvalid : call.Invalid s.client) (input : Input) :
    userExec input k s = .ok (s.client,
      [.call (.lockRelease g), .client call.errorExit]) := by
  have hlock : ∀ n, s.client.lockAt n = none → ∀ l isDeleted,
      index? s.client.lockTable n ≠ some ⟨some l, isDeleted⟩ := by
    intro n hn l isDeleted hentry
    simp [Userland.lockAt, hentry] at hn
  have hcv : ∀ n, s.client.cvAt n = none → ∀ c isDeleted,
      index? s.client.cvTable n ≠ some ⟨some c, isDeleted⟩ := by
    intro n hn c isDeleted hentry
    simp [Userland.cvAt, hentry] at hn
  cases call <;> simp only [Syscall.Invalid] at hinvalid <;>
    simp only [Syscall.enters, Option.some.injEq, Prod.mk.injEq] at hcall <;>
    obtain ⟨rfl, rfl⟩ := hcall
  case acquire n =>
    simp only [userExec, acquireCheck]
    split
    · rename_i l hentry
      exact absurd hentry (hlock n hinvalid l false)
    · rfl
  case release n =>
    simp only [userExec, releaseCheck, hinvalid]
    rfl
  case destroyLock n =>
    simp only [userExec, destroyLockBody]
    split
    · rename_i l isDeleted hentry
      exact absurd hentry (hlock n hinvalid l isDeleted)
    · rfl
  case destroyCV n =>
    simp only [userExec, destroyCVBody]
    split
    · rename_i c isDeleted hentry
      exact absurd hentry (hcv n hinvalid c isDeleted)
    · rfl
  case wait x lock =>
    simp only [userExec, waitCheck]
    split
    · rename_i c l hc hl
      simp [hc, hl] at hinvalid
    · rfl
  case signal y a =>
    simp only [userExec, signalCheck]
    split
    · rename_i c l hc hl
      simp [hc, hl] at hinvalid
    · rfl
  case broadcast z b =>
    simp only [userExec, broadcastCheck]
    split
    · rename_i c l hc hl
      simp [hc, hl] at hinvalid
    · rfl

end Checks

section Phases

variable {choice : Choice Input} {s s' : UserKernel} {frame : Frame UserFrame}
  {rest gs base pending : List (Frame UserFrame)} {g l : LockId} {t : ThreadId}

/-- A step changes a lock by an `Acquire` or a `Release` of it only, and a
condition by an operation on a condition. -/
theorem untouched_of_frame (hat : Kernel.StepAt userClient choice s s' frame rest gs)
    (hlockTable : s'.client.lockTable = s.client.lockTable)
    (hcvTable : s'.client.cvTable = s.client.cvTable)
    (hlock : ∀ l, l ≠ g → frame ≠ .call (.lockAcquire l) ∧ frame ≠ .call (.lockRelease l))
    (hcondition : ∀ c o l, frame ≠ .call (.conditionWait c o) ∧
      frame ≠ .call (.conditionSignal c o) ∧ frame ≠ .waitAppend c l) :
    Untouched g s s' := by
  refine ⟨hlockTable, hcvTable, ?_, ?_⟩
  · intro l hl
    cases hat.lock l with
    | same hsame events hadds hquiet => exact hsame
    | taken hframe howner havailable hsame hadds => exact absurd hframe (hlock l hl).1
    | queued hframe howner havailable hsame hadds => exact absurd hframe (hlock l hl).1
    | granted x later hframe howner hwaiting hsame hadds => exact absurd hframe (hlock l hl).2
    | freed hframe howner hwaiting hsame hadds => exact absurd hframe (hlock l hl).2
  · funext c
    cases hat.condition c with
    | same hsame events hadds hquiet => exact hsame
    | bound l hframe hfree hsame hadds => exact absurd hframe (hcondition c _ l).1
    | queued l hframe hsame hadds => exact absurd hframe (hcondition c none l).2.2
    | woken x later hframe hwaiting hsame hadds => exact absurd hframe (hcondition c _ 0).2.1

/-- What is behind the `Release` of the table's lock releases nothing that
thread `t` owns. -/
def Clears (g : LockId) (t : ThreadId) (s : UserKernel) (k : UserFrame) : Prop :=
  k = .sysReturn 0 ∨ ∃ a l, k = .releaseOnError a ∧ s.client.lockAt a = some l ∧ l ≠ g ∧
    (s.lock l).owner ≠ some t

theorem Clears.of_untouched {k : UserFrame} (h : Clears g t s k) (hsame : Untouched g s s') :
    Clears g t s' k := by
  rcases h with rfl | ⟨a, l, rfl, hlock, hl, howner⟩
  · exact Or.inl rfl
  · refine Or.inr ⟨a, l, rfl, ?_, hl, (hsame.lock l hl) ▸ howner⟩
    rw [Userland.lockAt, hsame.lockTable]
    exact hlock

/-- The phases of a harmless error branch.  The thread runs through them without
a switch: the `Release` of the table's lock leaves interrupts off. -/
inductive ErrorPhase (g : LockId) (t : ThreadId) (pending : List (Frame UserFrame))
    (s : UserKernel) : Prop
  | checking (k k' : UserFrame) (hpending : pending = [.client k])
      (hexec : ∀ input, userExec input k s.pop = .ok (s.client,
        [.call (.lockRelease g), .client k']))
      (howner : (s.lock g).owner = some t) (hclears : Clears g t s k')
  | releasing (k : UserFrame) (hpending : pending = [.call (.lockRelease g), .client k])
      (howner : (s.lock g).owner = some t) (hclears : Clears g t s k)
  | leaving (k : UserFrame) (hpending : pending = [.client k])
      (hlevel : s.level = .intOff) (howner : (s.lock g).owner ≠ some t)
      (hclears : Clears g t s k)
  | unheld (l : LockId)
      (hpending : pending = [.call (.lockRelease l), .client (.sysReturn 0)])
      (hlevel : s.level = .intOff) (howner : (s.lock g).owner ≠ some t)
      (hother : (s.lock l).owner ≠ some t)
  | restoring (hpending : pending = [.setLevel .intOff, .client (.sysReturn 0)])
      (hlevel : s.level = .intOff) (howner : (s.lock g).owner ≠ some t)
  | returned (hpending : pending = []) (howner : (s.lock g).owner ≠ some t)

theorem untouched_of_client {k : UserFrame}
    (hat : Kernel.StepAt userClient choice s s' (.client k) rest gs)
    (hlockTable : s'.client.lockTable = s.client.lockTable)
    (hcvTable : s'.client.cvTable = s.client.cvTable) : Untouched g s s' := by
  have hclient := clientStep_of_stepAt hat
  exact ⟨hlockTable, hcvTable, fun l _ => congrFun hclient.lock l, hclient.condition⟩

/-- What a step of the error branch does. -/
structure ErrorPhase.Step (g : LockId) (t : ThreadId) (pending : List (Frame UserFrame))
    (s s' : UserKernel) : Prop where
  phase : ErrorPhase g t pending s'
  current : s'.currentThread = t
  untouched : Untouched g s s'

/-- The thread's own steps carry the error branch from phase to phase. -/
theorem ErrorPhase.self (h : ErrorPhase g t (frame :: rest) s) (hwf : s.WellFormed)
    (hcurrent : s.currentThread = t)
    (hat : Kernel.StepAt userClient choice s s' frame (rest ++ base) gs) :
    ErrorPhase.Step g t (gs ++ rest) s s' := by
  subst hcurrent
  cases h with
  | checking k k' hpending hexec howner hclears =>
      obtain ⟨rfl, rfl⟩ := List.cons.inj hpending
      have hclient := clientStep_of_stepAt hat
      rcases stepAt_cases hat with ⟨k₀, rs, hframe, hok, rfl⟩ | ⟨hframe, -⟩
      · obtain rfl := Frame.client.inj hframe
        rw [hexec] at hok
        obtain rfl := answer_ok hok.symm
        have hstate := answer_state hok.symm
        have hsame : Untouched g s s' :=
          untouched_of_client hat (by rw [hstate]) (by rw [hstate])
        exact ⟨.releasing k' rfl (hclient.lock ▸ howner) (hclears.of_untouched hsame),
          hclient.currentThread, hsame⟩
      · exact absurd rfl (hframe k)
  | releasing k hpending howner hclears =>
      obtain ⟨rfl, rfl⟩ := List.cons.inj hpending
      obtain ⟨rfl, hlevel, hcurrent⟩ := hat.release_held howner
      have hsame : Untouched g s s' := by
        rcases stepAt_cases hat with ⟨k₀, rs, hframe, -, -⟩ | ⟨-, hclient⟩
        · exact absurd hframe (by simp)
        · refine untouched_of_frame hat (by rw [hclient]) (by rw [hclient]) ?_ (by simp)
          intro l hl
          exact ⟨by simp, by simpa using Ne.symm hl⟩
      exact ⟨.leaving k rfl hlevel (hat.released hwf).1 (hclears.of_untouched hsame),
        hcurrent, hsame⟩
  | leaving k hpending hlevel howner hclears =>
      obtain ⟨rfl, rfl⟩ := List.cons.inj hpending
      have hclient := clientStep_of_stepAt hat
      rcases stepAt_cases hat with ⟨k₀, rs, hframe, hok, rfl⟩ | ⟨hframe, -⟩
      · obtain rfl := Frame.client.inj hframe
        have htables := userExec_sameTables hok (by
          rcases hclears with rfl | ⟨a, l, rfl, -⟩
          · rfl
          · rfl)
        refine ⟨?_, hclient.currentThread,
          untouched_of_client hat htables.lockTable htables.cvTable⟩
        rcases hclears with rfl | ⟨a, l, rfl, hlock, hl, hother⟩
        · rw [show rs = [] from userExec_asks hok]
          exact .returned rfl (hclient.lock ▸ howner)
        · obtain ⟨l', hl', rfl⟩ := userExec_asks hok
          obtain rfl : l' = l := Option.some.inj (hl'.symm.trans hlock)
          exact .unheld l' rfl (hclient.level.trans hlevel) (hclient.lock ▸ howner)
            (hclient.lock ▸ hother)
      · exact absurd rfl (hframe k)
  | unheld l hpending hlevel howner hother =>
      obtain ⟨rfl, rfl⟩ := List.cons.inj hpending
      obtain ⟨rfl, hlevel', hcurrent, hlock⟩ := hat.release_unheld hother
      rw [hlevel]
      refine ⟨.restoring rfl hlevel' (hlock ▸ howner), hcurrent, ?_⟩
      rcases stepAt_cases hat with ⟨k₀, rs, hframe, -, -⟩ | ⟨-, hclient⟩
      · exact absurd hframe (by simp)
      · have huntouched : Untouched l s s' := by
          refine untouched_of_frame hat (by rw [hclient]) (by rw [hclient]) ?_ (by simp)
          intro l' hl'
          exact ⟨by simp, by simpa using Ne.symm hl'⟩
        exact ⟨huntouched.lockTable, huntouched.cvTable, fun l' _ => congrFun hlock l',
          huntouched.condition⟩
  | restoring hpending hlevel howner =>
      obtain ⟨rfl, rfl⟩ := List.cons.inj hpending
      have hs' : s.pop.setLevel .intOff = s' := Except.ok.inj hat.exec
      have heq : s' = s.pop.changeLevel .intOff := by
        rw [← hs', Kernel.setLevel, if_neg (by simp)]
      have hgs : gs = [] := by
        rcases hat.pushes with hnil | ⟨habs, -⟩
        · exact hnil
        · exact absurd habs (by simp)
      refine ⟨?_, by rw [heq]; rfl, ?_⟩
      · rw [hgs]
        refine .leaving (.sysReturn 0) rfl ?_ ?_ (Or.inl rfl)
        · rw [heq]
          rfl
        · rw [heq]
          exact howner
      · rw [heq]
        exact ⟨rfl, rfl, fun _ _ => rfl, rfl⟩
  | returned hpending howner => exact absurd hpending (by simp)

/-- No step of a harmless error branch faults. -/
theorem ErrorPhase.no_fault (h : ErrorPhase g t pending s) (hcurrent : s.currentThread = t)
    (hstack : s.stack t = pending ++ base) (hne : pending ≠ []) {stop : Stop}
    (hstop : s.step userClient choice = .error stop) : False := by
  subst hcurrent
  have hclientStep : ∀ k state rs, s.stack s.currentThread = [.client k] ++ base →
      userExec choice.input k s.pop = .ok (state, rs) → False := by
    intro k state rs hk hok
    have htop : s.top = some (.client k) := by
      rw [Kernel.top, hk]
      rfl
    simp [Kernel.step, htop, Kernel.exec, userClient, hok] at hstop
  have hcall : ∀ op below, s.stack s.currentThread = .call op :: below → False := by
    intro op below hop
    have htop : s.top = some (.call op) := by
      rw [Kernel.top, hop]
      rfl
    simp [Kernel.step, htop, Kernel.exec] at hstop
  cases h with
  | checking k k' hpending hexec howner hclears =>
      exact hclientStep k _ _ (hpending ▸ hstack) (hexec _)
  | releasing k hpending howner hclears => exact hcall _ _ (hpending ▸ hstack)
  | leaving k hpending hlevel howner hclears =>
      rcases hclears with rfl | ⟨a, l, rfl, hlock, hl, hother⟩
      · exact hclientStep _ _ _ (hpending ▸ hstack) rfl
      · refine hclientStep _ s.client [.call (.lockRelease l), .client (.sysReturn 0)]
          (hpending ▸ hstack) ?_
        obtain ⟨entry, hentry, hsome⟩ := Option.bind_eq_some_iff.mp hlock
        obtain ⟨kernelLock, isDeleted⟩ := entry
        obtain rfl : kernelLock = some l := hsome
        have hindex : index? s.pop.client.lockTable a = some ⟨some l, isDeleted⟩ := hentry
        simp [userExec, releaseOnError, hindex]
        rfl
  | unheld l hpending hlevel howner hother => exact hcall _ _ (hpending ▸ hstack)
  | restoring hpending hlevel howner =>
      have htop : s.top = some (.setLevel .intOff) := by
        rw [Kernel.top, hstack, hpending]
        rfl
      simp [Kernel.step, htop, Kernel.exec] at hstop
  | returned hpending howner => exact hne hpending

theorem Syscall.enters_pop (s : UserKernel) (call : Syscall) :
    call.enters s.pop = call.enters s := by
  cases call <;> rfl

/-- The table calls take a table's lock. -/
theorem Syscall.Invalid.isTableLock {u : Userland} {call : Syscall} {k : UserFrame}
    (hinvalid : call.Invalid u) (hcall : call.enters s = some (g, k)) : isTableLock g := by
  cases call <;> simp only [Syscall.Invalid] at hinvalid <;>
    simp only [Syscall.enters, Option.some.injEq, Prod.mk.injEq] at hcall <;>
    obtain ⟨rfl, -⟩ := hcall <;> decide

theorem Syscall.Tolerates.clears {call : Syscall} (h : call.Tolerates s) (hs : Grounded s)
    (hg : isTableLock g) : Clears g s.currentThread s call.errorExit := by
  unfold Syscall.errorExit
  split
  · rename_i a ha
    obtain ⟨l, hlock, howner⟩ := h a ha
    refine Or.inr ⟨a, l, rfl, hlock, ?_, howner⟩
    rintro rfl
    exact (hs.sane.not_isGlobal (hs.sane.lockAt_object hlock)).2 hg
  · exact Or.inl rfl

/-- A call that tolerates its invalid id is harmless. -/
theorem harmless_of_tolerates {call : Syscall} {k : UserFrame}
    (hcall : call.enters s = some (g, k)) (hs : Grounded s)
    (howner : (s.lock g).owner = some s.currentThread)
    (hstack : s.stack s.currentThread = .client k :: base)
    (hinvalid : call.Invalid s.client) (h : call.Tolerates s) :
    Harmless g s.currentThread base s := by
  have hphase : ErrorPhase g s.currentThread [.client k] s := by
    refine .checking k _ rfl (fun input => ?_) howner
      (h.clears hs (hinvalid.isTableLock hcall))
    exact check_invalid ((Syscall.enters_pop s call).trans hcall) hinvalid input
  -- all along the call the thread is in one of the phases, and no other thread runs
  have hall : ∀ u, Kernel.Run userClient (fun v _ => v.Inside s.currentThread base) s u →
      ∃ pending, u.stack s.currentThread = pending ++ base ∧
        ErrorPhase g s.currentThread pending u ∧ u.currentThread = s.currentThread := by
    intro u hrun
    refine Kernel.Run.call_invariant (Q := fun pending v =>
      ErrorPhase g s.currentThread pending v ∧ v.currentThread = s.currentThread) ?_ ?_
      hs.wellFormed hs.wellFormed.current_lt hrun hstack ⟨hphase, rfl⟩
    · rintro v w choice frame rest gs hwf - hcurrent hat ⟨hv, -⟩
      have hstep := hv.self hwf hcurrent hat
      exact ⟨hstep.phase, hstep.current⟩
    · rintro v w choice frame rest gs pending - - - hcurrent - ⟨-, habs⟩
      exact absurd habs hcurrent
  constructor
  · rintro u hrun ⟨inside, hne, hinside⟩ hcurrent choice
    obtain ⟨pending, hpending, hu, -⟩ := hall u hrun
    obtain rfl : inside = pending := List.append_cancel_right (hinside.symm.trans hpending)
    constructor
    · intro stop hstop
      exact (hu.no_fault hcurrent hpending hne hstop).elim
    · intro v hstep
      have hwf := hrun.wellFormed hs.wellFormed
      cases inside with
      | nil => exact absurd rfl hne
      | cons frame rest =>
          obtain ⟨gs, hat⟩ := stepAt_of_stack hwf (hcurrent ▸ hpending) hstep
          exact (hu.self hwf hcurrent hat).untouched
  · intro u hrun hreturned
    obtain ⟨pending, hpending, hu, -⟩ := hall u hrun
    rw [hreturned] at hpending
    obtain rfl : pending = [] := List.self_eq_append_left.mp hpending
    cases hu with
    | checking k k' hpending hexec howner hclears => exact absurd hpending (by simp)
    | releasing k hpending howner hclears => exact absurd hpending (by simp)
    | leaving k hpending hlevel howner hclears => exact absurd hpending (by simp)
    | unheld l hpending hlevel howner hother => exact absurd hpending (by simp)
    | restoring hpending hlevel howner => exact absurd hpending (by simp)
    | returned hpending howner => exact howner

/-- A harmless call tolerates its invalid id: the error branch is followed up to
the `Release` of the lock. -/
theorem tolerates_of_harmless {call : Syscall} {k : UserFrame}
    (hcall : call.enters s = some (g, k)) (hs : Grounded s)
    (howner : (s.lock g).owner = some s.currentThread)
    (hstack : s.stack s.currentThread = .client k :: base)
    (hinvalid : call.Invalid s.client) (h : Harmless g s.currentThread base s) :
    call.Tolerates s := by
  intro a ha
  have hinside : ∀ u : UserKernel, ∀ f fs, u.stack s.currentThread = f :: fs ++ base →
      u.Inside s.currentThread base := fun u f fs hu => ⟨f :: fs, by simp, hu⟩
  have hexit : call.errorExit = .releaseOnError a := by
    simp [Syscall.errorExit, ha]
  let choice : Choice Input := doing .instruction
  -- the check
  have hcheck := check_invalid ((Syscall.enters_pop s call).trans hcall) hinvalid choice.input
  obtain ⟨s₁, h₁, hclient₁, hat₁⟩ := exists_step_client hs.wellFormed hstack hcheck
  have hsame₁ := clientStep_of_stepAt hat₁
  have hs₁ := hs.step h₁
  have hstack₁ : s₁.stack s₁.currentThread =
      .call (.lockRelease g) :: .client (.releaseOnError a) :: base := by
    rw [hsame₁.currentThread, hat₁.stack_self, hexit]
    rfl
  -- the `Release` of the table's lock
  obtain ⟨s₂, gs, h₂, hat₂⟩ := exists_step_call hs₁.wellFormed choice hstack₁
  have howner₁ : (s₁.lock g).owner = some s₁.currentThread := by
    rw [hsame₁.lock, hsame₁.currentThread]
    exact howner
  obtain ⟨rfl, -, hcurrent₂⟩ := hat₂.release_held howner₁
  have hs₂ := hs₁.step h₂
  have hclient₂ : s₂.client = s.client := by
    rcases stepAt_cases hat₂ with ⟨_, _, hframe, -, -⟩ | ⟨-, hsame⟩
    · exact absurd hframe (by simp)
    · exact hsame.trans hclient₁
  have hcurrent : s₂.currentThread = s.currentThread :=
    hcurrent₂.trans hsame₁.currentThread
  have hstack₂ : s₂.stack s₂.currentThread = .client (.releaseOnError a) :: base := by
    rw [hcurrent₂, hat₂.stack_self]
    rfl
  have hrun₁ : Kernel.Run userClient (fun v _ => v.Inside s.currentThread base) s s₁ :=
    Reach.refl.tail (hinside s _ [] hstack) h₁
  have hinside₁ := hinside s₁ _ [_] (hsame₁.currentThread ▸ hstack₁)
  have hrun₂ := hrun₁.tail hinside₁ h₂
  have hinside₂ := hinside s₂ _ [] (hcurrent ▸ hstack₂)
  have hspares₂ := h.spares s₂ hrun₂ hinside₂ hcurrent choice
  have htop₂ : s₂.top = some (.client (.releaseOnError a)) := by
    rw [Kernel.top, hstack₂, List.head?_cons]
  -- the entry of the lock is there
  obtain ⟨l, hlock⟩ : ∃ l, s.client.lockAt a = some l := by
    by_contra hnone
    have hentry : ∀ l isDeleted,
        index? s₂.pop.client.lockTable a ≠ some ⟨some l, isDeleted⟩ := by
      intro l isDeleted hentry
      refine hnone ⟨l, ?_⟩
      change index? s₂.client.lockTable a = _ at hentry
      rw [hclient₂] at hentry
      simp [Userland.lockAt, hentry]
    have hfault : ∃ stop, s₂.step userClient choice = .error stop ∧
        (stop = .outOfBounds ∨ stop = .nullDereference) := by
      cases hindex : index? s₂.pop.client.lockTable a with
      | none =>
          refine ⟨.outOfBounds, ?_, Or.inl rfl⟩
          simp [Kernel.step, htop₂, Kernel.exec, userClient, userExec, releaseOnError, hindex]
      | some entry =>
          obtain ⟨kernelLock, isDeleted⟩ := entry
          cases kernelLock with
          | some l => exact absurd hindex (hentry l isDeleted)
          | none =>
              refine ⟨.nullDereference, ?_, Or.inr rfl⟩
              simp [Kernel.step, htop₂, Kernel.exec, userClient, userExec, releaseOnError,
                hindex]
    obtain ⟨stop, hstop, hkind⟩ := hfault
    obtain ⟨hbounds, hnull⟩ := hspares₂.1 stop hstop
    exact hkind.elim hbounds hnull
  refine ⟨l, hlock, fun hheld => ?_⟩
  have hl : l ≠ g := by
    rintro rfl
    exact (hs.sane.not_isGlobal (hs.sane.lockAt_object hlock)).2 (hinvalid.isTableLock hcall)
  -- the `Release` of the lock takes it from its owner
  obtain ⟨entry, hentry, hkernelLock⟩ := Option.bind_eq_some_iff.mp hlock
  obtain ⟨kernelLock, isDeleted⟩ := entry
  obtain rfl : kernelLock = some l := hkernelLock
  have hok : userExec choice.input (.releaseOnError a) s₂.pop =
      .ok (s₂.client, [.call (.lockRelease l), .client (.sysReturn 0)]) := by
    have hindex : index? s₂.pop.client.lockTable a = some ⟨some l, isDeleted⟩ := by
      change index? s₂.client.lockTable a = _
      rw [hclient₂]
      exact hentry
    simp only [userExec, releaseOnError, hindex]
    rfl
  obtain ⟨s₃, h₃, -, hat₃⟩ := exists_step_client hs₂.wellFormed hstack₂ hok
  have hsame₃ := clientStep_of_stepAt hat₃
  have hs₃ := hs₂.step h₃
  have hstack₃ : s₃.stack s₃.currentThread =
      .call (.lockRelease l) :: .client (.sysReturn 0) :: base := by
    rw [hsame₃.currentThread, hat₃.stack_self]
    rfl
  obtain ⟨s₄, gs, h₄, hat₄⟩ := exists_step_call hs₃.wellFormed choice hstack₃
  have hcurrent₃ : s₃.currentThread = s.currentThread := hsame₃.currentThread.trans hcurrent
  have huntouched : Untouched g s₃ s₄ := by
    refine (h.spares s₃ (hrun₂.tail hinside₂ h₃) ?_ hcurrent₃ choice).2 s₄ h₄
    exact hinside s₃ _ [_] (hcurrent₃ ▸ hstack₃)
  have hlost := (hat₄.released hs₃.wellFormed).1
  rw [huntouched.lock l hl, hsame₃.lock, hcurrent₃] at hlost
  have hkept : s₂.lock l = s.lock l := by
    have hrelease : Untouched g s₁ s₂ :=
      (h.spares s₁ hrun₁ hinside₁ hsame₁.currentThread choice).2 s₂ h₂
    rw [hrelease.lock l hl, hsame₁.lock]
  exact hlost (hkept ▸ hheld)

/-- The thread is on its way to the check of its ids. -/
def Entering (call : Syscall) (k : UserFrame) (s : UserKernel) : Prop :=
  ∃ base, s.stack s.currentThread = .client (.exceptionHandler call) :: base ∨
    ∃ above, above ≠ [] ∧ s.stack s.currentThread = above ++ .client k :: base

theorem Syscall.Invalid.entered {u : Userland} {call : Syscall} {k : UserFrame}
    (hinvalid : call.Invalid u) (hcall : call.enters s = some (g, k)) :
    k.entered = some g := by
  cases call <;> simp only [Syscall.Invalid] at hinvalid <;>
    simp only [Syscall.enters, Option.some.injEq, Prod.mk.injEq] at hcall <;>
    obtain ⟨rfl, rfl⟩ := hcall <;> rfl

theorem Syscall.Invalid.dispatch {u : Userland} {call : Syscall}
    (hinvalid : call.Invalid u) (input : Input) (s : UserKernel) :
    ∃ rs, userExec input (.exceptionHandler call) s = .ok (s.client, rs) := by
  cases call <;> simp only [Syscall.Invalid] at hinvalid <;> exact ⟨_, rfl⟩

/-- The kernel frames of an `Acquire` do not fault. -/
theorem quiet_no_fault (hframe : frame.isQuiet = true ∨ ∃ op, frame = .call op)
    (hstack : s.stack s.currentThread = frame :: rest) {stop : Stop}
    (hstop : s.step userClient choice = .error stop) :
    stop ≠ .outOfBounds ∧ stop ≠ .nullDereference := by
  have htop : s.top = some frame := by
    rw [Kernel.top, hstack, List.head?_cons]
  have hexec : s.pop.exec userClient choice frame = .error stop := by
    simpa [Kernel.step, htop] using hstop
  cases frame with
  | call op => exact absurd hexec (by simp [Kernel.exec])
  | sleep =>
      simp only [Kernel.exec, Kernel.threadSleep] at hexec
      split at hexec
      · exact absurd hexec (by simp)
      · obtain rfl := Except.error.inj hexec
        simp
  | sleepLoop =>
      simp only [Kernel.exec, Kernel.sleepLoop] at hexec
      repeat' split at hexec
      all_goals first
        | (obtain rfl := Except.error.inj hexec; simp)
        | simp at hexec
  | afterSwitch =>
      simp only [Kernel.exec, Kernel.afterSwitch] at hexec
      repeat' split at hexec
      all_goals first
        | (obtain rfl := Except.error.inj hexec; simp)
        | simp at hexec
  | setLevel now => exact absurd hexec (by simp [Kernel.exec])
  | oneTick => exact absurd hexec (by simp [Kernel.exec])
  | setStatus m => exact absurd hexec (by simp [Kernel.exec])
  | _ => simp [Frame.isQuiet] at hframe

/-- On the way to the check nothing but the table's lock is touched. -/
theorem Entering.spares {u : Userland} {call : Syscall} {k : UserFrame}
    (hinvalid : call.Invalid u) {s₀ : UserKernel} (hcall : call.enters s₀ = some (g, k))
    (hs : Orderly s) (h : Entering call k s) : Spares g s := by
  intro choice
  obtain ⟨base, hstack | ⟨above, hne, hstack⟩⟩ := h
  · obtain ⟨rs, hok⟩ := hinvalid.dispatch choice.input s.pop
    obtain ⟨v, hv, hclient, hat⟩ := exists_step_client hs.wellFormed hstack hok
    rw [hv]
    refine ⟨fun stop hstop => absurd hstop (by simp), fun s' hs' => ?_⟩
    obtain rfl := Except.ok.inj hs'
    exact untouched_of_client hat (by rw [hclient]; rfl) (by rw [hclient]; rfl)
  · have hacquiring := hs.holding _ above k base g hstack (hinvalid.entered hcall)
    cases above with
    | nil => exact absurd rfl hne
    | cons frame above =>
        have hframe : frame.isQuiet = true ∨ frame = .call (.lockAcquire g) := by
          rcases hacquiring.phase with ⟨below, hcons, -⟩ | ⟨hquiet, -⟩
          · exact Or.inr (List.cons.inj hcons).1
          · exact Or.inl (hquiet frame List.mem_cons_self)
        constructor
        · intro stop hstop
          exact quiet_no_fault (hframe.imp_right fun hcall => ⟨_, hcall⟩) hstack hstop
        · intro s' h'
          obtain ⟨gs, hat⟩ := stepAt_of_stack hs.wellFormed hstack h'
          rcases stepAt_cases hat with ⟨k', rs, rfl, -, -⟩ | ⟨-, hclient⟩
          · simp [Frame.isQuiet] at hframe
          · refine untouched_of_frame hat (by rw [hclient]) (by rw [hclient]) ?_ ?_
            · rintro l hl
              rcases hframe with hquiet | rfl
              · constructor
                · rintro rfl
                  simp [Frame.isQuiet] at hquiet
                · rintro rfl
                  simp [Frame.isQuiet] at hquiet
              · exact ⟨by simpa using Ne.symm hl, by simp⟩
            · intro c o l
              rcases hframe with hquiet | rfl
              · refine ⟨?_, ?_, ?_⟩
                · rintro rfl
                  simp [Frame.isQuiet] at hquiet
                · rintro rfl
                  simp [Frame.isQuiet] at hquiet
                · rintro rfl
                  simp [Frame.isQuiet] at hquiet
              · simp

/-- Up to the check of its ids a table call touches nothing but the table's
lock.  From the check on, with an invalid id, it is harmless if and only if it
is not one of `Wait`, `Signal` and `Broadcast`, or the lock id is valid and the
caller does not own the lock.  The tables, the ids and the other threads are
arbitrary. -/
theorem invalidId_harmless_iff {call : Syscall} {k : UserFrame}
    (hcall : call.enters s = some (g, k)) (hinvalid : call.Invalid s.client) (hs : Grounded s)
    (howner : (s.lock g).owner = some s.currentThread)
    (hstack : s.stack s.currentThread = .client k :: base) :
    (∀ u, UserReachable u → Entering call k u → Spares g u) ∧
      (Harmless g s.currentThread base s ↔ call.Tolerates s) := by
  refine ⟨fun u hu h => h.spares hinvalid hcall hu.orderly, ?_, ?_⟩
  · exact tolerates_of_harmless hcall hs howner hstack hinvalid
  · exact harmless_of_tolerates hcall hs howner hstack hinvalid

end Phases

/-- `Acquire(5)` with an empty lock table is harmless. -/
theorem invalidId_harmless_iff_acquire :
    ∃ s, UserReachable s ∧ s.stack 0 = .client (.acquireCheck 5) :: mainLoop ∧
      Harmless lockTableLock 0 mainLoop s := by
  obtain ⟨s, hreach, hcurrent, hstack, hnone, howner⟩ :=
    exists_userReachable
      (P := fun s => s.currentThread = 0 ∧
        s.stack 0 = .client (.acquireCheck 5) :: mainLoop ∧ s.client.lockAt 5 = none ∧
        (s.lock lockTableLock).owner = some 0)
      (fun _ => 0) (startup ++ calling (.acquire 5) 5) (by decide +kernel)
  have hcall : (Syscall.acquire 5).enters s = some (lockTableLock, .acquireCheck 5) := rfl
  have hiff := invalidId_harmless_iff hcall hnone hreach.orderly.toGrounded
    (hcurrent ▸ howner) (hcurrent ▸ hstack)
  rw [hcurrent] at hiff
  exact ⟨s, hreach, hstack, hiff.2.mpr fun a ha => by simp [Syscall.releasedOnError] at ha⟩

/-- `Wait(0, 7)` with empty tables indexes the lock table out of bounds. -/
theorem invalidId_faults_wait :
    ∃ s s', UserReachable s ∧ s.currentThread = 0 ∧
      s.stack 0 = .client (.exceptionHandler (.wait 0 7)) :: mainLoop ∧
      (Syscall.wait 0 7).Invalid s.client ∧
      Kernel.Run userClient (fun u _ => u.Inside 0 mainLoop) s s' ∧
      s'.step userClient (doing .instruction) = .error .outOfBounds := by
  obtain ⟨s, s', hrun, hcurrent, hstack, hinside, hnone, hfault⟩ :=
    exists_run_inside userClient
      (P := fun s s' => s.client.lockAt 7 = none ∧
        (match s'.step userClient (doing .instruction) with
          | .error .outOfBounds => true
          | _ => false) = true)
      (.client (.exceptionHandler (.wait 0 7))) 0 mainLoop (userBoot fun _ => 0)
      (startup ++ calling (.wait 0 7) 2) (calling (.wait 0 7) 5) (by decide +kernel)
  refine ⟨s, s', ⟨_, hrun⟩, hcurrent, hstack, Or.inr hnone, hinside, ?_⟩
  split at hfault
  · assumption
  · exact absurd hfault (by simp)

end Userprog
end Nachos
