import Mathlib.Data.List.Basic
import Nachos.Threads.Runs

/-!
# Locks

`Lock::Release` hands the lock over while its new owner is still asleep,
`Lock::Acquire` lets the owner through again, and a `Release` by a thread that
does not own the lock does nothing.  Whatever threads do with these calls, also
from inside `Condition::Wait`,

* `available`, `owner` and `waitingThreads` of a lock agree (`LockInvariant`);
* a thread that comes back from `Acquire` owns the lock;
* a thread loses a lock by its own `Release` only;
* the lock is handed over in the order in which threads were appended.
-/

namespace Nachos
namespace Threads

open Lib

variable {κ σ ι : Type}

/-- The frames that an operation leaves behind when its work is done: they
only sleep, tick and restore the interrupt level. -/
def Frame.isQuiet : Frame κ → Bool
  | .call .threadYield => true
  | .setLevel _ => true
  | .oneTick => true
  | .setStatus _ => true
  | .sleep => true
  | .sleepLoop => true
  | .afterSwitch => true
  | _ => false

/-- Quiet frames push quiet frames. -/
theorem Frame.quiet_pushes {frame : Frame κ} {level : IntStatus} {gs : List (Frame κ)}
    (hquiet : frame.isQuiet = true) (h : frame.Pushes level gs) :
    ∀ g ∈ gs, g.isQuiet = true := by
  cases frame with
  | call op =>
      cases op with
      | threadYield =>
          rcases h with rfl | rfl
          · simp [Frame.isQuiet]
          · simp [Frame.isQuiet]
      | _ => simp [Frame.isQuiet] at hquiet
  | setLevel now =>
      rcases h with rfl | ⟨-, rfl⟩
      · simp
      · simp [Frame.isQuiet]
  | oneTick =>
      rcases h with rfl | ⟨m, rfl⟩
      · simp
      · simp [Frame.isQuiet]
  | setStatus m =>
      subst h
      simp
  | sleep =>
      subst h
      simp [Frame.isQuiet]
  | sleepLoop =>
      rcases h with rfl | rfl
      · simp [Frame.isQuiet]
      · simp [Frame.isQuiet]
  | afterSwitch =>
      subst h
      simp
  | _ => simp [Frame.isQuiet] at hquiet

/-- What the code at `frame` may push besides quiet frames. -/
inductive Frame.Pushed : Frame κ → Frame κ → Prop
  | quiet (frame f : Frame κ) (hquiet : f.isQuiet = true) : Pushed frame f
  | check (i : SemaphoreId) : Pushed (.call (.semaphoreP i)) (.whileValueZero i)
  | recheck (i : SemaphoreId) : Pushed (.whileValueZero i) (.whileValueZero i)
  | release (c : ConditionId) (l : LockId) :
      Pushed (.call (.conditionWait c (some l))) (.call (.lockRelease l))
  | append (c : ConditionId) (l : LockId) :
      Pushed (.call (.conditionWait c (some l))) (.waitAppend c l)
  | reacquire (c : ConditionId) (l : LockId) : Pushed (.waitAppend c l) (.waitReacquire c l)
  | acquire (c : ConditionId) (l : LockId) :
      Pushed (.waitReacquire c l) (.call (.lockAcquire l))
  | broadcast (c : ConditionId) (o : Option LockId) :
      Pushed (.call (.conditionBroadcast c o)) (.broadcastLoop c o)
  | signal (c : ConditionId) (o : Option LockId) :
      Pushed (.broadcastLoop c o) (.call (.conditionSignal c o))
  | again (c : ConditionId) (o : Option LockId) :
      Pushed (.broadcastLoop c o) (.broadcastLoop c o)

theorem Frame.pushed_of_pushes {frame f : Frame κ} {level : IntStatus} {gs : List (Frame κ)}
    (hframe : ∀ k, frame ≠ .client k) (h : frame.Pushes level gs) (hf : f ∈ gs) :
    frame.Pushed f := by
  by_cases hquiet : frame.isQuiet = true
  · exact .quiet _ _ (Frame.quiet_pushes hquiet h f hf)
  · cases frame with
    | client k => exact absurd rfl (hframe k)
    | halt => exact absurd h (by simp [Frame.Pushes])
    | whileValueZero i =>
        rcases h with rfl | rfl
        · simp at hf
        · simp only [List.mem_cons, List.not_mem_nil, or_false] at hf
          rcases hf with rfl | rfl
          · exact .quiet _ _ rfl
          · exact .recheck i
    | waitAppend c l =>
        subst h
        simp only [List.mem_cons, List.not_mem_nil, or_false] at hf
        rcases hf with rfl | rfl
        · exact .quiet _ _ rfl
        · exact .reacquire c l
    | waitReacquire c l =>
        subst h
        obtain rfl := List.mem_singleton.mp hf
        exact .acquire c l
    | broadcastLoop c o =>
        rcases h with rfl | rfl
        · simp at hf
        · simp only [List.mem_cons, List.not_mem_nil, or_false] at hf
          rcases hf with rfl | rfl
          · exact .signal c o
          · exact .again c o
    | call op =>
        cases op with
        | semaphoreP i =>
            subst h
            simp only [List.mem_cons, List.not_mem_nil, or_false] at hf
            rcases hf with rfl | rfl
            · exact .check i
            · exact .quiet _ _ rfl
        | conditionWait c conditionLock =>
            rcases h with rfl | ⟨l, rfl, rfl⟩
            · exact .quiet _ _ (by simp_all [Frame.isQuiet])
            · simp only [List.mem_cons, List.not_mem_nil, or_false] at hf
              rcases hf with rfl | rfl | rfl
              · exact .release c l
              · exact .append c l
              · exact .quiet _ _ rfl
        | conditionBroadcast c o =>
            subst h
            obtain rfl := List.mem_singleton.mp hf
            exact .broadcast c o
        | _ =>
            -- the other operations push quiet frames
            refine .quiet _ _ ?_
            simp only [Frame.Pushes] at h
            first
              | (subst h; simp_all [Frame.isQuiet])
              | (rcases h with rfl | rfl <;> simp_all [Frame.isQuiet] <;>
                  rcases hf with rfl | rfl <;> rfl)
    | _ => exact absurd rfl hquiet

/-- Kernel code pushes no client code. -/
theorem Frame.pushes_not_client {frame : Frame κ} {level : IntStatus} {gs : List (Frame κ)}
    (hframe : ∀ k, frame ≠ .client k) (hpushes : frame.Pushes level gs) (k : κ) :
    .client k ∉ gs := by
  intro hmem
  cases Frame.pushed_of_pushes hframe hpushes hmem with
  | quiet _ _ hquiet => simp [Frame.isQuiet] at hquiet

/-- Parked frames leave a frame behind. -/
theorem Frame.parked_pushes_ne_nil {frame : Frame κ} {level : IntStatus}
    {gs : List (Frame κ)} (hparked : frame.isParked = true) (h : frame.Pushes level gs) :
    gs ≠ [] := by
  cases frame with
  | sleep =>
      subst h
      simp
  | sleepLoop =>
      rcases h with rfl | rfl
      · simp
      · simp
  | _ => simp [Frame.isParked] at hparked

/-- Quiet frames touch neither locks nor conditions. -/
theorem Frame.isSynch_of_quiet {frame : Frame κ} (hquiet : frame.isQuiet = true) :
    frame.isSynch = false := by
  cases frame with
  | call op => cases op <;> simp_all [Frame.isQuiet, Frame.isSynch]
  | _ => simp_all [Frame.isQuiet, Frame.isSynch]

namespace Kernel

/-- The fields of a lock agree. -/
structure LockInvariant (s : Kernel κ σ) (l : LockId) : Prop where
  available_iff : (s.lock l).available = true ↔ (s.lock l).owner = none
  available_waiting : (s.lock l).available = true → (s.lock l).waitingThreads = []
  waiting_nodup : (s.lock l).waitingThreads.Nodup
  owner_notMem : ∀ t, (s.lock l).owner = some t → t ∉ (s.lock l).waitingThreads

section Invariant

variable {client : Client κ σ ι} {choice : Choice ι} {s s' : Kernel κ σ}
  {frame : Frame κ} {rest gs : List (Frame κ)} {l : LockId} {t : ThreadId}

theorem lockInvariant_boot (initialValue : SemaphoreId → Int) (state : σ) (main : κ)
    (l : LockId) : (boot initialValue state main).LockInvariant l :=
  ⟨by simp [boot, newLock], by simp [boot, newLock], by simp [boot, newLock],
    by simp [boot, newLock]⟩

theorem WellFormed.waiting_nodup (hwf : s.WellFormed) (l : LockId) :
    (s.lock l).waitingThreads.Nodup :=
  hwf.sound.nodup (.waiting (.lock l))

/-- Every step keeps the fields of a lock in agreement. -/
theorem LockInvariant.step (hinv : s.LockInvariant l) (hwf' : s'.WellFormed)
    (hat : StepAt client choice s s' frame rest gs) : s'.LockInvariant l := by
  have hnodup := hwf'.waiting_nodup l
  cases hat.lock l with
  | same hlock events hadds hquiet =>
      exact ⟨hlock ▸ hinv.available_iff, hlock ▸ hinv.available_waiting, hnodup,
        hlock ▸ hinv.owner_notMem⟩
  | taken hframe howner havailable hlock hadds =>
      have hempty := hinv.available_waiting havailable
      refine ⟨?_, ?_, hnodup, ?_⟩
      · simp [hlock]
      · simp [hlock]
      · simp [hlock, hempty]
  | queued hframe howner havailable hlock hadds =>
      refine ⟨?_, ?_, hnodup, ?_⟩
      · simp [hlock, ← hinv.available_iff, havailable]
      · simp [hlock]
      · intro x hx
        rw [hlock] at hx ⊢
        have hne : x ≠ s.currentThread := fun heq => howner (heq ▸ hx)
        simpa [hne] using hinv.owner_notMem x hx
  | granted x later hframe howner hwaiting hlock hadds =>
      have hbusy : (s.lock l).available = false := by
        rw [← Bool.not_eq_true, hinv.available_iff, howner]
        simp
      refine ⟨?_, ?_, hnodup, ?_⟩
      · simp [hlock, hbusy]
      · simp [hlock, hbusy]
      · intro y hy
        rw [hlock] at hy ⊢
        obtain rfl := Option.some.inj hy
        exact (List.nodup_cons.mp (hwaiting ▸ hinv.waiting_nodup)).1
  | freed hframe howner hwaiting hlock hadds =>
      exact ⟨by simp [hlock], by simp [hlock], hnodup, by simp [hlock]⟩

theorem Reachable.lockInvariant (hreach : Reachable client s) (l : LockId) :
    s.LockInvariant l :=
  hreach.stepAt_invariant (P := fun u => u.LockInvariant l)
    (fun _ _ _ => lockInvariant_boot _ _ _ l)
    fun _ _ _ _ _ _ _ hwf' hat hinv => hinv.step hwf' hat

/-- A thread loses a lock by its own `Release` only. -/
theorem LockInvariant.owner_lost (hinv : s.LockInvariant l)
    (hat : StepAt client choice s s' frame rest gs) (howner : (s.lock l).owner = some t)
    (hlost : (s'.lock l).owner ≠ some t) :
    s.currentThread = t ∧ frame = .call (.lockRelease l) := by
  cases hat.lock l with
  | same hlock events hadds hquiet => exact absurd (hlock ▸ howner) hlost
  | taken hframe hother havailable hlock hadds =>
      have hnone := hinv.available_iff.mp havailable
      rw [hnone] at howner
      exact absurd howner (by simp)
  | queued hframe hother havailable hlock hadds =>
      rw [hlock] at hlost
      exact absurd howner hlost
  | granted x later hframe hcurrent hwaiting hlock hadds =>
      exact ⟨Option.some.inj (hcurrent.symm.trans howner), hframe⟩
  | freed hframe hcurrent hwaiting hlock hadds =>
      exact ⟨Option.some.inj (hcurrent.symm.trans howner), hframe⟩

/-- A thread leaves the waiting list of a lock as its owner only. -/
theorem LockInvariant.waiting_left (hinv : s.LockInvariant l)
    (hat : StepAt client choice s s' frame rest gs) (hmem : t ∈ (s.lock l).waitingThreads) :
    t ∈ (s'.lock l).waitingThreads ∨ (s'.lock l).owner = some t := by
  cases hat.lock l with
  | same hlock events hadds hquiet => exact Or.inl (hlock ▸ hmem)
  | taken hframe hother havailable hlock hadds =>
      rw [hinv.available_waiting havailable] at hmem
      exact absurd hmem (by simp)
  | queued hframe hother havailable hlock hadds =>
      rw [hlock]
      exact Or.inl (List.mem_append_left _ hmem)
  | granted x later hframe hcurrent hwaiting hlock hadds =>
      rw [hwaiting] at hmem
      rw [hlock]
      rcases List.mem_cons.mp hmem with rfl | hlater
      · exact Or.inr rfl
      · exact Or.inl hlater
  | freed hframe hcurrent hwaiting hlock hadds =>
      rw [hwaiting] at hmem
      exact absurd hmem (by simp)

/-- After `Release` the thread does not own the lock, whether it did before or
not. -/
theorem lockRelease_owner (hwf : s.WellFormed) {l : LockId}
    (htop : s.top = some (.call (.lockRelease l))) :
    ((s.pop.lockRelease l).lock l).owner ≠ some s.currentThread := by
  unfold lockRelease
  split
  · split
    · rename_i t later hwaiting
      have hhead : (s.lock l).waitingThreads = t :: later := hwaiting
      simp only [record, readyToRun, setLock, Function.update_self]
      intro heq
      have hmem : s.currentThread ∈ (s.lock l).waitingThreads := by
        rw [hhead, ← Option.some.inj heq]
        exact List.mem_cons_self
      have hparked := hwf.isParked_of_mem htop (.waiting (.lock l)) hmem
      simp [Frame.isParked] at hparked
    · simp [setLock]
  · rename_i howner
    exact howner

/-- A `Release` by the owner makes no further call and leaves interrupts off. -/
theorem StepAt.release_held (hat : StepAt client choice s s' (.call (.lockRelease l)) rest gs)
    (howner : (s.lock l).owner = some s.currentThread) :
    gs = [] ∧ s'.level = .intOff ∧ s'.currentThread = s.currentThread := by
  have hs' : s.pop.lockRelease l = s' := Except.ok.inj hat.exec
  have hheld : s.pop.isHeldByCurrentThread l := howner
  have hsame : s'.stack = s.pop.stack ∧ s'.level = .intOff ∧
      s'.currentThread = s.currentThread := by
    rw [← hs', lockRelease, if_pos hheld]
    split
    · exact ⟨rfl, rfl, rfl⟩
    · exact ⟨rfl, rfl, rfl⟩
  refine ⟨?_, hsame.2⟩
  have hself : s'.stack s.currentThread = [] ++ rest := by
    rw [hsame.1, pop_stack_self, hat.stack]
    rfl
  exact List.append_cancel_right (hat.stack_self.symm.trans hself)

/-- A `Release` by another thread only restores the interrupt level. -/
theorem StepAt.release_unheld
    (hat : StepAt client choice s s' (.call (.lockRelease l)) rest gs)
    (howner : (s.lock l).owner ≠ some s.currentThread) :
    gs = [.setLevel s.level] ∧ s'.level = .intOff ∧ s'.currentThread = s.currentThread ∧
      s'.lock = s.lock := by
  have hs' : s.pop.lockRelease l = s' := Except.ok.inj hat.exec
  have hheld : ¬ s.pop.isHeldByCurrentThread l := howner
  have heq : s' = (s.pop.changeLevel .intOff).push [.setLevel s.level] := by
    rw [← hs', lockRelease, if_neg hheld]
    rfl
  refine ⟨?_, ?_, ?_, ?_⟩
  · have hself : s'.stack s.currentThread = [.setLevel s.level] ++ rest := by
      rw [heq]
      refine hat.stack_of_push ?_ ?_ _
      · rfl
      · rfl
    exact List.append_cancel_right (hat.stack_self.symm.trans hself)
  · rw [heq]
    rfl
  · rw [heq]
    rfl
  · rw [heq]
    rfl

/-- After a `Release` the thread neither owns the lock nor waits for it. -/
theorem StepAt.released (hwf : s.WellFormed)
    (hat : StepAt client choice s s' (.call (.lockRelease l)) rest gs) :
    (s'.lock l).owner ≠ some s.currentThread ∧
      s.currentThread ∉ (s'.lock l).waitingThreads := by
  have hnot : s.currentThread ∉ (s.lock l).waitingThreads := by
    intro hmem
    have hparked := hwf.isParked_of_mem hat.top (.waiting (.lock l)) hmem
    simp [Frame.isParked] at hparked
  constructor
  · have hs' : s.pop.lockRelease l = s' := Except.ok.inj hat.exec
    rw [← hs']
    exact lockRelease_owner hwf hat.top
  · cases hat.lock l with
    | same hlock events hadds hquiet => exact hlock ▸ hnot
    | taken hframe howner havailable hlock hadds => exact absurd hframe (by simp)
    | queued hframe howner havailable hlock hadds => exact absurd hframe (by simp)
    | granted x later hframe howner hwaiting hlock hadds =>
        rw [hlock]
        rw [hwaiting] at hnot
        exact fun hmem => hnot (List.mem_cons_of_mem _ hmem)
    | freed hframe howner hwaiting hlock hadds => simp [hlock]

/-- Whoever owns a lock or waits for it did so before the step, or has just
asked for it. -/
theorem StepAt.claimed (hat : StepAt client choice s s' frame rest gs)
    (h : (s'.lock l).owner = some t ∨ t ∈ (s'.lock l).waitingThreads) :
    ((s.lock l).owner = some t ∨ t ∈ (s.lock l).waitingThreads) ∨
      t = s.currentThread ∧ frame = .call (.lockAcquire l) := by
  cases hat.lock l with
  | same hlock events hadds hquiet => exact Or.inl (hlock ▸ h)
  | taken hframe howner havailable hlock hadds =>
      rw [hlock] at h
      rcases h with hself | hmem
      · exact Or.inr ⟨(Option.some.inj hself).symm, hframe⟩
      · exact Or.inl (Or.inr hmem)
  | queued hframe howner havailable hlock hadds =>
      rw [hlock] at h
      rcases h with hsame | hmem
      · exact Or.inl (Or.inl hsame)
      · rcases List.mem_append.mp hmem with hold | hself
        · exact Or.inl (Or.inr hold)
        · exact Or.inr ⟨List.mem_singleton.mp hself, hframe⟩
  | granted x later hframe howner hwaiting hlock hadds =>
      rw [hlock] at h
      rw [hwaiting]
      rcases h with hgranted | hmem
      · exact Or.inl (Or.inr (Option.some.inj hgranted ▸ List.mem_cons_self))
      · exact Or.inl (Or.inr (List.mem_cons_of_mem _ hmem))
  | freed hframe howner hwaiting hlock hadds =>
      rw [hlock] at h
      simp at h

/-- Threads are given the lock in the order in which they were appended: those
that were appended are those that were given the lock, followed by those that
wait. -/
def GrantedInOrder (s : Kernel κ σ) (l : LockId) : Prop :=
  s.history.filterMap (Event.queuedOn l) =
    s.history.filterMap (Event.grantedOn l) ++ (s.lock l).waitingThreads

theorem filterMap_adds {f : Event → Option ThreadId} {events : List Event}
    (hadds : s.Adds s' events) (hquiet : ∀ e ∈ events, f e = none) :
    s'.history.filterMap f = s.history.filterMap f := by
  have hnone : events.filterMap f = [] := List.filterMap_eq_nil_iff.mpr hquiet
  rw [hadds, List.filterMap_append, hnone, List.append_nil]

theorem GrantedInOrder.step (horder : s.GrantedInOrder l)
    (hat : StepAt client choice s s' frame rest gs) : s'.GrantedInOrder l := by
  unfold GrantedInOrder at horder ⊢
  cases hat.lock l with
  | same hlock events hadds hquiet =>
      rw [filterMap_adds hadds fun e he => (hquiet e he).1,
        filterMap_adds hadds fun e he => (hquiet e he).2, hlock, horder]
  | taken hframe hother havailable hlock hadds =>
      rw [filterMap_adds hadds (by simp), filterMap_adds hadds (by simp), hlock, horder]
  | queued hframe hother havailable hlock hadds =>
      rw [filterMap_adds hadds (f := Event.grantedOn l) (by simp [Event.grantedOn]), hlock,
        hadds, List.filterMap_append, horder]
      simp [Event.queuedOn]
  | granted x later hframe hcurrent hwaiting hlock hadds =>
      rw [filterMap_adds hadds (f := Event.queuedOn l) (by simp [Event.queuedOn]), hlock,
        hadds, List.filterMap_append, horder, hwaiting]
      simp [Event.grantedOn]
  | freed hframe hcurrent hwaiting hlock hadds =>
      rw [filterMap_adds hadds (by simp), filterMap_adds hadds (by simp), hlock, horder,
        hwaiting]

theorem Reachable.grantedInOrder (hreach : Reachable client s) (l : LockId) :
    s.GrantedInOrder l :=
  hreach.stepAt_invariant (P := fun u => u.GrantedInOrder l)
    (fun _ _ _ => by simp [GrantedInOrder, boot, newLock])
    fun _ _ _ _ _ _ _ _ hat horder => horder.step hat

end Invariant

section Acquire

variable {client : Client κ σ ι} {choice : Choice ι} {s s' : Kernel κ σ} {l : LockId}
  {t : ThreadId}

/-- After the first step of `Acquire` the thread owns the lock or waits for
it. -/
theorem lockAcquire_claims (s : Kernel κ σ) (l : LockId) :
    ((s.lockAcquire l).lock l).owner = some s.currentThread ∨
      s.currentThread ∈ ((s.lockAcquire l).lock l).waitingThreads := by
  unfold lockAcquire
  split
  · rename_i howner
    exact Or.inl howner
  · split
    · exact Or.inl (by simp [push, setLock])
    · exact Or.inr (by simp [push, setLock, record])

/-- The thread owns the lock, or waits for it with frames of its call
pending. -/
def Claims (t : ThreadId) (l : LockId) (pending : List (Frame κ)) (s : Kernel κ σ) : Prop :=
  (s.lock l).owner = some t ∨ t ∈ (s.lock l).waitingThreads ∧ pending ≠ []

/-- What is true while `Acquire` is pending above quiet frames: it has not
begun, or it is behind its first step and only quiet frames are left. -/
structure Acquiring (t : ThreadId) (l : LockId) (pending : List (Frame κ))
    (s : Kernel κ σ) : Prop where
  lockInvariant : s.LockInvariant l
  phase : (∃ below, pending = .call (.lockAcquire l) :: below ∧
      ∀ frame ∈ below, frame.isQuiet = true) ∨
    (∀ frame ∈ pending, frame.isQuiet = true) ∧ Claims t l pending s

theorem quiet_append {gs rest : List (Frame κ)} (hgs : ∀ g ∈ gs, g.isQuiet = true)
    (hrest : ∀ g ∈ rest, g.isQuiet = true) : ∀ g ∈ gs ++ rest, g.isQuiet = true := by
  intro g hg
  rcases List.mem_append.mp hg with h | h
  · exact hgs g h
  · exact hrest g h

theorem Acquiring.self {frame : Frame κ} {rest base gs : List (Frame κ)}
    (h : Acquiring t l (frame :: rest) s) (hwf : s.WellFormed) (hwf' : s'.WellFormed)
    (hcurrent : s.currentThread = t)
    (hat : StepAt client choice s s' frame (rest ++ base) gs) :
    Acquiring t l (gs ++ rest) s' := by
  refine ⟨h.lockInvariant.step hwf' hat, Or.inr ?_⟩
  rcases h.phase with ⟨below, hcall, hbelow⟩ | ⟨hquiet, hclaims⟩
  · -- the first step of the call
    obtain ⟨rfl, rfl⟩ := List.cons.inj hcall
    have hclaims := lockAcquire_claims s.pop l
    have hs' : s.pop.lockAcquire l = s' := Except.ok.inj hat.exec
    rw [hs'] at hclaims
    change _ = some s.currentThread ∨ s.currentThread ∈ _ at hclaims
    rw [hcurrent] at hclaims
    have hpushed : (∀ g ∈ gs, g.isQuiet = true) ∧ gs ≠ [] := by
      rcases hat.pushes with rfl | rfl
      · simp [Frame.isQuiet]
      · simp [Frame.isQuiet]
    refine ⟨quiet_append hpushed.1 hbelow, hclaims.imp_right fun hmem => ⟨hmem, ?_⟩⟩
    simp [hpushed.2]
  · have hframe := hquiet frame List.mem_cons_self
    have hlock : s'.lock l = s.lock l :=
      congrFun (exec_neutral hat.exec (Frame.isSynch_of_quiet hframe)).lock l
    refine ⟨?_, ?_⟩
    · exact quiet_append (Frame.quiet_pushes hframe hat.pushes)
        fun g hg => hquiet g (List.mem_cons_of_mem _ hg)
    · rcases hclaims with howner | ⟨hmem, -⟩
      · exact Or.inl (hlock ▸ howner)
      · refine Or.inr ⟨hlock ▸ hmem, ?_⟩
        have hslot : s.currentThread ∈ s.slots (.waiting (.lock l)) := by
          rw [hcurrent]
          exact hmem
        have hparked := hwf.isParked_of_mem hat.top _ hslot
        simp [Frame.parked_pushes_ne_nil hparked hat.pushes]

theorem Acquiring.other {frame : Frame κ} {rest gs pending : List (Frame κ)}
    (h : Acquiring t l pending s) (hwf' : s'.WellFormed) (hcurrent : s.currentThread ≠ t)
    (hat : StepAt client choice s s' frame rest gs) : Acquiring t l pending s' := by
  refine ⟨h.lockInvariant.step hwf' hat, h.phase.imp_right fun ⟨hquiet, hclaims⟩ =>
    ⟨hquiet, ?_⟩⟩
  rcases hclaims with howner | ⟨hmem, hne⟩
  · refine Or.inl ?_
    by_contra hlost
    exact hcurrent (h.lockInvariant.owner_lost hat howner hlost).1
  · rcases h.lockInvariant.waiting_left hat hmem with hstays | hgranted
    · exact Or.inr ⟨hstays, hne⟩
    · exact Or.inl hgranted

/-- With no frame pending, the thread owns the lock. -/
theorem Acquiring.owns (h : Acquiring t l [] s) : (s.lock l).owner = some t := by
  rcases h.phase with ⟨below, habs, -⟩ | ⟨-, howner | ⟨-, hne⟩⟩
  · exact absurd habs (by simp)
  · exact howner
  · exact absurd rfl hne

/-- A thread that comes back from `Acquire` owns the lock. -/
theorem Returns.owns {base : List (Frame κ)} (hreach : Reachable client s)
    (h : Returns client (.call (.lockAcquire l)) t base s s') : (s'.lock l).owner = some t := by
  have hend : Acquiring t l [] s' := by
    refine h.call_invariant (Q := Acquiring t l) ?_ ?_ hreach.wellFormed ?_
    · exact fun _ _ _ _ _ _ hwf hwf' hcurrent hat hQ => hQ.self hwf hwf' hcurrent hat
    · exact fun _ _ _ _ _ _ _ _ _ hwf' hcurrent hat hQ => hQ.other hwf' hcurrent hat
    · exact ⟨hreach.lockInvariant l, Or.inl ⟨[], rfl, by simp⟩⟩
  exact hend.owns

/-- The discipline of a lock, for every client and every schedule: its fields
agree, a thread that comes back from `Acquire` owns it, a thread loses it by
its own `Release` only, and it is handed over in order of arrival. -/
theorem lock_discipline (hreach : Reachable client s) (l : LockId) :
    s.LockInvariant l ∧ s.GrantedInOrder l ∧
    (∀ t base s', Returns client (.call (.lockAcquire l)) t base s s' →
      (s'.lock l).owner = some t) ∧
    (∀ t choice s', s.step client choice = .ok s' → (s.lock l).owner = some t →
      (s'.lock l).owner ≠ some t →
      s.currentThread = t ∧ s.top = some (.call (.lockRelease l))) := by
  refine ⟨hreach.lockInvariant l, hreach.grantedInOrder l, ?_, ?_⟩
  · exact fun t base s' h => h.owns hreach
  · intro t choice s' h howner hlost
    obtain ⟨frame, rest, gs, hat⟩ := hreach.wellFormed.step_at h
    obtain ⟨hcurrent, rfl⟩ := (hreach.lockInvariant l).owner_lost hat howner hlost
    exact ⟨hcurrent, hat.top⟩

end Acquire

end Kernel

/-- A contended lock: thread 1 asks for lock 0 while the main thread owns it,
sleeps, and comes back with it after the main thread has released it. -/
theorem lock_discipline_freeClient :
    ∃ s s' base, Kernel.Reachable freeClient s ∧ (s.lock 0).owner = some 0 ∧
      Kernel.Returns freeClient (.call (.lockAcquire 0)) 1 base s s' ∧
      Event.lockQueued 0 1 ∈ s'.history ∧ (s'.lock 0).owner = some 1 := by
  obtain ⟨s, s', hreach, hreturns, howner, hqueued⟩ :=
    exists_returns freeClient
      (P := fun s s' => (s.lock 0).owner = some 0 ∧ Event.lockQueued 0 1 ∈ s'.history)
      (.call (.lockAcquire 0)) 1 [.call .threadFinish] (fun _ => 0) () ()
      (steps 2 ++ [quietly [.call (.threadFork ()), .call (.lockAcquire 0),
        .call .threadYield, .call (.lockRelease 0), .call .threadYield]] ++ steps 9 ++
        [quietly [.call (.lockAcquire 0)]])
      (steps 11) (by decide +kernel)
  obtain ⟨-, -, howns, -⟩ := Kernel.lock_discipline hreach 0
  exact ⟨s, s', _, hreach, howner, hreturns, hqueued, howns 1 _ s' hreturns⟩

end Threads
end Nachos
