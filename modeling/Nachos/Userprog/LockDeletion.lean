import Nachos.Userprog.Momentary

/-!
# Deleting locks

An entry of the lock table goes from live over pending to dead and never back.
`DestroyLock_Syscall` and `Release_Syscall` drop the lock of an entry as soon as
nobody is in its `waitingThreads`.  That is too early while a thread owns the
lock, or is in `Wait_Syscall` with it and in no list of the lock.  In the runs
in which neither happens a dead entry's lock is not used again: `Acquire_Syscall`
refuses the entry, and nobody is left to come back for it.
-/

namespace Nachos
namespace Userprog

open Threads Lib

section Entries

/-- The states of an entry of the lock table. -/
inductive EntryState
  | live
  | pending
  | dead
  deriving DecidableEq, Repr

namespace EntryState

/-- How far the deletion is. -/
def rank : EntryState → Nat
  | .live => 0
  | .pending => 1
  | .dead => 2

instance : LE EntryState := ⟨fun a b => a.rank ≤ b.rank⟩

theorem le_iff {a b : EntryState} : a ≤ b ↔ a.rank ≤ b.rank := Iff.rfl

end EntryState

/-- Live while the lock is there and not marked, dead when it is `NULL`. -/
def KernelLock.state : KernelLock → EntryState
  | ⟨some _, false⟩ => .live
  | ⟨some _, true⟩ => .pending
  | ⟨none, _⟩ => .dead

variable {input : Input} {s s' : UserKernel} {state : Userland}
  {rs : List (Request UserFrame)} {k : UserFrame} {n : Int}

/-- The entry of an index after an assignment to the table. -/
theorem index?_set_forward {table : List KernelLock} {m : Int} {e old new : KernelLock}
    (hold : index? table m = some old) (hforward : old.state ≤ new.state)
    (h : index? table n = some e) :
    ∃ e', index? (table.set m.toNat new) n = some e' ∧ e.state ≤ e'.state := by
  by_cases hn : n = m
  · subst hn
    obtain rfl := Option.some.inj (hold.symm.trans h)
    exact ⟨new, index?_set_self hold, hforward⟩
  · refine ⟨e, ?_, Nat.le_refl _⟩
    rw [index?_set_ne (index?_eq_some.mp hold).1 hn, h]

/-- No step takes an entry back. -/
theorem LockTableEffect.forward (heffect : LockTableEffect s k state) {e : KernelLock}
    (h : index? s.client.lockTable n = some e) :
    ∃ e', index? state.lockTable n = some e' ∧ e.state ≤ e'.state := by
  cases heffect with
  | same htable hobjects => exact ⟨e, htable ▸ h, Nat.le_refl _⟩
  | created hframe htable hobjects => exact ⟨e, htable ▸ index?_append h, Nat.le_refl _⟩
  | marked m l hframe hentry hwaiting htable hobjects =>
      rw [htable]
      exact index?_set_forward hentry (by simp [EntryState.le_iff, KernelLock.state,
        EntryState.rank]) h
  | killed m l isDeleted hframe hentry hwaiting htable hobjects =>
      rw [htable]
      refine index?_set_forward hentry ?_ h
      cases isDeleted with
      | false => simp [EntryState.le_iff, KernelLock.state, EntryState.rank]
      | true => simp [EntryState.le_iff, KernelLock.state, EntryState.rank]

/-- A new entry is live. -/
theorem LockTableEffect.fresh (heffect : LockTableEffect s k state) {e : KernelLock}
    (hnone : index? s.client.lockTable n = none) (h : index? state.lockTable n = some e) :
    e.state = .live := by
  cases heffect with
  | same htable hobjects =>
      rw [htable, hnone] at h
      exact absurd h (by simp)
  | created hframe htable hobjects =>
      rw [htable] at h
      rcases index?_append_cases h with hold | ⟨-, rfl⟩
      · exact absurd (hnone.symm.trans hold) (by simp)
      · rfl
  | marked m l hframe hentry hwaiting htable hobjects =>
      rw [htable] at h
      rcases index?_set_cases (index?_eq_some.mp hentry).1 h with ⟨rfl, -⟩ | ⟨-, hold⟩
      · exact absurd (hnone.symm.trans hentry) (by simp)
      · exact absurd (hnone.symm.trans hold) (by simp)
  | killed m l isDeleted hframe hentry hwaiting htable hobjects =>
      rw [htable] at h
      rcases index?_set_cases (index?_eq_some.mp hentry).1 h with ⟨rfl, -⟩ | ⟨-, hold⟩
      · exact absurd (hnone.symm.trans hentry) (by simp)
      · exact absurd (hnone.symm.trans hold) (by simp)

/-- What a step does to the entries of the lock table. -/
structure LockTableMoves (u v : Userland) : Prop where
  forward : ∀ n e, index? u.lockTable n = some e →
    ∃ e', index? v.lockTable n = some e' ∧ e.state ≤ e'.state
  fresh : ∀ n e, index? u.lockTable n = none → index? v.lockTable n = some e →
    e.state = .live

theorem lockTableMoves_step {choice : Choice Input} {frame : Frame UserFrame}
    {rest gs : List (Frame UserFrame)}
    (hat : Kernel.StepAt userClient choice s s' frame rest gs) :
    LockTableMoves s.client s'.client := by
  rcases stepAt_cases hat with ⟨k, rs, -, hexec, -⟩ | ⟨-, hclient⟩
  · exact ⟨fun n e h => (userExec_lockTable hexec).forward h,
      fun n e hnone h => (userExec_lockTable hexec).fresh hnone h⟩
  · rw [hclient]
    refine ⟨fun n e h => ⟨e, h, Nat.le_refl _⟩, fun n e hnone h => ?_⟩
    exact absurd (hnone.symm.trans h) (by simp)

end Entries

section Dropping

variable {choice : Choice Input} {s s' : UserKernel} {frame : Frame UserFrame}
  {rest gs : List (Frame UserFrame)} {n : Int} {k : LockId}

/-- The entry whose lock the next step sets to `NULL`, with the lock:
`DestroyLock_Syscall` drops a lock nobody waits for, `Release_Syscall` one that
is marked besides. -/
def droppedLock (s : UserKernel) : Option (Int × LockId) :=
  match s.top with
  | some (.client (.destroyLockBody n)) =>
      match index? s.client.lockTable n with
      | some ⟨some k, _⟩ => if (s.lock k).waitingThreads = [] then some (n, k) else none
      | _ => none
  | some (.client (.releaseTail n)) =>
      match index? s.client.lockTable n with
      | some ⟨some k, true⟩ => if (s.lock k).waitingThreads = [] then some (n, k) else none
      | _ => none
  | _ => none

/-- The next step drops no lock that a thread owns or is in `Wait_Syscall`
with. -/
def dropsUnused (s : UserKernel) : Bool :=
  match droppedLock s with
  | some (n, k) => (s.lock k).owner = none ∧
      ∀ t < s.threadCount, .client (.waitTail n) ∉ s.stack t
  | none => true

/-- Nobody has anything to do with lock `k` of entry `n` any more. -/
structure Unused (s : UserKernel) (n : Int) (k : LockId) : Prop where
  owner : (s.lock k).owner = none
  waiting : (s.lock k).waitingThreads = []
  inside : ∀ t, .client (.waitTail n) ∉ s.stack t

theorem dropsUnused.unused (h : dropsUnused s = true) (hwf : s.WellFormed)
    (hdropped : droppedLock s = some (n, k)) (hwaiting : (s.lock k).waitingThreads = []) :
    Unused s n k := by
  rw [dropsUnused, hdropped] at h
  obtain ⟨howner, hinside⟩ := of_decide_eq_true h
  refine ⟨howner, hwaiting, fun t => ?_⟩
  rcases Nat.lt_or_ge t s.threadCount with hborn | hunborn
  · exact hinside t hborn
  · rw [hwf.unborn t hunborn]
    simp

theorem Userland.Sane.object_of_entry {u : Userland} (hu : u.Sane) {e : KernelLock}
    (h : index? u.lockTable n = some e) : ∃ k, index? u.lockObjects n = some k := by
  obtain ⟨hn, hget⟩ := index?_eq_some.mp h
  have hlt := (List.getElem?_eq_some_iff.mp hget).1
  rw [← hu.lock_length] at hlt
  exact ⟨_, index?_eq_some.mpr ⟨hn, List.getElem?_eq_getElem hlt⟩⟩

/-- Which steps drop the lock of an entry. -/
theorem LockTableEffect.dropped {state : Userland} {k' : UserFrame}
    (heffect : LockTableEffect s k' state) {isDeleted isDeleted' : Bool}
    (hold : index? s.client.lockTable n = some ⟨some k, isDeleted⟩)
    (hnew : index? state.lockTable n = some ⟨none, isDeleted'⟩) :
    (k' = .destroyLockBody n ∨ k' = .releaseTail n ∧ isDeleted = true) ∧
      (s.lock k).waitingThreads = [] := by
  cases heffect with
  | same htable hobjects =>
      rw [htable, hold] at hnew
      simp at hnew
  | created hframe htable hobjects =>
      rw [htable, index?_append hold] at hnew
      simp at hnew
  | marked m l hframe hentry hwaiting htable hobjects =>
      rw [htable] at hnew
      rcases index?_set_cases (index?_eq_some.mp hentry).1 hnew with ⟨-, habs⟩ | ⟨-, hsame⟩
      · simp at habs
      · rw [hold] at hsame
        simp at hsame
  | killed m l isDeleted'' hframe hentry hwaiting htable hobjects =>
      rw [htable] at hnew
      rcases index?_set_cases (index?_eq_some.mp hentry).1 hnew with ⟨rfl, -⟩ | ⟨-, hsame⟩
      · rw [hold, Option.some.injEq, KernelLock.mk.injEq, Option.some.injEq] at hentry
        obtain ⟨rfl, rfl⟩ := hentry
        exact ⟨hframe, hwaiting⟩
      · rw [hold] at hsame
        simp at hsame

/-- An entry that is dead after a step was dead before, or the step has dropped
its lock. -/
theorem dead_cases (hs : Orderly s)
    (hat : Kernel.StepAt userClient choice s s' frame rest gs) {isDeleted : Bool}
    (hdead : index? s'.client.lockTable n = some ⟨none, isDeleted⟩) :
    (∃ isDeleted, index? s.client.lockTable n = some ⟨none, isDeleted⟩) ∨
      ∃ k, index? s.client.lockObjects n = some k ∧ droppedLock s = some (n, k) ∧
        (s.lock k).waitingThreads = [] ∧
        (frame = .client (.destroyLockBody n) ∨ frame = .client (.releaseTail n)) := by
  cases hold : index? s.client.lockTable n with
  | none =>
      have hlive := (lockTableMoves_step hat).fresh n _ hold hdead
      simp [KernelLock.state] at hlive
  | some entry =>
      obtain ⟨kernelLock, wasDeleted⟩ := entry
      cases kernelLock with
      | none => exact Or.inl ⟨wasDeleted, rfl⟩
      | some k =>
          refine Or.inr ⟨k, hs.sane.lock_object n k wasDeleted hold, ?_⟩
          rcases stepAt_cases hat with ⟨k', rs, rfl, hexec, -⟩ | ⟨-, hclient⟩
          · obtain ⟨hframe, hwaiting⟩ := (userExec_lockTable hexec).dropped hold hdead
            have hempty : (s.lock k).waitingThreads = [] := hwaiting
            refine ⟨?_, hempty, ?_⟩
            · rcases hframe with rfl | ⟨rfl, rfl⟩
              · simp [droppedLock, hat.top, hold, hempty]
              · simp [droppedLock, hat.top, hold, hempty]
            · exact hframe.imp (fun h => by rw [h]) fun h => by rw [h.1]
          · rw [hclient, hold] at hdead
            simp at hdead

/-- A thread enters `Wait_Syscall` with an entry behind the check only. -/
theorem waitTail_notMem_step (hs : Orderly s)
    (hat : Kernel.StepAt userClient choice s s' frame rest gs)
    (hframe : ∀ x, frame ≠ .client (.waitBody x n))
    (h : ∀ t, .client (.waitTail n) ∉ s.stack t) :
    ∀ t, .client (.waitTail n) ∉ s'.stack t := by
  intro t hmem
  rcases mem_stack_cases hat hmem with hold | ⟨-, hpushed⟩ | ⟨body, rfl, hroot⟩
  · exact h t hold
  · rcases stepAt_cases hat with ⟨k, rs, rfl, hexec, rfl⟩ | ⟨hkernel, -⟩
    · obtain ⟨x, rfl⟩ := asks_waitTail (userExec_asks hexec) (mem_requests_client.mp hpushed)
      exact hframe x rfl
    · exact Frame.pushes_not_client hkernel hat.pushes _ hpushed
  · have hover := (hat.stack ▸ hs.ordered s.currentThread).1
    rcases hover with rfl | rfl
    · simp [Kernel.rootFrames] at hroot
    · simp [Kernel.rootFrames] at hroot

/-- What is not used stays so, as long as the lock is not asked for and no wait
begins. -/
theorem Unused.step (h : Unused s n k) (hs : Orderly s)
    (hat : Kernel.StepAt userClient choice s s' frame rest gs)
    (hframe : ∀ x, frame ≠ .client (.waitBody x n))
    (hacquire : frame ≠ .call (.lockAcquire k)) : Unused s' n k := by
  have hclaims : ∀ t, ¬ ((s'.lock k).owner = some t ∨ t ∈ (s'.lock k).waitingThreads) := by
    intro t hclaim
    rcases hat.claimed hclaim with hold | ⟨-, habs⟩
    · simp [h.owner, h.waiting] at hold
    · exact hacquire habs
  refine ⟨?_, ?_, waitTail_notMem_step hs hat hframe h.inside⟩
  · exact Option.eq_none_iff_forall_ne_some.mpr fun t ht => hclaims t (Or.inl ht)
  · exact List.eq_nil_iff_forall_not_mem.mpr fun t ht => hclaims t (Or.inr ht)

/-- Dead entries are not used. -/
def DeadUnused (s : UserKernel) : Prop :=
  ∀ n k isDeleted, index? s.client.lockTable n = some ⟨none, isDeleted⟩ →
    index? s.client.lockObjects n = some k → Unused s n k

theorem DeadUnused.step (h : DeadUnused s) (hmomentary : Momentary s) (hs : Orderly s)
    (hdrops : dropsUnused s = true)
    (hat : Kernel.StepAt userClient choice s s' frame rest gs) : DeadUnused s' := by
  intro n k isDeleted hdead hobject
  rcases dead_cases hs hat hdead with ⟨wasDeleted, hold⟩ | ⟨k', hk', hdropped, hempty, hframe⟩
  · -- nobody gets at the lock of an entry that is dead already
    obtain ⟨k', hk'⟩ := hs.sane.object_of_entry hold
    have hsame : k' = k :=
      Option.some.inj (((grows_step hat).lock n k' hk').symm.trans hobject)
    subst hsame
    have hunused := h n k' wasDeleted hold hk'
    have hnone : s.client.lockAt n = none := by simp [Userland.lockAt, hold]
    refine hunused.step hs hat ?_ ?_
    · rintro x rfl
      exact (hmomentary.passing _ [] x n rest hat.stack).2.2.2 hnone
    · rintro rfl
      rcases (hmomentary.asking _ [] n k' rest hat.stack hk').2.2 with hlive | hinside
      · simp [hnone] at hlive
      · refine hunused.inside s.currentThread ?_
        rw [hat.stack]
        exact List.mem_cons_of_mem _ hinside
  · have hsame : k' = k :=
      Option.some.inj (((grows_step hat).lock n k' hk').symm.trans hobject)
    subst hsame
    have hunused := dropsUnused.unused hdrops hs.wellFormed hdropped hempty
    rcases hframe with rfl | rfl
    · exact hunused.step hs hat (by simp) (by simp)
    · exact hunused.step hs hat (by simp) (by simp)

theorem deadUnused_boot (pid : ThreadId → Int) : DeadUnused (userBoot pid) := by
  intro n k isDeleted hdead
  exact absurd (index?_mem hdead) (by simp [userBoot, Kernel.boot, userland])

/-- In every run that drops no lock while it is used, the entries of the lock
table go from live over pending to dead, and a dead entry's lock has no owner, an
empty waiting list and no thread in `Wait_Syscall`. -/
theorem lockTable_lifecycle {pid : ThreadId → Int}
    (hrun : Kernel.Run userClient (fun u _ => dropsUnused u = true) (userBoot pid) s) :
    (∀ choice s', s.step userClient choice = .ok s' → LockTableMoves s.client s'.client) ∧
    ∀ n e, index? s.client.lockTable n = some e → e.state = .dead →
      ∃ k, index? s.client.lockObjects n = some k ∧ Unused s n k := by
  obtain ⟨hs, hdead, -⟩ := (orderly_boot pid).invariant
    (P := fun u => DeadUnused u ∧ Momentary u) hrun
    (fun u v choice frame rest gs hu _ hdrops hat ⟨h, hmomentary⟩ =>
      ⟨h.step hmomentary hu hdrops hat, hmomentary.step hu hat⟩)
    ⟨deadUnused_boot pid, momentary_boot pid⟩
  constructor
  · intro choice s' h
    obtain ⟨frame, rest, gs, hat⟩ := hs.wellFormed.step_at h
    exact lockTableMoves_step hat
  · rintro n ⟨kernelLock, isDeleted⟩ hentry hstate
    have hnone : kernelLock = none := by
      cases kernelLock with
      | none => rfl
      | some k => cases isDeleted <;> simp [KernelLock.state] at hstate
    subst hnone
    obtain ⟨k, hk⟩ := hs.sane.object_of_entry hentry
    exact ⟨k, hk, hdead n k isDeleted hentry hk⟩

end Dropping

/-- A lock that is destroyed after its `Release` is dropped unused. -/
theorem lockTable_lifecycle_destroy :
    ∃ s, Kernel.Run userClient (fun u _ => dropsUnused u = true) (userBoot fun _ => 0) s ∧
      index? s.client.lockTable 0 = some ⟨none, true⟩ ∧
      ∃ k, index? s.client.lockObjects 0 = some k ∧ Unused s 0 k := by
  obtain ⟨s, hrun, hentry⟩ :=
    exists_userRun (P := fun s => index? s.client.lockTable 0 = some ⟨none, true⟩)
      dropsUnused (fun _ => 0)
      (startup ++ calling .createLock 10 ++ calling (.acquire 0) 14 ++ calling (.release 0) 13 ++
        calling (.destroyLock 0) 11) (by decide +kernel)
  exact ⟨s, hrun, hentry, (lockTable_lifecycle hrun).2 0 _ hentry rfl⟩

/-- A lock that is destroyed before its `Release` is dropped while it is owned. -/
theorem lockTable_dead_owned :
    ∃ s e k, UserReachable s ∧ index? s.client.lockTable 0 = some e ∧ e.state = .dead ∧
      index? s.client.lockObjects 0 = some k ∧ (s.lock k).owner = some s.currentThread := by
  obtain ⟨s, hreach, hentry, hobject, howner⟩ :=
    exists_userReachable
      (P := fun s => index? s.client.lockTable 0 = some ⟨none, true⟩ ∧
        index? s.client.lockObjects 0 = some (processTableLock + 2) ∧
        (s.lock (processTableLock + 2)).owner = some s.currentThread)
      (fun _ => 0)
      (startup ++ calling .createLock 10 ++ calling (.acquire 0) 14 ++
        calling (.destroyLock 0) 11) (by decide +kernel)
  exact ⟨s, _, _, hreach, hentry, rfl, hobject, howner⟩

end Userprog
end Nachos
