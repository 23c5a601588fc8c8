import Nachos.Threads.StepAccounts

/-!
# Finished threads and their deletion

A thread that calls `Finish` cannot delete itself: it stores itself in
`threadToBeDestroyed` and sleeps, and whoever comes back from `SWITCH` in
`Scheduler::Run` deletes it.  A thread that is dispatched for the first time
does not come back from `SWITCH`, it starts in `ThreadRoot`.  If it finishes
before any other thread has come back, it stores itself over the thread that
was waiting for its deletion, which nobody deletes any more.

`Reaped` is what the mechanism is for.  It holds in every run in which no thread
calls `Finish` while `threadToBeDestroyed` is set.
-/

namespace Nachos
namespace Threads

open Lib

variable {κ σ ι : Type}

/-- The events that end the life of a thread. -/
def Event.isEnd : Event → Bool
  | .threadFinished _ => true
  | .threadDeleted _ => true
  | _ => false

namespace Kernel

/-- How often a thread has been deleted. -/
def deletions (s : Kernel κ σ) (t : ThreadId) : Nat := s.history.count (.threadDeleted t)

/-- The thread is in some list of the kernel. -/
def Listed (s : Kernel κ σ) (t : ThreadId) : Prop := ∃ slot, t ∈ s.slots slot

/-- The thread has finished and nobody has deleted it. -/
def Carcass (s : Kernel κ σ) (t : ThreadId) : Prop := s.Finished t ∧ s.deletions t = 0

/-- Finished threads are deleted in turn. -/
structure Reaped (client : Client κ σ ι) (s : Kernel κ σ) : Prop where
  /-- At most one finished thread has not been deleted, the one that is stored. -/
  stored : ∀ t, s.Carcass t → s.threadToBeDestroyed = some t
  /-- The others have been deleted once. -/
  once : ∀ t, s.Finished t → s.threadToBeDestroyed ≠ some t → s.deletions t = 1
  /-- Whoever comes back from `SWITCH` deletes the thread that is stored. -/
  deletes : ∀ t, s.threadToBeDestroyed = some t → s.top = some .afterSwitch →
    ∀ choice, ∃ s', s.step client choice = .ok s' ∧ s'.deletions t = 1
  /-- It is not yet deleted, does not run, and is on no list. -/
  waits : ∀ t, s.threadToBeDestroyed = some t → s.Carcass t ∧ ¬ s.Listed t ∧
    (s.top = some .afterSwitch → t ≠ s.currentThread)
  /-- Nothing else is deleted, and what is deleted neither runs nor is listed. -/
  gone : ∀ t, s.deletions t ≠ 0 → s.Finished t ∧ ¬ s.Listed t ∧ t ≠ s.currentThread

/-- `Finish` is not called while a finished thread is stored. -/
def FinishesClean (s : Kernel κ σ) : Prop :=
  s.top = some (.call .threadFinish) → s.threadToBeDestroyed = none

instance [DecidableEq κ] (s : Kernel κ σ) : Decidable s.FinishesClean :=
  inferInstanceAs (Decidable (_ → _))

/-- What a step does about the end of threads. -/
inductive EndEffect (s s' : Kernel κ σ) (frame : Frame κ) : Prop
  | finishes (hframe : frame = .call .threadFinish)
      (hstored : s'.threadToBeDestroyed = some s.currentThread)
      (hadds : s.Adds s' [.threadFinished s.currentThread])
  | deletes (t : ThreadId) (hframe : frame = .afterSwitch)
      (hstored : s.threadToBeDestroyed = some t) (hnone : s'.threadToBeDestroyed = none)
      (hadds : s.Adds s' [.threadDeleted t])
  | same (hframe : frame ≠ .call .threadFinish)
      (hstored : s'.threadToBeDestroyed = s.threadToBeDestroyed) (events : List Event)
      (hadds : s.Adds s' events) (hend : ∀ e ∈ events, e.isEnd = false)

section Effects

variable {client : Client κ σ ι} {choice : Choice ι} {s s' : Kernel κ σ} {frame : Frame κ}
  {rest gs : List (Frame κ)}

theorem StepAt.endEffect (hat : StepAt client choice s s' frame rest gs) :
    EndEffect s s' frame := by
  have hexec := hat.exec
  by_cases hfinish : frame = .call .threadFinish
  · subst hfinish
    obtain rfl := Except.ok.inj hexec
    exact .finishes rfl rfl rfl
  · by_cases hswitch : frame = .afterSwitch
    · subst hswitch
      rcases afterSwitch_ok hexec with rfl | ⟨t, hstored, -, rfl⟩
      · exact .same (by simp) rfl [] (Adds.nil rfl) (by simp)
      · exact .deletes t rfl hstored rfl rfl
    · obtain ⟨events, hadds, henters⟩ := hat.entries
      refine .same hfinish (hat.threadToBeDestroyed_same hfinish hswitch) events hadds ?_
      intro e he
      have hentry := henters e he
      cases e with
      | threadFinished t => exact absurd hentry.1 hfinish
      | threadDeleted t => exact absurd hentry.1 hswitch
      | _ => rfl

end Effects

section Invariant

/-- The ledger of the finished threads. -/
structure Accounted (s : Kernel κ σ) : Prop where
  finished : ∀ t, s.Finished t → s.threadToBeDestroyed = some t ∨ s.deletions t ≠ 0
  stored : ∀ t, s.threadToBeDestroyed = some t → s.Finished t ∧ s.deletions t = 0
  deleted : ∀ t, s.deletions t ≠ 0 → s.Finished t ∧ s.deletions t = 1
  running : s.Finished s.currentThread → s.threadToBeDestroyed = some s.currentThread

variable {client : Client κ σ ι} {choice : Choice ι} {s s' : Kernel κ σ} {frame : Frame κ}
  {rest gs : List (Frame κ)}

/-- A step that ends no thread. -/
theorem Accounted.of_same (h : s.Accounted)
    (hstored : s'.threadToBeDestroyed = s.threadToBeDestroyed) {events : List Event}
    (hadds : s.Adds s' events) (hend : ∀ e ∈ events, e.isEnd = false)
    (hcurrent : s'.currentThread = s.currentThread ∨ ¬ s.Finished s'.currentThread) :
    s'.Accounted := by
  have hnot : ∀ e : Event, e.isEnd = true → e ∉ events := by
    intro e he hmem
    rw [hend e hmem] at he
    simp at he
  have hfinished : ∀ t, s'.Finished t ↔ s.Finished t := by
    intro t
    rw [Finished, hadds, List.mem_append]
    exact or_iff_left (hnot _ rfl)
  have hdeletions : ∀ t, s'.deletions t = s.deletions t := by
    intro t
    rw [deletions, hadds, List.count_append, List.count_eq_zero.mpr (hnot _ rfl)]
    rfl
  constructor
  · intro t ht
    rw [hstored, hdeletions]
    exact h.finished t ((hfinished t).mp ht)
  · intro t ht
    rw [hfinished, hdeletions]
    exact h.stored t (hstored ▸ ht)
  · intro t ht
    rw [hdeletions] at ht
    rw [hfinished, hdeletions]
    exact h.deleted t ht
  · intro hfin
    rw [hfinished] at hfin
    rcases hcurrent with hsame | hlive
    · rw [hsame] at hfin ⊢
      rw [hstored]
      exact h.running hfin
    · exact absurd hfin hlive

/-- The processor goes to a thread that has not finished. -/
theorem StepAt.dispatched (hat : StepAt client choice s s' frame rest gs) (hwf : s.WellFormed) :
    s'.currentThread = s.currentThread ∨ ¬ s.Finished s'.currentThread := by
  rcases hat.currentThread with hsame | ⟨ready, later, hready, -, -⟩
  · exact Or.inl hsame
  · refine Or.inr fun hfin => ?_
    have hmem : s'.currentThread ∈ s.slots .ready := by
      show s'.currentThread ∈ s.readyList
      rw [hready]
      exact List.mem_cons_self
    exact hwf.sound.finished_notMem hfin .ready hmem

theorem Accounted.step (h : s.Accounted) (hwf : s.WellFormed) (hclean : s.FinishesClean)
    (hat : StepAt client choice s s' frame rest gs) : s'.Accounted := by
  cases hat.endEffect with
  | same hframe hstored events hadds hend =>
      exact h.of_same hstored hadds hend (hat.dispatched hwf)
  | finishes hframe hstored hadds =>
      subst hframe
      have hempty : s.threadToBeDestroyed = none := hclean hat.top
      have hlive : ¬ s.Finished s.currentThread := hwf.not_finished hat.top rfl
      have hfinished : ∀ t, s'.Finished t ↔ s.Finished t ∨ t = s.currentThread := by
        intro t
        rw [Finished, hadds]
        simp [Finished]
      have hdeletions : ∀ t, s'.deletions t = s.deletions t := by
        intro t
        rw [deletions, hadds, List.count_append]
        simp [deletions]
      constructor
      · intro t ht
        rw [hstored, hdeletions]
        rcases (hfinished t).mp ht with hold | rfl
        · refine Or.inr ((h.finished t hold).resolve_left ?_)
          simp [hempty]
        · exact Or.inl rfl
      · intro t ht
        obtain rfl : s.currentThread = t := Option.some.inj (hstored.symm.trans ht)
        rw [hfinished, hdeletions]
        refine ⟨Or.inr rfl, ?_⟩
        by_contra hne
        exact hlive (h.deleted _ hne).1
      · intro t ht
        rw [hdeletions] at ht
        rw [hfinished, hdeletions]
        exact ⟨Or.inl (h.deleted t ht).1, (h.deleted t ht).2⟩
      · intro _
        rw [hstored]
        obtain rfl := Except.ok.inj hat.exec
        rfl
  | deletes t₀ hframe hstored hnone hadds =>
      obtain ⟨hfin₀, hzero⟩ := h.stored t₀ hstored
      have hfinished : ∀ t, s'.Finished t ↔ s.Finished t := by
        intro t
        rw [Finished, hadds]
        simp [Finished]
      have hdeletions : ∀ t, s'.deletions t = s.deletions t + if t = t₀ then 1 else 0 := by
        intro t
        rw [deletions, hadds, List.count_append, List.count_singleton]
        by_cases ht : t = t₀
        · simp [ht, deletions]
        · simp [ht, Ne.symm ht, deletions]
      constructor
      · intro t ht
        refine Or.inr ?_
        rw [hdeletions]
        rcases h.finished t ((hfinished t).mp ht) with hold | hold
        · obtain rfl : t₀ = t := Option.some.inj (hstored.symm.trans hold)
          simp
        · omega
      · intro t ht
        rw [hnone] at ht
        simp at ht
      · intro t ht
        rw [hdeletions] at ht ⊢
        rw [hfinished]
        by_cases heq : t = t₀
        · subst heq
          simp [hfin₀, hzero]
        · simp only [if_neg heq, Nat.add_zero] at ht ⊢
          exact h.deleted t ht
      · intro hfin
        subst hframe
        rw [hfinished] at hfin
        rcases hat.dispatched hwf with hsame | hlive
        · rw [hsame] at hfin
          exact absurd hfin (hwf.not_finished hat.top rfl)
        · exact absurd hfin hlive

theorem accounted_boot (initialValue : SemaphoreId → Int) (state : σ) (main : κ) :
    (boot initialValue state main : Kernel κ σ).Accounted := by
  constructor
  · intro t ht
    simp [Finished, boot] at ht
  · intro t ht
    simp [boot] at ht
  · intro t ht
    simp [deletions, boot] at ht
  · intro hfin
    simp [Finished, boot] at hfin

/-- The ledger gives what the mechanism is for. -/
theorem Accounted.reaped (h : s.Accounted) (hwf : s.WellFormed) : s.Reaped client := by
  have hunlisted : ∀ t, s.Finished t → ¬ s.Listed t := by
    rintro t hfin ⟨slot, hmem⟩
    exact hwf.sound.finished_notMem hfin slot hmem
  have hcurrent : ∀ t, s.Finished t → s.top = some .afterSwitch → t ≠ s.currentThread := by
    rintro t hfin htop rfl
    exact hwf.not_finished htop rfl hfin
  constructor
  case stored =>
    intro t ⟨hfin, hzero⟩
    exact (h.finished t hfin).resolve_right fun hne => hne hzero
  case once =>
    intro t hfin hne
    exact (h.deleted t ((h.finished t hfin).resolve_left hne)).2
  case deletes =>
    intro t ht htop choice
    obtain ⟨hfin, hzero⟩ := h.stored t ht
    have hne := hcurrent t hfin htop
    refine ⟨{ s.pop with threadToBeDestroyed := none }.record [.threadDeleted t], ?_, ?_⟩
    · unfold Kernel.step
      rw [htop]
      show s.pop.afterSwitch = _
      unfold Kernel.afterSwitch
      rw [show s.pop.threadToBeDestroyed = some t from ht]
      exact if_neg hne
    · show (s.history ++ [Event.threadDeleted t]).count (Event.threadDeleted t) = 1
      rw [List.count_append, show s.history.count (Event.threadDeleted t) = 0 from hzero]
      simp
  case waits =>
    intro t ht
    obtain ⟨hfin, hzero⟩ := h.stored t ht
    exact ⟨⟨hfin, hzero⟩, hunlisted t hfin, hcurrent t hfin⟩
  case gone =>
    intro t ht
    obtain ⟨hfin, hone⟩ := h.deleted t ht
    refine ⟨hfin, hunlisted t hfin, ?_⟩
    rintro rfl
    rw [(h.stored _ (h.running hfin)).2] at ht
    exact ht rfl

/-- In a run in which `Finish` is never called while a finished thread is stored,
finished threads are deleted in turn. -/
theorem finished_reaped {initialValue : SemaphoreId → Int} {state : σ} {main : κ}
    (hrun : Run client (fun u _ => u.FinishesClean) (boot initialValue state main) s) :
    s.Reaped client := by
  suffices h : s.WellFormed ∧ s.Accounted from h.2.reaped h.1
  refine hrun.invariant (P := fun u => u.WellFormed ∧ u.Accounted) ?_
    ⟨wellFormed_boot _ _ _, accounted_boot _ _ _⟩
  rintro u v choice ⟨hwf, haccounted⟩ hclean hstep
  obtain ⟨frame, rest, gs, hat⟩ := hwf.step_at hstep
  exact ⟨wellFormed_step hwf hstep, haccounted.step hwf hclean hat⟩

end Invariant

end Kernel

/-- The main thread forks a thread and yields; the new thread finishes, and the
main thread deletes it when it comes back from `SWITCH`. -/
theorem finished_reaped_yield :
    ∃ s, Kernel.Run freeClient (fun u _ => u.FinishesClean)
        (Kernel.boot (fun _ => 0) () ()) s ∧ s.Finished 1 ∧ s.deletions 1 = 1 := by
  obtain ⟨s, hrun, hfinished, hstored⟩ :=
    exists_guardedRun freeClient
      (P := fun s => s.Finished 1 ∧ s.threadToBeDestroyed = none) Kernel.FinishesClean
      (fun _ => 0) () ()
      (steps 2 ++ [quietly [.call (.threadFork ()), .call .threadYield]] ++ steps 12)
      (by decide +kernel)
  exact ⟨s, hrun, hfinished, (Kernel.finished_reaped hrun).once 1 hfinished (by simp [hstored])⟩

/-- The main thread forks a thread and finishes; the new thread is dispatched for
the first time, so nobody comes back from `SWITCH`, and finishes in its turn. -/
theorem finished_not_reaped :
    ∃ s, Kernel.Reachable freeClient s ∧ ¬ s.Reaped freeClient := by
  obtain ⟨s, hreach, hfinished, hzero, hstored⟩ :=
    exists_reachable freeClient
      (P := fun s => s.Finished 0 ∧ s.deletions 0 = 0 ∧ s.threadToBeDestroyed = some 1)
      (fun _ => 0) () () (steps 2 ++ [quietly [.call (.threadFork ())]] ++ steps 10)
      (by decide +kernel)
  refine ⟨s, hreach, fun h => ?_⟩
  have hother := h.stored 0 ⟨hfinished, hzero⟩
  rw [hstored] at hother
  simp at hother

end Threads
end Nachos
