import Nachos.Threads.ConditionDiscipline
import Nachos.Threads.ThreadLife

/-!
# `Condition::Broadcast`

The loop of `Broadcast` calls `Signal` until nobody waits.  `Signal` with another lock
than the one the condition is bound to returns and wakes nobody, so `Broadcast` with such
a lock goes round for ever, as long as no other thread wakes the waiters.  With the right
lock it wakes the waiters in order and returns.

What the call does by itself is what it does when no interrupt comes while it runs; when
the other threads come in between, the events in the ghost history say who was woken.
-/

namespace Nachos
namespace Threads
namespace Kernel

open Lib

variable {κ σ ι : Type}

/-- A run inside a call during which no interrupt is due. -/
abbrev QuietRun (client : Client κ σ ι) (t : ThreadId) (base : List (Frame κ)) :
    Kernel κ σ → Kernel κ σ → Prop :=
  Run client fun u choice => u.Inside t base ∧ choice.interrupts = []

/-- `currentThread` has these frames above `base`, and no yield is pending. -/
structure Undisturbed (t : ThreadId) (base pending : List (Frame κ)) (u : Kernel κ σ) : Prop where
  current : u.currentThread = t
  stack : u.stack t = pending ++ base
  yieldOnReturn : u.yieldOnReturn = false

/-- What `Broadcast` is for: it returns, and with the lock the condition is bound to it
has moved the waiters to the ready list, in order; with another one it has done nothing.
When other threads come in between, and none of them starts to wait, those that have been
woken are the waiters, in order. -/
structure Broadcasts (client : Client κ σ ι) (c : ConditionId) (conditionLock : Option LockId)
    (t : ThreadId) (base : List (Frame κ)) (s : Kernel κ σ) : Prop where
  returns : ∃ s', QuietRun client t base s s' ∧ s'.currentThread = t ∧ s'.stack t = base ∧
    (conditionLock = (s.condition c).waitingLock →
      s'.readyList = s.readyList ++ (s.condition c).waitingCV ∧
        s'.condition = Function.update s.condition c ⟨none, []⟩) ∧
    (conditionLock ≠ (s.condition c).waitingLock →
      s'.readyList = s.readyList ∧ s'.condition = s.condition)
  interleaved : conditionLock = (s.condition c).waitingLock → ∀ s',
    Returns client (.call (.conditionBroadcast c conditionLock)) t base s s' →
    (s'.condition c).waitingCV = [] ∧ (s'.condition c).waitingLock = none ∧
      ∃ events, s'.history = s.history ++ events ∧
        (events.filterMap (Event.waitsOn c) = [] →
          events.filterMap (Event.wokenOn c) = (s.condition c).waitingCV)

section Steps

variable (client : Client κ σ ι) (choice : Choice ι) {u : Kernel κ σ} {t : ThreadId}
  {base rest : List (Frame κ)} {c : ConditionId} {conditionLock : Option LockId}

theorem Undisturbed.inside {frame : Frame κ} (h : Undisturbed t base (frame :: rest) u) :
    u.Inside t base :=
  ⟨frame :: rest, List.cons_ne_nil _ _, h.stack⟩

theorem Undisturbed.top {frame : Frame κ} (h : Undisturbed t base (frame :: rest) u) :
    u.top = some frame := by
  rw [Kernel.top, h.current, h.stack]
  rfl

theorem Undisturbed.pop {frame : Frame κ} (h : Undisturbed t base (frame :: rest) u) :
    Undisturbed t base rest u.pop where
  current := h.current
  stack := by
    rw [← h.current, pop_stack_self, h.current, h.stack]
    rfl
  yieldOnReturn := h.yieldOnReturn

/-- Frames that are pushed are on top of those that are pending. -/
theorem Undisturbed.push (h : Undisturbed t base rest u) (frames : List (Frame κ)) :
    Undisturbed t base (frames ++ rest) (u.push frames) where
  current := h.current
  stack := by
    rw [push_stack_self frames h.current, h.stack, List.append_assoc]
  yieldOnReturn := h.yieldOnReturn

/-- A step that leaves the processor and the stacks alone. -/
theorem Undisturbed.congr {v : Kernel κ σ} (h : Undisturbed t base rest u)
    (hcurrent : v.currentThread = u.currentThread) (hstack : v.stack = u.stack)
    (hyield : v.yieldOnReturn = u.yieldOnReturn) : Undisturbed t base rest v where
  current := hcurrent.trans h.current
  stack := (congrFun hstack t).trans h.stack
  yieldOnReturn := hyield.trans h.yieldOnReturn

/-- The ready list and the conditions are as before. -/
def SameWaiters (u v : Kernel κ σ) : Prop :=
  v.readyList = u.readyList ∧ v.condition = u.condition

theorem SameWaiters.trans {v w : Kernel κ σ} (h : SameWaiters u v) (h' : SameWaiters v w) :
    SameWaiters u w :=
  ⟨h'.1.trans h.1, h'.2.trans h.2⟩

/-- The step at the top frame. -/
theorem Undisturbed.step {frame : Frame κ} (h : Undisturbed t base (frame :: rest) u) :
    u.step client choice = u.pop.exec client choice frame := by
  unfold Kernel.step
  rw [h.top]

/-- `Broadcast` is its loop. -/
theorem Undisturbed.step_call
    (h : Undisturbed t base [.call (.conditionBroadcast c conditionLock)] u) :
    ∃ v, u.step client choice = .ok v ∧
      Undisturbed t base [.broadcastLoop c conditionLock] v ∧ SameWaiters u v :=
  ⟨_, h.step client choice, h.pop.push [.broadcastLoop c conditionLock], rfl, rfl⟩

/-- The loop ends when nobody waits. -/
theorem Undisturbed.step_loop_nil
    (h : Undisturbed t base [.broadcastLoop c conditionLock] u)
    (hempty : (u.condition c).waitingCV = []) :
    ∃ v, u.step client choice = .ok v ∧ Undisturbed t base [] v ∧ SameWaiters u v := by
  refine ⟨u.pop, ?_, h.pop, rfl, rfl⟩
  rw [h.step client choice]
  exact congrArg Except.ok (if_pos hempty)

/-- Otherwise it calls `Signal`. -/
theorem Undisturbed.step_loop_cons
    (h : Undisturbed t base [.broadcastLoop c conditionLock] u)
    (hwaiting : (u.condition c).waitingCV ≠ []) :
    ∃ v, u.step client choice = .ok v ∧
      Undisturbed t base [.call (.conditionSignal c conditionLock),
        .broadcastLoop c conditionLock] v ∧ SameWaiters u v := by
  refine ⟨_, ?_, h.pop.push [.call (.conditionSignal c conditionLock),
    .broadcastLoop c conditionLock], rfl, rfl⟩
  rw [h.step client choice]
  exact congrArg Except.ok (if_neg hwaiting)

/-- `Signal` with the right lock. -/
theorem Undisturbed.step_signal {x : ThreadId} {later : List ThreadId}
    (h : Undisturbed t base (.call (.conditionSignal c conditionLock) :: rest) u)
    (hwaiting : (u.condition c).waitingCV = x :: later)
    (hlock : conditionLock = (u.condition c).waitingLock) :
    ∃ v, u.step client choice = .ok v ∧
      Undisturbed t base (.setLevel u.level :: rest) v ∧
      v.readyList = u.readyList ++ [x] ∧ v.condition = Function.update u.condition c
        ⟨if later = [] then none else (u.condition c).waitingLock, later⟩ := by
  have hexec : u.step client choice = .ok (((((u.pop.changeLevel .intOff).setCondition c
      ⟨if later = [] then none else (u.condition c).waitingLock, later⟩).readyToRun
      x).record [.conditionWoken c x]).push [.setLevel u.level]) := by
    rw [h.step client choice]
    show Except.ok (u.pop.conditionSignal c conditionLock) = _
    unfold conditionSignal
    rw [show (u.pop.condition c).waitingCV = x :: later from hwaiting]
    dsimp only
    rw [if_pos (show conditionLock = (u.pop.condition c).waitingLock from hlock)]
    rfl
  refine ⟨_, hexec, Undisturbed.push ?_ [.setLevel u.level], rfl, rfl⟩
  exact h.pop.congr rfl rfl rfl

/-- `Signal` with another lock. -/
theorem Undisturbed.step_signal_refused
    (h : Undisturbed t base (.call (.conditionSignal c conditionLock) :: rest) u)
    (hlock : conditionLock ≠ (u.condition c).waitingLock) :
    ∃ v, u.step client choice = .ok v ∧
      Undisturbed t base (.setLevel u.level :: rest) v ∧ SameWaiters u v := by
  have hexec : u.step client choice =
      .ok ((u.pop.changeLevel .intOff).push [.setLevel u.level]) := by
    rw [h.step client choice]
    show Except.ok (u.pop.conditionSignal c conditionLock) = _
    unfold conditionSignal
    split
    · rfl
    · rw [if_neg (show conditionLock ≠ (u.pop.condition c).waitingLock from hlock)]
      rfl
  refine ⟨_, hexec, Undisturbed.push ?_ [.setLevel u.level], rfl, rfl⟩
  exact h.pop.congr rfl rfl rfl

/-- `SetLevel` at the end of `Signal` goes back to the loop, or is a tick first. -/
theorem Undisturbed.step_setLevel {now : IntStatus}
    (h : Undisturbed t base (.setLevel now :: rest) u) :
    ∃ v, u.step client choice = .ok v ∧
      (Undisturbed t base rest v ∨ Undisturbed t base (.oneTick :: rest) v) ∧
      SameWaiters u v := by
  have hexec : u.step client choice = .ok (u.pop.setLevel now) := h.step client choice
  unfold setLevel at hexec
  split at hexec
  · refine ⟨_, hexec, Or.inr (Undisturbed.push ?_ [.oneTick]), rfl, rfl⟩
    exact h.pop.congr rfl rfl rfl
  · exact ⟨_, hexec, Or.inl (h.pop.congr rfl rfl rfl), rfl, rfl⟩

/-- A tick at which no interrupt is due. -/
theorem Undisturbed.step_oneTick (h : Undisturbed t base (.oneTick :: rest) u)
    (hquiet : choice.interrupts = []) :
    ∃ v, u.step client choice = .ok v ∧ Undisturbed t base rest v ∧ SameWaiters u v := by
  have hexec : u.step client choice = .ok (u.pop.oneTick choice.interrupts) := h.step client choice
  have hclock : ∀ w : Kernel κ σ, w.advanceClock.yieldOnReturn = w.yieldOnReturn ∧
      w.advanceClock.currentThread = w.currentThread ∧ w.advanceClock.stack = w.stack ∧
      SameWaiters w w.advanceClock := by
    intro w
    unfold advanceClock
    split
    · exact ⟨rfl, rfl, rfl, rfl, rfl⟩
    · exact ⟨rfl, rfl, rfl, rfl, rfl⟩
  obtain ⟨hyield, hcurrent, hstack, hsame⟩ := hclock u.pop
  have htick : u.pop.oneTick choice.interrupts =
      (u.pop.advanceClock.changeLevel .intOff).changeLevel .intOn := by
    unfold oneTick
    rw [hquiet]
    refine if_neg ?_
    show ¬ u.pop.advanceClock.yieldOnReturn = true
    rw [hyield, h.pop.yieldOnReturn]
    simp
  rw [htick] at hexec
  exact ⟨_, hexec, h.pop.congr hcurrent hstack hyield, hsame⟩

end Steps

section Loop

variable (client : Client κ σ ι) {choice : Choice ι} {u : Kernel κ σ} {t : ThreadId}
  {base rest : List (Frame κ)} {c : ConditionId} {conditionLock : Option LockId}

/-- `SetLevel` with the tick it may be. -/
theorem Undisturbed.run_setLevel {now : IntStatus} (hquiet : choice.interrupts = [])
    (h : Undisturbed t base (.setLevel now :: rest) u) :
    ∃ v, QuietRun client t base u v ∧ Undisturbed t base rest v ∧ SameWaiters u v := by
  obtain ⟨v, hstep, hnext, hsame⟩ := h.step_setLevel client choice
  have hfirst : QuietRun client t base u v := Reach.refl.tail ⟨h.inside, hquiet⟩ hstep
  rcases hnext with hv | hv
  · exact ⟨v, hfirst, hv, hsame⟩
  · obtain ⟨w, htick, hw, hsame'⟩ := hv.step_oneTick client choice hquiet
    exact ⟨w, hfirst.tail ⟨hv.inside, hquiet⟩ htick, hw, hsame.trans hsame'⟩

/-- The loop with the right lock.  The induction is on the waiters: a round takes the
first one, and the condition stays bound to the lock while there are others. -/
theorem Undisturbed.run_loop (hquiet : choice.interrupts = []) (waiters : List ThreadId)
    (h : Undisturbed t base [.broadcastLoop c conditionLock] u)
    (hwaiting : (u.condition c).waitingCV = waiters)
    (hlock : waiters ≠ [] → conditionLock = (u.condition c).waitingLock) :
    ∃ v, QuietRun client t base u v ∧ Undisturbed t base [] v ∧
      v.readyList = u.readyList ++ waiters ∧
      v.condition = if waiters = [] then u.condition
        else Function.update u.condition c ⟨none, []⟩ := by
  induction waiters generalizing u with
  | nil =>
      obtain ⟨v, hstep, hv, hready, hcondition⟩ :=
        h.step_loop_nil client choice hwaiting
      refine ⟨v, Reach.refl.tail ⟨h.inside, hquiet⟩ hstep, hv, ?_, ?_⟩
      · rw [hready, List.append_nil]
      · rw [hcondition, if_pos rfl]
  | cons x later ih =>
      have hbound := hlock (List.cons_ne_nil _ _)
      obtain ⟨u₁, hcall, hu₁, hready₁, hcondition₁⟩ :=
        h.step_loop_cons client choice (by rw [hwaiting]; simp)
      obtain ⟨u₂, hsignal, hu₂, hready₂, hcondition₂⟩ :=
        hu₁.step_signal client choice (show (u₁.condition c).waitingCV = x :: later by
          rw [hcondition₁, hwaiting]) (by rw [hcondition₁, hbound])
      obtain ⟨u₃, hlevel, hu₃, hready₃, hcondition₃⟩ := hu₂.run_setLevel client hquiet
      have hround : QuietRun client t base u u₃ :=
        ((Reach.refl.tail ⟨h.inside, hquiet⟩ hcall).tail ⟨hu₁.inside, hquiet⟩ hsignal).trans hlevel
      have hcondition : u₃.condition = Function.update u.condition c
          ⟨if later = [] then none else (u.condition c).waitingLock, later⟩ := by
        rw [hcondition₃, hcondition₂, hcondition₁]
      obtain ⟨v, hrest, hv, hready, hdone⟩ := ih hu₃ (by
        rw [hcondition, Function.update_self]) (by
        intro hne
        rw [hcondition, Function.update_self, if_neg hne]
        exact hbound)
      refine ⟨v, hround.trans hrest, hv, ?_, ?_⟩
      · rw [hready, hready₃, hready₂, hready₁, List.append_assoc]
        rfl
      · rw [hdone, hcondition, if_neg (List.cons_ne_nil x later)]
        by_cases hlast : later = []
        · rw [if_pos hlast, if_pos hlast, hlast]
        · rw [if_neg hlast, Function.update_idem]

/-- `Broadcast` by itself, with the right lock or nobody to wake. -/
theorem Undisturbed.run_broadcast (hquiet : choice.interrupts = [])
    (h : Undisturbed t base [.call (.conditionBroadcast c conditionLock)] u)
    (hlock : (u.condition c).waitingCV = [] ∨ conditionLock = (u.condition c).waitingLock) :
    ∃ v, QuietRun client t base u v ∧ Undisturbed t base [] v ∧
      v.readyList = u.readyList ++ (u.condition c).waitingCV ∧
      v.condition = if (u.condition c).waitingCV = [] then u.condition
        else Function.update u.condition c ⟨none, []⟩ := by
  obtain ⟨u₁, hcall, hu₁, hready, hcondition⟩ :=
    h.step_call client choice
  obtain ⟨v, hloop, hv, hready', hcondition'⟩ :=
    hu₁.run_loop client hquiet (u.condition c).waitingCV (by rw [hcondition]) (by
      intro hne
      rw [hcondition]
      rcases hlock with hempty | hbound
      · exact absurd hempty hne
      · exact hbound)
  refine ⟨v, (Reach.refl.tail ⟨h.inside, hquiet⟩ hcall).trans hloop, hv, ?_, ?_⟩
  · rw [hready', hready]
  · rw [hcondition', hcondition]

/-- The loop with a wrong lock, at one of its program points. -/
inductive GoesRound (t : ThreadId) (base : List (Frame κ)) (c : ConditionId)
    (conditionLock : Option LockId) (u : Kernel κ σ) : Prop
  | called (h : Undisturbed t base [.call (.conditionBroadcast c conditionLock)] u)
  | looping (h : Undisturbed t base [.broadcastLoop c conditionLock] u)
  | signalling (h : Undisturbed t base [.call (.conditionSignal c conditionLock),
      .broadcastLoop c conditionLock] u)
  | leaving (now : IntStatus) (h : Undisturbed t base [.setLevel now,
      .broadcastLoop c conditionLock] u)
  | ticking (h : Undisturbed t base [.oneTick, .broadcastLoop c conditionLock] u)

/-- It is at one of them after every step. -/
theorem GoesRound.step {client : Client κ σ ι} {v : Kernel κ σ} (h : GoesRound t base c conditionLock u)
    (hquiet : choice.interrupts = []) (hwaiting : (u.condition c).waitingCV ≠ [])
    (hlock : conditionLock ≠ (u.condition c).waitingLock)
    (hstep : u.step client choice = .ok v) :
    GoesRound t base c conditionLock v ∧ v.condition = u.condition := by
  have hsame : ∀ {w : Kernel κ σ}, u.step client choice = .ok w → w = v :=
    fun hw => Except.ok.inj (hw.symm.trans hstep)
  cases h with
  | called h =>
      obtain ⟨w, hw, hnext, -, hcondition⟩ := h.step_call client choice
      obtain rfl := hsame hw
      exact ⟨.looping hnext, hcondition⟩
  | looping h =>
      obtain ⟨w, hw, hnext, -, hcondition⟩ :=
        h.step_loop_cons client choice hwaiting
      obtain rfl := hsame hw
      exact ⟨.signalling hnext, hcondition⟩
  | signalling h =>
      obtain ⟨w, hw, hnext, -, hcondition⟩ :=
        h.step_signal_refused client choice hlock
      obtain rfl := hsame hw
      exact ⟨.leaving _ hnext, hcondition⟩
  | leaving now h =>
      obtain ⟨w, hw, hnext, -, hcondition⟩ := h.step_setLevel client choice
      obtain rfl := hsame hw
      rcases hnext with hnext | hnext
      · exact ⟨.looping hnext, hcondition⟩
      · exact ⟨.ticking hnext, hcondition⟩
  | ticking h =>
      obtain ⟨w, hw, hnext, -, hcondition⟩ := h.step_oneTick client choice hquiet
      obtain rfl := hsame hw
      exact ⟨.looping hnext, hcondition⟩

theorem GoesRound.stack_ne (h : GoesRound t base c conditionLock u) : u.stack t ≠ base := by
  have hlong : ∃ pending, pending ≠ [] ∧ u.stack t = pending ++ base := by
    cases h with
    | called h => exact ⟨_, List.cons_ne_nil _ _, h.stack⟩
    | looping h => exact ⟨_, List.cons_ne_nil _ _, h.stack⟩
    | signalling h => exact ⟨_, List.cons_ne_nil _ _, h.stack⟩
    | leaving now h => exact ⟨_, List.cons_ne_nil _ _, h.stack⟩
    | ticking h => exact ⟨_, List.cons_ne_nil _ _, h.stack⟩
  obtain ⟨pending, hne, hstack⟩ := hlong
  intro heq
  rw [heq] at hstack
  exact hne (List.self_eq_append_left.mp hstack)

/-- With a wrong lock and somebody waiting, `Broadcast` does not return by itself. -/
theorem GoesRound.never_returns {client : Client κ σ ι} {v : Kernel κ σ}
    (h : GoesRound t base c conditionLock u)
    (hwaiting : (u.condition c).waitingCV ≠ [])
    (hlock : conditionLock ≠ (u.condition c).waitingLock) (hrun : QuietRun client t base u v) :
    v.stack t ≠ base := by
  suffices hall : GoesRound t base c conditionLock v ∧ v.condition = u.condition from
    hall.1.stack_ne
  refine hrun.invariant
    (P := fun w => GoesRound t base c conditionLock w ∧ w.condition = u.condition) ?_ ⟨h, rfl⟩
  rintro w x choice ⟨hw, hcondition⟩ ⟨-, hquiet⟩ hstep
  rw [← hcondition] at hwaiting hlock
  obtain ⟨hx, hsame⟩ := hw.step hquiet hwaiting hlock hstep
  exact ⟨hx, hsame.trans hcondition⟩

end Loop

section Interleaved

variable {client : Client κ σ ι} {s s' : Kernel κ σ} {t : ThreadId}
  {base : List (Frame κ)} {c : ConditionId} {conditionLock : Option LockId}

/-- The pending frames of `Broadcast`: its loop is the last of them. -/
def Broadcasting (c : ConditionId) (conditionLock : Option LockId) (pending : List (Frame κ))
    (s : Kernel κ σ) : Prop :=
  pending = [.call (.conditionBroadcast c conditionLock)] ∨
    (∃ above, pending = above ++ [.broadcastLoop c conditionLock]) ∨
    (pending = [] ∧ (s.condition c).waitingCV = [])

/-- A step of the calling thread. -/
theorem Broadcasting.self {choice : Choice ι} {frame : Frame κ} {rest pushed : List (Frame κ)}
    (h : Broadcasting c conditionLock (frame :: rest) s)
    (hat : StepAt client choice s s' frame (rest ++ base) pushed) :
    Broadcasting c conditionLock (pushed ++ rest) s' := by
  rcases h with hcall | ⟨above, habove⟩ | ⟨hnil, -⟩
  · obtain ⟨rfl, rfl⟩ := List.cons.inj hcall
    have hpushed : pushed = [.broadcastLoop c conditionLock] := hat.pushes
    exact Or.inr (Or.inl ⟨[], by rw [hpushed]; rfl⟩)
  · cases above with
    | nil =>
        obtain ⟨rfl, rfl⟩ := List.cons.inj habove
        have hs' : s.pop.broadcastLoop c conditionLock = s' := Except.ok.inj hat.exec
        by_cases hempty : (s.condition c).waitingCV = []
        · -- the loop is left
          have hdone : s.pop = s' := by
            rw [← hs']
            exact (if_pos hempty).symm
          have hpushed : pushed ++ ([] ++ base) = [] ++ ([] ++ base) := by
            rw [← hat.stack_self, ← hdone, pop_stack_self, hat.stack]
            rfl
          refine Or.inr (Or.inr ⟨?_, ?_⟩)
          · rw [List.append_cancel_right hpushed]
            rfl
          · rw [← hdone]
            exact hempty
        · have hmore : s.pop.push [.call (.conditionSignal c conditionLock),
              .broadcastLoop c conditionLock] = s' := by
            rw [← hs']
            exact (if_neg hempty).symm
          have hpushed : pushed ++ ([] ++ base) = [.call (.conditionSignal c conditionLock),
              .broadcastLoop c conditionLock] ++ ([] ++ base) := by
            rw [← hat.stack_self, ← hmore, push_stack_self _ (show s.pop.currentThread = s.currentThread from rfl),
              pop_stack_self, hat.stack]
            rfl
          refine Or.inr (Or.inl ⟨[.call (.conditionSignal c conditionLock)], ?_⟩)
          rw [List.append_cancel_right hpushed]
          rfl
    | cons first above =>
        obtain ⟨rfl, rfl⟩ := List.cons.inj habove
        exact Or.inr (Or.inl ⟨pushed ++ above, (List.append_assoc _ _ _).symm⟩)
  · exact absurd hnil (List.cons_ne_nil _ _)

/-- When `Broadcast` returns, nobody waits. -/
theorem Returns.waitingCV_broadcast (hwf : s.WellFormed)
    (h : Returns client (.call (.conditionBroadcast c conditionLock)) t base s s') :
    (s'.condition c).waitingCV = [] := by
  have hend : Broadcasting c conditionLock [] s' := by
    refine Returns.call_invariant (Q := Broadcasting c conditionLock) ?_ ?_ hwf h (Or.inl rfl)
    · exact fun u v choice frame rest pushed _ _ _ hat hQ => hQ.self hat
    · rintro u v choice frame rest pushed pending hne - - - - hQ
      rcases hQ with hcall | hloop | ⟨hnil, -⟩
      · exact Or.inl hcall
      · exact Or.inr (Or.inl hloop)
      · exact absurd hnil hne
  rcases hend with habs | ⟨above, habs⟩ | ⟨-, hempty⟩
  · exact absurd habs (by simp)
  · exact absurd habs (by simp)
  · exact hempty

/-- The history only grows. -/
theorem Run.history {guard : Kernel κ σ → Choice ι → Prop} (hrun : Run client guard s s')
    (hwf : s.WellFormed) : ∃ events, s'.history = s.history ++ events := by
  suffices h : s'.WellFormed ∧ ∃ events, s'.history = s.history ++ events from h.2
  refine hrun.invariant
    (P := fun u => u.WellFormed ∧ ∃ events, u.history = s.history ++ events) ?_
    ⟨hwf, [], by simp⟩
  rintro u v choice ⟨huwf, events, hevents⟩ - hstep
  obtain ⟨frame, rest, gs, hat⟩ := huwf.step_at hstep
  refine ⟨wellFormed_step huwf hstep, ?_⟩
  have hnew : ∃ new, u.Adds v new := by
    cases hat.condition 0 with
    | same hcondition new hadds hquiet => exact ⟨new, hadds⟩
    | bound l hframe hfree hcondition hadds => exact ⟨_, hadds⟩
    | queued l hframe hcondition hadds => exact ⟨_, hadds⟩
    | woken x later hframe hwaiting hcondition hadds => exact ⟨_, hadds⟩
  obtain ⟨new, hadds⟩ := hnew
  exact ⟨events ++ new, by rw [hadds, hevents, List.append_assoc]⟩

/-- Outside of `Wait`, a condition that nobody waits on is bound to no lock. -/
theorem Reachable.waitingLock_none (hreach : Reachable client s)
    (hstack : NoEntry (s.stack s.currentThread))
    (hempty : (s.condition c).waitingCV = []) : (s.condition c).waitingLock = none := by
  obtain ⟨e, hinv⟩ := hreach.conditionInvariant
  have hnone : e = none := by
    have hentry : ∀ c l, .waitAppend c l ∉ s.stack s.currentThread :=
      fun c l hmem => absurd (hstack _ hmem) (by simp [Frame.isEntry])
    cases hinv.entry with
    | outside hout => rfl
    | releasing c l below hat hbelow hlevel => exact absurd (by simp [hat]) (hentry c l)
    | refused c l below hat hbelow howner => exact absurd (by simp [hat]) (hentry c l)
    | appending c l below hat hbelow howner => exact absurd (by simp [hat]) (hentry c l)
  by_contra hbound
  obtain ⟨l, habs⟩ := hinv.bound c hempty hbound
  rw [hnone] at habs
  exact absurd habs (by simp)

/-- A thread that calls `Broadcast` is not inside a `Wait`. -/
theorem Reachable.noEntry_broadcast (hreach : Reachable client s)
    (hstack : s.stack s.currentThread = .call (.conditionBroadcast c conditionLock) :: base) :
    NoEntry (s.stack s.currentThread) := by
  obtain ⟨e, hinv⟩ := hreach.conditionInvariant
  cases hinv.entry with
  | outside hout => exact hout
  | releasing c l below hat hbelow hlevel => simp [hat] at hstack
  | refused c l below hat hbelow howner => simp [hat] at hstack
  | appending c l below hat hbelow howner => simp [hat] at hstack

theorem Reachable.yieldOnReturn (hreach : Reachable client s) : s.yieldOnReturn = false :=
  hreach.stepAt_invariant (P := fun u => u.yieldOnReturn = false) (fun _ _ _ => rfl)
    fun _ _ _ _ _ _ _ _ hat h => hat.yieldOnReturn h

/-- What other threads do in between: those that are woken are the waiters, in order. -/
theorem Returns.broadcast_interleaved (hreach : Reachable client s)
    (h : Returns client (.call (.conditionBroadcast c conditionLock)) t base s s') :
    (s'.condition c).waitingCV = [] ∧ (s'.condition c).waitingLock = none ∧
      ∃ events, s'.history = s.history ++ events ∧
        (events.filterMap (Event.waitsOn c) = [] →
          events.filterMap (Event.wokenOn c) = (s.condition c).waitingCV) := by
  have hempty := h.waitingCV_broadcast hreach.wellFormed
  have hreach' : Reachable client s' := hreach.run h.run
  refine ⟨hempty, hreach'.waitingLock_none ?_ hempty, ?_⟩
  · have hcalled := h.called
    rw [← h.current] at hcalled
    have hnone := hreach.noEntry_broadcast hcalled
    rw [hcalled] at hnone
    rw [h.returned.1, h.returned.2]
    exact hnone.tail
  · obtain ⟨events, hevents⟩ := Run.history h.run hreach.wellFormed
    refine ⟨events, hevents, fun hnew => ?_⟩
    have hbefore := hreach.wokenInOrder c
    have hafter := hreach'.wokenInOrder c
    unfold WokenInOrder at hbefore hafter
    rw [hevents, hempty, List.filterMap_append, List.filterMap_append, hnew, hbefore,
      List.append_nil, List.append_nil] at hafter
    exact (List.append_cancel_left hafter).symm

end Interleaved

section Broadcast

variable {client : Client κ σ ι} {s : Kernel κ σ} {t : ThreadId}
  {base : List (Frame κ)} {c : ConditionId} {conditionLock : Option LockId}

/-- A thread only gets to a call of `Broadcast` by steps that take a choice. -/
theorem Reachable.exists_quiet (hreach : Reachable client s)
    (hstack : s.stack s.currentThread = .call (.conditionBroadcast c conditionLock) :: base) :
    ∃ choice : Choice ι, choice.interrupts = [] := by
  obtain ⟨initialValue, state, main, hrun⟩ := hreach
  cases hrun with
  | refl => simp [boot] at hstack
  | tail hrun hguard hstep =>
      rename_i u choice
      exact ⟨⟨[], none, choice.input⟩, rfl⟩

/-- `Broadcast` does not return by itself with a lock that the waiters do not wait with. -/
theorem not_broadcasts (hyield : s.yieldOnReturn = false) (hcurrent : s.currentThread = t)
    (hstack : s.stack t = .call (.conditionBroadcast c conditionLock) :: base)
    (hwaiting : (s.condition c).waitingCV ≠ [])
    (hlock : conditionLock ≠ (s.condition c).waitingLock) :
    ¬ Broadcasts client c conditionLock t base s := by
  intro h
  obtain ⟨s', hrun, -, hreturned, -⟩ := h.returns
  have hround : GoesRound t base c conditionLock s := .called ⟨hcurrent, hstack, hyield⟩
  exact hround.never_returns hwaiting hlock hrun hreturned

/-- `Broadcast` does what it is for exactly when nobody waits or its lock is the one the
condition is bound to. -/
theorem broadcasts_iff (hreach : Reachable client s) (hcurrent : s.currentThread = t)
    (hstack : s.stack t = .call (.conditionBroadcast c conditionLock) :: base) :
    Broadcasts client c conditionLock t base s ↔
      (s.condition c).waitingCV = [] ∨ conditionLock = (s.condition c).waitingLock := by
  have hyield := hreach.yieldOnReturn
  constructor
  · intro h
    by_contra hwrong
    rw [not_or] at hwrong
    exact not_broadcasts hyield hcurrent hstack hwrong.1 hwrong.2 h
  · intro hlock
    have hstack' := hstack
    rw [← hcurrent] at hstack'
    obtain ⟨choice, hquiet⟩ := hreach.exists_quiet hstack'
    have hcalled : Undisturbed t base [.call (.conditionBroadcast c conditionLock)] s :=
      ⟨hcurrent, hstack, hyield⟩
    obtain ⟨s', hrun, hs', hready, hcondition⟩ := hcalled.run_broadcast client hquiet hlock
    refine ⟨⟨s', hrun, hs'.current, hs'.stack, ?_, ?_⟩, ?_⟩
    · intro _
      refine ⟨hready, ?_⟩
      by_cases hempty : (s.condition c).waitingCV = []
      · -- nobody waits, so the condition is bound to no lock already
        have hnone := hreach.waitingLock_none (hreach.noEntry_broadcast hstack') hempty
        have hfree : s.condition c = ⟨none, []⟩ := by
          rw [← hnone, ← hempty]
        rw [hcondition, if_pos hempty, ← hfree, Function.update_eq_self]
      · rw [hcondition, if_neg hempty]
    · intro hother
      have hempty : (s.condition c).waitingCV = [] := by
        rcases hlock with hempty | hsame
        · exact hempty
        · exact absurd hsame hother
      rw [hready, hcondition, if_pos hempty, hempty, List.append_nil]
      exact ⟨rfl, rfl⟩
    · exact fun _ s' h => h.broadcast_interleaved hreach

end Broadcast

end Kernel

/-- The main thread waits with lock 0, and thread 1 calls `Broadcast`. -/
def broadcastRun (conditionLock : Option LockId) : List (Choice (List (Request Unit))) :=
  steps 2 ++ [quietly [.call (.threadFork ()), .call (.lockAcquire 0),
    .call (.conditionWait 0 (some 0))]] ++ steps 13 ++
    [quietly [.call (.conditionBroadcast 0 conditionLock)]]

/-- `Broadcast` with the lock the main thread waits with. -/
theorem broadcasts_iff_freeClient :
    ∃ s, Kernel.Reachable freeClient s ∧ (s.condition 0).waitingCV = [0] ∧
      Kernel.Broadcasts freeClient 0 (some 0) 1 [.call .threadFinish] s := by
  obtain ⟨s, hreach, hcurrent, hstack, hwaiting, hlock⟩ :=
    exists_reachable freeClient
      (P := fun s => s.currentThread = 1 ∧
        s.stack 1 = [.call (.conditionBroadcast 0 (some 0)), .call .threadFinish] ∧
        (s.condition 0).waitingCV = [0] ∧ (s.condition 0).waitingLock = some 0)
      (fun _ => 0) () () (broadcastRun (some 0)) (by decide +kernel)
  exact ⟨s, hreach, hwaiting,
    (Kernel.broadcasts_iff hreach hcurrent hstack).mpr (Or.inr hlock.symm)⟩

/-- `Broadcast` with another lock. -/
theorem broadcast_goes_round :
    ∃ s, Kernel.Reachable freeClient s ∧ s.currentThread = 1 ∧
      s.stack 1 = [.call (.conditionBroadcast 0 (some 1)), .call .threadFinish] ∧
      ¬ Kernel.Broadcasts freeClient 0 (some 1) 1 [.call .threadFinish] s := by
  obtain ⟨s, hreach, hcurrent, hstack, hwaiting, hlock⟩ :=
    exists_reachable freeClient
      (P := fun s => s.currentThread = 1 ∧
        s.stack 1 = [.call (.conditionBroadcast 0 (some 1)), .call .threadFinish] ∧
        (s.condition 0).waitingCV = [0] ∧ (s.condition 0).waitingLock = some 0)
      (fun _ => 0) () () (broadcastRun (some 1)) (by decide +kernel)
  refine ⟨s, hreach, hcurrent, hstack, ?_⟩
  refine Kernel.not_broadcasts hreach.yieldOnReturn hcurrent hstack ?_ ?_
  · rw [hwaiting]
    simp
  · rw [hlock]
    simp

end Threads
end Nachos
