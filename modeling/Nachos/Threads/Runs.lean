import Nachos.Threads.Refinement

/-!
# Runs, switch points and calls

A run of the kernel is a guarded run of `Kernel.step`; a state is reachable
when some run from some boot state leads to it.  Clients are arbitrary: a
result about every reachable state of every client is a result about every
interleaving of every sequence of calls.

A *switch point* is a program point at which the processor can change hands or
an interrupt handler can run.  Between two switch points the kernel's code is
atomic, so this is where its data structures have to be in order.

A *call* is followed on the stack of its thread: as long as frames of the call
lie above `base`, the call is pending, and when `base` is the whole stack it has
returned.  `Run.call_invariant` is the rule for what a call establishes: an
invariant of its pending frames that the calling thread's own steps carry from
frame to frame and that no other thread's step can break.
-/

namespace Nachos
namespace Threads

open Lib Relation

variable {κ σ ι : Type}

namespace Kernel

/-- Runs of the kernel under a guard on the steps. -/
abbrev Run (client : Client κ σ ι) (guard : Kernel κ σ → Choice ι → Prop) :
    Kernel κ σ → Kernel κ σ → Prop :=
  Reach (step client) guard

/-- The states the machine can get into. -/
def Reachable (client : Client κ σ ι) (s : Kernel κ σ) : Prop :=
  ∃ initialValue state main, Run client (fun _ _ => True) (boot initialValue state main) s

section Reachability

variable {client : Client κ σ ι} {guard : Kernel κ σ → Choice ι → Prop}
  {choice : Choice ι} {s s' : Kernel κ σ}

theorem Reachable.run (hreach : Reachable client s) (hrun : Run client guard s s') :
    Reachable client s' := by
  obtain ⟨initialValue, state, main, hprefix⟩ := hreach
  exact ⟨initialValue, state, main, hprefix.trans (hrun.mono fun _ _ _ => trivial)⟩

/-- The invariant rule for reachable states. -/
theorem Reachable.invariant {P : Kernel κ σ → Prop}
    (hboot : ∀ initialValue state main, P (boot initialValue state main))
    (hstep : ∀ u v choice, P u → u.step client choice = .ok v → P v)
    (hreach : Reachable client s) : P s := by
  obtain ⟨initialValue, state, main, hrun⟩ := hreach
  exact hrun.invariant (fun u v choice hu _ h => hstep u v choice hu h) (hboot _ _ _)

theorem Reachable.wellFormed (hreach : Reachable client s) : s.WellFormed :=
  hreach.invariant wellFormed_boot fun _ _ _ hu h => wellFormed_step hu h

/-- The invariant rule with what is known about every step. -/
theorem Reachable.stepAt_invariant {P : Kernel κ σ → Prop}
    (hreach : Reachable client s)
    (hboot : ∀ initialValue state main, P (boot initialValue state main))
    (hstep : ∀ u v choice frame rest gs, u.WellFormed → v.WellFormed →
      StepAt client choice u v frame rest gs → P u → P v) : P s := by
  suffices h : s.WellFormed ∧ P s from h.2
  refine Reachable.invariant (P := fun u => u.WellFormed ∧ P u) ?_ ?_ hreach
  · exact fun initialValue state main => ⟨wellFormed_boot _ _ _, hboot _ _ _⟩
  · rintro u v choice ⟨hwf, hP⟩ h
    have hwf' := wellFormed_step hwf h
    obtain ⟨frame, rest, gs, hat⟩ := hwf.step_at h
    exact ⟨hwf', hstep u v choice frame rest gs hwf hwf' hat hP⟩

theorem Run.wellFormed (hrun : Run client guard s s') (hwf : s.WellFormed) :
    s'.WellFormed :=
  hrun.invariant (fun _ _ _ hu _ h => wellFormed_step hu h) hwf

end Reachability

section SwitchPoints

/-- The program points at which the processor can change hands or an interrupt
handler can run. -/
def SwitchPoint (s : Kernel κ σ) : Prop :=
  s.top = some .oneTick ∨ s.top = some .sleepLoop ∨ s.top = some (.call .threadYield)

instance [DecidableEq κ] (s : Kernel κ σ) : Decidable s.SwitchPoint :=
  inferInstanceAs (Decidable (_ ∨ _ ∨ _))

/-- The thread has called `Finish`. -/
def Finished (s : Kernel κ σ) (t : ThreadId) : Prop := .threadFinished t ∈ s.history

instance (s : Kernel κ σ) (t : ThreadId) : Decidable (s.Finished t) :=
  inferInstanceAs (Decidable (_ ∈ _))

/-- A thread that computes has not finished. -/
theorem WellFormed.not_finished {s : Kernel κ σ} (hwf : s.WellFormed) {frame : Frame κ}
    (htop : s.top = some frame) (hparked : frame.isParked = false) :
    ¬ s.Finished s.currentThread := by
  have hactive : s.view.phase = .active := by
    change phaseOf s.top = .active
    rw [htop]
    exact phaseOf_some hparked
  obtain ⟨place, hplaced⟩ := hwf.sound
  exact (hplaced.active hactive).2.2

/-- A thread that has finished has been born. -/
theorem WellFormed.finished_born {s : Kernel κ σ} (hwf : s.WellFormed) {t : ThreadId}
    (h : s.Finished t) : t < s.threadCount := by
  obtain ⟨place, hplaced⟩ := hwf.sound
  exact hplaced.finished_born t h

/-- The thread is `currentThread` and running, or once on the ready list and
ready, or once in one waiting list and blocked, and nowhere else. -/
def InOnePlace (s : Kernel κ σ) (t : ThreadId) : Prop :=
  (t = s.currentThread ∧ s.threadStatus t = .running ∧ ∀ slot, t ∉ s.slots slot) ∨
  (s.threadStatus t = .ready ∧ s.readyList.count t = 1 ∧
    ∀ slot, slot ≠ .ready → t ∉ s.slots slot) ∨
  ∃ q, s.threadStatus t = .blocked ∧ (s.slots (.waiting q)).count t = 1 ∧
    ∀ slot, slot ≠ .waiting q → t ∉ s.slots slot

variable {client : Client κ σ ι} {choice : Choice ι} {s s' : Kernel κ σ}

/-- The processor changes hands at switch points only. -/
theorem switchPoint_of_currentThread_ne (hwf : s.WellFormed)
    (h : s.step client choice = .ok s') (hne : s'.currentThread ≠ s.currentThread) :
    s.SwitchPoint := by
  obtain ⟨frame, rest, gs, hat⟩ := hwf.step_at h
  rcases hat.currentThread with hsame | ⟨ready, later, -, -, hframe⟩
  · exact absurd hsame hne
  · rcases hframe with ⟨rfl, -⟩ | ⟨rfl, -⟩
    · exact Or.inr (Or.inr hat.top)
    · exact Or.inr (Or.inl hat.top)

/-- Interrupt handlers run at switch points only: anywhere else the interrupts
that are due make no difference. -/
theorem step_interrupts_irrelevant (hpoint : ¬ s.SwitchPoint) (interrupts : List Interrupt) :
    s.step client { choice with interrupts := interrupts } = s.step client choice := by
  unfold step
  cases htop : s.top with
  | none => rfl
  | some frame =>
      cases frame with
      | oneTick => exact absurd (Or.inl htop) hpoint
      | sleepLoop => exact absurd (Or.inr (Or.inl htop)) hpoint
      | _ => rfl

theorem SwitchPoint.not_parking (h : s.SwitchPoint) : s.view.phase ≠ .parking := by
  change phaseOf s.top ≠ .parking
  rcases h with htop | htop | htop
  · simp [htop, phaseOf]
  · simp [htop, phaseOf]
  · simp [htop, phaseOf]

/-- At every switch point every started thread that has not finished is in
exactly one place, once, and a finished thread is on no list. -/
theorem reachable_inOnePlace (hreach : Reachable client s) (hpoint : s.SwitchPoint)
    {t : ThreadId} (hstarted : t < s.threadCount) :
    (¬ s.Finished t → s.InOnePlace t) ∧ (s.Finished t → ∀ slot, t ∉ s.slots slot) := by
  have hsound := hreach.wellFormed.sound
  constructor
  · intro hlive
    have hplace : s.view.InOnePlace t :=
      hsound.inOnePlace hpoint.not_parking hstarted hlive
    exact hplace
  · intro hfinished slot
    exact hsound.finished_notMem hfinished slot

end SwitchPoints

section Calls

/-- Frames of the thread lie above `base`. -/
def Inside (t : ThreadId) (base : List (Frame κ)) (s : Kernel κ σ) : Prop :=
  ∃ gs, gs ≠ [] ∧ s.stack t = gs ++ base

/-- The code at frame `first` that thread `t` is about to run in `s` returns in
`s'`: in between, its frames were on top of `base` all the time. -/
structure Returns (client : Client κ σ ι) (first : Frame κ) (t : ThreadId)
    (base : List (Frame κ)) (s s' : Kernel κ σ) : Prop where
  current : s.currentThread = t
  called : s.stack t = first :: base
  run : Run client (fun u _ => u.Inside t base) s s'
  returned : s'.currentThread = t ∧ s'.stack t = base

variable {client : Client κ σ ι} {s s' : Kernel κ σ}

/-- The stack of a thread that is not current does not change. -/
theorem StepAt.stack_of_ne {choice : Choice ι} {frame : Frame κ} {rest gs : List (Frame κ)}
    (hat : StepAt client choice s s' frame rest gs) {t : ThreadId}
    (hborn : t < s.threadCount) (ht : t ≠ s.currentThread) : s'.stack t = s.stack t := by
  rcases hat.stack_other t ht with hsame | ⟨body, -, hnew, -⟩
  · exact hsame
  · exact absurd hnew (Nat.ne_of_lt hborn)

/-- The call rule.  `Q gs u` speaks about the pending frames `gs` of the call.
If the calling thread's steps carry it from frame to frame and the steps of
other threads keep it, then it holds all along the call, and when the call
returns it holds with no frame pending. -/
theorem Run.call_invariant {t : ThreadId} {base gs : List (Frame κ)}
    {Q : List (Frame κ) → Kernel κ σ → Prop}
    (hself : ∀ u v choice frame rest pushed, u.WellFormed → v.WellFormed →
      u.currentThread = t → StepAt client choice u v frame (rest ++ base) pushed →
      Q (frame :: rest) u → Q (pushed ++ rest) v)
    (hother : ∀ u v choice frame rest pushed pending, pending ≠ [] → u.WellFormed →
      v.WellFormed → u.currentThread ≠ t → StepAt client choice u v frame rest pushed →
      Q pending u → Q pending v)
    (hwf : s.WellFormed) (hborn : t < s.threadCount)
    (hrun : Run client (fun u _ => u.Inside t base) s s')
    (hstack : s.stack t = gs ++ base) (hQ : Q gs s) :
    ∃ pending, s'.stack t = pending ++ base ∧ Q pending s' := by
  suffices h : s'.WellFormed ∧ t < s'.threadCount ∧
      ∃ pending, s'.stack t = pending ++ base ∧ Q pending s' from h.2.2
  induction hrun with
  | refl => exact ⟨hwf, hborn, gs, hstack, hQ⟩
  | @tail u v choice _ hinside hstep ih =>
      obtain ⟨huwf, huborn, pending, hpending, hQu⟩ := ih
      have hvborn := Nat.lt_of_lt_of_le huborn (step_threadCount huwf hstep)
      have hvwf := wellFormed_step huwf hstep
      refine ⟨hvwf, hvborn, ?_⟩
      obtain ⟨frame, rest, pushed, hat⟩ := huwf.step_at hstep
      -- the guard says that the call is pending
      obtain ⟨inside, hne, hinside⟩ := hinside
      have hsame : inside = pending :=
        List.append_cancel_right (hinside.symm.trans hpending)
      subst hsame
      by_cases hcur : u.currentThread = t
      · cases inside with
        | nil => exact absurd rfl hne
        | cons first later =>
            have htop : frame :: rest = first :: (later ++ base) := by
              rw [← hat.stack, hcur, hpending, List.cons_append]
            obtain ⟨rfl, rfl⟩ := List.cons.inj htop
            refine ⟨pushed ++ later, ?_, hself u v choice _ _ _ huwf hvwf hcur hat hQu⟩
            rw [← hcur, hat.stack_self, List.append_assoc]
      · refine ⟨inside, ?_, hother u v choice _ _ _ inside hne huwf hvwf hcur hat hQu⟩
        rw [hat.stack_of_ne huborn (Ne.symm hcur), hpending]

theorem not_inside {t : ThreadId} {base : List (Frame κ)} (h : s.stack t = base) :
    ¬ s.Inside t base := by
  rintro ⟨gs, hne, hgs⟩
  rw [h] at hgs
  exact hne (List.self_eq_append_left.mp hgs)

/-- A run inside a call that has returned is empty. -/
theorem Run.eq_of_returned {t : ThreadId} {base : List (Frame κ)}
    (hrun : Run client (fun u _ => u.Inside t base) s s') (h : s.stack t = base) :
    s' = s := by
  rcases hrun.cases_head with rfl | ⟨u, choice, hinside, -, -⟩
  · rfl
  · exact absurd hinside (not_inside h)

/-- The first step of a call that returns. -/
theorem Returns.first {first : Frame κ} {t : ThreadId} {base : List (Frame κ)}
    (h : Returns client first t base s s') (hwf : s.WellFormed) :
    ∃ choice u gs, StepAt client choice s u first base gs ∧
      s.step client choice = .ok u ∧ Run client (fun u _ => u.Inside t base) u s' := by
  rcases h.run.cases_head with rfl | ⟨u, choice, -, hstep, hrun⟩
  · have habs := h.called.symm.trans h.returned.2
    simp at habs
  · obtain ⟨frame, rest, gs, hat⟩ := hwf.step_at hstep
    have hstack := hat.stack
    rw [h.current, h.called] at hstack
    obtain ⟨rfl, rfl⟩ := List.cons.inj hstack
    exact ⟨choice, u, gs, hat, hstep, hrun⟩

/-- The call rule for a call that returns. -/
theorem Returns.call_invariant {first : Frame κ} {t : ThreadId} {base : List (Frame κ)}
    {Q : List (Frame κ) → Kernel κ σ → Prop}
    (hself : ∀ u v choice frame rest pushed, u.WellFormed → v.WellFormed →
      u.currentThread = t → StepAt client choice u v frame (rest ++ base) pushed →
      Q (frame :: rest) u → Q (pushed ++ rest) v)
    (hother : ∀ u v choice frame rest pushed pending, pending ≠ [] → u.WellFormed →
      v.WellFormed → u.currentThread ≠ t → StepAt client choice u v frame rest pushed →
      Q pending u → Q pending v)
    (hwf : s.WellFormed) (h : Returns client first t base s s') (hQ : Q [first] s) :
    Q [] s' := by
  have hborn : t < s.threadCount := h.current ▸ hwf.current_lt
  have hstack : s.stack t = [first] ++ base := h.called
  obtain ⟨pending, hpending, hQ'⟩ :=
    Run.call_invariant hself hother hwf hborn h.run hstack hQ
  rw [h.returned.2] at hpending
  have hnil : pending = [] := List.self_eq_append_left.mp hpending
  rwa [hnil] at hQ'

end Calls

end Kernel

section Replays

/-- The state reached by replaying choices from a boot state. -/
theorem exists_reachable (client : Client κ σ ι) {P : Kernel κ σ → Prop} [DecidablePred P]
    (initialValue : SemaphoreId → Int) (state : σ) (main : κ) (choices : List (Choice ι))
    (h : (replay (Kernel.step client) (fun _ _ => true) choices
      (Kernel.boot initialValue state main)).any (fun s => decide (P s)) = true) :
    ∃ s, Kernel.Reachable client s ∧ P s := by
  obtain ⟨s, hrun, hs⟩ := exists_reach_of_replay (fun _ _ _ => trivial) h
  exact ⟨s, ⟨_, _, _, hrun⟩, hs⟩

/-- The end of a guarded run from a boot state, found by replaying choices. -/
theorem exists_guardedRun (client : Client κ σ ι) {P : Kernel κ σ → Prop} [DecidablePred P]
    (guard : Kernel κ σ → Prop) [DecidablePred guard] (initialValue : SemaphoreId → Int)
    (state : σ) (main : κ) (choices : List (Choice ι))
    (h : (replay (Kernel.step client) (fun u _ => decide (guard u)) choices
      (Kernel.boot initialValue state main)).any (fun s => decide (P s)) = true) :
    ∃ s, Kernel.Run client (fun u _ => guard u) (Kernel.boot initialValue state main) s ∧
      P s :=
  exists_reach_of_replay (fun _ _ hguard => of_decide_eq_true hguard) h

variable [DecidableEq κ]

/-- `Inside` as a check. -/
def Kernel.isInside (t : ThreadId) (base : List (Frame κ)) (s : Kernel κ σ) : Bool :=
  decide (base <:+ s.stack t ∧ base.length < (s.stack t).length)

theorem Kernel.inside_of_isInside {t : ThreadId} {base : List (Frame κ)} {s : Kernel κ σ}
    (h : s.isInside t base = true) : s.Inside t base := by
  obtain ⟨⟨gs, hgs⟩, hlength⟩ := of_decide_eq_true h
  refine ⟨gs, ?_, hgs.symm⟩
  rintro rfl
  rw [← hgs, List.nil_append] at hlength
  exact Nat.lt_irrefl _ hlength

/-- A call in progress, found by replaying the choices before the call and those
during the call. -/
theorem exists_run_inside (client : Client κ σ ι) {P : Kernel κ σ → Kernel κ σ → Prop}
    [∀ s, DecidablePred (P s)] (first : Frame κ) (t : ThreadId) (base : List (Frame κ))
    (start : Kernel κ σ) (before during : List (Choice ι))
    (h : (replay (Kernel.step client) (fun _ _ => true) before start).any (fun s =>
        decide (s.currentThread = t ∧ s.stack t = first :: base) &&
        (replay (Kernel.step client) (fun u _ => u.isInside t base) during s).any
          (fun s' => decide (P s s'))) = true) :
    ∃ s s', Kernel.Run client (fun _ _ => True) start s ∧ s.currentThread = t ∧
      s.stack t = first :: base ∧ Kernel.Run client (fun u _ => u.Inside t base) s s' ∧
      P s s' := by
  obtain ⟨s, hbefore, hs⟩ := (Option.any_eq_true _ _).mp h
  rw [Bool.and_eq_true] at hs
  obtain ⟨hcurrent, hcalled⟩ := of_decide_eq_true hs.1
  have hcheck : ∀ (u : Kernel κ σ) (_ : Choice ι), u.isInside t base = true →
      u.Inside t base := fun _ _ => Kernel.inside_of_isInside
  obtain ⟨s', hduring, hP⟩ := exists_reach_of_replay hcheck hs.2
  exact ⟨s, s', reach_of_replay (fun _ _ _ => trivial) before hbefore, hcurrent, hcalled,
    hduring, hP⟩

/-- A call that returns, found in the same way. -/
theorem exists_run_returns (client : Client κ σ ι) {P : Kernel κ σ → Kernel κ σ → Prop}
    [∀ s, DecidablePred (P s)] (first : Frame κ) (t : ThreadId) (base : List (Frame κ))
    (start : Kernel κ σ) (before during : List (Choice ι))
    (h : (replay (Kernel.step client) (fun _ _ => true) before start).any (fun s =>
        decide (s.currentThread = t ∧ s.stack t = first :: base) &&
        (replay (Kernel.step client) (fun u _ => u.isInside t base) during s).any
          (fun s' => decide ((s'.currentThread = t ∧ s'.stack t = base) ∧ P s s'))) = true) :
    ∃ s s', Kernel.Run client (fun _ _ => True) start s ∧
      Kernel.Returns client first t base s s' ∧ P s s' := by
  obtain ⟨s, s', hrun, hcurrent, hcalled, hduring, hreturned, hP⟩ :=
    exists_run_inside client first t base start before during h
  exact ⟨s, s', hrun, ⟨hcurrent, hcalled, hduring, hreturned⟩, hP⟩

/-- The same from a boot state. -/
theorem exists_returns (client : Client κ σ ι) {P : Kernel κ σ → Kernel κ σ → Prop}
    [∀ s, DecidablePred (P s)] (first : Frame κ) (t : ThreadId) (base : List (Frame κ))
    (initialValue : SemaphoreId → Int) (state : σ) (main : κ)
    (before during : List (Choice ι))
    (h : (replay (Kernel.step client) (fun _ _ => true) before
      (Kernel.boot initialValue state main)).any (fun s =>
        decide (s.currentThread = t ∧ s.stack t = first :: base) &&
        (replay (Kernel.step client) (fun u _ => u.isInside t base) during s).any
          (fun s' => decide ((s'.currentThread = t ∧ s'.stack t = base) ∧ P s s'))) = true) :
    ∃ s s', Kernel.Reachable client s ∧ Kernel.Returns client first t base s s' ∧
      P s s' := by
  obtain ⟨s, s', hrun, hreturns, hP⟩ :=
    exists_run_returns client first t base _ before during h
  exact ⟨s, s', ⟨_, _, _, hrun⟩, hreturns, hP⟩

end Replays

section FreeClient

/-- The client that makes whatever calls its input asks for. -/
def freeClient : Client Unit Unit (List (Request Unit)) where
  exec := fun requests _ _ => .ok ((), requests)

/-- A step at which no interrupt is due. -/
def quietly (requests : List (Request Unit)) : Choice (List (Request Unit)) :=
  ⟨[], none, requests⟩

/-- `n` steps at which no interrupt is due and no client code runs. -/
def steps (n : Nat) : List (Choice (List (Request Unit))) := List.replicate n (quietly [])

/-- Three threads at a tick: the main thread waits for a semaphore, the first
one it forked is ready and the second one runs. -/
theorem reachable_inOnePlace_freeClient :
    ∃ s, Kernel.Reachable freeClient s ∧ s.SwitchPoint ∧ s.currentThread = 2 ∧
      s.InOnePlace 0 ∧ s.InOnePlace 1 ∧ s.InOnePlace 2 := by
  obtain ⟨s, hreach, hpoint, hcurrent, hcount, hhistory⟩ :=
    exists_reachable freeClient
      (P := fun s => s.SwitchPoint ∧ s.currentThread = 2 ∧ s.threadCount = 3 ∧ s.history = [])
      (fun _ => 0) () ()
      (steps 2 ++ [quietly
        [.call (.threadFork ()), .call (.threadFork ()), .call (.semaphoreP 0)]] ++
        steps 11 ++ [⟨[.timer], none, []⟩] ++ steps 2) (by decide +kernel)
  have hplace : ∀ t < 3, s.InOnePlace t := fun t ht =>
    (Kernel.reachable_inOnePlace hreach hpoint (hcount ▸ ht)).1
      (by simp [Kernel.Finished, hhistory])
  exact ⟨s, hreach, hpoint, hcurrent, hplace 0 (by decide), hplace 1 (by decide),
    hplace 2 (by decide)⟩

end FreeClient

end Threads
end Nachos
