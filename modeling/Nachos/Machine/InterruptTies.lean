import Nachos.Machine.InterruptOrder

/-!
# Interrupts that are due at the same time

`CheckIfDue(FALSE)` takes the first interrupt off the list before it looks at the time.  If it is
not due, `SortedInsert` puts it back, behind all interrupts of its time.  So the list stays as it
was if and only if there are none; with a tie the interrupts change places at every check.
-/

namespace Nachos
namespace Hardware

open Threads Lib

variable {H σ : Type}

namespace Interrupt

/-- The first interrupt is due, or no other one is to occur at its time. -/
def KeepsFirst (s : Interrupt H σ) : Prop :=
  ∀ toOccur rest, s.pending = toOccur :: rest → s.stats.totalTicks < toOccur.when →
    ∀ p ∈ rest, p.when = toOccur.when → p = toOccur

/-- Interrupts for the same time have fired in the order in which they were scheduled. -/
def FiresInTurn (s : Interrupt H σ) : Prop :=
  (s.fired.map Prod.fst).Pairwise fun p q => p.when = q.when → [p, q].Sublist s.scheduled

instance [DecidableEq H] (s : Interrupt H σ) : Decidable s.FiresInTurn :=
  inferInstanceAs (Decidable (List.Pairwise _ _))

/-- The agenda of the controller is fair. -/
def Fair (s : Interrupt H σ) : Prop := s.agenda.Fair PendingInterrupt.when

variable {code : Code H σ} {s s' : Interrupt H σ}

/-- What a check that fires nothing does to the list. -/
theorem checkIfDue_pending_iff (hsorted : s.pending.Pairwise fun p q => p.when ≤ q.when)
    (h : s.checkIfDue code false = .ok (false, s')) :
    s'.pending = s.pending ↔ s.KeepsFirst := by
  cases checkIfDue_checks h with
  | empty hpending =>
      refine iff_of_true rfl fun toOccur rest hcons => ?_
      rw [hpending] at hcons
      simp at hcons
  | notDue toOccur rest hpending hlate =>
      have hiff := insertDue_first_iff (hpending ▸ hsorted)
      constructor
      · intro hsame first rest' hcons _
        obtain ⟨rfl, rfl⟩ := List.cons.inj (hpending.symm.trans hcons)
        exact hiff.mp (hsame.trans hpending)
      · intro hkeeps
        exact (hiff.mpr (hkeeps toOccur rest hpending hlate)).trans hpending.symm
  | onlyTimer toOccur hpending hidle =>
      refine iff_of_true hpending.symm fun first rest hcons _ p hp => ?_
      obtain ⟨-, rfl⟩ := List.cons.inj (hpending.symm.trans hcons)
      simp at hp

theorem Fair.of_agenda (h : s.Fair) (hpending : s'.pending = s.pending)
    (hscheduled : s'.scheduled = s.scheduled) (hfired : s'.fired = s.fired) : s'.Fair := by
  obtain ⟨horder, hknown, hturns⟩ := h
  unfold Fair agenda
  rw [hpending, hscheduled, hfired]
  exact ⟨horder, hknown, hturns⟩

theorem Fair.schedule {handler : H} {arg : Int} {fromNow : Nat} {type : IntType} (h : s.Fair)
    (hschedule : s.schedule handler arg fromNow type = .ok s') : s'.Fair := by
  unfold Interrupt.schedule at hschedule
  simp only at hschedule
  split at hschedule
  · obtain rfl := Except.ok.inj hschedule
    exact Agenda.Fair.enter h _
  · exact absurd hschedule (by simp)

theorem Fair.handlerCall {call : Call H} (h : s.Fair) (hcall : s.handlerCall call = .ok s') :
    s'.Fair := by
  cases call with
  | schedule handler arg fromNow type => exact h.schedule hcall
  | setLevel now =>
      simp only [Interrupt.handlerCall] at hcall
      split at hcall
      · obtain rfl := Except.ok.inj hcall
        exact h.of_agenda rfl rfl rfl
      · exact absurd hcall (by simp)
  | yieldOnReturn =>
      simp only [Interrupt.handlerCall] at hcall
      split at hcall
      · obtain rfl := Except.ok.inj hcall
        exact h.of_agenda rfl rfl rfl
      · exact absurd hcall (by simp)

theorem Fair.handlerCalls {calls : List (Call H)} (h : s.Fair)
    (hcalls : handlerCalls calls s = .ok s') : s'.Fair := by
  induction calls generalizing s with
  | nil =>
      obtain rfl := Except.ok.inj hcalls
      exact h
  | cons call calls ih =>
      rw [Interrupt.handlerCalls] at hcalls
      split at hcalls
      · rename_i u hcall
        exact ih (h.handlerCall hcall) hcalls
      · exact absurd hcalls (by simp)

/-- The first interrupt fires. -/
theorem Fair.fire {toOccur : PendingInterrupt H} {rest : List (PendingInterrupt H)} (h : s.Fair)
    (hpending : s.pending = toOccur :: rest)
    (hfire : { s with pending := rest }.fire code toOccur = .ok s') : s'.Fair := by
  unfold Interrupt.fire at hfire
  simp only at hfire
  split at hfire
  · rename_i handled hcalls
    obtain rfl := Except.ok.inj hfire
    refine Fair.of_agenda (Fair.handlerCalls ?_ hcalls) rfl rfl rfl
    exact Agenda.Fair.finish h hpending s.stats.totalTicks
  · exact absurd hfire (by simp)

theorem Fair.checkRemoved {toOccur : PendingInterrupt H} {rest : List (PendingInterrupt H)}
    {fired : Bool} (h : s.Fair) (hpending : s.pending = toOccur :: rest)
    (hremoved : { s with pending := rest }.checkRemoved code toOccur = .ok (fired, s')) :
    s'.Fair := by
  unfold Interrupt.checkRemoved at hremoved
  split at hremoved
  · rename_i honly
    obtain rfl : rest = [] := honly.2.2
    obtain ⟨-, rfl⟩ := Prod.mk.inj (Except.ok.inj hremoved)
    exact h.of_agenda hpending.symm rfl rfl
  · split at hremoved
    · rename_i u hfire
      obtain ⟨-, rfl⟩ := Prod.mk.inj (Except.ok.inj hremoved)
      exact h.fire hpending hfire
    · exact absurd hremoved (by simp)

theorem Fair.advanceTo (h : s.Fair) (when : Nat) : (s.advanceTo when).Fair := by
  unfold Interrupt.advanceTo
  split
  · exact h.of_agenda rfl rfl rfl
  · exact h

/-- A check keeps the order if the first interrupt keeps its place. -/
theorem Fair.checkIfDue {advanceClock fired : Bool} (h : s.Fair)
    (hkeeps : advanceClock = false → s.KeepsFirst)
    (hcheck : s.checkIfDue code advanceClock = .ok (fired, s')) : s'.Fair := by
  unfold Interrupt.checkIfDue at hcheck
  split at hcheck
  · cases hpending : s.pending with
    | nil =>
        rw [hpending] at hcheck
        obtain ⟨-, rfl⟩ := Prod.mk.inj (Except.ok.inj hcheck)
        exact h
    | cons toOccur rest =>
        rw [hpending] at hcheck
        cases advanceClock with
        | true =>
            have hadvanced : { s with pending := rest }.advanceTo toOccur.when =
                { s.advanceTo toOccur.when with pending := rest } := by
              unfold Interrupt.advanceTo
              split
              · rfl
              · rfl
            simp only [if_true] at hcheck
            rw [hadvanced] at hcheck
            refine (h.advanceTo toOccur.when).checkRemoved ?_ hcheck
            unfold Interrupt.advanceTo
            split
            · exact hpending
            · exact hpending
        | false =>
            simp only [Bool.false_eq_true, if_false] at hcheck
            split at hcheck
            · rename_i hlate
              obtain ⟨-, rfl⟩ := Prod.mk.inj (Except.ok.inj hcheck)
              refine h.of_agenda (Eq.trans ?_ hpending.symm) rfl rfl
              exact (insertDue_first_iff (hpending ▸ h.order)).mpr
                (hkeeps rfl toOccur rest hpending hlate)
            · exact h.checkRemoved hpending hcheck
  · exact absurd hcheck (by simp)

theorem Fair.round (h : s.Fair) (hkeeps : s.KeepsFirst) (hround : s.round code = .ok s') :
    s'.Fair := by
  unfold Interrupt.round at hround
  split at hround
  · rename_i u hcheck
    obtain rfl := Except.ok.inj hround
    exact h.checkIfDue (fun _ => hkeeps) hcheck
  · rename_i last hcheck
    obtain rfl := Except.ok.inj hround
    have hlast := h.checkIfDue (fun _ => hkeeps) hcheck
    cases s.place with
    | outside => exact hlast
    | oneTick =>
        simp only [endTick]
        split
        · exact hlast.of_agenda rfl rfl rfl
        · exact hlast.of_agenda rfl rfl rfl
    | idle => exact hlast.of_agenda rfl rfl rfl
  · exact absurd hround (by simp)

theorem Fair.idle (h : s.Fair) (hidle : s.idle code = .ok s') : s'.Fair := by
  unfold Interrupt.idle at hidle
  split at hidle
  · rename_i u hcheck
    obtain rfl := Except.ok.inj hidle
    have hmode : Fair { s with status := .idleMode } := h.of_agenda rfl rfl rfl
    exact (hmode.checkIfDue (by simp) hcheck).of_agenda rfl rfl rfl
  · exact absurd hidle (by simp)
  · exact absurd hidle (by simp)

theorem Fair.setLevel {now : IntStatus} (h : s.Fair) (hset : s.setLevel now = .ok s') :
    s'.Fair := by
  unfold Interrupt.setLevel at hset
  split at hset
  · split at hset
    · obtain rfl := Except.ok.inj hset
      exact h.of_agenda rfl rfl rfl
    · obtain rfl := Except.ok.inj hset
      exact h.of_agenda rfl rfl rfl
  · exact absurd hset (by simp)

/-- Every step keeps the order, if the checks do not make interrupts change places. -/
theorem Fair.step {op : Op H σ} (h : s.Fair) (hkeeps : s.place ≠ .outside → s.KeepsFirst)
    (hstep : s.step code op = .ok s') : s'.Fair := by
  cases hplace : s.place with
  | outside =>
      unfold Interrupt.step at hstep
      rw [hplace] at hstep
      cases op with
      | schedule handler arg fromNow type => exact h.schedule hstep
      | setLevel now => exact h.setLevel hstep
      | idle => exact h.idle hstep
      | round => exact absurd hstep (by simp)
      | _ =>
          obtain rfl := Except.ok.inj hstep
          exact h.of_agenda rfl rfl rfl
  | oneTick =>
      unfold Interrupt.step at hstep
      rw [hplace] at hstep
      cases op with
      | round => exact h.round (hkeeps (by simp [hplace])) hstep
      | _ => exact absurd hstep (by simp)
  | idle =>
      unfold Interrupt.step at hstep
      rw [hplace] at hstep
      cases op with
      | round => exact h.round (hkeeps (by simp [hplace])) hstep
      | _ => exact absurd hstep (by simp)

theorem fair_new (devices : σ) : (new devices : Interrupt H σ).Fair :=
  ⟨List.Pairwise.nil, by simp [agenda, new], List.Pairwise.nil⟩

/-- A check that fires nothing, on any list: it stays as it was if and only if the first interrupt
keeps its place.  In a run in which it always does, interrupts for the same time fire in the order
in which they were scheduled. -/
theorem checkIfDue_keeps_order (hsorted : s.pending.Pairwise fun p q => p.when ≤ q.when)
    (hcheck : s.checkIfDue code false = .ok (false, s')) :
    (s'.pending = s.pending ↔ s.KeepsFirst) ∧
      ∀ devices u, Reach (step code) (fun v _ => v.place ≠ .outside → v.KeepsFirst)
        (new devices) u → u.FiresInTurn := by
  refine ⟨checkIfDue_pending_iff hsorted hcheck, fun devices u hrun => ?_⟩
  have hfair : u.Fair := hrun.invariant
    (fun v v' op hv hguard hstep => Fair.step hv hguard hstep) (fair_new devices)
  exact (List.pairwise_append.mp hfair.turns).1

/-- The controller after a check that fires nothing. -/
def checked (s : Interrupt H σ) (code : Code H σ) : Option (Interrupt H σ) :=
  match s.checkIfDue code false with
  | .ok (false, s') => some s'
  | _ => none

theorem checkIfDue_of_checked (h : s.checked code = some s') :
    s.checkIfDue code false = .ok (false, s') := by
  unfold checked at h
  split at h
  · rename_i u hcheck
    rw [hcheck, Option.some.inj h]
  · exact absurd h (by simp)

/-- The end of a run in which a loop begins when everything is due. -/
theorem exists_kept_run (code : Code H σ) (devices : σ) {P : Interrupt H σ → Prop}
    [DecidablePred P] (ops : List (Op H σ))
    (h : (replay (step code) (fun v _ => decide (v.place ≠ .outside →
      ∀ p ∈ v.pending, p.when ≤ v.stats.totalTicks)) ops (new devices)).any
        (fun s => decide (P s)) = true) :
    ∃ s, Reach (step code) (fun v _ => v.place ≠ .outside → v.KeepsFirst) (new devices) s ∧ P s := by
  refine exists_reach_of_replay (fun v op hguard hplace toOccur rest hpending hlate => ?_) h
  have hdue := of_decide_eq_true hguard hplace toOccur (hpending ▸ List.mem_cons_self)
  omega

/-- Two interrupts for the same time that are due at the first check. -/
theorem checkIfDue_keeps_order_due :
    ∃ s s' u : Interrupt Bool Unit, s.checkIfDue timerCode false = .ok (false, s') ∧
      s'.pending = s.pending ∧ s.pending.map PendingInterrupt.when = [5, 7] ∧
      u.fired.map (fun f => (f.1.arg, f.1.when)) = [(1, 5), (2, 5)] ∧ u.FiresInTurn := by
  obtain ⟨s, -, hpending, hchecked⟩ := exists_run timerCode ()
    (P := fun s : Interrupt Bool Unit =>
      s.pending = [⟨false, 1, 5, .diskInt, 0⟩, ⟨false, 2, 7, .diskInt, 1⟩] ∧
        (s.checked timerCode).isSome = true)
    [.schedule false 1 5 .diskInt, .schedule false 2 7 .diskInt] (by decide +kernel)
  obtain ⟨u, hrun, hfired⟩ := exists_kept_run timerCode ()
    (P := fun u : Interrupt Bool Unit =>
      u.fired.map (fun f => (f.1.arg, f.1.when)) = [(1, 5), (2, 5)])
    [.schedule false 1 5 .diskInt, .schedule false 2 5 .consoleReadInt, .setLevel .intOn,
      .round, .round, .round] (by decide +kernel)
  obtain ⟨s', hs'⟩ := Option.isSome_iff_exists.mp hchecked
  have hcheck := checkIfDue_of_checked hs'
  have hsorted : s.pending.Pairwise fun p q => p.when ≤ q.when := by
    rw [hpending]
    decide
  have hmain := checkIfDue_keeps_order hsorted hcheck
  refine ⟨s, s', u, hcheck, hmain.1.mpr ?_, by rw [hpending]; rfl, hfired, hmain.2 () u hrun⟩
  intro toOccur rest hcons _ p hp heq
  obtain ⟨rfl, rfl⟩ := List.cons.inj (hpending.symm.trans hcons)
  obtain rfl := List.mem_singleton.mp hp
  simp at heq

/-- Two interrupts for the same time change places at a check at which they are not due, and fire in
the wrong order. -/
theorem checkIfDue_swaps :
    (¬ ∀ s s' : Interrupt Bool Unit, (s.pending.Pairwise fun p q => p.when ≤ q.when) →
      s.checkIfDue timerCode false = .ok (false, s') → s'.pending = s.pending) ∧
    ¬ ∀ u : Interrupt Bool Unit, Run timerCode (new ()) u → u.FiresInTurn := by
  constructor
  · intro hclaim
    obtain ⟨s, -, hpending, hchecked⟩ := exists_run timerCode ()
      (P := fun s : Interrupt Bool Unit =>
        s.pending = [⟨false, 1, 15, .diskInt, 0⟩, ⟨false, 2, 15, .consoleReadInt, 1⟩] ∧
          (s.checked timerCode).any (fun s' => s'.pending.map PendingInterrupt.arg = [2, 1]) = true)
      [.schedule false 1 15 .diskInt, .schedule false 2 15 .consoleReadInt] (by decide +kernel)
    obtain ⟨s', hs', hswapped⟩ := (Option.any_eq_true _ _).mp hchecked
    have hsorted : s.pending.Pairwise fun p q => p.when ≤ q.when := by
      rw [hpending]
      decide
    have hsame := hclaim s s' hsorted (checkIfDue_of_checked hs')
    rw [hsame, hpending] at hswapped
    simp at hswapped
  · intro hclaim
    obtain ⟨u, hrun, hturn⟩ := exists_run timerCode ()
      (P := fun u : Interrupt Bool Unit => ¬ u.FiresInTurn)
      [.schedule false 1 15 .diskInt, .schedule false 2 15 .consoleReadInt, .setLevel .intOn,
        .round, .oneTick, .round, .round, .round] (by decide +kernel)
    exact hturn (hclaim u hrun)

end Interrupt

end Hardware
end Nachos
