import Nachos.Machine.Interrupt

/-!
# Interrupts fire once, in time and in order

The controller keeps an agenda of its pending interrupts: every function of
`class Interrupt` makes moves of the agenda.  A handler can only put interrupts on it
that are not yet due, so a loop over `CheckIfDue(FALSE)` has one round for each
interrupt that is due when it starts, and one more.
-/

namespace Nachos
namespace Hardware

open Threads Lib

variable {H σ : Type}

namespace Interrupt

/-- The agenda of the controller. -/
def agenda (s : Interrupt H σ) : Agenda (PendingInterrupt H) :=
  ⟨s.stats.totalTicks, s.pending, s.scheduled, s.fired⟩

/-- Serial numbers count the calls of `Schedule`. -/
def Numbered (s : Interrupt H σ) : Prop :=
  ∀ p ∈ s.scheduled, p.serial < s.scheduled.length

/-- How many pending interrupts are due. -/
def dueCount (s : Interrupt H σ) : Nat :=
  s.pending.countP fun p => p.when ≤ s.stats.totalTicks

/-- Some moves of the agenda. -/
abbrev Moves : Agenda (PendingInterrupt H) → Agenda (PendingInterrupt H) → Prop :=
  Agenda.Moves PendingInterrupt.when

variable {code : Code H σ} {s s' : Interrupt H σ}

section Handlers

/-- What the calls of a handler may do. -/
structure Called (s s' : Interrupt H σ) : Prop where
  moves : s.Numbered → Moves s.agenda s'.agenda
  numbered : s.Numbered → s'.Numbered
  stats : s'.stats = s.stats
  status : s'.status = s.status
  place : s'.place = s.place
  inHandler : s'.inHandler = s.inHandler
  level : s.inHandler = true → s.level = .intOff → s'.level = .intOff
  dueCount : s'.dueCount = s.dueCount

theorem Called.refl (s : Interrupt H σ) : Called s s :=
  ⟨fun _ => .refl, id, rfl, rfl, rfl, rfl, fun _ => id, rfl⟩

theorem Called.trans {s'' : Interrupt H σ} (h : Called s s') (h' : Called s' s'') :
    Called s s'' where
  moves hs := (h.moves hs).trans (h'.moves (h.numbered hs))
  numbered hs := h'.numbered (h.numbered hs)
  stats := h'.stats.trans h.stats
  status := h'.status.trans h.status
  place := h'.place.trans h.place
  inHandler := h'.inHandler.trans h.inHandler
  level hin hoff := h'.level (h.inHandler.trans hin) (h.level hin hoff)
  dueCount := h'.dueCount.trans h.dueCount

/-- `Schedule` puts an interrupt on the agenda ahead of its time. -/
theorem schedule_called {handler : H} {arg : Int} {fromNow : Nat} {type : IntType}
    (h : s.schedule handler arg fromNow type = .ok s') : Called s s' := by
  unfold schedule at h
  simp only at h
  split at h
  · rename_i hpos
    obtain rfl := Except.ok.inj h
    constructor
    case moves =>
      intro hnumbered
      refine .single (.enter _ ?_ ?_)
      · show s.stats.totalTicks < s.stats.totalTicks + fromNow
        omega
      · intro hmem
        exact Nat.lt_irrefl _ (hnumbered _ hmem)
    case numbered =>
      intro hnumbered p hp
      show p.serial < (s.scheduled ++ [_]).length
      rw [List.length_append, List.length_singleton]
      rcases List.mem_append.mp hp with hold | hnew
      · have := hnumbered p hold
        omega
      · rw [List.mem_singleton.mp hnew]
        exact Nat.lt_succ_self _
    case dueCount =>
      show (insertDue _ _ s.pending).countP _ = s.pending.countP _
      rw [insertDue_perm.countP_eq, List.countP_cons_of_neg]
      · rfl
      · show ¬ decide (s.stats.totalTicks + fromNow ≤ s.stats.totalTicks) = true
        rw [decide_eq_true_eq]
        omega
    all_goals first | rfl | exact fun _ => id
  · exact absurd h (by simp)

theorem handlerCall_called {call : Call H} (h : s.handlerCall call = .ok s') : Called s s' := by
  cases call with
  | schedule handler arg fromNow type => exact schedule_called h
  | setLevel now =>
      simp only [handlerCall] at h
      split at h
      · rename_i hallowed
        obtain rfl := Except.ok.inj h
        refine ⟨fun _ => .refl, id, rfl, rfl, rfl, rfl, fun hin _ => ?_, rfl⟩
        rcases hallowed with hoff | hout
        · exact hoff
        · rw [hin] at hout
          exact absurd hout (by simp)
      · exact absurd h (by simp)
  | yieldOnReturn =>
      simp only [handlerCall] at h
      split at h
      · obtain rfl := Except.ok.inj h
        exact ⟨fun _ => .refl, id, rfl, rfl, rfl, rfl, fun _ => id, rfl⟩
      · exact absurd h (by simp)

theorem handlerCalls_called {calls : List (Call H)} (h : handlerCalls calls s = .ok s') :
    Called s s' := by
  induction calls generalizing s with
  | nil =>
      obtain rfl := Except.ok.inj h
      exact Called.refl s
  | cons call calls ih =>
      rw [handlerCalls] at h
      split at h
      · rename_i u hcall
        exact (handlerCall_called hcall).trans (ih h)
      · exact absurd h (by simp)

/-- What firing an interrupt does once it is off the list. -/
structure Fires (toOccur : PendingInterrupt H) (s s' : Interrupt H σ) : Prop where
  moves : s.Numbered → Moves
    { s.agenda with done := s.fired ++ [(toOccur, s.stats.totalTicks)] } s'.agenda
  numbered : s.Numbered → s'.Numbered
  stats : s'.stats = s.stats
  status : s'.status = s.status
  place : s'.place = s.place
  inHandler : s'.inHandler = false
  level : s.level = .intOff → s'.level = .intOff
  dueCount : s'.dueCount = s.dueCount

theorem fire_fires {toOccur : PendingInterrupt H} (h : s.fire code toOccur = .ok s') :
    Fires toOccur s s' := by
  unfold fire at h
  simp only at h
  split at h
  · rename_i handled hcalls
    obtain rfl := Except.ok.inj h
    have hcalled := handlerCalls_called hcalls
    exact ⟨fun hs => hcalled.moves hs, fun hs => hcalled.numbered hs, hcalled.stats, rfl,
      hcalled.place, rfl, fun hoff => hcalled.level rfl hoff, hcalled.dueCount⟩
  · exact absurd h (by simp)

end Handlers

section Rounds

/-- What `CheckIfDue(FALSE)` does. -/
inductive Checks (s : Interrupt H σ) : Bool → Interrupt H σ → Prop
  | empty (hpending : s.pending = []) : Checks s false s
  | notDue (toOccur : PendingInterrupt H) (rest : List (PendingInterrupt H))
      (hpending : s.pending = toOccur :: rest) (hlate : s.stats.totalTicks < toOccur.when) :
      Checks s false { s with pending := insertDue PendingInterrupt.when toOccur rest }
  | onlyTimer (toOccur : PendingInterrupt H) (hpending : s.pending = [toOccur])
      (hidle : s.status = .idleMode) :
      Checks s false { s with pending := insertDue PendingInterrupt.when toOccur [] }
  | fires (toOccur : PendingInterrupt H) (rest : List (PendingInterrupt H))
      (hpending : s.pending = toOccur :: rest) (hdue : toOccur.when ≤ s.stats.totalTicks)
      {s' : Interrupt H σ} (hfires : Fires toOccur { s with pending := rest } s') :
      Checks s true s'

/-- `CheckIfDue` once it has taken an interrupt off the list: it is put back, or it
fires. -/
theorem checkRemoved_ok {toOccur : PendingInterrupt H} {fired : Bool}
    (h : s.checkRemoved code toOccur = .ok (fired, s')) :
    (fired = false ∧ s.status = .idleMode ∧ s.pending = [] ∧ s' = s.sortedInsert toOccur) ∨
      (fired = true ∧ Fires toOccur s s') := by
  unfold checkRemoved at h
  split at h
  · rename_i honly
    simp only [Except.ok.injEq, Prod.mk.injEq] at h
    exact Or.inl ⟨h.1.symm, honly.1, honly.2.2, h.2.symm⟩
  · split at h
    · rename_i u hfire
      simp only [Except.ok.injEq, Prod.mk.injEq] at h
      exact Or.inr ⟨h.1.symm, h.2 ▸ fire_fires hfire⟩
    · exact absurd h (by simp)

theorem checkIfDue_checks {fired : Bool} (h : s.checkIfDue code false = .ok (fired, s')) :
    Checks s fired s' := by
  unfold checkIfDue at h
  split at h
  · cases hpending : s.pending with
    | nil =>
        rw [hpending] at h
        simp only [Except.ok.injEq, Prod.mk.injEq] at h
        obtain ⟨rfl, rfl⟩ := h
        exact .empty hpending
    | cons toOccur rest =>
        rw [hpending] at h
        simp only [Bool.false_eq_true, if_false] at h
        split at h
        · rename_i hlate
          simp only [Except.ok.injEq, Prod.mk.injEq] at h
          obtain ⟨rfl, rfl⟩ := h
          exact .notDue toOccur rest hpending hlate
        · rename_i hdue
          rcases checkRemoved_ok h with ⟨rfl, hidle, hempty, rfl⟩ | ⟨rfl, hfires⟩
          · obtain rfl : rest = [] := hempty
            exact .onlyTimer toOccur hpending hidle
          · exact .fires toOccur rest hpending (by omega) hfires
  · exact absurd h (by simp)

/-- `CheckIfDue(TRUE)` in `Idle`: the clock is advanced and the first interrupt
fires. -/
theorem checkIfDue_idle (h : s.checkIfDue code true = .ok (true, s')) :
    ∃ toOccur rest, s.pending = toOccur :: rest ∧
      Fires toOccur ({ s with pending := rest }.advanceTo toOccur.when) s' := by
  unfold checkIfDue at h
  split at h
  · cases hpending : s.pending with
    | nil =>
        rw [hpending] at h
        simp at h
    | cons toOccur rest =>
        rw [hpending] at h
        rcases checkRemoved_ok h with ⟨hfalse, -⟩ | ⟨-, hfires⟩
        · simp at hfalse
        · exact ⟨toOccur, rest, rfl, hfires⟩
  · exact absurd h (by simp)

/-- Firing the first interrupt is a move of the agenda. -/
theorem Fires.moves_agenda {toOccur : PendingInterrupt H} {rest : List (PendingInterrupt H)}
    (hfires : Fires toOccur { s with pending := rest } s')
    (hpending : s.pending = toOccur :: rest) (hdue : toOccur.when ≤ s.stats.totalTicks)
    (hnumbered : s.Numbered) : Moves s.agenda s'.agenda :=
  .head (.finish hpending hdue) (hfires.moves hnumbered)

theorem Checks.moves {fired : Bool} (h : Checks s fired s') (hnumbered : s.Numbered) :
    Moves s.agenda s'.agenda := by
  cases h with
  | empty => exact .refl
  | notDue toOccur rest hpending => exact .single (.putBack hpending)
  | onlyTimer toOccur hpending => exact .single (.putBack hpending)
  | fires toOccur rest hpending hdue hfires =>
      exact hfires.moves_agenda hpending hdue hnumbered

/-- The clock of `advanceTo`. -/
theorem advanceTo_agenda (when : Nat) (s : Interrupt H σ) :
    (s.advanceTo when).agenda =
        { s.agenda with now := s.stats.totalTicks + (when - s.stats.totalTicks) } ∧
      when ≤ (s.advanceTo when).stats.totalTicks := by
  unfold advanceTo
  split
  · rename_i hlt
    refine ⟨?_, Nat.le_refl _⟩
    unfold agenda
    simp only [Agenda.mk.injEq, and_true]
    omega
  · rename_i hge
    refine ⟨?_, Nat.le_of_not_lt hge⟩
    unfold agenda
    simp only [Agenda.mk.injEq, and_true]
    omega

end Rounds

section Invariant

/-- The controller between two steps. -/
structure Tracked (s : Interrupt H σ) : Prop where
  sound : s.agenda.Sound PendingInterrupt.when
  numbered : s.Numbered
  status : s.place ≠ .idle → s.status ≠ .idleMode
  inHandler : s.inHandler = false
  level : s.place ≠ .outside → s.level = .intOff

/-- A step moves the agenda and ends with the controller in order. -/
structure Advances (s s' : Interrupt H σ) : Prop where
  moves : Moves s.agenda s'.agenda
  numbered : s'.Numbered
  status : s'.place ≠ .idle → s'.status ≠ .idleMode
  inHandler : s'.inHandler = false
  level : s'.place ≠ .outside → s'.level = .intOff

theorem Advances.tracked (hadv : Advances s s') (h : s.Tracked) : s'.Tracked :=
  ⟨Agenda.Moves.sound hadv.moves h.sound, hadv.numbered, hadv.status, hadv.inHandler, hadv.level⟩

/-- A tick passes some time. -/
theorem oneTick_moves (s : Interrupt H σ) : Moves s.agenda s.oneTick.agenda := by
  by_cases hmode : s.status = .systemMode
  · have hagenda : s.oneTick.agenda =
        { s.agenda with now := s.agenda.now + Kernel.systemTick } := by
      simp [oneTick, agenda, hmode]
    rw [hagenda]
    exact .single (.pass _)
  · have hagenda : s.oneTick.agenda =
        { s.agenda with now := s.agenda.now + Kernel.userTick } := by
      simp [oneTick, agenda, hmode]
    rw [hagenda]
    exact .single (.pass _)

theorem Tracked.oneTick (h : s.Tracked) (hplace : s.place = .outside) :
    Advances s s.oneTick where
  moves := oneTick_moves s
  numbered := h.numbered
  status _ := h.status (by simp [hplace])
  inHandler := h.inHandler
  level _ := rfl

theorem Tracked.setLevel {now : IntStatus} (h : s.Tracked) (hplace : s.place = .outside)
    (hset : s.setLevel now = .ok s') : Advances s s' := by
  unfold Interrupt.setLevel at hset
  split at hset
  · split at hset
    · obtain rfl := Except.ok.inj hset
      have hset : ({ s with level := now } : Interrupt H σ).Tracked :=
        ⟨h.sound, h.numbered, h.status, h.inHandler, fun hne => absurd hplace hne⟩
      have hticked := hset.oneTick hplace
      exact ⟨hticked.moves, hticked.numbered, hticked.status, hticked.inHandler, hticked.level⟩
    · obtain rfl := Except.ok.inj hset
      exact ⟨.refl, h.numbered, h.status, h.inHandler, fun hne => absurd hplace hne⟩
  · exact absurd hset (by simp)

theorem advanceTo_frame (when : Nat) (s : Interrupt H σ) :
    (s.advanceTo when).scheduled = s.scheduled ∧ (s.advanceTo when).level = s.level := by
  unfold advanceTo
  split
  · exact ⟨rfl, rfl⟩
  · exact ⟨rfl, rfl⟩

theorem checkIfDue_level {fired : Bool} {advanceClock : Bool}
    (h : s.checkIfDue code advanceClock = .ok (fired, s')) : s.level = .intOff := by
  unfold checkIfDue at h
  split at h
  · assumption
  · exact absurd h (by simp)

/-- `Idle` lets the time pass until the first interrupt is due, and fires it. -/
theorem Tracked.idle (h : s.Tracked) (hidle : s.idle code = .ok s') : Advances s s' := by
  unfold Interrupt.idle at hidle
  split at hidle
  · rename_i u hcheck
    obtain rfl := Except.ok.inj hidle
    obtain ⟨toOccur, rest, hpending, hfires⟩ := checkIfDue_idle hcheck
    have hlevel : s.level = .intOff := checkIfDue_level (s := { s with status := .idleMode }) hcheck
    obtain ⟨hagenda, hdue⟩ := advanceTo_agenda toOccur.when
      ({ s with status := .idleMode, pending := rest } : Interrupt H σ)
    obtain ⟨hscheduled, hsame⟩ := advanceTo_frame toOccur.when
      ({ s with status := .idleMode, pending := rest } : Interrupt H σ)
    have hnumbered : (advanceTo toOccur.when
        ({ s with status := .idleMode, pending := rest } : Interrupt H σ)).Numbered := by
      unfold Numbered
      rw [hscheduled]
      exact h.numbered
    constructor
    case moves =>
      refine .head (.pass (toOccur.when - s.stats.totalTicks)) (.head (.finish hpending ?_) ?_)
      · show toOccur.when ≤ s.stats.totalTicks + (toOccur.when - s.stats.totalTicks)
        omega
      · have hmoves := hfires.moves hnumbered
        rw [hagenda] at hmoves
        have hdone : (advanceTo toOccur.when
            ({ s with status := .idleMode, pending := rest } : Interrupt H σ)).fired =
              s.fired := congrArg Agenda.done hagenda
        have hnow : (advanceTo toOccur.when
            ({ s with status := .idleMode, pending := rest } : Interrupt H σ)).stats.totalTicks =
              s.stats.totalTicks + (toOccur.when - s.stats.totalTicks) :=
          congrArg Agenda.now hagenda
        rw [hdone, hnow] at hmoves
        exact hmoves
    case numbered => exact hfires.numbered hnumbered
    case status => exact fun hne => absurd rfl hne
    case inHandler => exact hfires.inHandler
    case level => exact fun _ => hfires.level (hsame.trans hlevel)
  · exact absurd hidle (by simp)
  · exact absurd hidle (by simp)

/-- The place behind a round. -/
theorem Tracked.round (h : s.Tracked) (hplace : s.place ≠ .outside)
    (hround : s.round code = .ok s') : Advances s s' := by
  unfold Interrupt.round at hround
  split at hround
  · rename_i u hcheck
    obtain rfl := Except.ok.inj hround
    cases hchecks : checkIfDue_checks hcheck with
    | fires toOccur rest hpending hdue hfires =>
        constructor
        case moves => exact hfires.moves_agenda hpending hdue h.numbered
        case numbered => exact hfires.numbered h.numbered
        case status =>
          intro hne
          rw [hfires.status]
          exact h.status (hfires.place ▸ hne)
        case inHandler => exact hfires.inHandler
        case level => exact fun _ => hfires.level (h.level hplace)
  · rename_i last hcheck
    obtain rfl := Except.ok.inj hround
    have hchecks := checkIfDue_checks hcheck
    have hmoves := hchecks.moves h.numbered
    have hsame : last.Numbered ∧ last.status = s.status ∧ last.inHandler = false := by
      cases hchecks with
      | empty => exact ⟨h.numbered, rfl, h.inHandler⟩
      | notDue => exact ⟨h.numbered, rfl, h.inHandler⟩
      | onlyTimer => exact ⟨h.numbered, rfl, h.inHandler⟩
    obtain ⟨hnumbered, hstatus, hhandler⟩ := hsame
    cases hwhere : s.place with
    | outside => exact absurd hwhere hplace
    | oneTick =>
        simp only [endTick]
        split
        · exact ⟨hmoves, hnumbered, by simp, hhandler, by simp⟩
        · refine ⟨hmoves, hnumbered, fun _ => ?_, hhandler, by simp⟩
          rw [hstatus]
          exact h.status (by simp [hwhere])
    | idle =>
        simp only [endIdle]
        exact ⟨hmoves, hnumbered, by simp, hhandler, by simp⟩
  · exact absurd hround (by simp)

/-- Every step moves the agenda. -/
theorem Tracked.step {op : Op H σ} (h : s.Tracked) (hstep : s.step code op = .ok s') :
    Advances s s' := by
  cases hplace : s.place with
  | outside =>
      have hlevel : ∀ u : Interrupt H σ, u.place = .outside → u.place ≠ .outside →
          u.level = .intOff := by
        intro u hu hne
        exact absurd hu hne
      unfold Interrupt.step at hstep
      rw [hplace] at hstep
      cases op with
      | schedule handler arg fromNow type =>
          have hcalled := schedule_called hstep
          constructor
          case moves => exact hcalled.moves h.numbered
          case numbered => exact hcalled.numbered h.numbered
          case status =>
            intro hne
            rw [hcalled.status]
            exact h.status (hcalled.place ▸ hne)
          case inHandler => exact hcalled.inHandler.trans h.inHandler
          case level => exact hlevel s' (hcalled.place.trans hplace)
      | setLevel now => exact h.setLevel hplace hstep
      | oneTick =>
          obtain rfl := Except.ok.inj hstep
          exact h.oneTick hplace
      | idle => exact h.idle hstep
      | enterSystem =>
          obtain rfl := Except.ok.inj hstep
          exact ⟨.refl, h.numbered, by simp, h.inHandler, hlevel _ rfl⟩
      | enterUser =>
          obtain rfl := Except.ok.inj hstep
          exact ⟨.refl, h.numbered, by simp, h.inHandler, hlevel _ rfl⟩
      | device devices =>
          obtain rfl := Except.ok.inj hstep
          exact ⟨.refl, h.numbered, fun _ => h.status (by simp [hplace]), h.inHandler, hlevel _ rfl⟩
      | round => exact absurd hstep (by simp)
  | oneTick =>
      unfold Interrupt.step at hstep
      rw [hplace] at hstep
      cases op with
      | round => exact h.round (by simp [hplace]) hstep
      | _ => exact absurd hstep (by simp)
  | idle =>
      unfold Interrupt.step at hstep
      rw [hplace] at hstep
      cases op with
      | round => exact h.round (by simp [hplace]) hstep
      | _ => exact absurd hstep (by simp)

theorem tracked_new (devices : σ) : (new devices : Interrupt H σ).Tracked where
  sound := ⟨List.Pairwise.nil, List.nodup_nil, .refl [], by simp [agenda, new],
    List.Pairwise.nil, by simp [agenda, new]⟩
  numbered := by simp [Numbered, new]
  status _ := by simp [new]
  inHandler := rfl
  level hne := absurd rfl hne

end Invariant

section Loops

/-- A round fires an interrupt and leaves one less that is due, or it is the last. -/
theorem round_progress (hplace : s.place ≠ .outside) (hround : s.round code = .ok s') :
    s'.place = .outside ∨ (s'.place = s.place ∧ s'.dueCount + 1 = s.dueCount) := by
  unfold round at hround
  split at hround
  · rename_i u hcheck
    obtain rfl := Except.ok.inj hround
    cases checkIfDue_checks hcheck with
    | fires toOccur rest hpending hdue hfires =>
        refine Or.inr ⟨hfires.place, ?_⟩
        rw [hfires.dueCount]
        unfold dueCount
        rw [hpending, List.countP_cons_of_pos]
        exact decide_eq_true hdue
  · obtain rfl := Except.ok.inj hround
    refine Or.inl ?_
    cases hwhere : s.place with
    | outside => exact absurd hwhere hplace
    | oneTick =>
        simp only [endTick]
        split
        · rfl
        · rfl
    | idle => rfl
  · exact absurd hround (by simp)

/-- The last round of `OneTick` leaves nothing that is due. -/
theorem Tracked.none_due (h : s.Tracked) (hplace : s.place = .oneTick)
    (hround : s.round code = .ok s') (hend : s'.place = .outside) :
    ∀ p ∈ s'.pending, s'.stats.totalTicks < p.when := by
  unfold Interrupt.round at hround
  split at hround
  · rename_i u hcheck
    obtain rfl := Except.ok.inj hround
    cases checkIfDue_checks hcheck with
    | fires toOccur rest hpending hdue hfires =>
        rw [hfires.place] at hend
        exact absurd (hplace.symm.trans hend) (by simp)
  · rename_i last hcheck
    rw [hplace] at hround
    obtain rfl := Except.ok.inj hround
    have hlast : ∀ p ∈ last.pending, last.stats.totalTicks < p.when := by
      cases checkIfDue_checks hcheck with
      | empty hpending =>
          intro p hp
          rw [hpending] at hp
          simp at hp
      | notDue toOccur rest hpending hlate =>
          intro p hp
          refine h.sound.none_due (show s.pending = toOccur :: rest from hpending) hlate p ?_
          show p ∈ s.pending
          rw [hpending]
          exact List.mem_cons.mpr (mem_insertDue.mp hp)
      | onlyTimer toOccur hpending hidle => exact absurd hidle (h.status (by simp [hplace]))
    intro p hp
    have hpending : last.endTick.pending = last.pending ∧ last.endTick.stats = last.stats := by
      unfold endTick
      split
      · exact ⟨rfl, rfl⟩
      · exact ⟨rfl, rfl⟩
    rw [hpending.1] at hp
    rw [hpending.2]
    exact hlast p hp
  · exact absurd hround (by simp)

/-- A loop ends after as many rounds as interrupts are due, and one more. -/
theorem rounds_end (n : Nat) (hplace : s.place ≠ .outside) (hdue : s.dueCount ≤ n)
    (hrounds : s.rounds code (n + 1) = .ok s') : s'.place = .outside := by
  induction n generalizing s with
  | zero =>
      rw [rounds] at hrounds
      split at hrounds
      · rename_i hout
        exact absurd hout hplace
      · split at hrounds
        · rename_i u hround
          obtain rfl := Except.ok.inj hrounds
          rcases round_progress hplace hround with hend | ⟨-, hless⟩
          · exact hend
          · omega
        · exact absurd hrounds (by simp)
  | succ n ih =>
      rw [rounds] at hrounds
      split at hrounds
      · rename_i hout
        exact absurd hout hplace
      · split at hrounds
        · rename_i u hround
          rcases round_progress hplace hround with hend | ⟨hsame, hless⟩
          · rw [rounds, hend] at hrounds
            obtain rfl := Except.ok.inj hrounds
            exact hend
          · exact ih (hsame ▸ hplace) (by omega) hrounds
        · exact absurd hrounds (by simp)

end Loops

end Interrupt

/-- A call of a handler that fails no `ASSERT` of `Interrupt`. -/
def Call.Allowed : Call H → Prop
  | .schedule _ _ fromNow _ => 0 < fromNow
  | .setLevel now => now = .intOff
  | .yieldOnReturn => True

/-- Handlers schedule ahead and do not enable interrupts. -/
def Code.Allowed (code : Code H σ) : Prop :=
  ∀ handler arg s, ∀ call ∈ (code handler arg s).2, call.Allowed

namespace Interrupt

variable {code : Code H σ} {s s' : Interrupt H σ}

section Handling

theorem handlerCall_ok {call : Call H} (hcall : call.Allowed) (hin : s.inHandler = true) :
    ∃ s', s.handlerCall call = .ok s' := by
  cases call with
  | schedule handler arg fromNow type => exact ⟨_, if_pos hcall⟩
  | setLevel now => exact ⟨_, if_pos (Or.inl hcall)⟩
  | yieldOnReturn => exact ⟨_, if_pos hin⟩

theorem handlerCalls_ok {calls : List (Call H)} (hcalls : ∀ call ∈ calls, call.Allowed)
    (hin : s.inHandler = true) : ∃ s', handlerCalls calls s = .ok s' := by
  induction calls generalizing s with
  | nil => exact ⟨s, rfl⟩
  | cons call calls ih =>
      obtain ⟨u, hu⟩ := handlerCall_ok (hcalls call List.mem_cons_self) hin
      obtain ⟨s', hs'⟩ := ih (fun c hc => hcalls c (List.mem_cons_of_mem call hc))
        ((handlerCall_called hu).inHandler.trans hin)
      refine ⟨s', ?_⟩
      rw [handlerCalls, hu]
      exact hs'

theorem fire_runs (hcode : code.Allowed) (toOccur : PendingInterrupt H) (s : Interrupt H σ) :
    ∃ s', s.fire code toOccur = .ok s' := by
  have hcalls := hcode toOccur.handler toOccur.arg { s with
    inHandler := true
    status := .systemMode
    fired := s.fired ++ [(toOccur, s.stats.totalTicks)] }
  unfold fire
  simp only
  generalize code toOccur.handler toOccur.arg _ = answer at hcalls ⊢
  obtain ⟨handled, hhandled⟩ := handlerCalls_ok hcalls (s := { s with
    inHandler := true
    status := .systemMode
    fired := s.fired ++ [(toOccur, s.stats.totalTicks)]
    devices := answer.1 }) rfl
  rw [hhandled]
  exact ⟨_, rfl⟩

theorem checkRemoved_runs (hcode : code.Allowed) (toOccur : PendingInterrupt H)
    (s : Interrupt H σ) : ∃ fired s', s.checkRemoved code toOccur = .ok (fired, s') := by
  unfold checkRemoved
  split
  · exact ⟨_, _, rfl⟩
  · obtain ⟨s', hfire⟩ := fire_runs hcode toOccur s
    rw [hfire]
    exact ⟨_, _, rfl⟩

/-- A round of a loop does not stop the machine. -/
theorem round_runs (hcode : code.Allowed) (hlevel : s.level = .intOff) :
    ∃ s', s.round code = .ok s' := by
  have hcheck : ∃ fired u, s.checkIfDue code false = .ok (fired, u) := by
    unfold checkIfDue
    rw [if_pos hlevel]
    split
    · exact ⟨_, _, rfl⟩
    · simp only [Bool.false_eq_true, if_false]
      split
      · exact ⟨_, _, rfl⟩
      · exact checkRemoved_runs hcode _ _
  obtain ⟨fired, u, hu⟩ := hcheck
  unfold round
  rw [hu]
  cases fired with
  | true => exact ⟨_, rfl⟩
  | false => exact ⟨_, rfl⟩

theorem rounds_run (hcode : code.Allowed) (n : Nat) (h : s.Tracked) :
    ∃ s', s.rounds code n = .ok s' := by
  induction n generalizing s with
  | zero => exact ⟨s, rfl⟩
  | succ n ih =>
      rw [rounds]
      split
      · exact ⟨s, rfl⟩
      · rename_i hplace
        have hin : s.place ≠ .outside := hplace
        obtain ⟨u, hu⟩ := round_runs hcode (h.level hin)
        rw [hu]
        exact ih ((h.round hin hu).tracked h)

end Handling

section Main

/-- What the controller is for. -/
structure Orderly (code : Code H σ) (s : Interrupt H σ) : Prop where
  sorted : s.pending.Pairwise fun p q => p.when ≤ q.when
  /-- Every interrupt that was ever scheduled is pending or has fired, and only once. -/
  once : s.scheduled.Nodup ∧ (s.pending ++ s.fired.map Prod.fst).Perm s.scheduled
  notEarly : ∀ f ∈ s.fired, f.1.when ≤ f.2
  inOrder : (s.fired.map Prod.fst).Pairwise fun p q => p.when ≤ q.when
  clock : ∀ s', Run code s s' → s.stats.totalTicks ≤ s'.stats.totalTicks
  /-- When the loop of `OneTick` ends nothing is due. -/
  noneDue : s.place = .oneTick → ∀ s', s.round code = .ok s' → s'.place = .outside →
    ∀ p ∈ s'.pending, s'.stats.totalTicks < p.when
  /-- Both loops end, unless a handler fails an `ASSERT`. -/
  ends : s.place ≠ .outside → ∀ s', s.rounds code (s.dueCount + 1) = .ok s' →
    s'.place = .outside
  runs : code.Allowed → s.place ≠ .outside →
    ∃ s', s.rounds code (s.dueCount + 1) = .ok s' ∧ s'.place = .outside

theorem Tracked.run (h : s.Tracked) (hrun : Run code s s') :
    s'.Tracked ∧ s.stats.totalTicks ≤ s'.stats.totalTicks := by
  refine hrun.invariant
    (P := fun u => u.Tracked ∧ s.stats.totalTicks ≤ u.stats.totalTicks) ?_ ⟨h, Nat.le_refl _⟩
  rintro u v op ⟨hu, hclock⟩ - hstep
  have hadvances := hu.step hstep
  exact ⟨hadvances.tracked hu, Nat.le_trans hclock hadvances.moves.now_le⟩

/-- Interrupts fire once, in time and in order, whatever the handlers schedule. -/
theorem interrupts_orderly {devices : σ} (hrun : Run code (new devices) s) :
    s.Orderly code := by
  have h : s.Tracked := ((tracked_new devices).run hrun).1
  constructor
  case sorted => exact h.sound.order
  case once => exact ⟨h.sound.nodup, h.sound.once⟩
  case notEarly => exact fun f hf => (h.sound.onTime f hf).1
  case inOrder => exact h.sound.inOrder
  case clock => exact fun s' hrun' => (h.run hrun').2
  case noneDue => exact fun hplace s' hround hend => h.none_due hplace hround hend
  case ends => exact fun hplace s' hrounds => rounds_end _ hplace (Nat.le_refl _) hrounds
  case runs =>
    intro hcode hplace
    obtain ⟨s', hs'⟩ := rounds_run hcode (s.dueCount + 1) h
    exact ⟨s', hs', rounds_end _ hplace (Nat.le_refl _) hs'⟩

/-- The end of a run, found by replaying calls. -/
theorem exists_run (code : Code H σ) (devices : σ) {P : Interrupt H σ → Prop} [DecidablePred P]
    (ops : List (Op H σ))
    (h : (replay (step code) (fun _ _ => true) ops (new devices)).any
      (fun s => decide (P s)) = true) : ∃ s, Run code (new devices) s ∧ P s :=
  exists_reach_of_replay (fun _ _ _ => trivial) h

/-- A timer that schedules its next interrupt and asks for a yield (`true`), and a
device that is done (`false`). -/
def timerCode : Code Bool Unit
  | true, arg, _ => ((), [.schedule true arg 100 .timerInt, .yieldOnReturn])
  | false, _, _ => ((), [])

/-- The timer and a disk are due at the same tick: both fire, and the next interrupt
of the timer is pending. -/
theorem interrupts_orderly_timer :
    ∃ s : Interrupt Bool Unit, Run timerCode (new ()) s ∧
      s.fired.map (fun f => (f.1.when, f.2)) = [(3, 10), (7, 10)] ∧
      s.pending.map PendingInterrupt.when = [110] ∧
      (s.pending ++ s.fired.map Prod.fst).Perm s.scheduled := by
  obtain ⟨s, hrun, hfired, hpending⟩ :=
    exists_run timerCode ()
      (P := fun s : Interrupt Bool Unit =>
        s.fired.map (fun f => (f.1.when, f.2)) = [(3, 10), (7, 10)] ∧
          s.pending.map PendingInterrupt.when = [110])
      [.schedule false 0 7 .diskInt, .schedule true 0 3 .timerInt, .setLevel .intOn,
        .round, .round, .round]
      (by decide +kernel)
  exact ⟨s, hrun, hfired, hpending, (interrupts_orderly hrun).once.2⟩

end Main

end Interrupt

end Hardware
end Nachos
