/-!
# Guarded runs of a partial step function

A machine is given by a step function `step : L → S → Except E S`: the label is
the choice the environment makes, and `.error` says that the machine stops
there.  A *guarded run* is a finite sequence of successful steps each of which
meets a guard on the state before the step and the label.

Three uses of the guard recur in the development:

* no guard at all gives the reachable states;
* a guard on the steps gives the runs of a restricted environment;
* a guard on the states before the steps gives the runs that stay inside a
  region until their last state, which is how a call is followed from its
  first step to its return.
-/

namespace Nachos
namespace Lib

section GuardedRun

variable {S L E : Type}

/-- `Reach step guard s t`: some run of successful steps leads from `s` to `t`,
and every step of it meets the guard. -/
inductive Reach (step : L → S → Except E S) (guard : S → L → Prop) (s : S) : S → Prop
  | refl : Reach step guard s s
  | tail {u v : S} {label : L} (hrun : Reach step guard s u) (hguard : guard u label)
      (hstep : step label u = .ok v) : Reach step guard s v

variable {step : L → S → Except E S} {guard guard' : S → L → Prop}

/-- A step in two parts succeeds when both do. -/
theorem bind_eq_ok {A B : Type} {x : Except E A} {f : A → Except E B} {b : B}
    (h : (x >>= f) = .ok b) : ∃ a, x = .ok a ∧ f a = .ok b := by
  cases x with
  | error e => exact absurd h (by simp [bind, Except.bind])
  | ok a => exact ⟨a, rfl, h⟩

/-- The invariant rule: what every guarded step preserves holds at the end of
every guarded run. -/
theorem Reach.invariant {P : S → Prop}
    (hpres : ∀ u v label, P u → guard u label → step label u = .ok v → P v)
    {s t : S} (hrun : Reach step guard s t) (hs : P s) : P t := by
  induction hrun with
  | refl => exact hs
  | tail _ hguard hstep ih => exact hpres _ _ _ ih hguard hstep

/-- A run under a guard is a run under every weaker guard. -/
theorem Reach.mono (hweak : ∀ u label, guard u label → guard' u label)
    {s t : S} (hrun : Reach step guard s t) : Reach step guard' s t := by
  induction hrun with
  | refl => exact .refl
  | tail _ hguard hstep ih => exact ih.tail (hweak _ _ hguard) hstep

/-- Guarded runs compose. -/
theorem Reach.trans {s t u : S} (hfirst : Reach step guard s t)
    (hsecond : Reach step guard t u) : Reach step guard s u := by
  induction hsecond with
  | refl => exact hfirst
  | tail _ hguard hstep ih => exact ih.tail hguard hstep

/-- One step followed by a run. -/
theorem Reach.head {s t u : S} {label : L} (hguard : guard s label)
    (hstep : step label s = .ok t) (hrun : Reach step guard t u) :
    Reach step guard s u :=
  (Reach.refl.tail hguard hstep).trans hrun

/-- A run is empty, or its first step can be taken off. -/
theorem Reach.cases_head {s t : S} (hrun : Reach step guard s t) :
    s = t ∨ ∃ u label, guard s label ∧ step label s = .ok u ∧ Reach step guard u t := by
  induction hrun with
  | refl => exact Or.inl rfl
  | tail _ hguard hstep ih =>
      rcases ih with rfl | ⟨w, label, hfirst, hnext, hrest⟩
      · exact Or.inr ⟨_, _, hguard, hstep, .refl⟩
      · exact Or.inr ⟨w, label, hfirst, hnext, hrest.tail hguard hstep⟩

/-- Replay a list of labels, checking an executable guard before each step. -/
def replay (step : L → S → Except E S) (guard : S → L → Bool) : List L → S → Option S
  | [], s => some s
  | label :: labels, s =>
      if guard s label then
        match step label s with
        | .ok t => replay step guard labels t
        | .error _ => none
      else none

/-- A replay that succeeds is a guarded run. -/
theorem reach_of_replay {check : S → L → Bool}
    (hcheck : ∀ u label, check u label = true → guard u label) :
    ∀ (labels : List L) {s t : S}, replay step check labels s = some t →
      Reach step guard s t := by
  intro labels
  induction labels with
  | nil =>
      intro s t h
      simp only [replay, Option.some.injEq] at h
      exact h ▸ .refl
  | cons label labels ih =>
      intro s t h
      simp only [replay] at h
      split at h
      · rename_i hguard
        split at h
        · rename_i u hstep
          exact Reach.head (hcheck _ _ hguard) hstep (ih h)
        · exact absurd h (by simp)
      · exact absurd h (by simp)

/-- What a replay ends in is the end of a guarded run. -/
theorem exists_reach_of_replay {check : S → L → Bool}
    (hcheck : ∀ u label, check u label = true → guard u label) {P : S → Prop}
    [DecidablePred P] {labels : List L} {s : S}
    (h : (replay step check labels s).any (fun t => decide (P t)) = true) :
    ∃ t, Reach step guard s t ∧ P t := by
  obtain ⟨t, hreplay, ht⟩ := (Option.any_eq_true _ _).mp h
  exact ⟨t, reach_of_replay hcheck labels hreplay, of_decide_eq_true ht⟩

end GuardedRun

end Lib
end Nachos
