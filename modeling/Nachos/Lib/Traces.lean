import Nachos.Lib.GuardedRun

/-!
# Runs with the labels of their steps

A system is given by a relation that says which steps lead from a state, each under a label.
`Traced` is a run with the list of its labels.  Where every step of one system is one of
another under the same label, between states that are related, every run of the first is a
run of the second.
-/

namespace Nachos
namespace Lib

section Traces

variable {S T L : Type} {step : S → L → S → Prop} {step' : T → L → T → Prop} {s t u : S}
  {labels labels' : List L}

/-- A run from `s`, with its labels in order. -/
inductive Traced (step : S → L → S → Prop) (s : S) : List L → S → Prop
  | refl : Traced step s [] s
  | tail {labels : List L} {u v : S} {label : L} (hrun : Traced step s labels u)
      (hstep : step u label v) : Traced step s (labels ++ [label]) v

/-- What every step keeps holds at the end of a run. -/
theorem Traced.invariant {P : S → Prop} (hpres : ∀ u label v, P u → step u label v → P v)
    (hrun : Traced step s labels t) (hs : P s) : P t := by
  induction hrun with
  | refl => exact hs
  | tail _ hstep ih => exact hpres _ _ _ ih hstep

/-- A run in which every step makes a measure smaller has no more steps than the measure says. -/
theorem Traced.bounded {P : S → Prop} (measure : S → Nat)
    (hpres : ∀ u label v, P u → step u label v → P v ∧ measure v < measure u)
    (hrun : Traced step s labels t) (hs : P s) :
    P t ∧ labels.length + measure t ≤ measure s := by
  induction hrun with
  | refl => exact ⟨hs, by simp⟩
  | tail _ hstep ih =>
      obtain ⟨hu, hlength⟩ := ih
      obtain ⟨hv, hless⟩ := hpres _ _ _ hu hstep
      refine ⟨hv, ?_⟩
      rw [List.length_append, List.length_singleton]
      omega

/-- The simulation rule. -/
theorem Traced.simulate {R : S → T → Prop}
    (hsim : ∀ u w label v, R u w → step u label v → ∃ x, step' w label x ∧ R v x)
    (hrun : Traced step s labels t) {w : T} (hs : R s w) :
    ∃ x, Traced step' w labels x ∧ R t x := by
  induction hrun with
  | refl => exact ⟨w, .refl, hs⟩
  | tail _ hstep ih =>
      obtain ⟨x, hrun', hx⟩ := ih
      obtain ⟨y, hstep', hy⟩ := hsim _ _ _ _ hx hstep
      exact ⟨y, hrun'.tail hstep', hy⟩

end Traces

section Records

variable {S L A E : Type}

/-- A system that answers each of its inputs: from state `s`, under a guard on the inputs. -/
def Answers (step : L → S → Except E (A × S)) (guard : S → L → Prop) (s : S) (answer : A)
    (t : S) : Prop :=
  ∃ input, guard s input ∧ step input s = .ok (answer, t)

/-- The answers to a list of inputs, each of which has to meet the guard. -/
def record (step : L → S → Except E (A × S)) (guard : S → L → Bool) :
    List L → S → Option (List A × S)
  | [], s => some ([], s)
  | input :: inputs, s =>
      if guard s input then
        match step input s with
        | .ok (answer, t) => (record step guard inputs t).map fun r => (answer :: r.1, r.2)
        | .error _ => none
      else none

variable {step : L → S → Except E (A × S)} {guard : S → L → Prop}

/-- A step and a run behind it. -/
theorem Traced.head {B : Type} {move : S → B → S → Prop} {s t u : S} {label : B}
    {labels : List B} (hstep : move s label t) (hrun : Traced move t labels u) :
    Traced move s (label :: labels) u := by
  induction hrun with
  | refl => exact Traced.refl.tail hstep
  | tail _ hlast ih => exact ih.tail hlast

/-- What is recorded is a run. -/
theorem traced_of_record {check : S → L → Bool}
    (hcheck : ∀ s input, check s input = true → guard s input) {inputs : List L} {s t : S}
    {answers : List A} (h : record step check inputs s = some (answers, t)) :
    Traced (Answers step guard) s answers t := by
  induction inputs generalizing s answers with
  | nil =>
      obtain ⟨rfl, rfl⟩ := Prod.mk.inj (Option.some.inj h)
      exact .refl
  | cons input inputs ih =>
      rw [record] at h
      split at h
      case isFalse => exact absurd h (by simp)
      case isTrue hguard =>
      split at h
      · rename_i answer u hstep
        obtain ⟨⟨rest, t'⟩, hrest, hsame⟩ := Option.map_eq_some_iff.mp h
        obtain ⟨rfl, rfl⟩ := Prod.mk.inj hsame
        exact Traced.head ⟨input, hcheck s input hguard, hstep⟩ (ih hrest)
      · exact absurd h (by simp)

/-- A replay, with the labels it is given. -/
theorem traced_of_replay {move : L → S → Except E S} {check : S → L → Bool}
    (hcheck : ∀ s input, check s input = true → guard s input) {inputs : List L} {s t : S}
    (h : replay move check inputs s = some t) :
    Traced (fun u input v => guard u input ∧ move input u = .ok v) s inputs t := by
  induction inputs generalizing s with
  | nil =>
      obtain rfl := Option.some.inj h
      exact .refl
  | cons input inputs ih =>
      rw [replay] at h
      split at h
      case isFalse => exact absurd h (by simp)
      case isTrue hguard =>
      split at h
      · rename_i u hstep
        exact Traced.head ⟨hcheck s input hguard, hstep⟩ (ih h)
      · exact absurd h (by simp)

end Records

end Lib
end Nachos
