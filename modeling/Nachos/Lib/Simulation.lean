import Nachos.Lib.StateRules

/-!
# Programs that run alike

Two programs are alike when from related states they end in the same way: both
return, with related values and in related states, or both leave by the same exit.
Programs are alike when their parts are, so that two programs over the same text
are compared by comparing the primitives they are made of.
-/

namespace Nachos
namespace Lib

section Simulation

variable {E S T A B C D : Type}

/-- Two programs have ended in the same way: `I` relates the states behind a return,
`X` those behind an exit, and `R` what is returned. -/
inductive Alike (I : S → T → Prop) (X : E → S → T → Prop) (R : A → B → Prop) :
    EStateM.Result E S A → EStateM.Result E T B → Prop
  | ok {a b s t} (hvalue : R a b) (hstate : I s t) : Alike I X R (.ok a s) (.ok b t)
  | error {e s t} (hstate : X e s t) : Alike I X R (.error e s) (.error e t)

/-- From related states the programs end in the same way. -/
def Simulates (I : S → T → Prop) (X : E → S → T → Prop) (R : A → B → Prop)
    (x : EStateM E S A) (y : EStateM E T B) : Prop :=
  ∀ s t, I s t → Alike I X R (x s) (y t)

variable {I : S → T → Prop} {X : E → S → T → Prop} {R : A → B → Prop}

theorem Simulates.pure {a : A} {b : B} (h : R a b) :
    Simulates I X R (Pure.pure a : EStateM E S A) (Pure.pure b : EStateM E T B) :=
  fun _ _ hstate => .ok h hstate

theorem Simulates.bind {Q : C → D → Prop} {x : EStateM E S A} {y : EStateM E T B}
    {f : A → EStateM E S C} {g : B → EStateM E T D} (hx : Simulates I X R x y)
    (hf : ∀ a b, R a b → Simulates I X Q (f a) (g b)) :
    Simulates I X Q (x >>= f) (y >>= g) := by
  intro s t hstate
  have hfirst := hx s t hstate
  rw [bind_apply, bind_apply]
  generalize x s = first, y t = second at hfirst ⊢
  cases hfirst with
  | ok hvalue hstate' => exact hf _ _ hvalue _ _ hstate'
  | error hexit => exact .error hexit

/-- First parts that return the same value. -/
theorem Simulates.bind_eq {Q : C → D → Prop} {x : EStateM E S A} {y : EStateM E T A}
    {f : A → EStateM E S C} {g : A → EStateM E T D} (hx : Simulates I X Eq x y)
    (hf : ∀ a, Simulates I X Q (f a) (g a)) : Simulates I X Q (x >>= f) (y >>= g) := by
  refine hx.bind fun a b hab => ?_
  rw [← hab]
  exact hf a

/-- Both programs take the same branch. -/
theorem Simulates.ite {c : Prop} [Decidable c] {x x' : EStateM E S A} {y y' : EStateM E T B}
    (hx : Simulates I X R x y) (hx' : Simulates I X R x' y') :
    Simulates I X R (if c then x else x') (if c then y else y') := by
  split
  · exact hx
  · exact hx'

end Simulation

end Lib
end Nachos
