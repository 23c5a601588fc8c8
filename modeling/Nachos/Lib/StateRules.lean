/-!
# Rules for programs with a state and exits

A program over `EStateM` returns a value or leaves by an exit, and in both cases
it leaves a state behind.  `Ends R x` says that the state `x` starts from, the
exit it leaves by, if any, and the state it leaves behind are related by `R`.
For an `R` that is reflexive and composes over programs that return, this is
closed under sequencing, so that a program is checked by looking at the
primitives it is made of.

`Meets Q X x s` says what a program does from one state: it returns within `Q`,
or leaves by an exit within `X`.
-/

namespace Nachos
namespace Lib

section StateRules

variable {E S A B : Type}

/-- The state a program leaves behind. -/
def endState : EStateM.Result E S A → S
  | .ok _ s => s
  | .error _ s => s

/-- The exit a program leaves by. -/
def exit : EStateM.Result E S A → Option E
  | .ok _ _ => none
  | .error e _ => some e

@[simp] theorem endState_ok (a : A) (s : S) : endState (.ok a s : EStateM.Result E S A) = s :=
  rfl

@[simp] theorem endState_error (e : E) (s : S) :
    endState (.error e s : EStateM.Result E S A) = s :=
  rfl

@[simp] theorem exit_ok (a : A) (s : S) : exit (.ok a s : EStateM.Result E S A) = none :=
  rfl

@[simp] theorem exit_error (e : E) (s : S) : exit (.error e s : EStateM.Result E S A) = some e :=
  rfl

/-- The way the program ends is within `R`. -/
def Ends (R : S → Option E → S → Prop) (x : EStateM E S A) : Prop :=
  ∀ s, R s (exit (x s)) (endState (x s))

/-- How a sequence of two programs runs. -/
theorem bind_apply (x : EStateM E S A) (f : A → EStateM E S B) (s : S) :
    (x >>= f) s = match x s with
      | .ok a s' => f a s'
      | .error e s' => .error e s' :=
  rfl

variable {R : S → Option E → S → Prop}

theorem Ends.pure (hrefl : ∀ s, R s none s) (a : A) : Ends R (pure a : EStateM E S A) :=
  fun s => hrefl s

theorem Ends.bind (htrans : ∀ s t e u, R s none t → R t e u → R s e u) {x : EStateM E S A}
    {f : A → EStateM E S B} (hx : Ends R x) (hf : ∀ a, Ends R (f a)) :
    Ends R (x >>= f) := by
  intro s
  have hfirst := hx s
  rw [bind_apply]
  cases hresult : x s with
  | ok a s' =>
      rw [hresult] at hfirst
      exact htrans _ _ _ _ hfirst (hf a s')
  | error e s' =>
      rw [hresult] at hfirst
      exact hfirst

/-- From this state the program returns within `Q` or leaves within `X`. -/
def Meets (Q : A → S → Prop) (X : E → S → Prop) (x : EStateM E S A) (s : S) : Prop :=
  match x s with
  | .ok a s' => Q a s'
  | .error e s' => X e s'

variable {Q : A → S → Prop} {X : E → S → Prop} {s : S}

theorem meets_ok {x : EStateM E S A} {a : A} {s' : S} (h : x s = .ok a s') :
    Meets Q X x s ↔ Q a s' := by
  unfold Meets
  rw [h]

theorem meets_error {x : EStateM E S A} {e : E} {s' : S} (h : x s = .error e s') :
    Meets Q X x s ↔ X e s' := by
  unfold Meets
  rw [h]

theorem meets_congr {x y : EStateM E S A} (h : x s = y s) : Meets Q X x s ↔ Meets Q X y s := by
  unfold Meets
  rw [h]

instance [∀ a s', Decidable (Q a s')] [∀ e s', Decidable (X e s')] (x : EStateM E S A) :
    Decidable (Meets Q X x s) :=
  match h : x s with
  | .ok a s' => decidable_of_iff (Q a s') (meets_ok h).symm
  | .error e s' => decidable_of_iff (X e s') (meets_error h).symm

theorem meets_pure (a : A) : Meets Q X (pure a) s ↔ Q a s := meets_ok rfl

/-- A sequence of two programs: the second has to start from where the first
returns. -/
theorem meets_bind {Q : B → S → Prop} (x : EStateM E S A) (f : A → EStateM E S B) :
    Meets Q X (x >>= f) s ↔ Meets (fun a s' => Meets Q X (f a) s') X x s := by
  unfold Meets
  rw [bind_apply]
  cases x s with
  | ok a s' => exact Iff.rfl
  | error e s' => exact Iff.rfl

/-- Whatever the program returns is within `P`. -/
def Yields (P : A → Prop) (x : EStateM E S A) : Prop := ∀ s a s', x s = .ok a s' → P a

variable {P : B → Prop}

theorem Yields.pure {P : A → Prop} {a : A} (h : P a) : Yields P (pure a : EStateM E S A) := by
  intro s b s' hreturn
  cases hreturn
  exact h

theorem Yields.throw {P : A → Prop} (e : E) : Yields P (throw e : EStateM E S A) := by
  intro s a s' hreturn
  cases hreturn

/-- What a sequence returns is what its second program returns. -/
theorem Yields.bind {x : EStateM E S A} {f : A → EStateM E S B} (hf : ∀ a, Yields P (f a)) :
    Yields P (x >>= f) := by
  intro s b s' hreturn
  rw [bind_apply] at hreturn
  cases hresult : x s with
  | ok a s₁ =>
      rw [hresult] at hreturn
      exact hf a s₁ b s' hreturn
  | error e s₁ =>
      rw [hresult] at hreturn
      cases hreturn

end StateRules

end Lib
end Nachos
