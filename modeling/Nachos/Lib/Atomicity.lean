import Nachos.Lib.StateRules

/-!
# Exits that leave nothing half done

Some exits of a program are raised: what runs behind them looks at the state, and
must find it as it was when the program started, as far as `view` shows it.  A
program whose raised exits are so is `AtomicExits`.  It is enough that the program
first looks only (`Unseen`) and changes things when it can no longer raise
(`NeverRaises`).
-/

namespace Nachos
namespace Lib

section Atomicity

variable {E S V A B : Type} {raised : E → Prop} {view : S → V} {found : V → S → Prop}

/-- A raised exit leaves a state that is related to what was in view at the
start. -/
def AtomicExits (raised : E → Prop) (view : S → V) (found : V → S → Prop)
    (x : EStateM E S A) : Prop :=
  ∀ s e s', x s = .error e s' → raised e → found (view s) s'

/-- When the program returns, nothing in view has changed. -/
def Unseen (view : S → V) (x : EStateM E S A) : Prop :=
  ∀ s a s', x s = .ok a s' → view s' = view s

/-- The program has no raised exit. -/
def NeverRaises (raised : E → Prop) (x : EStateM E S A) : Prop :=
  ∀ s e s', x s = .error e s' → ¬ raised e

theorem NeverRaises.atomicExits {x : EStateM E S A} (h : NeverRaises raised x) :
    AtomicExits raised view found x :=
  fun s e s' hexit hraised => absurd hraised (h s e s' hexit)

theorem NeverRaises.pure (a : A) : NeverRaises raised (pure a : EStateM E S A) := by
  intro s e s' hexit
  cases hexit

theorem NeverRaises.bind {x : EStateM E S A} {f : A → EStateM E S B} (hx : NeverRaises raised x)
    (hf : ∀ a, NeverRaises raised (f a)) : NeverRaises raised (x >>= f) := by
  intro s e s' hexit
  rw [bind_apply] at hexit
  cases hresult : x s with
  | ok a s₁ =>
      rw [hresult] at hexit
      exact hf a s₁ e s' hexit
  | error e₁ s₁ =>
      rw [hresult] at hexit
      cases hexit
      exact hx s e s' hresult

theorem Unseen.pure (a : A) : Unseen view (pure a : EStateM E S A) := by
  intro s b s' hreturn
  cases hreturn
  rfl

theorem Unseen.bind {x : EStateM E S A} {f : A → EStateM E S B} (hx : Unseen view x)
    (hf : ∀ a, Unseen view (f a)) : Unseen view (x >>= f) := by
  intro s b s' hreturn
  rw [bind_apply] at hreturn
  cases hresult : x s with
  | ok a s₁ =>
      rw [hresult] at hreturn
      exact (hf a s₁ b s' hreturn).trans (hx s a s₁ hresult)
  | error e₁ s₁ =>
      rw [hresult] at hreturn
      cases hreturn

/-- A program that only looks may stand in front of one with atomic exits. -/
theorem AtomicExits.bind {x : EStateM E S A} {f : A → EStateM E S B}
    (hx : AtomicExits raised view found x) (hview : Unseen view x)
    (hf : ∀ a, AtomicExits raised view found (f a)) :
    AtomicExits raised view found (x >>= f) := by
  intro s e s' hexit hraised
  rw [bind_apply] at hexit
  cases hresult : x s with
  | ok a s₁ =>
      rw [hresult] at hexit
      rw [← hview s a s₁ hresult]
      exact hf a s₁ e s' hexit hraised
  | error e₁ s₁ =>
      rw [hresult] at hexit
      cases hexit
      exact hx s e s' hresult hraised

/-- A program that may change things stands behind the last raised exit. -/
theorem AtomicExits.bind_last {x : EStateM E S A} {f : A → EStateM E S B}
    (hx : AtomicExits raised view found x) (hf : ∀ a, NeverRaises raised (f a)) :
    AtomicExits raised view found (x >>= f) := by
  intro s e s' hexit hraised
  rw [bind_apply] at hexit
  cases hresult : x s with
  | ok a s₁ =>
      rw [hresult] at hexit
      exact absurd hraised (hf a s₁ e s' hexit)
  | error e₁ s₁ =>
      rw [hresult] at hexit
      cases hexit
      exact hx s e s' hresult hraised

end Atomicity

end Lib
end Nachos
