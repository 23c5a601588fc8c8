/-!
# Loops over a list that may refuse an element

A loop goes through a list and keeps a state.  Whether an element is refused depends on the
ones in front of it only, not on the state: then the loop fails exactly when some element
is refused.
-/

namespace Nachos
namespace Lib

variable {A S E : Type}

/-- The steps for the elements of a list, one after the other. -/
def scan (step : A → S → Except E S) : List A → S → Except E S
  | [], s => .ok s
  | a :: rest, s =>
      match step a s with
      | .ok s => scan step rest s
      | .error e => .error e

/-- Some element is refused, where the elements of `before` have been done. -/
def SomeRefused (refused : List A → A → Prop) (before rest : List A) : Prop :=
  ∃ pre a post, rest = pre ++ a :: post ∧ refused (before ++ pre) a

section Scans

variable {step : A → S → Except E S} {refused : List A → A → Prop} {before rest : List A} {a : A}

theorem not_someRefused_nil : ¬ SomeRefused refused before [] := by
  rintro ⟨pre, a, post, hsplit, -⟩
  exact absurd hsplit (by simp)

theorem someRefused_head (h : refused before a) : SomeRefused refused before (a :: rest) :=
  ⟨[], a, rest, rfl, by rwa [List.append_nil]⟩

theorem someRefused_cons (h : ¬ refused before a) :
    SomeRefused refused before (a :: rest) ↔ SomeRefused refused (before ++ [a]) rest := by
  constructor
  · rintro ⟨pre, b, post, hsplit, hb⟩
    cases pre with
    | nil =>
        obtain ⟨rfl, rfl⟩ := List.cons.inj hsplit
        rw [List.append_nil] at hb
        exact absurd hb h
    | cons c pre =>
        obtain ⟨rfl, rfl⟩ := List.cons.inj hsplit
        refine ⟨pre, b, post, rfl, ?_⟩
        rwa [List.append_assoc]
  · rintro ⟨pre, b, post, rfl, hb⟩
    refine ⟨a :: pre, b, post, rfl, ?_⟩
    rwa [List.append_assoc] at hb

/-- The loop fails when an element is refused, and keeps its invariant otherwise. -/
theorem scan_cases (step : A → S → Except E S) (refused : List A → A → Prop)
    (Inv : List A → S → Prop)
    (hstep : ∀ before a s, Inv before s →
      (refused before a ∧ ∃ e, step a s = .error e) ∨
        (¬ refused before a ∧ ∃ s', step a s = .ok s' ∧ Inv (before ++ [a]) s'))
    (rest : List A) {s : S} (h : Inv before s) :
    (SomeRefused refused before rest ∧ ∃ e, scan step rest s = .error e) ∨
      (¬ SomeRefused refused before rest ∧
        ∃ s', scan step rest s = .ok s' ∧ Inv (before ++ rest) s') := by
  induction rest generalizing before s with
  | nil =>
      refine Or.inr ⟨not_someRefused_nil, s, rfl, ?_⟩
      rwa [List.append_nil]
  | cons a rest ih =>
      rcases hstep before a s h with ⟨hrefused, e, he⟩ | ⟨hok, s', hs', hinv⟩
      · refine Or.inl ⟨someRefused_head hrefused, e, ?_⟩
        rw [scan, he]
      · rw [scan, hs', someRefused_cons hok]
        have hrest := ih hinv
        rwa [List.append_assoc] at hrest

/-- What every step keeps, the loop keeps. -/
theorem scan_keeps (P : S → Prop) (hstep : ∀ a s s', step a s = .ok s' → P s → P s') {s s' : S}
    (h : scan step rest s = .ok s') (hs : P s) : P s' := by
  induction rest generalizing s with
  | nil =>
      rw [scan, Except.ok.injEq] at h
      exact h ▸ hs
  | cons a rest ih =>
      rw [scan] at h
      split at h
      · rename_i s₁ ha
        exact ih h (hstep a s s₁ ha hs)
      · exact absurd h (by simp)

end Scans

end Lib
end Nachos
