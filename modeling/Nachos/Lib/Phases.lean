/-!
# Phases along a list of pending frames

What a thread still has to do is a list of frames.  A frame is run in one phase and
leaves another behind, or it has no business in the phase at all.  `trace` follows
the phases along the list; the frames of a procedure follow one another in the right
phases when the trace exists.
-/

namespace Nachos
namespace Lib

variable {α P : Type}

/-- The frame is run in phase `a` only and leaves phase `c`. -/
def movePhase [DecidableEq P] (a c : P) (p : P) : Option P :=
  if p = a then some c else none

/-- The phase behind a list of frames. -/
def trace (effect : α → P → Option P) : P → List α → Option P
  | p, [] => some p
  | p, f :: fs =>
      match effect f p with
      | some q => trace effect q fs
      | none => none

section Moves

variable [DecidableEq P] {a c p q : P}

@[simp]
theorem movePhase_self : movePhase a c a = some c := by
  simp [movePhase]

theorem movePhase_eq_some : movePhase a c p = some q ↔ p = a ∧ c = q := by
  unfold movePhase
  split
  · simp_all
  · simp_all

end Moves

section Traces

variable {effect : α → P → Option P} {f : α} {fs gs : List α} {p q r : P}

@[simp]
theorem trace_nil : trace effect p [] = some p := rfl

theorem trace_cons : trace effect p (f :: fs) = some r ↔
    ∃ q, effect f p = some q ∧ trace effect q fs = some r := by
  rw [trace]
  split
  · rename_i q hq
    simp [hq]
  · rename_i hnone
    simp [hnone]

theorem trace_append : trace effect p (gs ++ fs) = some r ↔
    ∃ q, trace effect p gs = some q ∧ trace effect q fs = some r := by
  induction gs generalizing p with
  | nil => simp
  | cons g gs ih =>
      rw [List.cons_append, trace_cons]
      constructor
      · rintro ⟨m, hm, hrest⟩
        obtain ⟨q, hgs, hfs⟩ := ih.mp hrest
        exact ⟨q, trace_cons.mpr ⟨m, hm, hgs⟩, hfs⟩
      · rintro ⟨q, hgs, hfs⟩
        obtain ⟨m, hm, hrest⟩ := trace_cons.mp hgs
        exact ⟨m, hm, ih.mpr ⟨q, hrest, hfs⟩⟩

/-- Frames that are run in any phase and keep it. -/
theorem trace_of_neutral (hneutral : ∀ g ∈ gs, effect g p = some p) :
    trace effect p gs = some p := by
  induction gs with
  | nil => rfl
  | cons g gs ih =>
      refine trace_cons.mpr ⟨p, hneutral g List.mem_cons_self, ?_⟩
      exact ih fun h hh => hneutral h (List.mem_cons_of_mem g hh)

/-- A coarser account of the phases follows the finer one. -/
theorem trace_map {Q : Type} {effect' : α → Q → Option Q} (coarse : P → Q)
    (hcoarse : ∀ f p q, effect f p = some q → effect' f (coarse p) = some (coarse q))
    (h : trace effect p fs = some r) : trace effect' (coarse p) fs = some (coarse r) := by
  induction fs generalizing p with
  | nil =>
      obtain rfl := Option.some.inj h
      rfl
  | cons f fs ih =>
      obtain ⟨q, hq, hrest⟩ := trace_cons.mp h
      exact trace_cons.mpr ⟨coarse q, hcoarse f p q hq, ih hrest⟩

/-- Where frames can be run backwards, the phase behind a list fixes the one before. -/
theorem trace_injective (hback : ∀ f p p' q, effect f p = some q → effect f p' = some q → p = p')
    {p' : P} (h : trace effect p fs = some r) (h' : trace effect p' fs = some r) : p = p' := by
  induction fs generalizing p p' with
  | nil => exact (Option.some.inj h).trans (Option.some.inj h').symm
  | cons f fs ih =>
      obtain ⟨q, hq, hrest⟩ := trace_cons.mp h
      obtain ⟨q', hq', hrest'⟩ := trace_cons.mp h'
      obtain rfl := ih hrest hrest'
      exact hback f p p' q hq hq'

end Traces

end Lib
end Nachos
