import Mathlib.Data.List.Basic
import Nachos.Lib.Traces

/-!
# Queues that are served in turn

A queue is looked at along a run of a system: a step may serve the first member, and members
may join at the end.  Then the members are served in the order in which they stand and join,
and a member with `k` others in front of it is served after exactly these.
-/

namespace Nachos
namespace Lib

variable {M : Type}

/-- What a step does to the queue, with the member that it serves. -/
inductive Turn : List M → Option M → List M → Prop
  | joins (queue joined : List M) : Turn queue none (queue ++ joined)
  | serves (first : M) (rest joined : List M) : Turn (first :: rest) (some first) (rest ++ joined)

/-- A step that leaves the queue alone. -/
theorem Turn.same (queue : List M) : Turn queue none queue := by
  have hjoins := Turn.joins queue []
  rwa [List.append_nil] at hjoins

theorem Turn.order {before after : List M} {who : Option M} (h : Turn before who after) :
    ∃ joined, before ++ joined = who.toList ++ after := by
  cases h with
  | joins _ joined => exact ⟨joined, rfl⟩
  | serves first rest joined => exact ⟨joined, rfl⟩

section Runs

variable {S L : Type} {step : S → L → S → Prop} {s t : S} {labels : List L}

/-- Those that stand in the queue and those that join it are served, or stand there still, in
this order. -/
theorem Traced.turns (queue : S → List M) (served : L → Option M)
    (hturn : ∀ u label v, step u label v → Turn (queue u) (served label) (queue v))
    (hrun : Traced step s labels t) :
    ∃ joined, queue s ++ joined = labels.filterMap served ++ queue t := by
  induction hrun with
  | refl => exact ⟨[], by simp⟩
  | @tail labels u v label hrun hstep ih =>
      obtain ⟨joined, hjoined⟩ := ih
      obtain ⟨later, hlater⟩ := (hturn u label v hstep).order
      refine ⟨joined ++ later, ?_⟩
      have hlast : [label].filterMap served = (served label).toList := by
        cases hserved : served label with
        | none => simp [hserved]
        | some m => simp [hserved]
      calc
        queue s ++ (joined ++ later) = labels.filterMap served ++ queue u ++ later := by
          rw [← List.append_assoc, hjoined]
        _ = labels.filterMap served ++ ((served label).toList ++ queue v) := by
          rw [List.append_assoc, hlater]
        _ = (labels ++ [label]).filterMap served ++ queue v := by
          rw [List.filterMap_append, hlast, List.append_assoc]

end Runs

/-- A member is served when those in front of it have been, or stands behind the rest of
them. -/
theorem place_in_turn {waiting joined done left : List M} (h : waiting ++ joined = done ++ left)
    {k : Nat} {m : M} (hm : waiting[k]? = some m) :
    done[k]? = some m ∨ done.length ≤ k ∧ left[k - done.length]? = some m := by
  have hk : k < waiting.length := (List.getElem?_eq_some_iff.mp hm).1
  have hplace : (done ++ left)[k]? = some m := by
    rw [← h, List.getElem?_append_left hk]
    exact hm
  by_cases hdone : k < done.length
  · rw [List.getElem?_append_left hdone] at hplace
    exact Or.inl hplace
  · rw [List.getElem?_append_right (Nat.le_of_not_lt hdone)] at hplace
    exact Or.inr ⟨Nat.le_of_not_lt hdone, hplace⟩

end Lib
end Nachos
