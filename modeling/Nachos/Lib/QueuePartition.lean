import Mathlib.Data.List.Nodup
import Mathlib.Logic.Function.Basic

/-!
# Families of queues that partition their members

A family of first-in-first-out queues, indexed by an arbitrary type of slots,
is *partitioned* by a placement when every queue lists, without repetition,
exactly the members that the placement puts in its slot.  The placement is a
function, so no member can be in two queues, and the two operations of the
family only move one member at a time: `enqueue` puts a member that is in no
queue at the end of one, `dequeue` takes the first member of a queue out of
the family.
-/

namespace Nachos
namespace Lib

section QueuePartition

variable {Slot Member : Type}

/-- Every queue lists exactly the members placed in its slot, each once. -/
structure Partitioned (queues : Slot → List Member) (place : Member → Option Slot) :
    Prop where
  nodup : ∀ slot, (queues slot).Nodup
  mem_iff : ∀ slot member, member ∈ queues slot ↔ place member = some slot

variable {queues : Slot → List Member} {place : Member → Option Slot}

/-- Two queues that share a member are the same queue. -/
theorem Partitioned.slot_unique (h : Partitioned queues place) {slot slot' : Slot}
    {member : Member} (hmem : member ∈ queues slot) (hmem' : member ∈ queues slot') :
    slot = slot' := by
  have hplace := (h.mem_iff slot member).mp hmem
  have hplace' := (h.mem_iff slot' member).mp hmem'
  rw [hplace] at hplace'
  exact Option.some.inj hplace'

variable [DecidableEq Slot] [DecidableEq Member]

/-- A member occurs once in the queue of its slot and nowhere else. -/
theorem Partitioned.count_eq (h : Partitioned queues place) (slot : Slot)
    (member : Member) :
    (queues slot).count member = if place member = some slot then 1 else 0 := by
  by_cases hplace : place member = some slot
  · rw [if_pos hplace]
    exact List.count_eq_one_of_mem (h.nodup slot) ((h.mem_iff slot member).mpr hplace)
  · rw [if_neg hplace]
    exact List.count_eq_zero.mpr fun hmem => hplace ((h.mem_iff slot member).mp hmem)

/-- Appending a member that is in no queue. -/
theorem Partitioned.enqueue (h : Partitioned queues place) (slot : Slot)
    {member : Member} (hfree : place member = none) :
    Partitioned (Function.update queues slot (queues slot ++ [member]))
      (Function.update place member (some slot)) := by
  have hout : ∀ other, member ∉ queues other := by
    intro other hmem
    rw [h.mem_iff, hfree] at hmem
    exact absurd hmem (by simp)
  constructor
  · intro other
    by_cases hother : other = slot
    · subst hother
      rw [Function.update_self]
      refine (h.nodup other).append (List.nodup_singleton member) ?_
      intro x hx hx'
      rw [List.mem_singleton] at hx'
      exact hout other (hx' ▸ hx)
    · rw [Function.update_of_ne hother]
      exact h.nodup other
  · intro other x
    by_cases hx : x = member
    · subst hx
      rw [Function.update_self]
      by_cases hother : other = slot
      · subst hother
        simp
      · rw [Function.update_of_ne hother]
        constructor
        · intro hmem
          exact absurd hmem (hout other)
        · intro heq
          exact absurd (Option.some.inj heq).symm hother
    · rw [Function.update_of_ne hx]
      by_cases hother : other = slot
      · subst hother
        rw [Function.update_self]
        simp [hx, h.mem_iff]
      · rw [Function.update_of_ne hother]
        exact h.mem_iff other x

/-- Taking the first member of a queue out of the family. -/
theorem Partitioned.dequeue (h : Partitioned queues place) {slot : Slot}
    {member : Member} {rest : List Member} (hhead : queues slot = member :: rest) :
    Partitioned (Function.update queues slot rest) (Function.update place member none) := by
  have hnodup : (member :: rest).Nodup := hhead ▸ h.nodup slot
  have hplace : place member = some slot :=
    (h.mem_iff slot member).mp (by rw [hhead]; exact List.mem_cons_self)
  constructor
  · intro other
    by_cases hother : other = slot
    · subst hother
      rw [Function.update_self]
      exact hnodup.of_cons
    · rw [Function.update_of_ne hother]
      exact h.nodup other
  · intro other x
    by_cases hx : x = member
    · subst hx
      rw [Function.update_self]
      by_cases hother : other = slot
      · subst hother
        rw [Function.update_self]
        simpa using hnodup.notMem
      · rw [Function.update_of_ne hother, h.mem_iff, hplace]
        simpa using fun heq => hother heq.symm
    · rw [Function.update_of_ne hx]
      by_cases hother : other = slot
      · subst hother
        rw [Function.update_self, ← h.mem_iff, hhead]
        simp [hx]
      · rw [Function.update_of_ne hother]
        exact h.mem_iff other x

end QueuePartition

end Lib
end Nachos
