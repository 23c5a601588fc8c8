import Mathlib.Data.List.Nodup
import Mathlib.Logic.Relation

/-!
# Counting with wake-ups that promise nothing

A counter hands out units.  Whoever finds no unit goes to the end of a queue, and
every new unit readies the first of the queue.  The one that is readied does not
own the unit: it has to test the counter again, and by then somebody else may
have taken the unit, so that it goes back to the queue.

Why no wake-up is lost nevertheless is said by `Counter.Sound`: as long as
somebody is in the queue, there are no more units than there are threads that
have been readied and have not tested the counter again.

The type of those who take units is arbitrary.
-/

namespace Nachos
namespace Lib

/-- A counter, with the numbers of units that have been added and taken. -/
structure Counter (T : Type) where
  value : Int
  queue : List T
  /-- Readied, and not yet back at the test. -/
  readied : List T
  raised : Nat
  taken : Nat

namespace Counter

variable {T : Type}

/-- A unit is added, and the first of the queue is readied. -/
def raise (c : Counter T) : Counter T :=
  match c.queue with
  | [] => { c with value := c.value + 1, raised := c.raised + 1 }
  | t :: rest =>
      { c with
        value := c.value + 1
        queue := rest
        readied := t :: c.readied
        raised := c.raised + 1 }

theorem raise_of_nil (c : Counter T) (h : c.queue = []) :
    c.raise = { c with value := c.value + 1, raised := c.raised + 1 } := by
  rw [Counter.raise, h]

theorem raise_of_cons (c : Counter T) {t : T} {rest : List T} (h : c.queue = t :: rest) :
    c.raise = { c with
      value := c.value + 1
      queue := rest
      readied := t :: c.readied
      raised := c.raised + 1 } := by
  rw [Counter.raise, h]

@[simp]
theorem raise_value (c : Counter T) : c.raise.value = c.value + 1 := by
  unfold Counter.raise
  split
  · rfl
  · rfl

variable [DecidableEq T]

/-- `t` tests the counter and takes a unit. -/
def take (t : T) (c : Counter T) : Counter T :=
  { c with
    value := c.value - 1
    readied := c.readied.erase t
    taken := c.taken + 1 }

/-- `t` tests the counter and goes to the queue. -/
def block (t : T) (c : Counter T) : Counter T :=
  { c with
    queue := c.queue ++ [t]
    readied := c.readied.erase t }

/-- `t` tests the counter in vain; it goes to the queue later. -/
def fail (t : T) (c : Counter T) : Counter T :=
  { c with readied := c.readied.erase t }

/-- What can happen to a counter. -/
inductive Move : Counter T → Counter T → Prop
  | raise (c : Counter T) : Move c c.raise
  | take (c : Counter T) (t : T) (h : c.value ≠ 0) : Move c (c.take t)
  | block (c : Counter T) (t : T) (h : c.value = 0) (hfree : t ∉ c.queue) :
      Move c (c.block t)
  | fail (c : Counter T) (t : T) (h : c.value = 0) : Move c (c.fail t)

/-- The invariant of a counter that started at `initial`. -/
structure Sound (initial : Int) (c : Counter T) : Prop where
  nonneg : 0 ≤ c.value
  balance : c.value = initial + c.raised - c.taken
  queue_nodup : c.queue.Nodup
  readied_nodup : c.readied.Nodup
  disjoint : ∀ t ∈ c.readied, t ∉ c.queue
  noLostWakeUp : c.queue ≠ [] → c.value ≤ c.readied.length

variable {initial : Int} {c c' : Counter T} {t : T}

omit [DecidableEq T] in
theorem Sound.raise (h : c.Sound initial) : c.raise.Sound initial := by
  have hnonneg := h.nonneg
  have hbalance := h.balance
  unfold Counter.raise
  cases hqueue : c.queue with
  | nil =>
      constructor
      case nonneg => show 0 ≤ c.value + 1; omega
      case balance =>
        show c.value + 1 = initial + (c.raised + 1 : Nat) - c.taken
        omega
      case queue_nodup => exact List.nodup_nil
      case readied_nodup => exact h.readied_nodup
      case disjoint => exact fun _ _ => List.not_mem_nil
      case noLostWakeUp => exact fun hne => absurd rfl hne
  | cons t rest =>
      have hnodup := h.queue_nodup
      rw [hqueue, List.nodup_cons] at hnodup
      have hfresh : t ∉ c.readied := fun hmem => h.disjoint t hmem (by simp [hqueue])
      have hbound := h.noLostWakeUp (by simp [hqueue])
      constructor
      case nonneg => show 0 ≤ c.value + 1; omega
      case balance =>
        show c.value + 1 = initial + (c.raised + 1 : Nat) - c.taken
        omega
      case queue_nodup => exact hnodup.2
      case readied_nodup => exact List.nodup_cons.mpr ⟨hfresh, h.readied_nodup⟩
      case disjoint =>
        intro x hx
        rcases List.mem_cons.mp hx with rfl | hold
        · exact hnodup.1
        · have hout := h.disjoint x hold
          rw [hqueue] at hout
          exact fun hmem => hout (List.mem_cons_of_mem t hmem)
      case noLostWakeUp =>
        intro _
        show c.value + 1 ≤ ((t :: c.readied).length : Int)
        rw [List.length_cons]
        omega

/-- Testing the counter takes one thread at most off the readied ones. -/
theorem length_erase_ge (l : List T) (t : T) : l.length ≤ (l.erase t).length + 1 := by
  by_cases ht : t ∈ l
  · rw [List.length_erase_of_mem ht]
    omega
  · rw [List.erase_of_not_mem ht]
    omega

theorem Sound.take (h : c.Sound initial) (hvalue : c.value ≠ 0) :
    (c.take t).Sound initial := by
  have hnonneg := h.nonneg
  have hbalance := h.balance
  constructor
  case nonneg => show 0 ≤ c.value - 1; omega
  case balance =>
    show c.value - 1 = initial + c.raised - (c.taken + 1 : Nat)
    omega
  case queue_nodup => exact h.queue_nodup
  case readied_nodup => exact h.readied_nodup.erase t
  case disjoint => exact fun x hx => h.disjoint x (List.mem_of_mem_erase hx)
  case noLostWakeUp =>
    intro hne
    show c.value - 1 ≤ ((c.readied.erase t).length : Int)
    have hbound := h.noLostWakeUp hne
    have herase := length_erase_ge c.readied t
    omega

theorem Sound.block (h : c.Sound initial) (hvalue : c.value = 0) (hfree : t ∉ c.queue) :
    (c.block t).Sound initial := by
  constructor
  case nonneg => exact h.nonneg
  case balance => exact h.balance
  case queue_nodup =>
    refine h.queue_nodup.append (List.nodup_singleton t) ?_
    intro x hx hx'
    rw [List.mem_singleton] at hx'
    exact hfree (hx' ▸ hx)
  case readied_nodup => exact h.readied_nodup.erase t
  case disjoint =>
    intro x hx hmem
    rcases List.mem_append.mp hmem with hold | hnew
    · exact h.disjoint x (List.mem_of_mem_erase hx) hold
    · rw [List.mem_singleton] at hnew
      rw [hnew] at hx
      exact ((h.readied_nodup.mem_erase_iff).mp hx).1 rfl
  case noLostWakeUp =>
    intro _
    show c.value ≤ ((c.readied.erase t).length : Int)
    omega

theorem Sound.fail (h : c.Sound initial) (hvalue : c.value = 0) : (c.fail t).Sound initial where
  nonneg := h.nonneg
  balance := h.balance
  queue_nodup := h.queue_nodup
  readied_nodup := h.readied_nodup.erase t
  disjoint x hx := h.disjoint x (List.mem_of_mem_erase hx)
  noLostWakeUp := by
    intro _
    show c.value ≤ ((c.readied.erase t).length : Int)
    omega

theorem Move.sound (hmove : Move c c') (h : c.Sound initial) : c'.Sound initial := by
  cases hmove with
  | raise => exact h.raise
  | take t hvalue => exact h.take hvalue
  | block t hvalue hfree => exact h.block hvalue hfree
  | fail t hvalue => exact h.fail hvalue

/-- The invariant rule for counters. -/
theorem Moves.sound (hmoves : Relation.ReflTransGen Move c c') (h : c.Sound initial) :
    c'.Sound initial := by
  induction hmoves with
  | refl => exact h
  | tail _ hmove ih => exact hmove.sound ih

omit [DecidableEq T] in
/-- No more units are taken than there have been. -/
theorem Sound.taken_le (h : c.Sound initial) : (c.taken : Int) ≤ initial + c.raised := by
  have hnonneg := h.nonneg
  have hbalance := h.balance
  omega

end Counter

end Lib
end Nachos
