import Mathlib.Data.Set.Insert
import Mathlib.Logic.Relation
import Nachos.Lib.QueuePartition
import Nachos.Threads.Kernel

/-!
# The abstract processor

What the thread kernel is for, said without any of its code: one processor,
a list of threads that are ready for it and a family of queues in which
threads wait.  A thread is started once, finishes at most once, and in between
the only things that happen to it are the seven `Move`s below.

The processor has a *phase*.  It is `active` while the current thread computes,
`parking` while the current thread has already put itself in a queue (or has
finished) but has not yet given up the processor, and `idle` from then until a
ready thread is dispatched.  Wake-ups happen in every phase but `parking`.

`Processor.Sound` is the invariant of all moves.  Its content is a placement:
every queue lists exactly the threads placed in it, so a thread is in one place
at a time.  `Kernel.view` maps the kernel's state to a processor; that every
step of the kernel is a sequence of moves is proved in `Refinement`.
-/

namespace Nachos
namespace Threads

open Lib

/-- The queues threads wait in. -/
inductive WaitQueue
  | semaphore (i : SemaphoreId)
  | lock (l : LockId)
  | condition (c : ConditionId)
  deriving DecidableEq, Repr

/-- The places a thread can be listed at: the ready list and the queues. -/
inductive Slot
  | ready
  | waiting (q : WaitQueue)
  deriving DecidableEq, Repr

/-- The phase of the processor. -/
inductive Phase
  | active
  | parking
  | idle
  deriving DecidableEq, Repr

/-- The abstract state. -/
structure Processor where
  phase : Phase
  current : ThreadId
  status : ThreadId → ThreadStatus
  slots : Slot → List ThreadId
  /-- Threads below this one have been started. -/
  born : Nat
  finished : Set ThreadId

/-- What can happen to the threads. -/
inductive Move : Processor → Processor → Prop
  /-- The current thread puts itself in a queue. -/
  | park (p : Processor) (q : WaitQueue) (hphase : p.phase = .active) :
      Move p { p with
        phase := .parking
        slots := Function.update p.slots (.waiting q)
          (p.slots (.waiting q) ++ [p.current]) }
  /-- The first thread of a queue is readied. -/
  | wake (p : Processor) (q : WaitQueue) (t : ThreadId) (rest : List ThreadId)
      (hphase : p.phase ≠ .parking) (hhead : p.slots (.waiting q) = t :: rest) :
      Move p { p with
        status := Function.update p.status t .ready
        slots := Function.update (Function.update p.slots (.waiting q) rest) .ready
          (p.slots .ready ++ [t]) }
  /-- A new thread is started. -/
  | spawn (p : Processor) (hphase : p.phase = .active) :
      Move p { p with
        status := Function.update p.status p.born .ready
        slots := Function.update p.slots .ready (p.slots .ready ++ [p.born])
        born := p.born + 1 }
  /-- The current thread finishes. -/
  | retire (p : Processor) (hphase : p.phase = .active) :
      Move p { p with phase := .parking, finished := insert p.current p.finished }
  /-- A parked thread gives up the processor. -/
  | block (p : Processor) (hphase : p.phase = .parking) :
      Move p { p with
        phase := .idle
        status := Function.update p.status p.current .blocked }
  /-- The first ready thread gets the processor. -/
  | dispatch (p : Processor) (next : ThreadId) (rest : List ThreadId)
      (hphase : p.phase = .idle) (hhead : p.slots .ready = next :: rest) :
      Move p { p with
        phase := .active
        current := next
        status := Function.update p.status next .running
        slots := Function.update p.slots .ready rest }
  /-- The current thread makes way for the first ready thread. -/
  | preempt (p : Processor) (next : ThreadId) (rest : List ThreadId)
      (hphase : p.phase = .active) (hhead : p.slots .ready = next :: rest) :
      Move p { p with
        current := next
        status := Function.update (Function.update p.status p.current .ready) next .running
        slots := Function.update p.slots .ready (rest ++ [p.current]) }

namespace Processor

/-- The invariant of the moves, for a given placement of the threads. -/
structure Placed (p : Processor) (place : ThreadId → Option Slot) : Prop where
  partition : Partitioned p.slots place
  ready_status : ∀ t, place t = some .ready → p.status t = .ready
  waiting_status : ∀ t q, place t = some (.waiting q) →
    p.status t = .blocked ∨ t = p.current ∧ p.phase = .parking
  placed_live : ∀ t, place t ≠ none → t < p.born ∧ t ∉ p.finished
  nowhere : ∀ t, t < p.born → place t = none →
    t ∈ p.finished ∨ t = p.current ∧ p.phase = .active
  current_born : p.current < p.born
  finished_born : ∀ t, t ∈ p.finished → t < p.born
  active : p.phase = .active →
    p.status p.current = .running ∧ place p.current = none ∧ p.current ∉ p.finished
  parking : p.phase = .parking →
    p.status p.current = .running ∧
      (p.current ∈ p.finished ∨ ∃ q, place p.current = some (.waiting q))
  idle : p.phase = .idle → p.current ∈ p.finished ∨ place p.current ≠ none

/-- A processor some placement makes sense of. -/
def Sound (p : Processor) : Prop := ∃ place, p.Placed place

end Processor

section Preservation

variable {p : Processor} {place : ThreadId → Option Slot}

/-- Finished threads are in no queue. -/
theorem Processor.Placed.finished_nowhere (h : p.Placed place) {t : ThreadId}
    (hfin : t ∈ p.finished) : place t = none := by
  by_contra hplace
  exact (h.placed_live t hplace).2 hfin

/-- The first thread of a slot is placed there. -/
theorem Processor.Placed.head_place (h : p.Placed place) {slot : Slot} {t : ThreadId}
    {rest : List ThreadId} (hhead : p.slots slot = t :: rest) : place t = some slot :=
  (h.partition.mem_iff slot t).mp (hhead ▸ List.mem_cons_self)

/-- Parking keeps the invariant: the current thread moves to the queue. -/
theorem Processor.Placed.park (h : p.Placed place) (q : WaitQueue) (hphase : p.phase = .active) :
    Processor.Placed { p with
        phase := .parking
        slots := Function.update p.slots (.waiting q) (p.slots (.waiting q) ++ [p.current]) }
      (Function.update place p.current (some (.waiting q))) := by
  obtain ⟨hrun, hfree, hlive⟩ := h.active hphase
  have hborn := h.current_born
  constructor
  case partition => exact h.partition.enqueue (.waiting q) hfree
  case ready_status => grind [h.ready_status]
  case waiting_status => grind [h.waiting_status]
  case placed_live =>
    intro x hx
    by_cases hxt : x = p.current
    · rw [hxt]
      exact ⟨hborn, hlive⟩
    · rw [Function.update_of_ne hxt] at hx
      exact h.placed_live x hx
  case nowhere => grind [h.nowhere]
  case current_born => exact hborn
  case finished_born => exact h.finished_born
  case active => simp
  case parking => exact fun _ => ⟨hrun, Or.inr ⟨q, by simp⟩⟩
  case idle => simp

/-- A wake-up keeps the invariant: the first thread of the queue moves to the
ready list. -/
theorem Processor.Placed.wake (h : p.Placed place) {q : WaitQueue} {t : ThreadId}
    {rest : List ThreadId} (hphase : p.phase ≠ .parking)
    (hhead : p.slots (.waiting q) = t :: rest) :
    Processor.Placed { p with
        status := Function.update p.status t .ready
        slots := Function.update (Function.update p.slots (.waiting q) rest) .ready
          (p.slots .ready ++ [t]) }
      (Function.update place t (some .ready)) := by
  have hplace := h.head_place hhead
  have hlive := h.placed_live t (by simp [hplace])
  constructor
  case partition =>
    have hout := (h.partition.dequeue hhead).enqueue .ready
      (Function.update_self t none place)
    simpa using hout
  case ready_status => grind [h.ready_status]
  case waiting_status => grind [h.waiting_status]
  case placed_live =>
    intro x hx
    by_cases hxt : x = t
    · rw [hxt]
      exact hlive
    · rw [Function.update_of_ne hxt] at hx
      exact h.placed_live x hx
  case nowhere => grind [h.nowhere]
  case current_born => exact h.current_born
  case finished_born => exact h.finished_born
  case active =>
    intro hactive
    obtain ⟨hrun, hfree, hcurlive⟩ := h.active hactive
    have hne : p.current ≠ t := by
      intro heq
      rw [heq, hplace] at hfree
      simp at hfree
    exact ⟨(Function.update_of_ne hne _ _).trans hrun,
      (Function.update_of_ne hne _ _).trans hfree, hcurlive⟩
  case parking => exact fun habs => absurd habs hphase
  case idle => grind [h.idle]

/-- Starting a thread keeps the invariant: the new thread is on the ready list. -/
theorem Processor.Placed.spawn (h : p.Placed place) (hphase : p.phase = .active) :
    Processor.Placed { p with
        status := Function.update p.status p.born .ready
        slots := Function.update p.slots .ready (p.slots .ready ++ [p.born])
        born := p.born + 1 }
      (Function.update place p.born (some .ready)) := by
  obtain ⟨hrun, hfree, hlive⟩ := h.active hphase
  have hborn := h.current_born
  have hnew : place p.born = none := by
    by_contra hplace
    exact absurd (h.placed_live p.born hplace).1 (Nat.lt_irrefl _)
  have hfin : p.born ∉ p.finished := fun hfin =>
    absurd (h.finished_born p.born hfin) (Nat.lt_irrefl _)
  constructor
  case partition => exact h.partition.enqueue .ready hnew
  case ready_status => grind [h.ready_status]
  case waiting_status => grind [h.waiting_status]
  case placed_live =>
    intro x hx
    by_cases hxt : x = p.born
    · rw [hxt]
      exact ⟨Nat.lt_succ_self _, hfin⟩
    · rw [Function.update_of_ne hxt] at hx
      obtain ⟨hxborn, hxlive⟩ := h.placed_live x hx
      exact ⟨Nat.lt_succ_of_lt hxborn, hxlive⟩
  case nowhere => grind [h.nowhere]
  case current_born => exact Nat.lt_succ_of_lt hborn
  case finished_born => exact fun t ht => Nat.lt_succ_of_lt (h.finished_born t ht)
  case active => grind
  case parking => grind
  case idle => grind

/-- Finishing keeps the invariant: the placement does not change. -/
theorem Processor.Placed.retire (h : p.Placed place) (hphase : p.phase = .active) :
    Processor.Placed { p with phase := .parking, finished := insert p.current p.finished }
      place := by
  obtain ⟨hrun, hfree, hlive⟩ := h.active hphase
  have hborn := h.current_born
  constructor
  case partition => exact h.partition
  case ready_status => exact h.ready_status
  case waiting_status => grind [h.waiting_status]
  case placed_live =>
    intro x hx
    obtain ⟨hxborn, hxlive⟩ := h.placed_live x hx
    refine ⟨hxborn, ?_⟩
    rintro (hxt | hxfin)
    · exact hx (hxt ▸ hfree)
    · exact hxlive hxfin
  case nowhere => grind [h.nowhere]
  case current_born => exact hborn
  case finished_born =>
    rintro x (hxt | hxfin)
    · exact hxt ▸ hborn
    · exact h.finished_born x hxfin
  case active => simp
  case parking => exact fun _ => ⟨hrun, Or.inl (Set.mem_insert _ _)⟩
  case idle => simp

/-- Giving up the processor keeps the invariant. -/
theorem Processor.Placed.block (h : p.Placed place) (hphase : p.phase = .parking) :
    Processor.Placed { p with
        phase := .idle
        status := Function.update p.status p.current .blocked } place := by
  obtain ⟨hrun, hpark⟩ := h.parking hphase
  have hfin := @Processor.Placed.finished_nowhere p place h p.current
  constructor
  case partition => exact h.partition
  case ready_status => grind [h.ready_status]
  case waiting_status => grind [h.waiting_status]
  case placed_live => exact h.placed_live
  case nowhere => grind [h.nowhere]
  case current_born => exact h.current_born
  case finished_born => exact h.finished_born
  case active => simp
  case parking => simp
  case idle => grind

/-- A dispatch keeps the invariant: the first ready thread leaves the lists. -/
theorem Processor.Placed.dispatch (h : p.Placed place) {next : ThreadId}
    {rest : List ThreadId} (hphase : p.phase = .idle)
    (hhead : p.slots .ready = next :: rest) :
    Processor.Placed { p with
        phase := .active
        current := next
        status := Function.update p.status next .running
        slots := Function.update p.slots .ready rest }
      (Function.update place next none) := by
  have hplace := h.head_place hhead
  obtain ⟨hborn, hlive⟩ := h.placed_live next (by simp [hplace])
  constructor
  case partition => exact h.partition.dequeue hhead
  case ready_status => grind [h.ready_status]
  case waiting_status => grind [h.waiting_status]
  case placed_live =>
    intro x hx
    by_cases hxt : x = next
    · rw [hxt, Function.update_self] at hx
      exact absurd rfl hx
    · rw [Function.update_of_ne hxt] at hx
      exact h.placed_live x hx
  case nowhere => grind [h.nowhere]
  case current_born => exact hborn
  case finished_born => exact h.finished_born
  case active => exact fun _ => ⟨by simp, by simp, hlive⟩
  case parking => simp
  case idle => simp

/-- A preemption keeps the invariant: the two threads change places. -/
theorem Processor.Placed.preempt (h : p.Placed place) {next : ThreadId}
    {rest : List ThreadId} (hphase : p.phase = .active)
    (hhead : p.slots .ready = next :: rest) :
    Processor.Placed { p with
        current := next
        status := Function.update (Function.update p.status p.current .ready) next .running
        slots := Function.update p.slots .ready (rest ++ [p.current]) }
      (Function.update (Function.update place next none) p.current (some .ready)) := by
  obtain ⟨hrun, hfree, hcurlive⟩ := h.active hphase
  have hplace := h.head_place hhead
  obtain ⟨hborn, hlive⟩ := h.placed_live next (by simp [hplace])
  have hne : p.current ≠ next := by
    intro heq
    rw [heq, hplace] at hfree
    simp at hfree
  have hcurborn := h.current_born
  constructor
  case partition =>
    have hgone : Function.update place next none p.current = none := by
      rw [Function.update_of_ne hne]
      exact hfree
    have hout := (h.partition.dequeue hhead).enqueue .ready hgone
    simpa using hout
  case ready_status => grind [h.ready_status]
  case waiting_status => grind [h.waiting_status]
  case placed_live =>
    intro x hx
    by_cases hxcur : x = p.current
    · rw [hxcur]
      exact ⟨hcurborn, hcurlive⟩
    · rw [Function.update_of_ne hxcur] at hx
      by_cases hxnext : x = next
      · rw [hxnext, Function.update_self] at hx
        exact absurd rfl hx
      · rw [Function.update_of_ne hxnext] at hx
        exact h.placed_live x hx
  case nowhere => grind [h.nowhere]
  case current_born => exact hborn
  case finished_born => exact h.finished_born
  case active => grind
  case parking => grind
  case idle => grind

/-- Every move keeps the processor sound. -/
theorem Move.sound {p p' : Processor} (hmove : Move p p') (h : p.Sound) : p'.Sound := by
  obtain ⟨place, h⟩ := h
  cases hmove with
  | park q hphase => exact ⟨_, h.park q hphase⟩
  | wake q t rest hphase hhead => exact ⟨_, h.wake hphase hhead⟩
  | spawn hphase => exact ⟨_, h.spawn hphase⟩
  | retire hphase => exact ⟨_, h.retire hphase⟩
  | block hphase => exact ⟨_, h.block hphase⟩
  | dispatch next rest hphase hhead => exact ⟨_, h.dispatch hphase hhead⟩
  | preempt next rest hphase hhead => exact ⟨_, h.preempt hphase hhead⟩

/-- Finite sequences of moves keep the processor sound. -/
theorem Moves.sound {p p' : Processor} (hmoves : Relation.ReflTransGen Move p p')
    (h : p.Sound) : p'.Sound := by
  induction hmoves with
  | refl => exact h
  | tail _ hmove ih => exact hmove.sound ih

end Preservation

section OnePlace

/-- The thread is in exactly one place, once: on the processor, on the ready
list, or in one queue, with the status that belongs there. -/
def Processor.InOnePlace (p : Processor) (t : ThreadId) : Prop :=
  (t = p.current ∧ p.status t = .running ∧ ∀ slot, t ∉ p.slots slot) ∨
  (p.status t = .ready ∧ (p.slots .ready).count t = 1 ∧
    ∀ slot, slot ≠ .ready → t ∉ p.slots slot) ∨
  ∃ q, p.status t = .blocked ∧ (p.slots (.waiting q)).count t = 1 ∧
    ∀ slot, slot ≠ .waiting q → t ∉ p.slots slot

variable {p : Processor}

/-- Outside the parking phase every live thread is in exactly one place. -/
theorem Processor.Sound.inOnePlace (h : p.Sound) (hphase : p.phase ≠ .parking)
    {t : ThreadId} (hborn : t < p.born) (hlive : t ∉ p.finished) : p.InOnePlace t := by
  obtain ⟨place, h⟩ := h
  have helsewhere : ∀ {slot}, place t = some slot → ∀ slot', slot' ≠ slot →
      t ∉ p.slots slot' := by
    intro slot hplace slot' hne hmem
    rw [h.partition.mem_iff, hplace] at hmem
    exact hne (Option.some.inj hmem).symm
  cases hplace : place t with
  | none =>
      rcases h.nowhere t hborn hplace with hfin | ⟨rfl, hactive⟩
      · exact absurd hfin hlive
      · refine Or.inl ⟨rfl, (h.active hactive).1, ?_⟩
        intro slot hmem
        rw [h.partition.mem_iff, hplace] at hmem
        simp at hmem
  | some slot =>
      have hcount := h.partition.count_eq slot t
      rw [if_pos hplace] at hcount
      cases slot with
      | ready =>
          exact Or.inr (Or.inl ⟨h.ready_status t hplace, hcount, helsewhere hplace⟩)
      | waiting q =>
          rcases h.waiting_status t q hplace with hblocked | ⟨-, hpark⟩
          · exact Or.inr (Or.inr ⟨q, hblocked, hcount, helsewhere hplace⟩)
          · exact absurd hpark hphase

/-- A finished thread is on no list. -/
theorem Processor.Sound.finished_notMem (h : p.Sound) {t : ThreadId}
    (hfin : t ∈ p.finished) (slot : Slot) : t ∉ p.slots slot := by
  obtain ⟨place, h⟩ := h
  intro hmem
  rw [h.partition.mem_iff, h.finished_nowhere hfin] at hmem
  simp at hmem

/-- While it computes, the current thread is on no list. -/
theorem Processor.Sound.current_notMem (h : p.Sound) (hphase : p.phase = .active)
    (slot : Slot) : p.current ∉ p.slots slot := by
  obtain ⟨place, h⟩ := h
  intro hmem
  rw [h.partition.mem_iff, (h.active hphase).2.1] at hmem
  simp at hmem

/-- No list has a thread twice. -/
theorem Processor.Sound.nodup (h : p.Sound) (slot : Slot) : (p.slots slot).Nodup := by
  obtain ⟨place, h⟩ := h
  exact h.partition.nodup slot

/-- A thread is on one list at most. -/
theorem Processor.Sound.slot_unique (h : p.Sound) {slot slot' : Slot} {t : ThreadId}
    (hmem : t ∈ p.slots slot) (hmem' : t ∈ p.slots slot') : slot = slot' := by
  obtain ⟨place, h⟩ := h
  exact h.partition.slot_unique hmem hmem'

/-- Listed threads have been started. -/
theorem Processor.Sound.born_of_mem (h : p.Sound) {slot : Slot} {t : ThreadId}
    (hmem : t ∈ p.slots slot) : t < p.born := by
  obtain ⟨place, h⟩ := h
  rw [h.partition.mem_iff] at hmem
  exact (h.placed_live t (by simp [hmem])).1

/-- The current thread has been started. -/
theorem Processor.Sound.current_born (h : p.Sound) : p.current < p.born := by
  obtain ⟨place, h⟩ := h
  exact h.current_born

end OnePlace

end Threads
end Nachos
