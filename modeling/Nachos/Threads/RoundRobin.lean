import Nachos.Lib.Turns
import Nachos.Threads.Runs

/-!
# Round robin

`Scheduler::FindNextToRun` takes the first thread off the ready list and `ReadyToRun` puts one
at its end, and nothing else touches the list.  A run is looked at with the threads that get
the processor in it: they get it in the order in which they have been readied, so that a thread
with `k` others in front of it on the ready list runs after exactly these, whatever interrupts,
locks and clients do in between.
-/

namespace Nachos
namespace Threads

open Lib

variable {κ σ ι : Type}

namespace Kernel

/-- The thread that a step takes off the ready list and gives the processor to. -/
def dispatched (s : Kernel κ σ) : Option ThreadId :=
  match s.top with
  | some (.call .threadYield) => s.readyList.head?
  | some .sleepLoop => s.readyList.head?
  | _ => none

/-- A step, with the thread that it dispatches. -/
def dispatchStep (client : Client κ σ ι) (choice : Choice ι) (s : Kernel κ σ) :
    Except Stop (Option ThreadId × Kernel κ σ) :=
  (s.step client choice).map fun s' => (s.dispatched, s')

/-- The threads that are dispatched in a run. -/
abbrev Schedule (client : Client κ σ ι) :=
  Traced (Answers (dispatchStep client) fun _ _ => True)

/-- Threads are only put at the end of the ready list. -/
def Readies (s s' : Kernel κ σ) : Prop := ∃ readied, s'.readyList = s.readyList ++ readied

section Effects

variable {client : Client κ σ ι} {choice : Choice ι} {s s' s'' : Kernel κ σ}

theorem Readies.of_eq (h : s'.readyList = s.readyList) : s.Readies s' :=
  ⟨[], by rw [h, List.append_nil]⟩

theorem Readies.trans (h : s.Readies s') (h' : s'.Readies s'') : s.Readies s'' := by
  obtain ⟨first, hfirst⟩ := h
  obtain ⟨later, hlater⟩ := h'
  exact ⟨first ++ later, by rw [hlater, hfirst, List.append_assoc]⟩

theorem raiseSemaphore_readies (i : SemaphoreId) (s : Kernel κ σ) :
    s.Readies (s.raiseSemaphore i) := by
  unfold raiseSemaphore
  split
  · exact .of_eq rfl
  · exact ⟨[_], rfl⟩

theorem handleAll_readies (interrupts : List Interrupt) (s : Kernel κ σ) :
    s.Readies (s.handleAll interrupts) := by
  induction interrupts generalizing s with
  | nil => exact .of_eq rfl
  | cons irq interrupts ih =>
      refine Readies.trans ?_ (ih (s.handle irq))
      cases irq with
      | timer => exact .of_eq rfl
      | device i => exact raiseSemaphore_readies i s

theorem tickHandled_readies (interrupts : List Interrupt) (s : Kernel κ σ) :
    s.Readies (s.tickHandled interrupts) := by
  have hclock : s.advanceClock.readyList = s.readyList := by
    unfold advanceClock
    split <;> rfl
  exact Readies.trans (.of_eq hclock) (handleAll_readies interrupts _)

/-- While the machine is idle, only interrupts make threads ready. -/
theorem idle_readies (advance : Nat) (interrupts : List Interrupt) (s : Kernel κ σ) :
    s.Readies (s.idle advance interrupts) :=
  Readies.trans (.of_eq rfl) (handleAll_readies interrupts _)

/-- An operation other than `Yield` leaves the processor to its thread. -/
theorem execOp_readies {op : Op κ} (hop : op ≠ .threadYield) : s.Readies (s.execOp op) := by
  cases op with
  | semaphoreV i => exact raiseSemaphore_readies i (s.changeLevel .intOff)
  | lockRelease l =>
      show s.Readies (s.lockRelease l)
      unfold lockRelease
      split
      · split
        · exact ⟨[_], rfl⟩
        · exact .of_eq rfl
      · exact .of_eq rfl
  | conditionSignal c conditionLock =>
      show s.Readies (s.conditionSignal c conditionLock)
      unfold conditionSignal
      split
      · exact .of_eq rfl
      · split
        · exact ⟨[_], rfl⟩
        · exact .of_eq rfl
  | threadFork body => exact ⟨[s.threadCount], rfl⟩
  | threadYield => exact absurd rfl hop
  | _ =>
      refine .of_eq ?_
      simp only [execOp, semaphoreP, lockAcquire, conditionWait, threadFinish]
      repeat' split
      all_goals rfl

/-- Code that does not call `SWITCH` leaves the processor to its thread. -/
theorem exec_readies {frame : Frame κ} (h : s.exec client choice frame = .ok s')
    (hyield : frame ≠ .call .threadYield) (hsleep : frame ≠ .sleepLoop) : s.Readies s' := by
  cases frame with
  | call op =>
      obtain rfl := Except.ok.inj h
      exact execOp_readies fun hop => hyield (congrArg Frame.call hop)
  | setLevel now =>
      obtain rfl := Except.ok.inj h
      refine .of_eq ?_
      unfold setLevel
      split <;> rfl
  | oneTick =>
      obtain rfl := Except.ok.inj h
      rcases oneTick_eq choice.interrupts s with heq | heq
      · rw [heq]
        exact tickHandled_readies choice.interrupts s
      · rw [heq]
        exact tickHandled_readies choice.interrupts s
  | setStatus m =>
      obtain rfl := Except.ok.inj h
      exact .of_eq rfl
  | sleep =>
      obtain ⟨-, rfl⟩ := threadSleep_ok h
      exact .of_eq rfl
  | sleepLoop => exact absurd rfl hsleep
  | afterSwitch =>
      rcases afterSwitch_ok h with rfl | ⟨t, -, -, rfl⟩
      · exact .of_eq rfl
      · exact .of_eq rfl
  | whileValueZero i =>
      obtain rfl := Except.ok.inj h
      refine .of_eq ?_
      unfold whileValueZero
      split <;> rfl
  | waitAppend c l =>
      obtain rfl := Except.ok.inj h
      exact .of_eq rfl
  | waitReacquire c l =>
      obtain rfl := Except.ok.inj h
      exact .of_eq rfl
  | broadcastLoop c l =>
      obtain rfl := Except.ok.inj h
      refine .of_eq ?_
      unfold broadcastLoop
      split <;> rfl
  | halt => exact absurd h (by simp [exec])
  | client k =>
      obtain ⟨state, requests, -, rfl⟩ := exec_client_ok h
      exact .of_eq rfl

theorem dispatched_of_other {frame : Frame κ} (htop : s.top = some frame)
    (hyield : frame ≠ .call .threadYield) (hsleep : frame ≠ .sleepLoop) : s.dispatched = none := by
  unfold dispatched
  rw [htop]
  split
  · rename_i hframe
    exact absurd (Option.some.inj hframe) hyield
  · rename_i hframe
    exact absurd (Option.some.inj hframe) hsleep
  · rfl

/-- What a step does with the ready list, and who has the processor behind it. -/
theorem step_turn (h : s.step client choice = .ok s') :
    Turn s.readyList s.dispatched s'.readyList ∧
      s'.currentThread = s.dispatched.getD s.currentThread := by
  obtain ⟨frame, htop, hexec⟩ := step_ok h
  by_cases hyield : frame = .call .threadYield
  · -- `Yield` puts its own thread behind the others
    subst hyield
    obtain rfl := Except.ok.inj hexec
    have hnext : s.dispatched = s.readyList.head? := by
      unfold dispatched
      rw [htop]
    rw [hnext]
    simp only [execOp, threadYield, show s.pop.readyList = s.readyList from rfl]
    cases hready : s.readyList with
    | nil =>
        refine ⟨?_, rfl⟩
        show Turn [] none s.readyList
        rw [hready]
        exact .same []
    | cons next rest => exact ⟨.serves next rest [s.currentThread], rfl⟩
  · by_cases hsleep : frame = .sleepLoop
    · -- the thread in `Sleep` goes to no queue of the scheduler
      subst hsleep
      have hnext : s.dispatched = s.readyList.head? := by
        unfold dispatched
        rw [htop]
      rw [hnext]
      rcases sleepLoop_ok hexec with ⟨next, rest, hready, rfl⟩ | ⟨hready, -, advance, rfl⟩
      · rw [show s.readyList = next :: rest from hready]
        have hserves := Turn.serves next rest []
        rw [List.append_nil] at hserves
        exact ⟨hserves, rfl⟩
      · rw [show s.readyList = [] from hready]
        obtain ⟨readied, hreadied⟩ := idle_readies advance choice.interrupts s.pop
        rw [show s.pop.readyList = [] from hready] at hreadied
        refine ⟨?_, (idle_frame advance choice.interrupts s.pop).currentThread⟩
        show Turn [] none (s.pop.idle advance choice.interrupts).readyList
        rw [show (s.pop.idle advance choice.interrupts).readyList = [] ++ readied from hreadied]
        exact .joins [] readied
    · rw [dispatched_of_other htop hyield hsleep]
      obtain ⟨readied, hreadied⟩ := exec_readies hexec hyield hsleep
      refine ⟨?_, ?_⟩
      · rw [hreadied]
        exact .joins s.readyList readied
      · rcases exec_currentThread hexec with hsame | ⟨_, _, -, -, ⟨hframe, -⟩ | ⟨hframe, -⟩⟩
        · exact hsame
        · exact absurd hframe hyield
        · exact absurd hframe hsleep

end Effects

section Schedules

variable {client : Client κ σ ι} {s s' : Kernel κ σ} {labels : List (Option ThreadId)}

theorem dispatchStep_ok {label : Option ThreadId}
    (h : Answers (dispatchStep client) (fun _ _ => True) s label s') :
    label = s.dispatched ∧ ∃ choice, s.step client choice = .ok s' := by
  obtain ⟨choice, -, hstep⟩ := h
  unfold dispatchStep at hstep
  cases hnext : s.step client choice with
  | error stop =>
      rw [hnext] at hstep
      exact absurd hstep (by simp [Except.map])
  | ok next =>
      rw [hnext] at hstep
      obtain ⟨rfl, rfl⟩ := Prod.mk.inj (Except.ok.inj hstep)
      exact ⟨rfl, choice, hnext⟩

/-- The processor is with the thread that was dispatched last. -/
theorem Schedule.currentThread (hrun : Schedule client s labels s') :
    s'.currentThread = (labels.filterMap id).getLastD s.currentThread := by
  induction hrun with
  | refl => rfl
  | @tail labels u v label hrun hstep ih =>
      obtain ⟨rfl, choice, hnext⟩ := dispatchStep_ok hstep
      rw [(step_turn hnext).2, ih, List.filterMap_append]
      cases u.dispatched with
      | none => simp
      | some next => simp

/-- **Round robin.**  In every run the threads that stand on the ready list get the processor
in turn: the one with `k` others in front of it is the next but `k` to be dispatched, and until
then it has as many others in front of it as are still to be dispatched.  Nobody else has the
processor. -/
theorem dispatched_in_turn (hrun : Schedule client s labels s') :
    s'.currentThread = (labels.filterMap id).getLastD s.currentThread ∧
    (∃ readied, s.readyList ++ readied = labels.filterMap id ++ s'.readyList) ∧
    ∀ k t, s.readyList[k]? = some t →
      (labels.filterMap id)[k]? = some t ∨ (labels.filterMap id).length ≤ k ∧
        s'.readyList[k - (labels.filterMap id).length]? = some t := by
  have hstep : ∀ u label v, Answers (dispatchStep client) (fun _ _ => True) u label v →
      Turn u.readyList (id label) v.readyList := by
    intro u label v h
    obtain ⟨rfl, choice, hnext⟩ := dispatchStep_ok h
    exact (step_turn hnext).1
  obtain ⟨readied, hreadied⟩ := hrun.turns readyList id hstep
  exact ⟨Schedule.currentThread hrun, ⟨readied, hreadied⟩,
    fun k t ht => place_in_turn hreadied ht⟩

end Schedules

end Kernel

/-- Two threads are ready while the main thread waits for a semaphore: the first gets the
processor, yields, and the second gets it. -/
theorem dispatched_in_turn_yield :
    ∃ s labels s', Kernel.Reachable freeClient s ∧ Kernel.Schedule freeClient s labels s' ∧
      s.readyList = [1, 2] ∧ labels.filterMap id = [1, 2] ∧ s'.currentThread = 2 := by
  have hreplay : (replay (Kernel.step freeClient) (fun _ _ => true)
      (steps 2 ++ [quietly [.call (.threadFork ()), .call (.threadFork ()),
        .call (.semaphoreP 0)]] ++ steps 9) (Kernel.boot (fun _ => 0) () ())).any (fun s =>
      (record (Kernel.dispatchStep freeClient) (fun _ _ => true)
        (steps 3 ++ [quietly [.call .threadYield]] ++ steps 1) s).any fun r =>
        decide (s.readyList = [1, 2] ∧ r.1.filterMap id = [1, 2])) = true := by
    decide +kernel
  obtain ⟨u, hfirst, hany⟩ := (Option.any_eq_true _ _).mp hreplay
  obtain ⟨⟨labels, s'⟩, hrecord, hcheck⟩ := (Option.any_eq_true _ _).mp hany
  obtain ⟨hready, hserved⟩ := of_decide_eq_true hcheck
  have hreach : Kernel.Reachable freeClient u :=
    ⟨_, _, _, reach_of_replay (fun _ _ _ => trivial) _ hfirst⟩
  have hrun : Kernel.Schedule freeClient u labels s' :=
    traced_of_record (fun _ _ _ => trivial) hrecord
  have hcurrent := (Kernel.dispatched_in_turn hrun).1
  rw [hserved] at hcurrent
  exact ⟨u, labels, s', hreach, hrun, hready, hserved, hcurrent⟩

end Threads
end Nachos
