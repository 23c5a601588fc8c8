import Nachos.Threads.Runs

/-!
# The accounts of the kernel

Some of the kernel's state is kept like an account: the values and queues of the
semaphores, the tick counters with the mode that decides which of them is
charged, and the finished thread that is still to be deleted.  Few program points
touch an account, and `exec_sameAccounts` says so for all the others at once.
The three modules that audit the accounts only have to look at the rest.

Interrupt handlers raise semaphores and ask for a yield; they touch no other
account.
-/

namespace Nachos
namespace Threads

variable {κ σ ι : Type}

/-- The program points that touch an account. -/
def Frame.isAccounting : Frame κ → Bool
  | .call (.semaphoreV _) => true
  | .call .threadFinish => true
  | .oneTick => true
  | .setStatus _ => true
  | .sleepLoop => true
  | .afterSwitch => true
  | .whileValueZero _ => true
  | _ => false

/-- The events that are entries of an account. -/
def Event.isAccounted : Event → Bool
  | .semaphoreTaken _ _ => true
  | .semaphoreRaised _ => true
  | .threadFinished _ => true
  | .threadDeleted _ => true
  | _ => false

namespace Kernel

/-- The accounts of two states agree. -/
structure SameAccounts (s s' : Kernel κ σ) : Prop where
  semaphore : s'.semaphore = s.semaphore
  threadToBeDestroyed : s'.threadToBeDestroyed = s.threadToBeDestroyed
  stats : s'.stats = s.stats
  machineStatus : s'.machineStatus = s.machineStatus
  history : ∃ events, s.Adds s' events ∧ ∀ e ∈ events, e.isAccounted = false

section Same

variable {client : Client κ σ ι} {choice : Choice ι} {s s' : Kernel κ σ}

theorem SameAccounts.of_eq (hsemaphore : s'.semaphore = s.semaphore)
    (hdestroyed : s'.threadToBeDestroyed = s.threadToBeDestroyed) (hstats : s'.stats = s.stats)
    (hstatus : s'.machineStatus = s.machineStatus) (hhistory : s'.history = s.history) :
    SameAccounts s s' :=
  ⟨hsemaphore, hdestroyed, hstats, hstatus, [], Adds.nil hhistory, by simp⟩

theorem SameAccounts.of_event (e : Event) (hsemaphore : s'.semaphore = s.semaphore)
    (hdestroyed : s'.threadToBeDestroyed = s.threadToBeDestroyed) (hstats : s'.stats = s.stats)
    (hstatus : s'.machineStatus = s.machineStatus) (hadds : s.Adds s' [e])
    (he : e.isAccounted = false) : SameAccounts s s' :=
  ⟨hsemaphore, hdestroyed, hstats, hstatus, [e], hadds, by simpa using he⟩

/-- The operations that touch no account. -/
theorem execOp_sameAccounts {op : Op κ} (hop : (Frame.call op).isAccounting = false)
    (s : Kernel κ σ) : SameAccounts s (s.execOp op) := by
  cases op with
  | semaphoreP i => exact .of_eq rfl rfl rfl rfl rfl
  | semaphoreV i => simp [Frame.isAccounting] at hop
  | lockAcquire l =>
      simp only [execOp, lockAcquire]
      split
      · exact .of_eq rfl rfl rfl rfl rfl
      · split
        · exact .of_eq rfl rfl rfl rfl rfl
        · exact .of_event _ rfl rfl rfl rfl rfl rfl
  | lockRelease l =>
      simp only [execOp, lockRelease]
      split
      · split
        · exact .of_event _ rfl rfl rfl rfl rfl rfl
        · exact .of_eq rfl rfl rfl rfl rfl
      · exact .of_eq rfl rfl rfl rfl rfl
  | conditionWait c conditionLock =>
      simp only [execOp, conditionWait]
      repeat' split
      all_goals exact .of_eq rfl rfl rfl rfl rfl
  | conditionSignal c conditionLock =>
      simp only [execOp, conditionSignal]
      split
      · exact .of_eq rfl rfl rfl rfl rfl
      · split
        · exact .of_event _ rfl rfl rfl rfl rfl rfl
        · exact .of_eq rfl rfl rfl rfl rfl
  | conditionBroadcast c conditionLock => exact .of_eq rfl rfl rfl rfl rfl
  | threadFork body => exact .of_eq rfl rfl rfl rfl rfl
  | threadYield =>
      simp only [execOp, threadYield]
      split
      · exact .of_eq rfl rfl rfl rfl rfl
      · exact .of_eq rfl rfl rfl rfl rfl
  | threadFinish => simp [Frame.isAccounting] at hop

/-- The program points that touch no account. -/
theorem exec_sameAccounts {frame : Frame κ} (h : s.exec client choice frame = .ok s')
    (hframe : frame.isAccounting = false) : SameAccounts s s' := by
  cases frame with
  | call op =>
      obtain rfl := Except.ok.inj h
      exact execOp_sameAccounts hframe s
  | setLevel now =>
      obtain rfl := Except.ok.inj h
      unfold setLevel
      split
      · exact .of_eq rfl rfl rfl rfl rfl
      · exact .of_eq rfl rfl rfl rfl rfl
  | sleep =>
      obtain ⟨-, rfl⟩ := threadSleep_ok h
      exact .of_eq rfl rfl rfl rfl rfl
  | waitAppend c l =>
      obtain rfl := Except.ok.inj h
      exact .of_event _ rfl rfl rfl rfl rfl rfl
  | waitReacquire c l =>
      obtain rfl := Except.ok.inj h
      exact .of_eq rfl rfl rfl rfl rfl
  | broadcastLoop c conditionLock =>
      obtain rfl := Except.ok.inj h
      unfold broadcastLoop
      split
      · exact .of_eq rfl rfl rfl rfl rfl
      · exact .of_eq rfl rfl rfl rfl rfl
  | halt => exact absurd h (by simp [exec])
  | client k =>
      obtain ⟨state, requests, -, rfl⟩ := exec_client_ok h
      exact .of_eq rfl rfl rfl rfl rfl
  | _ => simp [Frame.isAccounting] at hframe

theorem StepAt.sameAccounts {frame : Frame κ} {rest gs : List (Frame κ)}
    (hat : StepAt client choice s s' frame rest gs) (hframe : frame.isAccounting = false) :
    SameAccounts s s' := by
  have hsame := exec_sameAccounts hat.exec hframe
  exact ⟨hsame.semaphore, hsame.threadToBeDestroyed, hsame.stats, hsame.machineStatus,
    hsame.history⟩

end Same

section Handlers

/-- The clock part of `Interrupt::Idle`. -/
def advanceIdle (advance : Nat) (s : Kernel κ σ) : Kernel κ σ :=
  { s with stats := { s.stats with
      totalTicks := s.stats.totalTicks + advance
      idleTicks := s.stats.idleTicks + advance } }

/-- What handlers leave of the accounts: they raise semaphores. -/
structure RaisesOnly (s s' : Kernel κ σ) : Prop where
  threadToBeDestroyed : s'.threadToBeDestroyed = s.threadToBeDestroyed
  stats : s'.stats = s.stats
  machineStatus : s'.machineStatus = s.machineStatus
  history : ∃ events, s.Adds s' events ∧ ∀ e ∈ events, ∃ i, e = .semaphoreRaised i

theorem raiseSemaphore_raisesOnly (i : SemaphoreId) (s : Kernel κ σ) :
    RaisesOnly s (s.raiseSemaphore i) := by
  unfold raiseSemaphore
  split
  · exact ⟨rfl, rfl, rfl, [.semaphoreRaised i], rfl, by simp⟩
  · exact ⟨rfl, rfl, rfl, [.semaphoreRaised i], rfl, by simp⟩

theorem handleAll_raisesOnly (interrupts : List Interrupt) (s : Kernel κ σ) :
    RaisesOnly s (s.handleAll interrupts) := by
  induction interrupts generalizing s with
  | nil => exact ⟨rfl, rfl, rfl, [], Adds.nil rfl, by simp⟩
  | cons irq interrupts ih =>
      have hone : RaisesOnly s (s.handle irq) := by
        cases irq with
        | timer => exact ⟨rfl, rfl, rfl, [], Adds.nil rfl, by simp⟩
        | device i => exact raiseSemaphore_raisesOnly i s
      have hrest := ih (s.handle irq)
      obtain ⟨first, hfirst, hfirstOnly⟩ := hone.history
      obtain ⟨later, hlater, hlaterOnly⟩ := hrest.history
      refine ⟨hrest.threadToBeDestroyed.trans hone.threadToBeDestroyed,
        hrest.stats.trans hone.stats, hrest.machineStatus.trans hone.machineStatus,
        first ++ later, ?_, ?_⟩
      · show (s.handle irq |>.handleAll interrupts).history = _
        rw [hlater, hfirst, List.append_assoc]
      · intro e he
        rcases List.mem_append.mp he with hold | hnew
        · exact hfirstOnly e hold
        · exact hlaterOnly e hnew

/-- A tick raises semaphores; whether it yields makes no difference to the accounts
but for the mode. -/
theorem oneTick_raises (interrupts : List Interrupt) (s : Kernel κ σ) :
    (s.oneTick interrupts).threadToBeDestroyed = s.threadToBeDestroyed ∧
      ∃ events, s.Adds (s.oneTick interrupts) events ∧
        ∀ e ∈ events, ∃ i, e = .semaphoreRaised i := by
  have hraise := handleAll_raisesOnly interrupts (s.advanceClock.changeLevel .intOff)
  have hclock : s.advanceClock.threadToBeDestroyed = s.threadToBeDestroyed ∧
      s.advanceClock.history = s.history := by
    unfold advanceClock
    split
    · exact ⟨rfl, rfl⟩
    · exact ⟨rfl, rfl⟩
  have htick : (s.oneTick interrupts).threadToBeDestroyed =
        ((s.advanceClock.changeLevel .intOff).handleAll interrupts).threadToBeDestroyed ∧
      (s.oneTick interrupts).history =
        ((s.advanceClock.changeLevel .intOff).handleAll interrupts).history := by
    unfold oneTick
    simp only
    split
    · exact ⟨rfl, rfl⟩
    · exact ⟨rfl, rfl⟩
  obtain ⟨events, hadds, honly⟩ := hraise.history
  refine ⟨htick.1.trans (hraise.threadToBeDestroyed.trans hclock.1), events, ?_, honly⟩
  rw [Adds, htick.2, hadds]
  exact congrArg (· ++ events) hclock.2

end Handlers

section Entries

/-- The entries a step at a frame may make. -/
def Enters (s : Kernel κ σ) (frame : Frame κ) : Event → Prop
  | .semaphoreTaken i t => frame = .whileValueZero i ∧ t = s.currentThread
  | .threadFinished t => frame = .call .threadFinish ∧ t = s.currentThread
  | .threadDeleted t => frame = .afterSwitch ∧ s.threadToBeDestroyed = some t
  | _ => True

variable {client : Client κ σ ι} {choice : Choice ι} {s s' : Kernel κ σ} {frame : Frame κ}
  {rest gs : List (Frame κ)}

/-- The entries of a step are those of its program point. -/
theorem StepAt.entries (hat : StepAt client choice s s' frame rest gs) :
    ∃ events, s.Adds s' events ∧ ∀ e ∈ events, s.Enters frame e := by
  have hexec := hat.exec
  have hraised : (∃ events, s.Adds s' events ∧ ∀ e ∈ events, ∃ i, e = .semaphoreRaised i) →
      ∃ events, s.Adds s' events ∧ ∀ e ∈ events, s.Enters frame e := by
    rintro ⟨events, hadds, honly⟩
    refine ⟨events, hadds, fun e he => ?_⟩
    obtain ⟨i, rfl⟩ := honly e he
    trivial
  have hquiet : frame.isAccounting = false →
      ∃ events, s.Adds s' events ∧ ∀ e ∈ events, s.Enters frame e := by
    intro hframe
    obtain ⟨events, hadds, hother⟩ := (hat.sameAccounts hframe).history
    refine ⟨events, hadds, fun e he => ?_⟩
    have hnone := hother e he
    cases e <;> simp_all [Event.isAccounted, Enters]
  cases frame with
  | call op =>
      cases op with
      | semaphoreV i =>
          obtain rfl := Except.ok.inj hexec
          exact hraised (raiseSemaphore_raisesOnly i (s.pop.changeLevel .intOff)).history
      | threadFinish =>
          obtain rfl := Except.ok.inj hexec
          exact ⟨[.threadFinished s.currentThread], rfl, by simp [Enters]⟩
      | _ => exact hquiet rfl
  | oneTick =>
      obtain rfl := Except.ok.inj hexec
      exact hraised (oneTick_raises choice.interrupts s.pop).2
  | setStatus m =>
      obtain rfl := Except.ok.inj hexec
      exact ⟨[], Adds.nil rfl, by simp⟩
  | sleepLoop =>
      rcases sleepLoop_ok hexec with ⟨next, ready, -, rfl⟩ | ⟨-, -, advance, rfl⟩
      · exact ⟨[], Adds.nil rfl, by simp⟩
      · exact hraised (handleAll_raisesOnly choice.interrupts (s.pop.advanceIdle advance)).history
  | afterSwitch =>
      rcases afterSwitch_ok hexec with rfl | ⟨t, hstored, -, rfl⟩
      · exact ⟨[], Adds.nil rfl, by simp⟩
      · have hold : s.threadToBeDestroyed = some t := hstored
        exact ⟨[.threadDeleted t], rfl, by simp [Enters, hold]⟩
  | whileValueZero i =>
      obtain rfl := Except.ok.inj hexec
      unfold whileValueZero
      split
      · exact ⟨[], Adds.nil rfl, by simp⟩
      · exact ⟨[.semaphoreTaken i s.currentThread], rfl, by simp [Enters]⟩
  | _ => exact hquiet rfl

/-- Only `Finish` stores a thread for deletion, and only the code behind `SWITCH`
takes it away. -/
theorem StepAt.threadToBeDestroyed_same (hat : StepAt client choice s s' frame rest gs)
    (hfinish : frame ≠ .call .threadFinish) (hswitch : frame ≠ .afterSwitch) :
    s'.threadToBeDestroyed = s.threadToBeDestroyed := by
  have hexec := hat.exec
  cases hkind : frame.isAccounting with
  | false => exact (hat.sameAccounts hkind).threadToBeDestroyed
  | true =>
      cases frame with
      | call op =>
          cases op with
          | semaphoreV i =>
              obtain rfl := Except.ok.inj hexec
              exact (raiseSemaphore_raisesOnly i (s.pop.changeLevel .intOff)).threadToBeDestroyed
          | threadFinish => exact absurd rfl hfinish
          | _ => simp [Frame.isAccounting] at hkind
      | oneTick =>
          obtain rfl := Except.ok.inj hexec
          exact (oneTick_raises choice.interrupts s.pop).1
      | setStatus m =>
          obtain rfl := Except.ok.inj hexec
          rfl
      | sleepLoop =>
          rcases sleepLoop_ok hexec with ⟨next, ready, -, rfl⟩ | ⟨-, -, advance, rfl⟩
          · rfl
          · exact (handleAll_raisesOnly choice.interrupts
              (s.pop.advanceIdle advance)).threadToBeDestroyed
      | afterSwitch => exact absurd rfl hswitch
      | whileValueZero i =>
          obtain rfl := Except.ok.inj hexec
          unfold whileValueZero
          split
          · rfl
          · rfl
      | _ => simp [Frame.isAccounting] at hkind

end Entries

section Semaphores

/-- How often handlers raise a semaphore. -/
def raisesOf (i : SemaphoreId) (interrupts : List Interrupt) : Nat :=
  interrupts.count (.device i)

theorem raiseSemaphore_value (j i : SemaphoreId) (s : Kernel κ σ) :
    ((s.raiseSemaphore j).semaphore i).value =
      (s.semaphore i).value + if j = i then 1 else 0 := by
  unfold raiseSemaphore
  by_cases hij : i = j
  · subst hij
    split
    · simp [record, setSemaphore]
    · simp [record, setSemaphore, readyToRun]
  · have hji : ¬ j = i := fun h => hij h.symm
    split
    · simp [record, setSemaphore, Function.update_of_ne hij, hji]
    · simp [record, setSemaphore, readyToRun, Function.update_of_ne hij, hji]

theorem handleAll_value (i : SemaphoreId) (interrupts : List Interrupt) (s : Kernel κ σ) :
    ((s.handleAll interrupts).semaphore i).value =
      (s.semaphore i).value + raisesOf i interrupts := by
  induction interrupts generalizing s with
  | nil => simp [handleAll, raisesOf]
  | cons irq interrupts ih =>
      show ((handleAll interrupts (s.handle irq)).semaphore i).value = _
      rw [ih]
      cases irq with
      | timer =>
          show (s.semaphore i).value + _ = _
          simp [raisesOf]
      | device j =>
          show ((s.raiseSemaphore j).semaphore i).value + _ = _
          rw [raiseSemaphore_value, raisesOf, raisesOf, List.count_cons]
          by_cases hj : j = i
          · simp [hj]
            omega
          · simp [hj]

/-- What a step at a frame does to the value of a semaphore. -/
inductive SemaphoreEffect (s s' : Kernel κ σ) (frame : Frame κ) (gs : List (Frame κ))
    (interrupts : List Interrupt) (i : SemaphoreId) : Prop
  | same (hvalue : (s'.semaphore i).value = (s.semaphore i).value)
      (hraise : frame ≠ .call (.semaphoreV i)) (htest : frame ≠ .whileValueZero i)
      (htick : frame ≠ .oneTick) (hidle : frame = .sleepLoop → s.readyList ≠ [])
  /-- Handlers run in a tick, or when the machine idles. -/
  | handled (hframe : frame = .oneTick ∨ frame = .sleepLoop ∧ s.readyList = [])
      (hvalue : (s'.semaphore i).value = (s.semaphore i).value + raisesOf i interrupts)
  | raised (hframe : frame = .call (.semaphoreV i))
      (hvalue : (s'.semaphore i).value = (s.semaphore i).value + 1)
  | sleeps (hframe : frame = .whileValueZero i) (hzero : (s.semaphore i).value = 0)
      (hvalue : (s'.semaphore i).value = 0) (hgs : gs = [.sleep, .whileValueZero i])
  | taken (hframe : frame = .whileValueZero i) (hne : (s.semaphore i).value ≠ 0)
      (hvalue : (s'.semaphore i).value = (s.semaphore i).value - 1) (hgs : gs = [])

variable {client : Client κ σ ι} {choice : Choice ι} {s s' : Kernel κ σ} {frame : Frame κ}
  {rest gs : List (Frame κ)}

/-- The loop of `P`. -/
theorem StepAt.test_effect {i : SemaphoreId}
    (hat : StepAt client choice s s' (.whileValueZero i) rest gs) :
    SemaphoreEffect s s' (.whileValueZero i) gs choice.interrupts i := by
  obtain rfl := Except.ok.inj hat.exec
  have hgs : (s.pop.whileValueZero i).stack s.currentThread = gs ++ rest := hat.stack_self
  by_cases hzero : (s.semaphore i).value = 0
  · have hsleep : s.pop.whileValueZero i =
        (s.pop.setSemaphore i ⟨0, (s.semaphore i).queue ++ [s.currentThread]⟩).push
          [.sleep, .whileValueZero i] := if_pos hzero
    refine .sleeps rfl hzero ?_ ?_
    · rw [hsleep]
      simp [push, setSemaphore]
    · have hpushed := hat.stack_of_push
        (u := s.pop.setSemaphore i ⟨0, (s.semaphore i).queue ++ [s.currentThread]⟩) rfl rfl
        [.sleep, .whileValueZero i]
      rw [hsleep] at hgs
      exact List.append_cancel_right (hgs.symm.trans hpushed)
  · have htake : s.pop.whileValueZero i =
        (s.pop.setSemaphore i ⟨(s.semaphore i).value - 1, (s.semaphore i).queue⟩).record
          [.semaphoreTaken i s.currentThread] := if_neg hzero
    refine .taken rfl hzero ?_ ?_
    · rw [htake]
      simp [record, setSemaphore]
    · rw [htake] at hgs
      have hstack : s.pop.stack s.currentThread = gs ++ rest := hgs
      rw [pop_stack_self, hat.stack] at hstack
      have hcancel : gs ++ rest = [] ++ rest := by simpa using hstack.symm
      exact List.append_cancel_right hcancel

theorem StepAt.semaphore (hat : StepAt client choice s s' frame rest gs) (i : SemaphoreId) :
    SemaphoreEffect s s' frame gs choice.interrupts i := by
  have hexec := hat.exec
  cases hkind : frame.isAccounting with
  | false =>
      refine .same ?_ ?_ ?_ ?_ ?_
      · rw [(hat.sameAccounts hkind).semaphore]
      all_goals rintro rfl; simp [Frame.isAccounting] at hkind
  | true =>
      cases frame with
      | call op =>
          cases op with
          | semaphoreV j =>
              obtain rfl := Except.ok.inj hexec
              have hvalue := raiseSemaphore_value j i (s.pop.changeLevel .intOff)
              by_cases hj : j = i
              · refine .raised (by rw [hj]) (hvalue.trans ?_)
                rw [if_pos hj]
                rfl
              · refine .same (hvalue.trans ?_) (by simpa using hj) (by simp) (by simp) (by simp)
                rw [if_neg hj]
                exact Int.add_zero _
          | threadFinish =>
              obtain rfl := Except.ok.inj hexec
              exact .same rfl (by simp) (by simp) (by simp) (by simp)
          | _ => simp [Frame.isAccounting] at hkind
      | oneTick =>
          obtain rfl := Except.ok.inj hexec
          have hvalue : ((s.pop.oneTick choice.interrupts).semaphore i).value =
              ((s.pop.tickHandled choice.interrupts).semaphore i).value := by
            rcases oneTick_eq choice.interrupts s.pop with htick | htick
            · rw [htick]
              rfl
            · rw [htick]
              rfl
          have hclock : (s.pop.advanceClock.semaphore i).value = (s.semaphore i).value := by
            unfold advanceClock
            split
            · rfl
            · rfl
          refine .handled (Or.inl rfl) ?_
          rw [hvalue, tickHandled, handleAll_value]
          exact congrArg (· + _) hclock
      | setStatus m =>
          obtain rfl := Except.ok.inj hexec
          exact .same rfl (by simp) (by simp) (by simp) (by simp)
      | sleepLoop =>
          rcases sleepLoop_ok hexec with ⟨next, ready, hready, rfl⟩ | ⟨hready, -, advance, rfl⟩
          · have hne : s.readyList ≠ [] := by
              rw [show s.readyList = next :: ready from hready]
              simp
            exact .same rfl (by simp) (by simp) (by simp) (fun _ => hne)
          · exact .handled (Or.inr ⟨rfl, hready⟩)
              (handleAll_value i choice.interrupts (s.pop.advanceIdle advance))
      | afterSwitch =>
          rcases afterSwitch_ok hexec with rfl | ⟨t, -, -, rfl⟩
          · exact .same rfl (by simp) (by simp) (by simp) (by simp)
          · exact .same rfl (by simp) (by simp) (by simp) (by simp)
      | whileValueZero j =>
          by_cases hj : j = i
          · subst hj
            exact hat.test_effect
          · refine .same ?_ (by simp) (by simpa using hj) (by simp) (by simp)
            obtain rfl := Except.ok.inj hexec
            have hij : i ≠ j := fun h => hj h.symm
            unfold whileValueZero
            split
            · simp [push, setSemaphore, Function.update_of_ne hij, pop]
            · simp [record, setSemaphore, Function.update_of_ne hij, pop]
      | _ => simp [Frame.isAccounting] at hkind

end Semaphores

end Kernel

end Threads
end Nachos
