import Nachos.Threads.LockDiscipline

/-!
# Condition variables

`Condition::Wait` releases the lock, appends its thread to `waitingCV` and
sleeps, all with interrupts off, and `waitingLock` is bound by the first waiter
and unbound by the `Signal` that wakes the last one.  The argument that no
wake-up is lost has three parts:

* `Entry`: a thread between the release and the append is `currentThread`, and
  it gets from the one to the other through program points that neither switch
  nor take interrupts;
* `ConditionInvariant`: but for such an entry, `waitingLock` is set exactly when
  somebody waits, and whoever waits is behind the append of a `Wait` with that
  lock and does not own it;
* `Waiting`: the phases of a call of `Wait`, from which it follows that a `Wait`
  that slept comes back after a `Signal` removed it, and with the lock.
-/

namespace Nachos
namespace Threads

open Lib

variable {κ σ ι : Type}

/-- The program point between the release and the append of `Wait`. -/
def Frame.isEntry : Frame κ → Bool
  | .waitAppend _ _ => true
  | _ => false

/-- No frame is between the release and the append of a `Wait`. -/
def NoEntry (frames : List (Frame κ)) : Prop := ∀ frame ∈ frames, frame.isEntry = false

theorem NoEntry.append {gs rest : List (Frame κ)} (hgs : NoEntry gs) (hrest : NoEntry rest) :
    NoEntry (gs ++ rest) := by
  intro frame hframe
  rcases List.mem_append.mp hframe with h | h
  · exact hgs frame h
  · exact hrest frame h

theorem NoEntry.tail {frame : Frame κ} {rest : List (Frame κ)} (h : NoEntry (frame :: rest)) :
    NoEntry rest :=
  fun g hg => h g (List.mem_cons_of_mem _ hg)

theorem noEntry_rootFrames (body : κ) : NoEntry (Kernel.rootFrames body) := by
  simp [NoEntry, Kernel.rootFrames, Frame.isEntry]

/-- Only `Wait` pushes an entry. -/
theorem pushes_noEntry {frame : Frame κ} {level : IntStatus} {gs : List (Frame κ)}
    (h : frame.Pushes level gs) (hframe : ∀ c l, frame ≠ .call (.conditionWait c (some l))) :
    NoEntry gs := by
  intro g hg
  by_cases hclient : ∃ k, frame = .client k
  · obtain ⟨k, rfl⟩ := hclient
    obtain ⟨requests, rfl⟩ := h
    obtain ⟨request, -, rfl⟩ := List.mem_map.mp hg
    cases request <;> rfl
  · cases Frame.pushed_of_pushes (fun k hk => hclient ⟨k, hk⟩) h hg with
    | quiet _ _ hquiet => cases g <;> simp_all [Frame.isQuiet, Frame.isEntry]
    | append c l => exact absurd rfl (hframe c l)
    | _ => rfl

namespace Kernel

/-- Where `currentThread` is on its way into a `Wait`. -/
inductive Entry (s : Kernel κ σ) : Option (ConditionId × LockId) → Prop
  /-- It is not entering. -/
  | outside (hstack : NoEntry (s.stack s.currentThread)) : Entry s none
  /-- It is about to release the lock. -/
  | releasing (c : ConditionId) (l : LockId) (below : List (Frame κ))
      (hstack : s.stack s.currentThread =
        .call (.lockRelease l) :: .waitAppend c l :: below)
      (hbelow : NoEntry below) (hlevel : s.level = .intOff) : Entry s (some (c, l))
  /-- It did not own the lock. -/
  | refused (c : ConditionId) (l : LockId) (below : List (Frame κ))
      (hstack : s.stack s.currentThread = .setLevel .intOff :: .waitAppend c l :: below)
      (hbelow : NoEntry below) (howner : (s.lock l).owner ≠ some s.currentThread) :
      Entry s (some (c, l))
  /-- It is about to be appended. -/
  | appending (c : ConditionId) (l : LockId) (below : List (Frame κ))
      (hstack : s.stack s.currentThread = .waitAppend c l :: below)
      (hbelow : NoEntry below) (howner : (s.lock l).owner ≠ some s.currentThread) :
      Entry s (some (c, l))

/-- The thread is behind the append of `Wait`. -/
def Slept (s : Kernel κ σ) (t : ThreadId) (c : ConditionId) (l : LockId) : Prop :=
  ∃ frame below, s.stack t = frame :: .waitReacquire c l :: below

/-- The conditions are in order, but for the one `currentThread` is entering. -/
structure ConditionInvariant (s : Kernel κ σ) (e : Option (ConditionId × LockId)) :
    Prop where
  entry : s.Entry e
  others : ∀ t, t ≠ s.currentThread → NoEntry (s.stack t)
  entering : ∀ c l, e = some (c, l) → (s.condition c).waitingLock = some l
  bound : ∀ c, (s.condition c).waitingCV = [] → (s.condition c).waitingLock ≠ none →
    ∃ l, e = some (c, l)
  waiters : ∀ c, ∀ t ∈ (s.condition c).waitingCV, ∃ l,
    (s.condition c).waitingLock = some l ∧ (s.lock l).owner ≠ some t ∧ s.Slept t c l

section Step

variable {client : Client κ σ ι} {choice : Choice ι} {s s' : Kernel κ σ}
  {frame : Frame κ} {rest gs : List (Frame κ)}

/-- What `Wait` does up to its call of `Release`: it binds the condition to the
lock, or it refuses. -/
theorem conditionWait_eq (s : Kernel κ σ) (c : ConditionId) (conditionLock : Option LockId) :
    s.conditionWait c conditionLock = (s.changeLevel .intOff).push [.setLevel s.level] ∨
    ∃ l, conditionLock = some l ∧
      s.conditionWait c conditionLock = ((s.changeLevel .intOff).setCondition c
        ⟨some l, (s.condition c).waitingCV⟩).push
        [.call (.lockRelease l), .waitAppend c l, .setLevel s.level] := by
  cases conditionLock with
  | none => exact Or.inl rfl
  | some l =>
      simp only [conditionWait]
      split
      · exact Or.inr ⟨l, rfl, rfl⟩
      · rename_i bound hbound
        split
        · rename_i heq
          refine Or.inr ⟨l, rfl, ?_⟩
          have hsame : (s.changeLevel .intOff).setCondition c
              ⟨some l, (s.condition c).waitingCV⟩ = s.changeLevel .intOff := by
            have hcv : (⟨some l, (s.condition c).waitingCV⟩ : Condition) = s.condition c := by
              rw [heq, ← hbound]
            rw [setCondition, hcv]
            simp [changeLevel]
          rw [hsame]
        · exact Or.inl rfl

/-- The owner of a lock does not change for a thread that neither runs nor
waits for the lock. -/
theorem owner_ne_of_stepAt {l : LockId} {t : ThreadId}
    (hat : StepAt client choice s s' frame rest gs) (howner : (s.lock l).owner ≠ some t)
    (hwaiting : t ∉ (s.lock l).waitingThreads)
    (hframe : t = s.currentThread → frame ≠ .call (.lockAcquire l)) :
    (s'.lock l).owner ≠ some t := by
  cases hat.lock l with
  | same hlock events hadds hquiet => exact hlock ▸ howner
  | taken hcall hother havailable hlock hadds =>
      rw [hlock]
      intro heq
      exact hframe (Option.some.inj heq).symm hcall
  | queued hcall hother havailable hlock hadds => exact hlock ▸ howner
  | granted x later hcall hcurrent hhead hlock hadds =>
      rw [hlock]
      intro heq
      rw [hhead] at hwaiting
      exact hwaiting (Option.some.inj heq ▸ List.mem_cons_self)
  | freed hcall hcurrent hempty hlock hadds => simp [hlock]

/-- A thread that sleeps in a `Wait` stays where it is as long as it is in the
waiting list. -/
theorem Slept.step {t : ThreadId} {c : ConditionId} {l : LockId} (h : s.Slept t c l)
    (hwf : s.WellFormed) (hat : StepAt client choice s s' frame rest gs)
    (hmem : t ∈ (s.condition c).waitingCV) : s'.Slept t c l := by
  obtain ⟨first, below, hstack⟩ := h
  by_cases ht : t = s.currentThread
  · subst ht
    have hparked := hwf.isParked_of_mem hat.top (.waiting (.condition c)) hmem
    have hself := hat.stack_self
    obtain ⟨rfl, rfl⟩ := List.cons.inj (hat.stack.symm.trans hstack)
    have hpushes := hat.pushes
    cases frame with
    | sleep =>
        subst hpushes
        exact ⟨_, _, hself⟩
    | sleepLoop =>
        rcases hpushes with rfl | rfl
        · exact ⟨_, _, hself⟩
        · exact ⟨_, _, hself⟩
    | _ => simp [Frame.isParked] at hparked
  · have hborn := hwf.born_of_mem (.waiting (.condition c)) hmem
    exact ⟨first, below, (hat.stack_of_ne hborn ht).trans hstack⟩

/-- The waiters of a condition that keeps its lock, or has no waiter, are in
order after a step that does not append to it. -/
theorem waiters_step {c : ConditionId} (hwf : s.WellFormed)
    (hat : StepAt client choice s s' frame rest gs)
    (hwaiters : ∀ t ∈ (s.condition c).waitingCV, ∃ l,
      (s.condition c).waitingLock = some l ∧ (s.lock l).owner ≠ some t ∧ s.Slept t c l)
    {t : ThreadId} (hmem : t ∈ (s.condition c).waitingCV)
    (hlock : (s'.condition c).waitingLock = (s.condition c).waitingLock) :
    ∃ l, (s'.condition c).waitingLock = some l ∧ (s'.lock l).owner ≠ some t ∧
      s'.Slept t c l := by
  obtain ⟨l, hbound, howner, hslept⟩ := hwaiters t hmem
  refine ⟨l, hlock.trans hbound, ?_, hslept.step hwf hat hmem⟩
  refine owner_ne_of_stepAt hat howner ?_ ?_
  · intro habs
    have heq := hwf.slot_unique (.waiting (.condition c)) (.waiting (.lock l)) hmem habs
    simp at heq
  · rintro rfl rfl
    have hparked := hwf.isParked_of_mem hat.top (.waiting (.condition c)) hmem
    simp [Frame.isParked] at hparked

/-- Whoever waits after a step that appends nobody is in order. -/
theorem ConditionInvariant.waiters_keep {e : Option (ConditionId × LockId)}
    (hinv : s.ConditionInvariant e) (hwf : s.WellFormed)
    (hat : StepAt client choice s s' frame rest gs) (hentry : frame.isEntry = false)
    (c : ConditionId) : ∀ t ∈ (s'.condition c).waitingCV, ∃ l,
      (s'.condition c).waitingLock = some l ∧ (s'.lock l).owner ≠ some t ∧
        s'.Slept t c l := by
  intro t hmem
  cases hat.condition c with
  | same hcondition events hadds hquiet =>
      rw [hcondition] at hmem
      exact waiters_step hwf hat (hinv.waiters c) hmem (by rw [hcondition])
  | bound l hframe hfree hcondition hadds =>
      rw [hcondition] at hmem
      obtain ⟨l', hbound, -⟩ := hinv.waiters c t hmem
      rw [hfree] at hbound
      exact absurd hbound (by simp)
  | queued l hframe hcondition hadds =>
      rw [hframe] at hentry
      exact absurd hentry (by simp [Frame.isEntry])
  | woken x later hframe hwaiting hcondition hadds =>
      rw [hcondition] at hmem
      have hne : later ≠ [] := List.ne_nil_of_mem hmem
      refine waiters_step hwf hat (hinv.waiters c) ?_ ?_
      · rw [hwaiting]
        exact List.mem_cons_of_mem _ hmem
      · rw [hcondition]
        simp [hne]

/-- A step that neither binds nor appends leaves no condition bound without a
waiter. -/
theorem ConditionInvariant.bound_keep {e : Option (ConditionId × LockId)}
    (hinv : s.ConditionInvariant e) (hat : StepAt client choice s s' frame rest gs)
    {c : ConditionId} (hframe : ∀ l, frame ≠ .call (.conditionWait c (some l)))
    (hempty : (s'.condition c).waitingCV = [])
    (hbound : (s'.condition c).waitingLock ≠ none) : ∃ l, e = some (c, l) := by
  cases hat.condition c with
  | same hcondition events hadds hquiet =>
      rw [hcondition] at hempty hbound
      exact hinv.bound c hempty hbound
  | bound l hcall hfree hcondition hadds => exact absurd hcall (hframe l)
  | queued l hcall hcondition hadds =>
      rw [hcondition] at hempty
      exact absurd hempty (by simp)
  | woken x later hcall hwaiting hcondition hadds =>
      rw [hcondition] at hempty hbound
      change later = [] at hempty
      exact absurd (by simp [hempty]) hbound

/-- With no entry on the stack of the thread that made the step, there is none
anywhere. -/
theorem ConditionInvariant.outside_step {e : Option (ConditionId × LockId)}
    (hinv : s.ConditionInvariant e) (hat : StepAt client choice s s' frame rest gs)
    (hself : NoEntry (gs ++ rest)) : ∀ t, NoEntry (s'.stack t) := by
  intro t
  by_cases ht : t = s.currentThread
  · rw [ht, hat.stack_self]
    exact hself
  · rcases hat.stack_other t ht with hsame | ⟨body, -, -, hroot⟩
    · rw [hsame]
      exact hinv.others t ht
    · rw [hroot]
      exact noEntry_rootFrames body

/-- Other threads are not affected by a step that does not switch. -/
theorem ConditionInvariant.others_step {e : Option (ConditionId × LockId)}
    (hinv : s.ConditionInvariant e) (hat : StepAt client choice s s' frame rest gs)
    (hcurrent : s'.currentThread = s.currentThread) :
    ∀ t, t ≠ s'.currentThread → NoEntry (s'.stack t) := by
  intro t ht
  rw [hcurrent] at ht
  rcases hat.stack_other t ht with hsame | ⟨body, -, -, hroot⟩
  · rw [hsame]
    exact hinv.others t ht
  · rw [hroot]
    exact noEntry_rootFrames body

/-- Every step of a thread that is not entering keeps the conditions in order. -/
theorem ConditionInvariant.step_outside (hinv : s.ConditionInvariant none)
    (hwf : s.WellFormed) (hat : StepAt client choice s s' frame rest gs)
    (hstack : NoEntry (s.stack s.currentThread)) : ∃ e, s'.ConditionInvariant e := by
  rw [hat.stack] at hstack
  have hframe : frame.isEntry = false := hstack frame List.mem_cons_self
  by_cases hwait : ∃ c conditionLock, frame = .call (.conditionWait c conditionLock)
  · obtain ⟨c, conditionLock, rfl⟩ := hwait
    have hs' : s.pop.conditionWait c conditionLock = s' := Except.ok.inj hat.exec
    rcases conditionWait_eq s.pop c conditionLock with heq | ⟨l, rfl, heq⟩
    · -- the call is refused: nothing happens to the conditions
      rw [hs'] at heq
      have hself : s'.stack s.currentThread = [.setLevel s.level] ++ rest := by
        rw [heq]
        refine hat.stack_of_push ?_ ?_ _
        · rfl
        · rfl
      have hgs : gs = [.setLevel s.level] :=
        List.append_cancel_right (hat.stack_self.symm.trans hself)
      have hnone := hinv.outside_step hat
        (NoEntry.append (by simp [hgs, NoEntry, Frame.isEntry]) hstack.tail)
      refine ⟨none, .outside (hnone _), fun t _ => hnone t, by simp, ?_,
        hinv.waiters_keep hwf hat rfl⟩
      intro c' hempty hbound
      have hsame : s'.condition c' = s.condition c' := by
        rw [heq]
        rfl
      rw [hsame] at hempty hbound
      exact hinv.bound c' hempty hbound
    · -- the call enters
      rw [hs'] at heq
      have hcurrent : s'.currentThread = s.currentThread := by
        rw [heq]
        rfl
      have hself : s'.stack s.currentThread = [.call (.lockRelease l), .waitAppend c l,
          .setLevel s.level] ++ rest := by
        rw [heq]
        refine hat.stack_of_push ?_ ?_ _
        · rfl
        · rfl
      refine ⟨some (c, l), .releasing c l (.setLevel s.level :: rest) ?_ ?_ ?_,
        hinv.others_step hat hcurrent, ?_, ?_, hinv.waiters_keep hwf hat rfl⟩
      · rw [hcurrent, hself]
        rfl
      · intro g hg
        rcases List.mem_cons.mp hg with rfl | hrest
        · rfl
        · exact hstack.tail g hrest
      · rw [heq]
        rfl
      · intro c' l' heq'
        obtain ⟨rfl, rfl⟩ := Prod.mk.inj (Option.some.inj heq')
        rw [heq]
        simp [push, setCondition]
      · intro c' hempty hbound
        by_cases hc : c' = c
        · exact ⟨l, by rw [hc]⟩
        · have hsame : s'.condition c' = s.condition c' := by
            rw [heq]
            simp [push, setCondition, changeLevel, pop, hc]
          rw [hsame] at hempty hbound
          obtain ⟨l', habs⟩ := hinv.bound c' hempty hbound
          exact absurd habs (by simp)
  · have hnowait : ∀ c l, frame ≠ .call (.conditionWait c (some l)) :=
      fun c l habs => hwait ⟨c, some l, habs⟩
    have hnone := hinv.outside_step hat
      (NoEntry.append (pushes_noEntry hat.pushes hnowait) hstack.tail)
    exact ⟨none, .outside (hnone _), fun t _ => hnone t, by simp,
      fun c hempty hbound => hinv.bound_keep hat (hnowait c) hempty hbound,
      hinv.waiters_keep hwf hat hframe⟩

/-- A step of a thread that is entering keeps the conditions in order. -/
theorem ConditionInvariant.step_entering {c : ConditionId} {l : LockId}
    (hinv : s.ConditionInvariant (some (c, l)))
    (hwf : s.WellFormed) (hat : StepAt client choice s s' frame rest gs)
    (hcurrent : s'.currentThread = s.currentThread) (hframe : frame.isEntry = false)
    (hwait : ∀ c l, frame ≠ .call (.conditionWait c (some l)))
    (hcondition : s'.condition = s.condition) (hentry : s'.Entry (some (c, l))) :
    s'.ConditionInvariant (some (c, l)) := by
  refine ⟨hentry, hinv.others_step hat hcurrent, ?_, ?_, hinv.waiters_keep hwf hat hframe⟩
  · rw [hcondition]
    exact hinv.entering
  · exact fun c' hempty hbound => hinv.bound_keep hat (hwait c') hempty hbound

/-- Every step keeps the conditions in order. -/
theorem ConditionInvariant.step {e : Option (ConditionId × LockId)}
    (hinv : s.ConditionInvariant e) (hwf : s.WellFormed)
    (hat : StepAt client choice s s' frame rest gs) : ∃ e', s'.ConditionInvariant e' := by
  cases hinv.entry with
  | outside hstack => exact hinv.step_outside hwf hat hstack
  | releasing c l below hstack hbelow hlevel =>
      obtain ⟨rfl, rfl⟩ := List.cons.inj (hat.stack.symm.trans hstack)
      have hs' : s.pop.lockRelease l = s' := Except.ok.inj hat.exec
      have howner := lockRelease_owner hwf hat.top
      rw [hs'] at howner
      have hcurrent : s'.currentThread = s.currentThread := by
        rcases hat.currentThread with hsame | ⟨_, _, -, -, ⟨habs, -⟩ | ⟨habs, -⟩⟩
        · exact hsame
        · exact absurd habs (by simp)
        · exact absurd habs (by simp)
      have hcondition : s'.condition = s.condition := by
        rw [← hs']
        unfold lockRelease
        repeat' split
        all_goals rfl
      refine ⟨_, hinv.step_entering hwf hat hcurrent rfl (by simp) hcondition ?_⟩
      have hself := hat.stack_self
      rcases hat.pushes with rfl | rfl
      · exact .appending c l below (hcurrent ▸ hself) hbelow (hcurrent ▸ howner)
      · rw [hlevel] at hself
        exact .refused c l below (hcurrent ▸ hself) hbelow (hcurrent ▸ howner)
  | refused c l below hstack hbelow howner =>
      obtain ⟨rfl, rfl⟩ := List.cons.inj (hat.stack.symm.trans hstack)
      have hs' : s' = s.pop.changeLevel .intOff := (Except.ok.inj hat.exec).symm
      have hself : s'.stack s.currentThread = .waitAppend c l :: below := by
        rw [hs']
        exact (pop_stack_self s).trans (by rw [hstack, List.tail_cons])
      refine ⟨_, hinv.step_entering hwf hat (by rw [hs']; rfl) rfl (by simp)
        (by rw [hs']; rfl) ?_⟩
      refine .appending c l below ?_ hbelow ?_
      · rw [hs'] at hself ⊢
        exact hself
      · rw [hs']
        exact howner
  | appending c l below hstack hbelow howner =>
      obtain ⟨rfl, rfl⟩ := List.cons.inj (hat.stack.symm.trans hstack)
      have hs' : s.pop.waitAppend c l = s' := Except.ok.inj hat.exec
      have hgs : gs = [.sleep, .waitReacquire c l] := hat.pushes
      have hnone := hinv.outside_step hat
        (NoEntry.append (by simp [hgs, NoEntry, Frame.isEntry]) hbelow)
      have hsame : ∀ c', c' ≠ c → s'.condition c' = s.condition c' := by
        intro c' hc
        rw [← hs']
        simp [waitAppend, push, record, setCondition, pop, hc]
      have happend : s'.condition c = ⟨(s.condition c).waitingLock,
          (s.condition c).waitingCV ++ [s.currentThread]⟩ := by
        rw [← hs']
        simp [waitAppend, push, record, setCondition, pop]
      refine ⟨none, .outside (hnone _), fun t _ => hnone t, by simp, ?_, ?_⟩
      · intro c' hempty hbound
        by_cases hc : c' = c
        · rw [hc, happend] at hempty
          exact absurd hempty (by simp)
        · rw [hsame c' hc] at hempty hbound
          obtain ⟨l', heq⟩ := hinv.bound c' hempty hbound
          exact absurd (Prod.mk.inj (Option.some.inj heq)).1.symm hc
      · intro c' t hmem
        by_cases hc : c' = c
        · subst hc
          rw [happend] at hmem
          rcases List.mem_append.mp hmem with hold | hnew
          · exact waiters_step hwf hat (hinv.waiters c') hold (by rw [happend])
          · obtain rfl := List.mem_singleton.mp hnew
            refine ⟨l, ?_, ?_, ?_⟩
            · rw [happend]
              exact hinv.entering c' l rfl
            · rw [← hs']
              exact howner
            · exact ⟨.sleep, rest, by rw [hat.stack_self, hgs]; rfl⟩
        · rw [hsame c' hc] at hmem
          exact waiters_step hwf hat (hinv.waiters c') hmem (by rw [hsame c' hc])

theorem conditionInvariant_boot (initialValue : SemaphoreId → Int) (state : σ) (main : κ) :
    (boot initialValue state main).ConditionInvariant none := by
  have hstack : ∀ t, NoEntry ((boot initialValue state main).stack t) := by
    intro t
    by_cases ht : t = 0
    · subst ht
      simp [boot, NoEntry, Frame.isEntry]
    · simp [boot, NoEntry, ht]
  exact ⟨.outside (hstack _), fun t _ => hstack t, by simp, by simp [boot, newCondition],
    by simp [boot, newCondition]⟩

theorem Reachable.conditionInvariant (hreach : Reachable client s) :
    ∃ e, s.ConditionInvariant e :=
  hreach.stepAt_invariant (P := fun u => ∃ e, u.ConditionInvariant e)
    (fun _ _ _ => ⟨none, conditionInvariant_boot _ _ _⟩)
    fun _ _ _ _ _ _ hwf _ hat ⟨_, hinv⟩ => hinv.step hwf hat

/-- At a switch point no thread is entering. -/
theorem Entry.eq_none {e : Option (ConditionId × LockId)} (h : s.Entry e)
    (hpoint : s.SwitchPoint) : e = none := by
  unfold SwitchPoint top at hpoint
  cases h with
  | outside hstack => rfl
  | releasing c l below hstack hbelow hlevel => simp [hstack] at hpoint
  | refused c l below hstack hbelow howner => simp [hstack] at hpoint
  | appending c l below hstack hbelow howner => simp [hstack] at hpoint

/-- Waiters are woken in the order in which they were appended: those that were
appended are those that were woken, followed by those that wait. -/
def WokenInOrder (s : Kernel κ σ) (c : ConditionId) : Prop :=
  s.history.filterMap (Event.waitsOn c) =
    s.history.filterMap (Event.wokenOn c) ++ (s.condition c).waitingCV

theorem WokenInOrder.step {c : ConditionId} (horder : s.WokenInOrder c)
    (hat : StepAt client choice s s' frame rest gs) : s'.WokenInOrder c := by
  unfold WokenInOrder at horder ⊢
  cases hat.condition c with
  | same hcondition events hadds hquiet =>
      rw [filterMap_adds hadds fun e he => (hquiet e he).1,
        filterMap_adds hadds fun e he => (hquiet e he).2, hcondition, horder]
  | bound l hframe hfree hcondition hadds =>
      rw [filterMap_adds hadds (by simp), filterMap_adds hadds (by simp), hcondition, horder]
  | queued l hframe hcondition hadds =>
      rw [filterMap_adds hadds (f := Event.wokenOn c) (by simp [Event.wokenOn]), hcondition,
        hadds, List.filterMap_append, horder]
      simp [Event.waitsOn]
  | woken t later hframe hwaiting hcondition hadds =>
      rw [filterMap_adds hadds (f := Event.waitsOn c) (by simp [Event.waitsOn]), hcondition,
        hadds, List.filterMap_append, horder, hwaiting]
      simp [Event.wokenOn]

theorem Reachable.wokenInOrder (hreach : Reachable client s) (c : ConditionId) :
    s.WokenInOrder c :=
  hreach.stepAt_invariant (P := fun u => u.WokenInOrder c)
    (fun _ _ _ => by simp [WokenInOrder, boot, newCondition])
    fun _ _ _ _ _ _ _ _ hat horder => horder.step hat

/-- What a step does to a thread that waits, or does not wait, for a condition,
unless it is the append of that thread. -/
theorem StepAt.waiting_events (hat : StepAt client choice s s' frame rest gs)
    (c : ConditionId) {t : ThreadId} (ht : t = s.currentThread → frame.isEntry = false) :
    ∃ events, s.Adds s' events ∧ (∀ l, .conditionQueued c l t ∉ events) ∧
      (t ∈ (s.condition c).waitingCV →
        t ∈ (s'.condition c).waitingCV ∨ .conditionWoken c t ∈ events) := by
  cases hat.condition c with
  | same hcondition events hadds hquiet =>
      refine ⟨events, hadds, ?_, fun hmem => Or.inl (hcondition ▸ hmem)⟩
      intro l hmem
      have hnone := (hquiet _ hmem).1
      simp [Event.waitsOn] at hnone
  | bound l hframe hfree hcondition hadds =>
      refine ⟨[], hadds, by simp, fun hmem => Or.inl ?_⟩
      rw [hcondition]
      exact hmem
  | queued l hframe hcondition hadds =>
      refine ⟨_, hadds, ?_, fun hmem => Or.inl ?_⟩
      · intro l' hmem
        simp only [List.mem_singleton, Event.conditionQueued.injEq] at hmem
        have hentry := ht hmem.2.2
        rw [hframe] at hentry
        exact absurd hentry (by simp [Frame.isEntry])
      · rw [hcondition]
        exact List.mem_append_left _ hmem
  | woken x later hframe hwaiting hcondition hadds =>
      refine ⟨_, hadds, by simp, fun hmem => ?_⟩
      rw [hwaiting] at hmem
      rcases List.mem_cons.mp hmem with rfl | hlater
      · exact Or.inr (by simp)
      · refine Or.inl ?_
        rw [hcondition]
        exact hlater

end Step

section Signal

variable {client : Client κ σ ι} {choice : Choice ι} {s s' : Kernel κ σ}

/-- The step takes exactly the first waiter of the condition, and readies it. -/
structure SignalWakes (s s' : Kernel κ σ) (c : ConditionId) (t : ThreadId) : Prop where
  first : (s.condition c).waitingCV = t :: (s'.condition c).waitingCV
  ready : s'.readyList = s.readyList ++ [t]
  status : s'.threadStatus = Function.update s.threadStatus t .ready
  elsewhere : ∀ slot, slot ≠ .ready → slot ≠ .waiting (.condition c) →
    s'.slots slot = s.slots slot

/-- `Signal` with the lock the condition is bound to wakes the first waiter. -/
theorem conditionSignal_wakes {c : ConditionId} {conditionLock : Option LockId}
    {t : ThreadId} {later : List ThreadId}
    (htop : s.top = some (.call (.conditionSignal c conditionLock)))
    (h : s.step client choice = .ok s') (hwaiting : (s.condition c).waitingCV = t :: later)
    (hlock : conditionLock = (s.condition c).waitingLock) : s.SignalWakes s' c t := by
  obtain ⟨frame, htop', hexec⟩ := step_ok h
  obtain rfl := Option.some.inj (htop'.symm.trans htop)
  have hs' : s.pop.conditionSignal c conditionLock = s' := Except.ok.inj hexec
  have hwaiting' : (s.pop.condition c).waitingCV = t :: later := hwaiting
  have hlock' : conditionLock = (s.pop.condition c).waitingLock := hlock
  unfold conditionSignal at hs'
  rw [hwaiting'] at hs'
  simp only [if_pos hlock'] at hs'
  subst hs'
  constructor
  case first => simp [push, record, readyToRun, setCondition, hwaiting]
  case ready => rfl
  case status => rfl
  case elsewhere =>
    intro slot hready hslot
    simp only [slots_push, slots_record, slots_readyToRun, slots_setCondition,
      slots_changeLevel]
    rw [Function.update_of_ne hready, Function.update_of_ne hslot]
    rfl

/-- `Signal` with no waiter or another lock changes nothing but the interrupt
level and the stack of its thread. -/
theorem conditionSignal_unremembered {c : ConditionId} {conditionLock : Option LockId}
    (htop : s.top = some (.call (.conditionSignal c conditionLock)))
    (h : s.step client choice = .ok s')
    (hidle : (s.condition c).waitingCV = [] ∨ conditionLock ≠ (s.condition c).waitingLock) :
    s' = { s with level := s'.level, stack := s'.stack } := by
  obtain ⟨frame, htop', hexec⟩ := step_ok h
  obtain rfl := Option.some.inj (htop'.symm.trans htop)
  have hs' : s.pop.conditionSignal c conditionLock = s' := Except.ok.inj hexec
  unfold conditionSignal at hs'
  split at hs'
  · subst hs'
    rfl
  · rename_i t later hwaiting
    split at hs'
    · rename_i hlock
      rcases hidle with hempty | hother
      · have hwaiting' : (s.condition c).waitingCV = t :: later := hwaiting
        rw [hempty] at hwaiting'
        exact absurd hwaiting' (by simp)
      · exact absurd hlock hother
    · subst hs'
      rfl

end Signal

section Wait

variable {client : Client κ σ ι} {choice : Choice ι} {s s' : Kernel κ σ}
  {t : ThreadId} {c : ConditionId} {l : LockId}

/-- The thread was appended and later woken. -/
def WasWoken (t : ThreadId) (c : ConditionId) (l : LockId) (events : List Event) : Prop :=
  ∃ before after, events = before ++ .conditionQueued c l t :: after ∧
    .conditionWoken c t ∈ after

theorem WasWoken.append {events : List Event} (h : WasWoken t c l events)
    (new : List Event) : WasWoken t c l (events ++ new) := by
  obtain ⟨before, after, rfl, hwoken⟩ := h
  exact ⟨before, after ++ new, by simp, List.mem_append_left _ hwoken⟩

/-- The phases of a call of `Wait`, with the events recorded since it was made. -/
inductive Waiting (t : ThreadId) (c : ConditionId) (l : LockId) (events : List Event)
    (pending : List (Frame κ)) (s : Kernel κ σ) : Prop
  /-- The call has not begun. -/
  | called (hpending : pending = [.call (.conditionWait c (some l))])
      (hnot : .conditionQueued c l t ∉ events)
  /-- The call has been refused. -/
  | refused (hquiet : ∀ frame ∈ pending, frame.isQuiet = true)
      (hnot : .conditionQueued c l t ∉ events)
  /-- The thread has not been appended yet. -/
  | entering (above below : List (Frame κ)) (hpending : pending = above ++ .waitAppend c l :: below)
      (habove : ∀ frame ∈ above, frame.isQuiet = true ∨ frame = .call (.lockRelease l))
      (hbelow : ∀ frame ∈ below, frame.isQuiet = true)
      (hnot : .conditionQueued c l t ∉ events)
  /-- The thread has been appended and has not reached the re-acquisition. -/
  | asleep (above below : List (Frame κ))
      (hpending : pending = above ++ .waitReacquire c l :: below)
      (habove : ∀ frame ∈ above, frame.isQuiet = true)
      (hbelow : ∀ frame ∈ below, frame.isQuiet = true)
      (hqueued : ∃ before after, events = before ++ .conditionQueued c l t :: after ∧
        (t ∈ (s.condition c).waitingCV ∨ .conditionWoken c t ∈ after))
  /-- The thread has been woken and gets the lock back. -/
  | reacquiring (hacquiring : Acquiring t l pending s) (hwoken : WasWoken t c l events)

/-- The steps of other threads do not move a call of `Wait` out of its phase. -/
theorem Waiting.other {events : List Event} {frame : Frame κ}
    {rest gs pending : List (Frame κ)} (h : Waiting t c l events pending s)
    (hwf' : s'.WellFormed) (hcurrent : s.currentThread ≠ t)
    (hat : StepAt client choice s s' frame rest gs) :
    ∃ new, s.Adds s' new ∧ Waiting t c l (events ++ new) pending s' := by
  obtain ⟨new, hadds, hnew, hwaits⟩ :=
    hat.waiting_events c (t := t) fun heq => absurd heq.symm hcurrent
  have hnot : ∀ {x : List Event}, .conditionQueued c l t ∉ x →
      .conditionQueued c l t ∉ x ++ new := by
    intro x hx hmem
    rcases List.mem_append.mp hmem with hold | hrecent
    · exact hx hold
    · exact hnew l hrecent
  refine ⟨new, hadds, ?_⟩
  cases h with
  | called hpending hx => exact .called hpending (hnot hx)
  | refused hquiet hx => exact .refused hquiet (hnot hx)
  | entering above below hpending habove hbelow hx =>
      exact .entering above below hpending habove hbelow (hnot hx)
  | asleep above below hpending habove hbelow hqueued =>
      obtain ⟨before, after, rfl, hstill⟩ := hqueued
      refine .asleep above below hpending habove hbelow ⟨before, after ++ new, by simp, ?_⟩
      rcases hstill with hmem | hwoken
      · rcases hwaits hmem with hstays | hnow
        · exact Or.inl hstays
        · exact Or.inr (List.mem_append_right _ hnow)
      · exact Or.inr (List.mem_append_left _ hwoken)
  | reacquiring hacquiring hwoken =>
      exact .reacquiring (hacquiring.other hwf' hcurrent hat) (hwoken.append new)

/-- The first step of `Wait` refuses the call or starts to release the lock. -/
theorem Waiting.self_called {events : List Event} {base gs : List (Frame κ)}
    (hnot : .conditionQueued c l t ∉ events)
    (hat : StepAt client choice s s' (.call (.conditionWait c (some l))) base gs) :
    s.Adds s' [] ∧ Waiting t c l events gs s' := by
  have hs' : s.pop.conditionWait c (some l) = s' := Except.ok.inj hat.exec
  have hhistory : s'.history = s.history := by
    rw [← hs']
    simp only [conditionWait]
    repeat' split
    all_goals rfl
  refine ⟨Adds.nil hhistory, ?_⟩
  rcases hat.pushes with rfl | ⟨l', hl, rfl⟩
  · exact .refused (by simp [Frame.isQuiet]) hnot
  · obtain rfl := Option.some.inj hl
    exact .entering [.call (.lockRelease l)] [.setLevel s.level] rfl (by simp)
      (by simp [Frame.isQuiet]) hnot

/-- The append of `Wait`. -/
theorem Waiting.self_append {events : List Event} {below base gs : List (Frame κ)}
    (hbelow : ∀ frame ∈ below, frame.isQuiet = true) (hcurrent : s.currentThread = t)
    (hat : StepAt client choice s s' (.waitAppend c l) base gs) :
    s.Adds s' [.conditionQueued c l t] ∧
      Waiting t c l (events ++ [.conditionQueued c l t]) (gs ++ below) s' := by
  subst hcurrent
  have hs' : s.pop.waitAppend c l = s' := Except.ok.inj hat.exec
  have hmem : s.currentThread ∈ (s'.condition c).waitingCV := by
    rw [← hs']
    simp [waitAppend, push, record, setCondition, pop]
  have hgs : gs = [.sleep, .waitReacquire c l] := hat.pushes
  refine ⟨by rw [← hs']; rfl, ?_⟩
  rw [hgs]
  exact .asleep [.sleep] below rfl (by simp [Frame.isQuiet]) hbelow
    ⟨events, [], by simp, Or.inl hmem⟩

/-- The steps of the calling thread carry a call of `Wait` from phase to
phase. -/
theorem Waiting.self {events : List Event} {frame : Frame κ} {rest base gs : List (Frame κ)}
    (h : Waiting t c l events (frame :: rest) s) (hinv : s.LockInvariant l)
    (hwf : s.WellFormed) (hwf' : s'.WellFormed) (hcurrent : s.currentThread = t)
    (hat : StepAt client choice s s' frame (rest ++ base) gs) :
    ∃ new, s.Adds s' new ∧ Waiting t c l (events ++ new) (gs ++ rest) s' := by
  -- what a step that is not the append records
  have hplain : frame.isEntry = false → ∃ new, s.Adds s' new ∧
      (∀ {x : List Event}, .conditionQueued c l t ∉ x → .conditionQueued c l t ∉ x ++ new) ∧
      (t ∈ (s.condition c).waitingCV →
        t ∈ (s'.condition c).waitingCV ∨ .conditionWoken c t ∈ new) := by
    intro hentry
    obtain ⟨new, hadds, hnew, hwaits⟩ := hat.waiting_events c (t := t) fun _ => hentry
    refine ⟨new, hadds, ?_, hwaits⟩
    intro x hx hmem
    rcases List.mem_append.mp hmem with hold | hrecent
    · exact hx hold
    · exact hnew l hrecent
  have hquietEntry : frame.isQuiet = true → frame.isEntry = false := by
    cases frame <;> simp [Frame.isQuiet, Frame.isEntry]
  cases h with
  | called hpending hnot =>
      obtain ⟨rfl, rfl⟩ := List.cons.inj hpending
      obtain ⟨hadds, hwaiting⟩ := Waiting.self_called hnot hat
      exact ⟨[], hadds, by simpa using hwaiting⟩
  | refused hquiet hnot =>
      have hframe := hquiet frame List.mem_cons_self
      obtain ⟨new, hadds, hkeep, -⟩ := hplain (hquietEntry hframe)
      refine ⟨new, hadds, .refused ?_ (hkeep hnot)⟩
      exact quiet_append (Frame.quiet_pushes hframe hat.pushes)
        fun g hg => hquiet g (List.mem_cons_of_mem _ hg)
  | entering above below hpending habove hbelow hnot =>
      cases above with
      | nil =>
          obtain ⟨rfl, rfl⟩ := List.cons.inj hpending
          obtain ⟨hadds, hwaiting⟩ := Waiting.self_append hbelow hcurrent hat
          exact ⟨_, hadds, hwaiting⟩
      | cons first above =>
          obtain ⟨rfl, rfl⟩ := List.cons.inj hpending
          have hfirst := habove frame List.mem_cons_self
          have hentry : frame.isEntry = false := by
            rcases hfirst with hquiet | rfl
            · exact hquietEntry hquiet
            · rfl
          obtain ⟨new, hadds, hkeep, -⟩ := hplain hentry
          refine ⟨new, hadds, .entering (gs ++ above) below (by simp) ?_ hbelow (hkeep hnot)⟩
          intro g hg
          rcases List.mem_append.mp hg with hpushed | habove'
          · rcases hfirst with hquiet | rfl
            · exact Or.inl (Frame.quiet_pushes hquiet hat.pushes g hpushed)
            · rcases hat.pushes with rfl | rfl
              · exact absurd hpushed (by simp)
              · rw [List.mem_singleton.mp hpushed]
                exact Or.inl rfl
          · exact habove g (List.mem_cons_of_mem _ habove')
  | asleep above below hpending habove hbelow hqueued =>
      obtain ⟨before, after, rfl, hstill⟩ := hqueued
      cases above with
      | nil =>
          -- the thread computes again, so it has left the waiting list
          obtain ⟨rfl, rfl⟩ := List.cons.inj hpending
          have hwoken : .conditionWoken c t ∈ after := by
            rcases hstill with hmem | hwoken
            · have hparked := hwf.isParked_of_mem hat.top (.waiting (.condition c))
                (hcurrent ▸ hmem)
              exact absurd hparked (by simp [Frame.isParked])
            · exact hwoken
          obtain ⟨new, hadds, -, -⟩ := hplain rfl
          have hgs : gs = [.call (.lockAcquire l)] := hat.pushes
          refine ⟨new, hadds, .reacquiring ⟨hinv.step hwf' hat, Or.inl ⟨rest, ?_, hbelow⟩⟩
            (WasWoken.append ⟨before, after, rfl, hwoken⟩ new)⟩
          rw [hgs]
          rfl
      | cons first above =>
          obtain ⟨rfl, rfl⟩ := List.cons.inj hpending
          have hfirst := habove frame List.mem_cons_self
          obtain ⟨new, hadds, -, hwaits⟩ := hplain (hquietEntry hfirst)
          refine ⟨new, hadds, .asleep (gs ++ above) below (by simp) ?_ hbelow
            ⟨before, after ++ new, by simp, ?_⟩⟩
          · exact quiet_append (Frame.quiet_pushes hfirst hat.pushes)
              fun g hg => habove g (List.mem_cons_of_mem _ hg)
          · rcases hstill with hmem | hwoken
            · rcases hwaits hmem with hstays | hnow
              · exact Or.inl hstays
              · exact Or.inr (List.mem_append_right _ hnow)
            · exact Or.inr (List.mem_append_left _ hwoken)
  | reacquiring hacquiring hwoken =>
      have hentry : frame.isEntry = false := by
        rcases hacquiring.phase with ⟨below, hcall, -⟩ | ⟨hquiet, -⟩
        · obtain ⟨rfl, -⟩ := List.cons.inj hcall
          rfl
        · exact hquietEntry (hquiet frame List.mem_cons_self)
      obtain ⟨new, hadds, -, -⟩ := hplain hentry
      exact ⟨new, hadds, .reacquiring (hacquiring.self hwf hwf' hcurrent hat)
        (hwoken.append new)⟩

/-- What a call of `Wait` that returns has done: if it put its thread to sleep,
the thread was woken since and owns the lock. -/
theorem Returns.waited {base : List (Frame κ)} (hreach : Reachable client s)
    (h : Returns client (.call (.conditionWait c (some l))) t base s s') :
    ∃ events, s'.history = s.history ++ events ∧
      (.conditionQueued c l t ∈ events →
        WasWoken t c l events ∧ (s'.lock l).owner = some t) := by
  have hend : s'.LockInvariant l ∧ ∃ events, s'.history = s.history ++ events ∧
      Waiting t c l events [] s' := by
    refine h.call_invariant (Q := fun pending u => u.LockInvariant l ∧ ∃ events,
      u.history = s.history ++ events ∧ Waiting t c l events pending u) ?_ ?_
      hreach.wellFormed ?_
    · rintro u v choice frame rest gs hwf hwf' hcurrent hat ⟨hinv, events, hevents, hwaiting⟩
      obtain ⟨new, hadds, hwaiting'⟩ := hwaiting.self hinv hwf hwf' hcurrent hat
      refine ⟨hinv.step hwf' hat, events ++ new, ?_, hwaiting'⟩
      rw [hadds, hevents, List.append_assoc]
    · rintro u v choice frame rest gs pending - - hwf' hcurrent hat
        ⟨hinv, events, hevents, hwaiting⟩
      obtain ⟨new, hadds, hwaiting'⟩ := hwaiting.other hwf' hcurrent hat
      refine ⟨hinv.step hwf' hat, events ++ new, ?_, hwaiting'⟩
      rw [hadds, hevents, List.append_assoc]
    · exact ⟨hreach.lockInvariant l, [], by simp, .called rfl (by simp)⟩
  obtain ⟨-, events, hevents, hwaiting⟩ := hend
  refine ⟨events, hevents, fun hqueued => ?_⟩
  cases hwaiting with
  | called hpending hnot => exact absurd hqueued hnot
  | refused hquiet hnot => exact absurd hqueued hnot
  | entering above below hpending habove hbelow hnot => exact absurd hqueued hnot
  | asleep above below hpending habove hbelow hstill => exact absurd hpending (by simp)
  | reacquiring hacquiring hwoken => exact ⟨hwoken, hacquiring.owns⟩

end Wait

section Discipline

variable {client : Client κ σ ι} {s : Kernel κ σ}

/-- The discipline of a condition, for every client and every schedule.  At
every switch point it is bound to a lock exactly when somebody waits, whoever
waits is behind the append of a `Wait` with that lock and does not own it, and
nobody is between the release and the append.  Waiters are woken in order of
arrival: a `Signal` with the lock the condition is bound to wakes the first one
and any other `Signal` leaves no trace.  A `Wait` that put its thread to sleep
returns after the thread was woken, and with the lock. -/
theorem condition_discipline (hreach : Reachable client s) (c : ConditionId) :
    (s.SwitchPoint →
      ((s.condition c).waitingLock = none ↔ (s.condition c).waitingCV = []) ∧
      (∀ t ∈ (s.condition c).waitingCV, ∃ l, (s.condition c).waitingLock = some l ∧
        s.Slept t c l ∧ (s.lock l).owner ≠ some t) ∧
      ∀ t l, .waitAppend c l ∉ s.stack t) ∧
    s.WokenInOrder c ∧
    (∀ conditionLock choice s', s.top = some (.call (.conditionSignal c conditionLock)) →
      s.step client choice = .ok s' →
      (∀ t later, (s.condition c).waitingCV = t :: later →
        conditionLock = (s.condition c).waitingLock → s.SignalWakes s' c t) ∧
      ((s.condition c).waitingCV = [] ∨ conditionLock ≠ (s.condition c).waitingLock →
        s' = { s with level := s'.level, stack := s'.stack })) ∧
    (∀ l t base s', Returns client (.call (.conditionWait c (some l))) t base s s' →
      ∃ events, s'.history = s.history ++ events ∧
        (.conditionQueued c l t ∈ events →
          WasWoken t c l events ∧ (s'.lock l).owner = some t)) := by
  refine ⟨?_, hreach.wokenInOrder c, ?_, ?_⟩
  · intro hpoint
    obtain ⟨e, hinv⟩ := hreach.conditionInvariant
    obtain rfl := hinv.entry.eq_none hpoint
    refine ⟨⟨?_, ?_⟩, ?_, ?_⟩
    · intro hfree
      by_contra hne
      obtain ⟨t, ht⟩ := List.exists_mem_of_ne_nil _ hne
      obtain ⟨l, hbound, -⟩ := hinv.waiters c t ht
      rw [hfree] at hbound
      exact absurd hbound (by simp)
    · intro hempty
      by_contra hbound
      obtain ⟨l, habs⟩ := hinv.bound c hempty hbound
      exact absurd habs (by simp)
    · intro t ht
      obtain ⟨l, hbound, howner, hslept⟩ := hinv.waiters c t ht
      exact ⟨l, hbound, hslept, howner⟩
    · intro t l hmem
      have hnone : NoEntry (s.stack t) := by
        by_cases ht : t = s.currentThread
        · cases hinv.entry with
          | outside hstack => exact ht ▸ hstack
        · exact hinv.others t ht
      exact absurd (hnone _ hmem) (by simp [Frame.isEntry])
  · intro conditionLock choice s' htop h
    exact ⟨fun t later hwaiting hlock => conditionSignal_wakes htop h hwaiting hlock,
      fun hidle => conditionSignal_unremembered htop h hidle⟩
  · exact fun l t base s' h => h.waited hreach

end Discipline

end Kernel

/-- The main thread waits, thread 1 takes the lock, signals and gives the lock
back, and the main thread comes back with the lock. -/
theorem condition_discipline_freeClient :
    ∃ s s' base events, Kernel.Reachable freeClient s ∧
      Kernel.Returns freeClient (.call (.conditionWait 0 (some 0))) 0 base s s' ∧
      s'.history = s.history ++ events ∧ Event.conditionQueued 0 0 0 ∈ events ∧
      Kernel.WasWoken 0 0 0 events ∧ (s'.lock 0).owner = some 0 := by
  obtain ⟨s, s', hreach, hreturns, hbefore, hafter⟩ :=
    exists_returns freeClient
      (P := fun s s' => s.history = [] ∧ Event.conditionQueued 0 0 0 ∈ s'.history)
      (.call (.conditionWait 0 (some 0))) 0 [.call .threadFinish] (fun _ => 0) () ()
      (steps 2 ++ [quietly [.call (.threadFork ()), .call (.lockAcquire 0),
        .call (.conditionWait 0 (some 0))]] ++ steps 6)
      (steps 7 ++ [quietly [.call (.lockAcquire 0), .call (.conditionSignal 0 (some 0)),
        .call (.lockRelease 0), .call .threadYield]] ++ steps 14) (by decide +kernel)
  obtain ⟨-, -, -, hwait⟩ := Kernel.condition_discipline hreach 0
  obtain ⟨events, hevents, hwoken⟩ := hwait 0 0 _ s' hreturns
  have hqueued : Event.conditionQueued 0 0 0 ∈ events := by
    rw [hevents, hbefore, List.nil_append] at hafter
    exact hafter
  exact ⟨s, s', _, events, hreach, hreturns, hevents, hqueued, hwoken hqueued⟩

end Threads
end Nachos
