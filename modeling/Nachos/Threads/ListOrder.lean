import Nachos.Lib.MesaCounter
import Nachos.Threads.SynchList

/-!
# The synchronized list is first in, first out, and loses no wake-up

Two stretches of `SynchList` must not be interrupted: from `list->Append(item)` to the
call of `listEmpty->Signal(lock)`, and from the test in the loop of `Remove` to the end
of `waitingCV->Append`.  A thread that is in one of them is in a phase other than
`calm`; it is the running thread, and no program point of such a phase lets the
processor change hands.

So the list is a counter of its items: `Append` with its `Signal` adds a unit and
readies the first thread of the queue, and the loop of `Remove` tests.
-/

namespace Nachos
namespace Threads

open Lib

variable {α : Type}

/-- Where a thread is in the stretches that are not interrupted. -/
inductive ListPhase
  | calm
  /-- The item is in the list, and the signal is next. -/
  | added
  /-- The list was found empty, and `Wait` is next. -/
  | failed
  /-- In `Wait`, before the lock is released. -/
  | entering
  /-- In `Wait`, before the thread is in the queue. -/
  | entered
  deriving DecidableEq

/-- The list was found empty, and the thread is not in the queue yet. -/
def ListPhase.failing : ListPhase → Bool
  | .failed => true
  | .entering => true
  | .entered => true
  | _ => false

/-- The phases in which a frame is run.  Frames that touch the condition of the list
in another way have no phase. -/
def listEffect : Frame (ListFrame α) → ListPhase → Option ListPhase
  | .call (.conditionSignal c l), p =>
      if c = 0 then if l = some 0 then movePhase .added .calm p else none
      else movePhase .calm .calm p
  | .call (.conditionWait c l), p =>
      if c = 0 then if l = some 0 then movePhase .failed .calm p else none
      else movePhase .calm .calm p
  | .waitAppend c l, p =>
      if c = 0 then if l = 0 then movePhase .entered .calm p else none
      else movePhase .calm .calm p
  | .call (.conditionBroadcast c _), p => if c = 0 then none else movePhase .calm .calm p
  | .broadcastLoop c _, p => if c = 0 then none else movePhase .calm .calm p
  | .call (.lockRelease l), p =>
      if l = 0 ∧ p = .entering then some .entered else movePhase .calm .calm p
  | .setLevel .intOff, p => if p = .entered then some .entered else movePhase .calm .calm p
  | .call (.threadFork .program), p => movePhase .calm .calm p
  | .call (.threadFork _), _ => none
  | .client (.appendBody _), p => movePhase .calm .added p
  | _, p => movePhase .calm .calm p

/-- The program points of `SynchList` that run with the lock. -/
def withList : ListFrame α → Bool
  | .appendBody _ => true
  | .removeLoop => true
  | .mapcarBody => true
  | _ => false

/-- The program points of `SynchList` that leave the lock behind them. -/
def keepsList : ListFrame α → Bool
  | .appendBody _ => true
  | .mapcarBody => true
  | _ => false

section Effects

attribute [local simp] listEffect

variable {frame : Frame (ListFrame α)} {gs stack : List (Frame (ListFrame α))}
  {p q : ListPhase} {level : IntStatus}

/-- The frames at which something happens to the condition of the list. -/
def OnList (frame : Frame (ListFrame α)) : Prop :=
  (∃ l, frame = .call (.conditionSignal 0 l)) ∨ (∃ l, frame = .call (.conditionWait 0 l)) ∨
    ∃ l, frame = .waitAppend 0 l

/-- Other kernel code keeps its thread calm, or releases the lock on the way into the
queue. -/
theorem listEffect_cases (hclient : ∀ k, frame ≠ .client k) (hon : ¬ OnList frame)
    (h : listEffect frame p = some q) :
    (p = .calm ∧ q = .calm) ∨
      (q = .entered ∧ ((p = .entering ∧ frame = .call (.lockRelease 0)) ∨
        (p = .entered ∧ frame = .setLevel .intOff))) := by
  have hcalm : movePhase .calm .calm p = some q → p = .calm ∧ q = .calm := by
    intro hmove
    obtain ⟨hp, hq⟩ := movePhase_eq_some.mp hmove
    exact ⟨hp, hq.symm⟩
  unfold OnList at hon
  simp only [not_or, not_exists] at hon
  obtain ⟨hsignal, hwait, happend⟩ := hon
  cases frame with
  | client k => exact absurd rfl (hclient k)
  | call op =>
      cases op with
      | conditionSignal c l =>
          simp only [listEffect] at h
          split at h
          · rename_i hc
            subst hc
            exact absurd rfl (hsignal l)
          · exact Or.inl (hcalm h)
      | conditionWait c l =>
          simp only [listEffect] at h
          split at h
          · rename_i hc
            subst hc
            exact absurd rfl (hwait l)
          · exact Or.inl (hcalm h)
      | conditionBroadcast c l =>
          simp only [listEffect] at h
          split at h
          · exact absurd h (by simp)
          · exact Or.inl (hcalm h)
      | lockRelease l =>
          simp only [listEffect] at h
          split at h
          · rename_i hp
            rw [hp.1]
            exact Or.inr ⟨(Option.some.inj h).symm, Or.inl ⟨hp.2, rfl⟩⟩
          · exact Or.inl (hcalm h)
      | threadFork body =>
          cases body with
          | program => exact Or.inl (hcalm h)
          | _ => exact absurd h (by simp [listEffect])
      | _ => exact Or.inl (hcalm h)
  | waitAppend c l =>
      simp only [listEffect] at h
      split at h
      · rename_i hc
        subst hc
        exact absurd rfl (happend l)
      · exact Or.inl (hcalm h)
  | broadcastLoop c l =>
      simp only [listEffect] at h
      split at h
      · exact absurd h (by simp)
      · exact Or.inl (hcalm h)
  | setLevel now =>
      cases now with
      | intOn => exact Or.inl (hcalm h)
      | intOff =>
          simp only [listEffect] at h
          split at h
          · rename_i hp
            exact Or.inr ⟨(Option.some.inj h).symm, Or.inr ⟨hp, rfl⟩⟩
          · exact Or.inl (hcalm h)
  | _ => exact Or.inl (hcalm h)

/-- What calm kernel code pushes is calm. -/
theorem trace_calm (hpushes : frame.Pushes level gs) (hclient : ∀ k, frame ≠ .client k)
    (hon : ¬ OnList frame) (h : listEffect frame .calm = some .calm) :
    trace listEffect .calm gs = some .calm := by
  unfold OnList at hon
  simp only [not_or, not_exists] at hon
  obtain ⟨hsignal, hwait, happend⟩ := hon
  have hlevel : listEffect (.setLevel level : Frame (ListFrame α)) .calm = some .calm := by
    cases level <;> rfl
  have hone : trace listEffect .calm [(.setLevel level : Frame (ListFrame α))] = some .calm :=
    trace_cons.mpr ⟨_, hlevel, rfl⟩
  cases frame with
  | client k => exact absurd rfl (hclient k)
  | halt => exact absurd hpushes id
  | call op =>
      cases op with
      | semaphoreP i =>
          obtain rfl := hpushes
          exact hone
      | lockAcquire l =>
          rcases hpushes with rfl | rfl
          · exact hone
          · exact hone
      | lockRelease l =>
          rcases hpushes with rfl | rfl
          · rfl
          · exact hone
      | conditionWait c conditionLock =>
          rcases hpushes with rfl | ⟨l, rfl, rfl⟩
          · exact hone
          · have hc : c ≠ 0 := by
              rintro rfl
              exact hwait _ rfl
            refine trace_cons.mpr ⟨.calm, by simp [listEffect], ?_⟩
            exact trace_cons.mpr ⟨.calm, by simp [listEffect, hc], hone⟩
      | conditionBroadcast c conditionLock =>
          obtain rfl := hpushes
          exact trace_cons.mpr ⟨.calm, h, rfl⟩
      | threadYield =>
          rcases hpushes with rfl | rfl
          · exact hone
          · exact hone
      | threadFinish =>
          obtain rfl := hpushes
          rfl
      | _ =>
          obtain rfl := hpushes
          exact hone
  | setLevel now =>
      rcases hpushes with rfl | ⟨-, rfl⟩
      · rfl
      · rfl
  | oneTick =>
      rcases hpushes with rfl | ⟨m, rfl⟩
      · rfl
      · rfl
  | sleepLoop =>
      rcases hpushes with rfl | rfl
      · rfl
      · rfl
  | whileValueZero i =>
      rcases hpushes with rfl | rfl
      · rfl
      · rfl
  | waitAppend c l =>
      have hc : c ≠ 0 := by
        rintro rfl
        exact happend l rfl
      obtain rfl := hpushes
      rfl
  | broadcastLoop c conditionLock =>
      have hc : c ≠ 0 := by
        rintro rfl
        exact absurd h (by simp [listEffect])
      rcases hpushes with rfl | rfl
      · rfl
      · refine trace_cons.mpr ⟨.calm, by simp [listEffect, hc], ?_⟩
        exact trace_cons.mpr ⟨.calm, h, rfl⟩
  | _ =>
      obtain rfl := hpushes
      rfl

/-- The signal is next for a thread that has added its item. -/
theorem frame_of_added (h : listEffect frame .added = some q) :
    frame = .call (.conditionSignal 0 (some 0)) := by
  by_cases hon : OnList frame
  · rcases hon with ⟨l, rfl⟩ | ⟨l, rfl⟩ | ⟨l, rfl⟩
    · by_cases hl : l = some 0
      · rw [hl]
      · simp [listEffect, hl] at h
    · by_cases hl : l = some 0
      · simp [listEffect, hl, movePhase] at h
      · simp [listEffect, hl] at h
    · by_cases hl : l = 0
      · simp [listEffect, hl, movePhase] at h
      · simp [listEffect, hl] at h
  · by_cases hclient : ∃ k, frame = .client k
    · obtain ⟨k, rfl⟩ := hclient
      cases k <;> simp [listEffect, movePhase] at h
    · rcases listEffect_cases (fun k hk => hclient ⟨k, hk⟩) hon h with hcalm | ⟨-, hp | hp⟩
      · exact absurd hcalm.1 (by simp)
      · exact absurd hp.1 (by simp)
      · exact absurd hp.1 (by simp)

theorem listEffect_signal {l : Option LockId}
    (h : listEffect (.call (.conditionSignal 0 l) : Frame (ListFrame α)) p = some q) :
    l = some 0 ∧ p = .added ∧ q = .calm := by
  simp only [listEffect, if_true] at h
  split at h
  · rename_i hl
    obtain ⟨hp, hq⟩ := movePhase_eq_some.mp h
    exact ⟨hl, hp, hq.symm⟩
  · exact absurd h (by simp)

theorem listEffect_wait {l : Option LockId}
    (h : listEffect (.call (.conditionWait 0 l) : Frame (ListFrame α)) p = some q) :
    l = some 0 ∧ p = .failed ∧ q = .calm := by
  simp only [listEffect, if_true] at h
  split at h
  · rename_i hl
    obtain ⟨hp, hq⟩ := movePhase_eq_some.mp h
    exact ⟨hl, hp, hq.symm⟩
  · exact absurd h (by simp)

theorem listEffect_append {l : LockId}
    (h : listEffect (.waitAppend 0 l : Frame (ListFrame α)) p = some q) :
    l = 0 ∧ p = .entered ∧ q = .calm := by
  simp only [listEffect, if_true] at h
  split at h
  · rename_i hl
    obtain ⟨hp, hq⟩ := movePhase_eq_some.mp h
    exact ⟨hl, hp, hq.symm⟩
  · exact absurd h (by simp)

theorem trace_list_root (body : ListFrame α)
    (h : listEffect (.call (.threadFork body)) p = some q) :
    trace listEffect .calm (Kernel.rootFrames body) = some .calm := by
  cases body with
  | program => rfl
  | _ => exact absurd h (by simp [listEffect])

/-- A program leaves the condition of the list alone. -/
theorem trace_list_program (calls : List (ProgramCall (ListCall α))) :
    trace listEffect .calm
      ((calls.map (ProgramCall.request 1 ListFrame.program .enter)).map Request.frame) =
        some .calm := by
  apply trace_of_neutral
  intro frame hframe
  obtain ⟨r, hr, rfl⟩ := List.mem_map.mp hframe
  obtain ⟨call, -, rfl⟩ := List.mem_map.mp hr
  have hne : ∀ n : Nat, 1 + n ≠ 0 := by
    intro n
    omega
  cases call with
  | kernel op =>
      cases op with
      | lockRelease l => simp [ProgramCall.request, publicOp, Request.frame, listEffect]
      | conditionWait c l => exact if_neg (hne c)
      | conditionSignal c l => exact if_neg (hne c)
      | conditionBroadcast c l => exact if_neg (hne c)
      | _ => rfl
  | setLevel now => cases now <;> rfl
  | _ => rfl

end Effects

section Invariant

/-- The phase of every thread, when the running thread is in phase `p`. -/
abbrev phaseAt (current : ThreadId) (p : ListPhase) : ThreadId → ListPhase :=
  Function.update (fun _ => .calm) current p

/-- The items are in order. -/
structure Items (k : ListKernel α) : Prop where
  order : k.client.taken.map Prod.snd ++ k.client.list = k.client.appended.map some
  last : ∀ t, (k.client.taken.filter fun e => e.1 = t).getLast? =
    (k.client.item t).map fun x => (t, some x)
  removed : ∀ t, .client .removed ∈ k.stack t → k.client.item t ≠ none

/-- The condition is bound to the lock of the list, or to none. -/
structure BoundToList (cv : Condition) (p : ListPhase) : Prop where
  lock : ∀ l, cv.waitingLock = some l → l = 0
  bound : cv.waitingCV ≠ [] ∨ p = .entering ∨ p = .entered → cv.waitingLock = some 0

/-- The list counts its items. -/
structure Counts (m : ListSystem α) (p : ListPhase) (c : Counter ThreadId) : Prop where
  sound : c.Sound 0
  queue : c.queue = (m.kernel.condition 0).waitingCV
  readied : c.readied = m.signalled
  value : (m.kernel.client.list.length : Int) = c.value + if p = .added then 1 else 0

/-- The running thread is in phase `p`, and the others are calm. -/
structure Progress (m : ListSystem α) (p : ListPhase) : Prop where
  follows : ∀ t, trace listEffect (phaseAt m.kernel.currentThread p t) (m.kernel.stack t) =
    some .calm
  level : p = .entering ∨ p = .entered → m.kernel.level = .intOff
  failing : p.failing = true →
    m.kernel.client.list = [] ∧ m.kernel.currentThread ∉ m.signalled
  bound : BoundToList (m.kernel.condition 0) p
  counts : ∃ c, Counts m p c

/-- The kernel's part of the invariant. -/
structure Locked (k : ListKernel α) : Prop where
  wellFormed : k.WellFormed
  lock : k.LockInvariant 0
  bracketed : k.Bracketed withList keepsList 0

variable {m m' : ListSystem α} {p p' q : ListPhase} {t : ThreadId} {choice : ListChoice α}
  {k k' : ListKernel α} {frame : Frame (ListFrame α)} {rest gs : List (Frame (ListFrame α))}

theorem Progress.current (h : Progress m p)
    (hat : Kernel.StepAt listClient choice m.kernel k' frame rest gs) :
    ∃ q, listEffect frame p = some q ∧ trace listEffect q rest = some .calm := by
  have hcurrent := h.follows m.kernel.currentThread
  rw [hat.stack, phaseAt, Function.update_self] at hcurrent
  exact trace_cons.mp hcurrent

/-- The stacks behind a step that leaves the processor to its thread, or leaves its
thread calm. -/
theorem Progress.follows_step (h : Progress m p) (hwf : m.kernel.WellFormed)
    (hat : Kernel.StepAt listClient choice m.kernel k' frame rest gs)
    (hp : ∀ q, listEffect frame p = some q → trace listEffect p' gs = some q)
    (hcurrent : k'.currentThread = m.kernel.currentThread ∨ p' = .calm) (t : ThreadId) :
    trace listEffect (phaseAt k'.currentThread p' t) (k'.stack t) = some .calm := by
  have hnext : ∀ q, listEffect frame (phaseAt m.kernel.currentThread p m.kernel.currentThread) =
      some q → trace listEffect p' gs = some q := by
    simpa using hp
  have hfollows := hat.follows hwf h.follows hnext (fun body p q h => trace_list_root body h) t
  have hphase : Function.update (phaseAt m.kernel.currentThread p) m.kernel.currentThread p' =
      phaseAt k'.currentThread p' := by
    rw [phaseAt, Function.update_idem]
    rcases hcurrent with hsame | rfl
    · rw [hsame]
    · simp [phaseAt]
  rw [hphase] at hfollows
  exact hfollows

section KernelCode

/-- The signalled consumers are the same behind code that neither signals nor tests. -/
theorem signalledNext_same (htop : m.kernel.top = some frame) (hon : ¬ OnList frame)
    (hloop : frame ≠ .client .removeLoop) : m.signalledNext = m.signalled := by
  unfold ListSystem.signalledNext
  rw [htop]
  split
  · rename_i l hframe
    exact absurd (Or.inl ⟨l, Option.some.inj hframe⟩) hon
  · rename_i hframe
    exact absurd (Option.some.inj hframe) hloop
  · rfl

theorem condition_same (hat : Kernel.StepAt listClient choice k k' frame rest gs)
    (hon : ¬ OnList frame) : k'.condition 0 = k.condition 0 := by
  cases hat.condition 0 with
  | same hcondition => exact hcondition
  | bound l hframe => exact absurd (Or.inr (Or.inl ⟨_, hframe⟩)) hon
  | queued l hframe => exact absurd (Or.inr (Or.inr ⟨_, hframe⟩)) hon
  | woken t rest hframe => exact absurd (Or.inl ⟨_, hframe⟩) hon

theorem currentThread_same (hat : Kernel.StepAt listClient choice k k' frame rest gs)
    (hyield : frame ≠ .call .threadYield) (hsleep : frame ≠ .sleepLoop) :
    k'.currentThread = k.currentThread := by
  rcases hat.currentThread with hsame | ⟨_, _, -, -, hframe | hframe⟩
  · exact hsame
  · exact absurd hframe.1 hyield
  · exact absurd hframe.1 hsleep

/-- A step that leaves the condition, the list and the signalled consumers alone. -/
theorem Progress.unchanged (h : Progress m p)
    (hfollows : ∀ t, trace listEffect (phaseAt k'.currentThread p' t) (k'.stack t) = some .calm)
    (hlevel : p' = .entering ∨ p' = .entered → k'.level = .intOff)
    (hclient : k'.client = m.kernel.client) (hcondition : k'.condition 0 = m.kernel.condition 0)
    (hphase : p' = .calm ∨
      (p' = .entered ∧ (p = .entering ∨ p = .entered) ∧
        k'.currentThread = m.kernel.currentThread))
    (hadded : p ≠ .added) : Progress ⟨k', m.signalled⟩ p' where
  follows := hfollows
  level := hlevel
  failing := by
    intro hfailing
    rcases hphase with rfl | ⟨rfl, hp, hcurrent⟩
    · exact absurd hfailing (by simp [ListPhase.failing])
    · have hbefore : p.failing = true := by
        rcases hp with rfl | rfl
        · rfl
        · rfl
      show k'.client.list = [] ∧ k'.currentThread ∉ m.signalled
      rw [hclient, hcurrent]
      exact h.failing hbefore
  bound := by
    constructor
    · show ∀ l, (k'.condition 0).waitingLock = some l → l = 0
      rw [hcondition]
      exact h.bound.lock
    · intro hcases
      show (k'.condition 0).waitingLock = some 0
      rw [hcondition]
      apply h.bound.bound
      rcases hcases with hqueue | hentering
      · exact Or.inl (hcondition ▸ hqueue)
      · rcases hphase with rfl | ⟨-, hp, -⟩
        · exact absurd hentering (by simp)
        · exact Or.inr hp
  counts := by
    obtain ⟨c, hc⟩ := h.counts
    refine ⟨c, hc.sound, ?_, hc.readied, ?_⟩
    · exact hc.queue.trans (congrArg Condition.waitingCV hcondition.symm)
    · have hadded' : p' ≠ .added := by
        rcases hphase with rfl | ⟨rfl, -⟩
        · simp
        · simp
      show (k'.client.list.length : Int) = _
      rw [hclient, hc.value, if_neg hadded, if_neg hadded']

/-- Kernel code that has nothing to do with the condition of the list. -/
theorem Progress.quiet_step (h : Progress m p) (hwf : m.kernel.WellFormed)
    (hat : Kernel.StepAt listClient choice m.kernel k' frame rest gs)
    (hclient : ∀ c, frame ≠ .client c) (hon : ¬ OnList frame) :
    ∃ p', Progress ⟨k', m.signalledNext⟩ p' := by
  obtain ⟨q, heffect, -⟩ := h.current hat
  rw [signalledNext_same hat.top hon (hclient _)]
  have hsame : k'.client = m.kernel.pop.client := Kernel.exec_client_same hat.exec hclient
  have hcondition := condition_same hat hon
  rcases listEffect_cases hclient hon heffect with
    ⟨rfl, rfl⟩ | ⟨rfl, ⟨rfl, rfl⟩ | ⟨rfl, rfl⟩⟩
  · refine ⟨.calm, h.unchanged ?_ (by simp) hsame hcondition (Or.inl rfl) (by simp)⟩
    refine h.follows_step hwf hat ?_ (Or.inr rfl)
    intro q hq
    obtain rfl := Option.some.inj (heffect.symm.trans hq)
    exact trace_calm hat.pushes hclient hon heffect
  · -- `Wait` releases the lock
    have hcurrent := currentThread_same hat (by simp) (by simp)
    have hoff : k'.level = .intOff := by
      by_cases howner : (m.kernel.lock 0).owner = some m.kernel.currentThread
      · exact (hat.release_held howner).2.1
      · exact (hat.release_unheld howner).2.1
    refine ⟨.entered, h.unchanged ?_ (fun _ => hoff) hsame hcondition
      (Or.inr ⟨rfl, Or.inl rfl, hcurrent⟩) (by simp)⟩
    refine h.follows_step hwf hat ?_ (Or.inl hcurrent)
    intro q hq
    obtain rfl := Option.some.inj (heffect.symm.trans hq)
    rcases hat.pushes with rfl | rfl
    · rfl
    · rw [h.level (Or.inl rfl)]
      rfl
  · have hcurrent := currentThread_same hat (by simp) (by simp)
    have hoff : k'.level = .intOff := by
      rw [← Except.ok.inj hat.exec]
      rfl
    refine ⟨.entered, h.unchanged ?_ (fun _ => hoff) hsame hcondition
      (Or.inr ⟨rfl, Or.inr rfl, hcurrent⟩) (by simp)⟩
    refine h.follows_step hwf hat ?_ (Or.inl hcurrent)
    intro q hq
    obtain rfl := Option.some.inj (heffect.symm.trans hq)
    rcases hat.pushes with rfl | ⟨hon, -⟩
    · rfl
    · exact absurd hon (by simp)

/-- What a signal does: it readies the first thread of the queue, if there is one. -/
theorem signal_effect (hbound : BoundToList (m.kernel.condition 0) p)
    (hat : Kernel.StepAt listClient choice m.kernel k' (.call (.conditionSignal 0 (some 0))) rest
      gs) :
    ((m.kernel.condition 0).waitingCV = [] ∧ k'.condition 0 = m.kernel.condition 0 ∧
      m.signalledNext = m.signalled) ∨
    ∃ t later, (m.kernel.condition 0).waitingCV = t :: later ∧
      k'.condition 0 = ⟨if later = [] then none else some 0, later⟩ ∧
      m.signalledNext = t :: m.signalled := by
  have hk' : m.kernel.pop.conditionSignal 0 (some 0) = k' := Except.ok.inj hat.exec
  cases hqueue : (m.kernel.condition 0).waitingCV with
  | nil =>
      refine Or.inl ⟨rfl, ?_, ?_⟩
      · have hpop : (m.kernel.pop.condition 0).waitingCV = [] := hqueue
        rw [← hk', Kernel.conditionSignal, hpop]
        rfl
      · simp only [ListSystem.signalledNext, hat.top, hqueue]
  | cons t later =>
      have hlock := hbound.bound (Or.inl (by simp [hqueue]))
      refine Or.inr ⟨t, later, rfl, ?_, ?_⟩
      · have hpop : (m.kernel.pop.condition 0).waitingCV = t :: later := hqueue
        have hpopLock : (m.kernel.pop.condition 0).waitingLock = some 0 := hlock
        rw [← hk', Kernel.conditionSignal, hpop]
        simp only [hpopLock, if_true]
        simp [Kernel.push, Kernel.record, Kernel.readyToRun, Kernel.setCondition]
      · simp only [ListSystem.signalledNext, hat.top, hqueue, hlock, if_true]

/-- `Append` signals. -/
theorem Progress.signal_step (h : Progress m p) (hwf : m.kernel.WellFormed) {l : Option LockId}
    (hat : Kernel.StepAt listClient choice m.kernel k' (.call (.conditionSignal 0 l)) rest gs) :
    Progress ⟨k', m.signalledNext⟩ .calm := by
  obtain ⟨q, heffect, -⟩ := h.current hat
  obtain ⟨rfl, rfl, rfl⟩ := listEffect_signal heffect
  obtain ⟨c, hc⟩ := h.counts
  have hsame : k'.client = m.kernel.pop.client := Kernel.exec_client_same hat.exec (by simp)
  have hlist : (k'.client.list.length : Int) = c.value + 1 := by
    rw [hsame]
    exact hc.value
  constructor
  case follows =>
    refine h.follows_step hwf hat ?_ (Or.inr rfl)
    intro q hq
    obtain rfl := Option.some.inj (heffect.symm.trans hq)
    obtain rfl := hat.pushes
    cases m.kernel.level <;> rfl
  case level => simp
  case failing => simp [ListPhase.failing]
  case bound =>
    rcases signal_effect h.bound hat with ⟨-, hcondition, -⟩ | ⟨t, later, -, hcondition, -⟩
    · rw [hcondition]
      exact ⟨h.bound.lock, fun hcases => h.bound.bound (Or.inl (by simpa using hcases))⟩
    · rw [hcondition]
      constructor
      · intro l hl
        by_cases hlater : later = []
        · simp [hlater] at hl
        · simpa [hlater] using hl.symm
      · intro hcases
        have hlater : later ≠ [] := by simpa using hcases
        simp [hlater]
  case counts =>
    rcases signal_effect h.bound hat with
      ⟨hempty, hcondition, hsignalled⟩ | ⟨t, later, hfirst, hcondition, hsignalled⟩
    · refine ⟨c.raise, hc.sound.raise, ?_, ?_, ?_⟩
      · rw [c.raise_of_nil (hc.queue.trans hempty)]
        show c.queue = (k'.condition 0).waitingCV
        rw [hcondition]
        exact hc.queue
      · rw [c.raise_of_nil (hc.queue.trans hempty), hsignalled]
        exact hc.readied
      · rw [c.raise_value]
        show (k'.client.list.length : Int) = c.value + 1 + 0
        omega
    · refine ⟨c.raise, hc.sound.raise, ?_, ?_, ?_⟩
      · rw [c.raise_of_cons (hc.queue.trans hfirst)]
        show later = (k'.condition 0).waitingCV
        rw [hcondition]
      · rw [c.raise_of_cons (hc.queue.trans hfirst), hsignalled]
        show t :: c.readied = t :: m.signalled
        rw [hc.readied]
      · rw [c.raise_value]
        show (k'.client.list.length : Int) = c.value + 1 + 0
        omega

/-- What `Wait` does up to its call of `Release`. -/
theorem wait_effect (hbound : BoundToList (m.kernel.condition 0) p)
    (hat : Kernel.StepAt listClient choice m.kernel k' (.call (.conditionWait 0 (some 0))) rest
      gs) :
    k'.level = .intOff ∧ k'.condition 0 = ⟨some 0, (m.kernel.condition 0).waitingCV⟩ ∧
      gs = [.call (.lockRelease 0), .waitAppend 0 0, .setLevel m.kernel.level] := by
  have hk' : m.kernel.pop.conditionWait 0 (some 0) = k' := Except.ok.inj hat.exec
  -- what is pushed is on the stack
  have hgs : ∀ {u : ListKernel α} {pushed : List (Frame (ListFrame α))}, k' = u.push pushed →
      u.currentThread = m.kernel.currentThread → u.stack = m.kernel.pop.stack → gs = pushed := by
    intro u pushed heq hcurrent hstack
    have hpushed := hat.stack_of_push hcurrent hstack pushed
    rw [← heq] at hpushed
    exact List.append_cancel_right (hat.stack_self.symm.trans hpushed)
  cases hlock : (m.kernel.condition 0).waitingLock with
  | none =>
      have hpop : (m.kernel.pop.condition 0).waitingLock = none := hlock
      simp only [Kernel.conditionWait, hpop] at hk'
      refine ⟨?_, ?_, hgs hk'.symm rfl rfl⟩
      · rw [← hk']
        rfl
      · rw [← hk']
        simp [Kernel.push, Kernel.setCondition, Kernel.pop]
  | some l =>
      obtain rfl := hbound.lock l hlock
      have hpop : (m.kernel.pop.condition 0).waitingLock = some 0 := hlock
      simp only [Kernel.conditionWait, hpop, if_true] at hk'
      refine ⟨?_, ?_, hgs hk'.symm rfl rfl⟩
      · rw [← hk']
        rfl
      · rw [← hk', ← hlock]
        rfl

/-- `Remove` calls `Wait`, which binds the condition. -/
theorem Progress.wait_step (h : Progress m p) (hwf : m.kernel.WellFormed) {l : Option LockId}
    (hat : Kernel.StepAt listClient choice m.kernel k' (.call (.conditionWait 0 l)) rest gs) :
    Progress ⟨k', m.signalledNext⟩ .entering := by
  obtain ⟨q, heffect, -⟩ := h.current hat
  obtain ⟨rfl, rfl, rfl⟩ := listEffect_wait heffect
  obtain ⟨c, hc⟩ := h.counts
  have hsame : k'.client = m.kernel.pop.client := Kernel.exec_client_same hat.exec (by simp)
  have hcurrent := currentThread_same hat (by simp) (by simp)
  have hsignalled : m.signalledNext = m.signalled := by
    simp only [ListSystem.signalledNext, hat.top]
  obtain ⟨hlevel, hcondition, hgs⟩ := wait_effect h.bound hat
  rw [hsignalled]
  constructor
  case follows =>
    refine h.follows_step hwf hat ?_ (Or.inl hcurrent)
    intro q hq
    obtain rfl := Option.some.inj (heffect.symm.trans hq)
    rw [hgs]
    cases m.kernel.level <;> rfl
  case level => exact fun _ => hlevel
  case failing =>
    intro _
    show k'.client.list = [] ∧ k'.currentThread ∉ m.signalled
    rw [hsame, hcurrent]
    exact h.failing rfl
  case bound =>
    rw [hcondition]
    exact ⟨fun l hl => (Option.some.inj hl).symm, fun _ => rfl⟩
  case counts =>
    refine ⟨c, hc.sound, ?_, hc.readied, ?_⟩
    · show c.queue = (k'.condition 0).waitingCV
      rw [hcondition]
      exact hc.queue
    · show (k'.client.list.length : Int) = _
      rw [hsame]
      exact hc.value

/-- `Wait` puts its thread into the queue. -/
theorem Progress.append_step (h : Progress m p) (hwf : m.kernel.WellFormed) {l : LockId}
    (hat : Kernel.StepAt listClient choice m.kernel k' (.waitAppend 0 l) rest gs) :
    Progress ⟨k', m.signalledNext⟩ .calm := by
  obtain ⟨q, heffect, -⟩ := h.current hat
  obtain ⟨rfl, rfl, rfl⟩ := listEffect_append heffect
  obtain ⟨c, hc⟩ := h.counts
  obtain ⟨hempty, hnot⟩ := h.failing rfl
  have hk' : m.kernel.pop.waitAppend 0 0 = k' := Except.ok.inj hat.exec
  have hsame : k'.client = m.kernel.pop.client := Kernel.exec_client_same hat.exec (by simp)
  have hsignalled : m.signalledNext = m.signalled := by
    simp only [ListSystem.signalledNext, hat.top]
  have hcondition : k'.condition 0 = ⟨(m.kernel.condition 0).waitingLock,
      (m.kernel.condition 0).waitingCV ++ [m.kernel.currentThread]⟩ := by
    rw [← hk']
    simp [Kernel.waitAppend, Kernel.push, Kernel.record, Kernel.setCondition, Kernel.pop]
  have hvalue : c.value = 0 := by
    have hcount := hc.value
    rw [hempty] at hcount
    simpa using hcount.symm
  have hfree : m.kernel.currentThread ∉ c.queue := by
    intro hmem
    rw [hc.queue] at hmem
    have hparked := hwf.isParked_of_mem hat.top (.waiting (.condition 0)) hmem
    exact absurd hparked (by simp [Frame.isParked])
  rw [hsignalled]
  constructor
  case follows =>
    refine h.follows_step hwf hat ?_ (Or.inr rfl)
    intro q hq
    obtain rfl := Option.some.inj (heffect.symm.trans hq)
    obtain rfl := hat.pushes
    rfl
  case level => simp
  case failing => simp [ListPhase.failing]
  case bound =>
    rw [hcondition]
    exact ⟨h.bound.lock, fun _ => h.bound.bound (Or.inr (Or.inr rfl))⟩
  case counts =>
    refine ⟨c.block m.kernel.currentThread, hc.sound.block hvalue hfree, ?_, ?_, ?_⟩
    · show c.queue ++ [m.kernel.currentThread] = (k'.condition 0).waitingCV
      rw [hcondition, hc.queue]
    · show c.readied.erase m.kernel.currentThread = m.signalled
      rw [hc.readied]
      exact List.erase_of_not_mem hnot
    · show (k'.client.list.length : Int) = _
      rw [hsame]
      exact hc.value

end KernelCode

section ClientCode

theorem not_onList_client (c : ListFrame α) : ¬ OnList (.client c) := by
  rintro (⟨l, h⟩ | ⟨l, h⟩ | ⟨l, h⟩)
  · exact absurd h (by simp)
  · exact absurd h (by simp)
  · exact absurd h (by simp)

/-- What a test of the list leaves behind. -/
theorem SynchList.remove_ok {l l' : SynchList α} {rs : List (Request (ListFrame α))}
    (h : l.remove t = .ok (l', rs)) :
    (l.list = [] ∧ l' = l ∧ rs = [.call (.conditionWait 0 (some 0)), .client .removeLoop]) ∨
    ∃ x later, l.list = some x :: later ∧
      l' = { l with
        list := later
        item := Function.update l.item t (some x)
        taken := l.taken ++ [(t, some x)] } ∧
      rs = [.call (.lockRelease 0), .client .removed] := by
  unfold SynchList.remove at h
  split at h
  · rename_i hempty
    simp only [Except.ok.injEq, Prod.mk.injEq] at h
    exact Or.inl ⟨hempty, h.1.symm, h.2.symm⟩
  · exact absurd h (by simp)
  · rename_i x later hlist
    simp only [Except.ok.injEq, Prod.mk.injEq] at h
    exact Or.inr ⟨x, later, hlist, h.1.symm, h.2.symm⟩

/-- Client code that leaves the list alone. -/
theorem Progress.client_same (h : Progress m p) (hwf : m.kernel.WellFormed) {c : ListFrame α}
    (hat : Kernel.StepAt listClient choice m.kernel k' (.client c) rest gs)
    (hclient : k'.client = m.kernel.client) (hloop : c ≠ .removeLoop)
    (heffect : ∀ p : ListPhase,
      listEffect (.client c : Frame (ListFrame α)) p = movePhase .calm .calm p)
    (htrace : trace listEffect .calm gs = some .calm) :
    Progress ⟨k', m.signalledNext⟩ .calm := by
  obtain ⟨q, hq, -⟩ := h.current hat
  rw [heffect] at hq
  obtain ⟨rfl, rfl⟩ := movePhase_eq_some.mp hq
  have hon := not_onList_client c
  rw [signalledNext_same hat.top hon (by simpa using hloop)]
  refine h.unchanged ?_ (by simp) hclient (condition_same hat hon) (Or.inl rfl) (by simp)
  refine h.follows_step hwf hat ?_ (Or.inr rfl)
  intro q hq
  rw [heffect] at hq
  rw [← (movePhase_eq_some.mp hq).2]
  exact htrace

/-- `list->Append(item)`. -/
theorem Progress.added_step (h : Progress m p) (hwf : m.kernel.WellFormed) {item : α}
    (hat : Kernel.StepAt listClient choice m.kernel k' (.client (.appendBody item)) rest gs)
    (hclient : k'.client = m.kernel.client.append item) (hgs : gs = []) :
    Progress ⟨k', m.signalledNext⟩ .added := by
  obtain ⟨q, hq, -⟩ := h.current hat
  obtain ⟨rfl, rfl⟩ := movePhase_eq_some.mp hq
  obtain ⟨c, hc⟩ := h.counts
  have hon := not_onList_client (.appendBody item)
  have hcondition := condition_same hat hon
  rw [signalledNext_same hat.top hon (by simp)]
  constructor
  case follows =>
    refine h.follows_step hwf hat ?_ (Or.inl (currentThread_same hat (by simp) (by simp)))
    intro q hq
    rw [hgs, ← (movePhase_eq_some.mp hq).2]
    rfl
  case level => simp
  case failing => simp [ListPhase.failing]
  case bound =>
    rw [hcondition]
    exact ⟨h.bound.lock, fun hcases => h.bound.bound (Or.inl (by simpa using hcases))⟩
  case counts =>
    refine ⟨c, hc.sound, ?_, hc.readied, ?_⟩
    · show c.queue = (k'.condition 0).waitingCV
      rw [hcondition]
      exact hc.queue
    · have hcount := hc.value
      show (k'.client.list.length : Int) = c.value + 1
      rw [hclient]
      simpa [SynchList.append] using hcount

/-- The loop of `Remove` tests the list. -/
theorem Progress.loop_step (h : Progress m p) (hwf : m.kernel.WellFormed)
    {rs : List (Request (ListFrame α))}
    (hat : Kernel.StepAt listClient choice m.kernel k' (.client .removeLoop) rest gs)
    (hremove : m.kernel.client.remove m.kernel.currentThread = .ok (k'.client, rs))
    (hgs : gs = rs.map Request.frame) : ∃ p', Progress ⟨k', m.signalledNext⟩ p' := by
  obtain ⟨q, heffect, -⟩ := h.current hat
  obtain ⟨rfl, rfl⟩ := movePhase_eq_some.mp heffect
  obtain ⟨c, hc⟩ := h.counts
  have hcondition := condition_same hat (not_onList_client .removeLoop)
  have hcurrent := currentThread_same hat (by simp) (by simp)
  have hsignalled : m.signalledNext = m.signalled.erase m.kernel.currentThread := by
    simp only [ListSystem.signalledNext, hat.top]
  have hbound : ∀ {p' : ListPhase}, p' ≠ .entering → p' ≠ .entered →
      BoundToList (k'.condition 0) p' := by
    intro p' hentering hentered
    rw [hcondition]
    exact ⟨h.bound.lock, fun hcases => h.bound.bound (Or.inl (by simp_all))⟩
  have hvalue : (m.kernel.client.list.length : Int) = c.value := by simpa using hc.value
  rw [hsignalled]
  rcases SynchList.remove_ok hremove with
    ⟨hempty, hclient, hrs⟩ | ⟨x, later, hlist, hclient, hrs⟩
  · -- the list is empty, and the thread goes on to `Wait`
    refine ⟨.failed, ?_, by simp, ?_, hbound (by simp) (by simp), ?_⟩
    · refine h.follows_step hwf hat ?_ (Or.inl hcurrent)
      intro q hq
      rw [hgs, hrs, ← (movePhase_eq_some.mp hq).2]
      rfl
    · intro _
      show k'.client.list = [] ∧ k'.currentThread ∉ m.signalled.erase m.kernel.currentThread
      rw [hclient, hcurrent]
      refine ⟨hempty, ?_⟩
      rw [← hc.readied]
      exact hc.sound.readied_nodup.not_mem_erase
    · have hzero : c.value = 0 := by
        rw [← hvalue, hempty]
        rfl
      refine ⟨c.fail m.kernel.currentThread, hc.sound.fail hzero, ?_, ?_, ?_⟩
      · exact hc.queue.trans (congrArg Condition.waitingCV hcondition.symm)
      · show c.readied.erase _ = _
        rw [hc.readied]
      · show (k'.client.list.length : Int) = c.value + 0
        rw [hclient, hvalue, Int.add_zero]
  · -- the thread takes the first item
    have hpositive : c.value ≠ 0 := by
      rw [← hvalue, hlist, List.length_cons]
      omega
    refine ⟨.calm, ?_, by simp, by simp [ListPhase.failing], hbound (by simp) (by simp), ?_⟩
    · refine h.follows_step hwf hat ?_ (Or.inr rfl)
      intro q hq
      rw [hgs, hrs, ← (movePhase_eq_some.mp hq).2]
      rfl
    · refine ⟨c.take m.kernel.currentThread, hc.sound.take hpositive, ?_, ?_, ?_⟩
      · exact hc.queue.trans (congrArg Condition.waitingCV hcondition.symm)
      · show c.readied.erase _ = _
        rw [hc.readied]
      · show (k'.client.list.length : Int) = c.value - 1 + 0
        rw [← hvalue, hclient, hlist, List.length_cons]
        show (later.length : Int) = _
        omega

end ClientCode

section Steps

/-- Every step keeps the running thread in a phase. -/
theorem Progress.step (h : Progress m p) (hwf : m.kernel.WellFormed)
    (hat : Kernel.StepAt listClient choice m.kernel k' frame rest gs) :
    ∃ p', Progress ⟨k', m.signalledNext⟩ p' := by
  by_cases hclient : ∃ c, frame = .client c
  · obtain ⟨c, rfl⟩ := hclient
    obtain ⟨requests, hstep, hgs⟩ := hat.clientStep
    have hexec := hstep.exec
    cases c with
    | removeLoop => exact h.loop_step hwf hat hexec hgs
    | appendBody item =>
        simp only [listClient, Except.ok.injEq, Prod.mk.injEq] at hexec
        refine ⟨_, h.added_step hwf hat hexec.1.symm ?_⟩
        rw [hgs, ← hexec.2]
        rfl
    | program =>
        simp only [listClient, Except.ok.injEq, Prod.mk.injEq] at hexec
        refine ⟨_, h.client_same hwf hat hexec.1.symm (by simp) (fun _ => rfl) ?_⟩
        rw [hgs, ← hexec.2]
        exact trace_list_program _
    | enter call =>
        cases call <;>
        · simp only [listClient, Except.ok.injEq, Prod.mk.injEq] at hexec
          refine ⟨_, h.client_same hwf hat hexec.1.symm (by simp) (fun _ => rfl) ?_⟩
          rw [hgs, ← hexec.2]
          rfl
    | removed =>
        simp only [listClient, Except.ok.injEq, Prod.mk.injEq] at hexec
        refine ⟨_, h.client_same hwf hat hexec.1.symm (by simp) (fun _ => rfl) ?_⟩
        rw [hgs, ← hexec.2]
        rfl
    | mapcarBody =>
        simp only [listClient, Except.ok.injEq, Prod.mk.injEq] at hexec
        refine ⟨_, h.client_same hwf hat hexec.1.symm (by simp) (fun _ => rfl) ?_⟩
        rw [hgs, ← hexec.2]
        rfl
  · by_cases hon : OnList frame
    · rcases hon with ⟨l, rfl⟩ | ⟨l, rfl⟩ | ⟨l, rfl⟩
      · exact ⟨_, h.signal_step hwf hat⟩
      · exact ⟨_, h.wait_step hwf hat⟩
      · exact ⟨_, h.append_step hwf hat⟩
    · exact h.quiet_step hwf hat (fun c hc => hclient ⟨c, hc⟩) hon

/-- A step at which nothing is taken or appended. -/
theorem Items.same (h : Items k) (hclient : k'.client = k.client)
    (hremoved : ∀ t, .client .removed ∈ k'.stack t → .client .removed ∈ k.stack t) :
    Items k' := by
  constructor
  case order =>
    rw [hclient]
    exact h.order
  case last =>
    rw [hclient]
    exact h.last
  case removed =>
    intro t ht
    rw [hclient]
    exact h.removed t (hremoved t ht)

/-- The list and the log behind `list->Append(item)`. -/
theorem Items.append (h : Items k) {item : α} (hclient : k'.client = k.client.append item)
    (hremoved : ∀ t, .client .removed ∈ k'.stack t → .client .removed ∈ k.stack t) :
    Items k' := by
  constructor
  case order =>
    rw [hclient]
    show k.client.taken.map Prod.snd ++ (k.client.list ++ [some item]) =
      (k.client.appended ++ [item]).map some
    rw [← List.append_assoc, h.order, List.map_append]
    rfl
  case last =>
    rw [hclient]
    exact h.last
  case removed =>
    intro t ht
    rw [hclient]
    exact h.removed t (hremoved t ht)

/-- The list and the log behind the test of `Remove` that takes an item. -/
theorem Items.take (h : Items k) {x : α} {later : List (Option α)}
    (hlist : k.client.list = some x :: later)
    (hclient : k'.client = { k.client with
      list := later
      item := Function.update k.client.item k.currentThread (some x)
      taken := k.client.taken ++ [(k.currentThread, some x)] })
    (hremoved : ∀ t, t ≠ k.currentThread → .client .removed ∈ k'.stack t →
      .client .removed ∈ k.stack t) : Items k' := by
  constructor
  case order =>
    have horder := h.order
    rw [hlist] at horder
    rw [hclient]
    show (k.client.taken ++ [(k.currentThread, some x)]).map Prod.snd ++ later =
      k.client.appended.map some
    rw [List.map_append, List.append_assoc]
    exact horder
  case last =>
    intro t
    rw [hclient]
    show ((k.client.taken ++ [(k.currentThread, some x)]).filter fun e => e.1 = t).getLast? =
      (Function.update k.client.item k.currentThread (some x) t).map fun x => (t, some x)
    rw [List.filter_append]
    by_cases ht : t = k.currentThread
    · subst ht
      simp
    · rw [Function.update_of_ne ht, ← h.last t]
      simp [Ne.symm ht]
  case removed =>
    intro t ht
    rw [hclient]
    show Function.update k.client.item k.currentThread (some x) t ≠ none
    by_cases hc : t = k.currentThread
    · subst hc
      simp
    · rw [Function.update_of_ne hc]
      exact h.removed t (hremoved t hc ht)

theorem Items.step (h : Items k) (hat : Kernel.StepAt listClient choice k k' frame rest gs)
    (hfork : frame ≠ .call (.threadFork .removed)) : Items k' := by
  have hmem : .client .removed ∉ gs → ∀ t, .client .removed ∈ k'.stack t →
      .client .removed ∈ k.stack t := by
    intro hgs t ht
    rcases hat.client_mem ht with hold | ⟨-, hpushed⟩ | hframe
    · exact hold
    · exact absurd hpushed hgs
    · exact absurd hframe hfork
  by_cases hclient : ∃ c, frame = .client c
  · obtain ⟨c, rfl⟩ := hclient
    obtain ⟨requests, hstep, hgs⟩ := hat.clientStep
    have hexec := hstep.exec
    cases c with
    | removeLoop =>
        rcases SynchList.remove_ok hexec with ⟨-, hsame, hrs⟩ | ⟨x, later, hlist, hnext, hrs⟩
        · exact h.same hsame (hmem (by simp [hgs, hrs, Request.frame]))
        · refine h.take hlist hnext ?_
          intro t ht hremoved
          rcases hat.client_mem hremoved with hold | ⟨hc, -⟩ | hframe
          · exact hold
          · exact absurd hc ht
          · exact absurd hframe hfork
    | appendBody item =>
        simp only [listClient, Except.ok.injEq, Prod.mk.injEq] at hexec
        refine h.append hexec.1.symm (hmem ?_)
        simp [hgs, ← hexec.2]
    | program =>
        simp only [listClient, Except.ok.injEq, Prod.mk.injEq] at hexec
        refine h.same hexec.1.symm (hmem ?_)
        rw [hgs, ← hexec.2]
        intro hremoved
        obtain ⟨r, hr, hframe⟩ := List.mem_map.mp hremoved
        obtain ⟨call, -, rfl⟩ := List.mem_map.mp hr
        cases call <;> simp [ProgramCall.request, Request.frame] at hframe
    | enter call =>
        cases call <;>
        · simp only [listClient, Except.ok.injEq, Prod.mk.injEq] at hexec
          refine h.same hexec.1.symm (hmem ?_)
          simp [hgs, ← hexec.2, Request.frame]
    | removed =>
        simp only [listClient, Except.ok.injEq, Prod.mk.injEq] at hexec
        refine h.same hexec.1.symm (hmem ?_)
        simp [hgs, ← hexec.2]
    | mapcarBody =>
        simp only [listClient, Except.ok.injEq, Prod.mk.injEq] at hexec
        refine h.same hexec.1.symm (hmem ?_)
        simp [hgs, ← hexec.2]
  · have hkernel : ∀ c, frame ≠ .client c := fun c hc => hclient ⟨c, hc⟩
    have hsame : k'.client = k.pop.client := Kernel.exec_client_same hat.exec hkernel
    exact h.same hsame (hmem (Frame.pushes_not_client hkernel hat.pushes _))

/-- The program and `SynchList` bracket the lock. -/
theorem listClient_brackets : (listClient (α := α)).Brackets withList keepsList 0 := by
  intro input k s state rs h
  cases k with
  | program =>
      simp only [listClient, Except.ok.injEq, Prod.mk.injEq] at h
      rw [← h.2]
      exact trace_program Nat.one_pos ⟨rfl, rfl⟩ (fun _ => ⟨rfl, rfl⟩) input
  | enter call =>
      cases call <;>
      · simp only [listClient, Except.ok.injEq, Prod.mk.injEq] at h
        rw [← h.2]
        rfl
  | removeLoop =>
      rcases SynchList.remove_ok h with ⟨-, -, rfl⟩ | ⟨x, later, -, -, rfl⟩
      · rfl
      · rfl
  | appendBody item =>
      simp only [listClient, Except.ok.injEq, Prod.mk.injEq] at h
      rw [← h.2]
      rfl
  | removed =>
      simp only [listClient, Except.ok.injEq, Prod.mk.injEq] at h
      rw [← h.2]
      rfl
  | mapcarBody =>
      simp only [listClient, Except.ok.injEq, Prod.mk.injEq] at h
      rw [← h.2]
      rfl

theorem Locked.step (h : Locked k) (hat : Kernel.StepAt listClient choice k k' frame rest gs)
    (hstep : k.step listClient choice = .ok k') : Locked k' where
  wellFormed := Kernel.wellFormed_step h.wellFormed hstep
  lock := h.lock.step (Kernel.wellFormed_step h.wellFormed hstep) hat
  bracketed := h.bracketed.step h.wellFormed h.lock listClient_brackets hat

/-- At a program point that runs with the lock its thread owns it. -/
theorem Locked.owner (h : Locked k) {c : ListFrame α} (htop : k.top = some (.client c))
    (hwith : withList c = true) : (k.lock 0).owner = some k.currentThread := by
  refine h.wellFormed.owner_of_claims htop rfl ?_
  have hcurrent := h.bracketed k.currentThread
  rw [Kernel.stack_of_top htop] at hcurrent
  obtain ⟨q, heffect, -⟩ := trace_cons.mp hcurrent
  rw [(movePhase_eq_some.mp heffect).1]
  exact hwith

end Steps

/-- The system is in order. -/
structure InOrder (m : ListSystem α) : Prop where
  locked : Locked m.kernel
  items : Items m.kernel
  progress : ∃ p, Progress m p

theorem InOrder.step (h : InOrder m) (hstep : m.step choice = .ok m') : InOrder m' := by
  unfold ListSystem.step at hstep
  split at hstep
  · rename_i k' hkernel
    obtain rfl := Except.ok.inj hstep
    obtain ⟨frame, rest, gs, hat⟩ := h.locked.wellFormed.step_at hkernel
    obtain ⟨p, hp⟩ := h.progress
    refine ⟨h.locked.step hat hkernel, h.items.step hat ?_, hp.step h.locked.wellFormed hat⟩
    rintro rfl
    obtain ⟨q, heffect, -⟩ := hp.current hat
    exact absurd heffect (by simp [listEffect])
  · exact absurd hstep (by simp)

theorem inOrder_boot (initialValue : SemaphoreId → Int) :
    InOrder (ListSystem.boot (α := α) initialValue) := by
  constructor
  case locked =>
    exact ⟨Kernel.wellFormed_boot _ _ _, Kernel.lockInvariant_boot _ _ _ 0,
      Kernel.bracketed_boot _ _ 0 ⟨rfl, rfl⟩⟩
  case items =>
    refine ⟨rfl, fun _ => rfl, ?_⟩
    intro t ht
    by_cases hc : t = 0
    · subst hc
      simp [ListSystem.boot, Kernel.boot] at ht
    · simp [ListSystem.boot, Kernel.boot, Function.update_of_ne hc] at ht
  case progress =>
    refine ⟨.calm, ?_, by simp, by simp [ListPhase.failing], ?_, ⟨0, [], [], 0, 0⟩, ?_⟩
    · intro t
      have hphase : phaseAt (ListSystem.boot (α := α) initialValue).kernel.currentThread .calm t =
          .calm := by simp [phaseAt]
      rw [hphase]
      by_cases hc : t = 0
      · subst hc
        rfl
      · simp [ListSystem.boot, Kernel.boot, Function.update_of_ne hc]
    · exact ⟨by simp [ListSystem.boot, Kernel.boot, newCondition],
        by simp [ListSystem.boot, Kernel.boot, newCondition]⟩
    · refine ⟨⟨?_, ?_, ?_, ?_, ?_, ?_⟩, rfl, rfl, rfl⟩ <;> simp

/-- An item that is not signalled yet is behind a call of `Signal`. -/
theorem Progress.unsignalled (h : Progress m p) (hp : p = .added) : m.unsignalled = 1 := by
  subst hp
  have hcurrent := h.follows m.kernel.currentThread
  rw [phaseAt, Function.update_self] at hcurrent
  cases hstack : m.kernel.stack m.kernel.currentThread with
  | nil =>
      rw [hstack] at hcurrent
      simp at hcurrent
  | cons frame rest =>
      rw [hstack] at hcurrent
      obtain ⟨q, heffect, -⟩ := trace_cons.mp hcurrent
      have htop : m.kernel.top = some (.call (.conditionSignal 0 (some 0))) := by
        rw [Kernel.top, hstack, List.head?_cons, frame_of_added heffect]
      simp only [ListSystem.unsignalled, htop]

/-- There is no null pointer in the list. -/
theorem Items.remove (h : Items k) (t : ThreadId) :
    ∃ l rs, k.client.remove t = .ok (l, rs) := by
  unfold SynchList.remove
  split
  · exact ⟨_, _, rfl⟩
  · rename_i rest hlist
    have hmem : none ∈ k.client.appended.map some := by
      rw [← h.order, hlist]
      simp
    exact absurd hmem (by simp)
  · exact ⟨_, _, rfl⟩

/-- In every run `SynchList` is first in, first out, and loses no wake-up. -/
theorem synchList_fifo {initialValue : SemaphoreId → Int}
    (hrun : ListSystem.Run (ListSystem.boot initialValue) m) : m.Fifo := by
  have h : InOrder m := by
    refine hrun.invariant (P := InOrder) ?_ (inOrder_boot initialValue)
    exact fun u v choice hu _ hstep => hu.step hstep
  obtain ⟨p, hprogress⟩ := h.progress
  obtain ⟨c, hc⟩ := hprogress.counts
  constructor
  case order => exact h.items.order
  case locked =>
    rintro (htop | ⟨item, htop⟩)
    · exact h.locked.owner htop rfl
    · exact h.locked.owner htop rfl
  case returns =>
    intro htop
    have hmem : .client .removed ∈ m.kernel.stack m.kernel.currentThread := by
      rw [Kernel.stack_of_top htop]
      exact List.mem_cons_self
    rw [h.items.last]
    cases hitem : m.kernel.client.item m.kernel.currentThread with
    | none => exact absurd hitem (h.items.removed _ hmem)
    | some x => rfl
  case notNull =>
    intro htop choice
    obtain ⟨l, rs, hremove⟩ := h.items.remove m.kernel.currentThread
    have hexec : listClient.exec choice.input .removeLoop m.kernel.pop = .ok (l, rs) := hremove
    simp only [ListSystem.step, Kernel.step, htop, Kernel.exec, hexec]
    exact ⟨_, rfl⟩
  case signalled =>
    rw [← hc.readied, ← hc.queue]
    exact ⟨hc.sound.readied_nodup, hc.sound.disjoint⟩
  case wakeUp =>
    intro hwaiting
    rw [← hc.queue] at hwaiting
    have hbound := hc.sound.noLostWakeUp hwaiting
    have hvalue := hc.value
    rw [← hc.readied]
    by_cases hp : p = .added
    · rw [if_pos hp] at hvalue
      rw [hprogress.unsignalled hp]
      omega
    · rw [if_neg hp] at hvalue
      omega

/-- The end of a run, found by replaying choices. -/
theorem ListSystem.exists_run (initialValue : SemaphoreId → Int) {P : ListSystem α → Prop}
    [DecidablePred P] (choices : List (ListChoice α))
    (h : (replay ListSystem.step (fun _ _ => true) choices
      (ListSystem.boot initialValue)).any (fun m => decide (P m)) = true) :
    ∃ m, ListSystem.Run (ListSystem.boot initialValue) m ∧ P m :=
  exists_reach_of_replay (fun _ _ _ => trivial) h

/-- A step in which the program makes these calls, if it is at a program point of its
own. -/
def listStep (calls : List (ProgramCall (ListCall Nat))) : ListChoice Nat :=
  ⟨[], some 5, calls⟩

/-- One thread starts another one and waits in `Remove`; the other one appends 7. -/
def consumerFirst (steps : Nat) : List (ListChoice Nat) :=
  List.replicate 2 (listStep []) ++ [listStep [.kernel (.threadFork ()), .method .remove]] ++
    List.replicate 15 (listStep []) ++ [listStep [.method (.append 7)]] ++
    List.replicate steps (listStep [])

/-- The consumer returns with the item that it waited for. -/
theorem synchList_fifo_consumer :
    ∃ m : ListSystem Nat, ListSystem.Run (ListSystem.boot fun _ => 0) m ∧
      m.kernel.top = some (.client .removed) ∧ m.kernel.currentThread = 0 ∧
      m.kernel.client.item 0 = some 7 ∧
      m.kernel.client.taken.map Prod.snd ++ m.kernel.client.list =
        m.kernel.client.appended.map some := by
  obtain ⟨m, hrun, htop, hcurrent, hitem⟩ :=
    ListSystem.exists_run (fun _ => 0)
      (P := fun m : ListSystem Nat => m.kernel.top = some (.client .removed) ∧
        m.kernel.currentThread = 0 ∧ m.kernel.client.item 0 = some 7)
      (consumerFirst 20) (by decide +kernel)
  exact ⟨m, hrun, htop, hcurrent, hitem, (synchList_fifo hrun).order⟩

/-- Between `list->Append(item)` and its signal the item is in the list, a consumer is
blocked, and none is signalled. -/
theorem synchList_unsignalled :
    ∃ m : ListSystem Nat, ListSystem.Run (ListSystem.boot fun _ => 0) m ∧
      (m.kernel.condition 0).waitingCV ≠ [] ∧
      ¬ m.kernel.client.list.length ≤ m.signalled.length :=
  ListSystem.exists_run (fun _ => 0)
    (P := fun m : ListSystem Nat => (m.kernel.condition 0).waitingCV ≠ [] ∧
      ¬ m.kernel.client.list.length ≤ m.signalled.length)
    (consumerFirst 5) (by decide +kernel)

end Invariant

end Threads
end Nachos
