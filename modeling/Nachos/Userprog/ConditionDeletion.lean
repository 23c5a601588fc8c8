import Nachos.Userprog.Momentary

/-!
# Deleting conditions

`DestroyCV_Syscall` marks a condition that threads wait for, and whoever empties
its `waitingCV` has to drop it.  `Signal_Syscall` does; `Broadcast_Syscall` does
not, and `Wait_Syscall` lets a thread wait for a condition that is marked.  In
the runs in which neither happens to a marked condition,

* a marked condition has waiters, unless a `Signal_Syscall` is about to drop it;
* nobody waits for a condition that has been dropped;
* nobody starts to wait for a condition that is marked.
-/

namespace Nachos
namespace Userprog

open Threads Lib

section Marks

variable {choice : Choice Input} {s s' : UserKernel} {frame : Frame UserFrame}
  {rest gs : List (Frame UserFrame)} {n : Int} {c : ConditionId} {o : Option LockId}

/-- The next step is no `Wait_Syscall` that goes on to wait for a marked
condition, and no `Broadcast_Syscall` that goes on to wake the waiters of one. -/
def heedsMarks (s : UserKernel) : Bool :=
  match s.top with
  | some (.client (.waitCheck x lock)) =>
      match index? s.client.cvTable x, s.client.lockAt lock with
      | some ⟨some _, true⟩, some _ => false
      | _, _ => true
  | some (.client (.broadcastCheck z b)) =>
      match index? s.client.cvTable z, s.client.lockAt b with
      | some ⟨some c, true⟩, some k => (s.condition c).waitingLock ≠ some k
      | _, _ => true
  | _ => true

/-- The condition of an entry that is not marked. -/
def Unmarked (u : Userland) (c : ConditionId) : Prop :=
  ∃ n, index? u.cvTable n = some ⟨some c, false⟩

/-- The condition of an entry that is marked. -/
def Marked (u : Userland) (c : ConditionId) : Prop :=
  ∃ n, index? u.cvTable n = some ⟨some c, true⟩

/-- A `Broadcast` may be on its way: its condition is not marked, or it will not
wake anybody. -/
def BroadcastAllowed (s : UserKernel) (c : ConditionId) (o : Option LockId) : Prop :=
  Unmarked s.client c ∨
    Marked s.client c ∧ o ≠ (s.condition c).waitingLock ∧ (s.condition c).waitingCV ≠ []

/-- What holds of the condition table in between the calls. -/
structure Deferred (s : UserKernel) : Prop where
  /-- Nobody waits for a condition that has been dropped. -/
  dead : ∀ n c isDeleted, index? s.client.cvTable n = some ⟨none, isDeleted⟩ →
    index? s.client.cvObjects n = some c → (s.condition c).waitingCV = []
  /-- `Wait_Syscall` is behind its check for a condition that is not marked. -/
  passing : ∀ t x l, .client (.waitBody x l) ∈ s.stack t →
    ∃ c, index? s.client.cvTable x = some ⟨some c, false⟩
  /-- `Condition::Wait` is called for a condition that is not marked. -/
  waiting : ∀ t c o, .call (.conditionWait c o) ∈ s.stack t → Unmarked s.client c
  /-- A thread is appended to the waiters of a condition that is not marked. -/
  appending : ∀ t c l, .waitAppend c l ∈ s.stack t → Unmarked s.client c
  /-- A marked condition has waiters, or is about to be dropped. -/
  pending : ∀ n c, index? s.client.cvTable n = some ⟨some c, true⟩ →
    (s.condition c).waitingCV ≠ [] ∨ ∃ t, .client (.signalTail n) ∈ s.stack t
  /-- `Condition::Broadcast` does not empty the list of a marked condition. -/
  broadcasting : ∀ t c o,
    .call (.conditionBroadcast c o) ∈ s.stack t ∨ .broadcastLoop c o ∈ s.stack t →
    BroadcastAllowed s c o

/-- An entry is marked or not. -/
theorem Userland.Sane.cv_unique {u : Userland} (hu : u.Sane) {n m : Int} {d d' : Bool}
    (hn : index? u.cvTable n = some ⟨some c, d⟩) (hm : index? u.cvTable m = some ⟨some c, d'⟩) :
    n = m ∧ d = d' := by
  have hsame : n = m :=
    index?_injective hu.cv_nodup (hu.cv_object n c d hn) (hu.cv_object m c d' hm)
  subst hsame
  rw [hn, Option.some.injEq, KernelCV.mk.injEq] at hm
  exact ⟨rfl, hm.2⟩

theorem Userland.Sane.not_unmarked {u : Userland} (hu : u.Sane)
    (h : index? u.cvTable n = some ⟨some c, true⟩) : ¬ Unmarked u c := by
  rintro ⟨m, hm⟩
  exact absurd (hu.cv_unique h hm).2 (by simp)

/-- The end of `Signal_Syscall` and the `Release` of `CVTableLock` are not on one
stack. -/
theorem signalTail_exclusive {u : Userland} {y : Int} :
    ∀ {fs : List (Frame UserFrame)}, Stacked (Over u) fs → .client (.signalTail y) ∈ fs →
      .call (.lockRelease cvTableLock) ∉ fs := by
  intro fs
  induction fs with
  | nil => simp
  | cons f fs ih =>
      rintro ⟨hover, hstack⟩ htail hrelease
      rcases List.mem_cons.mp htail with rfl | hlater
      · rcases List.mem_cons.mp hrelease with habs | hbelow
        · simp at habs
        · exact absurd (hover _ hbelow) (by simp [isBase])
      · rcases List.mem_cons.mp hrelease with rfl | hbelow
        · exact absurd (hover (Or.inr rfl) _ hlater) (by simp [keeps])
        · exact ih hstack hlater hbelow

/-- What is not a frame of the loop of `Machine::Run` is not below a program point
of a system call. -/
theorem not_client_of_below (hs : Orderly s)
    (hat : Kernel.StepAt userClient choice s s' frame rest gs) {f : Frame UserFrame}
    (hf : f ∈ rest) (hbase : isBase f = false) : ∀ k, frame ≠ .client k := by
  rintro k rfl
  have hover : ∀ g ∈ rest, isBase g = true := (hat.stack ▸ hs.ordered s.currentThread).1
  rw [hover f hf] at hbase
  exact absurd hbase (by simp)

/-- A thread without `CVTableLock` does not change the condition table. -/
theorem cvTable_of_not_owner (hs : Orderly s)
    (hat : Kernel.StepAt userClient choice s s' frame rest gs)
    (howner : (s.lock cvTableLock).owner ≠ some s.currentThread) :
    s'.client.cvTable = s.client.cvTable := by
  rcases stepAt_cases hat with ⟨k, rs, rfl, hexec, -⟩ | ⟨-, hclient⟩
  · have hentered : k.entered ≠ some cvTableLock :=
      fun hk => howner (hs.holding _ [] k rest cvTableLock hat.stack hk).owns
    have htail : ∀ y, k ≠ .signalTail y := by
      rintro y rfl
      refine howner (hs.keeping _ cvTableLock (.client (.signalTail y)) ?_ (by simp [keeps]))
      rw [hat.stack]
      exact List.mem_cons_self
    cases userExec_cvTable hexec with
    | same htable hobjects => exact htable
    | created hframe htable hobjects => exact absurd (hframe ▸ rfl) hentered
    | marked n c hframe hentry hwaiting htable hobjects => exact absurd (hframe ▸ rfl) hentered
    | killed n c isDeleted hframe hentry hwaiting htable hobjects =>
        rcases hframe with hframe | ⟨hframe, -⟩
        · exact absurd (hframe ▸ rfl) hentered
        · exact absurd hframe (htail n)
  · rw [hclient]

/-- A step leaves a marked condition alone, unless it is a `Signal` of
`Signal_Syscall`, which looks at the list again. -/
theorem Deferred.condition_marked (h : Deferred s) (hs : Orderly s)
    (hat : Kernel.StepAt userClient choice s s' frame rest gs)
    (hentry : index? s.client.cvTable n = some ⟨some c, true⟩) :
    s'.condition c = s.condition c ∨ .client (.signalTail n) ∈ rest := by
  have hmarked := hs.sane.not_unmarked hentry
  have htop : frame ∈ s.stack s.currentThread := by
    rw [hat.stack]
    exact List.mem_cons_self
  cases hat.condition c with
  | same hcondition events hadds hquiet => exact Or.inl hcondition
  | bound l hframe hfree hcondition hadds =>
      exact absurd (h.waiting _ c _ (hframe ▸ htop)) hmarked
  | queued l hframe hcondition hadds =>
      exact absurd (h.appending _ c l (hframe ▸ htop)) hmarked
  | woken t later hframe hwaiting hcondition hadds =>
      subst hframe
      have hends : EndsSignal s.client c _ rest := (hat.stack ▸ hs.ordered s.currentThread).1
      rcases hends with ⟨y, hy, htail⟩ | hloop
      · have hsame : y = n :=
          index?_injective hs.sane.cv_nodup hy (hs.sane.cv_object n c true hentry)
        exact Or.inr (hsame ▸ htail)
      · have hmem : .broadcastLoop c (s.condition c).waitingLock ∈ s.stack s.currentThread := by
          rw [hat.stack]
          exact List.mem_cons_of_mem _ hloop
        rcases h.broadcasting _ c _ (Or.inr hmem) with hunmarked | ⟨-, hlock, -⟩
        · exact absurd hunmarked hmarked
        · exact absurd rfl hlock

/-- An entry that is marked after a step was marked before, or
`DestroyCV_Syscall` has just marked it. -/
theorem CVTableEffect.marked_cases {k : UserFrame} {state : Userland}
    (heffect : CVTableEffect s k state)
    (h : index? state.cvTable n = some ⟨some c, true⟩) :
    index? s.client.cvTable n = some ⟨some c, true⟩ ∨ (s.condition c).waitingCV ≠ [] := by
  cases heffect with
  | same htable hobjects => exact Or.inl (htable ▸ h)
  | created hframe htable hobjects =>
      rw [htable] at h
      rcases index?_append_cases h with hold | ⟨-, hnew⟩
      · exact Or.inl hold
      · simp at hnew
  | marked m c' hframe hentry hwaiting htable hobjects =>
      rw [htable] at h
      rcases index?_set_cases (index?_eq_some.mp hentry).1 h with ⟨-, hnew⟩ | ⟨-, hold⟩
      · simp only [KernelCV.mk.injEq, Option.some.injEq, and_true] at hnew
        exact Or.inr (hnew ▸ hwaiting)
      · exact Or.inl hold
  | killed m c' isDeleted hframe hentry hwaiting htable hobjects =>
      rw [htable] at h
      rcases index?_set_cases (index?_eq_some.mp hentry).1 h with ⟨-, hnew⟩ | ⟨-, hold⟩
      · simp at hnew
      · exact Or.inl hold

/-- `Signal_Syscall` drops a marked condition nobody waits for. -/
theorem signalTail_drops {input : Input} {state : Userland} {rs : List (Request UserFrame)}
    (hexec : userExec input (.signalTail n) s = .ok (state, rs))
    (hentry : index? s.client.cvTable n = some ⟨some c, true⟩)
    (hempty : (s.condition c).waitingCV = []) :
    index? state.cvTable n = some ⟨none, true⟩ := by
  simp only [userExec, signalTail, hentry, hempty, if_true] at hexec
  obtain rfl := answer_state hexec
  exact index?_set_self hentry

theorem Deferred.pending_step (h : Deferred s) (hs : Orderly s)
    (hat : Kernel.StepAt userClient choice s s' frame rest gs) :
    ∀ n c, index? s'.client.cvTable n = some ⟨some c, true⟩ →
      (s'.condition c).waitingCV ≠ [] ∨ ∃ t, .client (.signalTail n) ∈ s'.stack t := by
  intro n c hentry
  have hcases : index? s.client.cvTable n = some ⟨some c, true⟩ ∨
      (s'.condition c).waitingCV ≠ [] := by
    rcases stepAt_cases hat with ⟨k, rs, rfl, hexec, -⟩ | ⟨-, hclient⟩
    · rw [(clientStep_of_stepAt hat).condition]
      exact (userExec_cvTable hexec).marked_cases hentry
    · exact Or.inl (hclient ▸ hentry)
  rcases hcases with hold | hnew
  · rcases h.pending n c hold with hwaiters | ⟨t, htail⟩
    · rcases h.condition_marked hs hat hold with hsame | htail
      · exact Or.inl (hsame ▸ hwaiters)
      · refine Or.inr ⟨s.currentThread, ?_⟩
        rw [hat.stack_self]
        exact List.mem_append_right _ htail
    · rcases mem_stack_step hs.wellFormed hat htail with hstays | ⟨-, rfl⟩
      · exact Or.inr ⟨t, hstays⟩
      · -- `Signal_Syscall` has left the condition because somebody waits
        refine Or.inl fun hempty => ?_
        rw [(clientStep_of_stepAt hat).condition] at hempty
        rcases stepAt_cases hat with ⟨k, rs, hk, hexec, -⟩ | ⟨hframe, -⟩
        · obtain rfl := Frame.client.inj hk
          rw [signalTail_drops hexec hold hempty] at hentry
          simp at hentry
        · exact absurd rfl (hframe _)
  · exact Or.inl hnew

/-- A thread in `Condition::Broadcast` owns `CVTableLock` and will release it. -/
theorem broadcast_release (hs : Orderly s) {t : ThreadId}
    (hf : .call (.conditionBroadcast c o) ∈ s.stack t ∨ .broadcastLoop c o ∈ s.stack t) :
    .call (.lockRelease cvTableLock) ∈ s.stack t ∧
      (s.lock cvTableLock).owner = some t := by
  have hrelease : .call (.lockRelease cvTableLock) ∈ s.stack t := by
    rcases hf with hcall | hloop
    · obtain ⟨above, below, hstack⟩ := List.append_of_mem hcall
      have hends : EndsBroadcast s.client c below := (hstack ▸ hs.ordered t).over
      rw [hstack]
      exact List.mem_append_right _ (List.mem_cons_of_mem _ hends.2)
    · obtain ⟨above, below, hstack⟩ := List.append_of_mem hloop
      have hends : EndsBroadcast s.client c below := (hstack ▸ hs.ordered t).over
      rw [hstack]
      exact List.mem_append_right _ (List.mem_cons_of_mem _ hends.2)
  exact ⟨hrelease, hs.keeping t cvTableLock _ hrelease (by decide)⟩

/-- While a thread is in `Condition::Broadcast` nobody changes what it may do. -/
theorem Deferred.allowed_step (h : Deferred s) (hs : Orderly s)
    (hat : Kernel.StepAt userClient choice s s' frame rest gs) {t : ThreadId}
    (hf : .call (.conditionBroadcast c o) ∈ s.stack t ∨ .broadcastLoop c o ∈ s.stack t) :
    BroadcastAllowed s' c o := by
  obtain ⟨hrelease, howner⟩ := broadcast_release hs hf
  have htable : s'.client.cvTable = s.client.cvTable := by
    by_cases ht : t = s.currentThread
    · subst ht
      rw [hat.stack] at hf
      rw [client_same hat]
      rintro k rfl
      rcases hf with hcall | hloop
      · refine not_client_of_below hs hat (f := .call (.conditionBroadcast c o)) ?_ rfl k rfl
        exact List.mem_of_ne_of_mem (by simp) hcall
      · refine not_client_of_below hs hat (f := .broadcastLoop c o) ?_ rfl k rfl
        exact List.mem_of_ne_of_mem (by simp) hloop
    · refine cvTable_of_not_owner hs hat ?_
      rw [howner]
      exact fun heq => ht (Option.some.inj heq)
  rcases h.broadcasting t c o hf with ⟨n, hn⟩ | ⟨⟨n, hn⟩, hlock, hwaiters⟩
  · exact Or.inl ⟨n, htable ▸ hn⟩
  · rcases h.condition_marked hs hat hn with hsame | htail
    · refine Or.inr ⟨⟨n, htable ▸ hn⟩, ?_, ?_⟩
      · exact hsame ▸ hlock
      · exact hsame ▸ hwaiters
    · -- two threads would own `CVTableLock`, or one would release it twice
      have hmem : .client (.signalTail n) ∈ s.stack s.currentThread := by
        rw [hat.stack]
        exact List.mem_cons_of_mem _ htail
      have hcurrent := hs.keeping _ cvTableLock _ hmem (by simp [keeps])
      have ht : t = s.currentThread := Option.some.inj (howner.symm.trans hcurrent)
      exact absurd (ht ▸ hrelease) (signalTail_exclusive (hs.ordered _) hmem)

/-- `Condition::Broadcast` is called by `Broadcast_Syscall` only. -/
theorem asks_conditionBroadcast {k : UserFrame} {rs : List (Request UserFrame)}
    (hasks : k.Asks s rs) (hmem : Request.call (.conditionBroadcast c o) ∈ rs) :
    ∃ z b l, k = .broadcastCheck z b ∧ s.client.cvAt z = some c ∧
      s.client.lockAt b = some l ∧ o = some l := by
  cases k
  all_goals simp only [UserFrame.Asks] at hasks
  case oneInstruction =>
    rcases hasks with rfl | rfl | ⟨call, rfl⟩
    · simp at hmem
    · simp at hmem
    · simp at hmem
  case broadcastCheck z b =>
    rcases hasks with rfl | ⟨c', l, hcv, hlock, rfl⟩
    · simp at hmem
    · simp only [List.mem_cons, reduceCtorEq, Request.call.injEq, Op.conditionBroadcast.injEq,
        List.not_mem_nil, or_false] at hmem
      obtain ⟨rfl, rfl⟩ := hmem
      exact ⟨z, b, l, rfl, hcv, hlock, rfl⟩
  all_goals grind

/-- `Broadcast_Syscall` goes on to a `Broadcast` that is allowed. -/
theorem Deferred.allowed_check (h : Deferred s) (hs : Orderly s) (hmarks : heedsMarks s = true)
    {z b : Int} {l : LockId} (hstack : s.stack s.currentThread = .client (.broadcastCheck z b) :: rest)
    (hcv : s.client.cvAt z = some c) (hlock : s.client.lockAt b = some l) :
    BroadcastAllowed s c (some l) := by
  obtain ⟨⟨cv, isDeleted⟩, hentry, hsome⟩ := Option.bind_eq_some_iff.mp hcv
  obtain rfl : cv = some c := hsome
  cases isDeleted with
  | false => exact Or.inl ⟨z, hentry⟩
  | true =>
      have htop : s.top = some (.client (.broadcastCheck z b)) := by
        rw [Kernel.top, hstack, List.head?_cons]
      have hbound : (s.condition c).waitingLock ≠ some l := by
        simpa [heedsMarks, htop, hentry, hlock] using hmarks
      refine Or.inr ⟨⟨z, hentry⟩, Ne.symm hbound, ?_⟩
      rcases h.pending z c hentry with hwaiters | ⟨t, htail⟩
      · exact hwaiters
      · -- the thread of a `Signal_Syscall` would own `CVTableLock`, too
        have hself := (hs.holding _ [] _ rest cvTableLock hstack rfl).owns
        have howner := hs.keeping t cvTableLock _ htail (by simp [keeps])
        obtain rfl : t = s.currentThread := Option.some.inj (howner.symm.trans hself)
        have hover : ∀ g ∈ rest, isBase g = true := (hstack ▸ hs.ordered s.currentThread).1
        rw [hstack] at htail
        exact absurd (hover _ (List.mem_of_ne_of_mem (by simp) htail)) (by simp [isBase])

theorem Deferred.broadcasting_step (h : Deferred s) (hs : Orderly s)
    (hmarks : heedsMarks s = true)
    (hat : Kernel.StepAt userClient choice s s' frame rest gs) :
    ∀ t c o, .call (.conditionBroadcast c o) ∈ s'.stack t ∨ .broadcastLoop c o ∈ s'.stack t →
      BroadcastAllowed s' c o := by
  have htop : frame ∈ s.stack s.currentThread := by
    rw [hat.stack]
    exact List.mem_cons_self
  rintro t c o (hcall | hloop)
  · rcases mem_stack_cases hat hcall with hold | ⟨-, hpushed⟩ | ⟨body, -, hroot⟩
    · exact h.allowed_step hs hat (Or.inl hold)
    · rcases stepAt_cases hat with ⟨k, rs, rfl, hexec, rfl⟩ | ⟨hframe, -⟩
      · obtain ⟨z, b, l, rfl, hcv, hlock, rfl⟩ :=
          asks_conditionBroadcast (userExec_asks hexec) (mem_requests_call.mp hpushed)
        have hallowed := h.allowed_check hs hmarks hat.stack hcv hlock
        have htable := (userExec_sameTables hexec rfl).cvTable
        rw [BroadcastAllowed, (clientStep_of_stepAt hat).condition, Unmarked, Marked, htable]
        exact hallowed
      · cases Frame.pushed_of_pushes hframe hat.pushes hpushed with
        | quiet _ _ hquiet => simp [Frame.isQuiet] at hquiet
    · simp [Kernel.rootFrames] at hroot
  · rcases mem_stack_cases hat hloop with hold | ⟨-, hpushed⟩ | ⟨body, -, hroot⟩
    · exact h.allowed_step hs hat (Or.inr hold)
    · rcases stepAt_cases hat with ⟨k, rs, rfl, -, rfl⟩ | ⟨hframe, -⟩
      · obtain ⟨request, -, hrequest⟩ := List.mem_map.mp hpushed
        cases request <;> simp [Request.frame] at hrequest
      · cases Frame.pushed_of_pushes hframe hat.pushes hpushed with
        | quiet _ _ hquiet => simp [Frame.isQuiet] at hquiet
        | broadcast c o => exact h.allowed_step hs hat (Or.inl htop)
        | again c o => exact h.allowed_step hs hat (Or.inr htop)
    · simp [Kernel.rootFrames] at hroot

theorem Deferred.passing_step (h : Deferred s) (hmomentary : Momentary s) (hs : Orderly s)
    (hmarks : heedsMarks s = true)
    (hat : Kernel.StepAt userClient choice s s' frame rest gs) :
    ∀ t x l, .client (.waitBody x l) ∈ s'.stack t →
      ∃ c, index? s'.client.cvTable x = some ⟨some c, false⟩ := by
  intro t x l hmem
  rcases mem_stack_cases hat hmem with hold | ⟨-, hpushed⟩ | ⟨body, rfl, hroot⟩
  · have hentry := h.passing t x l hold
    obtain ⟨above, below, hstack⟩ := List.append_of_mem hold
    obtain ⟨rfl, -, -, -⟩ := hmomentary.passing t above x l below hstack
    rw [hat.stack] at hold
    -- neither the program point nor the `Release` in front of it changes the table
    rcases List.mem_cons.mp hold with rfl | hrest
    · rcases stepAt_cases hat with ⟨k, rs, hk, hexec, -⟩ | ⟨hframe, -⟩
      · obtain rfl := Frame.client.inj hk
        rw [(userExec_sameTables hexec rfl).cvTable]
        exact hentry
      · exact absurd rfl (hframe _)
    · rw [client_same hat (not_client_of_below hs hat hrest rfl)]
      exact hentry
  · rcases stepAt_cases hat with ⟨k, rs, rfl, hexec, rfl⟩ | ⟨hframe, -⟩
    · obtain ⟨rfl, hcv, hlock, -⟩ :=
        asks_waitBody (userExec_asks hexec) (mem_requests_client.mp hpushed)
      have htable : s'.client.cvTable = s.client.cvTable :=
        (userExec_sameTables hexec rfl).cvTable
      obtain ⟨c, hc⟩ := Option.ne_none_iff_exists'.mp hcv
      obtain ⟨l', hl'⟩ := Option.ne_none_iff_exists'.mp hlock
      obtain ⟨⟨cv, isDeleted⟩, hentry, hsome⟩ := Option.bind_eq_some_iff.mp hc
      obtain rfl : cv = some c := hsome
      have hold : index? s.client.cvTable x = some ⟨some c, isDeleted⟩ := hentry
      have hlive : s.client.lockAt l = some l' := hl'
      cases isDeleted with
      | false => exact ⟨c, htable ▸ hold⟩
      | true => simp [heedsMarks, hat.top, hold, hlive] at hmarks
    · exact absurd hpushed (Frame.pushes_not_client hframe hat.pushes _)
  · have hover := (hat.stack ▸ hs.ordered s.currentThread).1
    rcases hover with rfl | rfl
    · simp [Kernel.rootFrames] at hroot
    · simp [Kernel.rootFrames] at hroot

theorem Deferred.waiting_step (h : Deferred s) (hmomentary : Momentary s)
    (hat : Kernel.StepAt userClient choice s s' frame rest gs) :
    ∀ t c o, .call (.conditionWait c o) ∈ s'.stack t → Unmarked s'.client c := by
  intro t c o hmem
  rcases mem_stack_cases hat hmem with hold | ⟨-, hpushed⟩ | ⟨body, -, hroot⟩
  · -- the call is the frame that runs
    obtain ⟨above, below, hstack⟩ := List.append_of_mem hold
    obtain ⟨rfl, rfl⟩ := hmomentary.waiting t above c o below hstack
    obtain ⟨rfl, -⟩ := List.cons.inj (hat.stack.symm.trans hstack)
    rw [client_same hat (by simp)]
    exact h.waiting _ c o hold
  · rcases stepAt_cases hat with ⟨k, rs, rfl, hexec, rfl⟩ | ⟨hframe, -⟩
    · obtain ⟨x, n, isDeleted, entry, rfl, hcv, -, -, -⟩ :=
        asks_conditionWait (userExec_asks hexec) (mem_requests_call.mp hpushed)
      obtain ⟨c', hentry⟩ := h.passing s.currentThread x n (by rw [hat.stack]; simp)
      have hold : index? s.client.cvTable x = some ⟨some c, isDeleted⟩ := hcv
      rw [hold, Option.some.injEq, KernelCV.mk.injEq] at hentry
      refine ⟨x, ?_⟩
      rw [(userExec_sameTables hexec rfl).cvTable, ← hentry.2]
      exact hcv
    · exact absurd hpushed ((pushes_calls hframe hat.pushes).1 c o)
  · simp [Kernel.rootFrames] at hroot

theorem Deferred.appending_step (h : Deferred s) (hs : Orderly s)
    (hothers : ∀ t, t ≠ s.currentThread → NoEntry (s.stack t))
    (hat : Kernel.StepAt userClient choice s s' frame rest gs) :
    ∀ t c l, .waitAppend c l ∈ s'.stack t → Unmarked s'.client c := by
  intro t c l hmem
  rcases mem_stack_cases hat hmem with hold | ⟨-, hpushed⟩ | ⟨body, -, hroot⟩
  · obtain rfl : t = s.currentThread := by
      by_contra ht
      exact absurd (hothers t ht _ hold) (by simp [Frame.isEntry])
    have hunmarked := h.appending _ c l hold
    rw [hat.stack] at hold
    rw [client_same hat]
    · exact hunmarked
    · rintro k rfl
      exact not_client_of_below hs hat (List.mem_of_ne_of_mem (by simp) hold) rfl k rfl
  · rcases stepAt_cases hat with ⟨k, rs, rfl, -, rfl⟩ | ⟨hframe, hclient⟩
    · obtain ⟨request, -, hrequest⟩ := List.mem_map.mp hpushed
      cases request <;> simp [Request.frame] at hrequest
    · cases Frame.pushed_of_pushes hframe hat.pushes hpushed with
      | quiet _ _ hquiet => simp [Frame.isQuiet] at hquiet
      | append c l =>
          rw [hclient]
          refine h.waiting s.currentThread c (some l) ?_
          rw [hat.stack]
          exact List.mem_cons_self
  · simp [Kernel.rootFrames] at hroot

/-- An entry that is dead after a step was dead before, or had no waiters. -/
theorem CVTableEffect.dead_cases {k : UserFrame} {state : Userland}
    (heffect : CVTableEffect s k state) (hu : s.client.Sane) {isDeleted : Bool}
    (hdead : index? state.cvTable n = some ⟨none, isDeleted⟩)
    (hobject : index? state.cvObjects n = some c) :
    index? s.client.cvTable n = some ⟨none, isDeleted⟩ ∧
        index? s.client.cvObjects n = some c ∨ (s.condition c).waitingCV = [] := by
  cases heffect with
  | same htable hobjects => exact Or.inl ⟨htable ▸ hdead, hobjects ▸ hobject⟩
  | created hframe htable hobjects =>
      rw [htable] at hdead
      rw [hobjects] at hobject
      rcases index?_append_cases hdead with hold | ⟨-, hnew⟩
      · rcases index?_append_cases hobject with hold' | ⟨hn, -⟩
        · exact Or.inl ⟨hold, hold'⟩
        · obtain ⟨hn0, hget⟩ := index?_eq_some.mp hold
          have hlt := (List.getElem?_eq_some_iff.mp hget).1
          rw [hn, hu.cv_length] at hlt
          simp at hlt
      · simp at hnew
  | marked m c' hframe hentry hwaiting htable hobjects =>
      rw [htable] at hdead
      rcases index?_set_cases (index?_eq_some.mp hentry).1 hdead with ⟨-, hnew⟩ | ⟨-, hold⟩
      · simp at hnew
      · exact Or.inl ⟨hold, hobjects ▸ hobject⟩
  | killed m c' wasDeleted hframe hentry hwaiting htable hobjects =>
      rw [htable] at hdead
      rcases index?_set_cases (index?_eq_some.mp hentry).1 hdead with ⟨rfl, -⟩ | ⟨-, hold⟩
      · rw [hobjects, hu.cv_object n c' wasDeleted hentry] at hobject
        exact Or.inr (Option.some.inj hobject ▸ hwaiting)
      · exact Or.inl ⟨hold, hobjects ▸ hobject⟩

theorem Deferred.dead_step (h : Deferred s) (hs : Orderly s)
    (hat : Kernel.StepAt userClient choice s s' frame rest gs) :
    ∀ n c isDeleted, index? s'.client.cvTable n = some ⟨none, isDeleted⟩ →
      index? s'.client.cvObjects n = some c → (s'.condition c).waitingCV = [] := by
  intro n c isDeleted hdead hobject
  rcases stepAt_cases hat with ⟨k, rs, rfl, hexec, -⟩ | ⟨-, hclient⟩
  · rw [(clientStep_of_stepAt hat).condition]
    rcases (userExec_cvTable hexec).dead_cases hs.sane hdead hobject with
      ⟨hold, hobject'⟩ | hempty
    · exact h.dead n c isDeleted hold hobject'
    · exact hempty
  · rw [hclient] at hdead hobject
    have hempty := h.dead n c isDeleted hdead hobject
    cases hat.condition c with
    | same hcondition events hadds hquiet => rw [hcondition, hempty]
    | bound l hframe hfree hcondition hadds => rw [hcondition, hempty]
    | queued l hframe hcondition hadds =>
        -- nobody is appended to the waiters of a dropped condition
        obtain ⟨m, hm⟩ := h.appending s.currentThread c l (by rw [hat.stack, hframe]; simp)
        have hsame : m = n :=
          index?_injective hs.sane.cv_nodup (hs.sane.cv_object m c false hm) hobject
        rw [hsame, hdead] at hm
        simp at hm
    | woken t later hframe hwaiting hcondition hadds =>
        rw [hempty] at hwaiting
        exact absurd hwaiting (by simp)

/-- Every step that heeds the marks keeps the deletions in order. -/
theorem Deferred.step (h : Deferred s) (hmomentary : Momentary s) (hs : Orderly s)
    (hothers : ∀ t, t ≠ s.currentThread → NoEntry (s.stack t)) (hmarks : heedsMarks s = true)
    (hat : Kernel.StepAt userClient choice s s' frame rest gs) : Deferred s' where
  dead := h.dead_step hs hat
  passing := h.passing_step hmomentary hs hmarks hat
  waiting := h.waiting_step hmomentary hat
  appending := h.appending_step hs hothers hat
  pending := h.pending_step hs hat
  broadcasting := h.broadcasting_step hs hmarks hat

theorem deferred_boot (pid : ThreadId → Int) : Deferred (userBoot pid) := by
  have hstack : ∀ t f, f ∈ (userBoot pid).stack t →
      f = .setLevel .intOn ∨ f = .client .startProcess ∨ f = .call .threadFinish := by
    intro t f hf
    by_cases ht : t = 0
    · simpa [userBoot, Kernel.boot, ht] using hf
    · simp [userBoot, Kernel.boot, ht] at hf
  have htable : ∀ n e, index? (userBoot pid).client.cvTable n ≠ some e := by
    intro n e hentry
    exact absurd (index?_mem hentry) (by simp [userBoot, Kernel.boot, userland])
  constructor
  · exact fun n c isDeleted hentry => absurd hentry (htable n _)
  · intro t x l hmem
    simpa using hstack t _ hmem
  · intro t c o hmem
    simpa using hstack t _ hmem
  · intro t c l hmem
    simpa using hstack t _ hmem
  · exact fun n c hentry => absurd hentry (htable n _)
  · rintro t c o (hmem | hmem)
    · simpa using hstack t _ hmem
    · simpa using hstack t _ hmem

/-- `currentThread` is about to wait for condition `c`: it calls `Condition::Wait`
or is appended to the waiters. -/
def StartsToWait (s : UserKernel) (c : ConditionId) : Prop :=
  (∃ o, s.top = some (.call (.conditionWait c o))) ∨ ∃ l, s.top = some (.waitAppend c l)

theorem Deferred.startsToWait (h : Deferred s) (hstarts : StartsToWait s c) :
    Unmarked s.client c := by
  rcases hstarts with ⟨o, htop⟩ | ⟨l, htop⟩
  · refine h.waiting s.currentThread c o ?_
    rw [Kernel.stack_of_top htop]
    exact List.mem_cons_self
  · refine h.appending s.currentThread c l ?_
    rw [Kernel.stack_of_top htop]
    exact List.mem_cons_self

/-- In every run that heeds the marks: when `CVTableLock` is free, so that none of
the calls is in progress, a condition that is marked and has no waiters has been
dropped; nobody waits for a condition that has been dropped; and nobody starts to
wait for one that is marked. -/
theorem cvTable_deferred {pid : ThreadId → Int}
    (hrun : Kernel.Run userClient (fun u _ => heedsMarks u = true) (userBoot pid) s) :
    (∀ n e c, index? s.client.cvTable n = some e → index? s.client.cvObjects n = some c →
      ((s.lock cvTableLock).owner = none → e.isDeleted = true →
        (s.condition c).waitingCV = [] → e.cv = none) ∧
      (e.cv = none → (s.condition c).waitingCV = []) ∧
      (StartsToWait s c → e.isDeleted = false)) := by
  obtain ⟨hs, h, -, -⟩ := (orderly_boot pid).invariant
    (P := fun u => Deferred u ∧ Momentary u ∧ ∃ e, u.ConditionInvariant e) hrun
    (fun u v choice frame rest gs hu _ hmarks hat ⟨h, hmomentary, e, hcondition⟩ =>
      ⟨h.step hmomentary hu hcondition.others hmarks hat, hmomentary.step hu hat,
        hcondition.step hu.wellFormed hat⟩)
    ⟨deferred_boot pid, momentary_boot pid, none, Kernel.conditionInvariant_boot _ _ _⟩
  rintro n ⟨cv, isDeleted⟩ c hentry hobject
  refine ⟨?_, ?_, ?_⟩
  · rintro hfree rfl hempty
    cases cv with
    | none => rfl
    | some c' =>
        have hsame := (hs.sane.cv_object n c' true hentry).symm.trans hobject
        obtain rfl := Option.some.inj hsame
        rcases h.pending n c' hentry with hwaiters | ⟨t, htail⟩
        · exact absurd hempty hwaiters
        · rw [hs.keeping t cvTableLock _ htail (by simp [keeps])] at hfree
          exact absurd hfree (by simp)
  · rintro rfl
    exact h.dead n c isDeleted hentry hobject
  · intro hstarts
    obtain ⟨m, hm⟩ := h.startsToWait hstarts
    have hsame : m = n :=
      index?_injective hs.sane.cv_nodup (hs.sane.cv_object m c false hm) hobject
    rw [hsame, hentry, Option.some.injEq, KernelCV.mk.injEq] at hm
    exact hm.2

end Marks

/-- The main thread makes a lock and a condition, forks a thread and waits; that
thread destroys the condition. -/
def destroyWhileWaiting : List (Choice Input) :=
  startup ++ calling .createLock 10 ++ calling .createCV 11 ++ calling (.acquire 0) 14 ++
    calling .fork 14 ++ calling (.wait 0 0) 18 ++ calling (.destroyCV 0) 11

/-- `Signal_Syscall` drops the marked condition. -/
theorem cvTable_deferred_signal :
    ∃ s, Kernel.Run userClient (fun u _ => heedsMarks u = true) (userBoot fun _ => 0) s ∧
      (s.condition 0).waitingCV = [] ∧
      ∃ e, index? s.client.cvTable 0 = some e ∧ e.isDeleted = true ∧ e.cv = none := by
  obtain ⟨s, hrun, hempty, hfree, hobject, hmarked⟩ :=
    exists_userRun
      (P := fun s => (s.condition 0).waitingCV = [] ∧ (s.lock cvTableLock).owner = none ∧
        index? s.client.cvObjects 0 = some 0 ∧
        (index? s.client.cvTable 0).map KernelCV.isDeleted = some true)
      heedsMarks (fun _ => 0) (destroyWhileWaiting ++ calling (.signal 0 0) 15)
      (by decide +kernel)
  obtain ⟨e, hentry, hdeleted⟩ := Option.map_eq_some_iff.mp hmarked
  refine ⟨s, hrun, hempty, e, hentry, hdeleted, ?_⟩
  exact (cvTable_deferred hrun 0 e 0 hentry hobject).1 hfree hdeleted hempty

/-- The frames of a thread that is in none of the calls on conditions. -/
def isOutside : Frame UserFrame → Bool
  | .client (.sysReturn _) => true
  | f => isBase f || f.isQuiet

/-- `Broadcast_Syscall` does not.  The calls have all returned here. -/
theorem cvTable_not_dropped_broadcast :
    ∃ s e c, UserReachable s ∧ (s.lock cvTableLock).owner = none ∧
      (∀ t < s.threadCount, ∀ f ∈ s.stack t, isOutside f = true) ∧
      index? s.client.cvTable 0 = some e ∧ index? s.client.cvObjects 0 = some c ∧
      e.isDeleted = true ∧ (s.condition c).waitingCV = [] ∧ e.cv ≠ none := by
  obtain ⟨s, hreach, hfree, hidle, hentry, hobject, hempty⟩ :=
    exists_userReachable
      (P := fun s => (s.lock cvTableLock).owner = none ∧
        (∀ t < s.threadCount, ∀ f ∈ s.stack t, isOutside f = true) ∧
        index? s.client.cvTable 0 = some ⟨some 0, true⟩ ∧
        index? s.client.cvObjects 0 = some 0 ∧ (s.condition 0).waitingCV = [])
      (fun _ => 0) (destroyWhileWaiting ++ calling (.broadcast 0 0) 17 ++ calling .yield 14)
      (by decide +kernel)
  exact ⟨s, _, 0, hreach, hfree, hidle, hentry, hobject, rfl, hempty, by simp⟩

end Userprog
end Nachos
