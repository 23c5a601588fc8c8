import Nachos.Userprog.ContextSwitch

/-!
# Threads that have not exited

A thread is live from when it is given an address space until its `Exit_Syscall`
has looked its process up.  So a thread becomes live at the end of the
construction in `StartProcess` or when `Exec_Syscall` or `Fork_Syscall` makes it,
and stops being live at `exitBody`, and nothing else changes who is live.

While `StartProcess` is at work its thread is the only one.
-/

namespace Nachos
namespace Userprog

open Threads Lib

/-- The thread is on its way to `Finish`. -/
def Leaving (stack : List (Frame UserFrame)) : Prop :=
  (core stack).head? = some (.call .threadFinish)

instance (stack : List (Frame UserFrame)) : Decidable (Leaving stack) :=
  inferInstanceAs (Decidable (_ = _))

/-- The program points of `StartProcess` before its thread has a space. -/
def UserFrame.isVacant : UserFrame → Bool
  | .startProcess => true
  | .spacePut _ _ .startProcess => true
  | .spaceDone _ .startProcess => true
  | _ => false

theorem not_leaving_client {stack below : List (Frame UserFrame)} {k : UserFrame}
    (h : core stack = .client k :: below) : ¬ Leaving stack := by
  unfold Leaving
  rw [h]
  simp

theorem not_leaving_nil : ¬ Leaving [] := by
  simp [Leaving, core]

/-- `StartProcess` comes to a point before the construction from an earlier one. -/
theorem asks_vacant {s : UserKernel} {rs : List (Request UserFrame)} {k k' : UserFrame}
    (hasks : k.Asks s rs) (hk' : .client k' ∈ rs) (hvacant : k'.isVacant = true) :
    k.isVacant = true ∧ ∀ space use, k ≠ .spaceDone space use := by
  cases k with
  | oneInstruction =>
      rcases hasks with rfl | rfl | ⟨call, rfl⟩
      · obtain rfl : k' = .oneInstruction := by simpa using hk'
        simp [UserFrame.isVacant] at hvacant
      · simp at hk'
      · have hcases : k' = .exceptionHandler call ∨ k' = .oneInstruction := by simpa using hk'
        rcases hcases with rfl | rfl
        · simp [UserFrame.isVacant] at hvacant
        · simp [UserFrame.isVacant] at hvacant
  | exceptionHandler call =>
      rcases hasks with rfl | ⟨rv, rfl⟩ | rfl | ⟨g, k'', hcall, rfl⟩
      · simp at hk'
      · obtain rfl : k' = .sysReturn rv := by simpa using hk'
        simp [UserFrame.isVacant] at hvacant
      · obtain rfl : k' = .sysReturn 0 := by simpa using hk'
        simp [UserFrame.isVacant] at hvacant
      · obtain rfl : k' = k'' := by simpa using hk'
        have hcalls := (UserFrame.isCall_cases (Syscall.enters_isCall hcall)).1
        cases k' with
        | spacePut space more use =>
            cases use with
            | exec => simp [UserFrame.isVacant] at hvacant
            | startProcess => simp [UserFrame.isBoot] at hcalls
        | spaceDone space use =>
            cases use with
            | exec => simp [UserFrame.isVacant] at hvacant
            | startProcess => simp [UserFrame.isBoot] at hcalls
        | startProcess => simp [UserFrame.isBoot] at hcalls
        | _ => simp [UserFrame.isVacant] at hvacant
  | spacePut space more use =>
      cases use with
      | exec =>
          rcases hasks with ⟨-, rfl⟩ | ⟨m, -, rfl⟩
          · obtain rfl : k' = .spaceDone space .exec := by simpa using hk'
            simp [UserFrame.isVacant] at hvacant
          · obtain rfl : k' = .spacePut space m .exec := by simpa using hk'
            simp [UserFrame.isVacant] at hvacant
      | startProcess => exact ⟨rfl, by simp⟩
  | startProcess => exact ⟨rfl, by simp⟩
  | execBody =>
      obtain rfl := hasks
      obtain rfl : k' = .spacePut s.client.nextSpace 1 .exec := by simpa using hk'
      simp [UserFrame.isVacant] at hvacant
  | _ => simp only [UserFrame.Asks] at hasks; grind [UserFrame.isVacant]

/-- What comes to a point of `StartProcess` is one. -/
theorem CoreStep.boot_before {f : Frame UserFrame} {k : UserFrame}
    {below : List (Frame UserFrame)} (h : CoreStep f (.client k :: below))
    (hk : k.isBoot = true) : ∃ k', f = .client k' ∧ k'.isBoot = true := by
  generalize hcore : Frame.client k :: below = c at h
  -- every other step comes to the loop of `Machine::Run` or to a system call
  have hother : ∀ k' below', c = .client k' :: below' → k'.isBoot = true := by
    intro k' below' heq
    obtain ⟨hhead, -⟩ := List.cons.inj (hcore.trans heq)
    rwa [← Frame.client.inj hhead]
  cases h with
  | boots hk₀ hk' => exact ⟨_, rfl, hk₀⟩
  | goesOn hk₀ hk' _ _ =>
      have hboot := hother _ _ rfl
      rw [(UserFrame.isCall_cases hk').1] at hboot
      simp at hboot
  | noFile => simp at hcore
  | exits => simp at hcore
  | halts k below => simp at hcore
  | ends => simp at hcore
  | traps call => exact absurd (hother _ _ rfl) (by simp [UserFrame.isBoot])
  | _ => exact absurd (hother _ _ rfl) (by simp [UserFrame.isBoot])

/-- What comes to a point of a system call is one, but for its beginning. -/
theorem CoreStep.call_before {f : Frame UserFrame} {k : UserFrame}
    {below : List (Frame UserFrame)} (h : CoreStep f (.client k :: below))
    (hk : k.isCall = true) (hfirst : ∀ call, k ≠ .exceptionHandler call) :
    ∃ k', f = .client k' ∧ k'.isCall = true := by
  obtain ⟨hboot, -, hne⟩ := UserFrame.isCall_cases hk
  generalize hcore : Frame.client k :: below = c at h
  have hother : ∀ k' below', c = .client k' :: below' → k' = k := by
    intro k' below' heq
    obtain ⟨hhead, -⟩ := List.cons.inj (hcore.trans heq)
    exact (Frame.client.inj hhead).symm
  cases h with
  | boots hk₀ hk' => exact absurd (hother _ _ rfl ▸ hk') (by simp [hboot])
  | goesOn hk₀ hk' _ _ => exact ⟨_, rfl, hk₀⟩
  | noFile => simp at hcore
  | exits => simp at hcore
  | halts k below => simp at hcore
  | ends => simp at hcore
  | traps call => exact absurd (hother _ _ rfl).symm (hfirst call)
  | _ => exact absurd (hother _ _ rfl).symm hne

namespace System

/-- A thread of an address space that has not exited. -/
def Live (m : System) (t : ThreadId) : Prop :=
  m.hasSpace t = true ∧ ¬ m.kernel.Finished t ∧ ¬ Leaving (m.kernel.stack t)

instance (m : System) (t : ThreadId) : Decidable (m.Live t) :=
  inferInstanceAs (Decidable (_ ∧ _ ∧ _))

/-- How threads begin: a call that forks returns behind the fork, `StartProcess`
is alone and has no space before the construction, and `Exec_Syscall` constructs a
space for another thread. -/
structure Begun (m : System) : Prop where
  forking : ∀ t body, .call (.threadFork body) ∈ m.kernel.stack t →
    ∃ rv, core (m.kernel.stack t) = .client (.sysReturn rv) :: userLoop
  alone : ∀ t k below, core (m.kernel.stack t) = .client k :: below → k.isBoot = true →
    t = 0 ∧ m.kernel.threadCount = 1
  vacant : ∀ t k below, core (m.kernel.stack t) = .client k :: below → k.isVacant = true →
    m.hasSpace t = false
  strangers : ∀ t k below space built, core (m.kernel.stack t) = .client k :: below →
    k.isCall = true → k.carries = some (space, built) → m.kernel.client.space t ≠ space

section Begun

variable {m m' w : System} {env : Environment} {input : Input} {frame : Frame UserFrame}
  {rest gs : List (Frame UserFrame)}

/-- A thread whose core is not empty has been born. -/
theorem born_of_core (hs : Orderly m.kernel) {t : ThreadId} {f : Frame UserFrame}
    {below : List (Frame UserFrame)} (h : core (m.kernel.stack t) = f :: below) :
    t < m.kernel.threadCount := by
  by_contra hunborn
  rw [hs.wellFormed.unborn t (Nat.le_of_not_lt hunborn)] at h
  simp [core] at h

theorem Begun.forking_step (h : Begun m) (hhoused : Housed m)
    (hat : StepAt m m' w env input frame rest gs) {t : ThreadId} {body : UserFrame}
    (hmem : .call (.threadFork body) ∈ m'.kernel.stack t) :
    ∃ rv, core (m'.kernel.stack t) = .client (.sysReturn rv) :: userLoop := by
  by_cases ht : t = m.kernel.currentThread
  · subst ht
    have hbelow := hhoused.staged.below m.kernel.currentThread body
    rw [hat.kernel.stack, List.tail_cons] at hbelow
    rw [hat.kernel.stack_self] at hmem ⊢
    have hnew := (List.mem_append.mp hmem).resolve_right hbelow
    rcases stepAt_cases hat.kernel with ⟨k, rs, rfl, hexec, rfl⟩ | ⟨hclient, -⟩
    · have hasks : k.Asks m.kernel.pop rs := userExec_asks hexec
      have hstage := hhoused.staged.stage m.kernel.currentThread
      rw [hat.kernel.stack] at hstage
      rcases (asks_fork hasks (fork_mem_asks hnew)).1 with ⟨space, processID, rfl⟩ | rfl
      · obtain rfl := hasks
        rw [core_cons_outer rfl] at hstage
        rw [hstage.below_call rfl]
        exact ⟨processID, rfl⟩
      · rw [core_cons_outer rfl] at hstage
        rw [hstage.below_call rfl]
        rcases hasks with ⟨-, rfl⟩ | ⟨-, rfl⟩
        · exact ⟨0, rfl⟩
        · exact ⟨0, rfl⟩
    · exact absurd hnew (pushes_noFork hat.kernel.pushes hclient)
  · rcases hat.kernel.stack_other t ht with hsame | ⟨body', -, -, hroot⟩
    · rw [hsame] at hmem ⊢
      exact h.forking t body hmem
    · rw [hroot] at hmem
      simp [Kernel.rootFrames] at hmem

theorem Begun.alone_step (h : Begun m) (hhoused : Housed m) (hs : Orderly m.kernel)
    (hat : StepAt m m' w env input frame rest gs) {t : ThreadId} {k : UserFrame}
    {below : List (Frame UserFrame)} (hcore' : core (m'.kernel.stack t) = .client k :: below)
    (hk : k.isBoot = true) : t = 0 ∧ m'.kernel.threadCount = 1 := by
  by_cases ht : t = m.kernel.currentThread
  · subst ht
    have hbefore : ∃ k₀ below₀, core (m.kernel.stack m.kernel.currentThread) =
        .client k₀ :: below₀ ∧ k₀.isBoot = true := by
      rcases hhoused.staged.core_cases hs hat.kernel with ⟨-, hsame⟩ | ⟨-, hcore, hstep⟩
      · exact ⟨k, below, hsame ▸ hcore', hk⟩
      · rw [hcore'] at hstep
        obtain ⟨k₀, rfl, hk₀⟩ := hstep.boot_before hk
        exact ⟨k₀, rest, hcore, hk₀⟩
    obtain ⟨k₀, below₀, hcore, hk₀⟩ := hbefore
    obtain ⟨hzero, hcount⟩ := h.alone _ k₀ below₀ hcore hk₀
    refine ⟨hzero, ?_⟩
    rcases hat.kernel.life with ⟨body, rfl, -⟩ | ⟨-, hsame, -⟩ | ⟨-, -, hsame, -⟩
    · obtain ⟨rv, hreturn⟩ := h.forking m.kernel.currentThread body (by simp [hat.kernel.stack])
      obtain ⟨hhead, -⟩ := List.cons.inj (hcore.symm.trans hreturn)
      rw [Frame.client.inj hhead] at hk₀
      simp [UserFrame.isBoot] at hk₀
    · exact hsame.trans hcount
    · exact hsame.trans hcount
  · rcases hat.kernel.stack_other t ht with hsame | ⟨body, rfl, -, hroot⟩
    · -- the thread that runs would be another one
      rw [hsame] at hcore'
      obtain ⟨hzero, hcount⟩ := h.alone t k below hcore' hk
      have hlt := hs.wellFormed.current_lt
      rw [hcount] at hlt
      exact absurd (hzero.trans (Nat.lt_one_iff.mp hlt).symm) ht
    · have hbody := (hhoused.staged.fork m.kernel.currentThread body
        (by simp [hat.kernel.stack])).2
      rw [hroot, core_root hbody] at hcore'
      obtain ⟨hk', -⟩ := List.cons.inj hcore'
      obtain rfl := Frame.client.inj hk'
      cases body <;> simp [UserFrame.isEntry, UserFrame.isBoot] at hbody hk

/-- A thread is given an address space at the end of the construction in
`StartProcess`, or before it is born. -/
theorem StepAt.hasSpace_kept (hat : StepAt m m' w env input frame rest gs)
    (hs : Orderly m.kernel) {t : ThreadId} (hborn : t < m.kernel.threadCount)
    (hframe : t = m.current → ∀ space, frame ≠ .client (.spaceDone space .startProcess)) :
    m'.hasSpace t = m.hasSpace t := by
  cases hat.tenancy hs with
  | same hhas _ _ _ _ => rw [hhas]
  | moves space hhas _ _ _ =>
      rw [hhas, Function.update_of_ne fun ht => hframe ht space rfl]
  | forks _ _ _ hhas _ _ => rw [hhas, Function.update_of_ne (Nat.ne_of_lt hborn)]

theorem Begun.vacant_step (h : Begun m) (hhoused : Housed m) (hs : Orderly m.kernel)
    (hat : StepAt m m' w env input frame rest gs) {t : ThreadId} {k : UserFrame}
    {below : List (Frame UserFrame)} (hcore' : core (m'.kernel.stack t) = .client k :: below)
    (hk : k.isVacant = true) : m'.hasSpace t = false := by
  by_cases ht : t = m.kernel.currentThread
  · subst ht
    have hkept : (∀ space, frame ≠ .client (.spaceDone space .startProcess)) →
        m.hasSpace m.kernel.currentThread = false →
        m'.hasSpace m.kernel.currentThread = false := by
      intro hframe hvacant
      rw [hat.hasSpace_kept hs hs.wellFormed.current_lt fun _ => hframe]
      exact hvacant
    rcases hhoused.staged.core_client hs hat.kernel hcore' with
      ⟨hsame, hinner⟩ | rfl | ⟨k₀, rs, rfl, hexec, hnew, hcore⟩
    · refine hkept ?_ (h.vacant _ k below hsame hk)
      rintro space rfl
      simp [isInner] at hinner
    · simp [UserFrame.isVacant] at hk
    · obtain ⟨hk₀, hdone⟩ := asks_vacant (userExec_asks hexec) hnew hk
      refine hkept (fun space => ?_) (h.vacant _ k₀ rest hcore hk₀)
      intro habs
      exact hdone space .startProcess (Frame.client.inj habs)
  · rcases hat.kernel.stack_other t ht with hsame | ⟨body, rfl, -, hroot⟩
    · rw [hsame] at hcore'
      rw [hat.hasSpace_kept hs (born_of_core hs hcore') fun hcur => absurd hcur ht]
      exact h.vacant t k below hcore' hk
    · have hbody := (hhoused.staged.fork m.kernel.currentThread body
        (by simp [hat.kernel.stack])).2
      rw [hroot, core_root hbody] at hcore'
      obtain ⟨hk', -⟩ := List.cons.inj hcore'
      obtain rfl := Frame.client.inj hk'
      cases body <;> simp [UserFrame.isEntry, UserFrame.isVacant] at hbody hk

theorem Begun.strangers_step (h : Begun m) (hhoused : Housed m) (hs : Orderly m.kernel)
    (hat : StepAt m m' w env input frame rest gs) {t : ThreadId} {k : UserFrame}
    {below : List (Frame UserFrame)} {space : SpaceId} {built : Bool}
    (hcore' : core (m'.kernel.stack t) = .client k :: below) (hk : k.isCall = true)
    (hcarries : k.carries = some (space, built)) : m'.kernel.client.space t ≠ space := by
  by_cases ht : t = m.kernel.currentThread
  · subst ht
    have hkept : (∀ space, frame ≠ .client (.spaceDone space .startProcess)) →
        m'.kernel.client.space m.kernel.currentThread =
          m.kernel.client.space m.kernel.currentThread := fun hframe =>
      hat.space_kept hs hs.wellFormed.current_lt fun space' habs => absurd habs (hframe space')
    have hcarried' : Userprog.carried (m'.kernel.stack m.kernel.currentThread) =
        some (space, built) := by
      unfold Userprog.carried
      rw [hcore']
      exact hcarries
    have hbefore : ∃ k₀ below₀, core (m.kernel.stack m.kernel.currentThread) =
        .client k₀ :: below₀ ∧ k₀.isCall = true ∧
          ∀ space, frame ≠ .client (.spaceDone space .startProcess) := by
      rcases hhoused.staged.core_cases hs hat.kernel with ⟨hinner, hsame⟩ | ⟨-, hcore, hstep⟩
      · refine ⟨k, below, hsame ▸ hcore', hk, ?_⟩
        rintro space' rfl
        simp [isInner] at hinner
      · rw [hcore'] at hstep
        have hfirst : ∀ call, k ≠ .exceptionHandler call := by
          rintro call rfl
          simp [UserFrame.carries] at hcarries
        obtain ⟨k₀, rfl, hk₀⟩ := hstep.call_before hk hfirst
        refine ⟨k₀, rest, hcore, hk₀, ?_⟩
        intro space' habs
        rw [Frame.client.inj habs] at hk₀
        simp [UserFrame.isCall, UserFrame.isBoot] at hk₀
    obtain ⟨k₀, below₀, hcore, hk₀, hframe⟩ := hbefore
    rw [hkept hframe]
    have hcarried : Userprog.carried (m.kernel.stack m.kernel.currentThread) = k₀.carries := by
      unfold Userprog.carried
      rw [hcore]
    rcases hhoused.carried_before hs hat hcarried' with ⟨built₀, hold⟩ | ⟨-, rfl⟩
    · exact h.strangers _ k₀ below₀ space built₀ hcore hk₀ (hcarried.symm.trans hold)
    · have hstage := hhoused.staged.stage m.kernel.currentThread
      rw [hcore] at hstage
      have hhas := hhoused.resident m.kernel.currentThread
        (Or.inr (Or.inl ⟨k₀, by rw [hcore, hstage.below_call hk₀]⟩))
      exact Nat.ne_of_lt (hhoused.housed _ hhas).1
  · rcases hat.kernel.stack_other t ht with hsame | ⟨body, rfl, -, hroot⟩
    · rw [hsame] at hcore'
      rw [hat.space_kept hs (born_of_core hs hcore') fun _ _ => ht]
      exact h.strangers t k below space built hcore' hk hcarries
    · have hbody := (hhoused.staged.fork m.kernel.currentThread body
        (by simp [hat.kernel.stack])).2
      rw [hroot, core_root hbody] at hcore'
      obtain ⟨hk', -⟩ := List.cons.inj hcore'
      obtain rfl := Frame.client.inj hk'
      exact absurd hbody (by simp [(UserFrame.isCall_cases hk).2.1])

theorem Begun.step (h : Begun m) (hhoused : Housed m) (hs : Orderly m.kernel)
    (hat : StepAt m m' w env input frame rest gs) : Begun m' where
  forking := fun _ _ hmem => h.forking_step hhoused hat hmem
  alone := fun _ _ _ hcore hk => h.alone_step hhoused hs hat hcore hk
  vacant := fun _ _ _ hcore hk => h.vacant_step hhoused hs hat hcore hk
  strangers := fun _ _ _ _ _ hcore hk hcarries =>
    h.strangers_step hhoused hs hat hcore hk hcarries

theorem begun_boot (pid : ThreadId → Int) : Begun (boot pid) := by
  constructor
  case forking =>
    intro t body hmem
    by_cases ht : t = 0
    · simp [boot, userBoot, Kernel.boot, ht] at hmem
    · simp [boot, userBoot, Kernel.boot, ht] at hmem
  case alone =>
    intro t k below hcore hk
    by_cases ht : t = 0
    · exact ⟨ht, rfl⟩
    · simp [boot, userBoot, Kernel.boot, ht, core] at hcore
  case vacant => exact fun _ _ _ _ _ => rfl
  case strangers =>
    intro t k below space built hcore hk
    by_cases ht : t = 0
    · subst ht
      obtain ⟨hhead, -⟩ := List.cons.inj hcore
      rw [← Frame.client.inj hhead] at hk
      simp [UserFrame.isCall, UserFrame.isBoot] at hk
    · simp [boot, userBoot, Kernel.boot, ht, core] at hcore

theorem Reachable.begun (h : m.Reachable) : Begun m := by
  obtain ⟨pid, hrun⟩ := h
  suffices hboth : Housed m ∧ Begun m from hboth.2
  refine hrun.stepAt_invariant (P := fun u => Housed u ∧ Begun u) (orderly_boot pid)
    ⟨housed_boot pid, begun_boot pid⟩ ?_
  rintro u v w env input frame rest gs hu - - hat ⟨hhoused, hbegun⟩
  exact ⟨hhoused.step hu hat, hbegun.step hhoused hu hat⟩

end Begun

section Living

variable {m m' w : System} {env : Environment} {input : Input} {frame : Frame UserFrame}
  {rest gs : List (Frame UserFrame)} {t : ThreadId}

/-- A thread that has an address space keeps it. -/
theorem StepAt.tenant_cases (hat : StepAt m m' w env input frame rest gs)
    (hhoused : Housed m) (hbegun : Begun m) (ht : m.hasSpace t = true) :
    (t = m.current → ∀ space, frame ≠ .client (.spaceDone space .startProcess)) ∧
      (t = m.kernel.threadCount → ∃ body, frame = .call (.threadFork body)) := by
  constructor
  · rintro rfl space rfl
    have hvacant := hbegun.vacant _ _ _ (hat.core_outer rfl) rfl
    rw [ht] at hvacant
    simp at hvacant
  · rintro rfl
    rcases hhoused.born _ ht with hlt | ⟨-, body, htop⟩
    · exact absurd hlt (Nat.lt_irrefl _)
    · exact ⟨body, Option.some.inj (hat.kernel.top.symm.trans htop)⟩

theorem StepAt.tenant_kept (hat : StepAt m m' w env input frame rest gs)
    (hhoused : Housed m) (hbegun : Begun m) (hs : Orderly m.kernel)
    (ht : m.hasSpace t = true) : m'.kernel.client.space t = m.kernel.client.space t := by
  obtain ⟨hcurrent, hunborn⟩ := hat.tenant_cases hhoused hbegun ht
  cases hat.tenancy hs with
  | same _ hspace _ _ _ => rw [hspace]
  | moves space _ hspace _ _ =>
      rw [hspace, Function.update_of_ne fun hcur => hcurrent hcur space rfl]
  | forks _ _ hframe _ hspace _ =>
      rw [hspace, Function.update_of_ne]
      intro hnew
      obtain ⟨body, rfl⟩ := hunborn hnew
      simp at hframe

/-- What a step does to another thread: it may be born. -/
theorem StepAt.leaving_other (hat : StepAt m m' w env input frame rest gs)
    (hhoused : Housed m) (hs : Orderly m.kernel) (ht : t ≠ m.current) :
    Leaving (m'.kernel.stack t) ↔ Leaving (m.kernel.stack t) := by
  rcases hat.kernel.stack_other t ht with hsame | ⟨body, rfl, hcount, hroot⟩
  · rw [hsame]
  · have hbody := (hhoused.staged.fork m.kernel.currentThread body
      (by simp [hat.kernel.stack])).2
    have hempty := hs.wellFormed.unborn t (Nat.le_of_eq hcount.symm)
    refine iff_of_false ?_ ?_
    · exact not_leaving_client (hroot ▸ core_root hbody)
    · rw [hempty]
      exact not_leaving_nil

theorem StepAt.finished_other (hat : StepAt m m' w env input frame rest gs)
    (ht : t ≠ m.current) : m'.kernel.Finished t ↔ m.kernel.Finished t := by
  rcases hat.kernel.life with ⟨_, -, -, hfin⟩ | ⟨-, -, hfin⟩ | ⟨-, -, -, hfin⟩
  · exact hfin t
  · rw [hfin t]
    exact or_iff_left ht
  · exact hfin t

/-- A thread starts to leave in `Exit_Syscall`, or in `StartProcess` when it has
not found its file. -/
theorem StepAt.leaving_current (hat : StepAt m m' w env input frame rest gs)
    (hhoused : Housed m) (hs : Orderly m.kernel)
    (h : Leaving (m'.kernel.stack m.current)) :
    Leaving (m.kernel.stack m.current) ∨ frame = .client .exitBody ∨
      frame = .client .startProcess := by
  rcases hhoused.staged.core_cases hs hat.kernel with ⟨-, hsame⟩ | ⟨-, -, hstep⟩
  · refine Or.inl ?_
    unfold Leaving at h ⊢
    exact (congrArg List.head? hsame).symm.trans h
  · unfold Leaving at h
    rw [show m.current = m.kernel.currentThread from rfl] at h
    generalize core (m'.kernel.stack m.kernel.currentThread) = c at hstep h
    cases hstep with
    | noFile => exact Or.inr (Or.inr rfl)
    | exits => exact Or.inr (Or.inl rfl)
    | _ => simp [userCore] at h

/-- A thread stays live unless it exits. -/
theorem Live.step (h : m.Live t) (hat : StepAt m m' w env input frame rest gs)
    (hhoused : Housed m) (hbegun : Begun m) (hs : Orderly m.kernel)
    (hexit : t = m.current → frame ≠ .client .exitBody) : m'.Live t := by
  obtain ⟨hhas, hfin, hleaving⟩ := h
  refine ⟨(hat.tenancy hs).hasSpace_mono hhas, ?_, ?_⟩
  · rcases hat.kernel.life with ⟨_, -, -, hsame⟩ | ⟨rfl, -, hsame⟩ | ⟨-, -, -, hsame⟩
    · exact fun h => hfin ((hsame t).mp h)
    · intro h
      rcases (hsame t).mp h with hold | rfl
      · exact hfin hold
      · exact hleaving (congrArg List.head? (hat.core_outer rfl))
    · exact fun h => hfin ((hsame t).mp h)
  · by_cases ht : t = m.current
    · subst ht
      intro h
      rcases hat.leaving_current hhoused hs h with hold | hframe | rfl
      · exact hleaving hold
      · exact hexit rfl hframe
      · have hvacant := hbegun.vacant _ _ _ (hat.core_outer rfl) rfl
        rw [hhas] at hvacant
        simp at hvacant
    · rw [hat.leaving_other hhoused hs ht]
      exact hleaving

/-- A thread that is live was so before, unless it has just been given its
address space. -/
theorem Live.before (h : m'.Live t) (hat : StepAt m m' w env input frame rest gs)
    (hhoused : Housed m) (hs : Orderly m.kernel) : m.Live t ∨ m.hasSpace t = false := by
  obtain ⟨-, hfin, hleaving⟩ := h
  cases hhas : m.hasSpace t with
  | false => exact Or.inr rfl
  | true =>
      refine Or.inl ⟨hhas, fun hold => hfin (hat.kernel.finished hold), ?_⟩
      by_cases ht : t = m.current
      · subst ht
        intro hold
        rcases hhoused.staged.core_cases hs hat.kernel with ⟨-, hsame⟩ | ⟨-, hcore, -⟩
        · exact hleaving ((congrArg List.head? hsame).trans hold)
        · -- what is below `Finish` runs no more
          have hhead : some frame = some (.call .threadFinish) :=
            (congrArg List.head? hcore).symm.trans hold
          obtain rfl := Option.some.inj hhead
          rcases hat.kernel.life with ⟨_, habs, -⟩ | ⟨-, -, hsame⟩ | ⟨-, habs, -⟩
          · simp at habs
          · exact hfin ((hsame _).mpr (Or.inr rfl))
          · exact habs rfl
      · rw [← hat.leaving_other hhoused hs ht]
        exact hleaving

/-- A thread that is about to be born is live as soon as it has an address space. -/
theorem live_unborn (hhoused : Housed m) (hs : Orderly m.kernel)
    (hat : StepAt m m' w env input frame rest gs)
    (hhas : m'.hasSpace m.kernel.threadCount = true) : m'.Live m.kernel.threadCount := by
  have hne : m.kernel.threadCount ≠ m.current := Nat.ne_of_gt hs.wellFormed.current_lt
  refine ⟨hhas, ?_, ?_⟩
  · rw [hat.finished_other hne]
    exact fun hfin => Nat.lt_irrefl _ (hs.wellFormed.finished_born hfin)
  · rw [hat.leaving_other hhoused hs hne, hs.wellFormed.unborn _ (Nat.le_refl _)]
    exact not_leaving_nil

/-- A thread that exits is live no more. -/
theorem not_live_exited (hat : StepAt m m' w env input (.client .exitBody) rest gs)
    (hs : Orderly m.kernel) : ¬ m'.Live m.current := by
  rintro ⟨-, -, hleaving⟩
  refine hleaving ?_
  unfold Leaving
  rw [current, hat.kernel.stack_self]
  rcases stepAt_cases hat.kernel with ⟨k, rs, hk, hexec, rfl⟩ | ⟨hclient, -⟩
  · obtain rfl := Frame.client.inj hk
    have hprocess : ProcessEffect m.kernel.pop .exitBody m'.kernel.client rs :=
      userExec_process hexec hs.sane.process_size
    generalize m'.kernel.client = state at hprocess
    cases hprocess with
    | other habs _ => simp [UserFrame.isProcess] at habs
    | constructs habs => simp at habs
    | lastExits p hp hlast => rfl
    | exits p hp hlast => rfl
  · exact absurd rfl (hclient _)

end Living

end System

end Userprog
end Nachos
