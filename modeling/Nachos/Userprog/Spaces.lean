import Nachos.Userprog.ProcessSteps
import Nachos.Userprog.SystemSteps

/-!
# Address spaces and their threads

An address space is constructed once, by `StartProcess` or by `Exec_Syscall`.
Until its first thread has been forked the program point of the constructing call
carries it, and afterwards its threads have it in their field `space`.  `Housed`
says that no space is carried twice, that a carried space has no thread yet, and
that a thread never has a space that is not constructed.
-/

namespace Nachos
namespace Userprog

open Threads Lib

/-- The address space a program point carries, and whether it is constructed. -/
def UserFrame.carries : UserFrame → Option (SpaceId × Bool)
  | .spacePut space _ _ => some (space, false)
  | .spaceDone space _ => some (space, false)
  | .processFind space _ => some (space, true)
  | .processStore space _ _ => some (space, true)
  | .execFork space _ => some (space, true)
  | _ => none

/-- The address space `StartProcess` has given its own thread. -/
def UserFrame.settles : UserFrame → Option SpaceId
  | .processFind space .startProcess => some space
  | .processStore space _ .startProcess => some space
  | _ => none

/-- The address space a thread is about to give its first thread. -/
def carried (stack : List (Frame UserFrame)) : Option (SpaceId × Bool) :=
  match core stack with
  | .client k :: _ => k.carries
  | _ => none

section Carried

variable {choice : Choice Input} {s s' : UserKernel} {frame : Frame UserFrame}
  {rest gs : List (Frame UserFrame)} {rs : List (Request UserFrame)}

theorem carried_of_core {stack stack' : List (Frame UserFrame)} (h : core stack' = core stack) :
    carried stack' = carried stack := by
  unfold carried
  rw [h]

/-- What the program points ask for carries what they carry, or a new space. -/
theorem asks_carries {k k' : UserFrame} (hasks : k.Asks s rs) (hk' : .client k' ∈ rs) :
    k'.carries = none ∨
      (k'.carries = k.carries ∧ (∀ space use, k ≠ .spaceDone space use) ∧
        ∀ space processID, k ≠ .execFork space processID) ∨
      ((k = .startProcess ∨ k = .execBody) ∧
        k'.carries = some (s.client.nextSpace, false)) ∨
      ∃ space use, k = .spaceDone space use ∧ k'.carries = some (space, true) := by
  cases k with
  | oneInstruction =>
      rcases hasks with rfl | rfl | ⟨call, rfl⟩
      · obtain rfl : k' = .oneInstruction := by simpa using hk'
        exact Or.inl rfl
      · simp at hk'
      · have hcases : k' = .exceptionHandler call ∨ k' = .oneInstruction := by simpa using hk'
        rcases hcases with rfl | rfl
        · exact Or.inl rfl
        · exact Or.inl rfl
  | exceptionHandler call =>
      rcases hasks with rfl | ⟨rv, rfl⟩ | rfl | ⟨g, k'', hcall, rfl⟩
      · simp at hk'
      · obtain rfl : k' = .sysReturn rv := by simpa using hk'
        exact Or.inl rfl
      · obtain rfl : k' = .sysReturn 0 := by simpa using hk'
        exact Or.inl rfl
      · obtain rfl : k' = k'' := by simpa using hk'
        refine Or.inl ?_
        cases call <;>
          simp only [Syscall.enters, Option.some.injEq, Prod.mk.injEq, reduceCtorEq] at hcall
        all_goals
          obtain ⟨-, rfl⟩ := hcall
          rfl
  | spacePut space more use =>
      rcases hasks with ⟨-, rfl⟩ | ⟨m, -, rfl⟩
      · obtain rfl : k' = .spaceDone space use := by simpa using hk'
        exact Or.inr (Or.inl ⟨rfl, by simp, by simp⟩)
      · obtain rfl : k' = .spacePut space m use := by simpa using hk'
        exact Or.inr (Or.inl ⟨rfl, by simp, by simp⟩)
  | _ => simp only [UserFrame.Asks] at hasks; grind [UserFrame.carries]

/-- A new address space has a name of its own. -/
theorem nextSpace_of_asks {input : Input} {state : Userland} {k k' : UserFrame}
    (h : userExec input k s = .ok (state, rs)) (hsize : 1 < s.client.processTable.size)
    (hk : k = .startProcess ∨ k = .execBody) (hk' : .client k' ∈ rs) :
    state.nextSpace = s.client.nextSpace + 1 := by
  cases userExec_process h hsize with
  | other hother _ =>
      rcases hk with rfl | rfl
      · exact absurd hother (by simp [UserFrame.isProcess])
      · exact absurd hother (by simp [UserFrame.isProcess])
  | noFile => exact absurd hk' (by simp)
  | constructs _ _ _ _ hnext => exact hnext
  | _ => simp at hk

/-- What becomes of the space a thread carries. -/
theorem carried_step (h : Staged s) (hs : Orderly s)
    (hat : Kernel.StepAt userClient choice s s' frame rest gs) :
    carried (s'.stack s.currentThread) = none ∨
      (carried (s'.stack s.currentThread) = carried (s.stack s.currentThread) ∧
        (∀ space use, frame ≠ .client (.spaceDone space use)) ∧
        ∀ space processID, frame ≠ .client (.execFork space processID)) ∨
      ((frame = .client .startProcess ∨ frame = .client .execBody) ∧
        s'.client.nextSpace = s.client.nextSpace + 1 ∧
        carried (s'.stack s.currentThread) = some (s.client.nextSpace, false)) ∨
      ∃ space use, frame = .client (.spaceDone space use) ∧
        carried (s.stack s.currentThread) = some (space, false) ∧
        carried (s'.stack s.currentThread) = some (space, true) := by
  cases hcore' : core (s'.stack s.currentThread) with
  | nil => exact Or.inl (by simp [carried, hcore'])
  | cons f below =>
      cases f with
      | client k' =>
          have hcarried : carried (s'.stack s.currentThread) = k'.carries := by
            simp [carried, hcore']
          rw [hcarried]
          rcases h.core_client hs hat hcore' with
            ⟨hsame, hinner⟩ | rfl | ⟨k, rs, rfl, hexec, hnew, hcore⟩
          · refine Or.inr (Or.inl ⟨by simp [carried, hsame], ?_, ?_⟩)
            · rintro space use rfl
              exact absurd hinner (by simp [isInner])
            · rintro space processID rfl
              exact absurd hinner (by simp [isInner])
          · exact Or.inl rfl
          · have hbefore : carried (s.stack s.currentThread) = k.carries := by
              simp [carried, hcore]
            rw [hbefore]
            rcases asks_carries (userExec_asks hexec) hnew with
              hnone | ⟨hsame, hdone, hfork⟩ | ⟨hk, hnext⟩ | ⟨space, use, rfl, hdone⟩
            · exact Or.inl hnone
            · exact Or.inr (Or.inl ⟨hsame, by simpa using hdone, by simpa using hfork⟩)
            · refine Or.inr (Or.inr (Or.inl ⟨by simpa using hk, ?_, hnext⟩))
              exact nextSpace_of_asks hexec hs.sane.process_size hk hnew
            · exact Or.inr (Or.inr (Or.inr ⟨space, use, rfl, rfl, hdone⟩))
      | _ => exact Or.inl (by simp [carried, hcore'])

end Carried

/-- The address space before any of its pages has been used. -/
def AddrSpace.unused (space : AddrSpace) : AddrSpace :=
  { space with pageTable := layout space.pageTable }

namespace System

section Effects

variable {m m' w : System} {env : Environment} {input : Input} {frame : Frame UserFrame}
  {rest gs : List (Frame UserFrame)}

/-- `Scheduler::Run` changes registers and the page table the machine points to. -/
theorem schedule_eq (m : System) (frame : Frame UserFrame) :
    ∃ cpu userRegisters,
      m.schedule frame = { m with cpu := cpu, userRegisters := userRegisters } := by
  cases frame with
  | call op =>
      cases op with
      | threadYield =>
          simp only [schedule, schedule.save]
          repeat' split
          all_goals exact ⟨_, _, rfl⟩
      | _ => exact ⟨_, _, rfl⟩
  | sleepLoop =>
      simp only [schedule, schedule.save]
      repeat' split
      all_goals exact ⟨_, _, rfl⟩
  | afterSwitch =>
      simp only [schedule]
      split
      · exact ⟨_, _, rfl⟩
      · exact ⟨_, _, rfl⟩
  | _ => exact ⟨_, _, rfl⟩

/-- What user code does to the page tables: it uses pages. -/
theorem install_unused {machine : Machine} (h : Machine.Confined m.machine machine)
    (space : SpaceId) :
    ((m.install machine).addrSpace space).map AddrSpace.unused =
      (m.addrSpace space).map AddrSpace.unused := by
  have htable := h.table
  simp only [install, setPageTable, System.machine] at htable ⊢
  cases hspace : m.cpu.pageTable with
  | none => rfl
  | some current =>
      cases hentries : machine.pageTable with
      | none => rfl
      | some entries =>
          simp only
          by_cases hsame : space = current
          · subst hsame
            rw [Function.update_self]
            cases hloaded : m.addrSpace space with
            | none => rfl
            | some loaded =>
                simp only [hspace, Option.bind_some, hloaded, Option.map_some, hentries,
                  Option.some.injEq] at htable
                simp [AddrSpace.unused, htable]
          · rw [Function.update_of_ne hsame]

/-- The address spaces and the map of frames, up to the use of pages. -/
structure SameSpaces (m m' : System) : Prop where
  memMap : m'.memMap = m.memMap
  addrSpace : ∀ space, (m'.addrSpace space).map AddrSpace.unused =
    (m.addrSpace space).map AddrSpace.unused

theorem SameSpaces.of_eq (hmap : m'.memMap = m.memMap) (haddr : m'.addrSpace = m.addrSpace) :
    SameSpaces m m' :=
  ⟨hmap, fun space => by rw [haddr]⟩

/-- An address space is constructed in one place. -/
theorem Effect.spaces (h : Effect m env frame w input) :
    (SameSpaces m w ∧ ∀ space use, frame ≠ .client (.spaceDone space use)) ∨
    ∃ space use built, frame = .client (.spaceDone space use) ∧
      AddrSpace.load env.executable env.garbage m.memMap m.mainMemory =
        .ok (built, w.memMap, w.mainMemory) ∧
      w.addrSpace = Function.update m.addrSpace space (some built) := by
  cases h with
  | quiet hquiet =>
      refine Or.inl ⟨.of_eq rfl rfl, ?_⟩
      rintro space use rfl
      exact hquiet
  | instruction hended =>
      exact Or.inl ⟨⟨rfl, install_unused hended.confined⟩, by simp⟩
  | entered harguments hfound hcopied hbad =>
      refine Or.inl ⟨⟨rfl, ?_⟩, by simp⟩
      exact install_unused (m := { m with
        arguments := _
        found := _
        nextFile := _ }) hcopied.confined
  | returned rv => exact Or.inl ⟨.of_eq rfl rfl, by simp⟩
  | printed hcopied => exact Or.inl ⟨⟨rfl, install_unused hcopied.confined⟩, by simp⟩
  | flushed hframe hflushed =>
      refine Or.inl ⟨.of_eq rfl rfl, ?_⟩
      rintro space use rfl
      simp at hframe
  | stored hi => exact Or.inl ⟨.of_eq rfl rfl, by simp⟩
  | closed fd => exact Or.inl ⟨.of_eq rfl rfl, by simp⟩
  | @loaded space use built memMap mainMemory hload =>
      exact Or.inr ⟨space, use, built, rfl, hload, rfl⟩
  | started hframe =>
      refine Or.inl ⟨?_, ?_⟩
      · unfold startProgram
        split
        · exact .of_eq rfl rfl
        · exact .of_eq rfl rfl
      · rintro space use rfl
        simp at hframe
  | ranForked => exact Or.inl ⟨.of_eq rfl rfl, by simp⟩
  | execForked => exact Or.inl ⟨.of_eq rfl rfl, by simp⟩
  | forked hp => exact Or.inl ⟨.of_eq rfl rfl, by simp⟩
  | released hend => exact Or.inl ⟨.of_eq rfl rfl, by simp⟩

/-- What a step does to the address spaces. -/
theorem StepAt.spaces (hat : StepAt m m' w env input frame rest gs) :
    (SameSpaces m m' ∧ ∀ space use, frame ≠ .client (.spaceDone space use)) ∨
    ∃ space use built, frame = .client (.spaceDone space use) ∧
      AddrSpace.load env.executable env.garbage m.memMap m.mainMemory =
        .ok (built, m'.memMap, m'.mainMemory) ∧
      m'.addrSpace = Function.update m.addrSpace space (some built) := by
  obtain ⟨cpu, userRegisters, hschedule⟩ := schedule_eq m frame
  have heffect := hat.effect
  rw [hschedule] at heffect
  rw [hat.after]
  rcases heffect.spaces with ⟨hsame, hframe⟩ | ⟨space, use, built, hframe, hload, haddr⟩
  · exact Or.inl ⟨⟨hsame.memMap, hsame.addrSpace⟩, hframe⟩
  · exact Or.inr ⟨space, use, built, hframe, hload, haddr⟩

/-- What a step does to the fields `space` of threads. -/
inductive Tenancy (m m' : System) : Frame UserFrame → List (Frame UserFrame) → Prop
  | same {frame : Frame UserFrame} {gs : List (Frame UserFrame)}
      (hhas : m'.hasSpace = m.hasSpace)
      (hspace : m'.kernel.client.space = m.kernel.client.space)
      (hnext : m.kernel.client.nextSpace ≤ m'.kernel.client.nextSpace)
      (hframe : ∀ space, frame ≠ .client (.spaceDone space .startProcess))
      (hgs : ∀ body, .call (.threadFork body) ∉ gs) : Tenancy m m' frame gs
  | moves (space : SpaceId) {gs : List (Frame UserFrame)}
      (hhas : m'.hasSpace = Function.update m.hasSpace m.current true)
      (hspace : m'.kernel.client.space =
        Function.update m.kernel.client.space m.current space)
      (hnext : m'.kernel.client.nextSpace = m.kernel.client.nextSpace)
      (hgs : ∀ body, .call (.threadFork body) ∉ gs) :
      Tenancy m m' (.client (.spaceDone space .startProcess)) gs
  | forks {frame : Frame UserFrame} {space : SpaceId} (body : UserFrame)
      (later : List (Frame UserFrame))
      (hframe : (∃ processID, frame = .client (.execFork space processID)) ∨
        frame = .client .forkBody ∧ space = m.currentSpace)
      (hhas : m'.hasSpace = Function.update m.hasSpace m.kernel.threadCount true)
      (hspace : m'.kernel.client.space =
        Function.update m.kernel.client.space m.kernel.threadCount space)
      (hnext : m'.kernel.client.nextSpace = m.kernel.client.nextSpace) :
      Tenancy m m' frame (.call (.threadFork body) :: later)

/-- Only the forks and the end of `StartProcess` give a thread an address space. -/
theorem Effect.hasSpace_same (h : Effect m env frame w input)
    (hdone : ∀ space, frame ≠ .client (.spaceDone space .startProcess))
    (hexec : ∀ space processID, frame ≠ .client (.execFork space processID))
    (hfork : frame = .client .forkBody →
      m.kernel.client.processTable.get (m.kernel.client.pid m.current) = none) :
    w.hasSpace = m.hasSpace := by
  cases h with
  | @loaded space use built memMap mainMemory hload =>
      cases use with
      | exec => rfl
      | startProcess => exact absurd rfl (hdone space)
  | started hframe =>
      unfold startProgram
      split
      · rfl
      · rfl
  | @execForked space processID => exact absurd rfl (hexec space processID)
  | forked hp => exact absurd (hfork rfl) (by simp [hp])
  | _ => rfl

/-- The input of a step that constructs an address space says so. -/
theorem Effect.outcome (h : Effect m env frame w input) : input.outcome = .constructed := by
  cases h with
  | _ => rfl

theorem StepAt.tenancy (hat : StepAt m m' w env input frame rest gs)
    (hs : Orderly m.kernel) : Tenancy m m' frame gs := by
  obtain ⟨cpu, userRegisters, hschedule⟩ := schedule_eq m frame
  have heffect := hat.effect
  rw [hschedule] at heffect
  have hhas : m'.hasSpace = w.hasSpace := by rw [hat.after]
  rcases stepAt_cases hat.kernel with ⟨k, rs, rfl, hexec, rfl⟩ | ⟨hclient, hsame⟩
  · have hprocess : ProcessEffect m.kernel.pop k m'.kernel.client rs :=
      userExec_process hexec hs.sane.process_size
    have hasks : k.Asks m.kernel.pop rs := userExec_asks hexec
    have hsame : m'.kernel.client.space = m.kernel.client.space →
        m.kernel.client.nextSpace ≤ m'.kernel.client.nextSpace →
        (∀ space, k ≠ .spaceDone space .startProcess) →
        (∀ space processID, k ≠ .execFork space processID) →
        (k = .forkBody → rs = [.client (.sysReturn 0)] ∧
          m.kernel.client.processTable.get (m.kernel.client.pid m.current) = none) →
        Tenancy m m' (.client k) (rs.map Request.frame) := by
      intro hspace hnext hdone hfork hbody
      refine .same ?_ hspace hnext (by simpa using hdone) ?_
      · exact hhas.trans (heffect.hasSpace_same (by simpa using hdone) (by simpa using hfork)
          fun h => (hbody (Frame.client.inj h)).2)
      · intro body hmem
        obtain ⟨⟨space, processID, hk⟩ | hk, -⟩ := asks_fork hasks (fork_mem_asks hmem)
        · exact hfork space processID hk
        · rw [(hbody hk).1] at hmem
          simp [Request.frame] at hmem
    generalize hstate : m'.kernel.client = state at hprocess hsame
    cases hprocess with
    | other hk hfields =>
        refine hsame hfields.space (Nat.le_of_eq hfields.nextSpace.symm) ?_ ?_ ?_
        · rintro space rfl
          simp [UserFrame.isProcess] at hk
        · rintro space processID rfl
          simp [UserFrame.isProcess] at hk
        · rintro rfl
          simp [UserFrame.isProcess] at hk
    | noFile => exact hsame rfl (Nat.le_refl _) (by simp) (by simp) (by simp)
    | constructs hk hprocessTable hspace hpid hnext =>
        refine hsame hspace (hnext ▸ Nat.le_succ _) ?_ ?_ ?_
        · rcases hk with ⟨rfl, -⟩ | ⟨rfl, -⟩ <;> simp
        · rcases hk with ⟨rfl, -⟩ | ⟨rfl, -⟩ <;> simp
        · rcases hk with ⟨rfl, -⟩ | ⟨rfl, -⟩ <;> simp
    | noPages space use =>
        have houtcome : input.outcome = .constructed := heffect.outcome
        simp only [userExec, spaceDone, houtcome, Except.ok.injEq, Prod.mk.injEq] at hexec
        exact absurd hexec.2 (by simp)
    | constructed space use =>
        cases use with
        | exec => exact hsame rfl (Nat.le_refl _) (by simp) (by simp) (by simp)
        | startProcess =>
            refine .moves space ?_ (hstate ▸ rfl) (hstate ▸ rfl) (by simp [Request.frame])
            rw [hhas]
            cases heffect with
            | quiet hquiet => exact hquiet.elim
            | loaded hload => rfl
            | flushed hframe _ => simp at hframe
            | started hframe => simp at hframe
    | found space use => exact hsame rfl (Nat.le_refl _) (by simp) (by simp) (by simp)
    | stored space i use hrs => exact hsame rfl (Nat.le_refl _) (by simp) (by simp) (by simp)
    | execForked space processID =>
        refine .forks .newProcess _ (Or.inl ⟨processID, rfl⟩) ?_ (hstate ▸ rfl) (hstate ▸ rfl)
        rw [hhas]
        cases heffect with
        | quiet hquiet => exact hquiet.elim
        | execForked => rfl
        | flushed hframe _ => simp at hframe
        | started hframe => simp at hframe
    | notFound hnone =>
        exact hsame rfl (Nat.le_refl _) (by simp) (by simp) fun _ => ⟨rfl, hnone⟩
    | forked p hp =>
        refine .forks .kernelRun _ (Or.inr ⟨rfl, rfl⟩) ?_ (hstate ▸ rfl) (hstate ▸ rfl)
        rw [hhas]
        cases heffect with
        | quiet hquiet => exact absurd (hquiet.symm.trans hp) (by simp)
        | forked hp' => rfl
        | flushed hframe _ => simp at hframe
        | started hframe => simp at hframe
    | lastExits p hp hlast => exact hsame rfl (Nat.le_refl _) (by simp) (by simp) (by simp)
    | exits p hp hlast => exact hsame rfl (Nat.le_refl _) (by simp) (by simp) (by simp)
    | removed processID => exact hsame rfl (Nat.le_refl _) (by simp) (by simp) (by simp)
  · refine .same ?_ (hsame ▸ rfl) (Nat.le_of_eq (hsame ▸ rfl)) (fun space => hclient _)
      fun body => pushes_noFork hat.kernel.pushes hclient
    exact hhas.trans (heffect.hasSpace_same (fun _ => hclient _) (fun _ _ => hclient _)
      fun h => absurd h (hclient _))

end Effects

/-- The cores of threads that run a user program, or are about to. -/
def Resident (c : List (Frame UserFrame)) : Prop :=
  c = userCore ∨ (∃ k, c = .client k :: userLoop) ∨ c = .call .threadFinish :: userLoop ∨
    ∃ k : UserFrame, k.isEntry = true ∧ c = [.client k, .call .threadFinish]

/-- Where the address spaces are and who lives in them. -/
structure Housed (m : System) : Prop where
  staged : Staged m.kernel
  fresh : ∀ space, m.kernel.client.nextSpace ≤ space → m.addrSpace space = none
  carried : ∀ t space built, carried (m.kernel.stack t) = some (space, built) →
    space < m.kernel.client.nextSpace ∧ (m.addrSpace space).isSome = built
  carrier : ∀ t t' space built built', Userprog.carried (m.kernel.stack t) = some (space, built) →
    Userprog.carried (m.kernel.stack t') = some (space, built') → t = t'
  housed : ∀ t, m.hasSpace t = true → m.kernel.client.space t < m.kernel.client.nextSpace ∧
    (m.addrSpace (m.kernel.client.space t)).isSome = true
  alone : ∀ t t' space built, Userprog.carried (m.kernel.stack t) = some (space, built) →
    m.hasSpace t' = true → m.kernel.client.space t' = space → t' = t
  born : ∀ t, m.hasSpace t = true → t < m.kernel.threadCount ∨
    t = m.kernel.threadCount ∧ ∃ body, m.kernel.top = some (.call (.threadFork body))
  resident : ∀ t, Resident (core (m.kernel.stack t)) → m.hasSpace t = true
  settled : ∀ t k below space, core (m.kernel.stack t) = .client k :: below →
    k.settles = some space → m.hasSpace t = true ∧ m.kernel.client.space t = space
  expected : ∀ body, m.kernel.top = some (.call (.threadFork body)) →
    m.hasSpace m.kernel.threadCount = true

section Housing

variable {m m' w : System} {env : Environment} {input : Input} {frame : Frame UserFrame}
  {rest gs : List (Frame UserFrame)}

theorem SameSpaces.isSome (h : SameSpaces m m') (space : SpaceId) :
    (m'.addrSpace space).isSome = (m.addrSpace space).isSome := by
  have hsome := congrArg Option.isSome (h.addrSpace space)
  simpa using hsome

/-- Where a space that is carried after a step comes from. -/
theorem Housed.carried_cases (h : Housed m) (hs : Orderly m.kernel)
    (hat : StepAt m m' w env input frame rest gs) {t : ThreadId} {space : SpaceId} {built : Bool}
    (hcarried : Userprog.carried (m'.kernel.stack t) = some (space, built)) :
    (Userprog.carried (m.kernel.stack t) = some (space, built) ∧
      (t = m.current → (∀ space use, frame ≠ .client (.spaceDone space use)) ∧
        ∀ space processID, frame ≠ .client (.execFork space processID))) ∨
    (t = m.current ∧ (frame = .client .startProcess ∨ frame = .client .execBody) ∧
      m'.kernel.client.nextSpace = m.kernel.client.nextSpace + 1 ∧
      space = m.kernel.client.nextSpace ∧ built = false) ∨
    (t = m.current ∧ ∃ use, frame = .client (.spaceDone space use) ∧
      Userprog.carried (m.kernel.stack t) = some (space, false) ∧ built = true) := by
  by_cases ht : t = m.kernel.currentThread
  · subst ht
    rcases carried_step h.staged hs hat.kernel with
      hnone | ⟨hsame, hframe⟩ | ⟨hframe, hnew, hnext⟩ | ⟨space', use, hframe, hbefore, hafter⟩
    · exact absurd (hnone.symm.trans hcarried) (by simp)
    · exact Or.inl ⟨hsame.symm.trans hcarried, fun _ => hframe⟩
    · have heq := hnext.symm.trans hcarried
      simp only [Option.some.injEq, Prod.mk.injEq] at heq
      exact Or.inr (Or.inl ⟨rfl, hframe, hnew, heq.1.symm, heq.2.symm⟩)
    · have heq := hafter.symm.trans hcarried
      simp only [Option.some.injEq, Prod.mk.injEq] at heq
      obtain ⟨rfl, rfl⟩ := heq
      exact Or.inr (Or.inr ⟨rfl, use, hframe, hbefore, rfl⟩)
  · rcases hat.kernel.stack_other t ht with hsame | ⟨body, rfl, -, hroot⟩
    · exact Or.inl ⟨hsame ▸ hcarried, fun hcur => absurd hcur ht⟩
    · have hbody := (h.staged.fork m.kernel.currentThread body (by simp [hat.kernel.stack])).2
      rw [hroot, Userprog.carried, core_root hbody] at hcarried
      cases body with
      | newProcess => exact absurd hcarried (by simp [UserFrame.carries])
      | kernelRun => exact absurd hcarried (by simp [UserFrame.carries])
      | _ => exact absurd hbody (by simp [UserFrame.isEntry])

/-- The core of the thread that runs one of its own program points. -/
theorem StepAt.core_outer (hat : StepAt m m' w env input frame rest gs)
    (hframe : isInner frame = false) : core (m.kernel.stack m.current) = frame :: rest := by
  rw [current, hat.kernel.stack, core_cons_outer hframe]

theorem StepAt.carried_top {k : UserFrame} (hat : StepAt m m' w env input (.client k) rest gs)
    (hframe : isInner (.client k) = false) :
    Userprog.carried (m.kernel.stack m.current) = k.carries := by
  unfold Userprog.carried
  rw [hat.core_outer hframe]

theorem Tenancy.nextSpace_le (h : Tenancy m m' frame gs) :
    m.kernel.client.nextSpace ≤ m'.kernel.client.nextSpace := by
  cases h with
  | same _ _ hnext _ _ => exact hnext
  | moves _ _ _ hnext _ => exact Nat.le_of_eq hnext.symm
  | forks _ _ _ _ _ hnext => exact Nat.le_of_eq hnext.symm

/-- A thread keeps its address space. -/
theorem Tenancy.hasSpace_mono (h : Tenancy m m' frame gs) {t : ThreadId}
    (ht : m.hasSpace t = true) : m'.hasSpace t = true := by
  cases h with
  | same hhas _ _ _ _ => rw [hhas]; exact ht
  | moves _ hhas _ _ _ =>
      rw [hhas]
      by_cases hcur : t = m.current
      · rw [hcur, Function.update_self]
      · rw [Function.update_of_ne hcur]
        exact ht
  | forks _ _ _ hhas _ _ =>
      rw [hhas]
      by_cases hnew : t = m.kernel.threadCount
      · rw [hnew, Function.update_self]
      · rw [Function.update_of_ne hnew]
        exact ht

/-- A constructed address space stays. -/
theorem StepAt.isSome_mono (hat : StepAt m m' w env input frame rest gs) {space : SpaceId}
    (h : (m.addrSpace space).isSome = true) : (m'.addrSpace space).isSome = true := by
  rcases hat.spaces with ⟨hsame, -⟩ | ⟨space', use, built, -, -, haddr⟩
  · rw [hsame.isSome]
    exact h
  · rw [haddr]
    by_cases heq : space = space'
    · rw [heq, Function.update_self]
      rfl
    · rw [Function.update_of_ne heq]
      exact h

/-- A space that is carried was carried before, or is new. -/
theorem Housed.carried_before (h : Housed m) (hs : Orderly m.kernel)
    (hat : StepAt m m' w env input frame rest gs) {t : ThreadId} {space : SpaceId} {built : Bool}
    (hcarried : Userprog.carried (m'.kernel.stack t) = some (space, built)) :
    (∃ before, Userprog.carried (m.kernel.stack t) = some (space, before)) ∨
      t = m.current ∧ space = m.kernel.client.nextSpace := by
  rcases h.carried_cases hs hat hcarried with ⟨hold, -⟩ | ⟨ht, -, -, hnew, -⟩ | ⟨-, _, -, hold, -⟩
  · exact Or.inl ⟨built, hold⟩
  · exact Or.inr ⟨ht, hnew⟩
  · exact Or.inl ⟨false, hold⟩

theorem Housed.fresh_step (h : Housed m) (hs : Orderly m.kernel)
    (hat : StepAt m m' w env input frame rest gs) {space : SpaceId}
    (hspace : m'.kernel.client.nextSpace ≤ space) : m'.addrSpace space = none := by
  have hle := Nat.le_trans (hat.tenancy hs).nextSpace_le hspace
  have hnone := h.fresh space hle
  rcases hat.spaces with ⟨hsame, -⟩ | ⟨space', use, built, rfl, -, haddr⟩
  · have hsome := hsame.isSome space
    rw [hnone] at hsome
    simpa using hsome
  · have hlt := (h.carried m.current space' false (hat.carried_top rfl)).1
    rw [haddr, Function.update_of_ne (Nat.ne_of_gt (Nat.lt_of_lt_of_le hlt hle))]
    exact hnone

theorem Housed.built_step (h : Housed m) (hs : Orderly m.kernel)
    (hat : StepAt m m' w env input frame rest gs) {t : ThreadId} {space : SpaceId} {built : Bool}
    (hcarried : Userprog.carried (m'.kernel.stack t) = some (space, built)) :
    space < m'.kernel.client.nextSpace ∧ (m'.addrSpace space).isSome = built := by
  have hle := (hat.tenancy hs).nextSpace_le
  rcases h.carried_cases hs hat hcarried with
    ⟨hold, hframe⟩ | ⟨rfl, hframe, hnext, rfl, rfl⟩ | ⟨rfl, use, rfl, hold, rfl⟩
  · obtain ⟨hlt, hbuilt⟩ := h.carried t space built hold
    refine ⟨Nat.lt_of_lt_of_le hlt hle, ?_⟩
    rcases hat.spaces with ⟨hsame, -⟩ | ⟨space', use, loaded, rfl, -, haddr⟩
    · rw [hsame.isSome]
      exact hbuilt
    · have hne : t ≠ m.current := fun hcur => (hframe hcur).1 space' use rfl
      have hother : space ≠ space' := by
        rintro rfl
        exact hne (h.carrier t m.current space _ _ hold (hat.carried_top rfl))
      rw [haddr, Function.update_of_ne hother]
      exact hbuilt
  · refine ⟨hnext ▸ Nat.lt_succ_self _, ?_⟩
    rcases hat.spaces with ⟨hsame, -⟩ | ⟨space', use, loaded, rfl, -, -⟩
    · rw [hsame.isSome, h.fresh _ (Nat.le_refl _)]
      rfl
    · simp at hframe
  · refine ⟨Nat.lt_of_lt_of_le (h.carried _ _ _ hold).1 hle, ?_⟩
    rcases hat.spaces with ⟨-, hframe⟩ | ⟨space', use', loaded, hframe, -, haddr⟩
    · exact absurd rfl (hframe space use)
    · obtain ⟨rfl, -⟩ := UserFrame.spaceDone.inj (Frame.client.inj hframe)
      rw [haddr, Function.update_self]
      rfl

theorem Housed.carrier_step (h : Housed m) (hs : Orderly m.kernel)
    (hat : StepAt m m' w env input frame rest gs) {t t' : ThreadId} {space : SpaceId}
    {built built' : Bool}
    (ht : Userprog.carried (m'.kernel.stack t) = some (space, built))
    (ht' : Userprog.carried (m'.kernel.stack t') = some (space, built')) : t = t' := by
  rcases h.carried_before hs hat ht with ⟨b, hold⟩ | ⟨hcur, hnew⟩
  · rcases h.carried_before hs hat ht' with ⟨b', hold'⟩ | ⟨-, hnew'⟩
    · exact h.carrier t t' space b b' hold hold'
    · exact absurd ((h.carried t space b hold).1) (hnew' ▸ Nat.lt_irrefl _)
  · rcases h.carried_before hs hat ht' with ⟨b', hold'⟩ | ⟨hcur', -⟩
    · exact absurd ((h.carried t' space b' hold').1) (hnew ▸ Nat.lt_irrefl _)
    · exact hcur.trans hcur'.symm

/-- A thread that calls `Fork` has an address space. -/
theorem Housed.caller (h : Housed m) {k : UserFrame} (hk : k.isCall = true)
    (hat : StepAt m m' w env input (.client k) rest gs) : m.hasSpace m.current = true := by
  have hcore := hat.core_outer (isInner_of_isCall hk)
  have hstage := h.staged.stage m.current
  rw [hcore] at hstage
  exact h.resident m.current (Or.inr (Or.inl ⟨k, hcore.trans (by rw [hstage.below_call hk])⟩))

/-- The space a new thread gets is constructed. -/
theorem Housed.forked_space (h : Housed m) (hat : StepAt m m' w env input frame rest gs)
    {space : SpaceId} (hframe : (∃ processID, frame = .client (.execFork space processID)) ∨
      frame = .client .forkBody ∧ space = m.currentSpace) :
    space < m.kernel.client.nextSpace ∧ (m.addrSpace space).isSome = true := by
  rcases hframe with ⟨processID, rfl⟩ | ⟨rfl, rfl⟩
  · exact h.carried m.current space true (hat.carried_top rfl)
  · exact h.housed m.current (h.caller rfl hat)

theorem Housed.housed_step (h : Housed m) (hs : Orderly m.kernel)
    (hat : StepAt m m' w env input frame rest gs) {t : ThreadId} (ht : m'.hasSpace t = true) :
    m'.kernel.client.space t < m'.kernel.client.nextSpace ∧
      (m'.addrSpace (m'.kernel.client.space t)).isSome = true := by
  have htenancy := hat.tenancy hs
  have hle := htenancy.nextSpace_le
  cases htenancy with
  | same hhas hspace _ _ _ =>
      rw [hhas] at ht
      obtain ⟨hlt, hsome⟩ := h.housed t ht
      rw [hspace]
      exact ⟨Nat.lt_of_lt_of_le hlt hle, hat.isSome_mono hsome⟩
  | moves space hhas hspace _ _ =>
      rw [hspace]
      by_cases hcur : t = m.current
      · rw [hcur, Function.update_self]
        refine ⟨Nat.lt_of_lt_of_le (h.carried m.current space false (hat.carried_top rfl)).1 hle,
          ?_⟩
        rcases hat.spaces with ⟨-, hframe⟩ | ⟨space', use', loaded, hframe, -, haddr⟩
        · exact absurd rfl (hframe space .startProcess)
        · obtain ⟨rfl, -⟩ := UserFrame.spaceDone.inj (Frame.client.inj hframe)
          rw [haddr, Function.update_self]
          rfl
      · rw [hhas, Function.update_of_ne hcur] at ht
        obtain ⟨hlt, hsome⟩ := h.housed t ht
        rw [Function.update_of_ne hcur]
        exact ⟨Nat.lt_of_lt_of_le hlt hle, hat.isSome_mono hsome⟩
  | forks body later hframe hhas hspace _ =>
      rw [hspace]
      by_cases hnew : t = m.kernel.threadCount
      · rw [hnew, Function.update_self]
        obtain ⟨hlt, hsome⟩ := h.forked_space hat hframe
        exact ⟨Nat.lt_of_lt_of_le hlt hle, hat.isSome_mono hsome⟩
      · rw [hhas, Function.update_of_ne hnew] at ht
        obtain ⟨hlt, hsome⟩ := h.housed t ht
        rw [Function.update_of_ne hnew]
        exact ⟨Nat.lt_of_lt_of_le hlt hle, hat.isSome_mono hsome⟩

theorem Housed.alone_step (h : Housed m) (hs : Orderly m.kernel)
    (hat : StepAt m m' w env input frame rest gs) {t t' : ThreadId} {space : SpaceId}
    {built : Bool} (hcarried : Userprog.carried (m'.kernel.stack t) = some (space, built))
    (ht' : m'.hasSpace t' = true) (hspace' : m'.kernel.client.space t' = space) : t' = t := by
  -- a thread that had its space before the step
  have hold : m.hasSpace t' = true → m.kernel.client.space t' = space → t' = t := by
    intro hhas hspace
    rcases h.carried_before hs hat hcarried with ⟨b, hbefore⟩ | ⟨-, hnew⟩
    · exact h.alone t t' space b hbefore hhas hspace
    · have hlt := (h.housed t' hhas).1
      rw [hspace, hnew] at hlt
      exact absurd hlt (Nat.lt_irrefl _)
  cases hat.tenancy hs with
  | same hhas hspace _ _ _ => exact hold (hhas ▸ ht') (hspace ▸ hspace')
  | moves space₁ hhas hspace _ _ =>
      by_cases hcur : t' = m.current
      · rw [hspace, hcur, Function.update_self] at hspace'
        subst hspace'
        rcases h.carried_before hs hat hcarried with ⟨b, hbefore⟩ | ⟨ht, -⟩
        · exact hcur.trans (h.carrier m.current t _ false b (hat.carried_top rfl) hbefore)
        · exact hcur.trans ht.symm
      · rw [hhas, Function.update_of_ne hcur] at ht'
        rw [hspace, Function.update_of_ne hcur] at hspace'
        exact hold ht' hspace'
  | forks body later hframe hhas hspace _ =>
      by_cases hnew : t' = m.kernel.threadCount
      · rw [hspace, hnew, Function.update_self] at hspace'
        subst hspace'
        rcases h.carried_cases hs hat hcarried with
          ⟨hbefore, hne⟩ | ⟨-, habs, -⟩ | ⟨-, use, habs, -⟩
        · rcases hframe with ⟨processID, rfl⟩ | ⟨rfl, rfl⟩
          · have ht := h.carrier m.current t _ true built (hat.carried_top rfl) hbefore
            exact absurd rfl ((hne ht.symm).2 _ processID)
          · have ht := h.alone t m.current _ built hbefore (h.caller rfl hat) rfl
            rw [← ht, hat.carried_top rfl] at hbefore
            exact absurd hbefore (by simp [UserFrame.carries])
        · rcases hframe with ⟨processID, rfl⟩ | ⟨rfl, -⟩
          · simp at habs
          · simp at habs
        · rcases hframe with ⟨processID, rfl⟩ | ⟨rfl, -⟩
          · simp at habs
          · simp at habs
      · rw [hhas, Function.update_of_ne hnew] at ht'
        rw [hspace, Function.update_of_ne hnew] at hspace'
        exact hold ht' hspace'

/-- A step of a system call leaves the processor with its thread. -/
theorem StepAt.client_current {k : UserFrame}
    (hat : StepAt m m' w env input (.client k) rest gs) :
    m'.kernel.currentThread = m.kernel.currentThread :=
  (clientStep_of_stepAt hat.kernel).currentThread

theorem StepAt.client_threadCount {k : UserFrame}
    (hat : StepAt m m' w env input (.client k) rest gs) :
    m'.kernel.threadCount = m.kernel.threadCount := by
  rcases hat.kernel.life with ⟨body, habs, -⟩ | ⟨habs, -⟩ | ⟨-, -, hcount, -⟩
  · simp at habs
  · simp at habs
  · exact hcount

/-- A thread that is about to be forked is what the last step has asked for. -/
theorem Housed.fork_pushed (h : Housed m) (hat : StepAt m m' w env input frame rest gs)
    {body : UserFrame} (htop : m'.kernel.top = some (.call (.threadFork body))) :
    .call (.threadFork body) ∈ gs := by
  have hmem : .call (.threadFork body) ∈ m'.kernel.stack m'.kernel.currentThread :=
    List.mem_of_mem_head? htop
  rcases mem_stack_cases hat.kernel hmem with hold | ⟨-, hnew⟩ | ⟨body', -, hroot⟩
  · obtain ⟨hcur, -⟩ := h.staged.fork _ body hold
    have hbelow := h.staged.below m.kernel.currentThread body
    rw [hat.kernel.stack, List.tail_cons] at hbelow
    rw [hcur, hat.kernel.stack_self] at hmem
    exact (List.mem_append.mp hmem).resolve_right hbelow
  · exact hnew
  · simp [Kernel.rootFrames] at hroot

theorem Housed.born_step (h : Housed m) (hs : Orderly m.kernel)
    (hat : StepAt m m' w env input frame rest gs) {t : ThreadId} (ht : m'.hasSpace t = true) :
    t < m'.kernel.threadCount ∨
      t = m'.kernel.threadCount ∧ ∃ body, m'.kernel.top = some (.call (.threadFork body)) := by
  have hle : m.kernel.threadCount ≤ m'.kernel.threadCount := by
    rcases hat.kernel.life with ⟨_, -, hcount, -⟩ | ⟨-, hcount, -⟩ | ⟨-, -, hcount, -⟩
    · exact hcount ▸ Nat.le_succ _
    · exact Nat.le_of_eq hcount.symm
    · exact Nat.le_of_eq hcount.symm
  have hold : m.hasSpace t = true → t < m'.kernel.threadCount := by
    intro hhas
    rcases h.born t hhas with hlt | ⟨heq, body, htop⟩
    · exact Nat.lt_of_lt_of_le hlt hle
    · obtain rfl : frame = .call (.threadFork body) :=
        Option.some.inj (hat.kernel.top.symm.trans htop)
      rw [(hat.kernel.forked hs.wellFormed).1, heq]
      exact Nat.lt_succ_self _
  cases hat.tenancy hs with
  | same hhas _ _ _ _ => exact Or.inl (hold (hhas ▸ ht))
  | moves space hhas _ _ _ =>
      by_cases hcur : t = m.current
      · rw [hcur]
        exact Or.inl (Nat.lt_of_lt_of_le hs.wellFormed.current_lt hle)
      · rw [hhas, Function.update_of_ne hcur] at ht
        exact Or.inl (hold ht)
  | forks body later hframe hhas _ _ =>
      by_cases hnew : t = m.kernel.threadCount
      · have hclient : ∃ k, frame = .client k := by
          rcases hframe with ⟨processID, rfl⟩ | ⟨rfl, -⟩
          · exact ⟨_, rfl⟩
          · exact ⟨_, rfl⟩
        obtain ⟨k, rfl⟩ := hclient
        refine Or.inr ⟨hnew.trans hat.client_threadCount.symm, body, ?_⟩
        rw [Kernel.top, hat.client_current, hat.kernel.stack_self]
        rfl
      · rw [hhas, Function.update_of_ne hnew] at ht
        exact Or.inl (hold ht)

theorem Housed.expected_step (h : Housed m) (hs : Orderly m.kernel)
    (hat : StepAt m m' w env input frame rest gs) {body : UserFrame}
    (htop : m'.kernel.top = some (.call (.threadFork body))) :
    m'.hasSpace m'.kernel.threadCount = true := by
  have hpushed := h.fork_pushed hat htop
  cases hat.tenancy hs with
  | same _ _ _ _ hgs => exact absurd hpushed (hgs body)
  | moves _ _ _ _ hgs => exact absurd hpushed (hgs body)
  | forks body' later hframe hhas _ _ =>
      have hclient : ∃ k, frame = .client k := by
        rcases hframe with ⟨processID, rfl⟩ | ⟨rfl, -⟩
        · exact ⟨_, rfl⟩
        · exact ⟨_, rfl⟩
      obtain ⟨k, rfl⟩ := hclient
      rw [hhas, hat.client_threadCount, Function.update_self]

theorem not_resident_nil : ¬ Resident [] := by
  rintro (heq | ⟨k, heq⟩ | heq | ⟨k, -, heq⟩)
  · simp [userCore] at heq
  · simp at heq
  · simp at heq
  · simp at heq

/-- `StartProcess` runs no user program before its end. -/
theorem not_resident_boot {k : UserFrame} (hk : k.isBoot = true) :
    ¬ Resident [.client k, .call .threadFinish] := by
  rintro (heq | ⟨k', heq⟩ | heq | ⟨k', hentry, heq⟩)
  · obtain rfl : k = .oneInstruction := by simpa [userCore] using heq
    simp [UserFrame.isBoot] at hk
  · simp [userLoop] at heq
  · simp at heq
  · obtain rfl : k = k' := by simpa using heq
    cases k <;> simp [UserFrame.isEntry, UserFrame.isBoot] at hentry hk

/-- A thread comes to run a user program by `StartProcess`, or it did before. -/
theorem Resident.before {c : List (Frame UserFrame)} {f : Frame UserFrame}
    (hstep : CoreStep f c) (h : Resident c) {rest : List (Frame UserFrame)}
    (hstage : Stage (f :: rest)) (hfinish : f = .call .threadFinish → rest = userLoop) :
    Resident (f :: rest) ∨ ∃ space i, f = .client (.processStore space i .startProcess) := by
  cases hstep with
  | boots hk hk' => exact absurd h (not_resident_boot hk')
  | noFile =>
      refine absurd h ?_
      rintro (heq | ⟨k'', heq⟩ | heq | ⟨k'', hentry, heq⟩)
      · simp [userCore] at heq
      · simp at heq
      · simp [userLoop] at heq
      · simp at heq
  | booted space i => exact Or.inr ⟨space, i, rfl⟩
  | @started k hk =>
      refine Or.inl (Or.inr (Or.inr (Or.inr ⟨k, hk, ?_⟩)))
      cases hstage with
      | booting _ => rfl
      | starting _ => rfl
      | user => rfl
      | calling hcall => exact absurd hk (by simp [(UserFrame.isCall_cases hcall).2.1])
  | instruction =>
      cases hstage with
      | booting hk => simp [UserFrame.isBoot] at hk
      | starting hk => simp [UserFrame.isEntry] at hk
      | user => exact Or.inl (Or.inl rfl)
      | calling hk => simp [UserFrame.isCall] at hk
  | traps call =>
      cases hstage with
      | booting hk => simp [UserFrame.isBoot] at hk
      | starting hk => simp [UserFrame.isEntry] at hk
      | user => exact Or.inl (Or.inl rfl)
      | calling hk => simp [UserFrame.isCall] at hk
  | @goesOn k k' hk hk' _ _ =>
      exact Or.inl (Or.inr (Or.inl ⟨k, by rw [hstage.below_call hk]⟩))
  | returns rv => exact Or.inl (Or.inr (Or.inl ⟨_, by rw [hstage.below_call rfl]⟩))
  | exits => exact Or.inl (Or.inr (Or.inl ⟨_, by rw [hstage.below_call rfl]⟩))
  | halts k below =>
      refine absurd h ?_
      rintro (heq | ⟨k'', heq⟩ | heq | ⟨k'', hentry, heq⟩)
      · simp [userCore] at heq
      · simp at heq
      · simp at heq
      · simp at heq
  | finishes => exact Or.inl (Or.inr (Or.inr (Or.inl (by rw [hfinish rfl]))))
  | ends => exact absurd h not_resident_nil

/-- The thread that makes a step runs a user program, or is about to, as it did
before, but for the end of `StartProcess`. -/
theorem Housed.resident_before (h : Housed m) (hs : Orderly m.kernel)
    (hat : StepAt m m' w env input frame rest gs)
    (hresident : Resident (core (m'.kernel.stack m.current))) :
    Resident (core (m.kernel.stack m.current)) ∨
      ∃ space i, frame = .client (.processStore space i .startProcess) := by
  rcases h.staged.core_cases hs hat.kernel with ⟨-, hsame⟩ | ⟨-, hcore, hstep⟩
  · refine Or.inl ?_
    rw [current] at hresident ⊢
    exact hsame ▸ hresident
  · have hstage := h.staged.stage m.kernel.currentThread
    rw [hcore] at hstage
    have hfinish : frame = .call .threadFinish → rest = userLoop := by
      rintro rfl
      cases hstage with
      | leaving hbelow =>
          rcases hbelow with rfl | hloop
          · have hpushed : gs = [.sleep] := hat.kernel.pushes
            rw [current, hat.kernel.stack_self, hpushed] at hresident
            exact absurd hresident not_resident_nil
          · exact hloop
    rw [current, hcore]
    exact Resident.before hstep hresident hstage hfinish

theorem Housed.resident_step (h : Housed m) (hs : Orderly m.kernel)
    (hat : StepAt m m' w env input frame rest gs) {t : ThreadId}
    (ht : Resident (core (m'.kernel.stack t))) : m'.hasSpace t = true := by
  have hmono := fun t => (hat.tenancy hs).hasSpace_mono (t := t)
  by_cases hcur : t = m.current
  · subst hcur
    rcases h.resident_before hs hat ht with hbefore | ⟨space, i, rfl⟩
    · exact hmono _ (h.resident _ hbefore)
    · exact hmono _ (h.settled _ _ rest space (hat.core_outer rfl) rfl).1
  · rcases hat.kernel.stack_other t hcur with hsame | ⟨body, rfl, hnew, -⟩
    · exact hmono t (h.resident t (hsame ▸ ht))
    · rw [hnew]
      exact hmono _ (h.expected body hat.kernel.top)

/-- `StartProcess` has given its thread the space it goes on with. -/
theorem asks_settles {s : UserKernel} {rs : List (Request UserFrame)} {k k' : UserFrame}
    {space : SpaceId} (hasks : k.Asks s rs) (hk' : .client k' ∈ rs)
    (hsettles : k'.settles = some space) :
    k = .spaceDone space .startProcess ∨ k.settles = some space := by
  cases k with
  | oneInstruction =>
      rcases hasks with rfl | rfl | ⟨call, rfl⟩
      · obtain rfl : k' = .oneInstruction := by simpa using hk'
        simp [UserFrame.settles] at hsettles
      · simp at hk'
      · have hcases : k' = .exceptionHandler call ∨ k' = .oneInstruction := by simpa using hk'
        rcases hcases with rfl | rfl
        · simp [UserFrame.settles] at hsettles
        · simp [UserFrame.settles] at hsettles
  | exceptionHandler call =>
      rcases hasks with rfl | ⟨rv, rfl⟩ | rfl | ⟨g, k'', hcall, rfl⟩
      · simp at hk'
      · obtain rfl : k' = .sysReturn rv := by simpa using hk'
        simp [UserFrame.settles] at hsettles
      · obtain rfl : k' = .sysReturn 0 := by simpa using hk'
        simp [UserFrame.settles] at hsettles
      · obtain rfl : k' = k'' := by simpa using hk'
        cases call <;>
          simp only [Syscall.enters, Option.some.injEq, Prod.mk.injEq, reduceCtorEq] at hcall
        all_goals
          obtain ⟨-, rfl⟩ := hcall
          simp [UserFrame.settles] at hsettles
  | spaceDone space' use =>
      rcases hasks with rfl | rfl
      · simp at hk'
      · obtain rfl : k' = .processFind space' use := by simpa using hk'
        cases use with
        | exec => simp [UserFrame.settles] at hsettles
        | startProcess =>
            obtain rfl : space' = space := by simpa [UserFrame.settles] using hsettles
            exact Or.inl rfl
  | processFind space' use =>
      obtain rfl := hasks
      obtain rfl : k' = .processStore space' s.client.processTable.firstClear use := by
        simpa using hk'
      cases use with
      | exec => simp [UserFrame.settles] at hsettles
      | startProcess => exact Or.inr hsettles
  | _ => simp only [UserFrame.Asks] at hasks; grind [UserFrame.settles]

theorem Housed.settled_step (h : Housed m) (hs : Orderly m.kernel)
    (hat : StepAt m m' w env input frame rest gs) {t : ThreadId} {k : UserFrame}
    {below : List (Frame UserFrame)} {space : SpaceId}
    (hcore : core (m'.kernel.stack t) = .client k :: below) (hk : k.settles = some space) :
    m'.hasSpace t = true ∧ m'.kernel.client.space t = space := by
  have htenancy := hat.tenancy hs
  -- what was settled before stays settled
  have hkeep : m.hasSpace t = true → m.kernel.client.space t = space → t < m.kernel.threadCount →
      (∀ space, frame ≠ .client (.spaceDone space .startProcess)) ∨ t ≠ m.current →
      m'.hasSpace t = true ∧ m'.kernel.client.space t = space := by
    intro hhas hspace hborn hother
    refine ⟨htenancy.hasSpace_mono hhas, ?_⟩
    cases htenancy with
    | same _ hspace' _ _ _ => rw [hspace', hspace]
    | moves space' _ hspace' _ _ =>
        rcases hother with hframe | hne
        · exact absurd rfl (hframe space')
        · rw [hspace', Function.update_of_ne hne, hspace]
    | forks _ _ _ _ hspace' _ =>
        rw [hspace', Function.update_of_ne (Nat.ne_of_lt hborn), hspace]
  by_cases hcur : t = m.kernel.currentThread
  · subst hcur
    have hborn := hs.wellFormed.current_lt
    rcases h.staged.core_client hs hat.kernel hcore with
      ⟨hsame, hinner⟩ | rfl | ⟨k', rs, rfl, hexec, hnew, hcore₀⟩
    · obtain ⟨hhas, hspace⟩ := h.settled _ k below space hsame hk
      refine hkeep hhas hspace hborn (Or.inl fun space' => ?_)
      rintro rfl
      exact absurd hinner (by simp [isInner])
    · simp [UserFrame.settles] at hk
    · rcases asks_settles (userExec_asks hexec) hnew hk with rfl | hbefore
      · cases htenancy with
        | same _ _ _ hframe _ => exact absurd rfl (hframe space)
        | moves _ hhas hspace _ _ =>
            rw [hhas, hspace]
            exact ⟨Function.update_self _ _ _, Function.update_self _ _ _⟩
        | forks _ _ hframe _ _ _ => simp at hframe
      · obtain ⟨hhas, hspace⟩ := h.settled _ k' rest space hcore₀ hbefore
        refine hkeep hhas hspace hborn (Or.inl fun space' => ?_)
        intro habs
        rw [Frame.client.inj habs] at hbefore
        simp [UserFrame.settles] at hbefore
  · rcases hat.kernel.stack_other t hcur with hsame | ⟨body, rfl, -, hroot⟩
    · rw [hsame] at hcore
      obtain ⟨hhas, hspace⟩ := h.settled t k below space hcore hk
      refine hkeep hhas hspace ?_ (Or.inr hcur)
      by_contra hunborn
      rw [hs.wellFormed.unborn t (Nat.le_of_not_lt hunborn)] at hcore
      simp [core] at hcore
    · have hbody := (h.staged.fork m.kernel.currentThread body (by simp [hat.kernel.stack])).2
      rw [hroot, core_root hbody] at hcore
      obtain ⟨hk', -⟩ := List.cons.inj hcore
      obtain rfl := Frame.client.inj hk'
      cases body <;> simp [UserFrame.isEntry, UserFrame.settles] at hbody hk

/-- Every step keeps the threads housed. -/
theorem Housed.step (h : Housed m) (hs : Orderly m.kernel)
    (hat : StepAt m m' w env input frame rest gs) : Housed m' where
  staged := h.staged.step hs hat.kernel
  fresh := fun _ hspace => h.fresh_step hs hat hspace
  carried := fun _ _ _ hcarried => h.built_step hs hat hcarried
  carrier := fun _ _ _ _ _ ht ht' => h.carrier_step hs hat ht ht'
  housed := fun _ ht => h.housed_step hs hat ht
  alone := fun _ _ _ _ hcarried ht' hspace => h.alone_step hs hat hcarried ht' hspace
  born := fun _ ht => h.born_step hs hat ht
  resident := fun _ ht => h.resident_step hs hat ht
  settled := fun _ _ _ _ hcore hk => h.settled_step hs hat hcore hk
  expected := fun _ htop => h.expected_step hs hat htop

theorem housed_boot (pid : ThreadId → Int) : Housed (boot pid) := by
  have hcarried : ∀ t, Userprog.carried ((userBoot pid).stack t) = none := by
    intro t
    by_cases ht : t = 0
    · subst ht
      rfl
    · simp [Userprog.carried, core, userBoot, Kernel.boot, ht]
  constructor
  case staged => exact staged_boot pid
  case fresh => exact fun _ _ => rfl
  case carried =>
    intro t space built h
    exact absurd ((hcarried t).symm.trans h) (by simp)
  case carrier =>
    intro t t' space built built' h
    exact absurd ((hcarried t).symm.trans h) (by simp)
  case housed => exact fun _ h => absurd h (by simp [boot])
  case alone =>
    intro t t' space built h
    exact absurd ((hcarried t).symm.trans h) (by simp)
  case born => exact fun _ h => absurd h (by simp [boot])
  case resident =>
    intro t h
    by_cases ht : t = 0
    · subst ht
      have hcore : core ((boot pid).kernel.stack 0) =
          [.client .startProcess, .call .threadFinish] := rfl
      rw [hcore] at h
      exact absurd h (not_resident_boot rfl)
    · have hempty : (boot pid).kernel.stack t = [] := by
        simp [boot, userBoot, Kernel.boot, ht]
      rw [hempty] at h
      exact absurd h not_resident_nil
  case settled =>
    intro t k below space hcore hk
    by_cases ht : t = 0
    · subst ht
      obtain ⟨hsame, -⟩ := List.cons.inj hcore
      obtain rfl := Frame.client.inj hsame
      simp [UserFrame.settles] at hk
    · simp [core, boot, userBoot, Kernel.boot, ht] at hcore
  case expected =>
    intro body htop
    exact absurd htop (by simp [boot, userBoot, Kernel.boot, Kernel.top])

theorem Reachable.housed (h : m.Reachable) : Housed m := by
  obtain ⟨pid, hrun⟩ := h
  exact hrun.stepAt_invariant (orderly_boot pid) (housed_boot pid)
    fun _ _ _ _ _ _ _ _ hu _ _ hat hP => hP.step hu hat

end Housing

end System

end Userprog
end Nachos
