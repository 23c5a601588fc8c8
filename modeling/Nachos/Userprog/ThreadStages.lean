import Mathlib.Data.List.TakeWhile
import Nachos.Threads.ThreadLife
import Nachos.Userprog.Stacks

/-!
# The stages of a user thread

Most frames of a stack end by themselves: the kernel's code that they run goes
back to the frame below.  What a thread is doing is told by the first frame that
is not of this kind, the *core* of its stack: it is being started, it runs user
code, it is in a system call, or it is leaving.  A system call ends in
`sysReturn`, once, and above the loop of `Machine::Run`.

`Stage` lists the cores a thread can have, and `CoreStep` what becomes of a core
when its first frame runs.  Every other step leaves the core as it is.
-/

namespace Nachos
namespace Userprog

open Threads Lib

/-- Frames that end by themselves. -/
def isInner : Frame UserFrame → Bool
  | .client (.exitRemove _) => true
  | .client (.removeBody _) => true
  | .client _ => false
  | .call .threadFinish => false
  | .halt => false
  | _ => true

/-- The program points of `StartProcess`. -/
def UserFrame.isBoot : UserFrame → Bool
  | .startProcess => true
  | .spacePut _ _ .startProcess => true
  | .spaceDone _ .startProcess => true
  | .processFind _ .startProcess => true
  | .processStore _ _ .startProcess => true
  | _ => false

/-- The procedures of new threads. -/
def UserFrame.isEntry : UserFrame → Bool
  | .newProcess => true
  | .kernelRun => true
  | _ => false

/-- The program points of system calls, up to their return. -/
def UserFrame.isCall : UserFrame → Bool
  | .oneInstruction => false
  | .exitRemove _ => false
  | .removeBody _ => false
  | k => !k.isBoot && !k.isEntry

/-- The stack of a thread that runs user code. -/
def userCore : List (Frame UserFrame) := [.client .oneInstruction, .call .threadFinish]

/-- The stack below a system call. -/
def userLoop : List (Frame UserFrame) := .setStatus .userMode :: .oneTick :: userCore

/-- The stack below the frames that end by themselves. -/
def core (stack : List (Frame UserFrame)) : List (Frame UserFrame) := stack.dropWhile isInner

/-- What a thread is doing, by the core of its stack. -/
inductive Stage : List (Frame UserFrame) → Prop
  | booting {k : UserFrame} (hk : k.isBoot = true) : Stage [.client k, .call .threadFinish]
  | starting {k : UserFrame} (hk : k.isEntry = true) : Stage [.client k, .call .threadFinish]
  | user : Stage userCore
  | calling {k : UserFrame} (hk : k.isCall = true) : Stage (.client k :: userLoop)
  | leaving {below : List (Frame UserFrame)} (hbelow : below = [] ∨ below = userLoop) :
      Stage (.call .threadFinish :: below)
  | halting (below : List (Frame UserFrame)) : Stage (.halt :: below)
  | gone : Stage []

/-- What becomes of a core when its first frame runs. -/
inductive CoreStep : Frame UserFrame → List (Frame UserFrame) → Prop
  | boots {k k' : UserFrame} (hk : k.isBoot = true) (hk' : k'.isBoot = true) :
      CoreStep (.client k) [.client k', .call .threadFinish]
  | noFile : CoreStep (.client .startProcess) [.call .threadFinish]
  | booted (space : SpaceId) (i : Int) :
      CoreStep (.client (.processStore space i .startProcess)) userCore
  | started {k : UserFrame} (hk : k.isEntry = true) : CoreStep (.client k) userCore
  | instruction : CoreStep (.client .oneInstruction) userCore
  | traps (call : Syscall) :
      CoreStep (.client .oneInstruction) (.client (.exceptionHandler call) :: userLoop)
  | goesOn {k k' : UserFrame} (hk : k.isCall = true) (hk' : k'.isCall = true)
      (hreturn : ∀ rv, k ≠ .sysReturn rv) (hexit : k ≠ .exitBody) :
      CoreStep (.client k) (.client k' :: userLoop)
  | returns (rv : Int) : CoreStep (.client (.sysReturn rv)) userCore
  | exits : CoreStep (.client .exitBody) (.call .threadFinish :: userLoop)
  | halts (k : UserFrame) (below : List (Frame UserFrame)) :
      CoreStep (.client k) (.halt :: below)
  | finishes : CoreStep (.call .threadFinish) userCore
  | ends : CoreStep (.call .threadFinish) []

section Cores

variable {f : Frame UserFrame} {gs rest : List (Frame UserFrame)}

theorem core_append (hgs : ∀ g ∈ gs, isInner g = true) : core (gs ++ rest) = core rest := by
  unfold core
  exact List.dropWhile_append_of_pos hgs

theorem core_cons_inner (hf : isInner f = true) : core (f :: rest) = core rest := by
  unfold core
  rw [List.dropWhile_cons, if_pos hf]

theorem core_cons_outer (hf : isInner f = false) : core (f :: rest) = f :: rest := by
  unfold core
  rw [List.dropWhile_cons, if_neg (by simp [hf])]

/-- The code of frames that end by themselves pushes such frames only. -/
theorem pushes_inner {level : IntStatus} (hpushes : f.Pushes level gs)
    (hclient : ∀ k, f ≠ .client k) (hfinish : f ≠ .call .threadFinish) :
    ∀ g ∈ gs, isInner g = true := by
  cases f with
  | client k => exact absurd rfl (hclient k)
  | halt => exact hpushes.elim
  | call op =>
      cases op with
      | threadFinish => exact absurd rfl hfinish
      | _ => simp only [Frame.Pushes] at hpushes; grind [isInner]
  | _ => simp only [Frame.Pushes] at hpushes; grind [isInner]

/-- The core when a call of the kernel and a program point have been pushed. -/
theorem core_call {op : Op UserFrame} {k : UserFrame} (hop : isInner (.call op) = true)
    (hk : isInner (.client k) = false) :
    core (.call op :: .client k :: rest) = .client k :: rest := by
  rw [core_cons_inner hop, core_cons_outer hk]

theorem isInner_of_isCall {k : UserFrame} (hk : k.isCall = true) :
    isInner (.client k) = false := by
  cases k with
  | exitRemove _ => exact absurd hk (by simp [UserFrame.isCall])
  | removeBody _ => exact absurd hk (by simp [UserFrame.isCall])
  | _ => rfl

theorem isInner_of_isBoot {k : UserFrame} (hk : k.isBoot = true) :
    isInner (.client k) = false := by
  cases k with
  | exitRemove _ => exact absurd hk (by simp [UserFrame.isBoot])
  | removeBody _ => exact absurd hk (by simp [UserFrame.isBoot])
  | _ => rfl

end Cores

section Transitions

variable {s : UserKernel} {rs : List (Request UserFrame)}

/-- The program point behind the lock of a system call is one of the call. -/
theorem Syscall.enters_isCall {call : Syscall} {g : LockId} {k : UserFrame}
    (h : call.enters s = some (g, k)) : k.isCall = true := by
  cases call <;> simp only [Syscall.enters, Option.some.injEq, Prod.mk.injEq, reduceCtorEq] at h
  all_goals
    obtain ⟨-, rfl⟩ := h
    rfl

/-- `StartProcess` goes from one of its program points to the next, up to
`Machine::Run`. -/
theorem coreStep_boot {k : UserFrame} (hk : k.isBoot = true) (hasks : k.Asks s rs) :
    CoreStep (.client k) (core (rs.map Request.frame ++ [.call .threadFinish])) := by
  cases k with
  | startProcess =>
      rcases hasks with rfl | rfl
      · exact .noFile
      · exact .boots rfl rfl
  | spacePut space more use =>
      cases use with
      | exec => exact absurd hk (by simp [UserFrame.isBoot])
      | startProcess =>
          rcases hasks with ⟨-, rfl⟩ | ⟨m, -, rfl⟩
          · exact .boots rfl rfl
          · exact .boots rfl rfl
  | spaceDone space use =>
      cases use with
      | exec => exact absurd hk (by simp [UserFrame.isBoot])
      | startProcess =>
          rcases hasks with rfl | rfl
          · exact .halts _ _
          · exact .boots rfl rfl
  | processFind space use =>
      cases use with
      | exec => exact absurd hk (by simp [UserFrame.isBoot])
      | startProcess =>
          obtain rfl := hasks
          exact .boots rfl rfl
  | processStore space i use =>
      cases use with
      | exec => exact absurd hk (by simp [UserFrame.isBoot])
      | startProcess =>
          rcases hasks with ⟨-, rfl⟩ | ⟨habs, -⟩ | ⟨habs, -⟩
          · exact .booted space i
          · exact absurd habs (by simp)
          · exact absurd habs (by simp)
  | _ => exact absurd hk (by simp [UserFrame.isBoot])

/-- A system call goes from one of its program points to the next, up to its
return or to the end of the thread. -/
theorem coreStep_call {k : UserFrame} (hk : k.isCall = true) (hasks : k.Asks s rs)
    (hsize : 1 < s.client.processTable.size) :
    CoreStep (.client k) (core (rs.map Request.frame ++ userLoop)) := by
  have hgoes : ∀ {k'}, k'.isCall = true → (∀ rv, k ≠ .sysReturn rv) → k ≠ .exitBody →
      CoreStep (.client k) (.client k' :: userLoop) :=
    fun hk' hreturn hexit => .goesOn hk hk' hreturn hexit
  cases k with
  | exceptionHandler call =>
      rcases hasks with rfl | ⟨rv, rfl⟩ | rfl | ⟨g, k', hcall, rfl⟩
      · exact .halts _ _
      · exact hgoes rfl (by simp) (by simp)
      · exact hgoes rfl (by simp) (by simp)
      · have hcalls := Syscall.enters_isCall hcall
        have hcore : core (.call (.lockAcquire g) :: .client k' :: userLoop) =
            .client k' :: userLoop := core_call rfl (isInner_of_isCall hcalls)
        exact (congrArg _ hcore).mpr (hgoes hcalls (by simp) (by simp))
  | sysReturn rv =>
      obtain rfl := hasks
      exact .returns rv
  | acquireCheck n =>
      rcases hasks with rfl | ⟨l, -, rfl⟩
      · exact hgoes rfl (by simp) (by simp)
      · exact hgoes rfl (by simp) (by simp)
  | releaseCheck n =>
      rcases hasks with rfl | ⟨l, -, rfl⟩
      · exact hgoes rfl (by simp) (by simp)
      · exact hgoes rfl (by simp) (by simp)
  | releaseTail n =>
      obtain rfl := hasks
      exact hgoes rfl (by simp) (by simp)
  | waitCheck x lock =>
      rcases hasks with rfl | ⟨-, -, rfl⟩
      · exact hgoes rfl (by simp) (by simp)
      · exact hgoes rfl (by simp) (by simp)
  | waitBody x lock =>
      obtain ⟨c, isDeleted, entry, -, -, rfl⟩ := hasks
      exact hgoes rfl (by simp) (by simp)
  | waitTail lock =>
      obtain ⟨l, -, rfl⟩ := hasks
      exact hgoes rfl (by simp) (by simp)
  | signalCheck y a =>
      rcases hasks with rfl | ⟨c, l, -, -, rfl⟩
      · exact hgoes rfl (by simp) (by simp)
      · exact hgoes rfl (by simp) (by simp)
  | signalTail y =>
      obtain rfl := hasks
      exact hgoes rfl (by simp) (by simp)
  | broadcastCheck z b =>
      rcases hasks with rfl | ⟨c, l, -, -, rfl⟩
      · exact hgoes rfl (by simp) (by simp)
      · exact hgoes rfl (by simp) (by simp)
  | releaseOnError lock =>
      obtain ⟨l, -, rfl⟩ := hasks
      exact hgoes rfl (by simp) (by simp)
  | createLockBody =>
      obtain ⟨rv, rfl⟩ := hasks
      exact hgoes rfl (by simp) (by simp)
  | destroyLockBody n =>
      obtain rfl := hasks
      exact hgoes rfl (by simp) (by simp)
  | createCVBody =>
      obtain ⟨rv, rfl⟩ := hasks
      exact hgoes rfl (by simp) (by simp)
  | destroyCVBody n =>
      obtain rfl := hasks
      exact hgoes rfl (by simp) (by simp)
  | printfBody =>
      rcases hasks with rfl | rfl
      · exact .halts _ _
      · exact hgoes rfl (by simp) (by simp)
  | openFind =>
      obtain ⟨i, rfl⟩ := hasks
      exact hgoes rfl (by simp) (by simp)
  | openStore i =>
      obtain rfl := hasks
      exact hgoes rfl (by simp) (by simp)
  | closeBody fd =>
      obtain rfl := hasks
      exact hgoes rfl (by simp) (by simp)
  | execBody =>
      obtain rfl := hasks
      exact hgoes rfl (by simp) (by simp)
  | spacePut space more use =>
      cases use with
      | startProcess => exact absurd hk (by simp [UserFrame.isCall, UserFrame.isBoot])
      | exec =>
          rcases hasks with ⟨-, rfl⟩ | ⟨m, -, rfl⟩
          · exact hgoes rfl (by simp) (by simp)
          · exact hgoes rfl (by simp) (by simp)
  | spaceDone space use =>
      cases use with
      | startProcess => exact absurd hk (by simp [UserFrame.isCall, UserFrame.isBoot])
      | exec =>
          rcases hasks with rfl | rfl
          · exact .halts _ _
          · exact hgoes rfl (by simp) (by simp)
  | processFind space use =>
      cases use with
      | startProcess => exact absurd hk (by simp [UserFrame.isCall, UserFrame.isBoot])
      | exec =>
          obtain rfl := hasks
          exact hgoes rfl (by simp) (by simp)
  | processStore space i use =>
      cases use with
      | startProcess => exact absurd hk (by simp [UserFrame.isCall, UserFrame.isBoot])
      | exec =>
          rcases hasks with ⟨habs, -⟩ | ⟨-, -, rfl⟩ | ⟨-, -, rfl⟩
          · exact absurd habs (by simp)
          · exact hgoes rfl (by simp) (by simp)
          · exact hgoes rfl (by simp) (by simp)
  | execFork space processID =>
      obtain rfl := hasks
      exact hgoes rfl (by simp) (by simp)
  | forkBody =>
      rcases hasks with ⟨-, rfl⟩ | ⟨-, rfl⟩
      · exact hgoes rfl (by simp) (by simp)
      · exact hgoes rfl (by simp) (by simp)
  | exitBody =>
      obtain ⟨processID, rfl | rfl | ⟨hsmall, -⟩⟩ := hasks
      · exact .exits
      · exact .exits
      · exact absurd hsize hsmall
  | _ => exact absurd hk (by simp [UserFrame.isCall, UserFrame.isBoot, UserFrame.isEntry])

/-- What becomes of the core of a thread when its first frame runs. -/
theorem Stage.coreStep {k : UserFrame} {rest : List (Frame UserFrame)}
    (hstage : Stage (.client k :: rest)) (hasks : k.Asks s rs)
    (hsize : 1 < s.client.processTable.size) :
    CoreStep (.client k) (core (rs.map Request.frame ++ rest)) := by
  cases hstage with
  | booting hk => exact coreStep_boot hk hasks
  | calling hk => exact coreStep_call hk hasks hsize
  | starting hk =>
      cases k with
      | newProcess =>
          obtain rfl := hasks
          exact .started rfl
      | kernelRun =>
          obtain rfl := hasks
          exact .started rfl
      | _ => exact absurd hk (by simp [UserFrame.isEntry])
  | user =>
      rcases hasks with rfl | rfl | ⟨call, rfl⟩
      · exact .instruction
      · exact .halts _ _
      · exact .traps call

theorem UserFrame.isCall_cases {k : UserFrame} (hk : k.isCall = true) :
    k.isBoot = false ∧ k.isEntry = false ∧ k ≠ .oneInstruction := by
  unfold UserFrame.isCall at hk
  split at hk
  · simp at hk
  · simp at hk
  · simp at hk
  · rename_i hne _ _
    simp only [Bool.and_eq_true, Bool.not_eq_true'] at hk
    exact ⟨hk.1, hk.2, hne⟩

/-- A system call is above the loop of `Machine::Run`. -/
theorem Stage.below_call {k : UserFrame} {rest : List (Frame UserFrame)}
    (h : Stage (.client k :: rest)) (hk : k.isCall = true) : rest = userLoop := by
  obtain ⟨hboot, hentry, hne⟩ := UserFrame.isCall_cases hk
  cases h with
  | booting hk' => exact absurd hk' (by simp [hboot])
  | starting hk' => exact absurd hk' (by simp [hentry])
  | user => exact absurd rfl hne
  | calling hk' => rfl

theorem Stage.below_instruction {rest : List (Frame UserFrame)}
    (h : Stage (.client .oneInstruction :: rest)) : rest = [.call .threadFinish] := by
  cases h with
  | booting hk => rfl
  | starting hk => rfl
  | user => rfl
  | calling hk => exact absurd rfl (UserFrame.isCall_cases hk).2.2

/-- `StartProcess` is the procedure of its thread. -/
theorem Stage.below_boot {k : UserFrame} {rest : List (Frame UserFrame)}
    (h : Stage (.client k :: rest)) (hk : k.isBoot = true) : rest = [.call .threadFinish] := by
  cases h with
  | booting hk' => rfl
  | starting hk' => rfl
  | user => rfl
  | calling hk' => exact absurd hk (by simp [(UserFrame.isCall_cases hk').1])

theorem CoreStep.stage {f : Frame UserFrame} {gs : List (Frame UserFrame)}
    (h : CoreStep f gs) : Stage gs := by
  cases h with
  | boots hk hk' => exact .booting hk'
  | noFile => exact .leaving (Or.inl rfl)
  | booted space i => exact .user
  | started hk => exact .user
  | instruction => exact .user
  | traps call => exact .calling rfl
  | goesOn hk hk' => exact .calling hk'
  | returns rv => exact .user
  | exits => exact .leaving (Or.inr rfl)
  | halts k below => exact .halting below
  | finishes => exact .user
  | ends => exact .gone

end Transitions

section Runs

variable {choice : Choice Input} {s s' : UserKernel} {frame : Frame UserFrame}
  {rest gs : List (Frame UserFrame)}

/-- Every thread is at a stage, and a new thread is forked as soon as the system
call asks for it. -/
structure Staged (s : UserKernel) : Prop where
  stage : ∀ t, Stage (core (s.stack t))
  below : ∀ t body, .call (.threadFork body) ∉ (s.stack t).tail
  fork : ∀ t body, .call (.threadFork body) ∈ s.stack t →
    t = s.currentThread ∧ body.isEntry = true

/-- A new thread is forked first of all. -/
theorem asks_fork {k body : UserFrame} {rs : List (Request UserFrame)} (hasks : k.Asks s rs)
    (hmem : .call (.threadFork body) ∈ rs) :
    ((∃ space processID, k = .execFork space processID) ∨ k = .forkBody) ∧
    ∃ later, rs = .call (.threadFork body) :: later ∧ body.isEntry = true ∧
      ∀ body', .call (.threadFork body') ∉ later := by
  cases k with
  | execFork space processID =>
      obtain rfl := hasks
      obtain rfl : body = .newProcess := by simpa using hmem
      exact ⟨Or.inl ⟨_, _, rfl⟩, _, rfl, rfl, by simp⟩
  | forkBody =>
      rcases hasks with ⟨-, rfl⟩ | ⟨-, rfl⟩
      · simp at hmem
      · obtain rfl : body = .kernelRun := by simpa using hmem
        exact ⟨Or.inr rfl, _, rfl, rfl, by simp⟩
  | oneInstruction =>
      rcases hasks with rfl | rfl | ⟨call, rfl⟩
      · simp at hmem
      · simp at hmem
      · simp at hmem
  | _ => simp only [UserFrame.Asks] at hasks; grind

/-- The first frames of what a program point asks for. -/
theorem fork_mem_asks {body : UserFrame} {rs : List (Request UserFrame)}
    (hmem : .call (.threadFork body) ∈ rs.map Request.frame) :
    .call (.threadFork body) ∈ rs := by
  obtain ⟨r, hr, hframe⟩ := List.mem_map.mp hmem
  cases r with
  | call op =>
      obtain rfl := Frame.call.inj hframe
      exact hr
  | _ => exact absurd hframe (by simp [Request.frame])

theorem pushes_noFork {level : IntStatus} {body : UserFrame} (hpushes : frame.Pushes level gs)
    (hclient : ∀ k, frame ≠ .client k) : .call (.threadFork body) ∉ gs := by
  cases frame with
  | client k => exact absurd rfl (hclient k)
  | halt => exact hpushes.elim
  | call op => cases op <;> simp only [Frame.Pushes] at hpushes <;> grind
  | _ => simp only [Frame.Pushes] at hpushes; grind

/-- The two kinds of steps a thread makes: frames that end by themselves leave its
core alone, and the first frame of the core changes it. -/
theorem Staged.core_cases (h : Staged s) (hs : Orderly s)
    (hat : Kernel.StepAt userClient choice s s' frame rest gs) :
    (isInner frame = true ∧ core (s'.stack s.currentThread) = core (s.stack s.currentThread)) ∨
    (isInner frame = false ∧ core (s.stack s.currentThread) = frame :: rest ∧
      CoreStep frame (core (s'.stack s.currentThread))) := by
  have hstage := h.stage s.currentThread
  rw [hat.stack] at hstage
  rw [hat.stack_self, hat.stack]
  cases hinner : isInner frame with
  | true =>
      refine Or.inl ⟨rfl, ?_⟩
      rw [core_cons_inner hinner]
      refine core_append ?_
      rcases stepAt_cases hat with ⟨k, rs, rfl, hexec, rfl⟩ | ⟨hclient, -⟩
      · have hasks : k.Asks s.pop rs := userExec_asks hexec
        cases k with
        | exitRemove processID =>
            rcases hasks with rfl | rfl
            · simp
            · simp [Request.frame, isInner]
        | removeBody processID =>
            obtain rfl := hasks
            simp [Request.frame, isInner]
        | _ => exact absurd hinner (by simp [isInner])
      · refine pushes_inner hat.pushes hclient ?_
        rintro rfl
        exact absurd hinner (by simp [isInner])
  | false =>
      refine Or.inr ⟨rfl, core_cons_outer hinner, ?_⟩
      rw [core_cons_outer hinner] at hstage
      rcases stepAt_cases hat with ⟨k, rs, rfl, hexec, rfl⟩ | ⟨hclient, -⟩
      · exact hstage.coreStep (userExec_asks hexec) hs.sane.process_size
      · cases frame with
        | client k => exact absurd rfl (hclient k)
        | halt => exact absurd hat.pushes (by simp [Frame.Pushes])
        | call op =>
            cases op with
            | threadFinish =>
                have hpushed : gs = [.sleep] := hat.pushes
                cases hstage with
                | leaving hbelow =>
                    rcases hbelow with rfl | rfl
                    · rw [hpushed]
                      exact .ends
                    · rw [hpushed]
                      exact .finishes
            | _ => exact absurd hinner (by simp [isInner])
        | _ => exact absurd hinner (by simp [isInner])

/-- The program points among the frames a system call asks for. -/
theorem client_mem_asks {k : UserFrame} {rs : List (Request UserFrame)}
    (hmem : .client k ∈ rs.map Request.frame) :
    .client k ∈ rs := by
  obtain ⟨r, hr, hframe⟩ := List.mem_map.mp hmem
  cases r with
  | client k' =>
      obtain rfl := Frame.client.inj hframe
      exact hr
  | _ => exact absurd hframe (by simp [Request.frame])

/-- The program point a thread is at has just been asked for, or it was there
before, or it is the loop of `Machine::Run`. -/
theorem Staged.core_client (h : Staged s) (hs : Orderly s)
    (hat : Kernel.StepAt userClient choice s s' frame rest gs) {k' : UserFrame}
    {below : List (Frame UserFrame)}
    (hcore' : core (s'.stack s.currentThread) = .client k' :: below) :
    (core (s.stack s.currentThread) = .client k' :: below ∧ isInner frame = true) ∨
      k' = .oneInstruction ∨
      ∃ k rs, frame = .client k ∧ userExec choice.input k s.pop = .ok (s'.client, rs) ∧
        .client k' ∈ rs ∧ core (s.stack s.currentThread) = .client k :: rest := by
  rcases h.core_cases hs hat with ⟨hinner, hsame⟩ | ⟨-, hcore, hstep⟩
  · exact Or.inl ⟨hsame ▸ hcore', hinner⟩
  · rcases stepAt_cases hat with ⟨k, rs, rfl, hexec, rfl⟩ | ⟨hclient, -⟩
    · have hmem : .client k' ∈ rs.map Request.frame ++ rest := by
        rw [← hat.stack_self]
        exact (List.dropWhile_sublist isInner).mem (by
          change _ ∈ core _
          simp [hcore'])
      rcases List.mem_append.mp hmem with hnew | hold
      · exact Or.inr (Or.inr ⟨k, rs, rfl, hexec, client_mem_asks hnew, hcore⟩)
      · have hbelow := h.stage s.currentThread
        rw [hcore] at hbelow
        refine Or.inr (Or.inl ?_)
        cases hbelow with
        | booting _ => simp at hold
        | starting _ => simp at hold
        | user => simp at hold
        | calling _ => simpa [userLoop, userCore] using hold
    · generalize core (s'.stack s.currentThread) = after at hstep hcore'
      cases hstep with
      | finishes =>
          obtain ⟨hk', -⟩ := List.cons.inj hcore'
          exact Or.inr (Or.inl (Frame.client.inj hk').symm)
      | ends => simp at hcore'
      | _ => exact absurd rfl (hclient _)

theorem core_root {body : UserFrame} (hbody : body.isEntry = true) :
    core (Kernel.rootFrames body) = [.client body, .call .threadFinish] := by
  cases body with
  | newProcess => rfl
  | kernelRun => rfl
  | _ => exact absurd hbody (by simp [UserFrame.isEntry])

theorem Staged.step (h : Staged s) (hs : Orderly s)
    (hat : Kernel.StepAt userClient choice s s' frame rest gs) : Staged s' where
  stage := by
    intro t
    by_cases ht : t = s.currentThread
    · subst ht
      rcases h.core_cases hs hat with ⟨-, hsame⟩ | ⟨-, -, hstep⟩
      · rw [hsame]
        exact h.stage _
      · exact hstep.stage
    · rcases hat.stack_other t ht with hsame | ⟨body, rfl, -, hroot⟩
      · rw [hsame]
        exact h.stage t
      · have hbody := (h.fork s.currentThread body (by simp [hat.stack])).2
        rw [hroot, core_root hbody]
        exact .starting hbody
  below := by
    intro t body hmem
    by_cases ht : t = s.currentThread
    · subst ht
      have hrest : .call (.threadFork body) ∉ rest := by
        have hbelow := h.below s.currentThread body
        rwa [hat.stack] at hbelow
      rw [hat.stack_self] at hmem
      rcases stepAt_cases hat with ⟨k, rs, rfl, hexec, rfl⟩ | ⟨hclient, -⟩
      · have hasks : k.Asks s.pop rs := userExec_asks hexec
        cases rs with
        | nil => exact hrest (List.mem_of_mem_tail hmem)
        | cons r rs =>
            rcases List.mem_append.mp hmem with hnew | hold
            · have hin := fork_mem_asks hnew
              obtain ⟨-, later, hlater, -, hnone⟩ :=
                asks_fork hasks (List.mem_cons_of_mem _ hin)
              obtain ⟨-, rfl⟩ := List.cons.inj hlater
              exact hnone body hin
            · exact hrest hold
      · rcases List.mem_append.mp (List.mem_of_mem_tail hmem) with hnew | hold
        · exact pushes_noFork hat.pushes hclient hnew
        · exact hrest hold
    · rcases hat.stack_other t ht with hsame | ⟨body', -, -, hroot⟩
      · exact h.below t body (hsame ▸ hmem)
      · rw [hroot] at hmem
        simp [Kernel.rootFrames] at hmem
  fork := by
    intro t body hmem
    by_cases ht : t = s.currentThread
    · subst ht
      have hrest : .call (.threadFork body) ∉ rest := by
        have hbelow := h.below s.currentThread body
        rwa [hat.stack] at hbelow
      rw [hat.stack_self] at hmem
      have hnew := (List.mem_append.mp hmem).resolve_right hrest
      rcases stepAt_cases hat with ⟨k, rs, rfl, hexec, rfl⟩ | ⟨hclient, -⟩
      · have hasks : k.Asks s.pop rs := userExec_asks hexec
        obtain ⟨-, -, -, hentry, -⟩ := asks_fork hasks (fork_mem_asks hnew)
        exact ⟨(clientStep_of_stepAt hat).currentThread.symm, hentry⟩
      · exact absurd hnew (pushes_noFork hat.pushes hclient)
    · rcases hat.stack_other t ht with hsame | ⟨body', -, -, hroot⟩
      · exact absurd (h.fork t body (hsame ▸ hmem)).1 ht
      · rw [hroot] at hmem
        simp [Kernel.rootFrames] at hmem

theorem staged_boot (pid : ThreadId → Int) : Staged (userBoot pid) := by
  constructor
  case stage =>
    intro t
    by_cases ht : t = 0
    · subst ht
      exact .booting rfl
    · have hempty : (userBoot pid).stack t = [] := by simp [userBoot, Kernel.boot, ht]
      rw [hempty]
      exact .gone
  case below =>
    intro t body
    by_cases ht : t = 0
    · simp [userBoot, Kernel.boot, ht]
    · simp [userBoot, Kernel.boot, ht]
  case fork =>
    intro t body hmem
    by_cases ht : t = 0
    · simp [userBoot, Kernel.boot, ht] at hmem
    · simp [userBoot, Kernel.boot, ht] at hmem

theorem UserReachable.staged (h : UserReachable s) : Staged s := by
  obtain ⟨pid, hrun⟩ := h
  exact ((orderly_boot pid).invariant hrun
    (fun _ _ _ _ _ _ hu _ _ hat hP => hP.step hu hat) (staged_boot pid)).2

end Runs

end Userprog
end Nachos
