import Nachos.Userprog.ThreadStages

/-!
# What the system calls do to processes and threads

`ProcessEffect` lists, for the program points of `StartProcess`, `Exec`, `Fork`
and `Exit`, what they do to the process table and to the fields `space` and `pid`
of threads, and what they ask for next.  No other program point touches these.
-/

namespace Nachos
namespace Userprog

open Threads Lib

/-- The program points that are about processes. -/
def UserFrame.isProcess : UserFrame → Bool
  | .startProcess => true
  | .execBody => true
  | .spaceDone _ _ => true
  | .processFind _ _ => true
  | .processStore _ _ _ => true
  | .execFork _ _ => true
  | .forkBody => true
  | .exitBody => true
  | .removeBody _ => true
  | _ => false

/-- The fields that are about processes. -/
structure SameProcesses (u state : Userland) : Prop where
  processTable : state.processTable = u.processTable
  space : state.space = u.space
  pid : state.pid = u.pid
  nextSpace : state.nextSpace = u.nextSpace

/-- What the code at a program point does to the processes, and what it asks
for. -/
inductive ProcessEffect (s : UserKernel) :
    UserFrame → Userland → List (Request UserFrame) → Prop
  | other {k : UserFrame} {state : Userland} {rs : List (Request UserFrame)}
      (hk : k.isProcess = false) (hsame : SameProcesses s.client state) :
      ProcessEffect s k state rs
  | noFile : ProcessEffect s .startProcess s.client []
  | constructs {k : UserFrame} {use : SpaceUse} {state : Userland}
      (hk : k = .startProcess ∧ use = .startProcess ∨ k = .execBody ∧ use = .exec)
      (hprocessTable : state.processTable = s.client.processTable)
      (hspace : state.space = s.client.space) (hpid : state.pid = s.client.pid)
      (hnext : state.nextSpace = s.client.nextSpace + 1) :
      ProcessEffect s k state [.call (.lockAcquire s.client.nextLock),
        .client (.spacePut s.client.nextSpace 1 use)]
  | noPages (space : SpaceId) (use : SpaceUse) :
      ProcessEffect s (.spaceDone space use) s.client [.halt]
  | constructed (space : SpaceId) (use : SpaceUse) :
      ProcessEffect s (.spaceDone space use)
        { s.client with
          space := match use with
            | .exec => s.client.space
            | .startProcess => Function.update s.client.space s.currentThread space }
        [.call (.lockAcquire processTableLock), .client (.processFind space use)]
  | found (space : SpaceId) (use : SpaceUse) :
      ProcessEffect s (.processFind space use)
        { s.client with
          processTable := s.client.processTable.mark s.client.processTable.firstClear }
        [.call (.lockRelease processTableLock),
          .client (.processStore space s.client.processTable.firstClear use)]
  | stored (space : SpaceId) (i : Int) (use : SpaceUse) {rs : List (Request UserFrame)}
      (hrs : use = .startProcess ∧ rs = [.setStatus .userMode, .client .oneInstruction] ∨
        use = .exec ∧ i = -1 ∧ rs = [.client (.sysReturn (-1))] ∨
        use = .exec ∧ i ≠ -1 ∧
          rs = [.call (.lockRelease syscallLock), .client (.execFork space i)]) :
      ProcessEffect s (.processStore space i use)
        { s.client with
          processTable := s.client.processTable.store i (some ⟨i, 1, 0⟩) } rs
  | execForked (space : SpaceId) (processID : Int) :
      ProcessEffect s (.execFork space processID) (adopt s space processID)
        [.call (.threadFork .newProcess), .client (.sysReturn processID)]
  | notFound (h : s.client.processTable.get (s.client.pid s.currentThread) = none) :
      ProcessEffect s .forkBody s.client [.client (.sysReturn 0)]
  | forked (p : Process)
      (h : s.client.processTable.get (s.client.pid s.currentThread) = some p) :
      ProcessEffect s .forkBody
        { adopt s (s.client.space s.currentThread) (s.client.pid s.currentThread) with
          processTable := s.client.processTable.store (s.client.pid s.currentThread)
            (some { p with activeThreadCount := p.activeThreadCount + 1 }) }
        [.call (.threadFork .kernelRun), .call (.lockRelease syscallLock),
          .client (.sysReturn 0)]
  | lastExits (p : Process)
      (h : s.client.processTable.get (s.client.pid s.currentThread) = some p)
      (hlast : p.activeThreadCount = 1) :
      ProcessEffect s .exitBody s.client [.call (.lockRelease syscallLock),
        .client (.exitRemove (s.client.pid s.currentThread)), .call .threadFinish]
  | exits (p : Process)
      (h : s.client.processTable.get (s.client.pid s.currentThread) = some p)
      (hlast : p.activeThreadCount ≠ 1) :
      ProcessEffect s .exitBody
        { s.client with
          processTable := s.client.processTable.store (s.client.pid s.currentThread)
            (some { p with
              activeThreadCount := p.activeThreadCount - 1
              inactiveThreadCount := p.inactiveThreadCount + 1 }) }
        [.call (.lockRelease syscallLock), .call .threadFinish]
  | removed (processID : Int) :
      ProcessEffect s (.removeBody processID)
        { s.client with processTable := s.client.processTable.clear processID }
        [.call (.lockRelease processTableLock)]

section Effects

variable {input : Input} {s : UserKernel} {state : Userland} {rs : List (Request UserFrame)}

theorem answer_sameProcesses {u : Userland} {requests : List (Request UserFrame)}
    (h : (.ok (u, requests) : Answer) = .ok (state, rs)) (hu : SameProcesses s.client u) :
    SameProcesses s.client state :=
  answer_state h ▸ hu

/-- No other program point is about processes. -/
theorem userExec_sameProcesses {k : UserFrame} (h : userExec input k s = .ok (state, rs))
    (hk : k.isProcess = false) : SameProcesses s.client state := by
  have hself : SameProcesses s.client s.client := ⟨rfl, rfl, rfl, rfl⟩
  cases k with
  | exceptionHandler call =>
      rw [exceptionHandler_state h]
      exact hself
  | printfBody =>
      rw [withBuffer_state h answer_state]
      exact hself
  | startProcess => simp [UserFrame.isProcess] at hk
  | execBody => simp [UserFrame.isProcess] at hk
  | spaceDone space use => simp [UserFrame.isProcess] at hk
  | processFind space use => simp [UserFrame.isProcess] at hk
  | processStore space i use => simp [UserFrame.isProcess] at hk
  | execFork space processID => simp [UserFrame.isProcess] at hk
  | forkBody => simp [UserFrame.isProcess] at hk
  | exitBody => simp [UserFrame.isProcess] at hk
  | removeBody processID => simp [UserFrame.isProcess] at hk
  | _ =>
      simp only [userExec, oneInstruction, acquireCheck, releaseCheck, releaseTail, waitCheck,
        waitBody, waitTail, releaseOnError, signalCheck, signalTail, broadcastCheck,
        createLockBody, createCVBody, destroyLockBody, destroyCVBody, openFind, openStore,
        closeBody, spacePut, exitRemove] at h
      repeat' split at h
      all_goals first
        | exact answer_sameProcesses h ⟨rfl, rfl, rfl, rfl⟩
        | simp at h

/-- `Exit_Syscall`; the table always has room for a second process. -/
theorem exitBody_effect (h : exitBody s = .ok (state, rs))
    (hsize : 1 < s.client.processTable.size) : ProcessEffect s .exitBody state rs := by
  simp only [exitBody] at h
  split at h
  · exact absurd h (by simp)
  · rename_i p hp
    rw [if_pos hsize] at h
    split at h
    · rename_i hlast
      obtain ⟨rfl, rfl⟩ := Prod.mk.inj (Except.ok.inj h)
      exact .lastExits p hp hlast
    · rename_i hlast
      obtain ⟨rfl, rfl⟩ := Prod.mk.inj (Except.ok.inj h)
      exact .exits p hp hlast

/-- What every program point does to the processes. -/
theorem userExec_process {k : UserFrame} (h : userExec input k s = .ok (state, rs))
    (hsize : 1 < s.client.processTable.size) : ProcessEffect s k state rs := by
  cases hk : k.isProcess with
  | false => exact .other hk (userExec_sameProcesses h hk)
  | true =>
      cases k with
      | startProcess =>
          simp only [userExec] at h
          split at h
          · obtain ⟨rfl, rfl⟩ := Prod.mk.inj (Except.ok.inj h)
            exact .constructs (Or.inl ⟨rfl, rfl⟩) rfl rfl rfl rfl
          · obtain ⟨rfl, rfl⟩ := Prod.mk.inj (Except.ok.inj h)
            exact .noFile
      | execBody =>
          obtain ⟨rfl, rfl⟩ := Prod.mk.inj (Except.ok.inj h)
          exact .constructs (Or.inr ⟨rfl, rfl⟩) rfl rfl rfl rfl
      | spaceDone space use =>
          simp only [userExec, spaceDone] at h
          split at h
          · exact absurd h (by simp)
          · obtain ⟨rfl, rfl⟩ := Prod.mk.inj (Except.ok.inj h)
            exact .noPages space use
          · cases use with
            | exec =>
                obtain ⟨rfl, rfl⟩ := Prod.mk.inj (Except.ok.inj h)
                exact .constructed space .exec
            | startProcess =>
                obtain ⟨rfl, rfl⟩ := Prod.mk.inj (Except.ok.inj h)
                exact .constructed space .startProcess
      | processFind space use =>
          obtain ⟨rfl, rfl⟩ := Prod.mk.inj (Except.ok.inj h)
          exact .found space use
      | processStore space i use =>
          simp only [userExec, processStore] at h
          cases use with
          | exec =>
              simp only at h
              split at h
              · rename_i hi
                obtain ⟨rfl, rfl⟩ := Prod.mk.inj (Except.ok.inj h)
                exact .stored space i .exec (Or.inr (Or.inl ⟨rfl, hi, rfl⟩))
              · rename_i hi
                obtain ⟨rfl, rfl⟩ := Prod.mk.inj (Except.ok.inj h)
                exact .stored space i .exec (Or.inr (Or.inr ⟨rfl, hi, rfl⟩))
          | startProcess =>
              obtain ⟨rfl, rfl⟩ := Prod.mk.inj (Except.ok.inj h)
              exact .stored space i .startProcess (Or.inl ⟨rfl, rfl⟩)
      | execFork space processID =>
          obtain ⟨rfl, rfl⟩ := Prod.mk.inj (Except.ok.inj h)
          exact .execForked space processID
      | forkBody =>
          simp only [userExec, forkBody] at h
          split at h
          · rename_i hnone
            obtain ⟨rfl, rfl⟩ := Prod.mk.inj (Except.ok.inj h)
            exact .notFound hnone
          · rename_i p hp
            obtain ⟨rfl, rfl⟩ := Prod.mk.inj (Except.ok.inj h)
            exact .forked p hp
      | exitBody => exact exitBody_effect h hsize
      | removeBody processID =>
          obtain ⟨rfl, rfl⟩ := Prod.mk.inj (Except.ok.inj h)
          exact .removed processID
      | _ => exact absurd hk (by simp [UserFrame.isProcess])

end Effects

end Userprog
end Nachos
