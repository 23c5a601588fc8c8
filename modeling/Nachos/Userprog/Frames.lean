import Nachos.Userprog.Tables

/-!
# What one step of a system call can do

`UserFrame.Asks` lists, for every program point of the system calls, the calls
it may make next; `Tidy` is the shape of the stacks that follows from it.  There
is one program point of a system call on a stack at a time, what lies below it
is the loop of `Machine::Run`, and a thread that asks for one of the four global
locks has the program point that gives it back on its stack already.
-/

namespace Nachos
namespace Userprog

open Threads Lib

/-- The lock a system call takes first and the program point behind it. -/
def Syscall.enters (s : UserKernel) : Syscall → Option (LockId × UserFrame)
  | .openFile => some ((currentFileTable s).lock, .openFind)
  | .close fd => some ((currentFileTable s).lock, .closeBody fd)
  | .exec => some (syscallLock, .execBody)
  | .fork => some (syscallLock, .forkBody)
  | .exit _ => some (syscallLock, .exitBody)
  | .acquire n => some (lockTableLock, .acquireCheck n)
  | .release n => some (lockTableLock, .releaseCheck n)
  | .wait x lock => some (cvTableLock, .waitCheck x lock)
  | .signal y a => some (cvTableLock, .signalCheck y a)
  | .broadcast z b => some (cvTableLock, .broadcastCheck z b)
  | .createLock => some (lockTableLock, .createLockBody)
  | .destroyLock n => some (lockTableLock, .destroyLockBody n)
  | .createCV => some (cvTableLock, .createCVBody)
  | .destroyCV n => some (cvTableLock, .destroyCVBody n)
  | .printf => some (printfLock, .printfBody)
  | _ => none

/-- The requests a program point may answer with. -/
def UserFrame.Asks (s : UserKernel) : UserFrame → List (Request UserFrame) → Prop
  | .startProcess, rs => rs = [] ∨ rs = [.call (.lockAcquire s.client.nextLock),
      .client (.spacePut s.client.nextSpace 1 .startProcess)]
  | .newProcess, rs => rs = [.setStatus .userMode, .client .oneInstruction]
  | .kernelRun, rs => rs = [.setStatus .userMode, .client .oneInstruction]
  | .oneInstruction, rs => rs = [.oneTick, .client .oneInstruction] ∨
      rs = [.setStatus .systemMode, .halt] ∨
      ∃ call, rs = [.setStatus .systemMode, .client (.exceptionHandler call),
        .setStatus .userMode, .oneTick, .client .oneInstruction]
  | .exceptionHandler call, rs => rs = [.halt] ∨ (∃ rv, rs = [.client (.sysReturn rv)]) ∨
      rs = [.call .threadYield, .client (.sysReturn 0)] ∨
      ∃ g k, call.enters s = some (g, k) ∧ rs = [.call (.lockAcquire g), .client k]
  | .sysReturn _, rs => rs = []
  | .acquireCheck n, rs =>
      rs = [.call (.lockRelease lockTableLock), .client (.sysReturn 0)] ∨
      ∃ k, index? s.client.lockTable n = some ⟨some k, false⟩ ∧
        rs = [.call (.lockAcquire k), .call (.lockRelease lockTableLock),
          .client (.sysReturn 0)]
  | .releaseCheck n, rs =>
      rs = [.call (.lockRelease lockTableLock), .client (.sysReturn 0)] ∨
      ∃ k, s.client.lockAt n = some k ∧
        rs = [.call (.lockRelease k), .call (.lockRelease lockTableLock),
          .client (.releaseTail n)]
  | .releaseTail _, rs => rs = [.client (.sysReturn 0)]
  | .waitCheck x lock, rs =>
      rs = [.call (.lockRelease cvTableLock), .client (.releaseOnError lock)] ∨
      (s.client.cvAt x ≠ none ∧ s.client.lockAt lock ≠ none ∧
        rs = [.call (.lockRelease cvTableLock), .client (.waitBody x lock)])
  | .waitBody x lock, rs =>
      ∃ c isDeleted entry, index? s.client.cvTable x = some ⟨some c, isDeleted⟩ ∧
        index? s.client.lockTable lock = some entry ∧
        rs = [.call (.conditionWait c entry.kernelLock), .client (.waitTail lock)]
  | .waitTail lock, rs => ∃ k, s.client.lockAt lock = some k ∧
      rs = [.call (.lockRelease k), .client (.sysReturn 0)]
  | .signalCheck y a, rs =>
      rs = [.call (.lockRelease cvTableLock), .client (.releaseOnError a)] ∨
      ∃ c k, s.client.cvAt y = some c ∧ s.client.lockAt a = some k ∧
        rs = [.call (.conditionSignal c (some k)), .client (.signalTail y)]
  | .signalTail _, rs => rs = [.call (.lockRelease cvTableLock), .client (.sysReturn 0)]
  | .broadcastCheck z b, rs =>
      rs = [.call (.lockRelease cvTableLock), .client (.releaseOnError b)] ∨
      ∃ c k, s.client.cvAt z = some c ∧ s.client.lockAt b = some k ∧
        rs = [.call (.conditionBroadcast c (some k)), .call (.lockRelease cvTableLock),
          .client (.sysReturn 0)]
  | .releaseOnError lock, rs => ∃ k, s.client.lockAt lock = some k ∧
      rs = [.call (.lockRelease k), .client (.sysReturn 0)]
  | .createLockBody, rs =>
      ∃ rv, rs = [.call (.lockRelease lockTableLock), .client (.sysReturn rv)]
  | .destroyLockBody _, rs =>
      rs = [.call (.lockRelease lockTableLock), .client (.sysReturn 0)]
  | .createCVBody, rs =>
      ∃ rv, rs = [.call (.lockRelease cvTableLock), .client (.sysReturn rv)]
  | .destroyCVBody _, rs => rs = [.call (.lockRelease cvTableLock), .client (.sysReturn 0)]
  | .printfBody, rs => rs = [.halt] ∨
      rs = [.call (.lockRelease printfLock), .client (.sysReturn 0)]
  | .openFind, rs => ∃ i, rs = [.call (.lockRelease (currentFileTable s).lock),
      .client (.openStore i)]
  | .openStore i, rs => rs = [.client (.sysReturn i)]
  | .closeBody _, rs => rs = [.call (.lockRelease (currentFileTable s).lock),
      .client (.sysReturn 0)]
  | .execBody, rs => rs = [.call (.lockAcquire s.client.nextLock),
      .client (.spacePut s.client.nextSpace 1 .exec)]
  | .spacePut space more use, rs =>
      more = 0 ∧ rs = [.call (.lockRelease (s.client.fileTable space).lock),
        .client (.spaceDone space use)] ∨
      ∃ m, more = m + 1 ∧ rs = [.call (.lockRelease (s.client.fileTable space).lock),
        .call (.lockAcquire (s.client.fileTable space).lock), .client (.spacePut space m use)]
  | .spaceDone space use, rs => rs = [.halt] ∨
      rs = [.call (.lockAcquire processTableLock), .client (.processFind space use)]
  | .processFind space use, rs => rs = [.call (.lockRelease processTableLock),
      .client (.processStore space s.client.processTable.firstClear use)]
  | .processStore space i use, rs =>
      use = .startProcess ∧ rs = [.setStatus .userMode, .client .oneInstruction] ∨
      use = .exec ∧ i = -1 ∧ rs = [.client (.sysReturn (-1))] ∨
      use = .exec ∧ i ≠ -1 ∧ rs = [.call (.lockRelease syscallLock),
        .client (.execFork space i)]
  | .execFork _ processID, rs =>
      rs = [.call (.threadFork .newProcess), .client (.sysReturn processID)]
  | .forkBody, rs =>
      s.client.processTable.get (s.client.pid s.currentThread) = none ∧
        rs = [.client (.sysReturn 0)] ∨
      s.client.processTable.get (s.client.pid s.currentThread) ≠ none ∧
        rs = [.call (.threadFork .kernelRun), .call (.lockRelease syscallLock),
          .client (.sysReturn 0)]
  | .exitBody, rs => ∃ processID,
      rs = [.call (.lockRelease syscallLock), .client (.exitRemove processID),
        .call .threadFinish] ∨
      rs = [.call (.lockRelease syscallLock), .call .threadFinish] ∨
      ¬ 1 < s.client.processTable.size ∧ rs = [.client (.exitRemove processID), .halt]
  | .exitRemove processID, rs => rs = [] ∨
      rs = [.call (.lockAcquire processTableLock), .client (.removeBody processID)]
  | .removeBody _, rs => rs = [.call (.lockRelease processTableLock)]

section Asks

attribute [local simp] userExec

variable {input : Input} {s : UserKernel} {state : Userland} {rs : List (Request UserFrame)}

theorem withBuffer_ok {answer : Answer} (h : withBuffer input s answer = .ok (state, rs)) :
    rs = [.halt] ∨ answer = .ok (state, rs) := by
  unfold withBuffer at h
  split at h
  · split at h
    · exact Or.inr h
    · simp only [Except.ok.injEq, Prod.mk.injEq] at h
      exact Or.inl h.2.symm
  · exact absurd h (by simp)

/-- A system call that allocates nothing under a lock halts the machine or
returns at once. -/
theorem answer_ok {u : Userland} {requests : List (Request UserFrame)}
    (h : (.ok (u, requests) : Answer) = .ok (state, rs)) : rs = requests := by
  simp only [Except.ok.injEq, Prod.mk.injEq] at h
  exact h.2.symm

theorem exceptionHandler_asks {call : Syscall}
    (h : exceptionHandler input s call = .ok (state, rs)) :
    (UserFrame.exceptionHandler call).Asks s rs := by
  simp only [UserFrame.Asks]
  cases call with
  | halt => exact Or.inl (answer_ok h)
  | create =>
      rcases withBuffer_ok h with hhalt | hok
      · exact Or.inl hhalt
      · exact Or.inr (Or.inl ⟨0, answer_ok hok⟩)
  | openFile =>
      rcases withBuffer_ok h with hhalt | hok
      · exact Or.inl hhalt
      · split at hok
        · exact Or.inr (Or.inr (Or.inr ⟨_, _, rfl, answer_ok hok⟩))
        · exact Or.inr (Or.inl ⟨-1, answer_ok hok⟩)
  | write id =>
      simp only [exceptionHandler, writeSyscall] at h
      split at h
      · exact Or.inr (Or.inl ⟨0, answer_ok h⟩)
      · rcases withBuffer_ok h with hhalt | hok
        · exact Or.inl hhalt
        · exact Or.inr (Or.inl ⟨0, answer_ok hok⟩)
  | read id =>
      simp only [exceptionHandler, readSyscall] at h
      split at h
      · exact Or.inr (Or.inl ⟨-1, answer_ok h⟩)
      · split at h
        · rcases withBuffer_ok h with hhalt | hok
          · exact Or.inl hhalt
          · exact Or.inr (Or.inl ⟨_, answer_ok hok⟩)
        · split at h
          · rcases withBuffer_ok h with hhalt | hok
            · exact Or.inl hhalt
            · exact Or.inr (Or.inl ⟨_, answer_ok hok⟩)
          · split at h
            · exact Or.inr (Or.inl ⟨-1, answer_ok h⟩)
            · exact absurd h (by simp)
  | close fd =>
      simp only [exceptionHandler, closeSyscall] at h
      split at h
      · exact Or.inr (Or.inr (Or.inr ⟨_, _, rfl, answer_ok h⟩))
      · exact Or.inr (Or.inl ⟨0, answer_ok h⟩)
  | exec =>
      rcases withBuffer_ok h with hhalt | hok
      · exact Or.inl hhalt
      · split at hok
        · exact Or.inr (Or.inr (Or.inr ⟨_, _, rfl, answer_ok hok⟩))
        · exact Or.inr (Or.inl ⟨-1, answer_ok hok⟩)
  | yield => exact Or.inr (Or.inr (Or.inl (answer_ok h)))
  | rand => exact Or.inr (Or.inl ⟨_, answer_ok h⟩)
  | unknown => exact Or.inr (Or.inl ⟨_, answer_ok h⟩)
  | _ => exact Or.inr (Or.inr (Or.inr ⟨_, _, rfl, answer_ok h⟩))

theorem releaseOnError_asks {lock : Int} (h : releaseOnError s lock = .ok (state, rs)) :
    ∃ k, s.client.lockAt lock = some k ∧
      rs = [.call (.lockRelease k), .client (.sysReturn 0)] := by
  unfold releaseOnError at h
  split at h
  · exact absurd h (by simp)
  · exact absurd h (by simp)
  · rename_i k isDeleted hentry
    exact ⟨k, by simp [Userland.lockAt, hentry], answer_ok h⟩

/-- What a program point answers is what `Asks` lists. -/
theorem userExec_asks {k : UserFrame} (h : userExec input k s = .ok (state, rs)) :
    k.Asks s rs := by
  cases k with
  | startProcess =>
      simp only [userExec] at h
      split at h
      · exact Or.inr (answer_ok h)
      · exact Or.inl (answer_ok h)
  | oneInstruction =>
      simp only [userExec, oneInstruction] at h
      split at h
      · exact Or.inl (answer_ok h)
      · exact Or.inr (Or.inr ⟨_, answer_ok h⟩)
      · exact Or.inr (Or.inl (answer_ok h))
  | exceptionHandler call => exact exceptionHandler_asks h
  | acquireCheck n =>
      simp only [userExec, acquireCheck] at h
      split at h
      · rename_i k hentry
        exact Or.inr ⟨k, hentry, answer_ok h⟩
      · exact Or.inl (answer_ok h)
  | releaseCheck n =>
      simp only [userExec, releaseCheck] at h
      split at h
      · rename_i k hentry
        exact Or.inr ⟨k, hentry, answer_ok h⟩
      · exact Or.inl (answer_ok h)
  | releaseTail n =>
      simp only [userExec, releaseTail] at h
      repeat' split at h
      all_goals first
        | exact answer_ok h
        | simp at h
  | waitCheck x lock =>
      simp only [userExec, waitCheck] at h
      split at h
      · rename_i c k hcv hlock
        exact Or.inr ⟨by simp [hcv], by simp [hlock], answer_ok h⟩
      · exact Or.inl (answer_ok h)
  | waitBody x lock =>
      simp only [userExec, waitBody] at h
      split at h
      · rename_i c isDeleted entry hcv hlock
        exact ⟨c, isDeleted, entry, hcv, hlock, answer_ok h⟩
      · exact absurd h (by simp)
      · exact absurd h (by simp)
  | waitTail lock => exact releaseOnError_asks h
  | releaseOnError lock => exact releaseOnError_asks h
  | signalCheck y a =>
      simp only [userExec, signalCheck] at h
      split at h
      · rename_i c k hcv hlock
        exact Or.inr ⟨c, k, hcv, hlock, answer_ok h⟩
      · exact Or.inl (answer_ok h)
  | signalTail y =>
      simp only [userExec, signalTail] at h
      repeat' split at h
      all_goals first
        | exact answer_ok h
        | simp at h
  | broadcastCheck z b =>
      simp only [userExec, broadcastCheck] at h
      split at h
      · rename_i c k hcv hlock
        exact Or.inr ⟨c, k, hcv, hlock, answer_ok h⟩
      · exact Or.inl (answer_ok h)
  | createLockBody => exact ⟨_, answer_ok h⟩
  | createCVBody => exact ⟨_, answer_ok h⟩
  | destroyLockBody n =>
      simp only [userExec, destroyLockBody] at h
      repeat' split at h
      all_goals exact answer_ok h
  | destroyCVBody n =>
      simp only [userExec, destroyCVBody] at h
      repeat' split at h
      all_goals exact answer_ok h
  | printfBody =>
      rcases withBuffer_ok h with hhalt | hok
      · exact Or.inl hhalt
      · exact Or.inr (answer_ok hok)
  | openFind => exact ⟨_, answer_ok h⟩
  | spacePut space more use =>
      simp only [userExec, spacePut] at h
      split at h
      · exact Or.inl ⟨rfl, answer_ok h⟩
      · exact Or.inr ⟨_, rfl, answer_ok h⟩
  | spaceDone space use =>
      simp only [userExec, spaceDone] at h
      split at h
      · exact absurd h (by simp)
      · exact Or.inl (answer_ok h)
      · exact Or.inr (answer_ok h)
  | processStore space i use =>
      simp only [userExec, processStore] at h
      split at h
      · split at h
        · rename_i hfull
          exact Or.inr (Or.inl ⟨rfl, hfull, answer_ok h⟩)
        · rename_i hfound
          exact Or.inr (Or.inr ⟨rfl, hfound, answer_ok h⟩)
      · exact Or.inl ⟨rfl, answer_ok h⟩
  | forkBody =>
      simp only [userExec, forkBody] at h
      split at h
      · rename_i hnone
        exact Or.inl ⟨hnone, answer_ok h⟩
      · rename_i p hsome
        exact Or.inr ⟨by simp [hsome], answer_ok h⟩
  | exitBody =>
      simp only [userExec, exitBody] at h
      split at h
      · exact absurd h (by simp)
      · split at h
        · split at h
          · exact ⟨_, Or.inl (answer_ok h)⟩
          · exact ⟨0, Or.inr (Or.inl (answer_ok h))⟩
        · rename_i hsize
          split at h
          · exact ⟨_, Or.inr (Or.inr ⟨hsize, answer_ok h⟩)⟩
          · exact ⟨0, Or.inr (Or.inl (answer_ok h))⟩
  | exitRemove processID =>
      simp only [userExec, exitRemove] at h
      split at h
      · exact Or.inr (answer_ok h)
      · exact Or.inl (answer_ok h)
  | _ => exact answer_ok h

end Asks

section Index

variable {α : Type} {table : List α} {n m : Int} {entry x : α}

theorem index?_eq_some : index? table n = some entry ↔
    0 ≤ n ∧ table[n.toNat]? = some entry := by
  unfold index?
  by_cases h : n < 0
  · simp [h, Int.not_le.mpr h]
  · simp [h, Int.not_lt.mp h]

theorem index?_mem (h : index? table n = some entry) : entry ∈ table :=
  List.mem_of_getElem? (index?_eq_some.mp h).2

theorem index?_append (h : index? table n = some entry) :
    index? (table ++ [x]) n = some entry := by
  obtain ⟨hn, hget⟩ := index?_eq_some.mp h
  refine index?_eq_some.mpr ⟨hn, ?_⟩
  rw [List.getElem?_append_left (List.getElem?_eq_some_iff.mp hget).1, hget]

/-- An entry of the longer table is an old one or the new one. -/
theorem index?_append_cases (h : index? (table ++ [x]) n = some entry) :
    index? table n = some entry ∨ n = table.length ∧ entry = x := by
  obtain ⟨hn, hget⟩ := index?_eq_some.mp h
  rcases Nat.lt_or_ge n.toNat table.length with hlt | hge
  · rw [List.getElem?_append_left hlt] at hget
    exact Or.inl (index?_eq_some.mpr ⟨hn, hget⟩)
  · rw [List.getElem?_append_right hge] at hget
    have hlast : n.toNat - table.length = 0 := by
      by_contra hne
      rw [List.getElem?_eq_none (by simp; omega)] at hget
      exact absurd hget (by simp)
    rw [hlast] at hget
    refine Or.inr ⟨by omega, ?_⟩
    simpa using hget.symm

/-- What an assignment to an entry leaves at an index. -/
theorem index?_set_cases (hm : 0 ≤ m) (h : index? (table.set m.toNat x) n = some entry) :
    n = m ∧ entry = x ∨ n ≠ m ∧ index? table n = some entry := by
  obtain ⟨hn, hget⟩ := index?_eq_some.mp h
  rw [List.getElem?_set] at hget
  split at hget
  · rename_i heq
    split at hget
    · exact Or.inl ⟨by omega, (Option.some.inj hget).symm⟩
    · exact absurd hget (by simp)
  · rename_i hne
    exact Or.inr ⟨by omega, index?_eq_some.mpr ⟨hn, hget⟩⟩

theorem index?_set_self (h : index? table n = some entry) :
    index? (table.set n.toNat x) n = some x := by
  obtain ⟨hn, hget⟩ := index?_eq_some.mp h
  have hlt := (List.getElem?_eq_some_iff.mp hget).1
  exact index?_eq_some.mpr ⟨hn, by simp [hlt]⟩

theorem index?_set_ne (hm : 0 ≤ m) (hne : n ≠ m) :
    index? (table.set m.toNat x) n = index? table n := by
  unfold index?
  split
  · rfl
  · rename_i hn
    rw [List.getElem?_set_ne (by omega)]

/-- In a table without duplicates different indices have different entries. -/
theorem index?_injective (hnodup : table.Nodup) (hn : index? table n = some entry)
    (hm : index? table m = some entry) : n = m := by
  obtain ⟨hn0, hnget⟩ := index?_eq_some.mp hn
  obtain ⟨hm0, hmget⟩ := index?_eq_some.mp hm
  have hlt := (List.getElem?_eq_some_iff.mp hnget).1
  have hsame : n.toNat = m.toNat :=
    (List.getElem?_inj hlt hnodup).mp (hnget.trans hmget.symm)
  omega

end Index

section Tables

variable {input : Input} {s : UserKernel} {state : Userland} {rs : List (Request UserFrame)}

/-- What a step at `frame` can do to the lock table. -/
inductive LockTableEffect (s : UserKernel) (frame : UserFrame) (state : Userland) : Prop
  /-- Nothing happens to it. -/
  | same (htable : state.lockTable = s.client.lockTable)
      (hobjects : state.lockObjects = s.client.lockObjects)
  /-- `CreateLock_Syscall` appends an entry. -/
  | created (hframe : frame = .createLockBody)
      (htable : state.lockTable = s.client.lockTable ++ [⟨some s.client.nextLock, false⟩])
      (hobjects : state.lockObjects = s.client.lockObjects ++ [s.client.nextLock])
  /-- `DestroyLock_Syscall` marks a lock that somebody waits for. -/
  | marked (n : Int) (k : LockId) (hframe : frame = .destroyLockBody n)
      (hentry : index? s.client.lockTable n = some ⟨some k, false⟩)
      (hwaiting : (s.lock k).waitingThreads ≠ [])
      (htable : state.lockTable = s.client.lockTable.set n.toNat ⟨some k, true⟩)
      (hobjects : state.lockObjects = s.client.lockObjects)
  /-- `DestroyLock_Syscall` or `Release_Syscall` drops a lock nobody waits for. -/
  | killed (n : Int) (k : LockId) (isDeleted : Bool)
      (hframe : frame = .destroyLockBody n ∨ frame = .releaseTail n ∧ isDeleted = true)
      (hentry : index? s.client.lockTable n = some ⟨some k, isDeleted⟩)
      (hwaiting : (s.lock k).waitingThreads = [])
      (htable : state.lockTable = s.client.lockTable.set n.toNat ⟨none, true⟩)
      (hobjects : state.lockObjects = s.client.lockObjects)

/-- What a step at `frame` can do to the condition table. -/
inductive CVTableEffect (s : UserKernel) (frame : UserFrame) (state : Userland) : Prop
  /-- Nothing happens to it. -/
  | same (htable : state.cvTable = s.client.cvTable)
      (hobjects : state.cvObjects = s.client.cvObjects)
  /-- `CreateCV_Syscall` appends an entry. -/
  | created (hframe : frame = .createCVBody)
      (htable : state.cvTable = s.client.cvTable ++ [⟨some s.client.nextCondition, false⟩])
      (hobjects : state.cvObjects = s.client.cvObjects ++ [s.client.nextCondition])
  /-- `DestroyCV_Syscall` marks a condition that somebody waits for. -/
  | marked (n : Int) (c : ConditionId) (hframe : frame = .destroyCVBody n)
      (hentry : index? s.client.cvTable n = some ⟨some c, false⟩)
      (hwaiting : (s.condition c).waitingCV ≠ [])
      (htable : state.cvTable = s.client.cvTable.set n.toNat ⟨some c, true⟩)
      (hobjects : state.cvObjects = s.client.cvObjects)
  /-- `DestroyCV_Syscall` or `Signal_Syscall` drops a condition nobody waits for. -/
  | killed (n : Int) (c : ConditionId) (isDeleted : Bool)
      (hframe : frame = .destroyCVBody n ∨ frame = .signalTail n ∧ isDeleted = true)
      (hentry : index? s.client.cvTable n = some ⟨some c, isDeleted⟩)
      (hwaiting : (s.condition c).waitingCV = [])
      (htable : state.cvTable = s.client.cvTable.set n.toNat ⟨none, true⟩)
      (hobjects : state.cvObjects = s.client.cvObjects)

/-- The fields of the globals that hold synchronization objects. -/
structure SameTables (u state : Userland) : Prop where
  lockTable : state.lockTable = u.lockTable
  lockObjects : state.lockObjects = u.lockObjects
  cvTable : state.cvTable = u.cvTable
  cvObjects : state.cvObjects = u.cvObjects

theorem SameTables.lock_same {frame : UserFrame} (h : SameTables s.client state) :
    LockTableEffect s frame state :=
  .same h.lockTable h.lockObjects

theorem SameTables.cv_same {frame : UserFrame} (h : SameTables s.client state) :
    CVTableEffect s frame state :=
  .same h.cvTable h.cvObjects

theorem answer_state {u : Userland} {requests : List (Request UserFrame)}
    (h : (.ok (u, requests) : Answer) = .ok (state, rs)) : state = u := by
  simp only [Except.ok.injEq, Prod.mk.injEq] at h
  exact h.1.symm

theorem answer_sameTables {u : Userland} {requests : List (Request UserFrame)}
    (h : (.ok (u, requests) : Answer) = .ok (state, rs)) (hu : SameTables s.client u) :
    SameTables s.client state :=
  answer_state h ▸ hu

theorem withBuffer_state {answer : Answer}
    (h : withBuffer input s answer = .ok (state, rs))
    (hanswer : answer = .ok (state, rs) → state = s.client) : state = s.client := by
  unfold withBuffer at h
  split at h
  · split at h
    · exact hanswer h
    · exact answer_state h
  · exact absurd h (by simp)

/-- The dispatch of a system call changes no global. -/
theorem exceptionHandler_state {call : Syscall}
    (h : exceptionHandler input s call = .ok (state, rs)) : state = s.client := by
  cases call with
  | create => exact withBuffer_state h answer_state
  | openFile =>
      refine withBuffer_state h fun hanswer => ?_
      split at hanswer
      · exact answer_state hanswer
      · exact answer_state hanswer
  | exec =>
      refine withBuffer_state h fun hanswer => ?_
      split at hanswer
      · exact answer_state hanswer
      · exact answer_state hanswer
  | write id =>
      simp only [exceptionHandler, writeSyscall] at h
      split at h
      · exact answer_state h
      · exact withBuffer_state h answer_state
  | read id =>
      simp only [exceptionHandler, readSyscall] at h
      split at h
      · exact answer_state h
      · split at h
        · exact withBuffer_state h answer_state
        · split at h
          · exact withBuffer_state h answer_state
          · split at h
            · exact answer_state h
            · exact absurd h (by simp)
  | close fd =>
      simp only [exceptionHandler, closeSyscall] at h
      split at h
      · exact answer_state h
      · exact answer_state h
  | _ => exact answer_state h

/-- The program points that change a table of synchronization objects. -/
def UserFrame.editsTables : UserFrame → Bool
  | .createLockBody => true
  | .destroyLockBody _ => true
  | .releaseTail _ => true
  | .createCVBody => true
  | .destroyCVBody _ => true
  | .signalTail _ => true
  | _ => false

/-- No other program point changes them. -/
theorem userExec_sameTables {k : UserFrame} (h : userExec input k s = .ok (state, rs))
    (hk : k.editsTables = false) : SameTables s.client state := by
  have hself : SameTables s.client s.client := ⟨rfl, rfl, rfl, rfl⟩
  cases k with
  | createLockBody => simp [UserFrame.editsTables] at hk
  | destroyLockBody n => simp [UserFrame.editsTables] at hk
  | releaseTail n => simp [UserFrame.editsTables] at hk
  | createCVBody => simp [UserFrame.editsTables] at hk
  | destroyCVBody n => simp [UserFrame.editsTables] at hk
  | signalTail n => simp [UserFrame.editsTables] at hk
  | exceptionHandler call =>
      rw [exceptionHandler_state h]
      exact hself
  | printfBody =>
      rw [withBuffer_state h answer_state]
      exact hself
  | spaceDone space use =>
      simp only [userExec, spaceDone] at h
      split at h
      · exact absurd h (by simp)
      · exact answer_sameTables h hself
      · refine answer_sameTables h ?_
        cases use with
        | exec => exact hself
        | startProcess => exact ⟨rfl, rfl, rfl, rfl⟩
  | startProcess =>
      simp only [userExec] at h
      split at h
      · exact answer_sameTables h ⟨rfl, rfl, rfl, rfl⟩
      · exact answer_sameTables h hself
  | _ =>
      simp only [userExec, oneInstruction, acquireCheck, releaseCheck, waitCheck, waitBody,
        waitTail, releaseOnError, signalCheck, broadcastCheck, openFind, openStore, closeBody,
        newAddrSpace, spacePut, processFind, processStore, execFork, forkBody, exitBody,
        exitRemove, removeBody] at h
      repeat' split at h
      all_goals first
        | exact answer_sameTables h ⟨rfl, rfl, rfl, rfl⟩
        | simp at h

theorem userExec_lockTable {k : UserFrame} (h : userExec input k s = .ok (state, rs)) :
    LockTableEffect s k state := by
  cases hedits : k.editsTables with
  | false => exact (userExec_sameTables h hedits).lock_same
  | true =>
      cases k with
      | createLockBody =>
          obtain rfl := answer_state h
          exact .created rfl rfl rfl
      | destroyLockBody n =>
          simp only [userExec, destroyLockBody] at h
          split at h
          · rename_i k isDeleted hentry
            split at h
            · rename_i hmark
              obtain rfl := answer_state h
              exact .marked n k rfl (hmark.2 ▸ hentry) hmark.1 rfl rfl
            · split at h
              · rename_i hkill
                obtain rfl := answer_state h
                exact .killed n k isDeleted (Or.inl rfl) hentry hkill.1 rfl rfl
              · split at h
                · rename_i hkill
                  obtain rfl := answer_state h
                  exact .killed n k isDeleted (Or.inl rfl) hentry hkill.1
                    (by simp [Userland.setLockEntry, hkill.2]) rfl
                · obtain rfl := answer_state h
                  exact .same rfl rfl
          · obtain rfl := answer_state h
            exact .same rfl rfl
      | releaseTail n =>
          simp only [userExec, releaseTail] at h
          split at h
          · exact absurd h (by simp)
          · rename_i entry hentry
            split at h
            · rename_i hdeleted
              split at h
              · exact absurd h (by simp)
              · rename_i k hlock
                split at h
                · rename_i hwaiting
                  obtain rfl := answer_state h
                  refine .killed n k true (Or.inr ⟨rfl, rfl⟩) ?_ hwaiting ?_ rfl
                  · rw [hentry, ← hdeleted, ← hlock]
                  · simp [Userland.setLockEntry, hdeleted]
                · obtain rfl := answer_state h
                  exact .same rfl rfl
            · obtain rfl := answer_state h
              exact .same rfl rfl
      | createCVBody =>
          obtain rfl := answer_state h
          exact .same rfl rfl
      | destroyCVBody n =>
          simp only [userExec, destroyCVBody] at h
          repeat' split at h
          all_goals exact answer_state h ▸ .same rfl rfl
      | signalTail n =>
          simp only [userExec, signalTail] at h
          repeat' split at h
          all_goals first
            | exact answer_state h ▸ .same rfl rfl
            | simp at h
      | _ => simp [UserFrame.editsTables] at hedits

theorem userExec_cvTable {k : UserFrame} (h : userExec input k s = .ok (state, rs)) :
    CVTableEffect s k state := by
  cases hedits : k.editsTables with
  | false => exact (userExec_sameTables h hedits).cv_same
  | true =>
      cases k with
      | createCVBody =>
          obtain rfl := answer_state h
          exact .created rfl rfl rfl
      | destroyCVBody n =>
          simp only [userExec, destroyCVBody] at h
          split at h
          · rename_i c isDeleted hentry
            split at h
            · rename_i hmark
              obtain rfl := answer_state h
              exact .marked n c rfl (hmark.2 ▸ hentry) hmark.1 rfl rfl
            · split at h
              · rename_i hkill
                obtain rfl := answer_state h
                exact .killed n c isDeleted (Or.inl rfl) hentry hkill.1 rfl rfl
              · split at h
                · rename_i hkill
                  obtain rfl := answer_state h
                  exact .killed n c isDeleted (Or.inl rfl) hentry hkill.1
                    (by simp [Userland.setCVEntry, hkill.2]) rfl
                · obtain rfl := answer_state h
                  exact .same rfl rfl
          · obtain rfl := answer_state h
            exact .same rfl rfl
      | signalTail n =>
          simp only [userExec, signalTail] at h
          split at h
          · exact absurd h (by simp)
          · rename_i entry hentry
            split at h
            · rename_i hdeleted
              split at h
              · exact absurd h (by simp)
              · rename_i c hcv
                split at h
                · rename_i hwaiting
                  obtain rfl := answer_state h
                  refine .killed n c true (Or.inr ⟨rfl, rfl⟩) ?_ hwaiting ?_ rfl
                  · rw [hentry, ← hdeleted, ← hcv]
                  · simp [Userland.setCVEntry, hdeleted]
                · obtain rfl := answer_state h
                  exact .same rfl rfl
            · obtain rfl := answer_state h
              exact .same rfl rfl
      | createLockBody =>
          obtain rfl := answer_state h
          exact .same rfl rfl
      | destroyLockBody n =>
          simp only [userExec, destroyLockBody] at h
          repeat' split at h
          all_goals exact answer_state h ▸ .same rfl rfl
      | releaseTail n =>
          simp only [userExec, releaseTail] at h
          repeat' split at h
          all_goals first
            | exact answer_state h ▸ .same rfl rfl
            | simp at h
      | _ => simp [UserFrame.editsTables] at hedits

/-- What a step allocates. -/
inductive AllocEffect (u : Userland) (frame : UserFrame) (state : Userland) : Prop
  /-- Nothing. -/
  | none (hlock : state.nextLock = u.nextLock)
      (hcondition : state.nextCondition = u.nextCondition)
      (hfiles : ∀ space, (state.fileTable space).lock = (u.fileTable space).lock)
      (hframe : frame ≠ .createLockBody ∧ frame ≠ .createCVBody)
  /-- A lock for the lock table. -/
  | lock (hframe : frame = .createLockBody) (hlock : state.nextLock = u.nextLock + 1)
      (hcondition : state.nextCondition = u.nextCondition)
      (hfiles : ∀ space, (state.fileTable space).lock = (u.fileTable space).lock)
  /-- A condition for the condition table. -/
  | condition (hframe : frame = .createCVBody) (hlock : state.nextLock = u.nextLock)
      (hcondition : state.nextCondition = u.nextCondition + 1)
      (hfiles : ∀ space, (state.fileTable space).lock = (u.fileTable space).lock)
  /-- The lock of a file table. -/
  | space (hframe : frame.editsTables = false) (hlock : state.nextLock = u.nextLock + 1)
      (hcondition : state.nextCondition = u.nextCondition)
      (hfiles : ∀ space, (state.fileTable space).lock = (u.fileTable space).lock ∨
        (state.fileTable space).lock = u.nextLock)

theorem Table.mark_lock {α : Type} (t : Table α) (i : Int) : (t.mark i).lock = t.lock := by
  unfold Table.mark
  split
  · rfl
  · rfl

theorem Table.store_lock {α : Type} (t : Table α) (i : Int) (f : Option α) :
    (t.store i f).lock = t.lock := by
  unfold Table.store
  split
  · rfl
  · rfl

theorem Table.clear_lock {α : Type} (t : Table α) (i : Int) : (t.clear i).lock = t.lock := by
  unfold Table.clear
  split
  · rfl
  · rfl

/-- An assignment to a file table that keeps its lock keeps all of them. -/
theorem update_fileTable_lock {files : SpaceId → Table Unit} {space : SpaceId}
    {table : Table Unit} (h : table.lock = (files space).lock) (x : SpaceId) :
    (Function.update files space table x).lock = (files x).lock := by
  by_cases hx : x = space
  · rw [hx, Function.update_self, h]
  · rw [Function.update_of_ne hx]

theorem newAddrSpace_alloc {use : SpaceUse} {frame : UserFrame}
    (hframe : frame.editsTables = false) (h : newAddrSpace s use = .ok (state, rs)) :
    AllocEffect s.client frame state := by
  obtain rfl := answer_state h
  refine .space hframe rfl rfl fun space => ?_
  by_cases hspace : space = s.client.nextSpace
  · exact Or.inr (by simp [hspace, Table.new])
  · exact Or.inl (by simp [hspace])

theorem userExec_alloc {k : UserFrame} (h : userExec input k s = .ok (state, rs)) :
    AllocEffect s.client k state := by
  cases k with
  | createLockBody =>
      obtain rfl := answer_state h
      exact .lock rfl rfl rfl fun _ => rfl
  | createCVBody =>
      obtain rfl := answer_state h
      exact .condition rfl rfl rfl fun _ => rfl
  | startProcess =>
      simp only [userExec] at h
      split at h
      · exact newAddrSpace_alloc rfl h
      · obtain rfl := answer_state h
        exact .none rfl rfl (fun _ => rfl) (by simp)
  | execBody => exact newAddrSpace_alloc rfl h
  | exceptionHandler call =>
      rw [exceptionHandler_state h]
      exact .none rfl rfl (fun _ => rfl) (by simp)
  | printfBody =>
      rw [withBuffer_state h answer_state]
      exact .none rfl rfl (fun _ => rfl) (by simp)
  | openFind =>
      obtain rfl := answer_state h
      exact .none rfl rfl (update_fileTable_lock (Table.mark_lock _ _)) (by simp)
  | openStore i =>
      obtain rfl := answer_state h
      exact .none rfl rfl (update_fileTable_lock (Table.store_lock _ _ _)) (by simp)
  | closeBody fd =>
      obtain rfl := answer_state h
      exact .none rfl rfl (update_fileTable_lock (Table.clear_lock _ _)) (by simp)
  | spacePut space more use =>
      simp only [userExec, spacePut] at h
      have hlock : (((s.client.fileTable space).mark
          (s.client.fileTable space).firstClear).store
          (s.client.fileTable space).firstClear none).lock = (s.client.fileTable space).lock := by
        rw [Table.store_lock, Table.mark_lock]
      split at h
      · obtain rfl := answer_state h
        exact .none rfl rfl (update_fileTable_lock hlock) (by simp)
      · obtain rfl := answer_state h
        exact .none rfl rfl (update_fileTable_lock hlock) (by simp)
  | spaceDone space use =>
      simp only [userExec, spaceDone] at h
      split at h
      · exact absurd h (by simp)
      · obtain rfl := answer_state h
        exact .none rfl rfl (fun _ => rfl) (by simp)
      · obtain rfl := answer_state h
        cases use with
        | exec => exact .none rfl rfl (fun _ => rfl) (by simp)
        | startProcess => exact .none rfl rfl (fun _ => rfl) (by simp)
  | _ =>
      simp only [userExec, oneInstruction, acquireCheck, releaseCheck, releaseTail, waitCheck,
        waitBody, waitTail, releaseOnError, signalCheck, signalTail, broadcastCheck,
        destroyLockBody, destroyCVBody, processFind, processStore, execFork, forkBody,
        exitBody, exitRemove, removeBody] at h
      repeat' split at h
      all_goals first
        | exact answer_state h ▸ .none rfl rfl (fun _ => rfl) (by simp)
        | simp at h

theorem answer_processSize {u : Userland} {requests : List (Request UserFrame)}
    (h : (.ok (u, requests) : Answer) = .ok (state, rs))
    (hu : u.processTable.size = s.client.processTable.size) :
    state.processTable.size = s.client.processTable.size :=
  answer_state h ▸ hu

/-- The process table keeps its size. -/
theorem userExec_processSize {k : UserFrame} (h : userExec input k s = .ok (state, rs)) :
    state.processTable.size = s.client.processTable.size := by
  cases k with
  | exceptionHandler call => rw [exceptionHandler_state h]
  | printfBody => rw [withBuffer_state h answer_state]
  | spaceDone space use =>
      simp only [userExec, spaceDone] at h
      split at h
      · exact absurd h (by simp)
      · rw [answer_state h]
      · rw [answer_state h]
        cases use with
        | exec => rfl
        | startProcess => rfl
  | _ =>
      simp only [userExec, oneInstruction, acquireCheck, releaseCheck, releaseTail, waitCheck,
        waitBody, waitTail, releaseOnError, signalCheck, signalTail, broadcastCheck,
        createLockBody, createCVBody, destroyLockBody, destroyCVBody, openFind, openStore,
        closeBody, newAddrSpace, spacePut, processFind, processStore, execFork, forkBody,
        exitBody, exitRemove, removeBody] at h
      repeat' split at h
      all_goals first
        | exact answer_processSize h rfl
        | exact answer_processSize h (Table.mark_size _ _)
        | exact answer_processSize h (Table.store_size _ _ _)
        | exact answer_processSize h (Table.clear_size _ _)
        | simp at h

/-- The objects of the tables: every entry that is not dead has the object its
constructor allocated, and no object is used for two things. -/
structure Userland.Sane (u : Userland) : Prop where
  lock_length : u.lockObjects.length = u.lockTable.length
  lock_object : ∀ n k isDeleted, index? u.lockTable n = some ⟨some k, isDeleted⟩ →
    index? u.lockObjects n = some k
  lock_nodup : u.lockObjects.Nodup
  lock_bounds : ∀ k ∈ u.lockObjects, processTableLock < k ∧ k < u.nextLock
  nextLock : processTableLock < u.nextLock
  fileLock : ∀ space, processTableLock ≤ (u.fileTable space).lock ∧
    (u.fileTable space).lock < u.nextLock ∧ (u.fileTable space).lock ∉ u.lockObjects
  cv_length : u.cvObjects.length = u.cvTable.length
  cv_object : ∀ n c isDeleted, index? u.cvTable n = some ⟨some c, isDeleted⟩ →
    index? u.cvObjects n = some c
  cv_nodup : u.cvObjects.Nodup
  cv_bounds : ∀ c ∈ u.cvObjects, c < u.nextCondition
  process_size : 1 < u.processTable.size

theorem nodup_append_fresh {objects : List Nat} {next : Nat} (h : objects.Nodup)
    (hbounds : ∀ k ∈ objects, k < next) : (objects ++ [next]).Nodup := by
  refine List.nodup_append.mpr ⟨h, by simp, ?_⟩
  intro a ha b hb
  rw [List.mem_singleton.mp hb]
  exact Nat.ne_of_lt (hbounds a ha)

/-- The fields that say that the entries of the lock table have their objects. -/
theorem Userland.Sane.lock_entries (hu : s.client.Sane) {k : UserFrame}
    (heffect : LockTableEffect s k state) :
    state.lockObjects.length = state.lockTable.length ∧
      ∀ n k isDeleted, index? state.lockTable n = some ⟨some k, isDeleted⟩ →
        index? state.lockObjects n = some k := by
  cases heffect with
  | same htable hobjects =>
      rw [htable, hobjects]
      exact ⟨hu.lock_length, hu.lock_object⟩
  | created hframe htable hobjects =>
      rw [htable, hobjects]
      refine ⟨by simp [hu.lock_length], ?_⟩
      intro n k isDeleted hentry
      rcases index?_append_cases hentry with hold | ⟨hn, hnew⟩
      · exact index?_append (hu.lock_object n k isDeleted hold)
      · simp only [KernelLock.mk.injEq, Option.some.injEq] at hnew
        refine index?_eq_some.mpr ⟨by omega, ?_⟩
        have hlast : n.toNat = s.client.lockObjects.length := by
          rw [hu.lock_length]
          omega
        rw [hlast, hnew.1]
        simp
  | marked m k' hframe hentry hwaiting htable hobjects =>
      rw [htable, hobjects]
      refine ⟨by simp [hu.lock_length], ?_⟩
      intro n k isDeleted hget
      rcases index?_set_cases (index?_eq_some.mp hentry).1 hget with ⟨rfl, hnew⟩ | ⟨-, hold⟩
      · simp only [KernelLock.mk.injEq, Option.some.injEq] at hnew
        rw [hnew.1]
        exact hu.lock_object n k' false hentry
      · exact hu.lock_object n k isDeleted hold
  | killed m k' isDeleted' hframe hentry hwaiting htable hobjects =>
      rw [htable, hobjects]
      refine ⟨by simp [hu.lock_length], ?_⟩
      intro n k isDeleted hget
      rcases index?_set_cases (index?_eq_some.mp hentry).1 hget with ⟨rfl, hnew⟩ | ⟨-, hold⟩
      · simp at hnew
      · exact hu.lock_object n k isDeleted hold

/-- The fields that say that the entries of the condition table have their
objects. -/
theorem Userland.Sane.cv_entries (hu : s.client.Sane) {k : UserFrame}
    (heffect : CVTableEffect s k state) :
    state.cvObjects.length = state.cvTable.length ∧
      ∀ n c isDeleted, index? state.cvTable n = some ⟨some c, isDeleted⟩ →
        index? state.cvObjects n = some c := by
  cases heffect with
  | same htable hobjects =>
      rw [htable, hobjects]
      exact ⟨hu.cv_length, hu.cv_object⟩
  | created hframe htable hobjects =>
      rw [htable, hobjects]
      refine ⟨by simp [hu.cv_length], ?_⟩
      intro n c isDeleted hentry
      rcases index?_append_cases hentry with hold | ⟨hn, hnew⟩
      · exact index?_append (hu.cv_object n c isDeleted hold)
      · simp only [KernelCV.mk.injEq, Option.some.injEq] at hnew
        refine index?_eq_some.mpr ⟨by omega, ?_⟩
        have hlast : n.toNat = s.client.cvObjects.length := by
          rw [hu.cv_length]
          omega
        rw [hlast, hnew.1]
        simp
  | marked m c' hframe hentry hwaiting htable hobjects =>
      rw [htable, hobjects]
      refine ⟨by simp [hu.cv_length], ?_⟩
      intro n c isDeleted hget
      rcases index?_set_cases (index?_eq_some.mp hentry).1 hget with ⟨rfl, hnew⟩ | ⟨-, hold⟩
      · simp only [KernelCV.mk.injEq, Option.some.injEq] at hnew
        rw [hnew.1]
        exact hu.cv_object n c' false hentry
      · exact hu.cv_object n c isDeleted hold
  | killed m c' isDeleted' hframe hentry hwaiting htable hobjects =>
      rw [htable, hobjects]
      refine ⟨by simp [hu.cv_length], ?_⟩
      intro n c isDeleted hget
      rcases index?_set_cases (index?_eq_some.mp hentry).1 hget with ⟨rfl, hnew⟩ | ⟨-, hold⟩
      · simp at hnew
      · exact hu.cv_object n c isDeleted hold

theorem LockTableEffect.objects {k : UserFrame} (h : LockTableEffect s k state) :
    state.lockObjects = s.client.lockObjects ∨ k = .createLockBody ∧
      state.lockObjects = s.client.lockObjects ++ [s.client.nextLock] := by
  cases h with
  | same htable hobjects => exact Or.inl hobjects
  | created hframe htable hobjects => exact Or.inr ⟨hframe, hobjects⟩
  | marked n k hframe hentry hwaiting htable hobjects => exact Or.inl hobjects
  | killed n k isDeleted hframe hentry hwaiting htable hobjects => exact Or.inl hobjects

theorem CVTableEffect.objects {k : UserFrame} (h : CVTableEffect s k state) :
    state.cvObjects = s.client.cvObjects ∨ k = .createCVBody ∧
      state.cvObjects = s.client.cvObjects ++ [s.client.nextCondition] := by
  cases h with
  | same htable hobjects => exact Or.inl hobjects
  | created hframe htable hobjects => exact Or.inr ⟨hframe, hobjects⟩
  | marked n c hframe hentry hwaiting htable hobjects => exact Or.inl hobjects
  | killed n c isDeleted hframe hentry hwaiting htable hobjects => exact Or.inl hobjects

/-- Every step of a system call keeps the objects apart. -/
theorem Userland.Sane.step (hu : s.client.Sane) {k : UserFrame}
    (h : userExec input k s = .ok (state, rs)) : state.Sane := by
  obtain ⟨hlength, hobject⟩ := hu.lock_entries (userExec_lockTable h)
  obtain ⟨hcvLength, hcvObject⟩ := hu.cv_entries (userExec_cvTable h)
  have hlocks := (userExec_lockTable h).objects
  have hcvs := (userExec_cvTable h).objects
  have hsize : 1 < state.processTable.size := userExec_processSize h ▸ hu.process_size
  cases userExec_alloc h with
  | none hlock hcondition hfiles hframe =>
      have hobjects := hlocks.resolve_right fun habs => hframe.1 habs.1
      have hcvObjects := hcvs.resolve_right fun habs => hframe.2 habs.1
      refine ⟨hlength, hobject, ?_, ?_, ?_, ?_, hcvLength, hcvObject, ?_, ?_, hsize⟩
      · exact hobjects ▸ hu.lock_nodup
      · rw [hobjects, hlock]
        exact hu.lock_bounds
      · exact hlock ▸ hu.nextLock
      · intro space
        rw [hfiles, hlock, hobjects]
        exact hu.fileLock space
      · exact hcvObjects ▸ hu.cv_nodup
      · rw [hcvObjects, hcondition]
        exact hu.cv_bounds
  | lock hframe hlock hcondition hfiles =>
      subst hframe
      have hcvObjects := hcvs.resolve_right fun habs => by simp at habs
      have hobjects : state.lockObjects = s.client.lockObjects ++ [s.client.nextLock] := by
        rw [answer_state h]
      refine ⟨hlength, hobject, ?_, ?_, ?_, ?_, hcvLength, hcvObject, ?_, ?_, hsize⟩
      · rw [hobjects]
        exact nodup_append_fresh hu.lock_nodup fun k hk => (hu.lock_bounds k hk).2
      · intro k hk
        rw [hobjects] at hk
        rw [hlock]
        rcases List.mem_append.mp hk with hold | hnew
        · have hbounds := hu.lock_bounds k hold
          exact ⟨hbounds.1, Nat.lt_succ_of_lt hbounds.2⟩
        · rw [List.mem_singleton.mp hnew]
          exact ⟨hu.nextLock, Nat.lt_succ_self _⟩
      · rw [hlock]
        exact Nat.lt_succ_of_lt hu.nextLock
      · intro space
        obtain ⟨hlow, hhigh, hnot⟩ := hu.fileLock space
        rw [hfiles, hlock, hobjects]
        refine ⟨hlow, Nat.lt_succ_of_lt hhigh, ?_⟩
        intro hmem
        rcases List.mem_append.mp hmem with hold | hnew
        · exact hnot hold
        · rw [List.mem_singleton.mp hnew] at hhigh
          exact Nat.lt_irrefl _ hhigh
      · exact hcvObjects ▸ hu.cv_nodup
      · rw [hcvObjects, hcondition]
        exact hu.cv_bounds
  | condition hframe hlock hcondition hfiles =>
      subst hframe
      have hobjects := hlocks.resolve_right fun habs => by simp at habs
      have hcvObjects : state.cvObjects = s.client.cvObjects ++ [s.client.nextCondition] := by
        rw [answer_state h]
      refine ⟨hlength, hobject, ?_, ?_, ?_, ?_, hcvLength, hcvObject, ?_, ?_, hsize⟩
      · exact hobjects ▸ hu.lock_nodup
      · rw [hobjects, hlock]
        exact hu.lock_bounds
      · exact hlock ▸ hu.nextLock
      · intro space
        rw [hfiles, hlock, hobjects]
        exact hu.fileLock space
      · rw [hcvObjects]
        exact nodup_append_fresh hu.cv_nodup hu.cv_bounds
      · intro c hc
        rw [hcvObjects] at hc
        rw [hcondition]
        rcases List.mem_append.mp hc with hold | hnew
        · exact Nat.lt_succ_of_lt (hu.cv_bounds c hold)
        · rw [List.mem_singleton.mp hnew]
          exact Nat.lt_succ_self _
  | space hframe hlock hcondition hfiles =>
      have hsame := userExec_sameTables h hframe
      refine ⟨hlength, hobject, ?_, ?_, ?_, ?_, hcvLength, hcvObject, ?_, ?_, hsize⟩
      · exact hsame.lockObjects ▸ hu.lock_nodup
      · intro k hk
        rw [hsame.lockObjects] at hk
        rw [hlock]
        have hbounds := hu.lock_bounds k hk
        exact ⟨hbounds.1, Nat.lt_succ_of_lt hbounds.2⟩
      · rw [hlock]
        exact Nat.lt_succ_of_lt hu.nextLock
      · intro space
        obtain ⟨hlow, hhigh, hnot⟩ := hu.fileLock space
        rw [hlock, hsame.lockObjects]
        rcases hfiles space with hold | hnew
        · rw [hold]
          exact ⟨hlow, Nat.lt_succ_of_lt hhigh, hnot⟩
        · rw [hnew]
          refine ⟨Nat.le_of_lt hu.nextLock, Nat.lt_succ_self _, fun hmem => ?_⟩
          exact Nat.lt_irrefl _ (hu.lock_bounds _ hmem).2
      · exact hsame.cvObjects ▸ hu.cv_nodup
      · rw [hsame.cvObjects, hcondition]
        exact hu.cv_bounds

theorem userland_sane (pid : ThreadId → Int) : (userland pid).Sane := by
  constructor
  case lock_object =>
    intro n k isDeleted h
    exact absurd (index?_mem h) (by simp [userland])
  case cv_object =>
    intro n c isDeleted h
    exact absurd (index?_mem h) (by simp [userland])
  all_goals simp [userland, Table.new, Table.size, processTableMaxSize]

end Tables

section Steps

variable {choice : Choice Input} {s s' : UserKernel} {frame : Frame UserFrame}
  {rest gs : List (Frame UserFrame)}

/-- A step of the machine is a step of a system call, or one of the kernel that
leaves the client's state alone. -/
theorem stepAt_cases (hat : Kernel.StepAt userClient choice s s' frame rest gs) :
    (∃ k rs, frame = .client k ∧ userExec choice.input k s.pop = .ok (s'.client, rs) ∧
      gs = rs.map Request.frame) ∨
    (∀ k, frame ≠ .client k) ∧ s'.client = s.client := by
  by_cases hframe : ∃ k, frame = .client k
  · obtain ⟨k, rfl⟩ := hframe
    obtain ⟨state, rs, hexec, hs'⟩ := Kernel.exec_client_ok hat.exec
    refine Or.inl ⟨k, rs, rfl, ?_, ?_⟩
    · rw [hs']
      exact hexec
    · have hself : s'.stack s.currentThread = rs.map Request.frame ++ rest := by
        rw [hs']
        refine hat.stack_of_push ?_ ?_ _
        · rfl
        · rfl
      exact List.append_cancel_right (hat.stack_self.symm.trans hself)
  · refine Or.inr ⟨fun k hk => hframe ⟨k, hk⟩, ?_⟩
    have hsame := Kernel.exec_client_same hat.exec fun k hk => hframe ⟨k, hk⟩
    exact hsame

/-- The kernel's own steps leave the client's state alone. -/
theorem client_same (hat : Kernel.StepAt userClient choice s s' frame rest gs)
    (hframe : ∀ k, frame ≠ .client k) : s'.client = s.client := by
  rcases stepAt_cases hat with ⟨k, rs, hk, -, -⟩ | ⟨-, hclient⟩
  · exact absurd hk (hframe k)
  · exact hclient

/-- A program point stays on its stack until it runs. -/
theorem mem_stack_step (hwf : s.WellFormed)
    (hat : Kernel.StepAt userClient choice s s' frame rest gs) {t : ThreadId}
    {f : Frame UserFrame} (hf : f ∈ s.stack t) :
    f ∈ s'.stack t ∨ t = s.currentThread ∧ f = frame := by
  by_cases ht : t = s.currentThread
  · subst ht
    rw [hat.stack] at hf
    rcases List.mem_cons.mp hf with rfl | hrest
    · exact Or.inr ⟨rfl, rfl⟩
    · rw [hat.stack_self]
      exact Or.inl (List.mem_append_right _ hrest)
  · rcases hat.stack_other t ht with hsame | ⟨body, -, hnew, -⟩
    · exact Or.inl (hsame ▸ hf)
    · rw [hwf.unborn t (Nat.le_of_eq hnew.symm)] at hf
      exact absurd hf (by simp)

/-- A frame on a stack was there before the step, or has just been pushed, or is
the first of a new thread. -/
theorem mem_stack_cases (hat : Kernel.StepAt userClient choice s s' frame rest gs)
    {t : ThreadId} {f : Frame UserFrame} (hf : f ∈ s'.stack t) :
    f ∈ s.stack t ∨ t = s.currentThread ∧ f ∈ gs ∨
      ∃ body, frame = .call (.threadFork body) ∧ f ∈ Kernel.rootFrames body := by
  by_cases ht : t = s.currentThread
  · subst ht
    rw [hat.stack_self] at hf
    rcases List.mem_append.mp hf with hpushed | hrest
    · exact Or.inr (Or.inl ⟨rfl, hpushed⟩)
    · rw [hat.stack]
      exact Or.inl (List.mem_cons_of_mem _ hrest)
  · rcases hat.stack_other t ht with hsame | ⟨body, hframe, -, hroot⟩
    · exact Or.inl (hsame ▸ hf)
    · exact Or.inr (Or.inr ⟨body, hframe, hroot ▸ hf⟩)

/-- A step of a system call leaves the kernel's own state alone. -/
structure ClientStep (s s' : UserKernel) : Prop where
  lock : s'.lock = s.lock
  condition : s'.condition = s.condition
  level : s'.level = s.level
  currentThread : s'.currentThread = s.currentThread
  history : s'.history = s.history

theorem clientStep_of_stepAt {k : UserFrame}
    (hat : Kernel.StepAt userClient choice s s' (.client k) rest gs) : ClientStep s s' := by
  obtain ⟨state, rs, -, hs'⟩ := Kernel.exec_client_ok hat.exec
  rw [hs']
  exact ⟨rfl, rfl, rfl, rfl, rfl⟩

/-- A step at a known frame. -/
theorem stepAt_of_stack (hwf : s.WellFormed) (hstack : s.stack s.currentThread = frame :: rest)
    (h : s.step userClient choice = .ok s') :
    ∃ gs, Kernel.StepAt userClient choice s s' frame rest gs := by
  obtain ⟨frame', rest', gs, hat⟩ := hwf.step_at h
  obtain ⟨rfl, rfl⟩ := List.cons.inj (hat.stack.symm.trans hstack)
  exact ⟨gs, hat⟩

/-- A program point whose code answers can be run. -/
theorem exists_step_client (hwf : s.WellFormed) {k : UserFrame}
    (hstack : s.stack s.currentThread = .client k :: rest) {state : Userland}
    {rs : List (Request UserFrame)}
    (hok : userExec choice.input k s.pop = .ok (state, rs)) :
    ∃ s', s.step userClient choice = .ok s' ∧ s'.client = state ∧
      Kernel.StepAt userClient choice s s' (.client k) rest (rs.map Request.frame) := by
  have htop : s.top = some (.client k) := by
    rw [Kernel.top, hstack, List.head?_cons]
  obtain ⟨s', h⟩ : ∃ s', s.step userClient choice = .ok s' := by
    simp [Kernel.step, htop, Kernel.exec, userClient, hok]
  obtain ⟨gs, hat⟩ := stepAt_of_stack hwf hstack h
  rcases stepAt_cases hat with ⟨k', rs', hk, hok', rfl⟩ | ⟨hframe, -⟩
  · obtain rfl := Frame.client.inj hk
    rw [hok, Except.ok.injEq, Prod.mk.injEq] at hok'
    obtain ⟨rfl, rfl⟩ := hok'
    exact ⟨s', h, rfl, hat⟩
  · exact absurd rfl (hframe k)

/-- A call of the kernel can always be made. -/
theorem exists_step_call (hwf : s.WellFormed) (choice : Choice Input) {op : Op UserFrame}
    (hstack : s.stack s.currentThread = .call op :: rest) :
    ∃ s' gs, s.step userClient choice = .ok s' ∧
      Kernel.StepAt userClient choice s s' (.call op) rest gs := by
  have htop : s.top = some (.call op) := by
    rw [Kernel.top, hstack, List.head?_cons]
  obtain ⟨s', h⟩ : ∃ s', s.step userClient choice = .ok s' := by
    simp [Kernel.step, htop, Kernel.exec]
  obtain ⟨gs, hat⟩ := stepAt_of_stack hwf hstack h
  exact ⟨s', gs, h, hat⟩

end Steps

end Userprog
end Nachos
