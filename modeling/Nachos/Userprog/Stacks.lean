import Nachos.Lib.Stacked
import Nachos.Threads.ConditionDiscipline
import Nachos.Userprog.Frames

/-!
# The stacks of user threads

Three facts about the stacks hold in every state of the machine, whatever the
user programs do.

* `Over`: what may stand below a frame.  Below a program point of a system call
  there is only the loop of `Machine::Run`; a thread that asks for a global lock
  has the program point that gives it back below; a thread on its way through
  `Condition::Wait` comes back to the end of `Wait_Syscall`.
* `Holding`: a program point behind the `Acquire` of a table's lock is reached
  with that lock.
* `Keeping`: as long as the `Release` of a table's lock is ahead of a thread, it
  owns the lock.
-/

namespace Nachos
namespace Userprog

open Threads Lib

section Order

/-- The frames of the loop of `Machine::Run` and of the end of a thread. -/
def isBase : Frame UserFrame → Bool
  | .setStatus _ => true
  | .oneTick => true
  | .client .oneInstruction => true
  | .call .threadFinish => true
  | _ => false

/-- The four global locks. -/
def isGlobal (g : LockId) : Prop := g < processTableLock

instance (g : LockId) : Decidable (isGlobal g) :=
  inferInstanceAs (Decidable (g < processTableLock))

/-- The global lock that is taken before a program point and given back behind
it.  `Exec_Syscall` has its return in between when `Put` answers -1. -/
def UserFrame.holds : UserFrame → Option LockId
  | .acquireCheck _ => some lockTableLock
  | .releaseCheck _ => some lockTableLock
  | .createLockBody => some lockTableLock
  | .destroyLockBody _ => some lockTableLock
  | .waitCheck _ _ => some cvTableLock
  | .signalCheck _ _ => some cvTableLock
  | .signalTail _ => some cvTableLock
  | .broadcastCheck _ _ => some cvTableLock
  | .createCVBody => some cvTableLock
  | .destroyCVBody _ => some cvTableLock
  | .printfBody => some printfLock
  | .execBody => some syscallLock
  | .spacePut _ _ .exec => some syscallLock
  | .spaceDone _ .exec => some syscallLock
  | .processFind _ .exec => some syscallLock
  | .processStore _ i .exec => if i = -1 then none else some syscallLock
  | .forkBody => some syscallLock
  | .exitBody => some syscallLock
  | _ => none

/-- The frame gives lock `g` back, or leads to a frame that does, or ends the
machine. -/
def guards (g : LockId) : Frame UserFrame → Bool
  | .call (.lockRelease l) => l = g
  | .halt => true
  | .client k => k.holds = some g
  | _ => false

/-- Some frame gives lock `g` back. -/
def Guarded (g : LockId) (frames : List (Frame UserFrame)) : Prop :=
  ∃ frame ∈ frames, guards g frame = true

/-- The locks of the two tables. -/
def isTableLock (g : LockId) : Prop := g = lockTableLock ∨ g = cvTableLock

instance (g : LockId) : Decidable (isTableLock g) :=
  inferInstanceAs (Decidable (_ ∨ _))

/-- The frame is ahead of a thread that has passed the `Acquire` of the table
lock `g` for good. -/
def keeps (g : LockId) : Frame UserFrame → Bool
  | .call (.lockRelease l) => l = g ∧ isTableLock g
  | .client (.signalTail _) => g = cvTableLock
  | _ => false

/-- The end of `Wait_Syscall` for the entry of lock `l` is among the frames. -/
def EndsWait (u : Userland) (l : LockId) (frames : List (Frame UserFrame)) : Prop :=
  ∃ n, index? u.lockObjects n = some l ∧ .client (.waitTail n) ∈ frames

/-- The end of `Signal_Syscall` for the entry of condition `c`, or the loop of a
`Broadcast` of it, is among the frames. -/
def EndsSignal (u : Userland) (c : ConditionId) (o : Option LockId)
    (frames : List (Frame UserFrame)) : Prop :=
  (∃ y, index? u.cvObjects y = some c ∧ .client (.signalTail y) ∈ frames) ∨
    .broadcastLoop c o ∈ frames

/-- `Broadcast_Syscall` is behind a `Broadcast` of condition `c`. -/
def EndsBroadcast (u : Userland) (c : ConditionId) (frames : List (Frame UserFrame)) : Prop :=
  (∃ z, index? u.cvObjects z = some c) ∧ .call (.lockRelease cvTableLock) ∈ frames

/-- What may stand below a frame. -/
def Over (u : Userland) : Frame UserFrame → List (Frame UserFrame) → Prop
  | .client _, below => ∀ g ∈ below, isBase g = true
  | .call .threadFinish, below => ∀ g ∈ below, isBase g = true
  | .call (.threadFork body), _ => body = .newProcess ∨ body = .kernelRun
  | .call (.lockAcquire l), below => l < u.nextLock ∧ (isGlobal l → Guarded l below)
  | .call (.lockRelease l), below => isTableLock l → ∀ g ∈ below, keeps l g = false
  | .call (.conditionWait _ (some l)), below => EndsWait u l below
  | .waitAppend _ l, below => EndsWait u l below
  | .waitReacquire _ l, below => EndsWait u l below
  | .call (.conditionSignal c o), below => EndsSignal u c o below
  | .call (.conditionBroadcast c _), below => EndsBroadcast u c below
  | .broadcastLoop c _, below => EndsBroadcast u c below
  | _, _ => True

theorem keeps_of_isBase {f : Frame UserFrame} (h : isBase f = true) (g : LockId) :
    keeps g f = false := by
  cases f with
  | call op => cases op <;> simp_all [isBase, keeps]
  | client k => cases k <;> simp_all [isBase, keeps]
  | _ => rfl

theorem guards_of_isBase {f : Frame UserFrame} (h : isBase f = true) (g : LockId) :
    guards g f = false := by
  cases f with
  | call op => cases op <;> simp_all [isBase, guards]
  | client k => cases k <;> simp_all [isBase, guards, UserFrame.holds]
  | _ => simp_all [isBase, guards]

/-- The tables and the allocator only grow. -/
structure Grows (u v : Userland) : Prop where
  lock : ∀ n k, index? u.lockObjects n = some k → index? v.lockObjects n = some k
  cv : ∀ n c, index? u.cvObjects n = some c → index? v.cvObjects n = some c
  nextLock : u.nextLock ≤ v.nextLock

/-- Growth does not break the order. -/
theorem Over.mono {u v : Userland} (hgrows : Grows u v) (f : Frame UserFrame)
    (fs : List (Frame UserFrame)) (h : Over u f fs) : Over v f fs := by
  have hwait : ∀ l, EndsWait u l fs → EndsWait v l fs :=
    fun l ⟨n, hn, hmem⟩ => ⟨n, hgrows.lock n l hn, hmem⟩
  have hbroadcast : ∀ c, EndsBroadcast u c fs → EndsBroadcast v c fs :=
    fun c ⟨⟨z, hz⟩, hmem⟩ => ⟨⟨z, hgrows.cv z c hz⟩, hmem⟩
  cases f with
  | call op =>
      cases op with
      | lockAcquire l => exact ⟨Nat.lt_of_lt_of_le h.1 hgrows.nextLock, h.2⟩
      | conditionWait c conditionLock =>
          cases conditionLock with
          | none => trivial
          | some l => exact hwait l h
      | conditionSignal c o =>
          exact Or.imp_left (fun ⟨y, hy, hmem⟩ => ⟨y, hgrows.cv y c hy, hmem⟩) h
      | conditionBroadcast c o => exact hbroadcast c h
      | _ => exact h
  | waitAppend c l => exact hwait l h
  | waitReacquire c l => exact hwait l h
  | broadcastLoop c o => exact hbroadcast c h
  | _ => exact h

end Order

section Pushed

variable {s : UserKernel} {rest : List (Frame UserFrame)} {rs : List (Request UserFrame)}
  {u : Userland}

/-- A `Release` of a lock that is not a table's lock may stand over anything. -/
theorem over_release {l : LockId} (hl : ¬ isTableLock l) (below : List (Frame UserFrame)) :
    Over u (.call (.lockRelease l)) below :=
  fun htable => absurd htable hl

/-- A `Release` of a table's lock may stand over the end of a system call. -/
theorem over_release_return {l : LockId} {k : UserFrame} (hk : ∀ y, k ≠ .signalTail y)
    (hrest : ∀ g ∈ rest, isBase g = true) :
    Over u (.call (.lockRelease l)) (.client k :: rest) := by
  intro _ g hg
  rcases List.mem_cons.mp hg with rfl | hbase
  · cases k <;> simp_all [keeps]
  · exact keeps_of_isBase (hrest g hbase) l

theorem over_acquire {l : LockId} (hnext : l < u.nextLock) (hl : ¬ isGlobal l)
    (below : List (Frame UserFrame)) : Over u (.call (.lockAcquire l)) below :=
  ⟨hnext, fun hglobal => absurd hglobal hl⟩

theorem not_isGlobal_of_le {l : LockId} (h : processTableLock ≤ l) :
    ¬ isGlobal l ∧ ¬ isTableLock l := by
  refine ⟨Nat.not_lt.mpr h, ?_⟩
  rintro (rfl | rfl)
  · exact absurd h (by decide)
  · exact absurd h (by decide)

/-- The locks of the lock table are not global. -/
theorem Userland.Sane.not_isGlobal (hu : u.Sane) {n : Int} {l : LockId}
    (h : index? u.lockObjects n = some l) : ¬ isGlobal l ∧ ¬ isTableLock l :=
  not_isGlobal_of_le (Nat.le_of_lt (hu.lock_bounds l (index?_mem h)).1)

theorem Userland.Sane.lockAt_object (hu : u.Sane) {n : Int} {l : LockId}
    (h : u.lockAt n = some l) : index? u.lockObjects n = some l := by
  obtain ⟨entry, hentry, hlock⟩ := Option.bind_eq_some_iff.mp h
  exact hu.lock_object n l entry.isDeleted (by rw [hentry, ← hlock])

theorem Userland.Sane.cvAt_object (hu : u.Sane) {n : Int} {c : ConditionId}
    (h : u.cvAt n = some c) : index? u.cvObjects n = some c := by
  obtain ⟨entry, hentry, hcv⟩ := Option.bind_eq_some_iff.mp h
  exact hu.cv_object n c entry.isDeleted (by rw [hentry, ← hcv])

/-- The locks of the file tables are not global. -/
theorem Userland.Sane.file_not_isGlobal (hu : u.Sane) (space : SpaceId) :
    ¬ isGlobal (u.fileTable space).lock ∧ ¬ isTableLock (u.fileTable space).lock :=
  not_isGlobal_of_le (hu.fileLock space).1

theorem Userland.Sane.nextLock_not_isGlobal (hu : u.Sane) : ¬ isGlobal u.nextLock :=
  (not_isGlobal_of_le (Nat.le_of_lt hu.nextLock)).1

theorem Userland.Sane.object_lt (hu : u.Sane) {n : Int} {l : LockId}
    (h : index? u.lockObjects n = some l) : l < u.nextLock :=
  (hu.lock_bounds l (index?_mem h)).2

theorem Userland.Sane.global_lt (hu : u.Sane) {g : LockId} (hg : isGlobal g) :
    g < u.nextLock :=
  Nat.lt_trans hg hu.nextLock

/-- A system call asks for a lock that exists. -/
theorem Syscall.enters_lt (hu : s.client.Sane) {call : Syscall} {g : LockId} {k : UserFrame}
    (h : call.enters s = some (g, k)) : g < s.client.nextLock := by
  have hfile := (hu.fileLock (s.client.space s.currentThread)).2.1
  cases call <;> simp only [Syscall.enters, Option.some.injEq, Prod.mk.injEq, reduceCtorEq] at h
  case openFile => exact h.1 ▸ hfile
  case close fd => exact h.1 ▸ hfile
  all_goals
    obtain ⟨rfl, -⟩ := h
    exact hu.global_lt (by decide)

/-- A system call asks for the lock that the program point behind it holds. -/
theorem Syscall.enters_guarded (hu : s.client.Sane) {call : Syscall} {g : LockId}
    {k : UserFrame} (h : call.enters s = some (g, k)) (hg : isGlobal g) :
    k.holds = some g := by
  have hfile := (hu.file_not_isGlobal (s.client.space s.currentThread)).1
  cases call <;> simp only [Syscall.enters, Option.some.injEq, Prod.mk.injEq, reduceCtorEq] at h
  case openFile => exact absurd (h.1 ▸ hg) hfile
  case close fd => exact absurd (h.1 ▸ hg) hfile
  all_goals
    obtain ⟨rfl, rfl⟩ := h
    rfl

/-- What a program point of a system call pushes is in order over the loop of
`Machine::Run`. -/
theorem stacked_asks (hu : s.client.Sane) {k : UserFrame} (hasks : k.Asks s rs)
    (hgrows : Grows s.client u)
    (hfresh : k = .startProcess ∧ rs ≠ [] ∨ k = .execBody → s.client.nextLock < u.nextLock)
    (hrest : ∀ g ∈ rest, isBase g = true) (hstack : Stacked (Over u) rest) :
    Stacked (Over u) (rs.map Request.frame ++ rest) := by
  have hreturn : ∀ l k', (∀ y, k' ≠ .signalTail y) →
      Stacked (Over u)
        ([Request.call (.lockRelease l), .client k'].map Request.frame ++ rest) :=
    fun l k' hk' => ⟨over_release_return hk' hrest, hrest, hstack⟩
  have hacquire : ∀ l k', l < u.nextLock → ¬ isGlobal l → Stacked (Over u)
      ([Request.call (.lockAcquire l), .client k'].map Request.frame ++ rest) :=
    fun l k' hnext hl => ⟨over_acquire hnext hl _, hrest, hstack⟩
  have hlt : ∀ l, l < s.client.nextLock → l < u.nextLock :=
    fun l hl => Nat.lt_of_lt_of_le hl hgrows.nextLock
  have hclient : ∀ k', Stacked (Over u)
      ([Request.client k'].map Request.frame ++ rest) :=
    fun k' => ⟨hrest, hstack⟩
  have huser : Stacked (Over u)
      ([Request.setStatus .userMode, .client .oneInstruction].map Request.frame ++ rest) :=
    ⟨trivial, hrest, hstack⟩
  cases k with
  | startProcess =>
      rcases hasks with rfl | rfl
      · exact hstack
      · exact hacquire _ _ (hfresh (Or.inl ⟨rfl, by simp⟩)) hu.nextLock_not_isGlobal
  | newProcess =>
      subst hasks
      exact huser
  | kernelRun =>
      subst hasks
      exact huser
  | oneInstruction =>
      rcases hasks with rfl | rfl | ⟨call, rfl⟩
      · exact ⟨trivial, hrest, hstack⟩
      · exact ⟨trivial, trivial, hstack⟩
      · refine ⟨trivial, ?_, trivial, trivial, hrest, hstack⟩
        intro g hg
        change g ∈ Frame.setStatus _ :: .oneTick :: .client .oneInstruction :: rest at hg
        simp only [List.mem_cons] at hg
        rcases hg with rfl | rfl | rfl | hbase
        · rfl
        · rfl
        · rfl
        · exact hrest g hbase
  | exceptionHandler call =>
      rcases hasks with rfl | ⟨rv, rfl⟩ | rfl | ⟨g, k', henters, rfl⟩
      · exact ⟨trivial, hstack⟩
      · exact hclient _
      · exact ⟨trivial, hclient _⟩
      · refine ⟨⟨hlt g (Syscall.enters_lt hu henters), fun hglobal => ?_⟩, hclient _⟩
        have hholds := Syscall.enters_guarded hu henters hglobal
        exact ⟨.client k', List.mem_cons_self, by simp [guards, hholds]⟩
  | sysReturn rv =>
      subst hasks
      exact hstack
  | acquireCheck n =>
      rcases hasks with rfl | ⟨l, hentry, rfl⟩
      · exact hreturn _ _ (by simp)
      · have hobject := hu.lock_object n l false hentry
        exact ⟨over_acquire (hlt l (hu.object_lt hobject)) (hu.not_isGlobal hobject).1 _,
          hreturn _ _ (by simp)⟩
  | releaseCheck n =>
      rcases hasks with rfl | ⟨l, hlock, rfl⟩
      · exact hreturn _ _ (by simp)
      · have hobject := hu.lockAt_object hlock
        exact ⟨over_release (hu.not_isGlobal hobject).2 _, hreturn _ _ (by simp)⟩
  | releaseTail n =>
      subst hasks
      exact hclient _
  | waitCheck x lock =>
      rcases hasks with rfl | ⟨-, -, rfl⟩
      · exact hreturn _ _ (by simp)
      · exact hreturn _ _ (by simp)
  | waitBody x lock =>
      obtain ⟨c, isDeleted, ⟨kernelLock, entryDeleted⟩, hcv, hlock, rfl⟩ := hasks
      refine ⟨?_, hclient _⟩
      cases kernelLock with
      | none => trivial
      | some l =>
          exact ⟨lock, hgrows.lock lock l (hu.lock_object lock l entryDeleted hlock),
            List.mem_cons_self⟩
  | waitTail lock =>
      obtain ⟨l, hlock, rfl⟩ := hasks
      exact hreturn _ _ (by simp)
  | releaseOnError lock =>
      obtain ⟨l, hlock, rfl⟩ := hasks
      exact hreturn _ _ (by simp)
  | signalCheck y a =>
      rcases hasks with rfl | ⟨c, l, hcv, hlock, rfl⟩
      · exact hreturn _ _ (by simp)
      · exact ⟨Or.inl ⟨y, hgrows.cv y c (hu.cvAt_object hcv), List.mem_cons_self⟩, hclient _⟩
  | signalTail y =>
      subst hasks
      exact hreturn _ _ (by simp)
  | broadcastCheck z b =>
      rcases hasks with rfl | ⟨c, l, hcv, hlock, rfl⟩
      · exact hreturn _ _ (by simp)
      · exact ⟨⟨⟨z, hgrows.cv z c (hu.cvAt_object hcv)⟩, List.mem_cons_self⟩,
          hreturn _ _ (by simp)⟩
  | createLockBody =>
      obtain ⟨rv, rfl⟩ := hasks
      exact hreturn _ _ (by simp)
  | destroyLockBody n =>
      subst hasks
      exact hreturn _ _ (by simp)
  | createCVBody =>
      obtain ⟨rv, rfl⟩ := hasks
      exact hreturn _ _ (by simp)
  | destroyCVBody n =>
      subst hasks
      exact hreturn _ _ (by simp)
  | printfBody =>
      rcases hasks with rfl | rfl
      · exact ⟨trivial, hstack⟩
      · exact hreturn _ _ (by simp)
  | openFind =>
      obtain ⟨i, rfl⟩ := hasks
      exact hreturn _ _ (by simp)
  | openStore i =>
      subst hasks
      exact hclient _
  | closeBody fd =>
      subst hasks
      exact hreturn _ _ (by simp)
  | execBody =>
      subst hasks
      exact hacquire _ _ (hfresh (Or.inr rfl)) hu.nextLock_not_isGlobal
  | spacePut space more use =>
      have hfile := hu.file_not_isGlobal space
      rcases hasks with ⟨-, rfl⟩ | ⟨m, -, rfl⟩
      · exact hreturn _ _ (by simp)
      · exact ⟨over_release hfile.2 _,
          hacquire _ _ (hlt _ (hu.fileLock space).2.1) hfile.1⟩
  | spaceDone space use =>
      rcases hasks with rfl | rfl
      · exact ⟨trivial, hstack⟩
      · exact hacquire _ _ (hlt _ hu.nextLock) (by decide)
  | processFind space use =>
      subst hasks
      exact hreturn _ _ (by simp)
  | processStore space i use =>
      rcases hasks with ⟨-, rfl⟩ | ⟨-, -, rfl⟩ | ⟨-, -, rfl⟩
      · exact huser
      · exact hclient _
      · exact hreturn _ _ (by simp)
  | execFork space processID =>
      subst hasks
      exact ⟨Or.inl rfl, hclient _⟩
  | forkBody =>
      rcases hasks with ⟨-, rfl⟩ | ⟨-, rfl⟩
      · exact hclient _
      · exact ⟨Or.inr rfl, hreturn _ _ (by simp)⟩
  | exitBody =>
      obtain ⟨processID, rfl | rfl | ⟨hsize, -⟩⟩ := hasks
      · refine ⟨over_release (by decide) _, ?_, hrest, hstack⟩
        intro g hg
        rcases List.mem_cons.mp hg with rfl | hbase
        · rfl
        · exact hrest g hbase
      · exact ⟨over_release (by decide) _, hrest, hstack⟩
      · exact absurd hu.process_size hsize
  | exitRemove processID =>
      rcases hasks with rfl | rfl
      · exact hstack
      · exact hacquire _ _ (hlt _ hu.nextLock) (by decide)
  | removeBody processID =>
      subst hasks
      exact ⟨over_release (by decide) _, hstack⟩

theorem EndsWait.not_isTableLock (hu : u.Sane) {l : LockId}
    {frames : List (Frame UserFrame)} (h : EndsWait u l frames) :
    l < u.nextLock ∧ ¬ isGlobal l ∧ ¬ isTableLock l := by
  obtain ⟨n, hobject, -⟩ := h
  exact ⟨hu.object_lt hobject, hu.not_isGlobal hobject⟩

/-- What the kernel pushes is in order, too. -/
theorem stacked_pushes (hu : u.Sane) {frame : Frame UserFrame} {level : IntStatus}
    {gs : List (Frame UserFrame)} (hframe : ∀ k, frame ≠ .client k)
    (hpushes : frame.Pushes level gs) (hover : Over u frame rest)
    (hstack : Stacked (Over u) rest) : Stacked (Over u) (gs ++ rest) := by
  cases frame with
  | client k => exact absurd rfl (hframe k)
  | halt => exact absurd hpushes (by simp [Frame.Pushes])
  | waitAppend c l =>
      subst hpushes
      exact ⟨trivial, hover, hstack⟩
  | waitReacquire c l =>
      subst hpushes
      obtain ⟨hlt, hglobal, -⟩ := EndsWait.not_isTableLock hu hover
      exact ⟨over_acquire hlt hglobal _, hstack⟩
  | broadcastLoop c o =>
      rcases hpushes with rfl | rfl
      · exact hstack
      · exact ⟨Or.inr List.mem_cons_self, hover, hstack⟩
  | call op =>
      cases op with
      | conditionWait c conditionLock =>
          rcases hpushes with rfl | ⟨l, rfl, rfl⟩
          · exact ⟨trivial, hstack⟩
          · refine ⟨over_release (EndsWait.not_isTableLock hu hover).2.2 _, ?_, trivial,
              hstack⟩
            obtain ⟨n, hobject, hmem⟩ := hover
            exact ⟨n, hobject, List.mem_cons_of_mem _ hmem⟩
      | conditionBroadcast c o =>
          subst hpushes
          exact ⟨hover, hstack⟩
      | _ =>
          -- the other operations push frames that may stand over anything
          simp only [Frame.Pushes] at hpushes
          first
            | (subst hpushes; exact ⟨trivial, hstack⟩)
            | (subst hpushes; exact ⟨trivial, trivial, hstack⟩)
            | (rcases hpushes with rfl | rfl
               · first
                   | exact hstack
                   | exact ⟨trivial, hstack⟩
               · first
                   | exact ⟨trivial, hstack⟩
                   | exact ⟨trivial, trivial, hstack⟩)
  | setLevel now =>
      rcases hpushes with rfl | ⟨-, rfl⟩
      · exact hstack
      · exact ⟨trivial, hstack⟩
  | oneTick =>
      rcases hpushes with rfl | ⟨m, rfl⟩
      · exact hstack
      · exact ⟨trivial, trivial, hstack⟩
  | setStatus m =>
      subst hpushes
      exact hstack
  | sleep =>
      subst hpushes
      exact ⟨trivial, hstack⟩
  | sleepLoop =>
      rcases hpushes with rfl | rfl
      · exact ⟨trivial, hstack⟩
      · exact ⟨trivial, hstack⟩
  | afterSwitch =>
      subst hpushes
      exact hstack
  | whileValueZero i =>
      rcases hpushes with rfl | rfl
      · exact hstack
      · exact ⟨trivial, trivial, hstack⟩

end Pushed

section Ground

/-- What is known about every state of the machine before its stacks are looked
at. -/
structure Grounded (s : UserKernel) : Prop where
  wellFormed : s.WellFormed
  sane : s.client.Sane
  lockInvariant : ∀ l, s.LockInvariant l

variable {choice : Choice Input} {s s' : UserKernel} {frame : Frame UserFrame}
  {rest gs : List (Frame UserFrame)}

theorem sane_step (hu : s.client.Sane)
    (hat : Kernel.StepAt userClient choice s s' frame rest gs) : s'.client.Sane := by
  rcases stepAt_cases hat with ⟨k, rs, -, hexec, -⟩ | ⟨-, hsame⟩
  · exact Userland.Sane.step (s := s.pop) hu hexec
  · exact hsame ▸ hu

theorem Grounded.step (hs : Grounded s) (h : s.step userClient choice = .ok s') :
    Grounded s' := by
  have hwf := Kernel.wellFormed_step hs.wellFormed h
  obtain ⟨frame, rest, gs, hat⟩ := hs.wellFormed.step_at h
  exact ⟨hwf, sane_step hs.sane hat, fun l => (hs.lockInvariant l).step hwf hat⟩

theorem grounded_boot (pid : ThreadId → Int) : Grounded (userBoot pid) :=
  ⟨Kernel.wellFormed_boot _ _ _, userland_sane pid, Kernel.lockInvariant_boot _ _ _⟩

/-- The invariant rule for runs from a grounded state. -/
theorem Grounded.invariant {guard : UserKernel → Choice Input → Prop}
    {P : UserKernel → Prop} (hs : Grounded s)
    (hrun : Kernel.Run userClient guard s s')
    (hstep : ∀ u v choice frame rest gs, Grounded u → Grounded v → guard u choice →
      Kernel.StepAt userClient choice u v frame rest gs → P u → P v)
    (hP : P s) : Grounded s' ∧ P s' := by
  refine hrun.invariant (P := fun u => Grounded u ∧ P u) ?_ ⟨hs, hP⟩
  rintro u v choice ⟨hu, hPu⟩ hguard h
  obtain ⟨frame, rest, gs, hat⟩ := hu.wellFormed.step_at h
  exact ⟨hu.step h, hstep u v choice frame rest gs hu (hu.step h) hguard hat hPu⟩

/-- A step of a system call makes the tables grow. -/
theorem userExec_grows {input : Input} {k : UserFrame} {state : Userland}
    {rs : List (Request UserFrame)} (h : userExec input k s = .ok (state, rs)) :
    Grows s.client state := by
  constructor
  · intro n l hobject
    rcases (userExec_lockTable h).objects with hobjects | ⟨-, hobjects⟩
    · exact hobjects ▸ hobject
    · rw [hobjects]
      exact index?_append hobject
  · intro n c hobject
    rcases (userExec_cvTable h).objects with hobjects | ⟨-, hobjects⟩
    · exact hobjects ▸ hobject
    · rw [hobjects]
      exact index?_append hobject
  · cases userExec_alloc h with
    | none hlock hcondition hfiles hframe => exact Nat.le_of_eq hlock.symm
    | lock hframe hlock hcondition hfiles => exact hlock ▸ Nat.le_succ _
    | condition hframe hlock hcondition hfiles => exact Nat.le_of_eq hlock.symm
    | space hframe hlock hcondition hfiles => exact hlock ▸ Nat.le_succ _

theorem grows_step (hat : Kernel.StepAt userClient choice s s' frame rest gs) :
    Grows s.client s'.client := by
  rcases stepAt_cases hat with ⟨k, rs, -, hexec, -⟩ | ⟨-, hsame⟩
  · exact userExec_grows hexec
  · rw [hsame]
    exact ⟨fun _ _ h => h, fun _ _ h => h, Nat.le_refl _⟩

/-- An address space gets a new lock. -/
theorem userExec_fresh {input : Input} {k : UserFrame} {state : Userland}
    {rs : List (Request UserFrame)} (h : userExec input k s = .ok (state, rs))
    (hk : k = .startProcess ∧ rs ≠ [] ∨ k = .execBody) :
    s.client.nextLock < state.nextLock := by
  rcases hk with ⟨rfl, hne⟩ | rfl
  · simp only [userExec] at h
    split at h
    · obtain rfl := answer_state h
      exact Nat.lt_succ_self _
    · exact absurd (answer_ok h) hne
  · obtain rfl := answer_state h
    exact Nat.lt_succ_self _

/-- The stacks of all threads are in order. -/
def Ordered (s : UserKernel) : Prop := ∀ t, Stacked (Over s.client) (s.stack t)

/-- Every step keeps the stacks in order. -/
theorem Ordered.step (h : Ordered s) (hs : Grounded s) (hs' : Grounded s')
    (hat : Kernel.StepAt userClient choice s s' frame rest gs) : Ordered s' := by
  have hgrows := grows_step hat
  have hmono := fun t => (h t).imp (Over.mono hgrows)
  have hcurrent := hat.stack ▸ hmono s.currentThread
  intro t
  by_cases ht : t = s.currentThread
  · subst ht
    rw [hat.stack_self]
    rcases stepAt_cases hat with ⟨k, rs, rfl, hexec, rfl⟩ | ⟨hframe, -⟩
    · exact stacked_asks (s := s.pop) hs.sane (userExec_asks hexec) hgrows
        (userExec_fresh hexec) hcurrent.1 hcurrent.2
    · exact stacked_pushes hs'.sane hframe hat.pushes hcurrent.1 hcurrent.2
  · rcases hat.stack_other t ht with hsame | ⟨body, -, -, hroot⟩
    · rw [hsame]
      exact hmono t
    · rw [hroot]
      simp [Kernel.rootFrames, Over, isBase]

theorem ordered_boot (pid : ThreadId → Int) : Ordered (userBoot pid) := by
  intro t
  by_cases ht : t = 0
  · simp [userBoot, Kernel.boot, ht, Over, isBase]
  · simp [userBoot, Kernel.boot, ht]

end Ground

section Tables

variable {s : UserKernel} {rs : List (Request UserFrame)}

/-- The table's lock whose `Acquire` is right before a program point. -/
def UserFrame.entered : UserFrame → Option LockId
  | .acquireCheck _ => some lockTableLock
  | .releaseCheck _ => some lockTableLock
  | .createLockBody => some lockTableLock
  | .destroyLockBody _ => some lockTableLock
  | .waitCheck _ _ => some cvTableLock
  | .signalCheck _ _ => some cvTableLock
  | .broadcastCheck _ _ => some cvTableLock
  | .createCVBody => some cvTableLock
  | .destroyCVBody _ => some cvTableLock
  | _ => none

theorem Syscall.enters_entered {call : Syscall} {g g' : LockId} {k : UserFrame}
    (h : call.enters s = some (g', k)) (hk : k.entered = some g) : g = g' := by
  cases call <;> simp only [Syscall.enters, Option.some.injEq, Prod.mk.injEq, reduceCtorEq] at h
  all_goals
    obtain ⟨rfl, rfl⟩ := h
    simp_all [UserFrame.entered]

/-- A program point behind the `Acquire` of a table's lock is pushed together
with that `Acquire`. -/
theorem asks_entered {k k' : UserFrame} {g : LockId} (hasks : k.Asks s rs)
    (hmem : Request.client k' ∈ rs) (hk' : k'.entered = some g) :
    rs = [.call (.lockAcquire g), .client k'] := by
  cases k
  all_goals simp only [UserFrame.Asks] at hasks
  case exceptionHandler call =>
    rcases hasks with rfl | ⟨rv, rfl⟩ | rfl | ⟨g, k', henters, rfl⟩
    · simp at hmem
    · rw [List.mem_singleton, Request.client.injEq] at hmem
      simp [hmem, UserFrame.entered] at hk'
    · simp only [List.mem_cons, reduceCtorEq, Request.client.injEq, List.not_mem_nil, or_false,
        false_or] at hmem
      simp [hmem, UserFrame.entered] at hk'
    · simp only [List.mem_cons, reduceCtorEq, Request.client.injEq, List.not_mem_nil, or_false,
        false_or] at hmem
      subst hmem
      rw [Syscall.enters_entered henters hk']
  all_goals grind [UserFrame.entered]

/-- The `Release` of a table's lock is pushed by a program point that has the
lock. -/
theorem asks_release (hu : s.client.Sane) {k : UserFrame} {g : LockId} (hasks : k.Asks s rs)
    (hmem : Request.call (.lockRelease g) ∈ rs) (hg : isTableLock g) :
    k.entered = some g ∨ ∃ y, k = .signalTail y ∧ g = cvTableLock := by
  have hobject : ∀ n l, s.client.lockAt n = some l → ¬ isTableLock l :=
    fun n l hl => (hu.not_isGlobal (hu.lockAt_object hl)).2
  have hfile : ∀ space, ¬ isTableLock (s.client.fileTable space).lock :=
    fun space => (hu.file_not_isGlobal space).2
  have hothers : ¬ isTableLock syscallLock ∧ ¬ isTableLock printfLock ∧
      ¬ isTableLock processTableLock := by decide
  cases k
  all_goals simp only [UserFrame.Asks, currentFileTable] at hasks
  case oneInstruction =>
    rcases hasks with rfl | rfl | ⟨call, rfl⟩
    · simp at hmem
    · simp at hmem
    · simp at hmem
  all_goals grind [UserFrame.entered]

theorem asks_signalTail {k : UserFrame} {y : Int} (hasks : k.Asks s rs)
    (hmem : Request.client (.signalTail y) ∈ rs) : ∃ a, k = .signalCheck y a := by
  cases k
  all_goals simp only [UserFrame.Asks] at hasks
  case exceptionHandler call =>
    rcases hasks with rfl | ⟨rv, rfl⟩ | rfl | ⟨g, k', henters, rfl⟩
    · simp at hmem
    · simp at hmem
    · simp at hmem
    · cases call <;>
        simp only [Syscall.enters, Option.some.injEq, Prod.mk.injEq, reduceCtorEq] at henters
      all_goals
        obtain ⟨rfl, rfl⟩ := henters
        simp at hmem
  case signalCheck y' a =>
    rcases hasks with rfl | ⟨c, l, hcv, hlock, rfl⟩
    · simp at hmem
    · simp only [List.mem_cons, Request.client.injEq, UserFrame.signalTail.injEq, reduceCtorEq,
        List.not_mem_nil, or_false, false_or] at hmem
      exact ⟨a, by rw [hmem]⟩
  all_goals grind

end Tables

section Holding

variable {choice : Choice Input} {s s' : UserKernel} {frame : Frame UserFrame}
  {rest gs : List (Frame UserFrame)}

/-- A program point behind the `Acquire` of a table's lock is reached with the
lock. -/
def Holding (s : UserKernel) : Prop :=
  ∀ t above k below g, s.stack t = above ++ .client k :: below → k.entered = some g →
    Kernel.Acquiring t g above s

/-- As long as the `Release` of a table's lock is ahead of a thread, it owns the
lock. -/
def Keeping (s : UserKernel) : Prop :=
  ∀ t g, ∀ f ∈ s.stack t, keeps g f = true → (s.lock g).owner = some t

theorem entered_of_isBase {k : UserFrame} (h : isBase (.client k) = true) :
    k.entered = none := by
  cases k <;> simp_all [isBase, UserFrame.entered]

/-- Every step keeps the program points of the table calls with their lock. -/
theorem Holding.step (h : Holding s) (hs : Grounded s) (hs' : Grounded s')
    (hordered : Ordered s) (hat : Kernel.StepAt userClient choice s s' frame rest gs) :
    Holding s' := by
  intro t above k below g hstack hk
  by_cases ht : t = s.currentThread
  · subst ht
    rw [hat.stack_self] at hstack
    rcases stepAt_cases hat with ⟨k₀, rs, rfl, hexec, rfl⟩ | ⟨hframe, -⟩
    · -- a system call is about to ask for the lock
      have hbase : ∀ f ∈ rest, isBase f = true := (hat.stack ▸ hordered s.currentThread).1
      have hnot : .client k ∉ rest := fun hmem => by
        rw [entered_of_isBase (hbase _ hmem)] at hk
        exact absurd hk (by simp)
      obtain ⟨later, hpushed, -⟩ := append_split_of_notMem_right hstack hnot
      have hmem : Request.client k ∈ rs := by
        have hframe : Frame.client k ∈ rs.map Request.frame := by
          rw [hpushed]
          simp
        obtain ⟨request, hrequest, hclient⟩ := List.mem_map.mp hframe
        cases request <;> simp only [Request.frame, reduceCtorEq, Frame.client.injEq] at hclient
        exact hclient ▸ hrequest
      rw [asks_entered (userExec_asks hexec) hmem hk] at hpushed
      have habove : above = [.call (.lockAcquire g)] := by
        rcases above with - | ⟨first, above⟩
        · simp [Request.frame] at hpushed
        · obtain ⟨rfl, htail⟩ := List.cons.inj hpushed
          rcases above with - | ⟨second, above⟩
          · rfl
          · simp at htail
      exact ⟨hs'.lockInvariant g, Or.inl ⟨[], habove, by simp⟩⟩
    · -- the kernel works on the way to the lock
      obtain ⟨later, rfl, rfl⟩ :=
        append_split_of_notMem hstack (Frame.pushes_not_client hframe hat.pushes k)
      have hold := h s.currentThread (frame :: later) k below g hat.stack hk
      exact hold.self hs.wellFormed hs'.wellFormed rfl hat
  · rcases hat.stack_other t ht with hsame | ⟨body, rfl, -, hroot⟩
    · rw [hsame] at hstack
      exact (h t above k below g hstack hk).other hs'.wellFormed (Ne.symm ht) hat
    · -- a new thread is at `newProcess` or `kernelRun`
      have hbody : body = .newProcess ∨ body = .kernelRun :=
        (hat.stack ▸ hordered s.currentThread).1
      have hmem : Frame.client k ∈ Kernel.rootFrames body := by
        rw [← hroot, hstack]
        simp
      simp only [Kernel.rootFrames, List.mem_cons, reduceCtorEq, Frame.client.injEq,
        List.not_mem_nil, or_false, false_or] at hmem
      subst hmem
      rcases hbody with rfl | rfl
      · simp [UserFrame.entered] at hk
      · simp [UserFrame.entered] at hk

theorem holding_boot (pid : ThreadId → Int) : Holding (userBoot pid) := by
  intro t above k below g hstack hk
  have hmem : Frame.client k ∈ (userBoot pid).stack t := by
    rw [hstack]
    simp
  by_cases ht : t = 0
  · simp only [userBoot, Kernel.boot, ht, Function.update_self, List.mem_cons, reduceCtorEq,
      Frame.client.injEq, List.not_mem_nil, or_false, false_or] at hmem
    simp [hmem, UserFrame.entered] at hk
  · simp [userBoot, Kernel.boot, ht] at hmem

theorem isTableLock_of_keeps {g : LockId} {f : Frame UserFrame} (h : keeps g f = true) :
    isTableLock g := by
  cases f with
  | call op =>
      cases op <;> simp only [keeps, Bool.false_eq_true, decide_eq_true_eq] at h
      exact h.2
  | client k =>
      cases k <;> simp only [keeps, Bool.false_eq_true, decide_eq_true_eq] at h
      exact Or.inr h
  | _ => simp [keeps] at h

/-- The kernel releases no table's lock. -/
theorem pushes_keeps {level : IntStatus} {u : Userland} (hu : u.Sane)
    (hframe : ∀ k, frame ≠ .client k) (hpushes : frame.Pushes level gs)
    (hover : Over u frame rest) (g : LockId) : ∀ f ∈ gs, keeps g f = false := by
  intro f hf
  cases Frame.pushed_of_pushes hframe hpushes hf with
  | quiet _ _ hquiet =>
      cases f with
      | call op => cases op <;> simp_all [Frame.isQuiet, keeps]
      | client k => simp [Frame.isQuiet] at hquiet
      | _ => rfl
  | release c l =>
      have hl := (EndsWait.not_isTableLock hu hover).2.2
      simp only [keeps, decide_eq_false_iff_not]
      rintro ⟨rfl, htable⟩
      exact hl htable
  | _ => rfl

/-- A system call that pushes the `Release` of a table's lock owns the lock. -/
theorem Keeping.owner_of_push (h : Keeping s) (hs : Grounded s) (hholding : Holding s)
    {k : UserFrame} {rs : List (Request UserFrame)}
    (hstack : s.stack s.currentThread = .client k :: rest) (hasks : k.Asks s.pop rs)
    {g : LockId} {f : Frame UserFrame} (hf : f ∈ rs.map Request.frame)
    (hkeeps : keeps g f = true) : (s.lock g).owner = some s.currentThread := by
  have hentered : k.entered = some g → (s.lock g).owner = some s.currentThread :=
    fun hk => (hholding _ [] k rest g hstack hk).owns
  obtain ⟨request, hrequest, rfl⟩ := List.mem_map.mp hf
  have htable := isTableLock_of_keeps hkeeps
  cases request with
  | call op =>
      cases op <;>
        simp only [Request.frame, keeps, Bool.false_eq_true, decide_eq_true_eq] at hkeeps
      rcases asks_release (s := s.pop) hs.sane hasks (hkeeps.1 ▸ hrequest) htable with
        hk | ⟨y, rfl, rfl⟩
      · exact hentered hk
      · refine h s.currentThread cvTableLock (.client (.signalTail y)) ?_ (by simp [keeps])
        rw [hstack]
        exact List.mem_cons_self
  | client k' =>
      cases k' <;>
        simp only [Request.frame, keeps, Bool.false_eq_true, decide_eq_true_eq] at hkeeps
      obtain ⟨a, rfl⟩ := asks_signalTail hasks hrequest
      exact hentered (by rw [hkeeps]; rfl)
  | _ => simp [Request.frame, keeps] at hkeeps

/-- Every step keeps the table's locks with the threads that will release
them. -/
theorem Keeping.step (h : Keeping s) (hs : Grounded s) (hordered : Ordered s)
    (hholding : Holding s) (hat : Kernel.StepAt userClient choice s s' frame rest gs) :
    Keeping s' := by
  intro t g f hf hkeeps
  have htable := isTableLock_of_keeps hkeeps
  -- the lock is lost by the thread's own `Release` only
  have hstays : (s.lock g).owner = some t →
      (t = s.currentThread → frame ≠ .call (.lockRelease g)) →
      (s'.lock g).owner = some t := by
    intro howner hframe
    by_contra hlost
    obtain ⟨hcurrent, hrelease⟩ := (hs.lockInvariant g).owner_lost hat howner hlost
    exact hframe hcurrent.symm hrelease
  by_cases ht : t = s.currentThread
  · subst ht
    rw [hat.stack_self] at hf
    have hover := (hat.stack ▸ hordered s.currentThread).1
    rcases List.mem_append.mp hf with hpushed | hrest
    · rcases stepAt_cases hat with ⟨k, rs, rfl, hexec, rfl⟩ | ⟨hframe, -⟩
      · refine hstays ?_ (by simp)
        exact h.owner_of_push hs hholding hat.stack (userExec_asks hexec) hpushed hkeeps
      · rw [pushes_keeps hs.sane hframe hat.pushes hover g f hpushed] at hkeeps
        exact absurd hkeeps (by simp)
    · refine hstays (h _ g f ?_ hkeeps) ?_
      · rw [hat.stack]
        exact List.mem_cons_of_mem _ hrest
      · rintro - rfl
        rw [hover htable f hrest] at hkeeps
        exact absurd hkeeps (by simp)
  · rcases hat.stack_other t ht with hsame | ⟨body, rfl, -, hroot⟩
    · exact hstays (h t g f (hsame ▸ hf) hkeeps) fun heq => absurd heq ht
    · have hbody : body = .newProcess ∨ body = .kernelRun :=
        (hat.stack ▸ hordered s.currentThread).1
      rw [hroot] at hf
      simp only [Kernel.rootFrames, List.mem_cons, List.not_mem_nil, or_false] at hf
      rcases hf with rfl | rfl | rfl
      · simp [keeps] at hkeeps
      · rcases hbody with rfl | rfl
        · simp [keeps] at hkeeps
        · simp [keeps] at hkeeps
      · simp [keeps] at hkeeps

theorem keeping_boot (pid : ThreadId → Int) : Keeping (userBoot pid) := by
  intro t g f hf hkeeps
  by_cases ht : t = 0
  · simp only [userBoot, Kernel.boot, ht, Function.update_self, List.mem_cons,
      List.not_mem_nil, or_false] at hf
    rcases hf with rfl | rfl | rfl
    · simp [keeps] at hkeeps
    · simp [keeps] at hkeeps
    · simp [keeps] at hkeeps
  · simp [userBoot, Kernel.boot, ht] at hf

end Holding

section Orderly

variable {choice : Choice Input} {s s' : UserKernel} {frame : Frame UserFrame}
  {rest gs : List (Frame UserFrame)}

/-- What holds in every state of a machine that runs user programs. -/
structure Orderly (s : UserKernel) : Prop extends Grounded s where
  ordered : Ordered s
  holding : Holding s
  keeping : Keeping s

theorem orderly_boot (pid : ThreadId → Int) : Orderly (userBoot pid) :=
  ⟨grounded_boot pid, ordered_boot pid, holding_boot pid, keeping_boot pid⟩

theorem Orderly.stepAt (hs : Orderly s) (hs' : Grounded s')
    (hat : Kernel.StepAt userClient choice s s' frame rest gs) : Orderly s' where
  toGrounded := hs'
  ordered := hs.ordered.step hs.toGrounded hs' hat
  holding := hs.holding.step hs.toGrounded hs' hs.ordered hat
  keeping := hs.keeping.step hs.toGrounded hs.ordered hs.holding hat

/-- The invariant rule for runs from an orderly state. -/
theorem Orderly.invariant {guard : UserKernel → Choice Input → Prop}
    {P : UserKernel → Prop} (hs : Orderly s) (hrun : Kernel.Run userClient guard s s')
    (hstep : ∀ u v choice frame rest gs, Orderly u → Orderly v → guard u choice →
      Kernel.StepAt userClient choice u v frame rest gs → P u → P v)
    (hP : P s) : Orderly s' ∧ P s' := by
  have hend := hs.toGrounded.invariant (P := fun u => Orderly u ∧ P u) hrun
    (fun u v choice frame rest gs _ hv hguard hat ⟨hu, hPu⟩ =>
      ⟨hu.stepAt hv hat, hstep u v choice frame rest gs hu (hu.stepAt hv hat) hguard hat hPu⟩)
    ⟨hs, hP⟩
  exact hend.2

theorem UserReachable.orderly (h : UserReachable s) : Orderly s := by
  obtain ⟨pid, hrun⟩ := h
  have hend := (orderly_boot pid).invariant (P := fun _ => True) hrun
    (fun _ _ _ _ _ _ _ _ _ _ _ => trivial) trivial
  exact hend.1

end Orderly

section Replays

/-- A step at which no interrupt is due, and the user program does `event` if it
is its turn. -/
def doing (event : UserEvent) : Choice Input :=
  ⟨[], none, ⟨event, true, true, true, .constructed, 0⟩⟩

/-- `n` steps at which no interrupt is due. -/
def instructions (n : Nat) : List (Choice Input) := List.replicate n (doing .instruction)

/-- `n` steps at which no interrupt is due; the user programs make `call` whenever
it is their turn. -/
def calling (call : Syscall) (n : Nat) : List (Choice Input) :=
  List.replicate n (doing (.syscall call))

/-- A step at which the timer asks for a context switch. -/
def timerTick : Choice Input := { doing .instruction with interrupts := [.timer] }

/-- The steps from boot to the first user instruction. -/
def startup : List (Choice Input) := instructions 19

/-- The loop of `Machine::Run` on the main thread. -/
def mainLoop : List (Frame UserFrame) :=
  [.setStatus .userMode, .oneTick, .client .oneInstruction, .call .threadFinish]

/-- The end of a run from boot, found by replaying choices. -/
theorem exists_userRun {P : UserKernel → Prop} [DecidablePred P] (guard : UserKernel → Bool)
    (pid : ThreadId → Int) (choices : List (Choice Input))
    (h : (replay (Kernel.step userClient) (fun u _ => guard u) choices (userBoot pid)).any
      (fun s => decide (P s)) = true) :
    ∃ s, Kernel.Run userClient (fun u _ => guard u = true) (userBoot pid) s ∧ P s :=
  exists_reach_of_replay (fun _ _ hguard => hguard) h

theorem exists_userReachable {P : UserKernel → Prop} [DecidablePred P]
    (pid : ThreadId → Int) (choices : List (Choice Input))
    (h : (replay (Kernel.step userClient) (fun _ _ => true) choices (userBoot pid)).any
      (fun s => decide (P s)) = true) : ∃ s, UserReachable s ∧ P s := by
  obtain ⟨s, hrun, hs⟩ := exists_reach_of_replay (fun _ _ _ => trivial) h
  exact ⟨s, ⟨pid, hrun⟩, hs⟩

end Replays

end Userprog
end Nachos
