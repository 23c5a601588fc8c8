import Mathlib.Data.Int.ConditionallyCompleteOrder
import Mathlib.Order.CompletePartialOrder
import Mathlib.Order.ConditionallyCompleteLattice.Basic
import Mathlib.Order.Interval.Set.Disjoint
import Nachos.Userprog.LiveThreads

/-!
# The stacks of user threads

`InitRegisters` puts the stack pointer of the first thread of a program 16 bytes
below the end of the address space, and `kernelRun` that of every forked thread 8
bytes below it.  The address space has room for one stack behind code and data.
`StacksApart` is what the layout should guarantee: the stack areas are apart from
each other and from code and data and lie in the address space.  It holds as long
as no live thread is a forked one, and if the last page of code and data leaves 16
bytes free.
-/

namespace Nachos
namespace Userprog

open Threads Lib

/-- The `UserStackSize` bytes below an initial stack pointer. -/
def stackArea (sp : Word) : Set Int := Set.Ico ((sp.toNat : Int) - userStackSize) sp.toNat

/-- The addresses of an address space. -/
def AddrSpace.area (a : AddrSpace) : Set Int := Set.Ico 0 ((a.numPages * pageSize : Nat) : Int)

/-- The addresses of code and data. -/
def AddrSpace.program (a : AddrSpace) : Set Int := Set.Ico 0 (a.size : Int)

/-- The last page of code and data is begun and leaves the 16 bytes free that
`InitRegisters` subtracts. -/
def AddrSpace.Roomy (a : AddrSpace) : Prop :=
  0 < a.size % pageSize ∧ a.size % pageSize + 16 ≤ pageSize

/-- The number of pages is that of code, data and one stack. -/
def AddrSpace.Sized (a : AddrSpace) : Prop :=
  a.numPages = divRoundUp a.size pageSize + divRoundUp userStackSize pageSize ∧
    a.numPages ≤ numPhysPages

/-- The initial stack pointer in an address space with this number of pages. -/
def stackTop (numPages : Nat) (forked : Bool) : Word :=
  BitVec.ofNat 32 (numPages * pageSize) - (if forked then 8 else 16)

section Layout

variable {a : AddrSpace}

/-- Where the stack pointers are. -/
theorem stackTop_toNat {numPages : Nat} (hlow : 8 ≤ numPages) (hhigh : numPages ≤ numPhysPages)
    (forked : Bool) :
    (stackTop numPages forked).toNat = numPages * pageSize - (if forked then 8 else 16) := by
  unfold stackTop pageSize
  unfold numPhysPages at hhigh
  cases forked with
  | true =>
      rw [if_pos rfl, if_pos rfl, BitVec.toNat_sub, BitVec.toNat_ofNat]
      simp
      omega
  | false =>
      rw [if_neg (by simp), if_neg (by simp), BitVec.toNat_sub, BitVec.toNat_ofNat]
      simp
      omega

theorem AddrSpace.Sized.pages (h : a.Sized) :
    8 ≤ a.numPages ∧ a.size + 1024 ≤ a.numPages * pageSize ∧
      (a.Roomy ↔ a.size + 1040 ≤ a.numPages * pageSize) := by
  have hstack : divRoundUp userStackSize pageSize = 8 := by decide
  have hpages := h.1
  rw [hstack] at hpages
  unfold AddrSpace.Roomy
  unfold divRoundUp pageSize at *
  split at hpages
  · omega
  · omega

/-- A forked thread's stack overlaps every other one. -/
theorem forked_overlaps (h : a.Sized) (forked : Bool) :
    ¬ Disjoint (stackArea (stackTop a.numPages true))
      (stackArea (stackTop a.numPages forked)) := by
  obtain ⟨hlow, hsize, -⟩ := h.pages
  unfold stackArea
  rw [Set.Ico_disjoint_Ico, stackTop_toNat hlow h.2, stackTop_toNat hlow h.2]
  unfold pageSize at *
  unfold userStackSize
  cases forked with
  | true => simp
  | false => simp; omega

/-- The stack of the first thread is where it should be. -/
theorem initial_fits_iff (h : a.Sized) :
    (stackArea (stackTop a.numPages false) ⊆ a.area ∧
      Disjoint (stackArea (stackTop a.numPages false)) a.program) ↔ a.Roomy := by
  obtain ⟨hlow, hsize, hroomy⟩ := h.pages
  have hnonempty : ((stackTop a.numPages false).toNat : Int) - userStackSize <
      (stackTop a.numPages false).toNat := by
    unfold userStackSize
    omega
  unfold stackArea AddrSpace.area AddrSpace.program
  rw [hroomy, Set.Ico_disjoint_Ico, Set.Ico_subset_Ico_iff hnonempty, stackTop_toNat hlow h.2,
    if_neg Bool.false_ne_true]
  unfold pageSize userStackSize at *
  omega

end Layout

/-- The procedure of a new thread has not started the program yet. -/
theorem not_running_entry {k : UserFrame} (hk : k.isEntry = true) :
    ¬ Running [.client k, .call .threadFinish] := by
  rintro (heq | ⟨k', heq⟩ | heq)
  · obtain ⟨hhead, -⟩ := List.cons.inj heq
    rw [Frame.client.inj hhead] at hk
    simp [UserFrame.isEntry] at hk
  · simp [userLoop] at heq
  · simp at heq

/-- No step comes to the procedure of a new thread. -/
theorem CoreStep.boot_of_start {f : Frame UserFrame} {k : UserFrame}
    {below : List (Frame UserFrame)} (h : CoreStep f (.client k :: below))
    (hk : k.isBoot = true ∨ k.isEntry = true) :
    k.isBoot = true ∧ ∃ k', f = .client k' ∧ k'.isBoot = true := by
  have hboot : k.isBoot = true := by
    rcases hk with hboot | hentry
    · exact hboot
    · generalize hcore : Frame.client k :: below = c at h
      have hother : ∀ k' below', c = .client k' :: below' → k'.isEntry = true := by
        intro k' below' heq
        obtain ⟨hhead, -⟩ := List.cons.inj (hcore.trans heq)
        rwa [← Frame.client.inj hhead]
      cases h with
      | boots hk₀ hk' =>
          obtain ⟨hhead, -⟩ := List.cons.inj hcore
          rwa [Frame.client.inj hhead]
      | goesOn hk₀ hk' _ _ =>
          exact absurd (hother _ _ rfl) (by simp [(UserFrame.isCall_cases hk').2.1])
      | noFile => simp at hcore
      | exits => simp at hcore
      | halts k below => simp at hcore
      | ends => simp at hcore
      | _ => exact absurd (hother _ _ rfl) (by simp [UserFrame.isEntry])
  exact ⟨hboot, h.boot_before hboot⟩

/-- A program point at which a program is started with fresh registers. -/
def UserFrame.isStart : UserFrame → Bool
  | .newProcess => true
  | .processStore _ _ .startProcess => true
  | .kernelRun => true
  | _ => false

namespace System

section StackPointers

variable {m m' w : System} {env : Environment} {input : Input} {frame : Frame UserFrame}
  {rest gs : List (Frame UserFrame)} {t : ThreadId}

theorem StepAt.forked_same (hat : StepAt m m' w env input frame rest gs)
    (hexec : ∀ space processID, frame ≠ .client (.execFork space processID))
    (hfork : frame ≠ .client .forkBody) : m'.forked = m.forked := by
  obtain ⟨cpu, userRegisters, hschedule⟩ := schedule_eq m frame
  have heffect := hat.effect
  rw [hschedule] at heffect
  rw [hat.after]
  show w.forked = m.forked
  cases heffect with
  | started hframe =>
      unfold startProgram
      split
      · rfl
      · rfl
  | @execForked space processID => exact absurd rfl (hexec space processID)
  | forked hp => exact absurd rfl hfork
  | _ => rfl

theorem StepAt.forked_kept (hat : StepAt m m' w env input frame rest gs)
    (ht : t = m.kernel.threadCount → ∃ body, frame = .call (.threadFork body)) :
    m'.forked t = m.forked t := by
  by_cases hnew : t = m.kernel.threadCount
  · obtain ⟨body, rfl⟩ := ht hnew
    rw [hat.forked_same (by simp) (by simp)]
  · obtain ⟨cpu, userRegisters, hschedule⟩ := schedule_eq m frame
    have heffect := hat.effect
    rw [hschedule] at heffect
    rw [hat.after]
    show w.forked t = m.forked t
    cases heffect with
    | started hframe =>
        unfold startProgram
        split
        · rfl
        · rfl
    | execForked => exact Function.update_of_ne hnew _ _
    | forked hp => exact Function.update_of_ne hnew _ _
    | _ => rfl

/-- `Fork_Syscall` makes the threads that run `kernelRun`. -/
theorem StepAt.forked_new (hat : StepAt m m' w env input frame rest gs) {body : UserFrame}
    (hmem : .call (.threadFork body) ∈ gs) :
    m'.forked m.kernel.threadCount = decide (body = .kernelRun) := by
  rcases stepAt_cases hat.kernel with ⟨k, rs, rfl, hexec, rfl⟩ | ⟨hclient, -⟩
  · have heffect : Effect m env (.client k) w input := hat.effect
    have hasks : k.Asks m.kernel.pop rs := userExec_asks hexec
    rw [hat.after]
    show w.forked m.kernel.threadCount = _
    rcases (asks_fork hasks (fork_mem_asks hmem)).1 with ⟨space, processID, rfl⟩ | rfl
    · obtain rfl := hasks
      obtain rfl : body = .newProcess := by simpa [Request.frame] using hmem
      cases heffect with
      | quiet hquiet => exact hquiet.elim
      | flushed habs _ => simp at habs
      | started habs => simp at habs
      | execForked => exact Function.update_self _ _ _
    · rcases hasks with ⟨-, rfl⟩ | ⟨hfound, rfl⟩
      · simp [Request.frame] at hmem
      · obtain rfl : body = .kernelRun := by simpa [Request.frame] using hmem
        cases heffect with
        | quiet hquiet => exact absurd hquiet hfound
        | flushed habs _ => simp at habs
        | started habs => simp at habs
        | forked hp => exact Function.update_self _ _ _
  · exact absurd hmem (pushes_noFork hat.kernel.pushes hclient)

/-- Nothing else gives a thread a stack pointer. -/
theorem StepAt.initialStack_kept (hat : StepAt m m' w env input frame rest gs)
    (ht : t = m.current → ∀ k : UserFrame, k.isStart = true → frame ≠ .client k) :
    m'.initialStack t = m.initialStack t := by
  obtain ⟨cpu, userRegisters, hschedule⟩ := schedule_eq m frame
  have heffect := hat.effect
  rw [hschedule] at heffect
  rw [hat.after]
  show w.initialStack t = m.initialStack t
  cases heffect with
  | @started frame space hframe =>
      have hne : t ≠ m.current := by
        intro hcur
        rcases hframe with ⟨i, rfl⟩ | ⟨rfl, -⟩
        · exact ht hcur _ rfl rfl
        · exact ht hcur _ rfl rfl
      unfold startProgram
      split
      · exact Function.update_of_ne hne _ _
      · rfl
  | ranForked => exact Function.update_of_ne (fun hcur => ht hcur _ rfl rfl) _ _
  | _ => rfl

/-- The stack pointer a program is started with. -/
theorem StepAt.initialStack_start {k : UserFrame} (hk : k.isStart = true)
    (hat : StepAt m m' w env input (.client k) rest gs)
    (hspace : ∀ space i, k = .processStore space i .startProcess → space = m.currentSpace)
    (hbuilt : (m.addrSpace m.currentSpace).isSome = true) :
    m'.initialStack m.current =
      some (stackTop (m.numPages m.currentSpace) (decide (k = .kernelRun))) := by
  have heffect : Effect m env (.client k) w input := hat.effect
  rw [hat.after]
  show w.initialStack m.current = _
  obtain ⟨a, ha⟩ := Option.isSome_iff_exists.mp hbuilt
  have hpages : m.numPages m.currentSpace = a.numPages := by simp [numPages, ha]
  have hinit : a.initRegisters stackReg = stackTop a.numPages false := by
    unfold AddrSpace.initRegisters
    rw [Function.update_self]
    rfl
  cases heffect with
  | quiet hquiet =>
      cases k with
      | processStore space i use =>
          cases use with
          | exec => simp [UserFrame.isStart] at hk
          | startProcess => exact hquiet.elim
      | newProcess => exact hquiet.elim
      | kernelRun => exact hquiet.elim
      | _ => simp [UserFrame.isStart] at hk
  | flushed habs _ => simp at habs
  | @started _ space hframe =>
      have hstart : k ≠ .kernelRun ∧ space = m.currentSpace := by
        rcases hframe with ⟨i, hsame⟩ | ⟨hsame, hspace'⟩
        · obtain rfl := Frame.client.inj hsame
          exact ⟨by simp, hspace space i rfl⟩
        · obtain rfl := Frame.client.inj hsame
          exact ⟨by simp, hspace'⟩
      obtain ⟨hne, rfl⟩ := hstart
      rw [decide_eq_false hne, hpages, ← hinit]
      simp only [startProgram, ha, start]
      exact Function.update_self _ _ _
  | ranForked =>
      simp only [start, decide_true]
      rw [Function.update_self]
      unfold kernelRunRegisters
      rw [Function.update_self]
      rfl
  | _ => simp [UserFrame.isStart] at hk

end StackPointers

/-- What the stack pointers and the ghosts about them tell. -/
structure Furnished (m : System) : Prop where
  top : ∀ t sp, m.initialStack t = some sp → t < m.kernel.threadCount ∧ m.hasSpace t = true ∧
    sp = stackTop (m.numPages (m.kernel.client.space t)) (m.forked t)
  running : ∀ t, Running (core (m.kernel.stack t)) → m.initialStack t ≠ none
  entry : ∀ t k below, core (m.kernel.stack t) = .client k :: below →
    k.isBoot = true ∨ k.isEntry = true → m.forked t = decide (k = .kernelRun)
  pending : ∀ t body, .call (.threadFork body) ∈ m.kernel.stack t →
    m.forked m.kernel.threadCount = decide (body = .kernelRun)
  first : ∀ t, m.hasSpace t = true → m.forked t = true → ∃ i, m.hasSpace i = true ∧
    m.kernel.client.space i = m.kernel.client.space t ∧ m.forked i = false ∧
      m.initialStack i ≠ none
  single : ∀ t t', m.hasSpace t = true → m.hasSpace t' = true → m.forked t = false →
    m.forked t' = false → m.kernel.client.space t = m.kernel.client.space t' → t = t'
  sized : ∀ space a, m.addrSpace space = some a → a.Sized

section Furnished

variable {m m' w : System} {env : Environment} {input : Input} {frame : Frame UserFrame}
  {rest gs : List (Frame UserFrame)}

/-- A thread that has been given a stack pointer has one for good. -/
theorem StepAt.stack_given (hat : StepAt m m' w env input frame rest gs)
    {t : ThreadId} (ht : m.initialStack t ≠ none) : m'.initialStack t ≠ none := by
  obtain ⟨cpu, userRegisters, hschedule⟩ := schedule_eq m frame
  have heffect := hat.effect
  rw [hschedule] at heffect
  rw [hat.after]
  show w.initialStack t ≠ none
  have hset : ∀ registers : Registers,
      Function.update m.initialStack m.current (some (registers stackReg)) t ≠ none := by
    intro registers
    by_cases hcur : t = m.current
    · rw [hcur, Function.update_self]
      simp
    · rw [Function.update_of_ne hcur]
      exact ht
  cases heffect with
  | started hframe =>
      unfold startProgram
      split
      · exact hset _
      · exact ht
  | ranForked => exact hset _
  | _ => exact ht

/-- The points at which a program is started are the ends of `StartProcess` and the
procedures of new threads. -/
theorem isStart_cases {k : UserFrame} (hk : k.isStart = true) :
    (k.isBoot = true ∨ k.isEntry = true) ∧ k.isVacant = false ∧ isInner (.client k) = false := by
  cases k with
  | processStore space i use =>
      cases use with
      | exec => simp [UserFrame.isStart] at hk
      | startProcess => exact ⟨Or.inl rfl, rfl, rfl⟩
  | newProcess => exact ⟨Or.inr rfl, rfl, rfl⟩
  | kernelRun => exact ⟨Or.inr rfl, rfl, rfl⟩
  | _ => simp [UserFrame.isStart] at hk

/-- The thread that starts its program has an address space. -/
theorem Housed.start_space (h : Housed m) {k : UserFrame} (hk : k.isStart = true)
    (hat : StepAt m m' w env input (.client k) rest gs) :
    m.hasSpace m.current = true ∧
      ∀ space i, k = .processStore space i .startProcess → space = m.currentSpace := by
  have hcore := hat.core_outer (isStart_cases hk).2.2
  have hstage := h.staged.stage m.current
  rw [hcore] at hstage
  have hentry : k.isEntry = true → m.hasSpace m.current = true := by
    intro hk'
    have hbelow : rest = [.call .threadFinish] := by
      cases hstage with
      | booting _ => rfl
      | starting _ => rfl
      | user => rfl
      | calling hcall => exact absurd hk' (by simp [(UserFrame.isCall_cases hcall).2.1])
    exact h.resident m.current (Or.inr (Or.inr (Or.inr ⟨k, hk', hbelow ▸ hcore⟩)))
  cases k with
  | processStore space i use =>
      cases use with
      | exec => simp [UserFrame.isStart] at hk
      | startProcess =>
          obtain ⟨hhas, hspace⟩ := h.settled _ _ rest space hcore rfl
          refine ⟨hhas, fun space' i' heq => ?_⟩
          obtain ⟨rfl, -⟩ := UserFrame.processStore.inj heq
          exact hspace.symm
  | newProcess => exact ⟨hentry rfl, by simp⟩
  | kernelRun => exact ⟨hentry rfl, by simp⟩
  | _ => simp [UserFrame.isStart] at hk

theorem Furnished.top_step (h : Furnished m) (hhoused : Housed m) (hbegun : Begun m)
    (hs : Orderly m.kernel) (hat : StepAt m m' w env input frame rest gs) {t : ThreadId}
    {sp : Word} (ht : m'.initialStack t = some sp) :
    t < m'.kernel.threadCount ∧ m'.hasSpace t = true ∧
      sp = stackTop (m'.numPages (m'.kernel.client.space t)) (m'.forked t) := by
  have hle : m.kernel.threadCount ≤ m'.kernel.threadCount := by
    rcases hat.kernel.life with ⟨_, -, hcount, -⟩ | ⟨-, hcount, -⟩ | ⟨-, -, hcount, -⟩
    · exact hcount ▸ Nat.le_succ _
    · exact Nat.le_of_eq hcount.symm
    · exact Nat.le_of_eq hcount.symm
  -- neither the thread nor its space changes
  have hkeep : t < m.kernel.threadCount → m.hasSpace t = true →
      sp = stackTop (m.numPages (m.kernel.client.space t)) (m.forked t) →
      t < m'.kernel.threadCount ∧ m'.hasSpace t = true ∧
        sp = stackTop (m'.numPages (m'.kernel.client.space t)) (m'.forked t) := by
    intro hborn hhas hsp
    refine ⟨Nat.lt_of_lt_of_le hborn hle, (hat.tenancy hs).hasSpace_mono hhas, ?_⟩
    rw [hat.tenant_kept hhoused hbegun hs hhas, hhoused.numPages_step hat (hhoused.housed t hhas).2,
      hat.forked_kept (hat.tenant_cases hhoused hbegun hhas).2]
    exact hsp
  by_cases hstart : t = m.current ∧ ∃ k : UserFrame, k.isStart = true ∧ frame = .client k
  · obtain ⟨rfl, k, hk, rfl⟩ := hstart
    obtain ⟨hhas, hspace⟩ := hhoused.start_space hk hat
    rw [hat.initialStack_start hk hspace (hhoused.housed _ hhas).2] at ht
    refine hkeep hs.wellFormed.current_lt hhas ?_
    obtain ⟨hwhich, -, hinner⟩ := isStart_cases hk
    rw [h.entry _ k rest (hat.core_outer hinner) hwhich]
    exact (Option.some.inj ht).symm
  · rw [hat.initialStack_kept fun hcur k hk hframe => hstart ⟨hcur, k, hk, hframe⟩] at ht
    obtain ⟨hborn, hhas, hsp⟩ := h.top t sp ht
    exact hkeep hborn hhas hsp

theorem Furnished.running_step (h : Furnished m) (hhoused : Housed m) (hs : Orderly m.kernel)
    (hat : StepAt m m' w env input frame rest gs) {t : ThreadId}
    (ht : Running (core (m'.kernel.stack t))) : m'.initialStack t ≠ none := by
  by_cases hcur : t = m.current
  · subst hcur
    have hstarted : ∀ k : UserFrame, k.isStart = true → frame = .client k →
        m'.initialStack m.current ≠ none := by
      rintro k hk rfl
      obtain ⟨hhas, hspace⟩ := hhoused.start_space hk hat
      rw [hat.initialStack_start hk hspace (hhoused.housed _ hhas).2]
      simp
    rcases hhoused.resident_before hs hat ht.resident with hbefore | ⟨space, i, hframe⟩
    · rcases hbefore with huser | hcall | hleaving | ⟨k, hk, hentry⟩
      · exact hat.stack_given (h.running _ (Or.inl huser))
      · exact hat.stack_given (h.running _ (Or.inr (Or.inl hcall)))
      · exact hat.stack_given (h.running _ (Or.inr (Or.inr hleaving)))
      · -- the procedure of the thread has been entered
        have hk' : k.isStart = true := by
          cases k <;> simp [UserFrame.isEntry, UserFrame.isStart] at hk ⊢
        rcases hhoused.staged.core_cases hs hat.kernel with ⟨-, hsame⟩ | ⟨-, hcore, -⟩
        · rw [show core (m'.kernel.stack m.current) = _ from hsame.trans hentry] at ht
          exact absurd ht (not_running_entry hk)
        · obtain ⟨hframe, -⟩ := List.cons.inj (hcore.symm.trans hentry)
          exact hstarted k hk' hframe
    · exact hstarted _ rfl hframe
  · rcases hat.kernel.stack_other t hcur with hsame | ⟨body, rfl, hnew, hroot⟩
    · rw [hat.initialStack_kept fun h' => absurd h' hcur]
      exact h.running t (hsame ▸ ht)
    · have hbody := (hhoused.staged.fork m.kernel.currentThread body
        (by simp [hat.kernel.stack])).2
      rw [hroot, core_root hbody] at ht
      exact absurd ht (not_running_entry hbody)

theorem Furnished.entry_step (h : Furnished m) (hhoused : Housed m) (hs : Orderly m.kernel)
    (hat : StepAt m m' w env input frame rest gs) {t : ThreadId} {k : UserFrame}
    {below : List (Frame UserFrame)} (hcore' : core (m'.kernel.stack t) = .client k :: below)
    (hk : k.isBoot = true ∨ k.isEntry = true) : m'.forked t = decide (k = .kernelRun) := by
  by_cases hcur : t = m.current
  · subst hcur
    have hborn : m.current ≠ m.kernel.threadCount := Nat.ne_of_lt hs.wellFormed.current_lt
    rw [hat.forked_kept fun habs => absurd habs hborn]
    rcases hhoused.staged.core_cases hs hat.kernel with ⟨-, hsame⟩ | ⟨-, hcore, hstep⟩
    · exact h.entry _ k below (hsame.symm.trans hcore') hk
    · rw [show core (m'.kernel.stack m.kernel.currentThread) = _ from hcore'] at hstep
      obtain ⟨hboot, k₀, rfl, hk₀⟩ := hstep.boot_of_start hk
      have hne : ∀ k : UserFrame, k.isBoot = true → k ≠ .kernelRun := by
        rintro _ hk rfl
        simp [UserFrame.isBoot] at hk
      rw [h.entry m.current k₀ rest hcore (Or.inl hk₀), decide_eq_false (hne k₀ hk₀),
        decide_eq_false (hne k hboot)]
  · rcases hat.kernel.stack_other t hcur with hsame | ⟨body, rfl, hnew, hroot⟩
    · rw [hsame] at hcore'
      have hborn := Nat.ne_of_lt (born_of_core hs hcore')
      rw [hat.forked_kept fun habs => absurd habs hborn]
      exact h.entry t k below hcore' hk
    · have hbody := (hhoused.staged.fork m.kernel.currentThread body
        (by simp [hat.kernel.stack])).2
      rw [hroot, core_root hbody] at hcore'
      obtain ⟨hk', -⟩ := List.cons.inj hcore'
      obtain rfl := Frame.client.inj hk'
      rw [hat.forked_kept fun _ => ⟨body, rfl⟩, hnew]
      exact h.pending m.kernel.currentThread body (by simp [hat.kernel.stack])

theorem Furnished.pending_step (hhoused : Housed m)
    (hat : StepAt m m' w env input frame rest gs) {t : ThreadId} {body : UserFrame}
    (hmem : .call (.threadFork body) ∈ m'.kernel.stack t) :
    m'.forked m'.kernel.threadCount = decide (body = .kernelRun) := by
  by_cases hcur : t = m.kernel.currentThread
  · subst hcur
    have hbelow := hhoused.staged.below m.kernel.currentThread body
    rw [hat.kernel.stack, List.tail_cons] at hbelow
    rw [hat.kernel.stack_self] at hmem
    have hnew := (List.mem_append.mp hmem).resolve_right hbelow
    have hclient : ∃ k, frame = .client k := by
      by_contra hnone
      exact pushes_noFork hat.kernel.pushes (fun k hk => hnone ⟨k, hk⟩) hnew
    obtain ⟨k, rfl⟩ := hclient
    rw [hat.client_threadCount]
    exact hat.forked_new hnew
  · rcases hat.kernel.stack_other t hcur with hsame | ⟨body', -, -, hroot⟩
    · exact absurd (hhoused.staged.fork t body (hsame ▸ hmem)).1 hcur
    · rw [hroot] at hmem
      simp [Kernel.rootFrames] at hmem

/-- A forked thread gets the space of the thread that forks. -/
theorem Furnished.forked_tenant (h : Furnished m) (hs : Orderly m.kernel)
    (hat : StepAt m m' w env input frame rest gs) {t : ThreadId}
    (hvacant : m.hasSpace t = false) (ht : m'.hasSpace t = true)
    (hforked : m'.forked t = true) :
    frame = .client .forkBody ∧ m'.kernel.client.space t = m.currentSpace := by
  cases hat.tenancy hs with
  | same hsame _ _ _ _ =>
      rw [hsame, hvacant] at ht
      simp at ht
  | moves space hsame _ _ _ =>
      obtain rfl : t = m.current := by
        by_contra hne
        rw [hsame, Function.update_of_ne hne, hvacant] at ht
        simp at ht
      have hborn : m.current ≠ m.kernel.threadCount := Nat.ne_of_lt hs.wellFormed.current_lt
      rw [hat.forked_kept fun habs => absurd habs hborn,
        h.entry _ _ _ (hat.core_outer rfl) (Or.inl rfl)] at hforked
      simp at hforked
  | @forks _ space body later hframe hsame hspace _ =>
      obtain rfl : t = m.kernel.threadCount := by
        by_contra hne
        rw [hsame, Function.update_of_ne hne, hvacant] at ht
        simp at ht
      rw [hat.forked_new List.mem_cons_self, decide_eq_true_eq] at hforked
      rcases hframe with ⟨processID, rfl⟩ | ⟨rfl, rfl⟩
      · rcases stepAt_cases hat.kernel with ⟨k, rs, hk, hexec, hgs⟩ | ⟨hclient, -⟩
        · obtain rfl := Frame.client.inj hk
          have hasks : rs = [.call (.threadFork .newProcess), .client (.sysReturn processID)] :=
            userExec_asks hexec
          rw [hasks] at hgs
          obtain ⟨hbody, -⟩ := List.cons.inj hgs
          simp [Request.frame, hforked] at hbody
        · exact absurd rfl (hclient _)
      · exact ⟨rfl, by rw [hspace, Function.update_self]⟩

/-- The first thread of a space and its stack pointer stay. -/
theorem Furnished.first_step (h : Furnished m) (hhoused : Housed m) (hbegun : Begun m)
    (hs : Orderly m.kernel) (hat : StepAt m m' w env input frame rest gs) {t : ThreadId}
    (ht : m'.hasSpace t = true) (hforked : m'.forked t = true) :
    ∃ i, m'.hasSpace i = true ∧ m'.kernel.client.space i = m'.kernel.client.space t ∧
      m'.forked i = false ∧ m'.initialStack i ≠ none := by
  have hkeep : ∀ i, m.hasSpace i = true → m.kernel.client.space i = m'.kernel.client.space t →
      m.forked i = false → m.initialStack i ≠ none →
      ∃ i, m'.hasSpace i = true ∧ m'.kernel.client.space i = m'.kernel.client.space t ∧
        m'.forked i = false ∧ m'.initialStack i ≠ none := by
    intro i hhas hspace hfirst hgiven
    refine ⟨i, (hat.tenancy hs).hasSpace_mono hhas, ?_, ?_, hat.stack_given hgiven⟩
    · rw [hat.tenant_kept hhoused hbegun hs hhas, hspace]
    · rw [hat.forked_kept (hat.tenant_cases hhoused hbegun hhas).2]
      exact hfirst
  -- the first thread of a thread that was there before
  have hold : ∀ t₀, m.hasSpace t₀ = true → m.forked t₀ = true →
      m.kernel.client.space t₀ = m'.kernel.client.space t →
      ∃ i, m'.hasSpace i = true ∧ m'.kernel.client.space i = m'.kernel.client.space t ∧
        m'.forked i = false ∧ m'.initialStack i ≠ none := by
    intro t₀ hhas hforked₀ hspace
    obtain ⟨i, hhas', hspace', hfirst, hgiven⟩ := h.first t₀ hhas hforked₀
    exact hkeep i hhas' (hspace'.trans hspace) hfirst hgiven
  cases hhas : m.hasSpace t with
  | true =>
      rw [hat.forked_kept (hat.tenant_cases hhoused hbegun hhas).2] at hforked
      exact hold t hhas hforked (hat.tenant_kept hhoused hbegun hs hhas).symm
  | false =>
      obtain ⟨rfl, hspace⟩ := h.forked_tenant hs hat hhas ht hforked
      have hcurrent := hhoused.caller rfl hat
      have hstage := hhoused.staged.stage m.current
      rw [hat.core_outer rfl] at hstage
      have hgiven : m.initialStack m.current ≠ none := by
        refine h.running _ (Or.inr (Or.inl ⟨.forkBody, ?_⟩))
        rw [hat.core_outer rfl, hstage.below_call rfl]
      cases hfirst : m.forked m.current with
      | true => exact hold _ hcurrent hfirst hspace.symm
      | false => exact hkeep _ hcurrent hspace.symm hfirst hgiven

/-- A thread that is given a space and not forked is the first in it. -/
theorem StepAt.first_tenant (hat : StepAt m m' w env input frame rest gs) (hhoused : Housed m)
    (hbegun : Begun m) (hs : Orderly m.kernel) {t t' : ThreadId}
    (hvacant : m.hasSpace t = false) (ht : m'.hasSpace t = true) (hforked : m'.forked t = false)
    (ht' : m.hasSpace t' = true) : m.kernel.client.space t' ≠ m'.kernel.client.space t := by
  intro hspace
  cases hat.tenancy hs with
  | same hsame _ _ _ _ =>
      rw [hsame, hvacant] at ht
      simp at ht
  | moves space hsame hmoves _ _ =>
      obtain rfl : t = m.current := by
        by_contra hne
        rw [hsame, Function.update_of_ne hne, hvacant] at ht
        simp at ht
      rw [hmoves, Function.update_self] at hspace
      obtain rfl := hhoused.alone m.current t' space false (hat.carried_top rfl) ht' hspace
      rw [hvacant] at ht'
      simp at ht'
  | @forks _ space body later hframe hsame hforks _ =>
      obtain rfl : t = m.kernel.threadCount := by
        by_contra hne
        rw [hsame, Function.update_of_ne hne, hvacant] at ht
        simp at ht
      rw [hforks, Function.update_self] at hspace
      rcases hframe with ⟨processID, rfl⟩ | ⟨rfl, rfl⟩
      · obtain rfl := hhoused.alone m.current t' space true (hat.carried_top rfl) ht' hspace
        exact hbegun.strangers _ _ _ space true (hat.core_outer rfl) rfl rfl hspace
      · rcases stepAt_cases hat.kernel with ⟨k, rs, hk, hexec, hgs⟩ | ⟨hclient, -⟩
        · obtain rfl := Frame.client.inj hk
          rcases userExec_asks hexec with ⟨-, rfl⟩ | ⟨-, rfl⟩
          · simp [Request.frame] at hgs
          · obtain ⟨hbody, -⟩ := List.cons.inj hgs
            simp only [Request.frame, Frame.call.injEq, Op.threadFork.injEq] at hbody
            rw [hat.forked_new List.mem_cons_self, hbody] at hforked
            simp at hforked
        · exact absurd rfl (hclient _)

/-- One thread at a time is given a space. -/
theorem Tenancy.given_unique (h : Tenancy m m' frame gs) {t t' : ThreadId}
    (ht : m.hasSpace t = false) (hgiven : m'.hasSpace t = true) (ht' : m.hasSpace t' = false)
    (hgiven' : m'.hasSpace t' = true) : t = t' := by
  have hupdate : ∀ x, m'.hasSpace = Function.update m.hasSpace x true → t = x ∧ t' = x := by
    intro x hsame
    constructor
    · by_contra hne
      rw [hsame, Function.update_of_ne hne, ht] at hgiven
      simp at hgiven
    · by_contra hne
      rw [hsame, Function.update_of_ne hne, ht'] at hgiven'
      simp at hgiven'
  cases h with
  | same hsame _ _ _ _ =>
      rw [hsame, ht] at hgiven
      simp at hgiven
  | moves _ hsame _ _ _ => exact (hupdate _ hsame).1.trans (hupdate _ hsame).2.symm
  | forks _ _ _ hsame _ _ => exact (hupdate _ hsame).1.trans (hupdate _ hsame).2.symm

theorem Furnished.single_step (h : Furnished m) (hhoused : Housed m) (hbegun : Begun m)
    (hs : Orderly m.kernel) (hat : StepAt m m' w env input frame rest gs) {t t' : ThreadId}
    (ht : m'.hasSpace t = true) (ht' : m'.hasSpace t' = true) (hforked : m'.forked t = false)
    (hforked' : m'.forked t' = false)
    (hspace : m'.kernel.client.space t = m'.kernel.client.space t') : t = t' := by
  cases hold : m.hasSpace t with
  | true =>
      have hkept := hat.tenant_kept hhoused hbegun hs hold
      cases hold' : m.hasSpace t' with
      | true =>
          rw [hat.forked_kept (hat.tenant_cases hhoused hbegun hold).2] at hforked
          rw [hat.forked_kept (hat.tenant_cases hhoused hbegun hold').2] at hforked'
          rw [hkept, hat.tenant_kept hhoused hbegun hs hold'] at hspace
          exact h.single t t' hold hold' hforked hforked' hspace
      | false =>
          exact absurd (hkept.symm.trans hspace)
            (hat.first_tenant hhoused hbegun hs hold' ht' hforked' hold)
  | false =>
      cases hold' : m.hasSpace t' with
      | true =>
          have hkept := hat.tenant_kept hhoused hbegun hs hold'
          exact absurd (hkept.symm.trans hspace.symm)
            (hat.first_tenant hhoused hbegun hs hold ht hforked hold')
      | false => exact (hat.tenancy hs).given_unique hold ht hold' ht'

theorem Furnished.sized_step (h : Furnished m) (hat : StepAt m m' w env input frame rest gs)
    {space : SpaceId} {a : AddrSpace} (ha : m'.addrSpace space = some a) : a.Sized := by
  rcases hat.spaces with ⟨hsame, -⟩ | ⟨space', use, built, -, hload, haddr⟩
  · have hunused := hsame.addrSpace space
    rw [ha, Option.map_some] at hunused
    obtain ⟨a₀, ha₀, hshape⟩ := Option.map_eq_some_iff.mp hunused.symm
    have hsized := h.sized space a₀ ha₀
    have hpages : a₀.unused.numPages = a.unused.numPages := congrArg AddrSpace.numPages hshape
    have hsize : a₀.unused.size = a.unused.size := congrArg AddrSpace.size hshape
    unfold AddrSpace.Sized at hsized ⊢
    rw [show a.numPages = a₀.numPages from hpages.symm, show a.size = a₀.size from hsize.symm]
    exact hsized
  · rw [haddr] at ha
    by_cases heq : space = space'
    · subst heq
      rw [Function.update_self] at ha
      obtain rfl := Option.some.inj ha
      obtain ⟨-, -, -, hpages, hfits⟩ := AddrSpace.load_ok hload
      exact ⟨hpages, hfits⟩
    · rw [Function.update_of_ne heq] at ha
      exact h.sized space a ha

theorem Furnished.step (h : Furnished m) (hhoused : Housed m) (hbegun : Begun m)
    (hs : Orderly m.kernel) (hat : StepAt m m' w env input frame rest gs) : Furnished m' where
  top := fun _ _ ht => h.top_step hhoused hbegun hs hat ht
  running := fun _ ht => h.running_step hhoused hs hat ht
  entry := fun _ _ _ hcore hk => h.entry_step hhoused hs hat hcore hk
  pending := fun _ _ hmem => Furnished.pending_step hhoused hat hmem
  first := fun _ ht hforked => h.first_step hhoused hbegun hs hat ht hforked
  single := fun _ _ ht ht' hforked hforked' hspace =>
    h.single_step hhoused hbegun hs hat ht ht' hforked hforked' hspace
  sized := fun _ _ ha => h.sized_step hat ha

theorem furnished_boot (pid : ThreadId → Int) : Furnished (boot pid) := by
  constructor
  case top => exact fun _ _ ht => absurd ht (by simp [boot])
  case running =>
    intro t ht
    have hhas := (housed_boot pid).resident t ht.resident
    exact absurd hhas (by simp [boot])
  case entry =>
    intro t k below hcore hk
    by_cases ht : t = 0
    · subst ht
      obtain ⟨hhead, -⟩ := List.cons.inj hcore
      obtain rfl := Frame.client.inj hhead
      rfl
    · simp [boot, userBoot, Kernel.boot, ht, core] at hcore
  case pending =>
    intro t body hmem
    by_cases ht : t = 0
    · simp [boot, userBoot, Kernel.boot, ht] at hmem
    · simp [boot, userBoot, Kernel.boot, ht] at hmem
  case first => exact fun _ ht => absurd ht (by simp [boot])
  case single => exact fun _ _ ht => absurd ht (by simp [boot])
  case sized => exact fun _ _ ha => absurd ha (by simp [boot])

theorem Reachable.furnished (h : m.Reachable) : Furnished m := by
  obtain ⟨pid, hrun⟩ := h
  suffices hall : (Housed m ∧ Begun m) ∧ Furnished m from hall.2
  refine hrun.stepAt_invariant (P := fun u => (Housed u ∧ Begun u) ∧ Furnished u)
    (orderly_boot pid) ⟨⟨housed_boot pid, begun_boot pid⟩, furnished_boot pid⟩ ?_
  rintro u v w env input frame rest gs hu - - hat ⟨⟨hhoused, hbegun⟩, hfurnished⟩
  exact ⟨⟨hhoused.step hu hat, hbegun.step hhoused hu hat⟩,
    hfurnished.step hhoused hbegun hu hat⟩

end Furnished

/-- A thread has been given this stack pointer in an address space: the first
thread of the program, or a live thread that `Fork_Syscall` has made. -/
structure HasStack (m : System) (space : SpaceId) (t : ThreadId) (sp : Word) : Prop where
  given : m.initialStack t = some sp
  space : m.kernel.client.space t = space
  live : m.forked t = true → m.Live t

/-- What the layout of an address space should guarantee. -/
structure StacksApart (m : System) (space : SpaceId) (a : AddrSpace) : Prop where
  disjoint : ∀ t t' sp sp', m.HasStack space t sp → m.HasStack space t' sp' → t ≠ t' →
    Disjoint (stackArea sp) (stackArea sp')
  inside : ∀ t sp, m.HasStack space t sp → stackArea sp ⊆ a.area
  program : ∀ t sp, m.HasStack space t sp → Disjoint (stackArea sp) a.program

section StacksApart

variable {m : System} {space : SpaceId} {a : AddrSpace} {t : ThreadId} {sp : Word}

theorem HasStack.eq_stackTop (h : m.HasStack space t sp) (hm : Furnished m)
    (ha : m.addrSpace space = some a) : sp = stackTop a.numPages (m.forked t) := by
  obtain ⟨-, -, hsp⟩ := hm.top t sp h.given
  rw [h.space, show m.numPages space = a.numPages by simp [numPages, ha]] at hsp
  exact hsp

/-- The stacks of an address space are apart if and only if no live thread in it
has been forked and the stack of its first thread fits behind code and data. -/
theorem stacksApart_iff (hreach : m.Reachable) (ha : m.addrSpace space = some a) :
    m.StacksApart space a ↔
      ∀ t sp, m.HasStack space t sp → m.forked t = false ∧ a.Roomy := by
  have hm := hreach.furnished
  have hsized := hm.sized space a ha
  constructor
  · intro h t sp ht
    have hsp := ht.eq_stackTop hm ha
    have hfirst : m.forked t = false := by
      by_contra hforked
      rw [Bool.not_eq_false] at hforked
      -- the first thread of the space has a stack, too
      obtain ⟨-, hhas, -⟩ := hm.top t sp ht.given
      obtain ⟨i, -, hspace, hfirst, hgiven⟩ := hm.first t hhas hforked
      obtain ⟨sp', hsp'⟩ := Option.ne_none_iff_exists'.mp hgiven
      have hi : m.HasStack space i sp' :=
        ⟨hsp', hspace.trans ht.space, fun habs => absurd habs (by simp [hfirst])⟩
      have hne : t ≠ i := by
        rintro rfl
        rw [hforked] at hfirst
        simp at hfirst
      have hdisjoint := h.disjoint t i sp sp' ht hi hne
      rw [hsp, hi.eq_stackTop hm ha, hforked] at hdisjoint
      exact forked_overlaps hsized _ hdisjoint
    refine ⟨hfirst, ?_⟩
    rw [← initial_fits_iff hsized, ← hfirst, ← hsp]
    exact ⟨h.inside t sp ht, h.program t sp ht⟩
  · intro h
    have hfits : ∀ t sp, m.HasStack space t sp →
        stackArea sp ⊆ a.area ∧ Disjoint (stackArea sp) a.program := by
      intro t sp ht
      obtain ⟨hfirst, hroomy⟩ := h t sp ht
      rw [ht.eq_stackTop hm ha, hfirst]
      exact (initial_fits_iff hsized).mpr hroomy
    refine ⟨?_, fun t sp ht => (hfits t sp ht).1, fun t sp ht => (hfits t sp ht).2⟩
    intro t t' sp sp' ht ht' hne
    obtain ⟨-, hhas, -⟩ := hm.top t sp ht.given
    obtain ⟨-, hhas', -⟩ := hm.top t' sp' ht'.given
    exact absurd (hm.single t t' hhas hhas' (h t sp ht).1 (h t' sp' ht').1
      (ht.space.trans ht'.space.symm)) hne

/-- A thread of this address space is in `Fork_Syscall`. -/
def ForksIn (m : System) (space : SpaceId) : Prop :=
  m.kernel.top = some (.client .forkBody) ∧ m.currentSpace = space

instance (m : System) (space : SpaceId) : Decidable (m.ForksIn space) :=
  inferInstanceAs (Decidable (_ ∧ _))

/-- In an address space without forks no thread is a forked one. -/
theorem not_forked_of_run {pid : ThreadId → Int}
    (hrun : Run (fun u _ => ¬ u.ForksIn space) (boot pid) m) (t : ThreadId)
    (ht : m.hasSpace t = true) (hspace : m.kernel.client.space t = space) :
    m.forked t = false := by
  suffices hall : ((Housed m ∧ Begun m) ∧ Furnished m) ∧ ∀ t, m.hasSpace t = true →
      m.kernel.client.space t = space → m.forked t = false from hall.2 t ht hspace
  refine hrun.stepAt_invariant (P := fun u => ((Housed u ∧ Begun u) ∧ Furnished u) ∧
    ∀ t, u.hasSpace t = true → u.kernel.client.space t = space → u.forked t = false)
    (orderly_boot pid) ⟨⟨⟨housed_boot pid, begun_boot pid⟩, furnished_boot pid⟩,
      fun _ ht => absurd ht (by simp [boot])⟩ ?_
  rintro u v w env input frame rest gs hu - hguard hat ⟨⟨⟨hhoused, hbegun⟩, hfurnished⟩, hnone⟩
  refine ⟨⟨⟨hhoused.step hu hat, hbegun.step hhoused hu hat⟩,
    hfurnished.step hhoused hbegun hu hat⟩, fun t ht hspace => ?_⟩
  cases hold : u.hasSpace t with
  | true =>
      rw [hat.forked_kept (hat.tenant_cases hhoused hbegun hold).2]
      rw [hat.tenant_kept hhoused hbegun hu hold] at hspace
      exact hnone t hold hspace
  | false =>
      by_contra hforked
      rw [Bool.not_eq_false] at hforked
      obtain ⟨rfl, hsame⟩ := hfurnished.forked_tenant hu hat hold ht hforked
      exact hguard ⟨hat.kernel.top, hsame.symm.trans hspace⟩

/-- The layout of the stacks, state by state and over a run: the stacks are apart if
and only if every thread that has one is the first of its program and the program
leaves room for it; and this stays so for as long as nobody forks in the address
space. -/
theorem stacks_apart (hreach : m.Reachable) (ha : m.addrSpace space = some a) :
    (m.StacksApart space a ↔
      ∀ t sp, m.HasStack space t sp → m.forked t = false ∧ a.Roomy) ∧
    ((∃ pid, Run (fun u _ => ¬ u.ForksIn space) (boot pid) m) → a.Roomy →
      m.StacksApart space a) := by
  have hiff := stacksApart_iff hreach ha
  refine ⟨hiff, ?_⟩
  rintro ⟨pid, hrun⟩ hroomy
  rw [hiff]
  intro t sp ht
  obtain ⟨-, hhas, -⟩ := hreach.furnished.top t sp ht.given
  exact ⟨not_forked_of_run hrun t hhas ht.space, hroomy⟩

/-- A program that calls `Fork` and `Yield`. -/
def forkAndYield : Executable :=
  -- `addiu r2, r0, n` and `syscall`, twice
  program [0x24020009, 0xc, 0x2402000a, 0xc] 0

/-- The first thread of a program without forks has its stack to itself. -/
theorem stacks_apart_yield :
    ∃ (m : System) (a : AddrSpace), m.Reachable ∧ m.addrSpace 0 = some a ∧
      m.initialStack 0 ≠ none ∧ m.StacksApart 0 a := by
  obtain ⟨m, hrun, hgiven, hspace⟩ := exists_run (P := fun m => m.initialStack 0 ≠ none ∧
      (m.addrSpace 0).any fun a => decide (a.size = 16)) (fun u _ => !decide (u.ForksIn 0))
    (fun _ => 0) (List.replicate 19 (undisturbed forkAndYield)) (by decide +kernel)
  obtain ⟨a, ha, hsize⟩ := (Option.any_eq_true _ _).mp hspace
  have hcalm : Run (fun u _ => ¬ u.ForksIn 0) (boot fun _ => 0) m :=
    hrun.mono fun u _ h => by simpa using h
  have hreach : m.Reachable := ⟨_, hcalm.mono fun _ _ _ => trivial⟩
  have hroomy : a.Roomy := by
    unfold AddrSpace.Roomy
    rw [of_decide_eq_true hsize]
    decide
  exact ⟨m, a, hreach, ha, hgiven, (stacks_apart hreach ha).2 ⟨_, hcalm⟩ hroomy⟩

/-- A thread forks, and its stack and that of the new thread overlap. -/
theorem stacks_overlap :
    ¬ ∀ (m : System) (space : SpaceId) (a : AddrSpace), m.Reachable →
      m.addrSpace space = some a → m.StacksApart space a := by
  intro hclaim
  obtain ⟨m, hreach, hspace, hgiven, hin, hlive, hforked⟩ := exists_reachable
    (P := fun m => (m.addrSpace 0).isSome = true ∧ m.initialStack 1 ≠ none ∧
      m.kernel.client.space 1 = 0 ∧ m.Live 1 ∧ m.forked 1 = true)
    (fun _ => 0) (List.replicate 44 (undisturbed forkAndYield)) (by decide +kernel)
  obtain ⟨a, ha⟩ := Option.isSome_iff_exists.mp hspace
  obtain ⟨sp, hsp⟩ := Option.ne_none_iff_exists'.mp hgiven
  have hfirst := ((stacksApart_iff hreach ha).mp (hclaim m 0 a hreach ha) 1 sp
    ⟨hsp, hin, fun _ => hlive⟩).1
  rw [hforked] at hfirst
  simp at hfirst

end StacksApart

end System

end Userprog
end Nachos
