import Nachos.Userprog.Roll
import Nachos.Userprog.StackAreas

/-!
# The process table accounts for the threads

The roll of a running system: the process table, the threads of the processes, and the slots that
the calls in progress are at work on.  Every step of the system is a step of the roll or leaves it
as it is, so what the system calls keep on the roll holds in every reachable state.

Nothing sets the `pid` of the main thread.  `StartProcess` finds slot 0 for its process, so it is
assumed that the main thread has this `pid`.
-/

namespace Nachos
namespace Userprog

open Threads Lib

namespace Table

variable {α : Type} {t : Table α} {i : Int}

theorem mark_bit_update (hlow : 0 ≤ i) (hhigh : i < t.size) :
    (t.mark i).bit = Function.update t.bit i true := by
  funext j
  rw [mark_bit hlow hhigh, Function.update_apply]
  simp only [eq_comm]

theorem store_entry_update (ht : t.Fits) (hlow : 0 ≤ i) (hhigh : i < t.size) (f : Option α) :
    (t.store i f).entry = Function.update t.entry i f := by
  funext j
  rw [store_entry ht hlow hhigh, Function.update_apply]
  simp only [eq_comm]

theorem clear_bit_update : (t.clear i).bit = Function.update t.bit i false := by
  funext j
  rw [clear_bit, Function.update_apply]
  simp only [eq_comm]

theorem clear_entry_update (h : t.bit i = true) :
    (t.clear i).entry = Function.update t.entry i none := by
  funext j
  rw [clear_entry h, Function.update_apply]
  simp only [eq_comm]

end Table

/-- The slot a program point is at work on. -/
def UserFrame.claim : UserFrame → Option Claim
  | .processStore _ i _ => if i = -1 then none else some (.found i)
  | .execFork _ i => some (.entered i)
  | .exitRemove i => some (.leaving i)
  | .removeBody i => some (.leaving i)
  | _ => none

def frameClaim : Frame UserFrame → Option Claim
  | .client k => k.claim
  | _ => none

/-- The slots a thread is at work on. -/
def claims (stack : List (Frame UserFrame)) : List Claim := stack.filterMap frameClaim

section Claims

variable {s : UserKernel} {rs : List (Request UserFrame)} {gs rest : List (Frame UserFrame)}
  {frame : Frame UserFrame} {k : UserFrame}

theorem claims_append : claims (gs ++ rest) = claims gs ++ claims rest := List.filterMap_append

theorem claims_client : claims (.client k :: rest) = k.claim.toList ++ claims rest := by
  unfold claims
  rw [List.filterMap_cons, show frameClaim (.client k) = k.claim from rfl]
  cases k.claim with
  | none => rfl
  | some c => rfl

theorem claims_singleton (f : Frame UserFrame) : (claims [f]).length ≤ 1 :=
  List.length_filterMap_le _ _

/-- The kernel's own code has nothing to do with the process table. -/
theorem claims_pushed {level : IntStatus} (hpushes : frame.Pushes level gs)
    (hclient : ∀ k, frame ≠ .client k) : claims gs = [] := by
  refine List.filterMap_eq_nil_iff.mpr fun g hg => ?_
  cases g with
  | client k =>
      exfalso
      cases frame with
      | client k => exact absurd rfl (hclient k)
      | halt => exact hpushes.elim
      | call op => cases op <;> simp only [Frame.Pushes] at hpushes <;> grind
      | _ => simp only [Frame.Pushes] at hpushes; grind
  | _ => rfl

theorem claims_cons_kernel (hclient : ∀ k, frame ≠ .client k) :
    claims (frame :: rest) = claims rest := by
  unfold claims
  rw [List.filterMap_cons]
  cases frame with
  | client k => exact absurd rfl (hclient k)
  | _ => rfl

/-- Below a program point of a system call nothing is left to do. -/
theorem Stage.claims_below (h : Stage (.client k :: rest)) : claims rest = [] := by
  cases h with
  | booting _ => rfl
  | starting _ => rfl
  | user => rfl
  | calling _ => rfl

/-- The program points that come to work on a slot. -/
theorem asks_claim {k' : UserFrame} (hasks : k.Asks s rs) (hk' : .client k' ∈ rs)
    (hclaim : k'.claim ≠ none) : k.isProcess = true ∨ ∃ i, k = .exitRemove i := by
  cases k with
  | oneInstruction =>
      rcases hasks with rfl | rfl | ⟨call, rfl⟩
      · obtain rfl : k' = .oneInstruction := by simpa using hk'
        exact absurd rfl hclaim
      · simp at hk'
      · have hcases : k' = .exceptionHandler call ∨ k' = .oneInstruction := by simpa using hk'
        rcases hcases with rfl | rfl
        · exact absurd rfl hclaim
        · exact absurd rfl hclaim
  | exceptionHandler call =>
      rcases hasks with rfl | ⟨rv, rfl⟩ | rfl | ⟨g, k'', hcall, rfl⟩
      · simp at hk'
      · obtain rfl : k' = .sysReturn rv := by simpa using hk'
        exact absurd rfl hclaim
      · obtain rfl : k' = .sysReturn 0 := by simpa using hk'
        exact absurd rfl hclaim
      · obtain rfl : k' = k'' := by simpa using hk'
        cases call <;>
          simp only [Syscall.enters, Option.some.injEq, Prod.mk.injEq, reduceCtorEq] at hcall
        all_goals
          obtain ⟨-, rfl⟩ := hcall
          exact absurd rfl hclaim
  | spacePut space more use =>
      rcases hasks with ⟨-, rfl⟩ | ⟨m, -, rfl⟩
      · obtain rfl : k' = .spaceDone space use := by simpa using hk'
        exact absurd rfl hclaim
      · obtain rfl : k' = .spacePut space m use := by simpa using hk'
        exact absurd rfl hclaim
  | exitRemove i => exact Or.inr ⟨i, rfl⟩
  | _ => simp only [UserFrame.Asks] at hasks; grind [UserFrame.claim, UserFrame.isProcess]

/-- Where `processTable->Put` comes to its end. -/
theorem asks_processStore {space : SpaceId} {i : Int} {use : SpaceUse} (hasks : k.Asks s rs)
    (hmem : .client (.processStore space i use) ∈ rs) :
    k = .processFind space use ∧ i = s.client.processTable.firstClear := by
  cases k with
  | oneInstruction =>
      rcases hasks with rfl | rfl | ⟨call, rfl⟩
      · simp at hmem
      · simp at hmem
      · simp at hmem
  | exceptionHandler call =>
      rcases hasks with rfl | ⟨rv, rfl⟩ | rfl | ⟨g, k', hcall, rfl⟩
      · simp at hmem
      · simp at hmem
      · simp at hmem
      · obtain rfl : .processStore space i use = k' := by simpa using hmem
        cases call <;>
          simp only [Syscall.enters, Option.some.injEq, Prod.mk.injEq, reduceCtorEq, and_false]
            at hcall
  | _ => simp only [UserFrame.Asks] at hasks; grind

/-- What other program points ask for has nothing to do with the process table. -/
theorem claims_asks (hasks : k.Asks s rs) (hk : k.isProcess = false)
    (hremove : ∀ i, k ≠ .exitRemove i) : claims (rs.map Request.frame) = [] := by
  refine List.filterMap_eq_nil_iff.mpr fun g hg => ?_
  cases g with
  | client k' =>
      by_contra hclaim
      rcases asks_claim hasks (client_mem_asks hg) hclaim with hprocess | ⟨i, rfl⟩
      · rw [hk] at hprocess
        simp at hprocess
      · exact hremove i rfl
  | _ => rfl

theorem claim_other (hk : k.isProcess = false) (hremove : ∀ i, k ≠ .exitRemove i) :
    k.claim = none := by
  cases k with
  | exitRemove i => exact absurd rfl (hremove i)
  | processStore space i use => simp [UserFrame.isProcess] at hk
  | execFork space i => simp [UserFrame.isProcess] at hk
  | removeBody i => simp [UserFrame.isProcess] at hk
  | _ => rfl

end Claims

namespace System

/-- A live thread, and if it is the main thread `StartProcess` has started its program. -/
def Counted (m : System) (t : ThreadId) : Prop :=
  m.Live t ∧ ∀ k below, core (m.kernel.stack t) = .client k :: below → k.isBoot = false

/-- What the roll says of a thread. -/
def tenant (m : System) (t : ThreadId) : Option Tenant :=
  if m.hasSpace t then
    some ⟨m.kernel.client.space t, m.kernel.client.pid t,
      if m.forked t then some (m.id t) else none⟩
  else none

/-- The roll of a running system. -/
def roll (m : System) : Roll where
  bit := m.kernel.client.processTable.bit
  entry := m.kernel.client.processTable.entry
  tenant := m.tenant
  active := {t | m.Counted t}
  claim := fun t => (claims (m.kernel.stack t)).head?

/-- What holds of the roll, and what is needed to keep it. -/
structure Enrolled (m : System) : Prop where
  fits : m.kernel.client.processTable.Fits
  single : ∀ t, (claims (m.kernel.stack t)).length ≤ 1
  main : m.kernel.client.pid 0 = 0
  booting : ∀ t k below, core (m.kernel.stack t) = .client k :: below → k.isBoot = true →
    (∃ space, k = .processStore space 0 .startProcess) ∨
      (∀ space i, k ≠ .processStore space i .startProcess) ∧
        ∀ i, m.kernel.client.processTable.bit i = false
  kept : m.roll.Kept

section Parts

variable {m m' w : System} {env : Environment} {input : Input} {frame : Frame UserFrame}
  {rest gs : List (Frame UserFrame)} {t : ThreadId}

/-- Other threads work on the slots they worked on. -/
theorem StepAt.claims_other (hat : StepAt m m' w env input frame rest gs) (hhoused : Housed m)
    (hs : Orderly m.kernel) (ht : t ≠ m.current) :
    claims (m'.kernel.stack t) = claims (m.kernel.stack t) := by
  rcases hat.kernel.stack_other t ht with hsame | ⟨body, rfl, hcount, hroot⟩
  · rw [hsame]
  · have hbody := (hhoused.staged.fork m.kernel.currentThread body
      (by simp [hat.kernel.stack])).2
    rw [hroot, hs.wellFormed.unborn t (Nat.le_of_eq hcount.symm)]
    cases body with
    | newProcess => rfl
    | kernelRun => rfl
    | _ => simp [UserFrame.isEntry] at hbody

theorem StepAt.claim_eq (hat : StepAt m m' w env input frame rest gs) (hhoused : Housed m)
    (hs : Orderly m.kernel) : m'.roll.claim =
      Function.update m.roll.claim m.current (claims (m'.kernel.stack m.current)).head? := by
  funext t
  by_cases ht : t = m.current
  · rw [ht, Function.update_self]
    rfl
  · rw [Function.update_of_ne ht]
    exact congrArg List.head? (hat.claims_other hhoused hs ht)

/-- A step that is not about a thread leaves it counted, or not. -/
theorem StepAt.counted_iff (hat : StepAt m m' w env input frame rest gs) (hhoused : Housed m)
    (hbegun : Begun m) (hs : Orderly m.kernel) (hhas : m'.hasSpace t = m.hasSpace t)
    (hexit : t = m.current → frame ≠ .client .exitBody)
    (hboot : t = m.current → ∀ space i, frame ≠ .client (.processStore space i .startProcess)) :
    m'.Counted t ↔ m.Counted t := by
  constructor
  · rintro ⟨hlive, hnot⟩
    have hlive' : m.Live t := by
      rcases hlive.before hat hhoused hs with hbefore | hvacant
      · exact hbefore
      · have hspace := hlive.1
        rw [hhas, hvacant] at hspace
        simp at hspace
    refine ⟨hlive', fun k below hcore => ?_⟩
    by_contra hk
    have hk' : k.isBoot = true := by simpa using hk
    by_cases ht : t = m.current
    · subst ht
      rcases hhoused.staged.core_cases hs hat.kernel with ⟨-, hsame⟩ | ⟨-, hcore', -⟩
      · have hstill := hnot k below (hsame.trans hcore)
        rw [hk'] at hstill
        simp at hstill
      · obtain ⟨rfl, rfl⟩ := List.cons.inj (hcore'.symm.trans hcore)
        have hnovacant : k.isVacant = false := by
          by_contra hvacant
          have hspace := hbegun.vacant _ k _ hcore (by simpa using hvacant)
          rw [hlive'.1] at hspace
          simp at hspace
        rcases stepAt_cases hat.kernel with ⟨k', rs, hframe, hexec, rfl⟩ | ⟨hclient, -⟩
        · obtain rfl := Frame.client.inj hframe
          have hasks : k.Asks m.kernel.pop rs := userExec_asks hexec
          cases k with
          | processFind space use =>
              cases use with
              | exec => simp [UserFrame.isBoot] at hk'
              | startProcess =>
                  obtain rfl := hasks
                  have hstill := hnot _ rest (congrArg core hat.kernel.stack_self)
                  simp [UserFrame.isBoot] at hstill
          | processStore space i use =>
              cases use with
              | exec => simp [UserFrame.isBoot] at hk'
              | startProcess => exact hboot rfl space i rfl
          | startProcess => simp [UserFrame.isVacant] at hnovacant
          | spacePut space more use =>
              cases use with
              | exec => simp [UserFrame.isBoot] at hk'
              | startProcess => simp [UserFrame.isVacant] at hnovacant
          | spaceDone space use =>
              cases use with
              | exec => simp [UserFrame.isBoot] at hk'
              | startProcess => simp [UserFrame.isVacant] at hnovacant
          | _ => simp [UserFrame.isBoot] at hk'
        · exact hclient k rfl
    · rcases hat.kernel.stack_other t ht with hsame | ⟨body, -, hcount, -⟩
      · have hstill := hnot k below (hsame ▸ hcore)
        rw [hk'] at hstill
        simp at hstill
      · rw [hs.wellFormed.unborn t (Nat.le_of_eq hcount.symm)] at hcore
        simp [core] at hcore
  · rintro ⟨hlive, hnot⟩
    refine ⟨hlive.step hat hhoused hbegun hs hexit, fun k below hcore' => ?_⟩
    by_contra hk
    have hk' : k.isBoot = true := by simpa using hk
    by_cases ht : t = m.current
    · subst ht
      rcases hhoused.staged.core_cases hs hat.kernel with ⟨-, hsame⟩ | ⟨-, hcore, hstep⟩
      · have hstill := hnot k below (hsame.symm.trans hcore')
        rw [hk'] at hstill
        simp at hstill
      · rw [show core (m'.kernel.stack m.kernel.currentThread) = _ from hcore'] at hstep
        obtain ⟨k₀, rfl, hk₀⟩ := hstep.boot_before hk'
        have hstill := hnot k₀ rest hcore
        rw [hk₀] at hstill
        simp at hstill
    · rcases hat.kernel.stack_other t ht with hsame | ⟨body, rfl, -, hroot⟩
      · have hstill := hnot k below (hsame ▸ hcore')
        rw [hk'] at hstill
        simp at hstill
      · have hbody := (hhoused.staged.fork m.kernel.currentThread body
          (by simp [hat.kernel.stack])).2
        rw [hroot, core_root hbody] at hcore'
        obtain ⟨hhead, -⟩ := List.cons.inj hcore'
        obtain rfl := Frame.client.inj hhead
        cases body <;> simp [UserFrame.isEntry, UserFrame.isBoot] at hbody hk'

/-- Only the forks and the end of the construction in `StartProcess` give a thread its fields. -/
theorem StepAt.fields (hat : StepAt m m' w env input frame rest gs)
    (hdone : ∀ space, frame ≠ .client (.spaceDone space .startProcess))
    (hexec : ∀ space processID, frame ≠ .client (.execFork space processID))
    (hfork : frame = .client .forkBody →
      m.kernel.client.processTable.get (m.kernel.client.pid m.current) = none) :
    m'.hasSpace = m.hasSpace ∧ m'.forked = m.forked ∧ m'.id = m.id := by
  obtain ⟨cpu, userRegisters, hschedule⟩ := schedule_eq m frame
  have heffect := hat.effect
  rw [hschedule] at heffect
  rw [hat.after]
  show w.hasSpace = m.hasSpace ∧ w.forked = m.forked ∧ w.id = m.id
  cases heffect with
  | @loaded space use built memMap mainMemory hload =>
      cases use with
      | exec => exact ⟨rfl, rfl, rfl⟩
      | startProcess => exact absurd rfl (hdone space)
  | started hframe =>
      unfold startProgram
      split
      · exact ⟨rfl, rfl, rfl⟩
      · exact ⟨rfl, rfl, rfl⟩
  | @execForked space processID => exact absurd rfl (hexec space processID)
  | forked hp =>
      have hnone := hfork rfl
      exact absurd (hnone.symm.trans hp) (by simp)
  | _ => exact ⟨rfl, rfl, rfl⟩

theorem tenant_same (hfields : m'.hasSpace = m.hasSpace ∧ m'.forked = m.forked ∧ m'.id = m.id)
    (hspace : m'.kernel.client.space = m.kernel.client.space)
    (hpid : m'.kernel.client.pid = m.kernel.client.pid) : m'.roll.tenant = m.roll.tenant := by
  obtain ⟨hhas, hforked, hid⟩ := hfields
  funext t
  unfold roll tenant
  simp only [hhas, hforked, hid, hspace, hpid]

theorem StepAt.active_same (hat : StepAt m m' w env input frame rest gs) (hhoused : Housed m)
    (hbegun : Begun m) (hs : Orderly m.kernel) (hhas : m'.hasSpace = m.hasSpace)
    (hexit : frame ≠ .client .exitBody)
    (hboot : ∀ space i, frame ≠ .client (.processStore space i .startProcess)) :
    m'.roll.active = m.roll.active := by
  ext t
  exact hat.counted_iff hhoused hbegun hs (congrFun hhas t) (fun _ => hexit) fun _ => hboot

/-- A step that does not touch the roll. -/
theorem StepAt.roll_same (hat : StepAt m m' w env input frame rest gs) (hhoused : Housed m)
    (hbegun : Begun m) (hs : Orderly m.kernel)
    (hfields : m'.hasSpace = m.hasSpace ∧ m'.forked = m.forked ∧ m'.id = m.id)
    (htable : m'.kernel.client.processTable = m.kernel.client.processTable)
    (hspace : m'.kernel.client.space = m.kernel.client.space)
    (hpid : m'.kernel.client.pid = m.kernel.client.pid)
    (hclaims : claims (m'.kernel.stack m.current) = claims (m.kernel.stack m.current))
    (hexit : frame ≠ .client .exitBody)
    (hboot : ∀ space i, frame ≠ .client (.processStore space i .startProcess)) :
    m'.roll = m.roll := by
  refine Roll.ext ?_ ?_ ?_ ?_ ?_
  · exact congrArg Table.bit htable
  · exact congrArg Table.entry htable
  · exact tenant_same hfields hspace hpid
  · exact hat.active_same hhoused hbegun hs hfields.1 hexit hboot
  · rw [hat.claim_eq hhoused hs, hclaims]
    exact Function.update_eq_self _ _

/-- The kernel's own steps do not touch the roll. -/
theorem StepAt.roll_kernel (hat : StepAt m m' w env input frame rest gs) (hhoused : Housed m)
    (hbegun : Begun m) (hs : Orderly m.kernel) (hclient : ∀ k, frame ≠ .client k)
    (hstate : m'.kernel.client = m.kernel.client) : m'.roll = m.roll := by
  have hfields := hat.fields (fun _ => hclient _) (fun _ _ => hclient _) fun h =>
    absurd h (hclient _)
  refine hat.roll_same hhoused hbegun hs hfields (by rw [hstate]) (by rw [hstate]) (by rw [hstate])
    ?_ (hclient _) fun _ _ => hclient _
  · rw [current, hat.kernel.stack_self, hat.kernel.stack, claims_append,
      claims_pushed hat.kernel.pushes hclient, claims_cons_kernel hclient]
    rfl

end Parts

section Client

variable {m m' w : System} {env : Environment} {input : Input} {k : UserFrame}
  {rest gs : List (Frame UserFrame)} {rs : List (Request UserFrame)} {t : ThreadId}

/-- Below a program point nothing is at work on a slot. -/
theorem Enrolled.claims_rest (h : Enrolled m) (hhoused : Housed m)
    (hat : StepAt m m' w env input (.client k) rest gs) : claims rest = [] := by
  cases hinner : isInner (.client k) with
  | false =>
      have hstage := hhoused.staged.stage m.kernel.currentThread
      rw [hat.kernel.stack, core_cons_outer hinner] at hstage
      exact hstage.claims_below
  | true =>
      have hsingle := h.single m.kernel.currentThread
      rw [hat.kernel.stack, claims_client] at hsingle
      cases k with
      | exitRemove i => simpa [UserFrame.claim] using hsingle
      | removeBody i => simpa [UserFrame.claim] using hsingle
      | _ => simp [isInner] at hinner

theorem Enrolled.claims_before (h : Enrolled m) (hhoused : Housed m)
    (hat : StepAt m m' w env input (.client k) rest gs) :
    claims (m.kernel.stack m.current) = k.claim.toList := by
  rw [current, hat.kernel.stack, claims_client, h.claims_rest hhoused hat, List.append_nil]

theorem Enrolled.claims_after (h : Enrolled m) (hhoused : Housed m)
    (hat : StepAt m m' w env input (.client k) rest gs) :
    claims (m'.kernel.stack m.current) = claims gs := by
  rw [current, hat.kernel.stack_self, claims_append, h.claims_rest hhoused hat, List.append_nil]

/-- The slot that the running thread is at work on. -/
theorem Enrolled.claim_current (h : Enrolled m) (hhoused : Housed m)
    (hat : StepAt m m' w env input (.client k) rest gs) : m.roll.claim m.current = k.claim := by
  show (claims (m.kernel.stack m.current)).head? = _
  rw [h.claims_before hhoused hat]
  cases k.claim with
  | none => rfl
  | some c => rfl

theorem Enrolled.claim_after (h : Enrolled m) (hhoused : Housed m) (hs : Orderly m.kernel)
    (hat : StepAt m m' w env input (.client k) rest gs) :
    m'.roll.claim = Function.update m.roll.claim m.current (claims gs).head? := by
  rw [hat.claim_eq hhoused hs, h.claims_after hhoused hat]

/-- A program point that is not about processes. -/
theorem Enrolled.roll_other (h : Enrolled m) (hhoused : Housed m) (hbegun : Begun m)
    (hs : Orderly m.kernel)
    (hat : StepAt m m' w env input (.client k) rest (rs.map Request.frame))
    (hexec : userExec input k m.kernel.pop = .ok (m'.kernel.client, rs))
    (hk : k.isProcess = false) : m'.roll = m.roll := by
  have hne : ∀ k', k'.isProcess = true → Frame.client k ≠ .client k' := by
    rintro k' hk' heq
    obtain rfl := Frame.client.inj heq
    rw [hk] at hk'
    simp at hk'
  have hfields := hat.fields (fun _ => hne _ rfl) (fun _ _ => hne _ rfl) fun heq =>
    absurd heq (hne _ rfl)
  have hsame := userExec_sameProcesses hexec hk
  refine hat.roll_same hhoused hbegun hs hfields hsame.processTable hsame.space hsame.pid ?_
    (hne _ rfl) fun _ _ => hne _ rfl
  · rw [h.claims_before hhoused hat, h.claims_after hhoused hat]
    have hasks : k.Asks m.kernel.pop rs := userExec_asks hexec
    by_cases hremove : ∃ i, k = .exitRemove i
    · -- the slot is one of the table, so it is removed
      obtain ⟨i, rfl⟩ := hremove
      have hbit := (h.kept.claimed m.current _ (h.claim_current hhoused hat)).1
      have hrange : 0 ≤ i ∧ i < m.kernel.client.processTable.size := Table.bit_range hbit
      have hpop : exitRemove m.kernel.pop i = .ok (m.kernel.client,
          [.call (.lockAcquire processTableLock), .client (.removeBody i)]) := if_pos hrange
      obtain ⟨-, rfl⟩ := Prod.mk.inj (Except.ok.inj (hpop.symm.trans hexec))
      rfl
    · rw [claims_asks hasks hk fun i heq => hremove ⟨i, heq⟩,
        claim_other hk fun i heq => hremove ⟨i, heq⟩]
      rfl

/-- `processTable->Put` finds a slot, or the table is full. -/
theorem Enrolled.roll_processFind (h : Enrolled m) (hhoused : Housed m) (hbegun : Begun m)
    (hs : Orderly m.kernel) {space : SpaceId} {use : SpaceUse}
    (hat : StepAt m m' w env input (.client (.processFind space use)) rest
      [.call (.lockRelease processTableLock),
        .client (.processStore space m.kernel.client.processTable.firstClear use)])
    (hstate : m'.kernel.client = { m.kernel.client with
      processTable :=
        m.kernel.client.processTable.mark m.kernel.client.processTable.firstClear }) :
    m.roll.Step m'.roll := by
  have hfields := hat.fields (by simp) (by simp) (by simp)
  rcases m.kernel.client.processTable.firstClear_cases with hfull | ⟨hlow, hhigh, hclear⟩
  · have htable : m'.kernel.client.processTable = m.kernel.client.processTable := by
      rw [hstate, hfull]
      exact Table.mark_neg (i := -1) _ (by decide)
    rw [hat.roll_same hhoused hbegun hs hfields htable (by rw [hstate]) (by rw [hstate]) ?_
      (by simp) (by simp)]
    · exact .same
    · rw [h.claims_before hhoused hat, h.claims_after hhoused hat, hfull]
      rfl
  · have hclaim := h.claim_current hhoused hat
    have hfind : m'.roll = m.roll.find m.current m.kernel.client.processTable.firstClear := by
      refine Roll.ext ?_ ?_ ?_ ?_ ?_
      · show m'.kernel.client.processTable.bit = _
        rw [hstate]
        exact Table.mark_bit_update hlow hhigh
      · funext j
        show m'.kernel.client.processTable.entry j = _
        rw [hstate]
        exact Table.mark_entry _ _ j
      · exact tenant_same hfields (by rw [hstate]) (by rw [hstate])
      · exact hat.active_same hhoused hbegun hs hfields.1 (by simp) (by simp)
      · rw [h.claim_after hhoused hs hat]
        have hfound : (UserFrame.processStore space m.kernel.client.processTable.firstClear
            use).claim = some (.found m.kernel.client.processTable.firstClear) := if_neg (by omega)
        rw [claims_cons_kernel (by simp), claims_client, hfound]
        rfl
    rw [hfind]
    exact .finds _ _ hclear hclaim

/-- `processTable->Put` ends, in `Exec_Syscall`. -/
theorem Enrolled.roll_processStore (h : Enrolled m) (hhoused : Housed m) (hbegun : Begun m)
    (hs : Orderly m.kernel) {space : SpaceId} {i : Int}
    (hat : StepAt m m' w env input (.client (.processStore space i .exec)) rest gs)
    (hstate : m'.kernel.client = { m.kernel.client with
      processTable := m.kernel.client.processTable.store i (some ⟨i, 1, 0⟩) })
    (hgs : i = -1 ∧ gs = [.client (.sysReturn (-1))] ∨
      i ≠ -1 ∧ gs = [.call (.lockRelease syscallLock), .client (.execFork space i)]) :
    m.roll.Step m'.roll := by
  have hfields := hat.fields (by simp) (by simp) (by simp)
  rcases hgs with ⟨rfl, rfl⟩ | ⟨hne, rfl⟩
  · have htable : m'.kernel.client.processTable = m.kernel.client.processTable := by
      rw [hstate]
      exact Table.store_neg (i := -1) _ (by decide) (some (⟨-1, 1, 0⟩ : Process))
    rw [hat.roll_same hhoused hbegun hs hfields htable (by rw [hstate]) (by rw [hstate]) ?_
      (by simp) (by simp)]
    · exact .same
    · rw [h.claims_before hhoused hat, h.claims_after hhoused hat]
      rfl
  · have hclaim : m.roll.claim m.current = some (.found i) := by
      rw [h.claim_current hhoused hat]
      exact if_neg hne
    obtain ⟨hlow, hhigh⟩ := Table.bit_range (h.kept.claimed _ _ hclaim).1
    have henter : m'.roll = m.roll.enter m.current i := by
      refine Roll.ext ?_ ?_ ?_ ?_ ?_
      · funext j
        show m'.kernel.client.processTable.bit j = _
        rw [hstate]
        exact Table.store_bit _ _ _ j
      · show m'.kernel.client.processTable.entry = _
        rw [hstate]
        exact Table.store_entry_update h.fits hlow hhigh _
      · exact tenant_same hfields (by rw [hstate]) (by rw [hstate])
      · exact hat.active_same hhoused hbegun hs hfields.1 (by simp) (by simp)
      · rw [h.claim_after hhoused hs hat]
        rfl
    rw [henter]
    exact .enters _ _ hclaim

/-- `processTable->Remove`. -/
theorem Enrolled.roll_removeBody (h : Enrolled m) (hhoused : Housed m) (hbegun : Begun m)
    (hs : Orderly m.kernel) {i : Int}
    (hat : StepAt m m' w env input (.client (.removeBody i)) rest
      [.call (.lockRelease processTableLock)])
    (hstate : m'.kernel.client = { m.kernel.client with
      processTable := m.kernel.client.processTable.clear i }) :
    m.roll.Step m'.roll := by
  have hfields := hat.fields (by simp) (by simp) (by simp)
  have hclaim : m.roll.claim m.current = some (.leaving i) := h.claim_current hhoused hat
  have hremove : m'.roll = m.roll.remove m.current i := by
    refine Roll.ext ?_ ?_ ?_ ?_ ?_
    · show m'.kernel.client.processTable.bit = _
      rw [hstate]
      exact Table.clear_bit_update
    · show m'.kernel.client.processTable.entry = _
      rw [hstate]
      exact Table.clear_entry_update (h.kept.claimed _ _ hclaim).1
    · exact tenant_same hfields (by rw [hstate]) (by rw [hstate])
    · exact hat.active_same hhoused hbegun hs hfields.1 (by simp) (by simp)
    · rw [h.claim_after hhoused hs hat]
      rfl
  rw [hremove]
  exact .removes _ _ hclaim

/-- A thread in a system call is counted. -/
theorem Housed.caller_counted (hhoused : Housed m) (hs : Orderly m.kernel) (hk : k.isCall = true)
    (hat : StepAt m m' w env input (.client k) rest gs) : m.Counted m.current := by
  have hcore := hat.core_outer (isInner_of_isCall hk)
  refine ⟨⟨hhoused.caller hk hat, hs.wellFormed.not_finished hat.kernel.top rfl,
    not_leaving_client hcore⟩, fun k' below hcore' => ?_⟩
  obtain ⟨hhead, -⟩ := List.cons.inj (hcore.symm.trans hcore')
  rw [← Frame.client.inj hhead]
  exact (UserFrame.isCall_cases hk).1

/-- The tenant of the running thread. -/
theorem tenant_of_hasSpace (h : m.hasSpace t = true) : m.tenant t =
    some ⟨m.kernel.client.space t, m.kernel.client.pid t,
      if m.forked t then some (m.id t) else none⟩ := if_pos h

theorem tenant_eq_none (h : m.hasSpace t = false) : m.tenant t = none := by
  unfold tenant
  rw [h]
  rfl

theorem hasSpace_of_tenant {a : Tenant} (h : m.tenant t = some a) :
    m.hasSpace t = true ∧ m.kernel.client.space t = a.space ∧ m.kernel.client.pid t = a.pid := by
  unfold tenant at h
  split at h
  · rename_i hhas
    obtain rfl := Option.some.inj h
    exact ⟨hhas, rfl, rfl⟩
  · exact absurd h (by simp)

/-- The next thread is not on the roll. -/
theorem Housed.unborn_vacant (hhoused : Housed m)
    (hat : StepAt m m' w env input (.client k) rest gs) :
    m.hasSpace m.kernel.threadCount = false := by
  by_contra hhas
  rcases hhoused.born _ (by simpa using hhas) with hlt | ⟨-, body, htop⟩
  · exact absurd hlt (Nat.lt_irrefl _)
  · exact absurd (hat.kernel.top.symm.trans htop) (by simp)

/-- `StartProcess` gives its thread the address space. -/
theorem Enrolled.roll_settle (h : Enrolled m) (hhoused : Housed m) (hbegun : Begun m)
    (hfurnished : Furnished m) (hs : Orderly m.kernel) {space : SpaceId}
    (hat : StepAt m m' w env input (.client (.spaceDone space .startProcess)) rest
      [.call (.lockAcquire processTableLock), .client (.processFind space .startProcess)])
    (hstate : m'.kernel.client = { m.kernel.client with
      space := Function.update m.kernel.client.space m.current space }) :
    m.roll.Step m'.roll := by
  have hcore := hat.core_outer rfl
  have hvacant : m.hasSpace m.current = false := hbegun.vacant _ _ _ hcore rfl
  have hforked : m.forked m.current = false := by
    rw [hfurnished.entry _ _ _ hcore (Or.inl rfl)]
    rfl
  have hfields : m'.hasSpace = Function.update m.hasSpace m.current true ∧
      m'.forked = m.forked ∧ m'.id = m.id := by
    have heffect : Effect m env _ w input := hat.effect
    rw [hat.after]
    cases heffect with
    | quiet hquiet => exact hquiet.elim
    | loaded hload => exact ⟨rfl, rfl, rfl⟩
    | flushed hframe _ => simp at hframe
    | started hframe => simp at hframe
  obtain ⟨hhas, hforked', hid⟩ := hfields
  have hother : ∀ t, t ≠ m.current → m'.hasSpace t = m.hasSpace t := fun t ht => by
    rw [hhas, Function.update_of_ne ht]
  have hsettle : m'.roll = m.roll.settle m.current ⟨space, m.kernel.client.pid m.current, none⟩ := by
    refine Roll.ext ?_ ?_ ?_ ?_ ?_
    · exact congrArg (fun u => u.processTable.bit) hstate
    · exact congrArg (fun u => u.processTable.entry) hstate
    · funext t
      show m'.tenant t = Function.update m.tenant _ _ t
      by_cases ht : t = m.current
      · subst ht
        rw [tenant_of_hasSpace (by rw [hhas, Function.update_self]), Function.update_self, hstate,
          hforked', hforked]
        simp
      · unfold tenant
        rw [Function.update_of_ne ht, hother t ht, hstate, hforked', hid]
        simp only [Function.update_of_ne ht]
    · ext t
      by_cases ht : t = m.current
      · subst ht
        refine iff_of_false ?_ ?_
        · rintro ⟨-, hnot⟩
          have hstill := hnot _ rest (congrArg core hat.kernel.stack_self)
          simp [UserFrame.isBoot] at hstill
        · rintro ⟨⟨habs, -⟩, -⟩
          rw [hvacant] at habs
          simp at habs
      · exact hat.counted_iff hhoused hbegun hs (hother t ht) (fun hcur => absurd hcur ht)
          fun hcur => absurd hcur ht
    · rw [h.claim_after hhoused hs hat]
      have hclaim := h.claim_current hhoused hat
      show Function.update m.roll.claim m.current none = m.roll.claim
      rw [← show m.roll.claim m.current = none from hclaim, Function.update_eq_self]
  rw [hsettle]
  refine .settles _ _ (tenant_eq_none hvacant) ?_ rfl
  intro t a ha heq
  obtain ⟨hhas', hspace, -⟩ := hasSpace_of_tenant ha
  have hcur := hhoused.alone m.current t space false (hat.carried_top rfl) hhas'
    (hspace.trans heq)
  rw [hcur, hvacant] at hhas'
  simp at hhas'

/-- `processTable->Put` ends, in `StartProcess`. -/
theorem Enrolled.roll_boot (h : Enrolled m) (hhoused : Housed m) (hbegun : Begun m)
    (hs : Orderly m.kernel) {space : SpaceId} {i : Int}
    (hat : StepAt m m' w env input (.client (.processStore space i .startProcess)) rest
      [.setStatus .userMode, .client .oneInstruction])
    (hstate : m'.kernel.client = { m.kernel.client with
      processTable := m.kernel.client.processTable.store i (some ⟨i, 1, 0⟩) }) :
    m.roll.Step m'.roll := by
  have hcore := hat.core_outer rfl
  have hfields := hat.fields (by simp) (by simp) (by simp)
  obtain ⟨hzero, hcount⟩ := hbegun.alone _ _ _ hcore rfl
  -- the slot is that of the main thread
  have hpid : i = m.kernel.client.pid m.current := by
    rcases h.booting _ _ _ hcore rfl with ⟨space', hfirst⟩ | ⟨habs, -⟩
    · obtain ⟨-, rfl, -⟩ := UserFrame.processStore.inj hfirst
      rw [hzero]
      exact h.main.symm
    · exact absurd rfl (habs space i)
  have hclaim : m.roll.claim m.current = some (.found i) := by
    rw [h.claim_current hhoused hat]
    refine if_neg ?_
    rw [hpid, hzero, h.main]
    decide
  obtain ⟨hlow, hhigh⟩ := Table.bit_range (h.kept.claimed _ _ hclaim).1
  obtain ⟨hhas, -⟩ := hhoused.settled _ _ rest space hcore rfl
  have htenant := tenant_of_hasSpace hhas
  rw [← hpid] at htenant
  have halone : ∀ u b, m.roll.tenant u = some b → u = m.current := by
    intro u b hb
    rcases hhoused.born u (hasSpace_of_tenant hb).1 with hlt | ⟨-, body, htop⟩
    · rw [hcount] at hlt
      rw [hzero]
      exact Nat.lt_one_iff.mp hlt
    · exact absurd (hat.kernel.top.symm.trans htop) (by simp)
  have hboot : m'.roll = m.roll.boot m.current ⟨m.kernel.client.space m.current, i,
      if m.forked m.current then some (m.id m.current) else none⟩ := by
    refine Roll.ext ?_ ?_ ?_ ?_ ?_
    · show m'.kernel.client.processTable.bit = _
      rw [hstate]
      exact funext fun j => Table.store_bit _ _ _ j
    · show m'.kernel.client.processTable.entry = _
      rw [hstate]
      exact Table.store_entry_update h.fits hlow hhigh _
    · exact tenant_same hfields (by rw [hstate]) (by rw [hstate])
    · ext t
      by_cases ht : t = m.current
      · subst ht
        refine iff_of_true ⟨?_, fun k below hcore' => ?_⟩ (Or.inl rfl)
        · exact Live.step ⟨hhas, hs.wellFormed.not_finished hat.kernel.top rfl,
            not_leaving_client hcore⟩ hat hhoused hbegun hs (by simp)
        · have hnew : core (m'.kernel.stack m.current) = .client .oneInstruction :: rest :=
            congrArg core hat.kernel.stack_self
          obtain ⟨hhead, -⟩ := List.cons.inj (hnew.symm.trans hcore')
          rw [← Frame.client.inj hhead]
          rfl
      · refine (hat.counted_iff hhoused hbegun hs (congrFun hfields.1 t)
          (fun hcur => absurd hcur ht) fun hcur => absurd hcur ht).trans ?_
        exact (or_iff_right ht).symm
    · rw [h.claim_after hhoused hs hat]
      rfl
  rw [hboot]
  exact .boots _ _ hclaim htenant halone

/-- Who is active when a thread is made. -/
theorem StepAt.active_new (hat : StepAt m m' w env input (.client k) rest gs)
    (hhoused : Housed m) (hbegun : Begun m) (hs : Orderly m.kernel)
    (hhas : m'.hasSpace = Function.update m.hasSpace m.kernel.threadCount true)
    (hexit : k ≠ .exitBody) (hboot : ∀ space i, k ≠ .processStore space i .startProcess) :
    m'.roll.active = insert m.kernel.threadCount m.roll.active := by
  have hnew : m.kernel.threadCount ≠ m.current := Nat.ne_of_gt hs.wellFormed.current_lt
  ext t
  by_cases ht : t = m.kernel.threadCount
  · subst ht
    refine iff_of_true ⟨?_, fun k' below hcore => ?_⟩ (Or.inl rfl)
    · exact live_unborn hhoused hs hat (by rw [hhas, Function.update_self])
    · rcases hat.kernel.stack_other _ hnew with hsame | ⟨body, habs, -⟩
      · rw [hsame, hs.wellFormed.unborn _ (Nat.le_refl _)] at hcore
        simp [core] at hcore
      · simp at habs
  · refine (hat.counted_iff hhoused hbegun hs (by rw [hhas, Function.update_of_ne ht])
      (fun _ habs => hexit (Frame.client.inj habs))
      fun _ space i habs => hboot space i (Frame.client.inj habs)).trans ?_
    exact (or_iff_right ht).symm

/-- `Exec_Syscall` makes the first thread of its process. -/
theorem Enrolled.roll_welcome (h : Enrolled m) (hhoused : Housed m) (hbegun : Begun m)
    (hs : Orderly m.kernel) {space : SpaceId} {i : Int}
    (hat : StepAt m m' w env input (.client (.execFork space i)) rest
      [.call (.threadFork .newProcess), .client (.sysReturn i)])
    (hstate : m'.kernel.client = adopt m.kernel.pop space i) : m.roll.Step m'.roll := by
  have hclaim : m.roll.claim m.current = some (.entered i) := h.claim_current hhoused hat
  have hfields : m'.hasSpace = Function.update m.hasSpace m.kernel.threadCount true ∧
      m'.forked = Function.update m.forked m.kernel.threadCount false ∧
      m'.id = Function.update m.id m.kernel.threadCount 1 := by
    have heffect : Effect m env _ w input := hat.effect
    rw [hat.after]
    cases heffect with
    | quiet hquiet => exact hquiet.elim
    | execForked => exact ⟨rfl, rfl, rfl⟩
    | flushed hframe _ => simp at hframe
    | started hframe => simp at hframe
  obtain ⟨hhas, hforked, hid⟩ := hfields
  have hvacant := hhoused.unborn_vacant hat
  have hwelcome : m'.roll =
      m.roll.welcome m.current m.kernel.threadCount ⟨space, i, none⟩ := by
    refine Roll.ext ?_ ?_ ?_ ?_ ?_
    · exact congrArg (fun u => u.processTable.bit) hstate
    · exact congrArg (fun u => u.processTable.entry) hstate
    · funext t
      show m'.tenant t = Function.update m.tenant _ _ t
      unfold tenant
      rw [hhas, hforked, hid, hstate]
      by_cases ht : t = m.kernel.threadCount
      · subst ht
        simp [adopt, Kernel.pop]
      · simp [adopt, Kernel.pop, Function.update_of_ne ht]
    · exact hat.active_new hhoused hbegun hs hhas (by simp) (by simp)
    · rw [h.claim_after hhoused hs hat]
      rfl
  rw [hwelcome]
  refine .welcomes _ _ _ hclaim (tenant_eq_none hvacant) ?_ rfl
  intro t a ha heq
  obtain ⟨hhas', hspace, -⟩ := hasSpace_of_tenant ha
  have hcur := hhoused.alone m.current t space true (hat.carried_top rfl) hhas'
    (hspace.trans heq)
  rw [hcur] at hspace
  exact hbegun.strangers _ _ _ space true (hat.core_outer rfl) rfl rfl (hspace.trans heq)

/-- `Fork_Syscall`. -/
theorem Enrolled.roll_fork (h : Enrolled m) (hhoused : Housed m) (hbegun : Begun m)
    (hs : Orderly m.kernel) {p : Process}
    (hat : StepAt m m' w env input (.client .forkBody) rest
      [.call (.threadFork .kernelRun), .call (.lockRelease syscallLock), .client (.sysReturn 0)])
    (hp : m.kernel.client.processTable.get (m.kernel.client.pid m.current) = some p)
    (hstate : m'.kernel.client =
      { adopt m.kernel.pop m.currentSpace (m.kernel.client.pid m.current) with
        processTable := m.kernel.client.processTable.store (m.kernel.client.pid m.current)
          (some { p with activeThreadCount := p.activeThreadCount + 1 }) }) :
    m.roll.Step m'.roll := by
  have hcounted := hhoused.caller_counted hs rfl hat
  have htenant := tenant_of_hasSpace hcounted.1.1
  obtain ⟨hbit, hentry⟩ := Table.bit_of_get hp
  obtain ⟨hlow, hhigh⟩ := Table.bit_range hbit
  have hfields : m'.hasSpace = Function.update m.hasSpace m.kernel.threadCount true ∧
      m'.forked = Function.update m.forked m.kernel.threadCount true ∧
      m'.id = Function.update m.id m.kernel.threadCount
        (p.inactiveThreadCount + (p.activeThreadCount + 1)) := by
    have heffect : Effect m env _ w input := hat.effect
    rw [hat.after]
    cases heffect with
    | quiet hquiet => exact absurd (hquiet.symm.trans hp) (by simp)
    | forked hp' =>
        obtain rfl := Option.some.inj (hp.symm.trans hp')
        exact ⟨rfl, rfl, rfl⟩
    | flushed hframe _ => simp at hframe
    | started hframe => simp at hframe
  obtain ⟨hhas, hforked, hid⟩ := hfields
  have hvacant := hhoused.unborn_vacant hat
  have hfork : m'.roll = m.roll.fork m.kernel.threadCount
      ⟨m.currentSpace, m.kernel.client.pid m.current,
        if m.forked m.current then some (m.id m.current) else none⟩ p := by
    refine Roll.ext ?_ ?_ ?_ ?_ ?_
    · show m'.kernel.client.processTable.bit = _
      rw [hstate]
      exact funext fun j => Table.store_bit _ _ _ j
    · show m'.kernel.client.processTable.entry = _
      rw [hstate]
      exact Table.store_entry_update h.fits hlow hhigh _
    · funext t
      show m'.tenant t = Function.update m.tenant _ _ t
      unfold tenant
      rw [hhas, hforked, hid, hstate]
      by_cases ht : t = m.kernel.threadCount
      · subst ht
        simp [adopt, Kernel.pop]
      · simp [adopt, Kernel.pop, Function.update_of_ne ht]
    · exact hat.active_new hhoused hbegun hs hhas (by simp) (by simp)
    · rw [h.claim_after hhoused hs hat]
      have hclaim := h.claim_current hhoused hat
      show Function.update m.roll.claim m.current none = m.roll.claim
      rw [← show m.roll.claim m.current = none from hclaim, Function.update_eq_self]
  rw [hfork]
  exact .forks m.current _ _ p hcounted htenant hentry (tenant_eq_none hvacant)

/-- Who is active when a thread exits. -/
theorem StepAt.active_exit (hat : StepAt m m' w env input (.client .exitBody) rest gs)
    (hhoused : Housed m) (hbegun : Begun m) (hs : Orderly m.kernel)
    (hhas : m'.hasSpace = m.hasSpace) : m'.roll.active = m.roll.active \ {m.current} := by
  ext t
  by_cases ht : t = m.current
  · subst ht
    exact iff_of_false (fun hcounted => not_live_exited hat hs hcounted.1) fun hmem => hmem.2 rfl
  · refine (hat.counted_iff hhoused hbegun hs (congrFun hhas t) (fun hcur => absurd hcur ht)
      fun hcur => absurd hcur ht).trans ?_
    exact (and_iff_left ht).symm

/-- `Exit_Syscall`, of the last thread. -/
theorem Enrolled.roll_retire (h : Enrolled m) (hhoused : Housed m) (hbegun : Begun m)
    (hs : Orderly m.kernel) {p : Process}
    (hat : StepAt m m' w env input (.client .exitBody) rest
      [.call (.lockRelease syscallLock), .client (.exitRemove (m.kernel.client.pid m.current)),
        .call .threadFinish])
    (hp : m.kernel.client.processTable.get (m.kernel.client.pid m.current) = some p)
    (hlast : p.activeThreadCount = 1) (hstate : m'.kernel.client = m.kernel.client) :
    m.roll.Step m'.roll := by
  have hcounted := hhoused.caller_counted hs rfl hat
  have htenant := tenant_of_hasSpace hcounted.1.1
  have hfields := hat.fields (by simp) (by simp) (by simp)
  have hretire : m'.roll = m.roll.retire m.current
      ⟨m.currentSpace, m.kernel.client.pid m.current,
        if m.forked m.current then some (m.id m.current) else none⟩ := by
    refine Roll.ext ?_ ?_ ?_ ?_ ?_
    · exact congrArg (fun u => u.processTable.bit) hstate
    · exact congrArg (fun u => u.processTable.entry) hstate
    · exact tenant_same hfields (by rw [hstate]) (by rw [hstate])
    · exact hat.active_exit hhoused hbegun hs hfields.1
    · rw [h.claim_after hhoused hs hat]
      rfl
  rw [hretire]
  exact .retires _ _ p hcounted htenant (Table.bit_of_get hp).2 hlast
    (h.claim_current hhoused hat)

/-- `Exit_Syscall`, of another thread. -/
theorem Enrolled.roll_countOut (h : Enrolled m) (hhoused : Housed m) (hbegun : Begun m)
    (hs : Orderly m.kernel) {p : Process}
    (hat : StepAt m m' w env input (.client .exitBody) rest
      [.call (.lockRelease syscallLock), .call .threadFinish])
    (hp : m.kernel.client.processTable.get (m.kernel.client.pid m.current) = some p)
    (hlast : p.activeThreadCount ≠ 1)
    (hstate : m'.kernel.client = { m.kernel.client with
      processTable := m.kernel.client.processTable.store (m.kernel.client.pid m.current)
        (some { p with
          activeThreadCount := p.activeThreadCount - 1
          inactiveThreadCount := p.inactiveThreadCount + 1 }) }) :
    m.roll.Step m'.roll := by
  have hcounted := hhoused.caller_counted hs rfl hat
  have htenant := tenant_of_hasSpace hcounted.1.1
  obtain ⟨hbit, hentry⟩ := Table.bit_of_get hp
  obtain ⟨hlow, hhigh⟩ := Table.bit_range hbit
  have hfields := hat.fields (by simp) (by simp) (by simp)
  have hcountOut : m'.roll = m.roll.countOut m.current
      ⟨m.currentSpace, m.kernel.client.pid m.current,
        if m.forked m.current then some (m.id m.current) else none⟩ p := by
    refine Roll.ext ?_ ?_ ?_ ?_ ?_
    · show m'.kernel.client.processTable.bit = _
      rw [hstate]
      exact funext fun j => Table.store_bit _ _ _ j
    · show m'.kernel.client.processTable.entry = _
      rw [hstate]
      exact Table.store_entry_update h.fits hlow hhigh _
    · exact tenant_same hfields (by rw [hstate]) (by rw [hstate])
    · exact hat.active_exit hhoused hbegun hs hfields.1
    · rw [h.claim_after hhoused hs hat]
      have hclaim := h.claim_current hhoused hat
      show Function.update m.roll.claim m.current none = m.roll.claim
      rw [← show m.roll.claim m.current = none from hclaim, Function.update_eq_self]
  rw [hcountOut]
  exact .countsOut _ _ p hcounted htenant hentry hlast

end Client


section Enrolled

variable {m m' w : System} {env : Environment} {input : Input} {frame : Frame UserFrame}
  {rest gs : List (Frame UserFrame)}

/-- Every step of the system is a step of the roll. -/
theorem Enrolled.roll_step (h : Enrolled m) (hhoused : Housed m) (hbegun : Begun m)
    (hfurnished : Furnished m) (hs : Orderly m.kernel)
    (hat : StepAt m m' w env input frame rest gs) : m.roll.Step m'.roll := by
  rcases stepAt_cases hat.kernel with ⟨k, rs, rfl, hexec, rfl⟩ | ⟨hclient, hstate⟩
  · have hprocess : ProcessEffect m.kernel.pop k m'.kernel.client rs :=
      userExec_process hexec hs.sane.process_size
    -- what is about processes but not about the roll
    have hsame : m'.kernel.client.processTable = m.kernel.client.processTable →
        m'.kernel.client.space = m.kernel.client.space →
        m'.kernel.client.pid = m.kernel.client.pid → k.claim = none →
        claims (rs.map Request.frame) = [] → (∀ space, k ≠ .spaceDone space .startProcess) →
        (∀ space i, k ≠ .execFork space i) →
        (k = .forkBody →
          m.kernel.client.processTable.get (m.kernel.client.pid m.current) = none) →
        k ≠ .exitBody → (∀ space i, k ≠ .processStore space i .startProcess) →
        m.roll.Step m'.roll := by
      intro htable hspace hpid hclaim hclaims hdone hwelcome hfork hexit hboot
      rw [hat.roll_same hhoused hbegun hs ?_ htable hspace hpid ?_ (by simpa using hexit)
        (by simpa using hboot)]
      · exact .same
      · exact hat.fields (by simpa using hdone) (by simpa using hwelcome) (by simpa using hfork)
      · rw [h.claims_before hhoused hat, h.claims_after hhoused hat, hclaim, hclaims]
        rfl
    generalize hstate : m'.kernel.client = state at hprocess
    cases hprocess with
    | other hk _ =>
        rw [h.roll_other hhoused hbegun hs hat hexec hk]
        exact .same
    | noFile =>
        exact hsame (by rw [hstate]; rfl) (by rw [hstate]; rfl) (by rw [hstate]; rfl) rfl rfl
          (by simp) (by simp) (by simp) (by simp) (by simp)
    | constructs hk hprocessTable hspace hpid hnext =>
        have hne : ∀ k', k' ≠ .startProcess → k' ≠ .execBody → k ≠ k' := by
          rintro k' hstart hbody rfl
          rcases hk with ⟨habs, -⟩ | ⟨habs, -⟩
          · exact hstart habs
          · exact hbody habs
        have hclaim : k.claim = none := by
          rcases hk with ⟨rfl, -⟩ | ⟨rfl, -⟩
          · rfl
          · rfl
        exact hsame (hstate ▸ hprocessTable) (hstate ▸ hspace) (hstate ▸ hpid) hclaim rfl
          (fun _ => hne _ (by simp) (by simp)) (fun _ _ => hne _ (by simp) (by simp))
          (fun habs => absurd habs (hne _ (by simp) (by simp))) (hne _ (by simp) (by simp))
          fun _ _ => hne _ (by simp) (by simp)
    | noPages space use =>
        have houtcome : input.outcome = .constructed := hat.effect.outcome
        simp only [userExec, spaceDone, houtcome, Except.ok.injEq, Prod.mk.injEq] at hexec
        exact absurd hexec.2 (by simp)
    | constructed space use =>
        cases use with
        | exec =>
            exact hsame (by rw [hstate]; rfl) (by rw [hstate]; rfl) (by rw [hstate]; rfl) rfl rfl
              (by simp) (by simp) (by simp) (by simp) (by simp)
        | startProcess => exact h.roll_settle hhoused hbegun hfurnished hs hat hstate
    | found space use => exact h.roll_processFind hhoused hbegun hs hat hstate
    | stored space i use hrs =>
        rcases hrs with ⟨rfl, rfl⟩ | ⟨rfl, rfl, rfl⟩ | ⟨rfl, hne, rfl⟩
        · exact h.roll_boot hhoused hbegun hs hat hstate
        · exact h.roll_processStore hhoused hbegun hs hat hstate (Or.inl ⟨rfl, rfl⟩)
        · exact h.roll_processStore hhoused hbegun hs hat hstate (Or.inr ⟨hne, rfl⟩)
    | execForked space processID => exact h.roll_welcome hhoused hbegun hs hat hstate
    | notFound hnone =>
        exact hsame (by rw [hstate]; rfl) (by rw [hstate]; rfl) (by rw [hstate]; rfl) rfl rfl
          (by simp) (by simp) (fun _ => hnone) (by simp) (by simp)
    | forked p hp => exact h.roll_fork hhoused hbegun hs hat hp hstate
    | lastExits p hp hlast => exact h.roll_retire hhoused hbegun hs hat hp hlast hstate
    | exits p hp hlast => exact h.roll_countOut hhoused hbegun hs hat hp hlast hstate
    | removed processID => exact h.roll_removeBody hhoused hbegun hs hat hstate
  · rw [hat.roll_kernel hhoused hbegun hs hclient hstate]
    exact .same

theorem Enrolled.fits_step (h : Enrolled m) (hs : Orderly m.kernel)
    (hat : StepAt m m' w env input frame rest gs) : m'.kernel.client.processTable.Fits := by
  rcases stepAt_cases hat.kernel with ⟨k, rs, rfl, hexec, rfl⟩ | ⟨hclient, hstate⟩
  · have hprocess : ProcessEffect m.kernel.pop k m'.kernel.client rs :=
      userExec_process hexec hs.sane.process_size
    generalize m'.kernel.client = state at hprocess
    cases hprocess with
    | other _ hsame =>
        rw [hsame.processTable]
        exact h.fits
    | constructs _ hprocessTable _ _ _ =>
        rw [hprocessTable]
        exact h.fits
    | found space use => exact h.fits.mark _
    | stored space i use hrs => exact h.fits.store _ _
    | forked p hp => exact h.fits.store _ _
    | exits p hp hlast => exact h.fits.store _ _
    | removed processID => exact h.fits.clear _
    | _ => exact h.fits
  · rw [hstate]
    exact h.fits

/-- Nobody changes the `pid` of a thread. -/
theorem StepAt.pid_kept (hat : StepAt m m' w env input frame rest gs) (hs : Orderly m.kernel)
    {t : ThreadId} (ht : t < m.kernel.threadCount) :
    m'.kernel.client.pid t = m.kernel.client.pid t := by
  rcases stepAt_cases hat.kernel with ⟨k, rs, rfl, hexec, rfl⟩ | ⟨hclient, hstate⟩
  · have hprocess : ProcessEffect m.kernel.pop k m'.kernel.client rs :=
      userExec_process hexec hs.sane.process_size
    generalize m'.kernel.client = state at hprocess
    cases hprocess with
    | other _ hsame => rw [hsame.pid]; rfl
    | constructs _ _ _ hpid _ => rw [hpid]; rfl
    | execForked space processID => exact Function.update_of_ne (Nat.ne_of_lt ht) _ _
    | forked p hp => exact Function.update_of_ne (Nat.ne_of_lt ht) _ _
    | _ => rfl
  · rw [hstate]

theorem Enrolled.single_step (h : Enrolled m) (hhoused : Housed m) (hs : Orderly m.kernel)
    (hat : StepAt m m' w env input frame rest gs) (t : ThreadId) :
    (claims (m'.kernel.stack t)).length ≤ 1 := by
  by_cases ht : t = m.current
  · subst ht
    rcases stepAt_cases hat.kernel with ⟨k, rs, rfl, hexec, rfl⟩ | ⟨hclient, -⟩
    · rw [h.claims_after hhoused hat]
      have hprocess : ProcessEffect m.kernel.pop k m'.kernel.client rs :=
        userExec_process hexec hs.sane.process_size
      generalize m'.kernel.client = state at hexec hprocess
      cases hprocess with
      | other hk _ =>
          have hasks : k.Asks m.kernel.pop rs := userExec_asks hexec
          by_cases hremove : ∃ i, k = .exitRemove i
          · obtain ⟨i, rfl⟩ := hremove
            rcases hasks with rfl | rfl
            · exact Nat.zero_le 1
            · exact claims_singleton (.client (.removeBody i))
          · rw [claims_asks hasks hk fun i heq => hremove ⟨i, heq⟩]
            simp
      | noFile => exact Nat.zero_le 1
      | constructs _ _ _ _ _ => exact Nat.zero_le 1
      | noPages space use => exact Nat.zero_le 1
      | constructed space use => exact Nat.zero_le 1
      | found space use => exact claims_singleton (.client (.processStore space _ use))
      | stored space i use hrs =>
          rcases hrs with ⟨-, rfl⟩ | ⟨-, -, rfl⟩ | ⟨-, -, rfl⟩
          · exact Nat.zero_le 1
          · exact Nat.zero_le 1
          · exact claims_singleton (.client (.execFork space i))
      | execForked space processID => exact Nat.zero_le 1
      | notFound _ => exact Nat.zero_le 1
      | forked p _ => exact Nat.zero_le 1
      | lastExits p _ _ => exact claims_singleton (.client (.exitRemove _))
      | exits p _ _ => exact Nat.zero_le 1
      | removed processID => exact Nat.zero_le 1
    · have hsame : claims (m'.kernel.stack m.current) = claims (m.kernel.stack m.current) := by
        rw [current, hat.kernel.stack_self, hat.kernel.stack, claims_append,
          claims_pushed hat.kernel.pushes hclient, claims_cons_kernel hclient]
        rfl
      rw [hsame]
      exact h.single _
  · rw [hat.claims_other hhoused hs ht]
    exact h.single t

/-- The first slot of an empty table. -/
theorem Table.firstClear_empty {α : Type} {t : Table α} (hsize : 0 < t.size)
    (hempty : ∀ i, t.bit i = false) : t.firstClear = 0 := by
  have hfind : t.map.findIdx? (fun b => decide (b = false)) = some 0 := by
    refine List.findIdx?_eq_some_iff_getElem.mpr ⟨hsize, ?_, fun j hj => absurd hj (by omega)⟩
    have hclear := hempty 0
    unfold Table.bit index? at hclear
    rw [if_neg (by decide), Int.toNat_zero, List.getElem?_eq_getElem hsize] at hclear
    simpa using hclear
  unfold Table.firstClear
  rw [hfind]
  rfl

theorem Enrolled.booting_step (h : Enrolled m) (hhoused : Housed m) (hbegun : Begun m)
    (hs : Orderly m.kernel) (hat : StepAt m m' w env input frame rest gs) {t : ThreadId}
    {k : UserFrame} {below : List (Frame UserFrame)}
    (hcore' : core (m'.kernel.stack t) = .client k :: below) (hk : k.isBoot = true) :
    (∃ space, k = .processStore space 0 .startProcess) ∨
      (∀ space i, k ≠ .processStore space i .startProcess) ∧
        ∀ i, m'.kernel.client.processTable.bit i = false := by
  have ht : t = m.current := by
    by_contra hne
    rcases hat.kernel.stack_other t hne with hsame | ⟨body, rfl, -, hroot⟩
    · rw [hsame] at hcore'
      obtain ⟨rfl, hcount⟩ := hbegun.alone t k below hcore' hk
      have hlt := hs.wellFormed.current_lt
      rw [hcount] at hlt
      exact hne (Nat.lt_one_iff.mp hlt).symm
    · have hbody := (hhoused.staged.fork m.kernel.currentThread body
        (by simp [hat.kernel.stack])).2
      rw [hroot, core_root hbody] at hcore'
      obtain ⟨hhead, -⟩ := List.cons.inj hcore'
      obtain rfl := Frame.client.inj hhead
      cases body <;> simp [UserFrame.isEntry, UserFrame.isBoot] at hbody hk
  subst ht
  have hprocess : ∀ k' rs, frame = .client k' →
      userExec input k' m.kernel.pop = .ok (m'.kernel.client, rs) →
      ProcessEffect m.kernel.pop k' m'.kernel.client rs := fun _ _ _ hexec =>
    userExec_process hexec hs.sane.process_size
  rcases hhoused.staged.core_cases hs hat.kernel with ⟨hinner, hsame⟩ | ⟨-, hcore, hstep⟩
  · refine (h.booting _ _ _ (hsame.symm.trans hcore') hk).imp_right fun hempty => ?_
    refine ⟨hempty.1, fun i => ?_⟩
    rcases stepAt_cases hat.kernel with ⟨k', rs, rfl, hexec, -⟩ | ⟨-, hstate⟩
    · have heffect := hprocess k' rs rfl hexec
      generalize m'.kernel.client = state at heffect
      cases heffect with
      | other _ hfields =>
          rw [hfields.processTable]
          exact hempty.2 i
      | removed processID =>
          refine (Table.clear_bit _ _ _).trans ?_
          split
          · rfl
          · exact hempty.2 i
      | constructs hframe _ _ _ _ =>
          rcases hframe with ⟨rfl, -⟩ | ⟨rfl, -⟩
          · simp [isInner] at hinner
          · simp [isInner] at hinner
      | _ => simp [isInner] at hinner
    · rw [hstate]
      exact hempty.2 i
  · rw [show core (m'.kernel.stack m.kernel.currentThread) = _ from hcore'] at hstep
    obtain ⟨k', rfl, hk'⟩ := hstep.boot_before hk
    rcases stepAt_cases hat.kernel with ⟨k'', rs, hframe, hexec, hgs⟩ | ⟨hclient, -⟩
    · obtain rfl := Frame.client.inj hframe
      have hnew : .client k ∈ rs := by
        rcases hhoused.staged.core_client hs hat.kernel hcore' with
          ⟨-, hinner⟩ | rfl | ⟨k₀, rs', hframe', hexec', hmem, -⟩
        · rw [isInner_of_isBoot hk'] at hinner
          simp at hinner
        · simp [UserFrame.isBoot] at hk
        · obtain rfl := Frame.client.inj hframe'
          obtain ⟨-, rfl⟩ := Prod.mk.inj (Except.ok.inj (hexec.symm.trans hexec'))
          exact hmem
      have hasks : k'.Asks m.kernel.pop rs := userExec_asks hexec
      rcases h.booting _ _ _ hcore hk' with ⟨space, rfl⟩ | ⟨hnot, hempty⟩
      · rcases hasks with ⟨-, rfl⟩ | ⟨habs, -⟩ | ⟨habs, -⟩
        · obtain rfl : k = .oneInstruction := by simpa using hnew
          simp [UserFrame.isBoot] at hk
        · simp at habs
        · simp at habs
      · have heffect := hprocess k' rs rfl hexec
        by_cases hstore : ∃ space i, k = .processStore space i .startProcess
        · obtain ⟨space, i, rfl⟩ := hstore
          obtain ⟨-, rfl⟩ := asks_processStore hasks hnew
          have hsize := Nat.lt_of_succ_lt hs.sane.process_size
          have hfirst := Table.firstClear_empty hsize hempty
          exact Or.inl ⟨space, congrArg (UserFrame.processStore space · .startProcess) hfirst⟩
        · refine Or.inr ⟨fun space i heq => hstore ⟨space, i, heq⟩, ?_⟩
          generalize m'.kernel.client = state at heffect
          cases heffect with
          | other _ hfields =>
              rw [hfields.processTable]
              exact hempty
          | constructs _ htable _ _ _ =>
              rw [htable]
              exact hempty
          | noFile => exact hempty
          | noPages space use => exact hempty
          | constructed space use => exact hempty
          | found space use =>
              obtain rfl : k = .processStore space m.kernel.pop.client.processTable.firstClear use := by
                simpa using hnew
              cases use with
              | exec => simp [UserFrame.isBoot] at hk
              | startProcess => exact absurd ⟨_, _, rfl⟩ hstore
          | stored space i use hrs =>
              cases use with
              | exec => simp [UserFrame.isBoot] at hk'
              | startProcess => exact absurd rfl (hnot space i)
          | _ => simp [UserFrame.isBoot] at hk'
    · exact absurd rfl (hclient _)

theorem Enrolled.step (h : Enrolled m) (hhoused : Housed m) (hbegun : Begun m)
    (hfurnished : Furnished m) (hs : Orderly m.kernel)
    (hat : StepAt m m' w env input frame rest gs) : Enrolled m' where
  fits := h.fits_step hs hat
  single := h.single_step hhoused hs hat
  main := by
    rw [hat.pid_kept hs (Nat.lt_of_le_of_lt (Nat.zero_le _) hs.wellFormed.current_lt)]
    exact h.main
  booting := fun _ _ _ hcore hk => h.booting_step hhoused hbegun hs hat hcore hk
  kept := h.kept.step (h.roll_step hhoused hbegun hfurnished hs hat)

theorem enrolled_boot {pid : ThreadId → Int} (hmain : pid 0 = 0) : Enrolled (boot pid) := by
  have hclaims : ∀ t, claims ((boot pid).kernel.stack t) = [] := by
    intro t
    by_cases ht : t = 0
    · subst ht
      rfl
    · have hempty : (boot pid).kernel.stack t = [] := by simp [boot, userBoot, Kernel.boot, ht]
      rw [hempty]
      rfl
  have hbit : ∀ i, (boot pid).kernel.client.processTable.bit i = false :=
    Table.bit_new processTableMaxSize processTableLock
  have htenant : ∀ t, (boot pid).roll.tenant t = none := fun _ => rfl
  have hidle : ∀ t, ¬ (boot pid).Counted t := fun t h => absurd h.1.1 (by simp [boot])
  have hclaim : ∀ t, (boot pid).roll.claim t = none := by
    intro t
    show (claims ((boot pid).kernel.stack t)).head? = none
    rw [hclaims]
    rfl
  have hnone : ∀ {A : Type} {a : A} {P : Prop}, none = some a → P := fun h => by simp at h
  constructor
  case fits => exact Table.fits_new processTableMaxSize processTableLock
  case single =>
    intro t
    rw [hclaims]
    exact Nat.zero_le 1
  case main => exact hmain
  case booting =>
    intro t k below hcore _
    refine Or.inr ⟨?_, hbit⟩
    rintro space i rfl
    by_cases ht : t = 0
    · subst ht
      obtain ⟨hhead, -⟩ := List.cons.inj hcore
      simp at hhead
    · simp [boot, userBoot, Kernel.boot, ht, core] at hcore
  case kept =>
    constructor
    case toNumbered =>
      constructor
      case finite =>
        refine Set.Finite.subset Set.finite_empty ?_
        intro t ht
        exact absurd (htenant t) ht
      case pids => exact fun _ _ _ _ ha => hnone ((htenant _).symm.trans ha)
      case numbers => exact fun _ _ _ ha => hnone ((htenant _).symm.trans ha)
      case distinct => exact fun _ _ _ _ _ ha => hnone ((htenant _).symm.trans ha)
    case housed => exact fun t ht => absurd ht (hidle t)
    case exclusive => exact fun _ _ _ _ hc => hnone ((hclaim _).symm.trans hc)
    case claimed => exact fun _ _ hc => hnone ((hclaim _).symm.trans hc)
    case entered => exact fun _ _ hc => hnone ((hclaim _).symm.trans hc)
    case recorded => exact fun t ht => absurd ht (hidle t)
    case used =>
      intro i hi
      exact absurd ((hbit i).symm.trans hi) (by simp)
    case spaces => exact fun t ht => absurd ht (hidle t)

/-- What holds in every state of a run from a main thread with `pid` 0. -/
theorem Run.enrolled {pid : ThreadId → Int} (hmain : pid 0 = 0)
    {guard : System → Environment → Prop} (hrun : Run guard (boot pid) m) : Enrolled m := by
  suffices hall : ((Housed m ∧ Begun m) ∧ Furnished m) ∧ Enrolled m from hall.2
  refine hrun.stepAt_invariant
    (P := fun u => ((Housed u ∧ Begun u) ∧ Furnished u) ∧ Enrolled u) (orderly_boot pid)
    ⟨⟨⟨housed_boot pid, begun_boot pid⟩, furnished_boot pid⟩, enrolled_boot hmain⟩ ?_
  rintro u v w env input frame rest gs hu - - hat ⟨⟨⟨hhoused, hbegun⟩, hfurnished⟩, henrolled⟩
  exact ⟨⟨⟨hhoused.step hu hat, hbegun.step hhoused hu hat⟩,
    hfurnished.step hhoused hbegun hu hat⟩, henrolled.step hhoused hbegun hfurnished hu hat⟩

end Enrolled

end System

end Userprog
end Nachos
