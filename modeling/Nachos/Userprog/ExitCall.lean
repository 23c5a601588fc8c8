import Nachos.Userprog.ProcessCounts

/-!
# The end of threads and processes

`Exit_Syscall` asks whether there is another process by `processTable->size`, which is the number of
slots of the table and not that of its processes.  So it never halts the machine.  Everything else it
is to do it does: the thread finishes, and takes the entry of its process out of the process table if
it was its last live thread.
-/

namespace Nachos
namespace Userprog

open Threads Lib

namespace System

/-- The thread has called `Finish`, or has nothing else to do. -/
def Departing (m : System) (t : ThreadId) : Prop :=
  m.kernel.Finished t ∨ Leaving (m.kernel.stack t)

/-- The thread may come to `interrupt->Halt()`. -/
def ComesToHalt (m : System) (t : ThreadId) : Prop :=
  ∃ n, Run (fun _ _ => True) m n ∧ n.current = t ∧ n.kernel.top = some .halt

/-- The thread takes an entry out of the process table. -/
structure TakesOut (t : ThreadId) (i : Int) (u v : System) : Prop where
  running : u.current = t
  point : u.kernel.top = some (.client (.removeBody i))
  step : ∃ env, u.step env = .ok v
  before : u.kernel.client.processTable.bit i = true
  after : v.kernel.client.processTable.bit i = false

/-- Somewhere in a run from the one state to the other, the thread takes the entry out. -/
def Removes (m n : System) (t : ThreadId) (i : Int) : Prop :=
  ∃ u v, Run (fun _ _ => True) m u ∧ TakesOut t i u v ∧ Run (fun _ _ => True) v n

/-- The running thread is the only live thread of its process. -/
def LastThread (m : System) : Prop :=
  ∀ t, m.Live t → m.kernel.client.pid t = m.kernel.client.pid m.current → t = m.current

/-- The process of the running thread is the only one in the process table. -/
def LastProcess (m : System) : Prop :=
  ∀ i, m.kernel.client.processTable.bit i = true → i = m.kernel.client.pid m.current

/-- What `Exit_Syscall` is to do, from the state before it has looked its process up to the state
behind. -/
structure Exits (m m' : System) : Prop where
  halts : m'.ComesToHalt m.current ↔ m.LastThread ∧ m.LastProcess
  departs : ¬ (m.LastThread ∧ m.LastProcess) →
    ∀ n, Run (fun _ _ => True) m' n → n.Departing m.current
  keeps : ¬ m.LastThread → ∀ n, ¬ m'.Removes n m.current (m.kernel.client.pid m.current)
  removes : m.LastThread → ¬ m.LastProcess → ∀ n, Run (fun _ _ => True) m' n →
    n.kernel.Finished m.current → m'.Removes n m.current (m.kernel.client.pid m.current)

/-- The machine goes on from `Exit_Syscall`, which does what it is to do. -/
def ExitsAsMeant (m : System) : Prop := ∀ env, ∃ m', m.step env = .ok m' ∧ m.Exits m'

section Departing

variable {m m' n w : System} {env : Environment} {input : Input} {frame : Frame UserFrame}
  {rest gs : List (Frame UserFrame)} {t : ThreadId} {i : Int} {p : Process}

/-- Who departs does so until it has finished. -/
theorem Departing.step (h : m.Departing t) (hat : StepAt m m' w env input frame rest gs)
    (hhoused : Housed m) (hs : Orderly m.kernel) : m'.Departing t := by
  rcases h with hfin | hleaving
  · exact Or.inl (hat.kernel.finished hfin)
  · by_cases ht : t = m.current
    · subst ht
      rcases hhoused.staged.core_cases hs hat.kernel with ⟨-, hsame⟩ | ⟨-, hcore, -⟩
      · exact Or.inr ((congrArg List.head? hsame).trans hleaving)
      · have hhead : some frame = some (.call .threadFinish) :=
          (congrArg List.head? hcore).symm.trans hleaving
        obtain rfl := Option.some.inj hhead
        rcases hat.kernel.life with ⟨_, habs, -⟩ | ⟨-, -, hsame⟩ | ⟨-, habs, -⟩
        · simp at habs
        · exact Or.inl ((hsame _).mpr (Or.inr rfl))
        · exact absurd rfl habs
    · exact Or.inr ((hat.leaving_other hhoused hs ht).mpr hleaving)

/-- A departing thread runs the kernel's code and the end of `Exit_Syscall`. -/
theorem Departing.inner (h : m.Departing m.current) (hs : Orderly m.kernel)
    (hat : StepAt m m' w env input frame rest gs) (hparked : frame.isParked = false)
    (hfinish : frame ≠ .call .threadFinish) : isInner frame = true := by
  rcases h with hfin | hleaving
  · exact absurd hfin (hs.wellFormed.not_finished hat.kernel.top hparked)
  · by_contra hinner
    have hcore : core (m.kernel.stack m.current) = frame :: rest := by
      rw [current, hat.kernel.stack]
      exact core_cons_outer (by simpa using hinner)
    have hhead : some frame = some (.call .threadFinish) :=
      (congrArg List.head? hcore).symm.trans hleaving
    exact hfinish (Option.some.inj hhead)

/-- A departing thread is not about to halt the machine. -/
theorem Departing.not_halt (h : m.Departing m.current) (hs : Orderly m.kernel) :
    m.kernel.top ≠ some .halt := by
  intro htop
  rcases h with hfin | hleaving
  · exact hs.wellFormed.not_finished htop rfl hfin
  · have hstack := Kernel.stack_of_top htop
    rw [Leaving, current, hstack, core_cons_outer rfl] at hleaving
    simp at hleaving

/-- The slot a departing thread works on remains the same until it takes the entry out. -/
theorem Departing.claims_step (h : m.Departing t) (hat : StepAt m m' w env input frame rest gs)
    (henrolled : Enrolled m) (hhoused : Housed m) (hs : Orderly m.kernel) :
    claims (m'.kernel.stack t) = claims (m.kernel.stack t) ∨
      t = m.current ∧ ∃ i, frame = .client (.removeBody i) := by
  by_cases ht : t = m.current
  · subst ht
    by_cases hclient : ∃ k, frame = .client k
    · obtain ⟨k, rfl⟩ := hclient
      have hinner := h.inner hs hat rfl (by simp)
      cases k with
      | removeBody i => exact Or.inr ⟨rfl, i, rfl⟩
      | exitRemove i =>
          left
          have hclaim : m.roll.claim m.current = some (.leaving i) :=
            henrolled.claim_current hhoused hat
          obtain ⟨hbit, -⟩ := henrolled.kept.claimed _ _ hclaim
          have hrange := Table.bit_range hbit
          rcases stepAt_cases hat.kernel with ⟨k, rs, hk, hexec, rfl⟩ | ⟨habs, -⟩
          · obtain rfl := Frame.client.inj hk
            have hcode : exitRemove m.kernel.pop i = .ok (m.kernel.client,
                [.call (.lockAcquire processTableLock), .client (.removeBody i)]) := if_pos hrange
            obtain ⟨-, rfl⟩ := Prod.mk.inj (Except.ok.inj (hcode.symm.trans hexec))
            rw [henrolled.claims_after hhoused hat, henrolled.claims_before hhoused hat]
            rfl
          · exact absurd rfl (habs _)
      | _ => simp [isInner] at hinner
    · left
      have hkernel : ∀ k, frame ≠ .client k := fun k hk => hclient ⟨k, hk⟩
      rw [current, hat.kernel.stack_self, hat.kernel.stack, claims_append,
        claims_pushed hat.kernel.pushes hkernel, claims_cons_kernel hkernel]
      rfl
  · exact Or.inl (hat.claims_other hhoused hs ht)

/-- A state of a run whose main thread has the `pid` of its process. -/
def Booted (m : System) : Prop := ∃ pid, pid 0 = 0 ∧ Run (fun _ _ => True) (boot pid) m

theorem Booted.reachable (h : m.Booted) : m.Reachable := by
  obtain ⟨pid, -, hrun⟩ := h
  exact ⟨pid, hrun⟩

theorem Booted.enrolled (h : m.Booted) : Enrolled m := by
  obtain ⟨pid, hmain, hrun⟩ := h
  exact Run.enrolled hmain hrun

theorem Booted.idle (h : m.Booted) (hfin : m.kernel.Finished t) :
    claims (m.kernel.stack t) = [] := by
  obtain ⟨pid, -, hrun⟩ := h
  exact hrun.idle hfin

theorem Booted.run (h : m.Booted) (hrun : Run (fun _ _ => True) m n) : n.Booted := by
  obtain ⟨pid, hmain, hboot⟩ := h
  exact ⟨pid, hmain, hboot.trans hrun⟩

theorem Run.departing (hrun : Run (fun _ _ => True) m n) (hm : m.Booted) (h : m.Departing t) :
    n.Departing t := by
  suffices hall : n.Booted ∧ n.Departing t from hall.2
  refine hrun.invariant (P := fun u => u.Booted ∧ u.Departing t) ?_ ⟨hm, h⟩
  rintro u v env ⟨hu, hdeparting⟩ - hstep
  have hs := hu.reachable.orderly
  obtain ⟨w, input, frame, rest, gs, hat⟩ := step_at hs.wellFormed hstep
  exact ⟨hu.run (Reach.refl.tail trivial hstep), hdeparting.step hat hu.reachable.housed hs⟩

/-- A departing thread at work on no slot takes no entry out. -/
theorem Departing.not_removes (h : m.Departing t) (hm : m.Booted)
    (hclaims : claims (m.kernel.stack t) = []) : ¬ m.Removes n t i := by
  rintro ⟨u, v, hrun, htakes, -⟩
  -- what `removeBody` works on shows among the slots
  have hbusy : ∀ {u : System} {j : Int}, t = u.current →
      u.kernel.top = some (.client (.removeBody j)) → claims (u.kernel.stack t) ≠ [] := by
    rintro u j rfl htop
    rw [current, Kernel.stack_of_top htop, claims_client]
    simp [UserFrame.claim]
  have hall : (u.Booted ∧ u.Departing t) ∧ claims (u.kernel.stack t) = [] := by
    refine hrun.invariant
      (P := fun u => (u.Booted ∧ u.Departing t) ∧ claims (u.kernel.stack t) = []) ?_
      ⟨⟨hm, h⟩, hclaims⟩
    rintro u v env ⟨⟨hu, hdeparting⟩, hnone⟩ - hstep
    have hs := hu.reachable.orderly
    obtain ⟨w, input, frame, rest, gs, hat⟩ := step_at hs.wellFormed hstep
    refine ⟨⟨hu.run (Reach.refl.tail trivial hstep),
      hdeparting.step hat hu.reachable.housed hs⟩, ?_⟩
    rcases hdeparting.claims_step hat hu.enrolled hu.reachable.housed hs with
      hsame | ⟨ht, j, rfl⟩
    · exact hsame.trans hnone
    · exact absurd hnone (hbusy ht hat.kernel.top)
  exact hbusy htakes.running.symm htakes.point hall.2

/-- `Table::Remove` takes the entry out. -/
theorem Booted.takesOut (h : m.Booted) (hstep : m.step env = .ok m')
    (hat : StepAt m m' w env input (.client (.removeBody i)) rest gs) :
    TakesOut m.current i m m' := by
  have hclaim : m.roll.claim m.current = some (.leaving i) :=
    h.enrolled.claim_current h.reachable.housed hat
  refine ⟨rfl, hat.kernel.top, ⟨env, hstep⟩, (h.enrolled.kept.claimed _ _ hclaim).1, ?_⟩
  rcases stepAt_cases hat.kernel with ⟨k, rs, hk, hexec, rfl⟩ | ⟨habs, -⟩
  · obtain rfl := Frame.client.inj hk
    obtain ⟨hstate, -⟩ := Prod.mk.inj (Except.ok.inj hexec)
    rw [← hstate]
    exact (Table.clear_bit _ _ _).trans (if_pos rfl)
  · exact absurd rfl (habs _)

/-- A departing thread at work on a slot takes the entry out before it finishes. -/
theorem Departing.removes (h : m.Departing t) (hm : m.Booted)
    (hclaims : claims (m.kernel.stack t) = [.leaving i]) (hrun : Run (fun _ _ => True) m n)
    (hfin : n.kernel.Finished t) : m.Removes n t i := by
  suffices hall : (n.Booted ∧ n.Departing t) ∧
      (claims (n.kernel.stack t) = [.leaving i] ∨ m.Removes n t i) by
    rcases hall with ⟨⟨hn, -⟩, hbusy | hremoves⟩
    · rw [hn.idle hfin] at hbusy
      simp at hbusy
    · exact hremoves
  clear hfin
  induction hrun with
  | refl => exact ⟨⟨hm, h⟩, Or.inl hclaims⟩
  | @tail u v env hrun _ hstep ih =>
      obtain ⟨⟨hu, hdeparting⟩, hclaims⟩ := ih
      have hs := hu.reachable.orderly
      have hhoused := hu.reachable.housed
      obtain ⟨w, input, frame, rest, gs, hat⟩ := step_at hs.wellFormed hstep
      refine ⟨⟨hu.run (Reach.refl.tail trivial hstep), hdeparting.step hat hhoused hs⟩, ?_⟩
      rcases hclaims with hbusy | ⟨u', v', hfirst, htakes, hrest⟩
      · rcases hdeparting.claims_step hat hu.enrolled hhoused hs with hsame | ⟨rfl, j, rfl⟩
        · exact Or.inl (hsame.trans hbusy)
        · right
          have hj := hu.enrolled.claims_before hhoused hat
          rw [hbusy] at hj
          obtain rfl : i = j := by simpa [UserFrame.claim] using hj
          exact ⟨u, v, hrun, hu.takesOut hstep hat, .refl⟩
      · exact Or.inr ⟨u', v', hfirst, htakes, hrest.tail trivial hstep⟩

end Departing

section Exits

variable {m m' w : System} {env : Environment} {input : Input} {rest gs : List (Frame UserFrame)}
  {t : ThreadId} {p : Process}

/-- The program point behind the `Acquire` of `Exit_Syscall`. -/
def AtExit (m : System) : Prop := m.kernel.top = some (.client .exitBody)

instance (m : System) : Decidable m.AtExit := inferInstanceAs (Decidable (_ = _))

theorem AtExit.core_eq (h : m.AtExit) :
    ∃ below, core (m.kernel.stack m.current) = .client .exitBody :: below := by
  refine ⟨(m.kernel.stack m.current).tail, ?_⟩
  rw [current, Kernel.stack_of_top h, core_cons_outer rfl]
  rfl

/-- A thread that exits has an address space. -/
theorem AtExit.counted (h : m.AtExit) (hm : m.Booted) : m.Counted m.current := by
  obtain ⟨below, hcore⟩ := h.core_eq
  have hhoused := hm.reachable.housed
  have hstage := hhoused.staged.stage m.current
  rw [hcore] at hstage
  rw [hstage.below_call rfl] at hcore
  refine ⟨⟨hhoused.resident _ (Or.inr (Or.inl ⟨_, hcore⟩)),
    hm.reachable.orderly.wellFormed.not_finished h rfl, not_leaving_client hcore⟩,
    fun k below' hcore' => ?_⟩
  obtain ⟨hhead, -⟩ := List.cons.inj (hcore.symm.trans hcore')
  rw [← Frame.client.inj hhead]
  rfl

/-- While a thread exits, `StartProcess` is not at work. -/
theorem AtExit.counted_iff (h : m.AtExit) (hm : m.Booted) : m.Counted t ↔ m.Live t := by
  refine ⟨fun hcounted => hcounted.1, fun hlive => ⟨hlive, fun k below hcore => ?_⟩⟩
  by_contra hboot
  obtain ⟨rfl, hcount⟩ := hm.reachable.begun.alone t k below hcore (by simpa using hboot)
  have hcurrent : m.current = 0 := by
    have hlt : m.current < m.kernel.threadCount := hm.reachable.orderly.wellFormed.current_lt
    rw [hcount] at hlt
    exact Nat.lt_one_iff.mp hlt
  obtain ⟨below', hcore'⟩ := h.core_eq
  rw [hcurrent] at hcore'
  obtain ⟨hhead, -⟩ := List.cons.inj (hcore.symm.trans hcore')
  rw [Frame.client.inj hhead] at hboot
  exact hboot rfl

/-- The entry that `Exit_Syscall` finds counts the live threads. -/
theorem AtExit.entry (h : m.AtExit) (hm : m.Booted) : ∃ p,
    m.kernel.client.processTable.get (m.kernel.client.pid m.current) = some p ∧
      (p.activeThreadCount = 1 ↔ m.LastThread) := by
  have hcounted := h.counted hm
  have htenant := tenant_of_hasSpace hcounted.1.1
  obtain ⟨hbit, p, hentry, hcount, -⟩ := hm.enrolled.kept.recorded _ hcounted _ htenant
  have hmem : m.current ∈ m.roll.activeOf (m.kernel.client.pid m.current) :=
    ⟨hcounted, _, htenant, rfl⟩
  refine ⟨p, (Table.get_eq _ _).trans ((if_pos hbit).trans hentry), ?_⟩
  have hactive : ∀ t, t ∈ m.roll.activeOf (m.kernel.client.pid m.current) ↔
      m.Live t ∧ m.kernel.client.pid t = m.kernel.client.pid m.current := by
    intro t
    constructor
    · rintro ⟨ht, a, ha, hpid⟩
      exact ⟨ht.1, (hasSpace_of_tenant ha).2.2.trans hpid⟩
    · rintro ⟨hlive, hpid⟩
      exact ⟨(h.counted_iff hm).mpr hlive, _, tenant_of_hasSpace hlive.1, hpid⟩
  rw [hcount, Nat.cast_eq_one, Set.ncard_eq_one]
  constructor
  · rintro ⟨a, ha⟩ t hlive hpid
    have hsame : ∀ u ∈ m.roll.activeOf (m.kernel.client.pid m.current), u = a := by
      intro u hu
      rwa [ha] at hu
    rw [hsame t ((hactive t).mpr ⟨hlive, hpid⟩), hsame _ hmem]
  · intro hlast
    refine ⟨m.current, Set.Subset.antisymm (fun t ht => ?_) (Set.singleton_subset_iff.mpr hmem)⟩
    obtain ⟨hlive, hpid⟩ := (hactive t).mp ht
    exact hlast t hlive hpid

/-- `Exit_Syscall` goes on when it has found its process. -/
theorem exitBody_ok {s : UserKernel}
    (hp : s.client.processTable.get (s.client.pid s.currentThread) = some p) :
    ∃ state rs, exitBody s = .ok (state, rs) := by
  simp only [exitBody, hp]
  split
  · split
    · exact ⟨_, _, rfl⟩
    · exact ⟨_, _, rfl⟩
  · split
    · exact ⟨_, _, rfl⟩
    · exact ⟨_, _, rfl⟩

theorem AtExit.step (h : m.AtExit) (hm : m.Booted) (env : Environment) :
    ∃ m', m.step env = .ok m' := by
  obtain ⟨p, hp, -⟩ := h.entry hm
  obtain ⟨state, rs, hexec⟩ := exitBody_ok (s := m.kernel.pop) hp
  have hkernel : m.kernel.step userClient ⟨env.interrupts, env.nextPending, noInput env⟩ =
      .ok ({ m.kernel.pop with client := state }.push (rs.map Request.frame)) := by
    unfold Kernel.step
    rw [show m.kernel.top = _ from h]
    simp only [Kernel.exec]
    rw [show userClient.exec (noInput env) .exitBody m.kernel.pop = _ from hexec]
  refine ⟨{ m.schedule (.client .exitBody) with
    kernel := { m.kernel.pop with client := state }.push (rs.map Request.frame) }, ?_⟩
  unfold System.step
  rw [show m.kernel.top = _ from h]
  show (m.schedule (.client .exitBody)).kernelStep env (noInput env) = _
  unfold kernelStep
  rw [schedule_kernel, hkernel]

/-- The thread behind `exitBody`. -/
theorem AtExit.behind (h : m.AtExit) (hm : m.Booted) (hstep : m.step env = .ok m') :
    m'.Departing m.current ∧
      (m.LastThread → claims (m'.kernel.stack m.current) =
        [.leaving (m.kernel.client.pid m.current)]) ∧
      (¬ m.LastThread → claims (m'.kernel.stack m.current) = []) := by
  have hs := hm.reachable.orderly
  obtain ⟨w, input, frame, rest, gs, hat⟩ := step_at hs.wellFormed hstep
  obtain rfl : frame = .client .exitBody := Option.some.inj (hat.kernel.top.symm.trans h)
  have hclaims := hm.enrolled.claims_after hm.reachable.housed hat
  obtain ⟨q, hq, hcount⟩ := h.entry hm
  unfold Departing Leaving
  rw [current, hat.kernel.stack_self]
  rw [current, hat.kernel.stack_self] at hclaims
  rw [hclaims]
  rcases stepAt_cases hat.kernel with ⟨k, rs, hk, hexec, rfl⟩ | ⟨habs, -⟩
  · obtain rfl := Frame.client.inj hk
    have hprocess : ProcessEffect m.kernel.pop .exitBody m'.kernel.client rs :=
      exitBody_effect hexec hs.sane.process_size
    generalize m'.kernel.client = state at hprocess
    cases hprocess with
    | other habs _ => simp [UserFrame.isProcess] at habs
    | constructs habs => simp at habs
    | lastExits p hp hlast =>
        obtain rfl : q = p := Option.some.inj (hq.symm.trans hp)
        exact ⟨Or.inr rfl, fun _ => rfl, fun hnot => absurd (hcount.mp hlast) hnot⟩
    | exits p hp hlast =>
        obtain rfl : q = p := Option.some.inj (hq.symm.trans hp)
        exact ⟨Or.inr rfl, fun hthread => absurd (hcount.mpr hthread) hlast, fun _ => rfl⟩
  · exact absurd rfl (habs _)

/-- An exit never halts the machine. -/
theorem AtExit.goesOn (h : m.AtExit) (hm : m.Booted) (hstep : m.step env = .ok m') :
    ¬ m'.ComesToHalt m.current := by
  rintro ⟨n, hrun, hcurrent, htop⟩
  have hm' : m'.Booted := hm.run (Reach.refl.tail trivial hstep)
  have hn := Run.departing hrun hm' (h.behind hm hstep).1
  rw [← hcurrent] at hn
  exact hn.not_halt (hm'.run hrun).reachable.orderly htop

/-- An exit that is not to halt the machine does what it is to do. -/
theorem AtExit.exits (h : m.AtExit) (hm : m.Booted) (hnot : ¬ (m.LastThread ∧ m.LastProcess))
    (hstep : m.step env = .ok m') : m.Exits m' := by
  have hm' : m'.Booted := hm.run (Reach.refl.tail trivial hstep)
  obtain ⟨hdeparting, hlast, hother⟩ := h.behind hm hstep
  constructor
  case halts => exact iff_of_false (h.goesOn hm hstep) hnot
  case departs => exact fun _ n hrun => Run.departing hrun hm' hdeparting
  case keeps => exact fun hthread n => hdeparting.not_removes hm' (hother hthread)
  case removes => exact fun hthread _ n hrun hfin => hdeparting.removes hm' (hlast hthread) hrun hfin

/-- `Exit_Syscall` does what it is to do, whatever has happened before, unless the thread is the only
live thread of the only process in the process table: then it does not halt the machine. -/
theorem exitsAsMeant_iff {pid : ThreadId → Int} {guard : System → Environment → Prop}
    (hrun : Run guard (boot pid) m) (hmain : pid 0 = 0) (h : m.AtExit) :
    m.ExitsAsMeant ↔ ¬ (m.LastThread ∧ m.LastProcess) := by
  have hm : m.Booted := ⟨pid, hmain, hrun.mono fun _ _ _ => trivial⟩
  constructor
  · intro hmeant hlast
    obtain ⟨m', hstep, hexits⟩ := hmeant (undisturbed (program [] 0))
    exact h.goesOn hm hstep (hexits.halts.mpr hlast)
  · intro hnot env
    obtain ⟨m', hstep⟩ := h.step hm env
    exact ⟨m', hstep, h.exits hm hnot hstep⟩

/-- A thread exits that has forked another one. -/
theorem exitsAsMeant_forked : ∃ m : System, m.AtExit ∧ m.kernel.threadCount = 2 ∧ m.ExitsAsMeant := by
  obtain ⟨m, hrun, hexit, hcount, hlive, hcurrent, hpid⟩ := exists_run
    (P := fun m => m.AtExit ∧ m.kernel.threadCount = 2 ∧ m.Live 1 ∧ m.current = 0 ∧
      m.kernel.client.pid 1 = m.kernel.client.pid m.current) (fun _ _ => true) (fun _ => 0)
    -- `addiu r2, r0, n` and `syscall`, twice
    (List.replicate 43 (undisturbed (program [0x24020009, 0xc, 0x24020001, 0xc] 0)))
    (by decide +kernel)
  refine ⟨m, hexit, hcount, (exitsAsMeant_iff hrun rfl hexit).mpr ?_⟩
  rintro ⟨hlast, -⟩
  exact absurd ((hlast 1 hlive hpid).trans hcurrent) (by decide)

/-- The first thread is alone, and its process is. -/
theorem AtExit.last (h : m.AtExit) (hm : m.Booted) (hcount : m.kernel.threadCount = 1)
    (hbits : ∀ j < m.kernel.client.processTable.size,
      m.kernel.client.processTable.bit j = true → (j : Int) = m.kernel.client.pid m.current) :
    m.LastThread ∧ m.LastProcess := by
  constructor
  · intro t hlive _
    have hlt : m.current < m.kernel.threadCount := hm.reachable.orderly.wellFormed.current_lt
    rcases hm.reachable.housed.born t hlive.1 with hborn | ⟨-, body, htop⟩
    · rw [hcount] at hborn hlt
      rw [Nat.lt_one_iff.mp hborn, Nat.lt_one_iff.mp hlt]
    · exact absurd (Option.some.inj (htop.symm.trans h)) (by simp)
  · intro i hi
    obtain ⟨hlow, hhigh⟩ := Table.bit_range hi
    obtain ⟨j, rfl⟩ := Int.eq_ofNat_of_zero_le hlow
    exact hbits j (Int.ofNat_lt.mp hhigh) hi

/-- The only thread of the only process exits, and the machine goes on. -/
theorem last_exit_goesOn : ∃ m : System, m.Reachable ∧ m.AtExit ∧ m.LastThread ∧ m.LastProcess ∧
    ¬ m.ExitsAsMeant := by
  obtain ⟨m, hrun, hexit, hcount, hbits⟩ := exists_run
    (P := fun m => m.AtExit ∧ m.kernel.threadCount = 1 ∧
      ∀ j < m.kernel.client.processTable.size, m.kernel.client.processTable.bit j = true →
        (j : Int) = m.kernel.client.pid m.current) (fun _ _ => true) (fun _ => 0)
    -- `addiu r2, r0, 1` and `syscall`
    (List.replicate 27 (undisturbed (program [0x24020001, 0xc] 0))) (by decide +kernel)
  have hm : m.Booted := ⟨fun _ => 0, rfl, hrun.mono fun _ _ _ => trivial⟩
  have hlast := hexit.last hm hcount hbits
  refine ⟨m, hm.reachable, hexit, hlast.1, hlast.2, fun hmeant => ?_⟩
  obtain ⟨m', hstep, hexits⟩ := hmeant (undisturbed (program [] 0))
  exact hexit.goesOn hm hstep (hexits.halts.mpr hlast)

end Exits

end System

end Userprog
end Nachos
