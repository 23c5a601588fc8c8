import Nachos.Userprog.ProcessAccounts

/-!
# The counters of the processes

`activeThreadCount` and `inactiveThreadCount` can be read when no thread is in `StartProcess`,
`Exec_Syscall`, `Fork_Syscall` or `Exit_Syscall`: then no slot of the process table is claimed, and
the active threads on the roll are those that have not finished.
-/

namespace Nachos
namespace Userprog

open Threads Lib

/-- The program points of the calls that make and end threads. -/
def UserFrame.manages : UserFrame → Bool
  | .execBody => true
  | .spacePut _ _ _ => true
  | .spaceDone _ _ => true
  | .processFind _ _ => true
  | .processStore _ _ _ => true
  | .execFork _ _ => true
  | .forkBody => true
  | .exitBody => true
  | .exitRemove _ => true
  | .removeBody _ => true
  | _ => false

def manages : Frame UserFrame → Bool
  | .client k => k.manages
  | .call (.threadFork _) => true
  | _ => false

theorem manages_of_claim {frame : Frame UserFrame} {c : Claim} (h : frameClaim frame = some c) :
    manages frame = true := by
  cases frame with
  | client k =>
      cases k with
      | processStore space i use => rfl
      | execFork space i => rfl
      | exitRemove i => rfl
      | removeBody i => rfl
      | _ => simp [frameClaim, UserFrame.claim] at h
  | _ => simp [frameClaim] at h

/-- `StartProcess` has given its thread an address space, or it is still to do so. -/
theorem UserFrame.boot_cases {k : UserFrame} (hk : k.isBoot = true) :
    k.isVacant = true ∨ k.manages = true := by
  cases k with
  | startProcess => exact Or.inl rfl
  | spacePut space more use => exact Or.inr rfl
  | spaceDone space use => exact Or.inr rfl
  | processFind space use => exact Or.inr rfl
  | processStore space i use => exact Or.inr rfl
  | _ => simp [isBoot] at hk

namespace System

/-- The thread is in `StartProcess`, which has to give it an address space, in `Exec_Syscall` or in
`Fork_Syscall`, or it is on its way from `Exit_Syscall` to `Finish`. -/
def InCall (m : System) (t : ThreadId) : Prop :=
  ¬ m.kernel.Finished t ∧ (m.hasSpace t = false ∨
    (∃ frame ∈ m.kernel.stack t, manages frame = true) ∨ Leaving (m.kernel.stack t))

instance (m : System) (t : ThreadId) : Decidable (m.InCall t) :=
  inferInstanceAs (Decidable (_ ∧ (_ ∨ _ ∨ _)))

/-- No such call is in progress. -/
def Settled (m : System) : Prop := ∀ t < m.kernel.threadCount, ¬ m.InCall t

instance (m : System) : Decidable m.Settled := inferInstanceAs (Decidable (∀ t < _, _))

/-- The unfinished threads with a `pid`. -/
def unfinished (m : System) (i : Int) : Finset ThreadId :=
  (Finset.range m.kernel.threadCount).filter fun t =>
    ¬ m.kernel.Finished t ∧ m.kernel.client.pid t = i

/-- The threads ever created in the process that has the address space. -/
def created (m : System) (space : SpaceId) : Finset ThreadId :=
  (Finset.range m.kernel.threadCount).filter fun t =>
    m.hasSpace t = true ∧ m.kernel.client.space t = space

/-- The entry of a process with an address space: what it counts. -/
structure Counts (m : System) (i : Int) (space : SpaceId) (p : Process) : Prop where
  entry : m.kernel.client.processTable.get i = some p
  unfinished : p.activeThreadCount = (m.unfinished i).card
  positive : 1 ≤ p.activeThreadCount
  members : ∀ t ∈ m.unfinished i, m.kernel.client.space t = space
  created : p.activeThreadCount + p.inactiveThreadCount = (m.created space).card

/-- The process table accounts for the threads. -/
structure Accounted (m : System) : Prop where
  counts : ∀ i, m.kernel.client.processTable.bit i = true → ∃ space p, m.Counts i space p
  occupied : ∀ t < m.kernel.threadCount, ¬ m.kernel.Finished t →
    m.kernel.client.processTable.bit (m.kernel.client.pid t) = true
  distinct : ∀ space, ∀ t ∈ m.created space, ∀ u ∈ m.created space, m.forked t = true →
    m.forked u = true → m.id t = m.id u → t = u

section Counts

variable {m m' w : System} {env : Environment} {input : Input} {frame : Frame UserFrame}
  {rest gs : List (Frame UserFrame)} {t : ThreadId}

/-- A thread that finishes is not at work on a slot. -/
theorem StepAt.idle (hat : StepAt m m' w env input frame rest gs) (hhoused : Housed m)
    (hs : Orderly m.kernel)
    (hidle : m.kernel.Finished t → claims (m.kernel.stack t) = [])
    (hfin : m'.kernel.Finished t) : claims (m'.kernel.stack t) = [] := by
  by_cases ht : t = m.current
  · subst ht
    by_cases hclient : ∃ k, frame = .client k
    · -- the thread computes, so it cannot have finished
      obtain ⟨k, rfl⟩ := hclient
      have hnot := hs.wellFormed.not_finished hat.kernel.top rfl
      rcases hat.kernel.life with ⟨_, -, -, hsame⟩ | ⟨habs, -⟩ | ⟨-, -, -, hsame⟩
      · exact absurd ((hsame _).mp hfin) hnot
      · simp at habs
      · exact absurd ((hsame _).mp hfin) hnot
    · have hsame : claims (m'.kernel.stack m.current) = claims rest := by
        rw [current, hat.kernel.stack_self, claims_append,
          claims_pushed hat.kernel.pushes fun k hk => hclient ⟨k, hk⟩]
        rfl
      have hbefore : claims (m.kernel.stack m.current) = claims rest := by
        rw [current, hat.kernel.stack, claims_cons_kernel fun k hk => hclient ⟨k, hk⟩]
      rw [hsame]
      by_cases hframe : frame = .call .threadFinish
      · subst hframe
        have hstage := hhoused.staged.stage m.current
        rw [hat.core_outer rfl] at hstage
        cases hstage with
        | leaving hbelow =>
            rcases hbelow with rfl | rfl
            · rfl
            · rfl
      · rw [← hbefore]
        refine hidle ?_
        rcases hat.kernel.life with ⟨_, -, -, hold⟩ | ⟨habs, -⟩ | ⟨-, -, -, hold⟩
        · exact (hold _).mp hfin
        · exact absurd habs hframe
        · exact (hold _).mp hfin
  · rw [hat.claims_other hhoused hs ht]
    exact hidle ((hat.finished_other ht).mp hfin)

theorem Run.idle {pid : ThreadId → Int} {guard : System → Environment → Prop}
    (hrun : Run guard (boot pid) m) : m.kernel.Finished t → claims (m.kernel.stack t) = [] := by
  suffices hall : (Housed m ∧ Begun m) ∧
      ∀ t, m.kernel.Finished t → claims (m.kernel.stack t) = [] from hall.2 t
  refine hrun.stepAt_invariant (P := fun u => (Housed u ∧ Begun u) ∧
    ∀ t, u.kernel.Finished t → claims (u.kernel.stack t) = []) (orderly_boot pid)
    ⟨⟨housed_boot pid, begun_boot pid⟩, fun t ht => ?_⟩ ?_
  · simp [Kernel.Finished, boot, userBoot, Kernel.boot] at ht
  · rintro u v w env input frame rest gs hu - - hat ⟨⟨hhoused, hbegun⟩, hidle⟩
    exact ⟨⟨hhoused.step hu hat, hbegun.step hhoused hu hat⟩,
      fun t => hat.idle hhoused hu (hidle t)⟩

end Counts

section Settled

variable {m : System} {t : ThreadId}

/-- In a settled state the threads of the processes have been born. -/
theorem Settled.born (h : m.Settled) (hhoused : Housed m) (hs : Orderly m.kernel)
    (ht : m.hasSpace t = true) : t < m.kernel.threadCount := by
  rcases hhoused.born t ht with hlt | ⟨-, body, htop⟩
  · exact hlt
  · refine absurd ?_ (h m.current hs.wellFormed.current_lt)
    refine ⟨hs.wellFormed.not_finished htop rfl, Or.inr (Or.inl ⟨.call (.threadFork body), ?_, rfl⟩)⟩
    exact List.mem_of_mem_head? htop

/-- In a settled state the unfinished threads are the active ones. -/
theorem Settled.counted_iff (h : m.Settled) (hhoused : Housed m) (hbegun : Begun m)
    (hs : Orderly m.kernel) :
    m.Counted t ↔ t < m.kernel.threadCount ∧ ¬ m.kernel.Finished t := by
  constructor
  · rintro ⟨⟨hhas, hfin, -⟩, -⟩
    exact ⟨h.born hhoused hs hhas, hfin⟩
  · rintro ⟨hlt, hfin⟩
    have hnot := h t hlt
    have hhas : m.hasSpace t = true := by
      by_contra hvacant
      exact hnot ⟨hfin, Or.inl (by simpa using hvacant)⟩
    refine ⟨⟨hhas, hfin, fun hleaving => hnot ⟨hfin, Or.inr (Or.inr hleaving)⟩⟩, ?_⟩
    intro k below hcore
    by_contra hboot
    have hmem : .client k ∈ m.kernel.stack t := by
      refine (List.dropWhile_sublist isInner).subset ?_
      rw [show (m.kernel.stack t).dropWhile isInner = _ from hcore]
      exact List.mem_cons_self
    rcases UserFrame.boot_cases (by simpa using hboot) with hvacant | hmanages
    · rw [hbegun.vacant t k below hcore hvacant] at hhas
      simp at hhas
    · exact hnot ⟨hfin, Or.inr (Or.inl ⟨_, hmem, hmanages⟩)⟩

/-- In a settled state no slot is claimed. -/
theorem Settled.claim (h : m.Settled) (hs : Orderly m.kernel)
    (hidle : m.kernel.Finished t → claims (m.kernel.stack t) = []) : m.roll.claim t = none := by
  show (claims (m.kernel.stack t)).head? = none
  by_contra hclaim
  obtain ⟨c, hc⟩ := Option.ne_none_iff_exists'.mp hclaim
  obtain ⟨frame, hmem, hframe⟩ := List.mem_filterMap.mp (List.mem_of_mem_head? hc)
  by_cases hfin : m.kernel.Finished t
  · rw [hidle hfin] at hc
    simp at hc
  · have hlt : t < m.kernel.threadCount := by
      by_contra hunborn
      rw [hs.wellFormed.unborn t (Nat.le_of_not_lt hunborn)] at hmem
      simp at hmem
    exact h t hlt ⟨hfin, Or.inr (Or.inl ⟨frame, hmem, manages_of_claim hframe⟩)⟩

theorem Settled.activeOf (h : m.Settled) (hhoused : Housed m) (hbegun : Begun m)
    (hs : Orderly m.kernel) (i : Int) : m.roll.activeOf i = m.unfinished i := by
  ext t
  unfold unfinished
  rw [Finset.coe_filter, Set.mem_ofPred_eq, Finset.mem_range]
  constructor
  · rintro ⟨hcounted, a, ha, rfl⟩
    obtain ⟨hlt, hfin⟩ := (h.counted_iff hhoused hbegun hs).mp hcounted
    exact ⟨hlt, hfin, (hasSpace_of_tenant ha).2.2⟩
  · rintro ⟨hlt, hfin, hpid⟩
    have hcounted := (h.counted_iff hhoused hbegun hs).mpr ⟨hlt, hfin⟩
    exact ⟨hcounted, _, tenant_of_hasSpace hcounted.1.1, hpid⟩

theorem Settled.made (h : m.Settled) (hhoused : Housed m) (hs : Orderly m.kernel)
    (space : SpaceId) : m.roll.made space = m.created space := by
  ext t
  unfold created
  rw [Finset.coe_filter, Set.mem_ofPred_eq, Finset.mem_range]
  constructor
  · rintro ⟨a, ha, rfl⟩
    obtain ⟨hhas, hspace, -⟩ := hasSpace_of_tenant ha
    exact ⟨h.born hhoused hs hhas, hhas, hspace⟩
  · rintro ⟨-, hhas, hspace⟩
    exact ⟨_, tenant_of_hasSpace hhas, hspace⟩

/-- The entry of the process of an unfinished thread. -/
theorem Enrolled.counts (henrolled : Enrolled m) (h : m.Settled) (hhoused : Housed m)
    (hbegun : Begun m) (hs : Orderly m.kernel) (ht : t < m.kernel.threadCount) (hfin : ¬ m.kernel.Finished t) :
    m.kernel.client.processTable.bit (m.kernel.client.pid t) = true ∧
      ∃ p, m.Counts (m.kernel.client.pid t) (m.kernel.client.space t) p := by
  have hactive : t ∈ m.roll.active := (h.counted_iff hhoused hbegun hs).mpr ⟨ht, hfin⟩
  have htenant := tenant_of_hasSpace hactive.1.1
  obtain ⟨hbit, p, hentry, hcount, hall⟩ := henrolled.kept.recorded t hactive _ htenant
  have hmem := Roll.mem_activeOf hactive htenant
  rw [h.activeOf hhoused hbegun hs] at hmem hcount
  rw [h.made hhoused hs] at hall
  refine ⟨hbit, p, ?_⟩
  constructor
  case entry => exact (Table.get_eq _ _).trans ((if_pos hbit).trans hentry)
  case unfinished => exact hcount.trans (congrArg Nat.cast (Set.ncard_coe_finset _))
  case positive =>
    have hpos := Finset.card_pos.mpr ⟨t, hmem⟩
    rw [hcount, Set.ncard_coe_finset]
    exact_mod_cast hpos
  case members =>
    intro u hu
    rw [← Finset.mem_coe, ← h.activeOf hhoused hbegun hs] at hu
    obtain ⟨hactive', a, ha, hpid⟩ := hu
    rw [(hasSpace_of_tenant ha).2.1]
    exact henrolled.kept.spaces u hactive' t hactive a _ ha htenant hpid
  case created => exact hall.trans (congrArg Nat.cast (Set.ncard_coe_finset _))

/-- The process table accounts for the threads in every settled state. -/
theorem processes_accounted {pid : ThreadId → Int} {guard : System → Environment → Prop}
    (hrun : Run guard (boot pid) m) (hmain : pid 0 = 0) (h : m.Settled) : m.Accounted := by
  have hreach : m.Reachable := ⟨pid, hrun.mono fun _ _ _ => trivial⟩
  have hhoused := hreach.housed
  have hbegun := hreach.begun
  have hs := hreach.orderly
  have henrolled := Run.enrolled hmain hrun
  constructor
  case counts =>
    intro i hbit
    rcases henrolled.kept.used i hbit with ⟨t, c, hclaim, -⟩ | ⟨t, ht⟩
    · exact absurd ((h.claim hs hrun.idle).symm.trans hclaim) (by simp)
    · rw [h.activeOf hhoused hbegun hs] at ht
      obtain ⟨hlt, hfin, rfl⟩ := Finset.mem_filter.mp ht
      exact ⟨_, (henrolled.counts h hhoused hbegun hs (Finset.mem_range.mp hlt) hfin).2⟩
  case occupied =>
    intro t hlt hfin
    exact (henrolled.counts h hhoused hbegun hs hlt hfin).1
  case distinct =>
    intro space t ht u hu hforked hforked' hid
    obtain ⟨-, hhas, hspace⟩ := Finset.mem_filter.mp ht
    obtain ⟨-, hhas', hspace'⟩ := Finset.mem_filter.mp hu
    refine henrolled.kept.distinct t u _ _ (m.id t) (tenant_of_hasSpace hhas)
      (tenant_of_hasSpace hhas') (hspace.trans hspace'.symm) (if_pos hforked) ?_
    rw [hid]
    exact if_pos hforked'

/-- A program has forked a thread. -/
theorem processes_accounted_fork :
    ∃ m : System, m.kernel.threadCount = 2 ∧ m.Settled ∧ m.Accounted := by
  obtain ⟨m, hrun, hcount, hsettled⟩ := exists_run
    (P := fun m => m.kernel.threadCount = 2 ∧ m.Settled) (fun _ _ => true) (fun _ => 0)
    (List.replicate 44 (undisturbed forkAndYield)) (by decide +kernel)
  exact ⟨m, hcount, hsettled, processes_accounted hrun rfl hsettled⟩

end Settled

end System

end Userprog
end Nachos
