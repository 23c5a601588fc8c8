import Mathlib.Data.Set.Card
import Nachos.Userprog.Tables

/-!
# The roll of the processes

Which threads belong to which process, and what the process table says about it.  A slot of the
table is free, or a system call is at work on it, or it is that of a process with active threads.

A process is told by its address space.  A thread is on the roll from when it is given one; it is
active until its `Exit_Syscall` has counted it out, but not while `StartProcess` is at work.
-/

namespace Nachos
namespace Userprog

open Threads

/-- A thread that has an address space, with the number that `Fork_Syscall` gave it. -/
structure Tenant where
  space : SpaceId
  pid : Int
  number : Option Int
  deriving DecidableEq, Repr

/-- A slot that a call is at work on: it has been found, or its process has been entered and waits
for its first thread, or the last thread of its process exits. -/
inductive Claim
  | found (i : Int)
  | entered (i : Int)
  | leaving (i : Int)
  deriving DecidableEq, Repr

def Claim.slot : Claim → Int
  | .found i | .entered i | .leaving i => i

/-- The process table, the threads, and the slots that calls are at work on. -/
@[ext]
structure Roll where
  bit : Int → Bool
  entry : Int → Option Process
  tenant : ThreadId → Option Tenant
  active : Set ThreadId
  claim : ThreadId → Option Claim

namespace Roll

/-- The threads that a process has ever had. -/
def made (r : Roll) (space : SpaceId) : Set ThreadId :=
  {t | ∃ a, r.tenant t = some a ∧ a.space = space}

/-- The active threads with a `pid`. -/
def activeOf (r : Roll) (i : Int) : Set ThreadId :=
  {t | t ∈ r.active ∧ ∃ a, r.tenant t = some a ∧ a.pid = i}

/-- No thread has the address space. -/
def Fresh (r : Roll) (space : SpaceId) : Prop := ∀ t a, r.tenant t = some a → a.space ≠ space

section Changes

variable (r : Roll) (t n : ThreadId) (a : Tenant) (i : Int) (p : Process)

/-- `StartProcess` gives its thread the address space. -/
def settle : Roll := { r with tenant := Function.update r.tenant t (some a) }

/-- `processTable->Put` finds a slot. -/
def find : Roll :=
  { r with
    bit := Function.update r.bit i true
    claim := Function.update r.claim t (some (.found i)) }

/-- `processTable->Put` ends, in `Exec_Syscall`. -/
def enter : Roll :=
  { r with
    entry := Function.update r.entry i (some ⟨i, 1, 0⟩)
    claim := Function.update r.claim t (some (.entered i)) }

/-- `processTable->Put` ends, in `StartProcess`. -/
def boot : Roll :=
  { r with
    entry := Function.update r.entry a.pid (some ⟨a.pid, 1, 0⟩)
    active := insert t r.active
    claim := Function.update r.claim t none }

/-- `Exec_Syscall` makes the first thread of its process. -/
def welcome : Roll :=
  { r with
    tenant := Function.update r.tenant n (some a)
    active := insert n r.active
    claim := Function.update r.claim t none }

/-- `Fork_Syscall`, in the process `p`. -/
def fork : Roll :=
  { r with
    entry := Function.update r.entry a.pid
      (some { p with activeThreadCount := p.activeThreadCount + 1 })
    tenant := Function.update r.tenant n
      (some ⟨a.space, a.pid, some (p.inactiveThreadCount + (p.activeThreadCount + 1))⟩)
    active := insert n r.active }

/-- `Exit_Syscall`, of the last thread. -/
def retire : Roll :=
  { r with
    active := r.active \ {t}
    claim := Function.update r.claim t (some (.leaving a.pid)) }

/-- `Exit_Syscall`, of another thread. -/
def countOut : Roll :=
  { r with
    entry := Function.update r.entry a.pid
      (some { p with
        activeThreadCount := p.activeThreadCount - 1
        inactiveThreadCount := p.inactiveThreadCount + 1 })
    active := r.active \ {t} }

/-- `processTable->Remove`. -/
def remove : Roll :=
  { r with
    bit := Function.update r.bit i false
    entry := Function.update r.entry i none
    claim := Function.update r.claim t none }

end Changes

/-- What the system calls do to the roll. -/
inductive Step (r : Roll) : Roll → Prop
  | same : Step r r
  | settles (t : ThreadId) (a : Tenant) (hnew : r.tenant t = none) (hspace : r.Fresh a.space)
      (hnumber : a.number = none) : Step r (r.settle t a)
  | finds (t : ThreadId) (i : Int) (hfree : r.bit i = false) (hclaim : r.claim t = none) :
      Step r (r.find t i)
  | enters (t : ThreadId) (i : Int) (hclaim : r.claim t = some (.found i)) : Step r (r.enter t i)
  | boots (t : ThreadId) (a : Tenant) (hclaim : r.claim t = some (.found a.pid))
      (ha : r.tenant t = some a) (halone : ∀ u b, r.tenant u = some b → u = t) :
      Step r (r.boot t a)
  | welcomes (t n : ThreadId) (a : Tenant) (hclaim : r.claim t = some (.entered a.pid))
      (hnew : r.tenant n = none) (hspace : r.Fresh a.space) (hnumber : a.number = none) :
      Step r (r.welcome t n a)
  | forks (t n : ThreadId) (a : Tenant) (p : Process) (ht : t ∈ r.active)
      (ha : r.tenant t = some a) (hp : r.entry a.pid = some p) (hnew : r.tenant n = none) :
      Step r (r.fork n a p)
  | retires (t : ThreadId) (a : Tenant) (p : Process) (ht : t ∈ r.active)
      (ha : r.tenant t = some a) (hp : r.entry a.pid = some p) (hlast : p.activeThreadCount = 1)
      (hclaim : r.claim t = none) : Step r (r.retire t a)
  | countsOut (t : ThreadId) (a : Tenant) (p : Process) (ht : t ∈ r.active)
      (ha : r.tenant t = some a) (hp : r.entry a.pid = some p)
      (hlast : p.activeThreadCount ≠ 1) : Step r (r.countOut t a p)
  | removes (t : ThreadId) (i : Int) (hclaim : r.claim t = some (.leaving i)) :
      Step r (r.remove t i)

/-- The entry of the process that an active thread belongs to. -/
structure Recorded (r : Roll) (a : Tenant) : Prop where
  bit : r.bit a.pid = true
  entry : ∃ p, r.entry a.pid = some p ∧ p.activeThreadCount = (r.activeOf a.pid).ncard ∧
    p.activeThreadCount + p.inactiveThreadCount = (r.made a.space).ncard

/-- What holds of the threads that have an address space. -/
structure Numbered (r : Roll) : Prop where
  finite : {t | r.tenant t ≠ none}.Finite
  pids : ∀ t u a b, r.tenant t = some a → r.tenant u = some b → a.space = b.space → a.pid = b.pid
  numbers : ∀ t a k, r.tenant t = some a → a.number = some k → k ≤ (r.made a.space).ncard
  distinct : ∀ t u a b k, r.tenant t = some a → r.tenant u = some b → a.space = b.space →
    a.number = some k → b.number = some k → t = u

/-- What the system calls keep. -/
structure Kept (r : Roll) : Prop extends Numbered r where
  housed : ∀ t ∈ r.active, ∃ a, r.tenant t = some a
  exclusive : ∀ t u c d, r.claim t = some c → r.claim u = some d → c.slot = d.slot → t = u
  claimed : ∀ t c, r.claim t = some c → r.bit c.slot = true ∧ r.activeOf c.slot = ∅
  entered : ∀ t i, r.claim t = some (.entered i) → r.entry i = some ⟨i, 1, 0⟩
  recorded : ∀ t ∈ r.active, ∀ a, r.tenant t = some a → r.Recorded a
  used : ∀ i, r.bit i = true → (∃ t c, r.claim t = some c ∧ c.slot = i) ∨ (r.activeOf i).Nonempty
  spaces : ∀ t ∈ r.active, ∀ u ∈ r.active, ∀ a b, r.tenant t = some a → r.tenant u = some b →
    a.pid = b.pid → a.space = b.space

section Members

variable {r r' : Roll} {t n u : ThreadId} {a b : Tenant} {c : Claim} {i : Int} {space : SpaceId}

theorem Numbered.finite_activeOf (h : r.Numbered) (i : Int) : (r.activeOf i).Finite := by
  refine h.finite.subset ?_
  rintro t ⟨-, a, ha, -⟩
  simp [ha]

theorem Numbered.finite_made (h : r.Numbered) (space : SpaceId) : (r.made space).Finite := by
  refine h.finite.subset ?_
  rintro t ⟨a, ha, -⟩
  simp [ha]

theorem mem_activeOf (ht : t ∈ r.active) (ha : r.tenant t = some a) : t ∈ r.activeOf a.pid :=
  ⟨ht, a, ha, rfl⟩

theorem notMem_made (hnew : r.tenant n = none) : n ∉ r.made space := by
  rintro ⟨a, ha, -⟩
  exact absurd (hnew.symm.trans ha) (by simp)

/-- A thread that has an address space had it before, or has just been given it. -/
theorem tenant_cases (htenant : r'.tenant = Function.update r.tenant n (some a))
    (hb : r'.tenant u = some b) : u = n ∧ b = a ∨ u ≠ n ∧ r.tenant u = some b := by
  rw [htenant] at hb
  by_cases hu : u = n
  · subst hu
    rw [Function.update_self] at hb
    exact Or.inl ⟨rfl, (Option.some.inj hb).symm⟩
  · rw [Function.update_of_ne hu] at hb
    exact Or.inr ⟨hu, hb⟩

/-- The threads of the processes when a thread is given an address space. -/
theorem made_enter (hnew : r.tenant n = none)
    (htenant : r'.tenant = Function.update r.tenant n (some a)) :
    r'.made a.space = insert n (r.made a.space) ∧
      ∀ space, a.space ≠ space → r'.made space = r.made space := by
  have hother : ∀ u, u ≠ n → ∀ space, u ∈ r'.made space ↔ u ∈ r.made space := by
    intro u hu space
    unfold made
    rw [htenant, Set.mem_ofPred_eq, Function.update_of_ne hu, Set.mem_ofPred_eq]
  have hself : ∀ space, n ∈ r'.made space ↔ a.space = space := by
    intro space
    unfold made
    rw [htenant, Set.mem_ofPred_eq, Function.update_self]
    simp
  constructor
  · ext u
    by_cases hu : u = n
    · subst hu
      simp [hself]
    · simp [hother u hu, hu]
  · intro space hne
    ext u
    by_cases hu : u = n
    · subst hu
      exact iff_of_false (fun hmem => hne ((hself space).mp hmem)) (notMem_made hnew)
    · exact hother u hu space

/-- The active threads when one comes in. -/
theorem activeOf_enter (hn : n ∉ r.active) (ha : r'.tenant n = some a)
    (htenant : ∀ u, u ≠ n → r'.tenant u = r.tenant u) (hactive : r'.active = insert n r.active) :
    r'.activeOf a.pid = insert n (r.activeOf a.pid) ∧
      ∀ i, a.pid ≠ i → r'.activeOf i = r.activeOf i := by
  have hother : ∀ u, u ≠ n → ∀ i, u ∈ r'.activeOf i ↔ u ∈ r.activeOf i := by
    intro u hu i
    unfold activeOf
    rw [Set.mem_ofPred_eq, hactive, htenant u hu, Set.mem_ofPred_eq, Set.mem_insert_iff,
      or_iff_right hu]
  have hself : ∀ i, n ∈ r'.activeOf i ↔ a.pid = i := by
    intro i
    unfold activeOf
    rw [Set.mem_ofPred_eq, hactive, ha]
    simp
  constructor
  · ext u
    by_cases hu : u = n
    · subst hu
      simp [hself]
    · simp [hother u hu, hu]
  · intro i hne
    ext u
    by_cases hu : u = n
    · subst hu
      exact iff_of_false (fun hmem => hne ((hself i).mp hmem)) fun hmem => hn hmem.1
    · exact hother u hu i

/-- The active threads when one exits. -/
theorem activeOf_leave (ha : r.tenant t = some a) (htenant : r'.tenant = r.tenant)
    (hactive : r'.active = r.active \ {t}) :
    r'.activeOf a.pid = r.activeOf a.pid \ {t} ∧
      ∀ i, a.pid ≠ i → r'.activeOf i = r.activeOf i := by
  have hall : ∀ i, r'.activeOf i = r.activeOf i \ {t} := by
    intro i
    unfold activeOf
    rw [htenant, hactive]
    ext u
    simp only [Set.mem_ofPred_eq, Set.mem_sdiff, Set.mem_singleton_iff]
    tauto
  refine ⟨hall _, fun i hne => ?_⟩
  rw [hall i, Set.sdiff_singleton_eq_self]
  rintro ⟨-, b, hb, rfl⟩
  exact hne (congrArg Tenant.pid (Option.some.inj (ha.symm.trans hb)))

/-- A thread is given an address space: a new one, or with a higher number. -/
theorem Numbered.enter (h : r.Numbered) (hnew : r.tenant n = none)
    (htenant : r'.tenant = Function.update r.tenant n (some a))
    (hpid : ∀ u b, r.tenant u = some b → b.space = a.space → b.pid = a.pid)
    (hnumber : ∀ k, a.number = some k → k ≤ (r.made a.space).ncard + 1 ∧
      ∀ u b k', r.tenant u = some b → b.space = a.space → b.number = some k' → k' < k) :
    r'.Numbered := by
  obtain ⟨hself, hother⟩ := made_enter hnew htenant
  have hcard : (r'.made a.space).ncard = (r.made a.space).ncard + 1 := by
    rw [hself, Set.ncard_insert_of_notMem (notMem_made hnew) (h.finite_made _)]
  constructor
  case finite =>
    refine (h.finite.insert n).subset ?_
    intro u hu
    obtain ⟨b, hb⟩ := Option.ne_none_iff_exists'.mp hu
    rcases tenant_cases htenant hb with ⟨rfl, -⟩ | ⟨-, hb'⟩
    · exact Or.inl rfl
    · exact Or.inr (by simp [hb'])
  case pids =>
    intro u v b c hb hc heq
    rcases tenant_cases htenant hb with ⟨-, rfl⟩ | ⟨-, hb'⟩
    · rcases tenant_cases htenant hc with ⟨-, rfl⟩ | ⟨-, hc'⟩
      · rfl
      · exact (hpid v c hc' heq.symm).symm
    · rcases tenant_cases htenant hc with ⟨-, rfl⟩ | ⟨-, hc'⟩
      · exact hpid u b hb' heq
      · exact h.pids u v b c hb' hc' heq
  case numbers =>
    intro u b k hb hk
    rcases tenant_cases htenant hb with ⟨-, rfl⟩ | ⟨-, hb'⟩
    · rw [hcard]
      exact_mod_cast (hnumber k hk).1
    · have hle := h.numbers u b k hb' hk
      by_cases hspace : a.space = b.space
      · rw [← hspace, hcard]
        rw [← hspace] at hle
        omega
      · rw [hother _ hspace]
        exact hle
  case distinct =>
    intro u v b c k hb hc heq hk hk'
    rcases tenant_cases htenant hb with ⟨rfl, rfl⟩ | ⟨-, hb'⟩
    · rcases tenant_cases htenant hc with ⟨rfl, -⟩ | ⟨-, hc'⟩
      · rfl
      · exact absurd ((hnumber k hk).2 v c k hc' heq.symm hk') (lt_irrefl k)
    · rcases tenant_cases htenant hc with ⟨rfl, rfl⟩ | ⟨-, hc'⟩
      · exact absurd ((hnumber k hk').2 u b k hb' heq hk) (lt_irrefl k)
      · exact h.distinct u v b c k hb' hc' heq hk hk'

/-- A new address space. -/
theorem Numbered.enter_fresh (h : r.Numbered) (hnew : r.tenant n = none)
    (htenant : r'.tenant = Function.update r.tenant n (some a)) (hspace : r.Fresh a.space)
    (hnumber : a.number = none) : r'.Numbered := by
  refine h.enter hnew htenant (fun u b hb heq => absurd heq (hspace u b hb)) ?_
  intro k hk
  exact absurd (hnumber.symm.trans hk) (by simp)

/-- Nothing has changed about the process of a thread. -/
theorem Recorded.keep (h : r.Recorded a) (hbit : r'.bit a.pid = r.bit a.pid)
    (hentry : r'.entry a.pid = r.entry a.pid) (hactive : r'.activeOf a.pid = r.activeOf a.pid)
    (hmade : r'.made a.space = r.made a.space) : r'.Recorded a := by
  obtain ⟨p, hp, hcount, hall⟩ := h.entry
  refine ⟨hbit.trans h.bit, p, hentry.trans hp, ?_, ?_⟩
  · rw [hactive]
    exact hcount
  · rw [hmade]
    exact hall

/-- No call is at work on the slot of an active thread. -/
theorem Kept.pid_ne (h : r.Kept) (hclaim : r.claim u = some c) (ht : t ∈ r.active)
    (ha : r.tenant t = some a) : a.pid ≠ c.slot := by
  intro heq
  have hmem := mem_activeOf ht ha
  rw [heq, (h.claimed u c hclaim).2] at hmem
  exact hmem

end Members

section Steps

variable {r r' : Roll} {t n : ThreadId} {a : Tenant} {p : Process} {i : Int}

theorem Kept.settle (h : r.Kept) (hnew : r.tenant t = none) (hspace : r.Fresh a.space)
    (hnumber : a.number = none) : (r.settle t a).Kept := by
  obtain ⟨-, hother⟩ : (r.settle t a).made a.space = _ ∧ _ := made_enter hnew rfl
  have hactive : ∀ u ∈ r.active, (r.settle t a).tenant u = r.tenant u := by
    intro u hu
    obtain ⟨b, hb⟩ := h.housed u hu
    refine Function.update_of_ne ?_ _ _
    rintro rfl
    exact absurd (hnew.symm.trans hb) (by simp)
  have hsame : ∀ i, (r.settle t a).activeOf i = r.activeOf i := by
    intro i
    ext u
    refine and_congr_right fun hu => ?_
    rw [hactive u hu]
  constructor
  case toNumbered => exact h.enter_fresh hnew rfl hspace hnumber
  case housed =>
    intro u hu
    rw [hactive u hu]
    exact h.housed u hu
  case exclusive => exact h.exclusive
  case claimed =>
    intro u c hc
    rw [hsame]
    exact h.claimed u c hc
  case entered => exact h.entered
  case recorded =>
    intro u hu b hb
    rw [hactive u hu] at hb
    exact (h.recorded u hu b hb).keep rfl rfl (hsame _) (hother _ (hspace u b hb).symm)
  case used =>
    intro i hi
    rw [hsame]
    exact h.used i hi
  case spaces =>
    intro u hu v hv b c hb hc
    rw [hactive u hu] at hb
    rw [hactive v hv] at hc
    exact h.spaces u hu v hv b c hb hc

theorem Kept.find (h : r.Kept) (hfree : r.bit i = false) (hclaim : r.claim t = none) :
    (r.find t i).Kept := by
  have hbit : ∀ j, r.bit j = true → j ≠ i := by
    rintro j hj rfl
    exact absurd (hfree.symm.trans hj) (by simp)
  have hkept : ∀ j, r.bit j = true → (r.find t i).bit j = true := fun j hj =>
    (Function.update_of_ne (hbit j hj) _ _).trans hj
  have hself : (r.find t i).claim t = some (.found i) := Function.update_self _ _ _
  have hclaims : ∀ u c, (r.find t i).claim u = some c →
      u = t ∧ c = .found i ∨ r.claim u = some c := by
    intro u c hc
    by_cases hu : u = t
    · subst hu
      exact Or.inl ⟨rfl, (Option.some.inj (hself.symm.trans hc)).symm⟩
    · exact Or.inr ((Function.update_of_ne hu _ _).symm.trans hc)
  constructor
  case toNumbered => exact ⟨h.finite, h.pids, h.numbers, h.distinct⟩
  case housed => exact h.housed
  case exclusive =>
    intro u v c d hc hd heq
    rcases hclaims u c hc with ⟨rfl, rfl⟩ | hc'
    · rcases hclaims v d hd with ⟨rfl, -⟩ | hd'
      · rfl
      · exact absurd heq.symm (hbit _ (h.claimed v d hd').1)
    · rcases hclaims v d hd with ⟨rfl, rfl⟩ | hd'
      · exact absurd heq (hbit _ (h.claimed u c hc').1)
      · exact h.exclusive u v c d hc' hd' heq
  case claimed =>
    intro u c hc
    rcases hclaims u c hc with ⟨rfl, rfl⟩ | hc'
    · refine ⟨Function.update_self _ _ _, Set.eq_empty_iff_forall_notMem.mpr ?_⟩
      rintro v ⟨hv, b, hb, hpid⟩
      exact hbit _ (h.recorded v hv b hb).bit hpid
    · exact ⟨hkept _ (h.claimed u c hc').1, (h.claimed u c hc').2⟩
  case entered =>
    intro u j hc
    rcases hclaims u _ hc with ⟨-, habs⟩ | hc'
    · simp at habs
    · exact h.entered u j hc'
  case recorded =>
    intro u hu b hb
    have hrecorded := h.recorded u hu b hb
    exact hrecorded.keep ((hkept _ hrecorded.bit).trans hrecorded.bit.symm) rfl rfl rfl
  case used =>
    intro j hj
    by_cases heq : j = i
    · exact Or.inl ⟨t, .found i, hself, heq.symm⟩
    · rcases h.used j ((Function.update_of_ne heq _ _).symm.trans hj) with ⟨u, c, hc, hslot⟩ | hsome
      · refine Or.inl ⟨u, c, (Function.update_of_ne ?_ _ _).trans hc, hslot⟩
        rintro rfl
        exact absurd (hclaim.symm.trans hc) (by simp)
      · exact Or.inr hsome
  case spaces => exact h.spaces

theorem Kept.enter (h : r.Kept) (hclaim : r.claim t = some (.found i)) : (r.enter t i).Kept := by
  have hself : (r.enter t i).claim t = some (.entered i) := Function.update_self _ _ _
  have hclaims : ∀ u c, (r.enter t i).claim u = some c → ∃ c', r.claim u = some c' ∧
      c'.slot = c.slot ∧ (u ≠ t → c' = c) := by
    intro u c hc
    by_cases hu : u = t
    · subst hu
      obtain rfl := Option.some.inj (hself.symm.trans hc)
      exact ⟨.found i, hclaim, rfl, fun hne => absurd rfl hne⟩
    · exact ⟨c, (Function.update_of_ne hu _ _).symm.trans hc, rfl, fun _ => rfl⟩
  constructor
  case toNumbered => exact ⟨h.finite, h.pids, h.numbers, h.distinct⟩
  case housed => exact h.housed
  case exclusive =>
    intro u v c d hc hd heq
    obtain ⟨c', hc', hslot, -⟩ := hclaims u c hc
    obtain ⟨d', hd', hslot', -⟩ := hclaims v d hd
    exact h.exclusive u v c' d' hc' hd' (by rw [hslot, hslot', heq])
  case claimed =>
    intro u c hc
    obtain ⟨c', hc', hslot, -⟩ := hclaims u c hc
    rw [← hslot]
    exact h.claimed u c' hc'
  case entered =>
    intro u j hc
    by_cases hu : u = t
    · subst hu
      obtain rfl : i = j := by simpa using hself.symm.trans hc
      exact Function.update_self _ _ _
    · obtain ⟨c', hc', -, hsame⟩ := hclaims u _ hc
      obtain rfl := hsame hu
      have hne : j ≠ i := by
        rintro rfl
        exact hu (h.exclusive u t _ _ hc' hclaim rfl)
      exact (Function.update_of_ne hne _ _).trans (h.entered u j hc')
  case recorded =>
    intro u hu b hb
    exact (h.recorded u hu b hb).keep rfl
      (Function.update_of_ne (h.pid_ne hclaim hu hb) _ _) rfl rfl
  case used =>
    intro j hj
    rcases h.used j hj with ⟨u, c, hc, hslot⟩ | hsome
    · by_cases hu : u = t
      · subst hu
        obtain rfl := Option.some.inj (hclaim.symm.trans hc)
        exact Or.inl ⟨u, .entered i, hself, hslot⟩
      · exact Or.inl ⟨u, c, (Function.update_of_ne hu _ _).trans hc, hslot⟩
    · exact Or.inr hsome
  case spaces => exact h.spaces

/-- What is left of the claims when a call has done its work. -/
theorem claim_drop (hr : r'.claim = Function.update r.claim t none) {u : ThreadId} {c : Claim} :
    r'.claim u = some c ↔ u ≠ t ∧ r.claim u = some c := by
  rw [hr]
  by_cases hu : u = t
  · subst hu
    simp
  · rw [Function.update_of_ne hu]
    exact ⟨fun hc => ⟨hu, hc⟩, And.right⟩

theorem Kept.boot (h : r.Kept) (hclaim : r.claim t = some (.found a.pid))
    (ha : r.tenant t = some a) (halone : ∀ u b, r.tenant u = some b → u = t) :
    (r.boot t a).Kept := by
  have hnone := (h.claimed t _ hclaim).2
  have hidle : t ∉ r.active := fun ht => h.pid_ne hclaim ht ha rfl
  have hdrop : ∀ {u c}, (r.boot t a).claim u = some c ↔ u ≠ t ∧ r.claim u = some c :=
    claim_drop rfl
  obtain ⟨hself, hother⟩ : (r.boot t a).activeOf a.pid = _ ∧ _ :=
    activeOf_enter hidle ha (fun _ _ => rfl) rfl
  have hmade : (r.boot t a).made a.space = {t} := by
    ext u
    constructor
    · rintro ⟨b, hb, -⟩
      exact halone u b hb
    · rintro rfl
      exact ⟨a, ha, rfl⟩
  have hmember : ∀ u ∈ (r.boot t a).active, u = t := by
    rintro u (rfl | hu)
    · rfl
    · obtain ⟨b, hb⟩ := h.housed u hu
      exact halone u b hb
  constructor
  case toNumbered => exact ⟨h.finite, h.pids, h.numbers, h.distinct⟩
  case housed =>
    intro u hu
    rw [hmember u hu]
    exact ⟨a, ha⟩
  case exclusive =>
    intro u v c d hc hd
    exact h.exclusive u v c d (hdrop.mp hc).2 (hdrop.mp hd).2
  case claimed =>
    intro u c hc
    obtain ⟨hu, hc'⟩ := hdrop.mp hc
    rw [hother]
    · exact h.claimed u c hc'
    · intro heq
      exact hu (h.exclusive u t c _ hc' hclaim heq.symm)
  case entered =>
    intro u j hc
    obtain ⟨hu, hc'⟩ := hdrop.mp hc
    have hne : j ≠ a.pid := by
      rintro rfl
      exact hu (h.exclusive u t _ _ hc' hclaim rfl)
    exact (Function.update_of_ne hne _ _).trans (h.entered u j hc')
  case recorded =>
    intro u hu b hb
    obtain rfl := hmember u hu
    obtain rfl : a = b := Option.some.inj (ha.symm.trans hb)
    refine ⟨(h.claimed u _ hclaim).1, _, Function.update_self _ _ _, ?_, ?_⟩
    · rw [hself, show r.activeOf a.pid = ∅ from hnone]
      simp
    · rw [hmade]
      simp
  case used =>
    intro j hj
    by_cases heq : a.pid = j
    · refine Or.inr ⟨t, ?_⟩
      rw [← heq, hself]
      exact Set.mem_insert t _
    · rw [hother j heq]
      rcases h.used j hj with ⟨u, c, hc, hslot⟩ | hsome
      · refine Or.inl ⟨u, c, hdrop.mpr ⟨?_, hc⟩, hslot⟩
        rintro rfl
        obtain rfl := Option.some.inj (hclaim.symm.trans hc)
        exact heq hslot
      · exact Or.inr hsome
  case spaces =>
    intro u hu v hv b c hb hc
    obtain rfl := hmember u hu
    obtain rfl := hmember v hv
    obtain rfl := Option.some.inj (hb.symm.trans hc)
    exact fun _ => rfl

theorem Kept.welcome (h : r.Kept) (hclaim : r.claim t = some (.entered a.pid))
    (hnew : r.tenant n = none) (hspace : r.Fresh a.space) (hnumber : a.number = none) :
    (r.welcome t n a).Kept := by
  have hnone := (h.claimed t _ hclaim).2
  have hidle : n ∉ r.active := by
    intro hn
    obtain ⟨b, hb⟩ := h.housed n hn
    exact absurd (hnew.symm.trans hb) (by simp)
  have hdrop : ∀ {u c}, (r.welcome t n a).claim u = some c ↔ u ≠ t ∧ r.claim u = some c :=
    claim_drop rfl
  have hself : (r.welcome t n a).tenant n = some a := Function.update_self _ _ _
  have hkept : ∀ u, u ≠ n → (r.welcome t n a).tenant u = r.tenant u := fun u hu =>
    Function.update_of_ne hu _ _
  obtain ⟨hactive, hother⟩ : (r.welcome t n a).activeOf a.pid = _ ∧ _ :=
    activeOf_enter hidle hself hkept rfl
  obtain ⟨hmade, hmade'⟩ : (r.welcome t n a).made a.space = _ ∧ _ := made_enter hnew rfl
  have hnobody : r.made a.space = ∅ := by
    refine Set.eq_empty_iff_forall_notMem.mpr ?_
    rintro u ⟨b, hb, heq⟩
    exact hspace u b hb heq
  have hmember : ∀ u ∈ (r.welcome t n a).active, ∀ b, (r.welcome t n a).tenant u = some b →
      u = n ∧ b = a ∨ u ∈ r.active ∧ r.tenant u = some b := by
    intro u hu b hb
    rcases tenant_cases rfl hb with hnewcomer | ⟨hne, hb'⟩
    · exact Or.inl hnewcomer
    · exact Or.inr ⟨hu.resolve_left hne, hb'⟩
  constructor
  case toNumbered => exact h.enter_fresh hnew rfl hspace hnumber
  case housed =>
    rintro u (rfl | hu)
    · exact ⟨a, hself⟩
    · obtain ⟨b, hb⟩ := h.housed u hu
      refine ⟨b, (hkept u ?_).trans hb⟩
      rintro rfl
      exact hidle hu
  case exclusive =>
    intro u v c d hc hd
    exact h.exclusive u v c d (hdrop.mp hc).2 (hdrop.mp hd).2
  case claimed =>
    intro u c hc
    obtain ⟨hu, hc'⟩ := hdrop.mp hc
    rw [hother]
    · exact h.claimed u c hc'
    · intro heq
      exact hu (h.exclusive u t c _ hc' hclaim heq.symm)
  case entered => exact fun u j hc => h.entered u j (hdrop.mp hc).2
  case recorded =>
    intro u hu b hb
    rcases hmember u hu b hb with ⟨rfl, rfl⟩ | ⟨hu', hb'⟩
    · refine ⟨(h.claimed t _ hclaim).1, _, h.entered t _ hclaim, ?_, ?_⟩
      · rw [hactive, show r.activeOf b.pid = ∅ from hnone]
        simp
      · rw [hmade, hnobody]
        simp
    · exact (h.recorded u hu' b hb').keep rfl rfl (hother _ (h.pid_ne hclaim hu' hb').symm)
        (hmade' _ (hspace u b hb').symm)
  case used =>
    intro j hj
    by_cases heq : a.pid = j
    · refine Or.inr ⟨n, ?_⟩
      rw [← heq, hactive]
      exact Set.mem_insert n _
    · rw [hother j heq]
      rcases h.used j hj with ⟨u, c, hc, hslot⟩ | hsome
      · refine Or.inl ⟨u, c, hdrop.mpr ⟨?_, hc⟩, hslot⟩
        rintro rfl
        obtain rfl := Option.some.inj (hclaim.symm.trans hc)
        exact heq hslot
      · exact Or.inr hsome
  case spaces =>
    intro u hu v hv b c hb hc heq
    rcases hmember u hu b hb with ⟨rfl, rfl⟩ | ⟨hu', hb'⟩
    · rcases hmember v hv c hc with ⟨-, rfl⟩ | ⟨hv', hc'⟩
      · rfl
      · exact absurd heq.symm (h.pid_ne hclaim hv' hc')
    · rcases hmember v hv c hc with ⟨rfl, rfl⟩ | ⟨hv', hc'⟩
      · exact absurd heq (h.pid_ne hclaim hu' hb')
      · exact h.spaces u hu' v hv' b c hb' hc' heq

theorem Kept.fork (h : r.Kept) (ht : t ∈ r.active) (ha : r.tenant t = some a)
    (hp : r.entry a.pid = some p) (hnew : r.tenant n = none) : (r.fork n a p).Kept := by
  obtain ⟨hbit, p', hp', hcount, hall⟩ := h.recorded t ht a ha
  obtain rfl : p = p' := Option.some.inj (hp.symm.trans hp')
  have hidle : n ∉ r.active := by
    intro hn
    obtain ⟨b, hb⟩ := h.housed n hn
    exact absurd (hnew.symm.trans hb) (by simp)
  -- the new thread
  generalize hnewcomer : (⟨a.space, a.pid,
    some (p.inactiveThreadCount + (p.activeThreadCount + 1))⟩ : Tenant) = d
  have hdspace : d.space = a.space := by rw [← hnewcomer]
  have hdpid : d.pid = a.pid := by rw [← hnewcomer]
  have hdnumber : d.number = some (((r.made a.space).ncard : Int) + 1) := by
    rw [← hnewcomer, ← hall]
    exact congrArg some (by omega)
  have htenant : (r.fork n a p).tenant = Function.update r.tenant n (some d) := by
    rw [← hnewcomer]
    rfl
  have hself : (r.fork n a p).tenant n = some d := by rw [htenant, Function.update_self]
  have hkept : ∀ u, u ≠ n → (r.fork n a p).tenant u = r.tenant u := fun u hu => by
    rw [htenant, Function.update_of_ne hu]
  obtain ⟨hactive, hother⟩ : (r.fork n a p).activeOf d.pid = _ ∧ _ :=
    activeOf_enter hidle hself hkept rfl
  obtain ⟨hmade, hmade'⟩ := made_enter hnew htenant
  rw [hdpid] at hactive hother
  rw [hdspace] at hmade hmade'
  have hcount' : ((r.fork n a p).activeOf a.pid).ncard = (r.activeOf a.pid).ncard + 1 := by
    rw [hactive, Set.ncard_insert_of_notMem (fun hmem => hidle hmem.1) (h.finite_activeOf _)]
  have hall' : ((r.fork n a p).made a.space).ncard = (r.made a.space).ncard + 1 := by
    rw [hmade, Set.ncard_insert_of_notMem (notMem_made hnew) (h.finite_made _)]
  have hrecorded : ∀ b, b.pid = a.pid → b.space = a.space → (r.fork n a p).Recorded b := by
    intro b hpid hspace
    refine ⟨hpid ▸ hbit, { p with activeThreadCount := p.activeThreadCount + 1 }, ?_, ?_, ?_⟩
    · rw [hpid]
      exact Function.update_self _ _ _
    · rw [hpid, hcount']
      push_cast
      rw [← hcount]
    · rw [hspace, hall']
      push_cast
      rw [← hall]
      exact Int.add_right_comm _ _ _
  have hmember : ∀ u ∈ (r.fork n a p).active, ∀ b, (r.fork n a p).tenant u = some b →
      u = n ∧ b = d ∨ u ∈ r.active ∧ r.tenant u = some b := by
    intro u hu b hb
    rcases tenant_cases htenant hb with hnewcomer | ⟨hne, hb'⟩
    · exact Or.inl hnewcomer
    · exact Or.inr ⟨hu.resolve_left hne, hb'⟩
  constructor
  case toNumbered =>
    refine h.toNumbered.enter hnew htenant ?_ ?_
    · intro u b hb heq
      rw [hdpid]
      exact h.pids u t b a hb ha (heq.trans hdspace)
    · intro k hk
      obtain rfl := Option.some.inj (hdnumber.symm.trans hk)
      rw [hdspace]
      refine ⟨le_refl _, fun u b k' hb heq hk' => ?_⟩
      have hle := h.numbers u b k' hb hk'
      rw [heq] at hle
      omega
  case housed =>
    rintro u (rfl | hu)
    · exact ⟨d, hself⟩
    · obtain ⟨b, hb⟩ := h.housed u hu
      refine ⟨b, (hkept u ?_).trans hb⟩
      rintro rfl
      exact hidle hu
  case exclusive => exact h.exclusive
  case claimed =>
    intro u c hc
    rw [hother _ (h.pid_ne hc ht ha)]
    exact h.claimed u c hc
  case entered =>
    intro u j hc
    exact (Function.update_of_ne (h.pid_ne hc ht ha).symm _ _).trans (h.entered u j hc)
  case recorded =>
    intro u hu b hb
    rcases hmember u hu b hb with ⟨rfl, rfl⟩ | ⟨hu', hb'⟩
    · exact hrecorded _ hdpid hdspace
    · by_cases heq : b.pid = a.pid
      · exact hrecorded b heq (h.spaces u hu' t ht b a hb' ha heq)
      · refine (h.recorded u hu' b hb').keep rfl (Function.update_of_ne heq _ _)
          (hother _ (Ne.symm heq)) (hmade' _ fun hspace => heq ?_)
        exact (h.pids t u a b ha hb' hspace).symm
  case used =>
    intro j hj
    rcases h.used j hj with hclaim | ⟨u, hu⟩
    · exact Or.inl hclaim
    · refine Or.inr ⟨u, ?_⟩
      by_cases heq : a.pid = j
      · subst heq
        rw [hactive]
        exact Set.mem_insert_of_mem n hu
      · rw [hother j heq]
        exact hu
  case spaces =>
    intro u hu v hv b c hb hc heq
    rcases hmember u hu b hb with ⟨-, rfl⟩ | ⟨hu', hb'⟩
    · rcases hmember v hv c hc with ⟨-, rfl⟩ | ⟨hv', hc'⟩
      · rfl
      · exact hdspace.trans (h.spaces t ht v hv' a c ha hc' (hdpid.symm.trans heq))
    · rcases hmember v hv c hc with ⟨-, rfl⟩ | ⟨hv', hc'⟩
      · exact (h.spaces u hu' t ht b a hb' ha (heq.trans hdpid)).trans hdspace.symm
      · exact h.spaces u hu' v hv' b c hb' hc' heq

theorem Kept.retire (h : r.Kept) (ht : t ∈ r.active) (ha : r.tenant t = some a)
    (hp : r.entry a.pid = some p) (hlast : p.activeThreadCount = 1) (hclaim : r.claim t = none) :
    (r.retire t a).Kept := by
  obtain ⟨hbit, p', hp', hcount, -⟩ := h.recorded t ht a ha
  obtain rfl : p = p' := Option.some.inj (hp.symm.trans hp')
  obtain ⟨hactive, hother⟩ : (r.retire t a).activeOf a.pid = _ ∧ _ := activeOf_leave ha rfl rfl
  have honly : ∀ u ∈ r.activeOf a.pid, u = t := by
    have hone : (r.activeOf a.pid).ncard = 1 := by
      have hcast : ((r.activeOf a.pid).ncard : Int) = 1 := hcount.symm.trans hlast
      exact_mod_cast hcast
    obtain ⟨v, hv⟩ := Set.ncard_eq_one.mp hone
    intro u hu
    have htv : t ∈ ({v} : Set ThreadId) := hv ▸ mem_activeOf ht ha
    have huv : u ∈ ({v} : Set ThreadId) := hv ▸ hu
    exact huv.trans htv.symm
  have hself : (r.retire t a).claim t = some (.leaving a.pid) := Function.update_self _ _ _
  have hclaims : ∀ u c, (r.retire t a).claim u = some c →
      u = t ∧ c = .leaving a.pid ∨ r.claim u = some c := by
    intro u c hc
    by_cases hu : u = t
    · subst hu
      exact Or.inl ⟨rfl, (Option.some.inj (hself.symm.trans hc)).symm⟩
    · exact Or.inr ((Function.update_of_ne hu _ _).symm.trans hc)
  constructor
  case toNumbered => exact ⟨h.finite, h.pids, h.numbers, h.distinct⟩
  case housed => exact fun u hu => h.housed u hu.1
  case exclusive =>
    intro u v c d hc hd heq
    rcases hclaims u c hc with ⟨rfl, rfl⟩ | hc'
    · rcases hclaims v d hd with ⟨rfl, -⟩ | hd'
      · rfl
      · exact absurd heq (h.pid_ne hd' ht ha)
    · rcases hclaims v d hd with ⟨rfl, rfl⟩ | hd'
      · exact absurd heq.symm (h.pid_ne hc' ht ha)
      · exact h.exclusive u v c d hc' hd' heq
  case claimed =>
    intro u c hc
    rcases hclaims u c hc with ⟨rfl, rfl⟩ | hc'
    · refine ⟨hbit, Set.eq_empty_iff_forall_notMem.mpr fun v hv => ?_⟩
      have hv' : v ∈ r.activeOf a.pid \ {u} := hactive ▸ hv
      exact hv'.2 (honly v hv'.1)
    · rw [hother _ (h.pid_ne hc' ht ha)]
      exact h.claimed u c hc'
  case entered =>
    intro u j hc
    rcases hclaims u _ hc with ⟨-, habs⟩ | hc'
    · simp at habs
    · exact h.entered u j hc'
  case recorded =>
    rintro u ⟨hu, hne⟩ b hb
    refine (h.recorded u hu b hb).keep rfl rfl (hother _ fun heq => hne ?_) rfl
    exact honly u (heq ▸ mem_activeOf hu hb)
  case used =>
    intro j hj
    by_cases heq : a.pid = j
    · exact Or.inl ⟨t, _, hself, heq⟩
    · rw [hother j heq]
      rcases h.used j hj with ⟨u, c, hc, hslot⟩ | hsome
      · refine Or.inl ⟨u, c, (Function.update_of_ne ?_ _ _).trans hc, hslot⟩
        rintro rfl
        exact absurd (hclaim.symm.trans hc) (by simp)
      · exact Or.inr hsome
  case spaces => exact fun u hu v hv => h.spaces u hu.1 v hv.1

theorem Kept.countOut (h : r.Kept) (ht : t ∈ r.active) (ha : r.tenant t = some a)
    (hp : r.entry a.pid = some p) (hlast : p.activeThreadCount ≠ 1) :
    (r.countOut t a p).Kept := by
  obtain ⟨hbit, p', hp', hcount, hall⟩ := h.recorded t ht a ha
  obtain rfl : p = p' := Option.some.inj (hp.symm.trans hp')
  obtain ⟨hactive, hother⟩ : (r.countOut t a p).activeOf a.pid = _ ∧ _ :=
    activeOf_leave ha rfl rfl
  have hcount' : ((r.countOut t a p).activeOf a.pid).ncard + 1 = (r.activeOf a.pid).ncard := by
    rw [hactive]
    exact Set.ncard_sdiff_singleton_add_one (mem_activeOf ht ha) (h.finite_activeOf _)
  constructor
  case toNumbered => exact ⟨h.finite, h.pids, h.numbers, h.distinct⟩
  case housed => exact fun u hu => h.housed u hu.1
  case exclusive => exact h.exclusive
  case claimed =>
    intro u c hc
    rw [hother _ (h.pid_ne hc ht ha)]
    exact h.claimed u c hc
  case entered =>
    intro u j hc
    exact (Function.update_of_ne (h.pid_ne hc ht ha).symm _ _).trans (h.entered u j hc)
  case recorded =>
    rintro u ⟨hu, hne⟩ b hb
    by_cases heq : b.pid = a.pid
    · have hspace := h.spaces u hu t ht b a hb ha heq
      refine ⟨heq ▸ hbit, _, (congrArg _ heq).trans (Function.update_self _ _ _), ?_, ?_⟩
      · rw [heq]
        show p.activeThreadCount - 1 = _
        omega
      · rw [hspace]
        show p.activeThreadCount - 1 + (p.inactiveThreadCount + 1) = _
        have hsame : (r.countOut t a p).made a.space = r.made a.space := rfl
        rw [hsame, ← hall]
        omega
    · exact (h.recorded u hu b hb).keep rfl (Function.update_of_ne heq _ _)
        (hother _ (Ne.symm heq)) rfl
  case used =>
    intro j hj
    by_cases heq : a.pid = j
    · subst heq
      refine Or.inr (Set.nonempty_of_ncard_ne_zero ?_)
      have hpos : 0 < (r.activeOf a.pid).ncard :=
        (Set.ncard_pos (h.finite_activeOf _)).mpr ⟨t, mem_activeOf ht ha⟩
      omega
    · rw [hother j heq]
      exact h.used j hj
  case spaces => exact fun u hu v hv => h.spaces u hu.1 v hv.1

theorem Kept.remove (h : r.Kept) (hclaim : r.claim t = some (.leaving i)) :
    (r.remove t i).Kept := by
  have hdrop : ∀ {u c}, (r.remove t i).claim u = some c ↔ u ≠ t ∧ r.claim u = some c :=
    claim_drop rfl
  have hslot : ∀ u c, u ≠ t → r.claim u = some c → c.slot ≠ i := fun u c hu hc heq =>
    hu (h.exclusive u t c _ hc hclaim heq)
  constructor
  case toNumbered => exact ⟨h.finite, h.pids, h.numbers, h.distinct⟩
  case housed => exact h.housed
  case exclusive =>
    intro u v c d hc hd
    exact h.exclusive u v c d (hdrop.mp hc).2 (hdrop.mp hd).2
  case claimed =>
    intro u c hc
    obtain ⟨hu, hc'⟩ := hdrop.mp hc
    obtain ⟨hbit, hnone⟩ := h.claimed u c hc'
    exact ⟨(Function.update_of_ne (hslot u c hu hc') _ _).trans hbit, hnone⟩
  case entered =>
    intro u j hc
    obtain ⟨hu, hc'⟩ := hdrop.mp hc
    exact (Function.update_of_ne (hslot u _ hu hc') _ _).trans (h.entered u j hc')
  case recorded =>
    intro u hu b hb
    have hne := h.pid_ne hclaim hu hb
    exact (h.recorded u hu b hb).keep (Function.update_of_ne hne _ _)
      (Function.update_of_ne hne _ _) rfl rfl
  case used =>
    intro j hj
    have hne : j ≠ i := by
      rintro rfl
      have hfalse : (r.remove t j).bit j = false := Function.update_self _ _ _
      exact absurd (hfalse.symm.trans hj) (by simp)
    rcases h.used j ((Function.update_of_ne hne _ _).symm.trans hj) with ⟨u, c, hc, rfl⟩ | hsome
    · refine Or.inl ⟨u, c, hdrop.mpr ⟨?_, hc⟩, rfl⟩
      rintro rfl
      obtain rfl := Option.some.inj (hclaim.symm.trans hc)
      exact hne rfl
    · exact Or.inr hsome
  case spaces => exact h.spaces

/-- Every step of the system calls keeps it. -/
theorem Kept.step (h : r.Kept) (hstep : r.Step r') : r'.Kept := by
  cases hstep with
  | same => exact h
  | settles t a hnew hspace hnumber => exact h.settle hnew hspace hnumber
  | finds t i hfree hclaim => exact h.find hfree hclaim
  | enters t i hclaim => exact h.enter hclaim
  | boots t a hclaim ha halone => exact h.boot hclaim ha halone
  | welcomes t n a hclaim hnew hspace hnumber => exact h.welcome hclaim hnew hspace hnumber
  | forks t n a p ht ha hp hnew => exact h.fork ht ha hp hnew
  | retires t a p ht ha hp hlast hclaim => exact h.retire ht ha hp hlast hclaim
  | countsOut t a p ht ha hp hlast => exact h.countOut ht ha hp hlast
  | removes t i hclaim => exact h.remove hclaim

end Steps

end Roll

end Userprog
end Nachos
