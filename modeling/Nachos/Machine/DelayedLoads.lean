import Nachos.Machine.Confinement

/-!
# Loads on their way

A load arrives one instruction late: until then `LoadReg` names the register and
`LoadValueReg` has the value.  The registers are `Settled` when no load is on its
way.  An exception finishes the load before the kernel takes over, so the kernel
only ever sees settled registers; that `LoadReg` is the number of a register is
kept by everything the machine does.
-/

namespace Nachos

/-- The pending load is done and none is on its way. -/
structure Settled (registers : Registers) : Prop where
  loadReg : registers loadReg = 0
  loadValue : registers loadValueReg = 0
  zero : registers 0 = 0

theorem Settled.update {registers : Registers} (h : Settled registers) {r : Register}
    (hload : r ≠ Nachos.loadReg) (hvalue : r ≠ loadValueReg) (hzero : r ≠ 0) (value : Word) :
    Settled (Function.update registers r value) where
  loadReg := (Function.update_of_ne hload.symm _ _).trans h.loadReg
  loadValue := (Function.update_of_ne hvalue.symm _ _).trans h.loadValue
  zero := (Function.update_of_ne hzero.symm _ _).trans h.zero

theorem Settled.loadBounded {registers : Registers} (h : Settled registers) :
    (registers Nachos.loadReg).toNat < numTotalRegs := by
  rw [h.loadReg]
  decide

/-- The registers with the load on its way done.  A load of `r0` has no effect. -/
def withPending (registers : Registers) : Registers := fun r =>
  if r ≠ 0 ∧ (registers loadReg).toNat = r.val then registers loadValueReg else registers r

namespace Machine

open Lib

variable {m m' : Machine}

/-- The registers `DelayedLoad` leaves. -/
theorem delayedLoad_registers {nextReg nextValue : Word}
    (h : delayedLoad nextReg nextValue m = .ok () m') (r : Register) :
    m'.registers r = if r = 0 then 0 else if r = loadValueReg then nextValue
      else if r = loadReg then nextReg else withPending m.registers r := by
  unfold delayedLoad at h
  split at h
  · rename_i hlt
    simp only [EStateM.Result.ok.injEq, true_and] at h
    rw [← h]
    unfold withPending
    simp only [Function.update_apply, Fin.ext_iff]
    grind
  · cases h

/-- `LoadReg` is the number of a register. -/
def LoadBounded (m : Machine) : Prop := (m.registers loadReg).toNat < numTotalRegs

instance (m : Machine) : Decidable m.LoadBounded :=
  inferInstanceAs (Decidable (_ < _))

/-- `DelayedLoad` goes through when `LoadReg` is the number of a register, and
only then. -/
theorem delayedLoad_cases (nextReg nextValue : Word) (m : Machine) :
    (m.LoadBounded ∧ ∃ registers, registers loadReg = nextReg ∧
      delayedLoad nextReg nextValue m = .ok () { m with registers := registers }) ∨
    (¬ m.LoadBounded ∧ delayedLoad nextReg nextValue m = .error .undefined m) := by
  have hzero : loadReg ≠ 0 := by decide
  have hvalue : loadReg ≠ loadValueReg := by decide
  unfold delayedLoad
  split
  · rename_i h
    refine Or.inl ⟨h, _, ?_, rfl⟩
    rw [Function.update_of_ne hzero, Function.update_of_ne hvalue, Function.update_self]
  · rename_i h
    exact Or.inr ⟨h, rfl⟩

/-- Finishing a load leaves the registers settled; if none is on its way it
changes nothing. -/
theorem delayedLoad_settled (h : delayedLoad 0 0 m = .ok () m') :
    Settled m'.registers ∧
      (Settled m.registers → m'.registers = m.registers) ∧
      m' = { m with registers := m'.registers } := by
  unfold delayedLoad at h
  split at h
  · simp only [EStateM.Result.ok.injEq, true_and] at h
    subst h
    refine ⟨⟨?_, ?_, ?_⟩, ?_, rfl⟩
    · simp [loadReg, loadValueReg]
    · simp [loadValueReg]
    · simp
    · intro hsettled
      funext r
      have h0 := hsettled.loadReg
      have h1 := hsettled.loadValue
      have h2 := hsettled.zero
      by_cases hr0 : r = 0
      · subst hr0
        simp [h2]
      · by_cases hr1 : r = loadValueReg
        · refine (congrArg _ hr1).trans (Eq.trans ?_ (h1.symm.trans (congrArg _ hr1.symm)))
          simp [loadValueReg]
        · by_cases hr2 : r = loadReg
          · refine (congrArg _ hr2).trans (Eq.trans ?_ (h0.symm.trans (congrArg _ hr2.symm)))
            simp [loadReg, loadValueReg]
          · simp [hr0, hr1, hr2, h0]
  · exact absurd h (by simp)

/-- An exception leaves settled registers. -/
theorem settled_rule :
    Rule fun _ trap m' => ∀ which, trap = some (.exception which) → Settled m'.registers where
  refl := fun _ _ h => absurd h (by simp)
  trans := fun _ _ _ _ _ h => h
  writes := fun _ _ _ _ _ h => absurd h (by simp [writeRegister])
  notes := fun _ _ _ h => absurd h (by simp [note])
  loads := by
    intro nextReg nextValue m which h
    rcases delayedLoad_cases (BitVec.ofNat 32 nextReg.val) nextValue m with
      ⟨-, _, -, hload⟩ | ⟨-, hload⟩
    · simp [hload] at h
    · simp [hload] at h
  raises := by
    intro A which badVAddr m which' h
    obtain ⟨noted, -, ⟨m', hload, hraise⟩ | ⟨-, hraise⟩⟩ :=
      raiseException_cases (A := A) which badVAddr m
    · rw [hraise]
      exact (delayedLoad_settled hload).1
    · simp [hraise] at h
  fails := by
    intro A trap htrap m which h
    exact absurd (Option.some.inj h) (htrap which)
  accesses := fun _ _ _ _ h => absurd h (by simp)

/-- `LoadReg` stays the number of a register. -/
theorem loadBounded_rule : Rule fun m _ m' => m.LoadBounded → m'.LoadBounded where
  refl := fun _ h => h
  trans := fun _ _ _ _ h h' hm => h' (h hm)
  writes := by
    intro num value hnum m h
    have hsame : Function.update m.registers num value loadReg = m.registers loadReg :=
      Function.update_of_ne hnum.symm _ _
    exact (congrArg (fun w : Word => w.toNat < numTotalRegs) hsame).mpr h
  notes := fun _ _ h => h
  loads := by
    intro nextReg nextValue m h
    rcases delayedLoad_cases (BitVec.ofNat 32 nextReg.val) nextValue m with
      ⟨-, registers, hreg, hload⟩ | ⟨hbad, -⟩
    · rw [hload]
      have hlt := nextReg.isLt
      change (registers loadReg).toNat < numTotalRegs
      rw [hreg, BitVec.toNat_ofNat]
      omega
    · exact absurd h hbad
  raises := by
    intro A which badVAddr m h
    obtain ⟨noted, hnoted, ⟨m', hload, hraise⟩ | ⟨-, hraise⟩⟩ :=
      raiseException_cases (A := A) which badVAddr m
    · rw [hraise]
      exact (delayedLoad_settled hload).1.loadBounded
    · rw [hraise, hnoted]
      exact h
  fails := fun _ _ _ h => h
  accesses := by
    intro m m' haccess h
    unfold LoadBounded
    rw [haccess.registers]
    exact h

/-- `LoadReg` names a general register, as the number of a register field does. -/
def LoadsGeneral (m : Machine) : Prop := (m.registers loadReg).toNat < 32

instance (m : Machine) : Decidable m.LoadsGeneral :=
  inferInstanceAs (Decidable (_ < _))

theorem LoadsGeneral.loadBounded (h : m.LoadsGeneral) : m.LoadBounded :=
  Nat.lt_trans h (by decide)

theorem registerField_lt (value : Word) (shift : Nat) : (registerField value shift).val < 32 := by
  have hbound : ((value >>> shift) &&& 0x1f).toNat ≤ 0x1f := by
    rw [BitVec.toNat_and]
    exact Nat.and_le_right
  exact Nat.lt_succ_of_le hbound

/-- What an instruction loads, if anything, it loads into `rt`. -/
def LoadsInto (rt : Register) (next : Next) : Prop := next.nextLoadReg = 0 ∨ next.nextLoadReg = rt

theorem execute_loadsInto (instr : Instruction) (pcAfter : Word) :
    Yields (LoadsInto instr.rt) (execute instr pcAfter) := by
  obtain ⟨opCode, rs, rt, rd, extra⟩ := instr
  have hnone {value : Word} : Yields (LoadsInto rt) (pure ⟨value, 0, 0⟩ : Code Next) :=
    Yields.pure (Or.inl rfl)
  have hassign {num : Register} {value : Word} : Yields (LoadsInto rt) (assign num value pcAfter) :=
    Yields.bind fun _ => hnone
  have hbranch {taken : Prop} [Decidable taken] :
      Yields (LoadsInto rt) (branch taken extra pcAfter) := by
    unfold branch
    split
    · exact Yields.bind fun _ => Yields.bind fun _ => hnone
    · exact hnone
  have hdeliver {value : Word} : Yields (LoadsInto rt) (deliver rt value pcAfter) :=
    Yields.pure (Or.inr rfl)
  have hraise {which : ExceptionType} {badVAddr : Word} :
      Yields (LoadsInto rt) (raiseException which badVAddr : Code Next) :=
    Yields.bind fun _ => Yields.bind fun _ => Yields.throw _
  refine Yields.bind fun a => Yields.bind fun b => ?_
  cases opCode
  all_goals dsimp only
  all_goals repeat' with_reducible first
    | exact hnone
    | exact hassign
    | exact hbranch
    | exact hdeliver
    | exact hraise
    | exact Yields.pure (Or.inl rfl)
    | exact Yields.throw _
    | refine Yields.bind fun _ => ?_
    | split

theorem fetchExecute_loads : Yields (fun next => next.nextLoadReg.val < 32) fetchExecute := by
  refine Yields.bind fun _ => Yields.bind fun raw => Yields.bind fun _ => Yields.bind fun pcAfter => ?_
  intro m next m' hreturn
  rcases execute_loadsInto (decode raw) pcAfter m next m' hreturn with hnone | hrt
  · rw [hnone]
    decide
  · rw [hrt]
    exact registerField_lt raw 16

/-- What `advance` leaves, when `LoadReg` is the number of a register. -/
theorem advance_cases (next : Next) (m : Machine) :
    (m.LoadBounded ∧ ∃ loaded, delayedLoad (BitVec.ofNat 32 next.nextLoadReg.val)
        next.nextLoadValue m = .ok () loaded ∧
      advance next m = .ok () { loaded with
        registers := Function.update (Function.update (Function.update loaded.registers prevPCReg
          (loaded.registers pcReg)) pcReg (loaded.registers nextPCReg)) nextPCReg
          next.pcAfter }) ∨
    (¬ m.LoadBounded ∧ advance next m = .error .undefined m) := by
  rcases delayedLoad_cases (BitVec.ofNat 32 next.nextLoadReg.val) next.nextLoadValue m with
    ⟨hbound, registers, -, hload⟩ | ⟨hbound, hload⟩
  · refine Or.inl ⟨hbound, _, hload, ?_⟩
    simp only [advance, bind_apply, hload]
    rfl
  · refine Or.inr ⟨hbound, ?_⟩
    simp only [advance, bind_apply, hload]

end Machine

end Nachos
