import Nachos.Lib.Atomicity
import Nachos.Machine.DelayedLoads
import Nachos.Machine.UserMemory

/-!
# Precise exceptions

`OneInstruction` writes registers and memory behind its last possible exception
only.  So when the kernel is entered, the instruction has done nothing yet: memory
and registers are as they were, apart from the load that was on its way.
-/

namespace Nachos
namespace Machine

open Lib

/-- The exits by which the kernel is entered. -/
def isException : Trap → Prop := fun trap => ∃ which, trap = .exception which

/-- Registers and memory. -/
def programView (m : Machine) : Registers × Memory := (m.registers, m.mainMemory)

/-- What the kernel finds when an exception ends an instruction: memory is as it was,
and so is every register but for the load that was on its way, and `BadVAddrReg`. -/
def Precise (before : Registers × Memory) (m : Machine) : Prop :=
  m.mainMemory = before.2 ∧
    ∀ r, r ≠ loadReg → r ≠ loadValueReg → r ≠ badVAddrReg →
      m.registers r = if r = 0 then 0 else withPending before.1 r

/-- Code with exceptions that are precise. -/
abbrev PreciseCode {A : Type} (x : Code A) : Prop :=
  AtomicExits isException programView Precise x

/-- Code that changes neither registers nor memory when it returns. -/
abbrev LooksOnly {A : Type} (x : Code A) : Prop := Unseen programView x

/-- Code without exceptions. -/
abbrev RaisesNothing {A : Type} (x : Code A) : Prop := NeverRaises isException x

variable {A B : Type}

theorem precise_raiseException (which : ExceptionType) (badVAddr : Word) :
    PreciseCode (raiseException which badVAddr : Code A) := by
  intro m trap m' hexit _
  obtain ⟨noted, hnoted, ⟨m₁, hload, hraise⟩ | ⟨-, hraise⟩⟩ :=
    raiseException_cases (A := A) which badVAddr m
  · rw [hraise] at hexit
    cases hexit
    have hmemory : m'.mainMemory = m.mainMemory := by
      rw [(delayedLoad_settled hload).2.2, hnoted]
    refine ⟨hmemory, fun r hload' hvalue hbad => ?_⟩
    have hother {q : Register} (hq : q ≠ badVAddrReg) : noted.registers q = m.registers q := by
      rw [hnoted]
      exact Function.update_of_ne hq _ _
    rw [delayedLoad_registers hload, if_neg hvalue, if_neg hload']
    unfold withPending
    rw [hother hbad, hother (show loadReg ≠ badVAddrReg by decide),
      hother (show loadValueReg ≠ badVAddrReg by decide)]
    rfl
  · rw [hraise] at hexit
    cases hexit
    rename_i hraised
    obtain ⟨which', hwhich⟩ := hraised
    cases hwhich

section Primitives

theorem raisesNothing_read (num : Register) : RaisesNothing (readRegister num) := by
  intro m trap m' hexit
  cases hexit

theorem raisesNothing_write (num : Register) (value : Word) :
    RaisesNothing (writeRegister num value) := by
  intro m trap m' hexit
  cases hexit

theorem raisesNothing_note (overflow : Bool) : RaisesNothing (note overflow) := by
  intro m trap m' hexit
  cases hexit

/-- The program stops for good: no kernel is entered. -/
theorem raisesNothing_throw {trap : Trap} (h : ∀ which, trap ≠ .exception which) :
    RaisesNothing (throw trap : Code A) := by
  intro m trap' m' hexit
  cases hexit
  rintro ⟨which, hwhich⟩
  exact h which hwhich

theorem raisesNothing_delayedLoad (nextReg nextValue : Word) :
    RaisesNothing (delayedLoad nextReg nextValue) := by
  intro m trap m' hexit
  unfold delayedLoad at hexit
  split at hexit
  · cases hexit
  · cases hexit
    rintro ⟨which, hwhich⟩
    cases hwhich

theorem looksOnly_read (num : Register) : LooksOnly (readRegister num) := by
  intro m a m' hreturn
  cases hreturn
  rfl

theorem looksOnly_note (overflow : Bool) : LooksOnly (note overflow) := by
  intro m a m' hreturn
  cases hreturn
  rfl

theorem raisesNothing_intAdd (a b : Word) : RaisesNothing (intAdd a b) :=
  (raisesNothing_note _).bind fun _ => NeverRaises.pure _

theorem looksOnly_intAdd (a b : Word) : LooksOnly (intAdd a b) :=
  (looksOnly_note _).bind fun _ => Unseen.pure _

theorem raisesNothing_intSub (a b : Word) : RaisesNothing (intSub a b) :=
  (raisesNothing_note _).bind fun _ => NeverRaises.pure _

theorem looksOnly_intSub (a b : Word) : LooksOnly (intSub a b) :=
  (looksOnly_note _).bind fun _ => Unseen.pure _

theorem raisesNothing_intDiv (a b : Word) : RaisesNothing (intDiv a b) := by
  unfold intDiv
  split
  · exact NeverRaises.pure _
  · split
    · exact raisesNothing_throw fun _ => by simp
    · exact NeverRaises.pure _

theorem raisesNothing_negateIf (negate : Bool) (a : Word) :
    RaisesNothing (negateIf negate a) := by
  unfold negateIf
  split
  · exact (raisesNothing_note _).bind fun _ => NeverRaises.pure _
  · exact NeverRaises.pure _

theorem raisesNothing_mult (a b : Word) (signedArith : Bool) :
    RaisesNothing (mult a b signedArith) := by
  unfold mult
  split
  · exact NeverRaises.pure _
  · exact (raisesNothing_negateIf _ _).bind fun _ =>
      (raisesNothing_negateIf _ _).bind fun _ => NeverRaises.pure _

theorem raisesNothing_assign (num : Register) (value pcAfter : Word) :
    RaisesNothing (assign num value pcAfter) :=
  (raisesNothing_write _ _).bind fun _ => NeverRaises.pure _

theorem raisesNothing_branch (taken : Prop) [Decidable taken] (extra pcAfter : Word) :
    RaisesNothing (branch taken extra pcAfter) := by
  unfold branch
  split
  · exact (raisesNothing_read _).bind fun _ =>
      (raisesNothing_intAdd _ _).bind fun _ => NeverRaises.pure _
  · exact NeverRaises.pure _

theorem raisesNothing_link (num : Register) : RaisesNothing (link num) :=
  (raisesNothing_read _).bind fun _ =>
    (raisesNothing_intAdd _ _).bind fun _ => raisesNothing_write _ _

theorem raisesNothing_deliver (rt : Register) (value pcAfter : Word) :
    RaisesNothing (deliver rt value pcAfter) :=
  NeverRaises.pure _

theorem raisesNothing_pendingValue (rt : Register) : RaisesNothing (pendingValue rt) := by
  refine (raisesNothing_read _).bind fun _ => ?_
  split
  · exact raisesNothing_read _
  · exact raisesNothing_read _

theorem raisesNothing_assertAligned (tmp : Word) : RaisesNothing (assertAligned tmp) := by
  unfold assertAligned
  split
  · exact NeverRaises.pure _
  · exact raisesNothing_throw fun _ => by simp

theorem looksOnly_assertAligned (tmp : Word) : LooksOnly (assertAligned tmp) := by
  intro m a m' hreturn
  unfold assertAligned at hreturn
  split at hreturn
  · cases hreturn
    rfl
  · cases hreturn

theorem raisesNothing_advance (next : Next) : RaisesNothing (advance next) :=
  (raisesNothing_delayedLoad _ _).bind fun _ => (raisesNothing_read _).bind fun _ =>
    (raisesNothing_write _ _).bind fun _ => (raisesNothing_read _).bind fun _ =>
      (raisesNothing_write _ _).bind fun _ => raisesNothing_write _ _

/-- An access to memory raises before it does anything. -/
theorem precise_access {x : Code A} {addr : Word} (hx : ∀ m, Access x addr m) :
    PreciseCode x := by
  intro m trap m' hexit hraised
  rcases hx m with ⟨value, m₁, hok, -⟩ | ⟨which, hraise⟩ | ⟨trap', hfail, htrap, -⟩
  · rw [hok] at hexit
    cases hexit
  · rw [hraise] at hexit
    exact precise_raiseException which addr m trap m' hexit hraised
  · rw [hfail] at hexit
    cases hexit
    obtain ⟨which, hwhich⟩ := hraised
    exact absurd hwhich (htrap which)

theorem precise_readMem (addr : Word) {size : Nat} (hsize : isSize size) :
    PreciseCode (readMem addr size) :=
  precise_access fun m => readMem_access m addr hsize

theorem precise_writeMem (addr : Word) {size : Nat} (value : Word) (hsize : isSize size) :
    PreciseCode (writeMem addr size value) :=
  precise_access fun m => writeMem_access m addr value hsize

theorem looksOnly_readMem (addr : Word) {size : Nat} (hsize : isSize size) :
    LooksOnly (readMem addr size) := by
  intro m value m' hreturn
  rcases translate_cases m addr hsize false with
    ⟨physAddr, m₁, table, entry, htranslate, hdone⟩ | ⟨which, htranslate⟩ |
    ⟨trap, htranslate, -⟩
  · have hview : programView m₁ = programView m := by
      rw [hdone.after]
      rfl
    simp only [readMem, bind_apply, htranslate] at hreturn
    rcases hsize with rfl | rfl | rfl
    all_goals
      cases hreturn
      exact hview
  · simp only [readMem, bind_apply, htranslate] at hreturn
    obtain ⟨noted, -, ⟨m₁, -, hraise⟩ | ⟨-, hraise⟩⟩ := raiseException_cases (A := Word) which addr m
    · rw [hraise] at hreturn
      cases hreturn
    · rw [hraise] at hreturn
      cases hreturn
  · simp only [readMem, bind_apply, htranslate] at hreturn
    cases hreturn

end Primitives

section OneInstruction

/-- What follows the last access to memory, or the check for an overflow, raises
nothing. -/
theorem precise_execute (instr : Instruction) (pcAfter : Word) :
    PreciseCode (execute instr pcAfter) := by
  obtain ⟨opCode, rs, rt, rd, extra⟩ := instr
  have hone : isSize 1 := Or.inl rfl
  have htwo : isSize 2 := Or.inr (Or.inl rfl)
  have hfour : isSize 4 := Or.inr (Or.inr rfl)
  have hread {num : Register} {B : Type} {f : Word → Code B} (hf : ∀ a, PreciseCode (f a)) :
      PreciseCode (readRegister num >>= f) :=
    (raisesNothing_read num).atomicExits.bind (looksOnly_read num) hf
  have hadd {a b : Word} {B : Type} {f : Word → Code B} (hf : ∀ a, PreciseCode (f a)) :
      PreciseCode (intAdd a b >>= f) :=
    (raisesNothing_intAdd a b).atomicExits.bind (looksOnly_intAdd a b) hf
  have hsub {a b : Word} {B : Type} {f : Word → Code B} (hf : ∀ a, PreciseCode (f a)) :
      PreciseCode (intSub a b >>= f) :=
    (raisesNothing_intSub a b).atomicExits.bind (looksOnly_intSub a b) hf
  have hload {addr : Word} {size : Nat} (hsize : isSize size) {B : Type} {f : Word → Code B}
      (hf : ∀ a, PreciseCode (f a)) : PreciseCode (readMem addr size >>= f) :=
    (precise_readMem addr hsize).bind (looksOnly_readMem addr hsize) hf
  have hstore {addr value : Word} {size : Nat} (hsize : isSize size) :
      PreciseCode (writeMem addr size value >>= fun _ => pure ⟨pcAfter, 0, 0⟩ : Code Next) :=
    (precise_writeMem addr value hsize).bind_last fun _ => NeverRaises.pure _
  have hasserts {tmp : Word} {B : Type} {f : Unit → Code B} (hf : ∀ a, PreciseCode (f a)) :
      PreciseCode (assertAligned tmp >>= f) :=
    (raisesNothing_assertAligned tmp).atomicExits.bind (looksOnly_assertAligned tmp) hf
  refine hread fun a => hread fun b => ?_
  cases opCode
  all_goals dsimp only
  all_goals repeat' with_reducible first
    | exact precise_raiseException _ _
    | exact hstore hone
    | exact hstore htwo
    | exact hstore hfour
    | exact (raisesNothing_assign _ _ _).atomicExits
    | exact (raisesNothing_branch _ _ _).atomicExits
    | exact (raisesNothing_deliver _ _ _).atomicExits
    | exact (raisesNothing_throw fun _ => by simp).atomicExits
    | exact (NeverRaises.pure _).atomicExits
    | refine hadd fun _ => ?_
    | refine hsub fun _ => ?_
    | refine hload hone fun _ => ?_
    | refine hload htwo fun _ => ?_
    | refine hload hfour fun _ => ?_
    | refine hasserts fun _ => ?_
    | refine hread fun _ => ?_
    | split
  -- the opcodes that write more than one register, or look at a load on its way,
  -- raise nothing at all
  all_goals refine NeverRaises.atomicExits ?_
  all_goals repeat' with_reducible first
    | exact raisesNothing_read _
    | exact raisesNothing_write _ _
    | exact raisesNothing_assign _ _ _
    | exact raisesNothing_branch _ _ _
    | exact raisesNothing_link _
    | exact raisesNothing_intDiv _ _
    | exact raisesNothing_mult _ _ _
    | exact raisesNothing_pendingValue _
    | exact raisesNothing_deliver _ _ _
    | exact NeverRaises.pure _
    | refine NeverRaises.bind ?_ fun _ => ?_

theorem precise_oneInstruction : PreciseCode oneInstruction :=
  (raisesNothing_read _).atomicExits.bind (looksOnly_read _) fun _ =>
    (precise_readMem _ (Or.inr (Or.inr rfl))).bind (looksOnly_readMem _ (Or.inr (Or.inr rfl)))
      fun _ => (raisesNothing_read _).atomicExits.bind (looksOnly_read _) fun _ =>
        (raisesNothing_intAdd _ _).atomicExits.bind (looksOnly_intAdd _ _) fun _ =>
          (precise_execute _ _).bind_last fun _ => raisesNothing_advance _

variable {m m' : Machine} {which : ExceptionType}

/-- Exceptions are precise: when the kernel is entered, memory is unchanged, no
general register has changed but by the load on its way being done, and neither have
`HiReg`, `LoReg`, `PCReg` and `NextPCReg`.  That `LoadReg` names a general register is
kept by every instruction. -/
theorem exception_precise (hload : m.LoadsGeneral)
    (hexit : oneInstruction m = .error (.exception which) m') :
    m'.mainMemory = m.mainMemory ∧
      (∀ r : Register, r.val < 32 →
        m'.registers r = if r = 0 then 0 else withPending m.registers r) ∧
      m'.registers hiReg = m.registers hiReg ∧ m'.registers loReg = m.registers loReg ∧
      m'.registers pcReg = m.registers pcReg ∧ m'.registers nextPCReg = m.registers nextPCReg := by
  obtain ⟨hmemory, hregisters⟩ := precise_oneInstruction m _ m' hexit ⟨which, rfl⟩
  have hsame {r : Register} (hr : 32 ≤ r.val) (hlt : r.val < 36) :
      m'.registers r = m.registers r := by
    have hload' : r ≠ loadReg := by
      rintro rfl
      exact absurd hlt (by decide)
    have hvalue : r ≠ loadValueReg := by
      rintro rfl
      exact absurd hlt (by decide)
    have hbad : r ≠ badVAddrReg := by
      rintro rfl
      exact absurd hlt (by decide)
    have hzero : r ≠ 0 := by
      rintro rfl
      exact absurd hr (by decide)
    have hpending : ¬ (r ≠ 0 ∧ (m.registers loadReg).toNat = r.val) := by
      rintro ⟨-, heq⟩
      unfold LoadsGeneral at hload
      omega
    rw [hregisters r hload' hvalue hbad, if_neg hzero]
    exact if_neg hpending
  refine ⟨hmemory, fun r hr => hregisters r ?_ ?_ ?_, hsame (by decide) (by decide),
    hsame (by decide) (by decide), hsame (by decide) (by decide), hsame (by decide) (by decide)⟩
  all_goals
    rintro rfl
    exact absurd hr (by decide)

/-- An `ADD` that overflows, with a load of `r4` on its way. -/
def overflowingAdd : Machine where
  registers := Function.update (Function.update (Function.update (Function.update (fun _ => 0)
    2 0x7fffffff) 3 1) loadReg 4) loadValueReg 7
  mainMemory := fun a => if a = 0 then 0x20 else if a = 1 then 0x08 else if a = 2 then 0x43 else 0
  pageTable := some [⟨0, 0, true, false, false, false⟩]
  pageTableSize := 1
  overflowed := false

theorem exception_precise_overflowingAdd :
    ∃ m', oneInstruction overflowingAdd = .error (.exception .overflowException) m' ∧
      m'.registers 4 = 7 ∧ m'.registers pcReg = 0 := by
  have hexit : oneInstruction overflowingAdd = .error (.exception .overflowException) _ := rfl
  have hprecise := exception_precise (by decide) hexit
  exact ⟨_, hexit, hprecise.2.1 4 (by decide), hprecise.2.2.2.2.1⟩

end OneInstruction

end Machine
end Nachos
