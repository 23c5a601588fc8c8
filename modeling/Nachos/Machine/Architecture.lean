import Nachos.Machine.PreciseExceptions
import Nachos.Machine.WordArithmetic

/-!
# Against the architecture manual

The instructions of `OneInstruction` that compute on registers, branch or jump are
compared with the definition of the architecture: registers, `HI`, `LO` and both program
counters behind the instruction, and the overflow exception.

Six opcodes differ for some operands: `OP_OR` reads one register twice, `OP_SRL` and
`OP_SRLV` shift copies of the sign in, `OP_DIV` leaves the one quotient that does not fit
to the host, and `OP_J` and `OP_JAL` take the region of the address behind the delay
slot.  `MeetsManual` is the condition on the operands, and it is exact.
-/

namespace Nachos

open Lib

section View

theorem gprOf_ne_special {num : Register} (hnum : 32 ≤ num.val) (r : Mips.Reg) :
    gprOf r ≠ num := by
  rintro rfl
  exact absurd r.isLt (Nat.not_lt.mpr hnum)

theorem gprOf_injective {r q : Mips.Reg} (h : gprOf r = gprOf q) : r = q :=
  Fin.castLE_injective _ h

/-- The registers a program sees. -/
def visible (registers : Registers) (hzero : registers 0 = 0) : Mips.State where
  gpr := fun r => registers (gprOf r)
  hi := registers hiReg
  lo := registers loReg
  pc := registers pcReg
  nextPC := registers nextPCReg
  zero := hzero

/-- The registers a program sees behind an instruction that has left `registers` at the
end of the `switch`. -/
def retiredState (registers : Registers) (pcAfter : Word) : Mips.State where
  gpr := fun r => if r = 0 then 0 else registers (gprOf r)
  hi := registers hiReg
  lo := registers loReg
  pc := registers nextPCReg
  nextPC := pcAfter
  zero := if_pos rfl

variable {registers : Registers} (hzero : registers 0 = 0)

/-- A general register has been written. -/
theorem retiredState_write (r : Mips.Reg) (value word pcAfter target : Word) :
    retiredState (Function.update registers (gprOf r) value) pcAfter =
        ((visible registers hzero).goTo target).write r word ↔
      pcAfter = target ∧ (r = 0 ∨ value = word) := by
  have hspecial {num : Register} (hnum : 32 ≤ num.val) :
      Function.update registers (gprOf r) value num = registers num :=
    Function.update_of_ne (gprOf_ne_special hnum r).symm _ _
  constructor
  · intro h
    have hpc := congrArg Mips.State.nextPC h
    rw [Mips.State.write_nextPC] at hpc
    refine ⟨hpc, or_iff_not_imp_left.mpr fun hr => ?_⟩
    have hgpr := congrFun (congrArg Mips.State.gpr h) r
    rw [Mips.State.gpr_write, if_pos ⟨rfl, hr⟩] at hgpr
    unfold retiredState at hgpr
    dsimp only at hgpr
    rwa [if_neg hr, Function.update_self] at hgpr
  · rintro ⟨rfl, hvalue⟩
    refine Mips.State.ext (funext fun q => ?_) ?_ ?_ ?_ ?_
    · rw [Mips.State.gpr_write]
      unfold retiredState Mips.State.goTo visible
      dsimp only
      by_cases hq : q = 0
      · rw [if_pos hq, if_neg fun h => h.2 (h.1 ▸ hq), hq]
        exact hzero.symm
      · rw [if_neg hq]
        by_cases hr : q = r
        · subst hr
          rw [Function.update_self, if_pos ⟨rfl, hq⟩]
          exact hvalue.resolve_left hq
        · rw [Function.update_of_ne fun h => hr (gprOf_injective h), if_neg fun h => hr h.1]
    · rw [Mips.State.write_hi]
      exact hspecial (by decide)
    · rw [Mips.State.write_lo]
      exact hspecial (by decide)
    · rw [Mips.State.write_pc]
      exact hspecial (by decide)
    · rw [Mips.State.write_nextPC]
      rfl

/-- Nothing has been written. -/
theorem retiredState_goTo (pcAfter target : Word) :
    retiredState registers pcAfter = (visible registers hzero).goTo target ↔
      pcAfter = target := by
  have hsame : Function.update registers (gprOf 0) (registers (gprOf 0)) = registers :=
    Function.update_eq_self _ _
  have hwrite := retiredState_write hzero 0 (registers (gprOf 0)) 0 pcAfter target
  rw [hsame] at hwrite
  refine hwrite.trans ⟨fun h => h.1, fun h => ⟨h, Or.inl rfl⟩⟩

/-- `HI` and `LO` have been written. -/
theorem retiredState_hiLo (hi lo hi' lo' : Word) :
    retiredState (Function.update (Function.update registers loReg lo) hiReg hi)
        (registers nextPCReg + 4) =
        Mips.State.advance { visible registers hzero with hi := hi', lo := lo' } ↔
      hi = hi' ∧ lo = lo' := by
  constructor
  · intro h
    exact ⟨congrArg Mips.State.hi h, congrArg Mips.State.lo h⟩
  · rintro ⟨rfl, rfl⟩
    refine Mips.State.ext (funext fun q => ?_) rfl rfl rfl rfl
    have hgpr : Function.update (Function.update registers loReg lo) hiReg hi (gprOf q) =
        registers (gprOf q) := by
      rw [Function.update_of_ne (gprOf_ne_special (by decide) q),
        Function.update_of_ne (gprOf_ne_special (by decide) q)]
    unfold retiredState Mips.State.advance Mips.State.goTo visible
    dsimp only
    rw [hgpr]
    by_cases hq : q = 0
    · rw [if_pos hq, hq]
      exact hzero.symm
    · rw [if_neg hq]

end View

namespace Machine

section Ends

/-- The machine ends its instruction as the manual says. -/
def EndsAs (m : Machine) (hzero : m.registers 0 = 0) : Mips.Outcome → Prop
  | .retired s => ∃ m' hzero', oneInstruction m = .ok () m' ∧ visible m'.registers hzero' = s
  | .overflow => ∃ m' hzero', oneInstruction m = .error (.exception .overflowException) m' ∧
      visible m'.registers hzero' = visible m.registers hzero

/-- From these registers the `switch` leaves the registers `after`, a next program
counter, and no load on its way. -/
def Leaves (instr : Instruction) (registers : Registers) (pcAfter : Word) (after : Registers)
    (target : Word) : Prop :=
  ∀ m : Machine, m.registers = registers → ∃ overflowed, execute instr pcAfter m =
    .ok ⟨target, 0, 0⟩ { m with registers := after, overflowed := overflowed }

/-- The `switch` raises the exception for an overflow. -/
def Overflows (instr : Instruction) (registers : Registers) (pcAfter : Word) : Prop :=
  ∀ m : Machine, m.registers = registers → ∃ overflowed, execute instr pcAfter m =
    raiseException .overflowException 0 { m with overflowed := overflowed }

/-- The host stops at the `switch`. -/
def Stops (instr : Instruction) (registers : Registers) (pcAfter : Word) : Prop :=
  ∀ m : Machine, m.registers = registers → execute instr pcAfter m = .error .undefined m

/-- It is enough to run the `switch` on these registers. -/
theorem leaves_of {instr : Instruction} {registers after : Registers} {pcAfter target : Word}
    (h : ∀ mem table size note, ∃ overflowed, execute instr pcAfter ⟨registers, mem, table, size, note⟩ =
      .ok ⟨target, 0, 0⟩ ⟨after, mem, table, size, overflowed⟩) :
    Leaves instr registers pcAfter after target := by
  rintro m rfl
  exact h _ _ _ _

theorem overflows_of {instr : Instruction} {registers : Registers} {pcAfter : Word}
    (h : ∀ mem table size note, ∃ overflowed, execute instr pcAfter ⟨registers, mem, table, size, note⟩ =
      raiseException .overflowException 0 ⟨registers, mem, table, size, overflowed⟩) :
    Overflows instr registers pcAfter := by
  rintro m rfl
  exact h _ _ _ _

/-- The machine is at an instruction that it can fetch, with no load on its way. -/
structure Fetched (m : Machine) (instr : Instruction) : Prop where
  zero : m.registers 0 = 0
  load : m.registers loadReg = 0
  fetch : ∃ raw m₁, readMem (m.registers pcReg) 4 m = .ok raw m₁ ∧ decode raw = instr

variable {m : Machine} {instr : Instruction}

theorem oneInstruction_of_fetched (h : Fetched m instr) :
    ∃ m₂ : Machine, m₂.registers = m.registers ∧ oneInstruction m =
      match execute instr (m.registers nextPCReg + 4) m₂ with
      | .ok next m₃ => advance next m₃
      | .error trap m₃ => .error trap m₃ := by
  obtain ⟨raw, m₁, hfetch, rfl⟩ := h.fetch
  have hview : m₁.registers = m.registers :=
    congrArg Prod.fst (looksOnly_readMem _ (Or.inr (Or.inr rfl)) m raw m₁ hfetch)
  refine ⟨{ m₁ with overflowed := m₁.overflowed || (m₁.registers nextPCReg).saddOverflow 4 },
    hview, ?_⟩
  simp only [oneInstruction, bind_apply, readRegister, hfetch, intAdd, note, hview, pure,
    EStateM.pure]
  generalize execute (decode raw) (m.registers nextPCReg + 4) _ = result
  cases result with
  | ok next m₃ => rfl
  | error trap m₃ => rfl

/-- With no load on its way, `DelayedLoad` only sees to `r0`. -/
theorem delayedLoad_none {loaded : Machine} (hload : m.registers loadReg = 0)
    (h : delayedLoad 0 0 m = .ok () loaded) {r : Register} (hvalue : r ≠ loadValueReg)
    (hreg : r ≠ loadReg) : loaded.registers r = if r = 0 then 0 else m.registers r := by
  rw [delayedLoad_registers h, if_neg hvalue, if_neg hreg]
  by_cases hr : r = 0
  · rw [if_pos hr, if_pos hr]
  · rw [if_neg hr, if_neg hr]
    refine if_neg ?_
    rintro ⟨hne, heq⟩
    rw [hload] at heq
    exact hne (Fin.ext heq.symm)

/-- What `advance` leaves of the registers a program sees. -/
theorem advance_visible (hload : m.registers loadReg = 0) (target : Word) :
    ∃ m' hzero', advance ⟨target, 0, 0⟩ m = .ok () m' ∧
      visible m'.registers hzero' = retiredState m.registers target := by
  have hbounded : m.LoadBounded := by
    unfold LoadBounded
    rw [hload]
    decide
  rcases advance_cases ⟨target, 0, 0⟩ m with ⟨-, loaded, hloaded, hadvance⟩ | ⟨hunbounded, -⟩
  · have hregs {r : Register} (hvalue : r ≠ loadValueReg) (hreg : r ≠ loadReg) :=
      delayedLoad_none hload hloaded hvalue hreg
    have hgpr (r : Mips.Reg) : loaded.registers (gprOf r) =
        if r = 0 then 0 else m.registers (gprOf r) := by
      rw [hregs (gprOf_ne_special (by decide) r) (gprOf_ne_special (by decide) r)]
      by_cases hr : r = 0
      · rw [if_pos hr, hr]
        rfl
      · have hne : gprOf r ≠ 0 := fun h => hr (gprOf_injective (show gprOf r = gprOf 0 from h))
        rw [if_neg hr, if_neg hne]
    refine ⟨_, ?_, hadvance, Mips.State.ext (funext fun r => ?_) ?_ ?_ ?_ rfl⟩
    · exact hgpr 0
    · unfold visible retiredState
      dsimp only
      rw [← hgpr, Function.update_of_ne (gprOf_ne_special (by decide) r),
        Function.update_of_ne (gprOf_ne_special (by decide) r),
        Function.update_of_ne (gprOf_ne_special (by decide) r)]
    all_goals exact hregs (by decide) (by decide)
  · exact absurd hbounded hunbounded

/-- An instruction that does not put a load on its way retires. -/
theorem endsAs_of_leaves (h : Fetched m instr) {after : Registers} {target : Word}
    (hleaves : Leaves instr m.registers (m.registers nextPCReg + 4) after target)
    (hload : after loadReg = 0) (s : Mips.State) :
    EndsAs m h.zero (.retired s) ↔ retiredState after target = s := by
  obtain ⟨m₂, hregisters, hinstruction⟩ := oneInstruction_of_fetched h
  obtain ⟨overflowed, hexecute⟩ := hleaves m₂ hregisters
  rw [hexecute] at hinstruction
  obtain ⟨m', hzero', hadvance, hvisible⟩ :=
    advance_visible (m := { m₂ with registers := after, overflowed := overflowed }) hload target
  have hend : oneInstruction m = .ok () m' := hinstruction.trans hadvance
  constructor
  · rintro ⟨m'', hzero'', hend', hs⟩
    obtain rfl : m' = m'' := by
      rw [hend] at hend'
      cases hend'
      rfl
    exact hvisible.symm.trans hs
  · exact fun hs => ⟨m', hzero', hend, hvisible.trans hs⟩

/-- An overflow leaves the registers as they are. -/
theorem endsAs_of_overflows (h : Fetched m instr)
    (hoverflows : Overflows instr m.registers (m.registers nextPCReg + 4)) :
    EndsAs m h.zero .overflow := by
  have hzero := h.zero
  obtain ⟨m₂, hregisters, hinstruction⟩ := oneInstruction_of_fetched h
  obtain ⟨overflowed, hexecute⟩ := hoverflows m₂ hregisters
  rw [hexecute] at hinstruction
  obtain ⟨noted, hnoted, hcases⟩ := raiseException_cases (A := Next) .overflowException 0
    { m₂ with overflowed := overflowed }
  have hsame {r : Register} (hr : r ≠ badVAddrReg) : noted.registers r = m.registers r := by
    rw [hnoted]
    exact (Function.update_of_ne hr _ _).trans (congrFun hregisters r)
  have hnone : noted.registers loadReg = 0 := (hsame (by decide)).trans h.load
  rcases hcases with ⟨m', hloaded, hraise⟩ | ⟨hunbounded, -⟩
  · have hregs {r : Register} (hvalue : r ≠ loadValueReg) (hreg : r ≠ loadReg)
        (hbad : r ≠ badVAddrReg) : m'.registers r = m.registers r := by
      rw [delayedLoad_none hnone hloaded hvalue hreg, hsame hbad]
      by_cases hr : r = 0
      · rw [if_pos hr, hr, hzero]
      · rw [if_neg hr]
    rw [hraise] at hinstruction
    refine ⟨m', (hregs (by decide) (by decide) (by decide)).trans hzero, hinstruction,
      Mips.State.ext (funext fun r => ?_) ?_ ?_ ?_ ?_⟩
    · exact hregs (gprOf_ne_special (by decide) r) (gprOf_ne_special (by decide) r)
        (gprOf_ne_special (by decide) r)
    all_goals exact hregs (by decide) (by decide) (by decide)
  · rw [hnone] at hunbounded
    exact absurd hunbounded (by decide)

/-- Where the host stops, nothing retires. -/
theorem not_endsAs_of_stops (h : Fetched m instr)
    (hstops : Stops instr m.registers (m.registers nextPCReg + 4)) (s : Mips.State) :
    ¬ EndsAs m h.zero (.retired s) := by
  obtain ⟨m₂, hregisters, hinstruction⟩ := oneInstruction_of_fetched h
  rw [hstops m₂ hregisters] at hinstruction
  rintro ⟨m', -, hend, -⟩
  rw [hinstruction] at hend
  cases hend

end Ends

section Kinds

variable {m : Machine} {instr : Instruction} (h : Fetched m instr)

/-- The registers the manual starts from. -/
def seen : Mips.State := visible m.registers h.zero

/-- Nothing is written but the program counter. -/
theorem endsAs_goTo {target word : Word}
    (hleaves : Leaves instr m.registers (m.registers nextPCReg + 4) m.registers target) :
    EndsAs m h.zero (.retired ((seen h).goTo word)) ↔ target = word :=
  (endsAs_of_leaves h hleaves h.load _).trans (retiredState_goTo h.zero _ _)

/-- A general register and the program counter are written. -/
theorem endsAs_write {num : Mips.Reg} {value word target address : Word}
    (hleaves : Leaves instr m.registers (m.registers nextPCReg + 4)
      (Function.update m.registers (gprOf num) value) target) :
    EndsAs m h.zero (.retired (((seen h).goTo address).write num word)) ↔
      target = address ∧ (num = 0 ∨ value = word) := by
  have hload : Function.update m.registers (gprOf num) value loadReg = 0 :=
    (Function.update_of_ne (gprOf_ne_special (by decide) num).symm _ _).trans h.load
  exact (endsAs_of_leaves h hleaves hload _).trans (retiredState_write h.zero _ _ _ _ _)

/-- A general register is written: the word has to be right, unless it is `r0`. -/
theorem endsAs_put {num : Mips.Reg} {value word : Word}
    (hleaves : Leaves instr m.registers (m.registers nextPCReg + 4)
      (Function.update m.registers (gprOf num) value) (m.registers nextPCReg + 4)) :
    EndsAs m h.zero ((seen h).put num word) ↔ num = 0 ∨ value = word := by
  have hsame : ((seen h).write num word).advance =
      ((seen h).goTo ((seen h).nextPC + 4)).write num word := by
    rw [Mips.State.goTo_write]
    unfold Mips.State.advance
    rw [Mips.State.write_nextPC]
  unfold Mips.State.put
  rw [hsame, endsAs_write h hleaves]
  exact and_iff_right rfl

/-- A general register is written, or an overflow raised. -/
theorem endsAs_putFitting {num : Mips.Reg} {value : Word} {n : Int} (hvalue : value = Mips.wrap n)
    (hleaves : Mips.Fits n → Leaves instr m.registers (m.registers nextPCReg + 4)
      (Function.update m.registers (gprOf num) value) (m.registers nextPCReg + 4))
    (hoverflows : ¬ Mips.Fits n → Overflows instr m.registers (m.registers nextPCReg + 4)) :
    EndsAs m h.zero ((seen h).putFitting num n) := by
  unfold Mips.State.putFitting
  by_cases hfits : Mips.Fits n
  · rw [if_pos hfits]
    exact (endsAs_put h (hleaves hfits)).mpr (Or.inr hvalue)
  · rw [if_neg hfits]
    exact endsAs_of_overflows h (hoverflows hfits)

/-- `HI` and `LO` are written. -/
theorem endsAs_putHiLo {hi lo hi' lo' : Word}
    (hleaves : Leaves instr m.registers (m.registers nextPCReg + 4)
      (Function.update (Function.update m.registers loReg lo) hiReg hi)
      (m.registers nextPCReg + 4)) :
    EndsAs m h.zero ((seen h).putHiLo hi' lo') ↔ hi = hi' ∧ lo = lo' := by
  have hload : Function.update (Function.update m.registers loReg lo) hiReg hi loadReg = 0 :=
    (Function.update_of_ne (by decide) _ _).trans
      ((Function.update_of_ne (by decide) _ _).trans h.load)
  exact (endsAs_of_leaves h hleaves hload _).trans (retiredState_hiLo h.zero _ _ _ _)

theorem branch_apply (taken : Prop) [Decidable taken] (extra pcAfter : Word) (m : Machine) :
    ∃ overflowed, branch taken extra pcAfter m =
      .ok ⟨if taken then m.registers nextPCReg + indexToAddr extra else pcAfter, 0, 0⟩
        { m with overflowed := overflowed } := by
  unfold branch
  split
  · exact ⟨_, rfl⟩
  · exact ⟨_, rfl⟩

variable {taken taken' : Prop} [Decidable taken] [Decidable taken'] {immediate : BitVec 16}

theorem seen_branch : (seen h).branch taken immediate = (seen h).goTo
    (if taken then (seen h).branchTarget immediate else (seen h).nextPC + 4) := by
  unfold Mips.State.branch
  split
  · rfl
  · rfl

/-- Where a branch goes. -/
theorem branchTarget_seen (hcond : taken ↔ taken') :
    (if taken then m.registers nextPCReg + indexToAddr (immediate.signExtend 32)
      else m.registers nextPCReg + 4) =
      if taken' then (seen h).branchTarget immediate else (seen h).nextPC + 4 := by
  rw [branchTarget_eq]
  exact if_congr hcond rfl rfl

theorem endsAs_branch (hcond : taken ↔ taken')
    (hexecute : ∀ mem table size note, execute instr (m.registers nextPCReg + 4)
      ⟨m.registers, mem, table, size, note⟩ = branch taken (immediate.signExtend 32)
        (m.registers nextPCReg + 4) ⟨m.registers, mem, table, size, note⟩) :
    EndsAs m h.zero (.retired ((seen h).branch taken' immediate)) := by
  rw [seen_branch]
  refine (endsAs_goTo h (leaves_of fun mem table size note => ?_)).mpr (branchTarget_seen h hcond)
  rw [hexecute]
  exact branch_apply _ _ _ _

/-- A branch that links. -/
theorem endsAs_branchLink (hcond : taken ↔ taken')
    (hexecute : ∀ mem table size note, ∃ overflowed, execute instr (m.registers nextPCReg + 4)
      ⟨m.registers, mem, table, size, note⟩ = branch taken (immediate.signExtend 32)
        (m.registers nextPCReg + 4) ⟨Function.update m.registers (gprOf 31)
          (m.registers nextPCReg + 4), mem, table, size, overflowed⟩) :
    EndsAs m h.zero (.retired (((seen h).branch taken' immediate).write 31
      (seen h).returnAddress)) := by
  rw [seen_branch]
  refine (endsAs_write h (leaves_of fun mem table size note => ?_)).mpr
    ⟨branchTarget_seen h hcond, Or.inr rfl⟩
  obtain ⟨overflowed, hlinked⟩ := hexecute mem table size note
  rw [hlinked]
  exact branch_apply _ _ _ _

end Kinds

section Opcodes

/-- The operands for which the code does what the manual says. -/
def MeetsManual (instr : Instruction) (registers : Registers) : Prop :=
  match instr.opCode with
  | .or => instr.rd = 0 ∨ registers instr.rt &&& ~~~registers instr.rs = 0
  | .srl => instr.rd = 0 ∨ instr.extra = 0 ∨ ¬ isNegative (registers instr.rt)
  | .srlv => instr.rd = 0 ∨ registers instr.rs &&& 0x1f = 0 ∨ ¬ isNegative (registers instr.rt)
  | .div => ¬ (registers instr.rs = BitVec.intMin 32 ∧ registers instr.rt = -1)
  | .j | .jal => (registers nextPCReg).toNat % 2 ^ 28 + 4 < 2 ^ 28
  | _ => True

theorem negateIf_apply (negate : Bool) (a : Word) (m : Machine) :
    ∃ overflowed, negateIf negate a m =
      .ok (if negate then -a else a) { m with overflowed := overflowed } := by
  unfold negateIf
  split
  · exact ⟨_, rfl⟩
  · exact ⟨_, rfl⟩

theorem mult_apply (a b : Word) (signedArith : Bool) (m : Machine) :
    ∃ overflowed, mult a b signedArith m =
      .ok (multWords a b signedArith) { m with overflowed := overflowed } := by
  unfold mult multWords
  split
  · exact ⟨_, rfl⟩
  · obtain ⟨overflowed, hfirst⟩ := negateIf_apply (signedArith && a.slt 0) a m
    obtain ⟨overflowed', hsecond⟩ := negateIf_apply (signedArith && b.slt 0) b
      { m with overflowed := overflowed }
    refine ⟨overflowed', ?_⟩
    dsimp only
    rw [bind_apply, hfirst]
    dsimp only
    rw [bind_apply, hsecond]
    rfl

/-- The halves of a number, put together. -/
theorem wrap_append (n : Int) :
    (Mips.wrap (n / 2 ^ 32) ++ Mips.wrap n : BitVec 64) = BitVec.ofInt 64 n := by
  refine BitVec.eq_of_toNat_eq ?_
  have hlow := (Mips.wrap n).isLt
  rw [BitVec.toNat_append, ← Nat.shiftLeft_add_eq_or_of_lt hlow, Nat.shiftLeft_eq]
  unfold Mips.wrap
  rw [BitVec.toNat_ofInt, BitVec.toNat_ofInt, BitVec.toNat_ofInt]
  omega

/-- `Mult` computes the product of its operands as a double word, and touches nothing else. -/
theorem mult_product (a b : Word) (signedArith : Bool) (m : Machine) :
    ∃ hi lo overflowed, mult a b signedArith m = .ok (hi, lo) { m with overflowed := overflowed } ∧
      (hi ++ lo : BitVec 64) = BitVec.ofInt 64
        (if signedArith then a.toInt * b.toInt else (a.toNat : Int) * b.toNat) := by
  obtain ⟨overflowed, hmult⟩ := mult_apply a b signedArith m
  refine ⟨(multWords a b signedArith).1, (multWords a b signedArith).2, overflowed, hmult, ?_⟩
  cases signedArith with
  | true =>
      rw [multWords_signed, if_pos rfl]
      exact wrap_append _
  | false =>
      have hwords : multWords a b false = (Mips.wrap (((a.toNat : Int) * b.toNat) / 2 ^ 32),
          Mips.wrap ((a.toNat : Int) * b.toNat)) := by
        rw [multWords_unsigned]
        rfl
      rw [hwords, if_neg (by decide)]
      exact wrap_append _

/-- The bits of an `OR` that reads one register twice. -/
theorem or_self_eq_iff (a b : Word) : a ||| a = a ||| b ↔ b &&& ~~~a = 0 := by
  have hbool : ∀ x y : Bool, x = (x || y) ↔ (y && !x) = false := by decide
  rw [BitVec.or_self]
  constructor
  · intro h
    refine BitVec.eq_of_getElem_eq fun i hi => ?_
    have hbit := congrArg (fun w : Word => w.getLsbD i) h
    simp only [BitVec.getLsbD_or] at hbit
    rw [← BitVec.getLsbD_eq_getElem, BitVec.getLsbD_and, BitVec.getLsbD_not]
    simpa [hi] using (hbool _ _).mp hbit
  · intro h
    refine BitVec.eq_of_getLsbD_eq fun i hi => ?_
    have hbit := congrArg (fun w : Word => w.getLsbD i) h
    simp only [BitVec.getLsbD_and, BitVec.getLsbD_not, hi, decide_true, Bool.true_and] at hbit
    rw [BitVec.getLsbD_or]
    exact (hbool _ _).mpr (hbit.trans BitVec.getLsbD_zero)

/-- How the `switch` runs where it looks at a result before it assigns it. -/
theorem execute_add (rs rt rd : Register) (extra pcAfter : Word) (m : Machine) :
    execute ⟨.add, rs, rt, rd, extra⟩ pcAfter m =
      (if ¬ isNegative (m.registers rs ^^^ m.registers rt) ∧
          isNegative (m.registers rs ^^^ (m.registers rs + m.registers rt)) then
        raiseException .overflowException 0
      else assign rd (m.registers rs + m.registers rt) pcAfter : Code Next)
        { m with overflowed := m.overflowed || (m.registers rs).saddOverflow (m.registers rt) } :=
  rfl

theorem execute_addi (rs rt rd : Register) (extra pcAfter : Word) (m : Machine) :
    execute ⟨.addi, rs, rt, rd, extra⟩ pcAfter m =
      (if ¬ isNegative (m.registers rs ^^^ extra) ∧
          isNegative (extra ^^^ (m.registers rs + extra)) then
        raiseException .overflowException 0
      else assign rt (m.registers rs + extra) pcAfter : Code Next)
        { m with overflowed := m.overflowed || (m.registers rs).saddOverflow extra } :=
  rfl

theorem execute_sub (rs rt rd : Register) (extra pcAfter : Word) (m : Machine) :
    execute ⟨.sub, rs, rt, rd, extra⟩ pcAfter m =
      (if isNegative (m.registers rs ^^^ m.registers rt) ∧
          isNegative (m.registers rs ^^^ (m.registers rs - m.registers rt)) then
        raiseException .overflowException 0
      else assign rd (m.registers rs - m.registers rt) pcAfter : Code Next)
        { m with overflowed := m.overflowed || (m.registers rs).ssubOverflow (m.registers rt) } :=
  rfl

theorem execute_div (rs rt rd : Register) (extra pcAfter : Word) (m : Machine) :
    execute ⟨.div, rs, rt, rd, extra⟩ pcAfter m =
      (intDiv (m.registers rs) (m.registers rt) >>= fun result =>
        writeRegister loReg result.1 >>= fun _ => assign hiReg result.2 pcAfter) m :=
  rfl

/-- Both multiplications. -/
theorem execute_mult (signedArith : Bool) (rs rt rd : Register) (extra pcAfter : Word) (m : Machine) :
    execute ⟨if signedArith then .mult else .multu, rs, rt, rd, extra⟩ pcAfter m =
      (mult (m.registers rs) (m.registers rt) signedArith >>= fun result =>
        writeRegister hiReg result.1 >>= fun _ => assign loReg result.2 pcAfter) m := by
  cases signedArith with
  | false => rfl
  | true => rfl

/-- The words of a product end up in `HI` and `LO`. -/
theorem leaves_mult (signedArith : Bool) (rs rt rd : Register) (extra pcAfter : Word)
    (registers : Registers) :
    Leaves ⟨if signedArith then .mult else .multu, rs, rt, rd, extra⟩ registers pcAfter
      (Function.update (Function.update registers loReg
        (multWords (registers rs) (registers rt) signedArith).2) hiReg
        (multWords (registers rs) (registers rt) signedArith).1) pcAfter := by
  rintro m rfl
  obtain ⟨overflowed, hmult⟩ := mult_apply (m.registers rs) (m.registers rt) signedArith m
  refine ⟨overflowed, ?_⟩
  rw [execute_mult, bind_apply, hmult, Function.update_comm (by decide)]
  rfl

/-- The quotient and the remainder end up in `LO` and `HI`. -/
theorem leaves_div (rs rt rd : Register) (extra pcAfter : Word) (registers : Registers)
    (hdivisor : registers rt ≠ 0)
    (hleast : ¬ (registers rs = BitVec.intMin 32 ∧ registers rt = -1)) :
    Leaves ⟨.div, rs, rt, rd, extra⟩ registers pcAfter (Function.update (Function.update registers
      loReg ((registers rs).sdiv (registers rt))) hiReg ((registers rs).srem (registers rt)))
      pcAfter := by
  rintro m rfl
  refine ⟨m.overflowed, ?_⟩
  rw [execute_div]
  unfold intDiv
  rw [if_neg hdivisor, if_neg hleast]
  rfl

/-- The quotient that does not fit stops the host. -/
theorem stops_div (rs rt rd : Register) (extra pcAfter : Word) (registers : Registers)
    (hdivisor : registers rt ≠ 0)
    (hleast : registers rs = BitVec.intMin 32 ∧ registers rt = -1) :
    Stops ⟨.div, rs, rt, rd, extra⟩ registers pcAfter := by
  rintro m rfl
  rw [execute_div]
  unfold intDiv
  rw [if_neg hdivisor, if_pos hleast]
  rfl

/-- Linking leaves the other registers alone. -/
theorem read_linked {r q : Mips.Reg} (registers : Registers) (value : Word) (h : r ≠ q) :
    Function.update registers (gprOf q) value (gprOf r) = registers (gprOf r) :=
  Function.update_of_ne (fun hsame => h (gprOf_injective hsame)) _ _

/-- The comparison for each opcode: what it writes, and where it goes. -/
theorem endsAs_step_iff {m : Machine} {opCode : OpCode} {f : Mips.Fields} {extra : Word}
    (h : Fetched m ⟨opCode, gprOf f.rs, gprOf f.rt, gprOf f.rd, extra⟩) (hshamt : f.shamt < 32)
    (hextra : extra = match opCode.format with
      | .ifmt => f.immediate.signExtend 32
      | .rfmt => BitVec.ofNat 32 f.shamt
      | .jfmt => f.target.setWidth 32)
    {op : Mips.Mnemonic} (hop : opCode.mnemonic = some op)
    (hdefined : Mips.Defined op f (seen h)) :
    EndsAs m h.zero (Mips.step op f (seen h)) ↔
      MeetsManual ⟨opCode, gprOf f.rs, gprOf f.rt, gprOf f.rd, extra⟩ m.registers := by
  let rs := m.registers (gprOf f.rs)
  let rt := m.registers (gprOf f.rt)
  let next := m.registers nextPCReg
  have hrd : f.rd = 0 ↔ gprOf f.rd = 0 :=
    ⟨fun h => h ▸ rfl, fun h => gprOf_injective (show gprOf f.rd = gprOf 0 from h)⟩
  cases opCode
  all_goals cases hop
  case and | xor | nor | mfhi | mflo =>
    exact (endsAs_put h (leaves_of fun _ _ _ _ => ⟨_, rfl⟩)).trans
      (iff_of_true (Or.inr rfl) trivial)
  case addu =>
    exact (endsAs_put h (leaves_of fun _ _ _ _ => ⟨_, rfl⟩)).trans
      (iff_of_true (Or.inr (add_eq_wrap rs rt)) trivial)
  case subu =>
    exact (endsAs_put h (leaves_of fun _ _ _ _ => ⟨_, rfl⟩)).trans
      (iff_of_true (Or.inr (sub_eq_wrap rs rt)) trivial)
  case addiu =>
    obtain rfl : extra = f.immediate.signExtend 32 := hextra
    exact (endsAs_put h (leaves_of fun _ _ _ _ => ⟨_, rfl⟩)).trans
      (iff_of_true (Or.inr (add_immediate_eq_wrap rs f.immediate)) trivial)
  case add =>
    have htest := sum_overflows rs rt
    refine iff_of_true (endsAs_putFitting h (add_eq_wrap rs rt)
      (fun hfits => leaves_of fun _ _ _ note => ⟨note || rs.saddOverflow rt, ?_⟩)
      (fun hnot => overflows_of fun _ _ _ note => ⟨note || rs.saddOverflow rt, ?_⟩)) trivial
    · rw [execute_add, if_neg fun hover => htest.mp hover hfits]
      rfl
    · rw [execute_add, if_pos (htest.mpr hnot)]
  case addi =>
    obtain rfl : extra = f.immediate.signExtend 32 := hextra
    let immediate := f.immediate.signExtend 32
    have htest := sum_overflows_right rs immediate
    rw [toInt_immediate] at htest
    refine iff_of_true (endsAs_putFitting h (add_immediate_eq_wrap rs f.immediate)
      (fun hfits => leaves_of fun _ _ _ note => ⟨note || rs.saddOverflow immediate, ?_⟩)
      (fun hnot => overflows_of fun _ _ _ note => ⟨note || rs.saddOverflow immediate, ?_⟩)) trivial
    · rw [execute_addi, if_neg fun hover => htest.mp hover hfits]
      rfl
    · rw [execute_addi, if_pos (htest.mpr hnot)]
  case sub =>
    have htest := difference_overflows rs rt
    refine iff_of_true (endsAs_putFitting h (sub_eq_wrap rs rt)
      (fun hfits => leaves_of fun _ _ _ note => ⟨note || rs.ssubOverflow rt, ?_⟩)
      (fun hnot => overflows_of fun _ _ _ note => ⟨note || rs.ssubOverflow rt, ?_⟩)) trivial
    · rw [execute_sub, if_neg fun hover => htest.mp hover hfits]
      rfl
    · rw [execute_sub, if_pos (htest.mpr hnot)]
  case or =>
    exact (endsAs_put h (leaves_of fun _ _ _ _ => ⟨_, rfl⟩)).trans
      (or_congr hrd (or_self_eq_iff rs rt))
  case andi =>
    obtain rfl : extra = f.immediate.signExtend 32 := hextra
    exact (endsAs_put h (leaves_of fun _ _ _ _ => ⟨_, rfl⟩)).trans
      (iff_of_true (Or.inr (congrArg (rs &&& ·) (low_immediate f.immediate))) trivial)
  case ori =>
    obtain rfl : extra = f.immediate.signExtend 32 := hextra
    exact (endsAs_put h (leaves_of fun _ _ _ _ => ⟨_, rfl⟩)).trans
      (iff_of_true (Or.inr (congrArg (rs ||| ·) (low_immediate f.immediate))) trivial)
  case xori =>
    obtain rfl : extra = f.immediate.signExtend 32 := hextra
    exact (endsAs_put h (leaves_of fun _ _ _ _ => ⟨_, rfl⟩)).trans
      (iff_of_true (Or.inr (congrArg (rs ^^^ ·) (low_immediate f.immediate))) trivial)
  case lui =>
    obtain rfl : extra = f.immediate.signExtend 32 := hextra
    exact (endsAs_put h (leaves_of fun _ _ _ _ => ⟨_, rfl⟩)).trans
      (iff_of_true (Or.inr (lui_eq f.immediate)) trivial)
  case sll =>
    obtain rfl : extra = BitVec.ofNat 32 f.shamt := hextra
    exact (endsAs_put h (leaves_of fun _ _ _ _ => ⟨_, rfl⟩)).trans
      (iff_of_true (Or.inr (sll_eq rt hshamt)) trivial)
  case sllv =>
    exact (endsAs_put h (leaves_of fun _ _ _ _ => ⟨_, rfl⟩)).trans
      (iff_of_true (Or.inr (sllv_eq rt rs)) trivial)
  case sra =>
    obtain rfl : extra = BitVec.ofNat 32 f.shamt := hextra
    exact (endsAs_put h (leaves_of fun _ _ _ _ => ⟨_, rfl⟩)).trans
      (iff_of_true (Or.inr (sra_eq rt hshamt)) trivial)
  case srav =>
    exact (endsAs_put h (leaves_of fun _ _ _ _ => ⟨_, rfl⟩)).trans
      (iff_of_true (Or.inr (srav_eq rt rs)) trivial)
  case srl =>
    obtain rfl : extra = BitVec.ofNat 32 f.shamt := hextra
    exact (endsAs_put h (leaves_of fun _ _ _ _ => ⟨_, rfl⟩)).trans
      (or_congr hrd (srl_iff rt hshamt))
  case srlv =>
    exact (endsAs_put h (leaves_of fun _ _ _ _ => ⟨_, rfl⟩)).trans
      (or_congr hrd (srlv_iff rt rs))
  case slt =>
    exact (endsAs_put h (leaves_of fun _ _ _ _ => ⟨_, rfl⟩)).trans
      (iff_of_true (Or.inr (slt_flag rs rt)) trivial)
  case slti =>
    obtain rfl : extra = f.immediate.signExtend 32 := hextra
    exact (endsAs_put h (leaves_of fun _ _ _ _ => ⟨_, rfl⟩)).trans
      (iff_of_true (Or.inr (slt_immediate_flag rs f.immediate)) trivial)
  case sltu =>
    exact (endsAs_put h (leaves_of fun _ _ _ _ => ⟨_, rfl⟩)).trans
      (iff_of_true (Or.inr (ult_flag rs rt)) trivial)
  case sltiu =>
    obtain rfl : extra = f.immediate.signExtend 32 := hextra
    exact (endsAs_put h (leaves_of fun _ _ _ _ => ⟨_, rfl⟩)).trans
      (iff_of_true (Or.inr (ult_flag rs (f.immediate.signExtend 32))) trivial)
  case mult =>
    obtain ⟨hhi, hlo⟩ := Prod.ext_iff.mp (multWords_signed rs rt)
    exact (endsAs_putHiLo h (leaves_mult true _ _ _ _ _ _)).trans (iff_of_true ⟨hhi, hlo⟩ trivial)
  case multu =>
    obtain ⟨hhi, hlo⟩ := Prod.ext_iff.mp (multWords_unsigned rs rt)
    exact (endsAs_putHiLo h (leaves_mult false _ _ _ _ _ _)).trans (iff_of_true ⟨hhi, hlo⟩ trivial)
  case div =>
    have hdivisor : rt ≠ 0 := hdefined
    by_cases hleast : rs = BitVec.intMin 32 ∧ rt = -1
    · refine iff_of_false (not_endsAs_of_stops h ?_ _) (not_not.mpr hleast)
      exact stops_div _ _ _ _ _ _ hdivisor hleast
    · have hleaves := leaves_div (gprOf f.rs) (gprOf f.rt) (gprOf f.rd) extra
        (m.registers nextPCReg + 4) m.registers hdivisor hleast
      exact (endsAs_putHiLo h hleaves).trans
        (iff_of_true ⟨srem_eq_wrap rs rt, sdiv_eq_wrap rs rt⟩ hleast)
  case divu =>
    have hdivisor : rt ≠ 0 := hdefined
    have hremainder : (if rt = 0 then 0 else rs % rt) = _ :=
      (if_neg hdivisor).trans (umod_eq_ofNat rs rt)
    have hquotient : (if rt = 0 then 0 else rs / rt) = _ :=
      (if_neg hdivisor).trans (udiv_eq_ofNat rs rt)
    exact (endsAs_putHiLo h (leaves_of fun _ _ _ _ => ⟨_, rfl⟩)).trans
      (iff_of_true ⟨hremainder, hquotient⟩ trivial)
  case mthi =>
    have hleaves : Leaves ⟨.mthi, gprOf f.rs, gprOf f.rt, gprOf f.rd, extra⟩ m.registers
        (m.registers nextPCReg + 4) (Function.update (Function.update m.registers loReg
          (m.registers loReg)) hiReg rs) (m.registers nextPCReg + 4) := by
      rw [Function.update_eq_self]
      exact leaves_of fun _ _ _ _ => ⟨_, rfl⟩
    exact (endsAs_putHiLo h hleaves).trans (iff_of_true ⟨rfl, rfl⟩ trivial)
  case mtlo =>
    have hleaves : Leaves ⟨.mtlo, gprOf f.rs, gprOf f.rt, gprOf f.rd, extra⟩ m.registers
        (m.registers nextPCReg + 4) (Function.update (Function.update m.registers loReg rs) hiReg
          (m.registers hiReg)) (m.registers nextPCReg + 4) := by
      rw [Function.update_comm (by decide), Function.update_eq_self]
      exact leaves_of fun _ _ _ _ => ⟨_, rfl⟩
    exact (endsAs_putHiLo h hleaves).trans (iff_of_true ⟨rfl, rfl⟩ trivial)
  case beq =>
    obtain rfl : extra = f.immediate.signExtend 32 := hextra
    exact iff_of_true (endsAs_branch h Iff.rfl fun _ _ _ _ => rfl) trivial
  case bne =>
    obtain rfl : extra = f.immediate.signExtend 32 := hextra
    exact iff_of_true (endsAs_branch h Iff.rfl fun _ _ _ _ => rfl) trivial
  case bgez =>
    obtain rfl : extra = f.immediate.signExtend 32 := hextra
    exact iff_of_true (endsAs_branch h (not_isNegative_iff rs) fun _ _ _ _ => rfl) trivial
  case bltz =>
    obtain rfl : extra = f.immediate.signExtend 32 := hextra
    exact iff_of_true (endsAs_branch h (isNegative_iff rs) fun _ _ _ _ => rfl) trivial
  case bgtz =>
    obtain rfl : extra = f.immediate.signExtend 32 := hextra
    exact iff_of_true (endsAs_branch h (slt_zero_iff rs) fun _ _ _ _ => rfl) trivial
  case blez =>
    obtain rfl : extra = f.immediate.signExtend 32 := hextra
    exact iff_of_true (endsAs_branch h (sle_zero_iff rs) fun _ _ _ _ => rfl) trivial
  case bgezal =>
    obtain rfl : extra = f.immediate.signExtend 32 := hextra
    have hsame := read_linked m.registers (m.registers nextPCReg + 4) hdefined
    have hcond : ¬ isNegative (Function.update m.registers (gprOf 31)
        (m.registers nextPCReg + 4) (gprOf f.rs)) ↔ 0 ≤ rs.toInt := by
      rw [hsame]
      exact not_isNegative_iff rs
    exact iff_of_true (endsAs_branchLink h hcond fun _ _ _ _ => ⟨_, rfl⟩) trivial
  case bltzal =>
    obtain rfl : extra = f.immediate.signExtend 32 := hextra
    have hsame := read_linked m.registers (m.registers nextPCReg + 4) hdefined
    have hcond : isNegative (Function.update m.registers (gprOf 31)
        (m.registers nextPCReg + 4) (gprOf f.rs)) ↔ rs.toInt < 0 := by
      rw [hsame]
      exact isNegative_iff rs
    exact iff_of_true (endsAs_branchLink h hcond fun _ _ _ _ => ⟨_, rfl⟩) trivial
  case j =>
    obtain rfl : extra = f.target.setWidth 32 := hextra
    exact (endsAs_goTo h (leaves_of fun _ _ _ _ => ⟨_, rfl⟩)).trans (jumpTarget_iff next f.target)
  case jal =>
    obtain rfl : extra = f.target.setWidth 32 := hextra
    exact ((endsAs_write h (leaves_of fun _ _ _ _ => ⟨_, rfl⟩)).trans
      (and_iff_left (Or.inr rfl))).trans (jumpTarget_iff next f.target)
  case jr =>
    exact (endsAs_goTo h (leaves_of fun _ _ _ _ => ⟨_, rfl⟩)).trans (iff_of_true rfl trivial)
  case jalr =>
    have hsame := read_linked m.registers (m.registers nextPCReg + 4) hdefined
    exact (endsAs_write h (leaves_of fun _ _ _ _ => ⟨_, rfl⟩)).trans
      (iff_of_true ⟨hsame, Or.inr rfl⟩ trivial)

/-- `OneInstruction` against the architecture manual.  For a word that `Decode` takes to an
instruction that computes on registers, moves `HI` or `LO`, branches or jumps, and with no
load on its way, the machine ends as the manual says exactly for the operands of
`MeetsManual`. -/
theorem oneInstruction_architecture_iff {m m₁ : Machine} {raw : Word}
    (hfetch : readMem (m.registers pcReg) 4 m = .ok raw m₁) (hload : m.registers loadReg = 0)
    (hzero : m.registers 0 = 0) {op : Mips.Mnemonic}
    (hop : (decode raw).opCode.mnemonic = some op)
    (hdefined : Mips.Defined op (Mips.fields raw) (visible m.registers hzero)) :
    (Mips.mnemonic raw = some op ∧
        EndsAs m hzero (Mips.step op (Mips.fields raw) (visible m.registers hzero))) ↔
      MeetsManual (decode raw) m.registers := by
  have hsame : Mips.mnemonic raw = some op := (mnemonic_decode raw).trans hop
  have hinstr : decode raw = ⟨(decode raw).opCode, gprOf (Mips.fields raw).rs,
      gprOf (Mips.fields raw).rt, gprOf (Mips.fields raw).rd, (decode raw).extra⟩ := by
    have hrs : (decode raw).rs = registerField raw 21 := rfl
    have hrt : (decode raw).rt = registerField raw 16 := rfl
    have hrd : (decode raw).rd = registerField raw 11 := rfl
    rw [registerField_eq] at hrs hrt hrd
    unfold Mips.fields
    dsimp only
    rw [← hrs, ← hrt, ← hrd]
  have hextra := decode_extra raw (by simp [hop])
  have hshamt : (Mips.fields raw).shamt < 32 := (raw.extractLsb' 6 5).isLt
  have hfetched : Fetched m (decode raw) := ⟨hzero, hload, raw, m₁, hfetch, rfl⟩
  rw [and_iff_right hsame]
  rw [hinstr] at hfetched ⊢
  exact endsAs_step_iff hfetched hshamt hextra hop hdefined

/-- A machine at one instruction. -/
def atInstruction (registers : List (Register × Word)) (bytes : List Byte) : Machine where
  registers := registers.foldl (fun file entry => Function.update file entry.1 entry.2)
    (Function.update (fun _ => 0) nextPCReg 4)
  mainMemory := fun a => bytes.getD a 0
  pageTable := some [⟨0, 0, true, false, false, false⟩]
  pageTableSize := 1
  overflowed := false

/-- `ADDI r3, r1, -1` with 1 in `r1`. -/
theorem oneInstruction_architecture_iff_addi :
    (Mips.mnemonic 0x2023ffff = some .addi ∧
        EndsAs (atInstruction [(1, 1)] [0xff, 0xff, 0x23, 0x20]) rfl
          (Mips.step .addi (Mips.fields 0x2023ffff)
            (visible (atInstruction [(1, 1)] [0xff, 0xff, 0x23, 0x20]).registers rfl))) ↔
      MeetsManual (decode 0x2023ffff) (atInstruction [(1, 1)] [0xff, 0xff, 0x23, 0x20]).registers :=
  oneInstruction_architecture_iff rfl rfl rfl rfl trivial

/-- `OR r3, r1, r2` with 1 and 2 in the operands leaves 1 in `r3`: the second operand is never
read. -/
theorem oneInstruction_not_architecture :
    ∃ (m : Machine) (raw : Word) (hzero : m.registers 0 = 0), (∃ m₁,
        readMem (m.registers pcReg) 4 m = .ok raw m₁) ∧ m.registers loadReg = 0 ∧
      (decode raw).opCode.mnemonic = some .or ∧
      Mips.Defined .or (Mips.fields raw) (visible m.registers hzero) ∧
      ¬ EndsAs m hzero (Mips.step .or (Mips.fields raw) (visible m.registers hzero)) := by
  refine ⟨atInstruction [(1, 1), (2, 2)] [0x25, 0x18, 0x22, 0x00], 0x00221825, rfl, ⟨_, rfl⟩, rfl,
    rfl, trivial, ?_⟩
  have hrun : ∃ m', oneInstruction (atInstruction [(1, 1), (2, 2)] [0x25, 0x18, 0x22, 0x00]) =
      .ok () m' ∧ m'.registers 3 = 1 := ⟨_, rfl, by decide +kernel⟩
  obtain ⟨m', hrun, hone⟩ := hrun
  rintro ⟨m'', hzero'', hend, hvisible⟩
  obtain rfl : m' = m'' := by
    rw [hrun] at hend
    cases hend
    rfl
  have hthree : m'.registers 3 = 3 := congrArg (fun s => s.gpr 3) hvisible
  rw [hone] at hthree
  exact absurd hthree (by decide)

end Opcodes

end Machine

end Nachos
