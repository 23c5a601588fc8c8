import Mathlib.Data.BitVec
import Mathlib.Logic.Function.Basic

/-!
# The computational instructions of the MIPS-I architecture

The instructions that compute on registers, move `HI` and `LO`, branch or jump, as
the architecture manual defines them: from the fields of the instruction word, over
the numbers the registers stand for.  A result that is kept modulo `2 ^ 32` is `wrap`.
Branches and jumps take effect behind their delay slot, so that a state has two
program counters, and relative targets count from the delay slot.
-/

namespace Nachos
namespace Lib
namespace Mips

/-- The number of a general register. -/
abbrev Reg := Fin 32

instance neZeroReg : NeZero (32 : Nat) := ⟨by decide⟩

/-- The registers a program sees.  `r0` is always zero. -/
@[ext] structure State where
  gpr : Reg → BitVec 32
  hi : BitVec 32
  lo : BitVec 32
  pc : BitVec 32
  nextPC : BitVec 32
  zero : gpr 0 = 0

inductive Mnemonic
  | add | addi | addiu | addu | and | andi
  | beq | bgez | bgezal | bgtz | blez | bltz | bltzal | bne
  | div | divu | j | jal | jalr | jr | lui
  | mfhi | mflo | mthi | mtlo | mult | multu
  | nor | or | ori | sll | sllv | slt | slti | sltiu | sltu
  | sra | srav | srl | srlv | sub | subu | xor | xori
  deriving DecidableEq, Repr

/-- The fields of an instruction word. -/
structure Fields where
  rs : Reg
  rt : Reg
  rd : Reg
  shamt : Nat
  immediate : BitVec 16
  target : BitVec 26

def fields (word : BitVec 32) : Fields where
  rs := (word.extractLsb' 21 5).toFin
  rt := (word.extractLsb' 16 5).toFin
  rd := (word.extractLsb' 11 5).toFin
  shamt := (word.extractLsb' 6 5).toNat
  immediate := word.extractLsb' 0 16
  target := word.extractLsb' 0 26

/-- The field `funct` of the opcode `SPECIAL`. -/
def special : Nat → Option Mnemonic
  | 0x00 => some .sll
  | 0x02 => some .srl
  | 0x03 => some .sra
  | 0x04 => some .sllv
  | 0x06 => some .srlv
  | 0x07 => some .srav
  | 0x08 => some .jr
  | 0x09 => some .jalr
  | 0x10 => some .mfhi
  | 0x11 => some .mthi
  | 0x12 => some .mflo
  | 0x13 => some .mtlo
  | 0x18 => some .mult
  | 0x19 => some .multu
  | 0x1a => some .div
  | 0x1b => some .divu
  | 0x20 => some .add
  | 0x21 => some .addu
  | 0x22 => some .sub
  | 0x23 => some .subu
  | 0x24 => some .and
  | 0x25 => some .or
  | 0x26 => some .xor
  | 0x27 => some .nor
  | 0x2a => some .slt
  | 0x2b => some .sltu
  | _ => none

/-- The field `rt` of the opcode `REGIMM`. -/
def regimm : Nat → Option Mnemonic
  | 0x00 => some .bltz
  | 0x01 => some .bgez
  | 0x10 => some .bltzal
  | 0x11 => some .bgezal
  | _ => none

/-- The other opcodes. -/
def major : Nat → Option Mnemonic
  | 0x02 => some .j
  | 0x03 => some .jal
  | 0x04 => some .beq
  | 0x05 => some .bne
  | 0x06 => some .blez
  | 0x07 => some .bgtz
  | 0x08 => some .addi
  | 0x09 => some .addiu
  | 0x0a => some .slti
  | 0x0b => some .sltiu
  | 0x0c => some .andi
  | 0x0d => some .ori
  | 0x0e => some .xori
  | 0x0f => some .lui
  | _ => none

/-- The computational instruction a word is, if it is one. -/
def mnemonic (word : BitVec 32) : Option Mnemonic :=
  if (word.extractLsb' 26 6).toNat = 0 then special (word.extractLsb' 0 6).toNat
  else if (word.extractLsb' 26 6).toNat = 1 then regimm (word.extractLsb' 16 5).toNat
  else major (word.extractLsb' 26 6).toNat

/-- How an instruction ends: it is carried out, or raises an overflow exception and
leaves the registers alone. -/
inductive Outcome
  | retired (s : State)
  | overflow

/-- The word of a number. -/
def wrap (n : Int) : BitVec 32 := BitVec.ofInt 32 n

/-- The number has a word. -/
def Fits (n : Int) : Prop := -2 ^ 31 ≤ n ∧ n < 2 ^ 31

instance (n : Int) : Decidable (Fits n) := inferInstanceAs (Decidable (_ ∧ _))

namespace State

variable (s : State)

def write (r : Reg) (value : BitVec 32) : State :=
  if h : r = 0 then s
  else { s with
    gpr := Function.update s.gpr r value
    zero := (Function.update_of_ne (Ne.symm h) _ _).trans s.zero }

/-- The delay slot is next, and behind it `target`. -/
def goTo (target : BitVec 32) : State := { s with pc := s.nextPC, nextPC := target }

def advance : State := s.goTo (s.nextPC + 4)

/-- A branch counts from the delay slot, in words. -/
def branchTarget (offset : BitVec 16) : BitVec 32 := wrap (s.nextPC.toInt + 4 * offset.toInt)

/-- A jump stays in the region of `2 ^ 28` bytes of the delay slot. -/
def jumpTarget (target : BitVec 26) : BitVec 32 :=
  BitVec.ofNat 32 (s.nextPC.toNat / 2 ^ 28 * 2 ^ 28 + target.toNat * 4)

/-- The address behind the delay slot. -/
def returnAddress : BitVec 32 := s.nextPC + 4

theorem gpr_write (r q : Reg) (value : BitVec 32) :
    (s.write r value).gpr q = if q = r ∧ r ≠ 0 then value else s.gpr q := by
  unfold write
  by_cases hr : r = 0
  · rw [dif_pos hr, if_neg fun h => h.2 hr]
  · rw [dif_neg hr]
    dsimp only
    by_cases hq : q = r
    · rw [if_pos ⟨hq, hr⟩, hq, Function.update_self]
    · rw [if_neg fun h => hq h.1, Function.update_of_ne hq]

@[simp] theorem write_hi (r : Reg) (value : BitVec 32) : (s.write r value).hi = s.hi := by
  unfold write
  split
  · rfl
  · rfl

@[simp] theorem write_lo (r : Reg) (value : BitVec 32) : (s.write r value).lo = s.lo := by
  unfold write
  split
  · rfl
  · rfl

@[simp] theorem write_pc (r : Reg) (value : BitVec 32) : (s.write r value).pc = s.pc := by
  unfold write
  split
  · rfl
  · rfl

@[simp] theorem write_nextPC (r : Reg) (value : BitVec 32) :
    (s.write r value).nextPC = s.nextPC := by
  unfold write
  split
  · rfl
  · rfl

/-- Jumping and writing a register commute. -/
theorem goTo_write (r : Reg) (value target : BitVec 32) :
    (s.goTo target).write r value = (s.write r value).goTo target := by
  refine State.ext (funext fun q => ?_) ?_ ?_ ?_ ?_
  · rw [gpr_write]
    exact (gpr_write s r q value).symm
  all_goals simp [goTo]

/-- Write a register and go on. -/
def put (r : Reg) (value : BitVec 32) : Outcome := .retired (s.write r value).advance

/-- Write a number that has to fit. -/
def putFitting (r : Reg) (n : Int) : Outcome :=
  if Fits n then s.put r (wrap n) else .overflow

def putHiLo (hi lo : BitVec 32) : Outcome := .retired { s with hi := hi, lo := lo }.advance

def branch (taken : Prop) [Decidable taken] (offset : BitVec 16) : State :=
  if taken then s.goTo (s.branchTarget offset) else s.advance

end State

/-- Truth as a word. -/
def flag (p : Prop) [Decidable p] : BitVec 32 := if p then 1 else 0

/-- What an instruction does. -/
def step (op : Mnemonic) (f : Fields) (s : State) : Outcome :=
  let rs := s.gpr f.rs
  let rt := s.gpr f.rt
  match op with
  | .add => s.putFitting f.rd (rs.toInt + rt.toInt)
  | .addi => s.putFitting f.rt (rs.toInt + f.immediate.toInt)
  | .addiu => s.put f.rt (wrap (rs.toInt + f.immediate.toInt))
  | .addu => s.put f.rd (wrap (rs.toInt + rt.toInt))
  | .sub => s.putFitting f.rd (rs.toInt - rt.toInt)
  | .subu => s.put f.rd (wrap (rs.toInt - rt.toInt))
  | .and => s.put f.rd (rs &&& rt)
  | .andi => s.put f.rt (rs &&& f.immediate.setWidth 32)
  | .or => s.put f.rd (rs ||| rt)
  | .ori => s.put f.rt (rs ||| f.immediate.setWidth 32)
  | .xor => s.put f.rd (rs ^^^ rt)
  | .xori => s.put f.rt (rs ^^^ f.immediate.setWidth 32)
  | .nor => s.put f.rd (~~~(rs ||| rt))
  | .lui => s.put f.rt (BitVec.ofNat 32 (f.immediate.toNat * 2 ^ 16))
  | .sll => s.put f.rd (BitVec.ofNat 32 (rt.toNat * 2 ^ f.shamt))
  | .sllv => s.put f.rd (BitVec.ofNat 32 (rt.toNat * 2 ^ (rs.toNat % 32)))
  | .srl => s.put f.rd (BitVec.ofNat 32 (rt.toNat / 2 ^ f.shamt))
  | .srlv => s.put f.rd (BitVec.ofNat 32 (rt.toNat / 2 ^ (rs.toNat % 32)))
  | .sra => s.put f.rd (wrap (rt.toInt / 2 ^ f.shamt))
  | .srav => s.put f.rd (wrap (rt.toInt / 2 ^ (rs.toNat % 32)))
  | .slt => s.put f.rd (flag (rs.toInt < rt.toInt))
  | .slti => s.put f.rt (flag (rs.toInt < f.immediate.toInt))
  | .sltiu => s.put f.rt (flag (rs.toNat < (f.immediate.signExtend 32).toNat))
  | .sltu => s.put f.rd (flag (rs.toNat < rt.toNat))
  | .mult => s.putHiLo (wrap (rs.toInt * rt.toInt / 2 ^ 32)) (wrap (rs.toInt * rt.toInt))
  | .multu => s.putHiLo (BitVec.ofNat 32 (rs.toNat * rt.toNat / 2 ^ 32))
      (BitVec.ofNat 32 (rs.toNat * rt.toNat))
  | .div => s.putHiLo (wrap (rs.toInt.tmod rt.toInt)) (wrap (rs.toInt.tdiv rt.toInt))
  | .divu => s.putHiLo (BitVec.ofNat 32 (rs.toNat % rt.toNat))
      (BitVec.ofNat 32 (rs.toNat / rt.toNat))
  | .mfhi => s.put f.rd s.hi
  | .mflo => s.put f.rd s.lo
  | .mthi => s.putHiLo rs s.lo
  | .mtlo => s.putHiLo s.hi rs
  | .beq => .retired (s.branch (rs = rt) f.immediate)
  | .bne => .retired (s.branch (rs ≠ rt) f.immediate)
  | .blez => .retired (s.branch (rs.toInt ≤ 0) f.immediate)
  | .bgtz => .retired (s.branch (0 < rs.toInt) f.immediate)
  | .bltz => .retired (s.branch (rs.toInt < 0) f.immediate)
  | .bgez => .retired (s.branch (0 ≤ rs.toInt) f.immediate)
  | .bltzal => .retired ((s.branch (rs.toInt < 0) f.immediate).write 31 s.returnAddress)
  | .bgezal => .retired ((s.branch (0 ≤ rs.toInt) f.immediate).write 31 s.returnAddress)
  | .j => .retired (s.goTo (s.jumpTarget f.target))
  | .jal => .retired ((s.goTo (s.jumpTarget f.target)).write 31 s.returnAddress)
  | .jr => .retired (s.goTo rs)
  | .jalr => .retired ((s.goTo rs).write f.rd s.returnAddress)

/-- The operands for which the manual defines the instruction: it leaves open what a
division by zero yields, and what a jump or branch does that overwrites the register
it depends on. -/
def Defined (op : Mnemonic) (f : Fields) (s : State) : Prop :=
  match op with
  | .div | .divu => s.gpr f.rt ≠ 0
  | .jalr => f.rs ≠ f.rd
  | .bltzal | .bgezal => f.rs ≠ 31
  | _ => True

end Mips
end Lib
end Nachos
