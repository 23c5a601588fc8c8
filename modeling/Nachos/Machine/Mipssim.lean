import Nachos.Machine.Translate

/-!
# The instruction set

This module embeds `machine/mipssim.cc` and the tables of `machine/mipssim.h`:
`Instruction::Decode`, `Mult` and `Machine::OneInstruction`.

Sums and differences of `int` go through `intAdd` and `intSub`, which keep the
low 32 bits and note an overflow.  A left shift works on the bit pattern and a
right shift keeps the sign.  The least `int` divided by -1 has no result the
host could answer with: `OneInstruction` ends there.
-/

namespace Nachos

/-- The `OP_` constants, with `SPECIAL` and `BCOND`. -/
inductive OpCode
  | add | addi | addiu | addu | and | andi
  | beq | bgez | bgezal | bgtz | blez | bltz | bltzal | bne
  | div | divu | j | jal | jalr | jr
  | lb | lbu | lh | lhu | lui | lw | lwl | lwr
  | mfhi | mflo | mthi | mtlo | mult | multu
  | nor | or | ori | rfe | sb | sh | sll | sllv
  | slt | slti | sltiu | sltu | sra | srav | srl | srlv
  | sub | subu | sw | swl | swr | xor | xori
  | syscall | unimp | res
  | special | bcond
  deriving DecidableEq, Repr

/-- `IFMT`, `JFMT` and `RFMT`. -/
inductive Format
  | ifmt
  | jfmt
  | rfmt
  deriving DecidableEq, Repr

/-- `struct OpInfo`. -/
structure OpInfo where
  opCode : OpCode
  format : Format
  deriving DecidableEq, Repr

/-- `opTable`. -/
def opTable : List OpInfo :=
  [⟨.special, .rfmt⟩, ⟨.bcond, .ifmt⟩, ⟨.j, .jfmt⟩, ⟨.jal, .jfmt⟩,
    ⟨.beq, .ifmt⟩, ⟨.bne, .ifmt⟩, ⟨.blez, .ifmt⟩, ⟨.bgtz, .ifmt⟩,
    ⟨.addi, .ifmt⟩, ⟨.addiu, .ifmt⟩, ⟨.slti, .ifmt⟩, ⟨.sltiu, .ifmt⟩,
    ⟨.andi, .ifmt⟩, ⟨.ori, .ifmt⟩, ⟨.xori, .ifmt⟩, ⟨.lui, .ifmt⟩,
    ⟨.unimp, .ifmt⟩, ⟨.unimp, .ifmt⟩, ⟨.unimp, .ifmt⟩, ⟨.unimp, .ifmt⟩,
    ⟨.res, .ifmt⟩, ⟨.res, .ifmt⟩, ⟨.res, .ifmt⟩, ⟨.res, .ifmt⟩,
    ⟨.res, .ifmt⟩, ⟨.res, .ifmt⟩, ⟨.res, .ifmt⟩, ⟨.res, .ifmt⟩,
    ⟨.res, .ifmt⟩, ⟨.res, .ifmt⟩, ⟨.res, .ifmt⟩, ⟨.res, .ifmt⟩,
    ⟨.lb, .ifmt⟩, ⟨.lh, .ifmt⟩, ⟨.lwl, .ifmt⟩, ⟨.lw, .ifmt⟩,
    ⟨.lbu, .ifmt⟩, ⟨.lhu, .ifmt⟩, ⟨.lwr, .ifmt⟩, ⟨.res, .ifmt⟩,
    ⟨.sb, .ifmt⟩, ⟨.sh, .ifmt⟩, ⟨.swl, .ifmt⟩, ⟨.sw, .ifmt⟩,
    ⟨.res, .ifmt⟩, ⟨.res, .ifmt⟩, ⟨.swr, .ifmt⟩, ⟨.res, .ifmt⟩,
    ⟨.unimp, .ifmt⟩, ⟨.unimp, .ifmt⟩, ⟨.unimp, .ifmt⟩, ⟨.unimp, .ifmt⟩,
    ⟨.res, .ifmt⟩, ⟨.res, .ifmt⟩, ⟨.res, .ifmt⟩, ⟨.res, .ifmt⟩,
    ⟨.unimp, .ifmt⟩, ⟨.unimp, .ifmt⟩, ⟨.unimp, .ifmt⟩, ⟨.unimp, .ifmt⟩,
    ⟨.res, .ifmt⟩, ⟨.res, .ifmt⟩, ⟨.res, .ifmt⟩, ⟨.res, .ifmt⟩]

/-- `specialTable`. -/
def specialTable : List OpCode :=
  [.sll, .res, .srl, .sra, .sllv, .res, .srlv, .srav,
    .jr, .jalr, .res, .res, .syscall, .unimp, .res, .res,
    .mfhi, .mthi, .mflo, .mtlo, .res, .res, .res, .res,
    .mult, .multu, .div, .divu, .res, .res, .res, .res,
    .add, .addu, .sub, .subu, .and, .or, .xor, .nor,
    .res, .res, .slt, .sltu, .res, .res, .res, .res,
    .res, .res, .res, .res, .res, .res, .res, .res,
    .res, .res, .res, .res, .res, .res, .res, .res]

/-- `class Instruction`, decoded. -/
structure Instruction where
  opCode : OpCode
  rs : Register
  rt : Register
  rd : Register
  extra : Word
  deriving DecidableEq, Repr

/-- `(value >> shift) & 0x1f`, the number of a general register. -/
def registerField (value : Word) (shift : Nat) : Register :=
  ⟨((value >>> shift) &&& 0x1f).toNat, by
    have hbound : ((value >>> shift) &&& 0x1f).toNat ≤ 0x1f := by
      rw [BitVec.toNat_and]
      exact Nat.and_le_right
    exact Nat.lt_of_le_of_lt hbound (by decide)⟩

/-- `Instruction::Decode`. -/
def decode (value : Word) : Instruction :=
  let info := opTable.getD ((value >>> 26) &&& 0x3f).toNat ⟨.res, .ifmt⟩
  let extra :=
    match info.format with
    | .ifmt =>
        if value &&& 0x8000 ≠ 0 then (value &&& 0xffff) ||| 0xffff0000 else value &&& 0xffff
    | .rfmt => (value >>> 6) &&& 0x1f
    | .jfmt => value &&& 0x3ffffff
  let opCode :=
    match info.opCode with
    | .special => specialTable.getD (value &&& 0x3f).toNat .res
    | .bcond =>
        let i := value &&& 0x1f0000
        if i = 0 then .bltz
        else if i = 0x10000 then .bgez
        else if i = 0x100000 then .bltzal
        else if i = 0x110000 then .bgezal
        else .unimp
    | op => op
  ⟨opCode, registerField value 21, registerField value 16, registerField value 11, extra⟩

/-- `IndexToAddr`. -/
def indexToAddr (x : Word) : Word := x <<< 2

/-- `SIGN_BIT` is set. -/
def isNegative (x : Word) : Prop := x &&& 0x80000000 ≠ 0

instance (x : Word) : Decidable (isNegative x) :=
  inferInstanceAs (Decidable (_ ≠ _))

/-- The register `R31`. -/
def r31 : Register := 31

/-- The loop of `Mult`, with `fuel` rounds to go: the words `hi` and `lo`. -/
def multLoop : Nat → Word → Word → Word → Word → Word → Word × Word
  | 0, _, _, _, lo, hi => (hi, lo)
  | fuel + 1, a, bLo, bHi, lo, hi =>
      let bHi' := if bLo &&& 0x80000000 ≠ 0 then (bHi <<< 1) ||| 1 else bHi <<< 1
      if a &&& 1 ≠ 0 then
        let lo' := lo + bLo
        let hi' := (if lo' < bLo then hi + 1 else hi) + bHi
        if a &&& 0xfffffffe = 0 then (hi', lo')
        else multLoop fuel (a.sshiftRight 1) (bLo <<< 1) bHi' lo' hi'
      else multLoop fuel (a.sshiftRight 1) (bLo <<< 1) bHi' lo hi

/-- The two's complement of the double word `hi`, `lo`, if the result is
negative. -/
def complementIf (negative : Bool) : Word × Word → Word × Word
  | (hi, lo) =>
      if negative then (if ~~~lo + 1 = 0 then ~~~hi + 1 else ~~~hi, ~~~lo + 1) else (hi, lo)

namespace Machine

/-- Note that an operation on `int` has left the range of the type. -/
def note (overflow : Bool) : Code Unit := fun m =>
  .ok () { m with overflowed := m.overflowed || overflow }

/-- `a + b`. -/
def intAdd (a b : Word) : Code Word := do
  note (a.saddOverflow b)
  return a + b

/-- `a - b`. -/
def intSub (a b : Word) : Code Word := do
  note (a.ssubOverflow b)
  return a - b

/-- `-a`. -/
def intNeg (a : Word) : Code Word := do
  note a.negOverflow
  return -a

/-- `a / b` and `a % b`, or 0 for both if `b` is 0. -/
def intDiv (a b : Word) : Code (Word × Word) :=
  if b = 0 then return (0, 0)
  else if a = BitVec.intMin 32 ∧ b = -1 then throw .undefined
  else return (a.sdiv b, a.srem b)

/-- `if (negate) a = -a`. -/
def negateIf (negate : Bool) (a : Word) : Code Word :=
  if negate then intNeg a else return a

/-- `Mult`: the words for `*hiPtr` and `*loPtr`. -/
def mult (a b : Word) (signedArith : Bool) : Code (Word × Word) := do
  if a = 0 ∨ b = 0 then return (0, 0)
  else
    let negateA := signedArith && a.slt 0
    let negateB := signedArith && b.slt 0
    let a' ← negateIf negateA a
    let b' ← negateIf negateB b
    return complementIf (negateA != negateB) (multLoop 32 a' b' 0 0 0)

/-- What the `switch` of `OneInstruction` leaves for the code behind it. -/
structure Next where
  pcAfter : Word
  nextLoadReg : Register
  nextLoadValue : Word
  deriving DecidableEq, Repr

/-- `registers[num] = value; break;`. -/
def assign (num : Register) (value pcAfter : Word) : Code Next := do
  writeRegister num value
  return ⟨pcAfter, 0, 0⟩

/-- The branch of a conditional jump. -/
def branch (taken : Prop) [Decidable taken] (extra pcAfter : Word) : Code Next := do
  if taken then
    let target ← intAdd (← readRegister nextPCReg) (indexToAddr extra)
    return ⟨target, 0, 0⟩
  else return ⟨pcAfter, 0, 0⟩

/-- `registers[num] = registers[NextPCReg] + 4`, in the jumps that link. -/
def link (num : Register) : Code Unit := do
  writeRegister num (← intAdd (← readRegister nextPCReg) 4)

/-- The end of a load: the value arrives one instruction later. -/
def deliver (rt : Register) (value pcAfter : Word) : Code Next :=
  return ⟨pcAfter, rt, value⟩

/-- `registers[rt]` with a load of it that is on its way. -/
def pendingValue (rt : Register) : Code Word := do
  if (← readRegister loadReg) = BitVec.ofNat 32 rt.val then readRegister loadValueReg
  else readRegister rt

/-- The `switch` of `OP_LWL`. -/
def mergeLeft (tmp old value : Word) : Word :=
  if tmp &&& 3 = 0 then value
  else if tmp &&& 3 = 1 then (old &&& 0xff) ||| (value <<< 8)
  else if tmp &&& 3 = 2 then (old &&& 0xffff) ||| (value <<< 16)
  else (old &&& 0xffffff) ||| (value <<< 24)

/-- The `switch` of `OP_LWR`. -/
def mergeRight (tmp old value : Word) : Word :=
  if tmp &&& 3 = 0 then (old &&& 0xffffff00) ||| ((value.sshiftRight 24) &&& 0xff)
  else if tmp &&& 3 = 1 then (old &&& 0xffff0000) ||| ((value.sshiftRight 16) &&& 0xffff)
  else if tmp &&& 3 = 2 then (old &&& 0xff000000) ||| ((value.sshiftRight 8) &&& 0xffffff)
  else value

/-- The `switch` of `OP_SWL`. -/
def splitLeft (tmp rt value : Word) : Word :=
  if tmp &&& 3 = 0 then rt
  else if tmp &&& 3 = 1 then (value &&& 0xff000000) ||| ((rt.sshiftRight 8) &&& 0xffffff)
  else if tmp &&& 3 = 2 then (value &&& 0xffff0000) ||| ((rt.sshiftRight 16) &&& 0xffff)
  else (value &&& 0xffffff00) ||| ((rt.sshiftRight 24) &&& 0xff)

/-- The `switch` of `OP_SWR`. -/
def splitRight (tmp rt value : Word) : Word :=
  if tmp &&& 3 = 0 then (value &&& 0xffffff) ||| (rt <<< 24)
  else if tmp &&& 3 = 1 then (value &&& 0xffff) ||| (rt <<< 16)
  else if tmp &&& 3 = 2 then (value &&& 0xff) ||| (rt <<< 8)
  else rt

/-- `ASSERT((tmp & 0x3) == 0)`. -/
def assertAligned (tmp : Word) : Code Unit :=
  if tmp &&& 3 = 0 then return () else throw .assertFailed

/-- The `switch` of `OneInstruction`. -/
def execute (instr : Instruction) (pcAfter : Word) : Code Next := do
  let rs ← readRegister instr.rs
  let rt ← readRegister instr.rt
  match instr.opCode with
  | .add =>
      let sum ← intAdd rs rt
      if ¬ isNegative (rs ^^^ rt) ∧ isNegative (rs ^^^ sum) then
        raiseException .overflowException 0
      else assign instr.rd sum pcAfter
  | .addi =>
      let sum ← intAdd rs instr.extra
      if ¬ isNegative (rs ^^^ instr.extra) ∧ isNegative (instr.extra ^^^ sum) then
        raiseException .overflowException 0
      else assign instr.rt sum pcAfter
  | .addiu => assign instr.rt (← intAdd rs instr.extra) pcAfter
  | .addu => assign instr.rd (← intAdd rs rt) pcAfter
  | .and => assign instr.rd (rs &&& rt) pcAfter
  | .andi => assign instr.rt (rs &&& (instr.extra &&& 0xffff)) pcAfter
  | .beq => branch (rs = rt) instr.extra pcAfter
  | .bgezal =>
      link r31
      branch (¬ isNegative (← readRegister instr.rs)) instr.extra pcAfter
  | .bgez => branch (¬ isNegative rs) instr.extra pcAfter
  | .bgtz => branch (BitVec.slt 0 rs) instr.extra pcAfter
  | .blez => branch (BitVec.sle rs 0) instr.extra pcAfter
  | .bltzal =>
      link r31
      branch (isNegative (← readRegister instr.rs)) instr.extra pcAfter
  | .bltz => branch (isNegative rs) instr.extra pcAfter
  | .bne => branch (rs ≠ rt) instr.extra pcAfter
  | .div =>
      let (quotient, remainder) ← intDiv rs rt
      writeRegister loReg quotient
      assign hiReg remainder pcAfter
  | .divu =>
      writeRegister loReg (if rt = 0 then 0 else rs / rt)
      assign hiReg (if rt = 0 then 0 else rs % rt) pcAfter
  | .jal =>
      link r31
      return ⟨(pcAfter &&& 0xf0000000) ||| indexToAddr instr.extra, 0, 0⟩
  | .j => return ⟨(pcAfter &&& 0xf0000000) ||| indexToAddr instr.extra, 0, 0⟩
  | .jalr =>
      link instr.rd
      return ⟨← readRegister instr.rs, 0, 0⟩
  | .jr => return ⟨rs, 0, 0⟩
  | .lb =>
      let value ← readMem (← intAdd rs instr.extra) 1
      deliver instr.rt (if value &&& 0x80 ≠ 0 then value ||| 0xffffff00 else value &&& 0xff)
        pcAfter
  | .lbu =>
      let value ← readMem (← intAdd rs instr.extra) 1
      deliver instr.rt (value &&& 0xff) pcAfter
  | .lh =>
      let tmp ← intAdd rs instr.extra
      if tmp &&& 1 ≠ 0 then raiseException .addressErrorException tmp
      else
        let value ← readMem tmp 2
        deliver instr.rt
          (if value &&& 0x8000 ≠ 0 then value ||| 0xffff0000 else value &&& 0xffff) pcAfter
  | .lhu =>
      let tmp ← intAdd rs instr.extra
      if tmp &&& 1 ≠ 0 then raiseException .addressErrorException tmp
      else
        let value ← readMem tmp 2
        deliver instr.rt (value &&& 0xffff) pcAfter
  | .lui => assign instr.rt (instr.extra <<< 16) pcAfter
  | .lw =>
      let tmp ← intAdd rs instr.extra
      if tmp &&& 3 ≠ 0 then raiseException .addressErrorException tmp
      else deliver instr.rt (← readMem tmp 4) pcAfter
  | .lwl =>
      let tmp ← intAdd rs instr.extra
      assertAligned tmp
      let value ← readMem tmp 4
      deliver instr.rt (mergeLeft tmp (← pendingValue instr.rt) value) pcAfter
  | .lwr =>
      let tmp ← intAdd rs instr.extra
      assertAligned tmp
      let value ← readMem tmp 4
      deliver instr.rt (mergeRight tmp (← pendingValue instr.rt) value) pcAfter
  | .mfhi => assign instr.rd (← readRegister hiReg) pcAfter
  | .mflo => assign instr.rd (← readRegister loReg) pcAfter
  | .mthi => assign hiReg rs pcAfter
  | .mtlo => assign loReg rs pcAfter
  | .mult =>
      let (hi, lo) ← mult rs rt true
      writeRegister hiReg hi
      assign loReg lo pcAfter
  | .multu =>
      let (hi, lo) ← mult rs rt false
      writeRegister hiReg hi
      assign loReg lo pcAfter
  | .nor => assign instr.rd (~~~(rs ||| rt)) pcAfter
  -- the source reads `rs` twice here
  | .or => assign instr.rd (rs ||| rs) pcAfter
  | .ori => assign instr.rt (rs ||| (instr.extra &&& 0xffff)) pcAfter
  | .sb =>
      writeMem (← intAdd rs instr.extra) 1 rt
      return ⟨pcAfter, 0, 0⟩
  | .sh =>
      writeMem (← intAdd rs instr.extra) 2 rt
      return ⟨pcAfter, 0, 0⟩
  | .sll => assign instr.rd (rt <<< instr.extra.toNat) pcAfter
  | .sllv => assign instr.rd (rt <<< (rs &&& 0x1f).toNat) pcAfter
  | .slt => assign instr.rd (if rs.slt rt then 1 else 0) pcAfter
  | .slti => assign instr.rt (if rs.slt instr.extra then 1 else 0) pcAfter
  | .sltiu => assign instr.rt (if rs < instr.extra then 1 else 0) pcAfter
  | .sltu => assign instr.rd (if rs < rt then 1 else 0) pcAfter
  | .sra => assign instr.rd (rt.sshiftRight instr.extra.toNat) pcAfter
  | .srav => assign instr.rd (rt.sshiftRight (rs &&& 0x1f).toNat) pcAfter
  -- the source shifts an `int` here too
  | .srl => assign instr.rd (rt.sshiftRight instr.extra.toNat) pcAfter
  | .srlv => assign instr.rd (rt.sshiftRight (rs &&& 0x1f).toNat) pcAfter
  | .sub =>
      let diff ← intSub rs rt
      if isNegative (rs ^^^ rt) ∧ isNegative (rs ^^^ diff) then
        raiseException .overflowException 0
      else assign instr.rd diff pcAfter
  | .subu => assign instr.rd (← intSub rs rt) pcAfter
  | .sw =>
      writeMem (← intAdd rs instr.extra) 4 rt
      return ⟨pcAfter, 0, 0⟩
  | .swl =>
      let tmp ← intAdd rs instr.extra
      assertAligned tmp
      let value ← readMem (tmp &&& ~~~3) 4
      writeMem (tmp &&& ~~~3) 4 (splitLeft tmp rt value)
      return ⟨pcAfter, 0, 0⟩
  | .swr =>
      let tmp ← intAdd rs instr.extra
      assertAligned tmp
      let value ← readMem (tmp &&& ~~~3) 4
      writeMem (tmp &&& ~~~3) 4 (splitRight tmp rt value)
      return ⟨pcAfter, 0, 0⟩
  | .syscall => raiseException .syscallException 0
  | .xor => assign instr.rd (rs ^^^ rt) pcAfter
  | .xori => assign instr.rt (rs ^^^ (instr.extra &&& 0xffff)) pcAfter
  | .res => raiseException .illegalInstrException 0
  | .unimp => raiseException .illegalInstrException 0
  | _ => throw .assertFailed

/-- The end of `OneInstruction`: the load on its way arrives and the program
counters advance. -/
def advance (next : Next) : Code Unit := do
  delayedLoad (BitVec.ofNat 32 next.nextLoadReg.val) next.nextLoadValue
  writeRegister prevPCReg (← readRegister pcReg)
  writeRegister pcReg (← readRegister nextPCReg)
  writeRegister nextPCReg next.pcAfter

/-- `Machine::OneInstruction`. -/
def oneInstruction : Code Unit := do
  let raw ← readMem (← readRegister pcReg) 4
  let pcAfter ← intAdd (← readRegister nextPCReg) 4
  advance (← execute (decode raw) pcAfter)

end Machine

end Nachos
