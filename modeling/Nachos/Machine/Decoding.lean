import Nachos.Lib.Mips
import Nachos.Machine.Mipssim

/-!
# Decoding against the architecture manual

`Instruction::Decode` finds, for the opcodes that compute on registers, branch or jump,
the instruction the manual has for the word, and cuts the fields the manual cuts.  The
tables are compared entry by entry; the masks and shifts of the code are fields.
-/

namespace Nachos

open Lib

/-- The instruction of the manual an opcode stands for. -/
def OpCode.mnemonic : OpCode → Option Mips.Mnemonic
  | .add => some .add
  | .addi => some .addi
  | .addiu => some .addiu
  | .addu => some .addu
  | .and => some .and
  | .andi => some .andi
  | .beq => some .beq
  | .bgez => some .bgez
  | .bgezal => some .bgezal
  | .bgtz => some .bgtz
  | .blez => some .blez
  | .bltz => some .bltz
  | .bltzal => some .bltzal
  | .bne => some .bne
  | .div => some .div
  | .divu => some .divu
  | .j => some .j
  | .jal => some .jal
  | .jalr => some .jalr
  | .jr => some .jr
  | .lui => some .lui
  | .mfhi => some .mfhi
  | .mflo => some .mflo
  | .mthi => some .mthi
  | .mtlo => some .mtlo
  | .mult => some .mult
  | .multu => some .multu
  | .nor => some .nor
  | .or => some .or
  | .ori => some .ori
  | .sll => some .sll
  | .sllv => some .sllv
  | .slt => some .slt
  | .slti => some .slti
  | .sltiu => some .sltiu
  | .sltu => some .sltu
  | .sra => some .sra
  | .srav => some .srav
  | .srl => some .srl
  | .srlv => some .srlv
  | .sub => some .sub
  | .subu => some .subu
  | .xor => some .xor
  | .xori => some .xori
  | _ => none

section Decoding

/-- The masks of `Decode` cut fields. -/
theorem toNat_shift_mask (raw : Word) (shift width : Nat) (mask : Word)
    (hmask : mask.toNat = 2 ^ width - 1) :
    ((raw >>> shift) &&& mask).toNat = (raw.extractLsb' shift width).toNat := by
  rw [BitVec.toNat_and, BitVec.toNat_ushiftRight, hmask, Nat.and_two_pow_sub_one_eq_mod,
    BitVec.extractLsb'_toNat]

theorem toNat_mask (raw : Word) (width : Nat) (mask : Word) (hmask : mask.toNat = 2 ^ width - 1) :
    (raw &&& mask).toNat = (raw.extractLsb' 0 width).toNat := by
  rw [← toNat_shift_mask raw 0 width mask hmask, BitVec.ushiftRight_zero]

/-- A general register among the registers of the machine. -/
def gprOf (r : Mips.Reg) : Register := r.castLE (by decide)

theorem registerField_eq (raw : Word) (shift : Nat) :
    registerField raw shift = gprOf (raw.extractLsb' shift 5).toFin :=
  Fin.ext (toNat_shift_mask raw shift 5 0x1f rfl)

/-- The opcode field. -/
def major (raw : Word) : Nat := (raw.extractLsb' 26 6).toNat

theorem major_lt (raw : Word) : major raw < 64 := (raw.extractLsb' 26 6).isLt

/-- What `opTable` says of an opcode field. -/
theorem opTable_mnemonic : ∀ op < 64,
    ((opTable.getD op ⟨.res, .ifmt⟩).opCode = .special ↔ op = 0) ∧
    ((opTable.getD op ⟨.res, .ifmt⟩).opCode = .bcond ↔ op = 1) ∧
    (op ≠ 0 → op ≠ 1 → (opTable.getD op ⟨.res, .ifmt⟩).opCode.mnemonic = Mips.major op) := by
  decide

theorem specialTable_mnemonic : ∀ funct < 64,
    (specialTable.getD funct .res).mnemonic = Mips.special funct := by
  decide

/-- The conditional branches on the sign, by the field `rt`. -/
def bcondOp (k : Nat) : OpCode :=
  if k = 0 then .bltz
  else if k = 1 then .bgez
  else if k = 16 then .bltzal
  else if k = 17 then .bgezal
  else .unimp

theorem bcondOp_mnemonic : ∀ k < 32, (bcondOp k).mnemonic = Mips.regimm k := by
  decide

/-- A mask that leaves a field in place. -/
theorem and_shifted_mask (x mask shift : Nat) :
    x &&& (mask <<< shift) = ((x >>> shift) &&& mask) <<< shift := by
  refine Nat.eq_of_testBit_eq fun i => ?_
  simp only [Nat.testBit_and, Nat.testBit_shiftLeft, Nat.testBit_shiftRight]
  by_cases hi : shift ≤ i
  · simp [hi, Nat.add_sub_cancel' hi]
  · simp [hi]

/-- `value & 0x1f0000` is the field `rt` in place. -/
theorem toNat_and_rt (raw : Word) :
    (raw &&& 0x1f0000).toNat = (raw.extractLsb' 16 5).toNat * 2 ^ 16 := by
  have hmask : (0x1f0000 : Word).toNat = 0x1f <<< 16 := rfl
  have hfield : (raw.extractLsb' 16 5).toNat = (raw.toNat >>> 16) &&& 0x1f := by
    rw [← toNat_shift_mask raw 16 5 0x1f rfl, BitVec.toNat_and, BitVec.toNat_ushiftRight]
    rfl
  rw [hfield, BitVec.toNat_and, hmask, and_shifted_mask, Nat.shiftLeft_eq]

/-- The opcode of a word, by its fields. -/
theorem decode_opCode (raw : Word) : (decode raw).opCode =
    if major raw = 0 then specialTable.getD (raw.extractLsb' 0 6).toNat .res
    else if major raw = 1 then bcondOp (raw.extractLsb' 16 5).toNat
    else (opTable.getD (major raw) ⟨.res, .ifmt⟩).opCode := by
  have hop : ((raw >>> 26) &&& 0x3f).toNat = major raw := toNat_shift_mask raw 26 6 0x3f rfl
  have hfunct : (raw &&& 0x3f).toNat = (raw.extractLsb' 0 6).toNat := toNat_mask raw 6 0x3f rfl
  have hrt (k : Nat) (word : Word) (hword : word.toNat = k * 2 ^ 16) :
      raw &&& 0x1f0000 = word ↔ (raw.extractLsb' 16 5).toNat = k := by
    rw [← BitVec.toNat_inj, toNat_and_rt, hword]
    omega
  obtain ⟨hspecial, hbcond, -⟩ := opTable_mnemonic (major raw) (major_lt raw)
  unfold decode
  dsimp only
  rw [hop, hfunct]
  by_cases hzero : major raw = 0
  · rw [if_pos hzero, hspecial.mpr hzero]
  · rw [if_neg hzero]
    by_cases hone : major raw = 1
    · rw [if_pos hone, hbcond.mpr hone]
      unfold bcondOp
      simp only [hrt 0 0 rfl, hrt 1 0x10000 rfl, hrt 16 0x100000 rfl, hrt 17 0x110000 rfl]
    · rw [if_neg hone]
      split
      · rename_i heq
        exact absurd (hspecial.mp heq) hzero
      · rename_i heq
        exact absurd (hbcond.mp heq) hone
      · rfl

/-- `Decode` finds the instruction the manual has for the word. -/
theorem mnemonic_decode (raw : Word) :
    Mips.mnemonic raw = (decode raw).opCode.mnemonic := by
  obtain ⟨-, -, hother⟩ := opTable_mnemonic (major raw) (major_lt raw)
  have hmanual : Mips.mnemonic raw =
      if major raw = 0 then Mips.special (raw.extractLsb' 0 6).toNat
      else if major raw = 1 then Mips.regimm (raw.extractLsb' 16 5).toNat
      else Mips.major (major raw) := rfl
  rw [decode_opCode, hmanual]
  by_cases hzero : major raw = 0
  · rw [if_pos hzero, if_pos hzero]
    exact (specialTable_mnemonic _ (raw.extractLsb' 0 6).isLt).symm
  · rw [if_neg hzero, if_neg hzero]
    by_cases hone : major raw = 1
    · rw [if_pos hone, if_pos hone]
      exact (bcondOp_mnemonic _ (raw.extractLsb' 16 5).isLt).symm
    · rw [if_neg hone, if_neg hone]
      exact (hother hzero hone).symm

/-- The format the manual has for the instruction. -/
def OpCode.format : OpCode → Format
  | .j | .jal => .jfmt
  | .add | .addu | .and | .div | .divu | .jalr | .jr | .mfhi | .mflo | .mthi | .mtlo | .mult
  | .multu | .nor | .or | .sll | .sllv | .slt | .sltu | .sra | .srav | .srl | .srlv | .sub
  | .subu | .xor => .rfmt
  | _ => .ifmt

theorem opTable_format : ∀ op < 64,
    (op = 0 → (opTable.getD op ⟨.res, .ifmt⟩).format = .rfmt) ∧
    (op = 1 → (opTable.getD op ⟨.res, .ifmt⟩).format = .ifmt) ∧
    (op ≠ 0 → op ≠ 1 → (opTable.getD op ⟨.res, .ifmt⟩).opCode.mnemonic ≠ none →
      (opTable.getD op ⟨.res, .ifmt⟩).format =
        (opTable.getD op ⟨.res, .ifmt⟩).opCode.format) := by
  decide

theorem specialTable_format : ∀ funct < 64, (specialTable.getD funct .res).mnemonic ≠ none →
    (specialTable.getD funct .res).format = .rfmt := by
  decide

theorem bcondOp_format : ∀ k < 32, (bcondOp k).format = .ifmt := by
  decide

theorem format_decode (raw : Word) (h : (decode raw).opCode.mnemonic ≠ none) :
    (opTable.getD (major raw) ⟨.res, .ifmt⟩).format = (decode raw).opCode.format := by
  obtain ⟨hspecial, hbcond, hother⟩ := opTable_format (major raw) (major_lt raw)
  rw [decode_opCode] at h ⊢
  by_cases hzero : major raw = 0
  · rw [if_pos hzero] at h ⊢
    rw [hspecial hzero, specialTable_format _ (raw.extractLsb' 0 6).isLt h]
  · rw [if_neg hzero] at h ⊢
    by_cases hone : major raw = 1
    · rw [if_pos hone, hbcond hone, bcondOp_format _ (raw.extractLsb' 16 5).isLt]
    · rw [if_neg hone] at h ⊢
      exact hother hzero hone h

/-- A mask of one bit. -/
theorem and_bit_ne_zero (x : Word) {mask : Word} {i : Nat} (hmask : mask = BitVec.twoPow 32 i)
    (hne : mask ≠ 0) : x &&& mask ≠ 0 ↔ x.getLsbD i = true := by
  rw [hmask] at hne ⊢
  rw [BitVec.and_twoPow]
  cases x.getLsbD i with
  | false => simp
  | true => exact iff_of_true hne rfl

/-- Setting the high bits of a negative number extends its sign. -/
theorem signExtend_fields (raw : Word) :
    (if raw &&& 0x8000 ≠ 0 then (raw &&& 0xffff) ||| 0xffff0000 else raw &&& 0xffff) =
      (raw.extractLsb' 0 16).signExtend 32 := by
  have hbit := and_bit_ne_zero raw (show (0x8000 : Word) = BitVec.twoPow 32 15 from rfl) (by decide)
  have hmsb : (raw.extractLsb' 0 16).msb = raw.getLsbD 15 := by
    rw [BitVec.msb_eq_getLsbD_last, BitVec.getLsbD_extractLsb']
    rfl
  have hlow : ∀ i : Fin 32, (0xffff : Word).getLsbD i.val = decide (i.val < 16) := by decide
  have hhigh : ∀ i : Fin 32, (0xffff0000 : Word).getLsbD i.val = decide (16 ≤ i.val) := by decide
  refine BitVec.eq_of_getLsbD_eq fun i hi => ?_
  have hlow' := hlow ⟨i, hi⟩
  have hhigh' := hhigh ⟨i, hi⟩
  rw [BitVec.getLsbD_signExtend, hmsb]
  cases hsign : raw.getLsbD 15 with
  | false =>
      rw [if_neg fun h => absurd ((hbit.mp h).symm.trans hsign) (by decide), BitVec.getLsbD_and, hlow']
      by_cases hle : i < 16
      · simp [hle, hi]
      · simp [hle]
  | true =>
      rw [if_pos (hbit.mpr hsign), BitVec.getLsbD_or, BitVec.getLsbD_and, hlow', hhigh']
      by_cases hle : i < 16
      · simp [hle, hi]
      · simp [hle, hi, Nat.le_of_not_lt hle]

/-- `extra` is the field of the format. -/
theorem decode_extra (raw : Word) (h : (decode raw).opCode.mnemonic ≠ none) :
    (decode raw).extra = match (decode raw).opCode.format with
      | .ifmt => (Mips.fields raw).immediate.signExtend 32
      | .rfmt => BitVec.ofNat 32 (Mips.fields raw).shamt
      | .jfmt => (Mips.fields raw).target.setWidth 32 := by
  have hop : ((raw >>> 26) &&& 0x3f).toNat = major raw := toNat_shift_mask raw 26 6 0x3f rfl
  have hextra : (decode raw).extra = match (opTable.getD (major raw) ⟨.res, .ifmt⟩).format with
      | .ifmt => if raw &&& 0x8000 ≠ 0 then (raw &&& 0xffff) ||| 0xffff0000 else raw &&& 0xffff
      | .rfmt => (raw >>> 6) &&& 0x1f
      | .jfmt => raw &&& 0x3ffffff := by
    rw [← hop]
    rfl
  rw [hextra, format_decode raw h]
  cases (decode raw).opCode.format with
  | ifmt => exact signExtend_fields raw
  | rfmt =>
      refine BitVec.eq_of_toNat_eq ?_
      rw [toNat_shift_mask raw 6 5 0x1f rfl, BitVec.toNat_ofNat]
      have hlt := (raw.extractLsb' 6 5).isLt
      exact (Nat.mod_eq_of_lt (by omega)).symm
  | jfmt =>
      refine BitVec.eq_of_toNat_eq ?_
      rw [toNat_mask raw 26 0x3ffffff rfl, BitVec.toNat_setWidth]
      have hlt := (raw.extractLsb' 0 26).isLt
      exact (Nat.mod_eq_of_lt (by omega)).symm

end Decoding

end Nachos
