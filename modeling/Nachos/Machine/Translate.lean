import Mathlib.Data.BitVec
import Mathlib.Logic.Function.Basic
import Nachos.Lib.StateRules

/-!
# The simulated machine and its memory

This module embeds `class Machine` and `machine/translate.cc`: the registers,
the physical memory, the page table the machine points to, and `Translate`,
`ReadMem` and `WriteMem`, as the system is built for user programs: there is no
TLB, and the host stores the high byte of an `int` first, so that `WordToHost`
turns the bytes around.

An `int` is its 32 bits.  Code of the machine is a program over `EStateM`: it
returns, or it leaves by a `Trap`.  `RaiseException` is such an exit, because
nothing behind its call is carried out: the kernel halts the machine on every
exception but a system call, and behind a system call `OneInstruction` returns.
`overflowed` is a ghost: it records that an operation on `int` left the range of
the type, which C++ leaves undefined and the host answers with the low 32 bits.
-/

namespace Nachos

abbrev Byte := BitVec 8
abbrev Word := BitVec 32

/-- `PageSize`, the size of a disk sector. -/
def pageSize : Nat := 128

/-- `NumPhysPages`. -/
def numPhysPages : Nat := 4096

/-- `MemorySize`. -/
def memorySize : Nat := numPhysPages * pageSize

/-- `NumTotalRegs`. -/
abbrev numTotalRegs : Nat := 40

abbrev Register := Fin numTotalRegs

instance : NeZero numTotalRegs := ⟨by decide⟩

/-- `StackReg`, `HiReg`, `LoReg`, `PCReg`, `NextPCReg`, `PrevPCReg`, `LoadReg`,
`LoadValueReg` and `BadVAddrReg`. -/
def stackReg : Register := 29
def hiReg : Register := 32
def loReg : Register := 33
def pcReg : Register := 34
def nextPCReg : Register := 35
def prevPCReg : Register := 36
def loadReg : Register := 37
def loadValueReg : Register := 38
def badVAddrReg : Register := 39

abbrev Registers := Register → Word

/-- `enum ExceptionType`, without `NoException`. -/
inductive ExceptionType
  | syscallException
  | pageFaultException
  | readOnlyException
  | busErrorException
  | addressErrorException
  | overflowException
  | illegalInstrException
  deriving DecidableEq, Repr

/-- `class TranslationEntry`. -/
structure TranslationEntry where
  virtualPage : Int
  physicalPage : Int
  valid : Bool
  readOnly : Bool
  use : Bool
  dirty : Bool
  deriving DecidableEq, Repr

abbrev Memory := Nat → Byte

/-- `class Machine`.  The page table is the array the pointer refers to. -/
structure Machine where
  registers : Registers
  mainMemory : Memory
  pageTable : Option (List TranslationEntry)
  pageTableSize : Nat
  overflowed : Bool

/-- Why the code of the machine does not go on. -/
inductive Trap
  /-- `RaiseException`: the kernel takes over. -/
  | exception (which : ExceptionType)
  | assertFailed
  /-- The host has no meaning for the operation. -/
  | undefined
  deriving DecidableEq, Repr

/-- `WordToHost` and `WordToMachine`. -/
def wordToHost (word : Word) : Word :=
  word.extractLsb' 0 8 ++ word.extractLsb' 8 8 ++ word.extractLsb' 16 8 ++ word.extractLsb' 24 8

/-- `ShortToHost` and `ShortToMachine`. -/
def shortToHost (shortword : BitVec 16) : BitVec 16 :=
  shortword.extractLsb' 0 8 ++ shortword.extractLsb' 8 8

namespace Memory

/-- `*(unsigned int *) &mainMemory[a]`. -/
def loadInt (mem : Memory) (a : Nat) : Word :=
  mem a ++ mem (a + 1) ++ mem (a + 2) ++ mem (a + 3)

/-- `*(unsigned short *) &mainMemory[a]`. -/
def loadShort (mem : Memory) (a : Nat) : BitVec 16 :=
  mem a ++ mem (a + 1)

/-- Assign to a byte. -/
def storeByte (mem : Memory) (a : Nat) (value : Byte) : Memory :=
  Function.update mem a value

/-- `*(unsigned short *) &mainMemory[a] = value`. -/
def storeShort (mem : Memory) (a : Nat) (value : BitVec 16) : Memory :=
  (mem.storeByte a (value.extractLsb' 8 8)).storeByte (a + 1) (value.extractLsb' 0 8)

/-- `*(unsigned int *) &mainMemory[a] = value`. -/
def storeInt (mem : Memory) (a : Nat) (value : Word) : Memory :=
  (((mem.storeByte a (value.extractLsb' 24 8)).storeByte (a + 1)
    (value.extractLsb' 16 8)).storeByte (a + 2) (value.extractLsb' 8 8)).storeByte (a + 3)
    (value.extractLsb' 0 8)

end Memory

namespace Machine

/-- Code of the machine. -/
abbrev Code := EStateM Trap Machine

/-- `registers[num]`. -/
def readRegister (num : Register) : Code Word := fun m => .ok (m.registers num) m

/-- `registers[num] = value`. -/
def writeRegister (num : Register) (value : Word) : Code Unit := fun m =>
  .ok () { m with registers := Function.update m.registers num value }

/-- `Machine::DelayedLoad`. -/
def delayedLoad (nextReg nextValue : Word) : Code Unit := fun m =>
  if h : (m.registers loadReg).toNat < numTotalRegs then
    let loaded := Function.update m.registers ⟨(m.registers loadReg).toNat, h⟩
      (m.registers loadValueReg)
    .ok () { m with
      registers := Function.update (Function.update (Function.update loaded loadReg nextReg)
        loadValueReg nextValue) 0 0 }
  else .error .undefined m

/-- `Machine::RaiseException` up to its call of `ExceptionHandler`. -/
def raiseException {α : Type} (which : ExceptionType) (badVAddr : Word) : Code α := do
  writeRegister badVAddrReg badVAddr
  delayedLoad 0 0
  throw (.exception which)

/-- `Machine::Translate`: the physical address, or the exception. -/
def translate (virtAddr : Word) (size : Nat) (writing : Bool) :
    Code (Except ExceptionType Nat) := fun m =>
  if (size = 4 ∧ virtAddr &&& 3 ≠ 0) ∨ (size = 2 ∧ virtAddr &&& 1 ≠ 0) then
    .ok (.error .addressErrorException) m
  else
    match m.pageTable with
    | none => .error .assertFailed m
    | some table =>
        let vpn := virtAddr.toNat / pageSize
        let offset := virtAddr.toNat % pageSize
        if m.pageTableSize ≤ vpn then .ok (.error .addressErrorException) m
        else
          match table[vpn]? with
          | none => .error .undefined m
          | some entry =>
              if ¬ entry.valid then .ok (.error .pageFaultException) m
              else if entry.readOnly ∧ writing then .ok (.error .readOnlyException) m
              else
                let pageFrame := (entry.physicalPage % 2 ^ 32).toNat
                if numPhysPages ≤ pageFrame then .ok (.error .busErrorException) m
                else
                  let physAddr := pageFrame * pageSize + offset
                  let m' := { m with
                    pageTable := some (table.set vpn { entry with
                      use := true
                      dirty := entry.dirty || writing }) }
                  if physAddr + size ≤ memorySize then .ok (.ok physAddr) m'
                  else .error .assertFailed m'

/-- `Machine::ReadMem`.  A `char` is signed. -/
def readMem (addr : Word) (size : Nat) : Code Word := do
  match ← translate addr size false with
  | .error which => raiseException which addr
  | .ok physicalAddress =>
      let mem := (← get).mainMemory
      match size with
      | 1 => return (mem physicalAddress).signExtend 32
      | 2 => return (shortToHost (mem.loadShort physicalAddress)).setWidth 32
      | 4 => return wordToHost (mem.loadInt physicalAddress)
      | _ => throw .assertFailed

/-- `Machine::WriteMem`. -/
def writeMem (addr : Word) (size : Nat) (value : Word) : Code Unit := do
  match ← translate addr size true with
  | .error which => raiseException which addr
  | .ok physicalAddress =>
      let mem := (← get).mainMemory
      match size with
      | 1 => modify fun m => { m with
          mainMemory := mem.storeByte physicalAddress (value.setWidth 8) }
      | 2 => modify fun m => { m with
          mainMemory := mem.storeShort physicalAddress (shortToHost (value.setWidth 16)) }
      | 4 => modify fun m => { m with
          mainMemory := mem.storeInt physicalAddress (wordToHost value) }
      | _ => throw .assertFailed

end Machine

end Nachos
