import Nachos.Lib.LittleEndian
import Nachos.Machine.UserMemory

/-!
# Byte order of the host

`WordToHost` and `ShortToHost` turn the bytes around where `HOST_IS_BIG_ENDIAN`
is defined and do nothing elsewhere.  This module has `ReadMem` and `WriteMem`
for both kinds of host, and shows that a user program cannot tell which it runs
on: through `Translate` its memory is one array of bytes, and a number of two or
four bytes lies in it with the lowest byte first.
-/

namespace Nachos

/-- What the code of the machine depends on of the host: whether
`HOST_IS_BIG_ENDIAN` is defined, and whether a `char` is signed. -/
structure Host where
  bigEndian : Bool
  signedChar : Bool
  deriving DecidableEq, Repr

/-- The host of the other modules. -/
def bigEndianHost : Host := ⟨true, true⟩

namespace Host

/-- `WordToHost` and `WordToMachine`. -/
def wordToHost (host : Host) (word : Word) : Word :=
  if host.bigEndian then Nachos.wordToHost word else word

/-- `ShortToHost` and `ShortToMachine`. -/
def shortToHost (host : Host) (shortword : BitVec 16) : BitVec 16 :=
  if host.bigEndian then Nachos.shortToHost shortword else shortword

/-- `*(unsigned int *) &mainMemory[a]`. -/
def loadInt (host : Host) (mem : Memory) (a : Nat) : Word :=
  if host.bigEndian then mem.loadInt a else mem (a + 3) ++ mem (a + 2) ++ mem (a + 1) ++ mem a

/-- `*(unsigned short *) &mainMemory[a]`. -/
def loadShort (host : Host) (mem : Memory) (a : Nat) : BitVec 16 :=
  if host.bigEndian then mem.loadShort a else mem (a + 1) ++ mem a

/-- `mainMemory[a]` as an `int`. -/
def loadChar (host : Host) (mem : Memory) (a : Nat) : Word :=
  if host.signedChar then (mem a).signExtend 32 else (mem a).setWidth 32

/-- `*(unsigned short *) &mainMemory[a] = value`. -/
def storeShort (host : Host) (mem : Memory) (a : Nat) (value : BitVec 16) : Memory :=
  if host.bigEndian then mem.storeShort a value
  else (mem.storeByte a (value.extractLsb' 0 8)).storeByte (a + 1) (value.extractLsb' 8 8)

/-- `*(unsigned int *) &mainMemory[a] = value`. -/
def storeInt (host : Host) (mem : Memory) (a : Nat) (value : Word) : Memory :=
  if host.bigEndian then mem.storeInt a value
  else (((mem.storeByte a (value.extractLsb' 0 8)).storeByte (a + 1)
    (value.extractLsb' 8 8)).storeByte (a + 2) (value.extractLsb' 16 8)).storeByte (a + 3)
    (value.extractLsb' 24 8)

end Host

namespace Machine

open Lib

/-- `Machine::ReadMem`. -/
def readMemOn (host : Host) (addr : Word) (size : Nat) : Code Word := do
  match ← translate addr size false with
  | .error which => raiseException which addr
  | .ok physicalAddress =>
      let mem := (← get).mainMemory
      match size with
      | 1 => return host.loadChar mem physicalAddress
      | 2 => return (host.shortToHost (host.loadShort mem physicalAddress)).setWidth 32
      | 4 => return host.wordToHost (host.loadInt mem physicalAddress)
      | _ => throw .assertFailed

/-- `Machine::WriteMem`. -/
def writeMemOn (host : Host) (addr : Word) (size : Nat) (value : Word) : Code Unit := do
  match ← translate addr size true with
  | .error which => raiseException which addr
  | .ok physicalAddress =>
      let mem := (← get).mainMemory
      match size with
      | 1 => modify fun m => { m with
          mainMemory := mem.storeByte physicalAddress (value.setWidth 8) }
      | 2 => modify fun m => { m with
          mainMemory := host.storeShort mem physicalAddress
            (host.shortToHost (value.setWidth 16)) }
      | 4 => modify fun m => { m with
          mainMemory := host.storeInt mem physicalAddress (host.wordToHost value) }
      | _ => throw .assertFailed

/-- The accesses of the other modules are those of their host. -/
theorem readMemOn_bigEndianHost : readMemOn bigEndianHost = readMem := rfl

theorem writeMemOn_bigEndianHost : writeMemOn bigEndianHost = writeMem := rfl

end Machine

section Swaps

/-- A load of the host and the conversion behind it give the bytes lowest first,
on both kinds of host. -/
theorem Host.wordToHost_loadInt (host : Host) (mem : Memory) (a : Nat) :
    host.wordToHost (host.loadInt mem a) =
      mem (a + 3) ++ mem (a + 2) ++ mem (a + 1) ++ mem a := by
  unfold Host.wordToHost Host.loadInt
  split
  · unfold Nachos.wordToHost Memory.loadInt
    ext i hi
    simp only [BitVec.getElem_append, BitVec.getElem_extractLsb', BitVec.getLsbD_append]
    grind
  · rfl

theorem Host.shortToHost_loadShort (host : Host) (mem : Memory) (a : Nat) :
    host.shortToHost (host.loadShort mem a) = mem (a + 1) ++ mem a := by
  unfold Host.shortToHost Host.loadShort
  split
  · unfold Nachos.shortToHost Memory.loadShort
    ext i hi
    simp only [BitVec.getElem_append, BitVec.getElem_extractLsb', BitVec.getLsbD_append]
    grind
  · rfl

open Lib

private theorem toNat_append_add {n k : Nat} (high : BitVec n) (low : BitVec k) :
    (high ++ low).toNat = low.toNat + high.toNat * 2 ^ k := by
  rw [BitVec.toNat_append, ← Nat.shiftLeft_add_eq_or_of_lt low.isLt, Nat.shiftLeft_eq,
    Nat.add_comm]

/-- The bytes of the memory from an address on. -/
def Memory.bytesFrom (mem : Memory) (a : Nat) : Nat → Byte := fun i => mem (a + i)

theorem toNat_two_bytes (mem : Memory) (a : Nat) :
    (mem (a + 1) ++ mem a).toNat = littleEndian (mem.bytesFrom a) 2 := by
  simp only [littleEndian_succ, littleEndian_zero, toNat_append_add, Memory.bytesFrom,
    Nat.add_zero]
  omega

theorem toNat_four_bytes (mem : Memory) (a : Nat) :
    (mem (a + 3) ++ mem (a + 2) ++ mem (a + 1) ++ mem a).toNat =
      littleEndian (mem.bytesFrom a) 4 := by
  simp only [littleEndian_succ, littleEndian_zero, toNat_append_add, Memory.bytesFrom,
    Nat.add_zero]
  omega

/-- A `char` keeps its low byte, signed or not. -/
theorem Host.toNat_loadChar (host : Host) (mem : Memory) (a : Nat) :
    (host.loadChar mem a).toNat % 2 ^ 8 = littleEndian (mem.bytesFrom a) 1 := by
  have hlow : (host.loadChar mem a).setWidth 8 = mem a := by
    unfold Host.loadChar
    split
    · ext i hi
      simp only [BitVec.getElem_setWidth, BitVec.getLsbD_signExtend]
      simp [hi, show i < 32 by omega]
    · rw [BitVec.setWidth_setWidth_of_le _ (by omega), BitVec.setWidth_eq]
  have hnat := congrArg BitVec.toNat hlow
  rw [BitVec.toNat_setWidth] at hnat
  simp [littleEndian_succ, Memory.bytesFrom, hnat]

theorem toNat_extract_byte {w : Nat} (value : BitVec w) (i : Nat) :
    value.extractLsb' (8 * i) 8 = byteOf value.toNat i := by
  refine BitVec.eq_of_toNat_eq ?_
  rw [BitVec.extractLsb'_toNat, toNat_byteOf, Nat.shiftRight_eq_div_pow]

/-- Storing bytes one behind the other lays them over the memory. -/
theorem storeByte_overlay (mem : Memory) (a size value : Nat) :
    (Memory.storeByte (overlay mem a size value) (a + size) (byteOf value size)) =
      overlay mem a (size + 1) value := by
  funext l
  unfold Memory.storeByte
  by_cases hl : l = a + size
  · subst hl
    rw [Function.update_self, overlay_inside _ _ _ (Nat.lt_succ_self size)]
  · rw [Function.update_of_ne hl]
    unfold overlay
    by_cases hin : a ≤ l ∧ l < a + size
    · rw [if_pos hin, if_pos (by omega)]
    · rw [if_neg hin, if_neg (by omega)]

theorem overlay_none (mem : Memory) (a value : Nat) : overlay mem a 0 value = mem := by
  funext l
  exact overlay_outside _ _ (by omega)

/-- Four bytes stored in ascending order. -/
theorem storeBytes_four (mem : Memory) (a value : Nat) :
    (((mem.storeByte a (byteOf value 0)).storeByte (a + 1) (byteOf value 1)).storeByte (a + 2)
      (byteOf value 2)).storeByte (a + 3) (byteOf value 3) = overlay mem a 4 value := by
  have hzero := storeByte_overlay mem a 0 value
  rw [overlay_none, Nat.add_zero] at hzero
  rw [hzero, storeByte_overlay, storeByte_overlay, storeByte_overlay]

theorem storeBytes_two (mem : Memory) (a value : Nat) :
    (mem.storeByte a (byteOf value 0)).storeByte (a + 1) (byteOf value 1) =
      overlay mem a 2 value := by
  have hzero := storeByte_overlay mem a 0 value
  rw [overlay_none, Nat.add_zero] at hzero
  rw [hzero, storeByte_overlay]

theorem storeByte_one (mem : Memory) (a value : Nat) :
    mem.storeByte a (byteOf value 0) = overlay mem a 1 value := by
  have hzero := storeByte_overlay mem a 0 value
  rwa [overlay_none, Nat.add_zero] at hzero

/-- The bytes of a word that is put together of four. -/
theorem extract_four_bytes (b₃ b₂ b₁ b₀ : Byte) :
    (b₃ ++ b₂ ++ b₁ ++ b₀).extractLsb' 24 8 = b₃ ∧ (b₃ ++ b₂ ++ b₁ ++ b₀).extractLsb' 16 8 = b₂ ∧
    (b₃ ++ b₂ ++ b₁ ++ b₀).extractLsb' 8 8 = b₁ ∧ (b₃ ++ b₂ ++ b₁ ++ b₀).extractLsb' 0 8 = b₀ := by
  refine ⟨?_, ?_, ?_, ?_⟩
  all_goals
    ext i hi
    simp only [BitVec.getElem_extractLsb', BitVec.getLsbD_append]
    grind

/-- The conversion and a store of the host lay the bytes over the memory lowest
first, on both kinds of host. -/
theorem Host.storeInt_wordToHost (host : Host) (mem : Memory) (a : Nat) (value : Word) :
    host.storeInt mem a (host.wordToHost value) = overlay mem a 4 value.toNat := by
  rw [← storeBytes_four, ← toNat_extract_byte, ← toNat_extract_byte, ← toNat_extract_byte,
    ← toNat_extract_byte, Nat.mul_zero, Nat.mul_one]
  unfold Host.storeInt Host.wordToHost
  split
  · unfold Memory.storeInt Nachos.wordToHost
    obtain ⟨h₃, h₂, h₁, h₀⟩ := extract_four_bytes (value.extractLsb' 0 8)
      (value.extractLsb' 8 8) (value.extractLsb' 16 8) (value.extractLsb' 24 8)
    rw [h₃, h₂, h₁, h₀]
  · rfl

theorem Host.storeShort_shortToHost (host : Host) (mem : Memory) (a : Nat)
    (value : BitVec 16) :
    host.storeShort mem a (host.shortToHost value) = overlay mem a 2 value.toNat := by
  rw [← storeBytes_two, ← toNat_extract_byte, ← toNat_extract_byte]
  unfold Host.storeShort Host.shortToHost
  split
  · unfold Memory.storeShort Nachos.shortToHost
    rw [BitVec.extractLsb'_append_eq_left, BitVec.extractLsb'_append_eq_right]
  · rfl

end Swaps

namespace Machine

open Lib

variable {m m' : Machine}

theorem Translated.byteAt_add {a : Word} {size : Nat} {writing : Bool} {physAddr : Nat}
    {table : List TranslationEntry} {entry : TranslationEntry}
    (h : Translated m a size writing physAddr m' table entry) {i : Nat} (hi : i < size) :
    m.byteAt (a + BitVec.ofNat 32 i) = some (m.mainMemory.bytesFrom physAddr i) := by
  unfold byteAt
  rw [h.physical_add hi]
  rfl

/-- A read of `size` bytes gives the number the user's bytes make, the lowest
first; of a single byte it gives the low 8 bits. -/
def ReadsBytes (host : Host) (m : Machine) (a : Word) (size : Nat) (value : Word)
    (m' : Machine) : Prop :=
  readMemOn host a size m = .ok value m' ∧ ∃ byte : Nat → Byte,
    (∀ i < size, m.byteAt (a + BitVec.ofNat 32 i) = some (byte i)) ∧
    value.toNat % 2 ^ (8 * size) = littleEndian byte size ∧
    (size ≠ 1 → value.toNat = littleEndian byte size)

/-- A write of `size` bytes sets the user's bytes to those of the value, the lowest
first, and no other byte of memory. -/
structure WritesBytes (host : Host) (m : Machine) (a : Word) (size : Nat) (value : Word)
    (m' : Machine) : Prop where
  done : writeMemOn host a size value m = .ok () m'
  unmoved : ∀ b, m'.physical b = m.physical b
  written : ∀ i < size, m'.byteAt (a + BitVec.ofNat 32 i) =
    some (byteOf (value.toNat % 2 ^ (8 * size)) i)
  memory : ∀ l, (∀ i < size, m.physical (a + BitVec.ofNat 32 i) ≠ some l) →
    m'.mainMemory l = m.mainMemory l
  others : ∀ b, (∀ i < size, m.physical (a + BitVec.ofNat 32 i) ≠ m.physical b) →
    m'.byteAt b = m.byteAt b

theorem translated_of_ok {a : Word} {size : Nat} (hsize : isSize size) {writing : Bool}
    {physAddr : Nat} (h : translate a size writing m = .ok (.ok physAddr) m') :
    ∃ table entry, Translated m a size writing physAddr m' table entry := by
  rcases translate_cases m a hsize writing with
    ⟨physAddr', m₁, table, entry, htranslate, hdone⟩ | ⟨which, htranslate⟩ |
    ⟨trap, htranslate, -, -⟩
  · have hsame := h.symm.trans htranslate
    simp only [EStateM.Result.ok.injEq, Except.ok.injEq] at hsame
    rw [hsame.1, hsame.2]
    exact ⟨table, entry, hdone⟩
  · rw [htranslate] at h
    cases h
  · rw [htranslate] at h
    cases h

/-- Once `Translate` has answered, `ReadMem` goes through. -/
theorem Translated.readsBytes (host : Host) {a : Word} {size : Nat} (hsize : isSize size)
    {physAddr : Nat} {table : List TranslationEntry} {entry : TranslationEntry}
    (htranslate : translate a size false m = .ok (.ok physAddr) m')
    (h : Translated m a size false physAddr m' table entry) :
    ∃ value, ReadsBytes host m a size value m' := by
  have hmem : m'.mainMemory = m.mainMemory := by rw [h.after]
  have hbytes : ∀ i < size, m.byteAt (a + BitVec.ofNat 32 i) =
      some (m.mainMemory.bytesFrom physAddr i) := fun i => h.byteAt_add
  unfold ReadsBytes
  simp only [readMemOn, bind_apply, htranslate]
  rcases hsize with rfl | rfl | rfl
  · refine ⟨_, rfl, _, hbytes, ?_, fun hne => absurd rfl hne⟩
    rw [hmem]
    exact host.toNat_loadChar m.mainMemory physAddr
  · refine ⟨_, rfl, _, hbytes, ?_, fun _ => ?_⟩
    all_goals
      rw [hmem, host.shortToHost_loadShort, BitVec.toNat_setWidth, toNat_two_bytes]
      have hlt := littleEndian_lt (m.mainMemory.bytesFrom physAddr) 2
      omega
  · refine ⟨_, rfl, _, hbytes, ?_, fun _ => ?_⟩
    all_goals
      rw [hmem, host.wordToHost_loadInt, toNat_four_bytes]
    exact Nat.mod_eq_of_lt (littleEndian_lt _ 4)

/-- What a write through a translated address does to memory. -/
theorem writeMemOn_eq (host : Host) {a : Word} {size : Nat} (hsize : isSize size)
    (value : Word) {physAddr : Nat} (htranslate : translate a size true m = .ok (.ok physAddr) m') :
    writeMemOn host a size value m = .ok () { m' with
      mainMemory := overlay m'.mainMemory physAddr size (value.toNat % 2 ^ (8 * size)) } := by
  simp only [writeMemOn, bind_apply, htranslate]
  rcases hsize with rfl | rfl | rfl
  · have hbyte : value.setWidth 8 = byteOf (value.toNat % 2 ^ (8 * 1)) 0 := by
      refine BitVec.eq_of_toNat_eq ?_
      rw [BitVec.toNat_setWidth, toNat_byteOf]
      omega
    rw [hbyte, ← storeByte_one]
    rfl
  · have hshort : (value.setWidth 16).toNat = value.toNat % 2 ^ (8 * 2) :=
      BitVec.toNat_setWidth _ _
    rw [← hshort, ← host.storeShort_shortToHost]
    rfl
  · have hword : value.toNat = value.toNat % 2 ^ (8 * 4) := (Nat.mod_eq_of_lt value.isLt).symm
    rw [← hword, ← host.storeInt_wordToHost]
    rfl

theorem Translated.writesBytes (host : Host) {a : Word} {size : Nat} (hsize : isSize size)
    (value : Word) {physAddr : Nat} {table : List TranslationEntry} {entry : TranslationEntry}
    (htranslate : translate a size true m = .ok (.ok physAddr) m')
    (h : Translated m a size true physAddr m' table entry) :
    ∃ m₁, WritesBytes host m a size value m₁ := by
  have hmem : m'.mainMemory = m.mainMemory := by rw [h.after]
  let stored : Machine := { m' with
    mainMemory := overlay m'.mainMemory physAddr size (value.toNat % 2 ^ (8 * size)) }
  have hpages : SamePages m stored := ⟨h.confined.table, h.confined.size⟩
  have hmoved (b : Word) : stored.physical b = m.physical b := hpages.physical b
  have hmemory (l : Nat) (hl : ∀ i < size, m.physical (a + BitVec.ofNat 32 i) ≠ some l) :
      stored.mainMemory l = m.mainMemory l := by
    refine (overlay_outside _ _ ?_).trans (congrFun hmem l)
    rintro ⟨hle, hlt⟩
    have hat := h.physical_add (show l - physAddr < size by omega)
    rw [Nat.add_sub_cancel' hle] at hat
    exact hl _ (by omega) hat
  refine ⟨stored, writeMemOn_eq host hsize value htranslate, hmoved, fun i hi => ?_, hmemory,
    fun b hb => ?_⟩
  · unfold byteAt
    rw [hmoved, h.physical_add hi]
    exact congrArg some (overlay_inside _ _ _ hi)
  · unfold byteAt
    rw [hmoved]
    cases hat : m.physical b with
    | none => rfl
    | some l =>
        rw [hat] at hb
        exact congrArg some (hmemory l hb)

/-- A read that goes through has been translated. -/
theorem readsBytes_of_ok {host : Host} {a : Word} {size : Nat} (hsize : isSize size)
    {value : Word} (h : readMemOn host a size m = .ok value m') :
    ReadsBytes host m a size value m' := by
  rcases translate_cases m a hsize false with
    ⟨physAddr, m₁, table, entry, htranslate, hdone⟩ | ⟨which, htranslate⟩ |
    ⟨trap, htranslate, -, -⟩
  · obtain ⟨value', hread⟩ := hdone.readsBytes host hsize htranslate
    have hsame := h.symm.trans hread.1
    simp only [EStateM.Result.ok.injEq] at hsame
    rw [hsame.1, hsame.2]
    exact hread
  · simp only [readMemOn, bind_apply, htranslate] at h
    obtain ⟨noted, -, ⟨m₁, -, hraise⟩ | ⟨-, hraise⟩⟩ := raiseException_cases (A := Word) which a m
    · rw [hraise] at h
      cases h
    · rw [hraise] at h
      cases h
  · simp only [readMemOn, bind_apply, htranslate] at h
    cases h

/-- The bytes of what is read are the user's bytes. -/
theorem ReadsBytes.byteAt {host : Host} {a : Word} {size : Nat} {value : Word}
    (h : ReadsBytes host m a size value m') {i : Nat} (hi : i < size) :
    m.byteAt (a + BitVec.ofNat 32 i) = some (byteOf value.toNat i) := by
  obtain ⟨-, byte, hbytes, hvalue, -⟩ := h
  rw [hbytes i hi, ← byteOf_mod hi, hvalue, byteOf_littleEndian byte hi]

/-- What is read behind a write: the bytes of the value where the two accesses
meet, and the bytes from before elsewhere. -/
def ReadsBehind (m : Machine) (a : Word) (size : Nat) (value : Word) (b : Word) (size' : Nat)
    (value' : Word) : Prop :=
  ∀ j < size',
    (∀ i < size, m.physical (b + BitVec.ofNat 32 j) = m.physical (a + BitVec.ofNat 32 i) →
      byteOf value'.toNat j = byteOf value.toNat i) ∧
    ((∀ i < size, m.physical (b + BitVec.ofNat 32 j) ≠ m.physical (a + BitVec.ofNat 32 i)) →
      m.byteAt (b + BitVec.ofNat 32 j) = some (byteOf value'.toNat j))

theorem WritesBytes.readsBehind {host : Host} {a b : Word} {size size' : Nat} {value value' : Word}
    {m₂ : Machine} (h : WritesBytes host m a size value m') (hsize : isSize size')
    (hread : readMemOn host b size' m' = .ok value' m₂) :
    ReadsBehind m a size value b size' value' := by
  intro j hj
  have hbyte := (readsBytes_of_ok hsize hread).byteAt hj
  refine ⟨fun i hi hmeet => ?_, fun hapart => ?_⟩
  · have hwritten := h.written i hi
    have hsame : m'.byteAt (b + BitVec.ofNat 32 j) = m'.byteAt (a + BitVec.ofNat 32 i) := by
      unfold Machine.byteAt
      rw [h.unmoved, h.unmoved, hmeet]
    rw [hsame, hwritten, byteOf_mod hi, Option.some.injEq] at hbyte
    exact hbyte.symm
  · rw [← hbyte]
    exact (h.others _ fun i hi => (hapart i hi).symm).symm

/-- User memory is one array of bytes, on either kind of host: aligned accesses of
one, two and four bytes that translate read and write the number the bytes make
with the lowest first, and accesses of different sizes agree on the bytes they
share. -/
theorem userMemory_littleEndian (host : Host) (m : Machine) (a : Word) {size : Nat}
    (hsize : isSize size) :
    (∀ physAddr m', translate a size false m = .ok (.ok physAddr) m' →
      ∃ value, ReadsBytes host m a size value m') ∧
    ∀ value physAddr m', translate a size true m = .ok (.ok physAddr) m' →
      ∃ m₁, WritesBytes host m a size value m₁ ∧
        ∀ b size' value' m₂, isSize size' → readMemOn host b size' m₁ = .ok value' m₂ →
          ReadsBehind m a size value b size' value' := by
  refine ⟨fun physAddr m' htranslate => ?_, fun value physAddr m' htranslate => ?_⟩
  · obtain ⟨table, entry, hdone⟩ := translated_of_ok hsize htranslate
    exact hdone.readsBytes host hsize htranslate
  · obtain ⟨table, entry, hdone⟩ := translated_of_ok hsize htranslate
    obtain ⟨m₁, hwrites⟩ := hdone.writesBytes host hsize value htranslate
    exact ⟨m₁, hwrites, fun b size' value' m₂ hsize' => hwrites.readsBehind hsize'⟩

/-- A user program of two pages, the second read-only. -/
def readOnlyPages : Machine where
  registers := fun _ => 0
  mainMemory := fun a => BitVec.ofNat 8 a
  pageTable := some [⟨0, 3, true, false, false, false⟩, ⟨1, 5, true, true, false, false⟩]
  pageTableSize := 2
  overflowed := false

theorem userMemory_littleEndian_readOnlyPages :
    (∃ value m', ReadsBytes ⟨false, false⟩ readOnlyPages 130 2 value m') ∧
      ∃ m₁, WritesBytes bigEndianHost readOnlyPages 4 4 0x11223344 m₁ := by
  have hread := (userMemory_littleEndian ⟨false, false⟩ readOnlyPages 130 (Or.inr (Or.inl rfl))).1 _ _ rfl
  have hwrite := (userMemory_littleEndian bigEndianHost readOnlyPages 4 (Or.inr (Or.inr rfl))).2
    0x11223344 _ _ rfl
  obtain ⟨m₁, hwrites, -⟩ := hwrite
  exact ⟨⟨hread.choose, _, hread.choose_spec⟩, m₁, hwrites⟩

end Machine

end Nachos
