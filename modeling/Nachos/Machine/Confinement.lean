import Mathlib.Data.Set.Basic
import Nachos.Machine.Mipssim

/-!
# What user code can touch

`Translate` yields addresses of one page frame, the one the page table has for
the page of the address.  So whatever code of the machine does, it changes
memory in the frames of its page table only, and of the page table itself only
the bits `use` and `dirty`: `Confined`.

`Rule` collects what has to be known about the primitives of the machine to know
it about `OneInstruction`.
-/

namespace Nachos

/-- The number of the page frame of an entry, as `Translate` reads it. -/
def TranslationEntry.pageFrame (e : TranslationEntry) : Nat := (e.physicalPage % 2 ^ 32).toNat

/-- The entry before its page has been used. -/
def TranslationEntry.unused (e : TranslationEntry) : TranslationEntry :=
  { e with use := false, dirty := false }

/-- The page table without its bits `use` and `dirty`. -/
def layout (table : List TranslationEntry) : List TranslationEntry :=
  table.map TranslationEntry.unused

theorem layout_set_touched {table : List TranslationEntry} {vpn : Nat} {e : TranslationEntry}
    (he : table[vpn]? = some e) (use dirty : Bool) :
    layout (table.set vpn { e with use := use, dirty := dirty }) = layout table := by
  unfold layout
  refine List.ext_getElem? fun i => ?_
  rw [List.getElem?_map, List.getElem?_map, List.getElem?_set]
  by_cases hi : vpn = i
  · subst hi
    have hlt : vpn < table.length := (List.getElem?_eq_some_iff.mp he).1
    rw [if_pos rfl, if_pos hlt, he]
    rfl
  · rw [if_neg hi]

namespace Machine

variable {m m' : Machine}

/-- The sizes of memory accesses. -/
def isSize (size : Nat) : Prop := size = 1 ∨ size = 2 ∨ size = 4

/-- The low bits of an address tell its alignment. -/
theorem and_three_eq_zero {a : Word} (h : a &&& 3 = 0) : a.toNat % 4 = 0 := by
  have hnat := congrArg BitVec.toNat h
  rw [BitVec.toNat_and] at hnat
  have hmod : a.toNat &&& 3 = a.toNat % 4 := Nat.and_two_pow_sub_one_eq_mod a.toNat 2
  exact hmod.symm.trans hnat

theorem and_one_eq_zero {a : Word} (h : a &&& 1 = 0) : a.toNat % 2 = 0 := by
  have hnat := congrArg BitVec.toNat h
  rw [BitVec.toNat_and] at hnat
  have hmod : a.toNat &&& 1 = a.toNat % 2 := Nat.and_two_pow_sub_one_eq_mod a.toNat 1
  exact hmod.symm.trans hnat

/-- What `Translate` answers with an address: it has found a valid entry and
marked it, and the bytes are in the frame of the entry. -/
structure Translated (m : Machine) (virtAddr : Word) (size : Nat) (writing : Bool)
    (physAddr : Nat) (m' : Machine) (table : List TranslationEntry)
    (entry : TranslationEntry) : Prop where
  installed : m.pageTable = some table
  found : table[virtAddr.toNat / pageSize]? = some entry
  valid : entry.valid = true
  bound : virtAddr.toNat / pageSize < m.pageTableSize
  inMemory : entry.pageFrame < numPhysPages
  address : physAddr = entry.pageFrame * pageSize + virtAddr.toNat % pageSize
  fits : virtAddr.toNat % pageSize + size ≤ pageSize
  after : m' = { m with
    pageTable := some (table.set (virtAddr.toNat / pageSize)
      { entry with use := true, dirty := entry.dirty || writing }) }

/-- An aligned access does not cross the end of a page. -/
theorem fits_of_aligned {virtAddr : Word} {size : Nat} (hsize : isSize size)
    (h : ¬ (size = 4 ∧ virtAddr &&& 3 ≠ 0 ∨ size = 2 ∧ virtAddr &&& 1 ≠ 0)) :
    virtAddr.toNat % pageSize + size ≤ pageSize := by
  unfold pageSize
  rcases hsize with rfl | rfl | rfl
  · omega
  · have haligned : virtAddr &&& 1 = 0 := by
      by_contra hne
      exact h (Or.inr ⟨rfl, hne⟩)
    have hmod := and_one_eq_zero haligned
    omega
  · have haligned : virtAddr &&& 3 = 0 := by
      by_contra hne
      exact h (Or.inl ⟨rfl, hne⟩)
    have hmod := and_three_eq_zero haligned
    omega

/-- The three ways `Translate` ends: with an address, with an exception, or not
at all, because the machine has no page table or one that is too short. -/
theorem translate_cases (m : Machine) (virtAddr : Word) {size : Nat} (hsize : isSize size)
    (writing : Bool) :
    (∃ physAddr m' table entry, translate virtAddr size writing m = .ok (.ok physAddr) m' ∧
      Translated m virtAddr size writing physAddr m' table entry) ∨
    (∃ which, translate virtAddr size writing m = .ok (.error which) m) ∨
    (∃ trap, translate virtAddr size writing m = .error trap m ∧
      (∀ which, trap ≠ .exception which) ∧ (m.pageTable = none ∨ ∃ table, m.pageTable = some table ∧
        table.length < m.pageTableSize)) := by
  unfold translate
  split
  · exact Or.inr (Or.inl ⟨_, rfl⟩)
  · rename_i haligned
    have hfits := fits_of_aligned hsize haligned
    split
    · rename_i htable
      exact Or.inr (Or.inr ⟨_, rfl, by simp, Or.inl htable⟩)
    · rename_i table htable
      simp only
      split
      · exact Or.inr (Or.inl ⟨_, rfl⟩)
      · rename_i hbound
        split
        · rename_i hentry
          rw [List.getElem?_eq_none_iff] at hentry
          exact Or.inr (Or.inr ⟨_, rfl, by simp, Or.inr ⟨table, htable, by omega⟩⟩)
        · rename_i entry hentry
          split
          · exact Or.inr (Or.inl ⟨_, rfl⟩)
          · rename_i hvalid
            split
            · exact Or.inr (Or.inl ⟨_, rfl⟩)
            · split
              · exact Or.inr (Or.inl ⟨_, rfl⟩)
              · rename_i hframe
                have hend : (entry.physicalPage % 2 ^ 32).toNat * pageSize +
                    virtAddr.toNat % pageSize + size ≤ memorySize := by
                  unfold memorySize pageSize numPhysPages at *
                  omega
                rw [if_pos hend]
                exact Or.inl ⟨_, _, table, entry, rfl, htable, hentry, by simpa using hvalid,
                  by omega, by simpa [TranslationEntry.pageFrame] using hframe, rfl, hfits, rfl⟩

/-- The page frames of the machine's page table. -/
def frames (m : Machine) : Set Nat :=
  {p | ∃ table, m.pageTable.map layout = some table ∧ ∃ e ∈ table, e.pageFrame = p}

/-- What user code leaves alone: the layout of its page table, and memory outside
the frames of it. -/
structure Confined (m m' : Machine) : Prop where
  table : m'.pageTable.map layout = m.pageTable.map layout
  size : m'.pageTableSize = m.pageTableSize
  memory : ∀ a, a / pageSize ∉ m.frames → m'.mainMemory a = m.mainMemory a

theorem Confined.refl (m : Machine) : Confined m m := ⟨rfl, rfl, fun _ _ => rfl⟩

theorem Confined.frames (h : Confined m m') : m'.frames = m.frames := by
  unfold Machine.frames
  rw [h.table]

theorem Confined.trans (m₁ m₂ m₃ : Machine) (h : Confined m₁ m₂) (h' : Confined m₂ m₃) :
    Confined m₁ m₃ where
  table := h'.table.trans h.table
  size := h'.size.trans h.size
  memory := fun a ha => (h'.memory a (h.frames ▸ ha)).trans (h.memory a ha)

theorem Translated.mem_frames {virtAddr : Word} {size : Nat} {writing : Bool} {physAddr : Nat}
    {table : List TranslationEntry} {entry : TranslationEntry}
    (h : Translated m virtAddr size writing physAddr m' table entry) :
    entry.pageFrame ∈ m.frames := by
  refine ⟨layout table, by rw [h.installed]; rfl, entry.unused, ?_, rfl⟩
  exact List.mem_map_of_mem (List.mem_of_getElem? h.found)

theorem Translated.confined {virtAddr : Word} {size : Nat} {writing : Bool} {physAddr : Nat}
    {table : List TranslationEntry} {entry : TranslationEntry}
    (h : Translated m virtAddr size writing physAddr m' table entry) : Confined m m' := by
  rw [h.after]
  refine ⟨?_, rfl, fun _ _ => rfl⟩
  rw [h.installed, Option.map_some, Option.map_some, layout_set_touched h.found]

/-- The bytes of a translated access are in the frame of the entry. -/
theorem Translated.div_eq {virtAddr : Word} {size : Nat} {writing : Bool} {physAddr : Nat}
    {table : List TranslationEntry} {entry : TranslationEntry}
    (h : Translated m virtAddr size writing physAddr m' table entry) {a : Nat}
    (hle : physAddr ≤ a) (hlt : a < physAddr + size) : a / pageSize = entry.pageFrame := by
  have hphys := h.address
  have hfits := h.fits
  unfold pageSize at *
  omega

section Accesses

open Lib

/-- A store that stays inside a frame of the page table. -/
theorem Confined.store {mem : Memory} {physAddr size : Nat} {p : Nat} (hp : p ∈ m.frames)
    (hin : ∀ a, physAddr ≤ a → a < physAddr + size → a / pageSize = p)
    (hmem : ∀ a, ¬ (physAddr ≤ a ∧ a < physAddr + size) → mem a = m.mainMemory a) :
    Confined m { m with mainMemory := mem } := by
  refine ⟨rfl, rfl, fun a ha => hmem a ?_⟩
  rintro ⟨hle, hlt⟩
  exact ha (hin a hle hlt ▸ hp)

/-- What an access to memory that goes through leaves behind. -/
structure Accessed (m m' : Machine) : Prop where
  registers : m'.registers = m.registers
  overflowed : m'.overflowed = m.overflowed
  confined : Confined m m'

theorem Translated.accessed {virtAddr : Word} {size : Nat} {writing : Bool} {physAddr : Nat}
    {table : List TranslationEntry} {entry : TranslationEntry}
    (h : Translated m virtAddr size writing physAddr m' table entry) : Accessed m m' := by
  refine ⟨?_, ?_, h.confined⟩
  · rw [h.after]
  · rw [h.after]

/-- A store through a translated address. -/
theorem Translated.stored {virtAddr : Word} {size : Nat} {writing : Bool} {physAddr : Nat}
    {table : List TranslationEntry} {entry : TranslationEntry}
    (h : Translated m virtAddr size writing physAddr m' table entry) {mem : Memory}
    (hmem : ∀ a, ¬ (physAddr ≤ a ∧ a < physAddr + size) → mem a = m'.mainMemory a) :
    Accessed m { m' with mainMemory := mem } := by
  have hp : entry.pageFrame ∈ m'.frames := h.confined.frames ▸ h.mem_frames
  refine ⟨h.accessed.registers, h.accessed.overflowed, ?_⟩
  exact Confined.trans _ _ _ h.confined (Confined.store hp (fun a => h.div_eq) hmem)

/-- The three ways code that accesses memory ends: it goes through, or raises an
exception, or fails, because the machine has no page table or one that is too
short. -/
def Access {A : Type} (x : Code A) (addr : Word) (m : Machine) : Prop :=
  (∃ value m', x m = .ok value m' ∧ Accessed m m') ∨
  (∃ which, x m = raiseException which addr m) ∨
  (∃ trap, x m = .error trap m ∧ (∀ which, trap ≠ .exception which) ∧
    (m.pageTable = none ∨ ∃ table, m.pageTable = some table ∧ table.length < m.pageTableSize))

theorem readMem_access (m : Machine) (addr : Word) {size : Nat} (hsize : isSize size) :
    Access (readMem addr size) addr m := by
  unfold Access
  simp only [readMem, bind_apply]
  rcases translate_cases m addr hsize false with
    ⟨physAddr, m', table, entry, htranslate, hdone⟩ | ⟨which, htranslate⟩ |
    ⟨trap, htranslate, htrap, hstuck⟩
  · refine Or.inl ?_
    rw [htranslate]
    rcases hsize with rfl | rfl | rfl
    · exact ⟨_, m', rfl, hdone.accessed⟩
    · exact ⟨_, m', rfl, hdone.accessed⟩
    · exact ⟨_, m', rfl, hdone.accessed⟩
  · refine Or.inr (Or.inl ⟨which, ?_⟩)
    rw [htranslate]
  · refine Or.inr (Or.inr ⟨trap, ?_, htrap, hstuck⟩)
    rw [htranslate]

theorem writeMem_access (m : Machine) (addr : Word) {size : Nat} (value : Word)
    (hsize : isSize size) : Access (writeMem addr size value) addr m := by
  unfold Access
  simp only [writeMem, bind_apply]
  rcases translate_cases m addr hsize true with
    ⟨physAddr, m', table, entry, htranslate, hdone⟩ | ⟨which, htranslate⟩ |
    ⟨trap, htranslate, htrap, hstuck⟩
  · refine Or.inl ?_
    rw [htranslate]
    rcases hsize with rfl | rfl | rfl
    · refine ⟨_, _, rfl, hdone.stored fun a ha => ?_⟩
      exact Function.update_of_ne (by omega) _ _
    · refine ⟨_, _, rfl, hdone.stored fun a ha => ?_⟩
      simp only [Memory.storeShort, Memory.storeByte]
      rw [Function.update_of_ne (by omega), Function.update_of_ne (by omega)]
    · refine ⟨_, _, rfl, hdone.stored fun a ha => ?_⟩
      simp only [Memory.storeInt, Memory.storeByte]
      rw [Function.update_of_ne (by omega), Function.update_of_ne (by omega),
        Function.update_of_ne (by omega), Function.update_of_ne (by omega)]
  · refine Or.inr (Or.inl ⟨which, ?_⟩)
    rw [htranslate]
  · refine Or.inr (Or.inr ⟨trap, ?_, htrap, hstuck⟩)
    rw [htranslate]

/-- `RaiseException` finishes a load on its way and ends in the exception. -/
theorem raiseException_cases {A : Type} (which : ExceptionType) (badVAddr : Word) (m : Machine) :
    ∃ noted : Machine, noted = { m with
        registers := Function.update m.registers badVAddrReg badVAddr } ∧
      ((∃ m', delayedLoad 0 0 noted = .ok () m' ∧
          (raiseException which badVAddr : Code A) m = .error (.exception which) m') ∨
        (noted.registers loadReg).toNat ≥ numTotalRegs ∧
          (raiseException which badVAddr : Code A) m = .error .undefined noted) := by
  refine ⟨_, rfl, ?_⟩
  simp only [raiseException, writeRegister, bind_apply]
  by_cases hload : (Function.update m.registers badVAddrReg badVAddr loadReg).toNat < numTotalRegs
  · refine Or.inl ?_
    simp only [delayedLoad, dif_pos hload]
    exact ⟨_, rfl, rfl⟩
  · refine Or.inr ⟨Nat.le_of_not_lt hload, ?_⟩
    simp only [delayedLoad, dif_neg hload]

end Accesses

/-- The fields of an instruction name general registers. -/
theorem registerField_ne_loadReg (value : Word) (shift : Nat) :
    registerField value shift ≠ loadReg := by
  have hbound : ((value >>> shift) &&& 0x1f).toNat ≤ 0x1f := by
    rw [BitVec.toNat_and]
    exact Nat.and_le_right
  intro h
  have hval : ((value >>> shift) &&& 0x1f).toNat = 37 := congrArg Fin.val h
  omega

/-- `OneInstruction` up to the end of the `switch`. -/
def fetchExecute : Code Next := do
  let raw ← readMem (← readRegister pcReg) 4
  let pcAfter ← intAdd (← readRegister nextPCReg) 4
  execute (decode raw) pcAfter

theorem oneInstruction_eq : oneInstruction = fetchExecute >>= advance := by
  unfold oneInstruction fetchExecute
  simp only [bind_assoc]

section Rule

open Lib

/-- A relation between how code starts and how it ends that is known of the
primitives of the machine. -/
structure Rule (R : Machine → Option Trap → Machine → Prop) : Prop where
  refl : ∀ m, R m none m
  trans : ∀ m₁ m₂ trap m₃, R m₁ none m₂ → R m₂ trap m₃ → R m₁ trap m₃
  writes : ∀ num value, num ≠ loadReg → Ends R (writeRegister num value)
  notes : ∀ overflow, Ends R (note overflow)
  loads : ∀ (nextReg : Register) nextValue,
    Ends R (delayedLoad (BitVec.ofNat 32 nextReg.val) nextValue)
  raises : ∀ {A : Type} which badVAddr, Ends R (raiseException which badVAddr : Code A)
  fails : ∀ {A : Type} trap, (∀ which, trap ≠ .exception which) →
    Ends R (throw trap : Code A)
  accesses : ∀ m m', Accessed m m' → R m none m'

/-- What has to be known for the `switch` of `OneInstruction`, which puts no load on
its way. -/
structure BodyRule (R : Machine → Option Trap → Machine → Prop) : Prop where
  refl : ∀ m, R m none m
  trans : ∀ m₁ m₂ trap m₃, R m₁ none m₂ → R m₂ trap m₃ → R m₁ trap m₃
  writes : ∀ num value, num ≠ loadReg → Ends R (writeRegister num value)
  notes : ∀ overflow, Ends R (note overflow)
  raises : ∀ {A : Type} which badVAddr, Ends R (raiseException which badVAddr : Code A)
  fails : ∀ {A : Type} trap, (∀ which, trap ≠ .exception which) →
    Ends R (throw trap : Code A)
  accesses : ∀ m m', Accessed m m' → R m none m'

namespace BodyRule

variable {R : Machine → Option Trap → Machine → Prop} {A B : Type}

theorem pure (h : BodyRule R) (a : A) : Ends R (Pure.pure a : Code A) := Ends.pure h.refl a

theorem bind (h : BodyRule R) {x : Code A} {f : A → Code B} (hx : Ends R x)
    (hf : ∀ a, Ends R (f a)) : Ends R (x >>= f) :=
  Ends.bind h.trans hx hf

theorem reads (h : BodyRule R) (num : Register) : Ends R (readRegister num) := fun m => h.refl m

theorem access (h : BodyRule R) {x : Code A} {addr : Word} (hx : ∀ m, Access x addr m) :
    Ends R x := by
  intro m
  rcases hx m with ⟨value, m', hok, hdone⟩ | ⟨which, hraise⟩ | ⟨trap, hfail, htrap, -⟩
  · rw [hok]
    exact h.accesses m m' hdone
  · rw [hraise]
    exact h.raises which addr m
  · rw [hfail]
    exact h.fails (A := A) trap htrap m

theorem readsMem (h : BodyRule R) (addr : Word) {size : Nat} (hsize : isSize size) :
    Ends R (readMem addr size) :=
  h.access fun m => readMem_access m addr hsize

theorem writesMem (h : BodyRule R) (addr : Word) {size : Nat} (value : Word) (hsize : isSize size) :
    Ends R (writeMem addr size value) :=
  h.access fun m => writeMem_access m addr value hsize

theorem adds (h : BodyRule R) (a b : Word) : Ends R (intAdd a b) :=
  h.bind (h.notes _) fun _ => h.pure _

theorem subtracts (h : BodyRule R) (a b : Word) : Ends R (intSub a b) :=
  h.bind (h.notes _) fun _ => h.pure _

theorem negates (h : BodyRule R) (a : Word) : Ends R (intNeg a) :=
  h.bind (h.notes _) fun _ => h.pure _

theorem undefined (h : BodyRule R) : Ends R (throw .undefined : Code A) :=
  h.fails _ fun _ => by simp

theorem assertFailed (h : BodyRule R) : Ends R (throw .assertFailed : Code A) :=
  h.fails _ fun _ => by simp

theorem divides (h : BodyRule R) (a b : Word) : Ends R (intDiv a b) := by
  unfold intDiv
  split
  · exact h.pure _
  · split
    · exact h.undefined
    · exact h.pure _

theorem negatesIf (h : BodyRule R) (negate : Bool) (a : Word) : Ends R (negateIf negate a) := by
  unfold negateIf
  split
  · exact h.negates _
  · exact h.pure _

theorem multiplies (h : BodyRule R) (a b : Word) (signedArith : Bool) :
    Ends R (mult a b signedArith) := by
  unfold mult
  split
  · exact h.pure _
  · exact h.bind (h.negatesIf _ _) fun _ => h.bind (h.negatesIf _ _) fun _ => h.pure _

theorem assigns (h : BodyRule R) {num : Register} (hnum : num ≠ loadReg) (value pcAfter : Word) :
    Ends R (assign num value pcAfter) :=
  h.bind (h.writes _ _ hnum) fun _ => h.pure _

theorem branches (h : BodyRule R) (taken : Prop) [Decidable taken] (extra pcAfter : Word) :
    Ends R (branch taken extra pcAfter) := by
  unfold branch
  split
  · exact h.bind (h.reads _) fun _ => h.bind (h.adds _ _) fun _ => h.pure _
  · exact h.pure _

theorem links (h : BodyRule R) {num : Register} (hnum : num ≠ loadReg) : Ends R (link num) :=
  h.bind (h.reads _) fun _ => h.bind (h.adds _ _) fun _ => h.writes _ _ hnum

theorem delivers (h : BodyRule R) (rt : Register) (value pcAfter : Word) :
    Ends R (deliver rt value pcAfter) :=
  h.pure _

theorem waits (h : BodyRule R) (rt : Register) : Ends R (pendingValue rt) := by
  refine h.bind (h.reads _) fun _ => ?_
  split
  · exact h.reads _
  · exact h.reads _

theorem asserts (h : BodyRule R) (tmp : Word) : Ends R (assertAligned tmp) := by
  unfold assertAligned
  split
  · exact h.pure _
  · exact h.assertFailed

theorem execute (h : BodyRule R) {instr : Instruction} (hrt : instr.rt ≠ loadReg)
    (hrd : instr.rd ≠ loadReg) (pcAfter : Word) : Ends R (Machine.execute instr pcAfter) := by
  obtain ⟨opCode, rs, rt, rd, extra⟩ := instr
  refine h.bind (h.reads _) fun a => h.bind (h.reads _) fun b => ?_
  have hone : isSize 1 := Or.inl rfl
  have htwo : isSize 2 := Or.inr (Or.inl rfl)
  have hfour : isSize 4 := Or.inr (Or.inr rfl)
  have hlo : loReg ≠ loadReg := by decide
  have hhi : hiReg ≠ loadReg := by decide
  have h31 : r31 ≠ loadReg := by decide
  cases opCode
  all_goals dsimp only at hrt hrd ⊢
  all_goals repeat' with_reducible first
    | exact h.pure _
    | exact h.assertFailed
    | exact h.raises _ _
    | exact h.assigns hrt _ _
    | exact h.assigns hrd _ _
    | exact h.assigns hlo _ _
    | exact h.assigns hhi _ _
    | exact h.delivers _ _ _
    | exact h.branches _ _ _
    | exact h.reads _
    | exact h.writes _ _ hlo
    | exact h.writes _ _ hhi
    | exact h.adds _ _
    | exact h.subtracts _ _
    | exact h.divides _ _
    | exact h.multiplies _ _ _
    | exact h.links h31
    | exact h.links hrd
    | exact h.waits _
    | exact h.asserts _
    | exact h.readsMem _ hone
    | exact h.readsMem _ htwo
    | exact h.readsMem _ hfour
    | exact h.writesMem _ _ hone
    | exact h.writesMem _ _ htwo
    | exact h.writesMem _ _ hfour
    | refine h.bind ?_ fun _ => ?_
    | split

/-- `OneInstruction` up to the end of the `switch`. -/
theorem fetchExecute (h : BodyRule R) : Ends R Machine.fetchExecute :=
  h.bind (h.reads _) fun _ => h.bind (h.readsMem _ (Or.inr (Or.inr rfl))) fun raw =>
    h.bind (h.reads _) fun _ => h.bind (h.adds _ _) fun _ =>
      h.execute (registerField_ne_loadReg raw 16) (registerField_ne_loadReg raw 11) _

end BodyRule

namespace Rule

variable {R : Machine → Option Trap → Machine → Prop} {A B : Type}

theorem body (h : Rule R) : BodyRule R :=
  ⟨h.refl, h.trans, h.writes, h.notes, h.raises, h.fails, h.accesses⟩

theorem pure (h : Rule R) (a : A) : Ends R (Pure.pure a : Code A) := Ends.pure h.refl a

theorem bind (h : Rule R) {x : Code A} {f : A → Code B} (hx : Ends R x)
    (hf : ∀ a, Ends R (f a)) : Ends R (x >>= f) :=
  Ends.bind h.trans hx hf

theorem reads (h : Rule R) (num : Register) : Ends R (readRegister num) := h.body.reads num

theorem access (h : Rule R) {x : Code A} {addr : Word} (hx : ∀ m, Access x addr m) :
    Ends R x :=
  h.body.access hx

theorem advances (h : Rule R) (next : Next) : Ends R (advance next) := by
  have hprev : prevPCReg ≠ loadReg := by decide
  have hpc : pcReg ≠ loadReg := by decide
  have hnext : nextPCReg ≠ loadReg := by decide
  exact h.bind (h.loads _ _) fun _ => h.bind (h.reads _) fun _ =>
    h.bind (h.writes _ _ hprev) fun _ => h.bind (h.reads _) fun _ =>
      h.bind (h.writes _ _ hpc) fun _ => h.writes _ _ hnext

/-- `OneInstruction` ends within what its primitives end within. -/
theorem oneInstruction (h : Rule R) : Ends R Machine.oneInstruction := by
  rw [oneInstruction_eq]
  exact h.bind h.body.fetchExecute fun _ => h.advances _

end Rule

end Rule

section Confinement

open Lib

/-- Registers and the ghost are not part of what is confined. -/
theorem Confined.of_eq (htable : m'.pageTable = m.pageTable)
    (hsize : m'.pageTableSize = m.pageTableSize) (hmemory : m'.mainMemory = m.mainMemory) :
    Confined m m' :=
  ⟨by rw [htable], hsize, fun a _ => by rw [hmemory]⟩

theorem delayedLoad_confined (nextReg nextValue : Word) :
    Ends (fun m _ m' => Confined m m') (delayedLoad nextReg nextValue) := by
  intro m
  unfold delayedLoad
  split
  · exact .of_eq rfl rfl rfl
  · exact Confined.refl m

/-- Everything the machine does for a user program is confined to the frames of
its page table. -/
theorem confined_rule : Rule fun m _ m' => Confined m m' where
  refl := Confined.refl
  trans := fun m₁ m₂ _ m₃ => Confined.trans m₁ m₂ m₃
  writes := fun _ _ _ _ => .of_eq rfl rfl rfl
  notes := fun _ _ => .of_eq rfl rfl rfl
  loads := fun _ _ => delayedLoad_confined _ _
  raises := by
    intro A which badVAddr m
    obtain ⟨noted, hnoted, ⟨m', hload, hraise⟩ | ⟨-, hraise⟩⟩ :=
      raiseException_cases (A := A) which badVAddr m
    · have hconfined := delayedLoad_confined 0 0 noted
      rw [hload] at hconfined
      rw [hraise]
      exact Confined.trans _ _ _ (hnoted ▸ .of_eq rfl rfl rfl) hconfined
    · rw [hraise, hnoted]
      exact .of_eq rfl rfl rfl
  fails := fun _ _ m => Confined.refl m
  accesses := fun _ _ h => h.confined

end Confinement

end Machine

end Nachos
