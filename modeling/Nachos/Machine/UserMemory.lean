import Nachos.Machine.Confinement

/-!
# User memory

Through the page table a user program sees bytes at virtual addresses.  Where a
byte lies is a matter of the layout of the page table: accesses mark entries used
or dirty, and move nothing.
-/

namespace Nachos

namespace Machine

open Lib

variable {m m' : Machine} {addr : Word}

/-- The physical address of a byte of the current address space, if its page has a
valid translation. -/
def physical (m : Machine) (addr : Word) : Option Nat := do
  let table ← m.pageTable
  let entry ← table[addr.toNat / pageSize]?
  if addr.toNat / pageSize < m.pageTableSize ∧ entry.valid = true ∧
      entry.pageFrame < numPhysPages then
    some (entry.pageFrame * pageSize + addr.toNat % pageSize)
  else none

/-- The byte of the current address space at a virtual address. -/
def byteAt (m : Machine) (addr : Word) : Option Byte := (m.physical addr).map m.mainMemory

/-- The page tables of two machines differ in the bits `use` and `dirty` only. -/
structure SamePages (m m' : Machine) : Prop where
  table : m'.pageTable.map layout = m.pageTable.map layout
  size : m'.pageTableSize = m.pageTableSize

theorem SamePages.trans {m'' : Machine} (h : SamePages m m') (h' : SamePages m' m'') :
    SamePages m m'' :=
  ⟨h'.table.trans h.table, h'.size.trans h.size⟩

/-- The translation is a matter of the page table without those bits. -/
theorem physical_eq_layout (m : Machine) (addr : Word) : m.physical addr = (do
    let table ← m.pageTable.map layout
    let entry ← table[addr.toNat / pageSize]?
    if addr.toNat / pageSize < m.pageTableSize ∧ entry.valid = true ∧
        entry.pageFrame < numPhysPages then
      some (entry.pageFrame * pageSize + addr.toNat % pageSize)
    else none) := by
  unfold physical
  cases m.pageTable with
  | none => rfl
  | some table =>
      simp only [Option.map_some, Option.bind_eq_bind, Option.bind_some, layout,
        List.getElem?_map]
      cases table[addr.toNat / pageSize]? with
      | none => rfl
      | some entry => rfl

theorem SamePages.physical (h : SamePages m m') (addr : Word) :
    m'.physical addr = m.physical addr := by
  rw [physical_eq_layout, physical_eq_layout m, h.table, h.size]

/-- What a translation stands for. -/
theorem physical_eq_some {p : Nat} (h : m.physical addr = some p) :
    ∃ table entry, m.pageTable = some table ∧ table[addr.toNat / pageSize]? = some entry ∧
      addr.toNat / pageSize < m.pageTableSize ∧ entry.valid = true ∧
      entry.pageFrame < numPhysPages ∧
      p = entry.pageFrame * pageSize + addr.toNat % pageSize := by
  unfold physical at h
  cases htable : m.pageTable with
  | none => simp [htable] at h
  | some table =>
      cases hentry : table[addr.toNat / pageSize]? with
      | none => simp [htable, hentry] at h
      | some entry =>
          simp only [htable, hentry, Option.bind_eq_bind, Option.bind_some] at h
          split at h
          · rename_i hvalid
            exact ⟨table, entry, rfl, hentry, hvalid.1, hvalid.2.1, hvalid.2.2,
              (Option.some.inj h).symm⟩
          · exact absurd h (by simp)

theorem Translated.physical {size : Nat} {writing : Bool} {physAddr : Nat}
    {table : List TranslationEntry} {entry : TranslationEntry}
    (h : Translated m addr size writing physAddr m' table entry) :
    m.physical addr = some physAddr := by
  unfold Machine.physical
  simp only [h.installed, h.found, Option.bind_eq_bind, Option.bind_some]
  rw [if_pos ⟨h.bound, h.valid, h.inMemory⟩, h.address]

/-- The bytes of an access lie one behind the other. -/
theorem Translated.physical_add {size : Nat} {writing : Bool} {physAddr : Nat}
    {table : List TranslationEntry} {entry : TranslationEntry}
    (h : Translated m addr size writing physAddr m' table entry) {i : Nat} (hi : i < size) :
    m.physical (addr + BitVec.ofNat 32 i) = some (physAddr + i) := by
  have hfits := h.fits
  have hlt := addr.isLt
  have hadd : (addr + BitVec.ofNat 32 i).toNat = addr.toNat + i := by
    rw [BitVec.toNat_add, BitVec.toNat_ofNat]
    unfold pageSize at hfits
    omega
  have hpage : (addr.toNat + i) / pageSize = addr.toNat / pageSize := by
    unfold pageSize at *
    omega
  have hoffset : (addr.toNat + i) % pageSize = addr.toNat % pageSize + i := by
    unfold pageSize at *
    omega
  unfold Machine.physical
  simp only [h.installed, hadd, hpage, hoffset, h.found, Option.bind_eq_bind, Option.bind_some]
  rw [if_pos ⟨h.bound, h.valid, h.inMemory⟩, h.address, Nat.add_assoc]

/-- An access to a byte goes through when its page has a valid translation, and is not
read-only if the byte is to be written. -/
theorem translate_physical {p : Nat} (writing : Bool) (h : m.physical addr = some p)
    (hwrite : writing = true → ∀ table entry, m.pageTable = some table →
      table[addr.toNat / pageSize]? = some entry → entry.readOnly = false) :
    ∃ m', translate addr 1 writing m = .ok (.ok p) m' ∧ m'.mainMemory = m.mainMemory ∧
      SamePages m m' := by
  obtain ⟨table, entry, htable, hentry, hbound, hvalid, hframe, hp⟩ := physical_eq_some h
  have hreadOnly : ¬ (entry.readOnly = true ∧ writing = true) := by
    rintro ⟨hread, hwriting⟩
    rw [hwrite hwriting table entry htable hentry] at hread
    exact absurd hread (by simp)
  have hend : p + 1 ≤ memorySize := by
    unfold memorySize pageSize numPhysPages at *
    omega
  unfold TranslationEntry.pageFrame at hframe hp
  refine ⟨{ m with pageTable := some (table.set (addr.toNat / pageSize) { entry with
    use := true, dirty := entry.dirty || writing }) }, ?_, rfl, ?_, rfl⟩
  · unfold translate
    rw [if_neg (by simp)]
    simp only [htable, hentry]
    rw [if_neg (by omega), if_neg (by simpa using hvalid), if_neg hreadOnly, if_neg (by omega),
      ← hp, if_pos hend]
  · rw [htable, Option.map_some, Option.map_some, layout_set_touched hentry]

/-- Reading a byte. -/
theorem readMem_physical {p : Nat} (h : m.physical addr = some p) :
    ∃ m', readMem addr 1 m = .ok ((m.mainMemory p).signExtend 32) m' ∧
      m'.mainMemory = m.mainMemory ∧ SamePages m m' := by
  obtain ⟨m', htranslate, hmemory, hpages⟩ :=
    translate_physical false h fun hwriting => absurd hwriting (by simp)
  refine ⟨m', ?_, hmemory, hpages⟩
  simp only [readMem, bind_apply, htranslate]
  rw [← hmemory]
  rfl

/-- Writing a byte. -/
theorem writeMem_physical {p : Nat} (value : Word) (h : m.physical addr = some p)
    (hwrite : ∀ table entry, m.pageTable = some table →
      table[addr.toNat / pageSize]? = some entry → entry.readOnly = false) :
    ∃ m', writeMem addr 1 value m = .ok () m' ∧
      m'.mainMemory = Function.update m.mainMemory p (value.setWidth 8) ∧ SamePages m m' := by
  obtain ⟨m', htranslate, hmemory, hpages⟩ :=
    translate_physical true h fun _ => hwrite
  refine ⟨{ m' with mainMemory := m'.mainMemory.storeByte p (value.setWidth 8) }, ?_, ?_, ?_⟩
  · simp only [writeMem, bind_apply, htranslate]
    rfl
  · rw [← hmemory]
    rfl
  · exact ⟨hpages.table, hpages.size⟩

/-- A byte without a valid translation cannot be read. -/
theorem readMem_fails (h : m.physical addr = none) :
    ∃ trap m', readMem addr 1 m = .error trap m' := by
  simp only [readMem, bind_apply]
  rcases translate_cases m addr (Or.inl rfl) false with
    ⟨p, m', table, entry, htranslate, hdone⟩ | ⟨which, htranslate⟩ | ⟨trap, htranslate, -⟩
  · have hphysical := hdone.physical
    rw [h] at hphysical
    exact absurd hphysical (by simp)
  · rw [htranslate]
    obtain ⟨noted, -, ⟨m', -, hraise⟩ | ⟨-, hraise⟩⟩ :=
      raiseException_cases (A := Word) which addr m
    · exact ⟨_, m', hraise⟩
    · exact ⟨_, noted, hraise⟩
  · rw [htranslate]
    exact ⟨trap, m, rfl⟩

end Machine

end Nachos
