import Nachos.Userprog.PageTables

/-!
# Processes do not see each other's writes

Whatever user code does, and whatever `copyout` writes on its behalf, is confined
to the frames of the page table the machine has.  The page tables of two address
spaces have no frame in common, so under the page table of another process every
address reads as before.
-/

namespace Nachos

namespace Machine

open Lib

/-- `Translate` does not look at memory. -/
theorem translate_setMemory (m : Machine) (mem : Memory) (virtAddr : Word) (size : Nat)
    (writing : Bool) :
    translate virtAddr size writing { m with mainMemory := mem } =
      match translate virtAddr size writing m with
      | .ok result m' => .ok result { m' with mainMemory := mem }
      | .error trap m' => .error trap { m' with mainMemory := mem } := by
  obtain ⟨registers, old, pageTable, pageTableSize, overflowed⟩ := m
  unfold translate
  dsimp only
  split
  · rfl
  · cases pageTable with
    | none => rfl
    | some table =>
        dsimp only
        split
        · rfl
        · cases table[virtAddr.toNat / pageSize]? with
          | none => rfl
          | some entry =>
              dsimp only
              split
              · rfl
              · split
                · rfl
                · split
                  · rfl
                  · split
                    · rfl
                    · rfl

/-- Nor does `RaiseException`. -/
theorem raiseException_setMemory {A : Type} (m : Machine) (mem : Memory) (which : ExceptionType)
    (addr : Word) :
    ∃ trap m₁ m₂, (raiseException which addr : Code A) m = .error trap m₁ ∧
      (raiseException which addr : Code A) { m with mainMemory := mem } = .error trap m₂ := by
  simp only [raiseException, writeRegister, bind_apply]
  by_cases hload : (Function.update m.registers badVAddrReg addr loadReg).toNat < numTotalRegs
  · simp only [delayedLoad, dif_pos hload]
    exact ⟨_, _, _, rfl, rfl⟩
  · simp only [delayedLoad, dif_neg hload]
    exact ⟨_, _, _, rfl, rfl⟩

end Machine

namespace Userprog

open Threads Lib

/-- The machine with the page table of an address space. -/
def AddrSpace.machine (a : AddrSpace) (registers : Registers) (mem : Memory) : Machine :=
  ⟨registers, mem, some a.pageTable, a.numPages, false⟩

/-- What `ReadMem` answers under the page table of an address space. -/
def AddrSpace.read (a : AddrSpace) (registers : Registers) (mem : Memory) (addr : Word)
    (size : Nat) : Except Trap Word :=
  match Machine.readMem addr size (a.machine registers mem) with
  | .ok value _ => .ok value
  | .error trap _ => .error trap

/-- What is done to the machine for a user program. -/
inductive Action
  | instruction
  | copyout (buf : Nat → Byte) (len : Nat) (vaddr : Word)

/-- The machine an action leaves behind, whichever way it ends. -/
def Action.run : Action → Machine → Machine
  | .instruction, machine => endState (Machine.oneInstruction machine)
  | .copyout buf len vaddr, machine => endState (Userprog.copyout buf len 0 vaddr machine)

/-- The machine a sequence of actions leaves behind. -/
def Action.runAll (actions : List Action) (machine : Machine) : Machine :=
  actions.foldl (fun machine action => action.run machine) machine

/-- The page table of the machine is that of an address space, up to the use of
pages. -/
structure AddrSpace.Installed (a : AddrSpace) (machine : Machine) : Prop where
  table : machine.pageTable.map layout = some (layout a.pageTable)
  size : machine.pageTableSize = a.numPages

section Actions

variable {a : AddrSpace} {machine machine' : Machine}

theorem Action.run_confined (action : Action) (machine : Machine) :
    Machine.Confined machine (action.run machine) := by
  cases action with
  | instruction => exact Machine.confined_rule.oneInstruction machine
  | copyout buf len vaddr => exact (System.copyout_copies buf len 0 vaddr).confined machine

/-- A sequence of actions is confined as one action is. -/
theorem Action.runAll_confined (actions : List Action) (machine : Machine) :
    Machine.Confined machine (Action.runAll actions machine) := by
  induction actions generalizing machine with
  | nil => exact Machine.Confined.refl machine
  | cons action actions ih =>
      exact Machine.Confined.trans _ _ _ (action.run_confined machine) (ih (action.run machine))

theorem AddrSpace.Installed.confined (h : a.Installed machine)
    (hconfined : Machine.Confined machine machine') : a.Installed machine' where
  table := hconfined.table.trans h.table
  size := hconfined.size.trans h.size

/-- The frames of the machine are those of the address space. -/
theorem AddrSpace.Installed.mem_frames (h : a.Installed machine) {p : Nat} :
    p ∈ machine.frames ↔ ∃ e ∈ a.pageTable, e.pageFrame = p := by
  unfold Machine.frames
  rw [h.table]
  constructor
  · rintro ⟨table, htable, e, he, hframe⟩
    rw [← Option.some.inj htable] at he
    obtain ⟨e', he', rfl⟩ := List.mem_map.mp he
    exact ⟨e', he', hframe⟩
  · rintro ⟨e, he, hframe⟩
    exact ⟨_, rfl, e.unused, List.mem_map_of_mem he, hframe⟩

/-- The answer of `ReadMem` to an access that is translated is about bytes in a
frame of the page table. -/
theorem AddrSpace.read_congr {registers : Registers} {mem mem' : Memory} {addr : Word}
    {size : Nat} (hsize : Machine.isSize size)
    (hsame : ∀ e ∈ a.pageTable, ∀ x, x / pageSize = e.pageFrame → mem' x = mem x) :
    a.read registers mem' addr size = a.read registers mem addr size := by
  unfold AddrSpace.read
  have hmachine : a.machine registers mem' =
      { a.machine registers mem with mainMemory := mem' } := rfl
  rw [hmachine]
  simp only [Machine.readMem, bind_apply, Machine.translate_setMemory]
  rcases Machine.translate_cases (a.machine registers mem) addr hsize false with
    ⟨physAddr, m', table, entry, htranslate, hdone⟩ | ⟨which, htranslate⟩ |
    ⟨trap, htranslate, -, -⟩
  · rw [htranslate]
    have htable : a.pageTable = table := Option.some.inj hdone.installed
    have hentry : entry ∈ a.pageTable := htable ▸ List.mem_of_getElem? hdone.found
    have hbyte : ∀ k, k < size → mem' (physAddr + k) = mem (physAddr + k) := fun k hk =>
      hsame entry hentry _ (hdone.div_eq (Nat.le_add_right _ k) (Nat.add_lt_add_left hk _))
    have hmem : m'.mainMemory = mem := by
      rw [hdone.after]
      rfl
    rcases hsize with rfl | rfl | rfl
    · have h0 := hbyte 0 (by omega)
      show Except.ok ((mem' physAddr).signExtend 32) =
        Except.ok ((m'.mainMemory physAddr).signExtend 32)
      rw [hmem, show mem' physAddr = mem physAddr from h0]
    · have h0 := hbyte 0 (by omega)
      have h1 := hbyte 1 (by omega)
      have hload : mem'.loadShort physAddr = mem.loadShort physAddr := by
        simp only [Memory.loadShort, h1, show mem' physAddr = mem physAddr from h0]
      show Except.ok ((shortToHost (mem'.loadShort physAddr)).setWidth 32) =
        Except.ok ((shortToHost (m'.mainMemory.loadShort physAddr)).setWidth 32)
      rw [hmem, hload]
    · have h0 := hbyte 0 (by omega)
      have h1 := hbyte 1 (by omega)
      have h2 := hbyte 2 (by omega)
      have h3 := hbyte 3 (by omega)
      have hload : mem'.loadInt physAddr = mem.loadInt physAddr := by
        simp only [Memory.loadInt, h1, h2, h3, show mem' physAddr = mem physAddr from h0]
      show Except.ok (wordToHost (mem'.loadInt physAddr)) =
        Except.ok (wordToHost (m'.mainMemory.loadInt physAddr))
      rw [hmem, hload]
  · rw [htranslate]
    obtain ⟨trap, m₁, m₂, hraise, hraise'⟩ :=
      Machine.raiseException_setMemory (A := Word) (a.machine registers mem) mem' which addr
    simp only [hraise, hraise']
  · rw [htranslate]

end Actions

namespace System

section Isolation

variable {m : System} {p q : SpaceId} {P Q : AddrSpace} {machine : Machine}

/-- An entry of a page table in order names its frame as `Translate` reads it. -/
theorem WellPlaced.pageFrame (h : WellPlaced m) {space : SpaceId} {a : AddrSpace} {i : Nat}
    {e : TranslationEntry} (ha : m.addrSpace space = some a) (he : a.pageTable[i]? = some e) :
    (e.pageFrame : Int) = e.physicalPage := by
  obtain ⟨-, -, hnonneg, hlt, -⟩ := h.entry space a i e ha he
  unfold TranslationEntry.pageFrame
  unfold numPhysPages at hlt
  omega

/-- No frame of one address space is one of another. -/
theorem WellPlaced.apart (h : WellPlaced m) (hp : m.addrSpace p = some P)
    (hq : m.addrSpace q = some Q) (hne : p ≠ q) {e e' : TranslationEntry}
    (he : e ∈ P.pageTable) (he' : e' ∈ Q.pageTable) : e.pageFrame ≠ e'.pageFrame := by
  obtain ⟨i, hi⟩ := List.mem_iff_getElem?.mp he
  obtain ⟨i', hi'⟩ := List.mem_iff_getElem?.mp he'
  intro hframe
  have hpage : e.physicalPage = e'.physicalPage := by
    rw [← h.pageFrame hp hi, ← h.pageFrame hq hi', hframe]
  exact hne (h.once p q P Q i i' e e' hp hq hi hi' hpage).1

/-- For two address spaces of a state of a run, and the machine with the page
table of the first in any state: whatever instructions it runs and `copyout`s are
made for it, `ReadMem` answers under the page table of the second as before; and
`Translate` yields no address outside the frame of the page it has translated, or
outside memory. -/
theorem processes_isolated (hreach : m.Reachable) (hp : m.addrSpace p = some P)
    (hq : m.addrSpace q = some Q) (hne : p ≠ q) (hinstalled : P.Installed machine)
    (actions : List Action) :
    (∀ registers addr size, Machine.isSize size →
      Q.read registers (Action.runAll actions machine).mainMemory addr size =
        Q.read registers machine.mainMemory addr size) ∧
    ∀ virtAddr size writing physAddr machine', Machine.isSize size →
      Machine.translate virtAddr size writing (Action.runAll actions machine) =
        .ok (.ok physAddr) machine' →
      ∃ e, P.pageTable[virtAddr.toNat / pageSize]? = some e ∧
        e.physicalPage.toNat * pageSize ≤ physAddr ∧
        physAddr + size ≤ (e.physicalPage.toNat + 1) * pageSize ∧
        physAddr + size ≤ memorySize := by
  have hplaced := hreach.paged.toWellPlaced
  have hconfined := Action.runAll_confined actions machine
  constructor
  · intro registers addr size hsize
    refine AddrSpace.read_congr hsize fun e' he' x hx => hconfined.memory x fun hmem => ?_
    -- a byte in a frame of `Q` is in no frame of the machine
    obtain ⟨e, he, hframe⟩ := hinstalled.mem_frames.mp hmem
    exact hplaced.apart hp hq hne he he' (hframe.trans hx)
  · intro virtAddr size writing physAddr machine' hsize htranslate
    rcases Machine.translate_cases (Action.runAll actions machine) virtAddr hsize writing with
      ⟨physAddr', m', table, entry, hok, hdone⟩ | ⟨which, hexception⟩ | ⟨trap, herror, -, -⟩
    · obtain ⟨hphys, -⟩ : physAddr' = physAddr ∧ m' = machine' := by
        simpa using hok.symm.trans htranslate
      have htable : layout table = layout P.pageTable := by
        have hlayout := (hinstalled.confined hconfined).table
        rw [hdone.installed] at hlayout
        exact Option.some.inj hlayout
      have hentry := congrArg (fun t => t[virtAddr.toNat / pageSize]?) htable
      simp only [layout, List.getElem?_map, hdone.found, Option.map_some] at hentry
      obtain ⟨e, he, hunused⟩ := Option.map_eq_some_iff.mp hentry.symm
      have hpage : e.unused.physicalPage = entry.unused.physicalPage := congrArg _ hunused
      have hframe : (e.pageFrame : Int) = e.physicalPage := hplaced.pageFrame hp he
      have hsame : entry.pageFrame = e.physicalPage.toNat := by
        have heq : e.pageFrame = entry.pageFrame :=
          congrArg (fun page : Int => (page % 2 ^ 32).toNat) hpage
        omega
      refine ⟨e, he, ?_⟩
      have haddress := hdone.address
      have hfits := hdone.fits
      have hinMemory := hdone.inMemory
      rw [hphys, hsame] at haddress
      rw [hsame] at hinMemory
      unfold memorySize numPhysPages pageSize at *
      omega
    · exact absurd (hexception.symm.trans htranslate) (by simp)
    · exact absurd (herror.symm.trans htranslate) (by simp)

/-- A run in which a program has been started and has called `Exec`. -/
theorem exists_two_processes :
    ∃ m : System, m.Reachable ∧ (m.addrSpace 0).isSome ∧ (m.addrSpace 1).isSome := by
  -- `addiu r2, r0, 2` and `syscall`
  exact exists_reachable (P := fun m => (m.addrSpace 0).isSome ∧ (m.addrSpace 1).isSome)
    (fun _ => 0) (List.replicate 38 (undisturbed (program [0x24020002, 0x0000000c] 0)))
    (by decide +kernel)

/-- The second of two processes runs an instruction after a `copyout`. -/
theorem processes_isolated_exec :
    ∃ (m : System) (P Q : AddrSpace), m.Reachable ∧ m.addrSpace 1 = some P ∧
      m.addrSpace 0 = some Q ∧ ∀ registers mem addr size, Machine.isSize size →
      Q.read registers (Action.runAll [.copyout (fun _ => 1) 4 0, .instruction]
        (P.machine registers mem)).mainMemory addr size = Q.read registers mem addr size := by
  obtain ⟨m, hreach, hfirst, hsecond⟩ := exists_two_processes
  obtain ⟨Q, hq⟩ := Option.isSome_iff_exists.mp hfirst
  obtain ⟨P, hp⟩ := Option.isSome_iff_exists.mp hsecond
  refine ⟨m, P, Q, hreach, hp, hq, ?_⟩
  intro registers mem addr size hsize
  have hinstalled : P.Installed (P.machine registers mem) := ⟨rfl, rfl⟩
  exact (processes_isolated hreach hp hq (by decide) hinstalled _).1 registers addr size hsize

end Isolation

end System

end Userprog
end Nachos
