import Nachos.Userprog.Executables
import Nachos.Userprog.FileTables
import Nachos.Userprog.UserCopies

/-!
# `Exec_Syscall`

The call from its arguments to its result, with nothing in between but the threads that
hold `syscallLock` when it wants it.  `Exec_Syscall` copies `MAXFILENAME` bytes in,
whatever the length of the name, and ends the name with a null byte at an index it does
not check; `Create_Syscall` and `Open_Syscall` copy as many bytes as they are told.  When
the process table is full it returns with everything it has taken.

The file system is a parameter, and so is what was on the stack in place of the header of
an executable.
-/

namespace Nachos
namespace Userprog

open Threads Lib Machine

section Name

/-- The addresses that `copyin` calls `ReadMem` with, in order. -/
def copyinReads : Nat → Word → Machine → List Word
  | 0, _, _ => []
  | len + 1, vaddr, m =>
      vaddr :: match Machine.readMem vaddr 1 m with
        | .ok _ m' => copyinReads len (vaddr + 1) m'
        | .error _ _ => []

/-- The string at the start of a buffer. -/
def cString (buf : List Byte) : List Byte := buf.takeWhile (· ≠ 0)

variable (m : Machine) (vaddr length : Word)

/-- `Exec_Syscall` up to the call of `fileSystem->Open`: the name it passes, or `none` if
it returns -1. -/
def execName : Except Stop (Option (List Byte) × Machine) :=
  match copyinResult m vaddr maxFileName with
  | none => .error .halted
  | some (rv, buf, m') =>
      if rv = -1 then .ok (none, m')
      else if length.toNat < maxFileName then .ok (some (cString (buf.set length.toNat 0)), m')
      else .error .outOfBounds

/-- The indices of `filename` that are stored to.  When the machine halts in `copyin`,
the last call of `ReadMem` has not returned. -/
def execStores : List Nat :=
  match copyinResult m vaddr maxFileName with
  | none => List.range ((copyinReads maxFileName vaddr m).length - 1)
  | some (rv, buf, _) => List.range buf.length ++ if rv = -1 then [] else [length.toNat]

/-- The name is all that is read, the buffer all that is written, `Open` gets the name if
it can be read, and a name that does not fit is refused. -/
structure ReadsName : Prop where
  reads : ∀ a ∈ copyinReads maxFileName vaddr m, ∃ i, i < length.toNat ∧
    a = vaddr + BitVec.ofNat 32 i
  stores : ∀ i ∈ execStores m vaddr length, i < maxFileName
  passes : length.toNat < maxFileName → ∀ name : List Byte, name.length = length.toNat →
    (∀ i (hi : i < name.length), m.byteAt (vaddr + BitVec.ofNat 32 i) = some name[i]) →
    ∃ m', execName m vaddr length = .ok (some (cString name), m')
  refuses : maxFileName ≤ length.toNat → ∃ m', execName m vaddr length = .ok (none, m')

variable {m vaddr length}

/-- `copyin` begins with the first byte. -/
theorem mem_copyinReads_first {len : Nat} (hlen : 0 < len) : vaddr ∈ copyinReads len vaddr m := by
  cases len with
  | zero => omega
  | succ len => exact List.mem_cons_self

/-- `copyin` asks for every byte up to the first that has no valid translation. -/
theorem mem_copyinReads (m : Machine) (vaddr : Word) {len i : Nat} (hi : i < len)
    (h : ∀ j, j < i → (m.physical (vaddr + BitVec.ofNat 32 j)).isSome = true) :
    vaddr + BitVec.ofNat 32 i ∈ copyinReads len vaddr m := by
  induction i generalizing m vaddr len with
  | zero =>
      rw [show vaddr + BitVec.ofNat 32 0 = vaddr by simp]
      exact mem_copyinReads_first hi
  | succ i ih =>
      cases len with
      | zero => omega
      | succ len =>
          have hfirst := h 0 (by omega)
          rw [show vaddr + BitVec.ofNat 32 0 = vaddr by simp] at hfirst
          obtain ⟨p, hp⟩ := Option.isSome_iff_exists.mp hfirst
          obtain ⟨m₁, hread, -, hpages⟩ := readMem_physical hp
          have hrest := ih m₁ (vaddr + 1) (show i < len by omega) (by
            intro j hj
            rw [hpages.physical, add_one_add]
            exact h (j + 1) (by omega))
          rw [add_one_add] at hrest
          simp only [copyinReads, hread]
          exact List.mem_cons_of_mem vaddr hrest

/-- It asks for no byte beyond one that has none. -/
theorem copyinReads_before (m : Machine) (vaddr : Word) (len k : Nat)
    (h : m.physical (vaddr + BitVec.ofNat 32 k) = none) :
    (copyinReads len vaddr m).length ≤ k + 1 ∧ ∀ a ∈ copyinReads len vaddr m,
      ∃ i, i ≤ k ∧ a = vaddr + BitVec.ofNat 32 i := by
  induction len generalizing m vaddr k with
  | zero => exact ⟨Nat.zero_le _, fun a ha => absurd ha (by simp [copyinReads])⟩
  | succ len ih =>
      have hself : vaddr = vaddr + BitVec.ofNat 32 0 := by simp
      cases hread : Machine.readMem vaddr 1 m with
      | error trap m' =>
          simp only [copyinReads, hread]
          refine ⟨by simp, fun a ha => ⟨0, Nat.zero_le k, ?_⟩⟩
          rw [List.mem_singleton.mp ha, ← hself]
      | ok value m' =>
          simp only [copyinReads, hread]
          cases hp : m.physical vaddr with
          | none =>
              obtain ⟨trap, m'', hfails⟩ := readMem_fails hp
              rw [hread] at hfails
              exact absurd hfails (by simp)
          | some p =>
              obtain ⟨m₁, hread', -, hpages⟩ := readMem_physical hp
              have hsame : m' = m₁ := by
                rw [hread] at hread'
                cases hread'
                rfl
              cases k with
              | zero =>
                  rw [← hself, hp] at h
                  exact absurd h (by simp)
              | succ k =>
                  obtain ⟨hlength, hmem⟩ := ih m' (vaddr + 1) k (by
                    rw [hsame, hpages.physical, add_one_add]
                    exact h)
                  refine ⟨by simpa using hlength, fun a ha => ?_⟩
                  rcases List.mem_cons.mp ha with rfl | ha
                  · exact ⟨0, Nat.zero_le _, hself⟩
                  · obtain ⟨i, hi, rfl⟩ := hmem a ha
                    exact ⟨i + 1, by omega, add_one_add vaddr i⟩

/-- Different offsets below 2 ^ 32 are different addresses. -/
theorem offset_injective {i j : Nat} (hi : i < 2 ^ 32) (hj : j < 2 ^ 32)
    (h : vaddr + BitVec.ofNat 32 i = vaddr + BitVec.ofNat 32 j) : i = j := by
  have hsame := add_left_cancel h
  have hnat := congrArg BitVec.toNat hsame
  rw [BitVec.toNat_ofNat, BitVec.toNat_ofNat, Nat.mod_eq_of_lt hi, Nat.mod_eq_of_lt hj] at hnat
  exact hnat

/-- A byte that has no translation stops the call. -/
theorem copyinResult_none {k : Nat} (hk : k < maxFileName)
    (h : m.physical (vaddr + BitVec.ofNat 32 k) = none) :
    copyinResult m vaddr maxFileName = none := by
  obtain ⟨trap, m', hfails⟩ := copyin_fails m vaddr k hk h
  rw [copyinResult, hfails]

/-- The bytes of a buffer in user memory. -/
theorem physical_of_byteAt {a : Word} {b : Byte} (h : m.byteAt a = some b) :
    (m.physical a).isSome = true := by
  rw [byteAt, Option.map_eq_some_iff] at h
  obtain ⟨p, hp, -⟩ := h
  rw [hp]
  rfl

/-- Where the whole name can be read, it is not all that is read. -/
theorem not_readsName_of_readable (hlength : length.toNat < maxFileName)
    (hname : ∀ i, i < length.toNat →
      (m.physical (vaddr + BitVec.ofNat 32 i)).isSome = true) : ¬ ReadsName m vaddr length := by
  intro h
  obtain ⟨i, hi, heq⟩ := h.reads _ (mem_copyinReads m vaddr hlength hname)
  have hsame := offset_injective (by omega) (by omega) heq
  omega

/-- A length that does not fit is not refused. -/
theorem not_readsName_of_long (hlength : maxFileName ≤ length.toNat) :
    ¬ ReadsName m vaddr length := by
  intro h
  obtain ⟨m', hrefused⟩ := h.refuses hlength
  unfold execName copyinResult at hrefused
  split at hrefused
  · exact absurd hrefused (by simp)
  · rename_i rv buf machine hresult
    split at hresult
    · cases hresult
      rw [if_neg (by omega), if_neg (by omega)] at hrefused
      exact absurd hrefused (by simp)
    · exact absurd hresult (by simp)

/-- The call keeps to the name exactly when the machine halts on a byte of the name. -/
theorem readsName_iff (m : Machine) (vaddr length : Word) :
    ReadsName m vaddr length ↔ length.toNat < maxFileName ∧
      ∃ k, k < length.toNat ∧ m.physical (vaddr + BitVec.ofNat 32 k) = none := by
  constructor
  · intro h
    have hlength : length.toNat < maxFileName := by
      by_contra hlong
      exact not_readsName_of_long (by omega) h
    refine ⟨hlength, ?_⟩
    by_contra hreadable
    refine not_readsName_of_readable hlength (fun i hi => ?_) h
    by_contra hnone
    refine hreadable ⟨i, hi, ?_⟩
    simpa using hnone
  · rintro ⟨hlength, k, hk, hnone⟩
    obtain ⟨hcount, hreads⟩ := copyinReads_before m vaddr maxFileName k hnone
    have hhalted := copyinResult_none (Nat.lt_trans hk hlength) hnone
    constructor
    case reads =>
      intro a ha
      obtain ⟨i, hi, heq⟩ := hreads a ha
      exact ⟨i, by omega, heq⟩
    case stores =>
      intro i hi
      unfold execStores at hi
      rw [hhalted] at hi
      have hlt := List.mem_range.mp hi
      omega
    case passes =>
      intro _ name hsize hbytes
      have hsome := physical_of_byteAt (hbytes k (by omega))
      rw [hnone] at hsome
      exact absurd hsome (by simp)
    case refuses =>
      intro hlong
      omega

/-- A name of four bytes at the start of two pages. -/
theorem execName_reads_beyond :
    ¬ ReadsName ⟨fun _ => 0, fun _ => 0, some twoPages, 2, false⟩ 0 4 := by
  refine not_readsName_of_readable (by decide) fun k hk => ?_
  have hk : k < 4 := hk
  have hpage : ((0 : Word) + BitVec.ofNat 32 k).toNat / pageSize < twoPages.length := by
    rw [zero_add, BitVec.toNat_ofNat, Nat.mod_eq_of_lt (by omega)]
    show k / 128 < 2
    omega
  obtain ⟨e, -, hphysical⟩ := (mapped_twoPages fun _ => 0).physical hpage
  rw [hphysical]
  rfl

end Name

section Loadable

/-- A program that can be loaded: its header is good, there are frames enough, and no
page of it is at a position of the file that `Lseek` takes for a negative one. -/
structure Loadable (executable : Executable) (garbage : Memory) (memMap : BitMap) : Prop where
  magic : (executable.noffH garbage).noffMagic = noffMagic
  fits : (executable.noffH garbage).numPages ≤ numPhysPages
  frames : (executable.noffH garbage).numPages ≤ memMap.numClear
  position : ∀ i, i < (executable.noffH garbage).numPages →
    ((executable.noffH garbage).code.inFileAddr + BitVec.ofNat 32 (i * pageSize)).msb = false

/-- The loop of `AddrSpace::AddrSpace` gets through exactly when there is a clear frame
for every page and every page has a position in the file. -/
theorem loadPages_isOk (executable : Executable) (inFileAddr : Word) (rounds i : Nat)
    (l : Loading) :
    (∃ l', loadPages executable inFileAddr rounds i l = .ok l') ↔
      rounds ≤ l.memMap.clearBits.card ∧ ∀ k, k < rounds →
        (inFileAddr + BitVec.ofNat 32 ((i + k) * pageSize)).msb = false := by
  induction rounds generalizing i l with
  | zero => exact ⟨fun _ => ⟨Nat.zero_le _, fun k hk => by omega⟩, fun _ => ⟨l, rfl⟩⟩
  | succ rounds ih =>
      rw [loadPages]
      by_cases hclear : 0 < l.memMap.clearBits.card
      · obtain ⟨p, hp, htest, hfound⟩ := BitMap.find_of_clear hclear
        have hcard : (l.memMap.mark p).clearBits.card + 1 = l.memMap.clearBits.card := by
          rw [BitMap.clearBits_mark hp]
          exact Finset.card_erase_add_one (BitMap.mem_clearBits.mpr ⟨hp, htest⟩)
        simp only [hfound, Int.toNat_natCast]
        rw [if_neg (by omega)]
        unfold Executable.readAt
        by_cases hposition : (inFileAddr + BitVec.ofNat 32 (i * pageSize)).msb = true
        · simp only [hposition, if_true]
          refine ⟨fun h => absurd h (by simp), fun h => ?_⟩
          have hzero := h.2 0 (by omega)
          rw [Nat.add_zero, hposition] at hzero
          exact absurd hzero (by simp)
        · rw [Bool.not_eq_true] at hposition
          simp only [hposition, Bool.false_eq_true, if_false]
          rw [ih]
          dsimp only
          constructor
          · rintro ⟨hle, hrest⟩
            refine ⟨by omega, fun k hk => ?_⟩
            cases k with
            | zero => exact hposition
            | succ k =>
                rw [show i + (k + 1) = i + 1 + k by omega]
                exact hrest k (by omega)
          · rintro ⟨hle, hall⟩
            refine ⟨by omega, fun k hk => ?_⟩
            rw [show i + 1 + k = i + (k + 1) by omega]
            exact hall (k + 1) (by omega)
      · have hfull : l.memMap.find = (-1, l.memMap) := by
          rcases l.memMap.find_cases with hnone | ⟨p, hp, htest, -⟩
          · exact hnone
          · exact absurd (Finset.card_pos.mpr ⟨p, BitMap.mem_clearBits.mpr ⟨hp, htest⟩⟩) hclear
        simp only [hfull]
        rw [if_pos (by decide)]
        exact ⟨fun h => absurd h (by simp), fun h => by omega⟩

/-- `AddrSpace::AddrSpace` gets to its end exactly for a program that can be loaded. -/
theorem load_isOk (executable : Executable) (garbage : Memory) (memMap : BitMap) (mem : Memory) :
    (∃ loaded, AddrSpace.load executable garbage memMap mem = .ok loaded) ↔
      Loadable executable garbage memMap := by
  have hpages := loadPages_isOk executable (executable.noffH garbage).code.inFileAddr
    (executable.noffH garbage).numPages 0 ⟨memMap, mem, []⟩
  rw [← BitMap.numClear_eq] at hpages
  simp only [Nat.zero_add] at hpages
  constructor
  · rintro ⟨⟨space, memMap', mem'⟩, h⟩
    obtain ⟨haccepted, -, hload⟩ := AddrSpace.load_accepted h
    obtain ⟨hframes, hposition⟩ := hpages.mp ⟨_, hload⟩
    exact ⟨haccepted.1, haccepted.2, hframes, hposition⟩
  · intro h
    obtain ⟨l, hload⟩ := hpages.mpr ⟨h.frames, h.position⟩
    rw [AddrSpace.load_eq, if_pos ⟨h.magic, h.fits⟩, hload]
    exact ⟨_, rfl⟩

end Loadable

section Exec

/-- The data of the kernel that the call works on. -/
structure KernelData where
  memMap : BitMap
  mainMemory : Memory
  processTable : Table Process
  syscallLock : Threads.Lock

/-- The thread that makes the call, and the processor while it runs. -/
structure Caller where
  thread : ThreadId
  registers : Registers
  pageTable : Option (List TranslationEntry)
  pageTableSize : Nat

/-- The machine of the caller. -/
def Caller.machine (c : Caller) (mem : Memory) : Machine :=
  ⟨c.registers, mem, c.pageTable, c.pageTableSize, false⟩

/-- What the call depends on beyond its arguments: `fileSystem->Open`, what is on the
stack in place of a header, and what the other threads have made of the data when they
hand `syscallLock` to a thread that waits for it. -/
structure Surroundings where
  openFile : List Byte → Option Executable
  garbage : Memory
  others : KernelData → Except Stop KernelData

/-- `syscallLock->Acquire()` in thread `t`. -/
def KernelData.acquire (d : KernelData) (others : KernelData → Except Stop KernelData)
    (t : ThreadId) : Except Stop KernelData :=
  if d.syscallLock.owner = some t then .ok d
  else if d.syscallLock.available then
    .ok { d with syscallLock := ⟨false, some t, d.syscallLock.waitingThreads⟩ }
  else
    match others { d with syscallLock := { d.syscallLock with
        waitingThreads := d.syscallLock.waitingThreads ++ [t] } } with
    | .ok handed => .ok { handed with syscallLock := { handed.syscallLock with owner := some t } }
    | .error stop => .error stop

/-- `syscallLock->Release()` in its owner. -/
def KernelData.release (d : KernelData) : KernelData :=
  match d.syscallLock.waitingThreads with
  | t :: rest => { d with syscallLock := ⟨d.syscallLock.available, some t, rest⟩ }
  | [] => { d with syscallLock := ⟨true, none, []⟩ }

variable (env : Surroundings) (c : Caller) (vaddr length : Word) (d : KernelData)

/-- `Exec_Syscall` from `syscallLock->Acquire()` on. -/
def execFile (file : Executable) : Except Stop (Int × KernelData) :=
  match d.acquire env.others c.thread with
  | .error stop => .error stop
  | .ok d =>
      match AddrSpace.load file env.garbage d.memMap d.mainMemory with
      | .error stop => .error stop
      | .ok (_, memMap, mainMemory) =>
          let (processID, processTable) :=
            d.processTable.put (some ⟨d.processTable.firstClear, 1, 0⟩)
          let d := ⟨memMap, mainMemory, processTable, d.syscallLock⟩
          if processID = -1 then .ok (-1, d) else .ok (processID, d.release)

/-- `Exec_Syscall`. -/
def execSyscall : Except Stop (Int × KernelData) :=
  match execName (c.machine d.mainMemory) vaddr length with
  | .error stop => .error stop
  | .ok (none, m) => .ok (-1, { d with mainMemory := m.mainMemory })
  | .ok (some name, m) =>
      match env.openFile name with
      | none => .ok (-1, { d with mainMemory := m.mainMemory })
      | some file => execFile env c { d with mainMemory := m.mainMemory } file

/-- A call that returns -1 has changed nothing. -/
def FailsClean : Prop :=
  ∀ d', execSyscall env c vaddr length d = .ok (-1, d') →
    (∀ p, d'.memMap.test p = d.memMap.test p) ∧ d'.mainMemory = d.mainMemory ∧
      d'.processTable = d.processTable ∧ d'.syscallLock.owner = d.syscallLock.owner

/-- The name at an address of user memory. -/
def nameAt (m : Machine) (vaddr length : Word) : List Byte :=
  cString ((List.range length.toNat).map fun i =>
    (m.byteAt (vaddr + BitVec.ofNat 32 i)).getD 0)

/-- Every slot of a table is taken. -/
def Table.Full {α : Type} (t : Table α) : Prop := ∀ b ∈ t.map, b = true

/-- The call gets as far as the process table, and finds it full. -/
structure FindsTableFull : Prop where
  fits : length.toNat < maxFileName
  readable : ∀ i, i < maxFileName →
    ((c.machine d.mainMemory).physical (vaddr + BitVec.ofNat 32 i)).isSome = true
  full : ∃ file d₁, env.openFile (nameAt (c.machine d.mainMemory) vaddr length) = some file ∧
    d.acquire env.others c.thread = .ok d₁ ∧ Loadable file env.garbage d₁.memMap ∧
    d₁.processTable.Full

variable {env c vaddr length d}

/-- A null byte ends the string. -/
theorem cString_set (buf : List Byte) {n : Nat} (hn : n < buf.length) :
    cString (buf.set n 0) = cString (buf.take n) := by
  induction buf generalizing n with
  | nil => exact absurd hn (by simp)
  | cons b buf ih =>
      cases n with
      | zero => simp [cString]
      | succ n =>
          have hrest := ih (n := n) (by simpa using hn)
          unfold cString at hrest ⊢
          rw [List.set_cons_succ, List.take_succ_cons, List.takeWhile_cons, List.takeWhile_cons,
            hrest]

/-- The name the call passes to `Open`: it gets there when all that `copyin` reads can be
read. -/
theorem execName_ok {m : Machine} (hlength : length.toNat < maxFileName)
    (h : ∀ i, i < maxFileName → (m.physical (vaddr + BitVec.ofNat 32 i)).isSome = true) :
    ∃ m', execName m vaddr length = .ok (some (nameAt m vaddr length), m') ∧
      m'.mainMemory = m.mainMemory := by
  obtain ⟨buf, m', hcopy, hsize, hbytes, hmemory, -⟩ := copyin_ok m vaddr maxFileName h
  have htake : buf.take length.toNat = (List.range length.toNat).map fun i =>
      (m.byteAt (vaddr + BitVec.ofNat 32 i)).getD 0 := by
    apply List.ext_getElem
    · rw [List.length_take, List.length_map, List.length_range]
      omega
    · intro i hi hi'
      rw [List.getElem_take, List.getElem_map, List.getElem_range, hbytes i, Option.getD_some]
  refine ⟨m', ?_, hmemory⟩
  unfold execName
  rw [copyinResult, hcopy]
  show (if (maxFileName : Int) = -1 then _ else _) = _
  rw [if_neg (by decide), if_pos hlength, cString_set buf (by omega), htake]
  rfl

/-- The ways the call gets to the end of the name. -/
theorem execName_cases {m m' : Machine} {name : Option (List Byte)}
    (h : execName m vaddr length = .ok (name, m')) :
    length.toNat < maxFileName ∧
      (∀ i, i < maxFileName → (m.physical (vaddr + BitVec.ofNat 32 i)).isSome = true) ∧
      name = some (nameAt m vaddr length) ∧ m'.mainMemory = m.mainMemory := by
  have hreadable : ∀ i, i < maxFileName →
      (m.physical (vaddr + BitVec.ofNat 32 i)).isSome = true := by
    intro i hi
    by_contra hnone
    rw [Bool.not_eq_true, Option.isSome_eq_false_iff, Option.isNone_iff_eq_none] at hnone
    rw [execName, copyinResult_none hi hnone] at h
    exact absurd h (by simp)
  have hlength : length.toNat < maxFileName := by
    by_contra hlong
    obtain ⟨buf, m₁, hcopy, -⟩ := copyin_ok m vaddr maxFileName hreadable
    rw [execName, copyinResult, hcopy] at h
    change (if (maxFileName : Int) = -1 then _ else _) = _ at h
    rw [if_neg (by decide), if_neg hlong] at h
    exact absurd h (by simp)
  obtain ⟨m₁, hok, hmemory⟩ := execName_ok hlength hreadable
  rw [hok, Except.ok.injEq, Prod.mk.injEq] at h
  obtain ⟨rfl, rfl⟩ := h
  exact ⟨hlength, hreadable, rfl, hmemory⟩

/-- `Find` answers -1 exactly on a full table. -/
theorem Table.firstClear_neg {α : Type} {t : Table α} : t.firstClear = -1 ↔ t.Full := by
  unfold firstClear Full
  cases hfind : t.map.findIdx? (· = false) with
  | none =>
      have hnone := List.findIdx?_eq_none_iff.mp hfind
      simpa using hnone
  | some n =>
      obtain ⟨hlt, hclear, -⟩ := List.findIdx?_eq_some_iff_getElem.mp hfind
      refine ⟨fun h => absurd h (by simp), fun h => ?_⟩
      rw [h _ (List.getElem_mem hlt)] at hclear
      exact absurd hclear (by simp)

theorem Table.put_full {α : Type} {t : Table α} (h : t.Full) (f : Option α) :
    t.put f = (-1, t) := by
  unfold put
  rw [firstClear_neg.mpr h, mark_neg t (by decide), store_neg t (by decide)]

/-- A thread that gets the lock without waiting for it changes nothing else; one that
waits is another than the owner. -/
theorem KernelData.acquire_cases {others : KernelData → Except Stop KernelData} {t : ThreadId}
    {d₁ : KernelData} (h : d.acquire others t = .ok d₁) :
    d₁.syscallLock.owner = some t ∧ (d₁.memMap = d.memMap ∨ d.syscallLock.owner ≠ some t) := by
  unfold acquire at h
  split at h
  · rename_i howner
    cases h
    exact ⟨howner, Or.inl rfl⟩
  · rename_i hother
    split at h
    · cases h
      exact ⟨rfl, Or.inl rfl⟩
    · split at h
      · cases h
        exact ⟨rfl, Or.inr hother⟩
      · exact absurd h (by simp)

/-- From the file on, the call returns -1 exactly when the table is full; the new address
space has its frames by then. -/
theorem execFile_eq {file : Executable} {d₁ d₂ : KernelData} {space : AddrSpace}
    {memMap : BitMap} {mem : Memory} (hlock : d.acquire env.others c.thread = .ok d₁)
    (hload : AddrSpace.load file env.garbage d₁.memMap d₁.mainMemory = .ok (space, memMap, mem)) :
    execFile env c d file = .ok (-1, d₂) ↔
      d₁.processTable.Full ∧ d₂ = ⟨memMap, mem, d₁.processTable, d₁.syscallLock⟩ := by
  unfold execFile
  simp only [hlock, hload]
  split
  · rename_i hneg
    have hfull := Table.firstClear_neg.mp (show d₁.processTable.firstClear = -1 from hneg)
    rw [Table.put_full hfull, Except.ok.injEq, Prod.mk.injEq]
    exact ⟨fun h => ⟨hfull, h.2.symm⟩, fun h => ⟨rfl, h.2.symm⟩⟩
  · rename_i hne
    rw [Except.ok.injEq, Prod.mk.injEq]
    exact ⟨fun h => absurd h.1 hne, fun h => absurd (Table.firstClear_neg.mpr h.1) hne⟩

/-- The call returns -1 behind `Open` only when it finds the table full. -/
theorem findsTableFull_of_execFile {file : Executable} {d' : KernelData} {m : Machine}
    (hname : execName (c.machine d.mainMemory) vaddr length =
      .ok (some (nameAt (c.machine d.mainMemory) vaddr length), m))
    (hfile : env.openFile (nameAt (c.machine d.mainMemory) vaddr length) = some file)
    (h : execFile env c d file = .ok (-1, d')) : FindsTableFull env c vaddr length d := by
  obtain ⟨hlength, hreadable, -, -⟩ := execName_cases hname
  refine ⟨hlength, hreadable, ?_⟩
  cases hlock : d.acquire env.others c.thread with
  | error stop =>
      rw [execFile, hlock] at h
      exact absurd h (by simp)
  | ok d₁ =>
      cases hload : AddrSpace.load file env.garbage d₁.memMap d₁.mainMemory with
      | error stop =>
          unfold execFile at h
          simp only [hlock, hload] at h
          exact absurd h (by simp)
      | ok loaded =>
          obtain ⟨space, memMap, mem⟩ := loaded
          obtain ⟨hfull, -⟩ := (execFile_eq hlock hload).mp h
          exact ⟨file, d₁, hfile, rfl, (load_isOk _ _ _ _).mp ⟨_, hload⟩, hfull⟩

/-- A new address space has a frame that was free. -/
theorem load_takes {file : Executable} {garbage mem mem' : Memory} {memMap memMap' : BitMap}
    {space : AddrSpace}
    (h : AddrSpace.load file garbage memMap mem = .ok (space, memMap', mem')) :
    ∃ p, memMap.test p = false ∧ memMap'.test p = true := by
  obtain ⟨taken, hlength, hloaded, hpages, -⟩ := AddrSpace.load_ok h
  have hstack : divRoundUp userStackSize pageSize = 8 := rfl
  cases htaken : taken with
  | nil =>
      rw [htaken, List.length_nil] at hlength
      omega
  | cons p rest =>
      have hp : p ∈ taken := by
        rw [htaken]
        exact List.mem_cons_self
      exact ⟨p, (hloaded.clear p hp).2, (hloaded.test p).mpr (Or.inr hp)⟩

/-- The call that finds the table full keeps what it has taken. -/
theorem FindsTableFull.not_clean (h : FindsTableFull env c vaddr length d) :
    ¬ FailsClean env c vaddr length d := by
  intro hclean
  obtain ⟨file, d₁, hfile, hlock, hloadable, hfull⟩ := h.full
  obtain ⟨m, hname, hmemory⟩ := execName_ok h.fits h.readable
  have hmem : m.mainMemory = d.mainMemory := hmemory
  obtain ⟨⟨space, memMap, mem⟩, hload⟩ :=
    (load_isOk file env.garbage d₁.memMap d₁.mainMemory).mpr hloadable
  have hexec : execSyscall env c vaddr length d =
      .ok (-1, ⟨memMap, mem, d₁.processTable, d₁.syscallLock⟩) := by
    unfold execSyscall
    simp only [hname, hfile, hmem]
    exact (execFile_eq hlock hload).mpr ⟨hfull, rfl⟩
  obtain ⟨hbits, -, -, howner⟩ := hclean _ hexec
  obtain ⟨hown, hkept⟩ := KernelData.acquire_cases hlock
  obtain ⟨p, hclear, hset⟩ := load_takes hload
  rcases hkept with hkept | hother
  · rw [hkept, ← hbits p, hset] at hclear
    exact absurd hclear (by simp)
  · exact hother (howner.symm.trans hown)

/-- An executable of no code and no data. -/
def emptyProgram : Executable where
  length := noffHeaderSize
  byte := fun a => match a with
    | 0 => 0xad
    | 1 => 0xdf
    | 2 => 0xba
    | _ => 0

/-- A program of two pages, with the name `a` at its start. -/
def execCaller : Caller :=
  ⟨0, fun _ => 0, some [⟨0, 0, true, false, false, false⟩, ⟨1, 1, true, false, false, false⟩], 2⟩

/-- The kernel with as many processes as it has room for. -/
def fullKernel : KernelData where
  memMap := ((BitMap.new numPhysPages).mark 0).mark 1
  mainMemory := fun a => if a = 0 then 97 else 0
  processTable := ⟨List.replicate 32 true, (List.range 32).map fun i => some ⟨i, 1, 0⟩, 0⟩
  syscallLock := ⟨true, none, []⟩

/-- A file system with the file `a`. -/
def execSurroundings : Surroundings where
  openFile := fun name => if name = [97] then some emptyProgram else none
  garbage := fun _ => 0
  others := fun d => .ok d

theorem fullKernel_frames : 8 ≤ fullKernel.memMap.numClear := by
  have hsubset : (Finset.range 10 \ {0, 1}) ⊆ fullKernel.memMap.clearBits := by
    intro p hp
    simp only [Finset.mem_sdiff, Finset.mem_range, Finset.mem_insert, Finset.mem_singleton,
      not_or] at hp
    refine BitMap.mem_clearBits.mpr ⟨?_, ?_⟩
    · show p < numPhysPages
      unfold numPhysPages
      omega
    · show (((BitMap.new numPhysPages).mark 0).mark 1).test p = false
      rw [BitMap.test_mark_ne (by omega), BitMap.test_mark_ne (by omega), BitMap.test_new]
  rw [BitMap.numClear_eq]
  exact Finset.card_le_card hsubset

end Exec

end Userprog
end Nachos
