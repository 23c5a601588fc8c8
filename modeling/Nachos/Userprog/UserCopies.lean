import Nachos.Machine.UserMemory
import Nachos.Userprog.System

/-!
# Copying from and to user memory

`copyin` and `copyout` go through `ReadMem` and `WriteMem` byte by byte.  Where every
byte has a valid translation they do what they are for, whatever frames the pages are
in.  A byte without one raises an exception, on which the kernel halts the machine: the
loop in `copyin` that tries again, and the `return -1` behind it, are never reached.
-/

namespace Nachos

namespace Userprog

open Threads Lib Machine

theorem add_one_add (vaddr : Word) (i : Nat) :
    vaddr + 1 + BitVec.ofNat 32 i = vaddr + BitVec.ofNat 32 (i + 1) := by
  rw [BitVec.add_assoc, Nat.add_comm i 1]
  congr 1
  exact (BitVec.ofNat_add 1 i).symm

theorem setWidth_signExtend (b : Byte) : (b.signExtend 32).setWidth 8 = b := by
  ext i hi
  rw [BitVec.getElem_setWidth, BitVec.getLsbD_signExtend, BitVec.getLsbD_eq_getElem hi]
  simp [hi, Nat.lt_trans hi (by decide : 8 < 32)]

/-- `copyin` reads the bytes of the current address space. -/
theorem copyin_ok (m : Machine) (vaddr : Word) (len : Nat)
    (h : ∀ i, i < len → (m.physical (vaddr + BitVec.ofNat 32 i)).isSome = true) :
    ∃ buf m', copyin len vaddr m = .ok buf m' ∧ buf.length = len ∧
      (∀ i (hi : i < buf.length), m.byteAt (vaddr + BitVec.ofNat 32 i) = some buf[i]) ∧
      m'.mainMemory = m.mainMemory ∧ SamePages m m' := by
  induction len generalizing vaddr m with
  | zero => exact ⟨[], m, rfl, rfl, fun i hi => absurd hi (by simp), rfl, rfl, rfl⟩
  | succ len ih =>
      have hfirst := h 0 (by omega)
      rw [show vaddr + BitVec.ofNat 32 0 = vaddr by simp] at hfirst
      obtain ⟨p, hp⟩ := Option.isSome_iff_exists.mp hfirst
      obtain ⟨m₁, hread, hmemory, hpages⟩ := readMem_physical hp
      obtain ⟨buf, m', hrest, hlength, hbytes, hmemory', hpages'⟩ := ih m₁ (vaddr + 1) (by
        intro i hi
        rw [hpages.physical, add_one_add]
        exact h (i + 1) (by omega))
      refine ⟨m.mainMemory p :: buf, m', ?_, by simp [hlength], ?_, hmemory'.trans hmemory,
        hpages.trans hpages'⟩
      · simp only [copyin, bind_apply, hread, hrest, setWidth_signExtend]
        rfl
      · intro i hi
        cases i with
        | zero =>
            rw [show vaddr + BitVec.ofNat 32 0 = vaddr by simp, byteAt, hp]
            rfl
        | succ i =>
            have hbyte := hbytes i (by simpa using hi)
            rw [byteAt, hpages.physical, hmemory, add_one_add] at hbyte
            exact hbyte

/-- `copyin` does not get beyond a byte that has no valid translation. -/
theorem copyin_fails (m : Machine) (vaddr : Word) {len : Nat} (i : Nat) (hi : i < len)
    (h : m.physical (vaddr + BitVec.ofNat 32 i) = none) :
    ∃ trap m', copyin len vaddr m = .error trap m' := by
  induction len generalizing vaddr m i with
  | zero => omega
  | succ len ih =>
      cases hfirst : m.physical vaddr with
      | none =>
          obtain ⟨trap, m', hread⟩ := readMem_fails hfirst
          refine ⟨trap, m', ?_⟩
          simp only [copyin, bind_apply, hread]
      | some p =>
          obtain ⟨m₁, hread, -, hpages⟩ := readMem_physical hfirst
          cases i with
          | zero =>
              rw [show vaddr + BitVec.ofNat 32 0 = vaddr by simp, hfirst] at h
              exact absurd h (by simp)
          | succ i =>
              obtain ⟨trap, m', hrest⟩ := ih m₁ (vaddr + 1) i (by omega) (by
                rw [hpages.physical, add_one_add]
                exact h)
              refine ⟨trap, m', ?_⟩
              simp only [copyin, bind_apply, hread, hrest]

/-- The result, the buffer and the machine when `copyin` returns; otherwise the machine
has been halted. -/
def copyinResult (m : Machine) (vaddr : Word) (len : Nat) : Option (Int × List Byte × Machine) :=
  match copyin len vaddr m with
  | .ok buf m' => some (len, buf, m')
  | .error _ _ => none

/-- What `copyin` says it does: it returns -1 if some byte has no valid translation, and
otherwise the length with the bytes in the buffer, and changes no memory. -/
def CopiesIn (m : Machine) (vaddr : Word) (len : Nat) : Prop :=
  ∃ rv buf m', copyinResult m vaddr len = some (rv, buf, m') ∧ m'.mainMemory = m.mainMemory ∧
    ((∃ i, i < len ∧ m.byteAt (vaddr + BitVec.ofNat 32 i) = none) → rv = -1) ∧
    ((∀ i, i < len → m.byteAt (vaddr + BitVec.ofNat 32 i) ≠ none) →
      rv = len ∧ buf.length = len ∧
        ∀ i (hi : i < buf.length), m.byteAt (vaddr + BitVec.ofNat 32 i) = some buf[i])

/-- It does not return where a byte has no valid translation. -/
theorem CopiesIn.physical {m : Machine} {vaddr : Word} {len : Nat} (h : CopiesIn m vaddr len)
    (i : Nat) (hi : i < len) : (m.physical (vaddr + BitVec.ofNat 32 i)).isSome = true := by
  obtain ⟨rv, buf, m', hresult, -⟩ := h
  by_contra hnone
  rw [Bool.not_eq_true, Option.isSome_eq_false_iff, Option.isNone_iff_eq_none] at hnone
  obtain ⟨trap, m'', hfails⟩ := copyin_fails m vaddr i hi hnone
  rw [copyinResult, hfails] at hresult
  exact absurd hresult (by simp)

/-- It does so exactly when every byte has a valid translation. -/
theorem copiesIn_iff (m : Machine) (vaddr : Word) (len : Nat) :
    CopiesIn m vaddr len ↔
      ∀ i, i < len → (m.physical (vaddr + BitVec.ofNat 32 i)).isSome = true := by
  constructor
  · exact fun h => h.physical
  · intro h
    obtain ⟨buf, m', hcopy, hlength, hbytes, hmemory, -⟩ := copyin_ok m vaddr len h
    refine ⟨len, buf, m', ?_, hmemory, ?_, ?_⟩
    · rw [copyinResult, hcopy]
    · rintro ⟨i, hi, hnone⟩
      have hsome := h i hi
      rw [byteAt, Option.map_eq_none_iff] at hnone
      rw [hnone] at hsome
      exact absurd hsome (by simp)
    · exact fun _ => ⟨rfl, hlength, hbytes⟩

/-- A page table without a valid entry: `copyin` of one byte does not return. -/
theorem copyin_halts :
    ¬ CopiesIn ⟨fun _ => 0, fun _ => 0, some [⟨0, 0, false, false, false, false⟩], 1, false⟩ 0 1 := by
  intro h
  exact absurd (h.physical 0 (by decide)) (by decide)

section RoundTrip

/-- The pages of the current address space are in frames of their own, and can be
written to. -/
structure Mapped (m : Machine) (table : List TranslationEntry) : Prop where
  installed : m.pageTable.map layout = some table
  size : m.pageTableSize = table.length
  entry : ∀ (i : Nat) e, table[i]? = some e →
    e.valid = true ∧ e.readOnly = false ∧ e.pageFrame < numPhysPages
  distinct : ∀ (i j : Nat) e e', table[i]? = some e → table[j]? = some e' →
    e.pageFrame = e'.pageFrame → i = j

variable {m m' : Machine} {table : List TranslationEntry} {addr addr' : Word}

theorem Mapped.samePages (h : Mapped m table) (hpages : SamePages m m') : Mapped m' table :=
  ⟨hpages.table.trans h.installed, hpages.size.trans h.size, h.entry, h.distinct⟩

/-- Every byte of the address space has a physical address. -/
theorem Mapped.physical (h : Mapped m table) (haddr : addr.toNat / pageSize < table.length) :
    ∃ e, table[addr.toNat / pageSize]? = some e ∧
      m.physical addr = some (e.pageFrame * pageSize + addr.toNat % pageSize) := by
  have hentry : table[addr.toNat / pageSize]? = some table[addr.toNat / pageSize] :=
    List.getElem?_eq_getElem haddr
  obtain ⟨hvalid, -, hframe⟩ := h.entry _ _ hentry
  refine ⟨_, hentry, ?_⟩
  rw [physical_eq_layout, h.installed]
  simp only [Option.bind_eq_bind, Option.bind_some, hentry]
  rw [if_pos ⟨by rw [h.size]; exact haddr, hvalid, hframe⟩]

/-- Different bytes have different addresses. -/
theorem Mapped.injective (h : Mapped m table) {p : Nat} (haddr : m.physical addr = some p)
    (haddr' : m.physical addr' = some p) : addr = addr' := by
  have hpage : ∀ {a : Word}, m.physical a = some p → a.toNat / pageSize < table.length := by
    intro a ha
    obtain ⟨-, -, -, -, hbound, -⟩ := physical_eq_some ha
    rw [← h.size]
    exact hbound
  obtain ⟨e, he, hp⟩ := h.physical (hpage haddr)
  obtain ⟨e', he', hp'⟩ := h.physical (hpage haddr')
  have hsame := Option.some.inj (hp.symm.trans haddr)
  have hsame' := Option.some.inj (hp'.symm.trans haddr')
  have hframe : e.pageFrame = e'.pageFrame := by
    unfold pageSize at *
    omega
  have hvpn := h.distinct _ _ e e' he he' hframe
  apply BitVec.eq_of_toNat_eq
  rw [hframe] at hsame
  unfold pageSize at *
  omega

/-- Writing a byte changes that byte of the address space only. -/
theorem Mapped.writeMem (h : Mapped m table) (addr value : Word)
    (haddr : addr.toNat / pageSize < table.length) :
    ∃ m', Machine.writeMem addr 1 value m = .ok () m' ∧ SamePages m m' ∧
      ∀ a, m'.byteAt a = if a = addr then some (value.setWidth 8) else m.byteAt a := by
  obtain ⟨e, he, hp⟩ := h.physical haddr
  obtain ⟨m', hwrite, hmemory, hpages⟩ := writeMem_physical value hp (by
    intro entries entry hinstalled hfound
    have hlayout := h.installed
    rw [hinstalled, Option.map_some] at hlayout
    have hentry : table[addr.toNat / pageSize]? = some entry.unused := by
      rw [← Option.some.inj hlayout, layout, List.getElem?_map, hfound]
      rfl
    exact (h.entry _ _ hentry).2.1)
  refine ⟨m', hwrite, hpages, fun a => ?_⟩
  rw [byteAt, hpages.physical, hmemory]
  by_cases ha : a = addr
  · rw [ha, hp, if_pos rfl, Option.map_some, Function.update_self]
  · rw [if_neg ha, byteAt]
    cases hq : m.physical a with
    | none => rfl
    | some q =>
        have hne : q ≠ e.pageFrame * pageSize + addr.toNat % pageSize := by
          rintro rfl
          exact ha (h.injective hq hp)
        rw [Option.map_some, Option.map_some, Function.update_of_ne hne]

/-- There are no more pages than frames. -/
theorem Mapped.length_le (h : Mapped m table) : table.length ≤ numPhysPages := by
  have hnodup : (table.map TranslationEntry.pageFrame).Nodup := by
    rw [List.nodup_iff_getElem?_ne_getElem?]
    intro i j hij hj heq
    rw [List.length_map] at hj
    rw [List.getElem?_map, List.getElem?_map, List.getElem?_eq_getElem hj,
      List.getElem?_eq_getElem (Nat.lt_trans hij hj), Option.map_some, Option.map_some] at heq
    have hsame := h.distinct i j _ _ (List.getElem?_eq_getElem (Nat.lt_trans hij hj))
      (List.getElem?_eq_getElem hj) (Option.some.inj heq)
    omega
  have hsubset : (table.map TranslationEntry.pageFrame).toFinset ⊆ Finset.range numPhysPages := by
    intro p hp
    obtain ⟨e, he, rfl⟩ := List.mem_map.mp (List.mem_toFinset.mp hp)
    obtain ⟨i, hi⟩ := List.mem_iff_getElem?.mp he
    exact Finset.mem_range.mpr (h.entry i e hi).2.2
  have hcard := Finset.card_le_card hsubset
  rwa [List.toFinset_card_of_nodup hnodup, List.length_map, Finset.card_range] at hcard

/-- `copyout` writes the bytes of the buffer, and no others. -/
theorem Mapped.copyout (h : Mapped m table) (buf : Nat → Byte) (len n : Nat) (vaddr : Word)
    (hrange : vaddr.toNat + len ≤ table.length * pageSize) :
    ∃ m', Userprog.copyout buf len n vaddr m = .ok () m' ∧ SamePages m m' ∧
      ∀ a, m'.byteAt a =
        if vaddr.toNat ≤ a.toNat ∧ a.toNat < vaddr.toNat + len then
          some (buf (n + (a.toNat - vaddr.toNat))) else m.byteAt a := by
  have hpages := h.length_le
  unfold numPhysPages at hpages
  induction len generalizing m n vaddr with
  | zero =>
      refine ⟨m, rfl, ⟨rfl, rfl⟩, fun a => ?_⟩
      rw [if_neg (by omega)]
  | succ len ih =>
      obtain ⟨m₁, hwrite, hpages, hbyte⟩ := h.writeMem vaddr ((buf n).signExtend 32) (by
        unfold pageSize at *
        omega)
      have hnext : (vaddr + 1).toNat = vaddr.toNat + 1 := by
        rw [BitVec.toNat_add, show (1 : Word).toNat = 1 from rfl]
        unfold pageSize at hrange
        omega
      obtain ⟨m', hrest, hpages', hbytes⟩ := ih (h.samePages hpages) (n + 1) (vaddr + 1) (by omega)
      refine ⟨m', ?_, hpages.trans hpages', fun a => ?_⟩
      · simp only [Userprog.copyout, bind_apply, hwrite, hrest]
      · rw [hbytes a, hbyte a, setWidth_signExtend, hnext]
        by_cases ha : a = vaddr
        · subst ha
          rw [if_neg (by omega), if_pos rfl, if_pos (by omega), Nat.sub_self, Nat.add_zero]
        · have hne : a.toNat ≠ vaddr.toNat := fun heq => ha (BitVec.eq_of_toNat_eq heq)
          rw [if_neg ha]
          by_cases hin : vaddr.toNat + 1 ≤ a.toNat ∧ a.toNat < vaddr.toNat + 1 + len
          · rw [if_pos hin, if_pos (by omega)]
            congr 2
            omega
          · rw [if_neg hin, if_neg (by omega)]

/-- The result and the machine when `copyout` returns. -/
def copyoutResult (m : Machine) (vaddr : Word) (n : Nat) (buf : Nat → Byte) :
    Option (Int × Machine) :=
  match Userprog.copyout buf n 0 vaddr m with
  | .ok _ m' => some (n, m')
  | .error _ _ => none

/-- What `copyout` has written, `copyin` reads, and the rest of the address space is as
before. -/
theorem copyin_copyout (m : Machine) (table : List TranslationEntry) (vaddr : Word) (n : Nat)
    (buf : Nat → Byte) (h : Mapped m table)
    (hrange : vaddr.toNat + n ≤ table.length * pageSize) :
    ∃ m₁ m₂, copyoutResult m vaddr n buf = some ((n : Int), m₁) ∧
      copyinResult m₁ vaddr n = some ((n : Int), (List.range n).map buf, m₂) ∧
      (∀ a, ¬ (vaddr.toNat ≤ a.toNat ∧ a.toNat < vaddr.toNat + n) → m₁.byteAt a = m.byteAt a) ∧
      ∀ a, m₂.byteAt a = m₁.byteAt a := by
  have hpages := h.length_le
  unfold numPhysPages at hpages
  obtain ⟨m₁, hcopyout, hsame, hbytes⟩ := h.copyout buf n 0 vaddr hrange
  have hoffset : ∀ i, i < n → (vaddr + BitVec.ofNat 32 i).toNat = vaddr.toNat + i := by
    intro i hi
    rw [BitVec.toNat_add, BitVec.toNat_ofNat]
    unfold pageSize at hrange
    omega
  have hinside : ∀ i, i < n → m₁.byteAt (vaddr + BitVec.ofNat 32 i) = some (buf i) := by
    intro i hi
    rw [hbytes, hoffset i hi, if_pos (by omega)]
    congr 2
    omega
  obtain ⟨buf₂, m₂, hcopyin, hlength, hread, hmemory, hsame₂⟩ := copyin_ok m₁ vaddr n (by
    intro i hi
    have hbyte := hinside i hi
    rw [byteAt] at hbyte
    cases hp : m₁.physical (vaddr + BitVec.ofNat 32 i) with
    | none =>
        rw [hp] at hbyte
        exact absurd hbyte (by simp)
    | some p => rfl)
  have hbuf : buf₂ = (List.range n).map buf := by
    apply List.ext_getElem
    · simp [hlength]
    · intro i hi hi'
      rw [List.getElem_map, List.getElem_range]
      exact Option.some.inj ((hread i hi).symm.trans (hinside i (by omega)))
  refine ⟨m₁, m₂, ?_, ?_, ?_, ?_⟩
  · rw [copyoutResult, hcopyout]
  · rw [copyinResult, hcopyin, hbuf]
  · intro a ha
    rw [hbytes a, if_neg ha]
  · intro a
    rw [byteAt, byteAt, hsame₂.physical, hmemory]

/-- Two pages in frames out of order. -/
def twoPages : List TranslationEntry :=
  [⟨0, 5, true, false, false, false⟩, ⟨1, 3, true, false, false, false⟩]

theorem twoPages_frame {i : Nat} {e : TranslationEntry} (he : twoPages[i]? = some e) :
    e.valid = true ∧ e.readOnly = false ∧
      (i = 0 ∧ e.pageFrame = 5 ∨ i = 1 ∧ e.pageFrame = 3) := by
  rcases i with _ | _ | i
  · obtain rfl := Option.some.inj he
    decide
  · obtain rfl := Option.some.inj he
    decide
  · simp [twoPages] at he

theorem mapped_twoPages (mem : Memory) :
    Mapped ⟨fun _ => 0, mem, some twoPages, 2, false⟩ twoPages where
  installed := rfl
  size := rfl
  entry := by
    intro i e he
    obtain ⟨hvalid, hwritable, hframe⟩ := twoPages_frame he
    refine ⟨hvalid, hwritable, ?_⟩
    unfold numPhysPages
    omega
  distinct := by
    intro i j e e' he he' hsame
    obtain ⟨-, -, hframe⟩ := twoPages_frame he
    obtain ⟨-, -, hframe'⟩ := twoPages_frame he'
    omega

/-- Four bytes across the end of a page. -/
theorem copyin_copyout_twoPages :
    ∃ m₁ m₂, copyoutResult ⟨fun _ => 0, fun _ => 0, some twoPages, 2, false⟩ 126 4
        (fun i => BitVec.ofNat 8 (i + 254)) = some (4, m₁) ∧
      copyinResult m₁ 126 4 = some (4, [254, 255, 0, 1], m₂) := by
  obtain ⟨m₁, m₂, hcopyout, hcopyin, -⟩ := copyin_copyout _ twoPages 126 4
    (fun i => BitVec.ofNat 8 (i + 254)) (mapped_twoPages fun _ => 0) (by decide)
  exact ⟨m₁, m₂, hcopyout, hcopyin⟩

end RoundTrip

/-- The page table that `AddrSpace::AddrSpace` makes maps the pages to frames of their
own. -/
theorem AddrSpace.load_mapped {executable : Executable} {garbage mem mem' : Memory}
    {memMap memMap' : BitMap} {space : AddrSpace} (hbits : memMap.numBits = numPhysPages)
    (h : AddrSpace.load executable garbage memMap mem = .ok (space, memMap', mem'))
    (registers : Registers) :
    Mapped ⟨registers, mem', some space.pageTable, space.numPages, false⟩
      (layout space.pageTable) := by
  obtain ⟨taken, hlength, hloaded, -, -⟩ := AddrSpace.load_ok h
  have htable : space.pageTable = taken.mapIdx fun k p => pageEntry k p := by
    have hpages := hloaded.pageTable
    simpa using hpages
  have hentry : ∀ (i : Nat) e, (layout space.pageTable)[i]? = some e →
      ∃ p, taken[i]? = some p ∧ e = pageEntry i p := by
    intro i e he
    rw [layout, List.getElem?_map, htable, List.getElem?_mapIdx, Option.map_map,
      Option.map_eq_some_iff] at he
    obtain ⟨p, hp, rfl⟩ := he
    exact ⟨p, hp, rfl⟩
  have hclear : ∀ (i p : Nat), taken[i]? = some p → p < numPhysPages := by
    intro i p hp
    rw [← hbits]
    exact (hloaded.clear p (List.mem_of_getElem? hp)).1
  have hframe : ∀ (i p : Nat), p < numPhysPages → (pageEntry i p).pageFrame = p := by
    intro i p hp
    show ((p : Int) % 2 ^ 32).toNat = p
    unfold numPhysPages at hp
    omega
  constructor
  case installed => rfl
  case size =>
    show space.numPages = (layout space.pageTable).length
    rw [layout, List.length_map, htable, List.length_mapIdx, hlength]
  case entry =>
    intro i e he
    obtain ⟨p, hp, rfl⟩ := hentry i e he
    refine ⟨rfl, rfl, ?_⟩
    rw [hframe i p (hclear i p hp)]
    exact hclear i p hp
  case distinct =>
    intro i j e e' he he' hsame
    obtain ⟨p, hp, rfl⟩ := hentry i e he
    obtain ⟨q, hq, rfl⟩ := hentry j e' he'
    rw [hframe i p (hclear i p hp), hframe j q (hclear j q hq)] at hsame
    subst hsame
    have hi := (List.getElem?_eq_some_iff.mp hp).1
    exact (List.getElem?_inj hi hloaded.nodup).mp (hp.trans hq.symm)

end Userprog

end Nachos
