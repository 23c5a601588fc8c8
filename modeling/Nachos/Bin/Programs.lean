import Nachos.Bin.Conversions
import Nachos.Userprog.ExecCall

/-!
# From the object file to the process

`test/newscript` has the linker put the code at address 0, the data behind it and the
data without contents behind that.  The loader counts on this layout: it reads no more of
the header than the sizes and the place of the code.  This module follows an object file
through `coff2noff` and `AddrSpace::AddrSpace` to what the program finds in its memory.
-/

namespace Nachos
namespace Bin

open Userprog Lib

/-- An object file that was linked with `test/newscript`: from address 0 on there are the
code, the data and the data without contents, one behind the other. -/
structure Linked (file : Executable) : Prop where
  coff : IsCoff file
  possible : Possible file
  bss : (ofKind .bss (sections file)).length ≤ 1
  code : ∃ s rest, copied (sections file) = s :: rest ∧ s.kind = .text
  follows : ∀ pre s post, copied (sections file) ++ ofKind .bss (sections file) =
    pre ++ s :: post → s.sPaddr.toNat = bytesOf pre
  small : bytesOf (copied (sections file)) + bytesOf (ofKind .bss (sections file)) < 2 ^ 32

/-- The pages of the program and of its stack. -/
def programPages (file : Executable) : Nat :=
  divRoundUp (bytesOf (copied (sections file)) + bytesOf (ofKind .bss (sections file))) pageSize +
    divRoundUp userStackSize pageSize

/-- The file that `main` leaves behind. -/
def noffFile (file : Executable) (output : Memory) : Executable where
  length := noffHeaderSize + bytesOf (copied (sections file))
  byte := output

/-- The machine has the program in its memory: every address of its pages is in a frame of
the machine that was clear, the code and the data are at their addresses, behind them there
is what the frames held before, at the same places, and there are no more addresses. -/
structure HasProgram (file : Executable) (memMap : BitMap) (mem : Memory) (m : Machine) :
    Prop where
  clear : ∀ v : Word, v.toNat < programPages file * pageSize → ∃ p, m.physical v = some p ∧
    p / pageSize < numPhysPages ∧ memMap.test (p / pageSize) = false
  sections : ∀ s ∈ copied (sections file), ∀ k, k < s.sSize.toNat →
    (s.sPaddr + BitVec.ofNat 32 k).toNat < programPages file * pageSize ∧
      m.byteAt (s.sPaddr + BitVec.ofNat 32 k) = some (file.byte (s.sScnptr.toNat + k))
  rest : ∀ v : Word, bytesOf (copied (Bin.sections file)) ≤ v.toNat →
    ∀ p, m.physical v = some p → m.mainMemory p = mem p
  outside : ∀ v : Word, programPages file * pageSize ≤ v.toNat → m.physical v = none

section Spaces

variable {executable : Executable} {garbage mem mem' : Memory} {memMap memMap' : BitMap}
  {space : AddrSpace}

/-- The machine of a process in this address space, by `RestoreState`. -/
def spaceMachine (space : AddrSpace) (registers : Registers) (mem : Memory) : Machine :=
  ⟨registers, mem, some space.pageTable, space.numPages, false⟩

/-- A program reads and writes the pages that the address space was loaded into, each of
them in a frame that was clear. -/
theorem machine_physical (hbits : memMap.numBits = numPhysPages)
    (h : AddrSpace.load executable garbage memMap mem = .ok (space, memMap', mem'))
    (registers : Registers) {v : Word} (hv : v.toNat < space.numPages * pageSize) :
    (spaceMachine space registers mem').physical v = some (space.location v.toNat) ∧
      space.location v.toNat / pageSize < numPhysPages ∧
      memMap.test (space.location v.toNat / pageSize) = false ∧
      space.byteAt mem' v.toNat = some (mem' (space.location v.toNat)) := by
  obtain ⟨taken, hlength, hloaded, -, -⟩ := AddrSpace.load_ok h
  have hpage : v.toNat / pageSize < taken.length := by
    rw [hlength]
    unfold pageSize at *
    omega
  -- The entry of the page names a frame that the constructor took.
  obtain ⟨hframe, hclear⟩ := hloaded.clear _ (List.getElem_mem hpage)
  have hframe : taken[v.toNat / pageSize] < numPhysPages := hbits ▸ hframe
  have hentry : space.pageTable[v.toNat / pageSize]? =
      some (pageEntry (v.toNat / pageSize) taken[v.toNat / pageSize]) := by
    have htable : space.pageTable = taken.mapIdx fun k p => pageEntry (0 + k) p := by
      simpa using hloaded.pageTable
    rw [htable, List.getElem?_mapIdx, List.getElem?_eq_getElem hpage, Option.map_some,
      Nat.zero_add]
  generalize taken[v.toNat / pageSize] = p at *
  have hpageFrame : (pageEntry (v.toNat / pageSize) p).pageFrame = p := by
    show ((p : Int) % 2 ^ 32).toNat = p
    unfold numPhysPages at hframe
    omega
  have hlocation : space.location v.toNat = p * pageSize + v.toNat % pageSize := by
    unfold AddrSpace.location
    rw [hentry]
    rfl
  have hsame : (p * pageSize + v.toNat % pageSize) / pageSize = p := by
    unfold pageSize
    omega
  have hphysical : (spaceMachine space registers mem').physical v =
      some (p * pageSize + v.toNat % pageSize) := by
    unfold Machine.physical spaceMachine
    simp only [Option.bind_eq_bind, Option.bind_some, hentry, hpageFrame]
    rw [if_pos ⟨by omega, rfl, hframe⟩]
  rw [hlocation, hsame]
  refine ⟨hphysical, hframe, hclear, ?_⟩
  rw [AddrSpace.byteAt, hentry]
  rfl

/-- Behind its last page an address space has no addresses. -/
theorem machine_physical_none (space : AddrSpace) (registers : Registers) {v : Word}
    (hv : space.numPages * pageSize ≤ v.toNat) :
    (spaceMachine space registers mem).physical v = none := by
  cases hphysical : (spaceMachine space registers mem).physical v with
  | none => rfl
  | some p =>
      obtain ⟨-, -, -, -, hbound, -⟩ := Machine.physical_eq_some hphysical
      have hbound : v.toNat / pageSize < space.numPages := hbound
      unfold pageSize at *
      omega

end Spaces

section Headers

variable {bytes bytes' : Memory}

/-- The header is a matter of the first bytes. -/
theorem readHeader_congr (h : ∀ a, a < noffHeaderSize → bytes a = bytes' a) :
    NoffHeader.read bytes = NoffHeader.read bytes' := by
  unfold NoffHeader.read Segment.read Memory.loadInt
  simp (disch := decide) only [h]

/-- The loader finds the header that was written. -/
theorem noffH_noffFile (file : Executable) {noffH : NoffHeader}
    (hmagic : noffH.noffMagic = noffMagic) (contents stack : Memory) :
    (noffFile file (writeHeader noffH contents)).noffH stack = noffH := by
  obtain ⟨bytes, hread, hbytes⟩ : ∃ bytes,
      (noffFile file (writeHeader noffH contents)).readAt stack 0 noffHeaderSize 0 = some bytes ∧
        ∀ a, a < noffHeaderSize → bytes a = writeHeader noffH contents a := by
    have hlength : noffHeaderSize ≤ (noffFile file (writeHeader noffH contents)).length :=
      Nat.le_add_right ..
    refine ⟨_, rfl, fun a ha => ?_⟩
    rw [show (0 : Word).toNat = 0 from rfl, if_pos (by omega), Nat.sub_zero, Nat.zero_add]
    rfl
  rw [Executable.noffH, hread, Option.getD_some, readHeader_congr hbytes, read_writeHeader,
    NoffHeader.normalize, if_neg]
  exact fun hturned => hturned.1 hmagic

end Headers

section Layout

variable {file : Executable} {c : Conversion}

/-- The code is copied, and after it at most the data. -/
theorem Linked.copied_cases (h : Linked file) :
    (∃ s, copied (sections file) = [s] ∧ s.kind = .text ∧ ofKind .data (sections file) = []) ∨
      ∃ s t, copied (sections file) = [s, t] ∧ s.kind = .text ∧ t.kind = .data := by
  obtain ⟨s, rest, hcopied, hs⟩ := h.code
  have hlength := copied_length (sections file)
  have htext := h.possible.text
  have hdata := h.possible.data
  obtain ⟨hmem, hsize, -⟩ := mem_copied.mp
    (show s ∈ copied (sections file) by rw [hcopied]; exact List.mem_cons_self)
  have hpos := List.length_pos_of_mem (mem_ofKind.mpr ⟨hmem, hsize, hs⟩)
  rw [hcopied, List.length_cons] at hlength
  match rest with
  | [] =>
      left
      refine ⟨s, hcopied, hs, ?_⟩
      apply List.eq_nil_of_length_eq_zero
      rw [List.length_nil] at hlength
      omega
  | [t] =>
      right
      have ht := mem_copied.mp
        (show t ∈ copied (sections file) by rw [hcopied]; simp)
      have hne := h.possible.text_unique (show _ = [] ++ s :: [t] from hcopied) hs t
        (List.mem_singleton.mpr rfl)
      exact ⟨s, t, hcopied, hs, ht.2.2.resolve_left hne⟩
  | t :: u :: rest =>
      rw [List.length_cons, List.length_cons] at hlength
      omega

/-- The extent of at most one section has its size. -/
theorem extent_size {l : List Scnhdr} (h : l.length ≤ 1) : (extent l).2.toNat = bytesOf l := by
  match l with
  | [] => rfl
  | [s] => simp [extent, extend, bytesOf]
  | s :: t :: rest => simp at h

/-- The header of a program has the sizes of its sections. -/
theorem Converted.numPages (h : Converted file (sections file) c) (hlinked : Linked file) :
    c.noffH.numPages = programPages file := by
  have huninit : c.noffH.uninitData.size.toNat = bytesOf (ofKind .bss (sections file)) := by
    rw [h.uninitSize, extent_size hlinked.bss]
  have hsmall := hlinked.small
  have hsum : c.noffH.code.size.toNat + c.noffH.initData.size.toNat =
      bytesOf (copied (sections file)) := by
    rcases hlinked.copied_cases with ⟨s, hcopied, hs, hdata⟩ | ⟨s, t, hcopied, hs, ht⟩
    · have hcode := h.code [] s [] hcopied hs (by simp)
      rw [hcode, h.initSize.mpr hdata, hcopied]
      simp [bytesOf]
    · have hcode := h.code [] s [t] hcopied hs (by simp [ht])
      have hinit := h.initData [s] t [] hcopied ht
      rw [hcode, hinit, hcopied]
      simp [bytesOf]
  have hsize : c.noffH.size =
      bytesOf (copied (sections file)) + bytesOf (ofKind .bss (sections file)) := by
    unfold NoffHeader.size
    rw [BitVec.toNat_add, BitVec.toNat_add]
    omega
  rw [NoffHeader.numPages, hsize, programPages]

/-- The code is directly behind the header. -/
theorem Converted.codeStart (h : Converted file (sections file) c) (hlinked : Linked file) :
    c.noffH.code.inFileAddr.toNat = noffHeaderSize := by
  obtain ⟨s, rest, hcopied, hs⟩ := hlinked.code
  have hcode := h.code [] s rest hcopied hs
    (hlinked.possible.text_unique (show _ = [] ++ s :: rest from hcopied) hs)
  rw [hcode]
  rfl

/-- The header keeps its magic number. -/
theorem loadSection_magic {s : Scnhdr} {c c' : Conversion} (h : loadSection file s c = .ok c') :
    c'.noffH.noffMagic = c.noffH.noffMagic := by
  unfold loadSection copySection at h
  split at h
  · cases h
    rfl
  · split at h
    · split at h
      · cases h
        rfl
      · exact absurd h (by simp)
    · split at h
      · exact absurd h (by simp)
      · split at h
        · cases h
          rfl
        · exact absurd h (by simp)
    · simp only at h
      split at h
      · split at h
        · exact absurd h (by simp)
        · cases h
          rfl
      · cases h
        rfl
    · exact absurd h (by simp)

/-- What is written has the magic number. -/
theorem magic_of_main {garbage : NoffHeader} {output : Memory}
    (h : main file garbage = .ok output) : (NoffHeader.read output).noffMagic = noffMagic := by
  unfold main at h
  split_ifs at h
  split at h
  · rename_i c hc
    obtain rfl := Except.ok.inj h
    rw [read_writeHeader]
    exact scan_keeps (fun c => c.noffH.noffMagic = noffMagic)
      (fun s c c' hstep hmagic => (loadSection_magic hstep).trans hmagic) hc rfl
  · exact absurd h (by simp)

/-- A section that is copied is as far behind the header as its address says. -/
theorem Converted.atAddress (h : Converted file (sections file) c) (hlinked : Linked file)
    {s : Scnhdr} (hs : s ∈ copied (sections file)) {k : Nat} (hk : k < s.sSize.toNat) :
    s.sPaddr.toNat + k < bytesOf (copied (sections file)) ∧
      c.output (noffHeaderSize + (s.sPaddr.toNat + k)) = file.byte (s.sScnptr.toNat + k) := by
  obtain ⟨pre, post, hsplit⟩ := List.append_of_mem hs
  have haddr := hlinked.follows pre s (post ++ ofKind .bss (sections file)) (by
    rw [hsplit]
    simp)
  constructor
  · rw [hsplit, bytesOf_append_cons]
    omega
  · rw [haddr, ← Nat.add_assoc, h.bytes_eq hlinked.possible hsplit hk]

end Layout

/-- The pages have room for all sections. -/
theorem programPages_room (file : Executable) :
    bytesOf (copied (sections file)) + bytesOf (ofKind .bss (sections file)) ≤
      programPages file * pageSize := by
  unfold programPages divRoundUp pageSize
  split
  · omega
  · omega

/-- A bit map has no more clear bits than bits. -/
theorem numClear_le (memMap : BitMap) : memMap.numClear ≤ memMap.numBits := by
  rw [BitMap.numClear_eq, BitMap.clearBits]
  calc _ ≤ (Finset.range memMap.numBits).card := Finset.card_filter_le _ _
    _ = memMap.numBits := Finset.card_range _

/-- All bits of a new bit map are clear. -/
theorem numClear_new (nitems : Nat) : (BitMap.new nitems).numClear = nitems := by
  rw [BitMap.numClear_eq, BitMap.clearBits]
  simp only [BitMap.test_new, Finset.filter_true]
  exact Finset.card_range nitems

section Loading

variable {file : Executable} {c : Conversion} {stack mem mem' : Memory} {memMap memMap' : BitMap}
  {space : AddrSpace}

/-- The executable can be loaded exactly when there is a clear frame for each page. -/
theorem Converted.load_iff (h : Converted file (sections file) c) (hlinked : Linked file)
    (hmagic : c.noffH.noffMagic = noffMagic) (hbits : memMap.numBits = numPhysPages) :
    (∃ loaded, AddrSpace.load (noffFile file (writeHeader c.noffH c.output)) stack memMap mem =
      .ok loaded) ↔ programPages file ≤ memMap.numClear := by
  have hheader := noffH_noffFile file hmagic c.output stack
  have hstart := h.codeStart hlinked
  have hpages := h.numPages hlinked
  have hclear := numClear_le memMap
  rw [hbits] at hclear
  rw [load_isOk]
  constructor
  · intro hloadable
    have hframes := hloadable.frames
    rwa [hheader, hpages] at hframes
  · intro hframes
    constructor
    case magic => rw [hheader, hmagic]
    case fits =>
      rw [hheader, hpages]
      omega
    case frames => rwa [hheader, hpages]
    -- The loader reads as many pages from the place of the code on, which is near the front.
    case position =>
      intro i hi
      rw [hheader, hpages] at hi
      rw [hheader, BitVec.msb_eq_false_iff_two_mul_lt, BitVec.toNat_add, hstart,
        BitVec.toNat_ofNat]
      unfold noffHeaderSize pageSize
      unfold numPhysPages at hclear
      omega

/-- What was loaded is the program. -/
theorem Converted.hasProgram (h : Converted file (sections file) c) (hlinked : Linked file)
    (hmagic : c.noffH.noffMagic = noffMagic) (hbits : memMap.numBits = numPhysPages)
    (hload : AddrSpace.load (noffFile file (writeHeader c.noffH c.output)) stack memMap mem =
      .ok (space, memMap', mem')) (registers : Registers) :
    HasProgram file memMap mem (spaceMachine space registers mem') := by
  have hheader := noffH_noffFile file hmagic c.output stack
  have hstart := h.codeStart hlinked
  have hpages := h.numPages hlinked
  have hroom := programPages_room file
  have hsmall := hlinked.small
  obtain ⟨-, hspace, -⟩ := AddrSpace.load_accepted hload
  have hbyte := fun v => AddrSpace.byteAt_load (v := v) hload
  rw [hheader, hpages] at hspace
  simp only [hheader, hpages, hstart] at hbyte
  have hphysical := fun v hv => machine_physical hbits hload registers (v := v) (by rwa [hspace])
  constructor
  case clear =>
    intro v hv
    obtain ⟨hplace, hframe, hclear, -⟩ := hphysical v hv
    exact ⟨_, hplace, hframe, hclear⟩
  case sections =>
    intro s hs k hk
    obtain ⟨hinside, hcopied⟩ := h.atAddress hlinked hs hk
    -- The addresses of the sections do not wrap around.
    have haddr : (s.sPaddr + BitVec.ofNat 32 k).toNat = s.sPaddr.toNat + k := by
      rw [BitVec.toNat_add, BitVec.toNat_ofNat]
      omega
    have hv : (s.sPaddr + BitVec.ofNat 32 k).toNat < programPages file * pageSize := by omega
    obtain ⟨hplace, -, -, hmemory⟩ := hphysical _ hv
    refine ⟨hv, ?_⟩
    rw [Machine.byteAt, hplace, Option.map_some]
    show some (mem' _) = _
    rw [← hmemory, hbyte _ hv, haddr, if_pos, ← hcopied]
    · exact congrArg some (writeHeader_of_le _ _ (by omega))
    · exact Nat.add_lt_add_left hinside noffHeaderSize
  -- The loader reads nothing behind the end of the file, so the frames keep their bytes.
  case rest =>
    intro v hlow p hp
    by_cases hhigh : v.toNat < programPages file * pageSize
    · obtain ⟨hplace, -, -, hmemory⟩ := hphysical v hhigh
      obtain rfl := Option.some.inj (hplace.symm.trans hp)
      show mem' _ = _
      rw [hbyte _ hhigh, if_neg] at hmemory
      · exact (Option.some.inj hmemory).symm
      · exact fun hinside => absurd (Nat.lt_of_add_lt_add_left hinside) (Nat.not_lt.mpr hlow)
    · rw [machine_physical_none space registers (by rw [hspace]; omega)] at hp
      exact absurd hp (by simp)
  case outside =>
    intro v hv
    exact machine_physical_none space registers (by rw [hspace]; exact hv)

end Loading

/-- A linked object file is converted.  The executable can be loaded exactly when there is
a clear frame for each of its pages, and the process finds the sections at the addresses
that the object file has for them.  Nothing else is set: the data without contents and the
stack are whatever their frames held before. -/
theorem program_loaded {file : Executable} (hlinked : Linked file) (garbage : NoffHeader) :
    ∃ output, main file garbage = .ok output ∧
      ∀ (stack : Memory) (memMap : BitMap) (mem : Memory), memMap.numBits = numPhysPages →
        ((∃ loaded, AddrSpace.load (noffFile file output) stack memMap mem = .ok loaded) ↔
          programPages file ≤ memMap.numClear) ∧
        ∀ space memMap' mem',
          AddrSpace.load (noffFile file output) stack memMap mem = .ok (space, memMap', mem') →
            ∀ registers, HasProgram file memMap mem (spaceMachine space registers mem') := by
  have hok := hlinked.possible.not_rejects hlinked.bss
  rcases main_cases hlinked.coff garbage with ⟨hrejects, -⟩ | ⟨-, c, hc, hconverted⟩
  · exact absurd hrejects hok
  have hmagic := magic_of_main hc
  rw [read_writeHeader] at hmagic
  refine ⟨_, hc, fun stack memMap mem hbits => ⟨hconverted.load_iff hlinked hmagic hbits, ?_⟩⟩
  intro space memMap' mem' hload registers
  exact hconverted.hasProgram hlinked hmagic hbits hload registers

/-- One instruction of code, and 8 bytes of data without contents. -/
theorem linked_textAndBss : Linked textAndBss := by
  have hbss : ofKind .bss (sections textAndBss) =
      [⟨[0x2e, 0x62, 0x73, 0x73, 0, 0, 0, 0], 4, 8, 0⟩] := by decide
  have hcopied : copied (sections textAndBss) =
      [⟨[0x2e, 0x74, 0x65, 0x78, 0x74, 0, 0, 0], 0, 4, 0x9c⟩] := by decide
  constructor
  case coff => exact ⟨by decide, by decide, by decide⟩
  case possible =>
    refine ⟨by decide, by decide, by decide, ?_, 4, 8, fun a => ?_⟩
    · intro s hs
      rw [hcopied] at hs
      obtain rfl := List.mem_singleton.mp hs
      exact ⟨by decide, by decide, by decide⟩
    · unfold InBss
      rw [hbss]
      simp
  case bss => rw [hbss]; decide
  case code => exact ⟨_, _, hcopied, by decide⟩
  case follows =>
    intro pre s post hsplit
    rw [hcopied, hbss, List.cons_append, List.nil_append] at hsplit
    match pre with
    | [] =>
        obtain ⟨rfl, -⟩ := List.cons.inj hsplit
        decide
    | [t] =>
        obtain ⟨rfl, hrest⟩ := List.cons.inj hsplit
        obtain ⟨rfl, -⟩ := List.cons.inj hrest
        decide
    | t :: u :: pre =>
        have hlength := congrArg List.length hsplit
        simp at hlength
  case small =>
    rw [hcopied, hbss]
    decide

theorem program_loaded_textAndBss :
    ∃ output, main textAndBss ⟨0, ⟨0, 0, 0⟩, ⟨0, 0, 0⟩, ⟨0, 0, 0⟩⟩ = .ok output ∧
      ∃ space memMap' mem', AddrSpace.load (noffFile textAndBss output) (fun _ => 0)
        (BitMap.new numPhysPages) (fun _ => 0) = .ok (space, memMap', mem') ∧
          HasProgram textAndBss (BitMap.new numPhysPages) (fun _ => 0)
            (spaceMachine space space.initRegisters mem') := by
  obtain ⟨output, hmain, hloads⟩ :=
    program_loaded linked_textAndBss ⟨0, ⟨0, 0, 0⟩, ⟨0, 0, 0⟩, ⟨0, 0, 0⟩⟩
  have hframes : programPages textAndBss ≤ (BitMap.new numPhysPages).numClear := by
    have hpages : programPages textAndBss = 9 := by decide
    rw [numClear_new, hpages]
    decide
  obtain ⟨hiff, hprogram⟩ := hloads (fun _ => 0) (BitMap.new numPhysPages) (fun _ => 0) rfl
  obtain ⟨⟨space, memMap', mem'⟩, hload⟩ := hiff.mpr hframes
  exact ⟨output, hmain, space, memMap', mem', hload, hprogram _ _ _ hload _⟩

end Bin
end Nachos
