import Nachos.Userprog.AddrSpace

/-!
# What an executable becomes

`AddrSpace::AddrSpace` adds up the sizes of the three segments and copies the file into
the pages from the start of the code on.  This module says which headers it accepts, and
what is in the pages afterwards.
-/

namespace Nachos
namespace Userprog

open Threads

/-- The header of an executable, as `AddrSpace::AddrSpace` has it. -/
def Executable.noffH (executable : Executable) (garbage : Memory) : NoffHeader :=
  (NoffHeader.read ((executable.readAt garbage 0 noffHeaderSize 0).getD garbage)).normalize

namespace NoffHeader

/-- The `ASSERT`s of `AddrSpace::AddrSpace` that the header has to pass. -/
def Accepted (noffH : NoffHeader) : Prop :=
  noffH.noffMagic = Userprog.noffMagic ∧ noffH.numPages ≤ numPhysPages

instance (noffH : NoffHeader) : Decidable noffH.Accepted := inferInstanceAs (Decidable (_ ∧ _))

/-- The size of the segments, as integers. -/
def sizes (noffH : NoffHeader) : Int :=
  noffH.code.size.toInt + noffH.initData.size.toInt + noffH.uninitData.size.toInt

/-- No size is negative. -/
def Nonneg (noffH : NoffHeader) : Prop :=
  0 ≤ noffH.code.size.toInt ∧ 0 ≤ noffH.initData.size.toInt ∧ 0 ≤ noffH.uninitData.size.toInt

/-- The pages have room for the segments and the stack, and there are as many frames. -/
structure HasRoom (noffH : NoffHeader) : Prop where
  nonneg : noffH.Nonneg
  pages : noffH.sizes + userStackSize ≤ (noffH.numPages * pageSize : Nat)
  frames : noffH.numPages ≤ numPhysPages

/-- The sum of the sizes is computed modulo `2 ^ 32`. -/
theorem size_eq_sizes (noffH : NoffHeader) : (noffH.size : Int) = noffH.sizes % 2 ^ 32 := by
  have hcode := BitVec.toInt_eq_toNat_cond noffH.code.size
  have hinit := BitVec.toInt_eq_toNat_cond noffH.initData.size
  have huninit := BitVec.toInt_eq_toNat_cond noffH.uninitData.size
  unfold size sizes
  rw [BitVec.toNat_add, BitVec.toNat_add]
  split at hcode <;> split at hinit <;> split at huninit <;> omega

theorem numPages_eq (noffH : NoffHeader) :
    noffH.numPages = (noffH.size + 127) / 128 + 8 := by
  have hstack : divRoundUp userStackSize pageSize = 8 := by decide
  have hcode : divRoundUp noffH.size pageSize = (noffH.size + 127) / 128 := by
    unfold divRoundUp pageSize
    split
    · omega
    · omega
  rw [numPages, hstack, hcode]

/-- The pages have room for the sizes as they were added up, and there are few enough when
the sum is small. -/
theorem numPages_bounds (noffH : NoffHeader) :
    noffH.size + userStackSize ≤ noffH.numPages * pageSize ∧
      (noffH.numPages ≤ numPhysPages ↔
        noffH.size ≤ numPhysPages * pageSize - userStackSize) := by
  rw [numPages_eq]
  unfold numPhysPages pageSize userStackSize
  omega

/-- No size is negative and their sum is a 32-bit number, or the sum is too large even
modulo `2 ^ 32`. -/
def AddsUp (noffH : NoffHeader) : Prop :=
  (noffH.Nonneg ∧ noffH.sizes < 2 ^ 32) ∨
    ((numPhysPages * pageSize - userStackSize : Nat) : Int) < noffH.sizes % 2 ^ 32

theorem hasRoom_of_accepted_iff {noffH : NoffHeader} (hmagic : noffH.noffMagic = Userprog.noffMagic) :
    (noffH.Accepted → noffH.HasRoom) ↔ noffH.AddsUp := by
  have hsize := noffH.size_eq_sizes
  obtain ⟨hroom, hframes⟩ := noffH.numPages_bounds
  unfold AddsUp Accepted
  rw [← hsize]
  constructor
  · intro h
    by_cases hfits : noffH.numPages ≤ numPhysPages
    · obtain ⟨hnonneg, hpages, -⟩ := h ⟨hmagic, hfits⟩
      refine Or.inl ⟨hnonneg, ?_⟩
      -- the pages are few, so the sum is far from wrapping around
      unfold numPhysPages pageSize userStackSize at *
      omega
    · right
      rw [hframes] at hfits
      omega
  · rintro h ⟨-, hfits⟩
    have hsmall := hframes.mp hfits
    rcases h with ⟨hnonneg, hsum⟩ | hlarge
    · have hsum' : noffH.sizes = noffH.size := by
        unfold Nonneg sizes at *
        omega
      exact ⟨hnonneg, by omega, hfits⟩
    · omega

end NoffHeader

namespace AddrSpace

variable {executable : Executable} {garbage mem mem' : Memory} {memMap memMap' : BitMap}
  {space : AddrSpace}

/-- The constructor checks the header, and then it loads the pages. -/
theorem load_eq (executable : Executable) (garbage : Memory) (memMap : BitMap) (mem : Memory) :
    AddrSpace.load executable garbage memMap mem =
      if (executable.noffH garbage).Accepted then
        (loadPages executable (executable.noffH garbage).code.inFileAddr
          (executable.noffH garbage).numPages 0 ⟨memMap, mem, []⟩).map fun l =>
            (⟨(executable.noffH garbage).numPages, l.pageTable, (executable.noffH garbage).size⟩,
              l.memMap, l.mainMemory)
      else .error .assertFailed := by
  unfold AddrSpace.load
  obtain ⟨bytes, hread⟩ : ∃ bytes, executable.readAt garbage 0 noffHeaderSize 0 = some bytes :=
    ⟨_, rfl⟩
  have hheader : executable.noffH garbage = (NoffHeader.read bytes).normalize := by
    rw [Executable.noffH, hread]
    rfl
  rw [hread, hheader]
  simp only
  generalize (NoffHeader.read bytes).normalize = noffH
  by_cases hmagic : noffH.noffMagic = noffMagic
  · by_cases hfits : noffH.numPages ≤ numPhysPages
    · rw [if_pos hmagic, if_pos hfits, if_pos ⟨hmagic, hfits⟩]
      cases loadPages executable noffH.code.inFileAddr noffH.numPages 0 ⟨memMap, mem, []⟩ with
      | error stop => rfl
      | ok l => rfl
    · rw [if_pos hmagic, if_neg hfits, if_neg fun haccepted => hfits haccepted.2]
  · rw [if_neg hmagic, if_neg fun haccepted => hmagic haccepted.1]

/-- A header that is not accepted stops the constructor. -/
theorem load_refused (h : ¬ (executable.noffH garbage).Accepted) :
    AddrSpace.load executable garbage memMap mem = .error .assertFailed := by
  rw [load_eq, if_neg h]

/-- What an address space has that was constructed. -/
theorem load_accepted
    (h : AddrSpace.load executable garbage memMap mem = .ok (space, memMap', mem')) :
    (executable.noffH garbage).Accepted ∧
      space.numPages = (executable.noffH garbage).numPages ∧
      loadPages executable (executable.noffH garbage).code.inFileAddr
        (executable.noffH garbage).numPages 0 ⟨memMap, mem, []⟩ =
          .ok ⟨memMap', mem', space.pageTable⟩ := by
  rw [load_eq] at h
  split at h
  · rename_i haccepted
    refine ⟨haccepted, ?_⟩
    cases hloop : loadPages executable (executable.noffH garbage).code.inFileAddr
        (executable.noffH garbage).numPages 0 ⟨memMap, mem, []⟩ with
    | error stop =>
        rw [hloop] at h
        exact absurd h (by simp [Except.map])
    | ok l =>
        rw [hloop] at h
        obtain ⟨rfl, hrest⟩ := Prod.mk.inj (Except.ok.inj h)
        obtain ⟨rfl, rfl⟩ := Prod.mk.inj hrest
        exact ⟨rfl, rfl⟩
  · exact absurd h (by simp)

end AddrSpace

/-- An executable that consists of these words, in the byte order of the host. -/
def Executable.ofWords (words : List Word) : Executable where
  length := 4 * words.length
  byte a := (words.getD (a / 4) 0).extractLsb' (24 - 8 * (a % 4)) 8

/-- Of the headers with the right magic number, those are accepted whose segments and stack
have room in the pages, and no others, exactly when no size is negative and the sum does
not wrap around, or is too large in any case. -/
theorem accepted_iff_hasRoom (executable : Executable) (garbage : Memory)
    (hmagic : (executable.noffH garbage).noffMagic = noffMagic) :
    (((executable.noffH garbage).Accepted ↔ (executable.noffH garbage).HasRoom) ↔
      (executable.noffH garbage).AddsUp) ∧
    (¬ (executable.noffH garbage).Accepted → ∀ memMap mem,
      AddrSpace.load executable garbage memMap mem = .error .assertFailed) ∧
    ∀ memMap mem space memMap' mem',
      AddrSpace.load executable garbage memMap mem = .ok (space, memMap', mem') →
        (executable.noffH garbage).Accepted ∧
          space.numPages = (executable.noffH garbage).numPages := by
  refine ⟨?_, fun hnot memMap mem => AddrSpace.load_refused hnot, ?_⟩
  · rw [← NoffHeader.hasRoom_of_accepted_iff hmagic]
    constructor
    · intro hiff
      exact hiff.mp
    · intro himp
      exact ⟨himp, fun hroom => ⟨hmagic, hroom.frames⟩⟩
  · intro memMap mem space memMap' mem' hload
    obtain ⟨haccepted, hpages, -⟩ := AddrSpace.load_accepted hload
    exact ⟨haccepted, hpages⟩

/-- A header with 100 bytes of code and 28 of data. -/
def smallFile : Executable := .ofWords [noffMagic, 0, 40, 100, 100, 140, 28, 0, 0, 0]

theorem accepted_iff_hasRoom_smallFile :
    (smallFile.noffH fun _ => 0).Accepted ↔ (smallFile.noffH fun _ => 0).HasRoom := by
  refine (accepted_iff_hasRoom smallFile (fun _ => 0) (by decide)).1.mpr ?_
  left
  exact ⟨⟨by decide, by decide, by decide⟩, by decide⟩

/-- Three sizes whose sum is `2 ^ 32` are taken for a program without code and data. -/
theorem wrapped_sizes_accepted :
    ¬ ∀ (executable : Executable) (garbage : Memory),
      (executable.noffH garbage).noffMagic = noffMagic →
      ((executable.noffH garbage).Accepted ↔ (executable.noffH garbage).HasRoom) := by
  intro hall
  have hiff := hall (.ofWords [noffMagic, 0, 40, 0x7fffffff, 0, 40, 0x7fffffff, 0, 0, 2])
    (fun _ => 0) (by decide)
  have hpages := (hiff.mp (by decide)).pages
  exact absurd hpages (by decide)

namespace AddrSpace

/-- The byte that a program finds at a virtual address. -/
def byteAt (space : AddrSpace) (mem : Memory) (v : Nat) : Option Byte :=
  space.pageTable[v / pageSize]?.map fun entry =>
    mem (entry.physicalPage.toNat * pageSize + v % pageSize)

end AddrSpace

section Pages

variable {executable : Executable} {inFileAddr : Word} {mem mem' : Memory} {l l' : Loading}

/-- The frames `taken` hold the pages of the file from page `i` on, and what they held
before where the file has ended. -/
def Copied (executable : Executable) (start i : Nat) (taken : List Nat) (mem mem' : Memory) :
    Prop :=
  ∀ (k p : Nat), taken[k]? = some p → ∀ o, o < pageSize → mem' (p * pageSize + o) =
    if start + (i + k) * pageSize + o < executable.length then
      executable.byte (start + (i + k) * pageSize + o)
    else mem (p * pageSize + o)

/-- What `ReadAt` has read of a page. -/
theorem Executable.readAt_page {base : Nat} {position : Word}
    (h : executable.readAt mem base pageSize position = some mem') {o : Nat} (ho : o < pageSize) :
    mem' (base + o) = if position.toNat + o < executable.length then
      executable.byte (position.toNat + o) else mem (base + o) := by
  unfold Executable.readAt at h
  split at h
  · exact absurd h (by simp)
  · rw [← Option.some.inj h]
    have hoffset : base + o - base = o := by omega
    simp only [hoffset]
    by_cases hin : position.toNat + o < executable.length
    · rw [if_pos hin, if_pos (by omega)]
    · rw [if_neg hin, if_neg (by omega)]

/-- The loop takes a clear frame for every page and copies the page there. -/
theorem loadPages_copied {rounds i : Nat}
    (hbound : inFileAddr.toNat + (i + rounds) * pageSize ≤ 2 ^ 32)
    (h : loadPages executable inFileAddr rounds i l = .ok l') :
    ∃ taken, taken.length = rounds ∧ Loaded i taken l l' ∧
      Copied executable inFileAddr.toNat i taken l.mainMemory l'.mainMemory := by
  induction rounds generalizing i l with
  | zero =>
      rw [loadPages, Except.ok.injEq] at h
      exact ⟨[], rfl, h ▸ Loaded.nil i l, by simp [Copied]⟩
  | succ rounds ih =>
      rw [loadPages] at h
      rcases l.memMap.find_cases with hfull | ⟨p, hp, hclear, hfound⟩
      · simp [hfull] at h
      · simp only [hfound, Int.toNat_natCast] at h
        rw [if_neg (by omega)] at h
        split at h
        · exact absurd h (by simp)
        · rename_i mem hread
          obtain ⟨taken, hlength, hloaded, hcopied⟩ := ih (by unfold pageSize at *; omega) h
          have hp' : p ∉ taken := by
            intro hmem
            have hset := (hloaded.clear p hmem).2
            rw [BitMap.test_mark_self hp] at hset
            exact absurd hset (by simp)
          refine ⟨p :: taken, by rw [List.length_cons, hlength],
            Loaded.cons hp hclear (fun a ha => Executable.readAt_other hread ha) hloaded, ?_⟩
          intro k q hk o ho
          cases k with
          | zero =>
              obtain rfl : p = q := by simpa using hk
              have hposition : (inFileAddr + BitVec.ofNat 32 (i * pageSize)).toNat =
                  inFileAddr.toNat + (i + 0) * pageSize := by
                rw [BitVec.toNat_add, BitVec.toNat_ofNat]
                unfold pageSize at *
                omega
              have hframe : (p * pageSize + o) / pageSize = p := by
                unfold pageSize at *
                omega
              rw [hloaded.memory _ (by rw [hframe]; exact hp')]
              show mem (p * pageSize + o) = _
              rw [Executable.readAt_page hread ho, hposition]
          | succ k =>
              rw [List.getElem?_cons_succ] at hk
              have hne : q ≠ p := by
                rintro rfl
                exact hp' (List.mem_of_getElem? hk)
              rw [hcopied k q hk o ho, show i + 1 + k = i + (k + 1) by omega]
              show (if _ then _ else mem (q * pageSize + o)) = _
              rw [Executable.readAt_other hread]
              unfold pageSize at *
              omega

/-- Whether the loop succeeds does not depend on what is in memory. -/
theorem loadPages_mem {rounds i : Nat} (mem : Memory)
    (h : loadPages executable inFileAddr rounds i l = .ok l') :
    ∃ mem', loadPages executable inFileAddr rounds i { l with mainMemory := mem } =
      .ok { l' with mainMemory := mem' } := by
  induction rounds generalizing i l mem with
  | zero =>
      rw [loadPages, Except.ok.injEq] at h
      exact ⟨mem, by rw [loadPages, h]⟩
  | succ rounds ih =>
      rw [loadPages] at h ⊢
      rcases l.memMap.find_cases with hfull | ⟨p, hp, hclear, hfound⟩
      · simp [hfull] at h
      · simp only [hfound, Int.toNat_natCast] at h ⊢
        rw [if_neg (by omega)] at h ⊢
        unfold Executable.readAt at h ⊢
        split at h
        · exact absurd h (by simp)
        · rename_i mem₁ hread
          split at hread
          · exact absurd hread (by simp)
          · rename_i hmsb
            rw [if_neg hmsb]
            exact ih _ h

end Pages

section Images

variable {executable : Executable} {garbage mem mem' : Memory} {memMap memMap' : BitMap}
  {space : AddrSpace}

/-- The address in memory of a virtual address. -/
def AddrSpace.location (space : AddrSpace) (v : Nat) : Nat :=
  (space.pageTable[v / pageSize]?.elim 0 fun entry => entry.physicalPage.toNat) * pageSize +
    v % pageSize

/-- The byte at a virtual address is the one of the file as far from the start of the code,
or, behind the end of the file, the one that the frame held. -/
theorem AddrSpace.byteAt_load
    (h : AddrSpace.load executable garbage memMap mem = .ok (space, memMap', mem')) {v : Nat}
    (hv : v < (executable.noffH garbage).numPages * pageSize) :
    space.byteAt mem' v = some
      (if (executable.noffH garbage).code.inFileAddr.toNat + v < executable.length then
        executable.byte ((executable.noffH garbage).code.inFileAddr.toNat + v)
      else mem (space.location v)) := by
  obtain ⟨⟨-, hfits⟩, -, hload⟩ := load_accepted h
  generalize executable.noffH garbage = noffH at *
  have hstart : noffH.code.inFileAddr.toNat < 2 ^ 31 := by
    have hpages := noffH.numPages_eq
    obtain ⟨rounds, hrounds⟩ : ∃ rounds, noffH.numPages = rounds + 1 :=
      ⟨noffH.numPages - 1, by omega⟩
    rw [hrounds, loadPages] at hload
    rcases memMap.find_cases with hfull | ⟨p, -, -, hfound⟩
    · simp [hfull] at hload
    · simp only [hfound] at hload
      rw [if_neg (by omega)] at hload
      unfold Executable.readAt at hload
      by_contra hlarge
      rw [if_pos] at hload
      · exact absurd hload (by simp)
      · rw [BitVec.msb_eq_decide]
        simp only [Nat.zero_mul, BitVec.add_zero]
        simpa using hlarge
  obtain ⟨taken, hlength, hloaded, hcopied⟩ := loadPages_copied
    (by unfold numPhysPages pageSize at *; omega) hload
  have hpage : v / pageSize < taken.length := by
    rw [hlength]
    unfold pageSize at *
    omega
  have hentry : space.pageTable[v / pageSize]? =
      some (pageEntry (0 + v / pageSize) taken[v / pageSize]) := by
    have htable : space.pageTable = [] ++ taken.mapIdx fun k p => pageEntry (0 + k) p :=
      hloaded.pageTable
    rw [htable, List.nil_append, List.getElem?_mapIdx, List.getElem?_eq_getElem hpage]
    rfl
  have hbyte := hcopied (v / pageSize) _ (List.getElem?_eq_getElem hpage) (v % pageSize)
    (Nat.mod_lt _ (by decide))
  have hoffset : noffH.code.inFileAddr.toNat + (0 + v / pageSize) * pageSize + v % pageSize =
      noffH.code.inFileAddr.toNat + v := by
    unfold pageSize
    omega
  rw [hoffset] at hbyte
  unfold AddrSpace.byteAt AddrSpace.location
  rw [hentry]
  exact congrArg some hbyte

/-- The addresses of the stack pages. -/
def NoffHeader.IsStack (noffH : NoffHeader) (v : Nat) : Prop :=
  noffH.numPages * pageSize - userStackSize ≤ v ∧ v < noffH.numPages * pageSize

/-- A segment is inside of the address space. -/
def Segment.Inside (s : Segment) (noffH : NoffHeader) : Prop :=
  ∀ k, k < s.size.toNat → s.virtualAddr.toNat + k < noffH.numPages * pageSize

/-- The address space holds the program: the bytes of the file for code and data, and
zeros for the rest. -/
structure ImageLoaded (executable : Executable) (noffH : NoffHeader) (space : AddrSpace)
    (mem : Memory) : Prop where
  code : ∀ k, k < noffH.code.size.toNat → space.byteAt mem (noffH.code.virtualAddr.toNat + k) =
    some (executable.byte (noffH.code.inFileAddr.toNat + k))
  initData : ∀ k, k < noffH.initData.size.toNat →
    space.byteAt mem (noffH.initData.virtualAddr.toNat + k) =
      some (executable.byte (noffH.initData.inFileAddr.toNat + k))
  uninitData : ∀ k, k < noffH.uninitData.size.toNat →
    space.byteAt mem (noffH.uninitData.virtualAddr.toNat + k) = some 0
  stack : ∀ v, noffH.IsStack v → space.byteAt mem v = some 0

/-- Behind the start of the code, the file has this byte for a virtual address. -/
def Executable.Has (executable : Executable) (noffH : NoffHeader) (v : Nat) (b : Byte) : Prop :=
  noffH.code.inFileAddr.toNat + v < executable.length ∧
    executable.byte (noffH.code.inFileAddr.toNat + v) = b

/-- The file is an image of the address space: from the start of the code on it has the
segments where they are in the address space, and zeros for the uninitialized data and
the stack. -/
structure FileIsImage (executable : Executable) (noffH : NoffHeader) : Prop where
  code : ∀ k, k < noffH.code.size.toNat → executable.Has noffH (noffH.code.virtualAddr.toNat + k)
    (executable.byte (noffH.code.inFileAddr.toNat + k))
  initData : ∀ k, k < noffH.initData.size.toNat →
    executable.Has noffH (noffH.initData.virtualAddr.toNat + k)
      (executable.byte (noffH.initData.inFileAddr.toNat + k))
  uninitData : ∀ k, k < noffH.uninitData.size.toNat →
    executable.Has noffH (noffH.uninitData.virtualAddr.toNat + k) 0
  stack : ∀ v, noffH.IsStack v → executable.Has noffH v 0

/-- A byte that the file has is loaded. -/
theorem Executable.Has.loaded {v : Nat} {b : Byte}
    (hhas : executable.Has (executable.noffH garbage) v b)
    (h : AddrSpace.load executable garbage memMap mem = .ok (space, memMap', mem'))
    (hv : v < (executable.noffH garbage).numPages * pageSize) : space.byteAt mem' v = some b := by
  rw [AddrSpace.byteAt_load h hv, if_pos hhas.1, hhas.2]

/-- A byte that is loaded whatever the frames held is one of the file. -/
theorem Executable.has_of_loaded {v : Nat} {b : Byte}
    (hsuccess : ∃ mem result, AddrSpace.load executable garbage memMap mem = .ok result)
    (hv : v < (executable.noffH garbage).numPages * pageSize)
    (h : ∀ mem space memMap' mem',
      AddrSpace.load executable garbage memMap mem = .ok (space, memMap', mem') →
        space.byteAt mem' v = some b) :
    executable.Has (executable.noffH garbage) v b := by
  obtain ⟨mem₀, ⟨space₀, memMap₀, mem₀'⟩, hload₀⟩ := hsuccess
  -- the frames may have held any byte
  have hany : ∀ c : Byte, ∃ space memMap' mem',
      AddrSpace.load executable garbage memMap (fun _ => c) = .ok (space, memMap', mem') := by
    intro c
    obtain ⟨haccepted, -, hloop⟩ := AddrSpace.load_accepted hload₀
    obtain ⟨mem', hloop'⟩ := loadPages_mem (fun _ => c) hloop
    rw [AddrSpace.load_eq, if_pos haccepted, hloop']
    exact ⟨_, _, _, rfl⟩
  obtain ⟨space, memMap', mem', hload⟩ := hany (b + 1)
  have hbyte := h _ _ _ _ hload
  rw [AddrSpace.byteAt_load hload hv] at hbyte
  split at hbyte
  · rename_i hin
    exact ⟨hin, Option.some.inj hbyte⟩
  · have hne := Option.some.inj hbyte
    have hnext : b + 1 ≠ b := by
      intro heq
      have hnat := congrArg BitVec.toNat heq
      rw [BitVec.toNat_add] at hnat
      have hlt := b.isLt
      simp at hnat
      omega
    exact absurd hne hnext

/-- A file whose segments follow one another as they do in the address space, and that
goes on with zeros to the end of the stack, is an image. -/
theorem FileIsImage.of_layout {noffH : NoffHeader} (hcode : noffH.code.virtualAddr = 0)
    (hinit : noffH.initData.inFileAddr.toNat =
      noffH.code.inFileAddr.toNat + noffH.initData.virtualAddr.toNat)
    (hinside : noffH.code.Inside noffH ∧ noffH.initData.Inside noffH ∧
      noffH.uninitData.Inside noffH)
    (hlength : noffH.code.inFileAddr.toNat + noffH.numPages * pageSize ≤ executable.length)
    (hzero : ∀ v, noffH.IsStack v ∨ (noffH.uninitData.virtualAddr.toNat ≤ v ∧
      v < noffH.uninitData.virtualAddr.toNat + noffH.uninitData.size.toNat) →
        executable.byte (noffH.code.inFileAddr.toNat + v) = 0) :
    FileIsImage executable noffH := by
  obtain ⟨hin, hin', hin''⟩ := hinside
  constructor
  case code =>
    intro k hk
    have hv := hin k hk
    refine ⟨by omega, ?_⟩
    rw [hcode]
    congr 1
    simp
  case initData =>
    intro k hk
    have hv := hin' k hk
    refine ⟨by omega, ?_⟩
    rw [hinit]
    congr 1
    omega
  case uninitData =>
    intro k hk
    have hv := hin'' k hk
    exact ⟨by omega, hzero _ (Or.inr ⟨by omega, by omega⟩)⟩
  case stack =>
    intro v hv
    have hlt := hv.2
    exact ⟨by omega, hzero v (Or.inl hv)⟩

/-- Whatever the frames held before, the address space holds the program exactly when
the file is an image of the address space. -/
theorem imageLoaded_iff (executable : Executable) (garbage : Memory) (memMap : BitMap)
    (hsuccess : ∃ mem result, AddrSpace.load executable garbage memMap mem = .ok result)
    (hcode : (executable.noffH garbage).code.Inside (executable.noffH garbage))
    (hinit : (executable.noffH garbage).initData.Inside (executable.noffH garbage))
    (huninit : (executable.noffH garbage).uninitData.Inside (executable.noffH garbage)) :
    (∀ mem space memMap' mem',
      AddrSpace.load executable garbage memMap mem = .ok (space, memMap', mem') →
        ImageLoaded executable (executable.noffH garbage) space mem') ↔
      FileIsImage executable (executable.noffH garbage) := by
  constructor
  · intro h
    constructor
    case code =>
      intro k hk
      exact Executable.has_of_loaded hsuccess (hcode k hk) fun mem space memMap' mem' hload =>
        (h mem space memMap' mem' hload).code k hk
    case initData =>
      intro k hk
      exact Executable.has_of_loaded hsuccess (hinit k hk) fun mem space memMap' mem' hload =>
        (h mem space memMap' mem' hload).initData k hk
    case uninitData =>
      intro k hk
      exact Executable.has_of_loaded hsuccess (huninit k hk) fun mem space memMap' mem' hload =>
        (h mem space memMap' mem' hload).uninitData k hk
    case stack =>
      intro v hv
      exact Executable.has_of_loaded hsuccess hv.2 fun mem space memMap' mem' hload =>
        (h mem space memMap' mem' hload).stack v hv
  · intro himage mem space memMap' mem' hload
    constructor
    case code =>
      intro k hk
      exact (himage.code k hk).loaded hload (hcode k hk)
    case initData =>
      intro k hk
      exact (himage.initData k hk).loaded hload (hinit k hk)
    case uninitData =>
      intro k hk
      exact (himage.uninitData k hk).loaded hload (huninit k hk)
    case stack =>
      intro v hv
      exact (himage.stack v hv).loaded hload hv.2

end Images

/-- One word of code in front of a stack of zeros that is in the file. -/
def imageFile : Executable where
  length := 40 + 1152
  byte := (Executable.ofWords [noffMagic, 0, 40, 4, 4, 44, 0, 0, 0, 0, 0x2408000a]).byte

theorem imageLoaded_imageFile : ∃ space memMap' mem',
    AddrSpace.load imageFile (fun _ => 0) (BitMap.new 16) (fun _ => 0) =
      .ok (space, memMap', mem') ∧
      ImageLoaded imageFile (imageFile.noffH fun _ => 0) space mem' := by
  have hheader : (imageFile.noffH fun _ => 0) =
      ⟨noffMagic, ⟨0, 40, 4⟩, ⟨4, 44, 0⟩, ⟨0, 0, 0⟩⟩ := by decide
  have hpages : (imageFile.noffH fun _ => 0).numPages = 9 := by
    rw [hheader]
    decide
  have hok : (AddrSpace.load imageFile (fun _ => 0) (BitMap.new 16) fun _ => 0).isOk = true := by
    decide +kernel
  obtain ⟨⟨space, memMap', mem'⟩, hload⟩ : ∃ result,
      AddrSpace.load imageFile (fun _ => 0) (BitMap.new 16) (fun _ => 0) = .ok result := by
    cases hload : AddrSpace.load imageFile (fun _ => 0) (BitMap.new 16) fun _ => 0 with
    | error stop =>
        rw [hload] at hok
        exact absurd hok (by simp [Except.isOk, Except.toBool])
    | ok result => exact ⟨result, rfl⟩
  have hcode : (imageFile.noffH fun _ => 0).code.Inside (imageFile.noffH fun _ => 0) := by
    intro k hk
    rw [hpages]
    rw [hheader] at hk ⊢
    have hk' : k < 4 := hk
    show 0 + k < 9 * 128
    omega
  have hinit : (imageFile.noffH fun _ => 0).initData.Inside (imageFile.noffH fun _ => 0) := by
    intro k hk
    rw [hheader] at hk
    exact absurd hk (Nat.not_lt_zero k)
  have huninit : (imageFile.noffH fun _ => 0).uninitData.Inside (imageFile.noffH fun _ => 0) := by
    intro k hk
    rw [hheader] at hk
    exact absurd hk (Nat.not_lt_zero k)
  have hiff := imageLoaded_iff imageFile (fun _ => 0) (BitMap.new 16) ⟨_, _, hload⟩ hcode hinit
    huninit
  refine ⟨space, memMap', mem', hload, hiff.mpr ?_ _ _ _ _ hload⟩
  refine FileIsImage.of_layout ?_ ?_ ⟨hcode, hinit, huninit⟩ ?_ ?_
  · rw [hheader]
  · rw [hheader]
    rfl
  · rw [hpages, hheader]
    decide
  · rintro v (⟨hlow, hhigh⟩ | ⟨hlow, hhigh⟩)
    · rw [hpages] at hlow hhigh
      rw [hheader]
      have hword : 11 ≤ (40 + v) / 4 := by
        unfold pageSize userStackSize at *
        omega
      show BitVec.extractLsb' _ 8 (List.getD _ ((40 + v) / 4) 0) = 0
      rw [List.getD_eq_getElem?_getD, List.getElem?_eq_none (by simpa using hword)]
      simp
    · rw [hheader] at hlow hhigh
      exact absurd hlow (Nat.not_le.mpr hhigh)

/-- The segments are in front of the stack and do not overlap, and code and data are in
the file. -/
structure NoffHeader.LaidOut (noffH : NoffHeader) (executable : Executable) : Prop where
  inside : ∀ s ∈ [noffH.code, noffH.initData, noffH.uninitData],
    s.virtualAddr.toNat + s.size.toNat ≤ noffH.numPages * pageSize - userStackSize
  disjoint : [noffH.code, noffH.initData, noffH.uninitData].Pairwise fun s t =>
    s.virtualAddr.toNat + s.size.toNat ≤ t.virtualAddr.toNat ∨
      t.virtualAddr.toNat + t.size.toNat ≤ s.virtualAddr.toNat
  inFile : ∀ s ∈ [noffH.code, noffH.initData],
    s.inFileAddr.toNat + s.size.toNat ≤ executable.length

/-- Data that follows the code in the file, but not in the address space, is not where it
should be. -/
theorem data_not_loaded :
    ¬ ∀ (executable : Executable) (garbage : Memory) (memMap : BitMap) (mem : Memory)
      (space : AddrSpace) (memMap' : BitMap) (mem' : Memory),
      (executable.noffH garbage).LaidOut executable →
      AddrSpace.load executable garbage memMap mem = .ok (space, memMap', mem') →
        ImageLoaded executable (executable.noffH garbage) space mem' := by
  intro hall
  have htest : (AddrSpace.load (.ofWords [noffMagic, 0, 40, 4, 64, 44, 4, 0, 0, 0, 0x2408000a, 7])
      (fun _ => 0) (BitMap.new 16) fun _ => 0).toOption.any
        (fun r => decide (r.1.byteAt r.2.2 67 = some 0)) = true := by decide +kernel
  have hheader : (Executable.noffH
      (.ofWords [noffMagic, 0, 40, 4, 64, 44, 4, 0, 0, 0, 0x2408000a, 7]) fun _ => 0) =
      ⟨noffMagic, ⟨0, 40, 4⟩, ⟨64, 44, 4⟩, ⟨0, 0, 0⟩⟩ := by decide
  cases hload : AddrSpace.load
      (.ofWords [noffMagic, 0, 40, 4, 64, 44, 4, 0, 0, 0, 0x2408000a, 7]) (fun _ => 0)
      (BitMap.new 16) fun _ => 0 with
  | error stop =>
      rw [hload] at htest
      exact absurd htest (by simp [Except.toOption])
  | ok result =>
      rw [hload] at htest
      have hbyte : result.1.byteAt result.2.2 67 = some 0 := by
        simpa [Except.toOption] using htest
      have himage := hall _ _ _ _ result.1 result.2.1 result.2.2 (by
        rw [hheader]
        exact ⟨by decide, by decide, by decide⟩) hload
      have hdata := himage.initData 3
      rw [hheader] at hdata
      have hseven := hdata (by decide)
      rw [show BitVec.toNat (64 : Word) + 3 = 67 from rfl, hbyte] at hseven
      exact absurd hseven (by decide)

end Userprog
end Nachos
