import Nachos.Bin.Coff2noff
import Nachos.Userprog.Executables

/-!
# What `coff2noff` makes of a list of sections

The loop copies the sections of code and data one behind the other and adds up the sizes
of the others.  It refuses a section by what is in front of it: `Refused` says which ones,
and `Converted` what the loop has done of those that it has not refused.
-/

namespace Nachos
namespace Bin

open Userprog Lib

/-- The sections that are not empty and of this kind. -/
def ofKind (kind : Kind) (sections : List Scnhdr) : List Scnhdr :=
  sections.filter fun s => s.sSize ≠ 0 ∧ s.kind = kind

/-- The sections that are copied. -/
def copied (sections : List Scnhdr) : List Scnhdr :=
  sections.filter fun s => s.sSize ≠ 0 ∧ (s.kind = .text ∨ s.kind = .data)

/-- The size of sections, and the bytes that are copied of them. -/
def bytesOf (sections : List Scnhdr) : Nat := (sections.map fun s => s.sSize.toNat).sum

def movedOf (sections : List Scnhdr) : Nat := (sections.map Scnhdr.moved).sum

/-- Where the input is behind sections that were copied. -/
def readEnd (first : Nat) (sections : List Scnhdr) : Nat :=
  sections.foldl (fun at' s => s.readStart at' + s.moved) first

/-- One more section without contents: address and size. -/
def extend (extent : Word × Word) (s : Scnhdr) : Word × Word :=
  if extent.2 ≠ 0 then (extent.1, extent.2 + s.sSize) else (s.sPaddr, s.sSize)

/-- From the address of the first section on, as many bytes as all of them have. -/
def extent (sections : List Scnhdr) : Word × Word := sections.foldl extend (0, 0)

/-- Section `s` stops the program, where `before` are the ones in front of it. -/
def Refused (file : Executable) (before : List Scnhdr) (s : Scnhdr) : Prop :=
  s.sSize ≠ 0 ∧
    match s.kind with
    | .text => ¬ s.Fits file (readEnd (headersEnd file) (copied before))
    | .data => ofKind .data before ≠ [] ∨
        ¬ s.Fits file (readEnd (headersEnd file) (copied before))
    | .bss => (extent (ofKind .bss before)).2 ≠ 0 ∧
        s.sPaddr = (extent (ofKind .bss before)).1 + (extent (ofKind .bss before)).2
    | .unknown => True

section Lists

variable {before pre post : List Scnhdr} {s t : Scnhdr} {kind : Kind}

theorem ofKind_append_of_ne (before : List Scnhdr) (kind : Kind)
    (h : s.sSize = 0 ∨ s.kind ≠ kind) :
    ofKind kind (before ++ [s]) = ofKind kind before := by
  unfold ofKind
  rw [List.filter_append, List.filter_cons_of_neg, List.filter_nil, List.append_nil]
  rcases h with h | h
  · simp [h]
  · simp [h]

theorem ofKind_append_self (hsize : s.sSize ≠ 0) :
    ofKind s.kind (before ++ [s]) = ofKind s.kind before ++ [s] := by
  unfold ofKind
  rw [List.filter_append, List.filter_cons_of_pos, List.filter_nil]
  exact decide_eq_true ⟨hsize, rfl⟩

theorem copied_append_of_ne (before : List Scnhdr)
    (h : s.sSize = 0 ∨ (s.kind ≠ .text ∧ s.kind ≠ .data)) :
    copied (before ++ [s]) = copied before := by
  unfold copied
  rw [List.filter_append, List.filter_cons_of_neg, List.filter_nil, List.append_nil]
  rcases h with h | h
  · simp [h]
  · simp [h]

theorem copied_append_self (before : List Scnhdr) (hsize : s.sSize ≠ 0)
    (hkind : s.kind = .text ∨ s.kind = .data) :
    copied (before ++ [s]) = copied before ++ [s] := by
  unfold copied
  rw [List.filter_append, List.filter_cons_of_pos, List.filter_nil]
  exact decide_eq_true ⟨hsize, hkind⟩

theorem mem_ofKind : s ∈ ofKind kind before ↔ s ∈ before ∧ s.sSize ≠ 0 ∧ s.kind = kind := by
  simp [ofKind]

theorem mem_copied :
    s ∈ copied before ↔ s ∈ before ∧ s.sSize ≠ 0 ∧ (s.kind = .text ∨ s.kind = .data) := by
  simp [copied]

theorem bytesOf_append_cons :
    bytesOf (pre ++ s :: post) = bytesOf pre + s.sSize.toNat + bytesOf post := by
  simp [bytesOf, Nat.add_assoc]

theorem bytesOf_append_singleton : bytesOf (pre ++ [s]) = bytesOf pre + s.sSize.toNat := by
  simp [bytesOf]

theorem movedOf_append_cons :
    movedOf (pre ++ s :: post) = movedOf pre + s.moved + movedOf post := by
  simp [movedOf, Nat.add_assoc]

theorem movedOf_append_singleton : movedOf (pre ++ [s]) = movedOf pre + s.moved := by
  simp [movedOf]

theorem readEnd_append_singleton {first : Nat} :
    readEnd first (pre ++ [s]) = s.readStart (readEnd first pre) + s.moved := by
  simp [readEnd]

theorem extent_append_singleton : extent (pre ++ [s]) = extend (extent pre) s := by
  simp [extent]

/-- The last element of a list, or one in front of it. -/
theorem append_singleton_split (h : before ++ [s] = pre ++ t :: post) :
    (pre = before ∧ t = s ∧ post = []) ∨ ∃ post', post = post' ++ [s] ∧ before = pre ++ t :: post' := by
  rcases List.eq_nil_or_concat post with rfl | ⟨post', u, rfl⟩
  · obtain ⟨rfl, hst⟩ := List.append_inj' h rfl
    exact Or.inl ⟨rfl, (List.cons.inj hst).1.symm, rfl⟩
  · rw [List.concat_eq_append, ← List.cons_append, ← List.append_assoc] at h
    obtain ⟨rfl, hu⟩ := List.append_inj' h rfl
    obtain ⟨rfl, -⟩ := List.cons.inj hu
    exact Or.inr ⟨post', by simp, rfl⟩

end Lists

section Sizes

variable {file : Executable} {s : Scnhdr} {before : List Scnhdr}

/-- All bytes of a section are copied, if its size is an `int`. -/
theorem moved_of_nonneg (h : s.sSize.msb = false) : s.moved = s.sSize.toNat := by
  have hint := BitVec.toInt_eq_msb_cond s.sSize
  rw [if_neg (by simp [h])] at hint
  unfold Scnhdr.moved hostWrite
  rw [hint, if_neg (by omega), Int.toNat_natCast]

theorem movedOf_of_nonneg (h : ∀ s ∈ before, s.sSize.msb = false) :
    movedOf before = bytesOf before := by
  unfold movedOf bytesOf
  rw [List.map_congr_left fun s hs => moved_of_nonneg (h s hs)]

/-- What fits is in the input, unless its size is -1. -/
theorem fits_iff {at' : Nat} (hsize : s.sSize ≠ 0) : s.Fits file at' ↔
    s.sSize = -1 ∨ s.sSize.msb = false ∧ s.readStart at' + s.sSize.toNat ≤ file.length := by
  have hone : s.sSize = -1 ↔ s.sSize.toInt = -1 := by
    rw [← BitVec.toInt_inj]
    rfl
  have hzero : s.sSize.toInt ≠ 0 := fun h => hsize (BitVec.toInt_inj.mp h)
  have hint := BitVec.toInt_eq_msb_cond s.sSize
  have hlt := s.sSize.isLt
  unfold Scnhdr.Fits hostRead hostWrite
  rw [hone]
  -- For a negative size both calls return -1, which is once what they were asked for.
  cases hmsb : s.sSize.msb with
  | true =>
      rw [hmsb, if_pos rfl] at hint
      rw [if_pos (by omega), if_pos (by omega)]
      simp [eq_comm]
  | false =>
      rw [hmsb, if_neg (by simp)] at hint
      rw [if_neg (by omega), if_neg (by omega)]
      simp only [and_true, true_and]
      omega

end Sizes

/-- What the loop has done when it is behind the sections `before`. -/
structure Converted (file : Executable) (before : List Scnhdr) (c : Conversion) : Prop where
  outOffset : c.outOffset = noffHeaderSize + movedOf (copied before)
  inNoffFile : c.inNoffFile = BitVec.ofNat 32 (noffHeaderSize + bytesOf (copied before))
  inOffset : c.inOffset = readEnd (headersEnd file) (copied before)
  placed : ∀ pre s post, copied before = pre ++ s :: post →
    s.Fits file (readEnd (headersEnd file) pre) ∧
    ∀ k, k < s.moved → c.output (noffHeaderSize + movedOf pre + k) =
      file.byte (s.readStart (readEnd (headersEnd file) pre) + k)
  code : ∀ pre s post, copied before = pre ++ s :: post → s.kind = .text →
    (∀ t ∈ post, t.kind ≠ .text) →
    c.noffH.code = ⟨s.sPaddr, BitVec.ofNat 32 (noffHeaderSize + bytesOf pre), s.sSize⟩
  initData : ∀ pre s post, copied before = pre ++ s :: post → s.kind = .data →
    c.noffH.initData = ⟨s.sPaddr, BitVec.ofNat 32 (noffHeaderSize + bytesOf pre), s.sSize⟩
  initSize : c.noffH.initData.size = 0 ↔ ofKind .data before = []
  uninitSize : c.noffH.uninitData.size = (extent (ofKind .bss before)).2
  uninitAddr : c.noffH.uninitData.size ≠ 0 →
    c.noffH.uninitData.virtualAddr = (extent (ofKind .bss before)).1

section Steps

variable {file : Executable} {before : List Scnhdr} {s : Scnhdr} {c c' : Conversion}

theorem Converted.initial (garbage : NoffHeader) :
    Converted file [] (initial file garbage) where
  outOffset := rfl
  inNoffFile := rfl
  inOffset := rfl
  placed pre s post h := absurd h (by simp [copied])
  code pre s post h := absurd h (by simp [copied])
  initData pre s post h := absurd h (by simp [copied])
  initSize := ⟨fun _ => rfl, fun _ => rfl⟩
  uninitSize := rfl
  uninitAddr h := absurd rfl h

/-- An empty section changes nothing. -/
theorem Converted.empty (h : Converted file before c) (hsize : s.sSize = 0) :
    Converted file (before ++ [s]) c := by
  have hcopied := copied_append_of_ne before (Or.inl hsize)
  have hkind := fun kind => ofKind_append_of_ne before kind (Or.inl hsize)
  constructor
  · rw [hcopied]
    exact h.outOffset
  · rw [hcopied]
    exact h.inNoffFile
  · rw [hcopied]
    exact h.inOffset
  · rw [hcopied]
    exact h.placed
  · rw [hcopied]
    exact h.code
  · rw [hcopied]
    exact h.initData
  · rw [hkind]
    exact h.initSize
  · rw [hkind]
    exact h.uninitSize
  · rw [hkind]
    exact h.uninitAddr

/-- A section that fits is copied behind the others. -/
theorem Converted.copy (h : Converted file before c) (hsize : s.sSize ≠ 0)
    (hkind : s.kind = .text ∨ s.kind = .data) (hfits : s.Fits file c.inOffset)
    (noffH : NoffHeader)
    (hcode : s.kind = .text → noffH.code = ⟨s.sPaddr, c.inNoffFile, s.sSize⟩)
    (hcode' : s.kind ≠ .text → noffH.code = c.noffH.code)
    (hinit : s.kind = .data → noffH.initData = ⟨s.sPaddr, c.inNoffFile, s.sSize⟩ ∧
      ofKind .data before = [])
    (hinit' : s.kind ≠ .data → noffH.initData = c.noffH.initData)
    (huninit : noffH.uninitData = c.noffH.uninitData) :
    ∃ c', copySection file s { c with noffH := noffH } = .ok c' ∧
      Converted file (before ++ [s]) c' := by
  have hcopied := copied_append_self before hsize hkind
  have hbss : ofKind .bss (before ++ [s]) = ofKind .bss before := by
    apply ofKind_append_of_ne
    right
    rcases hkind with hkind | hkind
    · simp [hkind]
    · simp [hkind]
  refine ⟨_, if_pos hfits, ?_⟩
  have hoffset := h.outOffset
  have hinput := h.inOffset
  constructor
  case outOffset =>
    simp only [hcopied, movedOf_append_singleton]
    omega
  case inNoffFile =>
    simp only [h.inNoffFile, hcopied, bytesOf_append_singleton]
    rw [← Nat.add_assoc, BitVec.ofNat_add (_ + _), BitVec.ofNat_toNat, BitVec.setWidth_eq]
  case inOffset =>
    simp only [hcopied, readEnd_append_singleton, ← hinput]
  case placed =>
    intro pre t post hsplit
    rw [hcopied] at hsplit
    rcases append_singleton_split hsplit with ⟨rfl, rfl, rfl⟩ | ⟨post', rfl, hbefore⟩
    · -- the section that has just been copied
      rw [hinput] at hfits
      refine ⟨hfits, fun k hk => ?_⟩
      simp only [overwrite, ← hinput, ← hoffset]
      rw [if_pos (by omega)]
      congr 1
      omega
    · obtain ⟨hfits', hbytes⟩ := h.placed pre t post' hbefore
      refine ⟨hfits', fun k hk => ?_⟩
      have htotal : movedOf (copied before) = movedOf pre + t.moved + movedOf post' := by
        rw [hbefore, movedOf_append_cons]
      simp only [overwrite]
      rw [if_neg (by omega), hbytes k hk]
  case code =>
    intro pre t post hsplit htext hlast
    rw [hcopied] at hsplit
    rcases append_singleton_split hsplit with ⟨rfl, rfl, rfl⟩ | ⟨post', rfl, hbefore⟩
    · simp only [hcode htext, h.inNoffFile]
    · have hs : s.kind ≠ .text := hlast s (by simp)
      simp only [hcode' hs]
      exact h.code pre t post' hbefore htext fun u hu => hlast u (by simp [hu])
  case initData =>
    intro pre t post hsplit hdata
    rw [hcopied] at hsplit
    rcases append_singleton_split hsplit with ⟨rfl, rfl, rfl⟩ | ⟨post', rfl, hbefore⟩
    · simp only [(hinit hdata).1, h.inNoffFile]
    · have hs : s.kind ≠ .data := by
        intro hs
        have hmem : t ∈ copied before := by
          rw [hbefore]
          simp
        have hdatas : t ∈ ofKind .data before :=
          mem_ofKind.mpr ⟨(mem_copied.mp hmem).1, (mem_copied.mp hmem).2.1, hdata⟩
        rw [(hinit hs).2] at hdatas
        exact absurd hdatas (by simp)
      simp only [hinit' hs]
      exact h.initData pre t post' hbefore hdata
  case initSize =>
    by_cases hs : s.kind = .data
    · simp only [(hinit hs).1]
      rw [← hs, ofKind_append_self hsize]
      simp only [List.append_eq_nil_iff, List.cons_ne_self, and_false, iff_false]
      exact hsize
    · simp only [hinit' hs]
      rw [ofKind_append_of_ne _ _ (Or.inr hs)]
      exact h.initSize
  case uninitSize =>
    simp only [huninit, hbss]
    exact h.uninitSize
  case uninitAddr =>
    simp only [huninit, hbss]
    exact h.uninitAddr

/-- A section without contents is added to the others. -/
theorem Converted.extend (h : Converted file before c) (hkind : s.kind = .bss)
    {uninitData : Segment} (haddr : uninitData.virtualAddr = (extent (ofKind .bss (before ++ [s]))).1)
    (hext : uninitData.size = (extent (ofKind .bss (before ++ [s]))).2) :
    Converted file (before ++ [s]) { c with noffH := { c.noffH with uninitData := uninitData } } := by
  have hcopied : copied (before ++ [s]) = copied before := by
    apply copied_append_of_ne before
    right
    simp [hkind]
  have hdata : ofKind .data (before ++ [s]) = ofKind .data before := by
    apply ofKind_append_of_ne
    right
    simp [hkind]
  constructor
  · rw [hcopied]
    exact h.outOffset
  · rw [hcopied]
    exact h.inNoffFile
  · rw [hcopied]
    exact h.inOffset
  · rw [hcopied]
    exact h.placed
  · rw [hcopied]
    exact h.code
  · rw [hcopied]
    exact h.initData
  · rw [hdata]
    exact h.initSize
  · exact hext
  · intro _
    exact haddr

/-- The loop refuses the section, or it does what it is to do. -/
theorem Converted.step (h : Converted file before c) :
    (Refused file before s ∧ ∃ e, loadSection file s c = .error e) ∨
      (¬ Refused file before s ∧
        ∃ c', loadSection file s c = .ok c' ∧ Converted file (before ++ [s]) c') := by
  unfold Refused loadSection
  by_cases hsize : s.sSize = 0
  · rw [if_pos hsize]
    exact Or.inr ⟨fun hrefused => hrefused.1 hsize, c, rfl, h.empty hsize⟩
  rw [if_neg hsize, ← h.inOffset]
  cases hkind : s.kind with
  | unknown => exact Or.inl ⟨⟨hsize, trivial⟩, _, rfl⟩
  | text =>
      simp only
      by_cases hfits : s.Fits file c.inOffset
      · refine Or.inr ⟨fun hrefused => hrefused.2 hfits, ?_⟩
        exact h.copy hsize (Or.inl hkind) hfits _ (fun _ => rfl) (fun hne => absurd hkind hne)
          (fun hdata => absurd (hkind.symm.trans hdata) (by simp)) (fun _ => rfl) rfl
      · refine Or.inl ⟨⟨hsize, hfits⟩, .tooShort, ?_⟩
        rw [copySection, if_neg hfits]
  | data =>
      simp only
      by_cases htwice : c.noffH.initData.size = 0
      · have hnone := h.initSize.mp htwice
        rw [if_neg (not_not.mpr htwice)]
        by_cases hfits : s.Fits file c.inOffset
        · refine Or.inr ⟨?_, ?_⟩
          · rintro ⟨-, hdata | hshort⟩
            · exact hdata hnone
            · exact hshort hfits
          · exact h.copy hsize (Or.inr hkind) hfits _
              (fun htext => absurd (hkind.symm.trans htext) (by simp)) (fun _ => rfl)
              (fun _ => ⟨rfl, hnone⟩) (fun hne => absurd hkind hne) rfl
        · refine Or.inl ⟨⟨hsize, Or.inr hfits⟩, .tooShort, ?_⟩
          rw [copySection, if_neg hfits]
      · rw [if_pos htwice]
        exact Or.inl ⟨⟨hsize, Or.inl fun hnone => htwice (h.initSize.mpr hnone)⟩, _, rfl⟩
  | bss =>
      simp only
      have hbss : extent (ofKind .bss (before ++ [s])) = Bin.extend (extent (ofKind .bss before)) s := by
        rw [← hkind, ofKind_append_self hsize, extent_append_singleton]
      have hsizes := h.uninitSize
      by_cases hfirst : c.noffH.uninitData.size = 0
      · rw [if_neg (not_not.mpr hfirst)]
        rw [hfirst] at hsizes
        refine Or.inr ⟨fun hrefused => hrefused.2.1 hsizes.symm, _, rfl, h.extend hkind ?_ ?_⟩
        · rw [hbss, Bin.extend, if_neg (not_not.mpr hsizes.symm)]
        · rw [hbss, Bin.extend, if_neg (not_not.mpr hsizes.symm)]
      · have haddr := h.uninitAddr hfirst
        rw [if_pos hfirst, haddr]
        rw [hsizes] at hfirst ⊢
        by_cases hadjacent : s.sPaddr = (extent (ofKind .bss before)).1 +
            (extent (ofKind .bss before)).2
        · rw [if_pos hadjacent]
          exact Or.inl ⟨⟨hsize, hfirst, hadjacent⟩, _, rfl⟩
        · rw [if_neg hadjacent]
          refine Or.inr ⟨fun hrefused => hadjacent hrefused.2.2, _, rfl, h.extend hkind ?_ ?_⟩
          · rw [hbss, Bin.extend, if_pos hfirst]
          · rw [hbss, Bin.extend, if_pos hfirst]

end Steps

/-- The object file has the magic numbers and all of its section headers. -/
structure IsCoff (file : Executable) : Prop where
  headers : headersEnd file ≤ file.length
  mipsel : shortToHost (Memory.loadShort file.byte 0) = mipselMagic
  omagic : shortToHost (Memory.loadShort file.byte filehdrSize) = Bin.omagic

/-- A section is refused. -/
def Rejects (file : Executable) : Prop := SomeRefused (Refused file) [] (sections file)

/-- The program fails when a section is refused, and converts all sections otherwise. -/
theorem main_cases {file : Executable} (hcoff : IsCoff file) (garbage : NoffHeader) :
    (Rejects file ∧ ∃ e, main file garbage = .error e) ∨
      (¬ Rejects file ∧ ∃ c, main file garbage = .ok (writeHeader c.noffH c.output) ∧
        Converted file (sections file) c) := by
  have hlength := hcoff.headers
  unfold headersEnd at hlength
  have hloop := scan_cases (loadSection file) (Refused file) (Converted file)
    (fun before s c h => h.step) (sections file) (Converted.initial garbage)
  unfold main headersEnd
  rw [if_neg (by omega), if_neg (not_not.mpr hcoff.mipsel), if_neg (by omega),
    if_neg (not_not.mpr hcoff.omagic), if_neg (by omega)]
  rcases hloop with ⟨hrefused, e, he⟩ | ⟨hok, c, hc, hconverted⟩
  · rw [he]
    exact Or.inl ⟨hrefused, e, rfl⟩
  · rw [hc]
    exact Or.inr ⟨hok, c, rfl, hconverted⟩

/-- The addresses from `v` on, `n` of them. -/
def InRange (v n a : Nat) : Prop := v ≤ a ∧ a < v + n

/-- The addresses of the sections without contents. -/
def InBss (sections : List Scnhdr) (a : Nat) : Prop :=
  ∃ s ∈ ofKind .bss sections, InRange s.sPaddr.toNat s.sSize.toNat a

/-- The object file has the bytes of the section. -/
structure Readable (file : Executable) (s : Scnhdr) : Prop where
  offset : s.sScnptr.msb = false
  size : s.sSize.msb = false
  length : s.sScnptr.toNat + s.sSize.toNat ≤ file.length

/-- A header has a place for every section. -/
structure Possible (file : Executable) : Prop where
  known : ∀ s ∈ sections file, s.sSize ≠ 0 → s.kind ≠ .unknown
  text : (ofKind .text (sections file)).length ≤ 1
  data : (ofKind .data (sections file)).length ≤ 1
  readable : ∀ s ∈ copied (sections file), Readable file s
  contiguous : ∃ v n, ∀ a, InRange v n a ↔ InBss (sections file) a

/-- The segment is the section: its address and size, and its bytes in the output, behind
the header. -/
structure Holds (file : Executable) (output : Memory) (s : Scnhdr) (segment : Segment) :
    Prop where
  virtualAddr : segment.virtualAddr = s.sPaddr
  size : segment.size = s.sSize
  behind : (noffHeaderSize : Int) ≤ segment.inFileAddr.toInt
  bytes : ∀ k, k < s.sSize.toNat →
    output (segment.inFileAddr.toNat + k) = file.byte (s.sScnptr.toNat + k)

/-- The output describes the object file. -/
structure Described (file : Executable) (output : Memory) : Prop where
  text : ∀ s ∈ ofKind .text (sections file), Holds file output s (NoffHeader.read output).code
  data : ∀ s ∈ ofKind .data (sections file), Holds file output s (NoffHeader.read output).initData
  apart : ofKind .text (sections file) ≠ [] → ofKind .data (sections file) ≠ [] → ∀ a,
    ¬ (InRange (NoffHeader.read output).code.inFileAddr.toNat
        (NoffHeader.read output).code.size.toNat a ∧
      InRange (NoffHeader.read output).initData.inFileAddr.toNat
        (NoffHeader.read output).initData.size.toNat a)
  bss : ∀ a, InRange (NoffHeader.read output).uninitData.virtualAddr.toNat
    (NoffHeader.read output).uninitData.size.toNat a ↔ InBss (sections file) a

/-- What `coff2noff` is to do: it describes what it converts, and it refuses what cannot
be described. -/
def ConvertsRight (file : Executable) (garbage : NoffHeader) : Prop :=
  (∀ output, main file garbage = .ok output → Described file output) ∧
    ((∃ e, main file garbage = .error e) ↔ ¬ Possible file)

/-- The first section without contents, made as long as all of them, is their union. -/
def BssFollows (file : Executable) : Prop :=
  ∀ a, InRange (extent (ofKind .bss (sections file))).1.toNat
    (extent (ofKind .bss (sections file))).2.toNat a ↔ InBss (sections file) a

/-- The places of the sections in the output are `int`s. -/
def PlacesFit (file : Executable) : Prop :=
  ∀ pre s post, copied (sections file) = pre ++ s :: post → noffHeaderSize + bytesOf pre < 2 ^ 31

section Outcomes

variable {file : Executable} {pre post : List Scnhdr} {s t : Scnhdr} {c : Conversion}

theorem copied_length (l : List Scnhdr) :
    (copied l).length = (ofKind .text l).length + (ofKind .data l).length := by
  induction l using List.reverseRecOn with
  | nil => rfl
  | append_singleton l s ih =>
      by_cases hsize : s.sSize = 0
      · rw [copied_append_of_ne _ (Or.inl hsize), ofKind_append_of_ne _ _ (Or.inl hsize),
          ofKind_append_of_ne _ _ (Or.inl hsize), ih]
      · cases hkind : s.kind with
        | text =>
            rw [copied_append_self _ hsize (Or.inl hkind),
              ofKind_append_of_ne l .data (Or.inr (by simp [hkind])), ← hkind,
              ofKind_append_self hsize, hkind, List.length_append, List.length_append, ih]
            omega
        | data =>
            rw [copied_append_self _ hsize (Or.inr hkind),
              ofKind_append_of_ne l .text (Or.inr (by simp [hkind])), ← hkind,
              ofKind_append_self hsize, hkind, List.length_append, List.length_append, ih]
            omega
        | bss =>
            rw [copied_append_of_ne _ (Or.inr (by simp [hkind])),
              ofKind_append_of_ne _ _ (Or.inr (by simp [hkind])),
              ofKind_append_of_ne _ _ (Or.inr (by simp [hkind])), ih]
        | unknown =>
            rw [copied_append_of_ne _ (Or.inr (by simp [hkind])),
              ofKind_append_of_ne _ _ (Or.inr (by simp [hkind])),
              ofKind_append_of_ne _ _ (Or.inr (by simp [hkind])), ih]

/-- Only one of the sections that are copied is code. -/
theorem Possible.text_unique (h : Possible file)
    (hsplit : copied (sections file) = pre ++ s :: post) (hs : s.kind = .text) :
    ∀ t ∈ post, t.kind ≠ .text := by
  intro t ht htext
  have hfilter : ofKind .text (sections file) =
      (copied (sections file)).filter fun u => u.kind = .text := by
    unfold ofKind copied
    rw [List.filter_filter]
    apply List.filter_congr
    intro u _
    by_cases hu : u.kind = .text
    · simp [hu]
    · simp [hu]
  have htwo := h.text
  rw [hfilter, hsplit, List.filter_append, List.filter_cons_of_pos (by simpa using hs),
    List.length_append, List.length_cons] at htwo
  have hmem : t ∈ post.filter fun u => u.kind = .text := by
    rw [List.mem_filter]
    exact ⟨ht, by simpa using htext⟩
  have hpos := List.length_pos_of_mem hmem
  omega

/-- The place of a section in the output, as a number of 32 bits. -/
theorem Possible.place_lt (h : Possible file)
    (hsplit : copied (sections file) = pre ++ s :: post) :
    noffHeaderSize + bytesOf pre < 2 ^ 32 := by
  have hlength := copied_length (sections file)
  have htext := h.text
  have hdata := h.data
  rw [hsplit, List.length_append, List.length_cons] at hlength
  have hheader : noffHeaderSize = 40 := rfl
  cases pre with
  | nil =>
      simp only [bytesOf, List.map_nil, List.sum_nil]
      omega
  | cons u rest =>
      obtain rfl : rest = [] := by
        rw [List.length_cons] at hlength
        apply List.eq_nil_of_length_eq_zero
        omega
      have hread := h.readable u (by rw [hsplit]; simp)
      have hsmall := BitVec.msb_eq_false_iff_two_mul_lt.mp hread.size
      simp only [bytesOf, List.map_cons, List.map_nil, List.sum_cons, List.sum_nil]
      omega

/-- The segment of a section that is copied behind `pre`. -/
def placedAt (pre : List Scnhdr) (s : Scnhdr) : Segment :=
  ⟨s.sPaddr, BitVec.ofNat 32 (noffHeaderSize + bytesOf pre), s.sSize⟩

theorem Possible.placedAt_toNat (h : Possible file)
    (hsplit : copied (sections file) = pre ++ s :: post) :
    (placedAt pre s).inFileAddr.toNat = noffHeaderSize + bytesOf pre := by
  have hlt := h.place_lt hsplit
  unfold placedAt
  rw [BitVec.toNat_ofNat, Nat.mod_eq_of_lt hlt]

/-- The bytes of a section are behind those of the sections in front of it. -/
theorem Converted.bytes_eq (h : Converted file (sections file) c) (hposs : Possible file)
    (hsplit : copied (sections file) = pre ++ s :: post) {k : Nat} (hk : k < s.sSize.toNat) :
    c.output (noffHeaderSize + bytesOf pre + k) = file.byte (s.sScnptr.toNat + k) := by
  obtain ⟨-, hbytes⟩ := h.placed pre s post hsplit
  have hread := hposs.readable s (by rw [hsplit]; simp)
  have hstart : s.readStart (readEnd (headersEnd file) pre) = s.sScnptr.toNat := by
    rw [Scnhdr.readStart, if_neg (by rw [hread.offset]; simp)]
  have hpre : movedOf pre = bytesOf pre := by
    apply movedOf_of_nonneg
    intro t ht
    have hmem : t ∈ copied (sections file) := by
      rw [hsplit]
      exact List.mem_append_left _ ht
    exact (hposs.readable t hmem).size
  rw [← hpre, hbytes k (by rwa [moved_of_nonneg hread.size]), hstart]

/-- A section that is copied is where its segment says, if that is an `int`. -/
theorem Converted.holds_iff (h : Converted file (sections file) c) (hposs : Possible file)
    (hsplit : copied (sections file) = pre ++ s :: post) :
    Holds file (writeHeader c.noffH c.output) s (placedAt pre s) ↔
      noffHeaderSize + bytesOf pre < 2 ^ 31 := by
  have hplace := hposs.placedAt_toNat hsplit
  have hint := BitVec.toInt_eq_toNat_cond (placedAt pre s).inFileAddr
  rw [hplace] at hint
  have hheader : noffHeaderSize = 40 := rfl
  constructor
  · intro hholds
    have hbehind := hholds.behind
    by_contra hlarge
    have hlt := hposs.place_lt hsplit
    rw [if_neg (by omega)] at hint
    omega
  · intro hfits
    rw [if_pos (by omega)] at hint
    constructor
    case virtualAddr => rfl
    case size => rfl
    case behind => omega
    case bytes =>
      intro k hk
      rw [hplace, writeHeader_of_le _ _ (by omega), h.bytes_eq hposs hsplit hk]

/-- The extent of the sections without contents is as the loop has it. -/
theorem Converted.inRange_iff (h : Converted file (sections file) c) (a : Nat) :
    InRange c.noffH.uninitData.virtualAddr.toNat c.noffH.uninitData.size.toNat a ↔
      InRange (extent (ofKind .bss (sections file))).1.toNat
        (extent (ofKind .bss (sections file))).2.toNat a := by
  have hsize := h.uninitSize
  by_cases hzero : c.noffH.uninitData.size = 0
  · rw [← hsize, hzero]
    have hnone : BitVec.toNat (0 : Word) = 0 := rfl
    unfold InRange
    rw [hnone]
    omega
  · rw [h.uninitAddr hzero, hsize]

/-- Two sections of different kinds are one behind the other. -/
theorem split_cases {pre' post' : List Scnhdr} {l : List Scnhdr} (hs : l = pre ++ s :: post)
    (ht : l = pre' ++ t :: post') (hne : s ≠ t) :
    bytesOf pre + s.sSize.toNat ≤ bytesOf pre' ∨ bytesOf pre' + t.sSize.toNat ≤ bytesOf pre := by
  rw [hs] at ht
  rcases List.append_eq_append_iff.mp ht with ⟨mid, rfl, hmid⟩ | ⟨mid, rfl, hmid⟩
  · cases mid with
    | nil =>
        rw [List.nil_append] at hmid
        exact absurd (List.cons.inj hmid).1 hne
    | cons u mid =>
        obtain ⟨rfl, -⟩ := List.cons.inj hmid
        left
        rw [bytesOf_append_cons]
        omega
  · cases mid with
    | nil =>
        rw [List.nil_append] at hmid
        exact absurd (List.cons.inj hmid).1.symm hne
    | cons u mid =>
        obtain ⟨rfl, -⟩ := List.cons.inj hmid
        right
        rw [bytesOf_append_cons]
        omega

/-- A section of code or data is one of those that are copied. -/
theorem exists_split {kind : Kind} (hkind : kind = .text ∨ kind = .data)
    (hs : s ∈ ofKind kind (sections file)) :
    s.kind = kind ∧ ∃ pre post, copied (sections file) = pre ++ s :: post := by
  obtain ⟨hmem, hsize, rfl⟩ := mem_ofKind.mp hs
  exact ⟨rfl, List.append_of_mem (mem_copied.mpr ⟨hmem, hsize, hkind⟩)⟩

/-- What is converted is described when the sections without contents follow one another
and the places fit. -/
theorem Converted.described_iff (h : Converted file (sections file) c) (hposs : Possible file) :
    Described file (writeHeader c.noffH c.output) ↔ BssFollows file ∧ PlacesFit file := by
  have hcode : ∀ {pre s post}, copied (sections file) = pre ++ s :: post → s.kind = .text →
      c.noffH.code = placedAt pre s := fun hsplit hs =>
    h.code _ _ _ hsplit hs (hposs.text_unique hsplit hs)
  have hdata : ∀ {pre s post}, copied (sections file) = pre ++ s :: post → s.kind = .data →
      c.noffH.initData = placedAt pre s := fun hsplit hs => h.initData _ _ _ hsplit hs
  have hbss : (∀ a, InRange c.noffH.uninitData.virtualAddr.toNat c.noffH.uninitData.size.toNat a ↔
      InBss (sections file) a) ↔ BssFollows file := by
    unfold BssFollows
    simp only [h.inRange_iff]
  constructor
  · intro hdescribed
    obtain ⟨htexts, hdatas, -, hunion⟩ := hdescribed
    rw [read_writeHeader] at htexts hdatas hunion
    refine ⟨hbss.mp hunion, fun pre s post hsplit => ?_⟩
    have hmem : s ∈ copied (sections file) := by
      rw [hsplit]
      simp
    obtain ⟨hin, hsize, hkind⟩ := mem_copied.mp hmem
    rw [← h.holds_iff hposs hsplit]
    rcases hkind with htext | htext
    · rw [← hcode hsplit htext]
      exact htexts s (mem_ofKind.mpr ⟨hin, hsize, htext⟩)
    · rw [← hdata hsplit htext]
      exact hdatas s (mem_ofKind.mpr ⟨hin, hsize, htext⟩)
  · rintro ⟨hfollows, hfit⟩
    constructor
    case text =>
      intro s hs
      obtain ⟨hkind, pre, post, hsplit⟩ := exists_split (Or.inl rfl) hs
      rw [read_writeHeader, hcode hsplit hkind, h.holds_iff hposs hsplit]
      exact hfit pre s post hsplit
    case data =>
      intro s hs
      obtain ⟨hkind, pre, post, hsplit⟩ := exists_split (Or.inr rfl) hs
      rw [read_writeHeader, hdata hsplit hkind, h.holds_iff hposs hsplit]
      exact hfit pre s post hsplit
    case apart =>
      intro htexts hdatas a
      obtain ⟨s, hs⟩ := List.exists_mem_of_ne_nil _ htexts
      obtain ⟨t, ht⟩ := List.exists_mem_of_ne_nil _ hdatas
      obtain ⟨hskind, pre, post, hsplit⟩ := exists_split (Or.inl rfl) hs
      obtain ⟨htkind, pre', post', hsplit'⟩ := exists_split (Or.inr rfl) ht
      have hne : s ≠ t := by
        rintro rfl
        exact absurd (hskind.symm.trans htkind) (by simp)
      have horder := split_cases hsplit hsplit' hne
      rw [read_writeHeader, hcode hsplit hskind, hdata hsplit' htkind,
        hposs.placedAt_toNat hsplit, hposs.placedAt_toNat hsplit']
      have hsize : (placedAt pre s).size = s.sSize := rfl
      have hsize' : (placedAt pre' t).size = t.sSize := rfl
      rw [hsize, hsize']
      unfold InRange
      omega
    case bss =>
      intro a
      rw [read_writeHeader]
      exact hbss.mpr hfollows a

/-- A second section of a kind makes two of them. -/
theorem length_ofKind_pos {kind : Kind} (post : List Scnhdr) (hpre : ofKind kind pre ≠ []) (hsize : s.sSize ≠ 0)
    (hs : s.kind = kind) : 2 ≤ (ofKind kind (pre ++ s :: post)).length := by
  have hpos := List.length_pos_iff.mpr hpre
  have happend : ofKind kind (pre ++ s :: post) = ofKind kind pre ++ s :: ofKind kind post := by
    unfold ofKind
    rw [List.filter_append, List.filter_cons_of_pos]
    exact decide_eq_true ⟨hsize, hs⟩
  rw [happend, List.length_append, List.length_cons]
  omega

/-- With at most one section without contents, what has a place in a header is not
refused. -/
theorem Possible.not_rejects (h : Possible file) (hbss : (ofKind .bss (sections file)).length ≤ 1) :
    ¬ Rejects file := by
  rintro ⟨pre, s, post, hsplit, hsize, hrefused⟩
  rw [List.nil_append] at hrefused
  have hmem : s ∈ sections file := by
    rw [hsplit]
    simp
  have hfits : (s.kind = .text ∨ s.kind = .data) → ∀ n, s.Fits file n := by
    intro hkind n
    have hread := h.readable s (mem_copied.mpr ⟨hmem, hsize, hkind⟩)
    refine (fits_iff hsize).mpr (Or.inr ⟨hread.size, ?_⟩)
    rw [Scnhdr.readStart, if_neg (by rw [hread.offset]; simp)]
    exact hread.length
  cases hkind : s.kind with
  | text =>
      rw [hkind] at hrefused
      exact hrefused (hfits (Or.inl hkind) _)
  | data =>
      rw [hkind] at hrefused
      rcases hrefused with htwice | hshort
      · have hdata := h.data
        have htwo := length_ofKind_pos post htwice hsize hkind
        rw [← hsplit] at htwo
        omega
      · exact hshort (hfits (Or.inr hkind) _)
  | bss =>
      rw [hkind] at hrefused
      have hpre : ofKind .bss pre ≠ [] := by
        intro hnil
        rw [hnil] at hrefused
        exact hrefused.1 rfl
      have htwo := length_ofKind_pos post hpre hsize hkind
      rw [← hsplit] at htwo
      omega
  | unknown => exact h.known s hmem hsize hkind

/-- One section without contents is its own union. -/
theorem bssFollows_of_length (hbss : (ofKind .bss (sections file)).length ≤ 1) :
    BssFollows file := by
  intro a
  unfold InBss
  cases hlist : ofKind .bss (sections file) with
  | nil =>
      unfold InRange extent
      simp
  | cons s rest =>
      obtain rfl : rest = [] := by
        rw [hlist, List.length_cons] at hbss
        apply List.eq_nil_of_length_eq_zero
        omega
      simp [extent, extend]

end Outcomes

/-- Of the object files that have a place in a header, `coff2noff` describes those, and of
the others it refuses those, that the conditions say: none of the sections is refused, the
sections without contents follow one another and the places fit; or one is refused. -/
theorem convertsRight_iff (file : Executable) (hcoff : IsCoff file) (garbage : NoffHeader) :
    ConvertsRight file garbage ↔
      (Possible file ∧ ¬ Rejects file ∧ BssFollows file ∧ PlacesFit file) ∨
        (¬ Possible file ∧ Rejects file) := by
  unfold ConvertsRight
  rcases main_cases hcoff garbage with ⟨hrejects, e, he⟩ | ⟨hok, c, hc, hconverted⟩
  · have herror : ∃ e, main file garbage = .error e := ⟨e, he⟩
    constructor
    · rintro ⟨-, hiff⟩
      exact Or.inr ⟨hiff.mp herror, hrejects⟩
    · rintro (⟨-, hok, -⟩ | ⟨hnot, -⟩)
      · exact absurd hrejects hok
      · refine ⟨fun output houtput => ?_, fun _ => hnot, fun _ => herror⟩
        rw [he] at houtput
        exact absurd houtput (by simp)
  · have hnoError : ¬ ∃ e, main file garbage = .error e := by
      rintro ⟨e, he⟩
      rw [hc] at he
      exact absurd he (by simp)
    constructor
    · rintro ⟨hdescribes, hiff⟩
      have hposs : Possible file := by
        by_contra hnot
        exact hnoError (hiff.mpr hnot)
      have hdescribed := hdescribes _ hc
      rw [hconverted.described_iff hposs] at hdescribed
      exact Or.inl ⟨hposs, hok, hdescribed⟩
    · rintro (⟨hposs, -, hfollows⟩ | ⟨-, hrejects⟩)
      · refine ⟨fun output houtput => ?_, fun herror => absurd herror hnoError,
          fun hnot => absurd hposs hnot⟩
        rw [hc] at houtput
        obtain rfl := Except.ok.inj houtput
        exact (hconverted.described_iff hposs).mpr hfollows
      · exact absurd hrejects hok

/-- An object file with the words of two section headers, and one word behind them. -/
def twoSections (headers : List Word) : Executable :=
  .ofWords ([0x62010200, 0, 0, 0, 0, 0x07010000] ++ List.replicate 13 0 ++ headers ++ [0x0a000824])

/-- A `.text` section of 4 bytes and a `.bss` section of 8 bytes behind it. -/
def textAndBss : Executable :=
  twoSections [0x2e746578, 0x74000000, 0, 0, 0x04000000, 0x9c000000, 0, 0, 0, 0,
    0x2e627373, 0, 0x04000000, 0, 0x08000000, 0, 0, 0, 0, 0]

theorem convertsRight_textAndBss :
    ConvertsRight textAndBss ⟨0, ⟨0, 0, 0⟩, ⟨0, 0, 0⟩, ⟨0, 0, 0⟩⟩ := by
  have hcoff : IsCoff textAndBss := ⟨by decide, by decide, by decide⟩
  refine (convertsRight_iff textAndBss hcoff _).mpr (Or.inl ?_)
  have hbss : ofKind .bss (sections textAndBss) =
      [⟨[0x2e, 0x62, 0x73, 0x73, 0, 0, 0, 0], 4, 8, 0⟩] := by decide
  have hcopied : copied (sections textAndBss) =
      [⟨[0x2e, 0x74, 0x65, 0x78, 0x74, 0, 0, 0], 0, 4, 0x9c⟩] := by decide
  have hunion : ∀ a, InRange 4 8 a ↔ InBss (sections textAndBss) a := by
    intro a
    unfold InBss
    rw [hbss]
    simp
  have hposs : Possible textAndBss := by
    refine ⟨by decide, by decide, by decide, ?_, 4, 8, hunion⟩
    intro s hs
    rw [hcopied] at hs
    obtain rfl := List.mem_singleton.mp hs
    exact ⟨by decide, by decide, by decide⟩
  have hone : (ofKind .bss (sections textAndBss)).length ≤ 1 := by
    rw [hbss]
    decide
  refine ⟨hposs, hposs.not_rejects hone, bssFollows_of_length hone, ?_⟩
  intro pre s post hsplit
  rw [hcopied] at hsplit
  have hpre : pre = [] := by
    have hlength := congrArg List.length hsplit
    simp at hlength
    exact List.eq_nil_of_length_eq_zero (by omega)
  rw [hpre]
  decide

/-- A `.bss` section of 4 bytes and a `.sbss` section directly behind it. -/
def bssAndSbss : Executable :=
  twoSections [0x2e627373, 0, 0, 0, 0x04000000, 0, 0, 0, 0, 0,
    0x2e736273, 0x73000000, 0x04000000, 0, 0x04000000, 0, 0, 0, 0, 0]

/-- A `.text` section of -1 bytes, which `Read` and `Write` let pass. -/
example : (main (twoSections [0x2e746578, 0x74000000, 0, 0, 0xffffffff, 0x9c000000, 0, 0, 0, 0,
    0, 0, 0, 0, 0, 0, 0, 0, 0, 0]) ⟨0, ⟨0, 0, 0⟩, ⟨0, 0, 0⟩, ⟨0, 0, 0⟩⟩).isOk = true := by
  decide +kernel

/-- Sections without contents that follow one another are refused. -/
theorem contiguous_refused :
    ¬ ∀ (file : Executable) (garbage : NoffHeader), IsCoff file → ConvertsRight file garbage := by
  intro hall
  have hcoff : IsCoff bssAndSbss := ⟨by decide, by decide, by decide⟩
  obtain ⟨-, hrefuses⟩ := hall bssAndSbss ⟨0, ⟨0, 0, 0⟩, ⟨0, 0, 0⟩, ⟨0, 0, 0⟩⟩ hcoff
  have herror : (main bssAndSbss ⟨0, ⟨0, 0, 0⟩, ⟨0, 0, 0⟩, ⟨0, 0, 0⟩⟩).isOk = false := by
    decide +kernel
  have hbss : ofKind .bss (sections bssAndSbss) =
      [⟨[0x2e, 0x62, 0x73, 0x73, 0, 0, 0, 0], 0, 4, 0⟩,
        ⟨[0x2e, 0x73, 0x62, 0x73, 0x73, 0, 0, 0], 4, 4, 0⟩] := by decide
  have hcopied : copied (sections bssAndSbss) = [] := by decide
  have hunion : ∀ a, InRange 0 8 a ↔ InBss (sections bssAndSbss) a := by
    intro a
    unfold InBss InRange
    rw [hbss]
    simp
    omega
  have hposs : Possible bssAndSbss := by
    refine ⟨by decide, by decide, by decide, ?_, 0, 8, hunion⟩
    intro s hs
    rw [hcopied] at hs
    exact absurd hs (by simp)
  cases hresult : main bssAndSbss ⟨0, ⟨0, 0, 0⟩, ⟨0, 0, 0⟩, ⟨0, 0, 0⟩⟩ with
  | ok output =>
      rw [hresult] at herror
      exact absurd herror (by simp [Except.isOk, Except.toBool])
  | error e => exact hrefuses.mp ⟨e, hresult⟩ hposs

end Bin
end Nachos
