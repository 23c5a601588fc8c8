import Nachos.Userprog.AddrSpace
import Nachos.Filesys.FileHeader
import Nachos.Lib.Extents
import Nachos.Lib.Scans

/-!
# Making executables

This module embeds `bin/coff2noff.c`, which turns an object file in COFF format into a
NOFF file.  Both files are on the host: writing succeeds, and reading comes to the end of
the file only.  A negative number of bytes is more than `read` and `write` can be asked for:
they fail and return -1, and so they return what they were asked for when that is -1.
-/

namespace Nachos
namespace Bin

open Userprog Lib

/-- `struct scnhdr`, without the fields that are not used. -/
structure Scnhdr where
  sName : List Byte
  sPaddr : Word
  sSize : Word
  sScnptr : Word
  deriving DecidableEq, Repr

/-- The complaints of the program, with `exit(1)`. -/
inductive Failure
  /-- "File is too short" -/
  | tooShort
  /-- "File is not a MIPSEL COFF file" -/
  | notMipsel
  /-- "File is not a OMAGIC file" -/
  | notOmagic
  /-- "Can't handle both data and rdata" -/
  | dataAndRdata
  /-- "Can't handle both bss and sbss" -/
  | bssAndSbss
  /-- "Unknown segment type: %s" -/
  | unknownSegment (name : List Byte)
  deriving DecidableEq, Repr

/-- `MIPSELMAGIC` and `OMAGIC`. -/
def mipselMagic : BitVec 16 := 0x0162

def omagic : BitVec 16 := 0x0107

/-- `sizeof(struct filehdr)`, `sizeof(struct aouthdr)` and `sizeof(struct scnhdr)`. -/
def filehdrSize : Nat := 20

def aouthdrSize : Nat := 56

def scnhdrSize : Nat := 40

/-- The characters of a name. -/
def ascii (name : List Char) : List Byte := name.map fun c => BitVec.ofNat 8 c.toNat

/-- `!strcmp(name, literal)`; the literal is shorter than the field. -/
def strcmpEqual (name literal : List Byte) : Bool :=
  name.take (literal.length + 1) = literal ++ [0]

/-- What the loop takes a section for. -/
inductive Kind
  | text
  | data
  | bss
  | unknown
  deriving DecidableEq, Repr

/-- What `read` returns, from offset `at'` on. -/
def hostRead (file : Executable) (at' : Nat) (nBytes : Int) : Int :=
  if nBytes < 0 then -1 else min nBytes (file.length - at' : Nat)

/-- What `write` returns. -/
def hostWrite (nBytes : Int) : Int := if nBytes < 0 then -1 else nBytes

namespace Scnhdr

/-- The section header at `a`. -/
def read (file : Executable) (a : Nat) : Scnhdr where
  sName := (List.range 8).map fun k => file.byte (a + k)
  sPaddr := wordToHost (Memory.loadInt file.byte (a + 8))
  sSize := wordToHost (Memory.loadInt file.byte (a + 16))
  sScnptr := wordToHost (Memory.loadInt file.byte (a + 20))

/-- The tests of the name, in order. -/
def kind (s : Scnhdr) : Kind :=
  if strcmpEqual s.sName (ascii ['.', 't', 'e', 'x', 't']) then .text
  else if strcmpEqual s.sName (ascii ['.', 'd', 'a', 't', 'a']) ∨
      strcmpEqual s.sName (ascii ['.', 'r', 'd', 'a', 't', 'a']) then .data
  else if strcmpEqual s.sName (ascii ['.', 'b', 's', 's']) ∨
      strcmpEqual s.sName (ascii ['.', 's', 'b', 's', 's']) then .bss
  else .unknown

/-- Where a section is read when the input is at offset `at'`: `lseek` fails on a negative
offset, which is not noticed. -/
def readStart (s : Scnhdr) (at' : Nat) : Nat := if s.sScnptr.msb then at' else s.sScnptr.toNat

/-- `Read` and `Write` of the section do not complain. -/
def Fits (s : Scnhdr) (file : Executable) (at' : Nat) : Prop :=
  hostRead file (s.readStart at') s.sSize.toInt = s.sSize.toInt ∧
    hostWrite s.sSize.toInt = s.sSize.toInt

instance (s : Scnhdr) (file : Executable) (at' : Nat) : Decidable (s.Fits file at') :=
  inferInstanceAs (Decidable (_ ∧ _))

/-- The bytes that go from the input to the output when neither complains. -/
def moved (s : Scnhdr) : Nat := (hostWrite s.sSize.toInt).toNat

end Scnhdr

/-- What the loop works on, with the offsets of the two files and what has been written. -/
structure Conversion where
  noffH : NoffHeader
  inNoffFile : Word
  inOffset : Nat
  outOffset : Nat
  output : Memory

/-- The bytes of a section are copied. -/
def copySection (file : Executable) (s : Scnhdr) (c : Conversion) : Except Failure Conversion :=
  if s.Fits file c.inOffset then
    .ok { c with
      inNoffFile := c.inNoffFile + s.sSize
      inOffset := s.readStart c.inOffset + s.moved
      outOffset := c.outOffset + s.moved
      output := overwrite c.output c.outOffset s.moved fun k =>
        file.byte (s.readStart c.inOffset + k) }
  else .error .tooShort

/-- The body of the loop. -/
def loadSection (file : Executable) (s : Scnhdr) (c : Conversion) : Except Failure Conversion :=
  if s.sSize = 0 then .ok c
  else
    match s.kind with
    | .text => copySection file s
        { c with noffH := { c.noffH with code := ⟨s.sPaddr, c.inNoffFile, s.sSize⟩ } }
    | .data =>
        if c.noffH.initData.size ≠ 0 then .error .dataAndRdata
        else copySection file s
          { c with noffH := { c.noffH with initData := ⟨s.sPaddr, c.inNoffFile, s.sSize⟩ } }
    | .bss =>
        let uninitData := c.noffH.uninitData
        if uninitData.size ≠ 0 then
          if s.sPaddr = uninitData.virtualAddr + uninitData.size then .error .bssAndSbss
          else .ok { c with noffH := { c.noffH with
            uninitData := { uninitData with size := uninitData.size + s.sSize } } }
        else .ok { c with noffH := { c.noffH with
          uninitData := { uninitData with virtualAddr := s.sPaddr, size := s.sSize } } }
    | .unknown => .error (.unknownSegment s.sName)

/-- `Write(fdOut, &noffH, sizeof(NoffHeader))`, at the start of the file. -/
def writeHeader (noffH : NoffHeader) (output : Memory) : Memory :=
  let put (s : Segment) (a : Nat) (m : Memory) : Memory :=
    ((m.storeInt a s.virtualAddr).storeInt (a + 4) s.inFileAddr).storeInt (a + 8) s.size
  put noffH.uninitData 28 (put noffH.initData 16 (put noffH.code 4
    (output.storeInt 0 noffH.noffMagic)))

/-- The number of sections, and their headers. -/
def numsections (file : Executable) : Nat := (shortToHost (Memory.loadShort file.byte 2)).toNat

def sections (file : Executable) : List Scnhdr :=
  (List.range (numsections file)).map fun i =>
    Scnhdr.read file (filehdrSize + aouthdrSize + scnhdrSize * i)

/-- The end of the section headers. -/
def headersEnd (file : Executable) : Nat :=
  filehdrSize + aouthdrSize + scnhdrSize * numsections file

/-- `noffH` and the offsets in front of the loop; `garbage` is what was on the stack. -/
def initial (file : Executable) (garbage : NoffHeader) : Conversion where
  noffH := { garbage with
    noffMagic := Userprog.noffMagic
    code := { garbage.code with size := 0 }
    initData := { garbage.initData with size := 0 }
    uninitData := { garbage.uninitData with size := 0 } }
  inNoffFile := BitVec.ofNat 32 noffHeaderSize
  inOffset := headersEnd file
  outOffset := noffHeaderSize
  output := fun _ => 0

/-- `main`, behind the opening of the files: what is written. -/
def main (file : Executable) (garbage : NoffHeader) : Except Failure Memory :=
  if file.length < filehdrSize then .error .tooShort
  else if shortToHost (Memory.loadShort file.byte 0) ≠ mipselMagic then .error .notMipsel
  else if file.length < filehdrSize + aouthdrSize then .error .tooShort
  else if shortToHost (Memory.loadShort file.byte filehdrSize) ≠ omagic then .error .notOmagic
  else if file.length < headersEnd file then .error .tooShort
  else
    match scan (loadSection file) (sections file) (initial file garbage) with
    | .ok c => .ok (writeHeader c.noffH c.output)
    | .error e => .error e

section Headers

/-- The header that was written is read back. -/
theorem read_writeHeader (noffH : NoffHeader) (output : Memory) :
    NoffHeader.read (writeHeader noffH output) = noffH := by
  unfold NoffHeader.read Segment.read writeHeader
  simp (disch := omega) only [Filesys.loadInt_storeInt_of_ne, Filesys.loadInt_storeInt_self]

/-- Behind the header nothing is changed. -/
theorem writeHeader_of_le (noffH : NoffHeader) (output : Memory) {k : Nat}
    (hk : noffHeaderSize ≤ k) : writeHeader noffH output k = output k := by
  unfold noffHeaderSize at hk
  unfold writeHeader
  simp (disch := omega) only [Filesys.storeInt_of_ne]

end Headers

end Bin
end Nachos
