import Nachos.Userprog.FileTables
import Nachos.Userprog.UserCopies

/-!
# `Read_Syscall`

The call reads a word from the console with `scanf("%s", buf)`, or up to `len` bytes from
an open file of the host.  `scanf` is not told how long the buffer is, and how much it has
read is not asked: `len` bytes are copied out and `len` is returned.  From a file, what is
returned and copied is what has been read.
-/

namespace Nachos
namespace Userprog
namespace ReadCall

open Threads Lib Machine

/-- `class OpenFile` on top of the host's file system. -/
structure HostFile where
  content : List Byte
  currentOffset : Nat
  deriving DecidableEq, Repr

/-- `OpenFile::Read`: the bytes it stores. -/
def HostFile.read (f : HostFile) (numBytes : Nat) : List Byte :=
  (f.content.drop f.currentOffset).take numBytes

/-- `currentOffset += numRead`. -/
def HostFile.advance (f : HostFile) (numRead : Nat) : HostFile :=
  { f with currentOffset := f.currentOffset + numRead }

/-- `isspace`. -/
def isSpace (b : Byte) : Bool := b = 32 ∨ (9 ≤ b ∧ b ≤ 13)

/-- The word that `scanf("%s", buf)` reads; there is none at the end of the input. -/
def scanWord (input : List Byte) : List Byte :=
  (input.dropWhile isSpace).takeWhile fun b => !isSpace b

/-- The input behind it. -/
def scanRest (input : List Byte) : List Byte :=
  (input.dropWhile isSpace).dropWhile fun b => !isSpace b

/-- What `scanf` stores: the word and a null byte. -/
def scanStores (input : List Byte) : List Byte :=
  if scanWord input = [] then [] else scanWord input ++ [0]

/-- The machine, the files of the current address space and what is typed on the
console. -/
structure ReadState where
  machine : Machine
  fileTable : Table HostFile
  input : List Byte

variable (s : ReadState) (len : Nat) (id : Int)

/-- The bytes the call reads. -/
def bytesRead : List Byte :=
  if id = consoleInput then scanWord s.input
  else
    match s.fileTable.get id with
    | some f => f.read len
    | none => []

/-- The bytes it stores, from the start of its buffer on. -/
def bytesStored : List Byte :=
  if id = consoleInput then scanStores s.input else bytesRead s len id

/-- The buffer, of which the rest is as it was allocated. -/
def buffer (garbage : Nat → Byte) (stored : List Byte) (i : Nat) : Byte :=
  (stored[i]?).getD (garbage i)

/-- `Read_Syscall`. -/
def readSyscall (garbage : Nat → Byte) (vaddr : Word) : Except Stop (Int × ReadState) :=
  if id = consoleOutput then .ok (-1, s)
  else if id = consoleInput then
    if (scanStores s.input).length ≤ len then
      match copyoutResult s.machine vaddr len (buffer garbage (scanStores s.input)) with
      | some (_, m) => .ok (len, { s with machine := m, input := scanRest s.input })
      | none => .error .halted
    else .error .outOfBounds
  else
    match s.fileTable.get id with
    | none => .ok (-1, s)
    | some f =>
        let bytes := f.read len
        let fileTable := s.fileTable.store id (some (f.advance bytes.length))
        if 0 < bytes.length then
          match copyoutResult s.machine vaddr bytes.length (buffer garbage bytes) with
          | some (_, m) => .ok (bytes.length, ⟨m, fileTable, s.input⟩)
          | none => .error .halted
        else .ok (bytes.length, { s with fileTable := fileTable })

/-- The call stores no more than the buffer holds, returns how much it has read, copies
that to user memory and nothing else. -/
def ReadsBytes (garbage : Nat → Byte) (vaddr : Word) : Prop :=
  (bytesStored s len id).length ≤ len ∧ (bytesRead s len id).length ≤ len ∧
    ∃ s', readSyscall s len id garbage vaddr = .ok ((bytesRead s len id).length, s') ∧
      ∀ a, s'.machine.byteAt a =
        if vaddr.toNat ≤ a.toNat ∧ a.toNat < vaddr.toNat + (bytesRead s len id).length then
          (bytesRead s len id)[a.toNat - vaddr.toNat]? else s.machine.byteAt a

variable {s len id}

theorem HostFile.read_length_le (f : HostFile) (numBytes : Nat) :
    (f.read numBytes).length ≤ numBytes := by
  unfold HostFile.read
  exact List.length_take_le numBytes _

/-- From a file the call does what it is for. -/
theorem readsBytes_file {table : List TranslationEntry} {f : HostFile} {vaddr : Word}
    (h : Mapped s.machine table) (hrange : vaddr.toNat + len ≤ table.length * pageSize)
    (hinput : id ≠ consoleInput) (houtput : id ≠ consoleOutput)
    (hfile : s.fileTable.get id = some f) (garbage : Nat → Byte) :
    ReadsBytes s len id garbage vaddr := by
  have hread : bytesRead s len id = f.read len := by
    unfold bytesRead
    rw [if_neg hinput, hfile]
  have hstored : bytesStored s len id = f.read len := by
    unfold bytesStored
    rw [if_neg hinput, hread]
  have hle := f.read_length_le len
  unfold ReadsBytes
  rw [hread, hstored]
  refine ⟨hle, hle, ?_⟩
  unfold readSyscall
  rw [if_neg houtput, if_neg hinput, hfile]
  dsimp only
  by_cases hsome : 0 < (f.read len).length
  · obtain ⟨m, hcopy, -, hbytes⟩ :=
      h.copyout (buffer garbage (f.read len)) (f.read len).length 0 vaddr (by omega)
    rw [if_pos hsome, copyoutResult, hcopy]
    refine ⟨_, rfl, fun a => ?_⟩
    rw [hbytes a]
    by_cases hin : vaddr.toNat ≤ a.toNat ∧ a.toNat < vaddr.toNat + (f.read len).length
    · rw [if_pos hin, if_pos hin, Nat.zero_add, buffer,
        List.getElem?_eq_getElem (show a.toNat - vaddr.toNat < (f.read len).length by omega)]
      rfl
    · rw [if_neg hin, if_neg hin]
  · rw [if_neg hsome]
    refine ⟨_, rfl, fun a => ?_⟩
    rw [if_neg (by omega)]

/-- From the console it returns more than it has read, or stores more than it has room
for: the null byte is one byte more than the word. -/
theorem not_readsBytes_console (hlen : 0 < len) (garbage : Nat → Byte) (vaddr : Word) :
    ¬ ReadsBytes s len consoleInput garbage vaddr := by
  rintro ⟨hstored, -, s', hread, -⟩
  unfold bytesStored at hstored
  unfold bytesRead at hread
  rw [if_pos rfl] at hstored hread
  unfold readSyscall at hread
  rw [if_neg (by decide), if_pos rfl, if_pos hstored] at hread
  have hreturned : len = (scanWord s.input).length := by
    split at hread
    · rw [Except.ok.injEq, Prod.mk.injEq] at hread
      exact Int.ofNat_inj.mp hread.1
    · exact absurd hread (by simp)
  unfold scanStores at hstored
  split at hstored
  · rename_i hempty
    rw [hempty, List.length_nil] at hreturned
    omega
  · rw [List.length_append, List.length_singleton] at hstored
    omega

/-- Of the sources that `Read` has, the call does it for files and not for the console. -/
theorem readsBytes_iff (s : ReadState) (table : List TranslationEntry) (vaddr : Word) (len : Nat)
    (id : Int) (garbage : Nat → Byte) (h : Mapped s.machine table)
    (hrange : vaddr.toNat + len ≤ table.length * pageSize) (hlen : 0 < len)
    (hsource : id = consoleInput ∨ id ≠ consoleOutput ∧ (s.fileTable.get id).isSome = true) :
    ReadsBytes s len id garbage vaddr ↔ id ≠ consoleInput := by
  constructor
  · rintro hreads rfl
    exact not_readsBytes_console hlen garbage vaddr hreads
  · intro hinput
    rcases hsource with hconsole | ⟨houtput, hopen⟩
    · exact absurd hconsole hinput
    · obtain ⟨f, hfile⟩ := Option.isSome_iff_exists.mp hopen
      exact readsBytes_file h hrange hinput houtput hfile garbage

/-- A program of two pages with the file `xyz` open at its second byte, and the word `ab`
typed on the console. -/
def readState : ReadState where
  machine := ⟨fun _ => 0, fun _ => 0, some twoPages, 2, false⟩
  fileTable := ((newFileTable (List.replicate maxOpenFiles none) 0).put
    (some ⟨[120, 121, 122], 1⟩)).2
  input := [97, 98, 10]

/-- Reading from the file. -/
theorem readsBytes_iff_file : ReadsBytes readState 4 2 (fun _ => 0) 126 :=
  (readsBytes_iff readState twoPages 126 4 2 (fun _ => 0) (mapped_twoPages fun _ => 0) (by decide)
    (by decide) (Or.inr ⟨by decide, by decide +kernel⟩)).mpr (by decide)

/-- Reading the word into a buffer of four bytes: four is returned. -/
theorem console_read_returns_len : ¬ ReadsBytes readState 4 consoleInput (fun _ => 0) 126 :=
  not_readsBytes_console (by decide) (fun _ => 0) 126

end ReadCall
end Userprog
end Nachos
