import Nachos.Userprog.Tables

/-!
# The open files of an address space

The file table of an address space, under the system calls on files one after another.
`AddrSpace::AddrSpace` reserves the ids of the console by putting null pointers into the
table; `Close_Syscall` does not keep them reserved.  As long as they are not closed,
`Open_Syscall` gives out other ids only, and an open id leads to its file until it is
closed.

The files are of any type, and the memory of a new table holds what the environment
chooses.
-/

namespace Nachos
namespace Userprog

open Threads Lib

variable {α : Type}

/-- `Table::Put`, with nothing in between. -/
def Table.put (t : Table α) (f : Option α) : Int × Table α :=
  (t.firstClear, (t.mark t.firstClear).store t.firstClear f)

/-- `Table::Remove`: what it answers, and the table. -/
def Table.remove (t : Table α) (i : Int) : Option α × Table α := (t.get i, t.clear i)

/-- `ConsoleInput` and `ConsoleOutput`. -/
def consoleInput : Int := 0

def consoleOutput : Int := 1

/-- The file table of a new address space: `fileTable.Put(0)` twice. -/
def newFileTable (contents : List (Option α)) (lock : LockId) : Table α :=
  let table : Table α := ⟨List.replicate maxOpenFiles false, contents, lock⟩
  ((table.put none).2.put none).2

namespace FileCalls

/-- What a call meets: a buffer is allocated or not, a pointer is good or not, the file
that `fileSystem->Open` answers with, and how much is read. -/
structure CallInput (α : Type) where
  memoryOk : Bool
  pointerOk : Bool
  file : Option α
  value : Int

variable (input : CallInput α) (t : Table α)

/-- The buffer is allocated and copied in; then the call goes on. -/
def withBuffer {β : Type} (answer : Except Stop β) : Except Stop β :=
  if input.memoryOk then
    if input.pointerOk then answer else .error .halted
  else .error .badAlloc

/-- `Open_Syscall`. -/
def openSyscall : Except Stop (Int × Table α) :=
  withBuffer input
    (match input.file with
      | some f => .ok (t.put (some f))
      | none => .ok (-1, t))

/-- `Close_Syscall`. -/
def closeSyscall (fd : Int) : Table α := (t.remove fd).2

/-- `Read_Syscall`. -/
def readSyscall (id : Int) : Except Stop Int :=
  if id = consoleOutput then .ok (-1)
  else if id = consoleInput then withBuffer input (.ok input.value)
  else
    match t.get id with
    | some _ => withBuffer input (.ok input.value)
    | none => if input.memoryOk then .ok (-1) else .error .badAlloc

/-- `Write_Syscall`. -/
def writeSyscall (id : Int) : Except Stop Unit :=
  if id = consoleInput then .ok () else withBuffer input (.ok ())

end FileCalls

/-- A system call on files. -/
inductive TableCall
  | openFile
  | close (fd : Int)
  | read (id : Int)
  | write (id : Int)
  deriving DecidableEq, Repr

/-- The file table, and the files that are open by their ids: those that an `Open` has
returned and no `Close` has been called for since. -/
structure FileSession (α : Type) where
  table : Table α
  opened : Int → Option α

namespace FileSession

/-- A new address space. -/
def start (contents : List (Option α)) (lock : LockId) : FileSession α :=
  ⟨newFileTable contents lock, fun _ => none⟩

/-- `Open` has returned `id`. -/
def note (s : FileSession α) (id : Int) (file : Option α) : Int → Option α :=
  if id = -1 then s.opened else Function.update s.opened id file

/-- One system call. -/
def step (choice : TableCall × FileCalls.CallInput α) (s : FileSession α) :
    Except Stop (FileSession α) :=
  match choice.1 with
  | .openFile => do
      let (id, table) ← FileCalls.openSyscall choice.2 s.table
      .ok ⟨table, s.note id choice.2.file⟩
  | .close fd => .ok ⟨FileCalls.closeSyscall s.table fd, Function.update s.opened fd none⟩
  | .read id => do
      let _ ← FileCalls.readSyscall choice.2 s.table id
      .ok s
  | .write id => do
      FileCalls.writeSyscall choice.2 id
      .ok s

/-- A call does not close the console. -/
def KeepsConsole (_ : FileSession α) (choice : TableCall × FileCalls.CallInput α) : Prop :=
  choice.1 ≠ .close consoleInput ∧ choice.1 ≠ .close consoleOutput

/-- What users of the table expect: `Open` gives out ids that are not in use and not
those of the console, and an open id leads to its file. -/
structure Orderly (s : FileSession α) : Prop where
  fresh : ∀ input id table, FileCalls.openSyscall input s.table = .ok (id, table) →
    id = -1 ∨ 2 ≤ id ∧ id < maxOpenFiles ∧ s.opened id = none
  kept : ∀ id f, s.opened id = some f → s.table.get id = some f

/-- The invariant of the runs in which the console is not closed. -/
structure Reserved (s : FileSession α) : Prop where
  fits : s.table.Fits
  size : s.table.size = maxOpenFiles
  console : s.table.bit consoleInput = true ∧ s.table.bit consoleOutput = true
  open_bit : ∀ id f, s.opened id = some f → s.table.bit id = true ∧ s.table.entry id = some f

end FileSession

namespace Table

variable {t : Table α} {f : Option α}

theorem Fits.put (ht : t.Fits) (f : Option α) : (t.put f).2.Fits := (ht.mark _).store _ f

theorem put_size (t : Table α) (f : Option α) : (t.put f).2.size = t.size := by
  unfold Table.put
  rw [store_size, mark_size]

/-- What `Put` does: nothing when the table is full, or it takes a clear slot. -/
theorem put_cases (ht : t.Fits) (f : Option α) :
    t.put f = (-1, t) ∨
      ∃ i t', t.put f = (i, t') ∧ 0 ≤ i ∧ i < t.size ∧ t.bit i = false ∧ t'.Fits ∧
        t'.size = t.size ∧ (∀ j, t'.bit j = if i = j then true else t.bit j) ∧
        ∀ j, t'.entry j = if i = j then f else t.entry j := by
  unfold put
  rcases t.firstClear_cases with hfull | ⟨hlow, hhigh, hclear⟩
  · refine Or.inl ?_
    rw [hfull, mark_neg t (by decide), store_neg t (by decide)]
  · refine Or.inr ⟨_, _, rfl, hlow, hhigh, hclear, (ht.mark _).store _ f, ?_, ?_, ?_⟩
    · rw [store_size, mark_size]
    · intro j
      rw [store_bit, mark_bit hlow hhigh]
    · intro j
      have hhigh' : t.firstClear < (t.mark t.firstClear).size := by
        rw [mark_size]
        exact hhigh
      rw [store_entry (ht.mark _) hlow hhigh', mark_entry]

end Table

namespace FileSession

variable {s s' : FileSession α} {choice : TableCall × FileCalls.CallInput α}

theorem newFileTable_map (contents : List (Option α)) (lock : LockId) :
    (newFileTable contents lock).map = true :: true :: List.replicate 254 false := rfl

theorem reserved_start (contents : List (Option α)) (lock : LockId)
    (hcontents : contents.length = maxOpenFiles) : (start contents lock).Reserved := by
  have hmap := newFileTable_map contents lock
  constructor
  case fits =>
    have hfits : (⟨List.replicate maxOpenFiles false, contents, lock⟩ : Table α).Fits := by
      unfold Table.Fits
      rw [hcontents, List.length_replicate]
    exact (hfits.put none).put none
  case size =>
    show (newFileTable contents lock).size = maxOpenFiles
    unfold newFileTable
    simp only [Table.put_size]
    exact List.length_replicate
  case console =>
    unfold Table.bit start
    rw [hmap]
    exact ⟨rfl, rfl⟩
  case open_bit => exact fun id f h => absurd h (by simp [start])

/-- What `Open_Syscall` does when it returns. -/
theorem openSyscall_cases {t t' : Table α} {input : FileCalls.CallInput α} {id : Int}
    (ht : t.Fits) (h : FileCalls.openSyscall input t = .ok (id, t')) :
    (id = -1 ∧ t' = t) ∨
      ∃ f, input.file = some f ∧ 0 ≤ id ∧ id < t.size ∧ t.bit id = false ∧ t'.Fits ∧
        t'.size = t.size ∧ (∀ j, t'.bit j = if id = j then true else t.bit j) ∧
        ∀ j, t'.entry j = if id = j then some f else t.entry j := by
  unfold FileCalls.openSyscall FileCalls.withBuffer at h
  split at h
  · split at h
    · cases hfile : input.file with
      | none =>
          rw [hfile] at h
          obtain ⟨rfl, rfl⟩ := Prod.mk.inj (Except.ok.inj h)
          exact Or.inl ⟨rfl, rfl⟩
      | some f =>
          rw [hfile] at h
          have hput : t.put (some f) = (id, t') := Except.ok.inj h
          rcases Table.put_cases ht (some f) with hfull | ⟨i, t₁, htaken, hrest⟩
          · obtain ⟨rfl, rfl⟩ := Prod.mk.inj (hput.symm.trans hfull)
            exact Or.inl ⟨rfl, rfl⟩
          · obtain ⟨rfl, rfl⟩ := Prod.mk.inj (hput.symm.trans htaken)
            exact Or.inr ⟨f, rfl, hrest⟩
    · exact absurd h (by simp)
  · exact absurd h (by simp)

/-- A call that does not close the console keeps it reserved. -/
theorem Reserved.step (hs : s.Reserved) (hkeeps : s.KeepsConsole choice)
    (hstep : step choice s = .ok s') : s'.Reserved := by
  obtain ⟨call, input⟩ := choice
  cases call with
  | openFile =>
      obtain ⟨⟨id, table⟩, hopen, hs'⟩ := bind_eq_ok hstep
      obtain rfl := Except.ok.inj hs'
      rcases openSyscall_cases hs.fits hopen with
        ⟨rfl, rfl⟩ | ⟨f, hfile, hlow, -, hclear, hfits, hsize, hbit, hentry⟩
      · exact ⟨hs.fits, hs.size, hs.console, hs.open_bit⟩
      · constructor
        case fits => exact hfits
        case size => exact hsize.trans hs.size
        case console =>
          show table.bit consoleInput = true ∧ table.bit consoleOutput = true
          rw [hbit, hbit, hs.console.1, hs.console.2]
          simp
        case open_bit =>
          intro j f' hopened
          have hnote : Function.update s.opened id (some f) j = some f' := by
            rw [← hopened]
            show _ = s.note id input.file j
            unfold note
            rw [if_neg (by omega), show input.file = some f from hfile]
          show table.bit j = true ∧ table.entry j = some f'
          rw [hbit, hentry]
          by_cases hj : id = j
          · subst hj
            rw [Function.update_self] at hnote
            rw [if_pos rfl, if_pos rfl]
            exact ⟨rfl, hnote⟩
          · rw [Function.update_of_ne (Ne.symm hj)] at hnote
            rw [if_neg hj, if_neg hj]
            exact hs.open_bit j f' hnote
  | close fd =>
      obtain rfl := Except.ok.inj hstep
      have hinput : fd ≠ consoleInput := fun heq => hkeeps.1 (by rw [heq])
      have houtput : fd ≠ consoleOutput := fun heq => hkeeps.2 (by rw [heq])
      constructor
      case fits => exact hs.fits.clear fd
      case size => exact (Table.clear_size _ _).trans hs.size
      case console =>
        show (s.table.clear fd).bit consoleInput = true ∧ (s.table.clear fd).bit consoleOutput = true
        rw [Table.clear_bit, Table.clear_bit, if_neg hinput, if_neg houtput]
        exact hs.console
      case open_bit =>
        intro j f' hopened
        have hnote : Function.update s.opened fd none j = some f' := hopened
        have hj : fd ≠ j := by
          rintro rfl
          rw [Function.update_self] at hnote
          exact absurd hnote (by simp)
        rw [Function.update_of_ne (Ne.symm hj)] at hnote
        obtain ⟨hbit, hentry⟩ := hs.open_bit j f' hnote
        show (s.table.clear fd).bit j = true ∧ (s.table.clear fd).entry j = some f'
        rw [Table.clear_bit, if_neg hj]
        refine ⟨hbit, ?_⟩
        cases hfd : s.table.bit fd with
        | false =>
            rw [Table.clear_of_not_bit hfd]
            exact hentry
        | true =>
            rw [Table.clear_entry hfd, if_neg hj]
            exact hentry
  | read id =>
      obtain ⟨_, -, hs'⟩ := bind_eq_ok hstep
      obtain rfl := Except.ok.inj hs'
      exact hs
  | write id =>
      obtain ⟨_, -, hs'⟩ := bind_eq_ok hstep
      obtain rfl := Except.ok.inj hs'
      exact hs

theorem Reserved.orderly (hs : s.Reserved) : s.Orderly := by
  constructor
  case fresh =>
    intro input id table hopen
    rcases openSyscall_cases hs.fits hopen with ⟨rfl, -⟩ | ⟨f, -, hlow, hhigh, hclear, -⟩
    · exact Or.inl rfl
    · have hinput : id ≠ 0 := by
        rintro rfl
        exact absurd (hclear.symm.trans hs.console.1) (by simp)
      have houtput : id ≠ 1 := by
        rintro rfl
        exact absurd (hclear.symm.trans hs.console.2) (by simp)
      rw [hs.size] at hhigh
      refine Or.inr ⟨by omega, hhigh, ?_⟩
      cases hopened : s.opened id with
      | none => rfl
      | some f' => exact absurd (hclear.symm.trans (hs.open_bit id f' hopened).1) (by simp)
  case kept =>
    intro id f hopened
    obtain ⟨hbit, hentry⟩ := hs.open_bit id f hopened
    rw [Table.get_eq, if_pos hbit]
    exact hentry

/-- As long as the console is not closed, `Open` gives out ids that are not in use and not
those of the console, and an open id leads to its file until it is closed. -/
theorem fileTable_orderly (contents : List (Option α)) (lock : LockId) (s : FileSession α)
    (hcontents : contents.length = maxOpenFiles)
    (hrun : Reach step KeepsConsole (start contents lock) s) : s.Orderly := by
  have hreserved : s.Reserved :=
    hrun.invariant (P := Reserved) (fun _ _ _ hu hguard hstep => hu.step hguard hstep)
      (reserved_start contents lock hcontents)
  exact hreserved.orderly

/-- The calls, which do not close the console, are made in a new address space. -/
theorem exists_session (labels : List (TableCall × FileCalls.CallInput Nat))
    {P : FileSession Nat → Prop} [DecidablePred P]
    (h : (replay step (fun _ choice => choice.1 ≠ .close consoleInput ∧
      choice.1 ≠ .close consoleOutput) labels (start (List.replicate maxOpenFiles none) 5)).any
        (fun s => decide (P s)) = true) :
    ∃ s, Reach step KeepsConsole (start (List.replicate maxOpenFiles none) 5) s ∧ P s :=
  exists_reach_of_replay (fun _ _ hcheck => by simpa [KeepsConsole] using hcheck) h

/-- A file is opened, read and closed, and another one is opened. -/
theorem fileTable_orderly_reopened :
    ∃ s : FileSession Nat, Reach step KeepsConsole
      (start (List.replicate maxOpenFiles none) 5) s ∧ s.opened 2 = some 8 ∧ s.Orderly := by
  obtain ⟨s, hrun, hopened⟩ := exists_session
    [(.openFile, ⟨true, true, some 7, 0⟩), (.read 2, ⟨true, true, none, 3⟩),
      (.close 2, ⟨true, true, none, 0⟩), (.openFile, ⟨true, true, some 8, 0⟩)]
    (P := fun s => s.opened 2 = some 8) (by decide +kernel)
  exact ⟨s, hrun, hopened, fileTable_orderly _ _ s (List.length_replicate ..) hrun⟩

/-- `Close(0)` gives the id of the console free, and `Open` gives it out. -/
theorem console_given_out :
    ¬ ∀ (contents : List (Option Nat)) (lock : LockId) (s : FileSession Nat),
      contents.length = maxOpenFiles →
      Reach step (fun _ _ => True) (start contents lock) s → s.Orderly := by
  intro hall
  have hlength : (List.replicate maxOpenFiles (none : Option Nat)).length = maxOpenFiles :=
    List.length_replicate ..
  have hclose : step (.close 0, ⟨true, true, none, 0⟩)
      (start (List.replicate maxOpenFiles (none : Option Nat)) 5) =
        .ok ⟨(newFileTable (List.replicate maxOpenFiles none) 5).clear 0,
          Function.update (fun _ => none) 0 none⟩ := rfl
  have horderly := hall _ _ _ hlength (Reach.refl.tail trivial hclose)
  have hopened : FileCalls.openSyscall ⟨true, true, some 7, 0⟩
      ((newFileTable (List.replicate maxOpenFiles none) 5).clear 0) = .ok (0, _) := rfl
  rcases horderly.fresh _ _ _ hopened with hfull | ⟨htwo, -⟩
  · exact absurd hfull (by decide)
  · exact absurd htwo (by decide)

end FileSession

section Kernel

variable (s : UserKernel)

/-- `Put` is what the two program points of `Open_Syscall` do to the file table when
nothing comes between them. -/
theorem openStore_openFind :
    ∃ u requests, openFind s = .ok (u, requests) ∧
      openStore { s with client := u } (currentFileTable s).firstClear =
        .ok (setCurrentFileTable s ((currentFileTable s).put (some ())).2,
          [.client (.sysReturn ((currentFileTable s).put (some ())).1)]) := by
  refine ⟨_, _, rfl, ?_⟩
  unfold openStore setCurrentFileTable currentFileTable Table.put
  simp only [Function.update_self, Function.update_idem]

/-- The file table of a new address space is what the two `Put(0)` of its constructor
make. -/
theorem spacePut_spacePut (space : SpaceId) (use : SpaceUse) (table : Table Unit)
    (htable : s.client.fileTable space = table) :
    ∃ u requests, spacePut s space 1 use = .ok (u, requests) ∧
      ∃ u' requests', spacePut { s with client := u } space 0 use = .ok (u', requests') ∧
        u'.fileTable space = ((table.put none).2.put none).2 := by
  refine ⟨_, _, rfl, _, _, rfl, ?_⟩
  simp only [Function.update_self, htable]
  rfl

end Kernel

end Userprog
end Nachos
