import Nachos.Lib.GuardedRun
import Nachos.Machine.Translate

/-!
# The synchronised console

This module embeds the keyboard side of `machine/console.cc` and
`SynchConsole::ReadLine`.  A poll moves one typed byte into the buffer of the
console and signals a semaphore; the reading thread waits for the semaphore in
front of every character.  A poll may come wherever interrupts are on, also
between `P` and `GetChar`.

The buffer holds one `char`, which is signed on the host, and it is empty when
it holds `EOF`.  The byte 0xFF is `EOF` as a `char`.
-/

namespace Nachos

namespace Hardware

/-- `EOF`, as it is kept in a `char`. -/
def eof : Byte := 0xFF

/-- The keyboard side of `class Console`.  `readFile` is what has been typed and
not been read. -/
structure Console where
  readFile : List Byte
  incoming : Byte
  deriving Repr, DecidableEq

namespace Console

/-- `Console::CheckCharAvail`, behind the scheduling of the next poll; it says
whether the read handler is called. -/
def checkCharAvail (console : Console) : Bool × Console :=
  match console.readFile with
  | [] => (false, console)
  | c :: rest =>
      if console.incoming ≠ eof then (false, console)
      else (true, { readFile := rest, incoming := c })

/-- `Console::GetChar`. -/
def getChar (console : Console) : Byte × Console :=
  (console.incoming, { console with incoming := eof })

end Console

end Hardware

namespace Userprog

open Hardware Lib

/-- Where the reading thread is. -/
inductive ReaderPoint
  | outside
  /-- In front of the test of the loop. -/
  | looping
  /-- In `P`, in front of the test of the value. -/
  | checking
  /-- In `P`, on the queue of the semaphore. -/
  | asleep
  /-- Behind `P`, in front of `GetChar`. -/
  | taken
  deriving Repr, DecidableEq

/-- A call of `ReadLine` that has returned. -/
structure LineRead where
  size : Int
  line : List Byte
  numRead : Int
  deriving Repr, DecidableEq

/-- `class SynchConsole` with its reading thread.  `size`, `c`, `numRead` and
`line` belong to the call of `ReadLine`; `entered`, `obtained` and `lines`
record what has been typed, what `GetChar` has returned, and the calls that have
returned. -/
structure SynchConsole where
  console : Console
  inputMutex : Bool
  inputAvailable : Nat
  reader : ReaderPoint
  size : Int
  c : Byte
  numRead : Int
  line : List Byte
  entered : List Byte
  obtained : List Byte
  lines : List LineRead
  deriving Repr, DecidableEq

/-- What happens next: a byte is typed, the console polls, a line is asked for,
or the reading thread goes on. -/
inductive ConsoleLabel
  | typed (c : Byte)
  | poll
  | readLine (size : Int)
  | goOn
  deriving Repr, DecidableEq

/-- Why a step cannot be taken: the reading thread is in `ReadLine` already, it
is not there, or it waits. -/
inductive ConsoleStop
  | busy
  | notReading
  | waiting
  deriving Repr, DecidableEq

namespace SynchConsole

/-- `'\n'`. -/
def newline : Byte := 10

/-- `SynchConsole::SynchConsole`. -/
def construct : SynchConsole where
  console := { readFile := [], incoming := eof }
  inputMutex := false
  inputAvailable := 0
  reader := .outside
  size := 0
  c := 0
  numRead := 0
  line := []
  entered := []
  obtained := []
  lines := []

/-- `SynchConsole::ReadAvail`, which is a `V`: a thread on the queue is woken. -/
def readAvail (s : SynchConsole) : SynchConsole :=
  { s with
    inputAvailable := s.inputAvailable + 1
    reader := if s.reader = .asleep then .checking else s.reader }

/-- The console polls its keyboard. -/
def poll (s : SynchConsole) : SynchConsole :=
  match s.console.checkCharAvail with
  | (true, console) => { s with console }.readAvail
  | (false, console) => { s with console }

/-- The call of `ReadLine`, up to its loop. -/
def readLine (size : Int) (s : SynchConsole) : Except ConsoleStop SynchConsole :=
  if s.reader ≠ .outside ∨ s.inputMutex = true then .error .busy
  else .ok { s with
    inputMutex := true, reader := .looping, size, c := 0, numRead := 0, line := [] }

/-- The end of the loop of `ReadLine`. -/
def release (s : SynchConsole) : SynchConsole :=
  { s with
    inputMutex := false
    reader := .outside
    line := []
    lines := s.lines ++ [{ size := s.size, line := s.line, numRead := s.numRead }] }

/-- The rest of a round of `ReadLine`, behind `P`. -/
def takeChar (s : SynchConsole) : SynchConsole :=
  let (c, console) := s.console.getChar
  { s with
    console, c
    reader := .looping
    numRead := s.numRead + 1
    line := s.line ++ [c]
    obtained := s.obtained ++ [c] }

/-- The reading thread, up to the next place where interrupts are on or it
sleeps. -/
def goOn (s : SynchConsole) : Except ConsoleStop SynchConsole :=
  match s.reader with
  | .outside => .error .notReading
  | .looping =>
      if s.c ≠ newline ∧ s.numRead < s.size then .ok { s with reader := .checking }
      else .ok s.release
  | .checking =>
      if s.inputAvailable = 0 then .ok { s with reader := .asleep }
      else .ok { s with reader := .taken, inputAvailable := s.inputAvailable - 1 }
  | .asleep => .error .waiting
  | .taken => .ok s.takeChar

/-- One step of the console and of the thread that reads from it. -/
def step : ConsoleLabel → SynchConsole → Except ConsoleStop SynchConsole
  | .typed c, s =>
      .ok { s with
        console := { s.console with readFile := s.console.readFile ++ [c] }
        entered := s.entered ++ [c] }
  | .poll, s => .ok s.poll
  | .readLine size, s => s.readLine size
  | .goOn, s => s.goOn

/-- Characters that have been signalled and not been fetched. -/
def outstanding (s : SynchConsole) : Nat :=
  s.inputAvailable + if s.reader = .taken then 1 else 0

/-- What the buffer holds for the reading thread. -/
def buffered (s : SynchConsole) : List Byte :=
  if 0 < s.outstanding then [s.console.incoming] else []

end SynchConsole

/-- The call returned no more than was asked for, and stopped behind the first
newline. -/
structure LineRead.Stops (l : LineRead) : Prop where
  returned : l.numRead = l.line.length
  bounded : l.line.length ≤ l.size.toNat
  first : ∀ c ∈ l.line.dropLast, c ≠ SynchConsole.newline
  ended : l.line.getLast? = some SynchConsole.newline ∨ l.line.length = l.size.toNat

namespace SynchConsole

/-- What has been obtained is what has been typed, as far as it has been read:
the rest is in the buffer or in the keyboard, from where the next poll can take
it.  The lines are what has been obtained, cut into pieces. -/
structure Faithful (s : SynchConsole) : Prop where
  bytes : s.obtained ++ (s.buffered ++ s.console.readFile) = s.entered
  space : s.outstanding = 0 → s.console.incoming = eof
  awake : s.reader = .asleep → s.inputAvailable = 0
  pieces : (s.lines.map LineRead.line).flatten ++ s.line = s.obtained
  stops : ∀ l ∈ s.lines, l.Stops

/-- No poll reads a byte while a byte 0xFF waits in the buffer. -/
def Grabbed (s : SynchConsole) (label : ConsoleLabel) : Prop :=
  label = .poll → s.console.incoming = eof → 0 < s.outstanding → s.console.readFile = []

instance (s : SynchConsole) (label : ConsoleLabel) : Decidable (s.Grabbed label) :=
  inferInstanceAs (Decidable (_ → _))

variable {s t : SynchConsole} {label : ConsoleLabel}

/-- What a poll does. -/
theorem poll_cases (s : SynchConsole) :
    s.poll = s ∨ ∃ c rest, s.console.readFile = c :: rest ∧ s.console.incoming = eof ∧
      s.poll = { s with console := { readFile := rest, incoming := c } }.readAvail := by
  unfold poll Console.checkCharAvail
  split
  · rename_i console h
    split at h
    · simp at h
    · rename_i c rest hfile
      split at h
      · simp at h
      · rename_i hempty
        obtain ⟨-, rfl⟩ := Prod.mk.inj h
        exact Or.inr ⟨c, rest, hfile, Decidable.not_not.mp hempty, rfl⟩
  · rename_i console h
    split at h
    · obtain ⟨-, rfl⟩ := Prod.mk.inj h
      exact Or.inl rfl
    · split at h
      · obtain ⟨-, rfl⟩ := Prod.mk.inj h
        exact Or.inl rfl
      · simp at h

/-- What the reading thread does. -/
theorem goOn_cases (h : s.goOn = .ok t) :
    (s.reader = .looping ∧ s.c ≠ newline ∧ s.numRead < s.size ∧
      t = { s with reader := .checking }) ∨
    (s.reader = .looping ∧ (s.c = newline ∨ s.size ≤ s.numRead) ∧ t = s.release) ∨
    (s.reader = .checking ∧ s.inputAvailable = 0 ∧ t = { s with reader := .asleep }) ∨
    (s.reader = .checking ∧ 0 < s.inputAvailable ∧
      t = { s with reader := .taken, inputAvailable := s.inputAvailable - 1 }) ∨
    (s.reader = .taken ∧ t = s.takeChar) := by
  unfold goOn at h
  split at h
  · simp at h
  · rename_i hreader
    split at h
    · rename_i htest
      exact Or.inl ⟨hreader, htest.1, htest.2, (Except.ok.inj h).symm⟩
    · rename_i htest
      refine Or.inr (Or.inl ⟨hreader, ?_, (Except.ok.inj h).symm⟩)
      rwa [not_and_or, Decidable.not_not, Int.not_lt] at htest
  · rename_i hreader
    split at h
    · rename_i hvalue
      exact Or.inr (Or.inr (Or.inl ⟨hreader, hvalue, (Except.ok.inj h).symm⟩))
    · rename_i hvalue
      exact Or.inr (Or.inr (Or.inr (Or.inl
        ⟨hreader, Nat.pos_of_ne_zero hvalue, (Except.ok.inj h).symm⟩)))
  · simp at h
  · rename_i hreader
    exact Or.inr (Or.inr (Or.inr (Or.inr ⟨hreader, (Except.ok.inj h).symm⟩)))

/-- The call of `ReadLine` starts a line. -/
theorem readLine_eq {size : Int} (h : s.readLine size = .ok t) :
    s.reader = .outside ∧ t = { s with
      inputMutex := true, reader := .looping, size, c := 0, numRead := 0, line := [] } := by
  unfold readLine at h
  split at h
  · simp at h
  · rename_i hfree
    rw [not_or, Decidable.not_not] at hfree
    exact ⟨hfree.1, (Except.ok.inj h).symm⟩

/-- The line that is being read: no newline in it but at its end, and no more
characters than were asked for. -/
structure Open (s : SynchConsole) : Prop where
  returned : s.numRead = s.line.length
  bounded : s.line.length ≤ s.size.toNat
  first : ∀ c ∈ s.line.dropLast, c ≠ newline
  last : s.c = newline ↔ s.line.getLast? = some newline

/-- What the loop of `ReadLine` keeps, whatever the console does. -/
structure Reading (s : SynchConsole) : Prop where
  pieces : (s.lines.map LineRead.line).flatten ++ s.line = s.obtained
  stops : ∀ l ∈ s.lines, l.Stops
  outside : s.reader = .outside → s.line = []
  inside : s.reader ≠ .outside → s.Open
  wanted : s.reader ≠ .outside → s.reader ≠ .looping → s.c ≠ newline ∧ s.numRead < s.size
  awake : s.reader = .asleep → s.inputAvailable = 0

theorem reading_construct : construct.Reading where
  pieces := rfl
  stops l hl := absurd hl (List.not_mem_nil)
  outside _ := rfl
  inside h := absurd rfl h
  wanted h := absurd rfl h
  awake h := absurd h (by decide)

/-- A line that the loop is through with has stopped where it should. -/
theorem Open.stops (h : s.Open) (hend : s.c = newline ∨ s.size ≤ s.numRead) :
    LineRead.Stops { size := s.size, line := s.line, numRead := s.numRead } where
  returned := h.returned
  bounded := h.bounded
  first := h.first
  ended := by
    rcases hend with hnewline | hfull
    · exact Or.inl (h.last.mp hnewline)
    · right
      have hreturned := h.returned
      have hbounded := h.bounded
      show s.line.length = s.size.toNat
      omega

/-- One more character fits into a line that is still wanted. -/
theorem Open.takeChar (h : s.Open) (hc : s.c ≠ newline) (hsize : s.numRead < s.size) :
    s.takeChar.Open where
  returned := by
    show s.numRead + 1 = ((s.line ++ [s.console.incoming]).length : Int)
    rw [List.length_append, h.returned]
    rfl
  bounded := by
    show (s.line ++ [s.console.incoming]).length ≤ s.size.toNat
    have hreturned := h.returned
    rw [List.length_append, List.length_singleton]
    omega
  first := by
    intro c hmem
    have hline : c ∈ s.line := by
      simpa [SynchConsole.takeChar, Console.getChar] using hmem
    -- The line had no newline at its end either, or the loop would be over.
    rcases List.eq_nil_or_concat s.line with hnil | ⟨front, last, hfront⟩
    · rw [hnil] at hline
      exact absurd hline List.not_mem_nil
    · have hlast : last ≠ newline := fun heq => hc (h.last.mpr (by simp [hfront, heq]))
      rw [hfront, List.concat_eq_append, List.mem_append, List.mem_singleton] at hline
      rcases hline with hin | rfl
      · exact h.first c (by simpa [hfront] using hin)
      · exact hlast
  last := by
    show s.console.incoming = newline ↔
      (s.line ++ [s.console.incoming]).getLast? = some newline
    rw [List.getLast?_concat, Option.some.injEq]

theorem Reading.readAvail (h : s.Reading) (console : Console) :
    { s with console }.readAvail.Reading where
  pieces := h.pieces
  stops := h.stops
  outside hout := by
    refine h.outside ?_
    by_cases hasleep : s.reader = .asleep
    · simp [SynchConsole.readAvail, hasleep] at hout
    · simpa [SynchConsole.readAvail, hasleep] using hout
  inside hin := by
    have hne : s.reader ≠ .outside := by
      intro heq
      exact hin (by simp [SynchConsole.readAvail, heq])
    obtain ⟨hreturned, hbounded, hfirst, hlast⟩ := h.inside hne
    exact ⟨hreturned, hbounded, hfirst, hlast⟩
  wanted hin hloop := by
    refine h.wanted ?_ ?_
    · intro heq
      exact hin (by simp [SynchConsole.readAvail, heq])
    · intro heq
      exact hloop (by simp [SynchConsole.readAvail, heq])
  awake hasleep := by
    exfalso
    by_cases heq : s.reader = .asleep
    · simp [SynchConsole.readAvail, heq] at hasleep
    · simp [SynchConsole.readAvail, heq] at hasleep

theorem Reading.poll (h : s.Reading) : s.poll.Reading := by
  rcases poll_cases s with hsame | ⟨c, rest, -, -, heq⟩
  · rw [hsame]
    exact h
  · rw [heq]
    exact h.readAvail _

/-- The thread is elsewhere in the same line. -/
theorem Reading.move (h : s.Reading) (hin : s.reader ≠ .outside) {point : ReaderPoint}
    {value : Nat} (hpoint : point ≠ .outside)
    (hwanted : point ≠ .looping → s.c ≠ newline ∧ s.numRead < s.size)
    (hawake : point = .asleep → value = 0) :
    Reading { s with reader := point, inputAvailable := value } where
  pieces := h.pieces
  stops := h.stops
  outside hout := absurd hout hpoint
  inside _ := by
    obtain ⟨hreturned, hbounded, hfirst, hlast⟩ := h.inside hin
    exact ⟨hreturned, hbounded, hfirst, hlast⟩
  wanted _ := hwanted
  awake := hawake

theorem Reading.release (h : s.Reading) (hin : s.reader ≠ .outside)
    (hend : s.c = newline ∨ s.size ≤ s.numRead) : s.release.Reading where
  pieces := by
    have hpieces := h.pieces
    simpa [SynchConsole.release] using hpieces
  stops l hl := by
    rcases List.mem_append.mp hl with hold | hnew
    · exact h.stops l hold
    · obtain rfl := List.mem_singleton.mp hnew
      exact (h.inside hin).stops hend
  outside _ := rfl
  inside hne := absurd rfl hne
  wanted hne := absurd rfl hne
  awake hasleep := absurd hasleep (by simp [SynchConsole.release])

theorem Reading.takeChar (h : s.Reading) (htaken : s.reader = .taken) : s.takeChar.Reading where
  pieces := by
    show (s.lines.map LineRead.line).flatten ++ (s.line ++ [s.console.incoming]) =
      s.obtained ++ [s.console.incoming]
    rw [← List.append_assoc, h.pieces]
  stops := h.stops
  outside hout := absurd hout (by simp [SynchConsole.takeChar])
  inside _ := by
    obtain ⟨hc, hsize⟩ := h.wanted (by simp [htaken]) (by simp [htaken])
    exact (h.inside (by simp [htaken])).takeChar hc hsize
  wanted _ hloop := absurd rfl hloop
  awake hasleep := absurd hasleep (by simp [SynchConsole.takeChar])

/-- Every step keeps the lines. -/
theorem Reading.step (h : s.Reading) (hstep : step label s = .ok t) : t.Reading := by
  cases label with
  | typed c =>
      obtain rfl := Except.ok.inj hstep
      obtain ⟨hpieces, hstops, hout, hin, hwanted, hawake⟩ := h
      refine ⟨hpieces, hstops, hout, fun hne => ?_, hwanted, hawake⟩
      obtain ⟨hreturned, hbounded, hfirst, hlast⟩ := hin hne
      exact ⟨hreturned, hbounded, hfirst, hlast⟩
  | poll =>
      obtain rfl := Except.ok.inj hstep
      exact h.poll
  | readLine size =>
      obtain ⟨hreader, rfl⟩ := readLine_eq hstep
      have hpieces := h.pieces
      rw [h.outside hreader] at hpieces
      refine ⟨hpieces, h.stops, fun _ => rfl, fun _ => ?_, fun _ hloop => absurd rfl hloop, ?_⟩
      · exact ⟨rfl, Nat.zero_le _, fun c hc => absurd hc List.not_mem_nil, by simp [newline]⟩
      · intro hasleep
        exact absurd hasleep (by simp)
  | goOn =>
      rcases goOn_cases hstep with ⟨hreader, hc, hsize, rfl⟩ | ⟨hreader, hend, rfl⟩ |
        ⟨hreader, hvalue, rfl⟩ | ⟨hreader, -, rfl⟩ | ⟨hreader, rfl⟩
      · exact h.move (by simp [hreader]) (by simp) (fun _ => ⟨hc, hsize⟩) (by simp)
      · exact h.release (by simp [hreader]) hend
      · have hwanted := h.wanted (by simp [hreader]) (by simp [hreader])
        exact h.move (by simp [hreader]) (by simp) (fun _ => hwanted) fun _ => hvalue
      · have hwanted := h.wanted (by simp [hreader]) (by simp [hreader])
        exact h.move (by simp [hreader]) (by simp) (fun _ => hwanted) (by simp)
      · exact h.takeChar hreader

/-- One character at most is on its way, and it is in the buffer. -/
structure Delivered (s : SynchConsole) : Prop where
  bytes : s.obtained ++ (s.buffered ++ s.console.readFile) = s.entered
  single : s.outstanding ≤ 1
  space : s.outstanding = 0 → s.console.incoming = eof

theorem delivered_construct : construct.Delivered :=
  ⟨rfl, Nat.zero_le 1, fun _ => rfl⟩

/-- The thread moves without fetching a character. -/
theorem Delivered.move (h : s.Delivered) (hconsole : t.console = s.console)
    (hentered : t.entered = s.entered) (hobtained : t.obtained = s.obtained)
    (hout : t.outstanding = s.outstanding) : t.Delivered := by
  obtain ⟨hbytes, hsingle, hspace⟩ := h
  refine ⟨?_, hout.symm ▸ hsingle, ?_⟩
  · rw [hobtained, hentered, buffered, hout, hconsole]
    exact hbytes
  · rw [hout, hconsole]
    exact hspace

@[simp] theorem outstanding_readAvail (s : SynchConsole) :
    s.readAvail.outstanding = s.outstanding + 1 := by
  unfold outstanding readAvail
  by_cases hasleep : s.reader = .asleep
  · simp [hasleep]
  · simp only [hasleep, if_false]
    omega

/-- The buffer behind a poll that has read a byte. -/
theorem buffered_readAvail (s : SynchConsole) : s.readAvail.buffered = [s.console.incoming] := by
  unfold buffered
  rw [outstanding_readAvail, if_pos (Nat.succ_pos _)]
  rfl

/-- A poll that reads a byte when none is on its way. -/
theorem Delivered.poll (h : s.Delivered) (hgrabbed : s.Grabbed .poll) : s.poll.Delivered := by
  rcases poll_cases s with hsame | ⟨c, rest, hfile, hempty, heq⟩
  · rw [hsame]
    exact h
  · have hnone : s.outstanding = 0 := by
      by_contra hne
      have hnil := hgrabbed rfl hempty (Nat.pos_of_ne_zero hne)
      rw [hfile] at hnil
      exact absurd hnil (List.cons_ne_nil c rest)
    have hbytes := h.bytes
    rw [buffered, hnone, if_neg (Nat.lt_irrefl 0), hfile, List.nil_append] at hbytes
    have hout : outstanding { s with console := { readFile := rest, incoming := c } } = 0 := hnone
    rw [heq]
    refine ⟨?_, ?_, ?_⟩
    · rw [buffered_readAvail]
      exact hbytes
    · rw [outstanding_readAvail, hout]
    · rw [outstanding_readAvail]
      intro hzero
      exact absurd hzero (Nat.succ_ne_zero _)

/-- `GetChar` fetches the one character that is on its way. -/
theorem Delivered.takeChar (h : s.Delivered) (htaken : s.reader = .taken) :
    s.takeChar.Delivered := by
  have hvalue : s.inputAvailable = 0 := by
    have hsingle := h.single
    rw [outstanding, if_pos htaken] at hsingle
    omega
  have hnone : s.takeChar.outstanding = 0 := by
    simp [outstanding, SynchConsole.takeChar, hvalue]
  have hbytes := h.bytes
  rw [buffered, outstanding, if_pos htaken, if_pos (Nat.succ_pos _)] at hbytes
  refine ⟨?_, hnone.symm ▸ Nat.zero_le 1, fun _ => rfl⟩
  rw [buffered, hnone, if_neg (Nat.lt_irrefl 0), List.nil_append]
  show s.obtained ++ [s.console.incoming] ++ s.console.readFile = s.entered
  rw [List.append_assoc]
  exact hbytes

theorem Delivered.step (h : s.Delivered) (hgrabbed : s.Grabbed label)
    (hstep : step label s = .ok t) : t.Delivered := by
  cases label with
  | typed c =>
      obtain rfl := Except.ok.inj hstep
      obtain ⟨hbytes, hsingle, hspace⟩ := h
      refine ⟨?_, hsingle, hspace⟩
      show s.obtained ++ (s.buffered ++ (s.console.readFile ++ [c])) = s.entered ++ [c]
      rw [← hbytes, List.append_assoc, List.append_assoc]
  | poll =>
      obtain rfl := Except.ok.inj hstep
      exact h.poll hgrabbed
  | readLine size =>
      obtain ⟨hreader, rfl⟩ := readLine_eq hstep
      exact h.move rfl rfl rfl (by simp [outstanding, hreader])
  | goOn =>
      rcases goOn_cases hstep with ⟨hreader, -, -, rfl⟩ | ⟨hreader, -, rfl⟩ |
        ⟨hreader, hvalue, rfl⟩ | ⟨hreader, hvalue, rfl⟩ | ⟨hreader, rfl⟩
      · exact h.move rfl rfl rfl (by simp [outstanding, hreader])
      · exact h.move rfl rfl rfl (by simp [outstanding, release, hreader])
      · exact h.move rfl rfl rfl (by simp [outstanding, hreader])
      · refine h.move rfl rfl rfl ?_
        simp only [outstanding, hreader, reduceCtorEq, if_false, if_true]
        omega
      · exact h.takeChar hreader

theorem Reading.faithful (h : s.Reading) (hdelivered : s.Delivered) : s.Faithful where
  bytes := hdelivered.bytes
  space := hdelivered.space
  awake := h.awake
  pieces := h.pieces
  stops := h.stops

/-- A poll that reads a byte over a byte that waits loses the one that waits. -/
theorem Faithful.grabbed (h : s.Faithful) (hpoll : s.poll.Faithful) : s.Grabbed .poll := by
  intro _ hempty hwaits
  by_contra hne
  rcases poll_cases s with hsame | ⟨c, rest, hfile, -, heq⟩
  · obtain ⟨c, rest, hfile⟩ := List.exists_cons_of_ne_nil hne
    have hread : s.poll.console = { readFile := rest, incoming := c } := by
      simp [SynchConsole.poll, Console.checkCharAvail, hfile, hempty, readAvail]
    rw [hsame] at hread
    exact List.cons_ne_self c rest (hfile.symm.trans (congrArg Console.readFile hread))
  · have hbefore := h.bytes
    have hafter := hpoll.bytes
    rw [buffered, if_pos hwaits, hfile] at hbefore
    rw [heq, buffered_readAvail] at hafter
    have hlengths := congrArg List.length (hafter.trans hbefore.symm)
    simp only [readAvail, List.length_append, List.length_cons, List.length_nil] at hlengths
    omega

/-- In a run in which no poll reads a byte over a byte 0xFF that waits in the
buffer, every byte typed is obtained once and in order, and every line stops
where it should; and a run leaves this with the first poll that does. -/
theorem readLine_faithful (hrun : Reach step Grabbed construct s) :
    s.Faithful ∧ ∀ label t, step label s = .ok t → (t.Faithful ↔ s.Grabbed label) := by
  have hboth : s.Reading ∧ s.Delivered := by
    refine hrun.invariant (P := fun u => u.Reading ∧ u.Delivered) ?_
      ⟨reading_construct, delivered_construct⟩
    intro u v label hu hgrabbed hstep
    exact ⟨hu.1.step hstep, hu.2.step hgrabbed hstep⟩
  obtain ⟨hreading, hdelivered⟩ := hboth
  have hfaithful := hreading.faithful hdelivered
  refine ⟨hfaithful, fun label t hstep => ⟨fun ht hlabel => ?_, fun hgrabbed => ?_⟩⟩
  · subst hlabel
    obtain rfl := Except.ok.inj hstep
    exact hfaithful.grabbed ht rfl
  · exact (hreading.step hstep).faithful (hdelivered.step hgrabbed hstep)

/-- Two bytes are typed while a thread reads a line; the second one is polled before the thread has
fetched the first one, and again behind that. -/
def typedAhead : List ConsoleLabel :=
  [.readLine 80, .goOn, .typed 0x61, .goOn, .typed 10, .poll, .poll, .goOn, .goOn, .goOn, .poll,
    .goOn, .goOn, .goOn]

theorem readLine_faithful_typedAhead : ∃ s, Reach step Grabbed construct s ∧
    s.entered = [0x61, 10] ∧ s.lines = [{ size := 80, line := [0x61, 10], numRead := 2 }] ∧
    s.Faithful := by
  have hreplay : (replay step (fun s label => decide (s.Grabbed label)) typedAhead construct).any
      (fun t => decide (t.entered = [0x61, 10] ∧
        t.lines = [{ size := 80, line := [0x61, 10], numRead := 2 }])) = true := by decide
  obtain ⟨s, hrun, hentered, hlines⟩ :=
    exists_reach_of_replay (fun _ _ hguard => of_decide_eq_true hguard) hreplay
  exact ⟨s, hrun, hentered, hlines, (readLine_faithful hrun).1⟩

/-- The byte 0xFF is typed in front of another byte, and both are polled before the thread reads. -/
def readOver : List ConsoleLabel :=
  [.typed 0xFF, .typed 0x61, .poll, .poll, .readLine 2, .goOn, .goOn, .goOn, .goOn, .goOn, .goOn]

/-- The thread obtains the second byte, and then `EOF`. -/
theorem readLine_loses_eof : ∃ s, Reach step (fun _ _ => True) construct s ∧
    s.entered = [0xFF, 0x61] ∧ s.obtained = [0x61, 0xFF] ∧ ¬ s.Faithful := by
  have hreplay : (replay step (fun _ _ => true) readOver construct).any
      (fun t => decide (t.entered = [0xFF, 0x61] ∧ t.obtained = [0x61, 0xFF])) = true := by decide
  obtain ⟨s, hrun, hentered, hobtained⟩ :=
    exists_reach_of_replay (fun _ _ _ => trivial) hreplay
  refine ⟨s, hrun, hentered, hobtained, fun hfaithful => ?_⟩
  have hbytes := hfaithful.bytes
  rw [hobtained, hentered] at hbytes
  exact absurd (List.cons.inj hbytes).1 (by decide)

/-- No byte 0xFF has been read, so an empty buffer means that nothing is on its
way. -/
structure Plain (s : SynchConsole) : Prop where
  typed : ∀ c ∈ s.console.readFile, c ≠ eof
  empty : s.console.incoming = eof → s.outstanding = 0

theorem Plain.grabbed (h : s.Plain) : s.Grabbed label := by
  intro _ hempty hwaits
  rw [h.empty hempty] at hwaits
  exact absurd hwaits (Nat.lt_irrefl 0)

theorem Plain.step (h : s.Plain) (hsingle : s.outstanding ≤ 1) (hlabel : label ≠ .typed eof)
    (hstep : step label s = .ok t) : t.Plain := by
  cases label with
  | typed c =>
      obtain rfl := Except.ok.inj hstep
      refine ⟨fun d hd => ?_, h.empty⟩
      rcases List.mem_append.mp hd with hold | hnew
      · exact h.typed d hold
      · obtain rfl := List.mem_singleton.mp hnew
        exact fun heq => hlabel (congrArg ConsoleLabel.typed heq)
  | poll =>
      obtain rfl := Except.ok.inj hstep
      rcases poll_cases s with hsame | ⟨c, rest, hfile, -, heq⟩
      · show s.poll.Plain
        rw [hsame]
        exact h
      · have htyped := h.typed
        rw [hfile] at htyped
        show s.poll.Plain
        rw [heq]
        exact ⟨fun d hd => htyped d (List.mem_cons_of_mem c hd),
          fun heof => absurd heof (htyped c List.mem_cons_self)⟩
  | readLine size =>
      obtain ⟨hreader, rfl⟩ := readLine_eq hstep
      exact ⟨h.typed, fun hempty => by simpa [outstanding, hreader] using h.empty hempty⟩
  | goOn =>
      rcases goOn_cases hstep with ⟨hreader, -, -, rfl⟩ | ⟨hreader, -, rfl⟩ |
        ⟨hreader, -, rfl⟩ | ⟨hreader, hvalue, rfl⟩ | ⟨hreader, rfl⟩
      · exact ⟨h.typed, fun hempty => by simpa [outstanding, hreader] using h.empty hempty⟩
      · exact ⟨h.typed, fun hempty => by simpa [outstanding, release, hreader] using h.empty hempty⟩
      · exact ⟨h.typed, fun hempty => by simpa [outstanding, hreader] using h.empty hempty⟩
      · refine ⟨h.typed, fun hempty => ?_⟩
        have hnone := h.empty hempty
        rw [outstanding] at hnone
        omega
      · refine ⟨h.typed, fun _ => ?_⟩
        have hone := hsingle
        rw [outstanding, if_pos hreader] at hone
        simp only [outstanding, takeChar, reduceCtorEq, if_false]
        omega

/-- When the byte 0xFF is never typed, every byte typed is obtained once and in
order, however the polls and the reading thread take turns. -/
theorem faithful_of_plain (hrun : Reach step (fun _ label => label ≠ .typed eof) construct s) :
    s.Faithful := by
  have hall : s.Reading ∧ s.Delivered ∧ s.Plain := by
    refine hrun.invariant (P := fun u => u.Reading ∧ u.Delivered ∧ u.Plain) ?_
      ⟨reading_construct, delivered_construct, fun _ hc => absurd hc List.not_mem_nil, fun _ => rfl⟩
    rintro u v label ⟨hreading, hdelivered, hplain⟩ hlabel hstep
    exact ⟨hreading.step hstep, hdelivered.step hplain.grabbed hstep,
      hplain.step hdelivered.single hlabel hstep⟩
  exact hall.1.faithful hall.2.1

end SynchConsole

end Userprog
end Nachos
