import Nachos.Lib.Traces
import Nachos.Userprog.SynchConsole
import Nachos.Userprog.SynchOutput

/-!
# The test of the console

This module embeds `ConsoleTest` of `userprog/progtest.cc`, which echoes what is typed until
the user types a `q`.  Its thread waits for a character on one semaphore and for the end of
its echo on another one; the interrupt handlers of the console signal them.  Both sides of the
console are the ones that `SynchConsole` has.

The thread makes one step from one place where interrupts can be on, or where it sleeps, to
the next.  When a byte is typed, when the keyboard is polled and when the display is through
with a character is left open.
-/

namespace Nachos
namespace Userprog

open Hardware Lib

/-- Where the thread of `ConsoleTest` is. -/
inductive EchoPoint
  /-- In `readAvail->P()`, in front of the test of the value. -/
  | waiting
  /-- In this `P`, on the queue of the semaphore. -/
  | starved
  /-- Behind this `P`, in front of `GetChar`. -/
  | taken
  /-- In `writeDone->P()`, in front of the test of the value. -/
  | sent
  /-- In this `P`, on the queue of the semaphore. -/
  | parked
  /-- Behind this `P`, in front of the test for `q`. -/
  | tested
  | returned
  deriving Repr, DecidableEq

/-- The thread has put `ch` on the display and has not begun the next round. -/
def EchoPoint.echoing : EchoPoint → Bool
  | .sent | .parked | .tested | .returned => true
  | .waiting | .starved | .taken => false

/-- The variables of `ConsoleTest`, the two sides of `console` and the values of the
semaphores; `typed` records what has been typed. -/
structure ConsoleTest where
  keyboard : Console
  display : Display
  readAvail : Nat
  writeDone : Nat
  point : EchoPoint
  ch : Byte
  typed : List Byte
  deriving Repr, DecidableEq

/-- What happens next: a byte is typed, the console polls its keyboard, the display is through
with a character, or the thread goes on. -/
inductive EchoLabel
  | typed (c : Byte)
  | poll
  | written
  | goOn
  deriving Repr, DecidableEq

/-- Why there is no step. -/
inductive EchoStop
  | assertFailed
  | waiting
  | notPending
  | notRunning
  deriving Repr, DecidableEq

namespace ConsoleTest

/-- `'q'`. -/
def quit : Byte := 113

/-- `ConsoleTest`, up to its loop. -/
def construct : ConsoleTest where
  keyboard := { readFile := [], incoming := eof }
  display := ⟨[], false, 0, 0⟩
  readAvail := 0
  writeDone := 0
  point := .waiting
  ch := 0
  typed := []

/-- `Console::CheckCharAvail` with the handler `ReadAvail`, which is a `V`. -/
def poll (s : ConsoleTest) : ConsoleTest :=
  match s.keyboard.checkCharAvail with
  | (true, keyboard) =>
      { s with
        keyboard
        readAvail := s.readAvail + 1
        point := if s.point = .starved then .waiting else s.point }
  | (false, keyboard) => { s with keyboard }

/-- `Console::WriteDone` with the handler `WriteDone`, which is a `V`. -/
def written (s : ConsoleTest) : Except EchoStop ConsoleTest :=
  if s.display.pending = 0 then .error .notPending
  else .ok { s with
    display := s.display.writeDone
    writeDone := s.writeDone + 1
    point := if s.point = .parked then .sent else s.point }

/-- `ch = console->GetChar(); console->PutChar(ch)`. -/
def echo (s : ConsoleTest) : Except EchoStop ConsoleTest :=
  let (ch, keyboard) := s.keyboard.getChar
  match s.display.putChar ch with
  | none => .error .assertFailed
  | some display => .ok { s with keyboard, display, ch, point := .sent }

/-- The thread goes on. -/
def goOn (s : ConsoleTest) : Except EchoStop ConsoleTest :=
  match s.point with
  | .waiting =>
      if s.readAvail = 0 then .ok { s with point := .starved }
      else .ok { s with point := .taken, readAvail := s.readAvail - 1 }
  | .starved => .error .waiting
  | .taken => s.echo
  | .sent =>
      if s.writeDone = 0 then .ok { s with point := .parked }
      else .ok { s with point := .tested, writeDone := s.writeDone - 1 }
  | .parked => .error .waiting
  | .tested => .ok { s with point := if s.ch = quit then .returned else .waiting }
  | .returned => .error .notRunning

/-- One step. -/
def step : EchoLabel → ConsoleTest → Except EchoStop ConsoleTest
  | .typed c, s =>
      .ok { s with
        keyboard := { s.keyboard with readFile := s.keyboard.readFile ++ [c] }
        typed := s.typed ++ [c] }
  | .poll, s => .ok s.poll
  | .written, s => s.written
  | .goOn, s => s.goOn

/-- What is typed up to the first `q`, with it. -/
def upToQuit : List Byte → List Byte
  | [] => []
  | c :: rest => if c = quit then [c] else c :: upToQuit rest

/-- The characters that have been signalled and not been fetched. -/
def outstanding (s : ConsoleTest) : Nat :=
  s.readAvail + if s.point = .taken then 1 else 0

/-- What the buffer of the keyboard holds. -/
def buffered (s : ConsoleTest) : List Byte :=
  if s.keyboard.incoming = eof then [] else [s.keyboard.incoming]

/-- What has been typed is on the display, in the buffer or in the keyboard, in this order.
There is a signal for the character in the buffer, and one signal or one interrupt for the one
that is being echoed. -/
structure Echoes (s : ConsoleTest) : Prop where
  typed : s.display.writeFile ++ (s.buffered ++ s.keyboard.readFile) = s.typed
  plain : eof ∉ s.typed
  signalled : s.outstanding = s.buffered.length
  starved : s.point = .starved → s.readAvail = 0
  sent : s.writeDone + s.display.pending = if s.point = .sent ∨ s.point = .parked then 1 else 0
  busy : s.display.putBusy = true ↔ 0 < s.display.pending
  parked : s.point = .parked → s.writeDone = 0
  shown : if s.point.echoing then
    ∃ old, s.display.writeFile = old ++ [s.ch] ∧ quit ∉ old else quit ∉ s.display.writeFile
  quits : s.point = .returned → s.ch = quit

section Steps

variable {s t : ConsoleTest} {c : Byte}

theorem echoes_construct : construct.Echoes where
  typed := rfl
  plain := List.not_mem_nil
  signalled := rfl
  starved h := absurd h (by decide)
  sent := rfl
  busy := by decide
  parked h := absurd h (by decide)
  shown := List.not_mem_nil
  quits h := absurd h (by decide)

/-- A poll finds nothing to do, or it moves the first byte to the buffer and signals it. -/
theorem poll_cases (s : ConsoleTest) :
    (s.keyboard.checkCharAvail.1 = false ∧ s.poll = s ∧
      (s.keyboard.readFile = [] ∨ s.keyboard.incoming ≠ eof)) ∨
    ∃ c rest, s.keyboard.readFile = c :: rest ∧ s.keyboard.incoming = eof ∧
      s.poll = { s with
        keyboard := { readFile := rest, incoming := c }
        readAvail := s.readAvail + 1
        point := if s.point = .starved then .waiting else s.point } := by
  unfold poll Console.checkCharAvail
  cases hfile : s.keyboard.readFile with
  | nil => exact Or.inl ⟨rfl, rfl, Or.inl rfl⟩
  | cons c rest =>
      by_cases hempty : s.keyboard.incoming = eof
      · right
        refine ⟨c, rest, rfl, hempty, ?_⟩
        simp only [hempty, ne_eq, not_true_eq_false, if_false]
      · left
        simp only [ne_eq, hempty, not_false_eq_true, if_true]
        exact ⟨trivial, trivial, Or.inr trivial⟩

/-- What the thread does. -/
theorem goOn_cases (h : s.goOn = .ok t) :
    (s.point = .waiting ∧ s.readAvail = 0 ∧ t = { s with point := .starved }) ∨
    (s.point = .waiting ∧ 0 < s.readAvail ∧
      t = { s with point := .taken, readAvail := s.readAvail - 1 }) ∨
    (s.point = .taken ∧ s.display.putBusy = false ∧ t = { s with
      keyboard := { s.keyboard with incoming := eof }
      display := { s.display with
        writeFile := s.display.writeFile ++ [s.keyboard.incoming]
        putBusy := true
        pending := s.display.pending + 1 }
      ch := s.keyboard.incoming
      point := .sent }) ∨
    (s.point = .sent ∧ s.writeDone = 0 ∧ t = { s with point := .parked }) ∨
    (s.point = .sent ∧ 0 < s.writeDone ∧
      t = { s with point := .tested, writeDone := s.writeDone - 1 }) ∨
    (s.point = .tested ∧
      t = { s with point := if s.ch = quit then .returned else .waiting }) := by
  unfold goOn at h
  cases hpoint : s.point with
  | waiting =>
      simp only [hpoint] at h
      split at h
      · rename_i hzero
        exact Or.inl ⟨rfl, hzero, (Except.ok.inj h).symm⟩
      · rename_i hzero
        exact Or.inr (Or.inl ⟨rfl, Nat.pos_of_ne_zero hzero, (Except.ok.inj h).symm⟩)
  | starved => simp [hpoint] at h
  | taken =>
      simp only [hpoint, echo, Console.getChar, Display.putChar] at h
      by_cases hbusy : s.display.putBusy = false
      · simp only [hbusy, if_true] at h
        exact Or.inr (Or.inr (Or.inl ⟨rfl, hbusy, (Except.ok.inj h).symm⟩))
      · simp [hbusy] at h
  | sent =>
      simp only [hpoint] at h
      split at h
      · rename_i hzero
        exact Or.inr (Or.inr (Or.inr (Or.inl ⟨rfl, hzero, (Except.ok.inj h).symm⟩)))
      · rename_i hzero
        exact Or.inr (Or.inr (Or.inr (Or.inr (Or.inl
          ⟨rfl, Nat.pos_of_ne_zero hzero, (Except.ok.inj h).symm⟩))))
  | parked => simp [hpoint] at h
  | tested =>
      simp only [hpoint] at h
      exact Or.inr (Or.inr (Or.inr (Or.inr (Or.inr ⟨rfl, (Except.ok.inj h).symm⟩))))
  | returned => simp [hpoint] at h

/-- A byte other than `EOF` is typed. -/
theorem Echoes.typed_step (h : s.Echoes) (hplain : c ≠ eof) :
    Echoes { s with
      keyboard := { s.keyboard with readFile := s.keyboard.readFile ++ [c] }
      typed := s.typed ++ [c] } where
  typed := by
    rw [← h.typed, List.append_assoc, List.append_assoc]
    rfl
  plain hmem := by
    rcases List.mem_append.mp hmem with hold | hnew
    · exact h.plain hold
    · exact hplain (List.mem_singleton.mp hnew).symm
  signalled := h.signalled
  starved := h.starved
  sent := h.sent
  busy := h.busy
  parked := h.parked
  shown := h.shown
  quits := h.quits

/-- A poll passes a byte on. -/
theorem Echoes.poll (h : s.Echoes) : s.poll.Echoes := by
  rcases s.poll_cases with ⟨-, hsame, -⟩ | ⟨c, rest, hfile, hempty, hpoll⟩
  · rw [hsame]
    exact h
  · have hbuffered : s.buffered = [] := if_pos hempty
    have hplain : c ≠ eof := by
      rintro rfl
      apply h.plain
      rw [← h.typed, hfile]
      simp
    have hnone := h.signalled
    rw [hbuffered, List.length_nil, outstanding, Nat.add_eq_zero_iff] at hnone
    have hpoint : s.point ≠ .taken := fun htaken => absurd hnone.2 (by simp [htaken])
    have hpoint' : (if s.point = .starved then EchoPoint.waiting else s.point) ≠ .taken := by
      split
      · decide
      · exact hpoint
    have hechoing : (if s.point = .starved then EchoPoint.waiting else s.point).echoing =
        s.point.echoing := by
      split
      · rename_i hstarved
        rw [hstarved]
        rfl
      · rfl
    rw [hpoll]
    constructor
    case typed =>
      rw [← h.typed, hbuffered, hfile]
      simp [buffered, hplain]
    case plain => exact h.plain
    case signalled =>
      unfold outstanding buffered
      simp only
      rw [if_neg hpoint', if_neg hplain, hnone.1]
      rfl
    case starved =>
      simp only
      split
      · simp
      · exact fun hstarved => absurd hstarved ‹_›
    case sent =>
      rw [h.sent]
      simp only
      split <;> rename_i hcase
      · by_cases hstarved : s.point = .starved
        · rw [hstarved] at hcase
          simp at hcase
        · rw [if_neg hstarved, if_pos hcase]
      · by_cases hstarved : s.point = .starved
        · rw [if_pos hstarved]
          simp
        · rw [if_neg hstarved, if_neg hcase]
    case busy => exact h.busy
    case parked =>
      simp only
      split
      · simp
      · exact h.parked
    case shown =>
      simp only
      rw [hechoing]
      exact h.shown
    case quits =>
      simp only
      split
      · simp
      · exact h.quits

/-- The interrupt of the display takes the place of its signal. -/
theorem Echoes.written (h : s.Echoes) (hstep : s.written = .ok t) : t.Echoes := by
  unfold ConsoleTest.written at hstep
  split at hstep
  · simp at hstep
  · rename_i hpending
    obtain rfl := Except.ok.inj hstep
    have hsent := h.sent
    have hpoint : s.point = .sent ∨ s.point = .parked := by
      by_contra hnot
      rw [if_neg hnot] at hsent
      omega
    rw [if_pos hpoint] at hsent
    have hnow : (if s.point = .parked then EchoPoint.sent else s.point) = .sent := by
      rcases hpoint with hpoint | hpoint <;> simp [hpoint]
    have hshown := h.shown
    have hechoing : s.point.echoing = true := by
      rcases hpoint with hpoint | hpoint <;> rw [hpoint] <;> rfl
    rw [hechoing] at hshown
    have htaken : s.point ≠ .taken := by
      rcases hpoint with hpoint | hpoint <;> simp [hpoint]
    constructor
    case typed => exact h.typed
    case plain => exact h.plain
    case signalled =>
      unfold outstanding
      simp only
      rw [hnow, if_neg (by decide)]
      have hsignalled := h.signalled
      rw [outstanding, if_neg htaken] at hsignalled
      exact hsignalled
    case starved =>
      simp only
      rw [hnow]
      exact fun hstarved => absurd hstarved (by decide)
    case sent =>
      simp only
      rw [hnow, if_pos (Or.inl rfl)]
      show s.writeDone + 1 + (s.display.pending - 1) = 1
      omega
    case busy =>
      show false = true ↔ 0 < s.display.pending - 1
      simp only [Bool.false_eq_true, false_iff]
      omega
    case parked =>
      simp only
      rw [hnow]
      exact fun hparked => absurd hparked (by decide)
    case shown =>
      simp only
      rw [hnow]
      exact hshown
    case quits =>
      simp only
      rw [hnow]
      exact fun hreturned => absurd hreturned (by decide)

/-- The character in the buffer is echoed. -/
theorem Echoes.echo (h : s.Echoes) (hpoint : s.point = .taken) :
    Echoes { s with
      keyboard := { s.keyboard with incoming := eof }
      display := { s.display with
        writeFile := s.display.writeFile ++ [s.keyboard.incoming]
        putBusy := true
        pending := s.display.pending + 1 }
      ch := s.keyboard.incoming
      point := .sent } := by
  have hsent := h.sent
  rw [hpoint, if_neg (by simp)] at hsent
  have hshown := h.shown
  rw [hpoint] at hshown
  have hsignalled := h.signalled
  rw [outstanding, if_pos hpoint] at hsignalled
  have hfull : s.keyboard.incoming ≠ eof := by
    intro hempty
    rw [buffered, if_pos hempty, List.length_nil] at hsignalled
    omega
  rw [buffered, if_neg hfull, List.length_singleton] at hsignalled
  constructor
  case typed =>
    rw [← h.typed]
    simp [buffered, hfull]
  case plain => exact h.plain
  case signalled =>
    unfold outstanding buffered
    simp only [reduceCtorEq, if_false, if_true, List.length_nil]
    omega
  case starved => exact fun hstarved => absurd hstarved (by simp)
  case sent =>
    simp only [true_or, if_true]
    omega
  case busy => simp
  case parked => exact fun hparked => absurd hparked (by simp)
  case shown => exact ⟨_, rfl, hshown⟩
  case quits => exact fun hreturned => absurd hreturned (by simp)

/-- The thread keeps the order of the characters. -/
theorem Echoes.goOn (h : s.Echoes) (hstep : s.goOn = .ok t) : t.Echoes := by
  have hsent := h.sent
  have hshown := h.shown
  have hsignalled := h.signalled
  rw [outstanding] at hsignalled
  rcases goOn_cases hstep with ⟨hpoint, hzero, rfl⟩ | ⟨hpoint, hvalue, rfl⟩ | ⟨hpoint, -, rfl⟩ |
    ⟨hpoint, hzero, rfl⟩ | ⟨hpoint, hvalue, rfl⟩ | ⟨hpoint, rfl⟩
  · -- to the queue of `readAvail`
    rw [hpoint] at hsent hshown hsignalled
    exact ⟨h.typed, h.plain, hsignalled, fun _ => hzero, hsent, h.busy,
      fun hp => absurd hp (by simp), hshown, fun hp => absurd hp (by simp)⟩
  · -- past `readAvail->P()`, with a character to fetch
    rw [hpoint] at hsent hshown hsignalled
    refine ⟨h.typed, h.plain, ?_, fun hp => absurd hp (by simp), hsent, h.busy,
      fun hp => absurd hp (by simp), hshown, fun hp => absurd hp (by simp)⟩
    show s.readAvail - 1 + 1 = s.buffered.length
    rw [← hsignalled, if_neg (by simp)]
    omega
  · exact h.echo hpoint
  · -- to the queue of `writeDone`
    rw [hpoint] at hsent hshown hsignalled
    exact ⟨h.typed, h.plain, hsignalled, fun hp => absurd hp (by simp), hsent, h.busy,
      fun _ => hzero, hshown, fun hp => absurd hp (by simp)⟩
  · -- past `writeDone->P()`
    rw [hpoint] at hsent hshown hsignalled
    refine ⟨h.typed, h.plain, hsignalled, fun hp => absurd hp (by simp), ?_, h.busy,
      fun hp => absurd hp (by simp), hshown, fun hp => absurd hp (by simp)⟩
    rw [if_pos (Or.inl rfl)] at hsent
    show s.writeDone - 1 + s.display.pending = 0
    omega
  · -- the test for `q`: no character before this one was a `q`
    rw [hpoint] at hsent hshown hsignalled
    obtain ⟨old, hfile, hold⟩ := hshown
    by_cases hquit : s.ch = quit
    · rw [if_pos hquit]
      exact ⟨h.typed, h.plain, hsignalled, fun hp => absurd hp (by simp), hsent, h.busy,
        fun hp => absurd hp (by simp), ⟨old, hfile, hold⟩, fun _ => hquit⟩
    · rw [if_neg hquit]
      refine ⟨h.typed, h.plain, hsignalled, fun hp => absurd hp (by simp), hsent, h.busy,
        fun hp => absurd hp (by simp), ?_, fun hp => absurd hp (by simp)⟩
      show quit ∉ s.display.writeFile
      rw [hfile, List.mem_append, List.mem_singleton, not_or]
      exact ⟨hold, Ne.symm hquit⟩

/-- One step keeps the order of the characters, unless `EOF` is typed. -/
theorem Echoes.next {label : EchoLabel} (h : s.Echoes) (hplain : label ≠ .typed eof)
    (hstep : step label s = .ok t) : t.Echoes := by
  cases label with
  | typed c =>
      obtain rfl := Except.ok.inj hstep
      exact h.typed_step fun hc => hplain (congrArg EchoLabel.typed hc)
  | poll =>
      obtain rfl := Except.ok.inj hstep
      exact h.poll
  | written => exact h.written hstep
  | goOn => exact h.goOn hstep

end Steps

section Runs

variable {s t : ConsoleTest} {labels : List EchoLabel} {l rest : List Byte}

theorem upToQuit_append (h : quit ∉ l) : upToQuit (l ++ rest) = l ++ upToQuit rest := by
  induction l with
  | nil => rfl
  | cons c l ih =>
      obtain ⟨hc, hl⟩ := not_or.mp (List.mem_cons.not.mp h)
      rw [List.cons_append, upToQuit, if_neg (Ne.symm hc), ih hl, List.cons_append]

theorem upToQuit_of_notMem (h : quit ∉ l) : upToQuit l = l := by
  have happend : upToQuit (l ++ []) = l ++ upToQuit [] := upToQuit_append h
  rwa [List.append_nil, upToQuit, List.append_nil] at happend

theorem upToQuit_quit : upToQuit (quit :: rest) = [quit] := if_pos rfl

/-- What is on the display is a first part of what is to be echoed. -/
theorem Echoes.shown_prefix (h : s.Echoes) : s.display.writeFile <+: upToQuit s.typed := by
  have hshown := h.shown
  rw [← h.typed]
  split at hshown
  · obtain ⟨old, hfile, hold⟩ := hshown
    rw [hfile, List.append_assoc, upToQuit_append hold, List.singleton_append]
    apply (List.prefix_append_right_inj old).mpr
    by_cases hquit : s.ch = quit
    · rw [hquit, upToQuit_quit]
    · rw [upToQuit, if_neg hquit]
      exact ⟨_, rfl⟩
  · rw [upToQuit_append hshown]
    exact List.prefix_append _ _

/-- When the test has returned, what is on the display ends with the first `q`. -/
theorem Echoes.shown_returned (h : s.Echoes) (hpoint : s.point = .returned) :
    s.display.writeFile = upToQuit s.typed ∧ quit ∈ s.typed := by
  have hshown := h.shown
  rw [hpoint] at hshown
  obtain ⟨old, hfile, hold⟩ := hshown
  rw [h.quits hpoint] at hfile
  rw [← h.typed, hfile, List.append_assoc, upToQuit_append hold, List.singleton_append,
    upToQuit_quit]
  exact ⟨rfl, by simp⟩

/-- The display is not busy when a character is handed to it. -/
theorem Echoes.free (h : s.Echoes) (hpoint : s.point = .taken) : s.display.putBusy = false := by
  have hsent := h.sent
  rw [hpoint, if_neg (by simp)] at hsent
  rw [Bool.eq_false_iff]
  intro htrue
  have hpending := h.busy.mp htrue
  omega

theorem Echoes.not_assertFailed (h : s.Echoes) (label : EchoLabel) :
    step label s ≠ .error .assertFailed := by
  cases label with
  | typed c => exact fun herror => absurd herror (by simp [step])
  | poll => exact fun herror => absurd herror (by simp [step])
  | written =>
      show s.written ≠ _
      unfold ConsoleTest.written
      split <;> simp
  | goOn =>
      show s.goOn ≠ _
      unfold ConsoleTest.goOn
      cases hpoint : s.point with
      | taken =>
          simp [ConsoleTest.echo, Console.getChar, Display.putChar, h.free hpoint]
      | waiting =>
          simp only
          split <;> simp
      | sent =>
          simp only
          split <;> simp
      | starved => simp
      | parked => simp
      | tested => simp
      | returned => simp

/-- What is typed, if it is not `EOF`. -/
def Plain (_ : ConsoleTest) (label : EchoLabel) : Prop := label ≠ .typed eof

instance plainDecidable (s : ConsoleTest) (label : EchoLabel) : Decidable (s.Plain label) :=
  inferInstanceAs (Decidable (_ ≠ _))

theorem echoes_of_reach (hrun : Reach step Plain construct s) : s.Echoes :=
  hrun.invariant (fun _ _ _ hu hplain hstep => hu.next hplain hstep) echoes_construct

/-- Whatever is typed and however the interrupts come, `PutChar` is never called while the
display is busy, no character is lost, and what is echoed is a first part of what was typed,
up to the first `q`; when the test returns, it is all of that. -/
theorem echoed_of_reach (hrun : Reach step Plain construct s) :
    (∀ label, step label s ≠ .error .assertFailed) ∧
    s.display.writeFile ++ (s.buffered ++ s.keyboard.readFile) = s.typed ∧
    s.display.writeFile <+: upToQuit s.typed ∧
    (s.point = .returned → s.display.writeFile = upToQuit s.typed ∧ quit ∈ s.typed) := by
  have h := echoes_of_reach hrun
  exact ⟨h.not_assertFailed, h.typed, h.shown_prefix, h.shown_returned⟩

/-- `a` and `q` are typed, and `a` is on its way to the display. -/
def typedTwo : List EchoLabel :=
  [.goOn, .typed 97, .typed quit, .poll, .goOn, .poll, .goOn, .poll, .goOn]

theorem echoed_of_reach_typedTwo : ∃ s, Reach step Plain construct s ∧
    s.point = .parked ∧ s.display.writeFile = [97] ∧ s.typed = [97, quit] ∧
    s.display.writeFile <+: upToQuit s.typed ∧ ∀ label, step label s ≠ .error .assertFailed := by
  have hreplay : (replay step (fun s label => decide (s.Plain label)) typedTwo construct).any
      (fun s => decide (s.point = .parked ∧ s.display.writeFile = [97] ∧ s.typed = [97, quit])) =
        true := by decide
  obtain ⟨s, hrun, hpoint, hfile, htyped⟩ :=
    exists_reach_of_replay (fun _ _ h => of_decide_eq_true h) hreplay
  obtain ⟨hassert, -, hprefix, -⟩ := echoed_of_reach hrun
  exact ⟨s, hrun, hpoint, hfile, htyped, hprefix, hassert⟩

/-- What a thread in this place has left to do before it waits for the next character. -/
def pointWork (s : ConsoleTest) : Nat :=
  match s.point with
  | .starved | .returned => 0
  | .waiting => 1
  | .tested => 2
  | .sent => 3 + 2 * s.display.pending
  | .parked => 4
  | .taken => 6

/-- A bound for the number of steps that are left when nothing more is typed. -/
def work (s : ConsoleTest) : Nat :=
  8 * s.keyboard.readFile.length + 6 * s.readAvail + s.pointWork

/-- Nothing is typed, and no poll that finds nothing to do. -/
def goes (s : ConsoleTest) : EchoLabel → Bool
  | .typed _ => false
  | .poll => s.keyboard.checkCharAvail.1
  | .written | .goOn => true

/-- Such a step. -/
def Goes (s : ConsoleTest) (label : EchoLabel) (t : ConsoleTest) : Prop :=
  s.goes label = true ∧ step label s = .ok t

/-- Every such step is one of the bounded number. -/
theorem Echoes.work_lt {label : EchoLabel} (h : s.Echoes) (hgoes : Goes s label t) :
    t.Echoes ∧ t.typed = s.typed ∧ t.work < s.work := by
  obtain ⟨hlabel, hstep⟩ := hgoes
  have hsent := h.sent
  cases label with
  | typed c => exact absurd hlabel (by simp [goes])
  | poll =>
      obtain rfl := Except.ok.inj hstep
      refine ⟨h.poll, ?_⟩
      rcases s.poll_cases with ⟨hnothing, -, -⟩ | ⟨c, rest, hfile, -, hpoll⟩
      · rw [goes, hnothing] at hlabel
        exact absurd hlabel (by simp)
      · rw [hpoll]
        refine ⟨rfl, ?_⟩
        unfold work pointWork
        rw [hfile, List.length_cons]
        simp only
        cases hpoint : s.point <;> simp only [reduceCtorEq, if_false, if_true] <;> omega
  | written =>
      refine ⟨h.written hstep, ?_⟩
      have hwritten : s.written = .ok t := hstep
      unfold ConsoleTest.written at hwritten
      split at hwritten
      · simp at hwritten
      · rename_i hpending
        obtain rfl := Except.ok.inj hwritten
        refine ⟨rfl, ?_⟩
        unfold work pointWork Display.writeDone
        simp only
        cases hpoint : s.point <;> rw [hpoint] at hsent <;>
          simp only [reduceCtorEq, or_self, or_true, true_or, if_false, if_true] at hsent ⊢ <;>
          omega
  | goOn =>
      refine ⟨h.goOn hstep, ?_⟩
      rcases goOn_cases hstep with ⟨hpoint, hzero, rfl⟩ | ⟨hpoint, hvalue, rfl⟩ |
        ⟨hpoint, -, rfl⟩ | ⟨hpoint, hzero, rfl⟩ | ⟨hpoint, hvalue, rfl⟩ | ⟨hpoint, rfl⟩ <;>
        rw [hpoint] at hsent <;>
        simp only [reduceCtorEq, or_self, true_or, if_false, if_true] at hsent <;>
        refine ⟨rfl, ?_⟩ <;> unfold work pointWork <;> rw [hpoint] <;> simp only
      all_goals first
        | omega
        | (split_ifs <;> simp only <;> omega)

/-- The thread can go on. -/
theorem exists_goes (h : ∀ stop, s.goOn ≠ .error stop) : ∃ label u, Goes s label u := by
  cases hgo : s.goOn with
  | ok u => exact ⟨.goOn, u, rfl, hgo⟩
  | error stop => exact absurd hgo (h stop)

/-- A thread that has neither returned nor waits for a character can go on, or the interrupt
that it waits for is pending. -/
theorem Echoes.progress (h : s.Echoes) (hstarved : s.point ≠ .starved)
    (hreturned : s.point ≠ .returned) : ∃ label u, Goes s label u := by
  have hsent := h.sent
  cases hpoint : s.point with
  | starved => exact absurd hpoint hstarved
  | returned => exact absurd hpoint hreturned
  | parked =>
      have hzero := h.parked hpoint
      rw [hpoint, if_pos (Or.inr rfl)] at hsent
      cases hwritten : s.written with
      | ok u => exact ⟨.written, u, rfl, hwritten⟩
      | error stop =>
          simp [ConsoleTest.written, show s.display.pending ≠ 0 by omega] at hwritten
  | waiting =>
      apply exists_goes
      intro stop
      simp only [ConsoleTest.goOn, hpoint]
      split <;> simp
  | taken =>
      apply exists_goes
      intro stop
      simp [ConsoleTest.goOn, hpoint, ConsoleTest.echo, Console.getChar, Display.putChar,
        h.free hpoint]
  | sent =>
      apply exists_goes
      intro stop
      simp only [ConsoleTest.goOn, hpoint]
      split <;> simp
  | tested =>
      apply exists_goes
      intro stop
      simp [ConsoleTest.goOn, hpoint]

/-- When nothing can happen without typing, the thread has returned, or it waits for a
character and everything that was typed is echoed. -/
theorem Echoes.stuck (h : s.Echoes) (hstuck : ∀ label u, ¬ Goes s label u) :
    s.display.writeFile = upToQuit s.typed ∧ (s.point = .returned ↔ quit ∈ s.typed) := by
  by_cases hreturned : s.point = .returned
  · obtain ⟨hfile, hquit⟩ := h.shown_returned hreturned
    exact ⟨hfile, fun _ => hquit, fun _ => hreturned⟩
  · have hstarved : s.point = .starved := by
      by_contra hnot
      obtain ⟨label, u, hgoes⟩ := h.progress hnot hreturned
      exact hstuck label u hgoes
    have hshown := h.shown
    rw [hstarved] at hshown
    -- A character in the buffer would have been signalled, and one behind it can be polled.
    have hbuffered : s.buffered = [] := by
      apply List.eq_nil_of_length_eq_zero
      rw [← h.signalled, outstanding, h.starved hstarved, hstarved]
      rfl
    have hfile : s.keyboard.readFile = [] := by
      rcases s.poll_cases with ⟨-, -, hfile | hfull⟩ | ⟨c, rest, hfile, hempty, -⟩
      · exact hfile
      · rw [buffered, if_neg hfull] at hbuffered
        exact absurd hbuffered (by simp)
      · refine absurd ⟨?_, rfl⟩ (hstuck .poll s.poll)
        simp [goes, Console.checkCharAvail, hfile, hempty]
    have htyped := h.typed
    rw [hbuffered, hfile, List.append_nil, List.append_nil] at htyped
    rw [← htyped, upToQuit_of_notMem hshown]
    exact ⟨rfl, fun hr => absurd hr hreturned, fun hquit => absurd hquit hshown⟩

/-- When nothing more is typed, at most `work` steps are left, in whatever order the thread
and the interrupts come, and when none is left everything up to the first `q` is echoed; the
test has returned exactly if a `q` was typed. -/
theorem echo_finishes (hrun : Reach step Plain construct s) (hrest : Traced Goes s labels t) :
    labels.length ≤ s.work ∧ ((∀ label u, ¬ Goes t label u) →
      t.display.writeFile = upToQuit s.typed ∧ (t.point = .returned ↔ quit ∈ s.typed)) := by
  obtain ⟨⟨hechoes, htyped⟩, hwork⟩ := hrest.bounded
    (P := fun u => u.Echoes ∧ u.typed = s.typed) work (fun u label v hu hgoes => by
      obtain ⟨hv, htyped, hless⟩ := hu.1.work_lt hgoes
      exact ⟨⟨hv, htyped.trans hu.2⟩, hless⟩) ⟨echoes_of_reach hrun, rfl⟩
  refine ⟨Nat.le_of_add_right_le hwork, fun hstuck => ?_⟩
  rw [← htyped]
  exact hechoes.stuck hstuck

/-- The echo of both, to the end. -/
def restOfTwo : List EchoLabel :=
  [.written, .goOn, .goOn, .goOn, .goOn, .goOn, .written, .goOn, .goOn]

theorem echo_finishes_typedTwo : ∃ s t, Reach step Plain construct s ∧
    Traced Goes s restOfTwo t ∧ t.point = .returned ∧ t.display.writeFile = [97, quit] ∧
    restOfTwo.length ≤ s.work ∧ ((∀ label u, ¬ Goes t label u) →
      t.display.writeFile = upToQuit s.typed ∧ (t.point = .returned ↔ quit ∈ s.typed)) := by
  have hreplay : (replay step (fun s label => decide (s.Plain label)) typedTwo construct).any
      (fun s => (replay step goes restOfTwo s).any fun t =>
        decide (t.point = .returned ∧ t.display.writeFile = [97, quit])) = true := by decide
  obtain ⟨s, hfirst, hany⟩ := (Option.any_eq_true _ _).mp hreplay
  obtain ⟨t, hlater, hcheck⟩ := (Option.any_eq_true _ _).mp hany
  obtain ⟨hpoint, hfile⟩ := of_decide_eq_true hcheck
  have hrun : Reach step Plain construct s :=
    reach_of_replay (fun _ _ h => of_decide_eq_true h) _ hfirst
  have hrest : Traced Goes s restOfTwo t :=
    traced_of_replay (fun _ _ h => h) hlater
  exact ⟨s, t, hrun, hrest, hpoint, hfile, echo_finishes hrun hrest⟩

end Runs

end ConsoleTest

end Userprog
end Nachos
