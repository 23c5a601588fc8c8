import Nachos.Lib.Agents
import Nachos.Lib.GuardedRun

/-!
# Hand-luggage screening in `threads/threadtest.cc`

The passengers of the airport simulation and its screening officers.  A passenger looks
for an officer that is not busy, sets it busy and hands its name over in `SPInfo`; the
officer directs it to a security inspector and sets itself free when it starts over.  The
first passenger in the line looks for an officer with `ScreenLines` held, but claims it only
after it has given the lock up and yielded; somebody else can have claimed it by then.  A
passenger that is woken from the line and finds all officers busy claims the one with the
number of its check-in counter.  An officer that starts its first round frees itself even if
it has been claimed already.

Threads of the kernel switch only inside of the calls of the synchronization primitives, so a
step is the code up to and including the next such call.  `Wait` puts its thread in the
queue of the condition and gives the lock up; the thread goes on when it has been taken off
the queue by a `Signal` and the lock is free.
-/

namespace Nachos
namespace Airport

open Lib

/-- Where a passenger is on its way through `ChooseLiaisonLine`, from the screening lines
on; `i` is its `myLine`. -/
inductive PassengerPoint (m : Nat)
  /-- Before `ScreenLines->Acquire()`. -/
  | arriving
  /-- With `ScreenLines`, before the test of `ScreenLine[0] == 0`. -/
  | queueing
  /-- At the head of `while (test)`, and in it with `ScreenLines`. -/
  | looking
  | scanning
  /-- Behind the loop, and behind the `ScreenLines->Acquire()` that follows it. -/
  | chosen (i : Fin m)
  | returning (i : Fin m)
  /-- In `ScreenLineCV[0]->Wait(ScreenLines)`, and behind it. -/
  | inLine
  | awake
  /-- Behind `setBusy()`, `ScreenLocks[myLine]->Acquire()` and `ScreenLines->Release()`. -/
  | claimed (i : Fin m)
  | entered (i : Fin m)
  | greeting (i : Fin m)
  /-- Behind `ScreenOfficerCV[myLine]->Signal`, in the `Wait` and behind it. -/
  | signalled (i : Fin m)
  | waiting (i : Fin m)
  | directed (i : Fin m)
  /-- Behind the `Signal` that says that it leaves, and behind the `Release`. -/
  | leaving (i : Fin m)
  | gone
  deriving DecidableEq, Repr

/-- Where a screening officer is in `DoWork`. -/
inductive OfficerPoint
  /-- Before `ScreenLines->Acquire()`, behind it, and behind the `Signal` to the line. -/
  | beginning
  | resetting
  | reset
  /-- Behind `ScreenLocks[number]->Acquire()` and `ScreenLines->Release()`. -/
  | ready
  | opened
  /-- In the first `Wait`, and behind it. -/
  | expecting
  | examining
  /-- In the loop that looks for a security inspector. -/
  | searching
  /-- Behind the `Signal` to the passenger, in the second `Wait` and behind it. -/
  | dismissing
  | parting
  | closing
  deriving DecidableEq, Repr

namespace PassengerPoint

variable {m : Nat}

/-- The officer that a passenger has claimed and not yet said goodbye to. -/
def visit : PassengerPoint m → Option (Fin m)
  | claimed i | entered i | greeting i | signalled i | waiting i | directed i => some i
  | _ => none

/-- The points with `ScreenLines`. -/
def holdsLines : PassengerPoint m → Bool
  | queueing | scanning | returning _ | awake | claimed _ | entered _ => true
  | _ => false

/-- The points with `ScreenLocks[i]`. -/
def holdsLock (i : Fin m) : PassengerPoint m → Bool
  | entered j | greeting j | signalled j | directed j | leaving j => j = i
  | _ => false

end PassengerPoint

namespace OfficerPoint

/-- The points with `ScreenLines`. -/
def holdsLines : OfficerPoint → Bool
  | resetting | reset | ready => true
  | _ => false

/-- The points with `ScreenLocks[number]`. -/
def holdsLock : OfficerPoint → Bool
  | ready | opened | examining | searching | dismissing | closing => true
  | _ => false

end OfficerPoint

/-- The threads. -/
inductive Agent (n m : Nat)
  | passenger (p : Fin n)
  | officer (i : Fin m)
  deriving DecidableEq, Repr

/-- The globals of the simulation that screening uses, and where the threads are. -/
structure Screening (n m : Nat) where
  /-- `ScreenLine[0]`. -/
  screenLine : Int
  /-- `ScreenLines` and `ScreenLineCV[0]`. -/
  screenLines : Option (Agent n m)
  screenLineCV : List (Agent n m)
  /-- `IsBusy` of the officers, their locks and conditions. -/
  isBusy : Fin m → Bool
  screenLocks : Fin m → Option (Agent n m)
  screenOfficerCV : Fin m → List (Agent n m)
  /-- `SPInfo`. -/
  spPassenger : Fin m → Nat
  spSecurityOfficer : Fin m → Nat
  /-- `ScreeningResult`, of 1000 entries, and the memory behind it. -/
  screeningResult : Nat → Bool
  passenger : Fin n → PassengerPoint m
  officer : Fin m → OfficerPoint

/-- A thread, and what it gets from the rest of the simulation: whether the luggage is
clean, and the security inspector that is found, if one is. -/
structure Turn (n m : Nat) where
  agent : Agent n m
  screenPass : Bool
  securityOfficer : Option Nat

/-- Why a thread makes no step. -/
inductive Halt
  | blocked
  | finished
  | outOfBounds
  deriving DecidableEq, Repr

namespace Screening

variable {n m : Nat}

/-- The simulation as `setup` leaves it, with `airlines` airlines of 50 seats.  `SPInfo` comes from
`new`, and holds anything. -/
def start (n m airlines : Nat) (spPassenger spSecurityOfficer : Fin m → Nat) :
    Screening n m where
  screenLine := 0
  screenLines := none
  screenLineCV := []
  isBusy := fun _ => false
  screenLocks := fun _ => none
  screenOfficerCV := fun _ => []
  spPassenger := spPassenger
  spSecurityOfficer := spSecurityOfficer
  screeningResult := fun z => decide (z < airlines * 50)
  passenger := fun _ => .arriving
  officer := fun _ => .beginning

/-- A passenger goes on to another point. -/
def go (s : Screening n m) (p : Fin n) (q : PassengerPoint m) : Screening n m :=
  { s with passenger := Function.update s.passenger p q }

/-- An officer goes on to another point. -/
def post (s : Screening n m) (i : Fin m) (q : OfficerPoint) : Screening n m :=
  { s with officer := Function.update s.officer i q }

/-- `ScreenLines->Acquire()`. -/
def acquireLines (s : Screening n m) (a : Agent n m) : Except Halt (Screening n m) :=
  if s.screenLines = none ∨ s.screenLines = some a then .ok { s with screenLines := some a }
  else .error .blocked

/-- `ScreenLines->Release()`. -/
def releaseLines (s : Screening n m) : Screening n m := { s with screenLines := none }

/-- `ScreenLocks[i]->Acquire()`. -/
def acquireLock (s : Screening n m) (i : Fin m) (a : Agent n m) : Except Halt (Screening n m) :=
  if s.screenLocks i = none ∨ s.screenLocks i = some a then
    .ok { s with screenLocks := Function.update s.screenLocks i (some a) }
  else .error .blocked

/-- `ScreenLocks[i]->Release()`. -/
def releaseLock (s : Screening n m) (i : Fin m) : Screening n m :=
  { s with screenLocks := Function.update s.screenLocks i none }

/-- `ScreenOfficerCV[i]->Signal(ScreenLocks[i])`. -/
def signal (s : Screening n m) (i : Fin m) : Screening n m :=
  { s with screenOfficerCV := Function.update s.screenOfficerCV i (s.screenOfficerCV i).tail }

/-- `ScreenOfficerCV[i]->Wait(ScreenLocks[i])` up to the sleep. -/
def wait (s : Screening n m) (i : Fin m) (a : Agent n m) : Screening n m :=
  { s.releaseLock i with
    screenOfficerCV := Function.update s.screenOfficerCV i (s.screenOfficerCV i ++ [a]) }

/-- The end of the `Wait`. -/
def resume (s : Screening n m) (i : Fin m) (a : Agent n m) : Except Halt (Screening n m) :=
  if a ∈ s.screenOfficerCV i then .error .blocked else s.acquireLock i a

/-- The `for` loop over the officers: the last one that is not busy, or `myLine` as it was. -/
def findFree (s : Screening n m) (myLine : Option (Fin m)) : Option (Fin m) :=
  (List.finRange m).foldl (fun found i => if s.isBusy i then found else some i) myLine

/-- `Screen[myLine]->setBusy()`. -/
def claim (s : Screening n m) (p : Fin n) (i : Fin m) : Screening n m :=
  { s.go p (.claimed i) with isBusy := Function.update s.isBusy i true }

/-- A step of a passenger.  `counter` is the `myLine` it comes with from the check-in. -/
def passengerStep (counter : Fin n → Nat) (p : Fin n) (s : Screening n m) :
    Except Halt (Screening n m) :=
  let self : Agent n m := .passenger p
  match s.passenger p with
  | .arriving => do .ok ((← s.acquireLines self).go p .queueing)
  | .queueing =>
      if s.screenLine = 0 then
        .ok ({ s with screenLine := s.screenLine + 1 }.releaseLines.go p .looking)
      else
        .ok ({ s with
          screenLine := s.screenLine + 1
          screenLineCV := s.screenLineCV ++ [self] }.releaseLines.go p .inLine)
  | .looking => do .ok ((← s.acquireLines self).go p .scanning)
  | .scanning =>
      match s.findFree none with
      | some i => .ok (s.releaseLines.go p (.chosen i))
      | none => .ok (s.releaseLines.go p .looking)
  | .chosen i => do .ok ((← s.acquireLines self).go p (.returning i))
  | .returning i => .ok (s.claim p i)
  | .inLine =>
      if self ∈ s.screenLineCV then .error .blocked
      else do .ok ((← s.acquireLines self).go p .awake)
  | .awake =>
      match s.findFree (if h : counter p < m then some ⟨counter p, h⟩ else none) with
      | some i => .ok (s.claim p i)
      | none => .error .outOfBounds
  | .claimed i => do .ok ((← s.acquireLock i self).go p (.entered i))
  | .entered i => .ok (s.releaseLines.go p (.greeting i))
  | .greeting i =>
      .ok ({ s with spPassenger := Function.update s.spPassenger i p.val }.signal i |>.go p
        (.signalled i))
  | .signalled i => .ok ((s.wait i self).go p (.waiting i))
  | .waiting i => do .ok ((← s.resume i self).go p (.directed i))
  | .directed i => .ok ((s.signal i).go p (.leaving i))
  | .leaving i =>
      .ok ({ s with screenLine := if 0 < s.screenLine then s.screenLine - 1 else s.screenLine
        }.releaseLock i |>.go p .gone)
  | .gone => .error .finished

/-- A step of an officer. -/
def officerStep (turn : Turn n m) (i : Fin m) (s : Screening n m) : Except Halt (Screening n m) :=
  let self : Agent n m := .officer i
  match s.officer i with
  | .beginning => do .ok ((← s.acquireLines self).post i .resetting)
  | .resetting =>
      .ok ({ s with
        isBusy := Function.update s.isBusy i false
        screenLineCV := if 0 < s.screenLine then s.screenLineCV.tail else s.screenLineCV
        }.post i .reset)
  | .reset => do .ok ((← s.acquireLock i self).post i .ready)
  | .ready => .ok (s.releaseLines.post i .opened)
  | .opened => .ok ((s.wait i self).post i .expecting)
  | .expecting => do .ok ((← s.resume i self).post i .examining)
  | .examining =>
      .ok ({ s with
        screeningResult := Function.update s.screeningResult (s.spPassenger i) turn.screenPass
        }.post i .searching)
  | .searching =>
      match turn.securityOfficer with
      | none => .ok s
      | some k =>
          .ok ({ s with spSecurityOfficer := Function.update s.spSecurityOfficer i k }.signal i
            |>.post i .dismissing)
  | .dismissing => .ok ((s.wait i self).post i .parting)
  | .parting => do .ok ((← s.resume i self).post i .closing)
  | .closing => .ok ((s.releaseLock i).post i .beginning)

/-- A step of the simulation. -/
def step (counter : Fin n → Nat) (turn : Turn n m) (s : Screening n m) :
    Except Halt (Screening n m) :=
  match turn.agent with
  | .passenger p => passengerStep counter p s
  | .officer i => officerStep turn i s

/-- The passenger has claimed the officer and has not been told to move on. -/
def Claims (s : Screening n m) (p : Fin n) (i : Fin m) : Prop :=
  s.passenger p = .claimed i ∨ s.passenger p = .entered i ∨ s.passenger p = .greeting i ∨
    s.passenger p = .signalled i ∨
    (s.passenger p = .waiting i ∧ .passenger p ∈ s.screenOfficerCV i)

/-- Its name is in `SPInfo`. -/
def HasHanded (s : Screening n m) (p : Fin n) (i : Fin m) : Prop :=
  s.passenger p = .signalled i ∨
    (s.passenger p = .waiting i ∧ .passenger p ∈ s.screenOfficerCV i)

/-- An officer is claimed by one passenger at most, and the name that passenger has handed
over is still there. -/
def OnePerOfficer (s : Screening n m) : Prop :=
  (∀ i p q, s.Claims p i → s.Claims q i → p = q) ∧
    ∀ i p, s.HasHanded p i → s.spPassenger i = p.val

/-- The officer that a passenger takes when it makes a step, if it does. -/
def taken (counter : Fin n → Nat) (s : Screening n m) (p : Fin n) : Option (Fin m) :=
  match s.passenger p with
  | .returning i => some i
  | .awake => s.findFree (if h : counter p < m then some ⟨counter p, h⟩ else none)
  | _ => none

/-- A passenger takes an officer only if that is not busy and has begun its round. -/
def TakesFree (counter : Fin n → Nat) (s : Screening n m) (turn : Turn n m) : Prop :=
  ∀ p i, turn.agent = .passenger p → taken counter s p = some i →
    s.isBusy i = false ∧ s.officer i ≠ .beginning

section Locks

variable {s : Screening n m}

/-- The points of all threads; that of an officer with its number. -/
def point (s : Screening n m) : Agent n m → PassengerPoint m ⊕ (Fin m × OfficerPoint)
  | .passenger p => .inl (s.passenger p)
  | .officer i => .inr (i, s.officer i)

/-- The points with `ScreenLines`. -/
def holdsLines : PassengerPoint m ⊕ (Fin m × OfficerPoint) → Prop
  | .inl q => q.holdsLines = true
  | .inr q => q.2.holdsLines = true

/-- The points with `ScreenLocks[i]`. -/
def holdsLock (i : Fin m) : PassengerPoint m ⊕ (Fin m × OfficerPoint) → Prop
  | .inl q => q.holdsLock i = true
  | .inr q => q.1 = i ∧ q.2.holdsLock = true

theorem point_passenger {s s' : Screening n m} {p : Fin n} {q : PassengerPoint m}
    (hpassenger : s'.passenger = Function.update s.passenger p q)
    (hofficer : s'.officer = s.officer) :
    s'.point = Function.update s.point (.passenger p) (.inl q) := by
  funext a
  cases a with
  | passenger p' =>
      by_cases hp : p' = p
      · subst hp
        simp [point, hpassenger]
      · simp [point, hpassenger, hp]
  | officer i => simp [point, hofficer]

theorem point_officer {s s' : Screening n m} {i : Fin m} {q : OfficerPoint}
    (hofficer : s'.officer = Function.update s.officer i q)
    (hpassenger : s'.passenger = s.passenger) :
    s'.point = Function.update s.point (.officer i) (.inr (i, q)) := by
  funext a
  cases a with
  | passenger p => simp [point, hpassenger]
  | officer j =>
      by_cases hj : j = i
      · subst hj
        simp [point, hofficer]
      · simp [point, hofficer, hj]

/-- The locks exclude. -/
structure Locked (s : Screening n m) : Prop where
  lines : Guarded s.screenLines holdsLines s.point
  locks : ∀ i, Guarded (s.screenLocks i) (holdsLock i) s.point

theorem locked_start (n m airlines : Nat) (spPassenger spSecurityOfficer : Fin m → Nat) :
    (start n m airlines spPassenger spSecurityOfficer).Locked where
  lines := by
    intro a ha
    cases a with
    | passenger p => exact absurd ha (by simp [point, start, holdsLines, PassengerPoint.holdsLines])
    | officer i => exact absurd ha (by simp [point, start, holdsLines, OfficerPoint.holdsLines])
  locks := by
    intro i a ha
    cases a with
    | passenger p => exact absurd ha (by simp [point, start, holdsLock, PassengerPoint.holdsLock])
    | officer j => exact absurd ha (by simp [point, start, holdsLock, OfficerPoint.holdsLock])

section Moves

variable {s' : Screening n m} {a : Agent n m} {x : PassengerPoint m ⊕ (Fin m × OfficerPoint)}

/-- A thread goes on under the locks it has. -/
theorem Locked.keep (h : s.Locked) (hpoint : s'.point = Function.update s.point a x)
    (hlines : s'.screenLines = s.screenLines) (hlocks : s'.screenLocks = s.screenLocks)
    (hx : holdsLines x → holdsLines (s.point a))
    (hkeep : ∀ j, holdsLock j x → holdsLock j (s.point a)) : s'.Locked where
  lines := by
    rw [hlines, hpoint]
    exact h.lines.keep hx
  locks := by
    intro j
    rw [hlocks, hpoint]
    exact (h.locks j).keep (hkeep j)

/-- A thread gets `ScreenLines`. -/
theorem Locked.acquireLines (h : s.Locked) (hpoint : s'.point = Function.update s.point a x)
    (hfree : s.screenLines = none ∨ s.screenLines = some a) (hlines : s'.screenLines = some a)
    (hlocks : s'.screenLocks = s.screenLocks)
    (hkeep : ∀ j, holdsLock j x → holdsLock j (s.point a)) : s'.Locked where
  lines := by
    rw [hlines, hpoint]
    exact h.lines.acquire hfree
  locks := by
    intro j
    rw [hlocks, hpoint]
    exact (h.locks j).keep (hkeep j)

/-- A thread gives `ScreenLines` up. -/
theorem Locked.releaseLines (h : s.Locked) (hpoint : s'.point = Function.update s.point a x)
    (hheld : holdsLines (s.point a)) (hx : ¬ holdsLines x) (hlines : s'.screenLines = none)
    (hlocks : s'.screenLocks = s.screenLocks)
    (hkeep : ∀ j, holdsLock j x → holdsLock j (s.point a)) : s'.Locked where
  lines := by
    rw [hlines, hpoint]
    exact h.lines.drop hheld hx
  locks := by
    intro j
    rw [hlocks, hpoint]
    exact (h.locks j).keep (hkeep j)

/-- A thread gets the lock of an officer. -/
theorem Locked.acquireLock (h : s.Locked) (i : Fin m)
    (hpoint : s'.point = Function.update s.point a x)
    (hfree : s.screenLocks i = none ∨ s.screenLocks i = some a)
    (hlines : s'.screenLines = s.screenLines)
    (hlocks : s'.screenLocks = Function.update s.screenLocks i (some a))
    (hx : holdsLines x → holdsLines (s.point a))
    (hkeep : ∀ j, j ≠ i → holdsLock j x → holdsLock j (s.point a)) : s'.Locked where
  lines := by
    rw [hlines, hpoint]
    exact h.lines.keep hx
  locks := by
    rw [hlocks, hpoint]
    exact Guarded.acquire_at h.locks hfree hkeep

/-- A thread gives the lock of an officer up. -/
theorem Locked.releaseLock (h : s.Locked) (i : Fin m)
    (hpoint : s'.point = Function.update s.point a x) (hheld : holdsLock i (s.point a))
    (hx' : ¬ holdsLock i x) (hlines : s'.screenLines = s.screenLines)
    (hlocks : s'.screenLocks = Function.update s.screenLocks i none)
    (hx : holdsLines x → holdsLines (s.point a))
    (hkeep : ∀ j, j ≠ i → holdsLock j x → holdsLock j (s.point a)) : s'.Locked where
  lines := by
    rw [hlines, hpoint]
    exact h.lines.keep hx
  locks := by
    rw [hlocks, hpoint]
    exact Guarded.drop_at h.locks hheld hx' hkeep

end Moves

theorem acquireLines_ok {s s' : Screening n m} {a : Agent n m} (h : s.acquireLines a = .ok s') :
    (s.screenLines = none ∨ s.screenLines = some a) ∧ s' = { s with screenLines := some a } := by
  unfold acquireLines at h
  split at h
  · rename_i hfree
    exact ⟨hfree, (Except.ok.inj h).symm⟩
  · exact absurd h (by simp)

theorem acquireLock_ok {s s' : Screening n m} {i : Fin m} {a : Agent n m}
    (h : s.acquireLock i a = .ok s') :
    (s.screenLocks i = none ∨ s.screenLocks i = some a) ∧
      s' = { s with screenLocks := Function.update s.screenLocks i (some a) } := by
  unfold acquireLock at h
  split at h
  · rename_i hfree
    exact ⟨hfree, (Except.ok.inj h).symm⟩
  · exact absurd h (by simp)

theorem resume_ok {s s' : Screening n m} {i : Fin m} {a : Agent n m} (h : s.resume i a = .ok s') :
    a ∉ s.screenOfficerCV i ∧ (s.screenLocks i = none ∨ s.screenLocks i = some a) ∧
      s' = { s with screenLocks := Function.update s.screenLocks i (some a) } := by
  unfold resume at h
  split at h
  · exact absurd h (by simp)
  · rename_i hnot
    exact ⟨hnot, acquireLock_ok h⟩

end Locks

end Screening

end Airport
end Nachos
