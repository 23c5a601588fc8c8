import Nachos.Lib.Agents
import Nachos.Lib.GuardedRun
import Nachos.Test.CheckInBags
import Nachos.Test.LiaisonLine

/-!
# The conveyor of `test/Airport.c`

The conveyor is an array in which a weight of zero marks a free place.  Check-in officers look for a
free place under `BaggageLock`; cargo handlers look for a bag under `CargoHandlerLock`, copy it into
`temp` and set its weight to zero.  The two locks do not exclude each other, and the threads of a
user program can be preempted between any two loads and stores: so each load and store of the
conveyor and of `aircraftBaggageCount` is a step.  A struct is copied word by word, the weight
first.

A bag is lost if it weighs nothing or finds no free place.  A handler that finds no bag has in
`temp` the one of the last pass, and loads it again; and it can copy a bag between the two stores of
the officer, with the airline of the bag that was there before.
-/

namespace Nachos
namespace Test

open Lib

/-- A place on the conveyor. -/
structure Place where
  weight : Int
  airline : Int
  /-- The airline of the bag that was put here last, which the program does not keep. -/
  bagAirline : Int
  deriving DecidableEq, Repr

namespace Place

/-- The stores of the two words of a bag. -/
def store (c : Place) (b : Baggage) : Place := ⟨b.weight, c.airline, b.airline⟩

def mark (c : Place) (airline : Int) : Place := { c with airline := airline }

/-- `conveyor[i].weight = 0`. -/
def empty (c : Place) : Place := { c with weight := 0 }

end Place

/-- `PASSENGER_COUNT*2`. -/
abbrev Slot := Fin 18

/-- Where a check-in officer is with a bag. -/
inductive DropPoint
  | idle
  /-- Before `Acquire(BaggageLock)`. -/
  | arriving (b : Baggage)
  /-- In the loop, before the test of place `y`. -/
  | looking (b : Baggage) (y : Nat)
  /-- Before the store of the weight, and before that of the airline. -/
  | storing (b : Baggage) (y : Slot)
  | marking (b : Baggage) (y : Slot)
  /-- Before `Release(BaggageLock)`. -/
  | leaving
  deriving DecidableEq, Repr

/-- Where a cargo handler is. -/
inductive CargoPoint
  /-- Before `Acquire(CargoHandlerLock)`. -/
  | beginning
  /-- In the loop, before the test of place `i`. -/
  | looking (i : Nat)
  /-- Before the loads of the weight and the airline, and before the store of zero. -/
  | copying (i : Slot)
  | copied (i : Slot)
  | emptying (i : Slot)
  /-- At `if (temp.weight == 0)`. -/
  | testing
  /-- In `Wait(CargoHandlerCV, CargoHandlerLock)`. -/
  | waiting
  /-- Before `Acquire(AirlineBaggage[temp.airline])`, and before `Release(CargoHandlerLock)`. -/
  | loading
  | leaving
  /-- Before the load of `aircraftBaggageCount`, before the store, and behind it. -/
  | counting
  | counted (v : Int)
  | weighing
  deriving DecidableEq, Repr

/-- A handler, with what `cargoHandlers` has of it. -/
structure CargoHandler where
  point : CargoPoint
  temp : Baggage
  onBreak : Bool
  weight : Int → Int
  count : Int → Int

namespace DropPoint

/-- The points with `BaggageLock`. -/
def holdsLock : DropPoint → Bool
  | looking _ _ | storing _ _ | marking _ _ | leaving => true
  | _ => false

end DropPoint

namespace CargoHandler

/-- It goes on to another point. -/
def goTo (x : CargoHandler) (q : CargoPoint) : CargoHandler := { x with point := q }

def setBreak (x : CargoHandler) (onBreak : Bool) : CargoHandler := { x with onBreak := onBreak }

/-- The loads of the two words of a bag. -/
def copyWeight (x : CargoHandler) (weight : Int) : CargoHandler :=
  { x with temp := ⟨weight, x.temp.airline⟩ }

def copyAirline (x : CargoHandler) (airline : Int) : CargoHandler :=
  { x with temp := ⟨x.temp.weight, airline⟩ }

/-- It enters the bag in its own tables. -/
def enter (x : CargoHandler) : CargoHandler :=
  { x with
    weight := Function.update x.weight x.temp.airline (x.weight x.temp.airline + x.temp.weight)
    count := Function.update x.count x.temp.airline (x.count x.temp.airline + 1) }

section Fields

variable (x : CargoHandler)

@[simp] theorem goTo_point (q : CargoPoint) : (x.goTo q).point = q := rfl

@[simp] theorem goTo_temp (q : CargoPoint) : (x.goTo q).temp = x.temp := rfl

@[simp] theorem setBreak_temp (onBreak : Bool) : (x.setBreak onBreak).temp = x.temp := rfl

@[simp] theorem copyWeight_temp (weight : Int) :
    (x.copyWeight weight).temp = ⟨weight, x.temp.airline⟩ := rfl

@[simp] theorem copyAirline_temp (airline : Int) :
    (x.copyAirline airline).temp = ⟨x.temp.weight, airline⟩ := rfl

end Fields

/-- The points with `CargoHandlerLock`. -/
def holdsCargo (h : CargoHandler) : Bool :=
  match h.point with
  | .looking _ | .copying _ | .copied _ | .emptying _ | .testing | .loading | .leaving => true
  | _ => false

/-- The points with `AirlineBaggage[a]`. -/
def holdsAirline (a : Int) (h : CargoHandler) : Bool :=
  match h.point with
  | .leaving | .counting | .counted _ | .weighing => h.temp.airline = a
  | _ => false

/-- It has taken a bag of airline `a` off the conveyor and not counted it. -/
def carries (a : Int) (h : CargoHandler) : Bool :=
  match h.point with
  | .testing => h.temp.weight ≠ 0 ∧ h.temp.airline = a
  | .loading | .leaving | .counting | .counted _ => h.temp.airline = a
  | _ => false

end CargoHandler

/-- The conveyor with `m` officers and `n` handlers. -/
structure Conveyor (m n : Nat) where
  conveyor : Slot → Place
  baggageLock : Option (Fin m)
  cargoHandlerLock : Option (Fin n)
  airlineBaggage : Int → Option (Fin n)
  aircraftBaggageCount : Int → Int
  aircraftBaggageWeight : Int → Int
  /-- The bags of an airline that officers have put on the conveyor. -/
  put : Int → Int
  officer : Fin m → DropPoint
  handler : Fin n → CargoHandler

/-- Whose step it is; `bag` is what a passenger brings to an officer that has no bag. -/
inductive ConveyorTurn (m n : Nat)
  | officer (o : Fin m) (bag : Baggage)
  | handler (h : Fin n)
  deriving DecidableEq, Repr

namespace Conveyor

variable {m n : Nat}

/-- The conveyor as `setupBaggageAndCargo` leaves it; `temp.airline` is not set yet. -/
def start (m n : Nat) : Conveyor m n where
  conveyor := fun _ => ⟨0, -1, -1⟩
  baggageLock := none
  cargoHandlerLock := none
  airlineBaggage := fun _ => none
  aircraftBaggageCount := fun _ => 0
  aircraftBaggageWeight := fun _ => 0
  put := fun _ => 0
  officer := fun _ => .idle
  handler := fun _ => ⟨.beginning, ⟨0, 0⟩, false, fun _ => 0, fun _ => 0⟩

/-- An officer goes on to another point. -/
def go (s : Conveyor m n) (o : Fin m) (q : DropPoint) : Conveyor m n :=
  { s with officer := Function.update s.officer o q }

/-- A handler goes on. -/
def post (s : Conveyor m n) (h : Fin n) (x : CargoHandler) : Conveyor m n :=
  { s with handler := Function.update s.handler h x }

/-- A place of the conveyor changes. -/
def setPlace (s : Conveyor m n) (i : Slot) (c : Place) : Conveyor m n :=
  { s with conveyor := Function.update s.conveyor i c }

/-- A bag of airline `a` has been put. -/
def countPut (s : Conveyor m n) (a : Int) : Conveyor m n :=
  { s with put := Function.update s.put a (s.put a + 1) }

/-- A step of an officer. -/
def officerStep (o : Fin m) (bag : Baggage) (s : Conveyor m n) : Except Idle (Conveyor m n) :=
  match s.officer o with
  | .idle => .ok (s.go o (.arriving bag))
  | .arriving b =>
      if s.baggageLock = none ∨ s.baggageLock = some o then
        .ok { s.go o (.looking b 0) with baggageLock := some o }
      else .error .blocked
  | .looking b y =>
      if hy : y < 18 then
        .ok (s.go o (if (s.conveyor ⟨y, hy⟩).weight = 0 then .storing b ⟨y, hy⟩
          else .looking b (y + 1)))
      else .ok ((s.countPut b.airline).go o .leaving)
  | .storing b y =>
      .ok (((s.setPlace y ((s.conveyor y).store b)).countPut b.airline).go o (.marking b y))
  | .marking b y =>
      .ok ((s.setPlace y ((s.conveyor y).mark b.airline)).go o .leaving)
  | .leaving => .ok { s.go o .idle with baggageLock := none }

/-- A step of a handler. -/
def handlerStep (h : Fin n) (s : Conveyor m n) : Except Idle (Conveyor m n) :=
  let self := s.handler h
  match self.point with
  | .beginning =>
      if s.cargoHandlerLock = none ∨ s.cargoHandlerLock = some h then
        .ok { s.post h ((self.setBreak false).goTo (.looking 0)) with cargoHandlerLock := some h }
      else .error .blocked
  | .looking i =>
      if hi : i < 18 then
        .ok (s.post h (self.goTo (if (s.conveyor ⟨i, hi⟩).weight ≠ 0 then .copying ⟨i, hi⟩
          else .looking (i + 1))))
      else .ok (s.post h (self.goTo .testing))
  | .copying i => .ok (s.post h ((self.copyWeight (s.conveyor i).weight).goTo (.copied i)))
  | .copied i => .ok (s.post h ((self.copyAirline (s.conveyor i).airline).goTo (.emptying i)))
  | .emptying i => .ok ((s.setPlace i (s.conveyor i).empty).post h (self.goTo .testing))
  | .testing =>
      if self.temp.weight = 0 then
        .ok { s.post h ((self.setBreak true).goTo .waiting) with cargoHandlerLock := none }
      else .ok (s.post h (self.goTo .loading))
  | .waiting =>
      -- the `continue` behind the `Wait` keeps the lock
      if s.cargoHandlerLock = none then
        .ok { s.post h (self.goTo .beginning) with cargoHandlerLock := some h }
      else .error .blocked
  | .loading =>
      let a := self.temp.airline
      if s.airlineBaggage a = none ∨ s.airlineBaggage a = some h then
        .ok { s.post h (self.goTo .leaving) with
          airlineBaggage := Function.update s.airlineBaggage a (some h) }
      else .error .blocked
  | .leaving => .ok { s.post h (self.goTo .counting) with cargoHandlerLock := none }
  | .counting =>
      .ok (s.post h (self.goTo (.counted (s.aircraftBaggageCount self.temp.airline))))
  | .counted v =>
      .ok { s.post h (self.goTo .weighing) with
        aircraftBaggageCount := Function.update s.aircraftBaggageCount self.temp.airline (v + 1) }
  | .weighing =>
      -- `AirlineBaggage[a]` guards the weight of the plane, and the rest is the handler's own
      let a := self.temp.airline
      .ok { s.post h (self.enter.goTo .beginning) with
        aircraftBaggageWeight := Function.update s.aircraftBaggageWeight a
          (s.aircraftBaggageWeight a + self.temp.weight)
        airlineBaggage := Function.update s.airlineBaggage a none }

/-- A step of the conveyor. -/
def step : ConveyorTurn m n → Conveyor m n → Except Idle (Conveyor m n)
  | .officer o bag, s => officerStep o bag s
  | .handler h, s => handlerStep h s

section Accounts

/-- The bags of airline `a` on the conveyor. -/
def onConveyor (s : Conveyor m n) (a : Int) : Nat :=
  headcount (fun c : Place => c.weight ≠ 0 ∧ c.bagAirline = a) s.conveyor

/-- The bags of airline `a` that handlers have taken off and not counted. -/
def inHands (s : Conveyor m n) (a : Int) : Nat :=
  headcount (fun h : CargoHandler => h.carries a = true) s.handler

/-- Every bag that has been put is on the conveyor, in the hands of a handler or loaded. -/
def Balanced (s : Conveyor m n) : Prop :=
  ∀ a, s.put a = s.onConveyor a + s.inHands a + s.aircraftBaggageCount a

/-- No officer is between the stores of a bag, and no handler has a bag in its hands. -/
def Quiet (s : Conveyor m n) : Prop :=
  (∀ o b y, s.officer o ≠ .marking b y) ∧ ∀ h a, (s.handler h).carries a = false

/-- The bags that have been put are on the conveyor or loaded. -/
def Agrees (s : Conveyor m n) : Prop :=
  ∀ a, s.put a = (headcount (fun c : Place => c.weight ≠ 0 ∧ c.airline = a) s.conveyor : Nat) +
    s.aircraftBaggageCount a

/-- A step does no harm: an officer finds a free place, and its bag weighs something; a handler that
finds no bag has none in `temp`, and what it takes off is the bag that was put there. -/
def Careful (s : Conveyor m n) : ConveyorTurn m n → Prop
  | .officer o _ =>
      (∀ b y, s.officer o = .looking b y → y < 18) ∧
        ∀ b y, s.officer o = .storing b y → b.weight ≠ 0
  | .handler h =>
      (∀ i, (s.handler h).point = .looking i → i < 18 ∨ (s.handler h).temp.weight = 0) ∧
        ∀ i, (s.handler h).point = .emptying i →
          (s.handler h).temp.airline = (s.conveyor i).bagAirline

end Accounts

section Moves

variable {s s' : Conveyor m n} {o : Fin m} {h : Fin n}

/-- What a step of an officer does. -/
inductive OfficerMove (s : Conveyor m n) (o : Fin m) : Conveyor m n → Prop
  | arrive (b : Baggage) (hat : s.officer o = .idle) : OfficerMove s o (s.go o (.arriving b))
  | begin (b : Baggage) (hat : s.officer o = .arriving b)
      (hfree : s.baggageLock = none ∨ s.baggageLock = some o) :
      OfficerMove s o { s.go o (.looking b 0) with baggageLock := some o }
  | find (b : Baggage) (y : Slot) (hat : s.officer o = .looking b y)
      (hempty : (s.conveyor y).weight = 0) : OfficerMove s o (s.go o (.storing b y))
  | next (b : Baggage) (y : Nat) (hat : s.officer o = .looking b y) (hy : y < 18) :
      OfficerMove s o (s.go o (.looking b (y + 1)))
  | forget (b : Baggage) (y : Nat) (hat : s.officer o = .looking b y) (hy : ¬ y < 18) :
      OfficerMove s o ((s.countPut b.airline).go o .leaving)
  | store (b : Baggage) (y : Slot) (hat : s.officer o = .storing b y) :
      OfficerMove s o (((s.setPlace y ((s.conveyor y).store b)).countPut b.airline).go o
        (.marking b y))
  | mark (b : Baggage) (y : Slot) (hat : s.officer o = .marking b y) :
      OfficerMove s o ((s.setPlace y ((s.conveyor y).mark b.airline)).go o .leaving)
  | leave (hat : s.officer o = .leaving) :
      OfficerMove s o { s.go o .idle with baggageLock := none }

theorem officerStep_move {bag : Baggage} (hstep : officerStep o bag s = .ok s') :
    OfficerMove s o s' := by
  unfold officerStep at hstep
  cases hat : s.officer o
  all_goals simp only [hat] at hstep
  case idle =>
    obtain rfl := Except.ok.inj hstep
    exact .arrive bag hat
  case arriving b =>
    split at hstep
    · rename_i hfree
      obtain rfl := Except.ok.inj hstep
      exact .begin b hat hfree
    · exact absurd hstep (by simp)
  case looking b y =>
    split at hstep
    · rename_i hy
      obtain rfl := Except.ok.inj hstep
      by_cases hempty : (s.conveyor ⟨y, hy⟩).weight = 0
      · rw [if_pos hempty]
        exact .find b ⟨y, hy⟩ hat hempty
      · rw [if_neg hempty]
        exact .next b y hat hy
    · rename_i hy
      obtain rfl := Except.ok.inj hstep
      exact .forget b y hat hy
  case storing b y =>
    obtain rfl := Except.ok.inj hstep
    exact .store b y hat
  case marking b y =>
    obtain rfl := Except.ok.inj hstep
    exact .mark b y hat
  case leaving =>
    obtain rfl := Except.ok.inj hstep
    exact .leave hat

/-- What a step of a handler does. -/
inductive HandlerMove (s : Conveyor m n) (h : Fin n) : Conveyor m n → Prop
  | begin (hat : (s.handler h).point = .beginning)
      (hfree : s.cargoHandlerLock = none ∨ s.cargoHandlerLock = some h) :
      HandlerMove s h { s.post h (((s.handler h).setBreak false).goTo (.looking 0)) with
        cargoHandlerLock := some h }
  | find (i : Slot) (hat : (s.handler h).point = .looking i) (hfull : (s.conveyor i).weight ≠ 0) :
      HandlerMove s h (s.post h ((s.handler h).goTo (.copying i)))
  | next (i : Nat) (hat : (s.handler h).point = .looking i) (hi : i < 18) :
      HandlerMove s h (s.post h ((s.handler h).goTo (.looking (i + 1))))
  | miss (i : Nat) (hat : (s.handler h).point = .looking i) (hi : ¬ i < 18) :
      HandlerMove s h (s.post h ((s.handler h).goTo .testing))
  | copyWeight (i : Slot) (hat : (s.handler h).point = .copying i) :
      HandlerMove s h (s.post h
        (((s.handler h).copyWeight (s.conveyor i).weight).goTo (.copied i)))
  | copyAirline (i : Slot) (hat : (s.handler h).point = .copied i) :
      HandlerMove s h (s.post h
        (((s.handler h).copyAirline (s.conveyor i).airline).goTo (.emptying i)))
  | empty (i : Slot) (hat : (s.handler h).point = .emptying i) :
      HandlerMove s h ((s.setPlace i (s.conveyor i).empty).post h ((s.handler h).goTo .testing))
  | rest (hat : (s.handler h).point = .testing) (htemp : (s.handler h).temp.weight = 0) :
      HandlerMove s h { s.post h (((s.handler h).setBreak true).goTo .waiting) with
        cargoHandlerLock := none }
  | take (hat : (s.handler h).point = .testing) (htemp : (s.handler h).temp.weight ≠ 0) :
      HandlerMove s h (s.post h ((s.handler h).goTo .loading))
  | wake (hat : (s.handler h).point = .waiting) (hfree : s.cargoHandlerLock = none) :
      HandlerMove s h { s.post h ((s.handler h).goTo .beginning) with cargoHandlerLock := some h }
  | load (hat : (s.handler h).point = .loading)
      (hfree : s.airlineBaggage (s.handler h).temp.airline = none ∨
        s.airlineBaggage (s.handler h).temp.airline = some h) :
      HandlerMove s h { s.post h ((s.handler h).goTo .leaving) with
        airlineBaggage :=
          Function.update s.airlineBaggage (s.handler h).temp.airline (some h) }
  | leave (hat : (s.handler h).point = .leaving) :
      HandlerMove s h { s.post h ((s.handler h).goTo .counting) with cargoHandlerLock := none }
  | count (hat : (s.handler h).point = .counting) :
      HandlerMove s h (s.post h ((s.handler h).goTo
        (.counted (s.aircraftBaggageCount (s.handler h).temp.airline))))
  | counted (v : Int) (hat : (s.handler h).point = .counted v) :
      HandlerMove s h { s.post h ((s.handler h).goTo .weighing) with
        aircraftBaggageCount :=
          Function.update s.aircraftBaggageCount (s.handler h).temp.airline (v + 1) }
  | weigh (weight : Int → Int) (hat : (s.handler h).point = .weighing) :
      HandlerMove s h { s.post h ((s.handler h).enter.goTo .beginning) with
        aircraftBaggageWeight := weight
        airlineBaggage := Function.update s.airlineBaggage (s.handler h).temp.airline none }

theorem handlerStep_move (hstep : handlerStep h s = .ok s') : HandlerMove s h s' := by
  unfold handlerStep at hstep
  cases hat : (s.handler h).point
  all_goals simp only [hat] at hstep
  case beginning =>
    split at hstep
    · rename_i hfree
      obtain rfl := Except.ok.inj hstep
      exact .begin hat hfree
    · exact absurd hstep (by simp)
  case looking i =>
    split at hstep
    · rename_i hi
      obtain rfl := Except.ok.inj hstep
      by_cases hfull : (s.conveyor ⟨i, hi⟩).weight ≠ 0
      · rw [if_pos hfull]
        exact .find ⟨i, hi⟩ hat hfull
      · rw [if_neg hfull]
        exact .next i hat hi
    · rename_i hi
      obtain rfl := Except.ok.inj hstep
      exact .miss i hat hi
  case copying i =>
    obtain rfl := Except.ok.inj hstep
    exact .copyWeight i hat
  case copied i =>
    obtain rfl := Except.ok.inj hstep
    exact .copyAirline i hat
  case emptying i =>
    obtain rfl := Except.ok.inj hstep
    exact .empty i hat
  case testing =>
    split at hstep
    · rename_i htemp
      obtain rfl := Except.ok.inj hstep
      exact .rest hat htemp
    · rename_i htemp
      obtain rfl := Except.ok.inj hstep
      exact .take hat htemp
  case waiting =>
    split at hstep
    · rename_i hfree
      obtain rfl := Except.ok.inj hstep
      exact .wake hat hfree
    · exact absurd hstep (by simp)
  case loading =>
    split at hstep
    · rename_i hfree
      obtain rfl := Except.ok.inj hstep
      exact .load hat hfree
    · exact absurd hstep (by simp)
  case leaving =>
    obtain rfl := Except.ok.inj hstep
    exact .leave hat
  case counting =>
    obtain rfl := Except.ok.inj hstep
    exact .count hat
  case counted v =>
    obtain rfl := Except.ok.inj hstep
    exact .counted v hat
  case weighing =>
    obtain rfl := Except.ok.inj hstep
    exact .weigh _ hat

end Moves

end Conveyor

end Test
end Nachos
