import Nachos.Airport.Cargo
import Nachos.Airport.Gates
import Nachos.Airport.Tickets

/-!
# The airport simulation of `threads/threadtest.cc`

The hall of the liaisons, the check-in counters, the cargo handlers and the gates together, with
`AirportManager::DoWork` and `AirportManager::EndOfDay`.

Screening and security use none of the variables here: between the counters and the gate a
passenger may take any time.  So the runs here include those of the program, whatever happens to
its passengers on the way.

The manager tests the counters of an airline without any lock, and takes `gateLocks` only then.
`Broadcast` is a loop of `Signal`s, each of which is a step.
-/

namespace Nachos
namespace Airport

open Lib

/-- Where the airport manager is in `DoWork`. -/
inductive ManagerPoint
  /-- Before the test of the conveyor, before `CargoHandlerLock->Acquire()` and behind it. -/
  | beginning
  | asking
  | counting
  /-- In `CargoHandlerCV->Broadcast`, and behind it. -/
  | waking
  | woken
  /-- Before the test of airline `i`. -/
  | checking (i : Nat)
  /-- Before `gateLocks[i]->Acquire()`, behind it, and in the rounds of `Broadcast`. -/
  | opening (i : Nat)
  | announcing (i : Nat)
  | calling (i : Nat)
  /-- Behind `Broadcast`, and behind `gateLocks[i]->Release()`. -/
  | closing (i : Nat)
  | closed (i : Nat)
  /-- Before `EndOfDay()`, and behind it. -/
  | ending
  | finished
  deriving DecidableEq, Repr

namespace ManagerPoint

/-- The gate whose lock the manager has. -/
@[simp]
def gate : ManagerPoint → Option Nat
  | announcing i | calling i | closing i => some i
  | _ => none

/-- The manager has woken passengers, or found nobody to wake, at gate `a`. -/
@[simp]
def hasCalled (a : Nat) : ManagerPoint → Bool
  | calling i | closing i => i = a
  | _ => false

/-- The planes that have been called and not counted. -/
@[simp]
def uncounted : ManagerPoint → Nat
  | closed _ => 1
  | _ => 0

/-- The points outside of the boarding calls and of the end of the day. -/
@[simp]
def routine : ManagerPoint → Bool
  | beginning | asking | counting | waking | woken | checking _ => true
  | _ => false

/-- The airline that the manager has found ready to board. -/
@[simp]
def attends : ManagerPoint → Option Nat
  | opening i | announcing i | calling i | closing i => some i
  | _ => none

end ManagerPoint

/-- What `EndOfDay` reports. -/
structure Report where
  liaisonPassengerCount : Nat
  checkInPassengerCount : Nat
  liaisonTotalCount : Nat → Nat
  cioTotalWeight : Nat → Nat
  cargoHandlerTotalCount : Nat → Nat
  cargoHandlerTotalWeight : Nat → Nat

/-- The simulation. -/
structure Simulation (cfg : Settings) where
  hall : Hall cfg
  counters : Counters cfg
  hold : Hold cfg
  lounge : Lounge cfg
  alreadyBoarded : Nat → Bool
  planeCount : Nat
  manager : ManagerPoint
  report : Option Report

namespace Simulation

/-- Who makes the next step, and what it draws: `junk` is what an uninitialized counter holds, and
`draw` what `rand()` gives. -/
inductive Turn (cfg : Settings)
  | passenger (p : cfg.Passenger) (junk : Int)
  | liaison (l draw : Nat)
  | officer (k : Nat)
  | handler (h : cfg.Handler)
  | manager
  deriving DecidableEq, Repr

variable {cfg : Settings}

/-- The simulation as `setup` leaves it. -/
def start (cfg : Settings) : Simulation cfg where
  hall := .start cfg
  counters := .start cfg
  hold := .start cfg
  lounge := .start cfg
  alreadyBoarded := fun _ => false
  planeCount := 0
  manager := .beginning
  report := none

/-- The manager goes on to another point. -/
def direct (s : Simulation cfg) (q : ManagerPoint) : Simulation cfg := { s with manager := q }

/-- The loop that counts the handlers on a break. -/
def breakCount (s : Simulation cfg) : Nat :=
  (List.finRange cfg.simNumOfCargoHandlers).foldl
    (fun count h => if (s.hold.handler h).onBreak then count + 1 else count) 0

/-- The test for a boarding call. -/
def ReadyToBoard (s : Simulation cfg) (i : Nat) : Prop :=
  s.lounge.boardingLounges i = cfg.totalPassengersOfAirline i ∧
    s.hall.totalBaggage i = s.hold.aircraftBaggageCount i ∧ s.alreadyBoarded i = false

instance (s : Simulation cfg) (i : Nat) : Decidable (s.ReadyToBoard i) :=
  inferInstanceAs (Decidable (_ ∧ _ ∧ _))

/-- The loops of `EndOfDay`. -/
def endOfDay (s : Simulation cfg) : Report where
  liaisonPassengerCount := (List.range cfg.simNumOfLiaisons).foldl
    (fun total l => total + (s.hall.liaison l).passengerCount) 0
  checkInPassengerCount := (List.range cfg.counters).foldl
    (fun total k => total + (s.counters.officer k).passengerCount) 0
  liaisonTotalCount := fun a => (List.range cfg.simNumOfLiaisons).foldl
    (fun total l => total + (s.hall.liaison l).airlineBaggageCount a) 0
  cioTotalWeight := (List.range cfg.counters).foldl
    (fun totals k => (s.counters.officer k).totalBags.foldl
      (fun totals b => Function.update totals b.airlineCode (totals b.airlineCode + b.weight)) totals)
    fun _ => 0
  cargoHandlerTotalCount := fun a => (List.finRange cfg.simNumOfCargoHandlers).foldl
    (fun total h => total + (s.hold.handler h).count a) 0
  cargoHandlerTotalWeight := fun a => (List.finRange cfg.simNumOfCargoHandlers).foldl
    (fun total h => total + (s.hold.handler h).weight a) 0

/-- A round of `gateLocksCV[i]->Broadcast(gateLocks[i])`. -/
def callNext (s : Simulation cfg) (i : Nat) : Simulation cfg :=
  if s.lounge.gateLocksCV i = [] then s.direct (.closing i)
  else { s with lounge := s.lounge.signal i }.direct (.calling i)

/-- A step of the manager. -/
def managerStep (s : Simulation cfg) : Except Stop (Simulation cfg) :=
  match s.manager with
  | .beginning =>
      if s.counters.conveyor ≠ [] ∧ cfg.simNumOfCargoHandlers ≠ 0 then .ok (s.direct .asking)
      else .ok (s.direct (.checking 0))
  | .asking => do .ok ({ s with hold := ← s.hold.acquireCargo .manager }.direct .counting)
  | .counting =>
      .ok (s.direct (if s.breakCount = cfg.simNumOfCargoHandlers then .waking else .woken))
  | .waking =>
      match s.hold.cargoHandlerCV with
      | [] => .ok (s.direct .woken)
      | _ :: rest => .ok ({ s with hold := { s.hold with cargoHandlerCV := rest } }.direct .waking)
  | .woken => .ok ({ s with hold := s.hold.releaseCargo }.direct (.checking 0))
  | .checking i =>
      if i < cfg.simNumOfAirlines then
        .ok (s.direct (if s.ReadyToBoard i then .opening i else .checking (i + 1)))
      else .ok (s.direct (if s.planeCount = cfg.simNumOfAirlines then .ending else .beginning))
  | .opening i =>
      do .ok ({ s with lounge := ← s.lounge.acquireGate i .manager }.direct (.announcing i))
  | .announcing i | .calling i => .ok (s.callNext i)
  | .closing i =>
      .ok ({ s with
        alreadyBoarded := Function.update s.alreadyBoarded i true
        lounge := s.lounge.releaseGate i }.direct (.closed i))
  | .closed i => .ok ({ s with planeCount := s.planeCount + 1 }.direct (.checking (i + 1)))
  | .ending => .ok ({ s with report := some s.endOfDay }.direct .finished)
  | .finished => .error .finished

/-- A step of a passenger: in the hall, at the counters or at the gate. -/
def passengerStep (p : cfg.Passenger) (junk : Int) (s : Simulation cfg) :
    Except Stop (Simulation cfg) :=
  if s.hall.passenger p ≠ .directed then do .ok { s with hall := ← s.hall.passengerStep p }
  else if s.counters.passenger p ≠ .left then
    do .ok { s with counters := ← s.counters.passengerStep (s.hall.airline p) junk p }
  else do .ok { s with lounge := ← s.lounge.passengerStep (s.hall.airline p) p }

/-- A step of a handler. -/
def handlerStep (h : cfg.Handler) (s : Simulation cfg) : Except Stop (Simulation cfg) := do
  let (conveyor, hold) ← s.hold.handlerStep h s.counters.conveyor
  .ok { s with counters := { s.counters with conveyor := conveyor }, hold := hold }

/-- A step of the simulation. -/
def step : Turn cfg → Simulation cfg → Except Stop (Simulation cfg)
  | .passenger p junk, s => s.passengerStep p junk
  | .liaison l draw, s =>
      if l < cfg.simNumOfLiaisons then
        do .ok { s with
          hall := ← s.hall.liaisonStep draw (s.planeCount == cfg.simNumOfAirlines) l }
      else .error .noSuchThread
  | .officer k, s =>
      if k < cfg.counters then do .ok { s with counters := ← s.counters.officerStep k }
      else .error .noSuchThread
  | .handler h, s => s.handlerStep h
  | .manager, s => s.managerStep

/-- The states of the runs of the simulation. -/
def Reachable (s : Simulation cfg) : Prop := Reach step (fun _ _ => True) (start cfg) s

end Simulation
end Airport
end Nachos
