import Mathlib.Algebra.GroupWithZero.Nat
import Nachos.Lib.Agents
import Nachos.Lib.Desk
import Nachos.Lib.GuardedRun

/-!
# The liaisons of `threads/threadtest.cc`

The first part of `Passenger::ChooseLiaisonLine`, and `LiaisonOfficer::DoWork`: a passenger
joins the shortest line, is called, says how many bags it has, and is assigned an airline that
has a seat left.

As in the screening, a step is a call of a synchronization primitive or the code before it;
the code before a call that can block is a step of its own.  The loop that draws an airline is
left in one step when the draw has a seat, and goes round in one step when it has not.
-/

namespace Nachos
namespace Airport

open Lib

/-- What `RunSim` asks for, what the constructors of the passengers draw, and what the flags of
the cargo handlers hold that nobody sets. -/
structure Settings where
  simNumOfPassengers : Nat
  simNumOfAirlines : Nat
  simNumOfLiaisons : Nat
  simNumOfCIOs : Nat
  simNumOfCargoHandlers : Nat
  economy : Fin simNumOfPassengers → Bool
  /-- The weights of the bags. -/
  bags : Fin simNumOfPassengers → List Nat
  onBreak : Fin simNumOfCargoHandlers → Bool

namespace Settings

variable (cfg : Settings)

/-- The passengers. -/
abbrev Passenger := Fin cfg.simNumOfPassengers

instance : LawfulBEq cfg.Passenger := inferInstance

instance : LawfulBEq (Option cfg.Passenger) := inferInstance

/-- `totalPassengersOfAirline`, as `setupAirlines` leaves it. -/
def totalPassengersOfAirline (a : Nat) : Nat :=
  if a < cfg.simNumOfAirlines then
    cfg.simNumOfPassengers / cfg.simNumOfAirlines +
      if a = 0 then cfg.simNumOfPassengers % cfg.simNumOfAirlines else 0
  else 0

/-- `baggageCount` of a passenger. -/
def baggageCount (p : cfg.Passenger) : Nat := (cfg.bags p).length

/-- What the bags of a passenger weigh. -/
def baggageWeight (p : cfg.Passenger) : Nat := (cfg.bags p).sum

end Settings

/-- Why a thread makes no step. -/
inductive Stop
  | blocked
  | finished
  /-- A `vector` is used outside of its bounds. -/
  | undefined
  | noSuchThread
  deriving DecidableEq, Repr

/-- Where a passenger is on its way through the first part of `ChooseLiaisonLine`; `l` is its
`myLine`. -/
inductive LiaisonVisit
  /-- Before `liaisonLineLock->Acquire()`, and behind it. -/
  | arriving
  | choosing
  /-- In `liaisonLineCV[l]->Wait`, and behind it. -/
  | inLine (l : Nat)
  | called (l : Nat)
  /-- Behind `liaisonLineLock->Release()`, and behind `liaisonLineLocks[l]->Acquire()`. -/
  | stepping (l : Nat)
  | entered (l : Nat)
  /-- Behind the first `liaisonOfficerCV[l]->Signal`, in the `Wait` and behind it. -/
  | announced (l : Nat)
  | waiting (l : Nat)
  | assigned (l : Nat)
  /-- Behind the second `Signal`, in the `Wait` and behind it. -/
  | thanking (l : Nat)
  | lingering (l : Nat)
  | leaving (l : Nat)
  /-- Behind `liaisonLineLocks[l]->Release()`. -/
  | directed
  deriving DecidableEq, Repr

/-- Where a liaison is in `DoWork`. -/
inductive LiaisonPoint
  /-- Before `liaisonLineLock->Acquire()`, and behind it. -/
  | beginning
  | looking
  /-- Behind `liaisonLineCV->Signal`, `liaisonLineLocks->Acquire()` and
  `liaisonLineLock->Release()`. -/
  | calling
  | opened
  | ready
  /-- In the first `Wait`, behind it, and with the passenger counted. -/
  | expecting
  | informed
  | counted
  /-- With `seatLock`, in the loop, and behind `seatLock->Release()`. -/
  | seating
  | seated
  /-- Behind the `Signal` to the passenger, in the second `Wait` and behind it. -/
  | assigning
  | parting
  | closing
  /-- Behind the last `Signal`. -/
  | locking
  /-- Behind the `Release` of a liaison that has nobody in its line. -/
  | idle
  | finished
  deriving DecidableEq, Repr

namespace LiaisonVisit

/-- The points with `liaisonLineLock`. -/
def holdsLine : LiaisonVisit → Bool
  | choosing | called _ => true
  | _ => false

/-- The points with `liaisonLineLocks[l]`. -/
def holdsLock (l : Nat) : LiaisonVisit → Bool
  | entered k | announced k | assigned k | thanking k | leaving k => k = l
  | _ => false

/-- The passenger has read its airline. -/
def hasAirline : LiaisonVisit → Bool
  | thanking _ | lingering _ | leaving _ | directed => true
  | _ => false

end LiaisonVisit

namespace LiaisonPoint

/-- The points with `liaisonLineLock`. -/
def holdsLine : LiaisonPoint → Bool
  | looking | calling | opened => true
  | _ => false

/-- The points with `liaisonLineLocks[number]`. -/
def holdsLock : LiaisonPoint → Bool
  | opened | ready | informed | counted | seating | seated | assigning | closing | locking => true
  | _ => false

/-- The clerk of the desk. -/
def clerk : LiaisonPoint → Clerk
  | beginning | looking | locking | idle | finished => .away
  | calling => .calling
  | opened | ready => .opened
  | expecting => .expecting
  | informed | counted | seating | seated => .serving
  | assigning => .dismissing
  | parting => .parting
  | closing => .closing

/-- A seat has been found for the passenger. -/
def hasSeat : LiaisonPoint → Bool
  | seated | assigning | parting | closing => true
  | _ => false

end LiaisonPoint

/-- `LPInfo`. -/
structure LiaisonPassengerInfo where
  passengerName : Nat
  baggageCount : Nat
  airline : Nat
  deriving DecidableEq, Repr

/-- A liaison: where it is, and its `info`. -/
structure Liaison where
  point : LiaisonPoint
  airline : Nat
  passengerCount : Nat
  airlineBaggageCount : Nat → Nat

/-- The threads. -/
inductive LiaisonThread (cfg : Settings)
  | passenger (p : cfg.Passenger)
  | liaison (l : Nat)
  deriving DecidableEq, Repr

/-- The globals that the first part of `ChooseLiaisonLine` and the liaisons use.  In
`liaisonOfficerCV[l]` wait passengers, and liaison `l` itself, which is `none` here. -/
structure Hall (cfg : Settings) where
  liaisonLineLock : Option (LiaisonThread cfg)
  liaisonLineCV : Nat → List cfg.Passenger
  liaisonLine : Nat → Nat
  liaisonLineLocks : Nat → Option (LiaisonThread cfg)
  liaisonOfficerCV : Nat → List (Option cfg.Passenger)
  seatLock : Option (LiaisonThread cfg)
  lpInfo : Nat → LiaisonPassengerInfo
  ticketsIssued : Nat → Nat
  liaisonBaggageCount : Nat → Nat
  totalBaggage : Nat → Nat
  totalWeight : Nat → Nat
  /-- `airline` of the passengers. -/
  airline : cfg.Passenger → Nat
  passenger : cfg.Passenger → LiaisonVisit
  liaison : Nat → Liaison

namespace Hall

variable {cfg : Settings}

/-- The hall as `setup` leaves it. -/
def start (cfg : Settings) : Hall cfg where
  liaisonLineLock := none
  liaisonLineCV := fun _ => []
  liaisonLine := fun _ => 0
  liaisonLineLocks := fun _ => none
  liaisonOfficerCV := fun _ => []
  seatLock := none
  lpInfo := fun _ => ⟨0, 0, 0⟩
  ticketsIssued := fun _ => 0
  liaisonBaggageCount := fun _ => 0
  totalBaggage := fun _ => 0
  totalWeight := fun _ => 0
  airline := fun _ => 0
  passenger := fun _ => .arriving
  liaison := fun _ => ⟨.beginning, 0, 0, fun _ => 0⟩

/-- A passenger goes on to another point. -/
def go (s : Hall cfg) (p : cfg.Passenger) (q : LiaisonVisit) : Hall cfg :=
  { s with passenger := Function.update s.passenger p q }

/-- A liaison goes on to another point. -/
def post (s : Hall cfg) (l : Nat) (q : LiaisonPoint) : Hall cfg :=
  { s with liaison := Function.update s.liaison l { s.liaison l with point := q } }

/-- `liaisonLineLock->Acquire()`. -/
def acquireLine (s : Hall cfg) (t : LiaisonThread cfg) : Except Stop (Hall cfg) :=
  if s.liaisonLineLock = none ∨ s.liaisonLineLock = some t then
    .ok { s with liaisonLineLock := some t }
  else .error .blocked

/-- `liaisonLineLock->Release()`. -/
def releaseLine (s : Hall cfg) : Hall cfg := { s with liaisonLineLock := none }

/-- `liaisonLineLocks[l]->Acquire()`. -/
def acquireLock (s : Hall cfg) (l : Nat) (t : LiaisonThread cfg) : Except Stop (Hall cfg) :=
  if s.liaisonLineLocks l = none ∨ s.liaisonLineLocks l = some t then
    .ok { s with liaisonLineLocks := Function.update s.liaisonLineLocks l (some t) }
  else .error .blocked

/-- `liaisonLineLocks[l]->Release()`. -/
def releaseLock (s : Hall cfg) (l : Nat) : Hall cfg :=
  { s with liaisonLineLocks := Function.update s.liaisonLineLocks l none }

/-- `seatLock->Acquire()`. -/
def acquireSeat (s : Hall cfg) (t : LiaisonThread cfg) : Except Stop (Hall cfg) :=
  if s.seatLock = none ∨ s.seatLock = some t then .ok { s with seatLock := some t }
  else .error .blocked

/-- `liaisonOfficerCV[l]->Signal(liaisonLineLocks[l])`. -/
def signal (s : Hall cfg) (l : Nat) : Hall cfg :=
  { s with
    liaisonOfficerCV := Function.update s.liaisonOfficerCV l (s.liaisonOfficerCV l).tail }

/-- `liaisonOfficerCV[l]->Wait(liaisonLineLocks[l])` up to the sleep; `w` is who waits. -/
def wait (s : Hall cfg) (l : Nat) (w : Option cfg.Passenger) : Hall cfg :=
  { s.releaseLock l with
    liaisonOfficerCV := Function.update s.liaisonOfficerCV l (s.liaisonOfficerCV l ++ [w]) }

/-- The end of the `Wait`. -/
def resume (s : Hall cfg) (l : Nat) (w : Option cfg.Passenger) (t : LiaisonThread cfg) :
    Except Stop (Hall cfg) :=
  if w ∈ s.liaisonOfficerCV l then .error .blocked else s.acquireLock l t

/-- The `for` loop that looks for the shortest line. -/
def shortestLine (s : Hall cfg) : Nat :=
  (List.range' 1 (cfg.simNumOfLiaisons - 1)).foldl
    (fun myLine i => if s.liaisonLine i < s.liaisonLine myLine then i else myLine) 0

/-- A passenger joins a line and waits there. -/
def join (s : Hall cfg) (p : cfg.Passenger) (l : Nat) : Hall cfg :=
  { s.releaseLine with
    liaisonLine := Function.update s.liaisonLine l (s.liaisonLine l + 1)
    liaisonLineCV := Function.update s.liaisonLineCV l (s.liaisonLineCV l ++ [p]) }

/-- A passenger puts its name and the number of its bags into `LPInfo`. -/
def inform (s : Hall cfg) (p : cfg.Passenger) (l : Nat) : Hall cfg :=
  { s with
    lpInfo := Function.update s.lpInfo l
      { s.lpInfo l with passengerName := p.val, baggageCount := cfg.baggageCount p } }

/-- A passenger reads its airline, enters its bags and leaves the line. -/
def enroll (s : Hall cfg) (p : cfg.Passenger) (l : Nat) : Hall cfg :=
  let a := (s.lpInfo l).airline
  { s with
    airline := Function.update s.airline p a
    totalBaggage := Function.update s.totalBaggage a (s.totalBaggage a + cfg.baggageCount p)
    totalWeight := Function.update s.totalWeight a (s.totalWeight a + cfg.baggageWeight p)
    liaisonLine := Function.update s.liaisonLine l
      (if 0 < s.liaisonLine l then s.liaisonLine l - 1 else s.liaisonLine l) }

/-- A step of a passenger. -/
def passengerStep (p : cfg.Passenger) (s : Hall cfg) : Except Stop (Hall cfg) :=
  let self : LiaisonThread cfg := .passenger p
  match s.passenger p with
  | .arriving => do .ok ((← s.acquireLine self).go p .choosing)
  | .choosing => .ok ((s.join p s.shortestLine).go p (.inLine s.shortestLine))
  | .inLine l =>
      if p ∈ s.liaisonLineCV l then .error .blocked
      else do .ok ((← s.acquireLine self).go p (.called l))
  | .called l => .ok (s.releaseLine.go p (.stepping l))
  | .stepping l => do .ok ((← s.acquireLock l self).go p (.entered l))
  | .entered l => .ok (((s.inform p l).signal l).go p (.announced l))
  | .announced l => .ok ((s.wait l (some p)).go p (.waiting l))
  | .waiting l => do .ok ((← s.resume l (some p) self).go p (.assigned l))
  | .assigned l => .ok (((s.enroll p l).signal l).go p (.thanking l))
  | .thanking l => .ok ((s.wait l (some p)).go p (.lingering l))
  | .lingering l => do .ok ((← s.resume l (some p) self).go p (.leaving l))
  | .leaving l => .ok ((s.releaseLock l).go p .directed)
  | .directed => .error .finished

/-- A liaison counts a passenger. -/
def count (s : Hall cfg) (l : Nat) : Hall cfg :=
  { s with
    liaison := Function.update s.liaison l
      { s.liaison l with passengerCount := (s.liaison l).passengerCount + 1 } }

/-- A liaison issues a ticket of airline `a`, counts the bags and releases `seatLock`. -/
def issue (s : Hall cfg) (l a : Nat) : Hall cfg :=
  { s with
    seatLock := none
    ticketsIssued := Function.update s.ticketsIssued a (s.ticketsIssued a + 1)
    liaison := Function.update s.liaison l
      { s.liaison l with
        airline := a
        airlineBaggageCount := Function.update (s.liaison l).airlineBaggageCount a
          ((s.liaison l).airlineBaggageCount a + (s.lpInfo l).baggageCount) } }

/-- A draw that has no seat left. -/
def redraw (s : Hall cfg) (l a : Nat) : Hall cfg :=
  { s with liaison := Function.update s.liaison l { s.liaison l with airline := a } }

/-- A liaison tells the passenger its airline. -/
def assign (s : Hall cfg) (l : Nat) : Hall cfg :=
  let a := (s.liaison l).airline
  { s with
    lpInfo := Function.update s.lpInfo l { s.lpInfo l with airline := a }
    liaisonBaggageCount := Function.update s.liaisonBaggageCount a
      (s.liaisonBaggageCount a + (s.lpInfo l).baggageCount) }

/-- A step of a liaison.  `draw` is what `rand()` gives, and `dayOver` whether all planes have
been called. -/
def liaisonStep (draw : Nat) (dayOver : Bool) (l : Nat) (s : Hall cfg) :
    Except Stop (Hall cfg) :=
  let self : LiaisonThread cfg := .liaison l
  match (s.liaison l).point with
  | .beginning => do .ok ((← s.acquireLine self).post l .looking)
  | .looking =>
      if 0 < s.liaisonLine l then
        .ok ({ s with
          liaisonLineCV := Function.update s.liaisonLineCV l (s.liaisonLineCV l).tail
          }.post l .calling)
      else .ok (s.releaseLine.post l .idle)
  | .calling => do .ok ((← s.acquireLock l self).post l .opened)
  | .opened => .ok (s.releaseLine.post l .ready)
  | .ready => .ok ((s.wait l none).post l .expecting)
  | .expecting => do .ok ((← s.resume l none self).post l .informed)
  | .informed => .ok ((s.count l).post l .counted)
  | .counted => do .ok ((← s.acquireSeat self).post l .seating)
  | .seating =>
      let a := draw % cfg.simNumOfAirlines
      if s.ticketsIssued a < cfg.totalPassengersOfAirline a then
        .ok ((s.issue l a).post l .seated)
      else .ok (s.redraw l a)
  | .seated => .ok (((s.assign l).signal l).post l .assigning)
  | .assigning => .ok ((s.wait l none).post l .parting)
  | .parting => do .ok ((← s.resume l none self).post l .closing)
  | .closing => .ok ((s.signal l).post l .locking)
  | .locking => .ok ((s.releaseLock l).post l .beginning)
  | .idle => .ok (s.post l (if dayOver then .finished else .beginning))
  | .finished => .error .finished

end Hall

end Airport
end Nachos
