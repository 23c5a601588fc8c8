import Nachos.Airport.Liaisons

/-!
# The check-in counters of `threads/threadtest.cc`

The second part of `Passenger::ChooseLiaisonLine`, and `CheckInOfficer::DoWork`.  Each airline
has `simNumOfCIOs` check-in officers with a line each, and one line for its executive
passengers, which any of its officers can call from; the officer leaves its number in the
`CPInfo` of that line.  A passenger puts its bags into the `CPInfo` of the officer, and the
officer puts them on the conveyor one by one.

The lines of officer `k` are `k`, and `simNumOfAirlines * simNumOfCIOs + k / simNumOfCIOs` for
executive passengers.
-/

namespace Nachos
namespace Airport

open Lib

/-- A bag. -/
structure Baggage where
  airlineCode : Nat
  weight : Nat
  deriving DecidableEq, Repr

/-- Where a passenger is on its way through the second part of `ChooseLiaisonLine`; `k` is its
`myLine`. -/
inductive CheckInVisit
  /-- Before `CheckInLock->Acquire()`, and behind it. -/
  | arriving
  | choosing
  /-- In the loop that signals the officers that may be on a break; `i` is the next one. -/
  | ringing (k i : Nat)
  /-- Before `CheckInCV[k]->Wait(CheckInLock)`, in it and behind it. -/
  | queueing (k : Nat)
  | inLine (k : Nat)
  | called (k : Nat)
  /-- With the number of the officer, and behind `CheckInLocks[k]->Acquire()` and
  `CheckInLock->Release()`. -/
  | told (k : Nat)
  | entering (k : Nat)
  | entered (k : Nat)
  /-- Behind the first `CheckInOfficerCV[k]->Signal`, in the `Wait` and behind it. -/
  | handed (k : Nat)
  | waiting (k : Nat)
  | served (k : Nat)
  /-- Behind the second `Signal`, and behind `CheckInLocks[k]->Release()`. -/
  | leaving (k : Nat)
  | left
  deriving DecidableEq, Repr

/-- Where a check-in officer is in `DoWork`; `helped` is `helpedExecLine`. -/
inductive CounterPoint
  /-- Before `CheckInLock->Acquire()`, and behind it. -/
  | beginning
  | looking
  /-- In `CheckInBreakCV->Wait(CheckInLock)`, and behind it. -/
  | onBreak
  | back
  /-- Behind the `Signal` to the executive line, and behind that to its own line. -/
  | callingExec
  | callingEconomy
  /-- With the passenger counted, behind `CheckInLocks->Acquire()` and `CheckInLock->Release()`. -/
  | counted (helped : Bool)
  | opened (helped : Bool)
  | ready (helped : Bool)
  /-- In the first `Wait`, and behind it. -/
  | expecting (helped : Bool)
  | informed (helped : Bool)
  /-- Before bag `i`, with `BaggageLock`, and behind `BaggageLock->Release()`. -/
  | loading (i : Nat)
  | dropping (i : Nat)
  | dropped (i : Nat)
  /-- Behind the `Signal` to the passenger, in the second `Wait` and behind it. -/
  | informing
  | parting
  | closing
  deriving DecidableEq, Repr

/-- `CPInfo`; the seat, which nobody assigns, is left out. -/
structure CheckInPassengerInfo where
  baggageCount : Nat
  passenger : Nat
  isEconomy : Bool
  gate : Nat
  line : Nat
  bag : List Baggage
  deriving DecidableEq, Repr

/-- A check-in officer: where it is, its flag, its `info` and its `totalBags`. -/
structure CheckInOfficer where
  point : CounterPoint
  onBreak : Bool
  passengerCount : Nat
  bags : List Baggage
  totalBags : List Baggage
  deriving DecidableEq, Repr

/-- The threads. -/
inductive CheckInThread (cfg : Settings)
  | passenger (p : cfg.Passenger)
  | officer (k : Nat)
  deriving DecidableEq, Repr

/-- The globals that the second part of `ChooseLiaisonLine` and the check-in officers use.  In
`CheckInOfficerCV[k]` wait passengers, and officer `k` itself, which is `none` here. -/
structure Counters (cfg : Settings) where
  checkInLock : Option (CheckInThread cfg)
  checkInCV : Nat → List cfg.Passenger
  checkInBreakCV : Nat → List Nat
  checkInLine : Nat → Nat
  checkInLocks : Nat → Option (CheckInThread cfg)
  checkInOfficerCV : Nat → List (Option cfg.Passenger)
  execLineNeedsHelp : Nat → Bool
  cpInfo : Nat → CheckInPassengerInfo
  baggageLock : Option (CheckInThread cfg)
  conveyor : List Baggage
  passenger : cfg.Passenger → CheckInVisit
  officer : Nat → CheckInOfficer

namespace Settings

variable (cfg : Settings)

/-- The number of check-in officers. -/
def counters : Nat := cfg.simNumOfAirlines * cfg.simNumOfCIOs

/-- The airline of officer `k`. -/
def airlineOf (k : Nat) : Nat := k / cfg.simNumOfCIOs

/-- The executive line of an airline. -/
def execLine (a : Nat) : Nat := cfg.counters + a

end Settings

namespace Counters

variable {cfg : Settings}

/-- The counters as `setup` leaves them. -/
def start (cfg : Settings) : Counters cfg where
  checkInLock := none
  checkInCV := fun _ => []
  checkInBreakCV := fun _ => []
  checkInLine := fun _ => 0
  checkInLocks := fun _ => none
  checkInOfficerCV := fun _ => []
  execLineNeedsHelp := fun _ => true
  cpInfo := fun _ => ⟨0, 0, false, 0, 0, []⟩
  baggageLock := none
  conveyor := []
  passenger := fun _ => .arriving
  officer := fun _ => ⟨.beginning, false, 0, [], []⟩

/-- A passenger goes on to another point. -/
def go (s : Counters cfg) (p : cfg.Passenger) (q : CheckInVisit) : Counters cfg :=
  { s with passenger := Function.update s.passenger p q }

/-- An officer goes on to another point. -/
def post (s : Counters cfg) (k : Nat) (q : CounterPoint) : Counters cfg :=
  { s with officer := Function.update s.officer k { s.officer k with point := q } }

/-- `CheckInLock->Acquire()`. -/
def acquireLine (s : Counters cfg) (t : CheckInThread cfg) : Except Stop (Counters cfg) :=
  if s.checkInLock = none ∨ s.checkInLock = some t then .ok { s with checkInLock := some t }
  else .error .blocked

/-- `CheckInLock->Release()`. -/
def releaseLine (s : Counters cfg) : Counters cfg := { s with checkInLock := none }

/-- `CheckInLocks[k]->Acquire()`. -/
def acquireLock (s : Counters cfg) (k : Nat) (t : CheckInThread cfg) :
    Except Stop (Counters cfg) :=
  if s.checkInLocks k = none ∨ s.checkInLocks k = some t then
    .ok { s with checkInLocks := Function.update s.checkInLocks k (some t) }
  else .error .blocked

/-- `CheckInLocks[k]->Release()`. -/
def releaseLock (s : Counters cfg) (k : Nat) : Counters cfg :=
  { s with checkInLocks := Function.update s.checkInLocks k none }

/-- `BaggageLock->Acquire()`. -/
def acquireBaggage (s : Counters cfg) (t : CheckInThread cfg) : Except Stop (Counters cfg) :=
  if s.baggageLock = none ∨ s.baggageLock = some t then .ok { s with baggageLock := some t }
  else .error .blocked

/-- `CheckInOfficerCV[k]->Signal(CheckInLocks[k])`. -/
def signal (s : Counters cfg) (k : Nat) : Counters cfg :=
  { s with
    checkInOfficerCV := Function.update s.checkInOfficerCV k (s.checkInOfficerCV k).tail }

/-- `CheckInOfficerCV[k]->Wait(CheckInLocks[k])` up to the sleep; `w` is who waits. -/
def wait (s : Counters cfg) (k : Nat) (w : Option cfg.Passenger) : Counters cfg :=
  { s.releaseLock k with
    checkInOfficerCV := Function.update s.checkInOfficerCV k (s.checkInOfficerCV k ++ [w]) }

/-- The end of the `Wait`. -/
def resume (s : Counters cfg) (k : Nat) (w : Option cfg.Passenger) (t : CheckInThread cfg) :
    Except Stop (Counters cfg) :=
  if w ∈ s.checkInOfficerCV k then .error .blocked else s.acquireLock k t

/-- `CheckInBreakCV[k]->Signal(CheckInLock)`. -/
def ring (s : Counters cfg) (k : Nat) : Counters cfg :=
  { s with checkInBreakCV := Function.update s.checkInBreakCV k (s.checkInBreakCV k).tail }

/-- The line a passenger joins: that of its airline for executive passengers, or else the
shortest one of the officers of its airline. -/
def lineFor (s : Counters cfg) (a : Nat) (p : cfg.Passenger) : Nat :=
  if cfg.economy p then
    (List.range' (a * cfg.simNumOfCIOs) cfg.simNumOfCIOs).foldl
      (fun myLine i => if s.checkInLine i < s.checkInLine myLine then i else myLine)
      (a * cfg.simNumOfCIOs)
  else cfg.execLine a

/-- A passenger joins a line, and rings if it is the first there. -/
def join (s : Counters cfg) (p : cfg.Passenger) (k : Nat) : Counters cfg :=
  let t := { s with checkInLine := Function.update s.checkInLine k (s.checkInLine k + 1) }
  if t.checkInLine k = 1 then
    if cfg.economy p then (t.ring k).go p (.queueing k) else t.go p (.ringing k 0)
  else t.go p (.queueing k)

/-- `CheckInCV[k]->Wait(CheckInLock)` up to the sleep. -/
def queue (s : Counters cfg) (p : cfg.Passenger) (k : Nat) : Counters cfg :=
  { s.releaseLine with
    checkInCV := Function.update s.checkInCV k (s.checkInCV k ++ [p]) }.go p (.inLine k)

/-- A round of the loop that rings for executive passengers. -/
def ringNext (s : Counters cfg) (a : Nat) (p : cfg.Passenger) (k i : Nat) : Counters cfg :=
  if i < cfg.simNumOfCIOs then
    let t := if s.checkInLine (a * cfg.simNumOfCIOs + i) = 0 then
      s.ring (a * cfg.simNumOfCIOs + i) else s
    t.go p (.ringing k (i + 1))
  else s.go p (.queueing k)

/-- The loop that takes bags off the end of a vector of `n` bags.  Its counter is not set before
the loop; if it is negative, the loop goes on when the vector is empty. -/
def popBags : Nat → Int → List Baggage → Option (List Baggage)
  | 0, i, bag => if i < 0 then none else some bag
  | n + 1, i, bag => if i < n + 1 then popBags n (i + 1) bag.dropLast else some bag

/-- The loop that puts a passenger's bags into the vector: a new bag comes to the end, and bag
`i` gets the weight. -/
def pushBags : List Nat → Nat → List Baggage → List Baggage
  | [], _, bag => bag
  | w :: weights, i, bag =>
      pushBags weights (i + 1) ((bag ++ [(⟨0, 0⟩ : Baggage)]).modify i fun b => { b with weight := w })

/-- A passenger puts its bags, its name and its class into `CPInfo`. -/
def handOver (s : Counters cfg) (p : cfg.Passenger) (k : Nat) (bag : List Baggage) :
    Counters cfg :=
  { s with
    cpInfo := Function.update s.cpInfo k
      { s.cpInfo k with
        baggageCount := cfg.baggageCount p
        bag := pushBags (cfg.bags p) 0 bag
        passenger := p.val
        isEconomy := cfg.economy p } }

/-- A passenger leaves the line. -/
def leaveLine (s : Counters cfg) (k : Nat) : Counters cfg :=
  { s with
    checkInLine := Function.update s.checkInLine k
      (if 0 < s.checkInLine k then s.checkInLine k - 1 else s.checkInLine k) }

/-- A step of a passenger of airline `a`.  `junk` is what the counter of the loop that empties
the vector holds. -/
def passengerStep (a : Nat) (junk : Int) (p : cfg.Passenger) (s : Counters cfg) :
    Except Stop (Counters cfg) :=
  let self : CheckInThread cfg := .passenger p
  match s.passenger p with
  | .arriving => do .ok ((← s.acquireLine self).go p .choosing)
  | .choosing => .ok (s.join p (s.lineFor a p))
  | .ringing k i => .ok (s.ringNext a p k i)
  | .queueing k => .ok (s.queue p k)
  | .inLine k =>
      if p ∈ s.checkInCV k then .error .blocked
      else do .ok ((← s.acquireLine self).go p (.called k))
  | .called k => .ok (s.go p (.told (if cfg.economy p then k else (s.cpInfo k).line)))
  | .told k => do .ok ((← s.acquireLock k self).go p (.entering k))
  | .entering k => .ok (s.releaseLine.go p (.entered k))
  | .entered k =>
      match popBags (s.cpInfo k).bag.length junk (s.cpInfo k).bag with
      | some bag => .ok (((s.handOver p k bag).signal k).go p (.handed k))
      | none => .error .undefined
  | .handed k => .ok ((s.wait k (some p)).go p (.waiting k))
  | .waiting k => do .ok ((← s.resume k (some p) self).go p (.served k))
  | .served k => .ok (((s.leaveLine k).signal k).go p (.leaving k))
  | .leaving k => .ok ((s.releaseLock k).go p .left)
  | .left => .error .finished

/-- An officer calls from the executive line `x` of its airline `a`. -/
def callExec (s : Counters cfg) (k a x : Nat) : Counters cfg :=
  { s with
    execLineNeedsHelp := Function.update s.execLineNeedsHelp a false
    cpInfo := Function.update s.cpInfo x { s.cpInfo x with line := k }
    checkInLine := Function.update s.checkInLine x (s.checkInLine x - 1)
    checkInCV := Function.update s.checkInCV x (s.checkInCV x).tail }

/-- An officer calls from its own line. -/
def callEconomy (s : Counters cfg) (k : Nat) : Counters cfg :=
  { s with checkInCV := Function.update s.checkInCV k (s.checkInCV k).tail }

/-- The flag of an officer. -/
def setOnBreak (s : Counters cfg) (k : Nat) (b : Bool) : Counters cfg :=
  { s with officer := Function.update s.officer k { s.officer k with onBreak := b } }

/-- `CheckInBreakCV[k]->Wait(CheckInLock)` up to the sleep. -/
def takeBreak (s : Counters cfg) (k : Nat) : Counters cfg :=
  { s.releaseLine with
    checkInBreakCV := Function.update s.checkInBreakCV k (s.checkInBreakCV k ++ [k]) }

/-- An officer counts a passenger. -/
def count (s : Counters cfg) (k : Nat) : Counters cfg :=
  { s with
    officer := Function.update s.officer k
      { s.officer k with passengerCount := (s.officer k).passengerCount + 1 } }

/-- An officer takes the bags out of `CPInfo`. -/
def takeBags (s : Counters cfg) (k : Nat) (helped : Bool) : Counters cfg :=
  { s with
    execLineNeedsHelp :=
      if helped then Function.update s.execLineNeedsHelp (cfg.airlineOf k) true
      else s.execLineNeedsHelp
    officer := Function.update s.officer k { s.officer k with bags := (s.cpInfo k).bag }
    cpInfo := Function.update s.cpInfo k { s.cpInfo k with bag := [] } }

/-- An officer marks bag `i`. -/
def mark (s : Counters cfg) (k i : Nat) : Counters cfg :=
  { s with
    officer := Function.update s.officer k
      { s.officer k with
        bags := (s.officer k).bags.modify i fun b => { b with airlineCode := cfg.airlineOf k } } }

/-- A bag comes onto the conveyor, and `BaggageLock` is given up. -/
def drop (s : Counters cfg) (b : Baggage) : Counters cfg :=
  { s with conveyor := s.conveyor ++ [b], baggageLock := none }

/-- An officer remembers a bag. -/
def record (s : Counters cfg) (k : Nat) (b : Baggage) : Counters cfg :=
  { s with
    officer := Function.update s.officer k
      { s.officer k with totalBags := (s.officer k).totalBags ++ [b] } }

/-- An officer tells the passenger its gate. -/
def tellGate (s : Counters cfg) (k : Nat) : Counters cfg :=
  { s with
    cpInfo := Function.update s.cpInfo k { s.cpInfo k with gate := cfg.airlineOf k } }

/-- A step of an officer. -/
def officerStep (k : Nat) (s : Counters cfg) : Except Stop (Counters cfg) :=
  let self : CheckInThread cfg := .officer k
  let a := cfg.airlineOf k
  match (s.officer k).point with
  | .beginning => do .ok ((← s.acquireLine self).post k .looking)
  | .looking =>
      let t := s.setOnBreak k false
      if 0 < s.checkInLine (cfg.execLine a) ∧ s.execLineNeedsHelp a = true then
        .ok ((t.callExec k a (cfg.execLine a)).post k .callingExec)
      else if 0 < s.checkInLine k then .ok ((t.callEconomy k).post k .callingEconomy)
      else .ok (((s.setOnBreak k true).takeBreak k).post k .onBreak)
  | .onBreak =>
      if k ∈ s.checkInBreakCV k then .error .blocked
      else do .ok ((← s.acquireLine self).post k .back)
  | .back => .ok (s.releaseLine.post k .beginning)
  | .callingExec =>
      .ok (({ s with
        checkInLine := Function.update s.checkInLine k (s.checkInLine k + 1) }.count k).post k
        (.counted true))
  | .callingEconomy => .ok ((s.count k).post k (.counted false))
  | .counted helped => do .ok ((← s.acquireLock k self).post k (.opened helped))
  | .opened helped => .ok (s.releaseLine.post k (.ready helped))
  | .ready helped => .ok ((s.wait k none).post k (.expecting helped))
  | .expecting helped => do .ok ((← s.resume k none self).post k (.informed helped))
  | .informed helped => .ok ((s.takeBags k helped).post k (.loading 0))
  | .loading i =>
      if i < (s.cpInfo k).baggageCount then
        if i < (s.officer k).bags.length then do
          .ok ((← (s.mark k i).acquireBaggage self).post k (.dropping i))
        else .error .undefined
      else .ok (((s.tellGate k).signal k).post k .informing)
  | .dropping i =>
      match (s.officer k).bags[i]? with
      | some b => .ok ((s.drop b).post k (.dropped i))
      | none => .error .undefined
  | .dropped i =>
      match (s.officer k).bags[i]? with
      | some b => .ok ((s.record k b).post k (.loading (i + 1)))
      | none => .error .undefined
  | .informing => .ok ((s.wait k none).post k .parting)
  | .parting => do .ok ((← s.resume k none self).post k .closing)
  | .closing => .ok ((s.releaseLock k).post k .beginning)

end Counters

end Airport
end Nachos
