import Nachos.Airport.CounterBags

/-!
# The cargo handlers of `threads/threadtest.cc`

`CargoHandler::DoWork`: a handler takes the first bag off the conveyor under `CargoHandlerLock`,
and puts it on the plane under the lock of its airline.  A handler that finds the conveyor empty
goes on a break with `CargoHandlerCV`, and comes back with the lock, which it acquires once more.

The conveyor is shared with the check-in officers, who put bags on it under another lock; it is
an argument of the steps here.
-/

namespace Nachos
namespace Airport

open Lib

/-- Where a cargo handler is in `DoWork`. -/
inductive CargoPoint
  /-- Before `onBreak = false`, before `CargoHandlerLock->Acquire()`, and behind it. -/
  | beginning
  | asking
  | looking
  /-- In `CargoHandlerCV->Wait(CargoHandlerLock)`. -/
  | onBreak
  /-- With a bag, behind `AirlineBaggage->Acquire()`, and behind `CargoHandlerLock->Release()`. -/
  | carrying (b : Baggage)
  | loading (b : Baggage)
  | counting (b : Baggage)
  deriving DecidableEq, Repr

namespace CargoPoint

/-- The bags that a handler has in its hands. -/
@[simp]
def inHand : CargoPoint → List Baggage
  | carrying b | loading b | counting b => [b]
  | _ => []

end CargoPoint

/-- A cargo handler. -/
structure CargoHandler where
  point : CargoPoint
  onBreak : Bool
  weight : Nat → Nat
  count : Nat → Nat

namespace Settings

/-- The cargo handlers. -/
abbrev Handler (cfg : Settings) := Fin cfg.simNumOfCargoHandlers

end Settings

/-- Who can have `CargoHandlerLock`. -/
inductive CargoThread (cfg : Settings)
  | handler (h : cfg.Handler)
  | manager
  deriving DecidableEq, Repr

/-- The globals that the cargo handlers use, except for the conveyor. -/
structure Hold (cfg : Settings) where
  cargoHandlerLock : Option (CargoThread cfg)
  cargoHandlerCV : List cfg.Handler
  airlineBaggage : Nat → Option cfg.Handler
  aircraftBaggageCount : Nat → Nat
  aircraftBaggageWeight : Nat → Nat
  handler : cfg.Handler → CargoHandler

namespace Hold

variable {cfg : Settings}

/-- The hold as `setup` leaves it. -/
def start (cfg : Settings) : Hold cfg where
  cargoHandlerLock := none
  cargoHandlerCV := []
  airlineBaggage := fun _ => none
  aircraftBaggageCount := fun _ => 0
  aircraftBaggageWeight := fun _ => 0
  handler := fun h => ⟨.beginning, cfg.onBreak h, fun _ => 0, fun _ => 0⟩

/-- A handler goes on to another point. -/
def post (s : Hold cfg) (h : cfg.Handler) (q : CargoPoint) : Hold cfg :=
  { s with handler := Function.update s.handler h { s.handler h with point := q } }

/-- The flag of a handler. -/
def setOnBreak (s : Hold cfg) (h : cfg.Handler) (b : Bool) : Hold cfg :=
  { s with handler := Function.update s.handler h { s.handler h with onBreak := b } }

/-- `CargoHandlerLock->Acquire()`. -/
def acquireCargo (s : Hold cfg) (t : CargoThread cfg) : Except Stop (Hold cfg) :=
  if s.cargoHandlerLock = none ∨ s.cargoHandlerLock = some t then
    .ok { s with cargoHandlerLock := some t }
  else .error .blocked

/-- `CargoHandlerLock->Release()`. -/
def releaseCargo (s : Hold cfg) : Hold cfg := { s with cargoHandlerLock := none }

/-- `CargoHandlerCV->Wait(CargoHandlerLock)` up to the sleep. -/
def takeBreak (s : Hold cfg) (h : cfg.Handler) : Hold cfg :=
  { s.releaseCargo with cargoHandlerCV := s.cargoHandlerCV ++ [h] }

/-- `AirlineBaggage[a]->Acquire()`. -/
def acquirePlane (s : Hold cfg) (a : Nat) (h : cfg.Handler) : Except Stop (Hold cfg) :=
  if s.airlineBaggage a = none ∨ s.airlineBaggage a = some h then
    .ok { s with airlineBaggage := Function.update s.airlineBaggage a (some h) }
  else .error .blocked

/-- A bag is counted, for the plane and for the handler, and `AirlineBaggage` is released. -/
def load (s : Hold cfg) (h : cfg.Handler) (b : Baggage) : Hold cfg :=
  { s with
    airlineBaggage := Function.update s.airlineBaggage b.airlineCode none
    aircraftBaggageCount := Function.update s.aircraftBaggageCount b.airlineCode
      (s.aircraftBaggageCount b.airlineCode + 1)
    aircraftBaggageWeight := Function.update s.aircraftBaggageWeight b.airlineCode
      (s.aircraftBaggageWeight b.airlineCode + b.weight)
    handler := Function.update s.handler h
      { s.handler h with
        weight := Function.update (s.handler h).weight b.airlineCode
          ((s.handler h).weight b.airlineCode + b.weight)
        count := Function.update (s.handler h).count b.airlineCode
          ((s.handler h).count b.airlineCode + 1) } }

/-- A step of a handler, with the conveyor before and after it.  There are locks for the
airlines of the simulation only. -/
def handlerStep (h : cfg.Handler) (conveyor : List Baggage) (s : Hold cfg) :
    Except Stop (List Baggage × Hold cfg) :=
  match (s.handler h).point with
  | .beginning => .ok (conveyor, (s.setOnBreak h false).post h .asking)
  | .asking => do .ok (conveyor, (← s.acquireCargo (.handler h)).post h .looking)
  | .looking =>
      match conveyor with
      | b :: rest => .ok (rest, s.post h (.carrying b))
      | [] => .ok ([], ((s.setOnBreak h true).takeBreak h).post h .onBreak)
  | .onBreak =>
      if h ∈ s.cargoHandlerCV then .error .blocked
      else do .ok (conveyor, (← s.acquireCargo (.handler h)).post h .beginning)
  | .carrying b =>
      if b.airlineCode < cfg.simNumOfAirlines then
        do .ok (conveyor, (← s.acquirePlane b.airlineCode h).post h (.loading b))
      else .error .undefined
  | .loading b => .ok (conveyor, s.releaseCargo.post h (.counting b))
  | .counting b => .ok (conveyor, (s.load h b).post h .beginning)

section Moves

variable {s s' : Hold cfg} {h : cfg.Handler} {conveyor conveyor' : List Baggage}

/-- What the step of a handler does to the bags: nothing, or it takes a bag off the conveyor, or
puts one on the plane. -/
inductive HandlerMove (s : Hold cfg) (h : cfg.Handler) (conveyor : List Baggage) :
    List Baggage → Hold cfg → Prop
  | idle (x : CargoHandler) (s' : Hold cfg)
      (hhandler : s'.handler = Function.update s.handler h x)
      (hx : x.point.inHand = (s.handler h).point.inHand)
      (hweight : x.weight = (s.handler h).weight) (hcount : x.count = (s.handler h).count)
      (hcounts : s'.aircraftBaggageCount = s.aircraftBaggageCount)
      (hweights : s'.aircraftBaggageWeight = s.aircraftBaggageWeight) :
      HandlerMove s h conveyor conveyor s'
  | take (b : Baggage) (rest : List Baggage) (hat : (s.handler h).point = .looking)
      (hfirst : conveyor = b :: rest) :
      HandlerMove s h conveyor rest (s.post h (.carrying b))
  | load (b : Baggage) (hat : (s.handler h).point = .counting b) :
      HandlerMove s h conveyor conveyor ((s.load h b).post h .beginning)

theorem acquireCargo_ok {t : CargoThread cfg} (h : s.acquireCargo t = .ok s') :
    s' = { s with cargoHandlerLock := some t } := by
  unfold acquireCargo at h
  split at h
  · exact (Except.ok.inj h).symm
  · exact absurd h (by simp)

theorem acquirePlane_ok {a : Nat} (hok : s.acquirePlane a h = .ok s') :
    s' = { s with airlineBaggage := Function.update s.airlineBaggage a (some h) } := by
  unfold acquirePlane at hok
  split at hok
  · exact (Except.ok.inj hok).symm
  · exact absurd hok (by simp)

theorem handlerStep_move (hstep : handlerStep h conveyor s = .ok (conveyor', s')) :
    HandlerMove s h conveyor conveyor' s' := by
  unfold handlerStep at hstep
  cases hat : (s.handler h).point
  all_goals simp only [hat] at hstep
  case beginning =>
    obtain ⟨rfl, rfl⟩ := Prod.mk.inj (Except.ok.inj hstep)
    refine .idle { s.handler h with onBreak := false, point := .asking } _ ?_ ?_ rfl rfl rfl rfl
    · simp [post, setOnBreak]
    · simp [hat]
  case asking =>
    obtain ⟨t, ht, hs'⟩ := bind_eq_ok hstep
    obtain rfl := acquireCargo_ok ht
    obtain ⟨rfl, rfl⟩ := Prod.mk.inj (Except.ok.inj hs')
    exact .idle _ _ rfl (by simp [hat]) rfl rfl rfl rfl
  case looking =>
    split at hstep
    · obtain ⟨rfl, rfl⟩ := Prod.mk.inj (Except.ok.inj hstep)
      exact .take _ _ hat rfl
    · obtain ⟨rfl, rfl⟩ := Prod.mk.inj (Except.ok.inj hstep)
      refine .idle { s.handler h with onBreak := true, point := .onBreak } _ ?_ ?_ rfl rfl rfl rfl
      · simp [post, setOnBreak, takeBreak, releaseCargo]
      · simp [hat]
  case onBreak =>
    split at hstep
    · exact absurd hstep (by simp)
    · obtain ⟨t, ht, hs'⟩ := bind_eq_ok hstep
      obtain rfl := acquireCargo_ok ht
      obtain ⟨rfl, rfl⟩ := Prod.mk.inj (Except.ok.inj hs')
      exact .idle _ _ rfl (by simp [hat]) rfl rfl rfl rfl
  case carrying b =>
    split at hstep
    · obtain ⟨t, ht, hs'⟩ := bind_eq_ok hstep
      obtain rfl := acquirePlane_ok ht
      obtain ⟨rfl, rfl⟩ := Prod.mk.inj (Except.ok.inj hs')
      exact .idle _ _ rfl (by simp [hat]) rfl rfl rfl rfl
    · exact absurd hstep (by simp)
  case loading b =>
    obtain ⟨rfl, rfl⟩ := Prod.mk.inj (Except.ok.inj hstep)
    exact .idle _ _ rfl (by simp [hat]) rfl rfl rfl rfl
  case counting b =>
    obtain ⟨rfl, rfl⟩ := Prod.mk.inj (Except.ok.inj hstep)
    exact .load b hat

end Moves

section Accounts

variable {s s' : Hold cfg} {h : cfg.Handler} {conveyor conveyor' gone : List Baggage}
  {w : Nat → Nat} {a : Nat}

/-- What the bags of airline `a` are worth that handlers have in their hands. -/
def carried (s : Hold cfg) (w : Nat → Nat) (a : Nat) : Nat :=
  ∑ h, worthOf w a (s.handler h).point.inHand

/-- The bags in `gone` go from the conveyor, or from hand to hand, onto the planes. -/
structure Loads (s : Hold cfg) (conveyor gone conveyor' : List Baggage) (s' : Hold cfg) : Prop where
  bags : ∀ w a, worthOf w a conveyor' + s'.carried w a + worthOf w a gone =
    worthOf w a conveyor + s.carried w a
  counts : ∀ a, s'.aircraftBaggageCount a =
    s.aircraftBaggageCount a + worthOf (fun _ => 1) a gone
  weights : ∀ a, s'.aircraftBaggageWeight a = s.aircraftBaggageWeight a + worthOf id a gone
  count : ∀ a, ∑ h, (s'.handler h).count a =
    (∑ h, (s.handler h).count a) + worthOf (fun _ => 1) a gone
  weight : ∀ a, ∑ h, (s'.handler h).weight a =
    (∑ h, (s.handler h).weight a) + worthOf id a gone

/-- One handler changes. -/
theorem sum_handler {x : CargoHandler} (f : CargoHandler → Nat)
    (hhandler : s'.handler = Function.update s.handler h x) :
    (∑ u, f (s'.handler u)) + f (s.handler h) = (∑ u, f (s.handler u)) + f x := by
  have hsum := sum_change (f := fun u => f (s.handler u)) (g := fun u => f (s'.handler u))
    (Finset.mem_univ h) fun u hu => by rw [hhandler, Function.update_of_ne hu]
  rw [hhandler, Function.update_self] at hsum
  rw [hhandler]
  exact hsum

theorem update_add (f : Nat → Nat) (b : Baggage) (w : Nat → Nat) :
    Function.update f b.airlineCode (f b.airlineCode + w b.weight) a = f a + worthOf w a [b] := by
  rw [worthOf_singleton]
  by_cases hb : b.airlineCode = a
  · subst hb
    simp
  · rw [Function.update_of_ne (Ne.symm hb), if_neg hb, Nat.add_zero]

/-- A handler puts a bag on the plane. -/
theorem Loads.load {b : Baggage} (hat : (s.handler h).point = .counting b) :
    s.Loads conveyor [b] conveyor ((s.load h b).post h .beginning) := by
  have hhandler : ((s.load h b).post h .beginning).handler = Function.update s.handler h
      { s.handler h with
        weight := Function.update (s.handler h).weight b.airlineCode
          ((s.handler h).weight b.airlineCode + b.weight)
        count := Function.update (s.handler h).count b.airlineCode
          ((s.handler h).count b.airlineCode + 1)
        point := .beginning } := by
    simp [post, Hold.load]
  refine ⟨fun w a => ?_, fun a => ?_, fun a => ?_, fun a => ?_, fun a => ?_⟩
  · have hsum := sum_handler (fun x => worthOf w a x.point.inHand) hhandler
    have hold : worthOf w a (s.handler h).point.inHand = worthOf w a [b] := by rw [hat]; rfl
    unfold carried
    rw [hold] at hsum
    change _ = _ + worthOf w a [] at hsum
    rw [worthOf_nil] at hsum
    omega
  · exact update_add s.aircraftBaggageCount b fun _ => 1
  · exact update_add s.aircraftBaggageWeight b id
  · have hsum := sum_handler (fun x => x.count a) hhandler
    have hnew := update_add (a := a) (s.handler h).count b fun _ => 1
    simp only at hsum hnew
    omega
  · have hsum := sum_handler (fun x => x.weight a) hhandler
    have hnew := update_add (a := a) (s.handler h).weight b id
    simp only [id] at hsum hnew
    omega

/-- No bag is put on a plane. -/
theorem Loads.none {x : CargoHandler} (hhandler : s'.handler = Function.update s.handler h x)
    (hweight : x.weight = (s.handler h).weight) (hcount : x.count = (s.handler h).count)
    (hcounts : s'.aircraftBaggageCount = s.aircraftBaggageCount)
    (hweights : s'.aircraftBaggageWeight = s.aircraftBaggageWeight)
    (hbags : ∀ w a, worthOf w a conveyor' + worthOf w a x.point.inHand =
      worthOf w a conveyor + worthOf w a (s.handler h).point.inHand) :
    s.Loads conveyor [] conveyor' s' where
  bags := by
    intro w a
    have hsum := sum_handler (fun x => worthOf w a x.point.inHand) hhandler
    have hbag := hbags w a
    unfold carried
    rw [worthOf_nil]
    omega
  counts := fun a => by rw [hcounts, worthOf_nil, Nat.add_zero]
  weights := fun a => by rw [hweights, worthOf_nil, Nat.add_zero]
  count := by
    intro a
    have hsum := sum_handler (fun x => x.count a) hhandler
    rw [hcount] at hsum
    rw [worthOf_nil]
    omega
  weight := by
    intro a
    have hsum := sum_handler (fun x => x.weight a) hhandler
    rw [hweight] at hsum
    rw [worthOf_nil]
    omega

/-- No step of a handler loses a bag. -/
theorem HandlerMove.loads (hmove : HandlerMove s h conveyor conveyor' s') :
    ∃ gone, s.Loads conveyor gone conveyor' s' := by
  cases hmove with
  | idle x s' hhandler hx hweight hcount hcounts hweights =>
      exact ⟨[], .none hhandler hweight hcount hcounts hweights fun w a => by rw [hx]⟩
  | take b rest hat hfirst =>
      refine ⟨[], .none rfl rfl rfl rfl rfl fun w a => ?_⟩
      rw [hat, hfirst, worthOf_cons]
      change _ + worthOf w a [b] = _ + worthOf w a []
      rw [worthOf_singleton, worthOf_nil]
      omega
  | load b hat => exact ⟨[b], .load hat⟩

end Accounts

end Hold
end Airport
end Nachos
