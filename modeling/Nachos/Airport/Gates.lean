import Nachos.Airport.Liaisons
import Nachos.Lib.Tallies

/-!
# The gates of `threads/threadtest.cc`

The last part of `Passenger::ChooseLiaisonLine`: a passenger of airline `a` is counted in
`boardingLounges[a]` under `gateLocks[a]`, and waits in `gateLocksCV[a]` until the airport
manager gives the boarding call.
-/

namespace Nachos
namespace Airport

open Lib

/-- Where a passenger is on its way through the last part of `ChooseLiaisonLine`; `a` is its
`airline`. -/
inductive GateVisit
  /-- Before `gateLocks[a]->Acquire()`, and behind it. -/
  | away
  | reached (a : Nat)
  /-- Behind `boardingLounges[a]++`. -/
  | counted (a : Nat)
  /-- In `gateLocksCV[a]->Wait(gateLocks[a])`, and behind it. -/
  | waiting (a : Nat)
  | boarding (a : Nat)
  /-- Behind `gateLocks[a]->Release()`. -/
  | boarded (a : Nat)
  deriving DecidableEq, Repr

namespace GateVisit

/-- The points with `gateLocks[a]`. -/
@[simp]
def holdsGate (a : Nat) : GateVisit → Bool
  | reached b | counted b | boarding b => b = a
  | _ => false

/-- The passenger is counted in `boardingLounges[a]`. -/
@[simp]
def inLounge (a : Nat) : GateVisit → Bool
  | counted b | waiting b | boarding b | boarded b => b = a
  | _ => false

/-- The passenger is behind `gateLocksCV[a]->Wait`, or in it. -/
@[simp]
def settled (a : Nat) : GateVisit → Bool
  | waiting b | boarding b | boarded b => b = a
  | _ => false

/-- The airline. -/
@[simp]
def airline : GateVisit → Option Nat
  | away => none
  | reached a | counted a | waiting a | boarding a | boarded a => some a

end GateVisit

/-- Who can have a lock of a gate. -/
inductive GateThread (cfg : Settings)
  | passenger (p : cfg.Passenger)
  | manager
  deriving DecidableEq, Repr

/-- The globals that are used at the gates. -/
structure Lounge (cfg : Settings) where
  gateLocks : Nat → Option (GateThread cfg)
  gateLocksCV : Nat → List cfg.Passenger
  boardingLounges : Nat → Nat
  passenger : cfg.Passenger → GateVisit

namespace Lounge

variable {cfg : Settings}

/-- The gates as `setup` leaves them. -/
def start (cfg : Settings) : Lounge cfg where
  gateLocks := fun _ => none
  gateLocksCV := fun _ => []
  boardingLounges := fun _ => 0
  passenger := fun _ => .away

/-- A passenger goes on to another point. -/
def go (s : Lounge cfg) (p : cfg.Passenger) (q : GateVisit) : Lounge cfg :=
  { s with passenger := Function.update s.passenger p q }

/-- `gateLocks[a]->Acquire()`. -/
def acquireGate (s : Lounge cfg) (a : Nat) (t : GateThread cfg) : Except Stop (Lounge cfg) :=
  if s.gateLocks a = none ∨ s.gateLocks a = some t then
    .ok { s with gateLocks := Function.update s.gateLocks a (some t) }
  else .error .blocked

/-- `gateLocks[a]->Release()`. -/
def releaseGate (s : Lounge cfg) (a : Nat) : Lounge cfg :=
  { s with gateLocks := Function.update s.gateLocks a none }

/-- `boardingLounges[a]++`. -/
def countIn (s : Lounge cfg) (a : Nat) : Lounge cfg :=
  { s with boardingLounges := Function.update s.boardingLounges a (s.boardingLounges a + 1) }

/-- `gateLocksCV[a]->Wait(gateLocks[a])` up to the sleep. -/
def wait (s : Lounge cfg) (a : Nat) (p : cfg.Passenger) : Lounge cfg :=
  { s.releaseGate a with
    gateLocksCV := Function.update s.gateLocksCV a (s.gateLocksCV a ++ [p]) }

/-- `gateLocksCV[a]->Signal(gateLocks[a])`. -/
def signal (s : Lounge cfg) (a : Nat) : Lounge cfg :=
  { s with gateLocksCV := Function.update s.gateLocksCV a (s.gateLocksCV a).tail }

/-- A step of a passenger of airline `a`. -/
def passengerStep (a : Nat) (p : cfg.Passenger) (s : Lounge cfg) : Except Stop (Lounge cfg) :=
  let self : GateThread cfg := .passenger p
  match s.passenger p with
  | .away => do .ok ((← s.acquireGate a self).go p (.reached a))
  | .reached b => .ok ((s.countIn b).go p (.counted b))
  | .counted b => .ok ((s.wait b p).go p (.waiting b))
  | .waiting b =>
      if p ∈ s.gateLocksCV b then .error .blocked
      else do .ok ((← s.acquireGate b self).go p (.boarding b))
  | .boarding b => .ok ((s.releaseGate b).go p (.boarded b))
  | .boarded _ => .error .finished

section Moves

variable {s s' : Lounge cfg} {a : Nat} {p : cfg.Passenger}

/-- The lock of a gate is free for a thread. -/
def Free (s : Lounge cfg) (a : Nat) (t : GateThread cfg) : Prop :=
  s.gateLocks a = none ∨ s.gateLocks a = some t

/-- A thread takes the lock of a gate. -/
def takeGate (s : Lounge cfg) (a : Nat) (t : GateThread cfg) : Lounge cfg :=
  { s with gateLocks := Function.update s.gateLocks a (some t) }

theorem acquireGate_ok {t : GateThread cfg} (h : s.acquireGate a t = .ok s') :
    s.Free a t ∧ s' = s.takeGate a t := by
  unfold acquireGate at h
  split at h
  · rename_i hfree
    exact ⟨hfree, (Except.ok.inj h).symm⟩
  · exact absurd h (by simp)

/-- The steps of a passenger. -/
inductive PassengerMove (s : Lounge cfg) (a : Nat) (p : cfg.Passenger) : Lounge cfg → Prop
  | reach (hat : s.passenger p = .away) (hfree : s.Free a (.passenger p)) :
      PassengerMove s a p ((s.takeGate a (.passenger p)).go p (.reached a))
  | count (b : Nat) (hat : s.passenger p = .reached b) :
      PassengerMove s a p ((s.countIn b).go p (.counted b))
  | wait (b : Nat) (hat : s.passenger p = .counted b) :
      PassengerMove s a p ((s.wait b p).go p (.waiting b))
  | wake (b : Nat) (hat : s.passenger p = .waiting b) (hnot : p ∉ s.gateLocksCV b)
      (hfree : s.Free b (.passenger p)) :
      PassengerMove s a p ((s.takeGate b (.passenger p)).go p (.boarding b))
  | board (b : Nat) (hat : s.passenger p = .boarding b) :
      PassengerMove s a p ((s.releaseGate b).go p (.boarded b))

theorem passengerStep_move (hstep : passengerStep a p s = .ok s') : PassengerMove s a p s' := by
  unfold passengerStep at hstep
  cases hat : s.passenger p
  all_goals simp only [hat] at hstep
  case away =>
    obtain ⟨t, ht, hs'⟩ := bind_eq_ok hstep
    obtain ⟨hfree, rfl⟩ := acquireGate_ok ht
    obtain rfl := Except.ok.inj hs'
    exact .reach hat hfree
  case reached b =>
    obtain rfl := Except.ok.inj hstep
    exact .count b hat
  case counted b =>
    obtain rfl := Except.ok.inj hstep
    exact .wait b hat
  case waiting b =>
    split at hstep
    · exact absurd hstep (by simp)
    · rename_i hnot
      obtain ⟨t, ht, hs'⟩ := bind_eq_ok hstep
      obtain ⟨hfree, rfl⟩ := acquireGate_ok ht
      obtain rfl := Except.ok.inj hs'
      exact .wake b hat hnot hfree
  case boarding b =>
    obtain rfl := Except.ok.inj hstep
    exact .board b hat
  case boarded b => exact absurd hstep (by simp)

end Moves

section Locks

variable {s s' : Lounge cfg} {a : Nat} {p : cfg.Passenger} {m : Option Nat}

/-- The points of all threads; `m` is the gate whose lock the manager has. -/
def point (m : Option Nat) (s : Lounge cfg) : GateThread cfg → GateVisit ⊕ Option Nat
  | .passenger p => .inl (s.passenger p)
  | .manager => .inr m

/-- The points with a lock. -/
@[simp]
def holds (a : Nat) : GateVisit ⊕ Option Nat → Prop
  | .inl q => q.holdsGate a = true
  | .inr m => m = some a

/-- The locks exclude. -/
def Locked (m : Option Nat) (s : Lounge cfg) : Prop := AllGuarded s.gateLocks holds (s.point m)

theorem locked_start (cfg : Settings) : (start cfg).Locked none := by
  intro a t ht
  cases t
  all_goals simp [point, start] at ht

theorem point_go {q : GateVisit} (hpassenger : s'.passenger = Function.update s.passenger p q) :
    s'.point m = Function.update (s.point m) (.passenger p) (.inl q) := by
  funext t
  cases t with
  | passenger u =>
      by_cases hu : u = p
      · subst hu
        simp [point, hpassenger]
      · simp [point, hpassenger, hu]
  | manager => simp [point]

theorem point_manager (m m' : Option Nat) (hpassenger : s'.passenger = s.passenger) :
    s'.point m' = Function.update (s.point m) .manager (.inr m') := by
  funext t
  cases t with
  | passenger u => simp [point, hpassenger]
  | manager => simp [point]

/-- Every step of a passenger keeps the locks. -/
theorem Locked.passenger (h : s.Locked m) (hmove : PassengerMove s a p s') : s'.Locked m := by
  have hpoint : s.point m (.passenger p) = .inl (s.passenger p) := rfl
  cases hmove with
  | reach hat hfree =>
      refine AllGuarded.acquire h a (point_go rfl) hfree rfl fun b hb hx => ?_
      exact absurd (by simpa using hx) hb.symm
  | wake b hat hnot hfree =>
      refine AllGuarded.acquire h b (point_go rfl) hfree rfl fun c hc hx => ?_
      exact absurd (by simpa using hx) hc.symm
  | count b hat =>
      exact AllGuarded.keep h (point_go rfl) rfl fun c hx => by simpa [hpoint, hat] using hx
  | wait b hat | board b hat =>
      exact AllGuarded.release h b (point_go rfl) (by simp [hpoint, hat]) (by simp) rfl
        fun c hc hx => by simp at hx

/-- While the manager has the lock of a gate, no passenger has it. -/
theorem Locked.without (h : s.Locked (some a)) (p : cfg.Passenger) :
    (s.passenger p).holdsGate a = false := by
  by_contra hheld
  rw [Bool.not_eq_false] at hheld
  have hpassenger : s.gateLocks a = some (.passenger p) := h a (.passenger p) hheld
  have hmanager : s.gateLocks a = some .manager := h a .manager rfl
  simp [hmanager] at hpassenger

/-- The manager takes the lock of a gate. -/
theorem Locked.takeGate (h : s.Locked none) (hfree : s.Free a .manager) :
    (s.takeGate a .manager).Locked (some a) :=
  AllGuarded.acquire h a (point_manager none _ rfl) hfree rfl fun _ hb hx =>
    absurd (Option.some.inj hx).symm hb

/-- The manager gives the lock of a gate up. -/
theorem Locked.releaseGate (h : s.Locked (some a)) : (s.releaseGate a).Locked none :=
  AllGuarded.release h a (point_manager _ none rfl) rfl (by simp) rfl fun _ _ hx =>
    absurd hx (by simp)

end Locks

section Order

variable {s s' : Lounge cfg} {a : Nat} {p : cfg.Passenger}

/-- The queues hold passengers that wait, once each. -/
def Queued (s : Lounge cfg) : Prop :=
  ∀ a, (s.gateLocksCV a).Nodup ∧ ∀ p ∈ s.gateLocksCV a, s.passenger p = .waiting a

theorem queued_start (cfg : Settings) : (start cfg).Queued :=
  fun _ => ⟨List.nodup_nil, by simp [start]⟩

/-- Whoever is not waiting is in no queue. -/
theorem Queued.not_mem (h : s.Queued) (hp : s.passenger p ≠ .waiting a) :
    p ∉ s.gateLocksCV a := fun hmem => hp ((h a).2 p hmem)

/-- A passenger that is in no queue goes on. -/
theorem Queued.go (h : s.Queued) {q : GateVisit}
    (hpassenger : s'.passenger = Function.update s.passenger p q)
    (hqueue : s'.gateLocksCV = s.gateLocksCV) (hnot : ∀ b, p ∉ s.gateLocksCV b) : s'.Queued := by
  intro b
  rw [hqueue, hpassenger]
  refine ⟨(h b).1, fun u hu => ?_⟩
  have hup : u ≠ p := by
    rintro rfl
    exact hnot b hu
  rw [Function.update_of_ne hup]
  exact (h b).2 u hu

/-- Every step of a passenger keeps the queues. -/
theorem Queued.passenger (h : s.Queued) (hmove : PassengerMove s a p s') : s'.Queued := by
  cases hmove with
  | reach hat hfree | count b hat | board b hat =>
      exact h.go rfl rfl fun c => h.not_mem (by simp [hat])
  | wake b hat hnot hfree =>
      refine h.go rfl rfl fun c hmem => ?_
      have hc := (h c).2 p hmem
      rw [hat] at hc
      rw [GateVisit.waiting.inj hc] at hnot
      exact hnot hmem
  | wait b hat =>
      intro c
      have hmem := h.not_mem (p := p) (a := c) (by simp [hat])
      have hother : ∀ u ∈ s.gateLocksCV c, ((s.wait b p).go p (.waiting b)).passenger u =
          .waiting c := by
        intro u hu
        have hup : u ≠ p := by
          rintro rfl
          exact hmem hu
        simp only [Lounge.go, Lounge.wait, releaseGate, Function.update_of_ne hup]
        exact (h c).2 u hu
      by_cases hc : c = b
      · subst hc
        simp only [Lounge.go, Lounge.wait, releaseGate, Function.update_self]
        refine ⟨List.nodup_append.mpr ⟨(h c).1, by simp, fun u hu v hv => ?_⟩, fun u hu => ?_⟩
        · rw [List.mem_singleton.mp hv]
          rintro rfl
          exact hmem hu
        · rcases List.mem_append.mp hu with hu | hu
          · exact hother u hu
          · rw [List.mem_singleton.mp hu, Function.update_self]
      · simp only [Lounge.go, Lounge.wait, releaseGate, Function.update_of_ne hc]
        exact ⟨(h c).1, hother⟩

/-- The manager wakes the first of a queue. -/
theorem Queued.signal (h : s.Queued) (a : Nat) : (s.signal a).Queued := by
  intro b
  by_cases hb : b = a
  · subst hb
    simp only [Lounge.signal, Function.update_self]
    exact ⟨(h b).1.tail, fun p hp => (h b).2 p (List.mem_of_mem_tail hp)⟩
  · simp only [Lounge.signal, Function.update_of_ne hb]
    exact h b

/-- `boardingLounges` counts passengers. -/
def Counted (s : Lounge cfg) : Prop :=
  ∀ a, s.boardingLounges a = tally (fun _ => 1) fun p => (s.passenger p).inLounge a = true

theorem counted_start (cfg : Settings) : (start cfg).Counted :=
  fun _ => (tally_none _ (by simp [start])).symm

/-- A passenger goes on and is counted as before. -/
theorem Counted.go (h : s.Counted) {q : GateVisit}
    (hpassenger : s'.passenger = Function.update s.passenger p q)
    (hlounges : s'.boardingLounges = s.boardingLounges)
    (hq : ∀ b, q.inLounge b = (s.passenger p).inLounge b) : s'.Counted := by
  intro b
  rw [hlounges, h b]
  refine tally_congr _ fun u => ?_
  rw [hpassenger]
  by_cases hup : u = p
  · subst hup
    rw [Function.update_self, hq b]
  · rw [Function.update_of_ne hup]

/-- Every step of a passenger keeps the counters. -/
theorem Counted.passenger (h : s.Counted) (hmove : PassengerMove s a p s') : s'.Counted := by
  cases hmove with
  | reach hat hfree | wait b hat | wake b hat hnot hfree | board b hat =>
      exact h.go rfl rfl fun c => by simp [hat]
  | count b hat =>
      intro c
      by_cases hc : c = b
      · subst hc
        simp only [Lounge.go, countIn, Function.update_self]
        rw [h c]
        refine (tally_enter _ (t := p) (by simp [hat]) fun u => ?_).symm
        by_cases hup : u = p
        · subst hup
          simp
        · simp [hup]
      · simp only [Lounge.go, countIn, Function.update_of_ne hc]
        rw [h c]
        refine tally_congr _ fun u => ?_
        by_cases hup : u = p
        · subst hup
          simp [hat, Ne.symm hc]
        · simp [hup]

/-- A passenger goes on with its airline, and is not counted out. -/
theorem PassengerMove.exists_go (hmove : PassengerMove s a p s') :
    ∃ q, s'.passenger = Function.update s.passenger p q ∧
      q.airline = some ((s.passenger p).airline.getD a) ∧
      ∀ b, (s.passenger p).inLounge b = true → q.inLounge b = true := by
  cases hmove with
  | reach hat | count c hat | wait c hat | wake c hat | board c hat =>
      exact ⟨_, rfl, by simp [hat], by simp [hat]⟩

theorem PassengerMove.settled (hmove : PassengerMove s a p s') {b : Nat} {u : cfg.Passenger}
    (hu : (s.passenger u).settled b = true) : (s'.passenger u).settled b = true := by
  by_cases hup : u = p
  · subst hup
    cases hmove with
    | reach hat | count c hat | wait c hat | wake c hat | board c hat => simp_all [Lounge.go]
  · obtain ⟨q, hgo, -⟩ := hmove.exists_go
    rw [hgo, Function.update_of_ne hup]
    exact hu

/-- Whoever waits at a gate that nobody has been called to stays in its queue. -/
theorem quiet_passenger (hmove : PassengerMove s a p s') (hqueued : s.Queued) {b : Nat}
    (h : ∀ u, (s.passenger u).settled b = true → u ∈ s.gateLocksCV b) (u : cfg.Passenger)
    (hu : (s'.passenger u).settled b = true) : u ∈ s'.gateLocksCV b := by
  by_cases hup : u = p
  · subst hup
    cases hmove with
    | reach hat | count c hat => simp [Lounge.go] at hu
    | wait c hat =>
        obtain rfl : c = b := by simpa [Lounge.go] using hu
        simp [Lounge.go, Lounge.wait]
    | wake c hat hnot =>
        obtain rfl : c = b := by simpa [Lounge.go] using hu
        exact absurd (h u (by simp [hat])) hnot
    | board c hat =>
        obtain rfl : c = b := by simpa [Lounge.go] using hu
        have hwaiting := (hqueued c).2 u (h u (by simp [hat]))
        rw [hat] at hwaiting
        exact GateVisit.noConfusion hwaiting
  · have hmem : u ∈ s.gateLocksCV b := by
      obtain ⟨q, hgo, -⟩ := hmove.exists_go
      rw [hgo, Function.update_of_ne hup] at hu
      exact h u hu
    cases hmove with
    | wait c hat =>
        by_cases hb : b = c
        · subst hb
          simp [Lounge.go, Lounge.wait, hmem]
        · simpa [Lounge.go, Lounge.wait, releaseGate, hb] using hmem
    | _ => exact hmem

theorem PassengerMove.inLounge (hmove : PassengerMove s a p s') {b : Nat} {u : cfg.Passenger}
    (hu : (s.passenger u).inLounge b = true) : (s'.passenger u).inLounge b = true := by
  obtain ⟨q, hgo, -, hq⟩ := hmove.exists_go
  rw [hgo]
  by_cases hup : u = p
  · subst hup
    rw [Function.update_self]
    exact hq b hu
  · rw [Function.update_of_ne hup]
    exact hu

end Order

end Lounge
end Airport
end Nachos
