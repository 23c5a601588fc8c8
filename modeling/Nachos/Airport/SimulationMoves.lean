import Nachos.Airport.Simulation

/-!
# The steps of the simulation

Every step of the simulation is a move in one area, or a move of the manager.  What holds in the
areas by themselves holds in the simulation, and no bag is lost on its way from a passenger to a
plane.
-/

namespace Nachos
namespace Airport

open Lib

namespace Hall

variable {cfg : Settings} {s s' : Hall cfg} {p : cfg.Passenger} {l : Nat}

theorem PassengerMove.exists_go (hmove : PassengerMove s p s') :
    ∃ q a, s'.passenger = Function.update s.passenger p q ∧
      s'.airline = Function.update s.airline p a := by
  cases hmove with
  | thank l hat => exact ⟨_, _, rfl, rfl⟩
  | _ => exact ⟨_, s.airline p, rfl, (Function.update_eq_self p s.airline).symm⟩

/-- Whoever has left the hall keeps its airline. -/
theorem PassengerMove.directed (hmove : PassengerMove s p s') (hp : s.passenger p ≠ .directed)
    {u : cfg.Passenger} (hu : s.passenger u = .directed) :
    s'.passenger u = .directed ∧ s'.airline u = s.airline u := by
  have hne : u ≠ p := by
    rintro rfl
    exact hp hu
  obtain ⟨q, a, hpassenger, hairline⟩ := hmove.exists_go
  rw [hpassenger, hairline, Function.update_of_ne hne, Function.update_of_ne hne]
  exact ⟨hu, rfl⟩

/-- A liaison does not touch the passengers. -/
theorem LiaisonMove.frame (hmove : LiaisonMove s l s') :
    s'.passenger = s.passenger ∧ s'.airline = s.airline := by
  cases hmove
  all_goals exact ⟨rfl, rfl⟩

/-- Whoever has left the hall has an airline of the simulation. -/
theorem Sound.airline_lt (h : s.Sound) (hp : s.passenger p = .directed) :
    s.airline p < cfg.simNumOfAirlines := by
  have hflies : s.Flies p (s.airline p) := ⟨by simp [hp], rfl⟩
  have hone : 1 ≤ s.ticketsIssued (s.airline p) := by
    rw [h.booked.tickets]
    exact tally_pos (fun _ => 1) hflies.ticket (Nat.zero_lt_one)
  have hseats := h.booked.seats (s.airline p)
  by_contra hge
  have hzero : cfg.totalPassengersOfAirline (s.airline p) = 0 := by
    simp [Settings.totalPassengersOfAirline, hge]
  omega

end Hall

namespace Counters

variable {cfg : Settings} {s s' : Counters cfg} {p : cfg.Passenger} {a k : Nat}

theorem PassengerMove.exists_go (hmove : PassengerMove s a p s') :
    ∃ q, s'.passenger = Function.update s.passenger p q := by
  cases hmove
  all_goals exact ⟨_, rfl⟩

/-- Only the airlines of passengers that have come matter. -/
theorem entrusted_congr {airline airline' : cfg.Passenger → Nat} {w : Nat → Nat}
    (hsame : ∀ p, s.passenger p ≠ .arriving → airline' p = airline p) :
    s.entrusted airline' w a = s.entrusted airline w a := by
  refine tally_congr _ fun p => ?_
  by_cases hp : s.passenger p = .arriving
  · simp [hp]
  · rw [hsame p hp]

end Counters

namespace Simulation

variable {cfg : Settings} {s s' : Simulation cfg} {p : cfg.Passenger}

section Moves

/-- The steps of the manager. -/
inductive ManagerMove (s : Simulation cfg) : Simulation cfg → Prop
  | idle (q : ManagerPoint) (lock : Option (CargoThread cfg)) (queue : List cfg.Handler)
      (hat : s.manager.routine = true) (hq : q.routine = true) :
      ManagerMove s ({ s with
        hold := { s.hold with cargoHandlerLock := lock, cargoHandlerCV := queue } }.direct q)
  | check (i : Nat) (hat : s.manager = .checking i) (hi : i < cfg.simNumOfAirlines)
      (hready : s.ReadyToBoard i) : ManagerMove s (s.direct (.opening i))
  | «open» (i : Nat) (hat : s.manager = .opening i) (hfree : s.lounge.Free i .manager) :
      ManagerMove s ({ s with lounge := s.lounge.takeGate i .manager }.direct (.announcing i))
  | call (i : Nat) (hat : s.manager = .announcing i ∨ s.manager = .calling i)
      (hqueue : s.lounge.gateLocksCV i ≠ []) :
      ManagerMove s ({ s with lounge := s.lounge.signal i }.direct (.calling i))
  | finish (i : Nat) (hat : s.manager = .announcing i ∨ s.manager = .calling i)
      (hqueue : s.lounge.gateLocksCV i = []) : ManagerMove s (s.direct (.closing i))
  | close (i : Nat) (hat : s.manager = .closing i) :
      ManagerMove s ({ s with
        alreadyBoarded := Function.update s.alreadyBoarded i true
        lounge := s.lounge.releaseGate i }.direct (.closed i))
  | count (i : Nat) (hat : s.manager = .closed i) :
      ManagerMove s ({ s with planeCount := s.planeCount + 1 }.direct (.checking (i + 1)))
  | endDay (i : Nat) (hat : s.manager = .checking i) (hi : ¬ i < cfg.simNumOfAirlines)
      (hall : s.planeCount = cfg.simNumOfAirlines) : ManagerMove s (s.direct .ending)
  | report (hat : s.manager = .ending) :
      ManagerMove s ({ s with report := some s.endOfDay }.direct .finished)

theorem callNext_move {i : Nat} (hat : s.manager = .announcing i ∨ s.manager = .calling i) :
    ManagerMove s (s.callNext i) := by
  unfold callNext
  by_cases hqueue : s.lounge.gateLocksCV i = []
  · rw [if_pos hqueue]
    exact .finish i hat hqueue
  · rw [if_neg hqueue]
    exact .call i hat hqueue

theorem managerStep_move (hstep : s.managerStep = .ok s') : ManagerMove s s' := by
  -- a point of the routine with the locks and queues of the handlers as they are
  have hidle : ∀ q, s.manager.routine = true → q.routine = true → ManagerMove s (s.direct q) :=
    fun q hat hq => .idle q s.hold.cargoHandlerLock s.hold.cargoHandlerCV hat hq
  unfold managerStep at hstep
  cases hat : s.manager
  all_goals simp only [hat] at hstep
  case beginning =>
    split at hstep
    all_goals
      obtain rfl := Except.ok.inj hstep
      exact hidle _ (by simp [hat]) (by simp)
  case asking =>
    obtain ⟨t, ht, hs'⟩ := bind_eq_ok hstep
    obtain rfl := Hold.acquireCargo_ok ht
    obtain rfl := Except.ok.inj hs'
    exact .idle _ _ _ (by simp [hat]) (by simp)
  case counting =>
    obtain rfl := Except.ok.inj hstep
    refine hidle _ (by simp [hat]) ?_
    split
    all_goals simp
  case waking =>
    split at hstep
    · obtain rfl := Except.ok.inj hstep
      exact hidle _ (by simp [hat]) (by simp)
    · obtain rfl := Except.ok.inj hstep
      exact .idle _ _ _ (by simp [hat]) (by simp)
  case woken =>
    obtain rfl := Except.ok.inj hstep
    exact .idle _ _ _ (by simp [hat]) (by simp)
  case checking i =>
    split at hstep
    · rename_i hi
      obtain rfl := Except.ok.inj hstep
      by_cases hready : s.ReadyToBoard i
      · rw [if_pos hready]
        exact .check i hat hi hready
      · rw [if_neg hready]
        exact hidle _ (by simp [hat]) (by simp)
    · rename_i hi
      obtain rfl := Except.ok.inj hstep
      by_cases hall : s.planeCount = cfg.simNumOfAirlines
      · rw [if_pos hall]
        exact .endDay i hat hi hall
      · rw [if_neg hall]
        exact hidle _ (by simp [hat]) (by simp)
  case opening i =>
    obtain ⟨t, ht, hs'⟩ := bind_eq_ok hstep
    obtain ⟨hfree, rfl⟩ := Lounge.acquireGate_ok ht
    obtain rfl := Except.ok.inj hs'
    exact .open i hat hfree
  case announcing i =>
    obtain rfl := Except.ok.inj hstep
    exact callNext_move (Or.inl hat)
  case calling i =>
    obtain rfl := Except.ok.inj hstep
    exact callNext_move (Or.inr hat)
  case closing i =>
    obtain rfl := Except.ok.inj hstep
    exact .close i hat
  case closed i =>
    obtain rfl := Except.ok.inj hstep
    exact .count i hat
  case ending =>
    obtain rfl := Except.ok.inj hstep
    exact .report hat
  case finished => exact absurd hstep (by simp)

/-- What a step of the simulation does. -/
inductive Move (s : Simulation cfg) : Simulation cfg → Prop
  | hallPassenger (p : cfg.Passenger) (hall : Hall cfg) (hp : s.hall.passenger p ≠ .directed)
      (hmove : Hall.PassengerMove s.hall p hall) : Move s { s with hall := hall }
  | liaison (l : Nat) (hall : Hall cfg) (hl : l < cfg.simNumOfLiaisons)
      (hmove : Hall.LiaisonMove s.hall l hall) : Move s { s with hall := hall }
  | counterPassenger (p : cfg.Passenger) (counters : Counters cfg)
      (hp : s.hall.passenger p = .directed) (hnot : s.counters.passenger p ≠ .left)
      (hmove : Counters.PassengerMove s.counters (s.hall.airline p) p counters) :
      Move s { s with counters := counters }
  | officer (k : Nat) (counters : Counters cfg) (hk : k < cfg.counters)
      (hmove : Counters.OfficerMove s.counters k counters) :
      Move s { s with counters := counters }
  | handler (h : cfg.Handler) (conveyor : List Baggage) (hold : Hold cfg)
      (hmove : Hold.HandlerMove s.hold h s.counters.conveyor conveyor hold) :
      Move s { s with counters := { s.counters with conveyor := conveyor }, hold := hold }
  | gatePassenger (p : cfg.Passenger) (lounge : Lounge cfg) (hp : s.hall.passenger p = .directed)
      (hleft : s.counters.passenger p = .left)
      (hmove : Lounge.PassengerMove s.lounge (s.hall.airline p) p lounge) :
      Move s { s with lounge := lounge }
  | manager (s' : Simulation cfg) (hmove : ManagerMove s s') : Move s s'

theorem step_move {t : Turn cfg} (hstep : step t s = .ok s') : Move s s' := by
  cases t with
  | passenger p junk =>
      simp only [step, passengerStep] at hstep
      split at hstep
      · rename_i hp
        obtain ⟨hall, hall', hs'⟩ := bind_eq_ok hstep
        obtain rfl := Except.ok.inj hs'
        exact .hallPassenger p hall hp (Hall.passengerStep_move hall')
      · rename_i hp
        split at hstep
        · rename_i hnot
          obtain ⟨counters, hcounters, hs'⟩ := bind_eq_ok hstep
          obtain rfl := Except.ok.inj hs'
          exact .counterPassenger p counters (not_not.mp hp) hnot
            (Counters.passengerStep_move hcounters)
        · rename_i hleft
          obtain ⟨lounge, hlounge, hs'⟩ := bind_eq_ok hstep
          obtain rfl := Except.ok.inj hs'
          exact .gatePassenger p lounge (not_not.mp hp) (not_not.mp hleft)
            (Lounge.passengerStep_move hlounge)
  | liaison l draw =>
      simp only [step] at hstep
      split at hstep
      · rename_i hl
        obtain ⟨hall, hall', hs'⟩ := bind_eq_ok hstep
        obtain rfl := Except.ok.inj hs'
        exact .liaison l hall hl (Hall.liaisonStep_move hall')
      · exact absurd hstep (by simp)
  | officer k =>
      simp only [step] at hstep
      split at hstep
      · rename_i hk
        obtain ⟨counters, hcounters, hs'⟩ := bind_eq_ok hstep
        obtain rfl := Except.ok.inj hs'
        exact .officer k counters hk (Counters.officerStep_move hcounters)
      · exact absurd hstep (by simp)
  | handler h =>
      obtain ⟨⟨conveyor, hold⟩, hhold, hs'⟩ := bind_eq_ok hstep
      obtain rfl := Except.ok.inj hs'
      exact .handler h conveyor hold (Hold.handlerStep_move hhold)
  | manager => exact .manager s' (managerStep_move hstep)

end Moves

end Simulation
end Airport
end Nachos
