import Nachos.Airport.Boarding
import Nachos.Airport.Seats
import Mathlib.Algebra.BigOperators.Fin
import Mathlib.Algebra.BigOperators.Group.Finset.Piecewise

/-!
# The end of the day

When the manager has called all planes, every passenger is at its gate.  So no desk has a bag that
is not recorded, and no bag is between the passengers and the planes: the ledgers of liaisons,
check-in officers and cargo handlers agree with those of the passengers.
-/

namespace Nachos
namespace Airport

open Lib

section Totals

theorem foldl_add {I : Type} (f : I → Nat) :
    ∀ (l : List I) (n : Nat), l.foldl (fun total i => total + f i) n = n + (l.map f).sum := by
  intro l
  induction l with
  | nil => simp
  | cons i l ih =>
      intro n
      rw [List.foldl_cons, ih, List.map_cons, List.sum_cons, Nat.add_assoc]

theorem foldl_range (f : Nat → Nat) (n : Nat) :
    (List.range n).foldl (fun total i => total + f i) 0 = ∑ i ∈ Finset.range n, f i := by
  rw [foldl_add, Nat.zero_add]
  rfl

theorem foldl_finRange (n : Nat) (f : Fin n → Nat) :
    (List.finRange n).foldl (fun total i => total + f i) 0 = ∑ i, f i := by
  rw [foldl_add, Nat.zero_add, Fin.sum_univ_def]

variable {a : Nat}

/-- The weights of the bags of an officer. -/
theorem foldl_bags : ∀ (bags : List Baggage) (totals : Nat → Nat),
    bags.foldl (fun totals b => Function.update totals b.airlineCode
      (totals b.airlineCode + b.weight)) totals a = totals a + worthOf id a bags := by
  intro bags
  induction bags with
  | nil => simp
  | cons b bags ih =>
      intro totals
      have hbag := Hold.update_add (a := a) totals b id
      rw [worthOf_singleton] at hbag
      rw [List.foldl_cons, ih, worthOf_cons]
      simp only [id] at hbag ⊢
      omega

/-- The weights of the bags of all officers. -/
theorem foldl_officers (bags : Nat → List Baggage) :
    ∀ (l : List Nat) (totals : Nat → Nat),
      l.foldl (fun totals k => (bags k).foldl (fun totals b => Function.update totals b.airlineCode
        (totals b.airlineCode + b.weight)) totals) totals a =
        totals a + (l.map fun k => worthOf id a (bags k)).sum := by
  intro l
  induction l with
  | nil => simp
  | cons k l ih =>
      intro totals
      rw [List.foldl_cons, ih, foldl_bags, List.map_cons, List.sum_cons, Nat.add_assoc]

end Totals

namespace GateVisit

/-- The gate that the passenger is counted at. -/
def loungeOf : GateVisit → Option Nat
  | counted a | waiting a | boarding a | boarded a => some a
  | _ => none

theorem loungeOf_eq_some {q : GateVisit} {a : Nat} :
    q.loungeOf = some a ↔ q.inLounge a = true := by
  cases q
  all_goals simp [loungeOf]

/-- Whoever is counted at a gate is of its airline. -/
theorem airline_of_loungeOf {q : GateVisit} {a : Nat} (h : q.loungeOf = some a) :
    q.airline = some a := by
  cases q
  all_goals simp [loungeOf] at h
  all_goals simp [h]

end GateVisit

namespace Simulation

variable {cfg : Settings} {s : Simulation cfg} {p : cfg.Passenger} {a : Nat} {w : Nat → Nat}

section Report

theorem endOfDay_liaisonTotalCount (s : Simulation cfg) (a : Nat) : s.endOfDay.liaisonTotalCount a =
    ∑ l ∈ Finset.range cfg.simNumOfLiaisons, (s.hall.liaison l).airlineBaggageCount a :=
  foldl_range _ _

theorem endOfDay_cioTotalWeight (s : Simulation cfg) (a : Nat) :
    s.endOfDay.cioTotalWeight a = s.counters.recorded id a :=
  (foldl_officers _ _ _).trans (Nat.zero_add _)

theorem endOfDay_cargoHandlerTotalCount (s : Simulation cfg) (a : Nat) :
    s.endOfDay.cargoHandlerTotalCount a = ∑ h, (s.hold.handler h).count a :=
  foldl_finRange _ _

theorem endOfDay_cargoHandlerTotalWeight (s : Simulation cfg) (a : Nat) :
    s.endOfDay.cargoHandlerTotalWeight a = ∑ h, (s.hold.handler h).weight a :=
  foldl_finRange _ _

end Report

section Nothing

/-- Where there is no bag, nothing is worth anything. -/
theorem worth_eq_zero {bags : List Baggage} (h : worth (fun _ => 1) bags = 0) :
    worth w bags = 0 := by
  have hlength : bags.length = 0 := by simpa [worth] using h
  rw [List.length_eq_zero_iff.mp hlength, worth_nil]

theorem underway_eq_zero (h : s.underway (fun _ => 1) a = 0) : s.underway w a = 0 := by
  unfold underway at h ⊢
  have hdesks : s.counters.atDesks CheckInOfficer.inHand w a = 0 := by
    have hnone : s.counters.atDesks CheckInOfficer.inHand (fun _ => 1) a = 0 := by omega
    refine Finset.sum_eq_zero fun k hk => ?_
    have hdesk := Finset.sum_eq_zero_iff.mp hnone k hk
    unfold Counters.atDesk at hdesk ⊢
    by_cases ha : cfg.airlineOf k = a
    · rw [if_pos ha] at hdesk ⊢
      exact worth_eq_zero hdesk
    · rw [if_neg ha]
  have hconveyor : worthOf w a s.counters.conveyor = 0 := by
    have hnone : worthOf (fun _ => 1) a s.counters.conveyor = 0 := by omega
    exact worth_eq_zero hnone
  have hcarried : s.hold.carried w a = 0 := by
    have hnone : s.hold.carried (fun _ => 1) a = 0 := by omega
    refine Finset.sum_eq_zero fun h hh => ?_
    exact worth_eq_zero (Finset.sum_eq_zero_iff.mp hnone h hh)
  omega

end Nothing

section Accounts

/-- All planes of the simulation have been called. -/
theorem Announced.all_boarded (h : s.Announced) (hat : s.manager = .ending)
    (ha : a < cfg.simNumOfAirlines) : s.alreadyBoarded a = true := by
  have hplanes := h.planes
  rw [h.ended hat, hat] at hplanes
  have hcard : (Finset.range cfg.simNumOfAirlines).card =
      ((Finset.range cfg.simNumOfAirlines).filter fun a => s.alreadyBoarded a = true).card := by
    rw [Finset.card_filter, Finset.card_range]
    exact hplanes
  exact Finset.card_filter_eq_iff.mp hcard.symm a (Finset.mem_range.mpr ha)

/-- At the end of the day everybody is at a gate. -/
theorem Announced.everybody (h : s.Announced) (hsound : s.Sound)
    (hairlines : 0 < cfg.simNumOfAirlines) (hat : s.manager = .ending) (p : cfg.Passenger) :
    ∃ a, (s.lounge.passenger p).inLounge a = true := by
  have hairline : ∀ p a, (s.lounge.passenger p).loungeOf = some a →
      a ∈ Finset.range cfg.simNumOfAirlines := by
    intro p a ha
    obtain ⟨hleft, rfl⟩ := hsound.placed.left p a (GateVisit.airline_of_loungeOf ha)
    exact Finset.mem_range.mpr
      (hsound.placed.hall.airline_lt (hsound.placed.directed p (by simp [hleft])))
  have hall : tally (fun _ => 1) (fun p => (s.lounge.passenger p).loungeOf.isSome = true) =
      cfg.simNumOfPassengers := by
    refine Eq.trans ?_ (cfg.sum_totalPassengersOfAirline hairlines)
    rw [← sum_tally (fun _ => 1) hairline]
    refine Finset.sum_congr rfl fun a ha => ?_
    have hfull := h.full a (Or.inr (h.all_boarded hat (Finset.mem_range.mp ha)))
    rw [← hfull.1, hsound.gated.counted a]
    exact tally_congr _ fun p => GateVisit.loungeOf_eq_some
  by_contra hnot
  have hnone : ¬ (s.lounge.passenger p).loungeOf.isSome = true := by
    intro hsome
    obtain ⟨a, ha⟩ := Option.isSome_iff_exists.mp hsome
    exact hnot ⟨a, GateVisit.loungeOf_eq_some.mp ha⟩
  have hlt := tally_lt_card (P := fun p => (s.lounge.passenger p).loungeOf.isSome = true) hnone
  rw [hall, Fintype.card_fin] at hlt
  exact absurd hlt (Nat.lt_irrefl _)

/-- Everybody of an airline that has been called is at the gate. -/
theorem Announced.left (h : s.Announced) (hsound : s.Sound) (ha : s.alreadyBoarded a = true)
    (hp : s.hall.Flies p a) : s.counters.passenger p = .left :=
  (hsound.placed.left p a (airline_of_settled (h.gathered a (Or.inr ha) p hp.ticket))).1

/-- What passengers have handed over is what they brought. -/
theorem Announced.entrusted_eq (h : s.Announced) (hsound : s.Sound)
    (ha : s.alreadyBoarded a = true) :
    s.entrusted w a = tally (fun p => ((cfg.bags p).map w).sum) (fun p => s.hall.Flies p a) := by
  unfold entrusted Counters.entrusted
  refine tally_congr _ fun p => ⟨fun hp => ?_, fun hp => ⟨?_, hp.2⟩⟩
  · rw [← hp.2]
    exact hsound.placed.flies_of_handed hp.1
  · simp [h.left hsound ha hp]

/-- No officer of an airline that has been called has a guest. -/
theorem Announced.no_guest (h : s.Announced) (hsound : s.Sound) (ha : s.alreadyBoarded a = true)
    {k : Nat} (hk : cfg.airlineOf k = a) :
    s.counters.passenger p ≠ .handed k ∧ s.counters.passenger p ≠ .waiting k := by
  have hroute := hsound.placed.counters.routed.passengers p
  have hleft : s.hall.airline p = a → s.counters.passenger p ≠ .arriving →
      s.counters.passenger p = .left := by
    intro hairline hnot
    have hdirected := hsound.placed.directed p hnot
    exact h.left hsound ha ⟨by simp [hdirected], hairline⟩
  constructor
  all_goals
    intro hat
    rw [Counters.RouteOf, hat] at hroute
    have habs := hleft (hroute.1.symm.trans hk) (by simp [hat])
    simp [hat] at habs

/-- No bag of an airline that has been called is taken and not recorded. -/
theorem Announced.taken_eq (h : s.Announced) (hsound : s.Sound) (ha : s.alreadyBoarded a = true) :
    s.taken w a = s.counters.recorded w a := by
  have hdesks : s.counters.atDesks CheckInOfficer.unrecorded w a = 0 := by
    refine Finset.sum_eq_zero fun k _ => ?_
    unfold Counters.atDesk
    by_cases hk : cfg.airlineOf k = a
    · have hslot : (s.counters.cpInfo k).bag = [] := by
        by_contra hbag
        obtain ⟨-, p, hp⟩ := hsound.placed.counters.bagged.empty k hbag
        obtain ⟨hhanded, hwaiting⟩ := h.no_guest (p := p) hsound ha hk
        exact hp.elim hhanded hwaiting
      have hhand : (s.counters.officer k).unrecorded = [] := by
        have hserving : (s.counters.officer k).point.clerk = .serving →
            (s.counters.officer k).point.holdsLock = true → False := by
          intro hclerk hheld
          obtain ⟨p, hp⟩ := hsound.placed.counters.staged.exists_guest
            hsound.placed.counters.locked hclerk hheld
          exact (h.no_guest (p := p) hsound ha hk).2 hp
        unfold CheckInOfficer.unrecorded
        cases hat : (s.counters.officer k).point
        all_goals first | rfl | exact absurd (hserving (by simp [hat]) (by simp [hat])) id
      rw [hslot, hhand, List.append_nil, worth_nil, if_pos hk]
    · rw [if_neg hk]
  rw [Simulation.taken, hdesks, Nat.zero_add]

end Accounts

end Simulation
end Airport
end Nachos
