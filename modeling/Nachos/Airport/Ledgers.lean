import Nachos.Airport.SimulationMoves

/-!
# The ledgers of the simulation

Every passenger is in one area at a time, and every bag that a passenger has handed over is at a
desk, on the conveyor, in the hands of a handler or on a plane.  The counters of the planes, of
the check-in officers and of the handlers are sums over these bags.
-/

namespace Nachos
namespace Airport

open Lib

namespace Simulation

variable {cfg : Settings} {s s' : Simulation cfg} {p : cfg.Passenger} {a : Nat} {w : Nat → Nat}

section Areas

/-- The manager does not touch the hall, the counters and the bags. -/
theorem ManagerMove.frame (hmove : ManagerMove s s') :
    s'.hall = s.hall ∧ s'.counters = s.counters ∧ s'.hold.handler = s.hold.handler ∧
      s'.hold.aircraftBaggageCount = s.hold.aircraftBaggageCount ∧
      s'.hold.aircraftBaggageWeight = s.hold.aircraftBaggageWeight := by
  cases hmove
  all_goals exact ⟨rfl, rfl, rfl, rfl, rfl⟩

/-- The manager does not move passengers, or count them. -/
theorem ManagerMove.lounge (hmove : ManagerMove s s') :
    s'.lounge.passenger = s.lounge.passenger ∧
      s'.lounge.boardingLounges = s.lounge.boardingLounges := by
  cases hmove
  all_goals exact ⟨rfl, rfl⟩

/-- What the areas are by themselves, and who is where. -/
structure Placed (s : Simulation cfg) : Prop where
  hall : s.hall.Sound
  counters : s.counters.Sound s.hall.airline
  directed : ∀ p, s.counters.passenger p ≠ .arriving → s.hall.passenger p = .directed
  left : ∀ p a, (s.lounge.passenger p).airline = some a →
    s.counters.passenger p = .left ∧ s.hall.airline p = a

theorem placed_start (cfg : Settings) : (start cfg).Placed where
  hall := Hall.sound_start cfg
  counters := Counters.sound_start cfg _
  directed := fun p hp => absurd rfl hp
  left := fun p a hp => by simp [start, Lounge.start] at hp

/-- The hall of a simulation changes, and nobody that has left it is concerned. -/
theorem Placed.inHall (h : s.Placed) {hall : Hall cfg} (hsound : hall.Sound)
    (hkeep : ∀ p, s.hall.passenger p = .directed →
      hall.passenger p = .directed ∧ hall.airline p = s.hall.airline p) :
    Placed { s with hall := hall } where
  hall := hsound
  counters := h.counters.congr fun p hp => (hkeep p (h.directed p hp)).2
  directed := fun p hp => (hkeep p (h.directed p hp)).1
  left := by
    intro p a hp
    obtain ⟨hleft, rfl⟩ := h.left p a hp
    have hdirected := h.directed p (by simp [hleft])
    exact ⟨hleft, (hkeep p hdirected).2⟩

/-- Every step keeps everybody in its place. -/
theorem Placed.move (h : s.Placed) (hmove : Move s s') : s'.Placed := by
  cases hmove with
  | hallPassenger p hall hp hmove =>
      exact h.inHall (h.hall.passenger hmove) fun u hu => hmove.directed hp hu
  | liaison l hall hl hmove =>
      refine h.inHall (h.hall.liaison hl hmove) fun u hu => ?_
      rw [hmove.frame.1, hmove.frame.2]
      exact ⟨hu, rfl⟩
  | counterPassenger p counters hp hnot hmove =>
      obtain ⟨q, hgo⟩ := hmove.exists_go
      refine ⟨h.hall, h.counters.passenger (h.hall.airline_lt hp) hmove, fun u hu => ?_,
        fun u a hu => ?_⟩
      · by_cases hup : u = p
        · rw [hup]
          exact hp
        · rw [hgo, Function.update_of_ne hup] at hu
          exact h.directed u hu
      · obtain ⟨hleft, hairline⟩ := h.left u a hu
        have hup : u ≠ p := by
          rintro rfl
          exact hnot hleft
        rw [hgo, Function.update_of_ne hup]
        exact ⟨hleft, hairline⟩
  | officer k counters hk hmove =>
      have hframe := (Counters.officer_frame hmove).1
      refine ⟨h.hall, h.counters.officer hk hmove, ?_, ?_⟩
      all_goals rw [hframe]
      · exact h.directed
      · exact h.left
  | handler g conveyor hold hmove =>
      have hcounters := h.counters
      exact ⟨h.hall, ⟨hcounters.locked, hcounters.lined,
        ⟨hcounters.routed.passengers, hcounters.routed.helpers⟩, hcounters.staged,
        ⟨hcounters.bagged.empty, hcounters.bagged.full, hcounters.bagged.taken,
          hcounters.bagged.marked⟩⟩, h.directed, h.left⟩
  | gatePassenger p lounge hp hleft hmove =>
      obtain ⟨q, hgo, hairline, -⟩ := hmove.exists_go
      refine ⟨h.hall, h.counters, h.directed, fun u a hu => ?_⟩
      by_cases hup : u = p
      · subst hup
        rw [hgo, Function.update_self, hairline] at hu
        refine ⟨hleft, ?_⟩
        cases hold : (s.lounge.passenger u).airline with
        | none =>
            rw [hold] at hu
            exact Option.some.inj hu
        | some b =>
            rw [hold] at hu
            rw [(h.left u b hold).2]
            exact Option.some.inj hu
      · rw [hgo, Function.update_of_ne hup] at hu
        exact h.left u a hu
  | manager s' hmove =>
      obtain ⟨hhall, hcounters, -⟩ := hmove.frame
      refine ⟨?_, ?_, ?_, ?_⟩
      · rw [hhall]
        exact h.hall
      · rw [hhall, hcounters]
        exact h.counters
      · rw [hhall, hcounters]
        exact h.directed
      · rw [hhall, hcounters, hmove.lounge.1]
        exact h.left

/-- The gates are in order. -/
structure Gated (s : Simulation cfg) : Prop where
  locked : s.lounge.Locked s.manager.gate
  queued : s.lounge.Queued
  counted : s.lounge.Counted

theorem gated_start (cfg : Settings) : (start cfg).Gated where
  locked := Lounge.locked_start cfg
  queued := Lounge.queued_start cfg
  counted := Lounge.counted_start cfg

theorem Gated.manager (h : s.Gated) (hmove : ManagerMove s s') : s'.Gated := by
  have hlocked := h.locked
  cases hmove with
  | idle q lock queue hat hq =>
      have hgate : ∀ m : ManagerPoint, m.routine = true → m.gate = none := by
        intro m hm
        cases m
        all_goals simp at hm ⊢
      rw [hgate _ hat] at hlocked
      exact ⟨by rw [direct, hgate q hq]; exact hlocked, h.queued, h.counted⟩
  | check i hat hi hready | endDay i hat hi hall | count i hat | report hat =>
      rw [hat] at hlocked
      exact ⟨hlocked, h.queued, h.counted⟩
  | «open» i hat hfree =>
      rw [hat] at hlocked
      exact ⟨hlocked.takeGate hfree, h.queued, h.counted⟩
  | call i hat hqueue =>
      refine ⟨?_, h.queued.signal i, h.counted⟩
      rcases hat with hat | hat
      all_goals
        rw [hat] at hlocked
        exact hlocked
  | finish i hat hqueue =>
      refine ⟨?_, h.queued, h.counted⟩
      rcases hat with hat | hat
      all_goals
        rw [hat] at hlocked
        exact hlocked
  | close i hat =>
      rw [hat] at hlocked
      exact ⟨hlocked.releaseGate, h.queued, h.counted⟩

theorem Gated.move (h : s.Gated) (hmove : Move s s') : s'.Gated := by
  cases hmove with
  | gatePassenger p lounge hp hleft hmove =>
      exact ⟨h.locked.passenger hmove, h.queued.passenger hmove, h.counted.passenger hmove⟩
  | manager s' hmove => exact h.manager hmove
  | _ => exact ⟨h.locked, h.queued, h.counted⟩

end Areas

section Bags

/-- What the bags of airline `a` are worth that passengers have handed over. -/
def entrusted (s : Simulation cfg) (w : Nat → Nat) (a : Nat) : Nat :=
  s.counters.entrusted s.hall.airline w a

/-- What the bags of airline `a` are worth between the passengers and the planes. -/
def underway (s : Simulation cfg) (w : Nat → Nat) (a : Nat) : Nat :=
  s.counters.atDesks CheckInOfficer.inHand w a + worthOf w a s.counters.conveyor +
    s.hold.carried w a

/-- What the bags of airline `a` are worth that officers have taken, recorded or not. -/
def taken (s : Simulation cfg) (w : Nat → Nat) (a : Nat) : Nat :=
  s.counters.atDesks CheckInOfficer.unrecorded w a + s.counters.recorded w a

/-- The bags in `gone` come onto the planes, and no other bag comes or goes except with the
passengers. -/
structure Transfer (s : Simulation cfg) (gone : List Baggage) (s' : Simulation cfg) : Prop where
  bags : ∀ w a, s'.entrusted w a + s.underway w a =
    s.entrusted w a + s'.underway w a + worthOf w a gone
  taken : ∀ w a, s'.entrusted w a + s.taken w a = s.entrusted w a + s'.taken w a
  counts : ∀ a, s'.hold.aircraftBaggageCount a =
    s.hold.aircraftBaggageCount a + worthOf (fun _ => 1) a gone
  weights : ∀ a, s'.hold.aircraftBaggageWeight a =
    s.hold.aircraftBaggageWeight a + worthOf id a gone
  count : ∀ a, ∑ h, (s'.hold.handler h).count a =
    (∑ h, (s.hold.handler h).count a) + worthOf (fun _ => 1) a gone
  weight : ∀ a, ∑ h, (s'.hold.handler h).weight a =
    (∑ h, (s.hold.handler h).weight a) + worthOf id a gone

/-- The planes and the handlers are as they were. -/
theorem Transfer.aside (hhandler : s'.hold.handler = s.hold.handler)
    (hcounts : s'.hold.aircraftBaggageCount = s.hold.aircraftBaggageCount)
    (hweights : s'.hold.aircraftBaggageWeight = s.hold.aircraftBaggageWeight)
    (hbags : ∀ w a, s'.entrusted w a + s.underway w a = s.entrusted w a + s'.underway w a)
    (htaken : ∀ w a, s'.entrusted w a + s.taken w a = s.entrusted w a + s'.taken w a) :
    s.Transfer [] s' where
  bags := fun w a => by rw [worthOf_nil, hbags w a, Nat.add_zero]
  taken := htaken
  counts := fun a => by rw [hcounts, worthOf_nil, Nat.add_zero]
  weights := fun a => by rw [hweights, worthOf_nil, Nat.add_zero]
  count := fun a => by rw [hhandler, worthOf_nil, Nat.add_zero]
  weight := fun a => by rw [hhandler, worthOf_nil, Nat.add_zero]

/-- The hall has no bags. -/
theorem Transfer.inHall (h : s.Placed) {hall : Hall cfg}
    (hkeep : ∀ p, s.hall.passenger p = .directed → hall.airline p = s.hall.airline p) :
    s.Transfer [] { s with hall := hall } := by
  have hsame : ∀ w a, entrusted { s with hall := hall } w a = s.entrusted w a := fun w a =>
    Counters.entrusted_congr fun p hp => hkeep p (h.directed p hp)
  refine .aside rfl rfl rfl (fun w a => ?_) fun w a => ?_
  all_goals
    rw [hsame w a]
    rfl

/-- Every step is a transfer of some bags. -/
theorem Move.transfer (h : s.Placed) (hmove : Move s s') : ∃ gone, s.Transfer gone s' := by
  cases hmove with
  | hallPassenger p hall hp hmove =>
      exact ⟨[], .inHall h fun u hu => (hmove.directed hp hu).2⟩
  | liaison l hall hl hmove =>
      exact ⟨[], .inHall h fun u _ => by rw [hmove.frame.2]⟩
  | counterPassenger p counters hp hnot hmove =>
      have haccounts := fun rest w a => Counters.passenger_accounts (w := w) (a := a) rest
        h.counters.staged h.counters.routed h.counters.bagged hmove
      refine ⟨[], .aside rfl rfl rfl (fun w a => ?_) fun w a => ?_⟩
      · obtain ⟨hdesks, hconveyor, -⟩ := haccounts CheckInOfficer.inHand w a
        simp only [entrusted, underway, hconveyor]
        omega
      · obtain ⟨hdesks, -, hrecorded⟩ := haccounts CheckInOfficer.unrecorded w a
        simp only [entrusted, Simulation.taken, hrecorded]
        omega
  | officer k counters hk hmove =>
      have hsame : ∀ w a, entrusted { s with counters := counters } w a = s.entrusted w a :=
        fun w a => Counters.entrusted_same fun u => by rw [(Counters.officer_frame hmove).1]
      refine ⟨[], .aside rfl rfl rfl (fun w a => ?_) fun w a => ?_⟩
      · have hdesks := Counters.officer_conveyor (w := w) (a := a) hk h.counters.bagged hmove
        simp only [hsame w a, underway]
        omega
      · have hdesks := Counters.officer_recorded (w := w) (a := a) hk h.counters.bagged hmove
        simp only [hsame w a, Simulation.taken]
        omega
  | handler g conveyor hold hmove =>
      obtain ⟨gone, hloads⟩ := hmove.loads
      refine ⟨gone, fun w a => ?_, fun w a => rfl, hloads.counts, hloads.weights, hloads.count,
        hloads.weight⟩
      have hbags := hloads.bags w a
      have hdesks : Counters.atDesks CheckInOfficer.inHand { s.counters with conveyor := conveyor }
          w a = s.counters.atDesks CheckInOfficer.inHand w a := rfl
      have hentrusted : entrusted { s with
          counters := { s.counters with conveyor := conveyor }, hold := hold } w a =
          s.entrusted w a := rfl
      simp only [hentrusted, underway, hdesks]
      omega
  | gatePassenger p lounge hp hleft hmove =>
      exact ⟨[], .aside rfl rfl rfl (fun _ _ => rfl) fun _ _ => rfl⟩
  | manager s' hmove =>
      obtain ⟨hhall, hcounters, hhandler, hcounts, hweights⟩ := hmove.frame
      refine ⟨[], .aside hhandler hcounts hweights (fun w a => ?_) fun w a => ?_⟩
      · simp only [entrusted, underway, Hold.carried, hhall, hcounters, hhandler]
      · simp only [entrusted, Simulation.taken, hhall, hcounters]

/-- The counters are sums over the bags. -/
structure Balanced (s : Simulation cfg) : Prop where
  counts : ∀ a, s.entrusted (fun _ => 1) a =
    s.underway (fun _ => 1) a + s.hold.aircraftBaggageCount a
  weights : ∀ a, s.entrusted id a = s.underway id a + s.hold.aircraftBaggageWeight a
  taken : ∀ w a, s.entrusted w a = s.taken w a
  count : ∀ a, ∑ h, (s.hold.handler h).count a = s.hold.aircraftBaggageCount a
  weight : ∀ a, ∑ h, (s.hold.handler h).weight a = s.hold.aircraftBaggageWeight a

theorem balanced_start (cfg : Settings) : (start cfg).Balanced := by
  have hentrusted : ∀ w a, (start cfg).entrusted w a = 0 := by
    intro w a
    unfold entrusted Counters.entrusted
    exact tally_none _ fun p => by simp [start, Counters.start]
  have hdesks : ∀ rest, rest (⟨.beginning, false, 0, [], []⟩ : CheckInOfficer) = [] → ∀ w a,
      (start cfg).counters.atDesks rest w a = 0 := by
    intro rest hrest w a
    refine Finset.sum_eq_zero fun k _ => ?_
    simp [Counters.atDesk, start, Counters.start, hrest]
  have hunderway : ∀ w a, (start cfg).underway w a = 0 := by
    intro w a
    have hhand := hdesks CheckInOfficer.inHand rfl w a
    simp only [underway, hhand]
    simp [start, Counters.start, Hold.carried, Hold.start]
  refine ⟨fun a => ?_, fun a => ?_, fun w a => ?_, fun a => ?_, fun a => ?_⟩
  · rw [hentrusted, hunderway]
    rfl
  · rw [hentrusted, hunderway]
    rfl
  · have hunrecorded := hdesks CheckInOfficer.unrecorded rfl w a
    rw [hentrusted, Simulation.taken, hunrecorded]
    simp [Counters.recorded, start, Counters.start]
  · simp [start, Hold.start]
  · simp [start, Hold.start]

theorem Balanced.move (h : s.Balanced) (hplaced : s.Placed) (hmove : Move s s') :
    s'.Balanced := by
  obtain ⟨gone, htransfer⟩ := hmove.transfer hplaced
  refine ⟨fun a => ?_, fun a => ?_, fun w a => ?_, fun a => ?_, fun a => ?_⟩
  · have hbags := htransfer.bags (fun _ => 1) a
    have hcounts := htransfer.counts a
    have hold := h.counts a
    omega
  · have hbags := htransfer.bags id a
    have hweights := htransfer.weights a
    have hold := h.weights a
    omega
  · have htaken := htransfer.taken w a
    have hold := h.taken w a
    omega
  · rw [htransfer.count, htransfer.counts, h.count]
  · rw [htransfer.weight, htransfer.weights, h.weight]

end Bags

end Simulation
end Airport
end Nachos
