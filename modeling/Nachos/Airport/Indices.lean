import Nachos.Airport.Arrays
import Nachos.Airport.Seats

/-!
# The indices at the liaisons, the counters and the gates

What a thread uses in its next step, and why it is inside the bounds: the lines are those that the
loops over them have found, and every airline is that of a ticket.  A passenger reads its airline
in `LPInfo`, and an executive passenger its officer in `CPInfo`, only after somebody has written it
there.  What is written on a bag is the airline of a passenger that has handed it over.
-/

namespace Nachos
namespace Airport

open Lib

namespace LiaisonVisit

/-- The line of a passenger. -/
def line : LiaisonVisit → Option Nat
  | arriving | choosing | directed => none
  | inLine l | called l | stepping l | entered l | announced l | waiting l | assigned l | thanking l
  | lingering l | leaving l => some l

end LiaisonVisit

namespace Hall

variable {cfg : Settings} {s s' : Hall cfg} {p : cfg.Passenger} {l : Nat}

/-- What the next step of a passenger uses. -/
def passengerUses (s : Hall cfg) (p : cfg.Passenger) : List Access :=
  match s.passenger p with
  | .choosing =>
      usesIn 0 cfg.simNumOfLiaisons [.liaisonLine] ++
        usesAt s.shortestLine [.liaisonLine, .liaisonLineCV]
  | .stepping l | .leaving l => usesAt l [.liaisonLineLocks]
  | .entered l => usesAt l [.lpInfo, .liaisonOfficerCV, .liaisonLineLocks]
  | .announced l | .thanking l => usesAt l [.liaisonOfficerCV, .liaisonLineLocks]
  | .assigned l =>
      usesAt l [.lpInfo, .liaisonLine, .liaisonOfficerCV, .liaisonLineLocks] ++
        usesAt (s.lpInfo l).airline [.totalBaggage, .totalWeight]
  | .arriving | .inLine _ | .called _ | .waiting _ | .lingering _ | .directed => []

/-- What the next step of liaison `l` uses; `draw` is what `rand()` gives. -/
def liaisonUses (s : Hall cfg) (draw l : Nat) : List Access :=
  match (s.liaison l).point with
  | .looking => usesAt l [.liaisonLine, .liaisonLineCV]
  | .calling | .locking => usesAt l [.liaisonLineLocks]
  | .ready | .assigning => usesAt l [.liaisonOfficerCV, .liaisonLineLocks]
  | .seating =>
      usesAt (draw % cfg.simNumOfAirlines)
        [.ticketsIssued, .totalPassengersOfAirline, .airlineBaggageCount] ++ usesAt l [.lpInfo]
  | .seated =>
      usesAt l [.lpInfo, .liaisonOfficerCV, .liaisonLineLocks] ++
        usesAt (s.liaison l).airline [.liaisonBaggageCount]
  | .closing => usesAt l [.lpInfo, .liaisonOfficerCV, .liaisonLineLocks]
  | .beginning | .opened | .expecting | .informed | .counted | .parting | .idle | .finished => []

/-- The passengers are in lines that there are. -/
def Ranged (s : Hall cfg) : Prop :=
  ∀ p l, (s.passenger p).line = some l → l < cfg.simNumOfLiaisons

theorem shortestLine_lt (s : Hall cfg) (hliaisons : 0 < cfg.simNumOfLiaisons) :
    s.shortestLine < cfg.simNumOfLiaisons := by
  have hrange := Counters.foldl_mem_range (f := s.liaisonLine) (n := 0) (m := cfg.simNumOfLiaisons)
    (List.range' 1 (cfg.simNumOfLiaisons - 1)) 0 (fun i hi => ?_) (by omega)
  · rw [Nat.zero_add] at hrange
    exact hrange.2
  · rw [List.mem_range'_1] at hi
    omega

/-- A passenger stays in the line that it has joined. -/
theorem PassengerMove.line (hmove : PassengerMove s p s') :
    ∃ q, s'.passenger = Function.update s.passenger p q ∧
      (q.line = none ∨ q.line = some s.shortestLine ∨ q.line = (s.passenger p).line) := by
  cases hmove with
  | arrive hat | leave l hat => exact ⟨_, rfl, Or.inl rfl⟩
  | join hat => exact ⟨_, rfl, Or.inr (Or.inl rfl)⟩
  | rise l hat | step l hat | enter l hat | announce l hat | rest l hat | wake l hat | thank l hat
  | linger l hat | part l hat => exact ⟨_, rfl, Or.inr (Or.inr (by rw [hat]; rfl))⟩

theorem Ranged.passenger (h : s.Ranged) (hliaisons : 0 < cfg.simNumOfLiaisons)
    (hmove : PassengerMove s p s') : s'.Ranged := by
  obtain ⟨q, hpassenger, hq⟩ := hmove.line
  intro u l hl
  rw [hpassenger] at hl
  by_cases hu : u = p
  · subst hu
    rw [Function.update_self] at hl
    rcases hq with hq | hq | hq
    · rw [hq] at hl
      exact absurd hl (by simp)
    · rw [hq] at hl
      rw [← Option.some.inj hl]
      exact s.shortestLine_lt hliaisons
    · exact h u l (hq ▸ hl)
  · rw [Function.update_of_ne hu] at hl
    exact h u l hl

/-- The airline that a passenger reads is that of its ticket. -/
theorem Sound.lpInfo_lt (h : s.Sound) (hat : s.passenger p = .assigned l) :
    (s.lpInfo l).airline < cfg.simNumOfAirlines := by
  have hsound := h.passenger (.thank l hat)
  refine hsound.booked.ticket_lt (p := p) (Flies.ticket ⟨?_, ?_⟩)
  · simp [Hall.go]
  · simp [Hall.go, Hall.signal, enroll]

/-- A liaison that has a seat has it for the passenger at its desk. -/
theorem Sound.seat_lt (h : s.Sound) (hat : (s.liaison l).point = .seated) :
    (s.liaison l).airline < cfg.simNumOfAirlines := by
  obtain ⟨p, -, hp⟩ := (h.staged l).of_serving (Or.inr (by simp [desk, hat]))
  have hwaiting : s.passenger p = .waiting l := by
    rcases hp with ⟨hp, -⟩ | ⟨hp, -⟩
    · have hshut := h.locked.guest_without (l := l) (by simp [hat]) p
      rw [guestAt_greeted.mp hp] at hshut
      simp at hshut
    · exact guestAt_waiting.mp hp
  refine h.booked.ticket_lt (p := p) ?_
  simp [ticket, hwaiting, seat, hat]

theorem within_passengerUses (h : s.Sound) (hranged : s.Ranged)
    (hliaisons : 0 < cfg.simNumOfLiaisons ∧ cfg.simNumOfLiaisons ≤ 7)
    (hairlines : cfg.simNumOfAirlines ≤ 5) : Within (s.passengerUses p) := by
  have hline : ∀ l, (s.passenger p).line = some l → l < 7 := fun l hl => by
    have hlt := hranged p l hl
    omega
  unfold passengerUses
  split
  case h_1 hat =>
    have hshort := s.shortestLine_lt hliaisons.1
    simp
    omega
  case h_7 l hat =>
    have hlt := hline l (by rw [hat]; rfl)
    have hairline := h.lpInfo_lt hat
    simp
    omega
  case h_2 l hat | h_3 l hat | h_4 l hat | h_5 l hat | h_6 l hat =>
    have hlt := hline l (by rw [hat]; rfl)
    simp
    omega
  all_goals simp

theorem within_liaisonUses (h : s.Sound) (draw : Nat) (hl : l < cfg.simNumOfLiaisons)
    (hliaisons : cfg.simNumOfLiaisons ≤ 7)
    (hairlines : 0 < cfg.simNumOfAirlines ∧ cfg.simNumOfAirlines ≤ 5) :
    Within (s.liaisonUses draw l) := by
  have hdraw := Nat.mod_lt draw hairlines.1
  unfold liaisonUses
  split
  case h_7 hat =>
    have hseat := h.seat_lt hat
    simp
    omega
  all_goals
    simp
    try omega

end Hall

namespace Counters

variable {cfg : Settings} {s s' : Counters cfg} {p : cfg.Passenger} {a k : Nat}

/-- What the next step of a passenger of airline `a` uses. -/
def passengerUses (s : Counters cfg) (a : Nat) (p : cfg.Passenger) : List Access :=
  match s.passenger p with
  | .choosing =>
      if cfg.economy p then
        usesIn (a * cfg.simNumOfCIOs) (a * cfg.simNumOfCIOs + cfg.simNumOfCIOs) [.checkInLine] ++
          usesAt (s.lineFor a p) [.checkInLine, .checkInBreakCV]
      else usesAt (s.lineFor a p) [.checkInLine]
  | .ringing _ i =>
      if i < cfg.simNumOfCIOs then
        usesAt (a * cfg.simNumOfCIOs + i) [.checkInLine, .checkInBreakCV]
      else []
  | .queueing k => usesAt k [.checkInCV]
  | .called k => if cfg.economy p then [] else usesAt k [.cpInfo]
  | .told k | .leaving k => usesAt k [.checkInLocks]
  | .entered k => usesAt k [.cpInfo, .checkInOfficerCV, .checkInLocks]
  | .handed k => usesAt k [.checkInOfficerCV, .checkInLocks]
  | .served k => usesAt k [.cpInfo, .checkInLine, .checkInOfficerCV, .checkInLocks]
  | .arriving | .inLine _ | .entering _ | .waiting _ | .left => []

/-- What the next step of officer `k` uses. -/
def officerUses (s : Counters cfg) (k : Nat) : List Access :=
  let a := cfg.airlineOf k
  match (s.officer k).point with
  | .looking =>
      usesAt (cfg.execLine a) [.checkInLine, .cpInfo, .checkInCV] ++
        usesAt a [.execLineNeedsHelp] ++ usesAt k [.checkInLine, .checkInCV, .checkInBreakCV]
  | .callingExec => usesAt k [.checkInLine]
  | .callingEconomy => usesAt (cfg.execLine a) [.checkInLine]
  | .counted _ | .closing => usesAt k [.checkInLocks]
  | .ready _ | .informing => usesAt k [.checkInOfficerCV, .checkInLocks]
  | .informed _ => usesAt a [.execLineNeedsHelp] ++ usesAt k [.cpInfo]
  | .loading _ => usesAt k [.cpInfo, .checkInOfficerCV, .checkInLocks] ++ usesAt a [.gates]
  | .beginning | .onBreak | .back | .opened _ | .expecting _ | .dropping _ | .dropped _
  | .parting => []

/-- The passengers that leave the counters have been at one. -/
def Ranged (s : Counters cfg) : Prop := ∀ p k, s.passenger p = .leaving k → k < cfg.counters

theorem Ranged.passenger (h : s.Ranged) {airline : cfg.Passenger → Nat}
    (hrouted : s.Routed airline) (hmove : PassengerMove s a p s') : s'.Ranged := by
  obtain ⟨q, hpassenger⟩ := hmove.exists_go
  intro u k hk
  by_cases hu : u = p
  · subst hu
    have hroute := hrouted.passengers u
    cases hmove with
    | leave j hat =>
        simp only [Counters.go, Function.update_self, CheckInVisit.leaving.injEq] at hk
        simp only [RouteOf, hat] at hroute
        rw [← hk]
        exact hroute.2
    | join q line rung hat hq | ring j i q rung hat hq =>
        simp only [Counters.go, Function.update_self] at hk
        rcases hq with rfl | rfl
        all_goals exact absurd hk (by simp)
    | _ => simp [Counters.go, Counters.queue] at hk
  · rw [hpassenger, Function.update_of_ne hu] at hk
    exact h u k hk

/-- An economy line or an executive line. -/
theorem Fits.lt {j : Nat} (h : Fits a p j) (hstaff : 0 < cfg.simNumOfCIOs)
    (ha : a < cfg.simNumOfAirlines) : j < cfg.counters + cfg.simNumOfAirlines := by
  cases heconomy : cfg.economy p with
  | true =>
      have hj := (h.1 heconomy hstaff).2
      omega
  | false =>
      rw [h.2 heconomy, Settings.execLine]
      omega

/-- The lines of an airline. -/
theorem lines_le (ha : a < cfg.simNumOfAirlines) :
    a * cfg.simNumOfCIOs + cfg.simNumOfCIOs ≤ cfg.counters := by
  have hle := Nat.mul_le_mul_right cfg.simNumOfCIOs (Nat.succ_le_of_lt ha)
  rw [Nat.succ_mul] at hle
  exact hle

theorem within_passengerUses {airline : cfg.Passenger → Nat} (hrouted : s.Routed airline)
    (hranged : s.Ranged) (hstaff : 0 < cfg.simNumOfCIOs)
    (ha : s.passenger p ≠ .arriving → airline p < cfg.simNumOfAirlines)
    (hlocks : cfg.counters ≤ 25) (hlines : cfg.counters + cfg.simNumOfAirlines ≤ 30) :
    Within (s.passengerUses (airline p) p) := by
  have hroute := hrouted.passengers p
  unfold passengerUses
  split
  case h_1 hat =>
    have hairline := ha (by simp [hat])
    have hfits := lineFor_fits s p hairline
    have hlast := lines_le hairline
    have hline := hfits.lt hstaff hairline
    split
    · rename_i heconomy
      have hj := (hfits.1 heconomy hstaff).2
      simp
      omega
    · simp
      omega
  case h_2 j i hat =>
    have hlast := lines_le (ha (by simp [hat]))
    split
    · simp
      omega
    · simp
  case h_3 j hat =>
    simp only [RouteOf, hat] at hroute
    have hline := hroute.lt hstaff (ha (by simp [hat]))
    simp
    omega
  case h_4 j hat =>
    simp only [RouteOf, hat] at hroute
    have hline := hroute.1.lt hstaff (ha (by simp [hat]))
    split
    · simp
    · simp
      omega
  case h_6 j hat =>
    have hj := hranged p j hat
    simp
    omega
  case h_5 j hat | h_7 j hat | h_8 j hat | h_9 j hat =>
    simp only [RouteOf, hat] at hroute
    have hj := hroute.2
    simp
    omega
  all_goals simp

theorem within_officerUses (hk : k < cfg.counters) (hairlines : cfg.simNumOfAirlines ≤ 5)
    (hlocks : cfg.counters ≤ 25) (hlines : cfg.counters + cfg.simNumOfAirlines ≤ 30) :
    Within (s.officerUses k) := by
  have ha : cfg.airlineOf k < cfg.simNumOfAirlines :=
    Nat.div_lt_of_lt_mul (by rw [Nat.mul_comm]; exact hk)
  have hline : cfg.execLine (cfg.airlineOf k) < 30 := by
    unfold Settings.execLine
    omega
  unfold officerUses
  split
  all_goals
    simp
    try omega

end Counters

/-- What the next step of a handler uses. -/
def Hold.handlerUses {cfg : Settings} (s : Hold cfg) (h : cfg.Handler) : List Access :=
  match (s.handler h).point with
  | .carrying b => usesAt b.airlineCode [.airlineBaggage]
  | .counting b =>
      usesAt b.airlineCode [.aircraftBaggageCount, .aircraftBaggageWeight, .handlerWeight,
        .handlerCount, .airlineBaggage]
  | .beginning | .asking | .looking | .onBreak | .loading _ => []

/-- What the next step of a passenger of airline `a` uses. -/
def Lounge.passengerUses {cfg : Settings} (s : Lounge cfg) (a : Nat) (p : cfg.Passenger) :
    List Access :=
  match s.passenger p with
  | .away => usesAt a [.gateLocks]
  | .reached b => usesAt b [.boardingLounges]
  | .counted b => usesAt b [.gateLocksCV, .gateLocks]
  | .boarding b => usesAt b [.gateLocks]
  | .waiting _ | .boarded _ => []

namespace Simulation

variable {cfg : Settings} {s s' : Simulation cfg} {p : cfg.Passenger} {a k : Nat}

/-- What `EndOfDay` uses. -/
def endOfDayUses (s : Simulation cfg) (screens : Nat) : List Access :=
  usesIn 0 cfg.simNumOfAirlines [.cargoHandlerTotalWeight, .cargoHandlerTotalCount, .handlerWeight,
    .handlerCount] ++
  usesIn 0 (cfg.simNumOfCIOs * cfg.simNumOfAirlines) [.checkIn] ++
  (List.range (cfg.simNumOfCIOs * cfg.simNumOfAirlines)).flatMap (fun k =>
    (s.counters.officer k).totalBags.flatMap fun b => usesAt b.airlineCode [.cioTotalWeight]) ++
  usesIn 0 cfg.simNumOfLiaisons [.liaisonOfficers] ++
  usesIn 0 cfg.simNumOfAirlines [.liaisonTotalCount, .airlineBaggageCount] ++
  usesIn 0 screens [.security] ++
  usesIn 0 cfg.simNumOfAirlines [.totalBaggage, .liaisonTotalCount, .cargoHandlerTotalCount,
    .totalWeight, .cioTotalWeight, .cargoHandlerTotalWeight]

/-- What the next step of the manager uses. -/
def managerUses (s : Simulation cfg) (screens : Nat) : List Access :=
  match s.manager with
  | .checking i =>
      if i < cfg.simNumOfAirlines then
        usesAt i [.boardingLounges, .totalPassengersOfAirline, .totalBaggage,
          .aircraftBaggageCount, .alreadyBoarded]
      else []
  | .opening i => usesAt i [.gateLocks]
  | .announcing i | .calling i => usesAt i [.gateLocksCV, .gateLocks]
  | .closing i => usesAt i [.alreadyBoarded, .gateLocks]
  | .ending => s.endOfDayUses screens
  | .beginning | .asking | .counting | .waking | .woken | .closed _ | .finished => []

/-- What the next step uses. -/
def uses (s : Simulation cfg) (screens : Nat) : Turn cfg → List Access
  | .passenger p _ =>
      if s.hall.passenger p ≠ .directed then s.hall.passengerUses p
      else if s.counters.passenger p ≠ .left then s.counters.passengerUses (s.hall.airline p) p
      else s.lounge.passengerUses (s.hall.airline p) p
  | .liaison l draw => if l < cfg.simNumOfLiaisons then s.hall.liaisonUses draw l else []
  | .officer k => if k < cfg.counters then s.counters.officerUses k else []
  | .handler h => s.hold.handlerUses h
  | .manager => s.managerUses screens

section Bags

/-- A bag counts for its airline. -/
theorem worthOf_pos {bags : List Baggage} {b : Baggage} (h : b ∈ bags) :
    0 < worthOf (fun _ => 1) b.airlineCode bags := by
  unfold worthOf worth
  rw [List.map_const', List.sum_replicate_nat, Nat.mul_one]
  exact List.length_pos_of_mem (List.mem_filter.mpr ⟨h, by simp⟩)

/-- Bags that have been handed over are of an airline of the simulation. -/
theorem Placed.airline_of_entrusted (h : s.Placed) {w : Nat → Nat} (hpos : 0 < s.entrusted w a) :
    a < cfg.simNumOfAirlines := by
  by_contra hge
  refine absurd hpos ?_
  rw [entrusted, Counters.entrusted, tally_none]
  · exact Nat.lt_irrefl 0
  · rintro p ⟨hhanded, rfl⟩
    have hcome : s.counters.passenger p ≠ .arriving := by
      intro hat
      simp [hat] at hhanded
    exact hge (h.hall.airline_lt (h.directed p hcome))

/-- So are those on the way to the planes. -/
theorem Sound.airline_of_underway (h : s.Sound) (hpos : 0 < s.underway (fun _ => 1) a) :
    a < cfg.simNumOfAirlines := by
  refine h.placed.airline_of_entrusted (w := fun _ => 1) ?_
  rw [h.balanced.counts]
  omega

theorem Sound.carried_lt (h : s.Sound) {g : cfg.Handler} {b : Baggage}
    (hb : b ∈ (s.hold.handler g).point.inHand) : b.airlineCode < cfg.simNumOfAirlines := by
  have hcarried : 0 < s.hold.carried (fun _ => 1) b.airlineCode :=
    Finset.sum_pos' (fun _ _ => Nat.zero_le _) ⟨g, Finset.mem_univ g, worthOf_pos hb⟩
  refine h.airline_of_underway ?_
  unfold underway
  omega

theorem Sound.recorded_lt (h : s.Sound) (hk : k < cfg.counters) {b : Baggage}
    (hb : b ∈ (s.counters.officer k).totalBags) : b.airlineCode < cfg.simNumOfAirlines := by
  have hrecorded : 0 < s.counters.recorded (fun _ => 1) b.airlineCode :=
    Finset.sum_pos' (fun _ _ => Nat.zero_le _) ⟨k, Finset.mem_range.mpr hk, worthOf_pos hb⟩
  refine h.placed.airline_of_entrusted (w := fun _ => 1) ?_
  rw [h.balanced.taken, taken]
  omega

end Bags

section Bounds

variable {screens : Nat}

/-- The lines of the passengers. -/
structure Ranged (s : Simulation cfg) : Prop where
  hall : s.hall.Ranged
  counters : s.counters.Ranged

theorem Ranged.move (h : s.Ranged) (hsound : s.Sound) (hliaisons : 0 < cfg.simNumOfLiaisons)
    (hmove : Move s s') : s'.Ranged := by
  cases hmove with
  | hallPassenger p hall hp hmove => exact ⟨h.hall.passenger hliaisons hmove, h.counters⟩
  | liaison l hall hl hmove =>
      refine ⟨?_, h.counters⟩
      unfold Hall.Ranged
      rw [hmove.frame.1]
      exact h.hall
  | counterPassenger p counters hp hnot hmove =>
      exact ⟨h.hall, h.counters.passenger hsound.placed.counters.routed hmove⟩
  | officer k counters hk hmove =>
      refine ⟨h.hall, ?_⟩
      unfold Counters.Ranged
      rw [(Counters.officer_frame hmove).1]
      exact h.counters
  | handler g conveyor hold hmove => exact ⟨h.hall, h.counters⟩
  | gatePassenger p lounge hp hleft hmove => exact ⟨h.hall, h.counters⟩
  | manager s' hmove =>
      obtain ⟨hhall, hcounters, -⟩ := hmove.frame
      exact ⟨hhall ▸ h.hall, hcounters ▸ h.counters⟩

/-- Whoever is at a gate is at that of its airline. -/
theorem within_gateUses (h : s.Placed) (hairlines : cfg.simNumOfAirlines ≤ 5)
    (hp : s.hall.passenger p = .directed) :
    Within (s.lounge.passengerUses (s.hall.airline p) p) := by
  have hairline := h.hall.airline_lt hp
  have hgate : ∀ b, (s.lounge.passenger p).airline = some b → b < 5 := by
    intro b hb
    rw [← (h.left p b hb).2]
    omega
  unfold Lounge.passengerUses
  split
  case h_1 hat =>
    simp
    omega
  case h_2 b hat | h_3 b hat | h_4 b hat =>
    have hlt := hgate b (by rw [hat]; rfl)
    simp
    omega
  all_goals simp

theorem within_handlerUses (h : s.Sound) (hairlines : cfg.simNumOfAirlines ≤ 5)
    (g : cfg.Handler) : Within (s.hold.handlerUses g) := by
  unfold Hold.handlerUses
  split
  case h_1 b hat | h_2 b hat =>
    have hlt := h.carried_lt (g := g) (b := b) (by rw [hat]; simp)
    simp
    omega
  all_goals simp

theorem within_endOfDayUses (h : s.Sound) (haccepted : Accepted cfg screens) :
    Within (s.endOfDayUses screens) := by
  obtain ⟨hlocks, -, -⟩ := haccepted.counters_le
  obtain ⟨-, hairlines, hliaisons, -, -, hscreens⟩ := haccepted
  have hbags : Within ((List.range (cfg.simNumOfCIOs * cfg.simNumOfAirlines)).flatMap fun k =>
      (s.counters.officer k).totalBags.flatMap fun b => usesAt b.airlineCode [.cioTotalWeight]) := by
    intro u hu
    obtain ⟨k, hk, hu⟩ := List.mem_flatMap.mp hu
    obtain ⟨b, hb, hu⟩ := List.mem_flatMap.mp hu
    rw [List.mem_range, Nat.mul_comm] at hk
    obtain rfl := List.mem_singleton.mp hu
    have hlt := h.recorded_lt hk hb
    change b.airlineCode < 5
    omega
  unfold Settings.counters at hlocks
  rw [Nat.mul_comm] at hlocks
  simp only [endOfDayUses, within_append, within_usesIn, within_usesAt_cons, usesAt_nil, within_nil,
    and_true, hbags, SharedArray.size]
  omega

theorem within_managerUses (h : s.Sound) (hannounced : s.Announced)
    (haccepted : Accepted cfg screens) : Within (s.managerUses screens) := by
  have hairlines := haccepted.airlines
  have hattends : ∀ i, s.manager.attends = some i → i < 5 := fun i hi => by
    have hlt := (hannounced.fresh i hi).2
    omega
  unfold managerUses
  split
  case h_1 i hat =>
    split
    · simp
      omega
    · simp
  case h_2 i hat | h_3 i hat | h_4 i hat | h_5 i hat =>
    have hlt := hattends i (by rw [hat]; rfl)
    simp
    omega
  case h_6 hat => exact within_endOfDayUses h haccepted
  all_goals simp

/-- What the threads of the simulation use is inside the bounds. -/
theorem within_uses (h : s.Sound) (hannounced : s.Announced) (hranged : s.Ranged)
    (haccepted : Accepted cfg screens) (turn : Turn cfg) : Within (s.uses screens turn) := by
  obtain ⟨hlocks, hlines, -⟩ := haccepted.counters_le
  have hairlines := haccepted.airlines
  have hliaisons := haccepted.liaisons
  have hstaff := haccepted.checkInStaff
  cases turn with
  | passenger p junk =>
      simp only [uses]
      split
      · exact Hall.within_passengerUses h.placed.hall hranged.hall (by omega) (by omega)
      · rename_i hp
        split
        · exact Counters.within_passengerUses h.placed.counters.routed hranged.counters (by omega)
            (fun _ => h.placed.hall.airline_lt (not_not.mp hp)) hlocks hlines
        · exact within_gateUses h.placed (by omega) (not_not.mp hp)
  | liaison l draw =>
      simp only [uses]
      split
      · rename_i hl
        exact Hall.within_liaisonUses h.placed.hall draw hl (by omega) (by omega)
      · exact within_nil
  | officer k =>
      simp only [uses]
      split
      · rename_i hk
        exact Counters.within_officerUses hk (by omega) hlocks hlines
      · exact within_nil
  | handler g => exact within_handlerUses h (by omega) g
  | manager => exact within_managerUses h hannounced haccepted

end Bounds

end Simulation

end Airport
end Nachos
