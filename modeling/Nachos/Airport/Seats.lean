import Nachos.Airport.Boarding

/-!
# The seats of the airlines

A liaison draws airlines until one has a seat left, and it holds `seatLock` meanwhile.  There are
as many seats as passengers, and a liaison in this loop has a guest without a ticket: so there is
a seat left, and some draw ends the loop.
-/

namespace Nachos
namespace Airport

open Lib

namespace Settings

variable (cfg : Settings)

/-- `totalPassengersOfAirline` in `setupAirlines`: the loop over the airlines, and what is left
over. -/
def setupAirlines : Nat → Nat :=
  let totals := (List.range cfg.simNumOfAirlines).foldl
    (fun totals i => Function.update totals i (cfg.simNumOfPassengers / cfg.simNumOfAirlines))
    fun _ => 0
  if 0 < cfg.simNumOfPassengers % cfg.simNumOfAirlines then
    Function.update totals 0 (totals 0 + cfg.simNumOfPassengers % cfg.simNumOfAirlines)
  else totals

/-- The loop over the airlines. -/
theorem foldl_update (n : Nat) (totals : Nat → Nat) (a : Nat) : ∀ count : Nat,
    (List.range count).foldl (fun totals i => Function.update totals i n) totals a =
      if a < count then n else totals a := by
  intro count
  induction count with
  | zero => simp
  | succ count ih =>
      rw [List.range_succ, List.foldl_append, List.foldl_cons, List.foldl_nil]
      by_cases ha : a = count
      · subst ha
        simp
      · rw [Function.update_of_ne ha, ih]
        have hlt : a < count + 1 ↔ a < count := by omega
        simp only [hlt]

theorem setupAirlines_eq (hairlines : 0 < cfg.simNumOfAirlines) :
    cfg.setupAirlines = cfg.totalPassengersOfAirline := by
  funext a
  unfold setupAirlines totalPassengersOfAirline
  by_cases hrest : 0 < cfg.simNumOfPassengers % cfg.simNumOfAirlines
  · rw [if_pos hrest]
    by_cases ha : a = 0
    · subst ha
      rw [Function.update_self, foldl_update, if_pos hairlines, if_pos hairlines, if_pos rfl]
    · rw [Function.update_of_ne ha, foldl_update, if_neg ha, Nat.add_zero]
  · have hzero : cfg.simNumOfPassengers % cfg.simNumOfAirlines = 0 := by omega
    rw [if_neg hrest, foldl_update, hzero, ite_self, Nat.add_zero]

/-- There are as many seats as passengers. -/
theorem sum_totalPassengersOfAirline (hairlines : 0 < cfg.simNumOfAirlines) :
    ∑ a ∈ Finset.range cfg.simNumOfAirlines, cfg.totalPassengersOfAirline a =
      cfg.simNumOfPassengers := by
  have hterm : ∀ a ∈ Finset.range cfg.simNumOfAirlines, cfg.totalPassengersOfAirline a =
      cfg.simNumOfPassengers / cfg.simNumOfAirlines +
        if a = 0 then cfg.simNumOfPassengers % cfg.simNumOfAirlines else 0 := by
    intro a ha
    rw [totalPassengersOfAirline, if_pos (Finset.mem_range.mp ha)]
  rw [Finset.sum_congr rfl hterm, Finset.sum_add_distrib,
    Finset.sum_const_nat (fun _ _ => rfl), Finset.card_range, Finset.sum_ite_eq',
    if_pos (Finset.mem_range.mpr hairlines)]
  exact Nat.div_add_mod _ _

/-- Only the airlines of the simulation have seats. -/
theorem lt_of_seat {a : Nat} (h : 0 < cfg.totalPassengersOfAirline a) :
    a < cfg.simNumOfAirlines := by
  by_contra hge
  rw [totalPassengersOfAirline, if_neg hge] at h
  exact absurd h (Nat.lt_irrefl 0)

end Settings

namespace Hall

variable {cfg : Settings} {s s' : Hall cfg} {p : cfg.Passenger} {l : Nat}

section FreeSeats

/-- Every ticket is for an airline of the simulation. -/
theorem Booked.ticket_lt (h : s.Booked) {a : Nat} (hp : s.ticket p = some a) :
    a < cfg.simNumOfAirlines := by
  have hissued : 0 < s.ticketsIssued a := by
    rw [h.tickets]
    exact tally_pos (fun _ => 1) hp Nat.zero_lt_one
  exact cfg.lt_of_seat (Nat.lt_of_lt_of_le hissued (h.seats a))

/-- The passengers that have been assigned an airline. -/
def assigned (s : Hall cfg) : Nat := tally (fun _ => 1) fun p => (s.ticket p).isSome = true

theorem Booked.sum_ticketsIssued (h : s.Booked) :
    ∑ a ∈ Finset.range cfg.simNumOfAirlines, s.ticketsIssued a = s.assigned := by
  rw [Finset.sum_congr rfl fun a _ => h.tickets a]
  exact sum_tally _ fun p a hp => Finset.mem_range.mpr (h.ticket_lt hp)

/-- Where somebody has no ticket, an airline has a seat left. -/
theorem Booked.exists_free (h : s.Booked) (hairlines : 0 < cfg.simNumOfAirlines)
    (hp : s.ticket p = none) :
    ∃ a < cfg.simNumOfAirlines, s.ticketsIssued a < cfg.totalPassengersOfAirline a := by
  have hsome : ¬ (s.ticket p).isSome = true := by simp [hp]
  have hassigned : s.assigned < cfg.simNumOfPassengers := by
    have hlt := tally_lt_card (P := fun p => (s.ticket p).isSome = true) hsome
    rwa [Fintype.card_fin] at hlt
  rw [← h.sum_ticketsIssued, ← cfg.sum_totalPassengersOfAirline hairlines] at hassigned
  obtain ⟨a, ha, hlt⟩ := Finset.exists_lt_of_sum_lt hassigned
  exact ⟨a, Finset.mem_range.mp ha, hlt⟩

end FreeSeats

section Draws

/-- A turn of a liaison in the loop: it leaves it with a ticket of the airline it has drawn, or
nothing has changed but its draw. -/
structure Drawn (s s' : Hall cfg) (l a : Nat) : Prop where
  airline : (s'.liaison l).airline = a
  seat : s.ticketsIssued a < cfg.totalPassengersOfAirline a →
    (s'.liaison l).point = .seated ∧
      s'.ticketsIssued = Function.update s.ticketsIssued a (s.ticketsIssued a + 1)
  full : ¬ s.ticketsIssued a < cfg.totalPassengersOfAirline a →
    (s'.liaison l).point = .seating ∧ s'.ticketsIssued = s.ticketsIssued

theorem liaisonStep_draw (hat : (s.liaison l).point = .seating) (draw : Nat) (dayOver : Bool) :
    ∃ s', liaisonStep draw dayOver l s = .ok s' ∧
      Drawn s s' l (draw % cfg.simNumOfAirlines) := by
  simp only [liaisonStep, hat]
  by_cases hseat : s.ticketsIssued (draw % cfg.simNumOfAirlines) <
      cfg.totalPassengersOfAirline (draw % cfg.simNumOfAirlines)
  · rw [if_pos hseat]
    exact ⟨_, rfl, by simp [Hall.post, Hall.issue], fun _ => ⟨by simp [Hall.post], rfl⟩,
      fun hnot => absurd hseat hnot⟩
  · rw [if_neg hseat]
    exact ⟨_, rfl, by simp [Hall.redraw], fun h => absurd h hseat,
      fun _ => ⟨by simp [Hall.redraw, hat], rfl⟩⟩

/-- A liaison that has left the loop writes the airline of the ticket. -/
theorem liaisonStep_assign (hat : (s.liaison l).point = .seated) {draw : Nat} {dayOver : Bool}
    (hstep : liaisonStep draw dayOver l s = .ok s') :
    (s'.lpInfo l).airline = (s.liaison l).airline := by
  simp only [liaisonStep, hat] at hstep
  obtain rfl := Except.ok.inj hstep
  simp [Hall.post, Hall.signal, Hall.assign]

/-- A passenger does not touch the liaisons. -/
theorem PassengerMove.liaisons (hmove : PassengerMove s p s') : s'.liaison = s.liaison := by
  cases hmove
  all_goals rfl

/-- Nor does another liaison. -/
theorem LiaisonMove.others (hmove : LiaisonMove s l s') {k : Nat} (hk : k ≠ l) :
    s'.liaison k = s.liaison k := by
  cases hmove with
  | count hat => simp [Hall.post, Hall.count, hk]
  | issue a hat hseat => simp [Hall.post, Hall.issue, hk]
  | _ => exact Function.update_of_ne hk ..

end Draws

end Hall

namespace Simulation

variable {cfg : Settings} {s s' : Simulation cfg} {l : Nat}

section Seats

/-- The turn of a liaison. -/
def Turn.isOf (l : Nat) : Turn cfg → Bool
  | .liaison k _ => k = l
  | _ => false

/-- A liaison stays where it is while the others make their turns. -/
theorem step_liaison {t : Turn cfg} (ht : t.isOf l = false) (hstep : step t s = .ok s') :
    s'.hall.liaison l = s.hall.liaison l := by
  cases t with
  | passenger p junk =>
      simp only [step, passengerStep] at hstep
      split at hstep
      · obtain ⟨hall, hmove, hs'⟩ := bind_eq_ok hstep
        obtain rfl := Except.ok.inj hs'
        rw [(Hall.passengerStep_move hmove).liaisons]
      · split at hstep
        all_goals
          obtain ⟨_, _, hs'⟩ := bind_eq_ok hstep
          obtain rfl := Except.ok.inj hs'
          rfl
  | liaison k draw =>
      simp only [Turn.isOf, decide_eq_false_iff_not] at ht
      simp only [step] at hstep
      split at hstep
      · obtain ⟨hall, hmove, hs'⟩ := bind_eq_ok hstep
        obtain rfl := Except.ok.inj hs'
        exact (Hall.liaisonStep_move hmove).others (Ne.symm ht)
      · exact absurd hstep (by simp)
  | officer k =>
      simp only [step] at hstep
      split at hstep
      · obtain ⟨_, _, hs'⟩ := bind_eq_ok hstep
        obtain rfl := Except.ok.inj hs'
        rfl
      · exact absurd hstep (by simp)
  | handler h =>
      obtain ⟨_, _, hs'⟩ := bind_eq_ok hstep
      obtain rfl := Except.ok.inj hs'
      rfl
  | manager =>
      cases managerStep_move hstep
      all_goals rfl

/-- The runs in which a liaison makes no turn. -/
def Awaits (l : Nat) : Simulation cfg → Simulation cfg → Prop :=
  Reach step fun _ t => t.isOf l = false

theorem Awaits.liaison (h : Awaits l s s') : s'.hall.liaison l = s.hall.liaison l :=
  h.invariant (P := fun u => u.hall.liaison l = s.hall.liaison l)
    (fun _ _ _ hu ht hstep => (step_liaison ht hstep).trans hu) rfl

/-- A turn of a liaison that looks for a seat. -/
theorem step_draw (hl : l < cfg.simNumOfLiaisons) (hat : (s.hall.liaison l).point = .seating)
    (draw : Nat) : ∃ s', step (.liaison l draw) s = .ok s' ∧
      s.hall.Drawn s'.hall l (draw % cfg.simNumOfAirlines) := by
  obtain ⟨hall, hstep, hdrawn⟩ :=
    Hall.liaisonStep_draw hat draw (s.planeCount == cfg.simNumOfAirlines)
  refine ⟨{ s with hall := hall }, ?_, hdrawn⟩
  simp only [step, if_pos hl, hstep]
  rfl

/-- A turn of a liaison that has found a seat. -/
theorem step_assign (hat : (s.hall.liaison l).point = .seated) {draw : Nat}
    (hstep : step (.liaison l draw) s = .ok s') :
    (s'.hall.lpInfo l).airline = (s.hall.liaison l).airline := by
  simp only [step] at hstep
  split at hstep
  · obtain ⟨hall, hassign, hs'⟩ := bind_eq_ok hstep
    obtain rfl := Except.ok.inj hs'
    exact Hall.liaisonStep_assign hat hassign
  · exact absurd hstep (by simp)

/-- The loop of liaison `l` can be left, and it is left with one ticket, of the airline that the
liaison writes into `LPInfo` at its next turn. -/
structure LeavesWithTicket (s : Simulation cfg) (l : Nat) : Prop where
  free : ∃ a < cfg.simNumOfAirlines, s.hall.ticketsIssued a < cfg.totalPassengersOfAirline a
  leaves : ∃ draw s', step (.liaison l draw) s = .ok s' ∧ (s'.hall.liaison l).point = .seated
  stays : ∀ draw s', step (.liaison l draw) s = .ok s' → (s'.hall.liaison l).point = .seating →
    s'.hall.ticketsIssued = s.hall.ticketsIssued
  ticket : ∀ draw s', step (.liaison l draw) s = .ok s' → (s'.hall.liaison l).point ≠ .seating →
    ∃ a < cfg.simNumOfAirlines, s.hall.ticketsIssued a < cfg.totalPassengersOfAirline a ∧
      s'.hall.ticketsIssued =
        Function.update s.hall.ticketsIssued a (s.hall.ticketsIssued a + 1) ∧
      ∀ t t' again, Awaits l s' t → step (.liaison l again) t = .ok t' →
        (t'.hall.lpInfo l).airline = a

theorem Sound.leavesWithTicket (h : s.Sound) (hairlines : 0 < cfg.simNumOfAirlines)
    (hl : l < cfg.simNumOfLiaisons) (hat : (s.hall.liaison l).point = .seating) :
    s.LeavesWithTicket l := by
  have hhall := h.placed.hall
  obtain ⟨p, -, hnone, -⟩ := Hall.ticket_issue hhall.locked hhall.staged hat 0
  have hfree := hhall.booked.exists_free hairlines hnone
  refine ⟨hfree, ?_, fun draw s' hstep hstays => ?_, fun draw s' hstep hleft => ?_⟩
  · obtain ⟨a, ha, hseat⟩ := hfree
    obtain ⟨s', hstep, hdrawn⟩ := step_draw hl hat a
    rw [Nat.mod_eq_of_lt ha] at hdrawn
    exact ⟨a, s', hstep, (hdrawn.seat hseat).1⟩
  · obtain ⟨s'', hstep', hdrawn⟩ := step_draw hl hat draw
    obtain rfl := Except.ok.inj (hstep.symm.trans hstep')
    by_cases hseat : s.hall.ticketsIssued (draw % cfg.simNumOfAirlines) <
        cfg.totalPassengersOfAirline (draw % cfg.simNumOfAirlines)
    · rw [(hdrawn.seat hseat).1] at hstays
      exact absurd hstays (by decide)
    · exact (hdrawn.full hseat).2
  · obtain ⟨s'', hstep', hdrawn⟩ := step_draw hl hat draw
    obtain rfl := Except.ok.inj (hstep.symm.trans hstep')
    by_cases hseat : s.hall.ticketsIssued (draw % cfg.simNumOfAirlines) <
        cfg.totalPassengersOfAirline (draw % cfg.simNumOfAirlines)
    · obtain ⟨hseated, hissued⟩ := hdrawn.seat hseat
      refine ⟨_, Nat.mod_lt draw hairlines, hseat, hissued, fun t t' again hrun hassign => ?_⟩
      have hsame := hrun.liaison
      rw [step_assign (by rw [hsame]; exact hseated) hassign, hsame]
      exact hdrawn.airline
    · exact absurd (hdrawn.full hseat).1 hleft

/-- The seats are as many as the passengers, no airline issues more tickets than it has seats, and
every passenger with an airline has one ticket.  So the loop in which a liaison looks for a seat
can be left, with one ticket. -/
theorem seats_suffice (hairlines : 0 < cfg.simNumOfAirlines) :
    (∑ a ∈ Finset.range cfg.simNumOfAirlines, cfg.setupAirlines a) = cfg.simNumOfPassengers ∧
      cfg.setupAirlines = cfg.totalPassengersOfAirline ∧
      ∀ s : Simulation cfg, s.Reachable →
        (∀ a, s.hall.ticketsIssued a ≤ cfg.totalPassengersOfAirline a) ∧
        (∑ a ∈ Finset.range cfg.simNumOfAirlines, s.hall.ticketsIssued a) = s.hall.assigned ∧
        ∀ l < cfg.simNumOfLiaisons, (s.hall.liaison l).point = .seating →
          s.LeavesWithTicket l := by
  refine ⟨?_, cfg.setupAirlines_eq hairlines, fun s hreach => ?_⟩
  · rw [cfg.setupAirlines_eq hairlines]
    exact cfg.sum_totalPassengersOfAirline hairlines
  · have hsound := hreach.announced.1
    have hbooked := hsound.placed.hall.booked
    exact ⟨hbooked.seats, hbooked.sum_ticketsIssued,
      fun l hl hat => hsound.leavesWithTicket hairlines hl hat⟩

/-- The first passenger of the sample has told the liaison how many bags it has. -/
theorem seats_suffice_sample : ∃ s : Simulation sample, s.Reachable ∧
    (s.hall.liaison 0).point = .seating ∧ s.hall.assigned = 0 ∧ s.LeavesWithTicket 0 := by
  let l : Turn sample := .liaison 0 0
  obtain ⟨s, hreach, hat, hnone⟩ := exists_reachable
    (P := fun s => (s.hall.liaison 0).point = .seating ∧ s.hall.assigned = 0)
    (inTurn [(2, first), (2, second), (4, l), (2, first), (1, l), (3, first), (3, l)])
    (by decide +kernel)
  exact ⟨s, hreach, hat, hnone,
    ((seats_suffice (by decide)).2.2 s hreach).2.2 0 (by decide) hat⟩

end Seats

end Simulation
end Airport
end Nachos
