import Nachos.Airport.Seats

/-!
# The seat loop of `Liaison` in `test/Airport.c`

`Liaison` is the port of `LiaisonOfficer::DoWork`.  Both draw an airline in a `while(true)` and
issue a ticket if it has a seat left; but in the port the `break` behind the ticket is a comment.
So its loop does not end: every seat that is drawn later is issued too.
-/

namespace Nachos
namespace Test

open Lib Airport

/-- What the loops use: the seats of the airlines, and the `airline` of the liaison. -/
structure SeatTable where
  simNumOfAirlines : Nat
  totalPassengersOfAirline : Nat → Nat
  ticketsIssued : Nat → Nat
  airline : Nat

namespace SeatTable

variable (s : SeatTable) (draw : Nat)

/-- `airline = rand() % simNumOfAirlines`. -/
def draws : SeatTable := { s with airline := draw % s.simNumOfAirlines }

/-- `ticketsIssued[airline] += 1`. -/
def issue : SeatTable :=
  { s with ticketsIssued := Function.update s.ticketsIssued s.airline (s.ticketsIssued s.airline + 1) }

/-- The test of the loops: the airline has a seat left. -/
def HasSeat : Prop := s.ticketsIssued s.airline < s.totalPassengersOfAirline s.airline

instance : Decidable s.HasSeat := inferInstanceAs (Decidable (_ < _))

/-- The airline that is drawn has a free seat. -/
def Free : Prop := (s.draws draw).HasSeat

instance : Decidable (s.Free draw) := inferInstanceAs (Decidable (HasSeat _))

/-- A round of the loop of `LiaisonOfficer::DoWork`, and whether it leaves the loop. -/
def officerRound : Bool × SeatTable :=
  if s.Free draw then (true, (s.draws draw).issue) else (false, s.draws draw)

/-- A round of the loop of `Liaison`; the `break` is a comment. -/
def liaisonRound : Bool × SeatTable :=
  if s.Free draw then (false, (s.draws draw).issue) else (false, s.draws draw)

end SeatTable

open SeatTable

section Loop

variable (round : SeatTable → Nat → Bool × SeatTable) (rand : Nat → Nat) (s : SeatTable)

/-- A loop after `n` rounds at most: whether it has been left, and its state. -/
def loop : Nat → Bool × SeatTable
  | 0 => (false, s)
  | n + 1 => if (loop n).1 then loop n else round (loop n).2 (rand n)

/-- Draw `n` is the first of an airline with a free seat. -/
def FirstFree (n : Nat) : Prop := s.Free (rand n) ∧ ∀ m < n, ¬ s.Free (rand m)

/-- The loop stops at the first draw with a free seat, and has issued this ticket only. -/
def StopsWithSeat : Prop :=
  ∀ n, FirstFree rand s n → loop round rand s (n + 1) = (true, (s.draws (rand n)).issue)

end Loop

section Rounds

attribute [local simp] loop

variable {round : SeatTable → Nat → Bool × SeatTable} {rand : Nat → Nat} {s : SeatTable} {n : Nat}

/-- What both loops do while no draw has a free seat. -/
theorem loop_of_full (hround : ∀ (t : SeatTable) draw, ¬ t.Free draw →
      round t draw = (false, t.draws draw)) :
    ∀ n, (∀ m < n, ¬ s.Free (rand m)) → ∃ airline, loop round rand s n =
      (false, { s with airline := airline }) := by
  intro n
  induction n with
  | zero => exact fun _ => ⟨s.airline, rfl⟩
  | succ n ih =>
      intro hfull
      obtain ⟨airline, hloop⟩ := ih fun m hm => hfull m (by omega)
      have hlast : ¬ ({ s with airline := airline } : SeatTable).Free (rand n) :=
        hfull n (Nat.lt_succ_self n)
      refine ⟨rand n % s.simNumOfAirlines, ?_⟩
      simp only [loop, hloop, Bool.false_eq_true, if_false]
      exact hround _ _ hlast

theorem officerRound_full {t : SeatTable} {draw : Nat} (h : ¬ t.Free draw) :
    t.officerRound draw = (false, t.draws draw) := if_neg h

theorem liaisonRound_full {t : SeatTable} {draw : Nat} (h : ¬ t.Free draw) :
    t.liaisonRound draw = (false, t.draws draw) := if_neg h

/-- The loop of `DoWork` stops where it should. -/
theorem officer_stops (rand : Nat → Nat) (s : SeatTable) : StopsWithSeat officerRound rand s := by
  intro n hfirst
  obtain ⟨airline, hloop⟩ := loop_of_full (fun _ _ => officerRound_full) n hfirst.2
  have hfree : ({ s with airline := airline } : SeatTable).Free (rand n) := hfirst.1
  simp only [loop, hloop, Bool.false_eq_true, if_false]
  exact if_pos hfree

/-- The loop of the port never stops. -/
theorem liaison_runs_on (rand : Nat → Nat) (s : SeatTable) :
    ∀ n, (loop liaisonRound rand s n).1 = false := by
  intro n
  induction n with
  | zero => rfl
  | succ n ih =>
      simp only [loop, ih, Bool.false_eq_true, if_false, liaisonRound]
      split
      all_goals rfl

/-- The state of the port's loop, but for its tickets. -/
theorem liaison_frame (rand : Nat → Nat) (s : SeatTable) : ∀ n,
    (loop liaisonRound rand s n).2.simNumOfAirlines = s.simNumOfAirlines ∧
      (loop liaisonRound rand s n).2.totalPassengersOfAirline = s.totalPassengersOfAirline := by
  intro n
  induction n with
  | zero => exact ⟨rfl, rfl⟩
  | succ n ih =>
      simp only [loop, liaison_runs_on, Bool.false_eq_true, if_false, liaisonRound]
      split
      all_goals exact ih

/-- It issues a ticket at each draw of an airline that has a seat left then: the tickets of an
airline are those it had and its draws, up to its seats. -/
theorem liaison_issues (rand : Nat → Nat) (s : SeatTable) (a : Nat) : ∀ n,
    (loop liaisonRound rand s n).2.ticketsIssued a =
      max (s.ticketsIssued a) (min (s.totalPassengersOfAirline a)
        (s.ticketsIssued a + (List.range n).countP fun m => rand m % s.simNumOfAirlines = a)) := by
  intro n
  induction n with
  | zero => simp [loop]
  | succ n ih =>
      obtain ⟨hairlines, htotal⟩ := liaison_frame rand s n
      have hround : (loop liaisonRound rand s (n + 1)).2.ticketsIssued a =
          (loop liaisonRound rand s n).2.ticketsIssued a +
            if rand n % s.simNumOfAirlines = a ∧
              (loop liaisonRound rand s n).2.ticketsIssued a < s.totalPassengersOfAirline a
            then 1 else 0 := by
        simp only [loop, liaison_runs_on, Bool.false_eq_true, if_false, liaisonRound]
        by_cases ha : rand n % s.simNumOfAirlines = a
        · simp only [ha, true_and]
          by_cases hfree : (loop liaisonRound rand s n).2.Free (rand n)
          · have hlt : (loop liaisonRound rand s n).2.ticketsIssued a <
                s.totalPassengersOfAirline a := by
              simpa [Free, HasSeat, draws, hairlines, htotal, ha] using hfree
            simp [hfree, hlt, issue, draws, hairlines, ha]
          · have hge : ¬ (loop liaisonRound rand s n).2.ticketsIssued a <
                s.totalPassengersOfAirline a := by
              simpa [Free, HasSeat, draws, hairlines, htotal, ha] using hfree
            simp [hfree, hge, draws]
        · simp only [ha, false_and, if_false, Nat.add_zero]
          split
          · simp [issue, draws, hairlines, Ne.symm ha]
          · rfl
      rw [List.range_succ, List.countP_append, List.countP_singleton, hround]
      by_cases ha : rand n % s.simNumOfAirlines = a
      · simp only [ha, true_and, decide_true, if_true]
        split
        all_goals omega
      · simp only [ha, false_and, decide_false, Bool.false_eq_true, if_false]
        omega

end Rounds

section Officer

variable {cfg : Settings} {s : Hall cfg} {l : Nat}

/-- The seats as liaison `l` sees them. -/
def seatTable (s : Hall cfg) (l : Nat) : SeatTable where
  simNumOfAirlines := cfg.simNumOfAirlines
  totalPassengersOfAirline := cfg.totalPassengersOfAirline
  ticketsIssued := s.ticketsIssued
  airline := (s.liaison l).airline

/-- A turn of a liaison of the simulation in its loop is such a round. -/
theorem liaisonStep_round (hat : (s.liaison l).point = .seating) (draw : Nat) (dayOver : Bool) :
    ∃ s', Hall.liaisonStep draw dayOver l s = .ok s' ∧
      (decide ((s'.liaison l).point = .seated), seatTable s' l) =
        (seatTable s l).officerRound draw := by
  obtain ⟨s', hstep, hdrawn⟩ := Hall.liaisonStep_draw hat draw dayOver
  refine ⟨s', hstep, ?_⟩
  by_cases hfree : (seatTable s l).Free draw
  · obtain ⟨hpoint, hissued⟩ := hdrawn.seat hfree
    rw [officerRound, if_pos hfree]
    simp [seatTable, hpoint, hissued, hdrawn.airline, draws, issue]
  · obtain ⟨hpoint, hissued⟩ := hdrawn.full hfree
    rw [officerRound, if_neg hfree]
    simp [seatTable, hpoint, hissued, hdrawn.airline, draws]

end Officer

section Port

/-- The port does what `DoWork` does just if no draw ever has a free seat, and then neither loop
ends. -/
theorem liaison_as_officer_iff (rand : Nat → Nat) (s : SeatTable) :
    ((∀ n, loop liaisonRound rand s n = loop officerRound rand s n) ↔ ∀ n, ¬ s.Free (rand n)) ∧
      (StopsWithSeat liaisonRound rand s ↔ ∀ n, ¬ s.Free (rand n)) ∧
      StopsWithSeat officerRound rand s := by
  have hfirst : ¬ (∀ n, ¬ s.Free (rand n)) → ∃ n, FirstFree rand s n := by
    intro hsome
    have hex : ∃ n, s.Free (rand n) := by simpa using hsome
    exact ⟨Nat.find hex, Nat.find_spec hex, fun m hm => Nat.find_min hex hm⟩
  have hofficer := officer_stops rand s
  refine ⟨⟨fun hsame => ?_, fun hnone n => ?_⟩, ⟨fun hstops => ?_, fun hnone n h => ?_⟩, hofficer⟩
  · by_contra hsome
    obtain ⟨n, hn⟩ := hfirst hsome
    have hstopped := hsame (n + 1)
    rw [hofficer n hn] at hstopped
    exact absurd (liaison_runs_on rand s (n + 1)) (by simp [hstopped])
  · induction n with
    | zero => rfl
    | succ n ih =>
        obtain ⟨airline, hloop⟩ :=
          loop_of_full (fun _ _ => officerRound_full) n fun m _ => hnone m
        have hlast : ¬ ({ s with airline := airline } : SeatTable).Free (rand n) := hnone n
        simp only [loop, ih, hloop, Bool.false_eq_true, if_false, officerRound_full hlast,
          liaisonRound_full hlast]
  · by_contra hsome
    obtain ⟨n, hn⟩ := hfirst hsome
    exact absurd (liaison_runs_on rand s (n + 1)) (by simp [hstops n hn])
  · exact absurd h.1 (hnone n)

/-- One airline with two seats: the loop of the port issues both, and goes on. -/
theorem liaison_not_as_officer : ¬ ∀ (s : SeatTable) (rand : Nat → Nat),
    (∃ a < s.simNumOfAirlines, s.ticketsIssued a < s.totalPassengersOfAirline a) →
      StopsWithSeat liaisonRound rand s := by
  intro h
  have hstops := h ⟨1, fun _ => 2, fun _ => 0, 0⟩ (fun _ => 0) ⟨0, by decide, by decide⟩ 0
    ⟨by decide, fun m hm => absurd hm (Nat.not_lt_zero m)⟩
  exact absurd (congrArg Prod.fst hstops) (by decide)

end Port

end Test
end Nachos
