import Nachos.Airport.EndOfDay
import Nachos.Airport.Terminal
import Nachos.Airport.Verdicts

/-!
# The count of the security inspectors

All threads of `threads/threadtest.cc` with `SecurityAvailability`: a screening officer looks at
one inspector after the other, reserves each one that is available, and starts anew unless the
last one was; an inspector is available again at the beginning of each round, as long as nobody
is in the line of the first inspector.

So two passengers may be on their way to one inspector, and each of them, when it answers the
inspector, may wake the other one.  While that does not happen, whoever goes to the gate has read
the verdict on itself and has been counted once.
-/

namespace Nachos
namespace Airport

open Lib

/-- The threads with `SecurityAvailability`, and what has been found out. -/
structure Checkpoint (cfg : Settings) (m : Nat) where
  terminal : Terminal cfg m
  securityAvailability : Nat → Bool
  /-- `i` and `y` in the search of a screening officer. -/
  search : Fin m → Nat × Bool
  judgements : List Judgement
  /-- `NotTerrorist` of the passengers, as they have read it in `SecPInfo`. -/
  notTerrorist : cfg.Passenger → Option Bool

namespace Simulation

variable {cfg : Settings} {s s' : Simulation cfg}

/-- Only passengers that have left the counters move at the gates. -/
theorem step_lounge {t : Turn cfg} (hstep : step t s = .ok s') (u : cfg.Passenger)
    (hu : ∀ junk, t = .passenger u junk → s.counters.passenger u ≠ .left) :
    s'.lounge.passenger u = s.lounge.passenger u := by
  cases t with
  | passenger p junk =>
      simp only [step, passengerStep] at hstep
      split at hstep
      · obtain ⟨hall, -, hs'⟩ := bind_eq_ok hstep
        obtain rfl := Except.ok.inj hs'
        rfl
      · split at hstep
        · obtain ⟨counters, -, hs'⟩ := bind_eq_ok hstep
          obtain rfl := Except.ok.inj hs'
          rfl
        · rename_i hleft
          obtain ⟨lounge, hlounge, hs'⟩ := bind_eq_ok hstep
          obtain rfl := Except.ok.inj hs'
          have hne : u ≠ p := by
            rintro rfl
            exact hu junk rfl (not_not.mp hleft)
          have hmove := Lounge.passengerStep_move hlounge
          cases hmove
          all_goals exact Function.update_of_ne hne ..
  | liaison l draw =>
      simp only [step] at hstep
      split at hstep
      · obtain ⟨hall, -, hs'⟩ := bind_eq_ok hstep
        obtain rfl := Except.ok.inj hs'
        rfl
      · exact absurd hstep (by simp)
  | officer k =>
      simp only [step] at hstep
      split at hstep
      · obtain ⟨counters, -, hs'⟩ := bind_eq_ok hstep
        obtain rfl := Except.ok.inj hs'
        rfl
      · exact absurd hstep (by simp)
  | handler h =>
      obtain ⟨⟨conveyor, hold⟩, -, hs'⟩ := bind_eq_ok hstep
      obtain rfl := Except.ok.inj hs'
      rfl
  | manager => rw [(managerStep_move hstep).lounge.1]

end Simulation

namespace Checkpoint

variable {cfg : Settings} {m : Nat}

/-- The threads as `setup` leaves them. -/
def start (cfg : Settings) (m : Nat) (unset : Unset) : Checkpoint cfg m where
  terminal := .start cfg m unset
  securityAvailability := fun k => k < m
  search := fun _ => (0, false)
  judgements := []
  notTerrorist := fun _ => none

/-- A step that has to do with no inspector. -/
def terminalStep (turn : TerminalTurn cfg m) (s : Checkpoint cfg m) :
    Except Stop (Checkpoint cfg m) :=
  do .ok { s with terminal := ← s.terminal.step turn }

/-- A round of the `for` loop over the inspectors; `SecurityAvail` is held for it. -/
def look (i : Fin m) (s : Checkpoint cfg m) : Except Stop (Checkpoint cfg m) :=
  let k := (s.search i).1
  if s.terminal.security.securityAvail ≠ none then .error .blocked
  else if s.securityAvailability k then
    .ok { s with
      terminal := { s.terminal with screening := { s.terminal.screening with
        spSecurityOfficer := Function.update s.terminal.screening.spSecurityOfficer i k } }
      securityAvailability := Function.update s.securityAvailability k false
      search := Function.update s.search i (k + 1, true) }
  else .ok { s with search := Function.update s.search i (k + 1, false) }

/-- The search of a screening officer: another inspector, and behind the last one the end of the
search or its next round. -/
def searchStep (i : Fin m) (screenPass : Bool) (s : Checkpoint cfg m) :
    Except Stop (Checkpoint cfg m) :=
  let s' := { s with search := Function.update s.search i (0, false) }
  let found := s.terminal.screening.spSecurityOfficer i
  if (s.search i).1 < m then s.look i
  else if (s.search i).2 then
    s'.terminalStep (.screeningOfficer i screenPass (if h : found < m then some ⟨found, h⟩ else none))
  else .ok s'

/-- `SecurityAvailability` behind a step of an inspector. -/
def freed (s : Checkpoint cfg m) (k : Nat) : Nat → Bool :=
  if s.terminal.security.inspector k = .checking ∧ ¬ 0 < s.terminal.security.securityLine 0 then
    Function.update s.securityAvailability k true
  else s.securityAvailability

/-- `SecurityAvailability` behind a step of a passenger. -/
def taken (s : Checkpoint cfg m) (p : cfg.Passenger) : Nat → Bool :=
  match s.terminal.security.passenger p with
  | .relining k => Function.update s.securityAvailability k false
  | _ => s.securityAvailability

/-- A step of a thread.  What a screening officer finds comes from `SecurityAvailability`. -/
def step : TerminalTurn cfg m → Checkpoint cfg m → Except Stop (Checkpoint cfg m)
  | .screeningOfficer i screenPass found, s =>
      if s.terminal.screening.officer i = .searching then s.searchStep i screenPass
      else s.terminalStep (.screeningOfficer i screenPass found)
  | .passenger p junk, s => do
      .ok { s with
        terminal := ← s.terminal.step (.passenger p junk)
        securityAvailability := s.taken p
        notTerrorist := s.terminal.security.remember p s.notTerrorist }
  | .inspector k securityPass, s => do
      .ok { s with
        terminal := ← s.terminal.step (.inspector k securityPass)
        securityAvailability := s.freed k
        judgements := s.judgements ++
          s.terminal.security.judges k s.terminal.screening.screeningResult securityPass }
  | turn, s => s.terminalStep turn

/-- Each `Signal` on `SecurityOfficerCV`, by a passenger or for its verdict, wakes nobody that it
is not meant for. -/
def Meant (s : Checkpoint cfg m) : TerminalTurn cfg m → Prop
  | .passenger p _ => s.terminal.security.PassengerMeant p
  | .inspector k _ => s.terminal.security.InspectorMeant k
  | _ => True

instance (s : Checkpoint cfg m) : (turn : TerminalTurn cfg m) → Decidable (s.Meant turn)
  | .passenger p _ => inferInstanceAs (Decidable (s.terminal.security.PassengerMeant p))
  | .inspector k _ => inferInstanceAs (Decidable (s.terminal.security.InspectorMeant k))
  | .liaison _ _ | .checkInOfficer _ | .handler _ | .manager | .screeningOfficer _ _ _ =>
      inferInstanceAs (Decidable True)

/-- `securityPassengerCount` behind the loop of `EndOfDay`. -/
def securityPassengerCount (s : Checkpoint cfg m) : Nat :=
  (List.range m).foldl (fun total k => total + s.terminal.security.passedPassengers k) 0

/-- The inspectors' verdicts reach the passengers, and their count is right. -/
structure Honest (s : Checkpoint cfg m) : Prop where
  /-- A passenger has read the one verdict on itself. -/
  verdict : ∀ p passed, s.notTerrorist p = some passed → ∃ j,
    (s.judgements.filter fun j => j.name = p.val ∧ j.questioning = false) = [j] ∧
      j.totalPass = passed
  booked : ∀ k, s.terminal.security.passedPassengers k =
    (s.judgements.filter fun j => j.inspector = k ∧ j.totalPass = true).length
  /-- A passenger that goes to the gate has been counted once. -/
  counted : ∀ p, s.terminal.security.passenger p = .left →
    (s.judgements.filter fun j => j.name = p.val ∧ j.totalPass = true).length = 1
  total : s.terminal.simulation.manager = .ending →
    s.securityPassengerCount = cfg.simNumOfPassengers

section Runs

variable {s s' : Checkpoint cfg m} {p : cfg.Passenger}

/-- What runs keep in which each `Signal` is meant for the thread that it wakes. -/
structure Kept (s : Checkpoint cfg m) : Prop where
  security : s.terminal.security.Kept s.judgements s.notTerrorist
  simulation : s.terminal.simulation.Sound
  announced : s.terminal.simulation.Announced
  gate : ∀ p, s.terminal.simulation.lounge.passenger p ≠ .away →
    s.terminal.security.passenger p = .left
  inspectors : ∀ j ∈ s.judgements, j.inspector < m

theorem kept_start (cfg : Settings) (m : Nat) (unset : Unset) : (start cfg m unset).Kept where
  security := Security.kept_start _ _
  simulation := Simulation.sound_startWith cfg unset
  announced := Simulation.announced_startWith cfg unset
  gate p hp := absurd rfl hp
  inspectors j hj := absurd hj (by simp [start])

/-- A step of the hall, the counters, the cargo handlers, the gates or the manager. -/
theorem Kept.simulationStep (h : s.Kept) {t : Simulation.Turn cfg} {u : Simulation cfg}
    (hstep : Simulation.step t s.terminal.simulation = .ok u)
    (hgate : ∀ p junk, t = .passenger p junk →
      s.terminal.simulation.counters.passenger p = .left →
        s.terminal.security.passenger p = .left)
    (hsimulation : s'.terminal.simulation = u)
    (hsecurity : s'.terminal.security = s.terminal.security)
    (hjudgements : s'.judgements = s.judgements)
    (hread : s.terminal.security.Kept s.judgements s'.notTerrorist) : s'.Kept where
  security := by
    rw [hsecurity, hjudgements]
    exact hread
  simulation := by
    rw [hsimulation]
    exact h.simulation.move (Simulation.step_move hstep)
  announced := by
    rw [hsimulation]
    exact h.announced.move h.simulation (Simulation.step_move hstep)
  gate p hp := by
    rw [hsecurity]
    by_cases hturn : ∃ junk, t = .passenger p junk ∧
        s.terminal.simulation.counters.passenger p = .left
    · obtain ⟨junk, ht, hleft⟩ := hturn
      exact hgate p junk ht hleft
    · refine h.gate p ?_
      rw [hsimulation, Simulation.step_lounge hstep p fun junk ht hleft =>
        hturn ⟨junk, ht, hleft⟩] at hp
      exact hp
  inspectors := by
    rw [hjudgements]
    exact h.inspectors

/-- A step at the screening. -/
theorem Kept.screening (h : s.Kept) (hsimulation : s'.terminal.simulation = s.terminal.simulation)
    (hsecurity : s'.terminal.security = s.terminal.security)
    (hjudgements : s'.judgements = s.judgements)
    (hread : s.terminal.security.Kept s.judgements s'.notTerrorist) : s'.Kept where
  security := by
    rw [hsecurity, hjudgements]
    exact hread
  simulation := by
    rw [hsimulation]
    exact h.simulation
  announced := by
    rw [hsimulation]
    exact h.announced
  gate := by
    rw [hsimulation, hsecurity]
    exact h.gate
  inspectors := by
    rw [hjudgements]
    exact h.inspectors

/-- What a step of a passenger is a step of. -/
inductive PassengerArea (s : Terminal cfg m) (p : cfg.Passenger) (s' : Terminal cfg m) : Prop
  | elsewhere (junk : Int) (u : Simulation cfg)
      (hstep : Simulation.step (.passenger p junk) s.simulation = .ok u)
      (hgate : s.simulation.counters.passenger p = .left → s.security.passenger p = .left)
      (hsimulation : s'.simulation = u) (hsecurity : s'.security = s.security)
  | screening (hsimulation : s'.simulation = s.simulation) (hsecurity : s'.security = s.security)
  | security (u : Security cfg.simNumOfPassengers)
      (hstep : s.security.passengerStep (s.myLine p) p = .ok u)
      (hsimulation : s'.simulation = s.simulation) (hsecurity : s'.security = u)

theorem passengerStep_area {s s' : Terminal cfg m} {junk : Int}
    (hstep : s.passengerStep p junk = .ok s') : PassengerArea s p s' := by
  unfold Terminal.passengerStep at hstep
  split at hstep
  · rename_i hleft
    obtain ⟨u, hu, hs'⟩ := bind_eq_ok hstep
    obtain rfl := Except.ok.inj hs'
    exact .elsewhere junk u hu (fun _ => hleft) rfl rfl
  · obtain ⟨u, hu, hs'⟩ := bind_eq_ok hstep
    obtain rfl := Except.ok.inj hs'
    exact .security u hu rfl rfl
  · obtain ⟨u, -, hs'⟩ := bind_eq_ok hstep
    obtain rfl := Except.ok.inj hs'
    exact .screening rfl rfl
  · obtain ⟨u, -, hs'⟩ := bind_eq_ok hstep
    obtain rfl := Except.ok.inj hs'
    exact .screening rfl rfl
  · rename_i k hat
    obtain ⟨u, hu, hs'⟩ := bind_eq_ok hstep
    obtain rfl := Except.ok.inj hs'
    exact .elsewhere junk u hu (fun hleft => absurd (hat.symm.trans hleft) (by simp)) rfl rfl
  · rename_i hnot _ _ _ _
    obtain ⟨u, hu, hs'⟩ := bind_eq_ok hstep
    obtain rfl := Except.ok.inj hs'
    exact .elsewhere junk u hu (fun hleft => absurd hleft hnot) rfl rfl

/-- What a passenger reads keeps the stages, wherever it reads it. -/
theorem Kept.remember (h : s.Kept) (p : cfg.Passenger) :
    s.terminal.security.Kept s.judgements
      (s.terminal.security.remember p s.notTerrorist) := by
  by_cases hat : ∃ k, s.terminal.security.passenger p = .judged k false
  · obtain ⟨k, hat⟩ := hat
    exact h.security.remember hat
  · rw [Security.remember_of_ne fun k hk => hat ⟨k, hk⟩]
    exact h.security

/-- A step of a passenger. -/
theorem Kept.passenger (h : s.Kept) {junk : Int} (hmeant : s.Meant (.passenger p junk))
    (hstep : step (.passenger p junk) s = .ok s') : s'.Kept := by
  obtain ⟨t, ht, hs'⟩ := bind_eq_ok hstep
  obtain rfl := Except.ok.inj hs'
  cases passengerStep_area ht with
  | elsewhere junk u hu hgate hsimulation hsecurity =>
      refine h.simulationStep hu (fun q junk hq hleft => ?_) hsimulation hsecurity rfl
        (h.remember p)
      obtain ⟨rfl, -⟩ := Simulation.Turn.passenger.inj hq
      exact hgate hleft
  | screening hsimulation hsecurity =>
      exact h.screening hsimulation hsecurity rfl (h.remember p)
  | security u hu hsimulation hsecurity =>
      have hkept := h.security.passenger hmeant hu
      refine ⟨?_, ?_, ?_, fun q hq => ?_, h.inspectors⟩
      · change t.security.Kept _ _
        rw [hsecurity]
        exact hkept
      · change t.simulation.Sound
        rw [hsimulation]
        exact h.simulation
      · change t.simulation.Announced
        rw [hsimulation]
        exact h.announced
      · change t.simulation.lounge.passenger q ≠ .away at hq
        change t.security.passenger q = .left
        rw [hsimulation] at hq
        rw [hsecurity]
        have hleft := h.gate q hq
        obtain ⟨v, hpassenger, -⟩ := (Security.passengerStep_move hu).exists_go
        have hne : q ≠ p := by
          rintro rfl
          unfold Security.passengerStep at hu
          rw [hleft] at hu
          exact absurd hu (by simp)
        rw [hpassenger, Function.update_of_ne hne]
        exact hleft

/-- A step of an inspector. -/
theorem Kept.inspector (h : s.Kept) {k : Nat} {securityPass : Bool}
    (hmeant : s.Meant (.inspector k securityPass))
    (hstep : step (.inspector k securityPass) s = .ok s') : s'.Kept := by
  obtain ⟨t, ht, hs'⟩ := bind_eq_ok hstep
  obtain rfl := Except.ok.inj hs'
  simp only [Terminal.step] at ht
  split at ht
  · rename_i hk
    obtain ⟨u, hu, ht⟩ := bind_eq_ok ht
    obtain rfl := Except.ok.inj ht
    refine ⟨h.security.inspector hmeant hu, h.simulation, h.announced, fun q hq => ?_,
      fun j hj => ?_⟩
    · change u.passenger q = .left
      rw [(Security.inspectorStep_move hu).passengers]
      exact h.gate q hq
    · rcases List.mem_append.mp hj with hold | hnew
      · exact h.inspectors j hold
      · unfold Security.judges at hnew
        split at hnew
        · rw [List.mem_singleton.mp hnew]
          exact hk
        · exact absurd hnew (by simp)
  · exact absurd ht (by simp)

/-- What a step at the screening leaves as it is. -/
structure Unseen (s s' : Checkpoint cfg m) : Prop where
  simulation : s'.terminal.simulation = s.terminal.simulation
  security : s'.terminal.security = s.terminal.security
  judgements : s'.judgements = s.judgements
  notTerrorist : s'.notTerrorist = s.notTerrorist

theorem terminalStep_unseen {i : Fin m} {screenPass : Bool} {found : Option (Fin m)}
    (hstep : s.terminalStep (.screeningOfficer i screenPass found) = .ok s') : s.Unseen s' := by
  obtain ⟨t, ht, hs'⟩ := bind_eq_ok hstep
  obtain rfl := Except.ok.inj hs'
  obtain ⟨u, -, ht⟩ := bind_eq_ok ht
  obtain rfl := Except.ok.inj ht
  exact ⟨rfl, rfl, rfl, rfl⟩

theorem look_unseen {i : Fin m} (hstep : s.look i = .ok s') : s.Unseen s' := by
  unfold look at hstep
  simp only at hstep
  split at hstep
  · exact absurd hstep (by simp)
  · split at hstep
    · obtain rfl := Except.ok.inj hstep
      exact ⟨rfl, rfl, rfl, rfl⟩
    · obtain rfl := Except.ok.inj hstep
      exact ⟨rfl, rfl, rfl, rfl⟩

theorem searchStep_unseen {i : Fin m} {screenPass : Bool}
    (hstep : s.searchStep i screenPass = .ok s') : s.Unseen s' := by
  unfold searchStep at hstep
  simp only at hstep
  split at hstep
  · exact look_unseen hstep
  · split at hstep
    · obtain ⟨hsimulation, hsecurity, hjudgements, hread⟩ := terminalStep_unseen hstep
      exact ⟨hsimulation, hsecurity, hjudgements, hread⟩
    · obtain rfl := Except.ok.inj hstep
      exact ⟨rfl, rfl, rfl, rfl⟩

theorem Kept.unseen (h : s.Kept) (hsame : s.Unseen s') : s'.Kept := by
  refine h.screening hsame.simulation hsame.security hsame.judgements ?_
  rw [hsame.notTerrorist]
  exact h.security

/-- A step of a thread that has to do with no inspector. -/
theorem Kept.aside (h : s.Kept) {turn : TerminalTurn cfg m} {t : Simulation.Turn cfg}
    (hturn : Terminal.step turn s.terminal = s.terminal.simulationStep t)
    (hother : ∀ p junk, t ≠ .passenger p junk)
    (hstep : s.terminalStep turn = .ok s') : s'.Kept := by
  obtain ⟨u, hu, hs'⟩ := bind_eq_ok hstep
  obtain rfl := Except.ok.inj hs'
  rw [hturn] at hu
  obtain ⟨v, hv, hu⟩ := bind_eq_ok hu
  obtain rfl := Except.ok.inj hu
  exact h.simulationStep hv (fun p junk ht => absurd ht (hother p junk)) rfl rfl rfl h.security

/-- A step of a thread whose `Signal`, if it makes one, is meant for the thread that it wakes. -/
theorem Kept.step (h : s.Kept) {turn : TerminalTurn cfg m} (hmeant : s.Meant turn)
    (hstep : step turn s = .ok s') : s'.Kept := by
  cases turn with
  | passenger p junk => exact h.passenger hmeant hstep
  | inspector k securityPass => exact h.inspector hmeant hstep
  | screeningOfficer i screenPass found =>
      simp only [Checkpoint.step] at hstep
      split at hstep
      · exact h.unseen (searchStep_unseen hstep)
      · exact h.unseen (terminalStep_unseen hstep)
  | liaison l draw => exact h.aside rfl (fun _ _ => by simp) hstep
  | checkInOfficer k => exact h.aside rfl (fun _ _ => by simp) hstep
  | handler g => exact h.aside rfl (fun _ _ => by simp) hstep
  | manager => exact h.aside rfl (fun _ _ => by simp) hstep

/-- The inspectors have counted whom they let pass. -/
theorem Kept.total (h : s.Kept) : s.securityPassengerCount =
    (s.judgements.filter fun j => j.totalPass = true).length := by
  unfold securityPassengerCount
  rw [foldl_range, ← sum_filter_length Judgement.inspector (fun j => j.totalPass = true)
    h.inspectors]
  exact Finset.sum_congr rfl fun k _ => h.security.booked k

theorem Kept.honest (h : s.Kept) (hairlines : 0 < cfg.simNumOfAirlines) : s.Honest where
  verdict p passed hread := h.security.verdict hread
  booked := h.security.booked
  counted p hat := h.security.counted hat
  total hat := by
    have honce : ∀ i ∈ Finset.range cfg.simNumOfPassengers,
        (s.judgements.filter fun j => j.name = i ∧ j.totalPass = true).length = 1 := by
      intro i hi
      obtain ⟨a, ha⟩ := h.announced.everybody h.simulation hairlines hat
        ⟨i, Finset.mem_range.mp hi⟩
      refine h.security.counted (p := ⟨i, Finset.mem_range.mp hi⟩) (h.gate _ fun haway => ?_)
      rw [haway] at ha
      exact absurd ha (by simp)
    rw [h.total, ← sum_filter_length Judgement.name (fun j => j.totalPass = true)
      h.security.names, Finset.sum_congr rfl honce, Finset.sum_const, Finset.card_range]
    simp

/-- While each `Signal` wakes the thread that it is meant for, the verdicts reach the passengers
that they are on, and everybody is counted once. -/
theorem honest_of_meant (haccepted : Accepted cfg m) (unset : Unset)
    (hrun : Reach step Meant (start cfg m unset) s) : s.Honest := by
  have hkept : s.Kept :=
    hrun.invariant (fun _ _ _ h hmeant hstep => h.step hmeant hstep) (kept_start cfg m unset)
  refine hkept.honest ?_
  have hfew := haccepted.airlines.1
  omega

/-- The turns of the first two passengers, and of the last inspector. -/
def first : TerminalTurn (Terminal.twenty 3 3) 3 := .passenger ⟨0, by decide⟩ 0

def second : TerminalTurn (Terminal.twenty 3 3) 3 := .passenger ⟨1, by decide⟩ 0

def last : TerminalTurn (Terminal.twenty 3 3) 3 := .inspector 2 true

/-- A passenger `q` goes through the hall and its counter to the screening, and from there to
security; `o` is the screening officer. -/
def toSecurity (q o : TerminalTurn (Terminal.twenty 3 3) 3) :
    List (TerminalTurn (Terminal.twenty 3 3) 3) :=
  Terminal.toScreening q o ++ Terminal.inTurn [(7, o), (3, q)]

/-- A passenger on its own is let pass. -/
theorem honest_of_meant_alone : ∃ s : Checkpoint (Terminal.twenty 3 3) 3,
    Reach step Meant (start (Terminal.twenty 3 3) 3 Terminal.zeroes) s ∧
      s.notTerrorist (Terminal.first 3 3) = some true ∧ s.Honest := by
  have hreplay : (replay step (fun s turn => decide (Meant s turn))
      (toSecurity first (.screeningOfficer 2 true none) ++
        Terminal.inTurn [(7, last), (5, first), (3, last), (3, first), (3, last), (5, first)])
      (start (Terminal.twenty 3 3) 3 Terminal.zeroes)).any
        (fun s => decide (s.notTerrorist (Terminal.first 3 3) = some true)) = true := by
    decide +kernel
  obtain ⟨s, hrun, hread⟩ :=
    exists_reach_of_replay (fun _ _ hmeant => of_decide_eq_true hmeant) hreplay
  have haccepted : Accepted (Terminal.twenty 3 3) 3 :=
    ⟨by decide, by decide, by decide, by decide, by decide, by decide⟩
  exact ⟨s, hrun, hread, honest_of_meant haccepted Terminal.zeroes hrun⟩

/-- The first passenger has been found suspicious at the screening.  Its inspector was available
again before it came, so the second one is sent there, too.  Each of them wakes the other one, and
the first reads the verdict on the second. -/
theorem verdict_of_another : ¬ ∀ (cfg : Settings) (m : Nat), Accepted cfg m →
    ∀ (unset : Unset) (s : Checkpoint cfg m),
      Reach step (fun _ _ => True) (start cfg m unset) s → s.Honest := by
  intro h
  have haccepted : Accepted (Terminal.twenty 3 3) 3 :=
    ⟨by decide, by decide, by decide, by decide, by decide, by decide⟩
  have hreplay : (replay step (fun _ _ => true)
      (toSecurity first (.screeningOfficer 2 false none) ++ Terminal.inTurn [(7, last)] ++
        toSecurity second (.screeningOfficer 1 true none) ++
        Terminal.inTurn [(5, first), (5, second), (3, last), (3, first), (3, second), (3, last),
          (2, first)])
      (start (Terminal.twenty 3 3) 3 Terminal.zeroes)).any
        (fun s => decide (s.notTerrorist (Terminal.first 3 3) = some true ∧
          s.judgements.map Judgement.name = [1])) = true := by
    decide +kernel
  obtain ⟨s, hrun, hread, hnames⟩ := exists_reach_of_replay (fun _ _ _ => trivial) hreplay
  obtain ⟨j, hj, -⟩ := (h _ 3 haccepted Terminal.zeroes s hrun).verdict _ _ hread
  have hmem : j ∈ s.judgements.filter fun j =>
      j.name = (Terminal.first 3 3).val ∧ j.questioning = false := by
    rw [hj]
    exact List.mem_singleton_self j
  obtain ⟨hjudged, hname⟩ := List.mem_filter.mp hmem
  have hone := List.mem_map_of_mem (f := Judgement.name) hjudged
  rw [hnames, List.mem_singleton, (of_decide_eq_true hname).1] at hone
  exact absurd hone (by decide)

end Runs

end Checkpoint

end Airport
end Nachos
