import Nachos.Airport.Indices
import Nachos.Airport.ScreeningIndices

/-!
# All threads of `threads/threadtest.cc`

The simulation with the screening and the security inspectors in between: a passenger goes from its
check-in counter to the screening, with the number of the counter in `myLine`, and from there to the
inspector that it has read in `SPInfo`.

`LPInfo`, `CPInfo`, `SPInfo` and `SecPInfo` come from `new`, and hold anything before they are
written.  A screening officer may find any inspector, whatever `SecurityAvailability` says; so the
runs here include those of the program.
-/

namespace Nachos
namespace Airport

open Lib

/-- What the memory holds that nobody has written. -/
structure Unset where
  lpInfo : Nat → LiaisonPassengerInfo
  cpInfo : Nat → CheckInPassengerInfo
  spPassenger : Nat → Nat
  spSecurityOfficer : Nat → Nat
  secPInfo : Nat → SecurityPassengerInfo

/-- `threadtest.cc`; there are `m` screening officers and as many inspectors. -/
structure Terminal (cfg : Settings) (m : Nat) where
  simulation : Simulation cfg
  screening : Screening cfg.simNumOfPassengers m
  security : Security cfg.simNumOfPassengers
  /-- `myLine` of the passengers behind the counters, and behind the screening. -/
  myLine : cfg.Passenger → Nat

/-- Who makes the next step, and what it draws; `found` is the inspector that the search of a
screening officer ends with, if it ends. -/
inductive TerminalTurn (cfg : Settings) (m : Nat)
  | passenger (p : cfg.Passenger) (junk : Int)
  | liaison (l draw : Nat)
  | checkInOfficer (k : Nat)
  | handler (h : cfg.Handler)
  | manager
  | screeningOfficer (i : Fin m) (screenPass : Bool) (found : Option (Fin m))
  | inspector (k : Nat) (securityPass : Bool)
  deriving DecidableEq, Repr

/-- Why a thread makes no step. -/
def Halt.stop : Halt → Stop
  | .blocked => .blocked
  | .finished => .finished
  | .outOfBounds => .undefined

namespace Simulation

/-- The simulation as `setup` leaves it. -/
def startWith (cfg : Settings) (unset : Unset) : Simulation cfg :=
  { start cfg with
    hall := { Hall.start cfg with lpInfo := unset.lpInfo }
    counters := { Counters.start cfg with
      cpInfo := fun k => { unset.cpInfo k with bag := [] } } }

section Start

variable (cfg : Settings) (unset : Unset)

theorem placed_startWith : (startWith cfg unset).Placed where
  hall := by
    have hbooked := Hall.booked_start cfg
    exact ⟨Hall.locked_start cfg, Hall.lined_start cfg, Hall.staged_start cfg,
      ⟨fun l p hat => by simp [startWith, Hall.start] at hat,
        fun l hat => by simp [startWith, Hall.start] at hat⟩,
      ⟨hbooked.tickets, hbooked.seats, hbooked.baggage, hbooked.weight, hbooked.liaisons⟩⟩
  counters := by
    refine ⟨Counters.locked_start cfg, Counters.lined_start cfg, ⟨fun p => ?_, fun k hk => ?_⟩,
      Counters.staged_start cfg, ⟨fun k hk => ?_, fun k p hp => ?_, fun k i hk => ?_,
        fun k i b hk => ?_⟩⟩
    · simp [startWith, Counters.RouteOf, Counters.start]
    · simp [startWith, Counters.start] at hk
    · exact absurd rfl hk
    · simp [startWith, Counters.start] at hp
    · simp [startWith, Counters.start] at hk
    · simp [startWith, Counters.start] at hk
  directed := fun p hp => absurd rfl hp
  left := (placed_start cfg).left

/-- What is not set matters to nobody. -/
theorem sound_startWith : (startWith cfg unset).Sound where
  placed := placed_startWith cfg unset
  gated := by
    have hgated := gated_start cfg
    exact ⟨hgated.locked, hgated.queued, hgated.counted⟩
  balanced := by
    have hbalanced := balanced_start cfg
    exact ⟨hbalanced.counts, hbalanced.weights, hbalanced.taken, hbalanced.count,
      hbalanced.weight⟩

theorem announced_startWith : (startWith cfg unset).Announced := by
  have hannounced := announced_start cfg
  exact ⟨hannounced.full, hannounced.fresh, hannounced.gathered, hannounced.quiet,
    hannounced.emptied, hannounced.planes, hannounced.ended⟩

theorem ranged_startWith : (startWith cfg unset).Ranged where
  hall := fun p l hl => by simp [startWith, Hall.start, LiaisonVisit.line] at hl
  counters := fun p k hk => by simp [startWith, Counters.start] at hk

end Start

section Left

variable {cfg : Settings} {s s' : Simulation cfg} {p : cfg.Passenger}

/-- Whoever has left the counters does not come back. -/
theorem Move.left (hmove : Move s s') (hp : s.counters.passenger p = .left) :
    s'.counters.passenger p = .left := by
  cases hmove with
  | counterPassenger u counters hu hnot hmove =>
      obtain ⟨q, hpassenger⟩ := hmove.exists_go
      have hne : p ≠ u := by
        rintro rfl
        exact hnot hp
      change counters.passenger p = .left
      rw [hpassenger, Function.update_of_ne hne]
      exact hp
  | officer k counters hk hmove =>
      change counters.passenger p = .left
      rw [(Counters.officer_frame hmove).1]
      exact hp
  | manager s' hmove =>
      rw [hmove.frame.2.1]
      exact hp
  | hallPassenger u hall hu hmove => exact hp
  | liaison l hall hl hmove => exact hp
  | handler g conveyor hold hmove => exact hp
  | gatePassenger u lounge hu hleft hmove => exact hp

end Left

end Simulation

namespace Terminal

variable {cfg : Settings} {m : Nat}

/-- The threads as `setup` leaves them. -/
def start (cfg : Settings) (m : Nat) (unset : Unset) : Terminal cfg m where
  simulation := .startWith cfg unset
  screening := .start cfg.simNumOfPassengers m cfg.simNumOfAirlines
    (fun i => unset.spPassenger i) fun i => unset.spSecurityOfficer i
  security := .start cfg.simNumOfPassengers unset.secPInfo
  myLine := fun _ => 0

/-- A step of a thread of the simulation. -/
def simulationStep (t : Simulation.Turn cfg) (s : Terminal cfg m) : Except Stop (Terminal cfg m) :=
  do .ok { s with simulation := ← Simulation.step t s.simulation }

/-- A step of a passenger: up to the counters, at the screening, at the inspectors or at the
gate. -/
def passengerStep (p : cfg.Passenger) (junk : Int) (s : Terminal cfg m) :
    Except Stop (Terminal cfg m) :=
  match s.simulation.counters.passenger p, s.screening.passenger p, s.security.passenger p with
  | .left, .gone, .left => s.simulationStep (.passenger p junk)
  | .left, .gone, _ => do .ok { s with security := ← s.security.passengerStep (s.myLine p) p }
  | .left, .directed i, _ => do
      .ok { s with
        screening := ← (s.screening.passengerStep s.myLine p).mapError Halt.stop
        myLine := Function.update s.myLine p (s.screening.spSecurityOfficer i) }
  | .left, _, _ => do
      .ok { s with screening := ← (s.screening.passengerStep s.myLine p).mapError Halt.stop }
  | .leaving k, _, _ => do
      .ok { s with
        simulation := ← Simulation.step (.passenger p junk) s.simulation
        myLine := Function.update s.myLine p k }
  | _, _, _ => s.simulationStep (.passenger p junk)

/-- A step of a thread. -/
def step : TerminalTurn cfg m → Terminal cfg m → Except Stop (Terminal cfg m)
  | .passenger p junk, s => s.passengerStep p junk
  | .liaison l draw, s => s.simulationStep (.liaison l draw)
  | .checkInOfficer k, s => s.simulationStep (.officer k)
  | .handler h, s => s.simulationStep (.handler h)
  | .manager, s => s.simulationStep .manager
  | .screeningOfficer i screenPass found, s => do
      .ok { s with
        screening := ← (s.screening.officerStep ⟨.officer i, screenPass, found.map Fin.val⟩
          i).mapError Halt.stop }
  | .inspector k securityPass, s =>
      if k < m then do
        .ok { s with
          security := ← s.security.inspectorStep s.screening.screeningResult securityPass k }
      else .error .noSuchThread

/-- What the next step of a passenger uses. -/
def passengerUses (s : Terminal cfg m) (p : cfg.Passenger) (junk : Int) : List Access :=
  match s.simulation.counters.passenger p, s.screening.passenger p, s.security.passenger p with
  | .left, .gone, .left => s.simulation.uses m (.passenger p junk)
  | .left, .gone, _ => s.security.passengerUses p
  | .left, _, _ => s.screening.passengerUses s.myLine p
  | _, _, _ => s.simulation.uses m (.passenger p junk)

/-- What the next step of a thread uses. -/
def uses (s : Terminal cfg m) : TerminalTurn cfg m → List Access
  | .passenger p junk => s.passengerUses p junk
  | .liaison l draw => s.simulation.uses m (.liaison l draw)
  | .checkInOfficer k => s.simulation.uses m (.officer k)
  | .handler h => s.simulation.uses m (.handler h)
  | .manager => s.simulation.uses m .manager
  | .screeningOfficer i _ _ => s.screening.officerUses i
  | .inspector k _ => if k < m then s.security.inspectorUses k else []

/-- A passenger that takes a screening officer takes one that is not busy and has begun its
round. -/
def Careful (s : Terminal cfg m) : TerminalTurn cfg m → Prop
  | .passenger p _ => s.screening.TakesOne p
  | _ => True

instance (s : Terminal cfg m) : (turn : TerminalTurn cfg m) → Decidable (s.Careful turn)
  | .passenger p _ => inferInstanceAs (Decidable (s.screening.TakesOne p))
  | .liaison _ _ | .checkInOfficer _ | .handler _ | .manager | .screeningOfficer _ _ _
  | .inspector _ _ => inferInstanceAs (Decidable True)

section Moves

variable {s s' : Terminal cfg m} {p : cfg.Passenger}

theorem mapError_ok {A E F : Type} {x : Except E A} {f : E → F} {a : A}
    (h : x.mapError f = .ok a) : x = .ok a := by
  cases x with
  | error e => exact absurd h (by simp [Except.mapError])
  | ok b => exact congrArg Except.ok (Except.ok.inj h)

/-- What a step does. -/
inductive Move (s : Terminal cfg m) : TerminalTurn cfg m → Terminal cfg m → Prop
  | simulation (turn : TerminalTurn cfg m) (t : Simulation cfg)
      (hmove : Simulation.Move s.simulation t) : Move s turn { s with simulation := t }
  | leave (p : cfg.Passenger) (junk : Int) (k : Nat) (t : Simulation cfg)
      (hat : s.simulation.counters.passenger p = .leaving k)
      (hmove : Simulation.Move s.simulation t) :
      Move s (.passenger p junk)
        { s with simulation := t, myLine := Function.update s.myLine p k }
  | screened (p : cfg.Passenger) (junk : Int) (i : Fin m)
      (t : Screening cfg.simNumOfPassengers m)
      (hleft : s.simulation.counters.passenger p = .left)
      (hat : s.screening.passenger p = .directed i)
      (hstep : s.screening.passengerStep s.myLine p = .ok t) :
      Move s (.passenger p junk)
        { s with
          screening := t
          myLine := Function.update s.myLine p (s.screening.spSecurityOfficer i) }
  | screening (p : cfg.Passenger) (junk : Int) (t : Screening cfg.simNumOfPassengers m)
      (hleft : s.simulation.counters.passenger p = .left)
      (hat : ∀ i, s.screening.passenger p ≠ .directed i)
      (hstep : s.screening.passengerStep s.myLine p = .ok t) :
      Move s (.passenger p junk) { s with screening := t }
  | security (p : cfg.Passenger) (junk : Int) (t : Security cfg.simNumOfPassengers)
      (hat : s.screening.passenger p = .gone)
      (hmove : Security.PassengerMove s.security (s.myLine p) p t) :
      Move s (.passenger p junk) { s with security := t }
  | officer (i : Fin m) (screenPass : Bool) (found : Option (Fin m))
      (t : Screening cfg.simNumOfPassengers m)
      (hstep : s.screening.officerStep ⟨.officer i, screenPass, found.map Fin.val⟩ i = .ok t) :
      Move s (.screeningOfficer i screenPass found) { s with screening := t }
  | inspector (k : Nat) (securityPass : Bool) (t : Security cfg.simNumOfPassengers) (hk : k < m)
      (hmove : Security.InspectorMove s.security k t) :
      Move s (.inspector k securityPass) { s with security := t }

theorem simulationStep_move {t : Simulation.Turn cfg} (turn : TerminalTurn cfg m)
    (hstep : s.simulationStep t = .ok s') : Move s turn s' := by
  obtain ⟨u, hu, hs'⟩ := bind_eq_ok hstep
  obtain rfl := Except.ok.inj hs'
  exact .simulation turn u (Simulation.step_move hu)

theorem step_move {turn : TerminalTurn cfg m} (hstep : step turn s = .ok s') : Move s turn s' := by
  cases turn with
  | passenger p junk =>
      simp only [step, passengerStep] at hstep
      split at hstep
      · exact simulationStep_move _ hstep
      · rename_i hgone _
        obtain ⟨t, ht, hs'⟩ := bind_eq_ok hstep
        obtain rfl := Except.ok.inj hs'
        exact .security p junk t hgone (Security.passengerStep_move ht)
      · rename_i i hleft hat
        obtain ⟨t, ht, hs'⟩ := bind_eq_ok hstep
        obtain rfl := Except.ok.inj hs'
        exact .screened p junk i t hleft hat (mapError_ok ht)
      · rename_i hleft _ hnot _
        obtain ⟨t, ht, hs'⟩ := bind_eq_ok hstep
        obtain rfl := Except.ok.inj hs'
        exact .screening p junk t hleft (fun i hat => hnot i hat) (mapError_ok ht)
      · rename_i k hat
        obtain ⟨t, ht, hs'⟩ := bind_eq_ok hstep
        obtain rfl := Except.ok.inj hs'
        exact .leave p junk k t hat (Simulation.step_move ht)
      · exact simulationStep_move _ hstep
  | liaison l draw => exact simulationStep_move _ hstep
  | checkInOfficer k => exact simulationStep_move _ hstep
  | handler h => exact simulationStep_move _ hstep
  | manager => exact simulationStep_move _ hstep
  | screeningOfficer i screenPass found =>
      obtain ⟨t, ht, hs'⟩ := bind_eq_ok hstep
      obtain rfl := Except.ok.inj hs'
      exact .officer i screenPass found t (mapError_ok ht)
  | inspector k securityPass =>
      simp only [step] at hstep
      split at hstep
      · rename_i hk
        obtain ⟨t, ht, hs'⟩ := bind_eq_ok hstep
        obtain rfl := Except.ok.inj hs'
        exact .inspector k securityPass t hk (Security.inspectorStep_move ht)
      · exact absurd hstep (by simp)

end Moves

section Bounds

/-- What careful runs keep. -/
structure Sound (s : Terminal cfg m) : Prop where
  simulation : s.simulation.Sound
  announced : s.simulation.Announced
  ranged : s.simulation.Ranged
  screening : s.screening.Sound
  found : s.screening.Found m
  directed : ∀ p, (∃ i, s.screening.passenger p = .leaving i) ∨ s.screening.passenger p = .gone →
    s.simulation.counters.passenger p = .left ∧ s.myLine p < m
  heard : s.security.Heard
  lines : ∀ p k, (s.security.passenger p).line = some k → k < m

theorem sound_start (cfg : Settings) (m : Nat) (unset : Unset) : (start cfg m unset).Sound where
  simulation := Simulation.sound_startWith cfg unset
  announced := Simulation.announced_startWith cfg unset
  ranged := Simulation.ranged_startWith cfg unset
  screening := Screening.sound_start cfg.simNumOfPassengers m cfg.simNumOfAirlines _ _
  found := fun i hat => by simp [start, Screening.start] at hat
  directed := fun p hat => by simp [start, Screening.start] at hat
  heard := Security.heard_start _ _
  lines := fun p k hline => by simp [start, Security.start, SecurityVisit.line] at hline

variable {s s' : Terminal cfg m} {p : cfg.Passenger}

/-- A passenger goes on at the screening; `hline` is what it has in `myLine` if it leaves. -/
theorem Sound.screen (h : s.Sound) {t : Screening cfg.simNumOfPassengers m}
    {line : cfg.Passenger → Nat} (hsound : t.Sound)
    (hleft : s.simulation.counters.passenger p = .left)
    (hstep : s.screening.passengerStep s.myLine p = .ok t)
    (hother : ∀ u, u ≠ p → line u = s.myLine u)
    (hline : (∃ i, s.screening.passenger p = .directed i) ∨
      (∃ i, s.screening.passenger p = .leaving i) → line p < m) :
    Sound { s with screening := t, myLine := line } := by
  obtain ⟨hofficer, hfound, q, hpassenger, hleaving, hgone⟩ := Screening.passengerStep_frame hstep
  refine ⟨h.simulation, h.announced, h.ranged, hsound, ?_, fun u hu => ?_, h.heard, h.lines⟩
  · intro i hi
    change t.spSecurityOfficer i < m
    rw [hfound]
    exact h.found i (hofficer ▸ hi)
  · change (∃ i, t.passenger u = .leaving i) ∨ t.passenger u = .gone at hu
    rw [hpassenger] at hu
    by_cases hup : u = p
    · subst hup
      rw [Function.update_self] at hu
      refine ⟨hleft, hline ?_⟩
      rcases hu with ⟨i, hi⟩ | hq
      · exact Or.inl ⟨i, hleaving i hi⟩
      · exact Or.inr (hgone hq)
    · rw [Function.update_of_ne hup] at hu
      change _ ∧ line u < m
      rw [hother u hup]
      exact h.directed u hu

theorem Sound.step (h : s.Sound) (hliaisons : 0 < cfg.simNumOfLiaisons)
    {turn : TerminalTurn cfg m} (hcareful : s.Careful turn) (hstep : step turn s = .ok s') :
    s'.Sound := by
  have hsimulation : ∀ {t : Simulation cfg}, Simulation.Move s.simulation t →
      t.Sound ∧ t.Announced ∧ t.Ranged := fun hmove =>
    ⟨h.simulation.move hmove, h.announced.move h.simulation hmove,
      h.ranged.move h.simulation hliaisons hmove⟩
  have hscreening : ∀ {p : cfg.Passenger} {t : Screening cfg.simNumOfPassengers m},
      s.screening.TakesOne p → s.screening.passengerStep s.myLine p = .ok t → t.Sound :=
    fun {p t} hone hstep =>
      h.screening.step (hone.takesFree s.myLine (rfl : (⟨.passenger p, false, none⟩ :
        Airport.Turn cfg.simNumOfPassengers m).agent = .passenger p)) hstep
  have hmove := step_move hstep
  clear hstep
  cases hmove with
  | simulation turn t hmove =>
      obtain ⟨hsound, hannounced, hranged⟩ := hsimulation hmove
      exact ⟨hsound, hannounced, hranged, h.screening, h.found,
        fun u hu => ⟨hmove.left (h.directed u hu).1, (h.directed u hu).2⟩, h.heard, h.lines⟩
  | leave p junk k t hat hmove =>
      obtain ⟨hsound, hannounced, hranged⟩ := hsimulation hmove
      refine ⟨hsound, hannounced, hranged, h.screening, h.found, fun u hu => ?_, h.heard, h.lines⟩
      obtain ⟨hleft, hline⟩ := h.directed u hu
      have hne : u ≠ p := by
        rintro rfl
        exact absurd (hat.symm.trans hleft) (by simp)
      refine ⟨hmove.left hleft, ?_⟩
      change Function.update s.myLine p k u < m
      rw [Function.update_of_ne hne]
      exact hline
  | screened p junk i t hleft hat hstep =>
      refine h.screen (hscreening hcareful hstep) hleft hstep
        (fun u hu => Function.update_of_ne hu ..) fun _ => ?_
      rw [Function.update_self]
      exact h.found.directed h.screening hat
  | screening p junk t hleft hat hstep =>
      refine h.screen (hscreening hcareful hstep) hleft hstep (fun _ _ => rfl) ?_
      rintro (⟨i, hi⟩ | hleaving)
      · exact absurd hi (hat i)
      · exact (h.directed p (Or.inl hleaving)).2
  | security p junk t hat hmove =>
      obtain ⟨q, hpassenger, hq⟩ := hmove.exists_go
      refine ⟨h.simulation, h.announced, h.ranged, h.screening, h.found, h.directed,
        h.heard.passenger hmove, fun u k hk => ?_⟩
      change (t.passenger u).line = some k at hk
      rw [hpassenger] at hk
      by_cases hup : u = p
      · subst hup
        rw [Function.update_self] at hk
        rcases hq with hq | hq | hq
        · exact absurd (hq.symm.trans hk) (by simp)
        · rw [← Option.some.inj (hq.symm.trans hk)]
          exact (h.directed u (Or.inr hat)).2
        · exact h.lines u k (hq.symm.trans hk)
      · rw [Function.update_of_ne hup] at hk
        exact h.lines u k hk
  | officer i screenPass found t hstep =>
      have hbound : ∀ k, found.map Fin.val = some k → k < m := by
        intro k hk
        obtain ⟨j, -, rfl⟩ := Option.map_eq_some_iff.mp hk
        exact j.isLt
      obtain ⟨hfound, hpassenger⟩ := h.found.officer hbound hstep
      refine ⟨h.simulation, h.announced, h.ranged, h.screening.step_officer hstep, hfound,
        fun u hu => h.directed u ?_, h.heard, h.lines⟩
      rw [← hpassenger]
      exact hu
  | inspector k securityPass t hk hmove =>
      refine ⟨h.simulation, h.announced, h.ranged, h.screening, h.found, h.directed,
        h.heard.inspector hmove, ?_⟩
      change ∀ p k, (t.passenger p).line = some k → k < m
      rw [hmove.passengers]
      exact h.lines

/-- Up to a thousand passengers, whatever a careful step uses is inside the bounds. -/
theorem Sound.within_uses (h : s.Sound) (haccepted : Accepted cfg m)
    (hpassengers : cfg.simNumOfPassengers ≤ 1000) {turn : TerminalTurn cfg m}
    (hcareful : s.Careful turn) : Within (s.uses turn) := by
  have hscreens := haccepted.screeningOfficers.2
  have hsimulation := Simulation.within_uses h.simulation h.announced h.ranged haccepted
  cases turn with
  | passenger p junk =>
      simp only [uses, passengerUses]
      split
      · exact hsimulation _
      · exact Security.within_passengerUses (h.lines p) hscreens
      · exact Screening.within_passengerUses hcareful hscreens
      · exact hsimulation _
  | liaison l draw => exact hsimulation (.liaison l draw)
  | checkInOfficer k => exact hsimulation (.officer k)
  | handler g => exact hsimulation (.handler g)
  | manager => exact hsimulation .manager
  | screeningOfficer i screenPass found =>
      exact Screening.within_officerUses h.screening hscreens hpassengers
  | inspector k securityPass =>
      simp only [uses]
      split
      · rename_i hk
        exact Security.within_inspectorUses h.heard hk hscreens hpassengers
      · exact within_nil

/-- `setup` stays inside the arrays unless there are five airlines with five check-in officers
each; then the threads do, so long as there are at most a thousand passengers and each takes a
screening officer that is free. -/
theorem indices_within (haccepted : Accepted cfg m) :
    (Within (setupUses cfg m) ↔ ¬ Crowded cfg) ∧
      (cfg.simNumOfPassengers ≤ 1000 → ∀ (unset : Unset) (s : Terminal cfg m),
        Reach step Careful (start cfg m unset) s → ∀ turn, s.Careful turn →
          Within (s.uses turn)) := by
  refine ⟨within_setupUses haccepted, fun hpassengers unset s hrun turn hcareful => ?_⟩
  have hliaisons : 0 < cfg.simNumOfLiaisons := by
    have hfew := haccepted.liaisons.1
    omega
  have hsound : s.Sound :=
    hrun.invariant (fun _ _ _ hu hcareful hstep => hu.step hliaisons hcareful hstep)
      (sound_start cfg m unset)
  exact hsound.within_uses haccepted hpassengers hcareful

/-- Twenty passengers with two bags each, five liaisons and six cargo handlers. -/
def twenty (airlines staff : Nat) : Settings where
  simNumOfPassengers := 20
  simNumOfAirlines := airlines
  simNumOfLiaisons := 5
  simNumOfCIOs := staff
  simNumOfCargoHandlers := 6
  economy := fun _ => true
  bags := fun _ => [30, 30]
  onBreak := fun _ => false

/-- The first of them. -/
def first (airlines staff : Nat) : (twenty airlines staff).Passenger := ⟨0, Nat.zero_lt_succ 19⟩

/-- Memory that was cleared. -/
def zeroes : Unset where
  lpInfo := fun _ => ⟨0, 0, 0⟩
  cpInfo := fun _ => ⟨0, 0, false, 0, 0, []⟩
  spPassenger := fun _ => 0
  spSecurityOfficer := fun _ => 0
  secPInfo := fun _ => ⟨false, false, 0, false⟩

/-- Threads of the smallest simulation, one after the other, make so many steps. -/
def inTurn (turns : List (Nat × TerminalTurn (twenty 3 3) 3)) :
    List (TerminalTurn (twenty 3 3) 3) :=
  turns.flatMap fun t => List.replicate t.1 t.2

/-- A passenger `q` goes through the hall and its counter to the screening, where it takes the
screening officer `o` and leaves its name. -/
def toScreening (q o : TerminalTurn (twenty 3 3) 3) : List (TerminalTurn (twenty 3 3) 3) :=
  let l := .liaison 0 0
  let k := .checkInOfficer 0
  inTurn [(2, q), (4, l), (1, q), (1, l), (4, q), (6, l), (3, q), (3, l), (1, q), (1, l), (1, q),
    (2, l), (3, q), (5, k), (1, q), (1, k), (5, q), (10, k), (3, q), (2, k), (4, o), (1, q),
    (1, o), (9, q)]

/-- A passenger of the smallest simulation takes the last screening officer, and goes to the line of
the inspector that it has read in `SPInfo`. -/
theorem indices_within_twenty :
    Within (setupUses (twenty 3 3) 3) ∧ ∃ s : Terminal (twenty 3 3) 3,
      Reach step Careful (start (twenty 3 3) 3 zeroes) s ∧
        ⟨.securityLine, 2⟩ ∈ s.uses (.passenger (first 3 3) 0) ∧
        Within (s.uses (.passenger (first 3 3) 0)) := by
  have haccepted : Accepted (twenty 3 3) 3 :=
    ⟨by decide, by decide, by decide, by decide, by decide, by decide⟩
  -- The officer has begun its round before the passenger takes it, so the run is careful.
  have hreplay : (replay step (fun s turn => decide (Careful s turn))
      (toScreening (.passenger (first 3 3) 0) (.screeningOfficer 2 true (some 2)) ++
        inTurn [(4, .screeningOfficer 2 true (some 2)), (4, .passenger (first 3 3) 0)])
      (start (twenty 3 3) 3 zeroes)).any
        (fun s => decide (⟨.securityLine, 2⟩ ∈ s.uses (.passenger (first 3 3) 0) ∧
          s.Careful (.passenger (first 3 3) 0))) = true := by
    decide +kernel
  obtain ⟨s, hrun, huses, hcareful⟩ :=
    exists_reach_of_replay (fun _ _ hcareful => of_decide_eq_true hcareful) hreplay
  have hindices := indices_within haccepted
  exact ⟨hindices.1.mpr fun hcrowded => absurd hcrowded.1 (by decide), s, hrun, huses,
    hindices.2 (by decide) zeroes s hrun _ hcareful⟩

/-- Five airlines with five check-in officers each. -/
theorem checkInLocks_exceeded : ¬ ∀ (cfg : Settings) (m : Nat), Accepted cfg m →
    Within (setupUses cfg m) ∧ ∀ (unset : Unset) (s : Terminal cfg m),
      Reach step (fun _ _ => True) (start cfg m unset) s → ∀ turn, Within (s.uses turn) := by
  intro h
  have haccepted : Accepted (twenty 5 5) 3 :=
    ⟨by decide, by decide, by decide, by decide, by decide, by decide⟩
  exact (within_setupUses haccepted).mp (h (twenty 5 5) 3 haccepted).1 ⟨rfl, rfl⟩

end Bounds

end Terminal

end Airport
end Nachos
