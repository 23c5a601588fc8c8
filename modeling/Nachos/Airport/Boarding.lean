import Nachos.Airport.Ledgers

/-!
# The boarding calls

Once all passengers of an airline are in its lounge and all of their bags are on its plane, this
stays so: no seat of the airline is left, so nobody else can get a ticket for it.  This is why
the manager may test the counters without a lock.  The lock of the gate makes the last passenger
wait in the queue before the call.
-/

namespace Nachos
namespace Airport

open Lib

namespace Simulation

variable {cfg : Settings} {s s' : Simulation cfg} {p : cfg.Passenger} {a : Nat}

section Full

/-- What holds in every run, whatever the manager does. -/
structure Sound (s : Simulation cfg) : Prop where
  placed : s.Placed
  gated : s.Gated
  balanced : s.Balanced

theorem sound_start (cfg : Settings) : (start cfg).Sound where
  placed := placed_start cfg
  gated := gated_start cfg
  balanced := balanced_start cfg

theorem Sound.move (h : s.Sound) (hmove : Move s s') : s'.Sound where
  placed := h.placed.move hmove
  gated := h.gated.move hmove
  balanced := h.balanced.move h.placed hmove

/-- All passengers of an airline are in its lounge, and all their bags on its plane. -/
def Full (s : Simulation cfg) (a : Nat) : Prop :=
  s.lounge.boardingLounges a = cfg.totalPassengersOfAirline a ∧
    s.hall.totalBaggage a = s.hold.aircraftBaggageCount a

/-- Whoever is at the gate of an airline flies with it. -/
theorem Placed.flies (h : s.Placed) (hp : (s.lounge.passenger p).airline = some a) :
    s.hall.Flies p a := by
  obtain ⟨hleft, hairline⟩ := h.left p a hp
  have hdirected := h.directed p (by simp [hleft])
  exact ⟨by simp [hdirected], hairline⟩

theorem airline_of_inLounge {q : GateVisit} (h : q.inLounge a = true) : q.airline = some a := by
  cases q
  all_goals simp at h ⊢
  all_goals exact h

theorem airline_of_settled {q : GateVisit} (h : q.settled a = true) : q.airline = some a := by
  cases q
  all_goals simp at h ⊢
  all_goals exact h

/-- Whoever has handed its bags over has left the hall. -/
theorem Placed.flies_of_handed (h : s.Placed) (hp : (s.counters.passenger p).hasHanded = true) :
    s.hall.Flies p (s.hall.airline p) := by
  have hdirected := h.directed p fun hat => by simp [hat] at hp
  exact ⟨by simp [hdirected], rfl⟩

/-- There is room for the passengers in a lounge. -/
theorem Sound.tickets_le (h : s.Sound) (a : Nat) :
    tally (fun _ => 1) (fun p => s.hall.ticket p = some a) ≤ cfg.totalPassengersOfAirline a := by
  rw [← h.placed.hall.booked.tickets a]
  exact h.placed.hall.booked.seats a

/-- All bags on the plane belong to passengers of the airline. -/
theorem Sound.loaded_le (h : s.Sound) (a : Nat) :
    s.hold.aircraftBaggageCount a ≤ s.hall.totalBaggage a := by
  have hentrusted : s.entrusted (fun _ => 1) a ≤ s.hall.totalBaggage a := by
    rw [h.placed.hall.booked.baggage a]
    have hcount : ∀ p, ((cfg.bags p).map fun _ => 1).sum = cfg.baggageCount p := by
      simp [Settings.baggageCount]
    unfold entrusted Counters.entrusted
    simp only [hcount]
    refine tally_mono _ fun p hp => ?_
    rw [← hp.2]
    exact h.placed.flies_of_handed hp.1
  have hcounts := h.balanced.counts a
  omega

/-- If a lounge is full, everybody with a ticket is there. -/
theorem Full.inLounge (h : s.Full a) (hsound : s.Sound) (hp : s.hall.ticket p = some a) :
    (s.lounge.passenger p).inLounge a = true := by
  refine tally_saturated (P := fun p => (s.lounge.passenger p).inLounge a = true)
    (Q := fun p => s.hall.ticket p = some a)
    (fun u hu => (hsound.placed.flies (airline_of_inLounge hu)).ticket) ?_ hp
  rw [← hsound.gated.counted a, h.1]
  exact hsound.tickets_le a

theorem Move.inLounge (hmove : Move s s') (hp : (s.lounge.passenger p).inLounge a = true) :
    (s'.lounge.passenger p).inLounge a = true := by
  cases hmove with
  | gatePassenger u lounge hu hleft hmove => exact hmove.inLounge hp
  | manager s' hmove =>
      rw [hmove.lounge.1]
      exact hp
  | _ => exact hp

/-- A passenger in a full lounge had its ticket before, so nobody else comes to fly with the
airline. -/
theorem Full.of_ticket (h : s.Full a) (hmove : Move s s') (hsound' : s'.Sound)
    (hsound : s.Sound) (hp : s'.hall.ticket p = some a) :
    (s.lounge.passenger p).inLounge a = true := by
  refine tally_saturated (P := fun p => (s.lounge.passenger p).inLounge a = true)
    (Q := fun p => s'.hall.ticket p = some a)
    (fun u hu => (hsound'.placed.flies (airline_of_inLounge (hmove.inLounge hu))).ticket) ?_ hp
  rw [← hsound.gated.counted a, h.1]
  exact hsound'.tickets_le a

/-- What is full stays full. -/
theorem Full.move (h : s.Full a) (hsound : s.Sound) (hmove : Move s s') : s'.Full a := by
  have hsound' := hsound.move hmove
  constructor
  · refine le_antisymm ?_ ?_
    · rw [hsound'.gated.counted a]
      exact le_trans (tally_mono _ fun u hu =>
        (hsound'.placed.flies (airline_of_inLounge hu)).ticket) (hsound'.tickets_le a)
    · rw [← h.1, hsound.gated.counted a, hsound'.gated.counted a]
      exact tally_mono _ fun u hu => hmove.inLounge hu
  · -- the bags in the books do not increase, and those on the plane do not decrease
    have hbooks : s'.hall.totalBaggage a ≤ s.hall.totalBaggage a := by
      rw [hsound.placed.hall.booked.baggage a, hsound'.placed.hall.booked.baggage a]
      refine tally_mono _ fun u hu => ?_
      exact hsound.placed.flies (airline_of_inLounge (h.of_ticket hmove hsound' hsound hu.ticket))
    have hplane : s.hold.aircraftBaggageCount a ≤ s'.hold.aircraftBaggageCount a := by
      obtain ⟨gone, htransfer⟩ := hmove.transfer hsound.placed
      have hcounts := htransfer.counts a
      omega
    have hloaded := hsound'.loaded_le a
    have hequal := h.2
    omega

end Full

section Calls

/-- How far the manager is with its boarding calls. -/
structure Announced (s : Simulation cfg) : Prop where
  full : ∀ a, (s.manager.attends = some a ∨ s.alreadyBoarded a = true) → s.Full a
  fresh : ∀ a, s.manager.attends = some a → s.alreadyBoarded a = false ∧ a < cfg.simNumOfAirlines
  gathered : ∀ a, (s.manager.gate = some a ∨ s.alreadyBoarded a = true) → ∀ p,
    s.hall.ticket p = some a → (s.lounge.passenger p).settled a = true
  quiet : ∀ a, s.alreadyBoarded a = false → s.manager.hasCalled a = false → ∀ p,
    (s.lounge.passenger p).settled a = true → p ∈ s.lounge.gateLocksCV a
  emptied : ∀ a, (s.manager = .closing a ∨ s.alreadyBoarded a = true) → s.lounge.gateLocksCV a = []
  planes : s.planeCount + s.manager.uncounted =
    ∑ a ∈ Finset.range cfg.simNumOfAirlines, if s.alreadyBoarded a then 1 else 0
  ended : s.manager = .ending → s.planeCount = cfg.simNumOfAirlines

theorem announced_start (cfg : Settings) : (start cfg).Announced where
  full := fun a ha => by simp [start] at ha
  fresh := fun a ha => by simp [start] at ha
  gathered := fun a ha => by simp [start] at ha
  quiet := fun a _ _ p hp => by simp [start, Lounge.start] at hp
  emptied := fun a ha => by simp [start] at ha
  planes := by simp [start]
  ended := fun h => by simp [start] at h

/-- A step that is not the manager's. -/
theorem Announced.aside (h : s.Announced) (hsound : s.Sound) (hmove : Move s s')
    (hmanager : s'.manager = s.manager) (hboarded : s'.alreadyBoarded = s.alreadyBoarded)
    (hplanes : s'.planeCount = s.planeCount)
    (hsettled : ∀ p a, (s.lounge.passenger p).settled a = true →
      (s'.lounge.passenger p).settled a = true)
    (hquiet : ∀ a, (∀ p, (s.lounge.passenger p).settled a = true → p ∈ s.lounge.gateLocksCV a) →
      ∀ p, (s'.lounge.passenger p).settled a = true → p ∈ s'.lounge.gateLocksCV a)
    (hqueue : ∀ a, (∀ p, s.hall.ticket p = some a → (s.lounge.passenger p).settled a = true) →
      s.lounge.gateLocksCV a = [] → s'.lounge.gateLocksCV a = []) : s'.Announced where
  full := by
    intro a ha
    rw [hmanager, hboarded] at ha
    exact (h.full a ha).move hsound hmove
  fresh := by
    rw [hmanager, hboarded]
    exact h.fresh
  gathered := by
    intro a ha p hp
    rw [hmanager, hboarded] at ha
    have hfull : s.Full a := by
      refine h.full a (ha.imp_left fun hgate => ?_)
      generalize s.manager = q at hgate
      cases q
      all_goals simp at hgate ⊢
      all_goals exact hgate
    have hin := hfull.of_ticket hmove (hsound.move hmove) hsound hp
    have hticket := (hsound.placed.flies (airline_of_inLounge hin)).ticket
    exact hsettled p a (h.gathered a ha p hticket)
  quiet := by
    intro a ha hcalled
    rw [hboarded] at ha
    rw [hmanager] at hcalled
    exact hquiet a (h.quiet a ha hcalled)
  emptied := by
    intro a ha
    rw [hmanager, hboarded] at ha
    refine hqueue a (h.gathered a (ha.imp_left fun hat => ?_)) (h.emptied a ha)
    simp [hat]
  planes := by
    rw [hmanager, hboarded, hplanes]
    exact h.planes
  ended := by
    rw [hmanager, hplanes]
    exact h.ended

/-- A passenger at the gates. -/
theorem Announced.gatePassenger (h : s.Announced) (hsound : s.Sound) {lounge : Lounge cfg}
    (hp : s.hall.passenger p = .directed) (hleft : s.counters.passenger p = .left)
    (hmove : Lounge.PassengerMove s.lounge (s.hall.airline p) p lounge) :
    Announced { s with lounge := lounge } := by
  refine h.aside hsound (.gatePassenger p lounge hp hleft hmove) rfl rfl rfl
    (fun u b hu => hmove.settled hu)
    (fun b hb => Lounge.quiet_passenger hmove hsound.gated.queued hb) fun b hb hqueue => ?_
  cases hmove with
  | wait c hat =>
      by_cases hbc : b = c
      · -- the last to be counted has been there since before the call
        subst hbc
        have hflies := hsound.placed.flies (p := p) (a := b) (by simp [hat])
        have hsettled := hb p hflies.ticket
        simp [hat] at hsettled
      · simpa [Lounge.go, Lounge.wait, Lounge.releaseGate, hbc] using hqueue
  | _ => exact hqueue

/-- The manager goes on, counts nothing, and moves no passenger. -/
theorem Announced.direct (h : s.Announced) {q : ManagerPoint} {hold : Hold cfg}
    {lounge : Lounge cfg} {report : Option Report}
    (hcounts : hold.aircraftBaggageCount = s.hold.aircraftBaggageCount)
    (hpassenger : lounge.passenger = s.lounge.passenger)
    (hlounges : lounge.boardingLounges = s.lounge.boardingLounges)
    (hqueue : ∀ a, q.hasCalled a = false ∨ s.alreadyBoarded a = true →
      lounge.gateLocksCV a = s.lounge.gateLocksCV a)
    (hattends : ∀ a, q.attends = some a →
      s.manager.attends = some a ∨ s.Full a ∧ s.alreadyBoarded a = false ∧ a < cfg.simNumOfAirlines)
    (hgate : ∀ a, q.gate = some a → s.manager.gate = some a ∨
      ∀ p, s.hall.ticket p = some a → (s.lounge.passenger p).settled a = true)
    (hcalled : ∀ a, q.hasCalled a = false → s.manager.hasCalled a = false)
    (hclosing : ∀ a, q = .closing a → lounge.gateLocksCV a = [])
    (huncounted : q.uncounted = s.manager.uncounted)
    (hending : q = .ending → s.planeCount = cfg.simNumOfAirlines) :
    Announced ({ s with hold := hold, lounge := lounge, report := report }.direct q) where
  full := by
    intro a ha
    have hfull : s.Full a := by
      rcases ha with ha | ha
      · rcases hattends a ha with hwas | hnew
        · exact h.full a (Or.inl hwas)
        · exact hnew.1
      · exact h.full a (Or.inr ha)
    exact ⟨(congrFun hlounges a).trans hfull.1, hfull.2.trans (congrFun hcounts a).symm⟩
  fresh := by
    intro a ha
    rcases hattends a ha with hwas | hnew
    · exact h.fresh a hwas
    · exact hnew.2
  gathered := by
    intro a ha p hp
    change (lounge.passenger p).settled a = true
    rw [hpassenger]
    rcases ha with ha | ha
    · rcases hgate a ha with hwas | hnew
      · exact h.gathered a (Or.inl hwas) p hp
      · exact hnew p hp
    · exact h.gathered a (Or.inr ha) p hp
  quiet := by
    intro a ha hnot p hp
    change p ∈ lounge.gateLocksCV a
    change (lounge.passenger p).settled a = true at hp
    rw [hpassenger] at hp
    rw [hqueue a (Or.inl hnot)]
    exact h.quiet a ha (hcalled a hnot) p hp
  emptied := by
    intro a ha
    change lounge.gateLocksCV a = []
    rcases ha with ha | ha
    · exact hclosing a ha
    · rw [hqueue a (Or.inr ha)]
      exact h.emptied a (Or.inr ha)
  planes := by
    rw [Simulation.direct, huncounted]
    exact h.planes
  ended := hending

/-- The routine points have to do with no airline. -/
theorem routine_facts {q : ManagerPoint} (h : q.routine = true) :
    q.attends = none ∧ q.gate = none ∧ (∀ a, q.hasCalled a = false) ∧ q.uncounted = 0 ∧
      (∀ a, q ≠ .closing a) ∧ q ≠ .ending := by
  cases q
  all_goals simp at h ⊢

/-- The manager gets the lock of a gate: the last passenger has given it up to wait. -/
theorem Announced.open (h : s.Announced) (hsound : s.Sound) {i : Nat}
    (hat : s.manager = .opening i) (hfree : s.lounge.Free i .manager) :
    Announced ({ s with lounge := s.lounge.takeGate i .manager }.direct (.announcing i)) := by
  have hlocked := hsound.gated.locked
  rw [hat] at hlocked
  refine h.direct rfl rfl rfl (fun _ _ => rfl) (fun a ha => Or.inl (by simpa [hat] using ha))
    (fun a ha => Or.inr fun p hp => ?_) (fun a _ => by simp [hat]) (fun a ha => by simp at ha)
    (by simp [hat]) (fun ha => by simp at ha)
  obtain rfl : i = a := by simpa using ha
  have hfull := h.full i (Or.inl (by simp [hat]))
  have hin := hfull.inLounge hsound hp
  have hwithout := (hlocked.takeGate hfree).without p
  simp only [Lounge.takeGate] at hwithout
  generalize s.lounge.passenger p = q at hin hwithout
  cases q
  all_goals simp_all

/-- The manager has called an airline. -/
theorem Announced.close (h : s.Announced) {i : Nat} (hat : s.manager = .closing i) :
    Announced ({ s with
      alreadyBoarded := Function.update s.alreadyBoarded i true
      lounge := s.lounge.releaseGate i }.direct (.closed i)) := by
  obtain ⟨hnot, hi⟩ := h.fresh i (by simp [hat])
  have hboarded : ∀ a, Function.update s.alreadyBoarded i true a = true →
      a = i ∨ s.alreadyBoarded a = true := by
    intro a ha
    by_cases hai : a = i
    · exact Or.inl hai
    · rw [Function.update_of_ne hai] at ha
      exact Or.inr ha
  refine ⟨fun a ha => ?_, fun a ha => ?_, fun a ha p hp => ?_, fun a ha hcalled p hp => ?_,
    fun a ha => ?_, ?_, fun ha => ?_⟩
  · rcases ha with ha | ha
    · simp [Simulation.direct] at ha
    · rcases hboarded a ha with rfl | hwas
      · exact h.full a (Or.inl (by simp [hat]))
      · exact h.full a (Or.inr hwas)
  · simp [Simulation.direct] at ha
  · rcases ha with ha | ha
    · simp [Simulation.direct] at ha
    · rcases hboarded a ha with rfl | hwas
      · exact h.gathered a (Or.inl (by simp [hat])) p hp
      · exact h.gathered a (Or.inr hwas) p hp
  · by_cases hai : a = i
    · subst hai
      simp [Simulation.direct] at ha
    · have hwas : s.alreadyBoarded a = false := by simpa [Simulation.direct, hai] using ha
      exact h.quiet a hwas (by simp [hat, Ne.symm hai]) p hp
  · rcases ha with ha | ha
    · simp [Simulation.direct] at ha
    · rcases hboarded a ha with rfl | hwas
      · exact h.emptied a (Or.inl hat)
      · exact h.emptied a (Or.inr hwas)
  · have hsum : (∑ a ∈ Finset.range cfg.simNumOfAirlines,
        if Function.update s.alreadyBoarded i true a then 1 else 0) + 0 =
        (∑ a ∈ Finset.range cfg.simNumOfAirlines, if s.alreadyBoarded a then 1 else 0) + 1 := by
      have hchange := sum_change (f := fun a => if s.alreadyBoarded a then 1 else 0)
        (g := fun a => if Function.update s.alreadyBoarded i true a then 1 else 0)
        (Finset.mem_range.mpr hi) fun a hai => by rw [Function.update_of_ne hai]
      simpa [hnot] using hchange
    have hplanes := h.planes
    rw [hat] at hplanes
    change s.planeCount + 0 = _ at hplanes
    change s.planeCount + 1 = ∑ a ∈ Finset.range cfg.simNumOfAirlines,
      if Function.update s.alreadyBoarded i true a then 1 else 0
    omega
  · simp [Simulation.direct] at ha

/-- Every step of the manager keeps to this. -/
theorem Announced.manager (h : s.Announced) (hsound : s.Sound) (hmove : ManagerMove s s') :
    s'.Announced := by
  cases hmove with
  | idle q lock queue hat hq =>
      obtain ⟨hattends, hgate, hcalled, huncounted, hclosing, hending⟩ := routine_facts hq
      obtain ⟨-, -, hcalled', huncounted', -, -⟩ := routine_facts hat
      exact h.direct rfl rfl rfl (fun _ _ => rfl)
        (fun a ha => absurd (hattends.symm.trans ha) (by simp))
        (fun a ha => absurd (hgate.symm.trans ha) (by simp)) (fun a _ => hcalled' a)
        (fun a ha => absurd ha (hclosing a)) (huncounted.trans huncounted'.symm)
        fun ha => absurd ha hending
  | check i hat hi hready =>
      refine h.direct rfl rfl rfl (fun _ _ => rfl) (fun a ha => Or.inr ?_)
        (fun a ha => by simp at ha) (fun a _ => by simp [hat]) (fun a ha => by simp at ha)
        (by simp [hat]) fun ha => by simp at ha
      obtain rfl : i = a := by simpa using ha
      exact ⟨⟨hready.1, hready.2.1⟩, hready.2.2, hi⟩
  | «open» i hat hfree => exact h.open hsound hat hfree
  | call i hat hqueue =>
      refine h.direct rfl rfl rfl (fun a ha => ?_) (fun a ha => Or.inl ?_) (fun a ha => Or.inl ?_)
        (fun a ha => ?_) (fun a ha => by simp at ha) ?_ fun ha => by simp at ha
      · have hai : a ≠ i := by
          rintro rfl
          rcases ha with ha | ha
          · simp at ha
          · have hnot := (h.fresh a (by rcases hat with hat | hat <;> simp [hat])).1
            rw [hnot] at ha
            exact absurd ha (by simp)
        simp [Lounge.signal, hai]
      all_goals
        rcases hat with hat | hat
        all_goals simp_all
  | finish i hat hqueue =>
      refine h.direct rfl rfl rfl (fun _ _ => rfl) (fun a ha => Or.inl ?_) (fun a ha => Or.inl ?_)
        (fun a ha => ?_) (fun a ha => ?_) ?_ fun ha => by simp at ha
      all_goals
        rcases hat with hat | hat
        all_goals simp_all
  | close i hat => exact h.close hat
  | count i hat =>
      refine ⟨fun a ha => h.full a (ha.imp_left fun ha => ?_), fun a ha => ?_,
        fun a ha => h.gathered a (ha.imp_left fun ha => ?_), fun a ha _ => ?_,
        fun a ha => h.emptied a (ha.imp_left fun ha => ?_), ?_, fun ha => ?_⟩
      · simp [Simulation.direct] at ha
      · simp [Simulation.direct] at ha
      · simp [Simulation.direct] at ha
      · exact h.quiet a ha (by simp [hat])
      · simp [Simulation.direct] at ha
      · have hplanes := h.planes
        rw [hat] at hplanes
        exact hplanes
      · simp [Simulation.direct] at ha
  | endDay i hat hi hall =>
      exact h.direct rfl rfl rfl (fun _ _ => rfl) (fun a ha => by simp at ha)
        (fun a ha => by simp at ha) (fun a _ => by simp [hat]) (fun a ha => by simp at ha)
        (by simp [hat]) fun _ => hall
  | report hat =>
      exact h.direct rfl rfl rfl (fun _ _ => rfl) (fun a ha => by simp at ha)
        (fun a ha => by simp at ha) (fun a _ => by simp [hat]) (fun a ha => by simp at ha)
        (by simp [hat]) fun ha => by simp at ha

theorem Announced.move (h : s.Announced) (hsound : s.Sound) (hmove : Move s s') :
    s'.Announced := by
  cases hmove with
  | gatePassenger p lounge hp hleft hmove => exact h.gatePassenger hsound hp hleft hmove
  | manager s' hmove => exact h.manager hsound hmove
  | hallPassenger p hall hp hmove =>
      exact h.aside hsound (.hallPassenger p hall hp hmove) rfl rfl rfl (fun _ _ hu => hu)
        (fun _ hb => hb) fun _ _ hqueue => hqueue
  | liaison l hall hl hmove =>
      exact h.aside hsound (.liaison l hall hl hmove) rfl rfl rfl (fun _ _ hu => hu)
        (fun _ hb => hb) fun _ _ hqueue => hqueue
  | counterPassenger p counters hp hnot hmove =>
      exact h.aside hsound (.counterPassenger p counters hp hnot hmove) rfl rfl rfl
        (fun _ _ hu => hu) (fun _ hb => hb) fun _ _ hqueue => hqueue
  | officer k counters hk hmove =>
      exact h.aside hsound (.officer k counters hk hmove) rfl rfl rfl (fun _ _ hu => hu)
        (fun _ hb => hb) fun _ _ hqueue => hqueue
  | handler g conveyor hold hmove =>
      exact h.aside hsound (.handler g conveyor hold hmove) rfl rfl rfl (fun _ _ hu => hu)
        (fun _ hb => hb) fun _ _ hqueue => hqueue

/-- All of this holds in every run. -/
theorem Reachable.announced (h : s.Reachable) : s.Sound ∧ s.Announced :=
  h.invariant (P := fun s => s.Sound ∧ s.Announced)
    (fun _ _ _ hu _ hstep =>
      ⟨hu.1.move (step_move hstep), hu.2.move hu.1 (step_move hstep)⟩)
    ⟨sound_start cfg, announced_start cfg⟩

end Calls

section Once

/-- The boarding call of an airline: its passengers are waiting at the gate, as many as it has
seats for, and the plane has their bags. -/
structure BoardingCall (s : Simulation cfg) (a : Nat) : Prop where
  once : (s.lounge.gateLocksCV a).Nodup
  passengers : ∀ p, p ∈ s.lounge.gateLocksCV a ↔ s.hall.Flies p a
  complete : (s.lounge.gateLocksCV a).length = cfg.totalPassengersOfAirline a
  loaded : s.hold.aircraftBaggageCount a = ((s.lounge.gateLocksCV a).map cfg.baggageCount).sum

theorem Announced.boardingCall (h : s.Announced) (hsound : s.Sound)
    (hat : s.manager = .announcing a) : s.BoardingCall a := by
  have hfull := h.full a (Or.inl (by simp [hat]))
  obtain ⟨hnot, -⟩ := h.fresh a (by simp [hat])
  have hnodup := (hsound.gated.queued a).1
  have hlounge : ∀ p, p ∈ s.lounge.gateLocksCV a ↔ (s.lounge.passenger p).inLounge a = true := by
    intro p
    constructor
    · intro hmem
      simp [(hsound.gated.queued a).2 p hmem]
    · intro hin
      have hticket := (hsound.placed.flies (airline_of_inLounge hin)).ticket
      exact h.quiet a hnot (by simp [hat]) p (h.gathered a (Or.inl (by simp [hat])) p hticket)
  have hflies : ∀ p, p ∈ s.lounge.gateLocksCV a ↔ s.hall.Flies p a := by
    intro p
    rw [hlounge p]
    exact ⟨fun hin => hsound.placed.flies (airline_of_inLounge hin),
      fun hflies => hfull.inLounge hsound hflies.ticket⟩
  refine ⟨hnodup, hflies, ?_, ?_⟩
  · have hcount := hsound.gated.counted a
    rw [hfull.1, tally_list _ hnodup hlounge] at hcount
    simpa using hcount.symm
  · rw [← hfull.2, hsound.placed.hall.booked.baggage a, tally_list _ hnodup hflies]

/-- Airline `a` has been called. -/
def Called (s : Simulation cfg) (a : Nat) : Prop :=
  s.manager.hasCalled a = true ∨ s.alreadyBoarded a = true

theorem Announced.not_called (h : s.Announced) (hat : s.manager = .announcing a) :
    ¬ s.Called a := by
  intro hcalled
  rcases hcalled with hcalled | hcalled
  · simp [hat] at hcalled
  · rw [(h.fresh a (by simp [hat])).1] at hcalled
    exact absurd hcalled (by simp)

/-- Only the manager calls, and what has been called stays called. -/
theorem Called.move (h : s.Called a) (hmove : Move s s') : s'.Called a := by
  cases hmove with
  | manager s' hmove =>
      cases hmove with
      | close i hat =>
          by_cases hai : a = i
          · subst hai
            exact Or.inr (Function.update_self ..)
          · refine Or.inr ?_
            rcases h with h | h
            · simp [hat, Ne.symm hai] at h
            · simpa [Simulation.direct, hai] using h
      | idle q lock queue hat hq =>
          refine Or.inr (h.resolve_left ?_)
          rw [(routine_facts hat).2.2.1 a]
          exact Bool.false_ne_true
      | check i hat | «open» i hat | count i hat | endDay i hat | report hat =>
          exact Or.inr (h.resolve_left (by simp [hat]))
      | call i hat | finish i hat =>
          refine h.imp_left fun hcalled => ?_
          rcases hat with hat | hat
          all_goals simp [hat, Simulation.direct] at hcalled ⊢
          all_goals exact hcalled
  | _ => exact h

/-- The manager leaves the call by calling. -/
theorem Move.called (hmove : Move s s') (hat : s.manager = .announcing a)
    (hnot : s'.manager ≠ .announcing a) : s'.Called a := by
  cases hmove with
  | manager s' hmove =>
      cases hmove with
      | call i hi | finish i hi =>
          obtain rfl : a = i := by simpa [hat] using hi
          exact Or.inl (by simp [Simulation.direct])
      | idle q lock queue hroutine => simp [hat] at hroutine
      | check i hi | «open» i hi | close i hi | count i hi | endDay i hi | report hi =>
          simp [hat] at hi
  | _ => exact absurd hat hnot

/-- What a replay of turns ends in is reachable. -/
theorem exists_reachable {P : Simulation cfg → Prop} [DecidablePred P] (turns : List (Turn cfg))
    (h : (replay step (fun _ _ => true) turns (start cfg)).any (fun s => decide (P s)) = true) :
    ∃ s : Simulation cfg, s.Reachable ∧ P s :=
  exists_reach_of_replay (fun _ _ _ => trivial) h

/-- Two passengers, one of them executive, and one of everything else. -/
def sample : Settings where
  simNumOfPassengers := 2
  simNumOfAirlines := 1
  simNumOfLiaisons := 1
  simNumOfCIOs := 1
  simNumOfCargoHandlers := 1
  economy := fun p => p.val == 0
  bags := fun p => if p.val = 0 then [30] else [40, 50]
  onBreak := fun _ => false

/-- One thread after the other makes so many steps. -/
def inTurn (turns : List (Nat × Turn sample)) : List (Turn sample) :=
  turns.flatMap fun t => List.replicate t.1 t.2

/-- The turns of the passengers, and of the handler. -/
def first : Turn sample := .passenger ⟨0, by decide⟩ 0

def second : Turn sample := .passenger ⟨1, by decide⟩ 0

def loader : Turn sample := .handler ⟨0, by decide⟩

/-- A run of the sample up to the boarding call. -/
def toTheCall : List (Turn sample) :=
  let l : Turn sample := .liaison 0 0
  let k : Turn sample := .officer 0
  inTurn [(2, first), (2, second), (4, l), (2, first), (1, l), (3, first), (6, l), (3, first), (3, l),
    (5, first), (4, l), (2, second), (1, l), (3, second), (6, l), (3, second), (3, l), (7, second),
    (2, l), (5, k), (2, second), (1, k), (4, second), (10, k), (6, second), (7, k), (2, first),
    (1, k), (4, first), (7, k), (6, first), (4, k), (21, loader), (3, .manager)]

end Once

end Simulation
end Airport
end Nachos
