import Nachos.Airport.LiaisonDesks
import Nachos.Lib.Tallies

/-!
# Tickets

A passenger has a ticket from the moment its liaison has found a seat for it; it reads its
airline later.  The tickets of an airline are those counted in `ticketsIssued`, at most
`totalPassengersOfAirline` of them, and what the liaisons and the passengers enter into their
accounts of the bags goes by the tickets.
-/

namespace Nachos
namespace Airport
namespace Hall

open Lib

variable {cfg : Settings} {s s' : Hall cfg} {p : cfg.Passenger} {l : Nat}

section Slots

/-- What is in `LPInfo` belongs to the passenger at the desk. -/
structure Informed (s : Hall cfg) : Prop where
  baggage : ∀ l p, (s.passenger p = .announced l ∨ s.passenger p = .waiting l ∨
    s.passenger p = .assigned l) → (s.lpInfo l).baggageCount = cfg.baggageCount p
  airline : ∀ l, ((s.liaison l).point = .assigning ∨ (s.liaison l).point = .parting) →
    (s.lpInfo l).airline = (s.liaison l).airline

theorem informed_start (cfg : Settings) : (start cfg).Informed where
  baggage := fun l p hat => by simp [start] at hat
  airline := fun l hat => by simp [start] at hat

/-- A passenger goes on and leaves `LPInfo` alone. -/
theorem Informed.go (h : s.Informed) {q : LiaisonVisit}
    (hpassenger : s'.passenger = Function.update s.passenger p q)
    (hliaison : s'.liaison = s.liaison) (hinfo : s'.lpInfo = s.lpInfo)
    (hq : ∀ l, (q = .announced l ∨ q = .waiting l ∨ q = .assigned l) →
      s.passenger p = .announced l ∨ s.passenger p = .waiting l ∨ s.passenger p = .assigned l) :
    s'.Informed where
  baggage := by
    intro l u hu
    rw [hinfo]
    apply h.baggage l u
    by_cases hne : u = p
    · subst hne
      rw [hpassenger, Function.update_self] at hu
      exact hq l hu
    · rw [hpassenger, Function.update_of_ne hne] at hu
      exact hu
  airline := by
    rw [hinfo, hliaison]
    exact h.airline

/-- Every step of a passenger keeps `LPInfo` with its owner. -/
theorem Informed.passenger (h : s.Informed) (hstaged : s.Staged) (hmove : PassengerMove s p s') :
    s'.Informed := by
  cases hmove with
  | announce l hat =>
      have honly := ((hstaged l).of_coming (p := p) (by simp [desk, guest, hat])).2
      refine ⟨fun k u hu => ?_, fun k hk => ?_⟩
      · by_cases hne : u = p
        · subst hne
          simp only [Hall.go, signal, inform, Function.update_self, LiaisonVisit.announced.injEq,
            reduceCtorEq, or_false] at hu
          simp [Hall.go, signal, inform, hu]
        · simp only [Hall.go, signal, inform, Function.update_of_ne hne] at hu
          by_cases hk : k = l
          · subst hk
            refine absurd (honly u ?_) hne
            rcases hu with hu | hu | hu
            all_goals simp [desk, guest, hu]
          · simp only [Hall.go, signal, inform, Function.update_of_ne hk]
            exact h.baggage k u hu
      · by_cases hkl : k = l
        · subst hkl
          simp only [Hall.go, signal, inform, Function.update_self]
          exact h.airline k hk
        · simp only [Hall.go, signal, inform, Function.update_of_ne hkl]
          exact h.airline k hk
  | rest l hat | wake l hat =>
      refine h.go rfl rfl rfl fun k hk => ?_
      simp only [reduceCtorEq, LiaisonVisit.waiting.injEq, LiaisonVisit.assigned.injEq, false_or,
        or_false] at hk
      simp [hat, hk]
  | arrive hat | join hat | rise l hat | step l hat | enter l hat | thank l hat | linger l hat
  | part l hat | leave l hat =>
      exact h.go rfl rfl rfl fun k hk => by simp at hk

/-- A liaison goes on and leaves `LPInfo` alone. -/
theorem Informed.post (h : s.Informed) {x : Liaison}
    (hliaison : s'.liaison = Function.update s.liaison l x)
    (hpassenger : s'.passenger = s.passenger) (hinfo : s'.lpInfo = s.lpInfo)
    (hx : (x.point = .assigning ∨ x.point = .parting) → (s.lpInfo l).airline = x.airline) :
    s'.Informed where
  baggage := by
    rw [hinfo, hpassenger]
    exact h.baggage
  airline := by
    intro k hk
    rw [hinfo]
    by_cases hkl : k = l
    · subst hkl
      rw [hliaison, Function.update_self] at hk ⊢
      exact hx hk
    · rw [hliaison, Function.update_of_ne hkl] at hk ⊢
      exact h.airline k hk

/-- Every step of a liaison keeps `LPInfo` with its owner. -/
theorem Informed.liaison (h : s.Informed) (hmove : LiaisonMove s l s') : s'.Informed := by
  cases hmove with
  | assign hat =>
      refine ⟨fun k u hu => ?_, fun k hk => ?_⟩
      · by_cases hkl : k = l
        · subst hkl
          simp only [Hall.post, signal, Hall.assign, Function.update_self]
          exact h.baggage k u hu
        · simp only [Hall.post, signal, Hall.assign, Function.update_of_ne hkl]
          exact h.baggage k u hu
      · by_cases hkl : k = l
        · subst hkl
          simp [Hall.post, signal, Hall.assign]
        · simp only [Hall.post, signal, Hall.assign, Function.update_of_ne hkl] at hk ⊢
          exact h.airline k hk
  | pause hat => exact h.post rfl rfl rfl fun _ => h.airline l (Or.inl hat)
  | count hat | issue a hat => exact h.post (Function.update_idem ..) rfl rfl fun hk => by simp at hk
  | redraw a hat => exact h.post rfl rfl rfl fun hk => by simp [hat] at hk
  | rest dayOver hat =>
      refine h.post rfl rfl rfl fun hk => ?_
      cases dayOver
      all_goals simp at hk
  | begin hat | call hat | pass hat | openDesk hat | ready hat | await hat | attend hat | seat hat
  | finish hat | close hat | lock hat =>
      exact h.post rfl rfl rfl fun hk => by simp at hk

end Slots

section Tickets

/-- The airline in which liaison `l` has found a seat. -/
def seat (s : Hall cfg) (l : Nat) : Option Nat :=
  if (s.liaison l).point.hasSeat then some (s.liaison l).airline else none

/-- The ticket of a passenger at some point. -/
@[simp]
def ticketAt (seat : Nat → Option Nat) (airline : Nat) : LiaisonVisit → Option Nat
  | .waiting l | .assigned l => seat l
  | .thanking _ | .lingering _ | .leaving _ | .directed => some airline
  | _ => none

/-- The ticket of a passenger. -/
def ticket (s : Hall cfg) (p : cfg.Passenger) : Option Nat :=
  ticketAt s.seat (s.airline p) (s.passenger p)

/-- A passenger has read that it flies with airline `a`. -/
def Flies (s : Hall cfg) (p : cfg.Passenger) (a : Nat) : Prop :=
  (s.passenger p).hasAirline = true ∧ s.airline p = a

instance (s : Hall cfg) (p : cfg.Passenger) (a : Nat) : Decidable (s.Flies p a) :=
  inferInstanceAs (Decidable (_ ∧ _))

/-- Whoever has read an airline has a ticket for it. -/
theorem Flies.ticket {a : Nat} (h : s.Flies p a) : s.ticket p = some a := by
  obtain ⟨hread, rfl⟩ := h
  unfold Hall.ticket
  generalize s.passenger p = q at hread
  cases q
  all_goals simp at hread ⊢

/-- A liaison that has a seat for its guest has not let it go. -/
theorem seat_of_clerk (hclerk : (s.liaison l).point.clerk = .dismissing ∨
    (s.liaison l).point.clerk = .parting) : s.seat l = some (s.liaison l).airline := by
  unfold seat
  generalize (s.liaison l).point = q at hclerk
  cases q
  all_goals simp at hclerk ⊢

/-- A step of a passenger changes nobody's ticket. -/
theorem ticket_passenger (hlocked : s.Locked) (hstaged : s.Staged) (hinformed : s.Informed)
    (hmove : PassengerMove s p s') : s'.ticket = s.ticket := by
  -- everybody else, and the passenger itself if its ticket goes with its point
  have hsame : ∀ (s' : Hall cfg) q, s'.passenger = Function.update s.passenger p q →
      s'.airline = s.airline → s'.seat = s.seat →
      ticketAt s.seat (s.airline p) q = s.ticket p → s'.ticket = s.ticket := by
    intro s' q hpassenger hairline hseat hq
    funext u
    by_cases hu : u = p
    · subst hu
      simp only [ticket, hpassenger, hairline, hseat, Function.update_self]
      exact hq
    · simp only [ticket, hpassenger, hairline, hseat, Function.update_of_ne hu]
  cases hmove with
  | rest l hat =>
      refine hsame _ _ rfl rfl rfl ?_
      -- the liaison cannot have found a seat, since the passenger has the lock
      have hshut := hlocked.liaison_without (p := p) (l := l) (by simp [hat])
      obtain ⟨hclerk, -, -⟩ := (hstaged l).of_greeted (p := p) (by simp [desk, guest, hat])
      simp only [desk] at hclerk
      simp only [ticket, hat, ticketAt, seat]
      generalize (s.liaison l).point = q at hshut hclerk ⊢
      cases q
      all_goals simp at hshut hclerk ⊢
  | thank l hat =>
      obtain ⟨hclerk, -⟩ := (hstaged l).of_told (p := p) (Or.inr (by simp [desk, guest, hat]))
      have hclerk' : (s.liaison l).point.clerk = .dismissing ∨
          (s.liaison l).point.clerk = .parting := hclerk.imp And.left And.left
      have htold : (s.lpInfo l).airline = (s.liaison l).airline := by
        apply hinformed.airline l
        generalize (s.liaison l).point = q at hclerk'
        cases q
        all_goals simp at hclerk' ⊢
      funext u
      by_cases hu : u = p
      · subst hu
        simp [ticket, hat, seat_of_clerk hclerk', Hall.go, signal, enroll, htold]
      · simp only [ticket, Hall.go, signal, enroll, Function.update_of_ne hu]
        rfl
  | arrive hat | join hat | rise l hat | step l hat | enter l hat | announce l hat | wake l hat
  | linger l hat | part l hat | leave l hat =>
      exact hsame _ _ rfl rfl rfl (by simp [ticket, hat])

/-- A step of a liaison that finds no seat changes nobody's ticket. -/
theorem ticket_post (hstaged : s.Staged) {x : Liaison}
    (hliaison : s'.liaison = Function.update s.liaison l x)
    (hpassenger : s'.passenger = s.passenger) (hairline : s'.airline = s.airline)
    (hx : (if x.point.hasSeat then some x.airline else none) = s.seat l ∨
      (s.liaison l).point = .closing) : s'.ticket = s.ticket := by
  have hother : ∀ k, k ≠ l → s'.seat k = s.seat k := by
    intro k hk
    simp only [seat, hliaison, Function.update_of_ne hk]
  rcases hx with hx | hclosing
  · have hseat : s'.seat = s.seat := by
      funext k
      by_cases hk : k = l
      · subst hk
        simp only [seat, hliaison, Function.update_self]
        exact hx
      · exact hother k hk
    funext u
    simp only [ticket, hpassenger, hairline, hseat]
  · -- the guest has gone
    funext u
    simp only [ticket, hpassenger, hairline]
    cases hu : s.passenger u
    case waiting k | assigned k =>
      have hk : k ≠ l := by
        rintro rfl
        obtain ⟨-, hstage⟩ := (hstaged k).of_guest (p := u) (by simp [desk, guest, hu])
        simp [Desk.Expects, desk, guest, hu, hclosing] at hstage
      exact hother k hk
    all_goals rfl

/-- The guest of a liaison that looks for a seat. -/
theorem exists_guest (hlocked : s.Locked) (hstaged : s.Staged)
    (hat : (s.liaison l).point = .seating) :
    ∃ p, s.passenger p = .waiting l ∧
      ∀ u, (s.passenger u = .waiting l ∨ s.passenger u = .assigned l) → u = p := by
  obtain ⟨p, honly, hp⟩ := (hstaged l).of_serving (Or.inr (by simp [desk, hat]))
  refine ⟨p, ?_, fun u hu => honly u ?_⟩
  · rcases hp with ⟨hp, -⟩ | ⟨hp, -⟩
    · have hshut := hlocked.guest_without (l := l) (by simp [hat]) p
      rw [guestAt_greeted.mp hp] at hshut
      simp at hshut
    · exact guestAt_waiting.mp hp
  · rcases hu with hu | hu
    all_goals simp [desk, guest, hu]

/-- A liaison issues a ticket to its guest. -/
theorem ticket_issue (hlocked : s.Locked) (hstaged : s.Staged)
    (hat : (s.liaison l).point = .seating) (a : Nat) :
    ∃ p, s.passenger p = .waiting l ∧ s.ticket p = none ∧
      ((s.issue l a).post l .seated).ticket = Function.update s.ticket p (some a) := by
  obtain ⟨p, hp, honly⟩ := exists_guest hlocked hstaged hat
  refine ⟨p, hp, by simp [ticket, hp, seat, hat], ?_⟩
  funext u
  by_cases hu : u = p
  · subst hu
    simp [ticket, Hall.post, Hall.issue, hp, seat]
  · rw [Function.update_of_ne hu]
    simp only [ticket, Hall.post, Hall.issue]
    cases hpoint : s.passenger u
    case waiting k | assigned k =>
      have hk : k ≠ l := by
        rintro rfl
        exact hu (honly u (by simp [hpoint]))
      simp only [ticketAt, seat, Function.update_of_ne hk]
    all_goals rfl

end Tickets

section Accounts

/-- The accounts of tickets and bags. -/
structure Booked (s : Hall cfg) : Prop where
  tickets : ∀ a, s.ticketsIssued a = tally (fun _ => 1) (fun p => s.ticket p = some a)
  seats : ∀ a, s.ticketsIssued a ≤ cfg.totalPassengersOfAirline a
  baggage : ∀ a, s.totalBaggage a = tally cfg.baggageCount (fun p => s.Flies p a)
  weight : ∀ a, s.totalWeight a = tally cfg.baggageWeight (fun p => s.Flies p a)
  liaisons : ∀ a, (∑ l ∈ Finset.range cfg.simNumOfLiaisons, (s.liaison l).airlineBaggageCount a) =
    tally cfg.baggageCount (fun p => s.ticket p = some a)

theorem booked_start (cfg : Settings) : (start cfg).Booked where
  tickets := fun a => (tally_none _ (by simp [ticket, start])).symm
  seats := fun a => Nat.zero_le _
  baggage := fun a => (tally_none _ (by simp [Flies, start])).symm
  weight := fun a => (tally_none _ (by simp [Flies, start])).symm
  liaisons := fun a => by
    rw [tally_none _ (by simp [ticket, start])]
    simp [start]

/-- A step that changes nobody's ticket and enters nothing. -/
theorem Booked.same (h : s.Booked) (hticket : s'.ticket = s.ticket)
    (hflies : ∀ p a, s'.Flies p a ↔ s.Flies p a) (hissued : s'.ticketsIssued = s.ticketsIssued)
    (hbaggage : s'.totalBaggage = s.totalBaggage) (hweight : s'.totalWeight = s.totalWeight)
    (hliaisons : ∀ l, (s'.liaison l).airlineBaggageCount = (s.liaison l).airlineBaggageCount) :
    s'.Booked where
  tickets := by
    rw [hissued, hticket]
    exact h.tickets
  seats := by
    rw [hissued]
    exact h.seats
  baggage := by
    intro a
    rw [hbaggage, h.baggage a]
    exact tally_congr _ fun p => (hflies p a).symm
  weight := by
    intro a
    rw [hweight, h.weight a]
    exact tally_congr _ fun p => (hflies p a).symm
  liaisons := by
    intro a
    simp only [hliaisons, hticket]
    exact h.liaisons a

/-- Who flies, when a passenger goes on without reading its airline. -/
theorem flies_go {q : LiaisonVisit} (hpassenger : s'.passenger = Function.update s.passenger p q)
    (hairline : s'.airline = s.airline) (hq : q.hasAirline = (s.passenger p).hasAirline)
    (u : cfg.Passenger) (a : Nat) : s'.Flies u a ↔ s.Flies u a := by
  unfold Flies
  rw [hairline, hpassenger]
  by_cases hu : u = p
  · subst hu
    rw [Function.update_self, hq]
  · rw [Function.update_of_ne hu]

/-- A passenger that reads its airline flies with it. -/
theorem tally_enroll (w : cfg.Passenger → Nat) (hat : s.passenger p = .assigned l) (a : Nat) :
    tally w (fun u => (((s.enroll p l).signal l).go p (.thanking l)).Flies u a) =
      Function.update (fun a => tally w fun u => s.Flies u a) (s.lpInfo l).airline
        (tally w (fun u => s.Flies u (s.lpInfo l).airline) + w p) a := by
  have hself : ∀ a, ¬ s.Flies p a := fun a habs => by simp [Flies, hat] at habs
  by_cases ha : a = (s.lpInfo l).airline
  · subst ha
    rw [Function.update_self]
    refine tally_enter w (hself _) fun u => ?_
    by_cases hu : u = p
    · subst hu
      simp [Flies, Hall.go, signal, Hall.enroll]
    · simp [Flies, Hall.go, signal, Hall.enroll, hu]
  · rw [Function.update_of_ne ha]
    refine tally_congr w fun u => ?_
    by_cases hu : u = p
    · subst hu
      refine iff_of_false ?_ (hself a)
      simp [Flies, Hall.go, signal, Hall.enroll, Ne.symm ha]
    · simp [Flies, Hall.go, signal, Hall.enroll, hu]

/-- A passenger enters its bags. -/
theorem Booked.enroll (h : s.Booked) (hat : s.passenger p = .assigned l)
    (hticket : (((s.enroll p l).signal l).go p (.thanking l)).ticket = s.ticket) :
    (((s.enroll p l).signal l).go p (.thanking l)).Booked where
  tickets := by
    rw [hticket]
    exact h.tickets
  seats := h.seats
  baggage := by
    intro a
    rw [tally_enroll cfg.baggageCount hat, ← h.baggage, ← funext h.baggage]
    rfl
  weight := by
    intro a
    rw [tally_enroll cfg.baggageWeight hat, ← h.weight, ← funext h.weight]
    rfl
  liaisons := by
    rw [hticket]
    exact h.liaisons

/-- Every step of a passenger keeps the accounts. -/
theorem Booked.passenger (h : s.Booked) (hlocked : s.Locked) (hstaged : s.Staged)
    (hinformed : s.Informed) (hmove : PassengerMove s p s') : s'.Booked := by
  have hticket := ticket_passenger hlocked hstaged hinformed hmove
  cases hmove with
  | thank l hat => exact h.enroll hat hticket
  | arrive hat | join hat | rise l hat | step l hat | enter l hat | announce l hat | rest l hat
  | wake l hat | linger l hat | part l hat | leave l hat =>
      exact h.same hticket (flies_go rfl rfl (by simp [hat])) rfl rfl rfl fun _ => rfl

/-- A ticket is issued. -/
theorem tally_issue (w : cfg.Passenger → Nat) {a : Nat} (hp : s.ticket p = none)
    (hticket : s'.ticket = Function.update s.ticket p (some a)) (b : Nat) :
    tally w (fun u => s'.ticket u = some b) =
      tally w (fun u => s.ticket u = some b) + if b = a then w p else 0 := by
  by_cases hb : b = a
  · subst hb
    rw [if_pos rfl]
    refine tally_enter w (by simp [hp]) fun u => ?_
    by_cases hu : u = p
    · subst hu
      simp [hticket]
    · simp [hticket, hu]
  · rw [if_neg hb, Nat.add_zero]
    refine tally_congr w fun u => ?_
    by_cases hu : u = p
    · subst hu
      simp [hticket, hp, Ne.symm hb]
    · simp [hticket, hu]

/-- A liaison enters a ticket and the bags that go with it. -/
theorem Booked.issue (h : s.Booked) (hlocked : s.Locked) (hstaged : s.Staged)
    (hinformed : s.Informed) (hl : l < cfg.simNumOfLiaisons)
    (hat : (s.liaison l).point = .seating) {a : Nat}
    (hseat : s.ticketsIssued a < cfg.totalPassengersOfAirline a) :
    ((s.issue l a).post l .seated).Booked := by
  obtain ⟨p, hp, hnone, hticket⟩ := ticket_issue hlocked hstaged hat a
  have hbaggage := hinformed.baggage l p (Or.inr (Or.inl hp))
  refine ⟨fun b => ?_, fun b => ?_, h.baggage, h.weight, fun b => ?_⟩
  · rw [tally_issue (fun _ => 1) hnone hticket, ← h.tickets b]
    by_cases hb : b = a
    · subst hb
      simp [Hall.post, Hall.issue]
    · simp [Hall.post, Hall.issue, hb]
  · by_cases hb : b = a
    · subst hb
      simp only [Hall.post, Hall.issue, Function.update_self]
      omega
    · simp only [Hall.post, Hall.issue, Function.update_of_ne hb]
      exact h.seats b
  · rw [tally_issue cfg.baggageCount hnone hticket, ← h.liaisons b]
    have hsum := sum_change (Finset.mem_range.mpr hl)
      (f := fun k => (s.liaison k).airlineBaggageCount b)
      (g := fun k => (((s.issue l a).post l .seated).liaison k).airlineBaggageCount b)
      (fun k hk => by simp [Hall.post, Hall.issue, hk])
    have hself : (((s.issue l a).post l .seated).liaison l).airlineBaggageCount b =
        (s.liaison l).airlineBaggageCount b + if b = a then cfg.baggageCount p else 0 := by
      by_cases hb : b = a
      · subst hb
        simp [Hall.post, Hall.issue, hbaggage]
      · simp [Hall.post, Hall.issue, hb]
    omega

/-- Every step of a liaison keeps the accounts. -/
theorem Booked.liaison (h : s.Booked) (hlocked : s.Locked) (hstaged : s.Staged)
    (hinformed : s.Informed) (hl : l < cfg.simNumOfLiaisons) (hmove : LiaisonMove s l s') :
    s'.Booked := by
  have hbags : ∀ (x : Liaison), x.airlineBaggageCount = (s.liaison l).airlineBaggageCount →
      ∀ k, (Function.update s.liaison l x k).airlineBaggageCount =
        (s.liaison k).airlineBaggageCount := by
    intro x hx k
    by_cases hk : k = l
    · subst hk
      rw [Function.update_self]
      exact hx
    · rw [Function.update_of_ne hk]
  cases hmove with
  | issue a hat hseat => exact h.issue hlocked hstaged hinformed hl hat hseat
  | count hat =>
      have hliaison : ((s.count l).post l .counted).liaison = Function.update s.liaison l
          { (s.count l).liaison l with point := .counted } := Function.update_idem ..
      refine h.same (ticket_post hstaged hliaison rfl rfl (Or.inl ?_)) (fun _ _ => Iff.rfl) rfl rfl
        rfl ?_
      · simp [seat, hat]
      · rw [hliaison]
        exact hbags _ (by simp [Hall.count])
  | close hat =>
      exact h.same (ticket_post hstaged rfl rfl rfl (Or.inr hat)) (fun _ _ => Iff.rfl) rfl rfl rfl
        (hbags _ rfl)
  | rest dayOver hat =>
      refine h.same (ticket_post hstaged rfl rfl rfl (Or.inl ?_)) (fun _ _ => Iff.rfl) rfl rfl rfl
        (hbags _ rfl)
      cases dayOver
      all_goals simp [seat, hat]
  | assign hat | pause hat | finish hat =>
      refine h.same (ticket_post hstaged rfl rfl rfl (Or.inl ?_)) (fun _ _ => Iff.rfl) rfl rfl rfl
        (hbags _ rfl)
      simp only [Hall.seat, hat, LiaisonPoint.hasSeat]
      rfl
  | begin hat | call hat | pass hat | openDesk hat | ready hat | await hat | attend hat | seat hat
  | redraw a hat | lock hat =>
      exact h.same (ticket_post hstaged rfl rfl rfl (Or.inl (by simp [Hall.seat, hat])))
        (fun _ _ => Iff.rfl) rfl rfl rfl (hbags _ rfl)

end Accounts

section Sound

/-- What holds of the hall in every run. -/
structure Sound (s : Hall cfg) : Prop where
  locked : s.Locked
  lined : s.Lined
  staged : s.Staged
  informed : s.Informed
  booked : s.Booked

theorem sound_start (cfg : Settings) : (start cfg).Sound where
  locked := locked_start cfg
  lined := lined_start cfg
  staged := staged_start cfg
  informed := informed_start cfg
  booked := booked_start cfg

theorem Sound.passenger (h : s.Sound) (hmove : PassengerMove s p s') : s'.Sound where
  locked := h.locked.passenger hmove
  lined := h.lined.passenger hmove
  staged := h.staged.passenger h.locked hmove
  informed := h.informed.passenger h.staged hmove
  booked := h.booked.passenger h.locked h.staged h.informed hmove

theorem Sound.liaison (h : s.Sound) (hl : l < cfg.simNumOfLiaisons) (hmove : LiaisonMove s l s') :
    s'.Sound where
  locked := h.locked.liaison hmove
  lined := h.lined.liaison hmove
  staged := h.staged.liaison h.locked h.lined hmove
  informed := h.informed.liaison hmove
  booked := h.booked.liaison h.locked h.staged h.informed hl hmove

end Sound

end Hall
end Airport
end Nachos
