import Nachos.Airport.CounterDesks
import Nachos.Lib.Tallies

/-!
# Bags at the check-in counters

A bag that a passenger has handed over is in the `CPInfo` of its officer, in the officer's hands,
or on the conveyor.  What the bags of an airline are worth is measured by any function of their
weights: `fun _ => 1` counts them, and `id` weighs them.
-/

namespace Nachos
namespace Airport

open Lib

namespace CheckInVisit

/-- The passenger has handed its bags over. -/
@[simp]
def hasHanded : CheckInVisit → Bool
  | handed _ | waiting _ | served _ | leaving _ | left => true
  | _ => false

end CheckInVisit

namespace CounterPoint

/-- The officer has not yet taken the bags of its guest. -/
@[simp]
def awaits : CounterPoint → Bool
  | expecting _ | informed _ => true
  | _ => false

end CounterPoint

namespace CheckInOfficer

/-- The bags that an officer has taken and not put on the conveyor. -/
@[simp]
def inHand (x : CheckInOfficer) : List Baggage :=
  match x.point with
  | .loading i | .dropping i => x.bags.drop i
  | .dropped i => x.bags.drop (i + 1)
  | _ => []

/-- The bags that an officer has taken and not put into `totalBags`. -/
@[simp]
def unrecorded (x : CheckInOfficer) : List Baggage :=
  match x.point with
  | .loading i | .dropping i | .dropped i => x.bags.drop i
  | _ => []

end CheckInOfficer

/-- What bags are worth. -/
def worth (w : Nat → Nat) (bags : List Baggage) : Nat := (bags.map fun b => w b.weight).sum

/-- What the bags of an airline among some are worth. -/
def worthOf (w : Nat → Nat) (a : Nat) (bags : List Baggage) : Nat :=
  worth w (bags.filter fun b => b.airlineCode = a)

section Worth

variable {w : Nat → Nat} {a : Nat} {bags rest : List Baggage} {b : Baggage}

@[simp]
theorem worth_nil : worth w [] = 0 := rfl

@[simp]
theorem worth_append : worth w (bags ++ rest) = worth w bags + worth w rest := by
  simp [worth]

@[simp]
theorem worth_singleton : worth w [b] = w b.weight := by simp [worth]

@[simp]
theorem worthOf_nil : worthOf w a [] = 0 := rfl

theorem worthOf_append : worthOf w a (bags ++ rest) = worthOf w a bags + worthOf w a rest := by
  simp [worthOf]

theorem worthOf_singleton :
    worthOf w a [b] = if b.airlineCode = a then w b.weight else 0 := by
  by_cases hb : b.airlineCode = a
  · simp [worthOf, hb]
  · simp [worthOf, hb]

theorem worthOf_cons :
    worthOf w a (b :: bags) = (if b.airlineCode = a then w b.weight else 0) + worthOf w a bags := by
  rw [← List.singleton_append, worthOf_append, worthOf_singleton]

/-- A bag is taken from the front. -/
theorem worth_drop {i : Nat} (hb : bags[i]? = some b) :
    worth w (bags.drop i) = w b.weight + worth w (bags.drop (i + 1)) := by
  obtain ⟨hi, rfl⟩ := List.getElem?_eq_some_iff.mp hb
  rw [List.drop_eq_getElem_cons hi]
  simp only [worth, List.map_cons, List.sum_cons]

/-- Marks do not change what bags are worth. -/
theorem worth_modify_drop {i j code : Nat} :
    worth w ((bags.modify j fun b => { b with airlineCode := code }).drop i) =
      worth w (bags.drop i) := by
  unfold worth
  rw [List.map_drop, List.map_drop]
  congr 2
  apply List.ext_getElem?
  intro m
  simp only [List.getElem?_map, List.getElem?_modify]
  by_cases hm : j = m
  · simp [hm, Function.comp_def]
  · simp [hm]

end Worth

namespace Counters

variable {cfg : Settings} {s s' : Counters cfg} {p : cfg.Passenger} {a k : Nat}

section Slots

theorem pushBags_append : ∀ (weights : List Nat) (bag : List Baggage),
    pushBags weights bag.length bag = bag ++ weights.map fun w => (⟨0, w⟩ : Baggage) := by
  intro weights
  induction weights with
  | nil =>
      intro bag
      simp [pushBags]
  | cons w weights ih =>
      intro bag
      have hbag : (bag ++ [(⟨0, 0⟩ : Baggage)]).modify bag.length (fun b => { b with weight := w }) =
          bag ++ [⟨0, w⟩] := by
        rw [List.modify_eq_take_cons_drop (by simp)]
        simp
      have hlength : bag.length + 1 = (bag ++ [(⟨0, w⟩ : Baggage)]).length := by simp
      rw [pushBags, hbag, hlength, ih]
      simp

theorem pushBags_nil (weights : List Nat) :
    pushBags weights 0 [] = weights.map fun w => (⟨0, w⟩ : Baggage) :=
  pushBags_append weights []

/-- What is in `CPInfo` belongs to the passenger at the desk. -/
structure Bagged (s : Counters cfg) : Prop where
  empty : ∀ k, (s.cpInfo k).bag ≠ [] → (s.officer k).point.awaits = true ∧
    ∃ p, s.passenger p = .handed k ∨ s.passenger p = .waiting k
  full : ∀ k p, (s.passenger p = .handed k ∨ s.passenger p = .waiting k) →
    (s.officer k).point.awaits = true → (s.cpInfo k).bag.length = (s.cpInfo k).baggageCount
  taken : ∀ k i, ((s.officer k).point = .loading i ∨ (s.officer k).point = .dropping i ∨
    (s.officer k).point = .dropped i) → (s.officer k).bags.length = (s.cpInfo k).baggageCount
  marked : ∀ k i b, ((s.officer k).point = .dropping i ∨ (s.officer k).point = .dropped i) →
    (s.officer k).bags[i]? = some b → b.airlineCode = cfg.airlineOf k

theorem bagged_start (cfg : Settings) : (start cfg).Bagged where
  empty := fun k hk => by simp [start] at hk
  full := fun k p hp => by simp [start] at hp
  taken := fun k i hk => by simp [start] at hk
  marked := fun k i b hk => by simp [start] at hk

/-- A passenger goes on and leaves `CPInfo` alone. -/
theorem Bagged.go (h : s.Bagged) {q : CheckInVisit}
    (hpassenger : s'.passenger = Function.update s.passenger p q)
    (hofficer : s'.officer = s.officer) (hinfo : s'.cpInfo = s.cpInfo)
    (hnew : ∀ k, (q = .handed k ∨ q = .waiting k) →
      s.passenger p = .handed k ∨ s.passenger p = .waiting k)
    (hold : ∀ k, (s.passenger p = .handed k ∨ s.passenger p = .waiting k) →
      (q = .handed k ∨ q = .waiting k) ∨ (s.officer k).point.awaits = false) : s'.Bagged where
  empty := by
    intro k hbag
    rw [hinfo] at hbag
    obtain ⟨hawaits, u, hu⟩ := h.empty k hbag
    refine ⟨by rw [hofficer]; exact hawaits, u, ?_⟩
    rw [hpassenger]
    by_cases hne : u = p
    · subst hne
      rw [Function.update_self]
      rcases hold k hu with hq | hq
      · exact hq
      · rw [hq] at hawaits
        exact absurd hawaits (by simp)
    · rw [Function.update_of_ne hne]
      exact hu
  full := by
    intro k u hu hawaits
    rw [hofficer] at hawaits
    rw [hinfo]
    refine h.full k u ?_ hawaits
    rw [hpassenger] at hu
    by_cases hne : u = p
    · subst hne
      rw [Function.update_self] at hu
      exact hnew k hu
    · rw [Function.update_of_ne hne] at hu
      exact hu
  taken := by
    rw [hofficer, hinfo]
    exact h.taken
  marked := by
    rw [hofficer]
    exact h.marked

/-- The slot that a passenger comes to is empty. -/
theorem Bagged.slot_empty (h : s.Bagged) (hstaged : s.Staged) (hat : s.passenger p = .entered k) :
    (s.cpInfo k).bag = [] := by
  by_contra hbag
  obtain ⟨-, u, hu⟩ := h.empty k hbag
  obtain ⟨-, honly⟩ := (hstaged k).of_coming (p := p) (by simp [desk, guest, hat])
  have hup : u = p := by
    apply honly u
    rcases hu with hu | hu
    all_goals simp [desk, guest, hu]
  subst hup
  simp [hat] at hu

/-- What a passenger puts into an empty slot. -/
theorem popBags_empty {junk : Int} {bag : List Baggage} (h : popBags 0 junk [] = some bag) :
    bag = [] := by
  unfold popBags at h
  split at h
  · exact absurd h (by simp)
  · exact (Option.some.inj h).symm

/-- A passenger hands its bags over. -/
theorem Bagged.hand (h : s.Bagged) (hstaged : s.Staged) (hlocked : s.Locked)
    (hat : s.passenger p = .entered k) :
    (((s.handOver p k []).signal k).go p (.handed k)).Bagged := by
  have hshut := hlocked.officer_without (p := p) (k := k) (by simp [hat])
  obtain ⟨hclerk, honly⟩ := (hstaged k).of_coming (p := p) (by simp [desk, guest, hat])
  have hexpecting : ∃ helped, (s.officer k).point = .expecting helped := by
    simp only [desk] at hclerk
    generalize (s.officer k).point = q at hclerk hshut
    cases q
    all_goals simp at hclerk hshut ⊢
  obtain ⟨helped, hexpecting⟩ := hexpecting
  refine ⟨fun j hbag => ?_, fun j u hu hawaits => ?_, fun j i hj => ?_, h.marked⟩
  · by_cases hj : j = k
    · subst hj
      exact ⟨by simp [Counters.go, signal, handOver, hexpecting], p, by simp⟩
    · simp only [Counters.go, signal, handOver, Function.update_of_ne hj] at hbag ⊢
      obtain ⟨hawaits, u, hu⟩ := h.empty j hbag
      refine ⟨hawaits, u, ?_⟩
      have hne : u ≠ p := by
        rintro rfl
        simp [hat] at hu
      rw [Function.update_of_ne hne]
      exact hu
  · by_cases hj : j = k
    · subst hj
      simp [Counters.go, signal, handOver, pushBags_nil, Settings.baggageCount]
    · simp only [Counters.go, signal, handOver, Function.update_of_ne hj] at hawaits ⊢
      refine h.full j u ?_ hawaits
      by_cases hne : u = p
      · subst hne
        simp [Ne.symm hj] at hu
      · simpa [hne, signal, handOver] using hu
  · have hjk : j ≠ k := by
      rintro rfl
      simp [Counters.go, signal, handOver, hexpecting] at hj
    simp only [Counters.go, signal, handOver, Function.update_of_ne hjk]
    exact h.taken j i hj

/-- Every step of a passenger keeps `CPInfo` with its owner. -/
theorem Bagged.passenger (h : s.Bagged) (hstaged : s.Staged) (hlocked : s.Locked)
    (hmove : PassengerMove s a p s') : s'.Bagged := by
  cases hmove with
  | hand k junk bag hat hbag =>
      rw [h.slot_empty hstaged hat] at hbag
      obtain rfl := popBags_empty hbag
      exact h.hand hstaged hlocked hat
  | rest k hat =>
      refine h.go rfl rfl rfl (fun j hj => ?_) fun j hj => Or.inl ?_
      all_goals simp_all
  | wake k hat hnot hfree =>
      refine h.go rfl rfl rfl (fun j hj => by simp at hj) fun j hj => Or.inr ?_
      have hkj : k = j := by simpa [hat] using hj
      subst hkj
      obtain ⟨hclerk, -⟩ := (hstaged k).of_told (p := p)
        (Or.inl ⟨by simp [desk, guest, hat], hnot⟩)
      simp only [desk] at hclerk
      generalize (s.officer k).point = q at hclerk
      cases q
      all_goals simp at hclerk ⊢
  | join q line rung hat hq | ring k i q rung hat hq =>
      refine h.go rfl rfl rfl (fun j hj => ?_) fun j hj => by simp [hat] at hj
      rcases hq with rfl | rfl
      all_goals simp at hj
  | arrive hat | queue k hat | rise k hat | read k hat | enter k hat | step k hat | leave k hat
  | exit k hat =>
      exact h.go rfl rfl rfl (fun j hj => by simp at hj) fun j hj => by simp [hat] at hj

/-- An officer goes on and leaves `CPInfo` alone. -/
theorem Bagged.staff (h : s.Bagged) {x : CheckInOfficer}
    (hofficer : s'.officer = Function.update s.officer k x)
    (hpassenger : s'.passenger = s.passenger) (hinfo : ∀ j, (s'.cpInfo j).bag = (s.cpInfo j).bag ∧
      (s'.cpInfo j).baggageCount = (s.cpInfo j).baggageCount)
    (hkeep : (s.officer k).point.awaits = true → x.point.awaits = true)
    (hback : ∀ p, (s.passenger p = .handed k ∨ s.passenger p = .waiting k) →
      x.point.awaits = true → (s.officer k).point.awaits = true)
    (htaken : ∀ i, (x.point = .loading i ∨ x.point = .dropping i ∨ x.point = .dropped i) →
      x.bags.length = (s.cpInfo k).baggageCount)
    (hmarked : ∀ i b, (x.point = .dropping i ∨ x.point = .dropped i) → x.bags[i]? = some b →
      b.airlineCode = cfg.airlineOf k) : s'.Bagged where
  empty := by
    intro j hbag
    rw [(hinfo j).1] at hbag
    obtain ⟨hawaits, hp⟩ := h.empty j hbag
    rw [hpassenger, hofficer]
    refine ⟨?_, hp⟩
    by_cases hj : j = k
    · subst hj
      rw [Function.update_self]
      exact hkeep hawaits
    · rw [Function.update_of_ne hj]
      exact hawaits
  full := by
    intro j p hp hawaits
    rw [(hinfo j).1, (hinfo j).2]
    rw [hpassenger] at hp
    rw [hofficer] at hawaits
    apply h.full j p hp
    by_cases hj : j = k
    · subst hj
      rw [Function.update_self] at hawaits
      exact hback p hp hawaits
    · rw [Function.update_of_ne hj] at hawaits
      exact hawaits
  taken := by
    intro j i hi
    rw [hofficer] at hi ⊢
    rw [(hinfo j).2]
    by_cases hj : j = k
    · subst hj
      rw [Function.update_self] at hi ⊢
      exact htaken i hi
    · rw [Function.update_of_ne hj] at hi ⊢
      exact h.taken j i hi
  marked := by
    intro j i b hi hb
    rw [hofficer] at hi hb
    by_cases hj : j = k
    · subst hj
      rw [Function.update_self] at hi hb
      exact hmarked i b hi hb
    · rw [Function.update_of_ne hj] at hi hb
      exact h.marked j i b hi hb

/-- The guest of an officer that has been woken. -/
theorem Staged.exists_guest (h : s.Staged) (hlocked : s.Locked)
    (hclerk : (s.officer k).point.clerk = .serving) (hheld : (s.officer k).point.holdsLock = true) :
    ∃ p, s.passenger p = .waiting k := by
  obtain ⟨p, -, hp⟩ := (h k).of_serving (Or.inr hclerk)
  refine ⟨p, ?_⟩
  have hshut := hlocked.guest_without hheld p
  simp only [desk, guest] at hp
  cases hat : s.passenger p
  all_goals simp [hat, ite_eq_iff] at hp hshut ⊢
  · exact absurd hp.1 hshut
  · exact hp.1

/-- An officer takes the bags. -/
theorem Bagged.take (h : s.Bagged) (hstaged : s.Staged) (hlocked : s.Locked) {helped : Bool}
    {x : CheckInOfficer} (hat : (s.officer k).point = .informed helped)
    (hx : x = { s.officer k with bags := (s.cpInfo k).bag, point := .loading 0 }) :
    ((s.takeBags k helped).staff k x).Bagged := by
  obtain ⟨p, hp⟩ := hstaged.exists_guest (k := k) hlocked (by simp [hat]) (by simp [hat])
  have hfull := h.full k p (Or.inr hp) (by simp [hat])
  refine ⟨fun j hbag => ?_, fun j u hu hawaits => ?_, fun j i hi => ?_, fun j i b hi hb => ?_⟩
  · by_cases hj : j = k
    · subst hj
      simp [Counters.staff, takeBags] at hbag
    · simp only [Counters.staff, takeBags, Function.update_of_ne hj] at hbag ⊢
      exact h.empty j hbag
  · by_cases hj : j = k
    · subst hj
      simp [Counters.staff, hx] at hawaits
    · simp only [Counters.staff, takeBags, Function.update_of_ne hj] at hawaits ⊢
      exact h.full j u hu hawaits
  · by_cases hj : j = k
    · subst hj
      simp [Counters.staff, takeBags, hx, hfull]
    · simp only [Counters.staff, takeBags, Function.update_of_ne hj] at hi ⊢
      exact h.taken j i hi
  · by_cases hj : j = k
    · subst hj
      simp [Counters.staff, hx] at hi
    · simp only [Counters.staff, takeBags, Function.update_of_ne hj] at hi hb
      exact h.marked j i b hi hb

/-- Every step of an officer keeps `CPInfo` with its owner. -/
theorem Bagged.officer (h : s.Bagged) (hstaged : s.Staged) (hlocked : s.Locked)
    (hmove : OfficerMove s k s') : s'.Bagged := by
  cases hmove with
  | take x helped hat hx => exact h.take hstaged hlocked hat hx
  | await x helped hat hx =>
      refine h.staff rfl rfl (fun _ => ⟨rfl, rfl⟩) (by simp [hx]) (fun p hp _ => ?_) (by simp [hx])
        (by simp [hx])
      -- nobody has handed anything over to an officer that has not waited
      obtain ⟨-, hstage⟩ := (hstaged k).of_guest (p := p)
        (by rcases hp with hp | hp <;> simp [desk, guest, hp])
      rcases hp with hp | hp
      all_goals simp [Desk.Expects, desk, guest, hat, hp] at hstage
  | attend x helped hat hnot hfree hx =>
      exact h.staff rfl rfl (fun _ => ⟨rfl, rfl⟩) (by simp [hx]) (by simp [hat]) (by simp [hx])
        (by simp [hx])
  | mark x i hat hcount hi hx =>
      refine h.staff rfl rfl (fun _ => ⟨rfl, rfl⟩) (by simp [hat]) (by simp [hx]) (fun j hj => ?_)
        fun j b hj hb => ?_
      · have htaken := h.taken k i (Or.inl hat)
        simpa [hx] using htaken
      · have hij : i = j := by simpa [hx] using hj
        subst hij
        simp only [hx, List.getElem?_modify, if_pos] at hb
        obtain ⟨c, -, rfl⟩ := Option.map_eq_some_iff.mp hb
        rfl
  | drop x i b hat hb hx =>
      refine h.staff rfl rfl (fun _ => ⟨rfl, rfl⟩) (by simp [hat]) (by simp [hx]) (fun j hj => ?_)
        fun j c hj hc => ?_
      · rw [hx]
        exact h.taken k i (Or.inr (Or.inl hat))
      · have hij : i = j := by simpa [hx] using hj
        subst hij
        rw [hx] at hc
        exact h.marked k i c (Or.inl hat) hc
  | record x i b hat hb hx =>
      refine h.staff rfl rfl (fun _ => ⟨rfl, rfl⟩) (by simp [hat]) (by simp [hx]) (fun j hj => ?_)
        (by simp [hx])
      rw [hx]
      exact h.taken k i (Or.inr (Or.inr hat))
  | inform x i hat hcount hx =>
      refine h.staff rfl rfl (fun j => ?_) (by simp [hat]) (by simp [hx]) (by simp [hx])
        (by simp [hx])
      by_cases hj : j = k
      · subst hj
        simp [Counters.staff, signal, tellGate]
      · simp [Counters.staff, signal, tellGate, hj]
  | callExec x hat hhelp hx =>
      refine h.staff rfl rfl (fun j => ?_) (by simp [hat]) (by simp [hx]) (by simp [hx])
        (by simp [hx])
      by_cases hj : j = cfg.execLine (cfg.airlineOf k)
      · subst hj
        simp [Counters.staff, Counters.callExec]
      · simp [Counters.staff, Counters.callExec, hj]
  | count x helped n line hat hx =>
      refine h.staff rfl rfl (fun _ => ⟨rfl, rfl⟩) ?_ (by simp [hx]) (by simp [hx]) (by simp [hx])
      cases helped
      all_goals simp [hat]
  | begin x hat hfree hx | callEconomy x hat hx | takeBreak x hat hx | wake x hat hfree hx
  | back x hat hx | openDesk x helped hat hfree hx | ready x helped hat hx | pause x hat hx
  | finish x hat hnot hfree hx | close x hat hx =>
      exact h.staff rfl rfl (fun _ => ⟨rfl, rfl⟩) (by simp [hat]) (by simp [hx]) (by simp [hx])
        (by simp [hx])

end Slots

section Accounts

variable {airline : cfg.Passenger → Nat} {w : Nat → Nat}

/-- What the bags are worth that passengers of airline `a` have handed over. -/
def entrusted (airline : cfg.Passenger → Nat) (s : Counters cfg) (w : Nat → Nat) (a : Nat) : Nat :=
  tally (fun p => ((cfg.bags p).map w).sum)
    (fun p => (s.passenger p).hasHanded = true ∧ airline p = a)

/-- What the bags are worth that are at the desk of officer `k` of airline `a`; `rest` says
which of the bags in its hands count. -/
def atDesk (rest : CheckInOfficer → List Baggage) (s : Counters cfg) (w : Nat → Nat) (a k : Nat) :
    Nat :=
  if cfg.airlineOf k = a then worth w ((s.cpInfo k).bag ++ rest (s.officer k)) else 0

/-- What the bags are worth that are at the desks of airline `a`. -/
def atDesks (rest : CheckInOfficer → List Baggage) (s : Counters cfg) (w : Nat → Nat) (a : Nat) :
    Nat :=
  ∑ k ∈ Finset.range cfg.counters, s.atDesk rest w a k

/-- What the bags of airline `a` are worth that the officers have recorded. -/
def recorded (s : Counters cfg) (w : Nat → Nat) (a : Nat) : Nat :=
  ∑ k ∈ Finset.range cfg.counters, worthOf w a (s.officer k).totalBags

/-- One desk changes. -/
theorem atDesks_change (rest : CheckInOfficer → List Baggage) (hk : k < cfg.counters)
    (hother : ∀ j, j ≠ k → (s'.cpInfo j).bag = (s.cpInfo j).bag ∧ s'.officer j = s.officer j) :
    s'.atDesks rest w a + s.atDesk rest w a k = s.atDesks rest w a + s'.atDesk rest w a k := by
  refine sum_change (Finset.mem_range.mpr hk) fun j hj => ?_
  unfold atDesk
  rw [(hother j hj).1, (hother j hj).2]

theorem entrusted_same (h : ∀ p, (s'.passenger p).hasHanded = (s.passenger p).hasHanded) :
    s'.entrusted airline w a = s.entrusted airline w a :=
  tally_congr _ fun p => by rw [h p]

/-- A passenger hands its bags over. -/
theorem entrusted_hand {bag : List Baggage} (hat : s.passenger p = .entered k) :
    (((s.handOver p k bag).signal k).go p (.handed k)).entrusted airline w a =
      s.entrusted airline w a + if airline p = a then ((cfg.bags p).map w).sum else 0 := by
  have hnot : ¬ ((s.passenger p).hasHanded = true ∧ airline p = a) := by simp [hat]
  by_cases ha : airline p = a
  · rw [if_pos ha]
    refine tally_enter _ hnot fun u => ?_
    by_cases hu : u = p
    · subst hu
      simp [ha]
    · simp [hu, signal, handOver]
  · rw [if_neg ha, Nat.add_zero]
    refine tally_congr _ fun u => ?_
    by_cases hu : u = p
    · subst hu
      simp [ha]
    · simp [hu, signal, handOver]

/-- What a passenger hands over comes to the desk of its officer. -/
theorem passenger_accounts (rest : CheckInOfficer → List Baggage) (hstaged : s.Staged)
    (hrouted : s.Routed airline) (hbagged : s.Bagged) (hmove : PassengerMove s (airline p) p s') :
    s'.entrusted airline w a + s.atDesks rest w a = s.entrusted airline w a + s'.atDesks rest w a ∧
      s'.conveyor = s.conveyor ∧ s'.recorded w a = s.recorded w a := by
  have hsame : ∀ (s' : Counters cfg) q, s'.passenger = Function.update s.passenger p q →
      q.hasHanded = (s.passenger p).hasHanded → s'.cpInfo = s.cpInfo → s'.officer = s.officer →
      s'.entrusted airline w a + s.atDesks rest w a =
        s.entrusted airline w a + s'.atDesks rest w a := by
    intro s' q hpassenger hq hinfo hofficer
    have hentrusted : s'.entrusted airline w a = s.entrusted airline w a := by
      refine entrusted_same fun u => ?_
      rw [hpassenger]
      by_cases hu : u = p
      · rw [hu, Function.update_self, hq]
      · rw [Function.update_of_ne hu]
    have hdesks : s'.atDesks rest w a = s.atDesks rest w a := by
      unfold atDesks atDesk
      rw [hinfo, hofficer]
    rw [hentrusted, hdesks]
  cases hmove with
  | hand k junk bag hat hbag =>
      refine ⟨?_, rfl, rfl⟩
      have hroute := hrouted.passengers p
      simp only [RouteOf, hat] at hroute
      obtain ⟨hairline, hk⟩ := hroute
      have hempty := hbagged.slot_empty hstaged hat
      rw [hempty] at hbag
      obtain rfl := popBags_empty hbag
      have hchange : (((s.handOver p k []).signal k).go p (.handed k)).atDesks rest w a +
          s.atDesk rest w a k = s.atDesks rest w a +
          (((s.handOver p k []).signal k).go p (.handed k)).atDesk rest w a k :=
        atDesks_change rest hk fun j hj => by simp [Counters.go, signal, handOver, hj]
      have hold : s.atDesk rest w a k =
          if airline p = a then worth w (rest (s.officer k)) else 0 := by
        simp [atDesk, hairline, hempty]
      have hnew : (((s.handOver p k []).signal k).go p (.handed k)).atDesk rest w a k =
          if airline p = a then ((cfg.bags p).map w).sum + worth w (rest (s.officer k)) else 0 := by
        simp [atDesk, hairline, Counters.go, signal, handOver, pushBags_nil, worth,
          Function.comp_def]
      rw [entrusted_hand hat]
      rw [hold, hnew] at hchange
      by_cases ha : airline p = a
      · simp only [if_pos ha] at hchange ⊢
        omega
      · simp only [if_neg ha] at hchange ⊢
        omega
  | join q line rung hat hq | ring k i q rung hat hq =>
      refine ⟨hsame _ _ rfl ?_ rfl rfl, rfl, rfl⟩
      rcases hq with rfl | rfl
      all_goals simp [hat]
  | arrive hat | queue k hat | rise k hat | read k hat | enter k hat | step k hat | rest k hat
  | wake k hat | leave k hat | exit k hat =>
      exact ⟨hsame _ _ rfl (by simp [hat]) rfl rfl, rfl, rfl⟩

/-- The number of an officer in `CPInfo` does not touch the bags. -/
theorem callExec_bag {x : CheckInOfficer} {l j : Nat} :
    (((s.callExec k a l).staff k x).cpInfo j).bag = (s.cpInfo j).bag := by
  by_cases hj : j = l
  · subst hj
    simp [Counters.staff, Counters.callExec]
  · simp [Counters.staff, Counters.callExec, hj]

/-- An officer changes its own desk only. -/
theorem officer_frame (hmove : OfficerMove s k s') :
    s'.passenger = s.passenger ∧
      ∀ j, j ≠ k → (s'.cpInfo j).bag = (s.cpInfo j).bag ∧ s'.officer j = s.officer j := by
  cases hmove with
  | callExec x hat hhelp hx =>
      exact ⟨rfl, fun j hj => ⟨callExec_bag, by simp [Counters.staff, Counters.callExec, hj]⟩⟩
  | take x helped hat hx =>
      exact ⟨rfl, fun j hj => by simp [Counters.staff, takeBags, hj]⟩
  | inform x i hat hcount hx =>
      exact ⟨rfl, fun j hj => by simp [Counters.staff, signal, tellGate, hj]⟩
  | _ => exact ⟨rfl, fun j hj => ⟨rfl, Function.update_of_ne hj _ _⟩⟩

/-- What an officer puts on the conveyor leaves its hands. -/
theorem officer_conveyor (hk : k < cfg.counters) (hbagged : s.Bagged)
    (hmove : OfficerMove s k s') :
    s'.atDesks CheckInOfficer.inHand w a + worthOf w a s'.conveyor =
      s.atDesks CheckInOfficer.inHand w a + worthOf w a s.conveyor := by
  have hchange := atDesks_change (w := w) (a := a) CheckInOfficer.inHand hk
    (officer_frame hmove).2
  suffices hdesk : s'.atDesk CheckInOfficer.inHand w a k + worthOf w a s'.conveyor =
      s.atDesk CheckInOfficer.inHand w a k + worthOf w a s.conveyor by omega
  cases hmove with
  | drop x i b hat hb hx =>
      have hcode := hbagged.marked k i b (Or.inl hat) hb
      have hworth := worth_drop (w := w) hb
      simp only [atDesk, Counters.staff, Counters.drop, Function.update_self, hx,
        CheckInOfficer.inHand, hat, worth_append, worthOf_append, worthOf_singleton, hcode]
      by_cases ha : cfg.airlineOf k = a
      · simp only [if_pos ha]
        omega
      · simp only [if_neg ha]
        omega
  | take x helped hat hx =>
      simp [atDesk, Counters.staff, takeBags, hx, hat]
  | mark x i hat hcount hi hx =>
      simp [atDesk, Counters.staff, hx, hat, worth_modify_drop]
  | record x i b hat hb hx => simp [atDesk, Counters.staff, hx, hat]
  | inform x i hat hcount hx =>
      have hdrop : (s.officer k).bags.drop i = [] := by
        rw [List.drop_eq_nil_iff, hbagged.taken k i (Or.inl hat)]
        exact hcount
      simp [atDesk, Counters.staff, signal, tellGate, hx, hat, hdrop]
  | count x helped n line hat hx =>
      cases helped
      all_goals simp [atDesk, Counters.staff, hx, hat]
  | callExec x hat hhelp hx =>
      rw [atDesk, callExec_bag]
      simp [atDesk, Counters.staff, Counters.callExec, hx, hat]
  | begin x hat hfree hx | callEconomy x hat hx | takeBreak x hat hx | wake x hat hfree hx
  | back x hat hx | openDesk x helped hat hfree hx | ready x helped hat hx
  | await x helped hat hx | attend x helped hat hnot hfree hx | pause x hat hx
  | finish x hat hnot hfree hx | close x hat hx =>
      simp [atDesk, Counters.staff, Counters.callEconomy, Counters.takeBreak, takeLine, takeLock,
        releaseLine, releaseLock, wait, hx, hat]

/-- What an officer puts into `totalBags` has been taken from a passenger. -/
theorem officer_recorded (hk : k < cfg.counters) (hbagged : s.Bagged)
    (hmove : OfficerMove s k s') :
    s'.atDesks CheckInOfficer.unrecorded w a + s'.recorded w a =
      s.atDesks CheckInOfficer.unrecorded w a + s.recorded w a := by
  have hchange := atDesks_change (w := w) (a := a) CheckInOfficer.unrecorded hk
    (officer_frame hmove).2
  have hrecorded : s'.recorded w a + worthOf w a (s.officer k).totalBags =
      s.recorded w a + worthOf w a (s'.officer k).totalBags := by
    refine sum_change (f := fun j => worthOf w a (s.officer j).totalBags)
      (g := fun j => worthOf w a (s'.officer j).totalBags) (Finset.mem_range.mpr hk) fun j hj => ?_
    rw [((officer_frame hmove).2 j hj).2]
  suffices hdesk : s'.atDesk CheckInOfficer.unrecorded w a k +
        worthOf w a (s'.officer k).totalBags =
      s.atDesk CheckInOfficer.unrecorded w a k + worthOf w a (s.officer k).totalBags by omega
  clear hchange hrecorded
  cases hmove with
  | record x i b hat hb hx =>
      have hcode := hbagged.marked k i b (Or.inr hat) hb
      have hworth := worth_drop (w := w) hb
      simp only [atDesk, Counters.staff, Function.update_self, hx, CheckInOfficer.unrecorded, hat,
        worth_append, worthOf_append, worthOf_singleton, hcode]
      by_cases ha : cfg.airlineOf k = a
      · simp only [if_pos ha]
        omega
      · simp only [if_neg ha]
        omega
  | take x helped hat hx =>
      simp [atDesk, Counters.staff, takeBags, hx, hat]
  | mark x i hat hcount hi hx =>
      simp [atDesk, Counters.staff, hx, hat, worth_modify_drop]
  | drop x i b hat hb hx => simp [atDesk, Counters.staff, Counters.drop, hx, hat]
  | inform x i hat hcount hx =>
      have hdrop : (s.officer k).bags.drop i = [] := by
        rw [List.drop_eq_nil_iff, hbagged.taken k i (Or.inl hat)]
        exact hcount
      simp [atDesk, Counters.staff, signal, tellGate, hx, hat, hdrop]
  | count x helped n line hat hx =>
      cases helped
      all_goals simp [atDesk, Counters.staff, hx, hat]
  | callExec x hat hhelp hx =>
      rw [atDesk, callExec_bag]
      simp [atDesk, Counters.staff, Counters.callExec, hx, hat]
  | begin x hat hfree hx | callEconomy x hat hx | takeBreak x hat hx | wake x hat hfree hx
  | back x hat hx | openDesk x helped hat hfree hx | ready x helped hat hx
  | await x helped hat hx | attend x helped hat hnot hfree hx | pause x hat hx
  | finish x hat hnot hfree hx | close x hat hx =>
      simp [atDesk, Counters.staff, Counters.callEconomy, Counters.takeBreak, takeLine, takeLock,
        releaseLine, releaseLock, wait, hx, hat]

end Accounts

section Soundness

variable {airline airline' : cfg.Passenger → Nat}

/-- What holds at the counters in every run, if passenger `p` flies with `airline p`. -/
structure Sound (airline : cfg.Passenger → Nat) (s : Counters cfg) : Prop where
  locked : s.Locked
  lined : s.Lined
  routed : s.Routed airline
  staged : s.Staged
  bagged : s.Bagged

theorem sound_start (cfg : Settings) (airline : cfg.Passenger → Nat) :
    (start cfg).Sound airline where
  locked := locked_start cfg
  lined := lined_start cfg
  routed := routed_start cfg airline
  staged := staged_start cfg
  bagged := bagged_start cfg

theorem Sound.congr (h : s.Sound airline)
    (hsame : ∀ p, s.passenger p ≠ .arriving → airline' p = airline p) : s.Sound airline' :=
  { h with routed := h.routed.congr hsame }

theorem Sound.passenger (h : s.Sound airline) (ha : airline p < cfg.simNumOfAirlines)
    (hmove : PassengerMove s (airline p) p s') : s'.Sound airline where
  locked := h.locked.passenger hmove
  lined := h.lined.passenger hmove
  routed := h.routed.passenger ha hmove
  staged := h.staged.passenger h.locked hmove
  bagged := h.bagged.passenger h.staged h.locked hmove

theorem Sound.officer (h : s.Sound airline) (hk : k < cfg.counters) (hmove : OfficerMove s k s') :
    s'.Sound airline where
  locked := h.locked.officer hmove
  lined := h.lined.officer hmove
  routed := h.routed.officer h.staged hk hmove
  staged := h.staged.officer h.locked h.lined h.routed hk hmove
  bagged := h.bagged.officer h.staged h.locked hmove

end Soundness

end Counters
end Airport
end Nachos
