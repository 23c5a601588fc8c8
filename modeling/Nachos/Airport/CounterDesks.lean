import Nachos.Airport.CounterMoves

/-!
# The desks of the check-in officers

Each check-in officer is the clerk of a desk.  The officer of an economy passenger is the one
of its line; that of an executive passenger is the one whose number is in the `CPInfo` of the
executive line when the passenger is called.  `execLineNeedsHelp` keeps other officers from
changing that number before the passenger has read it.
-/

namespace Nachos
namespace Airport

open Lib

namespace Counters

variable {cfg : Settings} {s s' : Counters cfg} {p : cfg.Passenger} {a k : Nat}

section Lines

/-- Whoever is in the queue of a line stands there, once. -/
def Lined (s : Counters cfg) : Prop :=
  ∀ j, (s.checkInCV j).Nodup ∧ ∀ p ∈ s.checkInCV j, s.passenger p = .inLine j

theorem lined_start (cfg : Settings) : (start cfg).Lined :=
  fun _ => ⟨List.nodup_nil, by simp [start]⟩

/-- A passenger that is in no queue goes on. -/
theorem Lined.go (h : s.Lined) {q : CheckInVisit}
    (hpassenger : s'.passenger = Function.update s.passenger p q)
    (hline : s'.checkInCV = s.checkInCV) (hnot : ∀ j, p ∉ s.checkInCV j) : s'.Lined := by
  intro j
  rw [hline, hpassenger]
  refine ⟨(h j).1, fun u hu => ?_⟩
  have hne : u ≠ p := by
    rintro rfl
    exact hnot j hu
  rw [Function.update_of_ne hne]
  exact (h j).2 u hu

theorem Lined.not_mem (h : s.Lined) (hp : ∀ j, s.passenger p ≠ .inLine j) (j : Nat) :
    p ∉ s.checkInCV j := fun hmem => hp j ((h j).2 p hmem)

/-- Every step of a passenger keeps the lines. -/
theorem Lined.passenger (h : s.Lined) (hmove : PassengerMove s a p s') : s'.Lined := by
  cases hmove with
  | queue k hat =>
      have hnot := h.not_mem (p := p) (by simp [hat])
      intro j
      by_cases hj : j = k
      · subst hj
        simp only [Counters.queue, Counters.go, Function.update_self]
        refine ⟨?_, fun u hu => ?_⟩
        · rw [List.nodup_append]
          refine ⟨(h _).1, by simp, fun u hu v hv => ?_⟩
          rw [List.mem_singleton.mp hv]
          rintro rfl
          exact hnot _ hu
        · by_cases hu' : u = p
          · rw [hu', Function.update_self]
          · rw [Function.update_of_ne hu']
            exact (h _).2 u (by simpa [hu'] using hu)
      · simp only [Counters.queue, Counters.go, Function.update_of_ne hj]
        refine ⟨(h j).1, fun u hu => ?_⟩
        have hne : u ≠ p := by
          rintro rfl
          exact hnot j hu
        rw [Function.update_of_ne hne]
        exact (h j).2 u hu
  | rise k hat hnot hfree =>
      refine h.go rfl rfl fun j hj => ?_
      have hsame := (h j).2 p hj
      rw [hat] at hsame
      injection hsame with hkj
      exact hnot (hkj ▸ hj)
  | arrive hat | join q line rung hat | ring k i q rung hat | read k hat | enter k hat | step k hat
  | hand k junk bag hat | rest k hat | wake k hat | leave k hat | exit k hat =>
      exact h.go rfl rfl (h.not_mem (by simp [hat]))

/-- The first passenger of a line is called. -/
theorem Lined.pop (h : s.Lined) {i : Nat} (hpassenger : s'.passenger = s.passenger)
    (hline : s'.checkInCV = Function.update s.checkInCV i (s.checkInCV i).tail) : s'.Lined := by
  intro j
  rw [hpassenger, hline]
  by_cases hj : j = i
  · subst hj
    rw [Function.update_self]
    exact ⟨(h j).1.tail, fun u hu => (h j).2 u (List.mem_of_mem_tail hu)⟩
  · rw [Function.update_of_ne hj]
    exact h j

/-- Every step of an officer keeps the lines. -/
theorem Lined.officer (h : s.Lined) (hmove : OfficerMove s k s') : s'.Lined := by
  cases hmove with
  | callExec x hat hhelp hx | callEconomy x hat hx => exact h.pop rfl rfl
  | _ => exact h

end Lines

section Routes

/-- Line `j` is one for passenger `p` of airline `a`. -/
def Fits (a : Nat) (p : cfg.Passenger) (j : Nat) : Prop :=
  (cfg.economy p = true → 0 < cfg.simNumOfCIOs → cfg.airlineOf j = a ∧ j < cfg.counters) ∧
    (cfg.economy p = false → j = cfg.execLine a)

/-- Passenger `p` of airline `a` has been called from line `j`. -/
def Summoned (s : Counters cfg) (a : Nat) (p : cfg.Passenger) (j : Nat) : Prop :=
  0 < cfg.simNumOfCIOs ∧ (cfg.economy p = false → s.execLineNeedsHelp a = false ∧
    cfg.airlineOf (s.cpInfo j).line = a ∧ (s.cpInfo j).line < cfg.counters)

/-- Passenger `p` of airline `a` is in a line, or at an officer, of its airline. -/
def RouteOf (s : Counters cfg) (a : Nat) (p : cfg.Passenger) : Prop :=
  match s.passenger p with
  | .ringing j _ | .queueing j => Fits a p j
  | .inLine j => Fits a p j ∧ (p ∉ s.checkInCV j → s.Summoned a p j)
  | .called j => Fits a p j ∧ s.Summoned a p j
  | .told k | .entering k | .entered k | .handed k | .waiting k | .served k =>
      cfg.airlineOf k = a ∧ k < cfg.counters
  | _ => True

/-- All passengers are at officers of their airlines, and an officer that helps out is the one
of the executive line. -/
structure Routed (airline : cfg.Passenger → Nat) (s : Counters cfg) : Prop where
  passengers : ∀ p, s.RouteOf (airline p) p
  helpers : ∀ k, (s.officer k).point.helping = true →
    s.execLineNeedsHelp (cfg.airlineOf k) = false ∧
      (s.cpInfo (cfg.execLine (cfg.airlineOf k))).line = k

variable {airline : cfg.Passenger → Nat}

theorem routed_start (cfg : Settings) (airline : cfg.Passenger → Nat) :
    (start cfg).Routed airline where
  passengers := fun p => by simp [RouteOf, start]
  helpers := fun k hk => by simp [start] at hk

/-- Only the airlines of passengers that have come matter. -/
theorem Routed.congr {airline' : cfg.Passenger → Nat} (h : s.Routed airline)
    (hsame : ∀ p, s.passenger p ≠ .arriving → airline' p = airline p) : s.Routed airline' where
  passengers := by
    intro p
    by_cases hp : s.passenger p = .arriving
    · simp [RouteOf, hp]
    · rw [hsame p hp]
      exact h.passengers p
  helpers := h.helpers

/-- The shortest line of an airline is one of its lines. -/
theorem foldl_mem_range {f : Nat → Nat} {n m : Nat} :
    ∀ (l : List Nat) (j : Nat), (∀ i ∈ l, n ≤ i ∧ i < n + m) → n ≤ j ∧ j < n + m →
      n ≤ l.foldl (fun best i => if f i < f best then i else best) j ∧
        l.foldl (fun best i => if f i < f best then i else best) j < n + m := by
  intro l
  induction l with
  | nil =>
      intro j _ hj
      exact hj
  | cons i l ih =>
      intro j hl hj
      rw [List.foldl_cons]
      refine ih _ (fun i' hi' => hl i' (List.mem_cons_of_mem _ hi')) ?_
      split
      · exact hl i (List.mem_cons_self ..)
      · exact hj

theorem lineFor_fits (s : Counters cfg) (p : cfg.Passenger) (ha : a < cfg.simNumOfAirlines) :
    Fits a p (s.lineFor a p) := by
  refine ⟨fun heconomy hC => ?_, fun hexec => by simp [lineFor, hexec]⟩
  have hrange := foldl_mem_range (f := s.checkInLine) (n := a * cfg.simNumOfCIOs)
    (List.range' (a * cfg.simNumOfCIOs) cfg.simNumOfCIOs) (a * cfg.simNumOfCIOs)
    (fun i hi => by simpa using hi) ⟨Nat.le_refl _, by omega⟩
  simp only [lineFor, heconomy, if_true]
  generalize (List.range' (a * cfg.simNumOfCIOs) cfg.simNumOfCIOs).foldl _ _ = j at hrange ⊢
  refine ⟨?_, ?_⟩
  · unfold Settings.airlineOf
    rw [Nat.div_eq_iff hC]
    omega
  · have hle : (a + 1) * cfg.simNumOfCIOs ≤ cfg.simNumOfAirlines * cfg.simNumOfCIOs :=
      Nat.mul_le_mul_right _ ha
    rw [Nat.add_mul, Nat.one_mul] at hle
    unfold Settings.counters
    omega

/-- The route of somebody whom a step does not concern. -/
theorem routeOf_congr {u : cfg.Passenger} (hpassenger : s'.passenger u = s.passenger u)
    (hqueue : ∀ j, u ∈ s'.checkInCV j ↔ u ∈ s.checkInCV j)
    (hhelp : s'.execLineNeedsHelp = s.execLineNeedsHelp)
    (hline : ∀ j, (s'.cpInfo j).line = (s.cpInfo j).line) :
    s'.RouteOf a u ↔ s.RouteOf a u := by
  unfold RouteOf Summoned
  rw [hpassenger]
  simp only [hqueue, hhelp, hline]

/-- A passenger goes on. -/
theorem Routed.go (h : s.Routed airline) {q : CheckInVisit}
    (hpassenger : s'.passenger = Function.update s.passenger p q)
    (hqueue : ∀ u j, u ≠ p → (u ∈ s'.checkInCV j ↔ u ∈ s.checkInCV j))
    (hofficer : s'.officer = s.officer) (hhelp : s'.execLineNeedsHelp = s.execLineNeedsHelp)
    (hline : ∀ j, (s'.cpInfo j).line = (s.cpInfo j).line) (hp : s'.RouteOf (airline p) p) :
    s'.Routed airline where
  passengers := by
    intro u
    by_cases hu : u = p
    · rw [hu]
      exact hp
    · refine (routeOf_congr ?_ (fun j => hqueue u j hu) hhelp hline).mpr (h.passengers u)
      rw [hpassenger, Function.update_of_ne hu]
  helpers := by
    intro k hk
    rw [hofficer] at hk
    rw [hhelp, hline]
    exact h.helpers k hk

/-- Every step of a passenger keeps it with its airline. -/
theorem Routed.passenger (h : s.Routed airline) (ha : airline p < cfg.simNumOfAirlines)
    (hmove : PassengerMove s (airline p) p s') : s'.Routed airline := by
  have hroute := h.passengers p
  cases hmove with
  | arrive hat hfree =>
      exact h.go rfl (fun _ _ _ => Iff.rfl) rfl rfl (fun _ => rfl) (by simp [RouteOf, Counters.go])
  | join q line rung hat hq =>
      refine h.go rfl (fun _ _ _ => Iff.rfl) rfl rfl (fun _ => rfl) ?_
      have hfits := lineFor_fits s p ha
      rcases hq with rfl | rfl
      all_goals simpa [RouteOf, Counters.go] using hfits
  | ring k i q rung hat hq =>
      refine h.go rfl (fun _ _ _ => Iff.rfl) rfl rfl (fun _ => rfl) ?_
      simp only [RouteOf, hat] at hroute
      rcases hq with rfl | rfl
      all_goals simpa [RouteOf, Counters.go] using hroute
  | queue k hat =>
      simp only [RouteOf, hat] at hroute
      refine h.go rfl (fun u j hu => ?_) rfl rfl (fun _ => rfl) ?_
      · by_cases hj : j = k
        · subst hj
          simp [Counters.queue, Counters.go, hu]
        · simp [Counters.queue, Counters.go, hj]
      · simp [RouteOf, Counters.queue, Counters.go, hroute]
  | rise k hat hnot hfree =>
      simp only [RouteOf, hat] at hroute
      refine h.go rfl (fun _ _ _ => Iff.rfl) rfl rfl (fun _ => rfl) ?_
      simp only [RouteOf, Counters.go, Function.update_self]
      exact ⟨hroute.1, hroute.2 hnot⟩
  | read k hat =>
      simp only [RouteOf, hat] at hroute
      obtain ⟨hfits, hC, hexec⟩ := hroute
      refine h.go rfl (fun _ _ _ => Iff.rfl) rfl rfl (fun _ => rfl) ?_
      simp only [RouteOf, Counters.go, Function.update_self]
      cases heconomy : cfg.economy p with
      | true => simpa using hfits.1 heconomy hC
      | false => simpa using (hexec heconomy).2
  | enter k hat hfree | step k hat | rest k hat | wake k hat hnot hfree =>
      simp only [RouteOf, hat] at hroute
      refine h.go rfl (fun _ _ _ => Iff.rfl) rfl rfl (fun _ => rfl) ?_
      simpa [RouteOf, Counters.go] using hroute
  | hand k junk bag hat hbag =>
      simp only [RouteOf, hat] at hroute
      refine h.go rfl (fun _ _ _ => Iff.rfl) rfl rfl (fun j => ?_) ?_
      · by_cases hj : j = k
        · subst hj
          simp [Counters.go, signal, handOver]
        · simp [Counters.go, signal, handOver, hj]
      · simpa [RouteOf, Counters.go] using hroute
  | leave k hat | exit k hat =>
      exact h.go rfl (fun _ _ _ => Iff.rfl) rfl rfl (fun _ => rfl) (by simp [RouteOf, Counters.go])

end Routes

section Desks

/-- The officer that passenger `p` has been called to from line `j`. -/
def deskOf (s : Counters cfg) (p : cfg.Passenger) (j : Nat) : Nat :=
  if cfg.economy p then j else (s.cpInfo j).line

@[simp]
theorem go_passenger (q : CheckInVisit) :
    (s.go p q).passenger = Function.update s.passenger p q := rfl

@[simp]
theorem go_checkInCV (q : CheckInVisit) : (s.go p q).checkInCV = s.checkInCV := rfl

@[simp]
theorem go_deskOf (q : CheckInVisit) : (s.go p q).deskOf = s.deskOf := rfl

@[simp]
theorem takeLine_checkInCV (t : CheckInThread cfg) : (s.takeLine t).checkInCV = s.checkInCV := rfl

@[simp]
theorem takeLine_deskOf (t : CheckInThread cfg) : (s.takeLine t).deskOf = s.deskOf := rfl

/-- The guests of officer `k`. -/
def guest (s : Counters cfg) (k : Nat) (p : cfg.Passenger) : Guest :=
  match s.passenger p with
  | .inLine j => if p ∉ s.checkInCV j ∧ s.deskOf p j = k then .called else .outside
  | .called j => if s.deskOf p j = k then .coming else .outside
  | .told j | .entering j | .entered j => if j = k then .coming else .outside
  | .handed j => if j = k then .greeted else .outside
  | .waiting j => if j = k then .waiting else .outside
  | .served j => if j = k then .directed else .outside
  | _ => .outside

/-- The desk of officer `k`. -/
def desk (s : Counters cfg) (k : Nat) : Desk cfg.Passenger :=
  ⟨(s.officer k).point.clerk, s.guest k, s.checkInOfficerCV k⟩

/-- All desks are at a stage of their rounds. -/
def Staged (s : Counters cfg) : Prop := ∀ k, (s.desk k).Stage False

theorem staged_start (cfg : Settings) : (start cfg).Staged := fun k =>
  .alone (Or.inl rfl) (fun p => by simp [desk, guest, start]) rfl

/-- Somebody whom a step does not concern is the same guest. -/
theorem guest_congr {u : cfg.Passenger} (hpassenger : s'.passenger u = s.passenger u)
    (hqueue : ∀ j, u ∈ s'.checkInCV j ↔ u ∈ s.checkInCV j)
    (hline : ∀ j, (s'.cpInfo j).line = (s.cpInfo j).line) : s'.guest k u = s.guest k u := by
  unfold guest deskOf
  rw [hpassenger]
  simp only [hqueue, hline]

/-- The guests when a passenger goes on. -/
theorem guest_go {q : CheckInVisit} (hpassenger : s'.passenger = Function.update s.passenger p q)
    (hqueue : ∀ u j, u ≠ p → (u ∈ s'.checkInCV j ↔ u ∈ s.checkInCV j))
    (hline : ∀ j, (s'.cpInfo j).line = (s.cpInfo j).line) :
    s'.guest k = Function.update (s.guest k) p (s'.guest k p) := by
  funext u
  by_cases hu : u = p
  · subst hu
    rw [Function.update_self]
  · rw [Function.update_of_ne hu]
    refine guest_congr ?_ (fun j => hqueue u j hu) hline
    rw [hpassenger, Function.update_of_ne hu]

/-- A passenger makes a move at the desk of officer `k`. -/
theorem Staged.at_desk (h : s.Staged) (k : Nat) {q : CheckInVisit}
    {queue : List (Option cfg.Passenger)}
    (hpassenger : s'.passenger = Function.update s.passenger p q)
    (hqueue : ∀ u j, u ≠ p → (u ∈ s'.checkInCV j ↔ u ∈ s.checkInCV j))
    (hline : ∀ j, (s'.cpInfo j).line = (s.cpInfo j).line) (hofficer : s'.officer = s.officer)
    (hcv : s'.checkInOfficerCV = Function.update s.checkInOfficerCV k queue)
    (hother : ∀ j, j ≠ k → s'.guest j p = s.guest j p)
    (hstage : Desk.Stage False
      ⟨(s.desk k).clerk, Function.update (s.desk k).guest p (s'.guest k p), queue⟩) :
    s'.Staged := by
  intro j
  have hguest := guest_go (k := j) hpassenger hqueue hline
  by_cases hj : j = k
  · subst hj
    have hdesk : s'.desk j =
        ⟨(s.desk j).clerk, Function.update (s.desk j).guest p (s'.guest j p), queue⟩ := by
      simp only [desk, hofficer, hcv, Function.update_self]
      rw [← hguest]
    rw [hdesk]
    exact hstage
  · have hdesk : s'.desk j = s.desk j := by
      rw [hother j hj, Function.update_eq_self] at hguest
      simp only [desk, hofficer, hcv, Function.update_of_ne hj, hguest]
    rw [hdesk]
    exact h j

/-- A passenger goes on apart from all desks. -/
theorem Staged.aside (h : s.Staged) {q : CheckInVisit}
    (hpassenger : s'.passenger = Function.update s.passenger p q)
    (hqueue : ∀ u j, u ≠ p → (u ∈ s'.checkInCV j ↔ u ∈ s.checkInCV j))
    (hline : ∀ j, (s'.cpInfo j).line = (s.cpInfo j).line) (hofficer : s'.officer = s.officer)
    (hcv : s'.checkInOfficerCV = s.checkInOfficerCV)
    (hsame : ∀ j, s'.guest j p = s.guest j p) : s'.Staged := by
  intro j
  have hguest := guest_go (k := j) hpassenger hqueue hline
  rw [hsame j, Function.update_eq_self] at hguest
  have hdesk : s'.desk j = s.desk j := by simp only [desk, hofficer, hcv, hguest]
  rw [hdesk]
  exact h j

/-- A passenger with the lock of an officer shuts it out. -/
theorem Locked.officer_without (h : s.Locked) (hat : (s.passenger p).holdsLock k = true) :
    (s.officer k).point.holdsLock = false := by
  by_contra hheld
  rw [Bool.not_eq_false] at hheld
  have hpassenger : s.owners (some k) = some (.passenger p) := h (some k) (.passenger p) hat
  have hofficer : s.owners (some k) = some (.officer k) := h (some k) (.officer k) ⟨rfl, hheld⟩
  rw [hpassenger] at hofficer
  exact absurd hofficer (by simp)

/-- Nobody at a desk has the lock while the officer has it. -/
theorem Locked.guest_without (h : s.Locked) (hat : (s.officer k).point.holdsLock = true)
    (p : cfg.Passenger) : (s.passenger p).holdsLock k = false := by
  by_contra hheld
  rw [Bool.not_eq_false] at hheld
  rw [h.officer_without hheld] at hat
  exact absurd hat (by simp)

/-- Nobody notices that it has been called while an officer has `CheckInLock`. -/
theorem Locked.not_calling (h : s.Locked) (hfree : s.Free none (.passenger p)) :
    (s.desk k).clerk ≠ .calling := by
  intro hclerk
  have hat : (s.officer k).point.holdsLine = true := by
    simp only [desk] at hclerk
    generalize (s.officer k).point = q at hclerk
    cases q
    all_goals simp at hclerk ⊢
  have howner : s.owners none = some (.officer k) := h none (.officer k) hat
  rcases hfree with hfree | hfree
  all_goals simp [howner] at hfree

/-- Every step of a passenger is a move at one desk. -/
theorem Staged.passenger (h : s.Staged) (hlocked : s.Locked) (hmove : PassengerMove s a p s') :
    s'.Staged := by
  cases hmove with
  | arrive hat hfree =>
      exact h.aside rfl (fun _ _ _ => Iff.rfl) (fun _ => rfl) rfl rfl
        fun k => by simp [guest, hat]
  | join q line rung hat hq | ring k i q rung hat hq =>
      refine h.aside rfl (fun _ _ _ => Iff.rfl) (fun _ => rfl) rfl rfl fun k => ?_
      rcases hq with rfl | rfl
      all_goals simp [guest, hat]
  | queue k hat =>
      refine h.aside rfl (fun u j hu => ?_) (fun _ => rfl) rfl rfl fun j => ?_
      · by_cases hj : j = k
        · subst hj
          simp [Counters.queue, hu]
        · simp [Counters.queue, hj]
      · simp [guest, hat, Counters.queue]
  | rise k hat hnot hfree =>
      refine h.at_desk (s.deskOf p k) rfl (fun _ _ _ => Iff.rfl) (fun _ => rfl) rfl
        (Function.update_eq_self ..).symm (fun j hj => ?_) ?_
      · simp [guest, hat, Ne.symm hj]
      · have hnew : ((s.takeLine (.passenger p)).go p (.called k)).guest (s.deskOf p k) p =
            .coming := by simp [guest]
        rw [hnew]
        exact (h _).rise (by simp [desk, guest, hat, hnot]) (hlocked.not_calling hfree)
  | read k hat =>
      refine h.aside rfl (fun _ _ _ => Iff.rfl) (fun _ => rfl) rfl rfl fun j => ?_
      simp only [guest, hat, go_passenger, Function.update_self]
      rfl
  | enter k hat hfree | step k hat =>
      exact h.aside rfl (fun _ _ _ => Iff.rfl) (fun _ => rfl) rfl rfl
        fun j => by simp [guest, hat]
  | hand k junk bag hat hbag =>
      refine h.at_desk k rfl (fun _ _ _ => Iff.rfl) (fun j => ?_) rfl rfl (fun j hj => ?_) ?_
      · by_cases hj : j = k
        · subst hj
          simp [Counters.go, signal, handOver]
        · simp [Counters.go, signal, handOver, hj]
      · simp [guest, hat, Ne.symm hj]
      · have hnew : (((s.handOver p k bag).signal k).go p (.handed k)).guest k p = .greeted := by
          simp [guest]
        rw [hnew]
        refine ((h k).greet (by simp [desk, guest, hat]) fun hclerk => ?_).2
        have hshut := hlocked.officer_without (p := p) (k := k) (by simp [hat])
        simp only [desk] at hclerk
        generalize (s.officer k).point = q at hclerk hshut
        cases q
        all_goals simp at hclerk hshut
  | rest k hat =>
      refine h.at_desk k rfl (fun _ _ _ => Iff.rfl) (fun _ => rfl) rfl rfl (fun j hj => ?_) ?_
      · simp [guest, hat, Ne.symm hj]
      · have hnew : ((s.wait k (some p)).go p (.waiting k)).guest k p = .waiting := by simp [guest]
        rw [hnew]
        exact (h k).rest (by simp [desk, guest, hat])
  | wake k hat hnot hfree =>
      refine h.at_desk k rfl (fun _ _ _ => Iff.rfl) (fun _ => rfl) rfl
        (Function.update_eq_self ..).symm (fun j hj => ?_) ?_
      · simp [guest, hat, Ne.symm hj]
      · have hnew : ((s.takeLock k (.passenger p)).go p (.served k)).guest k p = .directed := by
          simp [guest]
        rw [hnew]
        exact (h k).wake (by simp [desk, guest, hat]) hnot
  | leave k hat =>
      refine h.at_desk k rfl (fun _ _ _ => Iff.rfl) (fun _ => rfl) rfl rfl (fun j hj => ?_) ?_
      · simp [guest, hat, Ne.symm hj]
      · have hnew : (((s.leaveLine k).signal k).go p (.leaving k)).guest k p = .outside := by
          simp [guest]
        rw [hnew]
        refine (h k).leave (by simp [desk, guest, hat]) fun hclerk => ?_
        have hshut := hlocked.officer_without (p := p) (k := k) (by simp [hat])
        simp only [desk] at hclerk
        generalize (s.officer k).point = q at hclerk hshut
        cases q
        all_goals simp at hclerk hshut
  | exit k hat =>
      exact h.aside rfl (fun _ _ _ => Iff.rfl) (fun _ => rfl) rfl rfl
        fun j => by simp [guest, hat]

/-- An officer makes a move at its desk. -/
theorem Staged.by_officer (h : s.Staged) {x : CheckInOfficer}
    {queue : List (Option cfg.Passenger)}
    (hofficer : s'.officer = Function.update s.officer k x)
    (hpassenger : s'.passenger = s.passenger) (hqueue : s'.checkInCV = s.checkInCV)
    (hline : ∀ j, (s'.cpInfo j).line = (s.cpInfo j).line)
    (hcv : s'.checkInOfficerCV = Function.update s.checkInOfficerCV k queue)
    (hstage : Desk.Stage False ⟨x.point.clerk, (s.desk k).guest, queue⟩) : s'.Staged := by
  intro j
  have hguest : s'.guest j = s.guest j := by
    funext u
    refine guest_congr (congrFun hpassenger u) (fun i => ?_) hline
    rw [hqueue]
  by_cases hj : j = k
  · subst hj
    have hdesk : s'.desk j = ⟨x.point.clerk, (s.desk j).guest, queue⟩ := by
      simp only [desk, hguest, hofficer, hcv, Function.update_self]
    rw [hdesk]
    exact hstage
  · have hdesk : s'.desk j = s.desk j := by
      simp only [desk, hguest, hofficer, hcv, Function.update_of_ne hj]
    rw [hdesk]
    exact h j

/-- An officer goes on, and its desk does not change. -/
theorem Staged.idly (h : s.Staged) {x : CheckInOfficer}
    (hofficer : s'.officer = Function.update s.officer k x)
    (hpassenger : s'.passenger = s.passenger) (hqueue : s'.checkInCV = s.checkInCV)
    (hline : ∀ j, (s'.cpInfo j).line = (s.cpInfo j).line)
    (hcv : s'.checkInOfficerCV = s.checkInOfficerCV)
    (hclerk : x.point.clerk = (s.officer k).point.clerk) : s'.Staged := by
  refine h.by_officer hofficer hpassenger hqueue hline
    (hcv.trans (Function.update_eq_self ..).symm) ?_
  rw [hclerk]
  exact h k

/-- An officer calls the first passenger of line `i`, if there is one.  That passenger comes to
the officer, and the officers of the others do not change. -/
theorem Staged.call (h : s.Staged) (hlined : s.Lined) {x : CheckInOfficer} {i : Nat}
    (haway : (s.officer k).point.clerk = .away) (hx : x.point.clerk = .calling)
    (hofficer : s'.officer = Function.update s.officer k x)
    (hpassenger : s'.passenger = s.passenger)
    (hqueue : s'.checkInCV = Function.update s.checkInCV i (s.checkInCV i).tail)
    (hcv : s'.checkInOfficerCV = s.checkInOfficerCV)
    (hself : ∀ u, s.passenger u = .inLine i → s'.deskOf u i = k)
    (hother : ∀ u j, (s.passenger u = .inLine j ∧ u ∉ s.checkInCV j) ∨ s.passenger u = .called j →
      s'.deskOf u j = s.deskOf u j) : s'.Staged := by
  -- the others are the guests they were
  have hguest : ∀ u, u ∉ s.checkInCV i ∨ u ∈ (s.checkInCV i).tail →
      ∀ j, s'.guest j u = s.guest j u := by
    intro u hu j
    cases hat : s.passenger u
    case inLine m =>
      have hmem : u ∈ s'.checkInCV m ↔ u ∈ s.checkInCV m := by
        rw [hqueue]
        by_cases hm : m = i
        · subst hm
          rw [Function.update_self]
          exact ⟨List.mem_of_mem_tail, fun hmem => hu.resolve_left (fun hnot => hnot hmem)⟩
        · rw [Function.update_of_ne hm]
      by_cases hin : u ∈ s.checkInCV m
      · simp [guest, hpassenger, hat, hmem, hin]
      · simp [guest, hpassenger, hat, hmem, hin, hother u m (Or.inl ⟨hat, hin⟩)]
    case called m => simp [guest, hpassenger, hat, hother u m (Or.inr hat)]
    all_goals simp [guest, hpassenger, hat]
  cases hline : s.checkInCV i with
  | nil =>
      intro j
      have hall : s'.guest j = s.guest j := funext fun u => hguest u (Or.inl (by simp [hline])) j
      by_cases hj : j = k
      · subst hj
        have hdesk : s'.desk j = ⟨.calling, (s.desk j).guest, (s.desk j).queue⟩ := by
          simp only [desk, hall, hofficer, hcv, Function.update_self, hx]
        rw [hdesk]
        exact (h j).call haway
      · have hdesk : s'.desk j = s.desk j := by
          simp only [desk, hall, hofficer, hcv, Function.update_of_ne hj]
        rw [hdesk]
        exact h j
  | cons u rest =>
      have hu : s.passenger u = .inLine i := (hlined i).2 u (by simp [hline])
      have hrest : u ∉ rest := by
        have hnodup := (hlined i).1
        rw [hline] at hnodup
        exact (List.nodup_cons.mp hnodup).1
      have hnew : ∀ j, s'.guest j u = if j = k then .called else .outside := by
        intro j
        have hout : u ∉ s'.checkInCV i := by
          rw [hqueue, Function.update_self, hline]
          exact hrest
        by_cases hj : j = k
        · simp [guest, hpassenger, hu, hout, hself u hu, hj]
        · simp [guest, hpassenger, hu, hout, hself u hu, hj, Ne.symm hj]
      have hold : ∀ j, s.guest j u = .outside := fun j => by simp [guest, hu, hline]
      have hothers : ∀ v, v ≠ u → ∀ j, s'.guest j v = s.guest j v := by
        intro v hv j
        refine hguest v ?_ j
        by_cases hin : v ∈ rest
        · exact Or.inr (by simp [hline, hin])
        · exact Or.inl (by simp [hline, hin, hv])
      intro j
      by_cases hj : j = k
      · subst hj
        have hdesk : s'.desk j =
            ⟨.calling, Function.update (s.desk j).guest u .called, (s.desk j).queue⟩ := by
          simp only [desk, hofficer, hcv, Function.update_self, hx, Desk.mk.injEq, true_and,
            and_true]
          funext v
          by_cases hv : v = u
          · subst hv
            simp [hnew]
          · rw [Function.update_of_ne hv]
            exact hothers v hv j
        rw [hdesk]
        exact (h j).call_guest haway u
      · have hdesk : s'.desk j = s.desk j := by
          simp only [desk, hofficer, hcv, Function.update_of_ne hj, Desk.mk.injEq, true_and,
            and_true]
          funext v
          by_cases hv : v = u
          · subst hv
            rw [hnew, hold, if_neg hj]
          · exact hothers v hv j
        rw [hdesk]
        exact h j

variable {airline : cfg.Passenger → Nat}

theorem pos_of_lt_counters (hk : k < cfg.counters) : 0 < cfg.simNumOfCIOs := by
  apply Nat.pos_of_ne_zero
  intro hC
  simp [Settings.counters, hC] at hk

/-- Economy passengers stand in the lines of officers. -/
theorem Routed.economy_of_lt (h : s.Routed airline) {j : Nat} (hj : j < cfg.counters)
    (hat : s.passenger p = .inLine j) : cfg.economy p = true := by
  by_contra heconomy
  have hroute := h.passengers p
  simp only [RouteOf, hat] at hroute
  have hexec := hroute.1.2 (by simpa using heconomy)
  unfold Settings.execLine at hexec
  omega

/-- Executive passengers stand in the executive lines, those of their airlines. -/
theorem Routed.exec_of_line (h : s.Routed airline) (hC : 0 < cfg.simNumOfCIOs)
    (hat : s.passenger p = .inLine (cfg.execLine a)) :
    cfg.economy p = false ∧ airline p = a := by
  have hroute := h.passengers p
  simp only [RouteOf, hat] at hroute
  have hexec : cfg.economy p = false := by
    by_contra heconomy
    have hlt := (hroute.1.1 (by simpa using heconomy) hC).2
    unfold Settings.execLine at hlt
    omega
  have hline := hroute.1.2 hexec
  unfold Settings.execLine at hline
  exact ⟨hexec, by omega⟩

/-- While the executive line of an airline needs help, nobody is on the way from it. -/
theorem Routed.not_summoned (h : s.Routed airline) (hhelp : s.execLineNeedsHelp a = true)
    (hexec : cfg.economy p = false)
    (hat : (s.passenger p = .inLine (cfg.execLine a) ∧ p ∉ s.checkInCV (cfg.execLine a)) ∨
      s.passenger p = .called (cfg.execLine a)) : False := by
  have hroute := h.passengers p
  have hsummoned : Fits (airline p) p (cfg.execLine a) ∧
      s.Summoned (airline p) p (cfg.execLine a) := by
    rcases hat with ⟨hat, hnot⟩ | hat
    · simp only [RouteOf, hat] at hroute
      exact ⟨hroute.1, hroute.2 hnot⟩
    · simp only [RouteOf, hat] at hroute
      exact hroute
  have hline := hsummoned.1.2 hexec
  have ha : airline p = a := by
    unfold Settings.execLine at hline
    omega
  have hno := (hsummoned.2.2 hexec).1
  rw [ha, hhelp] at hno
  exact absurd hno (by simp)

/-- Every step of an officer is a move at its desk. -/
theorem Staged.officer (h : s.Staged) (hlocked : s.Locked) (hlined : s.Lined)
    (hrouted : s.Routed airline) (hk : k < cfg.counters) (hmove : OfficerMove s k s') :
    s'.Staged := by
  have hC := pos_of_lt_counters hk
  cases hmove with
  | callExec x hat hhelp hx =>
      refine h.call hlined (i := cfg.execLine (cfg.airlineOf k)) (by simp [hat]) (by simp [hx]) rfl
        rfl rfl rfl (fun u hu => ?_) fun u j hu => ?_
      · have hexec := (hrouted.exec_of_line hC hu).1
        simp [deskOf, hexec, staff, Counters.callExec]
      · cases heconomy : cfg.economy u with
        | true => simp [deskOf, heconomy]
        | false =>
            have hj : j ≠ cfg.execLine (cfg.airlineOf k) := by
              rintro rfl
              exact hrouted.not_summoned hhelp heconomy hu
            simp [deskOf, heconomy, staff, Counters.callExec, hj]
  | callEconomy x hat hx =>
      refine h.call hlined (i := k) (by simp [hat]) (by simp [hx]) rfl rfl rfl rfl
        (fun u hu => ?_) fun _ _ _ => rfl
      simp [deskOf, hrouted.economy_of_lt hk hu]
  | begin x hat hfree hx | takeBreak x hat hx | wake x hat hfree hx | back x hat hx
  | ready x helped hat hx | mark x i hat hcount hi hx | drop x i b hat hb hx
  | record x i b hat hb hx =>
      exact h.idly rfl rfl rfl (fun _ => rfl) rfl (by simp [hat, hx])
  | count x helped n line hat hx =>
      refine h.idly rfl rfl rfl (fun _ => rfl) rfl ?_
      cases helped
      all_goals simp [hat, hx]
  | take x helped hat hx =>
      refine h.idly (Function.update_idem ..) rfl rfl (fun j => ?_) rfl (by simp [hat, hx])
      by_cases hj : j = k
      · subst hj
        simp [staff, takeBags]
      · simp [staff, takeBags, hj]
  | openDesk x helped hat hfree hx =>
      refine h.by_officer rfl rfl rfl (fun _ => rfl) (Function.update_eq_self ..).symm ?_
      rw [hx]
      exact (h k).open (by simp [desk, hat])
  | await x helped hat hx =>
      refine h.by_officer rfl rfl rfl (fun _ => rfl) rfl ?_
      rw [hx]
      exact (h k).await (by simp [desk, hat])
  | attend x helped hat hnot hfree hx =>
      refine h.by_officer rfl rfl rfl (fun _ => rfl) (Function.update_eq_self ..).symm ?_
      rw [hx]
      exact (h k).attend (by simp [desk, hat]) hnot
  | inform x i hat hcount hx =>
      refine h.by_officer rfl rfl rfl (fun j => ?_) rfl ?_
      · by_cases hj : j = k
        · subst hj
          simp [staff, signal, tellGate]
        · simp [staff, signal, tellGate, hj]
      · rw [hx]
        refine (h k).dismiss (by simp [desk, hat]) fun u hu => ?_
        have hshut := hlocked.guest_without (k := k) (by simp [hat]) u
        simp only [desk, guest] at hu
        cases hpoint : s.passenger u
        all_goals simp [hpoint, ite_eq_iff] at hu hshut
        exact hshut hu
  | pause x hat hx =>
      refine h.by_officer rfl rfl rfl (fun _ => rfl) rfl ?_
      rw [hx]
      exact (h k).pause (by simp [desk, hat])
  | finish x hat hnot hfree hx =>
      refine h.by_officer rfl rfl rfl (fun _ => rfl) (Function.update_eq_self ..).symm ?_
      rw [hx]
      exact (h k).finish (by simp [desk, hat]) hnot
  | close x hat hx =>
      refine h.by_officer rfl rfl rfl (fun _ => rfl) (Function.update_eq_self ..).symm ?_
      rw [hx]
      exact (h k).shut (by simp [desk, hat])

/-- An officer goes on and leaves the lines alone. -/
theorem Routed.staff (h : s.Routed airline) {x : CheckInOfficer}
    (hofficer : s'.officer = Function.update s.officer k x)
    (hpassenger : s'.passenger = s.passenger) (hqueue : s'.checkInCV = s.checkInCV)
    (hhelp : s'.execLineNeedsHelp = s.execLineNeedsHelp)
    (hline : ∀ j, (s'.cpInfo j).line = (s.cpInfo j).line)
    (hx : x.point.helping = true → (s.officer k).point.helping = true) : s'.Routed airline where
  passengers := by
    intro u
    refine (routeOf_congr (congrFun hpassenger u) (fun j => ?_) hhelp hline).mpr (h.passengers u)
    rw [hqueue]
  helpers := by
    intro i hi
    rw [hhelp, hline]
    apply h.helpers i
    by_cases hik : i = k
    · subst hik
      rw [hofficer, Function.update_self] at hi
      exact hx hi
    · rw [hofficer, Function.update_of_ne hik] at hi
      exact hi

/-- The route of somebody whom the officers may call. -/
theorem RouteOf.mono {u : cfg.Passenger} (h : s.RouteOf a u)
    (hpassenger : s'.passenger = s.passenger)
    (hline : ∀ j, s.passenger u = .inLine j → Fits a u j →
      (u ∉ s.checkInCV j → s.Summoned a u j) → u ∉ s'.checkInCV j → s'.Summoned a u j)
    (hcalled : ∀ j, s.passenger u = .called j → Fits a u j → s.Summoned a u j →
      s'.Summoned a u j) : s'.RouteOf a u := by
  unfold RouteOf at h ⊢
  rw [hpassenger]
  cases hat : s.passenger u
  all_goals
    simp only [hat] at h ⊢
    try exact h
  case inLine j => exact ⟨h.1, hline j hat h.1 h.2⟩
  case called j => exact ⟨h.1, hcalled j hat h.1 h.2⟩

/-- An officer calls from its own line. -/
theorem Routed.callEconomy (h : s.Routed airline) (hk : k < cfg.counters) {x : CheckInOfficer}
    (hx : x.point.helping = false) : ((s.callEconomy k).staff k x).Routed airline where
  passengers := by
    intro u
    refine (h.passengers u).mono rfl (fun j hat _ hsummoned hnot => ?_)
      fun _ _ _ hsummoned => hsummoned
    by_cases hj : j = k
    · subst hj
      have heconomy := h.economy_of_lt hk hat
      exact ⟨pos_of_lt_counters hk, fun hexec => by simp [heconomy] at hexec⟩
    · apply hsummoned
      simpa [Counters.staff, Counters.callEconomy, hj] using hnot
  helpers := by
    intro i hi
    apply h.helpers i
    by_cases hik : i = k
    · subst hik
      simp only [Counters.staff, Function.update_self] at hi
      exact absurd (hx.symm.trans hi) (by simp)
    · simpa only [Counters.staff, Counters.callEconomy, Function.update_of_ne hik] using hi

/-- An officer calls from the executive line of its airline. -/
theorem Routed.callExec (h : s.Routed airline) (hk : k < cfg.counters) {x : CheckInOfficer}
    (hhelp : s.execLineNeedsHelp (cfg.airlineOf k) = true) :
    ((s.callExec k (cfg.airlineOf k) (cfg.execLine (cfg.airlineOf k))).staff k x).Routed
      airline := by
  have hC := pos_of_lt_counters hk
  -- whoever has been called from another line stays so
  have hkeep : ∀ u j, cfg.economy u = true ∨ j ≠ cfg.execLine (cfg.airlineOf k) →
      s.Summoned (airline u) u j →
      ((s.callExec k (cfg.airlineOf k) (cfg.execLine (cfg.airlineOf k))).staff k x).Summoned
        (airline u) u j := by
    intro u j hj hsummoned
    refine ⟨hsummoned.1, fun hexec => ?_⟩
    have hne := hj.resolve_left (by simp [hexec])
    obtain ⟨hno, hline⟩ := hsummoned.2 hexec
    refine ⟨?_, by simpa [Counters.staff, Counters.callExec, hne] using hline⟩
    by_cases ha : airline u = cfg.airlineOf k
    · simp [Counters.staff, Counters.callExec, ha]
    · simpa [Counters.staff, Counters.callExec, ha] using hno
  refine ⟨fun u => (h.passengers u).mono rfl (fun j hat _ hsummoned hnot => ?_)
    fun j hat _ hsummoned => ?_, fun i hi => ?_⟩
  · by_cases hj : j = cfg.execLine (cfg.airlineOf k)
    · subst hj
      obtain ⟨-, ha⟩ := h.exec_of_line hC hat
      refine ⟨hC, fun _ => ?_⟩
      rw [ha]
      simp [Counters.staff, Counters.callExec, hk]
    · refine hkeep u j (Or.inr hj) (hsummoned ?_)
      simpa [Counters.staff, Counters.callExec, hj] using hnot
  · refine hkeep u j ?_ hsummoned
    cases heconomy : cfg.economy u with
    | true => exact Or.inl rfl
    | false =>
        refine Or.inr fun hj => ?_
        subst hj
        exact h.not_summoned hhelp heconomy (Or.inr hat)
  · by_cases hik : i = k
    · subst hik
      simp [Counters.staff, Counters.callExec]
    · have hold : (s.officer i).point.helping = true := by
        simpa only [Counters.staff, Counters.callExec, Function.update_of_ne hik] using hi
      obtain ⟨hno, hline⟩ := h.helpers i hold
      have ha : cfg.airlineOf i ≠ cfg.airlineOf k := by
        intro ha
        rw [ha, hhelp] at hno
        exact absurd hno (by simp)
      have hx : cfg.execLine (cfg.airlineOf i) ≠ cfg.execLine (cfg.airlineOf k) := by
        unfold Settings.execLine
        omega
      simp [Counters.staff, Counters.callExec, ha, hx, hno, hline]

/-- An officer that has the bags of its guest lets others help out again. -/
theorem Routed.take (h : s.Routed airline) (hstaged : s.Staged) {x : CheckInOfficer} {helped : Bool}
    (hat : (s.officer k).point = .informed helped) (hx : x.point.helping = false) :
    ((s.takeBags k helped).staff k x).Routed airline := by
  have hline : ∀ j, (((s.takeBags k helped).staff k x).cpInfo j).line = (s.cpInfo j).line := by
    intro j
    by_cases hj : j = k
    · subst hj
      simp [Counters.staff, takeBags]
    · simp [Counters.staff, takeBags, hj]
  have hofficer : ((s.takeBags k helped).staff k x).officer = Function.update s.officer k x :=
    Function.update_idem ..
  cases helped with
  | false =>
      refine h.staff hofficer rfl rfl rfl hline fun habs => ?_
      rw [hx] at habs
      exact absurd habs (by simp)
  | true =>
      obtain ⟨-, hself⟩ := h.helpers k (by simp [hat])
      -- nobody is on the way from the executive line, for it would be a guest of this officer
      have hnobody : ∀ u j, (s.passenger u = .inLine j ∧ u ∉ s.checkInCV j) ∨
          s.passenger u = .called j → cfg.economy u = false → Fits (airline u) u j →
          airline u ≠ cfg.airlineOf k := by
        intro u j hu hexec hfits ha
        have hj := hfits.2 hexec
        rw [ha] at hj
        have hdesk : s.deskOf u j = k := by
          rw [hj]
          simp [deskOf, hexec, hself]
        obtain ⟨q, honly, hq⟩ := (hstaged k).of_serving (Or.inr (by simp [desk, hat]))
        have hguest : (s.desk k).guest u = .called ∨ (s.desk k).guest u = .coming := by
          rcases hu with ⟨hu, hnot⟩ | hu
          · exact Or.inl (by simp [desk, guest, hu, hnot, hdesk])
          · exact Or.inr (by simp [desk, guest, hu, hdesk])
        have huq : u = q := honly u (by rcases hguest with hg | hg <;> simp [hg])
        subst huq
        rcases hguest with hg | hg
        all_goals simp [hg] at hq
      have hkeep : ∀ u j, airline u ≠ cfg.airlineOf k ∨ cfg.economy u = true →
          s.Summoned (airline u) u j →
          ((s.takeBags k true).staff k x).Summoned (airline u) u j := by
        intro u j hu hsummoned
        refine ⟨hsummoned.1, fun hexec => ?_⟩
        have ha := hu.resolve_right (by simp [hexec])
        rw [hline]
        simpa [Counters.staff, takeBags, ha] using hsummoned.2 hexec
      refine ⟨fun u => (h.passengers u).mono rfl (fun j hu hfits hsummoned hnot => ?_)
        fun j hu hfits hsummoned => ?_, fun i hi => ?_⟩
      · refine hkeep u j ?_ (hsummoned hnot)
        cases heconomy : cfg.economy u with
        | true => exact Or.inr rfl
        | false => exact Or.inl (hnobody u j (Or.inl ⟨hu, hnot⟩) heconomy hfits)
      · refine hkeep u j ?_ hsummoned
        cases heconomy : cfg.economy u with
        | true => exact Or.inr rfl
        | false => exact Or.inl (hnobody u j (Or.inr hu) heconomy hfits)
      · rw [hofficer] at hi
        have hik : i ≠ k := by
          rintro rfl
          rw [Function.update_self, hx] at hi
          exact absurd hi (by simp)
        rw [Function.update_of_ne hik] at hi
        obtain ⟨hno, hnumber⟩ := h.helpers i hi
        have ha : cfg.airlineOf i ≠ cfg.airlineOf k := by
          intro ha
          rw [ha, hself] at hnumber
          exact hik hnumber.symm
        rw [hline]
        exact ⟨by simpa [Counters.staff, takeBags, ha] using hno, hnumber⟩

/-- Every step of an officer keeps the passengers with their airlines. -/
theorem Routed.officer (h : s.Routed airline) (hstaged : s.Staged) (hk : k < cfg.counters)
    (hmove : OfficerMove s k s') : s'.Routed airline := by
  cases hmove with
  | callExec x hat hhelp hx => exact h.callExec hk hhelp
  | callEconomy x hat hx => exact h.callEconomy hk (by simp [hx])
  | take x helped hat hx => exact h.take hstaged hat (by simp [hx])
  | inform x i hat hcount hx =>
      refine h.staff rfl rfl rfl rfl (fun j => ?_) fun habs => by simp [hx] at habs
      by_cases hj : j = k
      · subst hj
        simp [Counters.staff, signal, tellGate]
      · simp [Counters.staff, signal, tellGate, hj]
  | count x helped n line hat hx =>
      refine h.staff rfl rfl rfl rfl (fun _ => rfl) fun habs => ?_
      cases helped
      all_goals simp_all
  | begin x hat hfree hx | takeBreak x hat hx | wake x hat hfree hx | back x hat hx
  | openDesk x helped hat hfree hx | ready x helped hat hx | await x helped hat hx
  | attend x helped hat hnot hfree hx | mark x i hat hcount hi hx | drop x i b hat hb hx
  | record x i b hat hb hx | pause x hat hx | finish x hat hnot hfree hx | close x hat hx =>
      exact h.staff rfl rfl rfl rfl (fun _ => rfl) fun habs => by simp_all

end Desks

end Counters
end Airport
end Nachos
