import Nachos.Airport.Liaisons

/-!
# The desks of the liaisons

Each liaison is the clerk of a desk: it calls a passenger from its line, and the two talk by
means of `liaisonLineLocks` and `liaisonOfficerCV`.  Every step of the hall is a move at one desk
and leaves the others alone.
-/

namespace Nachos
namespace Airport
namespace Hall

open Lib

variable {cfg : Settings} {s s' : Hall cfg} {p : cfg.Passenger} {l : Nat}

attribute [simp] LiaisonVisit.holdsLine LiaisonVisit.holdsLock LiaisonVisit.hasAirline
  LiaisonPoint.holdsLine LiaisonPoint.holdsLock LiaisonPoint.clerk LiaisonPoint.hasSeat

section Moves

/-- Who owns `liaisonLineLock`, and who `liaisonLineLocks[l]`. -/
def owners (s : Hall cfg) : Option Nat → Option (LiaisonThread cfg)
  | none => s.liaisonLineLock
  | some l => s.liaisonLineLocks l

/-- A thread can have a lock. -/
def Free (s : Hall cfg) (j : Option Nat) (t : LiaisonThread cfg) : Prop :=
  s.owners j = none ∨ s.owners j = some t

/-- The hall with `liaisonLineLock` taken. -/
def takeLine (s : Hall cfg) (t : LiaisonThread cfg) : Hall cfg :=
  { s with liaisonLineLock := some t }

/-- The hall with `liaisonLineLocks[l]` taken. -/
def takeLock (s : Hall cfg) (l : Nat) (t : LiaisonThread cfg) : Hall cfg :=
  { s with liaisonLineLocks := Function.update s.liaisonLineLocks l (some t) }

theorem acquireLine_ok {t : LiaisonThread cfg} (h : s.acquireLine t = .ok s') :
    s.Free none t ∧ s' = s.takeLine t := by
  unfold acquireLine at h
  split at h
  · rename_i hfree
    exact ⟨hfree, (Except.ok.inj h).symm⟩
  · exact absurd h (by simp)

theorem acquireLock_ok {t : LiaisonThread cfg} (h : s.acquireLock l t = .ok s') :
    s.Free (some l) t ∧ s' = s.takeLock l t := by
  unfold acquireLock at h
  split at h
  · rename_i hfree
    exact ⟨hfree, (Except.ok.inj h).symm⟩
  · exact absurd h (by simp)

theorem acquireSeat_ok {t : LiaisonThread cfg} (h : s.acquireSeat t = .ok s') :
    s' = { s with seatLock := some t } := by
  unfold acquireSeat at h
  split at h
  · exact (Except.ok.inj h).symm
  · exact absurd h (by simp)

theorem resume_ok {w : Option cfg.Passenger} {t : LiaisonThread cfg}
    (h : s.resume l w t = .ok s') :
    w ∉ s.liaisonOfficerCV l ∧ s.Free (some l) t ∧ s' = s.takeLock l t := by
  unfold resume at h
  split at h
  · exact absurd h (by simp)
  · rename_i hnot
    exact ⟨hnot, acquireLock_ok h⟩

/-- What a step of a passenger does. -/
inductive PassengerMove (s : Hall cfg) (p : cfg.Passenger) : Hall cfg → Prop
  | arrive (hat : s.passenger p = .arriving) (hfree : s.Free none (.passenger p)) :
      PassengerMove s p ((s.takeLine (.passenger p)).go p .choosing)
  | join (hat : s.passenger p = .choosing) :
      PassengerMove s p ((s.join p s.shortestLine).go p (.inLine s.shortestLine))
  | rise (l : Nat) (hat : s.passenger p = .inLine l) (hnot : p ∉ s.liaisonLineCV l)
      (hfree : s.Free none (.passenger p)) :
      PassengerMove s p ((s.takeLine (.passenger p)).go p (.called l))
  | step (l : Nat) (hat : s.passenger p = .called l) :
      PassengerMove s p (s.releaseLine.go p (.stepping l))
  | enter (l : Nat) (hat : s.passenger p = .stepping l) (hfree : s.Free (some l) (.passenger p)) :
      PassengerMove s p ((s.takeLock l (.passenger p)).go p (.entered l))
  | announce (l : Nat) (hat : s.passenger p = .entered l) :
      PassengerMove s p (((s.inform p l).signal l).go p (.announced l))
  | rest (l : Nat) (hat : s.passenger p = .announced l) :
      PassengerMove s p ((s.wait l (some p)).go p (.waiting l))
  | wake (l : Nat) (hat : s.passenger p = .waiting l) (hnot : some p ∉ s.liaisonOfficerCV l)
      (hfree : s.Free (some l) (.passenger p)) :
      PassengerMove s p ((s.takeLock l (.passenger p)).go p (.assigned l))
  | thank (l : Nat) (hat : s.passenger p = .assigned l) :
      PassengerMove s p (((s.enroll p l).signal l).go p (.thanking l))
  | linger (l : Nat) (hat : s.passenger p = .thanking l) :
      PassengerMove s p ((s.wait l (some p)).go p (.lingering l))
  | part (l : Nat) (hat : s.passenger p = .lingering l) (hfree : s.Free (some l) (.passenger p)) :
      PassengerMove s p ((s.takeLock l (.passenger p)).go p (.leaving l))
  | leave (l : Nat) (hat : s.passenger p = .leaving l) :
      PassengerMove s p ((s.releaseLock l).go p .directed)

theorem passengerStep_move (hstep : passengerStep p s = .ok s') : PassengerMove s p s' := by
  unfold passengerStep at hstep
  cases hat : s.passenger p
  all_goals simp only [hat] at hstep
  case arriving =>
    obtain ⟨t, ht, hs'⟩ := bind_eq_ok hstep
    obtain ⟨hfree, rfl⟩ := acquireLine_ok ht
    obtain rfl := Except.ok.inj hs'
    exact .arrive hat hfree
  case choosing =>
    obtain rfl := Except.ok.inj hstep
    exact .join hat
  case inLine l =>
    split at hstep
    · exact absurd hstep (by simp)
    · rename_i hnot
      obtain ⟨t, ht, hs'⟩ := bind_eq_ok hstep
      obtain ⟨hfree, rfl⟩ := acquireLine_ok ht
      obtain rfl := Except.ok.inj hs'
      exact .rise l hat hnot hfree
  case called l =>
    obtain rfl := Except.ok.inj hstep
    exact .step l hat
  case stepping l =>
    obtain ⟨t, ht, hs'⟩ := bind_eq_ok hstep
    obtain ⟨hfree, rfl⟩ := acquireLock_ok ht
    obtain rfl := Except.ok.inj hs'
    exact .enter l hat hfree
  case entered l =>
    obtain rfl := Except.ok.inj hstep
    exact .announce l hat
  case announced l =>
    obtain rfl := Except.ok.inj hstep
    exact .rest l hat
  case waiting l =>
    obtain ⟨t, ht, hs'⟩ := bind_eq_ok hstep
    obtain ⟨hnot, hfree, rfl⟩ := resume_ok ht
    obtain rfl := Except.ok.inj hs'
    exact .wake l hat hnot hfree
  case assigned l =>
    obtain rfl := Except.ok.inj hstep
    exact .thank l hat
  case thanking l =>
    obtain rfl := Except.ok.inj hstep
    exact .linger l hat
  case lingering l =>
    obtain ⟨t, ht, hs'⟩ := bind_eq_ok hstep
    obtain ⟨-, hfree, rfl⟩ := resume_ok ht
    obtain rfl := Except.ok.inj hs'
    exact .part l hat hfree
  case leaving l =>
    obtain rfl := Except.ok.inj hstep
    exact .leave l hat
  case directed => exact absurd hstep (by simp)

/-- What a step of a liaison does. -/
inductive LiaisonMove (s : Hall cfg) (l : Nat) : Hall cfg → Prop
  | begin (hat : (s.liaison l).point = .beginning) (hfree : s.Free none (.liaison l)) :
      LiaisonMove s l ((s.takeLine (.liaison l)).post l .looking)
  | call (hat : (s.liaison l).point = .looking) :
      LiaisonMove s l ({ s with
        liaisonLineCV := Function.update s.liaisonLineCV l (s.liaisonLineCV l).tail
        }.post l .calling)
  | pass (hat : (s.liaison l).point = .looking) : LiaisonMove s l (s.releaseLine.post l .idle)
  | openDesk (hat : (s.liaison l).point = .calling) (hfree : s.Free (some l) (.liaison l)) :
      LiaisonMove s l ((s.takeLock l (.liaison l)).post l .opened)
  | ready (hat : (s.liaison l).point = .opened) : LiaisonMove s l (s.releaseLine.post l .ready)
  | await (hat : (s.liaison l).point = .ready) : LiaisonMove s l ((s.wait l none).post l .expecting)
  | attend (hat : (s.liaison l).point = .expecting) (hnot : none ∉ s.liaisonOfficerCV l)
      (hfree : s.Free (some l) (.liaison l)) :
      LiaisonMove s l ((s.takeLock l (.liaison l)).post l .informed)
  | count (hat : (s.liaison l).point = .informed) : LiaisonMove s l ((s.count l).post l .counted)
  | seat (hat : (s.liaison l).point = .counted) :
      LiaisonMove s l ({ s with seatLock := some (.liaison l) }.post l .seating)
  | issue (a : Nat) (hat : (s.liaison l).point = .seating)
      (hseat : s.ticketsIssued a < cfg.totalPassengersOfAirline a) :
      LiaisonMove s l ((s.issue l a).post l .seated)
  | redraw (a : Nat) (hat : (s.liaison l).point = .seating) : LiaisonMove s l (s.redraw l a)
  | assign (hat : (s.liaison l).point = .seated) :
      LiaisonMove s l (((s.assign l).signal l).post l .assigning)
  | pause (hat : (s.liaison l).point = .assigning) :
      LiaisonMove s l ((s.wait l none).post l .parting)
  | finish (hat : (s.liaison l).point = .parting) (hnot : none ∉ s.liaisonOfficerCV l)
      (hfree : s.Free (some l) (.liaison l)) :
      LiaisonMove s l ((s.takeLock l (.liaison l)).post l .closing)
  | close (hat : (s.liaison l).point = .closing) : LiaisonMove s l ((s.signal l).post l .locking)
  | lock (hat : (s.liaison l).point = .locking) :
      LiaisonMove s l ((s.releaseLock l).post l .beginning)
  | rest (dayOver : Bool) (hat : (s.liaison l).point = .idle) :
      LiaisonMove s l (s.post l (if dayOver then .finished else .beginning))

theorem liaisonStep_move {draw : Nat} {dayOver : Bool}
    (hstep : liaisonStep draw dayOver l s = .ok s') : LiaisonMove s l s' := by
  unfold liaisonStep at hstep
  cases hat : (s.liaison l).point
  all_goals simp only [hat] at hstep
  case beginning =>
    obtain ⟨t, ht, hs'⟩ := bind_eq_ok hstep
    obtain ⟨hfree, rfl⟩ := acquireLine_ok ht
    obtain rfl := Except.ok.inj hs'
    exact .begin hat hfree
  case looking =>
    split at hstep
    · obtain rfl := Except.ok.inj hstep
      exact .call hat
    · obtain rfl := Except.ok.inj hstep
      exact .pass hat
  case calling =>
    obtain ⟨t, ht, hs'⟩ := bind_eq_ok hstep
    obtain ⟨hfree, rfl⟩ := acquireLock_ok ht
    obtain rfl := Except.ok.inj hs'
    exact .openDesk hat hfree
  case opened =>
    obtain rfl := Except.ok.inj hstep
    exact .ready hat
  case ready =>
    obtain rfl := Except.ok.inj hstep
    exact .await hat
  case expecting =>
    obtain ⟨t, ht, hs'⟩ := bind_eq_ok hstep
    obtain ⟨hnot, hfree, rfl⟩ := resume_ok ht
    obtain rfl := Except.ok.inj hs'
    exact .attend hat hnot hfree
  case informed =>
    obtain rfl := Except.ok.inj hstep
    exact .count hat
  case counted =>
    obtain ⟨t, ht, hs'⟩ := bind_eq_ok hstep
    obtain rfl := acquireSeat_ok ht
    obtain rfl := Except.ok.inj hs'
    exact .seat hat
  case seating =>
    split at hstep
    · rename_i hseat
      obtain rfl := Except.ok.inj hstep
      exact .issue _ hat hseat
    · obtain rfl := Except.ok.inj hstep
      exact .redraw _ hat
  case seated =>
    obtain rfl := Except.ok.inj hstep
    exact .assign hat
  case assigning =>
    obtain rfl := Except.ok.inj hstep
    exact .pause hat
  case parting =>
    obtain ⟨t, ht, hs'⟩ := bind_eq_ok hstep
    obtain ⟨hnot, hfree, rfl⟩ := resume_ok ht
    obtain rfl := Except.ok.inj hs'
    exact .finish hat hnot hfree
  case closing =>
    obtain rfl := Except.ok.inj hstep
    exact .close hat
  case locking =>
    obtain rfl := Except.ok.inj hstep
    exact .lock hat
  case idle =>
    obtain rfl := Except.ok.inj hstep
    exact .rest dayOver hat
  case finished => exact absurd hstep (by simp)

end Moves

section Locks

/-- The points of all threads; that of a liaison with its number. -/
def point (s : Hall cfg) : LiaisonThread cfg → LiaisonVisit ⊕ (Nat × LiaisonPoint)
  | .passenger p => .inl (s.passenger p)
  | .liaison l => .inr (l, (s.liaison l).point)

/-- The points with a lock. -/
@[simp]
def holds : Option Nat → LiaisonVisit ⊕ (Nat × LiaisonPoint) → Prop
  | none, .inl q => q.holdsLine = true
  | some l, .inl q => q.holdsLock l = true
  | none, .inr q => q.2.holdsLine = true
  | some l, .inr q => q.1 = l ∧ q.2.holdsLock = true

/-- The locks exclude. -/
def Locked (s : Hall cfg) : Prop := AllGuarded s.owners holds s.point

theorem locked_start (cfg : Settings) : (start cfg).Locked := by
  intro j t ht
  cases j
  all_goals
    cases t
    all_goals simp [point, start] at ht

theorem point_passenger {q : LiaisonVisit}
    (hpassenger : s'.passenger = Function.update s.passenger p q)
    (hliaison : ∀ l, (s'.liaison l).point = (s.liaison l).point) :
    s'.point = Function.update s.point (.passenger p) (.inl q) := by
  funext t
  cases t with
  | passenger u =>
      by_cases hu : u = p
      · subst hu
        simp [point, hpassenger]
      · simp [point, hpassenger, hu]
  | liaison l => simp [point, hliaison]

theorem point_liaison {x : Liaison} (hliaison : s'.liaison = Function.update s.liaison l x)
    (hpassenger : s'.passenger = s.passenger) :
    s'.point = Function.update s.point (.liaison l) (.inr (l, x.point)) := by
  funext t
  cases t with
  | passenger p => simp [point, hpassenger]
  | liaison k =>
      by_cases hk : k = l
      · subst hk
        simp [point, hliaison]
      · simp [point, hliaison, hk]

theorem owners_same (hline : s'.liaisonLineLock = s.liaisonLineLock)
    (hlocks : s'.liaisonLineLocks = s.liaisonLineLocks) : s'.owners = s.owners := by
  funext j
  cases j with
  | none => exact hline
  | some l => exact congrFun hlocks l

theorem owners_line {t : Option (LiaisonThread cfg)} (hline : s'.liaisonLineLock = t)
    (hlocks : s'.liaisonLineLocks = s.liaisonLineLocks) :
    s'.owners = Function.update s.owners none t := by
  funext j
  cases j with
  | none => simp [owners, hline]
  | some l => simp [owners, hlocks]

theorem owners_lock {t : Option (LiaisonThread cfg)} (hline : s'.liaisonLineLock = s.liaisonLineLock)
    (hlocks : s'.liaisonLineLocks = Function.update s.liaisonLineLocks l t) :
    s'.owners = Function.update s.owners (some l) t := by
  funext j
  cases j with
  | none => simp [owners, hline]
  | some k =>
      by_cases hk : k = l
      · subst hk
        simp [owners, hlocks]
      · simp [owners, hlocks, hk]

/-- Every step of a passenger keeps the locks. -/
theorem Locked.passenger (h : s.Locked) (hmove : PassengerMove s p s') : s'.Locked := by
  have hpoint : s.point (.passenger p) = .inl (s.passenger p) := rfl
  cases hmove with
  | arrive hat hfree | rise l hat hnot hfree =>
      refine AllGuarded.acquire h none (point_passenger rfl fun _ => rfl) hfree (owners_line rfl rfl) ?_
      intro j hj hx
      cases j
      all_goals simp at hj hx
  | join hat | step l hat =>
      refine AllGuarded.release h none (point_passenger rfl fun _ => rfl) (by simp [hpoint, hat]) (by simp)
        (owners_line rfl rfl) ?_
      intro j hj hx
      cases j
      all_goals simp at hj hx
  | enter l hat hfree | wake l hat hnot hfree | part l hat hfree =>
      refine AllGuarded.acquire h (some l) (point_passenger rfl fun _ => rfl) hfree (owners_lock rfl rfl) ?_
      intro j hj hx
      cases j
      all_goals simp_all
  | announce l hat | thank l hat =>
      refine AllGuarded.keep h (point_passenger rfl fun _ => rfl) (owners_same rfl rfl) ?_
      intro j hx
      cases j
      all_goals simp_all
  | rest l hat | linger l hat | leave l hat =>
      refine AllGuarded.release h (some l) (point_passenger rfl fun _ => rfl) (by simp [hpoint, hat]) (by simp)
        (owners_lock rfl rfl) ?_
      intro j hj hx
      cases j
      all_goals simp at hj hx

/-- Every step of a liaison keeps the locks. -/
theorem Locked.liaison (h : s.Locked) (hmove : LiaisonMove s l s') : s'.Locked := by
  have hpoint : s.point (.liaison l) = .inr (l, (s.liaison l).point) := rfl
  cases hmove with
  | begin hat hfree =>
      refine AllGuarded.acquire h none (point_liaison rfl rfl) hfree (owners_line rfl rfl) ?_
      intro j hj hx
      cases j
      all_goals simp at hj hx
  | pass hat | ready hat =>
      refine AllGuarded.release h none (point_liaison rfl rfl) (by simp [hpoint, hat]) (by simp)
        (owners_line rfl rfl) ?_
      intro j hj hx
      cases j
      all_goals simp_all
  | openDesk hat hfree | attend hat hnot hfree | finish hat hnot hfree =>
      refine AllGuarded.acquire h (some l) (point_liaison rfl rfl) hfree (owners_lock rfl rfl) ?_
      intro j hj hx
      cases j
      all_goals simp_all
  | await hat | pause hat | lock hat =>
      refine AllGuarded.release h (some l) (point_liaison rfl rfl) (by simp [hpoint, hat]) (by simp)
        (owners_lock rfl rfl) ?_
      intro j hj hx
      cases j
      all_goals simp at hj hx
  | count hat | issue a hat hseat =>
      refine AllGuarded.keep h (point_liaison (Function.update_idem ..) rfl) (owners_same rfl rfl) ?_
      intro j hx
      cases j
      all_goals simp_all
  | call hat | seat hat | redraw a hat | assign hat | close hat =>
      refine AllGuarded.keep h (point_liaison rfl rfl) (owners_same rfl rfl) ?_
      intro j hx
      cases j
      all_goals simp_all
  | rest dayOver hat =>
      refine AllGuarded.keep h (point_liaison rfl rfl) (owners_same rfl rfl) ?_
      intro j hx
      cases j
      all_goals
        cases dayOver
        all_goals simp_all

end Locks

section Lines

/-- Whoever is in the queue of a line stands there, once. -/
def Lined (s : Hall cfg) : Prop :=
  ∀ l, (s.liaisonLineCV l).Nodup ∧ ∀ p ∈ s.liaisonLineCV l, s.passenger p = .inLine l

theorem lined_start (cfg : Settings) : (start cfg).Lined := fun _ => ⟨List.nodup_nil, by simp [start]⟩

/-- A passenger that is in no queue goes on. -/
theorem Lined.go (h : s.Lined) {q : LiaisonVisit}
    (hpassenger : s'.passenger = Function.update s.passenger p q)
    (hline : s'.liaisonLineCV = s.liaisonLineCV) (hnot : ∀ l, p ∉ s.liaisonLineCV l) :
    s'.Lined := by
  intro l
  rw [hline, hpassenger]
  refine ⟨(h l).1, fun u hu => ?_⟩
  have hne : u ≠ p := by
    rintro rfl
    exact hnot l hu
  rw [Function.update_of_ne hne]
  exact (h l).2 u hu

theorem Lined.not_mem (h : s.Lined) (hp : ∀ l, s.passenger p ≠ .inLine l) (l : Nat) :
    p ∉ s.liaisonLineCV l := fun hmem => hp l ((h l).2 p hmem)

/-- Every step of a passenger keeps the lines. -/
theorem Lined.passenger (h : s.Lined) (hmove : PassengerMove s p s') : s'.Lined := by
  cases hmove with
  | join hat =>
      have hnot := h.not_mem (p := p) (by simp [hat])
      intro l
      by_cases hl : l = s.shortestLine
      · subst hl
        simp only [Hall.join, Hall.go, Function.update_self]
        refine ⟨?_, fun u hu => ?_⟩
        · rw [List.nodup_append]
          refine ⟨(h _).1, by simp, fun u hu v hv => ?_⟩
          rw [List.mem_singleton.mp hv]
          rintro rfl
          exact hnot _ hu
        · by_cases hu' : u = p
          · rw [hu', Function.update_self]
          · rw [Function.update_of_ne hu']
            exact (h _).2 u (by simpa [hu'] using hu)
      · simp only [Hall.join, Hall.go, Function.update_of_ne hl]
        refine ⟨(h l).1, fun u hu => ?_⟩
        have hne : u ≠ p := by
          rintro rfl
          exact hnot l hu
        rw [Function.update_of_ne hne]
        exact (h l).2 u hu
  | rise l hat hnot hfree =>
      refine h.go rfl rfl fun k hk => ?_
      have hsame := (h k).2 p hk
      rw [hat] at hsame
      injection hsame with hlk
      exact hnot (hlk ▸ hk)
  | arrive hat | step l hat | enter l hat | announce l hat | rest l hat | wake l hat | thank l hat
  | linger l hat | part l hat | leave l hat =>
      exact h.go rfl rfl (h.not_mem (by simp [hat]))

/-- Every step of a liaison keeps the lines. -/
theorem Lined.liaison (h : s.Lined) (hmove : LiaisonMove s l s') : s'.Lined := by
  cases hmove with
  | call hat =>
      intro k
      by_cases hk : k = l
      · subst hk
        simp only [post, Function.update_self]
        exact ⟨(h k).1.tail, fun u hu => (h k).2 u (List.mem_of_mem_tail hu)⟩
      · simp only [post, Function.update_of_ne hk]
        exact h k
  | _ => exact h

end Lines

section Desks

/-- A passenger as a guest of liaison `l`; `called` says that it is not in the queue of the
line. -/
@[simp]
def guestAt (l : Nat) (called : Bool) : LiaisonVisit → Guest
  | .inLine k => if k = l ∧ called = true then .called else .outside
  | .called k | .stepping k | .entered k => if k = l then .coming else .outside
  | .announced k => if k = l then .greeted else .outside
  | .waiting k => if k = l then .waiting else .outside
  | .assigned k => if k = l then .directed else .outside
  | .thanking k => if k = l then .thanking else .outside
  | _ => .outside

theorem guestAt_greeted {called : Bool} {q : LiaisonVisit} :
    guestAt l called q = .greeted ↔ q = .announced l := by
  cases q <;> simp [ite_eq_iff]

theorem guestAt_waiting {called : Bool} {q : LiaisonVisit} :
    guestAt l called q = .waiting ↔ q = .waiting l := by
  cases q <;> simp [ite_eq_iff]

theorem guestAt_thanking {called : Bool} {q : LiaisonVisit} :
    guestAt l called q = .thanking ↔ q = .thanking l := by
  cases q <;> simp [ite_eq_iff]

/-- The guests of liaison `l`. -/
def guest (s : Hall cfg) (l : Nat) (p : cfg.Passenger) : Guest :=
  guestAt l (decide (p ∉ s.liaisonLineCV l)) (s.passenger p)

/-- The desk of liaison `l`. -/
def desk (s : Hall cfg) (l : Nat) : Desk cfg.Passenger :=
  ⟨(s.liaison l).point.clerk, s.guest l, s.liaisonOfficerCV l⟩

/-- All desks are at a stage of their rounds. -/
def Staged (s : Hall cfg) : Prop := ∀ l, (s.desk l).Stage True

theorem staged_start (cfg : Settings) : (start cfg).Staged := fun l =>
  .alone (Or.inl rfl) (fun p => by simp [desk, guest, start]) rfl

/-- The guests when a passenger goes on. -/
theorem guest_go {q : LiaisonVisit} {l : Nat}
    (hpassenger : s'.passenger = Function.update s.passenger p q)
    (hline : ∀ u, u ≠ p → (u ∈ s'.liaisonLineCV l ↔ u ∈ s.liaisonLineCV l)) :
    s'.guest l =
      Function.update (s.guest l) p (guestAt l (decide (p ∉ s'.liaisonLineCV l)) q) := by
  funext u
  by_cases hu : u = p
  · subst hu
    simp [guest, hpassenger]
  · simp [guest, hpassenger, hu, hline u hu]

/-- A passenger makes a move at the desk of liaison `l`. -/
theorem Staged.at_desk (h : s.Staged) (l : Nat) {q : LiaisonVisit} {g : Guest}
    {queue : List (Option cfg.Passenger)}
    (hpassenger : s'.passenger = Function.update s.passenger p q)
    (hline : s'.liaisonLineCV = s.liaisonLineCV) (hliaison : s'.liaison = s.liaison)
    (hqueue : s'.liaisonOfficerCV = Function.update s.liaisonOfficerCV l queue)
    (hg : guestAt l (decide (p ∉ s.liaisonLineCV l)) q = g)
    (hother : ∀ k, k ≠ l → guestAt k (decide (p ∉ s.liaisonLineCV k)) q = s.guest k p)
    (hstage : Desk.Stage True ⟨(s.desk l).clerk, Function.update (s.desk l).guest p g, queue⟩) :
    s'.Staged := by
  intro k
  have hguest := guest_go (l := k) hpassenger fun u _ => by rw [hline]
  rw [hline] at hguest
  by_cases hk : k = l
  · subst hk
    have hdesk : s'.desk k = ⟨(s.desk k).clerk, Function.update (s.desk k).guest p g, queue⟩ := by
      simp only [desk, hliaison, hqueue, hguest, hg, Function.update_self]
    rw [hdesk]
    exact hstage
  · have hdesk : s'.desk k = s.desk k := by
      simp only [desk, hliaison, hqueue, hguest, hother k hk, Function.update_of_ne hk,
        Function.update_eq_self]
    rw [hdesk]
    exact h k

/-- A passenger goes on apart from all desks. -/
theorem Staged.aside (h : s.Staged) {q : LiaisonVisit}
    (hpassenger : s'.passenger = Function.update s.passenger p q)
    (hline : ∀ k u, u ≠ p → (u ∈ s'.liaisonLineCV k ↔ u ∈ s.liaisonLineCV k))
    (hliaison : s'.liaison = s.liaison) (hqueue : s'.liaisonOfficerCV = s.liaisonOfficerCV)
    (hg : ∀ k, guestAt k (decide (p ∉ s'.liaisonLineCV k)) q = s.guest k p) : s'.Staged := by
  intro k
  have hdesk : s'.desk k = s.desk k := by
    simp only [desk, hliaison, hqueue, guest_go hpassenger (hline k), hg k,
      Function.update_eq_self]
  rw [hdesk]
  exact h k

/-- A passenger with the lock of a liaison shuts it out. -/
theorem Locked.liaison_without (h : s.Locked) (hat : (s.passenger p).holdsLock l = true) :
    (s.liaison l).point.holdsLock = false := by
  by_contra hheld
  rw [Bool.not_eq_false] at hheld
  have hpassenger : s.owners (some l) = some (.passenger p) := h (some l) (.passenger p) hat
  have hliaison : s.owners (some l) = some (.liaison l) := h (some l) (.liaison l) ⟨rfl, hheld⟩
  rw [hpassenger] at hliaison
  exact absurd hliaison (by simp)

/-- Nobody notices that it has been called while a liaison has `liaisonLineLock`. -/
theorem Locked.not_calling (h : s.Locked) (hfree : s.Free none (.passenger p)) :
    (s.desk l).clerk ≠ .calling := by
  intro hclerk
  have hat : (s.liaison l).point = .calling := by
    simp only [desk] at hclerk
    generalize (s.liaison l).point = q at hclerk
    cases q
    all_goals simp at hclerk ⊢
  have howner : s.owners none = some (.liaison l) := h none (.liaison l) (by simp [point, hat])
  rcases hfree with hfree | hfree
  all_goals simp [howner] at hfree

/-- Every step of a passenger is a move at one desk. -/
theorem Staged.passenger (h : s.Staged) (hlocked : s.Locked) (hmove : PassengerMove s p s') :
    s'.Staged := by
  cases hmove with
  | arrive hat hfree =>
      exact h.aside rfl (fun _ _ _ => Iff.rfl) rfl rfl fun k => by simp [guest, hat]
  | join hat =>
      refine h.aside rfl (fun k u hu => ?_) rfl rfl fun k => ?_
      · by_cases hk : k = s.shortestLine
        · subst hk
          simp [Hall.join, go, hu]
        · simp [Hall.join, go, hk]
      · by_cases hk : s.shortestLine = k
        · subst hk
          simp [guest, hat, Hall.join, go]
        · simp [guest, hat, hk]
  | rise l hat hnot hfree =>
      refine h.at_desk l rfl rfl rfl (Function.update_eq_self ..).symm (g := .coming) (by simp)
        (fun k hk => by simp [guest, hat, Ne.symm hk]) ?_
      exact (h l).rise (by simp [desk, guest, hat, hnot]) (hlocked.not_calling hfree)
  | step l hat | enter l hat hfree =>
      refine h.aside rfl (fun _ _ _ => Iff.rfl) rfl rfl fun k => by simp [guest, hat]
  | announce l hat =>
      refine h.at_desk l rfl rfl rfl rfl (g := .greeted) (by simp)
        (fun k hk => by simp [guest, hat, Ne.symm hk]) ?_
      refine ((h l).greet (by simp [desk, guest, hat]) fun hclerk => ?_).2
      have hshut := hlocked.liaison_without (p := p) (l := l) (by simp [hat])
      simp only [desk] at hclerk
      generalize (s.liaison l).point = q at hclerk hshut
      cases q
      all_goals simp at hclerk hshut
  | rest l hat =>
      refine h.at_desk l rfl rfl rfl rfl (g := .waiting) (by simp)
        (fun k hk => by simp [guest, hat, Ne.symm hk]) ?_
      exact (h l).rest (by simp [desk, guest, hat])
  | wake l hat hnot hfree =>
      refine h.at_desk l rfl rfl rfl (Function.update_eq_self ..).symm (g := .directed) (by simp)
        (fun k hk => by simp [guest, hat, Ne.symm hk]) ?_
      exact (h l).wake (by simp [desk, guest, hat]) hnot
  | thank l hat =>
      refine h.at_desk l rfl rfl rfl rfl (g := .thanking) (by simp)
        (fun k hk => by simp [guest, hat, Ne.symm hk]) ?_
      refine (h l).thank trivial (by simp [desk, guest, hat]) fun hclerk => ?_
      have hshut := hlocked.liaison_without (p := p) (l := l) (by simp [hat])
      simp only [desk] at hclerk
      generalize (s.liaison l).point = q at hclerk hshut
      cases q
      all_goals simp at hclerk hshut
  | linger l hat =>
      refine h.at_desk l rfl rfl rfl rfl (g := .outside) (by simp)
        (fun k hk => by simp [guest, hat, Ne.symm hk]) ?_
      exact (h l).linger (by simp [desk, guest, hat])
  | part l hat hfree | leave l hat =>
      exact h.aside rfl (fun _ _ _ => Iff.rfl) rfl rfl fun k => by simp [guest, hat]

/-- A liaison makes a move at its desk. -/
theorem Staged.by_liaison (h : s.Staged) {x : Liaison} {queue : List (Option cfg.Passenger)}
    (hliaison : s'.liaison = Function.update s.liaison l x)
    (hpassenger : s'.passenger = s.passenger) (hline : s'.liaisonLineCV = s.liaisonLineCV)
    (hqueue : s'.liaisonOfficerCV = Function.update s.liaisonOfficerCV l queue)
    (hstage : Desk.Stage True ⟨x.point.clerk, (s.desk l).guest, queue⟩) : s'.Staged := by
  intro k
  have hguest : s'.guest k = s.guest k := by
    funext u
    simp only [guest, hpassenger, hline]
  by_cases hk : k = l
  · subst hk
    have hdesk : s'.desk k = ⟨x.point.clerk, (s.desk k).guest, queue⟩ := by
      simp only [desk, hguest, hliaison, hqueue, Function.update_self]
    rw [hdesk]
    exact hstage
  · have hdesk : s'.desk k = s.desk k := by
      simp only [desk, hguest, hliaison, hqueue, Function.update_of_ne hk]
    rw [hdesk]
    exact h k

/-- A liaison goes on, and its desk does not change. -/
theorem Staged.idly (h : s.Staged) {x : Liaison}
    (hliaison : s'.liaison = Function.update s.liaison l x)
    (hpassenger : s'.passenger = s.passenger) (hline : s'.liaisonLineCV = s.liaisonLineCV)
    (hqueue : s'.liaisonOfficerCV = s.liaisonOfficerCV)
    (hclerk : x.point.clerk = (s.liaison l).point.clerk) : s'.Staged := by
  refine h.by_liaison hliaison hpassenger hline
    (hqueue.trans (Function.update_eq_self ..).symm) ?_
  rw [hclerk]
  exact h l

/-- A liaison calls the first passenger in its line, if there is one. -/
theorem Staged.call (h : s.Staged) (hlined : s.Lined) (hat : (s.liaison l).point = .looking) :
    ({ s with liaisonLineCV := Function.update s.liaisonLineCV l (s.liaisonLineCV l).tail
      }.post l .calling).Staged := by
  have haway : (s.desk l).clerk = .away := by simp [desk, hat]
  intro k
  by_cases hk : k = l
  · subst hk
    cases hqueue : s.liaisonLineCV k with
    | nil =>
        have hdesk : ({ s with liaisonLineCV := Function.update s.liaisonLineCV k [].tail
            }.post k .calling).desk k = ⟨.calling, (s.desk k).guest, (s.desk k).queue⟩ := by
          ext1
          · simp [desk, post]
          · funext u
            simp [desk, post, guest, hqueue]
          · rfl
        rw [hdesk]
        exact (h k).call haway
    | cons u rest =>
        have hu : s.passenger u = .inLine k := (hlined k).2 u (by simp [hqueue])
        have hrest : u ∉ rest := by
          have hnodup := (hlined k).1
          rw [hqueue] at hnodup
          exact (List.nodup_cons.mp hnodup).1
        have hdesk : ({ s with liaisonLineCV := Function.update s.liaisonLineCV k (u :: rest).tail
            }.post k .calling).desk k =
              ⟨.calling, Function.update (s.desk k).guest u .called, (s.desk k).queue⟩ := by
          ext1
          · simp [desk, post]
          · funext v
            by_cases hv : v = u
            · subst hv
              simp [desk, post, guest, hu, hrest]
            · simp [desk, post, guest, hqueue, hv]
          · rfl
        rw [hdesk]
        exact (h k).call_guest haway u
  · have hdesk : ({ s with
          liaisonLineCV := Function.update s.liaisonLineCV l (s.liaisonLineCV l).tail
          }.post l .calling).desk k = s.desk k := by
      ext1
      · simp [desk, post, hk]
      · funext u
        simp [desk, post, guest, hk]
      · rfl
    rw [hdesk]
    exact h k

/-- Nobody at a desk has the lock while the liaison has it. -/
theorem Locked.guest_without (h : s.Locked) (hat : (s.liaison l).point.holdsLock = true)
    (p : cfg.Passenger) : (s.passenger p).holdsLock l = false := by
  by_contra hheld
  rw [Bool.not_eq_false] at hheld
  rw [h.liaison_without hheld] at hat
  exact absurd hat (by simp)

/-- Every step of a liaison is a move at its desk. -/
theorem Staged.liaison (h : s.Staged) (hlocked : s.Locked) (hlined : s.Lined)
    (hmove : LiaisonMove s l s') : s'.Staged := by
  cases hmove with
  | call hat => exact h.call hlined hat
  | begin hat | pass hat | ready hat | seat hat | redraw a hat | lock hat =>
      exact h.idly rfl rfl rfl rfl (by simp [hat])
  | rest dayOver hat =>
      refine h.idly rfl rfl rfl rfl ?_
      cases dayOver
      all_goals simp [hat]
  | count hat | issue a hat hseat =>
      exact h.idly (Function.update_idem ..) rfl rfl rfl (by simp [hat])
  | openDesk hat hfree =>
      refine h.by_liaison rfl rfl rfl (Function.update_eq_self ..).symm ?_
      exact (h l).open (by simp [desk, hat])
  | await hat =>
      refine h.by_liaison rfl rfl rfl rfl ?_
      exact (h l).await (by simp [desk, hat])
  | attend hat hnot hfree =>
      refine h.by_liaison rfl rfl rfl (Function.update_eq_self ..).symm ?_
      exact (h l).attend (by simp [desk, hat]) hnot
  | assign hat =>
      refine h.by_liaison rfl rfl rfl rfl ?_
      refine (h l).dismiss (by simp [desk, hat]) fun u hu => ?_
      have hshut := hlocked.guest_without (l := l) (by simp [hat]) u
      rw [guestAt_greeted.mp hu] at hshut
      simp at hshut
  | pause hat =>
      refine h.by_liaison rfl rfl rfl rfl ?_
      exact (h l).pause (by simp [desk, hat])
  | finish hat hnot hfree =>
      refine h.by_liaison rfl rfl rfl (Function.update_eq_self ..).symm ?_
      exact (h l).finish (by simp [desk, hat]) hnot
  | close hat =>
      refine h.by_liaison rfl rfl rfl rfl ?_
      refine (h l).close (by simp [desk, hat]) fun u hu => ?_
      have hshut := hlocked.guest_without (l := l) (by simp [hat]) u
      rw [guestAt_thanking.mp hu] at hshut
      simp at hshut

end Desks

end Hall
end Airport
end Nachos
