import Nachos.Airport.Counters

/-!
# The moves at the check-in counters

What each step of a passenger and of a check-in officer does, and that the locks exclude.  The
lengths of the lines decide only who is called and who takes a break, so that the moves leave
them open.
-/

namespace Nachos
namespace Airport

open Lib

namespace CheckInVisit

/-- The points with `CheckInLock`. -/
@[simp]
def holdsLine : CheckInVisit → Bool
  | choosing | ringing _ _ | queueing _ | called _ | told _ | entering _ => true
  | _ => false

/-- The points with `CheckInLocks[k]`. -/
@[simp]
def holdsLock (k : Nat) : CheckInVisit → Bool
  | entering j | entered j | handed j | served j | leaving j => j = k
  | _ => false

end CheckInVisit

namespace CounterPoint

/-- The points with `CheckInLock`. -/
@[simp]
def holdsLine : CounterPoint → Bool
  | looking | back | callingExec | callingEconomy | counted _ | opened _ => true
  | _ => false

/-- The points with `CheckInLocks[number]`. -/
@[simp]
def holdsLock : CounterPoint → Bool
  | opened _ | ready _ | informed _ | loading _ | dropping _ | dropped _ | informing
  | closing => true
  | _ => false

/-- The clerk of the desk. -/
@[simp]
def clerk : CounterPoint → Clerk
  | beginning | looking | onBreak | back => .away
  | callingExec | callingEconomy | counted _ => .calling
  | opened _ | ready _ => .opened
  | expecting _ => .expecting
  | informed _ | loading _ | dropping _ | dropped _ => .serving
  | informing => .dismissing
  | parting => .parting
  | closing => .closing

/-- The officer has called an executive passenger and has not got its bags. -/
@[simp]
def helping : CounterPoint → Bool
  | callingExec => true
  | counted helped | opened helped | ready helped | expecting helped | informed helped => helped
  | _ => false

end CounterPoint

namespace Counters

variable {cfg : Settings} {s s' : Counters cfg} {p : cfg.Passenger} {a k : Nat}

section Moves

/-- Who owns `CheckInLock`, and who `CheckInLocks[k]`. -/
def owners (s : Counters cfg) : Option Nat → Option (CheckInThread cfg)
  | none => s.checkInLock
  | some k => s.checkInLocks k

/-- A thread can have a lock. -/
def Free (s : Counters cfg) (j : Option Nat) (t : CheckInThread cfg) : Prop :=
  s.owners j = none ∨ s.owners j = some t

/-- The counters with `CheckInLock` taken. -/
def takeLine (s : Counters cfg) (t : CheckInThread cfg) : Counters cfg :=
  { s with checkInLock := some t }

/-- The counters with `CheckInLocks[k]` taken. -/
def takeLock (s : Counters cfg) (k : Nat) (t : CheckInThread cfg) : Counters cfg :=
  { s with checkInLocks := Function.update s.checkInLocks k (some t) }

theorem acquireLine_ok {t : CheckInThread cfg} (h : s.acquireLine t = .ok s') :
    s.Free none t ∧ s' = s.takeLine t := by
  unfold acquireLine at h
  split at h
  · rename_i hfree
    exact ⟨hfree, (Except.ok.inj h).symm⟩
  · exact absurd h (by simp)

theorem acquireLock_ok {t : CheckInThread cfg} (h : s.acquireLock k t = .ok s') :
    s.Free (some k) t ∧ s' = s.takeLock k t := by
  unfold acquireLock at h
  split at h
  · rename_i hfree
    exact ⟨hfree, (Except.ok.inj h).symm⟩
  · exact absurd h (by simp)

theorem acquireBaggage_ok {t : CheckInThread cfg} (h : s.acquireBaggage t = .ok s') :
    s' = { s with baggageLock := some t } := by
  unfold acquireBaggage at h
  split at h
  · exact (Except.ok.inj h).symm
  · exact absurd h (by simp)

theorem resume_ok {w : Option cfg.Passenger} {t : CheckInThread cfg}
    (h : s.resume k w t = .ok s') :
    w ∉ s.checkInOfficerCV k ∧ s.Free (some k) t ∧ s' = s.takeLock k t := by
  unfold resume at h
  split at h
  · exact absurd h (by simp)
  · rename_i hnot
    exact ⟨hnot, acquireLock_ok h⟩

/-- What a step of a passenger of airline `a` does; the lengths of the lines and who is rung are
left open. -/
inductive PassengerMove (s : Counters cfg) (a : Nat) (p : cfg.Passenger) : Counters cfg → Prop
  | arrive (hat : s.passenger p = .arriving) (hfree : s.Free none (.passenger p)) :
      PassengerMove s a p ((s.takeLine (.passenger p)).go p .choosing)
  | join (q : CheckInVisit) (line : Nat → Nat) (rung : Nat → List Nat)
      (hat : s.passenger p = .choosing)
      (hq : q = .queueing (s.lineFor a p) ∨ q = .ringing (s.lineFor a p) 0) :
      PassengerMove s a p ({ s with checkInLine := line, checkInBreakCV := rung }.go p q)
  | ring (k i : Nat) (q : CheckInVisit) (rung : Nat → List Nat)
      (hat : s.passenger p = .ringing k i)
      (hq : q = .queueing k ∨ q = .ringing k (i + 1)) :
      PassengerMove s a p ({ s with checkInBreakCV := rung }.go p q)
  | queue (k : Nat) (hat : s.passenger p = .queueing k) : PassengerMove s a p (s.queue p k)
  | rise (k : Nat) (hat : s.passenger p = .inLine k) (hnot : p ∉ s.checkInCV k)
      (hfree : s.Free none (.passenger p)) :
      PassengerMove s a p ((s.takeLine (.passenger p)).go p (.called k))
  | read (k : Nat) (hat : s.passenger p = .called k) :
      PassengerMove s a p
        (s.go p (.told (if cfg.economy p then k else (s.cpInfo k).line)))
  | enter (k : Nat) (hat : s.passenger p = .told k) (hfree : s.Free (some k) (.passenger p)) :
      PassengerMove s a p ((s.takeLock k (.passenger p)).go p (.entering k))
  | step (k : Nat) (hat : s.passenger p = .entering k) :
      PassengerMove s a p (s.releaseLine.go p (.entered k))
  | hand (k : Nat) (junk : Int) (bag : List Baggage) (hat : s.passenger p = .entered k)
      (hbag : popBags (s.cpInfo k).bag.length junk (s.cpInfo k).bag = some bag) :
      PassengerMove s a p (((s.handOver p k bag).signal k).go p (.handed k))
  | rest (k : Nat) (hat : s.passenger p = .handed k) :
      PassengerMove s a p ((s.wait k (some p)).go p (.waiting k))
  | wake (k : Nat) (hat : s.passenger p = .waiting k) (hnot : some p ∉ s.checkInOfficerCV k)
      (hfree : s.Free (some k) (.passenger p)) :
      PassengerMove s a p ((s.takeLock k (.passenger p)).go p (.served k))
  | leave (k : Nat) (hat : s.passenger p = .served k) :
      PassengerMove s a p (((s.leaveLine k).signal k).go p (.leaving k))
  | exit (k : Nat) (hat : s.passenger p = .leaving k) :
      PassengerMove s a p ((s.releaseLock k).go p .left)

theorem passengerStep_move {junk : Int} (hstep : passengerStep a junk p s = .ok s') :
    PassengerMove s a p s' := by
  unfold passengerStep at hstep
  cases hat : s.passenger p
  all_goals simp only [hat] at hstep
  case arriving =>
    obtain ⟨t, ht, hs'⟩ := bind_eq_ok hstep
    obtain ⟨hfree, rfl⟩ := acquireLine_ok ht
    obtain rfl := Except.ok.inj hs'
    exact .arrive hat hfree
  case choosing =>
    obtain rfl := Except.ok.inj hstep
    unfold Counters.join
    dsimp only
    split
    · split
      · exact .join _ _ _ hat (Or.inl rfl)
      · exact .join _ _ _ hat (Or.inr rfl)
    · exact .join _ _ _ hat (Or.inl rfl)
  case ringing k i =>
    obtain rfl := Except.ok.inj hstep
    unfold ringNext
    split
    · dsimp only
      split
      · exact .ring k i _ _ hat (Or.inr rfl)
      · exact .ring k i _ s.checkInBreakCV hat (Or.inr rfl)
    · exact .ring k i _ s.checkInBreakCV hat (Or.inl rfl)
  case queueing k =>
    obtain rfl := Except.ok.inj hstep
    exact .queue k hat
  case inLine k =>
    split at hstep
    · exact absurd hstep (by simp)
    · rename_i hnot
      obtain ⟨t, ht, hs'⟩ := bind_eq_ok hstep
      obtain ⟨hfree, rfl⟩ := acquireLine_ok ht
      obtain rfl := Except.ok.inj hs'
      exact .rise k hat hnot hfree
  case called k =>
    obtain rfl := Except.ok.inj hstep
    exact .read k hat
  case told k =>
    obtain ⟨t, ht, hs'⟩ := bind_eq_ok hstep
    obtain ⟨hfree, rfl⟩ := acquireLock_ok ht
    obtain rfl := Except.ok.inj hs'
    exact .enter k hat hfree
  case entering k =>
    obtain rfl := Except.ok.inj hstep
    exact .step k hat
  case entered k =>
    split at hstep
    · rename_i bag hbag
      obtain rfl := Except.ok.inj hstep
      exact .hand k junk bag hat hbag
    · exact absurd hstep (by simp)
  case handed k =>
    obtain rfl := Except.ok.inj hstep
    exact .rest k hat
  case waiting k =>
    obtain ⟨t, ht, hs'⟩ := bind_eq_ok hstep
    obtain ⟨hnot, hfree, rfl⟩ := resume_ok ht
    obtain rfl := Except.ok.inj hs'
    exact .wake k hat hnot hfree
  case served k =>
    obtain rfl := Except.ok.inj hstep
    exact .leave k hat
  case leaving k =>
    obtain rfl := Except.ok.inj hstep
    exact .exit k hat
  case left => exact absurd hstep (by simp)

/-- An officer at another point, and its flag and counts changed. -/
def staff (s : Counters cfg) (k : Nat) (x : CheckInOfficer) : Counters cfg :=
  { s with officer := Function.update s.officer k x }

/-- What a step of an officer does; the lengths of the lines, who is on a break and how many
passengers have been counted are left open. -/
inductive OfficerMove (s : Counters cfg) (k : Nat) : Counters cfg → Prop
  | begin (x : CheckInOfficer) (hat : (s.officer k).point = .beginning)
      (hfree : s.Free none (.officer k)) (hx : x = { s.officer k with point := .looking }) :
      OfficerMove s k ((s.takeLine (.officer k)).staff k x)
  | callExec (x : CheckInOfficer) (hat : (s.officer k).point = .looking)
      (hhelp : s.execLineNeedsHelp (cfg.airlineOf k) = true)
      (hx : x = { s.officer k with onBreak := false, point := .callingExec }) :
      OfficerMove s k
        ((s.callExec k (cfg.airlineOf k) (cfg.execLine (cfg.airlineOf k))).staff k x)
  | callEconomy (x : CheckInOfficer) (hat : (s.officer k).point = .looking)
      (hx : x = { s.officer k with onBreak := false, point := .callingEconomy }) :
      OfficerMove s k ((s.callEconomy k).staff k x)
  | takeBreak (x : CheckInOfficer) (hat : (s.officer k).point = .looking)
      (hx : x = { s.officer k with onBreak := true, point := .onBreak }) :
      OfficerMove s k ((s.takeBreak k).staff k x)
  | wake (x : CheckInOfficer) (hat : (s.officer k).point = .onBreak)
      (hfree : s.Free none (.officer k)) (hx : x = { s.officer k with point := .back }) :
      OfficerMove s k ((s.takeLine (.officer k)).staff k x)
  | back (x : CheckInOfficer) (hat : (s.officer k).point = .back)
      (hx : x = { s.officer k with point := .beginning }) :
      OfficerMove s k (s.releaseLine.staff k x)
  | count (x : CheckInOfficer) (helped : Bool) (n : Nat) (line : Nat → Nat)
      (hat : (s.officer k).point = if helped then .callingExec else .callingEconomy)
      (hx : x = { s.officer k with passengerCount := n, point := .counted helped }) :
      OfficerMove s k ({ s with checkInLine := line }.staff k x)
  | openDesk (x : CheckInOfficer) (helped : Bool) (hat : (s.officer k).point = .counted helped)
      (hfree : s.Free (some k) (.officer k)) (hx : x = { s.officer k with point := .opened helped }) :
      OfficerMove s k ((s.takeLock k (.officer k)).staff k x)
  | ready (x : CheckInOfficer) (helped : Bool) (hat : (s.officer k).point = .opened helped)
      (hx : x = { s.officer k with point := .ready helped }) :
      OfficerMove s k (s.releaseLine.staff k x)
  | await (x : CheckInOfficer) (helped : Bool) (hat : (s.officer k).point = .ready helped)
      (hx : x = { s.officer k with point := .expecting helped }) :
      OfficerMove s k ((s.wait k none).staff k x)
  | attend (x : CheckInOfficer) (helped : Bool) (hat : (s.officer k).point = .expecting helped)
      (hnot : none ∉ s.checkInOfficerCV k) (hfree : s.Free (some k) (.officer k))
      (hx : x = { s.officer k with point := .informed helped }) :
      OfficerMove s k ((s.takeLock k (.officer k)).staff k x)
  | take (x : CheckInOfficer) (helped : Bool) (hat : (s.officer k).point = .informed helped)
      (hx : x = { s.officer k with bags := (s.cpInfo k).bag, point := .loading 0 }) :
      OfficerMove s k ((s.takeBags k helped).staff k x)
  | mark (x : CheckInOfficer) (i : Nat) (hat : (s.officer k).point = .loading i)
      (hcount : i < (s.cpInfo k).baggageCount) (hi : i < (s.officer k).bags.length)
      (hx : x = { s.officer k with
        bags := (s.officer k).bags.modify i fun b => { b with airlineCode := cfg.airlineOf k }
        point := .dropping i }) :
      OfficerMove s k ({ s with baggageLock := some (.officer k) }.staff k x)
  | drop (x : CheckInOfficer) (i : Nat) (b : Baggage) (hat : (s.officer k).point = .dropping i)
      (hb : (s.officer k).bags[i]? = some b) (hx : x = { s.officer k with point := .dropped i }) :
      OfficerMove s k ((s.drop b).staff k x)
  | record (x : CheckInOfficer) (i : Nat) (b : Baggage) (hat : (s.officer k).point = .dropped i)
      (hb : (s.officer k).bags[i]? = some b)
      (hx : x = { s.officer k with
        totalBags := (s.officer k).totalBags ++ [b], point := .loading (i + 1) }) :
      OfficerMove s k (s.staff k x)
  | inform (x : CheckInOfficer) (i : Nat) (hat : (s.officer k).point = .loading i)
      (hcount : (s.cpInfo k).baggageCount ≤ i)
      (hx : x = { s.officer k with point := .informing }) :
      OfficerMove s k (((s.tellGate k).signal k).staff k x)
  | pause (x : CheckInOfficer) (hat : (s.officer k).point = .informing)
      (hx : x = { s.officer k with point := .parting }) :
      OfficerMove s k ((s.wait k none).staff k x)
  | finish (x : CheckInOfficer) (hat : (s.officer k).point = .parting)
      (hnot : none ∉ s.checkInOfficerCV k) (hfree : s.Free (some k) (.officer k))
      (hx : x = { s.officer k with point := .closing }) :
      OfficerMove s k ((s.takeLock k (.officer k)).staff k x)
  | close (x : CheckInOfficer) (hat : (s.officer k).point = .closing)
      (hx : x = { s.officer k with point := .beginning }) :
      OfficerMove s k ((s.releaseLock k).staff k x)

theorem officerStep_move (hstep : officerStep k s = .ok s') : OfficerMove s k s' := by
  unfold officerStep at hstep
  cases hat : (s.officer k).point
  all_goals simp only [hat] at hstep
  case beginning =>
    obtain ⟨t, ht, hs'⟩ := bind_eq_ok hstep
    obtain ⟨hfree, rfl⟩ := acquireLine_ok ht
    obtain rfl := Except.ok.inj hs'
    exact .begin _ hat hfree rfl
  case looking =>
    split at hstep
    · rename_i hexec
      obtain rfl := Except.ok.inj hstep
      convert OfficerMove.callExec _ hat hexec.2 rfl using 1
      simp [post, staff, setOnBreak, Counters.callExec]
    · split at hstep
      · obtain rfl := Except.ok.inj hstep
        convert OfficerMove.callEconomy _ hat rfl using 1
        simp [post, staff, setOnBreak, Counters.callEconomy]
      · obtain rfl := Except.ok.inj hstep
        convert OfficerMove.takeBreak _ hat rfl using 1
        simp [post, staff, setOnBreak, Counters.takeBreak, releaseLine]
  case onBreak =>
    split at hstep
    · exact absurd hstep (by simp)
    · obtain ⟨t, ht, hs'⟩ := bind_eq_ok hstep
      obtain ⟨hfree, rfl⟩ := acquireLine_ok ht
      obtain rfl := Except.ok.inj hs'
      exact .wake _ hat hfree rfl
  case back =>
    obtain rfl := Except.ok.inj hstep
    exact .back _ hat rfl
  case callingExec =>
    obtain rfl := Except.ok.inj hstep
    convert OfficerMove.count _ true ((s.officer k).passengerCount + 1)
      (Function.update s.checkInLine k (s.checkInLine k + 1)) hat rfl using 1
    simp [post, staff, Counters.count]
  case callingEconomy =>
    obtain rfl := Except.ok.inj hstep
    convert OfficerMove.count _ false ((s.officer k).passengerCount + 1) s.checkInLine hat rfl
      using 1
    simp [post, staff, Counters.count]
  case counted helped =>
    obtain ⟨t, ht, hs'⟩ := bind_eq_ok hstep
    obtain ⟨hfree, rfl⟩ := acquireLock_ok ht
    obtain rfl := Except.ok.inj hs'
    exact .openDesk _ helped hat hfree rfl
  case opened helped =>
    obtain rfl := Except.ok.inj hstep
    exact .ready _ helped hat rfl
  case ready helped =>
    obtain rfl := Except.ok.inj hstep
    exact .await _ helped hat rfl
  case expecting helped =>
    obtain ⟨t, ht, hs'⟩ := bind_eq_ok hstep
    obtain ⟨hnot, hfree, rfl⟩ := resume_ok ht
    obtain rfl := Except.ok.inj hs'
    exact .attend _ helped hat hnot hfree rfl
  case informed helped =>
    obtain rfl := Except.ok.inj hstep
    convert OfficerMove.take _ helped hat rfl using 1
    simp [post, staff, takeBags]
  case loading i =>
    split at hstep
    · rename_i hcount
      split at hstep
      · rename_i hi
        obtain ⟨t, ht, hs'⟩ := bind_eq_ok hstep
        obtain rfl := acquireBaggage_ok ht
        obtain rfl := Except.ok.inj hs'
        convert OfficerMove.mark _ i hat hcount hi rfl using 1
        simp [post, staff, Counters.mark]
      · exact absurd hstep (by simp)
    · rename_i hcount
      obtain rfl := Except.ok.inj hstep
      exact .inform _ i hat (Nat.le_of_not_lt hcount) rfl
  case dropping i =>
    split at hstep
    · rename_i b hb
      obtain rfl := Except.ok.inj hstep
      exact .drop _ i b hat hb rfl
    · exact absurd hstep (by simp)
  case dropped i =>
    split at hstep
    · rename_i b hb
      obtain rfl := Except.ok.inj hstep
      convert OfficerMove.record _ i b hat hb rfl using 1
      simp [post, staff, Counters.record]
    · exact absurd hstep (by simp)
  case informing =>
    obtain rfl := Except.ok.inj hstep
    exact .pause _ hat rfl
  case parting =>
    obtain ⟨t, ht, hs'⟩ := bind_eq_ok hstep
    obtain ⟨hnot, hfree, rfl⟩ := resume_ok ht
    obtain rfl := Except.ok.inj hs'
    exact .finish _ hat hnot hfree rfl
  case closing =>
    obtain rfl := Except.ok.inj hstep
    exact .close _ hat rfl

end Moves

section Locks

/-- The points of all threads; that of an officer with its number. -/
def point (s : Counters cfg) : CheckInThread cfg → CheckInVisit ⊕ (Nat × CounterPoint)
  | .passenger p => .inl (s.passenger p)
  | .officer k => .inr (k, (s.officer k).point)

/-- The points with a lock. -/
@[simp]
def holds : Option Nat → CheckInVisit ⊕ (Nat × CounterPoint) → Prop
  | none, .inl q => q.holdsLine = true
  | some k, .inl q => q.holdsLock k = true
  | none, .inr q => q.2.holdsLine = true
  | some k, .inr q => q.1 = k ∧ q.2.holdsLock = true

/-- The locks exclude. -/
def Locked (s : Counters cfg) : Prop := AllGuarded s.owners holds s.point

theorem locked_start (cfg : Settings) : (start cfg).Locked := by
  intro j t ht
  cases j
  all_goals
    cases t
    all_goals simp [point, start] at ht

theorem point_passenger {q : CheckInVisit}
    (hpassenger : s'.passenger = Function.update s.passenger p q)
    (hofficer : s'.officer = s.officer) :
    s'.point = Function.update s.point (.passenger p) (.inl q) := by
  funext t
  cases t with
  | passenger u =>
      by_cases hu : u = p
      · subst hu
        simp [point, hpassenger]
      · simp [point, hpassenger, hu]
  | officer k => simp [point, hofficer]

theorem point_officer {x : CheckInOfficer}
    (hofficer : s'.officer = Function.update s.officer k x)
    (hpassenger : s'.passenger = s.passenger) :
    s'.point = Function.update s.point (.officer k) (.inr (k, x.point)) := by
  funext t
  cases t with
  | passenger p => simp [point, hpassenger]
  | officer j =>
      by_cases hj : j = k
      · subst hj
        simp [point, hofficer]
      · simp [point, hofficer, hj]

theorem owners_same (hline : s'.checkInLock = s.checkInLock)
    (hlocks : s'.checkInLocks = s.checkInLocks) : s'.owners = s.owners := by
  funext j
  cases j with
  | none => exact hline
  | some k => exact congrFun hlocks k

theorem owners_line {t : Option (CheckInThread cfg)} (hline : s'.checkInLock = t)
    (hlocks : s'.checkInLocks = s.checkInLocks) :
    s'.owners = Function.update s.owners none t := by
  funext j
  cases j with
  | none => simp [owners, hline]
  | some k => simp [owners, hlocks]

theorem owners_lock {t : Option (CheckInThread cfg)} (hline : s'.checkInLock = s.checkInLock)
    (hlocks : s'.checkInLocks = Function.update s.checkInLocks k t) :
    s'.owners = Function.update s.owners (some k) t := by
  funext j
  cases j with
  | none => simp [owners, hline]
  | some i =>
      by_cases hi : i = k
      · subst hi
        simp [owners, hlocks]
      · simp [owners, hlocks, hi]

/-- Every step of a passenger keeps the locks. -/
theorem Locked.passenger (h : s.Locked) (hmove : PassengerMove s a p s') : s'.Locked := by
  have hpoint : s.point (.passenger p) = .inl (s.passenger p) := rfl
  cases hmove with
  | arrive hat hfree | rise k hat hnot hfree =>
      refine AllGuarded.acquire h none (point_passenger rfl rfl) hfree (owners_line rfl rfl) ?_
      intro j hj hx
      cases j
      all_goals simp at hj hx
  | join q line rung hat hq | ring k i q rung hat hq =>
      refine AllGuarded.keep h (point_passenger rfl rfl) (owners_same rfl rfl) ?_
      intro j hx
      rcases hq with rfl | rfl
      all_goals
        cases j
        all_goals simp_all
  | queue k hat =>
      refine AllGuarded.release h none (point_passenger rfl rfl) (by simp [hpoint, hat]) (by simp)
        (owners_line rfl rfl) ?_
      intro j hj hx
      cases j
      all_goals simp at hj hx
  | read k hat =>
      refine AllGuarded.keep h (point_passenger rfl rfl) (owners_same rfl rfl) ?_
      intro j hx
      cases j
      all_goals simp_all
  | enter k hat hfree | wake k hat hnot hfree =>
      refine AllGuarded.acquire h (some k) (point_passenger rfl rfl) hfree (owners_lock rfl rfl) ?_
      intro j hj hx
      cases j
      all_goals simp_all
  | step k hat =>
      refine AllGuarded.release h none (point_passenger rfl rfl) (by simp [hpoint, hat]) (by simp)
        (owners_line rfl rfl) ?_
      intro j hj hx
      cases j
      all_goals simp_all
  | hand k junk bag hat hbag | leave k hat =>
      refine AllGuarded.keep h (point_passenger rfl rfl) (owners_same rfl rfl) ?_
      intro j hx
      cases j
      all_goals simp_all
  | rest k hat | exit k hat =>
      refine AllGuarded.release h (some k) (point_passenger rfl rfl) (by simp [hpoint, hat])
        (by simp) (owners_lock rfl rfl) ?_
      intro j hj hx
      cases j
      all_goals simp at hj hx

/-- Every step of an officer keeps the locks. -/
theorem Locked.officer (h : s.Locked) (hmove : OfficerMove s k s') : s'.Locked := by
  have hpoint : s.point (.officer k) = .inr (k, (s.officer k).point) := rfl
  cases hmove with
  | begin x hat hfree hx | wake x hat hfree hx =>
      refine AllGuarded.acquire h none (point_officer rfl rfl) hfree (owners_line rfl rfl) ?_
      intro j hj hx
      cases j
      all_goals simp_all
  | callExec x hat hhelp hx | callEconomy x hat hx =>
      refine AllGuarded.keep h (point_officer rfl rfl) (owners_same rfl rfl) ?_
      intro j hx
      cases j
      all_goals simp_all
  | takeBreak x hat hx | back x hat hx | ready x helped hat hx =>
      refine AllGuarded.release h none (point_officer rfl rfl) (by simp [hpoint, hat])
        (by simp [hx]) (owners_line rfl rfl) ?_
      intro j hj hx
      cases j
      all_goals simp_all
  | count x helped n line hat hx =>
      refine AllGuarded.keep h (point_officer rfl rfl) (owners_same rfl rfl) ?_
      intro j hx
      cases j
      all_goals
        cases helped
        all_goals simp_all
  | openDesk x helped hat hfree hx | attend x helped hat hnot hfree hx | finish x hat hnot hfree hx =>
      refine AllGuarded.acquire h (some k) (point_officer rfl rfl) hfree (owners_lock rfl rfl) ?_
      intro j hj hx
      cases j
      all_goals simp_all
  | await x helped hat hx | pause x hat hx | close x hat hx =>
      refine AllGuarded.release h (some k) (point_officer rfl rfl) (by simp [hpoint, hat])
        (by simp [hx]) (owners_lock rfl rfl) ?_
      intro j hj hx
      cases j
      all_goals simp_all
  | take x helped hat hx =>
      refine AllGuarded.keep h (point_officer (Function.update_idem ..) rfl) (owners_same rfl rfl) ?_
      intro j hx
      cases j
      all_goals simp_all
  | mark x i hat hcount hi hx | drop x i b hat hb hx | record x i b hat hb hx
  | inform x i hat hcount hx =>
      refine AllGuarded.keep h (point_officer rfl rfl) (owners_same rfl rfl) ?_
      intro j hx
      cases j
      all_goals simp_all

end Locks

end Counters
end Airport
end Nachos
