import Mathlib.Logic.Function.Basic
import Nachos.Airport.Liaisons

/-!
# The security inspectors of `threads/threadtest.cc`

The fourth part of `Passenger::ChooseLiaisonLine`, and `SecurityOfficer::DoWork`.  A passenger
counts itself in the line of its inspector, waits until it is called, and leaves its name in
`SecPInfo`; the inspector looks its screening up and lets it pass or sends it to further
questioning, from which it comes back to the same inspector.

`SecPInfo` comes from `new` and is not set before the first passenger.  The inspector reads it
after its second `Wait`, and the only passenger that signals without having left its name is one
that finds the line empty: so it takes two such passengers to get an inspector that far, and the
first of them leaves its name before it leaves the line.

`SecurityAvailability` decides nothing here, and nobody waits in `SecurityLineCV`; both are left
out.
-/

namespace Nachos
namespace Airport

open Lib

/-- Where a passenger is on its way through the fourth part of `ChooseLiaisonLine`; `k` is its
`myLine`, and `again` says that it has been at the questioning. -/
inductive SecurityVisit
  /-- Before `SecurityLines->Acquire()`, and behind it. -/
  | arriving
  | lining (k : Nat)
  /-- Behind the test of the line, before `SecurityLocks[k]->Acquire()`. -/
  | stepping (k : Nat)
  /-- Before `SecurityLines->Release()`, and behind it. -/
  | entering (k : Nat) (again : Bool)
  | entered (k : Nat) (again : Bool)
  /-- In the `Wait` for the inspector, and behind it. -/
  | inLine (k : Nat) (again : Bool)
  | called (k : Nat) (again : Bool)
  /-- Behind the `Signal` that it has come, in the `Wait` and behind it. -/
  | named (k : Nat) (again : Bool)
  | examined (k : Nat) (again : Bool)
  | judged (k : Nat) (again : Bool)
  /-- Before `SecurityLines->Acquire()` and behind it, with `NotTerrorist`; behind the `Signal` that
  it leaves, and behind `SecurityLocks[k]->Release()`. -/
  | parting (k : Nat) (passed : Bool)
  | leaving (k : Nat) (passed : Bool)
  | released (k : Nat) (passed : Bool)
  | departing (k : Nat) (passed : Bool)
  /-- At the questioning, behind `SecurityLines->Acquire()` and `SecurityAvail->Acquire()`. -/
  | questioned (k : Nat)
  | returning (k : Nat)
  | relining (k : Nat)
  /-- Before `SecurityLocks[k]->Acquire()`, and behind it. -/
  | backing (k : Nat)
  | back (k : Nat)
  /-- In the `Wait` of the `else` branch, and behind it. -/
  | lingering (k : Nat)
  | roused (k : Nat)
  | left
  deriving DecidableEq, Repr

/-- Where an inspector is in `DoWork`. -/
inductive InspectorPoint
  /-- Before `SecurityLines->Acquire()`, behind it, behind `SecurityLocks[number]->Acquire()` and
  behind `SecurityAvail->Acquire()`. -/
  | beginning
  | lining
  | locking
  | checking
  /-- Before `SecurityLines->Release()`, before `SecurityAvail->Release()` and behind it. -/
  | checked
  | freeing
  | ready
  /-- In the first `Wait`, and behind it. -/
  | expecting
  | woken
  /-- Behind the `Signal`, in the second `Wait` and behind it. -/
  | greeting
  | attending
  | examining
  /-- Behind the `Signal` to the passenger, in the third `Wait` and behind it. -/
  | dismissing
  | parting
  | closing
  deriving DecidableEq, Repr

namespace SecurityVisit

/-- The line that a passenger is in. -/
def line : SecurityVisit → Option Nat
  | arriving | left => none
  | lining k | stepping k | entering k _ | entered k _ | inLine k _ | called k _ | named k _
  | examined k _ | judged k _ | parting k _ | leaving k _ | released k _ | departing k _
  | questioned k | returning k | relining k | backing k | back k | lingering k | roused k => some k

/-- The passenger has left its name with an inspector. -/
def hasNamed : SecurityVisit → Bool
  | arriving | lining _ | stepping _ => false
  | entering _ again | entered _ again | inLine _ again | called _ again => again
  | _ => true

end SecurityVisit

namespace InspectorPoint

/-- The points behind the second `Wait`. -/
def hasHeard : InspectorPoint → Bool
  | examining | dismissing | parting | closing => true
  | _ => false

/-- The points behind the first `Wait`, up to the end of the second. -/
def isUp : InspectorPoint → Bool
  | woken | greeting | attending => true
  | _ => false

end InspectorPoint

/-- The threads. -/
inductive SecurityThread (n : Nat)
  | passenger (p : Fin n)
  | inspector (k : Nat)
  deriving DecidableEq, Repr

/-- `SecPInfo`. -/
structure SecurityPassengerInfo where
  passedSecurity : Bool
  questioning : Bool
  passenger : Nat
  /-- A passenger has left its name, which the program does not keep. -/
  isSet : Bool
  deriving DecidableEq, Repr

/-- The globals that the fourth part of `ChooseLiaisonLine` and the inspectors use.  In
`SecurityOfficerCV[k]` wait passengers, and inspector `k` itself, which is `none` here. -/
structure Security (n : Nat) where
  securityLines : Option (SecurityThread n)
  securityAvail : Option (SecurityThread n)
  securityLine : Nat → Int
  securityLocks : Nat → Option (SecurityThread n)
  securityOfficerCV : Nat → List (Option (Fin n))
  secPInfo : Nat → SecurityPassengerInfo
  passedPassengers : Nat → Nat
  passenger : Fin n → SecurityVisit
  inspector : Nat → InspectorPoint

namespace Security

variable {n : Nat}

/-- The lines as `setup` leaves them; `unset` is what lies in `SecPInfo`. -/
def start (n : Nat) (unset : Nat → SecurityPassengerInfo) : Security n where
  securityLines := none
  securityAvail := none
  securityLine := fun _ => 0
  securityLocks := fun _ => none
  securityOfficerCV := fun _ => []
  secPInfo := fun k => { unset k with isSet := false }
  passedPassengers := fun _ => 0
  passenger := fun _ => .arriving
  inspector := fun _ => .beginning

/-- A passenger goes on to another point. -/
def go (s : Security n) (p : Fin n) (q : SecurityVisit) : Security n :=
  { s with passenger := Function.update s.passenger p q }

/-- An inspector goes on to another point. -/
def post (s : Security n) (k : Nat) (q : InspectorPoint) : Security n :=
  { s with inspector := Function.update s.inspector k q }

/-- `SecurityLines->Acquire()`. -/
def acquireLines (s : Security n) (t : SecurityThread n) : Except Stop (Security n) :=
  if s.securityLines = none ∨ s.securityLines = some t then .ok { s with securityLines := some t }
  else .error .blocked

/-- `SecurityLines->Release()`. -/
def releaseLines (s : Security n) : Security n := { s with securityLines := none }

/-- `SecurityAvail->Acquire()`. -/
def acquireAvail (s : Security n) (t : SecurityThread n) : Except Stop (Security n) :=
  if s.securityAvail = none ∨ s.securityAvail = some t then .ok { s with securityAvail := some t }
  else .error .blocked

/-- `SecurityAvail->Release()`. -/
def releaseAvail (s : Security n) : Security n := { s with securityAvail := none }

/-- `SecurityLocks[k]->Acquire()`. -/
def acquireLock (s : Security n) (k : Nat) (t : SecurityThread n) : Except Stop (Security n) :=
  if s.securityLocks k = none ∨ s.securityLocks k = some t then
    .ok { s with securityLocks := Function.update s.securityLocks k (some t) }
  else .error .blocked

/-- `SecurityLocks[k]->Release()`. -/
def releaseLock (s : Security n) (k : Nat) : Security n :=
  { s with securityLocks := Function.update s.securityLocks k none }

/-- `SecurityOfficerCV[k]->Signal(SecurityLocks[k])`. -/
def signal (s : Security n) (k : Nat) : Security n :=
  { s with
    securityOfficerCV := Function.update s.securityOfficerCV k (s.securityOfficerCV k).tail }

/-- `SecurityOfficerCV[k]->Wait(SecurityLocks[k])` up to the sleep; `w` is who waits. -/
def wait (s : Security n) (k : Nat) (w : Option (Fin n)) : Security n :=
  { s.releaseLock k with
    securityOfficerCV := Function.update s.securityOfficerCV k (s.securityOfficerCV k ++ [w]) }

/-- The end of the `Wait`. -/
def resume (s : Security n) (k : Nat) (w : Option (Fin n)) (t : SecurityThread n) :
    Except Stop (Security n) :=
  if w ∈ s.securityOfficerCV k then .error .blocked else s.acquireLock k t

/-- The line of an inspector gets longer by `d`. -/
def lengthen (s : Security n) (k : Nat) (d : Int) : Security n :=
  { s with securityLine := Function.update s.securityLine k (s.securityLine k + d) }

/-- A passenger leaves its name with an inspector. -/
def leaveName (s : Security n) (p : Fin n) (k : Nat) (again : Bool) : Security n :=
  { s with
    secPInfo := Function.update s.secPInfo k ⟨(s.secPInfo k).passedSecurity, again, p.val, true⟩ }

/-- A step of a passenger; `line` is the inspector to whom it has been directed. -/
def passengerStep (line : Nat) (p : Fin n) (s : Security n) : Except Stop (Security n) :=
  let self : SecurityThread n := .passenger p
  match s.passenger p with
  | .arriving => do .ok ((← s.acquireLines self).go p (.lining line))
  | .lining k =>
      let t := s.lengthen k 1
      .ok ((if t.securityLine k = 1 then t.signal k else t).go p (.stepping k))
  | .stepping k => do .ok ((← s.acquireLock k self).go p (.entering k false))
  | .entering k again => .ok (s.releaseLines.go p (.entered k again))
  | .entered k again => .ok ((s.wait k (some p)).go p (.inLine k again))
  | .inLine k again => do .ok ((← s.resume k (some p) self).go p (.called k again))
  | .called k again => .ok (((s.leaveName p k again).signal k).go p (.named k again))
  | .named k again => .ok ((s.wait k (some p)).go p (.examined k again))
  | .examined k again => do .ok ((← s.resume k (some p) self).go p (.judged k again))
  | .judged k again =>
      -- whoever has been at the questioning does not look at `PassedSecurity`
      .ok (s.go p (.parting k (again || (s.secPInfo k).passedSecurity)))
  | .parting k passed => do .ok ((← s.acquireLines self).go p (.leaving k passed))
  | .leaving k passed => .ok (((s.lengthen k (-1)).signal k).go p (.released k passed))
  | .released k passed => .ok ((s.releaseLock k).go p (.departing k passed))
  | .departing k passed => .ok (s.releaseLines.go p (if passed then .left else .questioned k))
  | .questioned k => do .ok ((← s.acquireLines self).go p (.returning k))
  | .returning k => do .ok ((← s.acquireAvail self).go p (.relining k))
  | .relining k => .ok ((s.lengthen k 1).releaseAvail.go p (.backing k))
  | .backing k => do .ok ((← s.acquireLock k self).go p (.back k))
  | .back k =>
      if s.securityLine k = 1 then .ok ((s.signal k).go p (.entering k true))
      else .ok ((s.wait k (some p)).go p (.lingering k))
  | .lingering k => do .ok ((← s.resume k (some p) self).go p (.roused k))
  | .roused k => .ok ((s.signal k).go p (.entering k true))
  | .left => .error .finished

/-- An inspector judges the passenger whose name it has. -/
def judge (s : Security n) (k : Nat) (screeningResult : Nat → Bool) (securityPass : Bool) :
    Security n :=
  let info := s.secPInfo k
  let totalPass := info.questioning || (screeningResult info.passenger && securityPass)
  { s with
    secPInfo :=
      if info.questioning then s.secPInfo
      else Function.update s.secPInfo k ⟨totalPass, info.questioning, info.passenger, info.isSet⟩
    passedPassengers := Function.update s.passedPassengers k
      (s.passedPassengers k + if totalPass then 1 else 0) }

/-- A step of an inspector; `securityPass` is what it draws. -/
def inspectorStep (screeningResult : Nat → Bool) (securityPass : Bool) (k : Nat) (s : Security n) :
    Except Stop (Security n) :=
  let self : SecurityThread n := .inspector k
  match s.inspector k with
  | .beginning => do .ok ((← s.acquireLines self).post k .lining)
  | .lining => do .ok ((← s.acquireLock k self).post k .locking)
  | .locking => do .ok ((← s.acquireAvail self).post k .checking)
  | .checking => .ok (s.post k .checked)
  | .checked => .ok (s.releaseLines.post k .freeing)
  | .freeing => .ok (s.releaseAvail.post k .ready)
  | .ready => .ok ((s.wait k none).post k .expecting)
  | .expecting => do .ok ((← s.resume k none self).post k .woken)
  | .woken => .ok ((s.signal k).post k .greeting)
  | .greeting => .ok ((s.wait k none).post k .attending)
  | .attending => do .ok ((← s.resume k none self).post k .examining)
  | .examining => .ok (((s.judge k screeningResult securityPass).signal k).post k .dismissing)
  | .dismissing => .ok ((s.wait k none).post k .parting)
  | .parting => do .ok ((← s.resume k none self).post k .closing)
  | .closing => .ok ((s.releaseLock k).post k .beginning)

section Moves

variable {s s' : Security n} {p : Fin n} {k : Nat}

/-- The lines, their queues and `SecPInfo` are as they were. -/
structure Same (s s' : Security n) : Prop where
  line : s'.securityLine = s.securityLine
  queue : s'.securityOfficerCV = s.securityOfficerCV
  info : s'.secPInfo = s.secPInfo

theorem acquireLines_same {t : SecurityThread n} (h : s.acquireLines t = .ok s') :
    s.Same s' ∧ s'.passenger = s.passenger ∧ s'.inspector = s.inspector := by
  unfold acquireLines at h
  split at h
  · obtain rfl := Except.ok.inj h
    exact ⟨⟨rfl, rfl, rfl⟩, rfl, rfl⟩
  · exact absurd h (by simp)

theorem acquireAvail_same {t : SecurityThread n} (h : s.acquireAvail t = .ok s') :
    s.Same s' ∧ s'.passenger = s.passenger ∧ s'.inspector = s.inspector := by
  unfold acquireAvail at h
  split at h
  · obtain rfl := Except.ok.inj h
    exact ⟨⟨rfl, rfl, rfl⟩, rfl, rfl⟩
  · exact absurd h (by simp)

theorem acquireLock_same {t : SecurityThread n} (h : s.acquireLock k t = .ok s') :
    s.Same s' ∧ s'.passenger = s.passenger ∧ s'.inspector = s.inspector := by
  unfold acquireLock at h
  split at h
  · obtain rfl := Except.ok.inj h
    exact ⟨⟨rfl, rfl, rfl⟩, rfl, rfl⟩
  · exact absurd h (by simp)

theorem resume_same {w : Option (Fin n)} {t : SecurityThread n} (h : s.resume k w t = .ok s') :
    w ∉ s.securityOfficerCV k ∧ s.Same s' ∧ s'.passenger = s.passenger ∧
      s'.inspector = s.inspector := by
  unfold resume at h
  split at h
  · exact absurd h (by simp)
  · rename_i hnot
    exact ⟨hnot, acquireLock_same h⟩

/-- What a step of a passenger does to the lines. -/
inductive PassengerMove (s : Security n) (line : Nat) (p : Fin n) : Security n → Prop
  | aside (q : SecurityVisit) (s' : Security n) (hsame : s.Same s')
      (hpassenger : s'.passenger = Function.update s.passenger p q)
      (hinspector : s'.inspector = s.inspector)
      (hq : q.line = none ∨ q = .lining line ∨
        (q.line = (s.passenger p).line ∧ q.hasNamed = (s.passenger p).hasNamed)) :
      PassengerMove s line p s'
  | join (k : Nat) (hat : s.passenger p = .lining k) :
      PassengerMove s line p
        ((if (s.lengthen k 1).securityLine k = 1 then (s.lengthen k 1).signal k
          else s.lengthen k 1).go p (.stepping k))
  | sleep (k : Nat) (q : SecurityVisit) (hat : (s.passenger p).line = some k)
      (hq : q.line = some k ∧ q.hasNamed = (s.passenger p).hasNamed) :
      PassengerMove s line p ((s.wait k (some p)).go p q)
  | name (k : Nat) (again : Bool) (hat : s.passenger p = .called k again) :
      PassengerMove s line p (((s.leaveName p k again).signal k).go p (.named k again))
  | leave (k : Nat) (passed : Bool) (hat : s.passenger p = .leaving k passed) :
      PassengerMove s line p (((s.lengthen k (-1)).signal k).go p (.released k passed))
  | rejoin (k : Nat) (hat : s.passenger p = .relining k) :
      PassengerMove s line p ((s.lengthen k 1).releaseAvail.go p (.backing k))
  | signal (k : Nat) (hat : s.passenger p = .back k ∨ s.passenger p = .roused k) :
      PassengerMove s line p ((s.signal k).go p (.entering k true))

theorem passengerStep_move {line : Nat} (hstep : passengerStep line p s = .ok s') :
    PassengerMove s line p s' := by
  -- a step that takes a lock
  have htake : ∀ {t u : Security n} {q : SecurityVisit},
      s.Same t ∧ t.passenger = s.passenger ∧ t.inspector = s.inspector →
      (q.line = none ∨ q = .lining line ∨
        (q.line = (s.passenger p).line ∧ q.hasNamed = (s.passenger p).hasNamed)) →
      Except.ok (t.go p q) = (Except.ok u : Except Stop (Security n)) →
      PassengerMove s line p u := by
    rintro t u q ⟨hsame, hpassenger, hinspector⟩ hq hu
    obtain rfl := Except.ok.inj hu
    exact .aside q _ ⟨hsame.line, hsame.queue, hsame.info⟩ (by rw [go, hpassenger]) hinspector hq
  unfold passengerStep at hstep
  cases hat : s.passenger p
  all_goals simp only [hat] at hstep
  case arriving =>
    obtain ⟨t, ht, hs'⟩ := bind_eq_ok hstep
    exact htake (acquireLines_same ht) (Or.inr (Or.inl rfl)) hs'
  case lining k =>
    obtain rfl := Except.ok.inj hstep
    exact .join k hat
  case stepping k | backing k =>
    obtain ⟨t, ht, hs'⟩ := bind_eq_ok hstep
    exact htake (acquireLock_same ht) (Or.inr (Or.inr (by rw [hat]; exact ⟨rfl, rfl⟩))) hs'
  case inLine k again | examined k again | lingering k =>
    obtain ⟨t, ht, hs'⟩ := bind_eq_ok hstep
    exact htake (resume_same ht).2 (Or.inr (Or.inr (by rw [hat]; exact ⟨rfl, rfl⟩))) hs'
  case parting k passed | questioned k =>
    obtain ⟨t, ht, hs'⟩ := bind_eq_ok hstep
    exact htake (acquireLines_same ht) (Or.inr (Or.inr (by rw [hat]; exact ⟨rfl, rfl⟩))) hs'
  case returning k =>
    obtain ⟨t, ht, hs'⟩ := bind_eq_ok hstep
    exact htake (acquireAvail_same ht) (Or.inr (Or.inr (by rw [hat]; exact ⟨rfl, rfl⟩))) hs'
  case entering k again | judged k again | released k passed =>
    obtain rfl := Except.ok.inj hstep
    exact .aside _ _ ⟨rfl, rfl, rfl⟩ rfl rfl (Or.inr (Or.inr (by rw [hat]; exact ⟨rfl, rfl⟩)))
  case departing k passed =>
    obtain rfl := Except.ok.inj hstep
    refine .aside _ _ ⟨rfl, rfl, rfl⟩ rfl rfl ?_
    cases passed with
    | true => exact Or.inl rfl
    | false => exact Or.inr (Or.inr (by rw [hat]; exact ⟨rfl, rfl⟩))
  case entered k again | named k again =>
    obtain rfl := Except.ok.inj hstep
    exact .sleep k _ (by rw [hat]; rfl) (by rw [hat]; exact ⟨rfl, rfl⟩)
  case called k again =>
    obtain rfl := Except.ok.inj hstep
    exact .name k again hat
  case leaving k passed =>
    obtain rfl := Except.ok.inj hstep
    exact .leave k passed hat
  case relining k =>
    obtain rfl := Except.ok.inj hstep
    exact .rejoin k hat
  case back k =>
    split at hstep
    · obtain rfl := Except.ok.inj hstep
      exact .signal k (Or.inl hat)
    · obtain rfl := Except.ok.inj hstep
      exact .sleep k _ (by rw [hat]; rfl) (by rw [hat]; exact ⟨rfl, rfl⟩)
  case roused k =>
    obtain rfl := Except.ok.inj hstep
    exact .signal k (Or.inr hat)
  case left => exact absurd hstep (by simp)

/-- What a step of an inspector does to the lines. -/
inductive InspectorMove (s : Security n) (k : Nat) : Security n → Prop
  | aside (q : InspectorPoint) (s' : Security n) (hsame : s.Same s')
      (hpassenger : s'.passenger = s.passenger)
      (hinspector : s'.inspector = Function.update s.inspector k q)
      (hq : q.isUp = false ∧ q ≠ .expecting ∧
        (q.hasHeard = true → (s.inspector k).hasHeard = true)) : InspectorMove s k s'
  | rest (hat : s.inspector k = .ready) : InspectorMove s k ((s.wait k none).post k .expecting)
  | wake (s' : Security n) (hat : s.inspector k = .expecting)
      (hnot : none ∉ s.securityOfficerCV k) (hsame : s.Same s')
      (hpassenger : s'.passenger = s.passenger)
      (hinspector : s'.inspector = Function.update s.inspector k .woken) : InspectorMove s k s'
  | greet (hat : s.inspector k = .woken) : InspectorMove s k ((s.signal k).post k .greeting)
  | await (hat : s.inspector k = .greeting) :
      InspectorMove s k ((s.wait k none).post k .attending)
  | hear (s' : Security n) (hat : s.inspector k = .attending)
      (hnot : none ∉ s.securityOfficerCV k) (hpassenger : s'.passenger = s.passenger)
      (hsame : s.Same s') (hinspector : s'.inspector = Function.update s.inspector k .examining) :
      InspectorMove s k s'
  | judge (screeningResult : Nat → Bool) (securityPass : Bool) (hat : s.inspector k = .examining) :
      InspectorMove s k
        (((s.judge k screeningResult securityPass).signal k).post k .dismissing)
  | dismiss (hat : s.inspector k = .dismissing) :
      InspectorMove s k ((s.wait k none).post k .parting)

theorem inspectorStep_move {screeningResult : Nat → Bool} {securityPass : Bool}
    (hstep : inspectorStep screeningResult securityPass k s = .ok s') : InspectorMove s k s' := by
  -- a step that takes a lock
  have htake : ∀ {t u : Security n} {q : InspectorPoint},
      s.Same t ∧ t.passenger = s.passenger ∧ t.inspector = s.inspector →
      q.isUp = false ∧ q ≠ .expecting ∧ (q.hasHeard = true → (s.inspector k).hasHeard = true) →
      Except.ok (t.post k q) = (Except.ok u : Except Stop (Security n)) →
      InspectorMove s k u := by
    rintro t u q ⟨hsame, hpassenger, hinspector⟩ hq hu
    obtain rfl := Except.ok.inj hu
    exact .aside q _ ⟨hsame.line, hsame.queue, hsame.info⟩ hpassenger
      (by rw [post, hinspector]) hq
  unfold inspectorStep at hstep
  cases hat : s.inspector k
  all_goals simp only [hat] at hstep
  case beginning =>
    obtain ⟨t, ht, hs'⟩ := bind_eq_ok hstep
    exact htake (acquireLines_same ht) ⟨rfl, by simp, by simp [InspectorPoint.hasHeard]⟩ hs'
  case lining =>
    obtain ⟨t, ht, hs'⟩ := bind_eq_ok hstep
    exact htake (acquireLock_same ht) ⟨rfl, by simp, by simp [InspectorPoint.hasHeard]⟩ hs'
  case locking =>
    obtain ⟨t, ht, hs'⟩ := bind_eq_ok hstep
    exact htake (acquireAvail_same ht) ⟨rfl, by simp, by simp [InspectorPoint.hasHeard]⟩ hs'
  case checking | checked | freeing | closing =>
    obtain rfl := Except.ok.inj hstep
    exact .aside _ _ ⟨rfl, rfl, rfl⟩ rfl rfl ⟨rfl, by simp, by simp [InspectorPoint.hasHeard]⟩
  case ready =>
    obtain rfl := Except.ok.inj hstep
    exact .rest hat
  case expecting =>
    obtain ⟨t, ht, hs'⟩ := bind_eq_ok hstep
    obtain rfl := Except.ok.inj hs'
    obtain ⟨hnot, hsame, hpassenger, hinspector⟩ := resume_same ht
    exact .wake _ hat hnot ⟨hsame.line, hsame.queue, hsame.info⟩ hpassenger
      (by rw [post, hinspector])
  case woken =>
    obtain rfl := Except.ok.inj hstep
    exact .greet hat
  case greeting =>
    obtain rfl := Except.ok.inj hstep
    exact .await hat
  case attending =>
    obtain ⟨t, ht, hs'⟩ := bind_eq_ok hstep
    obtain rfl := Except.ok.inj hs'
    obtain ⟨hnot, hsame, hpassenger, hinspector⟩ := resume_same ht
    exact .hear _ hat hnot hpassenger ⟨hsame.line, hsame.queue, hsame.info⟩
      (by rw [post, hinspector])
  case examining =>
    obtain rfl := Except.ok.inj hstep
    exact .judge _ _ hat
  case dismissing =>
    obtain rfl := Except.ok.inj hstep
    exact .dismiss hat
  case parting =>
    obtain ⟨t, ht, hs'⟩ := bind_eq_ok hstep
    exact htake (resume_same ht).2 ⟨rfl, by simp, fun _ => by rw [hat]; rfl⟩ hs'

end Moves

section Names

/-- Whoever has been heard has left its name, and while there is no name the inspector has not been
woken from its second `Wait`. -/
structure Heard (s : Security n) : Prop where
  named : ∀ p k, (s.passenger p).line = some k → (s.passenger p).hasNamed = true →
    (s.secPInfo k).isSet = true
  range : ∀ k, (s.secPInfo k).isSet = true → (s.secPInfo k).passenger < n
  unheard : ∀ k, (s.secPInfo k).isSet = false → (s.inspector k).hasHeard = false
  line : ∀ k, (s.secPInfo k).isSet = false → (s.inspector k).isUp = true ∨
    (s.inspector k = .expecting ∧ none ∉ s.securityOfficerCV k) → 0 < s.securityLine k
  asleep : ∀ k, (s.secPInfo k).isSet = false → s.inspector k = .attending →
    none ∈ s.securityOfficerCV k

theorem heard_start (n : Nat) (unset : Nat → SecurityPassengerInfo) :
    (start n unset).Heard where
  named := fun p k hline => by simp [start, SecurityVisit.line] at hline
  range := fun k hset => by simp [start] at hset
  unheard := fun k _ => rfl
  line := fun k _ hup => by simp [start, InspectorPoint.isUp] at hup
  asleep := fun k _ hat => by simp [start] at hat

variable {s s' : Security n} {p : Fin n} {k : Nat}

/-- A passenger goes on, and no inspector that has heard no name misses anything: its line does not
get shorter, and it is woken only if the line was empty. -/
theorem Heard.go (h : s.Heard) {q : SecurityVisit}
    (hpassenger : s'.passenger = Function.update s.passenger p q)
    (hinspector : s'.inspector = s.inspector) (hinfo : s'.secPInfo = s.secPInfo)
    (hq : ∀ k, q.line = some k → q.hasNamed = true → (s.secPInfo k).isSet = true)
    (hline : ∀ k, (s.secPInfo k).isSet = false → s.securityLine k ≤ s'.securityLine k)
    (hqueue : ∀ k, (s.secPInfo k).isSet = false →
      (none ∈ s.securityOfficerCV k → none ∈ s'.securityOfficerCV k) ∨
        (s.securityLine k ≤ 0 ∧ 0 < s'.securityLine k)) : s'.Heard where
  named := by
    intro u k hk hnamed
    rw [hinfo]
    by_cases hu : u = p
    · subst hu
      rw [hpassenger, Function.update_self] at hk hnamed
      exact hq k hk hnamed
    · rw [hpassenger, Function.update_of_ne hu] at hk hnamed
      exact h.named u k hk hnamed
  range := by
    rw [hinfo]
    exact h.range
  unheard := by
    rw [hinfo, hinspector]
    exact h.unheard
  line := by
    rw [hinfo, hinspector]
    rintro k hunset (hup | ⟨hat, hnot⟩)
    · exact lt_of_lt_of_le (h.line k hunset (Or.inl hup)) (hline k hunset)
    · rcases hqueue k hunset with hkeep | ⟨-, hpos⟩
      · have hpos := h.line k hunset (Or.inr ⟨hat, mt hkeep hnot⟩)
        exact lt_of_lt_of_le hpos (hline k hunset)
      · exact hpos
  asleep := by
    rw [hinfo, hinspector]
    intro k hunset hat
    rcases hqueue k hunset with hkeep | ⟨hempty, -⟩
    · exact hkeep (h.asleep k hunset hat)
    · -- somebody is in the line of an inspector that has been woken once
      have hpos := h.line k hunset (Or.inl (by rw [hat]; rfl))
      omega

/-- A passenger that has left its name with inspector `k` does something there. -/
theorem Heard.at_desk (h : s.Heard) {q : SecurityVisit} (hat : (s.passenger p).line = some k)
    (hnamed : (s.passenger p).hasNamed = true)
    (hpassenger : s'.passenger = Function.update s.passenger p q)
    (hinspector : s'.inspector = s.inspector) (hinfo : s'.secPInfo = s.secPInfo)
    (hq : q.line = some k)
    (hline : ∀ j, j ≠ k → s'.securityLine j = s.securityLine j)
    (hqueue : ∀ j, j ≠ k → s'.securityOfficerCV j = s.securityOfficerCV j) : s'.Heard := by
  have hset := h.named p k hat hnamed
  have hother : ∀ j, (s.secPInfo j).isSet = false → j ≠ k := by
    rintro j hunset rfl
    rw [hset] at hunset
    exact absurd hunset (by simp)
  refine h.go hpassenger hinspector hinfo (fun j hj _ => ?_) (fun j hunset => ?_)
    fun j hunset => Or.inl ?_
  · rw [hq] at hj
    rw [← Option.some.inj hj]
    exact hset
  · rw [hline j (hother j hunset)]
  · rw [hqueue j (hother j hunset)]
    exact id

/-- A passenger joins the line, and wakes the inspector only if nobody else is there. -/
theorem Heard.join (h : s.Heard) (k : Nat) :
    ((if (s.lengthen k 1).securityLine k = 1 then (s.lengthen k 1).signal k
      else s.lengthen k 1).go p (.stepping k)).Heard := by
  have hlength : ∀ j, s.securityLine j ≤ (s.lengthen k 1).securityLine j := by
    intro j
    by_cases hj : j = k
    · subst hj
      simp only [lengthen, Function.update_self]
      omega
    · simp [lengthen, hj]
  have hnew : (s.lengthen k 1).securityLine k = s.securityLine k + 1 := by
    simp [lengthen]
  split
  · rename_i hone
    refine h.go (q := .stepping k) rfl rfl rfl (by simp [SecurityVisit.hasNamed])
      (fun j _ => hlength j) fun j _ => ?_
    by_cases hj : j = k
    · subst hj
      refine Or.inr ⟨by omega, ?_⟩
      change 0 < (s.lengthen j 1).securityLine j
      omega
    · refine Or.inl ?_
      simp [Security.go, Security.signal, lengthen, hj]
  · exact h.go (q := .stepping k) rfl rfl rfl (by simp [SecurityVisit.hasNamed])
      (fun j _ => hlength j) fun j _ => Or.inl id

/-- A passenger leaves its name. -/
theorem Heard.name (h : s.Heard) {again : Bool} (hat : s.passenger p = .called k again) :
    (((s.leaveName p k again).signal k).go p (.named k again)).Heard := by
  have hinfo : ∀ j, j ≠ k → (((s.leaveName p k again).signal k).go p (.named k again)).secPInfo j =
      s.secPInfo j := fun j hj => by simp [Security.go, Security.signal, leaveName, hj]
  have hset : (((s.leaveName p k again).signal k).go p (.named k again)).secPInfo k =
      ⟨(s.secPInfo k).passedSecurity, again, p.val, true⟩ := by
    simp [Security.go, Security.signal, leaveName]
  have hqueue : ∀ j, j ≠ k →
      (((s.leaveName p k again).signal k).go p (.named k again)).securityOfficerCV j =
        s.securityOfficerCV j := fun j hj => by simp [Security.go, Security.signal, leaveName, hj]
  have hother : ∀ j, ((((s.leaveName p k again).signal k).go p
      (.named k again)).secPInfo j).isSet = false → j ≠ k ∧ (s.secPInfo j).isSet = false := by
    intro j hunset
    have hj : j ≠ k := by
      rintro rfl
      rw [hset] at hunset
      exact absurd hunset (by simp)
    rw [hinfo j hj] at hunset
    exact ⟨hj, hunset⟩
  refine ⟨fun u j hj hnamed => ?_, fun j hj => ?_, fun j hunset => ?_, fun j hunset hup => ?_,
    fun j hunset hat => ?_⟩
  · by_cases hjk : j = k
    · rw [hjk, hset]
    · rw [hinfo j hjk]
      by_cases hu : u = p
      · subst hu
        simp only [Security.go, Function.update_self, SecurityVisit.line, Option.some.injEq] at hj
        exact absurd hj.symm hjk
      · simp only [Security.go, Function.update_of_ne hu] at hj hnamed
        exact h.named u j hj hnamed
  · by_cases hjk : j = k
    · rw [hjk, hset]
      exact p.isLt
    · rw [hinfo j hjk] at hj ⊢
      exact h.range j hj
  · exact h.unheard j (hother j hunset).2
  · obtain ⟨hj, hbefore⟩ := hother j hunset
    rw [hqueue j hj] at hup
    exact h.line j hbefore hup
  · obtain ⟨hj, hbefore⟩ := hother j hunset
    rw [hqueue j hj]
    exact h.asleep j hbefore hat

theorem Heard.passenger (h : s.Heard) {line : Nat} (hmove : PassengerMove s line p s') :
    s'.Heard := by
  cases hmove with
  | aside q s' hsame hpassenger hinspector hq =>
      refine h.go hpassenger hinspector hsame.info (fun k hk hnamed => ?_)
        (fun k _ => by rw [hsame.line]) fun k _ => Or.inl (by rw [hsame.queue]; exact id)
      rcases hq with hnone | rfl | ⟨hline, hsame⟩
      · rw [hnone] at hk
        exact absurd hk (by simp)
      · exact absurd hnamed (by simp [SecurityVisit.hasNamed])
      · exact h.named p k (hline ▸ hk) (hsame ▸ hnamed)
  | join k hat => exact h.join k
  | sleep k q hat hq =>
      refine h.go rfl rfl rfl (fun j hj hnamed => ?_) (fun _ _ => le_refl _) fun j _ => Or.inl ?_
      · rw [hq.1] at hj
        rw [hq.2] at hnamed
        exact h.named p j (hat.trans hj) hnamed
      · by_cases hj : j = k
        · subst hj
          simp only [Security.go, Security.wait, Function.update_self, List.mem_append]
          exact Or.inl
        · simp [Security.go, Security.wait, hj]
  | name k again hat => exact h.name hat
  | leave k passed hat =>
      refine h.at_desk (k := k) (by rw [hat]; rfl) (by rw [hat]; rfl) rfl rfl rfl rfl
        (fun j hj => ?_) fun j hj => ?_
      all_goals simp [Security.go, Security.signal, lengthen, hj]
  | rejoin k hat =>
      refine h.at_desk (k := k) (by rw [hat]; rfl) (by rw [hat]; rfl) rfl rfl rfl rfl
        (fun j hj => ?_) fun j hj => ?_
      all_goals simp [Security.go, releaseAvail, lengthen, hj]
  | signal k hat =>
      have hline : (s.passenger p).line = some k ∧ (s.passenger p).hasNamed = true := by
        rcases hat with hat | hat
        all_goals
          rw [hat]
          exact ⟨rfl, rfl⟩
      refine h.at_desk hline.1 hline.2 rfl rfl rfl rfl (fun j hj => rfl) fun j hj => ?_
      simp [Security.go, Security.signal, hj]

/-- An inspector goes on. -/
theorem Heard.post (h : s.Heard) {q : InspectorPoint} (hpassenger : s'.passenger = s.passenger)
    (hinspector : s'.inspector = Function.update s.inspector k q)
    (hline : s'.securityLine = s.securityLine)
    (hqueue : ∀ j, j ≠ k → s'.securityOfficerCV j = s.securityOfficerCV j)
    (hset : ∀ j, (s'.secPInfo j).isSet = (s.secPInfo j).isSet ∧
      (s'.secPInfo j).passenger = (s.secPInfo j).passenger)
    (hheard : (s.secPInfo k).isSet = false → q.hasHeard = false)
    (hup : (s.secPInfo k).isSet = false → q.isUp = true ∨
      (q = .expecting ∧ none ∉ s'.securityOfficerCV k) → 0 < s.securityLine k)
    (hasleep : (s.secPInfo k).isSet = false → q = .attending → none ∈ s'.securityOfficerCV k) :
    s'.Heard where
  named := by
    intro u j hj hnamed
    rw [hpassenger] at hj hnamed
    rw [(hset j).1]
    exact h.named u j hj hnamed
  range := by
    intro j hj
    rw [(hset j).1] at hj
    rw [(hset j).2]
    exact h.range j hj
  unheard := by
    intro j hunset
    rw [(hset j).1] at hunset
    by_cases hj : j = k
    · subst hj
      rw [hinspector, Function.update_self]
      exact hheard hunset
    · rw [hinspector, Function.update_of_ne hj]
      exact h.unheard j hunset
  line := by
    intro j hunset hat
    rw [(hset j).1] at hunset
    rw [hline]
    by_cases hj : j = k
    · subst hj
      rw [hinspector, Function.update_self] at hat
      exact hup hunset hat
    · rw [hinspector, Function.update_of_ne hj, hqueue j hj] at hat
      exact h.line j hunset hat
  asleep := by
    intro j hunset hat
    rw [(hset j).1] at hunset
    by_cases hj : j = k
    · subst hj
      rw [hinspector, Function.update_self] at hat
      exact hasleep hunset hat
    · rw [hinspector, Function.update_of_ne hj] at hat
      rw [hqueue j hj]
      exact h.asleep j hunset hat

theorem Heard.inspector (h : s.Heard) (hmove : InspectorMove s k s') : s'.Heard := by
  have hwait : ∀ j, j ≠ k → (s.wait k none).securityOfficerCV j = s.securityOfficerCV j :=
    fun j hj => by simp [Security.wait, hj]
  have hin : none ∈ (s.wait k none).securityOfficerCV k := by
    simp [Security.wait]
  cases hmove with
  | aside q s' hsame hpassenger hinspector hq =>
      refine h.post hpassenger hinspector hsame.line (fun j _ => by rw [hsame.queue])
        (fun j => by rw [hsame.info]; exact ⟨rfl, rfl⟩) (fun hunset => ?_) (fun _ hat => ?_)
        fun _ hat => ?_
      · by_contra hheard
        have hbefore := hq.2.2 (by simpa using hheard)
        rw [h.unheard k hunset] at hbefore
        exact absurd hbefore (by simp)
      · rcases hat with hat | ⟨hat, -⟩
        · rw [hq.1] at hat
          exact absurd hat (by simp)
        · exact absurd hat hq.2.1
      · rw [hat] at hq
        exact absurd hq.1 (by simp [InspectorPoint.isUp])
  | rest hat =>
      refine h.post rfl rfl rfl hwait (fun _ => ⟨rfl, rfl⟩) (fun _ => rfl) (fun _ hup => ?_)
        fun _ habs => absurd habs (by simp)
      rcases hup with hup | ⟨-, hnot⟩
      · exact absurd hup (by simp [InspectorPoint.isUp])
      · exact absurd hin hnot
  | wake s' hat hnot hsame hpassenger hinspector =>
      refine h.post hpassenger hinspector hsame.line (fun j _ => by rw [hsame.queue])
        (fun j => by rw [hsame.info]; exact ⟨rfl, rfl⟩) (fun _ => rfl) (fun hunset _ => ?_)
        fun _ habs => absurd habs (by simp)
      exact h.line k hunset (Or.inr ⟨hat, hnot⟩)
  | greet hat =>
      refine h.post rfl rfl rfl (fun j hj => ?_) (fun _ => ⟨rfl, rfl⟩) (fun _ => rfl)
        (fun hunset _ => ?_) fun _ habs => absurd habs (by simp)
      · simp [Security.post, Security.signal, hj]
      · exact h.line k hunset (Or.inl (by rw [hat]; rfl))
  | await hat =>
      refine h.post rfl rfl rfl hwait (fun _ => ⟨rfl, rfl⟩) (fun _ => rfl) (fun hunset _ => ?_)
        fun _ _ => hin
      exact h.line k hunset (Or.inl (by rw [hat]; rfl))
  | hear s' hat hnot hpassenger hsame hinspector =>
      -- an inspector without a name is still asleep
      have hset : (s.secPInfo k).isSet = true := by
        by_contra hunset
        exact hnot (h.asleep k (by simpa using hunset) hat)
      refine h.post hpassenger hinspector hsame.line (fun j _ => by rw [hsame.queue])
        (fun j => by rw [hsame.info]; exact ⟨rfl, rfl⟩) ?_ ?_ ?_
      all_goals
        rw [hset]
        exact fun habs => absurd habs (by simp)
  | judge screeningResult securityPass hat =>
      have hset : (s.secPInfo k).isSet = true := by
        by_contra hunset
        have hnot := h.unheard k (by simpa using hunset)
        rw [hat] at hnot
        exact absurd hnot (by simp [InspectorPoint.hasHeard])
      refine h.post rfl rfl rfl (fun j hj => ?_) (fun j => ?_) ?_ ?_ ?_
      · simp [Security.post, Security.signal, judge, hj]
      · simp only [Security.post, Security.signal, judge]
        split
        · exact ⟨rfl, rfl⟩
        · by_cases hj : j = k
          · subst hj
            simp
          · simp [hj]
      all_goals
        rw [hset]
        exact fun habs => absurd habs (by simp)
  | dismiss hat =>
      have hset : (s.secPInfo k).isSet = true := by
        by_contra hunset
        have hnot := h.unheard k (by simpa using hunset)
        rw [hat] at hnot
        exact absurd hnot (by simp [InspectorPoint.hasHeard])
      refine h.post rfl rfl rfl hwait (fun _ => ⟨rfl, rfl⟩) ?_ ?_ ?_
      all_goals
        rw [hset]
        exact fun habs => absurd habs (by simp)

/-- The name that an inspector reads is that of a passenger. -/
theorem Heard.name_lt (h : s.Heard) (hat : s.inspector k = .examining) :
    (s.secPInfo k).passenger < n := by
  apply h.range
  by_contra hunset
  have hnot := h.unheard k (by simpa using hunset)
  rw [hat] at hnot
  exact absurd hnot (by simp [InspectorPoint.hasHeard])

/-- A passenger stays in the line that it has joined. -/
theorem PassengerMove.exists_go {line : Nat} (hmove : PassengerMove s line p s') :
    ∃ q, s'.passenger = Function.update s.passenger p q ∧
      (q.line = none ∨ q.line = some line ∨ q.line = (s.passenger p).line) := by
  cases hmove with
  | aside q s' hsame hpassenger hinspector hq =>
      refine ⟨q, hpassenger, hq.imp id (Or.imp ?_ And.left)⟩
      rintro rfl
      rfl
  | join k hat =>
      refine ⟨.stepping k, ?_, Or.inr (Or.inr (by rw [hat]; rfl))⟩
      split
      all_goals rfl
  | sleep k q hat hq => exact ⟨q, rfl, Or.inr (Or.inr (hq.1.trans hat.symm))⟩
  | name k again hat => exact ⟨_, rfl, Or.inr (Or.inr (by rw [hat]; rfl))⟩
  | leave k passed hat => exact ⟨_, rfl, Or.inr (Or.inr (by rw [hat]; rfl))⟩
  | rejoin k hat => exact ⟨_, rfl, Or.inr (Or.inr (by rw [hat]; rfl))⟩
  | signal k hat =>
      refine ⟨_, rfl, Or.inr (Or.inr ?_)⟩
      rcases hat with hat | hat
      all_goals
        rw [hat]
        rfl

theorem InspectorMove.passengers (hmove : InspectorMove s k s') : s'.passenger = s.passenger := by
  cases hmove with
  | aside q s' hsame hpassenger hinspector hq => exact hpassenger
  | wake s' hat hnot hsame hpassenger hinspector => exact hpassenger
  | hear s' hat hnot hpassenger hsame hinspector => exact hpassenger
  | _ => rfl

end Names

end Security

end Airport
end Nachos
