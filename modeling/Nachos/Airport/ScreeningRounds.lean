import Nachos.Airport.Screening

/-!
# The rounds of the screening officers

An officer is alone, then vacant until a passenger claims it, then has that passenger come,
hand its name over and wait, and is alone again when the passenger has been told where to
go and has left.  The stages are kept by every step of the simulation, so long as passengers
take officers only that are free and have begun their round; somebody who takes another one
finds it with a visitor, or is forgotten when the officer begins.
-/

namespace Nachos
namespace Airport

open Lib

namespace Screening

variable {n m : Nat}

section Rounds

/-- Nobody but `p` visits officer `i`. -/
def Only (s : Screening n m) (p : Fin n) (i : Fin m) : Prop :=
  ∀ q, (s.passenger q).visit = some i → q = p

/-- Officer `i` is ready for a passenger. -/
def Expects (s : Screening n m) (i : Fin m) : Prop :=
  (s.officer i = .opened ∧ s.screenOfficerCV i = []) ∨
    (s.officer i = .expecting ∧ s.screenOfficerCV i = [.officer i])

/-- The stages of a round of officer `i`, with the passenger that visits it. -/
inductive Round (s : Screening n m) (i : Fin m) : Prop
  /-- It is on its own. -/
  | alone (hofficer : s.officer i = .beginning ∨ s.officer i = .resetting ∨ s.officer i = .reset ∨
        s.officer i = .ready ∨
        ((s.officer i = .parting ∨ s.officer i = .closing) ∧ s.isBusy i = true))
      (hvisit : ∀ q, (s.passenger q).visit ≠ some i) (hqueue : s.screenOfficerCV i = [])
  /-- It is ready, and nobody has claimed it. -/
  | vacant (hofficer : s.Expects i) (hvisit : ∀ q, (s.passenger q).visit ≠ some i)
  /-- It has been claimed. -/
  | coming (p : Fin n) (hofficer : s.Expects i) (hvisit : s.Only p i)
      (hat : s.passenger p = .claimed i ∨ s.passenger p = .entered i ∨ s.passenger p = .greeting i)
      (hbusy : s.isBusy i = true)
  /-- The passenger has handed its name over. -/
  | served (p : Fin n) (hofficer : s.officer i = .expecting ∨ s.officer i = .examining ∨
        s.officer i = .searching) (hvisit : s.Only p i)
      (hat : (s.passenger p = .signalled i ∧ s.screenOfficerCV i = []) ∨
        (s.passenger p = .waiting i ∧ s.screenOfficerCV i = [.passenger p]))
      (hbusy : s.isBusy i = true) (hname : s.spPassenger i = p.val)
  /-- The passenger has been told to move on. -/
  | told (p : Fin n) (hofficer : (s.officer i = .dismissing ∧ s.screenOfficerCV i = []) ∨
        (s.officer i = .parting ∧ s.screenOfficerCV i = [.officer i])) (hvisit : s.Only p i)
      (hat : s.passenger p = .waiting i ∨ s.passenger p = .directed i)
      (hbusy : s.isBusy i = true)

variable {s s' : Screening n m}

/-- A round depends on the officer and its visitor only. -/
theorem Round.congr {i : Fin m} (h : s.Round i) (hofficer : s'.officer i = s.officer i)
    (hqueue : s'.screenOfficerCV i = s.screenOfficerCV i) (hbusy : s'.isBusy i = s.isBusy i)
    (hname : s'.spPassenger i = s.spPassenger i)
    (hpassenger : ∀ q, s'.passenger q = s.passenger q ∨
      ((s.passenger q).visit ≠ some i ∧ (s'.passenger q).visit ≠ some i)) : s'.Round i := by
  have hsame : ∀ q, (s.passenger q).visit = some i → s'.passenger q = s.passenger q := by
    intro q hq
    rcases hpassenger q with heq | ⟨hnot, -⟩
    · exact heq
    · exact absurd hq hnot
  have hback : ∀ q, (s'.passenger q).visit = some i → (s.passenger q).visit = some i := by
    intro q hq
    rcases hpassenger q with heq | ⟨-, hnot⟩
    · rw [← heq]
      exact hq
    · exact absurd hq hnot
  have hexpects : s.Expects i → s'.Expects i := by
    unfold Expects
    rw [hofficer, hqueue]
    exact id
  cases h with
  | alone hat hvisit hempty =>
      refine .alone ?_ (fun q hq => hvisit q (hback q hq)) (hqueue.trans hempty)
      rw [hofficer, hbusy]
      exact hat
  | vacant hat hvisit => exact .vacant (hexpects hat) fun q hq => hvisit q (hback q hq)
  | coming p hexp hvisit hat hb =>
      have hp : s'.passenger p = s.passenger p := by
        apply hsame
        rcases hat with hat | hat | hat
        all_goals rw [hat]; rfl
      refine .coming p (hexpects hexp) (fun q hq => hvisit q (hback q hq)) ?_ (hbusy.trans hb)
      rw [hp]
      exact hat
  | served p hoff hvisit hat hb hn =>
      have hp : s'.passenger p = s.passenger p := by
        apply hsame
        rcases hat with ⟨hat, -⟩ | ⟨hat, -⟩
        all_goals rw [hat]; rfl
      refine .served p ?_ (fun q hq => hvisit q (hback q hq)) ?_ (hbusy.trans hb)
        (hname.trans hn)
      · rw [hofficer]
        exact hoff
      · rw [hp, hqueue]
        exact hat
  | told p hoff hvisit hat hb =>
      have hp : s'.passenger p = s.passenger p := by
        apply hsame
        rcases hat with hat | hat
        all_goals rw [hat]; rfl
      refine .told p ?_ (fun q hq => hvisit q (hback q hq)) ?_ (hbusy.trans hb)
      · rw [hofficer, hqueue]
        exact hoff
      · rw [hp]
        exact hat

/-- A step of a passenger that does not concern officer `j`. -/
theorem Round.passenger_aside {j : Fin m} (h : s.Round j) {p : Fin n} {q : PassengerPoint m}
    (hofficer : s'.officer = s.officer) (hqueue : s'.screenOfficerCV j = s.screenOfficerCV j)
    (hbusy : s'.isBusy j = s.isBusy j) (hname : s'.spPassenger j = s.spPassenger j)
    (hpassenger : s'.passenger = Function.update s.passenger p q)
    (hold : (s.passenger p).visit ≠ some j) (hnew : q.visit ≠ some j) : s'.Round j := by
  refine h.congr (congrFun hofficer j) hqueue hbusy hname fun u => ?_
  rw [hpassenger]
  by_cases hu : u = p
  · subst hu
    refine Or.inr ⟨hold, ?_⟩
    rw [Function.update_self]
    exact hnew
  · exact Or.inl (Function.update_of_ne hu _ _)

/-- A step of another officer. -/
theorem Round.officer_aside {i j : Fin m} (h : s.Round j) {q : OfficerPoint} (hj : j ≠ i)
    (hofficer : s'.officer = Function.update s.officer i q)
    (hqueue : s'.screenOfficerCV j = s.screenOfficerCV j) (hbusy : s'.isBusy j = s.isBusy j)
    (hname : s'.spPassenger j = s.spPassenger j) (hpassenger : s'.passenger = s.passenger) :
    s'.Round j :=
  h.congr (by rw [hofficer, Function.update_of_ne hj]) hqueue hbusy hname
    fun u => Or.inl (congrFun hpassenger u)

/-- A passenger that comes. -/
theorem Round.of_coming {i : Fin m} {p : Fin n} (h : s.Round i)
    (hat : s.passenger p = .claimed i ∨ s.passenger p = .entered i ∨
      s.passenger p = .greeting i) : s.Expects i ∧ s.Only p i ∧ s.isBusy i = true := by
  have hvisits : (s.passenger p).visit = some i := by
    rcases hat with hat | hat | hat
    all_goals rw [hat]; rfl
  cases h with
  | alone hoff hvisit hqueue => exact absurd hvisits (hvisit p)
  | vacant hoff hvisit => exact absurd hvisits (hvisit p)
  | coming p' hoff hvisit hat' hbusy =>
      obtain rfl := hvisit p hvisits
      exact ⟨hoff, hvisit, hbusy⟩
  | served p' hoff hvisit hat' hbusy hname =>
      obtain rfl := hvisit p hvisits
      rcases hat with hat | hat | hat
      all_goals
        rcases hat' with ⟨hat', -⟩ | ⟨hat', -⟩
        all_goals
          rw [hat] at hat'
          exact absurd hat' (by simp)
  | told p' hoff hvisit hat' hbusy =>
      obtain rfl := hvisit p hvisits
      rcases hat with hat | hat | hat
      all_goals
        rcases hat' with hat' | hat'
        all_goals
          rw [hat] at hat'
          exact absurd hat' (by simp)

/-- A passenger that has handed its name over and not yet gone to sleep. -/
theorem Round.of_signalled {i : Fin m} {p : Fin n} (h : s.Round i)
    (hat : s.passenger p = .signalled i) :
    (s.officer i = .expecting ∨ s.officer i = .examining ∨ s.officer i = .searching) ∧
      s.Only p i ∧ s.screenOfficerCV i = [] ∧ s.isBusy i = true ∧ s.spPassenger i = p.val := by
  have hvisits : (s.passenger p).visit = some i := by
    rw [hat]
    rfl
  cases h with
  | alone hoff hvisit hqueue => exact absurd hvisits (hvisit p)
  | vacant hoff hvisit => exact absurd hvisits (hvisit p)
  | coming p' hoff hvisit hat' hbusy =>
      obtain rfl := hvisit p hvisits
      rw [hat] at hat'
      simp at hat'
  | served p' hoff hvisit hat' hbusy hname =>
      obtain rfl := hvisit p hvisits
      rw [hat] at hat'
      rcases hat' with ⟨-, hqueue⟩ | ⟨habs, -⟩
      · exact ⟨hoff, hvisit, hqueue, hbusy, hname⟩
      · exact absurd habs (by simp)
  | told p' hoff hvisit hat' hbusy =>
      obtain rfl := hvisit p hvisits
      rw [hat] at hat'
      simp at hat'

/-- A passenger that has been told to move on. -/
theorem Round.of_told {i : Fin m} {p : Fin n} (h : s.Round i)
    (hat : (s.passenger p = .waiting i ∧ .passenger p ∉ s.screenOfficerCV i) ∨
      s.passenger p = .directed i) :
    ((s.officer i = .dismissing ∧ s.screenOfficerCV i = []) ∨
        (s.officer i = .parting ∧ s.screenOfficerCV i = [.officer i])) ∧
      s.Only p i ∧ s.isBusy i = true := by
  have hvisits : (s.passenger p).visit = some i := by
    rcases hat with ⟨hat, -⟩ | hat
    all_goals rw [hat]; rfl
  cases h with
  | alone hoff hvisit hqueue => exact absurd hvisits (hvisit p)
  | vacant hoff hvisit => exact absurd hvisits (hvisit p)
  | coming p' hoff hvisit hat' hbusy =>
      obtain rfl := hvisit p hvisits
      rcases hat with ⟨hat, -⟩ | hat
      all_goals
        rw [hat] at hat'
        simp at hat'
  | served p' hoff hvisit hat' hbusy hname =>
      obtain rfl := hvisit p hvisits
      rcases hat with ⟨hat, hnot⟩ | hat
      · rcases hat' with ⟨habs, -⟩ | ⟨-, hqueue⟩
        · rw [hat] at habs
          exact absurd habs (by simp)
        · rw [hqueue] at hnot
          exact absurd (by simp) hnot
      · rw [hat] at hat'
        simp at hat'
  | told p' hoff hvisit hat' hbusy =>
      obtain rfl := hvisit p hvisits
      exact ⟨hoff, hvisit, hbusy⟩

theorem Only.update {i : Fin m} {p : Fin n} {q : PassengerPoint m} (h : s.Only p i)
    (hpassenger : s'.passenger = Function.update s.passenger p q) : s'.Only p i := by
  intro u hu
  by_contra hne
  rw [hpassenger, Function.update_of_ne hne] at hu
  exact hne (h u hu)

/-- The first to visit an officer. -/
theorem only_of_none {i : Fin m} {p : Fin n} {q : PassengerPoint m}
    (h : ∀ u, (s.passenger u).visit ≠ some i)
    (hpassenger : s'.passenger = Function.update s.passenger p q) : s'.Only p i := by
  intro u hu
  by_contra hne
  rw [hpassenger, Function.update_of_ne hne] at hu
  exact h u hu

/-- The only visitor goes. -/
theorem Only.gone {i : Fin m} {p : Fin n} {q : PassengerPoint m} (h : s.Only p i)
    (hpassenger : s'.passenger = Function.update s.passenger p q) (hq : q.visit ≠ some i) :
    ∀ u, (s'.passenger u).visit ≠ some i := by
  intro u hu
  by_cases hne : u = p
  · rw [hpassenger, hne, Function.update_self] at hu
    exact hq hu
  · rw [hpassenger, Function.update_of_ne hne] at hu
    exact hne (h u hu)

end Rounds

section Steps

/-- The locks exclude, and every officer is at a stage of its round. -/
structure Sound (s : Screening n m) : Prop where
  locked : s.Locked
  round : ∀ i, s.Round i

theorem sound_start (n m airlines : Nat) (spPassenger spSecurityOfficer : Fin m → Nat) :
    (start n m airlines spPassenger spSecurityOfficer).Sound where
  locked := locked_start n m airlines spPassenger spSecurityOfficer
  round := fun i => .alone (Or.inl rfl) (fun _ => by simp [start, PassengerPoint.visit]) rfl

variable {s s' : Screening n m} {counter : Fin n → Nat} {p : Fin n} {i : Fin m}

/-- A passenger that visits no officer goes on. -/
theorem Sound.aside (h : s.Sound) {q : PassengerPoint m} (hlocked : s'.Locked)
    (hofficer : s'.officer = s.officer) (hqueue : s'.screenOfficerCV = s.screenOfficerCV)
    (hbusy : s'.isBusy = s.isBusy) (hname : s'.spPassenger = s.spPassenger)
    (hpassenger : s'.passenger = Function.update s.passenger p q)
    (hold : (s.passenger p).visit = none) (hnew : q.visit = none) : s'.Sound where
  locked := hlocked
  round := fun j => (h.round j).passenger_aside hofficer (congrFun hqueue j) (congrFun hbusy j)
    (congrFun hname j) hpassenger (by simp [hold]) (by simp [hnew])

/-- A passenger claims an officer that is free and has begun its round. -/
theorem Sound.claim (h : s.Sound) (hat : (s.passenger p).holdsLines = true)
    (hold : (s.passenger p).visit = none)
    (hfree : s.isBusy i = false) (hbegun : s.officer i ≠ .beginning) : (s.claim p i).Sound where
  locked := by
    refine h.locked.keep (point_passenger rfl rfl) rfl rfl (fun _ => hat) fun j habs => ?_
    exact absurd habs (by simp [holdsLock, PassengerPoint.holdsLock])
  round := by
    intro j
    by_cases hj : j = i
    · subst hj
      have hpassenger : (s.claim p j).passenger = Function.update s.passenger p (.claimed j) := rfl
      -- the officer has no visitor and is waiting for one
      have hexpects : s.Expects j ∧ ∀ u, (s.passenger u).visit ≠ some j := by
        have hlines : s.screenLines = some (.passenger p) := h.locked.lines (.passenger p) hat
        have hnot : (s.officer j).holdsLines = false := by
          by_contra hheld
          rw [Bool.not_eq_false] at hheld
          have hother := h.locked.lines (.officer j) hheld
          rw [hlines] at hother
          exact absurd hother (by simp)
        cases h.round j with
        | alone hoff hvisit hqueue =>
            rcases hoff with hoff | hoff | hoff | hoff | ⟨-, hbusy⟩
            · exact absurd hoff hbegun
            · exact absurd hnot (by simp [hoff, OfficerPoint.holdsLines])
            · exact absurd hnot (by simp [hoff, OfficerPoint.holdsLines])
            · exact absurd hnot (by simp [hoff, OfficerPoint.holdsLines])
            · exact absurd hbusy (by simp [hfree])
        | vacant hoff hvisit => exact ⟨hoff, hvisit⟩
        | coming u hoff hvisit hat' hbusy => exact absurd hbusy (by simp [hfree])
        | served u hoff hvisit hat' hbusy hname => exact absurd hbusy (by simp [hfree])
        | told u hoff hvisit hat' hbusy => exact absurd hbusy (by simp [hfree])
      refine .coming p hexpects.1 (only_of_none hexpects.2 hpassenger) (Or.inl ?_) ?_
      · rw [hpassenger, Function.update_self]
      · exact Function.update_self ..
    · refine (h.round j).passenger_aside rfl rfl (Function.update_of_ne hj _ _) rfl rfl
        (by simp [hold]) ?_
      simp [PassengerPoint.visit, Ne.symm hj]

/-- A step of a passenger at its officer. -/
theorem Sound.at_officer (h : s.Sound) {q : PassengerPoint m} (hlocked : s'.Locked)
    (hofficer : s'.officer = s.officer)
    (hqueue : ∀ j, j ≠ i → s'.screenOfficerCV j = s.screenOfficerCV j)
    (hbusy : s'.isBusy = s.isBusy) (hname : ∀ j, j ≠ i → s'.spPassenger j = s.spPassenger j)
    (hpassenger : s'.passenger = Function.update s.passenger p q)
    (hold : (s.passenger p).visit = some i) (hnew : q.visit = some i ∨ q.visit = none)
    (hround : s'.Round i) : s'.Sound where
  locked := hlocked
  round := by
    intro j
    by_cases hj : j = i
    · rw [hj]
      exact hround
    · refine (h.round j).passenger_aside hofficer (hqueue j hj) (congrFun hbusy j) (hname j hj)
        hpassenger ?_ ?_
      · simp [hold, Ne.symm hj]
      · rcases hnew with hnew | hnew
        all_goals simp [hnew, Ne.symm hj]

/-- A step of an officer. -/
theorem Sound.by_officer (h : s.Sound) {q : OfficerPoint} (hlocked : s'.Locked)
    (hofficer : s'.officer = Function.update s.officer i q)
    (hqueue : ∀ j, j ≠ i → s'.screenOfficerCV j = s.screenOfficerCV j)
    (hbusy : ∀ j, j ≠ i → s'.isBusy j = s.isBusy j) (hname : s'.spPassenger = s.spPassenger)
    (hpassenger : s'.passenger = s.passenger) (hround : s'.Round i) : s'.Sound where
  locked := hlocked
  round := by
    intro j
    by_cases hj : j = i
    · rw [hj]
      exact hround
    · exact (h.round j).officer_aside hj hofficer (hqueue j hj) (hbusy j hj) (congrFun hname j)
        hpassenger

/-- A passenger with the lock of an officer shuts it out. -/
theorem Sound.officer_without (h : s.Sound) (hat : (s.passenger p).holdsLock i = true) :
    (s.officer i).holdsLock = false := by
  by_contra hheld
  rw [Bool.not_eq_false] at hheld
  have hpassenger : s.screenLocks i = some (.passenger p) := h.locked.locks i (.passenger p) hat
  have hofficer : s.screenLocks i = some (.officer i) :=
    h.locked.locks i (.officer i) ⟨rfl, hheld⟩
  rw [hpassenger] at hofficer
  exact absurd hofficer (by simp)

/-- A passenger that visits nobody gets `ScreenLines`. -/
theorem Sound.take_lines (h : s.Sound) {q : PassengerPoint m}
    (hstep : s.acquireLines (.passenger p) = .ok s') (hold : (s.passenger p).visit = none)
    (hnew : q.visit = none) (hlock : ∀ j, q.holdsLock j = false) : (s'.go p q).Sound := by
  obtain ⟨hfree, rfl⟩ := acquireLines_ok hstep
  refine h.aside ?_ rfl rfl rfl rfl rfl hold hnew
  refine h.locked.acquireLines (point_passenger rfl rfl) hfree rfl rfl fun j habs => ?_
  exact absurd habs (by simp [holdsLock, hlock j])

/-- A passenger that visits nobody gives `ScreenLines` up. -/
theorem Sound.leave_lines (h : s.Sound) {q : PassengerPoint m}
    (hheld : (s.passenger p).holdsLines = true) (hold : (s.passenger p).visit = none)
    (hlines : q.holdsLines = false) (hnew : q.visit = none) (hlock : ∀ j, q.holdsLock j = false)
    (hofficer : s'.officer = s.officer) (hqueue : s'.screenOfficerCV = s.screenOfficerCV)
    (hbusy : s'.isBusy = s.isBusy) (hname : s'.spPassenger = s.spPassenger)
    (hlocks : s'.screenLocks = s.screenLocks) (hpassenger : s'.passenger = s.passenger) :
    (s'.releaseLines.go p q).Sound := by
  have hmove : (s'.releaseLines.go p q).passenger = Function.update s.passenger p q := by
    rw [← hpassenger]
    rfl
  refine h.aside ?_ hofficer hqueue hbusy hname hmove hold hnew
  refine h.locked.releaseLines (point_passenger hmove hofficer) hheld ?_ rfl hlocks fun j habs => ?_
  · simp [holdsLines, hlines]
  · exact absurd habs (by simp [holdsLock, hlock j])

/-- A passenger makes a step on its way to an officer, or away from one. -/
theorem Sound.step_apart (h : s.Sound) (hvisit : (s.passenger p).visit = none)
    (hguard : ∀ i, taken counter s p = some i → s.isBusy i = false ∧ s.officer i ≠ .beginning)
    (hstep : passengerStep counter p s = .ok s') : s'.Sound := by
  unfold taken at hguard
  unfold passengerStep at hstep
  cases hat : s.passenger p
  all_goals simp only [hat] at hstep hguard hvisit
  case arriving | looking | chosen =>
    obtain ⟨t, ht, hs'⟩ := bind_eq_ok hstep
    obtain rfl := Except.ok.inj hs'
    exact h.take_lines ht (by rw [hat]; rfl) rfl fun _ => rfl
  case queueing =>
    split at hstep
    all_goals
      obtain rfl := Except.ok.inj hstep
      exact h.leave_lines (by rw [hat]; rfl) (by rw [hat]; rfl) rfl rfl (fun _ => rfl)
        rfl rfl rfl rfl rfl rfl
  case scanning =>
    split at hstep
    all_goals
      obtain rfl := Except.ok.inj hstep
      exact h.leave_lines (by rw [hat]; rfl) (by rw [hat]; rfl) rfl rfl (fun _ => rfl)
        rfl rfl rfl rfl rfl rfl
  case returning i =>
    obtain rfl := Except.ok.inj hstep
    obtain ⟨hfree, hbegun⟩ := hguard i rfl
    exact h.claim (by rw [hat]; rfl) (by rw [hat]; rfl) hfree hbegun
  case inLine =>
    split at hstep
    · exact absurd hstep (by simp)
    · obtain ⟨t, ht, hs'⟩ := bind_eq_ok hstep
      obtain rfl := Except.ok.inj hs'
      exact h.take_lines ht (by rw [hat]; rfl) rfl fun _ => rfl
  case awake =>
    split at hstep
    · rename_i i hfound
      obtain rfl := Except.ok.inj hstep
      obtain ⟨hfree, hbegun⟩ := hguard i hfound
      exact h.claim (by rw [hat]; rfl) (by rw [hat]; rfl) hfree hbegun
    · exact absurd hstep (by simp)
  case leaving i =>
    obtain rfl := Except.ok.inj hstep
    refine h.aside ?_ rfl rfl rfl rfl rfl (by rw [hat]; rfl) rfl
    refine h.locked.releaseLock i (point_passenger rfl rfl) ?_ ?_ rfl rfl ?_ ?_
    · show (s.passenger p).holdsLock i = true
      simp [hat, PassengerPoint.holdsLock]
    · simp [holdsLock, PassengerPoint.holdsLock]
    · intro habs
      exact absurd habs (by simp [holdsLines, PassengerPoint.holdsLines])
    · intro j _ habs
      exact absurd habs (by simp [holdsLock, PassengerPoint.holdsLock])
  case gone => exact absurd hstep (by simp)
  -- the others visit an officer
  all_goals exact absurd hvisit (by simp [PassengerPoint.visit])

/-- A passenger that comes goes on. -/
theorem Sound.come (h : s.Sound) {q : PassengerPoint m} (hlocked : s'.Locked)
    (hat : s.passenger p = .claimed i ∨ s.passenger p = .entered i ∨ s.passenger p = .greeting i)
    (hq : q = .entered i ∨ q = .greeting i)
    (hofficer : s'.officer = s.officer) (hqueue : s'.screenOfficerCV = s.screenOfficerCV)
    (hbusy : s'.isBusy = s.isBusy) (hname : s'.spPassenger = s.spPassenger)
    (hpassenger : s'.passenger = Function.update s.passenger p q) : s'.Sound := by
  obtain ⟨hexpects, honly, hb⟩ := (h.round i).of_coming hat
  refine h.at_officer (i := i) hlocked hofficer (fun j _ => congrFun hqueue j) hbusy
    (fun j _ => congrFun hname j) hpassenger ?_ ?_ ?_
  · rcases hat with hat | hat | hat
    all_goals rw [hat]; rfl
  · rcases hq with rfl | rfl
    all_goals exact Or.inl rfl
  · refine .coming p ?_ (honly.update hpassenger) (Or.inr ?_) ((congrFun hbusy i).trans hb)
    · unfold Expects
      rw [hofficer, hqueue]
      exact hexpects
    · rw [hpassenger, Function.update_self]
      exact hq

/-- A passenger hands its name over: the officer is in its first `Wait` and is woken. -/
theorem Sound.greet (h : s.Sound) (hat : s.passenger p = .greeting i) :
    (({ s with spPassenger := Function.update s.spPassenger i p.val }.signal i).go p
      (.signalled i)).Sound := by
  have hlock : (s.passenger p).holdsLock i = true := by simp [hat, PassengerPoint.holdsLock]
  obtain ⟨hexpects, honly, hbusy⟩ := (h.round i).of_coming (Or.inr (Or.inr hat))
  have hshut := h.officer_without hlock
  refine h.at_officer ?_ rfl (fun j hj => Function.update_of_ne hj _ _) rfl
    (fun j hj => Function.update_of_ne hj _ _) rfl (by rw [hat]; rfl) (Or.inl rfl) ?_
  · refine h.locked.keep (point_passenger rfl rfl) rfl rfl ?_ fun j hj => ?_
    · intro habs
      exact absurd habs (by simp [holdsLines, PassengerPoint.holdsLines])
    · show (s.passenger p).holdsLock j = true
      rw [hat]
      exact hj
  · rcases hexpects with ⟨hopened, -⟩ | ⟨hexpecting, hqueue⟩
    · exact absurd hshut (by simp [hopened, OfficerPoint.holdsLock])
    · refine .served p (Or.inl hexpecting) (honly.update rfl) (Or.inl ⟨?_, ?_⟩) hbusy ?_
      · exact Function.update_self ..
      · show Function.update s.screenOfficerCV i _ i = []
        rw [Function.update_self, hqueue]
        rfl
      · exact Function.update_self ..

/-- A passenger goes to sleep until it is told where to go. -/
theorem Sound.await (h : s.Sound) (hat : s.passenger p = .signalled i) :
    ((s.wait i (.passenger p)).go p (.waiting i)).Sound := by
  obtain ⟨hofficer, honly, hqueue, hbusy, hname⟩ := (h.round i).of_signalled hat
  refine h.at_officer ?_ rfl (fun j hj => Function.update_of_ne hj _ _) rfl (fun _ _ => rfl) rfl
    (by rw [hat]; rfl) (Or.inl rfl) ?_
  · refine h.locked.releaseLock i (point_passenger rfl rfl) ?_ ?_ rfl rfl ?_ fun j _ habs => ?_
    · show (s.passenger p).holdsLock i = true
      simp [hat, PassengerPoint.holdsLock]
    · simp [holdsLock, PassengerPoint.holdsLock]
    · intro habs
      exact absurd habs (by simp [holdsLines, PassengerPoint.holdsLines])
    · exact absurd habs (by simp [holdsLock, PassengerPoint.holdsLock])
  · refine .served p hofficer (honly.update rfl) (Or.inr ⟨?_, ?_⟩) hbusy hname
    · exact Function.update_self ..
    · show Function.update s.screenOfficerCV i _ i = [.passenger p]
      rw [Function.update_self, hqueue]
      rfl

/-- A passenger that has been told where to go wakes up. -/
theorem Sound.wake (h : s.Sound) (hat : s.passenger p = .waiting i)
    (hstep : s.resume i (.passenger p) = .ok s') : (s'.go p (.directed i)).Sound := by
  obtain ⟨hnot, hfree, rfl⟩ := resume_ok hstep
  obtain ⟨hofficer, honly, hbusy⟩ := (h.round i).of_told (Or.inl ⟨hat, hnot⟩)
  refine h.at_officer ?_ rfl (fun _ _ => rfl) rfl (fun _ _ => rfl) rfl (by rw [hat]; rfl)
    (Or.inl rfl) ?_
  · refine h.locked.acquireLock i (point_passenger rfl rfl) hfree rfl rfl ?_ fun j hj habs => ?_
    · intro habs
      exact absurd habs (by simp [holdsLines, PassengerPoint.holdsLines])
    · exact absurd habs (by simp [holdsLock, PassengerPoint.holdsLock, Ne.symm hj])
  · refine .told p hofficer (honly.update rfl) (Or.inr ?_) hbusy
    exact Function.update_self ..

/-- A passenger says that it leaves: the officer is in its second `Wait` and is woken. -/
theorem Sound.leave (h : s.Sound) (hat : s.passenger p = .directed i) :
    ((s.signal i).go p (.leaving i)).Sound := by
  have hlock : (s.passenger p).holdsLock i = true := by simp [hat, PassengerPoint.holdsLock]
  obtain ⟨hofficer, honly, hbusy⟩ := (h.round i).of_told (Or.inr hat)
  have hshut := h.officer_without hlock
  refine h.at_officer ?_ rfl (fun j hj => Function.update_of_ne hj _ _) rfl (fun _ _ => rfl) rfl
    (by rw [hat]; rfl) (Or.inr rfl) ?_
  · refine h.locked.keep (point_passenger rfl rfl) rfl rfl ?_ fun j hj => ?_
    · intro habs
      exact absurd habs (by simp [holdsLines, PassengerPoint.holdsLines])
    · show (s.passenger p).holdsLock j = true
      rw [hat]
      exact hj
  · rcases hofficer with ⟨hdismissing, -⟩ | ⟨hparting, hqueue⟩
    · exact absurd hshut (by simp [hdismissing, OfficerPoint.holdsLock])
    · refine .alone ?_ (honly.gone rfl (by simp [PassengerPoint.visit])) ?_
      · exact Or.inr (Or.inr (Or.inr (Or.inr ⟨Or.inl hparting, hbusy⟩)))
      · show Function.update s.screenOfficerCV i _ i = []
        rw [Function.update_self, hqueue]
        rfl

/-- A passenger makes a step with an officer. -/
theorem Sound.step_visiting (h : s.Sound) (hvisit : (s.passenger p).visit ≠ none)
    (hstep : passengerStep counter p s = .ok s') : s'.Sound := by
  unfold passengerStep at hstep
  cases hat : s.passenger p
  all_goals simp only [hat] at hstep hvisit
  case claimed i =>
    obtain ⟨t, ht, hs'⟩ := bind_eq_ok hstep
    obtain ⟨hfree, rfl⟩ := acquireLock_ok ht
    obtain rfl := Except.ok.inj hs'
    refine h.come ?_ (Or.inl hat) (Or.inl rfl) rfl rfl rfl rfl rfl
    refine h.locked.acquireLock i (point_passenger rfl rfl) hfree rfl rfl ?_ fun j hj habs => ?_
    · intro _
      show (s.passenger p).holdsLines = true
      rw [hat]
      rfl
    · exact absurd habs (by simp [holdsLock, PassengerPoint.holdsLock, Ne.symm hj])
  case entered i =>
    obtain rfl := Except.ok.inj hstep
    refine h.come ?_ (Or.inr (Or.inl hat)) (Or.inr rfl) rfl rfl rfl rfl rfl
    refine h.locked.releaseLines (point_passenger rfl rfl) ?_ ?_ rfl rfl fun j hj => ?_
    · show (s.passenger p).holdsLines = true
      rw [hat]
      rfl
    · simp [holdsLines, PassengerPoint.holdsLines]
    · show (s.passenger p).holdsLock j = true
      rw [hat]
      exact hj
  case greeting i =>
    obtain rfl := Except.ok.inj hstep
    exact h.greet hat
  case signalled i =>
    obtain rfl := Except.ok.inj hstep
    exact h.await hat
  case waiting i =>
    obtain ⟨t, ht, hs'⟩ := bind_eq_ok hstep
    obtain rfl := Except.ok.inj hs'
    exact h.wake hat ht
  case directed i =>
    obtain rfl := Except.ok.inj hstep
    exact h.leave hat
  all_goals exact absurd rfl hvisit

/-- An officer before its round and behind it. -/
theorem Round.of_alone (h : s.Round i)
    (hat : s.officer i = .beginning ∨ s.officer i = .resetting ∨ s.officer i = .reset ∨
      s.officer i = .ready ∨ s.officer i = .closing) :
    (∀ q, (s.passenger q).visit ≠ some i) ∧ s.screenOfficerCV i = [] := by
  cases h with
  | alone hoff hvisit hqueue => exact ⟨hvisit, hqueue⟩
  | vacant hoff hvisit =>
      rcases hoff with ⟨hoff, -⟩ | ⟨hoff, -⟩
      all_goals
        rw [hoff] at hat
        simp at hat
  | coming p' hoff hvisit hat' hbusy =>
      rcases hoff with ⟨hoff, -⟩ | ⟨hoff, -⟩
      all_goals
        rw [hoff] at hat
        simp at hat
  | served p' hoff hvisit hat' hbusy hname =>
      rcases hoff with hoff | hoff | hoff
      all_goals
        rw [hoff] at hat
        simp at hat
  | told p' hoff hvisit hat' hbusy =>
      rcases hoff with ⟨hoff, -⟩ | ⟨hoff, -⟩
      all_goals
        rw [hoff] at hat
        simp at hat

/-- An officer that examines the luggage, or has been woken to do so. -/
theorem Round.of_served (h : s.Round i)
    (hat : (s.officer i = .expecting ∧ .officer i ∉ s.screenOfficerCV i) ∨
      s.officer i = .examining ∨ s.officer i = .searching) :
    ∃ p, s.Only p i ∧ ((s.passenger p = .signalled i ∧ s.screenOfficerCV i = []) ∨
        (s.passenger p = .waiting i ∧ s.screenOfficerCV i = [.passenger p])) ∧
      s.isBusy i = true ∧ s.spPassenger i = p.val := by
  have hnot : ¬ s.Expects i := by
    rintro (⟨hoff, -⟩ | ⟨hoff, hqueue⟩)
    · rw [hoff] at hat
      simp at hat
    · rw [hoff, hqueue] at hat
      simp at hat
  cases h with
  | alone hoff hvisit hqueue =>
      rcases hoff with hoff | hoff | hoff | hoff | ⟨hoff | hoff, -⟩
      all_goals
        rw [hoff] at hat
        simp at hat
  | vacant hoff hvisit => exact absurd hoff hnot
  | coming p' hoff hvisit hat' hbusy => exact absurd hoff hnot
  | served p' hoff hvisit hat' hbusy hname => exact ⟨p', hvisit, hat', hbusy, hname⟩
  | told p' hoff hvisit hat' hbusy =>
      rcases hoff with ⟨hoff, -⟩ | ⟨hoff, -⟩
      all_goals
        rw [hoff] at hat
        simp at hat

/-- An officer on its own goes on. -/
theorem Sound.on_its_own (h : s.Sound) {q : OfficerPoint} (hlocked : s'.Locked)
    (hat : s.officer i = .beginning ∨ s.officer i = .resetting ∨ s.officer i = .reset ∨
      s.officer i = .ready ∨ s.officer i = .closing)
    (hq : q = .beginning ∨ q = .resetting ∨ q = .reset ∨ q = .ready ∨ q = .opened)
    (hofficer : s'.officer = Function.update s.officer i q)
    (hqueue : s'.screenOfficerCV = s.screenOfficerCV)
    (hbusy : ∀ j, j ≠ i → s'.isBusy j = s.isBusy j) (hname : s'.spPassenger = s.spPassenger)
    (hpassenger : s'.passenger = s.passenger) : s'.Sound := by
  obtain ⟨hvisit, hempty⟩ := (h.round i).of_alone hat
  have hq' : s'.officer i = q := by rw [hofficer, Function.update_self]
  have hempty' : s'.screenOfficerCV i = [] := (congrFun hqueue i).trans hempty
  refine h.by_officer hlocked hofficer (fun j _ => congrFun hqueue j) hbusy hname hpassenger ?_
  rw [← hpassenger] at hvisit
  rcases hq with rfl | rfl | rfl | rfl | rfl
  · exact .alone (Or.inl hq') hvisit hempty'
  · exact .alone (Or.inr (Or.inl hq')) hvisit hempty'
  · exact .alone (Or.inr (Or.inr (Or.inl hq'))) hvisit hempty'
  · exact .alone (Or.inr (Or.inr (Or.inr (Or.inl hq')))) hvisit hempty'
  · exact .vacant (Or.inl ⟨hq', hempty'⟩) hvisit

/-- The locks when an officer goes to sleep. -/
theorem Sound.locked_wait (h : s.Sound) {q : OfficerPoint} (hat : (s.officer i).holdsLock = true)
    (hlock : q.holdsLock = false) (hlines : q.holdsLines = false) :
    ((s.wait i (.officer i)).post i q).Locked := by
  refine h.locked.releaseLock i (point_officer rfl rfl) ⟨rfl, hat⟩ ?_ rfl rfl ?_ fun j _ habs => ?_
  · simp [holdsLock, hlock]
  · intro habs
    exact absurd habs (by simp [holdsLines, hlines])
  · exact absurd habs (by simp [holdsLock, hlock])

/-- The locks when an officer wakes up. -/
theorem Sound.locked_resume (h : s.Sound) {q : OfficerPoint}
    (hfree : s.screenLocks i = none ∨ s.screenLocks i = some (.officer i))
    (hlines : q.holdsLines = false) :
    ({ s with screenLocks := Function.update s.screenLocks i (some (.officer i)) }.post i
      q).Locked := by
  refine h.locked.acquireLock i (point_officer rfl rfl) hfree rfl rfl ?_ fun j hj habs => ?_
  · intro habs
    exact absurd habs (by simp [holdsLines, hlines])
  · exact absurd habs.1 (Ne.symm hj)

/-- The locks when an officer goes on with its own lock only. -/
theorem Sound.locked_work (h : s.Sound) {q : OfficerPoint} (hat : (s.officer i).holdsLock = true)
    (hlines : q.holdsLines = false) (hofficer : s'.officer = Function.update s.officer i q)
    (hpassenger : s'.passenger = s.passenger) (hline : s'.screenLines = s.screenLines)
    (hlocks : s'.screenLocks = s.screenLocks) : s'.Locked := by
  refine h.locked.keep (point_officer hofficer hpassenger) hline hlocks ?_ fun j habs => ?_
  · intro habs
    exact absurd habs (by simp [holdsLines, hlines])
  · exact ⟨habs.1, hat⟩

/-- An officer goes to sleep until a passenger comes. -/
theorem Sound.open (h : s.Sound) (hat : s.officer i = .opened) :
    ((s.wait i (.officer i)).post i .expecting).Sound := by
  refine h.by_officer (h.locked_wait (by rw [hat]; rfl) rfl rfl) rfl
    (fun j hj => Function.update_of_ne hj _ _) (fun _ _ => rfl) rfl rfl ?_
  have hexpects : s.Expects i → ((s.wait i (.officer i)).post i .expecting).Expects i := by
    rintro (⟨-, hqueue⟩ | ⟨hoff, -⟩)
    · refine Or.inr ⟨Function.update_self .., ?_⟩
      show Function.update s.screenOfficerCV i _ i = [.officer i]
      rw [Function.update_self, hqueue]
      rfl
    · rw [hat] at hoff
      exact absurd hoff (by simp)
  cases h.round i with
  | alone hoff hvisit hqueue =>
      rw [hat] at hoff
      simp at hoff
  | vacant hoff hvisit => exact .vacant (hexpects hoff) hvisit
  | coming p hoff hvisit hat' hbusy => exact .coming p (hexpects hoff) hvisit hat' hbusy
  | served p hoff hvisit hat' hbusy hname =>
      rw [hat] at hoff
      simp at hoff
  | told p hoff hvisit hat' hbusy =>
      rw [hat] at hoff
      simp at hoff

/-- An officer directs its passenger: that one is asleep and is woken. -/
theorem Sound.direct (h : s.Sound) (hat : s.officer i = .searching) (k : Nat) :
    (({ s with spSecurityOfficer := Function.update s.spSecurityOfficer i k }.signal i).post i
      .dismissing).Sound := by
  have hlock : (s.officer i).holdsLock = true := by
    rw [hat]
    rfl
  refine h.by_officer (h.locked_work hlock rfl rfl rfl rfl rfl) rfl
    (fun j hj => Function.update_of_ne hj _ _) (fun _ _ => rfl) rfl rfl ?_
  obtain ⟨p, honly, hp, hbusy, -⟩ := (h.round i).of_served (Or.inr (Or.inr hat))
  rcases hp with ⟨hp, -⟩ | ⟨hp, hqueue⟩
  · have hshut := h.officer_without (p := p) (i := i) (by simp [hp, PassengerPoint.holdsLock])
    rw [hlock] at hshut
    exact absurd hshut (by simp)
  · refine .told p (Or.inl ⟨Function.update_self .., ?_⟩) honly (Or.inl hp) hbusy
    show Function.update s.screenOfficerCV i _ i = []
    rw [Function.update_self, hqueue]
    rfl

/-- An officer goes to sleep until its passenger has left. -/
theorem Sound.dismiss (h : s.Sound) (hat : s.officer i = .dismissing) :
    ((s.wait i (.officer i)).post i .parting).Sound := by
  refine h.by_officer (h.locked_wait (by rw [hat]; rfl) rfl rfl) rfl
    (fun j hj => Function.update_of_ne hj _ _) (fun _ _ => rfl) rfl rfl ?_
  cases h.round i with
  | told p hoff hvisit hat' hbusy =>
      rw [hat] at hoff
      rcases hoff with ⟨-, hqueue⟩ | ⟨habs, -⟩
      · refine .told p (Or.inr ⟨Function.update_self .., ?_⟩) hvisit hat' hbusy
        show Function.update s.screenOfficerCV i _ i = [.officer i]
        rw [Function.update_self, hqueue]
        rfl
      · exact absurd habs (by simp)
  | alone hoff hvisit hqueue =>
      rw [hat] at hoff
      simp at hoff
  | vacant hoff hvisit => exact absurd hoff (by simp [Expects, hat])
  | coming p hoff hvisit hat' hbusy => exact absurd hoff (by simp [Expects, hat])
  | served p hoff hvisit hat' hbusy hname =>
      rw [hat] at hoff
      simp at hoff

/-- An officer wakes up behind a passenger that has left. -/
theorem Sound.part (h : s.Sound) (hat : s.officer i = .parting)
    (hstep : s.resume i (.officer i) = .ok s') : (s'.post i .closing).Sound := by
  obtain ⟨hnot, hfree, rfl⟩ := resume_ok hstep
  refine h.by_officer (h.locked_resume hfree rfl) rfl (fun _ _ => rfl) (fun _ _ => rfl) rfl rfl ?_
  cases h.round i with
  | alone hoff hvisit hqueue =>
      rcases hoff with hoff | hoff | hoff | hoff | ⟨-, hbusy⟩
      · exact absurd hoff (by simp [hat])
      · exact absurd hoff (by simp [hat])
      · exact absurd hoff (by simp [hat])
      · exact absurd hoff (by simp [hat])
      · refine .alone (Or.inr (Or.inr (Or.inr (Or.inr ⟨Or.inr ?_, hbusy⟩)))) hvisit hqueue
        exact Function.update_self ..
  | told p hoff hvisit hat' hbusy =>
      rcases hoff with ⟨hoff, -⟩ | ⟨-, hqueue⟩
      · exact absurd hoff (by simp [hat])
      · exact absurd hnot (by simp [hqueue])
  | vacant hoff hvisit => exact absurd hoff (by simp [Expects, hat])
  | coming p hoff hvisit hat' hbusy => exact absurd hoff (by simp [Expects, hat])
  | served p hoff hvisit hat' hbusy hname =>
      rw [hat] at hoff
      simp at hoff

/-- An officer makes a step. -/
theorem Sound.step_officer (h : s.Sound) {turn : Turn n m}
    (hstep : officerStep turn i s = .ok s') : s'.Sound := by
  unfold officerStep at hstep
  cases hat : s.officer i
  all_goals simp only [hat] at hstep
  case beginning =>
    obtain ⟨t, ht, hs'⟩ := bind_eq_ok hstep
    obtain ⟨hfree, rfl⟩ := acquireLines_ok ht
    obtain rfl := Except.ok.inj hs'
    refine h.on_its_own ?_ (Or.inl hat) (Or.inr (Or.inl rfl)) rfl rfl (fun _ _ => rfl) rfl rfl
    refine h.locked.acquireLines (point_officer rfl rfl) hfree rfl rfl fun j habs => ?_
    exact absurd habs (by simp [holdsLock, OfficerPoint.holdsLock])
  case resetting =>
    obtain rfl := Except.ok.inj hstep
    refine h.on_its_own ?_ (Or.inr (Or.inl hat)) (Or.inr (Or.inr (Or.inl rfl))) rfl rfl
      (fun j hj => Function.update_of_ne hj _ _) rfl rfl
    refine h.locked.keep (point_officer rfl rfl) rfl rfl ?_ fun j habs => ?_
    · intro _
      show (s.officer i).holdsLines = true
      rw [hat]
      rfl
    · exact absurd habs (by simp [holdsLock, OfficerPoint.holdsLock])
  case reset =>
    obtain ⟨t, ht, hs'⟩ := bind_eq_ok hstep
    obtain ⟨hfree, rfl⟩ := acquireLock_ok ht
    obtain rfl := Except.ok.inj hs'
    refine h.on_its_own ?_ (Or.inr (Or.inr (Or.inl hat)))
      (Or.inr (Or.inr (Or.inr (Or.inl rfl)))) rfl rfl (fun _ _ => rfl) rfl rfl
    refine h.locked.acquireLock i (point_officer rfl rfl) hfree rfl rfl ?_ fun j hj habs => ?_
    · intro _
      show (s.officer i).holdsLines = true
      rw [hat]
      rfl
    · exact absurd habs.1 (Ne.symm hj)
  case ready =>
    obtain rfl := Except.ok.inj hstep
    refine h.on_its_own ?_ (Or.inr (Or.inr (Or.inr (Or.inl hat))))
      (Or.inr (Or.inr (Or.inr (Or.inr rfl)))) rfl rfl (fun _ _ => rfl) rfl rfl
    refine h.locked.releaseLines (point_officer rfl rfl) ?_ ?_ rfl rfl fun j habs => ?_
    · show (s.officer i).holdsLines = true
      rw [hat]
      rfl
    · simp [holdsLines, OfficerPoint.holdsLines]
    · refine ⟨habs.1, ?_⟩
      show (s.officer i).holdsLock = true
      rw [hat]
      rfl
  case opened =>
    obtain rfl := Except.ok.inj hstep
    exact h.open hat
  case expecting =>
    obtain ⟨t, ht, hs'⟩ := bind_eq_ok hstep
    obtain ⟨hnot, hfree, rfl⟩ := resume_ok ht
    obtain rfl := Except.ok.inj hs'
    obtain ⟨p, honly, hp, hbusy, hname⟩ := (h.round i).of_served (Or.inl ⟨hat, hnot⟩)
    refine h.by_officer (h.locked_resume hfree rfl) rfl (fun _ _ => rfl) (fun _ _ => rfl) rfl rfl ?_
    exact .served p (Or.inr (Or.inl (Function.update_self ..))) honly hp hbusy hname
  case examining =>
    obtain rfl := Except.ok.inj hstep
    obtain ⟨p, honly, hp, hbusy, hname⟩ := (h.round i).of_served (Or.inr (Or.inl hat))
    refine h.by_officer (h.locked_work (by rw [hat]; rfl) rfl rfl rfl rfl rfl) rfl
      (fun _ _ => rfl) (fun _ _ => rfl) rfl rfl ?_
    exact .served p (Or.inr (Or.inr (Function.update_self ..))) honly hp hbusy hname
  case searching =>
    split at hstep
    · obtain rfl := Except.ok.inj hstep
      exact h
    · obtain rfl := Except.ok.inj hstep
      exact h.direct hat _
  case dismissing =>
    obtain rfl := Except.ok.inj hstep
    exact h.dismiss hat
  case parting =>
    obtain ⟨t, ht, hs'⟩ := bind_eq_ok hstep
    obtain rfl := Except.ok.inj hs'
    exact h.part hat ht
  case closing =>
    obtain rfl := Except.ok.inj hstep
    refine h.on_its_own ?_ (Or.inr (Or.inr (Or.inr (Or.inr hat)))) (Or.inl rfl) rfl rfl
      (fun _ _ => rfl) rfl rfl
    refine h.locked.releaseLock i (point_officer rfl rfl) ⟨rfl, ?_⟩ ?_ rfl rfl ?_ fun j _ habs => ?_
    · show (s.officer i).holdsLock = true
      rw [hat]
      rfl
    · simp [holdsLock, OfficerPoint.holdsLock]
    · intro habs
      exact absurd habs (by simp [holdsLines, OfficerPoint.holdsLines])
    · exact absurd habs (by simp [holdsLock, OfficerPoint.holdsLock])

/-- Every step in which a passenger takes an officer that is free keeps the rounds. -/
theorem Sound.step (h : s.Sound) {turn : Turn n m} (hguard : TakesFree counter s turn)
    (hstep : step counter turn s = .ok s') : s'.Sound := by
  unfold Screening.step at hstep
  split at hstep
  · rename_i p hagent
    by_cases hvisit : (s.passenger p).visit = none
    · exact h.step_apart hvisit (fun i htaken => hguard p i hagent htaken) hstep
    · exact h.step_visiting hvisit hstep
  · exact h.step_officer hstep

/-- A passenger that has claimed an officer visits it. -/
theorem Claims.visit (h : s.Claims p i) : (s.passenger p).visit = some i := by
  rcases h with hat | hat | hat | hat | ⟨hat, -⟩
  all_goals
    rw [hat]
    rfl

/-- An officer in its round has one visitor at most. -/
theorem Round.visitors {q : Fin n} (h : s.Round i) (hp : (s.passenger p).visit = some i)
    (hq : (s.passenger q).visit = some i) : p = q := by
  cases h with
  | alone hoff hvisit hqueue => exact absurd hp (hvisit p)
  | vacant hoff hvisit => exact absurd hp (hvisit p)
  | coming u hoff hvisit hat hbusy => exact (hvisit p hp).trans (hvisit q hq).symm
  | served u hoff hvisit hat hbusy hname => exact (hvisit p hp).trans (hvisit q hq).symm
  | told u hoff hvisit hat hbusy => exact (hvisit p hp).trans (hvisit q hq).symm

/-- The name of a passenger that has not been directed is in its place. -/
theorem Round.name (h : s.Round i) (hp : s.HasHanded p i) : s.spPassenger i = p.val := by
  have hvisits : (s.passenger p).visit = some i := by
    rcases hp with hat | ⟨hat, -⟩
    all_goals
      rw [hat]
      rfl
  cases h with
  | alone hoff hvisit hqueue => exact absurd hvisits (hvisit p)
  | vacant hoff hvisit => exact absurd hvisits (hvisit p)
  | coming u hoff hvisit hat hbusy =>
      obtain rfl := hvisit p hvisits
      rcases hp with hp | ⟨hp, -⟩
      all_goals
        rw [hp] at hat
        simp at hat
  | served u hoff hvisit hat hbusy hname =>
      obtain rfl := hvisit p hvisits
      exact hname
  | told u hoff hvisit hat hbusy =>
      obtain rfl := hvisit p hvisits
      rcases hp with hp | ⟨-, hmem⟩
      · rw [hp] at hat
        simp at hat
      · rcases hoff with ⟨-, hqueue⟩ | ⟨-, hqueue⟩
        all_goals
          rw [hqueue] at hmem
          simp at hmem

theorem Sound.onePerOfficer (h : s.Sound) : s.OnePerOfficer :=
  ⟨fun i _ _ hp hq => (h.round i).visitors hp.visit hq.visit, fun i _ hp => (h.round i).name hp⟩

end Steps

/-- In every run in which the passengers take officers only that are free and have begun
their round, an officer is claimed by one passenger at most, and its slot of `SPInfo` keeps
the name of that passenger until it has been directed. -/
theorem screening_onePerOfficer (n m airlines : Nat) (spPassenger spSecurityOfficer : Fin m → Nat)
    (counter : Fin n → Nat) (s : Screening n m)
    (hrun : Reach (step counter) (TakesFree counter)
      (start n m airlines spPassenger spSecurityOfficer) s) : s.OnePerOfficer := by
  have hsound : s.Sound :=
    hrun.invariant (fun _ _ _ hu hguard hstep => hu.step hguard hstep)
      (sound_start n m airlines spPassenger spSecurityOfficer)
  exact hsound.onePerOfficer

/-- The officer a thread takes is free. -/
def takesFree (counter : Fin n → Nat) (s : Screening n m) (turn : Turn n m) : Bool :=
  match turn.agent with
  | .passenger p =>
      (taken counter s p).all fun i => !s.isBusy i && decide (s.officer i ≠ .beginning)
  | .officer _ => true

theorem takesFree_of_check (counter : Fin n → Nat) (s : Screening n m) (turn : Turn n m)
    (h : takesFree counter s turn = true) : TakesFree counter s turn := by
  intro p i hagent htaken
  unfold takesFree at h
  rw [hagent] at h
  simp only [htaken, Option.all_some, Bool.and_eq_true, Bool.not_eq_true',
    decide_eq_true_eq] at h
  exact h

/-- Twenty passengers of three airlines, and three officers. -/
def smallest : Screening 20 3 := start 20 3 3 (fun _ => 0) fun _ => 0

/-- The threads in the order of `agents`. -/
theorem exists_screening {check : Screening 20 3 → Turn 20 3 → Bool}
    {guard : Screening 20 3 → Turn 20 3 → Prop}
    (hcheck : ∀ u turn, check u turn = true → guard u turn) {P : Screening 20 3 → Prop}
    [DecidablePred P] (agents : List (Agent 20 3))
    (h : (replay (step fun _ => 0) check (agents.map fun a => ⟨a, true, some 0⟩)
      smallest).any (fun s => decide (P s)) = true) :
    ∃ s, Reach (step fun _ => 0) guard smallest s ∧ P s :=
  exists_reach_of_replay hcheck h

/-- The last officer begins, and the first passenger hands its name over. -/
theorem screening_onePerOfficer_one : ∃ s : Screening 20 3,
    Reach (step fun _ => 0) (TakesFree fun _ => 0) smallest s ∧ s.passenger 0 = .waiting 2 ∧
      s.OnePerOfficer := by
  obtain ⟨s, hrun, hat⟩ :=
    exists_screening (takesFree_of_check fun _ => 0) (P := fun s => s.passenger 0 = .waiting 2)
      (List.replicate 5 (.officer 2) ++ List.replicate 10 (.passenger 0)) (by decide +kernel)
  exact ⟨s, hrun, hat,
    screening_onePerOfficer 20 3 3 (fun _ => 0) (fun _ => 0) (fun _ => 0) s hrun⟩

/-- The first passenger in the line has chosen the last officer, and has yielded.  Another officer
begins its round and wakes the second passenger, which takes the last officer before the first
one comes back to it. -/
theorem officer_claimed_twice : ∃ s : Screening 20 3,
    Reach (step fun _ => 0) (fun _ _ => True) smallest s ∧ ¬ s.OnePerOfficer := by
  -- Both searches end with officer 2: nobody has set it busy when the second one is made.
  obtain ⟨s, hrun, hfirst, hsecond⟩ :=
    exists_screening (fun _ _ (_ : true = true) => trivial)
      (P := fun s => s.passenger 0 = .claimed 2 ∧ s.passenger 1 = .greeting 2)
      (List.replicate 4 (.passenger 0) ++ List.replicate 2 (.passenger 1) ++
        List.replicate 5 (.officer 0) ++ List.replicate 4 (.passenger 1) ++
        List.replicate 2 (.passenger 0)) (by decide +kernel)
  refine ⟨s, hrun, fun hone => ?_⟩
  have hsame : (0 : Fin 20) = 1 := hone.1 2 0 1 (Or.inl hfirst) (Or.inr (Or.inr (Or.inl hsecond)))
  exact absurd hsame (by decide)

end Screening

end Airport
end Nachos
