import Nachos.Airport.Arrays
import Nachos.Airport.ScreeningRounds
import Nachos.Airport.Security

/-!
# The indices at the screening and at the security inspectors

A passenger that is woken from the screening line takes the last officer that is not busy; if all
are, it takes the one with the number of its check-in counter, and there are more counters than
screening officers.  It goes on to the inspector that it reads in `SPInfo`, which is set if the
officer has told it to move on, but not if another passenger at the same officer has woken it.
-/

namespace Nachos
namespace Airport

open Lib

namespace Screening

variable {n m : Nat} {s s' : Screening n m} {counter : Fin n → Nat} {p : Fin n} {i : Fin m}

section Search

/-- A search begins with what it had. -/
theorem foldl_free (busy : Fin m → Bool) : ∀ (officers : List (Fin m)) (found : Option (Fin m)),
    officers.foldl (fun found i => if busy i then found else some i) found =
      (officers.foldl (fun found i => if busy i then found else some i) none).or found := by
  intro officers
  induction officers with
  | nil => exact fun found => rfl
  | cons i officers ih =>
      intro found
      rw [List.foldl_cons, List.foldl_cons, ih, ih (if busy i then none else some i),
        Option.or_assoc]
      split
      · rw [Option.none_or]
      · rw [Option.some_or]

/-- An officer that is not busy is taken, whatever `myLine` was. -/
theorem findFree_of_free (h : s.findFree none = some i) (myLine : Option (Fin m)) :
    s.findFree myLine = some i := by
  unfold findFree at h ⊢
  rw [foldl_free, h, Option.some_or]

/-- `myLine` behind the search of a passenger that has been woken. -/
def lineTaken (counter : Fin n → Nat) (s : Screening n m) (p : Fin n) : Nat :=
  ((s.findFree none).map Fin.val).getD (counter p)

/-- A passenger takes only an officer that is not busy and has begun its round, and finds one if it
has been woken from the line. -/
structure TakesOne (s : Screening n m) (p : Fin n) : Prop where
  returning : ∀ i, s.passenger p = .returning i → s.isBusy i = false ∧ s.officer i ≠ .beginning
  awake : s.passenger p = .awake →
    ∃ i, s.findFree none = some i ∧ s.isBusy i = false ∧ s.officer i ≠ .beginning

instance (s : Screening n m) (p : Fin n) : Decidable (s.TakesOne p) :=
  decidable_of_iff
    ((∀ i, s.passenger p = .returning i → s.isBusy i = false ∧ s.officer i ≠ .beginning) ∧
      (s.passenger p = .awake →
        ∃ i, s.findFree none = some i ∧ s.isBusy i = false ∧ s.officer i ≠ .beginning))
    ⟨fun h => ⟨h.1, h.2⟩, fun h => ⟨h.returning, h.awake⟩⟩

theorem TakesOne.takesFree (h : s.TakesOne p) (counter : Fin n → Nat) {turn : Turn n m}
    (hturn : turn.agent = .passenger p) : TakesFree counter s turn := by
  intro u i hu htaken
  obtain rfl := Agent.passenger.inj (hturn.symm.trans hu)
  unfold taken at htaken
  split at htaken
  · rename_i j hat
    obtain rfl := Option.some.inj htaken
    exact h.returning j hat
  · rename_i hat
    obtain ⟨j, hfind, hfree⟩ := h.awake hat
    rw [findFree_of_free hfind] at htaken
    obtain rfl := Option.some.inj htaken
    exact hfree
  · exact absurd htaken (by simp)

end Search

section Frames

/-- What a step of a passenger leaves alone, and how it comes to leave. -/
theorem passengerStep_frame (hstep : passengerStep counter p s = .ok s') :
    s'.officer = s.officer ∧ s'.spSecurityOfficer = s.spSecurityOfficer ∧
      ∃ q, s'.passenger = Function.update s.passenger p q ∧
        (∀ i, q = .leaving i → s.passenger p = .directed i) ∧
        (q = .gone → ∃ i, s.passenger p = .leaving i) := by
  unfold passengerStep at hstep
  cases hat : s.passenger p
  all_goals simp only [hat] at hstep
  case arriving | looking | chosen =>
    obtain ⟨t, ht, hs'⟩ := bind_eq_ok hstep
    obtain ⟨-, rfl⟩ := acquireLines_ok ht
    obtain rfl := Except.ok.inj hs'
    exact ⟨rfl, rfl, _, rfl, by simp, by simp⟩
  case queueing =>
    split at hstep
    all_goals
      obtain rfl := Except.ok.inj hstep
      exact ⟨rfl, rfl, _, rfl, by simp, by simp⟩
  case scanning =>
    split at hstep
    all_goals
      obtain rfl := Except.ok.inj hstep
      exact ⟨rfl, rfl, _, rfl, by simp, by simp⟩
  case inLine =>
    split at hstep
    · exact absurd hstep (by simp)
    · obtain ⟨t, ht, hs'⟩ := bind_eq_ok hstep
      obtain ⟨-, rfl⟩ := acquireLines_ok ht
      obtain rfl := Except.ok.inj hs'
      exact ⟨rfl, rfl, _, rfl, by simp, by simp⟩
  case awake =>
    split at hstep
    · obtain rfl := Except.ok.inj hstep
      exact ⟨rfl, rfl, _, rfl, by simp, by simp⟩
    · exact absurd hstep (by simp)
  case claimed i =>
    obtain ⟨t, ht, hs'⟩ := bind_eq_ok hstep
    obtain ⟨-, rfl⟩ := acquireLock_ok ht
    obtain rfl := Except.ok.inj hs'
    exact ⟨rfl, rfl, _, rfl, by simp, by simp⟩
  case waiting i =>
    obtain ⟨t, ht, hs'⟩ := bind_eq_ok hstep
    obtain ⟨-, -, rfl⟩ := resume_ok ht
    obtain rfl := Except.ok.inj hs'
    exact ⟨rfl, rfl, _, rfl, by simp, by simp⟩
  case returning i | entered i | greeting i | signalled i =>
    obtain rfl := Except.ok.inj hstep
    exact ⟨rfl, rfl, _, rfl, by simp, by simp⟩
  case directed i =>
    obtain rfl := Except.ok.inj hstep
    exact ⟨rfl, rfl, _, rfl, by simp, by simp⟩
  case leaving i =>
    obtain rfl := Except.ok.inj hstep
    exact ⟨rfl, rfl, _, rfl, by simp, by simp⟩
  case gone => exact absurd hstep (by simp)

/-- The inspectors whom the officers have found are less than `bound`. -/
def Found (bound : Nat) (s : Screening n m) : Prop :=
  ∀ i, s.officer i = .dismissing ∨ s.officer i = .parting → s.spSecurityOfficer i < bound

variable {bound : Nat}

/-- An officer goes on without a new inspector. -/
theorem Found.post (h : s.Found bound) {q : OfficerPoint}
    (hofficer : s'.officer = Function.update s.officer i q)
    (hfound : s'.spSecurityOfficer = s.spSecurityOfficer)
    (hq : q = .dismissing ∨ q = .parting → s.officer i = .dismissing) : s'.Found bound := by
  intro j hj
  rw [hfound]
  rw [hofficer] at hj
  by_cases hji : j = i
  · subst hji
    rw [Function.update_self] at hj
    exact h j (Or.inl (hq hj))
  · rw [Function.update_of_ne hji] at hj
    exact h j hj

theorem Found.officer (h : s.Found bound) {turn : Turn n m}
    (hturn : ∀ k, turn.securityOfficer = some k → k < bound)
    (hstep : officerStep turn i s = .ok s') : s'.Found bound ∧ s'.passenger = s.passenger := by
  unfold officerStep at hstep
  cases hat : s.officer i
  all_goals simp only [hat] at hstep
  case beginning =>
    obtain ⟨t, ht, hs'⟩ := bind_eq_ok hstep
    obtain ⟨-, rfl⟩ := acquireLines_ok ht
    obtain rfl := Except.ok.inj hs'
    exact ⟨h.post rfl rfl (by simp), rfl⟩
  case reset =>
    obtain ⟨t, ht, hs'⟩ := bind_eq_ok hstep
    obtain ⟨-, rfl⟩ := acquireLock_ok ht
    obtain rfl := Except.ok.inj hs'
    exact ⟨h.post rfl rfl (by simp), rfl⟩
  case expecting | parting =>
    obtain ⟨t, ht, hs'⟩ := bind_eq_ok hstep
    obtain ⟨-, -, rfl⟩ := resume_ok ht
    obtain rfl := Except.ok.inj hs'
    exact ⟨h.post rfl rfl (by simp), rfl⟩
  case resetting | ready | opened | examining | closing =>
    obtain rfl := Except.ok.inj hstep
    exact ⟨h.post rfl rfl (by simp), rfl⟩
  case dismissing =>
    obtain rfl := Except.ok.inj hstep
    exact ⟨h.post rfl rfl fun _ => hat, rfl⟩
  case searching =>
    split at hstep
    · obtain rfl := Except.ok.inj hstep
      exact ⟨h, rfl⟩
    · rename_i k hk
      obtain rfl := Except.ok.inj hstep
      refine ⟨fun j hj => ?_, rfl⟩
      by_cases hji : j = i
      · subst hji
        simpa [Screening.post, Screening.signal] using hturn k hk
      · simp only [Screening.post, Screening.signal, Function.update_of_ne hji] at hj ⊢
        exact h j hj

/-- A passenger that has been told to move on finds an inspector in `SPInfo`. -/
theorem Found.directed (h : s.Found bound) (hsound : s.Sound)
    (hat : s.passenger p = .directed i) : s.spSecurityOfficer i < bound := by
  have hofficer := ((hsound.round i).of_told (Or.inr hat)).1
  exact h i (hofficer.imp And.left And.left)

/-- An officer examines a passenger that has handed its name over. -/
theorem Round.examining (h : s.Round i) (hat : s.officer i = .examining) :
    s.spPassenger i < n := by
  cases h with
  | alone hofficer hvisit hqueue => simp [hat] at hofficer
  | vacant hofficer hvisit => simp [Expects, hat] at hofficer
  | coming u hofficer hvisit hat' hbusy => simp [Expects, hat] at hofficer
  | served u hofficer hvisit hat' hbusy hname =>
      rw [hname]
      exact u.isLt
  | told u hofficer hvisit hat' hbusy => simp [hat] at hofficer

end Frames

section Uses

/-- What the next step of a passenger uses. -/
def passengerUses (s : Screening n m) (counter : Fin n → Nat) (p : Fin n) : List Access :=
  match s.passenger p with
  | .queueing => usesAt 0 [.screenLine, .screenLineCV]
  | .scanning => usesIn 0 m [.screen]
  | .returning i => usesAt i [.screen]
  | .awake => usesIn 0 m [.screen] ++ usesAt (lineTaken counter s p) [.screen]
  | .claimed i => usesAt i [.screenLocks]
  | .greeting i | .directed i => usesAt i [.spInfo, .screenOfficerCV, .screenLocks]
  | .signalled i => usesAt i [.screenOfficerCV, .screenLocks]
  | .leaving i => usesAt 0 [.screenLine] ++ usesAt i [.screenLocks]
  | .arriving | .looking | .chosen _ | .inLine | .entered _ | .waiting _ | .gone => []

/-- What the next step of an officer uses. -/
def officerUses (s : Screening n m) (i : Fin m) : List Access :=
  match s.officer i with
  | .resetting => usesAt 0 [.screenLine, .screenLineCV]
  | .reset | .closing => usesAt i [.screenLocks]
  | .opened | .dismissing => usesAt i [.screenOfficerCV, .screenLocks]
  | .examining => usesAt i [.spInfo] ++ usesAt (s.spPassenger i) [.screeningResult]
  | .searching =>
      usesIn 0 m [.securityAvailability] ++ usesAt i [.spInfo, .screenOfficerCV, .screenLocks]
  | .beginning | .ready | .expecting | .parting => []

theorem within_passengerUses (h : s.TakesOne p) (hscreens : m ≤ 5) :
    Within (s.passengerUses counter p) := by
  have hofficer : ∀ i : Fin m, (i : Nat) < 5 := fun i => Nat.lt_of_lt_of_le i.isLt hscreens
  unfold passengerUses
  split
  case h_4 hat =>
    obtain ⟨i, hfind, -⟩ := h.awake hat
    have hi := hofficer i
    simp [lineTaken, hfind]
    omega
  case h_2 hat =>
    simp
    omega
  case h_3 i hat | h_5 i hat | h_6 i hat | h_7 i hat | h_8 i hat | h_9 i hat =>
    have hi := hofficer i
    simp
    omega
  all_goals simp

theorem within_officerUses (h : s.Sound) (hscreens : m ≤ 5) (hpassengers : n ≤ 1000) :
    Within (s.officerUses i) := by
  have hi : (i : Nat) < 5 := Nat.lt_of_lt_of_le i.isLt hscreens
  unfold officerUses
  split
  case h_6 hat =>
    have hname := (h.round i).examining hat
    simp
    omega
  all_goals
    simp
    try omega

end Uses

end Screening

namespace Security

variable {n : Nat} {s : Security n} {p : Fin n} {k screens : Nat}

/-- What the next step of a passenger uses. -/
def passengerUses (s : Security n) (p : Fin n) : List Access :=
  match s.passenger p with
  | .lining k | .leaving k _ | .back k =>
      usesAt k [.securityLine, .securityOfficerCV, .securityLocks]
  | .stepping k | .released k _ | .backing k => usesAt k [.securityLocks]
  | .entered k _ | .named k _ | .roused k => usesAt k [.securityOfficerCV, .securityLocks]
  | .called k _ => usesAt k [.secPInfo, .securityOfficerCV, .securityLocks]
  | .judged k _ => usesAt k [.secPInfo]
  | .relining k => usesAt k [.securityLine, .securityAvailability]
  | .arriving | .entering _ _ | .inLine _ _ | .examined _ _ | .parting _ _ | .departing _ _
  | .questioned _ | .returning _ | .lingering _ | .left => []

/-- What the next step of inspector `k` uses. -/
def inspectorUses (s : Security n) (k : Nat) : List Access :=
  match s.inspector k with
  | .lining | .closing => usesAt k [.securityLocks]
  | .checking =>
      usesAt 0 [.securityLine, .securityLineCV] ++ usesAt k [.securityLocks, .securityAvailability]
  | .ready | .woken | .greeting | .dismissing => usesAt k [.securityOfficerCV, .securityLocks]
  | .examining =>
      usesAt k [.secPInfo, .securityOfficerCV, .securityLocks] ++
        usesAt (s.secPInfo k).passenger [.screeningResult]
  | .beginning | .locking | .checked | .freeing | .expecting | .attending | .parting => []

theorem within_passengerUses (hline : ∀ k, (s.passenger p).line = some k → k < screens)
    (hscreens : screens ≤ 5) : Within (s.passengerUses p) := by
  unfold passengerUses
  split
  case h_1 k hat | h_4 k hat | h_6 k hat | h_9 k hat | h_12 k hat =>
    have hk := hline k (by rw [hat]; rfl)
    simp
    omega
  case h_2 k x hat | h_3 k hat | h_5 k x hat | h_7 k x hat | h_8 k x hat | h_10 k x hat
      | h_11 k x hat =>
    have hk := hline k (by rw [hat]; rfl)
    simp
    omega
  all_goals simp

theorem within_inspectorUses (h : s.Heard) (hk : k < screens) (hscreens : screens ≤ 5)
    (hpassengers : n ≤ 1000) : Within (s.inspectorUses k) := by
  unfold inspectorUses
  split
  case h_8 hat =>
    have hname := h.name_lt hat
    simp
    omega
  all_goals
    simp
    try omega

end Security

end Airport
end Nachos
