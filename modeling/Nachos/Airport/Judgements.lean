import Nachos.Airport.Security

/-!
# The verdicts of the security inspectors

The passengers in the line of an inspector, the one it attends to and the inspector itself all
sleep in `SecurityOfficerCV`, and a `Signal` wakes the one that has slept longest.  Here this is
taken to be the thread that the `Signal` is for: the inspector, in the `Wait` that the passenger
answers, or the passenger that waits for its verdict.

Then an inspector attends to one passenger at a time.  It calls a passenger, reads the name that
this passenger has left, leaves its verdict in `SecPInfo` for the same passenger, and waits until
that has left.  So whoever goes to the gate has been counted once.
-/

namespace Nachos
namespace Airport

open Lib

/-- What an inspector has found out about the passenger whose name it has read;
`didPassScreening` is the entry of `ScreeningResult` under that name. -/
structure Judgement where
  inspector : Nat
  name : Nat
  questioning : Bool
  didPassScreening : Bool
  securityPass : Bool
  deriving DecidableEq, Repr

/-- `TotalPass`. -/
def Judgement.totalPass (j : Judgement) : Bool :=
  j.questioning || (j.didPassScreening && j.securityPass)

/-- The judgements under the name of a passenger: whether it had been at the questioning, and
`TotalPass`. -/
def history {n : Nat} (judgements : List Judgement) (p : Fin n) : List (Bool × Bool) :=
  (judgements.filter fun j => j.name = p.val).map fun j => (j.questioning, j.totalPass)

namespace SecurityVisit

/-- The points between the two `Wait`s for inspector `k`, and behind the second one until the
passenger leaves. -/
@[simp]
def atDesk (k : Nat) : SecurityVisit → Bool
  | called j _ | named j _ | examined j _ | judged j _ | parting j _ | leaving j _ => j = k
  | _ => false

/-- The first `Wait` for inspector `k`. -/
@[simp]
def inLineOf (k : Nat) : SecurityVisit → Bool
  | inLine j _ => j = k
  | _ => false

/-- The passenger has been called and has not left its name. -/
@[simp]
def isComing (k : Nat) : SecurityVisit → Bool
  | inLine j _ | called j _ => j = k
  | _ => false

/-- The `Wait` for the verdict. -/
@[simp]
def awaitsVerdict : SecurityVisit → Bool
  | examined _ _ => true
  | _ => false

/-- The judgements under the name of a passenger before it is judged. -/
def before (again : Bool) : List (Bool × Bool) := if again then [(false, false)] else []

/-- The judgements under the name of a passenger that has been judged; `passed` is the first
verdict if that is the last one, too. -/
def behind (again passed : Bool) : List (Bool × Bool) :=
  if again then [(false, false), (true, true)] else [(false, passed)]

/-- The judgements under the name of a passenger, where its point tells. -/
def Told (judgements : List (Bool × Bool)) : SecurityVisit → Prop
  | arriving | lining _ | stepping _ => judgements = before false
  | entering _ again | entered _ again | inLine _ again | called _ again =>
      judgements = before again
  | named _ _ | examined _ _ | judged _ _ => True
  | parting _ passed | leaving _ passed | released _ passed | departing _ passed =>
      ∃ again, (again = true → passed = true) ∧ judgements = behind again passed
  | questioned _ | returning _ | relining _ | backing _ | back _ | lingering _ | roused _ =>
      judgements = before true
  | left => ∃ again, judgements = behind again true

end SecurityVisit

namespace InspectorPoint

/-- The points from the end of a round to the `Signal` that calls a passenger. -/
@[simp]
def isIdle : InspectorPoint → Bool
  | beginning | lining | locking | checking | checked | freeing | ready | expecting | woken
  | closing => true
  | _ => false

end InspectorPoint

namespace Security

variable {n : Nat}

/-- The judgement that an inspector makes in its next step. -/
def judgement (s : Security n) (k : Nat) (screeningResult : Nat → Bool) (securityPass : Bool) :
    Judgement :=
  let info := s.secPInfo k
  ⟨k, info.passenger, info.questioning, screeningResult info.passenger, securityPass⟩

/-- The judgements that are made in the next step of an inspector. -/
def judges (s : Security n) (k : Nat) (screeningResult : Nat → Bool) (securityPass : Bool) :
    List Judgement :=
  if s.inspector k = .examining then [s.judgement k screeningResult securityPass] else []

/-- What a passenger reads in its next step: `NotTerrorist = SecPInfo[myLine].PassedSecurity`. -/
def reads (s : Security n) (p : Fin n) : Option Bool :=
  match s.passenger p with
  | .judged k false => some (s.secPInfo k).passedSecurity
  | _ => none

/-- A `Signal` wakes nobody, or inspector `k` in the `Wait` at `q`. -/
def WakesInspector (s : Security n) (k : Nat) (q : InspectorPoint) : Prop :=
  s.securityOfficerCV k = [] ∨
    ((s.securityOfficerCV k).head? = some none ∧ s.inspector k = q)

instance (s : Security n) (k : Nat) (q : InspectorPoint) : Decidable (s.WakesInspector k q) :=
  inferInstanceAs (Decidable (_ ∨ _ ∧ _))

/-- A `Signal` wakes nobody, or a passenger that waits for its verdict. -/
def WakesExamined (s : Security n) (k : Nat) : Prop :=
  ∀ w ∈ (s.securityOfficerCV k).head?, ∃ p ∈ w, (s.passenger p).awaitsVerdict = true

instance (s : Security n) (k : Nat) : Decidable (s.WakesExamined k) :=
  inferInstanceAs (Decidable (∀ _ ∈ _, _))

/-- The `Wait` of an inspector that a passenger answers in its next step, if it makes a
`Signal`. -/
def answers (s : Security n) (p : Fin n) : Option (Nat × InspectorPoint) :=
  match s.passenger p with
  | .lining k => if s.securityLine k + 1 = 1 then some (k, .expecting) else none
  | .back k => if s.securityLine k = 1 then some (k, .expecting) else none
  | .roused k => some (k, .expecting)
  | .called k _ => some (k, .attending)
  | .leaving k _ => some (k, .parting)
  | _ => none

/-- `NotTerrorist` of the passengers behind the next step of one of them. -/
def remember (s : Security n) (p : Fin n) (notTerrorist : Fin n → Option Bool) :
    Fin n → Option Bool :=
  match s.reads p with
  | some passed => Function.update notTerrorist p (some passed)
  | none => notTerrorist

/-- If the next step of a passenger is a `Signal`, it wakes nobody that it is not for. -/
def PassengerMeant (s : Security n) (p : Fin n) : Prop :=
  ∀ a ∈ s.answers p, s.WakesInspector a.1 a.2

instance (s : Security n) (p : Fin n) : Decidable (s.PassengerMeant p) :=
  inferInstanceAs (Decidable (∀ _ ∈ _, _))

/-- If the next step of an inspector tells a passenger its verdict, it wakes no other thread. -/
def InspectorMeant (s : Security n) (k : Nat) : Prop :=
  s.inspector k = .examining → s.WakesExamined k

instance (s : Security n) (k : Nat) : Decidable (s.InspectorMeant k) :=
  inferInstanceAs (Decidable (_ → _))

/-- Inspector `k` has called the passenger, and the passenger has not left. -/
def Client (s : Security n) (k : Nat) (p : Fin n) : Prop :=
  (s.passenger p).atDesk k = true ∨
    ((s.passenger p).inLineOf k = true ∧ some p ∉ s.securityOfficerCV k)

/-- The inspector has told its verdict and waits, or will wait, for the passenger to leave. -/
def Dismisses (s : Security n) (k : Nat) : Prop :=
  s.inspector k = .dismissing ∨
    (s.inspector k = .parting ∧ none ∈ s.securityOfficerCV k)

/-- Inspector `k` has called a passenger, or nobody. -/
structure Calls (s : Security n) (k : Nat) : Prop where
  point : s.inspector k = .greeting ∨
    (s.inspector k = .attending ∧ none ∈ s.securityOfficerCV k)
  one : ∀ q q', s.Client k q → s.Client k q' → q = q'
  coming : ∀ q, s.Client k q → (s.passenger q).isComing k = true

/-- Passenger `p` has left its name with inspector `k`. -/
structure Names (s : Security n) (judgements : List Judgement) (k : Nat) (p : Fin n)
    (again : Bool) : Prop where
  point : s.inspector k = .greeting ∨ s.inspector k = .attending ∨ s.inspector k = .examining
  one : ∀ q, s.Client k q → q = p
  visit : s.passenger p = .named k again ∨
    (s.passenger p = .examined k again ∧ some p ∈ s.securityOfficerCV k)
  name : (s.secPInfo k).passenger = p.val
  questioning : (s.secPInfo k).questioning = again
  told : history judgements p = SecurityVisit.before again

/-- Inspector `k` has judged passenger `p`, and its verdict has not been read. -/
structure Serves (s : Security n) (judgements : List Judgement) (k : Nat) (p : Fin n)
    (again : Bool) : Prop where
  point : s.Dismisses k
  one : ∀ q, s.Client k q → q = p
  visit : s.passenger p = .named k again ∨ s.passenger p = .examined k again ∨
    s.passenger p = .judged k again
  told : history judgements p = SecurityVisit.behind again (s.secPInfo k).passedSecurity

/-- Passenger `p` has read its verdict. -/
structure Parts (s : Security n) (k : Nat) (p : Fin n) : Prop where
  point : s.Dismisses k
  one : ∀ q, s.Client k q → q = p
  visit : ∃ passed, s.passenger p = .parting k passed ∨ s.passenger p = .leaving k passed

/-- The stages of a round of inspector `k`. -/
inductive Stage (s : Security n) (judgements : List Judgement) (k : Nat) : Prop
  | idle (hat : (s.inspector k).isIdle = true) (hnone : ∀ q, ¬ s.Client k q)
  | calling (h : s.Calls k)
  | naming (p : Fin n) (again : Bool) (h : s.Names judgements k p again)
  | serving (p : Fin n) (again : Bool) (h : s.Serves judgements k p again)
  | leaving (p : Fin n) (h : s.Parts k p)
  | done (hat : s.inspector k = .dismissing ∨ s.inspector k = .parting)
      (hnone : ∀ q, ¬ s.Client k q)

/-- What runs keep in which each `Signal` is meant for the thread that it wakes. -/
structure Kept (s : Security n) (judgements : List Judgement)
    (notTerrorist : Fin n → Option Bool) : Prop where
  stage : ∀ k, s.Stage judgements k
  told : ∀ p, (s.passenger p).Told (history judgements p)
  read : ∀ p passed, notTerrorist p = some passed →
    (history judgements p).head? = some (false, passed)
  names : ∀ j ∈ judgements, j.name < n
  booked : ∀ k, s.passedPassengers k =
    (judgements.filter fun j => j.inspector = k ∧ j.totalPass = true).length

section Steps

variable {s s' : Security n} {k : Nat}

theorem acquireLines_eq {t : SecurityThread n} (h : s.acquireLines t = .ok s') :
    s' = { s with securityLines := some t } := by
  unfold acquireLines at h
  split at h
  · exact (Except.ok.inj h).symm
  · exact absurd h (by simp)

theorem acquireAvail_eq {t : SecurityThread n} (h : s.acquireAvail t = .ok s') :
    s' = { s with securityAvail := some t } := by
  unfold acquireAvail at h
  split at h
  · exact (Except.ok.inj h).symm
  · exact absurd h (by simp)

theorem acquireLock_eq {t : SecurityThread n} (h : s.acquireLock k t = .ok s') :
    s' = { s with securityLocks := Function.update s.securityLocks k (some t) } := by
  unfold acquireLock at h
  split at h
  · exact (Except.ok.inj h).symm
  · exact absurd h (by simp)

theorem resume_eq {w : Option (Fin n)} {t : SecurityThread n} (h : s.resume k w t = .ok s') :
    w ∉ s.securityOfficerCV k ∧
      s' = { s with securityLocks := Function.update s.securityLocks k (some t) } := by
  unfold resume at h
  split at h
  · exact absurd h (by simp)
  · rename_i hnot
    exact ⟨hnot, acquireLock_eq h⟩

end Steps

section Stages

variable {s s' : Security n} {judgements judgements' : List Judgement} {k : Nat} {p : Fin n}
  {again : Bool}

theorem Client.line (h : s.Client k p) : (s.passenger p).line = some k := by
  unfold Client at h
  generalize s.passenger p = v at h
  cases v
  all_goals simp at h
  all_goals simp [SecurityVisit.line, h]

theorem Client.keep (h : s'.Client k p) (hvisit : s'.passenger p = s.passenger p)
    (hqueue : some p ∈ s.securityOfficerCV k → some p ∈ s'.securityOfficerCV k) :
    s.Client k p := by
  unfold Client at h ⊢
  rw [← hvisit]
  exact h.imp_right fun hline => ⟨hline.1, mt hqueue hline.2⟩

/-- A `Signal` that wakes the inspector leaves the passengers asleep. -/
theorem WakesInspector.mem_tail {q : InspectorPoint} (h : s.WakesInspector k q)
    (hmem : some p ∈ s.securityOfficerCV k) : some p ∈ (s.securityOfficerCV k).tail := by
  rcases h with hempty | ⟨hhead, -⟩
  · rw [hempty] at hmem
    exact absurd hmem (by simp)
  · obtain ⟨w, rest, hqueue⟩ := List.exists_cons_of_ne_nil (List.ne_nil_of_mem hmem)
    rw [hqueue] at hhead hmem ⊢
    obtain rfl := Option.some.inj hhead
    rcases List.mem_cons.mp hmem with habs | hrest
    · exact absurd habs (by simp)
    · exact hrest

theorem Names.client (h : s.Names judgements k p again) : s.Client k p := by
  refine Or.inl ?_
  rcases h.visit with hat | ⟨hat, -⟩
  · simp [hat]
  · simp [hat]

theorem Serves.client (h : s.Serves judgements k p again) : s.Client k p := by
  refine Or.inl ?_
  rcases h.visit with hat | hat | hat
  · simp [hat]
  · simp [hat]
  · simp [hat]

theorem Parts.client (h : s.Parts k p) : s.Client k p := by
  obtain ⟨passed, hat | hat⟩ := h.visit
  · exact Or.inl (by simp [hat])
  · exact Or.inl (by simp [hat])

theorem Dismisses.mono (h : s.Dismisses k) (hinspector : s'.inspector k = s.inspector k)
    (hqueue : ∀ w ∈ s.securityOfficerCV k, w ∈ s'.securityOfficerCV k) : s'.Dismisses k := by
  unfold Dismisses at h ⊢
  rw [hinspector]
  exact h.imp_right fun hparting => ⟨hparting.1, hqueue none hparting.2⟩

/-- Nothing happens to the inspector and to whom it attends. -/
theorem Stage.frame (h : s.Stage judgements k) (hinspector : s'.inspector k = s.inspector k)
    (hinfo : s'.secPInfo k = s.secPInfo k)
    (hqueue : ∀ w ∈ s.securityOfficerCV k, w ∈ s'.securityOfficerCV k)
    (hafter : ∀ q, s'.Client k q → s'.passenger q = s.passenger q)
    (hbefore : ∀ q, s.Client k q → s'.passenger q = s.passenger q ∧
      history judgements' q = history judgements q) : s'.Stage judgements' k := by
  have hback : ∀ q, s'.Client k q → s.Client k q := fun q hq => hq.keep (hafter q hq) (hqueue _)
  cases h with
  | idle hat hnone =>
      exact .idle (by rw [hinspector]; exact hat) fun q hq => hnone q (hback q hq)
  | calling h =>
      refine .calling ⟨?_, fun q q' hq hq' => h.one q q' (hback q hq) (hback q' hq'),
        fun q hq => ?_⟩
      · rw [hinspector]
        exact h.point.imp_right fun hat => ⟨hat.1, hqueue none hat.2⟩
      · rw [hafter q hq]
        exact h.coming q (hback q hq)
  | naming p again h =>
      obtain ⟨hvisit, htold⟩ := hbefore p h.client
      refine .naming p again ⟨by rw [hinspector]; exact h.point, fun q hq => h.one q (hback q hq),
        ?_, by rw [hinfo]; exact h.name, by rw [hinfo]; exact h.questioning,
        htold.trans h.told⟩
      rw [hvisit]
      exact h.visit.imp_right fun hat => ⟨hat.1, hqueue _ hat.2⟩
  | serving p again h =>
      obtain ⟨hvisit, htold⟩ := hbefore p h.client
      refine .serving p again ⟨h.point.mono hinspector hqueue, fun q hq => h.one q (hback q hq),
        by rw [hvisit]; exact h.visit, ?_⟩
      rw [htold, hinfo]
      exact h.told
  | leaving p h =>
      obtain ⟨hvisit, -⟩ := hbefore p h.client
      exact .leaving p ⟨h.point.mono hinspector hqueue, fun q hq => h.one q (hback q hq),
        by rw [hvisit]; exact h.visit⟩
  | done hat hnone =>
      exact .done (by rw [hinspector]; exact hat) fun q hq => hnone q (hback q hq)

/-- An inspector that is on its own attends to nobody. -/
theorem Stage.no_client (h : s.Stage judgements k) (hat : (s.inspector k).isIdle = true) :
    ∀ q, ¬ s.Client k q := by
  cases h with
  | idle _ hnone => exact hnone
  | calling h =>
      rcases h.point with hpoint | ⟨hpoint, -⟩
      · simp [hpoint] at hat
      · simp [hpoint] at hat
  | naming p again h =>
      rcases h.point with hpoint | hpoint | hpoint
      all_goals simp [hpoint] at hat
  | serving p again h =>
      rcases h.point with hpoint | ⟨hpoint, -⟩
      · simp [hpoint] at hat
      · simp [hpoint] at hat
  | leaving p h =>
      rcases h.point with hpoint | ⟨hpoint, -⟩
      · simp [hpoint] at hat
      · simp [hpoint] at hat
  | done hpoint _ =>
      rcases hpoint with hpoint | hpoint
      · simp [hpoint] at hat
      · simp [hpoint] at hat

/-- A passenger that has been called has not been judged. -/
theorem Stage.calls (h : s.Stage judgements k) (hp : s.Client k p)
    (hat : (s.passenger p).isComing k = true) : s.Calls k := by
  cases h with
  | idle _ hnone => exact absurd hp (hnone p)
  | calling h => exact h
  | naming q again h =>
      obtain rfl := h.one p hp
      rcases h.visit with hvisit | ⟨hvisit, -⟩
      · simp [hvisit] at hat
      · simp [hvisit] at hat
  | serving q again h =>
      obtain rfl := h.one p hp
      rcases h.visit with hvisit | hvisit | hvisit
      all_goals simp [hvisit] at hat
  | leaving q h =>
      obtain rfl := h.one p hp
      obtain ⟨passed, hvisit | hvisit⟩ := h.visit
      · simp [hvisit] at hat
      · simp [hvisit] at hat
  | done _ hnone => exact absurd hp (hnone p)

/-- A passenger that has left its name is judged, or will be. -/
theorem Stage.names_or_serves (h : s.Stage judgements k)
    (hat : s.passenger p = .named k again ∨ s.passenger p = .examined k again ∨
      s.passenger p = .judged k again) :
    s.Names judgements k p again ∨ s.Serves judgements k p again := by
  have hp : s.Client k p := by
    refine Or.inl ?_
    rcases hat with hat | hat | hat
    all_goals simp [hat]
  cases h with
  | idle _ hnone => exact absurd hp (hnone p)
  | calling h =>
      have hcoming := h.coming p hp
      rcases hat with hat | hat | hat
      all_goals simp [hat] at hcoming
  | naming q other h =>
      obtain rfl := h.one p hp
      refine Or.inl ?_
      suffices hsame : other = again by rwa [hsame] at h
      rcases h.visit with hvisit | ⟨hvisit, -⟩
      · rw [hvisit] at hat
        simpa using hat
      · rw [hvisit] at hat
        simpa using hat
  | serving q other h =>
      obtain rfl := h.one p hp
      refine Or.inr ?_
      suffices hsame : other = again by rwa [hsame] at h
      rcases h.visit with hvisit | hvisit | hvisit
      all_goals
        rw [hvisit] at hat
        simpa using hat
  | leaving q h =>
      obtain rfl := h.one p hp
      obtain ⟨passed, hvisit | hvisit⟩ := h.visit
      · simp [hvisit] at hat
      · simp [hvisit] at hat
  | done _ hnone => exact absurd hp (hnone p)

/-- A passenger that has read its verdict is the one that the inspector waits for. -/
theorem Stage.parts (h : s.Stage judgements k) {passed : Bool}
    (hat : s.passenger p = .parting k passed ∨ s.passenger p = .leaving k passed) :
    s.Parts k p := by
  have hp : s.Client k p := by
    refine Or.inl ?_
    rcases hat with hat | hat
    all_goals simp [hat]
  cases h with
  | idle _ hnone => exact absurd hp (hnone p)
  | calling h =>
      have hcoming := h.coming p hp
      rcases hat with hat | hat
      all_goals simp [hat] at hcoming
  | naming q other h =>
      obtain rfl := h.one p hp
      rcases h.visit with hvisit | ⟨hvisit, -⟩
      all_goals simp [hvisit] at hat
  | serving q other h =>
      obtain rfl := h.one p hp
      rcases h.visit with hvisit | hvisit | hvisit
      all_goals simp [hvisit] at hat
  | leaving q h =>
      obtain rfl := h.one p hp
      exact h
  | done _ hnone => exact absurd hp (hnone p)

end Stages

end Security

end Airport
end Nachos
