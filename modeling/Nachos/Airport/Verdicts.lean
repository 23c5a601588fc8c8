import Nachos.Airport.Judgements

/-!
# The inspectors and their passengers

Each step of a passenger and of an inspector keeps the stages of the rounds, and with them what
the judgements say, as long as its `Signal` wakes nobody that it is not meant for.
-/

namespace Nachos
namespace Airport

open Lib

namespace SecurityVisit

/-- The judgements under the name of a passenger, wherever it is. -/
def Chronicle (judgements : List (Bool × Bool)) : Prop :=
  (∃ again, judgements = before again) ∨ ∃ again passed, judgements = behind again passed

theorem Told.chronicle {judgements : List (Bool × Bool)} {v : SecurityVisit}
    (h : v.Told judgements) (hnamed : ∀ k again, v ≠ named k again)
    (hexamined : ∀ k again, v ≠ examined k again) (hjudged : ∀ k again, v ≠ judged k again) :
    Chronicle judgements := by
  cases v with
  | named k again => exact absurd rfl (hnamed k again)
  | examined k again => exact absurd rfl (hexamined k again)
  | judged k again => exact absurd rfl (hjudged k again)
  | parting k passed | leaving k passed | released k passed | departing k passed =>
      obtain ⟨again, -, hbehind⟩ := h
      exact Or.inr ⟨again, passed, hbehind⟩
  | left =>
      obtain ⟨again, hbehind⟩ := h
      exact Or.inr ⟨again, true, hbehind⟩
  | _ => exact Or.inl ⟨_, h⟩

/-- There is one first verdict. -/
theorem Chronicle.first {judgements : List (Bool × Bool)} (h : Chronicle judgements)
    {passed : Bool} (hfirst : judgements.head? = some (false, passed)) :
    judgements.filter (fun j => !j.1) = [(false, passed)] := by
  rcases h with ⟨again, rfl⟩ | ⟨again, last, rfl⟩
  · cases again with
    | false => exact absurd hfirst (by simp [before])
    | true =>
        obtain rfl : false = passed := by simpa [before] using hfirst
        rfl
  · cases again with
    | false =>
        obtain rfl : last = passed := by simpa [behind] using hfirst
        rfl
    | true =>
        obtain rfl : false = passed := by simpa [behind] using hfirst
        rfl

end SecurityVisit

namespace Security

variable {n : Nat}

section Passengers

variable {s s' : Security n} {judgements : List Judgement} {notTerrorist : Fin n → Option Bool}
  {k : Nat} {p : Fin n} {q : SecurityVisit}

/-- A passenger goes on to another point; what becomes of the stages is left open. -/
theorem Kept.go (h : s.Kept judgements notTerrorist)
    (hpassenger : s'.passenger = Function.update s.passenger p q)
    (hpassed : s'.passedPassengers = s.passedPassengers)
    (hstage : ∀ k, s'.Stage judgements k) (htold : q.Told (history judgements p)) :
    s'.Kept judgements notTerrorist where
  stage := hstage
  told u := by
    rw [hpassenger]
    by_cases hu : u = p
    · rw [hu, Function.update_self]
      exact htold
    · rw [Function.update_of_ne hu]
      exact h.told u
  read := h.read
  names := h.names
  booked := by
    rw [hpassed]
    exact h.booked

/-- A passenger goes on that no inspector attends to, and wakes nobody. -/
theorem Kept.aside (h : s.Kept judgements notTerrorist)
    (hpassenger : s'.passenger = Function.update s.passenger p q)
    (hinspector : s'.inspector = s.inspector) (hinfo : s'.secPInfo = s.secPInfo)
    (hpassed : s'.passedPassengers = s.passedPassengers)
    (hqueue : ∀ k, ∀ w ∈ s.securityOfficerCV k, w ∈ s'.securityOfficerCV k)
    (hbefore : ∀ k, ¬ s.Client k p) (hafter : ∀ k, ¬ s'.Client k p)
    (htold : q.Told (history judgements p)) : s'.Kept judgements notTerrorist := by
  refine h.go hpassenger hpassed (fun k => ?_) htold
  refine (h.stage k).frame (by rw [hinspector]) (by rw [hinfo]) (hqueue k) (fun u hu => ?_)
    fun u hu => ⟨?_, rfl⟩
  · have hne : u ≠ p := by
      rintro rfl
      exact hafter k hu
    rw [hpassenger, Function.update_of_ne hne]
  · have hne : u ≠ p := by
      rintro rfl
      exact hbefore k hu
    rw [hpassenger, Function.update_of_ne hne]

/-- A passenger goes to sleep that no inspector attends to. -/
theorem Kept.sleep (h : s.Kept judgements notTerrorist) (hbefore : ∀ k, ¬ s.Client k p)
    (hdesk : ∀ j, q.atDesk j = false) (hline : ∀ j, q.inLineOf j = true → j = k)
    (htold : q.Told (history judgements p)) :
    ((s.wait k (some p)).go p q).Kept judgements notTerrorist := by
  refine h.aside rfl rfl rfl rfl (fun j w hw => ?_) hbefore (fun j hj => ?_) htold
  · change w ∈ Function.update s.securityOfficerCV k _ j
    by_cases hj : j = k
    · rw [hj] at hw ⊢
      rw [Function.update_self]
      exact List.mem_append_left _ hw
    · rw [Function.update_of_ne hj]
      exact hw
  · have hvisit : ((s.wait k (some p)).go p q).passenger p = q := Function.update_self ..
    unfold Client at hj
    rw [hvisit, hdesk j] at hj
    rcases hj with habs | ⟨hat, hnot⟩
    · exact absurd habs (by simp)
    · refine hnot ?_
      rw [hline j hat]
      simp [Security.go, Security.wait]

/-- A passenger goes on that no inspector attends to, and wakes an inspector that is on its
own. -/
theorem Kept.rouse (h : s.Kept judgements notTerrorist)
    (hpassenger : s'.passenger = Function.update s.passenger p q)
    (hinspector : s'.inspector = s.inspector) (hinfo : s'.secPInfo = s.secPInfo)
    (hpassed : s'.passedPassengers = s.passedPassengers)
    (hqueue : s'.securityOfficerCV =
      Function.update s.securityOfficerCV k (s.securityOfficerCV k).tail)
    (hmeant : s.WakesInspector k .expecting)
    (hbefore : ∀ k, ¬ s.Client k p) (hafter : ∀ k, ¬ s'.Client k p)
    (htold : q.Told (history judgements p)) : s'.Kept judgements notTerrorist := by
  rcases hmeant with hempty | ⟨hhead, hat⟩
  · -- nobody sleeps there
    refine h.aside hpassenger hinspector hinfo hpassed (fun j w hw => ?_) hbefore hafter htold
    rw [hqueue]
    by_cases hj : j = k
    · rw [hj, hempty] at hw
      exact absurd hw (by simp)
    · rw [Function.update_of_ne hj]
      exact hw
  refine h.go hpassenger hpassed (fun j => ?_) htold
  have hother : ∀ u, u ≠ p → s'.passenger u = s.passenger u := fun u hu => by
    rw [hpassenger, Function.update_of_ne hu]
  have hp : ∀ u, s'.Client j u → u ≠ p := by
    rintro u hu rfl
    exact hafter j hu
  by_cases hj : j = k
  · subst hj
    have hidle : (s.inspector j).isIdle = true := by rw [hat]; rfl
    refine .idle (by rw [hinspector]; exact hidle) fun u hu => ?_
    refine (h.stage j).no_client hidle u (hu.keep (hother u (hp u hu)) fun hmem => ?_)
    rw [hqueue, Function.update_self]
    exact WakesInspector.mem_tail (Or.inr ⟨hhead, hat⟩) hmem
  · refine (h.stage j).frame (by rw [hinspector]) (by rw [hinfo]) (fun w hw => ?_)
      (fun u hu => hother u (hp u hu)) fun u hu => ⟨hother u ?_, rfl⟩
    · rw [hqueue, Function.update_of_ne hj]
      exact hw
    · rintro rfl
      exact hbefore j hu

/-- A passenger goes on that is in the line of inspector `k`. -/
theorem Kept.at_desk (h : s.Kept judgements notTerrorist)
    (hpassenger : s'.passenger = Function.update s.passenger p q)
    (hinspector : s'.inspector = s.inspector)
    (hpassed : s'.passedPassengers = s.passedPassengers)
    (hinfo : ∀ j, j ≠ k → s'.secPInfo j = s.secPInfo j)
    (hqueue : ∀ j, j ≠ k → s'.securityOfficerCV j = s.securityOfficerCV j)
    (hbefore : (s.passenger p).line = some k) (hafter : q.line = some k)
    (hstage : s'.Stage judgements k) (htold : q.Told (history judgements p)) :
    s'.Kept judgements notTerrorist := by
  refine h.go hpassenger hpassed (fun j => ?_) htold
  by_cases hj : j = k
  · rw [hj]
    exact hstage
  · refine (h.stage j).frame (by rw [hinspector]) (hinfo j hj)
      (fun w hw => by rw [hqueue j hj]; exact hw) (fun u hu => ?_) fun u hu => ⟨?_, rfl⟩
    · have hne : u ≠ p := by
        rintro rfl
        have hline := hu.line
        rw [hpassenger, Function.update_self, hafter] at hline
        exact hj (Option.some.inj hline).symm
      rw [hpassenger, Function.update_of_ne hne]
    · have hne : u ≠ p := by
        rintro rfl
        have hline := hu.line
        rw [hbefore] at hline
        exact hj (Option.some.inj hline).symm
      rw [hpassenger, Function.update_of_ne hne]

/-- Who else inspector `k` attends to behind a step of passenger `p` in its line. -/
theorem client_of_ne {u : Fin n} (hpassenger : s'.passenger = Function.update s.passenger p q)
    (hqueue : ∀ u, some u ∈ s.securityOfficerCV k → some u ∈ s'.securityOfficerCV k)
    (hu : s'.Client k u) (hne : u ≠ p) : s.Client k u :=
  hu.keep (by rw [hpassenger, Function.update_of_ne hne]) (hqueue u)

/-- A passenger that has been called gets up. -/
theorem Calls.called (h : s.Calls k) {again : Bool} (hp : s.Client k p)
    (hpassenger : s'.passenger = Function.update s.passenger p (.called k again))
    (hinspector : s'.inspector = s.inspector)
    (hqueue : s'.securityOfficerCV = s.securityOfficerCV) : s'.Calls k := by
  have hback : ∀ u, s'.Client k u → s.Client k u := by
    intro u hu
    by_cases hne : u = p
    · rw [hne]
      exact hp
    · exact client_of_ne hpassenger (fun _ hmem => by rw [hqueue]; exact hmem) hu hne
  refine ⟨?_, fun u v hu hv => h.one u v (hback u hu) (hback v hv), fun u hu => ?_⟩
  · rw [hinspector, hqueue]
    exact h.point
  · rw [hpassenger]
    by_cases hne : u = p
    · rw [hne, Function.update_self]
      simp
    · rw [Function.update_of_ne hne]
      exact h.coming u (hback u hu)

/-- A passenger leaves its name, and wakes the inspector. -/
theorem Calls.name (h : s.Calls k) {again : Bool} (hat : s.passenger p = .called k again)
    (hmeant : s.WakesInspector k .attending)
    (htold : history judgements p = SecurityVisit.before again) :
    (((s.leaveName p k again).signal k).go p (.named k again)).Names judgements k p again where
  point := by
    rcases h.point with hpoint | ⟨hpoint, -⟩
    · exact Or.inl hpoint
    · exact Or.inr (Or.inl hpoint)
  one u hu := by
    by_contra hne
    have hp : s.Client k p := Or.inl (by simp [hat])
    refine hne (h.one u p (client_of_ne (p := p) (q := .named k again) rfl (fun v hv => ?_) hu hne)
      hp)
    change some v ∈ Function.update s.securityOfficerCV k _ k
    rw [Function.update_self]
    exact hmeant.mem_tail hv
  visit := Or.inl (Function.update_self ..)
  name := by simp [Security.go, Security.signal, leaveName]
  questioning := by simp [Security.go, Security.signal, leaveName]
  told := htold

/-- A passenger waits for its verdict. -/
theorem Stage.await (h : s.Stage judgements k) {again : Bool}
    (hat : s.passenger p = .named k again) :
    ((s.wait k (some p)).go p (.examined k again)).Stage judgements k := by
  have hqueue : ((s.wait k (some p)).go p (.examined k again)).securityOfficerCV k =
      s.securityOfficerCV k ++ [some p] := by
    simp [Security.go, Security.wait]
  have hmem : ∀ w ∈ s.securityOfficerCV k,
      w ∈ ((s.wait k (some p)).go p (.examined k again)).securityOfficerCV k := by
    intro w hw
    rw [hqueue]
    exact List.mem_append_left _ hw
  have hone : (∀ u, s.Client k u → u = p) →
      ∀ u, ((s.wait k (some p)).go p (.examined k again)).Client k u → u = p := by
    intro hone u hu
    by_contra hne
    exact hne (hone u (client_of_ne (p := p) (q := .examined k again) rfl (fun v hv => hmem _ hv)
      hu hne))
  rcases h.names_or_serves (Or.inl hat) with hnames | hserves
  · refine .naming p again ⟨hnames.point, hone hnames.one,
      Or.inr ⟨Function.update_self .., ?_⟩, hnames.name, hnames.questioning, hnames.told⟩
    rw [hqueue]
    simp
  · exact .serving p again ⟨hserves.point.mono rfl hmem, hone hserves.one,
      Or.inr (Or.inl (Function.update_self ..)), hserves.told⟩

/-- A passenger that has been told its verdict gets up. -/
theorem Serves.judged {again : Bool} (h : s.Serves judgements k p again)
    (hpassenger : s'.passenger = Function.update s.passenger p (.judged k again))
    (hinspector : s'.inspector = s.inspector) (hinfo : s'.secPInfo = s.secPInfo)
    (hqueue : s'.securityOfficerCV = s.securityOfficerCV) : s'.Serves judgements k p again where
  point := h.point.mono (by rw [hinspector]) fun w hw => by rw [hqueue]; exact hw
  one u hu := by
    by_contra hne
    exact hne (h.one u (client_of_ne hpassenger (fun _ hv => by rw [hqueue]; exact hv) hu hne))
  visit := Or.inr (Or.inr (by rw [hpassenger, Function.update_self]))
  told := by
    rw [hinfo]
    exact h.told

/-- A passenger is going to leave. -/
theorem Parts.intro (hpoint : s.Dismisses k) (hone : ∀ u, s.Client k u → u = p)
    (hq : ∃ passed, q = .parting k passed ∨ q = .leaving k passed)
    (hpassenger : s'.passenger = Function.update s.passenger p q)
    (hinspector : s'.inspector = s.inspector)
    (hqueue : s'.securityOfficerCV = s.securityOfficerCV) : s'.Parts k p where
  point := hpoint.mono (by rw [hinspector]) fun w hw => by rw [hqueue]; exact hw
  one u hu := by
    by_contra hne
    exact hne (hone u (client_of_ne hpassenger (fun _ hv => by rw [hqueue]; exact hv) hu hne))
  visit := by
    rw [hpassenger, Function.update_self]
    exact hq

/-- A passenger leaves, and wakes the inspector. -/
theorem Parts.leave (h : s.Parts k p) {passed : Bool} (hmeant : s.WakesInspector k .parting) :
    (((s.lengthen k (-1)).signal k).go p (.released k passed)).Stage judgements k := by
  refine .done ?_ fun u hu => ?_
  · rcases h.point with hpoint | ⟨hpoint, -⟩
    · exact Or.inl hpoint
    · exact Or.inr hpoint
  · by_cases hne : u = p
    · rw [hne] at hu
      simp [Client, Security.go] at hu
    · refine hne (h.one u (client_of_ne (p := p) (q := .released k passed) rfl (fun v hv => ?_) hu
        hne))
      change some v ∈ Function.update s.securityOfficerCV k _ k
      rw [Function.update_self]
      exact hmeant.mem_tail hv

theorem remember_of_ne (hat : ∀ k, s.passenger p ≠ .judged k false) :
    s.remember p notTerrorist = notTerrorist := by
  have hreads : s.reads p = none := by
    unfold reads
    split
    · rename_i k hjudged
      exact absurd hjudged (hat k)
    · rfl
  unfold remember
  rw [hreads]

/-- What a passenger reads is the verdict under its name. -/
theorem Kept.remember (h : s.Kept judgements notTerrorist) {again : Bool}
    (hat : s.passenger p = .judged k again) :
    s.Kept judgements (s.remember p notTerrorist) := by
  refine ⟨h.stage, h.told, fun u passed hread => ?_, h.names, h.booked⟩
  cases again with
  | true =>
      rw [remember_of_ne (by simp [hat])] at hread
      exact h.read u passed hread
  | false =>
      have hserves : s.Serves judgements k p false := by
        rcases (h.stage k).names_or_serves (Or.inr (Or.inr hat)) with hnames | hserves
        · rcases hnames.visit with hvisit | ⟨hvisit, -⟩
          all_goals simp [hat] at hvisit
        · exact hserves
      have hremember : s.remember p notTerrorist =
          Function.update notTerrorist p (some (s.secPInfo k).passedSecurity) := by
        unfold Security.remember reads
        rw [hat]
      rw [hremember] at hread
      by_cases hu : u = p
      · rw [hu, Function.update_self] at hread
        rw [hu, hserves.told, ← Option.some.inj hread]
        rfl
      · rw [Function.update_of_ne hu] at hread
        exact h.read u passed hread

/-- A step of a passenger. -/
theorem Kept.passenger (h : s.Kept judgements notTerrorist) {line : Nat}
    (hmeant : s.PassengerMeant p) (hstep : s.passengerStep line p = .ok s') :
    s'.Kept judgements (s.remember p notTerrorist) := by
  have htold := h.told p
  unfold PassengerMeant answers at hmeant
  unfold passengerStep at hstep
  cases hat : s.passenger p with
  | arriving =>
      rw [hat] at hstep htold
      obtain ⟨t, ht, hs'⟩ := bind_eq_ok hstep
      obtain rfl := acquireLines_eq ht
      obtain rfl := Except.ok.inj hs'
      rw [remember_of_ne (by simp [hat])]
      exact h.aside rfl rfl rfl rfl (fun _ _ hw => hw) (by simp [Client, hat])
        (by simp [Client, Security.go]) htold
  | lining k =>
      rw [hat] at hstep htold hmeant
      obtain rfl := Except.ok.inj hstep
      rw [remember_of_ne (by simp [hat])]
      have hline : (s.lengthen k 1).securityLine k = s.securityLine k + 1 :=
        Function.update_self ..
      by_cases hone : s.securityLine k + 1 = 1
      · rw [if_pos (hline.trans hone)]
        exact h.rouse (k := k) rfl rfl rfl rfl rfl (hmeant _ (if_pos hone))
          (by simp [Client, hat]) (by simp [Client, Security.go]) htold
      · rw [if_neg fun habs => hone (hline.symm.trans habs)]
        exact h.aside rfl rfl rfl rfl (fun _ _ hw => hw) (by simp [Client, hat])
          (by simp [Client, Security.go]) htold
  | stepping k =>
      rw [hat] at hstep htold
      obtain ⟨t, ht, hs'⟩ := bind_eq_ok hstep
      obtain rfl := acquireLock_eq ht
      obtain rfl := Except.ok.inj hs'
      rw [remember_of_ne (by simp [hat])]
      exact h.aside rfl rfl rfl rfl (fun _ _ hw => hw) (by simp [Client, hat])
        (by simp [Client, Security.go]) htold
  | entering k again =>
      rw [hat] at hstep htold
      obtain rfl := Except.ok.inj hstep
      rw [remember_of_ne (by simp [hat])]
      exact h.aside rfl rfl rfl rfl (fun _ _ hw => hw) (by simp [Client, hat])
        (by simp [Client, Security.go]) htold
  | entered k again =>
      rw [hat] at hstep htold
      obtain rfl := Except.ok.inj hstep
      rw [remember_of_ne (by simp [hat])]
      exact h.sleep (by simp [Client, hat]) (by simp)
        (fun _ hj => (of_decide_eq_true hj).symm) htold
  | inLine k again =>
      rw [hat] at hstep htold
      obtain ⟨t, ht, hs'⟩ := bind_eq_ok hstep
      obtain ⟨hnot, rfl⟩ := resume_eq ht
      obtain rfl := Except.ok.inj hs'
      rw [remember_of_ne (by simp [hat])]
      have hp : s.Client k p := Or.inr ⟨by simp [hat], hnot⟩
      have hcalls := (h.stage k).calls hp (by simp [hat])
      exact h.at_desk (k := k) rfl rfl rfl (fun _ _ => rfl) (fun _ _ => rfl) (by rw [hat]; rfl) rfl
        (.calling (hcalls.called hp rfl rfl rfl)) htold
  | called k again =>
      rw [hat] at hstep htold hmeant
      obtain rfl := Except.ok.inj hstep
      rw [remember_of_ne (by simp [hat])]
      have hp : s.Client k p := Or.inl (by simp [hat])
      have hcalls := (h.stage k).calls hp (by simp [hat])
      refine h.at_desk (k := k) rfl rfl rfl (fun j hj => ?_) (fun j hj => ?_) (by rw [hat]; rfl) rfl
        (.naming p again (hcalls.name hat (hmeant _ rfl) htold)) trivial
      · simp [Security.go, Security.signal, leaveName, hj]
      · simp [Security.go, Security.signal, leaveName, hj]
  | named k again =>
      rw [hat] at hstep
      obtain rfl := Except.ok.inj hstep
      rw [remember_of_ne (by simp [hat])]
      refine h.at_desk (k := k) rfl rfl rfl (fun _ _ => rfl) (fun j hj => ?_) (by rw [hat]; rfl) rfl
        ((h.stage k).await hat) trivial
      simp [Security.go, Security.wait, hj]
  | examined k again =>
      rw [hat] at hstep
      obtain ⟨t, ht, hs'⟩ := bind_eq_ok hstep
      obtain ⟨hnot, rfl⟩ := resume_eq ht
      obtain rfl := Except.ok.inj hs'
      rw [remember_of_ne (by simp [hat])]
      have hserves : s.Serves judgements k p again := by
        rcases (h.stage k).names_or_serves (Or.inr (Or.inl hat)) with hnames | hserves
        · rcases hnames.visit with hvisit | ⟨-, hmem⟩
          · simp [hat] at hvisit
          · exact absurd hmem hnot
        · exact hserves
      exact h.at_desk (k := k) rfl rfl rfl (fun _ _ => rfl) (fun _ _ => rfl) (by rw [hat]; rfl) rfl
        (.serving p again (hserves.judged rfl rfl rfl rfl)) trivial
  | judged k again =>
      rw [hat] at hstep
      obtain rfl := Except.ok.inj hstep
      have hserves : s.Serves judgements k p again := by
        rcases (h.stage k).names_or_serves (Or.inr (Or.inr hat)) with hnames | hserves
        · rcases hnames.visit with hvisit | ⟨hvisit, -⟩
          all_goals simp [hat] at hvisit
        · exact hserves
      refine (h.remember hat).at_desk (k := k) rfl rfl rfl (fun _ _ => rfl) (fun _ _ => rfl)
        (by rw [hat]; rfl) rfl
        (.leaving p (Parts.intro hserves.point hserves.one ⟨_, Or.inl rfl⟩ rfl rfl rfl))
        ⟨again, ?_, ?_⟩
      · rintro rfl
        rfl
      · rw [hserves.told]
        cases again with
        | true => rfl
        | false => rfl
  | parting k passed =>
      rw [hat] at hstep htold
      obtain ⟨t, ht, hs'⟩ := bind_eq_ok hstep
      obtain rfl := acquireLines_eq ht
      obtain rfl := Except.ok.inj hs'
      rw [remember_of_ne (by simp [hat])]
      have hparts := (h.stage k).parts (Or.inl hat)
      exact h.at_desk (k := k) rfl rfl rfl (fun _ _ => rfl) (fun _ _ => rfl) (by rw [hat]; rfl) rfl
        (.leaving p (Parts.intro hparts.point hparts.one ⟨_, Or.inr rfl⟩ rfl rfl rfl)) htold
  | leaving k passed =>
      rw [hat] at hstep htold hmeant
      obtain rfl := Except.ok.inj hstep
      rw [remember_of_ne (by simp [hat])]
      have hparts := (h.stage k).parts (Or.inr hat)
      refine h.at_desk (k := k) rfl rfl rfl (fun _ _ => rfl) (fun j hj => ?_) (by rw [hat]; rfl) rfl
        (hparts.leave (hmeant _ rfl)) htold
      simp [Security.go, Security.signal, lengthen, hj]
  | released k passed =>
      rw [hat] at hstep htold
      obtain rfl := Except.ok.inj hstep
      rw [remember_of_ne (by simp [hat])]
      exact h.aside rfl rfl rfl rfl (fun _ _ hw => hw) (by simp [Client, hat])
        (by simp [Client, Security.go]) htold
  | departing k passed =>
      rw [hat] at hstep htold
      obtain rfl := Except.ok.inj hstep
      rw [remember_of_ne (by simp [hat])]
      obtain ⟨again, hagain, hhistory⟩ := htold
      cases passed with
      | true =>
          exact h.aside rfl rfl rfl rfl (fun _ _ hw => hw) (by simp [Client, hat])
            (by simp [Client, Security.go, releaseLines]) ⟨again, hhistory⟩
      | false =>
          have hfirst : again = false := by
            cases again with
            | true => exact absurd (hagain rfl) (by simp)
            | false => rfl
          rw [hfirst] at hhistory
          exact h.aside rfl rfl rfl rfl (fun _ _ hw => hw) (by simp [Client, hat])
            (by simp [Client, Security.go, releaseLines]) hhistory
  | questioned k =>
      rw [hat] at hstep htold
      obtain ⟨t, ht, hs'⟩ := bind_eq_ok hstep
      obtain rfl := acquireLines_eq ht
      obtain rfl := Except.ok.inj hs'
      rw [remember_of_ne (by simp [hat])]
      exact h.aside rfl rfl rfl rfl (fun _ _ hw => hw) (by simp [Client, hat])
        (by simp [Client, Security.go]) htold
  | returning k =>
      rw [hat] at hstep htold
      obtain ⟨t, ht, hs'⟩ := bind_eq_ok hstep
      obtain rfl := acquireAvail_eq ht
      obtain rfl := Except.ok.inj hs'
      rw [remember_of_ne (by simp [hat])]
      exact h.aside rfl rfl rfl rfl (fun _ _ hw => hw) (by simp [Client, hat])
        (by simp [Client, Security.go]) htold
  | relining k =>
      rw [hat] at hstep htold
      obtain rfl := Except.ok.inj hstep
      rw [remember_of_ne (by simp [hat])]
      exact h.aside rfl rfl rfl rfl (fun _ _ hw => hw) (by simp [Client, hat])
        (by simp [Client, Security.go]) htold
  | backing k =>
      rw [hat] at hstep htold
      obtain ⟨t, ht, hs'⟩ := bind_eq_ok hstep
      obtain rfl := acquireLock_eq ht
      obtain rfl := Except.ok.inj hs'
      rw [remember_of_ne (by simp [hat])]
      exact h.aside rfl rfl rfl rfl (fun _ _ hw => hw) (by simp [Client, hat])
        (by simp [Client, Security.go]) htold
  | back k =>
      rw [hat] at hstep htold hmeant
      simp only at hstep hmeant
      rw [remember_of_ne (by simp [hat])]
      by_cases hone : s.securityLine k = 1
      · rw [if_pos hone] at hstep
        obtain rfl := Except.ok.inj hstep
        exact h.rouse (k := k) rfl rfl rfl rfl rfl (hmeant _ (if_pos hone))
          (by simp [Client, hat]) (by simp [Client, Security.go]) htold
      · rw [if_neg hone] at hstep
        obtain rfl := Except.ok.inj hstep
        exact h.sleep (by simp [Client, hat]) (by simp) (by simp) htold
  | lingering k =>
      rw [hat] at hstep htold
      obtain ⟨t, ht, hs'⟩ := bind_eq_ok hstep
      obtain ⟨-, rfl⟩ := resume_eq ht
      obtain rfl := Except.ok.inj hs'
      rw [remember_of_ne (by simp [hat])]
      exact h.aside rfl rfl rfl rfl (fun _ _ hw => hw) (by simp [Client, hat])
        (by simp [Client, Security.go]) htold
  | roused k =>
      rw [hat] at hstep htold hmeant
      obtain rfl := Except.ok.inj hstep
      rw [remember_of_ne (by simp [hat])]
      exact h.rouse (k := k) rfl rfl rfl rfl rfl (hmeant _ rfl) (by simp [Client, hat])
        (by simp [Client, Security.go]) htold
  | left =>
      rw [hat] at hstep
      exact absurd hstep (by simp)

end Passengers

section Inspectors

variable {s s' : Security n} {judgements : List Judgement} {notTerrorist : Fin n → Option Bool}
  {k : Nat} {q : InspectorPoint}

/-- Inspector `k` goes on to another point, and judges nobody. -/
theorem Kept.post (h : s.Kept judgements notTerrorist) (hpassenger : s'.passenger = s.passenger)
    (hinspector : s'.inspector = Function.update s.inspector k q)
    (hinfo : s'.secPInfo = s.secPInfo) (hpassed : s'.passedPassengers = s.passedPassengers)
    (hqueue : ∀ j, j ≠ k → s'.securityOfficerCV j = s.securityOfficerCV j)
    (hstage : s'.Stage judgements k) : s'.Kept judgements notTerrorist where
  stage j := by
    by_cases hj : j = k
    · rw [hj]
      exact hstage
    · exact (h.stage j).frame (by rw [hinspector, Function.update_of_ne hj]) (by rw [hinfo])
        (fun w hw => by rw [hqueue j hj]; exact hw) (fun u _ => by rw [hpassenger])
        fun u _ => ⟨by rw [hpassenger], rfl⟩
  told p := by
    rw [hpassenger]
    exact h.told p
  read := h.read
  names := h.names
  booked := by
    rw [hpassed]
    exact h.booked

/-- Inspector `k` goes on that is on its own. -/
theorem Kept.idle (h : s.Kept judgements notTerrorist) (hpassenger : s'.passenger = s.passenger)
    (hinspector : s'.inspector = Function.update s.inspector k q)
    (hinfo : s'.secPInfo = s.secPInfo) (hpassed : s'.passedPassengers = s.passedPassengers)
    (hqueue : s'.securityOfficerCV = s.securityOfficerCV) (hat : (s.inspector k).isIdle = true)
    (hq : q.isIdle = true) : s'.Kept judgements notTerrorist := by
  refine h.post hpassenger hinspector hinfo hpassed (fun j _ => by rw [hqueue])
    (.idle (by rw [hinspector, Function.update_self]; exact hq) fun u hu => ?_)
  refine (h.stage k).no_client hat u (hu.keep (by rw [hpassenger]) fun hmem => ?_)
  rw [hqueue]
  exact hmem

/-- An inspector that has made the `Signal` for a passenger has called one, or read its name. -/
theorem Stage.calls_or_names (h : s.Stage judgements k)
    (hat : s.inspector k = .greeting ∨ s.inspector k = .attending ∨ s.inspector k = .examining) :
    s.Calls k ∨ ∃ p again, s.Names judgements k p again := by
  have hnot : ¬ (s.inspector k = .dismissing ∨ s.inspector k = .parting) := by
    rintro (hpoint | hpoint)
    all_goals simp [hpoint] at hat
  cases h with
  | idle hidle _ =>
      rcases hat with hat | hat | hat
      all_goals simp [hat] at hidle
  | calling h => exact Or.inl h
  | naming p again h => exact Or.inr ⟨p, again, h⟩
  | serving p again h => exact absurd (h.point.imp_right And.left) hnot
  | leaving p h => exact absurd (h.point.imp_right And.left) hnot
  | done hpoint _ => exact absurd hpoint hnot

theorem dismisses_wait (hpoint : s'.inspector k = .parting)
    (hqueue : s'.securityOfficerCV k = s.securityOfficerCV k ++ [none]) : s'.Dismisses k :=
  Or.inr ⟨hpoint, by rw [hqueue]; simp⟩

/-- The inspector sleeps until the passenger leaves. -/
theorem Stage.dismiss (h : s.Stage judgements k) (hat : s.inspector k = .dismissing) :
    ((s.wait k none).post k .parting).Stage judgements k := by
  have hpoint : ((s.wait k none).post k .parting).inspector k = .parting :=
    Function.update_self ..
  have hqueue : ((s.wait k none).post k .parting).securityOfficerCV k =
      s.securityOfficerCV k ++ [none] := by
    simp [Security.post, Security.wait]
  have hmem : ∀ w ∈ s.securityOfficerCV k,
      w ∈ ((s.wait k none).post k .parting).securityOfficerCV k := by
    intro w hw
    rw [hqueue]
    exact List.mem_append_left _ hw
  have hback : ∀ u, ((s.wait k none).post k .parting).Client k u → s.Client k u :=
    fun u hu => hu.keep rfl (hmem _)
  cases h with
  | idle hidle _ => simp [hat] at hidle
  | calling h =>
      rcases h.point with habs | ⟨habs, -⟩
      all_goals simp [hat] at habs
  | naming p again h =>
      rcases h.point with habs | habs | habs
      all_goals simp [hat] at habs
  | serving p again h =>
      exact .serving p again ⟨dismisses_wait hpoint hqueue, fun u hu => h.one u (hback u hu),
        h.visit, h.told⟩
  | leaving p h =>
      exact .leaving p ⟨dismisses_wait hpoint hqueue, fun u hu => h.one u (hback u hu), h.visit⟩
  | done _ hnone => exact .done (Or.inr hpoint) fun u hu => hnone u (hback u hu)

/-- The passenger of an inspector that has been woken at the end has left. -/
theorem Stage.nobody_left (h : s.Stage judgements k) (hat : s.inspector k = .parting)
    (hnot : none ∉ s.securityOfficerCV k) : ∀ u, ¬ s.Client k u := by
  have hpoint : ¬ s.Dismisses k := by
    rintro (hpoint | ⟨-, hmem⟩)
    · simp [hat] at hpoint
    · exact hnot hmem
  cases h with
  | idle hidle _ => simp [hat] at hidle
  | calling h =>
      rcases h.point with habs | ⟨habs, -⟩
      all_goals simp [hat] at habs
  | naming p again h =>
      rcases h.point with habs | habs | habs
      all_goals simp [hat] at habs
  | serving p again h => exact absurd h.point hpoint
  | leaving p h => exact absurd h.point hpoint
  | done _ hnone => exact hnone

/-- The inspector calls the passenger that has waited longest. -/
theorem Stage.greet (h : s.Stage judgements k) (hat : s.inspector k = .woken) :
    ((s.signal k).post k .greeting).Calls k := by
  have hnone := h.no_client (by rw [hat]; rfl)
  have hclient : ∀ u, ((s.signal k).post k .greeting).Client k u →
      (s.passenger u).inLineOf k = true ∧ (s.securityOfficerCV k).head? = some (some u) := by
    intro u hu
    have hqueue : ((s.signal k).post k .greeting).securityOfficerCV k =
        (s.securityOfficerCV k).tail := by
      simp [Security.post, Security.signal]
    rcases hu with hdesk | ⟨hline, hnot⟩
    · exact absurd (Or.inl hdesk) (hnone u)
    · refine ⟨hline, ?_⟩
      -- it has been asleep
      have hmem : some u ∈ s.securityOfficerCV k := by
        by_contra habs
        exact hnone u (Or.inr ⟨hline, habs⟩)
      obtain ⟨w, rest, hcons⟩ := List.exists_cons_of_ne_nil (List.ne_nil_of_mem hmem)
      rw [hqueue, hcons] at hnot
      rw [hcons] at hmem ⊢
      rcases List.mem_cons.mp hmem with hw | hrest
      · rw [← hw]
        rfl
      · exact absurd hrest hnot
  refine ⟨Or.inl (Function.update_self ..), fun u v hu hv => ?_, fun u hu => ?_⟩
  · exact Option.some.inj (Option.some.inj ((hclient u hu).2.symm.trans (hclient v hv).2))
  · have hline := (hclient u hu).1
    change (s.passenger u).isComing k = true
    generalize s.passenger u = v at hline
    cases v
    all_goals simp at hline
    simp [hline]

/-- The inspector waits for the name. -/
theorem Stage.attend (h : s.Stage judgements k) (hat : s.inspector k = .greeting) :
    ((s.wait k none).post k .attending).Stage judgements k := by
  have hpoint : ((s.wait k none).post k .attending).inspector k = .attending :=
    Function.update_self ..
  have hqueue : ((s.wait k none).post k .attending).securityOfficerCV k =
      s.securityOfficerCV k ++ [none] := by
    simp [Security.post, Security.wait]
  have hmem : ∀ w ∈ s.securityOfficerCV k,
      w ∈ ((s.wait k none).post k .attending).securityOfficerCV k := by
    intro w hw
    rw [hqueue]
    exact List.mem_append_left _ hw
  have hback : ∀ u, ((s.wait k none).post k .attending).Client k u → s.Client k u :=
    fun u hu => hu.keep rfl (hmem _)
  rcases h.calls_or_names (Or.inl hat) with h | ⟨p, again, h⟩
  · refine .calling ⟨Or.inr ⟨hpoint, ?_⟩, fun u v hu hv => h.one u v (hback u hu) (hback v hv),
      fun u hu => h.coming u (hback u hu)⟩
    rw [hqueue]
    simp
  · exact .naming p again ⟨Or.inr (Or.inl hpoint), fun u hu => h.one u (hback u hu),
      h.visit.imp_right fun hvisit => ⟨hvisit.1, hmem _ hvisit.2⟩, h.name, h.questioning, h.told⟩

/-- The inspector has been woken by the passenger that has left its name. -/
theorem Stage.named (h : s.Stage judgements k) (hat : s.inspector k = .attending)
    (hnot : none ∉ s.securityOfficerCV k) : ∃ p again, s.Names judgements k p again := by
  rcases h.calls_or_names (Or.inr (Or.inl hat)) with h | hnames
  · rcases h.point with habs | ⟨-, hmem⟩
    · simp [hat] at habs
    · exact absurd hmem hnot
  · exact hnames

theorem Names.examine {p : Fin n} {again : Bool} (h : s.Names judgements k p again)
    (hpassenger : s'.passenger = s.passenger) (hpoint : s'.inspector k = .examining)
    (hinfo : s'.secPInfo = s.secPInfo) (hqueue : s'.securityOfficerCV = s.securityOfficerCV) :
    s'.Names judgements k p again where
  point := Or.inr (Or.inr hpoint)
  one u hu := h.one u (hu.keep (by rw [hpassenger]) fun hmem => by rw [hqueue]; exact hmem)
  visit := by
    rw [hpassenger, hqueue]
    exact h.visit
  name := by rw [hinfo]; exact h.name
  questioning := by rw [hinfo]; exact h.questioning
  told := h.told

theorem history_append (judgements : List Judgement) (j : Judgement) (p : Fin n) :
    history (judgements ++ [j]) p =
      history judgements p ++ if j.name = p.val then [(j.questioning, j.totalPass)] else [] := by
  unfold history
  rw [List.filter_append, List.map_append]
  congr 1
  by_cases hname : j.name = p.val
  · rw [if_pos hname, List.filter_cons_of_pos (by simpa using hname)]
    rfl
  · rw [if_neg hname, List.filter_cons_of_neg (by simpa using hname)]
    rfl

section Judge

variable {screeningResult : Nat → Bool} {securityPass : Bool} {p : Fin n} {again : Bool}

/-- What `SecPInfo` holds behind a judgement. -/
theorem judge_passedSecurity :
    ((s.judge k screeningResult securityPass).secPInfo k).passedSecurity =
      if (s.secPInfo k).questioning then (s.secPInfo k).passedSecurity
      else (s.judgement k screeningResult securityPass).totalPass := by
  unfold judge
  simp only
  split
  · rfl
  · rw [Function.update_self]
    rfl

theorem judge_secPInfo_of_ne {j : Nat} (hj : j ≠ k) :
    (s.judge k screeningResult securityPass).secPInfo j = s.secPInfo j := by
  unfold judge
  simp only
  split
  · rfl
  · rw [Function.update_of_ne hj]

/-- The inspector judges the passenger that has left its name, and wakes it. -/
theorem Names.judge (h : s.Names judgements k p again) (hmeant : s.WakesExamined k) :
    (((s.judge k screeningResult securityPass).signal k).post k .dismissing).Serves
      (judgements ++ [s.judgement k screeningResult securityPass]) k p again where
  point := Or.inl (Function.update_self ..)
  one u hu := by
    by_contra hne
    rcases hu with hdesk | ⟨hline, hnot⟩
    · exact hne (h.one u (Or.inl hdesk))
    · change (s.passenger u).inLineOf k = true at hline
      change some u ∉ Function.update s.securityOfficerCV k _ k at hnot
      rw [Function.update_self] at hnot
      have hmem : some u ∈ s.securityOfficerCV k := by
        by_contra habs
        exact hne (h.one u (Or.inr ⟨hline, habs⟩))
      obtain ⟨w, rest, hcons⟩ := List.exists_cons_of_ne_nil (List.ne_nil_of_mem hmem)
      unfold WakesExamined at hmeant
      change some u ∉ (s.securityOfficerCV k).tail at hnot
      rw [hcons] at hnot hmem hmeant
      rcases List.mem_cons.mp hmem with hw | hrest
      · -- it waits to be called
        obtain ⟨v, hv, hawaits⟩ := hmeant w rfl
        obtain rfl := Option.some.inj (hw.trans hv)
        generalize s.passenger u = visit at hline hawaits
        cases visit
        all_goals simp at hline hawaits
      · exact hnot hrest
  visit := h.visit.imp_right fun hvisit => Or.inl hvisit.1
  told := by
    have hinfo : ((((s.judge k screeningResult securityPass).signal k).post k
        .dismissing).secPInfo k).passedSecurity = _ := judge_passedSecurity
    have hquestioning : (s.judgement k screeningResult securityPass).questioning = again :=
      h.questioning
    have hname : (s.judgement k screeningResult securityPass).name = p.val := h.name
    rw [hinfo, h.questioning, history_append, if_pos hname, h.told, hquestioning]
    cases again with
    | true =>
        have htotal : (s.judgement k screeningResult securityPass).totalPass = true := by
          unfold Judgement.totalPass
          rw [hquestioning, Bool.true_or]
        rw [htotal]
        rfl
    | false => rfl

theorem Kept.judge (h : s.Kept judgements notTerrorist) (hat : s.inspector k = .examining)
    (hmeant : s.WakesExamined k) :
    (((s.judge k screeningResult securityPass).signal k).post k .dismissing).Kept
      (judgements ++ [s.judgement k screeningResult securityPass]) notTerrorist := by
  obtain ⟨p, again, hnames⟩ : ∃ p again, s.Names judgements k p again := by
    rcases (h.stage k).calls_or_names (Or.inr (Or.inr hat)) with hcalls | hnames
    · rcases hcalls.point with habs | ⟨habs, -⟩
      all_goals simp [hat] at habs
    · exact hnames
  have hname : (s.judgement k screeningResult securityPass).name = p.val := hnames.name
  have hother : ∀ u, u ≠ p →
      history (judgements ++ [s.judgement k screeningResult securityPass]) u =
        history judgements u := by
    intro u hu
    rw [history_append, if_neg, List.append_nil]
    rw [hname]
    exact fun habs => hu (Fin.ext habs.symm)
  refine ⟨fun j => ?_, fun u => ?_, fun u passed hread => ?_, fun j hj => ?_, fun j => ?_⟩
  · by_cases hj : j = k
    · rw [hj]
      exact .serving p again (hnames.judge hmeant)
    · refine (h.stage j).frame (Function.update_of_ne hj ..) (judge_secPInfo_of_ne hj)
        (fun w hw => ?_) (fun u _ => rfl) fun u hu => ⟨rfl, hother u ?_⟩
      · change w ∈ Function.update s.securityOfficerCV k _ j
        rw [Function.update_of_ne hj]
        exact hw
      · rintro rfl
        exact hj (Option.some.inj (hu.line.symm.trans hnames.client.line))
  · by_cases hu : u = p
    · rw [hu]
      change (s.passenger p).Told _
      rcases hnames.visit with hvisit | ⟨hvisit, -⟩
      · rw [hvisit]
        trivial
      · rw [hvisit]
        trivial
    · rw [hother u hu]
      exact h.told u
  · have hfirst := h.read u passed hread
    rw [history_append, List.head?_append, hfirst]
    rfl
  · rcases List.mem_append.mp hj with hold | hnew
    · exact h.names j hold
    · rw [List.mem_singleton.mp hnew, hname]
      exact p.isLt
  · rw [List.filter_append, List.length_append, ← h.booked j]
    change Function.update s.passedPassengers k _ j = _
    by_cases hj : j = k
    · rw [hj, Function.update_self]
      congr 1
      by_cases hpass : (s.judgement k screeningResult securityPass).totalPass = true
      · rw [List.filter_cons_of_pos (by simpa using ⟨rfl, hpass⟩)]
        exact if_pos hpass
      · rw [List.filter_cons_of_neg (by simpa using fun _ => hpass)]
        exact if_neg hpass
    · rw [Function.update_of_ne hj, List.filter_cons_of_neg]
      · simp
      · simpa using fun habs => absurd habs.symm hj

end Judge

/-- A step of an inspector. -/
theorem Kept.inspector (h : s.Kept judgements notTerrorist) {screeningResult : Nat → Bool}
    {securityPass : Bool} (hmeant : s.InspectorMeant k)
    (hstep : s.inspectorStep screeningResult securityPass k = .ok s') :
    s'.Kept (judgements ++ s.judges k screeningResult securityPass) notTerrorist := by
  unfold judges
  unfold inspectorStep at hstep
  cases hat : s.inspector k with
  | beginning =>
      rw [hat] at hstep
      obtain ⟨t, ht, hs'⟩ := bind_eq_ok hstep
      obtain rfl := acquireLines_eq ht
      obtain rfl := Except.ok.inj hs'
      rw [if_neg (by simp), List.append_nil]
      exact h.idle rfl rfl rfl rfl rfl (by rw [hat]; rfl) rfl
  | lining =>
      rw [hat] at hstep
      obtain ⟨t, ht, hs'⟩ := bind_eq_ok hstep
      obtain rfl := acquireLock_eq ht
      obtain rfl := Except.ok.inj hs'
      rw [if_neg (by simp), List.append_nil]
      exact h.idle rfl rfl rfl rfl rfl (by rw [hat]; rfl) rfl
  | locking =>
      rw [hat] at hstep
      obtain ⟨t, ht, hs'⟩ := bind_eq_ok hstep
      obtain rfl := acquireAvail_eq ht
      obtain rfl := Except.ok.inj hs'
      rw [if_neg (by simp), List.append_nil]
      exact h.idle rfl rfl rfl rfl rfl (by rw [hat]; rfl) rfl
  | checking =>
      rw [hat] at hstep
      obtain rfl := Except.ok.inj hstep
      rw [if_neg (by simp), List.append_nil]
      exact h.idle rfl rfl rfl rfl rfl (by rw [hat]; rfl) rfl
  | checked =>
      rw [hat] at hstep
      obtain rfl := Except.ok.inj hstep
      rw [if_neg (by simp), List.append_nil]
      exact h.idle rfl rfl rfl rfl rfl (by rw [hat]; rfl) rfl
  | freeing =>
      rw [hat] at hstep
      obtain rfl := Except.ok.inj hstep
      rw [if_neg (by simp), List.append_nil]
      exact h.idle rfl rfl rfl rfl rfl (by rw [hat]; rfl) rfl
  | ready =>
      rw [hat] at hstep
      obtain rfl := Except.ok.inj hstep
      rw [if_neg (by simp), List.append_nil]
      refine h.post rfl rfl rfl rfl (fun j hj => ?_)
        (.idle (by simp [Security.post]) fun u hu => ?_)
      · simp [Security.post, Security.wait, hj]
      · refine (h.stage k).no_client (by rw [hat]; rfl) u (hu.keep rfl fun hmem => ?_)
        simp [Security.post, Security.wait, hmem]
  | expecting =>
      rw [hat] at hstep
      obtain ⟨t, ht, hs'⟩ := bind_eq_ok hstep
      obtain ⟨-, rfl⟩ := resume_eq ht
      obtain rfl := Except.ok.inj hs'
      rw [if_neg (by simp), List.append_nil]
      exact h.idle rfl rfl rfl rfl rfl (by rw [hat]; rfl) rfl
  | woken =>
      rw [hat] at hstep
      obtain rfl := Except.ok.inj hstep
      rw [if_neg (by simp), List.append_nil]
      refine h.post rfl rfl rfl rfl (fun j hj => ?_) (.calling ((h.stage k).greet hat))
      simp [Security.post, Security.signal, hj]
  | greeting =>
      rw [hat] at hstep
      obtain rfl := Except.ok.inj hstep
      rw [if_neg (by simp), List.append_nil]
      refine h.post rfl rfl rfl rfl (fun j hj => ?_) ((h.stage k).attend hat)
      simp [Security.post, Security.wait, hj]
  | attending =>
      rw [hat] at hstep
      obtain ⟨t, ht, hs'⟩ := bind_eq_ok hstep
      obtain ⟨hnot, rfl⟩ := resume_eq ht
      obtain rfl := Except.ok.inj hs'
      rw [if_neg (by simp), List.append_nil]
      obtain ⟨p, again, hnames⟩ := (h.stage k).named hat hnot
      exact h.post rfl rfl rfl rfl (fun _ _ => rfl)
        (.naming p again (hnames.examine rfl (Function.update_self ..) rfl rfl))
  | examining =>
      rw [hat] at hstep
      obtain rfl := Except.ok.inj hstep
      rw [if_pos rfl]
      exact h.judge hat (hmeant hat)
  | dismissing =>
      rw [hat] at hstep
      obtain rfl := Except.ok.inj hstep
      rw [if_neg (by simp), List.append_nil]
      refine h.post rfl rfl rfl rfl (fun j hj => ?_) ((h.stage k).dismiss hat)
      simp [Security.post, Security.wait, hj]
  | parting =>
      rw [hat] at hstep
      obtain ⟨t, ht, hs'⟩ := bind_eq_ok hstep
      obtain ⟨hnot, rfl⟩ := resume_eq ht
      obtain rfl := Except.ok.inj hs'
      rw [if_neg (by simp), List.append_nil]
      exact h.post rfl rfl rfl rfl (fun _ _ => rfl)
        (.idle (by simp [Security.post]) fun u hu =>
          (h.stage k).nobody_left hat hnot u (hu.keep rfl id))
  | closing =>
      rw [hat] at hstep
      obtain rfl := Except.ok.inj hstep
      rw [if_neg (by simp), List.append_nil]
      exact h.idle rfl rfl rfl rfl rfl (by rw [hat]; rfl) rfl

theorem kept_start (n : Nat) (unset : Nat → SecurityPassengerInfo) :
    (start n unset).Kept [] fun _ => none where
  stage _ := .idle rfl fun _ hq => by simp [Client, start] at hq
  told _ := rfl
  read _ _ hread := absurd hread (by simp)
  names _ hj := absurd hj (by simp)
  booked _ := rfl

end Inspectors

section Histories

variable {n : Nat} {s : Security n} {judgements : List Judgement}
  {notTerrorist : Fin n → Option Bool} {p : Fin n}

/-- The judgements of a history with some property. -/
theorem filter_history (P : Bool × Bool → Bool) :
    (history judgements p).filter P =
      (judgements.filter fun j => j.name = p.val ∧ P (j.questioning, j.totalPass) = true).map
        fun j => (j.questioning, j.totalPass) := by
  unfold history
  rw [List.filter_map, List.filter_filter]
  congr 1
  refine List.filter_congr fun j _ => ?_
  rw [Bool.decide_and, Bool.and_comm, Bool.decide_eq_true]
  rfl

theorem Kept.chronicle (h : s.Kept judgements notTerrorist) (p : Fin n) :
    SecurityVisit.Chronicle (history judgements p) := by
  have hdesk : ∀ k again, (s.passenger p = .named k again ∨ s.passenger p = .examined k again ∨
      s.passenger p = .judged k again) → SecurityVisit.Chronicle (history judgements p) := by
    intro k again hat
    rcases (h.stage k).names_or_serves hat with hnames | hserves
    · exact Or.inl ⟨again, hnames.told⟩
    · exact Or.inr ⟨again, _, hserves.told⟩
  by_contra hnot
  exact hnot ((h.told p).chronicle (fun k again hat => hnot (hdesk k again (Or.inl hat)))
    (fun k again hat => hnot (hdesk k again (Or.inr (Or.inl hat))))
    fun k again hat => hnot (hdesk k again (Or.inr (Or.inr hat))))

/-- Whoever has read a verdict has read the first one under its name. -/
theorem Kept.verdict (h : s.Kept judgements notTerrorist) {passed : Bool}
    (hread : notTerrorist p = some passed) :
    ∃ j, (judgements.filter fun j => j.name = p.val ∧ j.questioning = false) = [j] ∧
      j.totalPass = passed := by
  have hfirst := (h.chronicle p).first (h.read p passed hread)
  rw [filter_history] at hfirst
  obtain ⟨j, hj, htotal⟩ := List.map_eq_singleton_iff.mp hfirst
  refine ⟨j, ?_, (Prod.mk.inj htotal).2⟩
  rw [← hj]
  simp only [Bool.not_eq_true']

/-- Whoever has left has been let pass once. -/
theorem Kept.counted (h : s.Kept judgements notTerrorist) (hat : s.passenger p = .left) :
    (judgements.filter fun j => j.name = p.val ∧ j.totalPass = true).length = 1 := by
  have htold := h.told p
  rw [hat] at htold
  obtain ⟨again, hbehind⟩ := htold
  have hfilter : (history judgements p).filter Prod.snd = _ := filter_history Prod.snd
  have hlength := congrArg List.length hfilter
  rw [List.length_map, hbehind] at hlength
  rw [← hlength]
  cases again with
  | false => rfl
  | true => rfl

end Histories
end Security

end Airport
end Nachos
