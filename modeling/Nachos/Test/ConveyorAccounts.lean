import Nachos.Test.Conveyor

/-!
# The accounts of the conveyor

What the locks of the conveyor do give: two officers never store at the same time, a handler empties
the place it has copied, and the counts of the planes lose no bag.  So the accounts of bags agree in
every run whose steps are careful, and a step that is not careful leaves them wrong.
-/

namespace Nachos
namespace Test
namespace Conveyor

open Lib

variable {m n : Nat} {s s' : Conveyor m n} {o : Fin m} {h : Fin n}

section Locks

/-- Whoever is at a point with a lock owns it. -/
structure Locked (s : Conveyor m n) : Prop where
  baggage : Guarded s.baggageLock (fun q => q.holdsLock = true) s.officer
  cargo : Guarded s.cargoHandlerLock (fun x => x.holdsCargo = true) s.handler
  airlines : AllGuarded s.airlineBaggage (fun a x => x.holdsAirline a = true) s.handler

theorem locked_start (m n : Nat) : (start m n).Locked where
  baggage := fun _ hat => absurd hat (by simp [start, DropPoint.holdsLock])
  cargo := fun _ hat => absurd hat (by simp [start, CargoHandler.holdsCargo])
  airlines := fun _ _ hat => absurd hat (by simp [start, CargoHandler.holdsAirline])

theorem Locked.officer (hlocked : s.Locked) (hmove : OfficerMove s o s') : s'.Locked := by
  cases hmove with
  | begin b hat hfree => exact ⟨hlocked.baggage.acquire hfree, hlocked.cargo, hlocked.airlines⟩
  | leave hat =>
      exact ⟨hlocked.baggage.drop (by rw [hat]; rfl) (by simp [DropPoint.holdsLock]), hlocked.cargo,
        hlocked.airlines⟩
  | arrive b hat | find b y hat | next b y hat | forget b y hat | store b y hat | mark b y hat =>
      refine ⟨hlocked.baggage.keep ?_, hlocked.cargo, hlocked.airlines⟩
      rw [hat]
      simp [DropPoint.holdsLock]

theorem Locked.handler (hlocked : s.Locked) (hmove : HandlerMove s h s') : s'.Locked := by
  cases hmove with
  | begin hat hfree =>
      refine ⟨hlocked.baggage, hlocked.cargo.acquire hfree, hlocked.airlines.keep rfl rfl ?_⟩
      simp [CargoHandler.holdsAirline]
  | wake hat hfree =>
      refine ⟨hlocked.baggage, hlocked.cargo.acquire (Or.inl hfree),
        hlocked.airlines.keep rfl rfl ?_⟩
      simp [CargoHandler.holdsAirline]
  | rest hat htemp =>
      refine ⟨hlocked.baggage, hlocked.cargo.drop ?_ ?_, hlocked.airlines.keep rfl rfl ?_⟩
      all_goals simp [CargoHandler.holdsCargo, CargoHandler.holdsAirline, hat]
  | leave hat =>
      refine ⟨hlocked.baggage, hlocked.cargo.drop ?_ ?_, hlocked.airlines.keep rfl rfl ?_⟩
      · simp [CargoHandler.holdsCargo, hat]
      · simp [CargoHandler.holdsCargo]
      · intro a ha
        rw [CargoHandler.holdsAirline, hat]
        exact ha
  | load hat hfree =>
      refine ⟨hlocked.baggage, hlocked.cargo.keep ?_, hlocked.airlines.acquire _ rfl hfree rfl ?_⟩
      · simp [CargoHandler.holdsCargo, hat]
      · intro a hne ha
        exact absurd (of_decide_eq_true ha).symm hne
  | weigh weight hat =>
      refine ⟨hlocked.baggage, hlocked.cargo.keep ?_, hlocked.airlines.release _ rfl ?_ ?_ rfl ?_⟩
      all_goals simp [CargoHandler.holdsCargo, CargoHandler.holdsAirline, hat]
  | count hat | counted v hat =>
      refine ⟨hlocked.baggage, hlocked.cargo.keep ?_, hlocked.airlines.keep rfl rfl ?_⟩
      · simp [CargoHandler.holdsCargo]
      · intro a ha
        rw [CargoHandler.holdsAirline, hat]
        exact ha
  | find i hat | next i hat | miss i hat | copyWeight i hat | copyAirline i hat | empty i hat
  | take hat =>
      refine ⟨hlocked.baggage, hlocked.cargo.keep ?_, hlocked.airlines.keep rfl rfl ?_⟩
      all_goals simp [CargoHandler.holdsCargo, CargoHandler.holdsAirline, hat]

end Locks

section Stores

/-- What officers are about to store, and what lies in the places. -/
structure Stored (s : Conveyor m n) : Prop where
  free : ∀ o b y, s.officer o = .storing b y → (s.conveyor y).weight = 0
  marking : ∀ o b y, s.officer o = .marking b y → (s.conveyor y).bagAirline = b.airline
  labelled : ∀ i, (s.conveyor i).weight ≠ 0 → (s.conveyor i).airline = (s.conveyor i).bagAirline ∨
    ∃ o b, s.officer o = .marking b i

theorem stored_start (m n : Nat) : (start m n).Stored where
  free := fun _ _ _ hat => absurd hat (by simp [start])
  marking := fun _ _ _ hat => absurd hat (by simp [start])
  labelled := fun _ hfull => absurd rfl hfull

/-- An officer goes on that is not between the stores of a bag. -/
theorem Stored.go (hstored : s.Stored) {q : DropPoint}
    (hofficer : s'.officer = Function.update s.officer o q) (hconveyor : s'.conveyor = s.conveyor)
    (hold : ∀ b y, s.officer o ≠ .marking b y) (hmark : ∀ b y, q ≠ .marking b y)
    (hstore : ∀ b y, q = .storing b y → (s.conveyor y).weight = 0) : s'.Stored := by
  refine ⟨fun u b y hu => ?_, fun u b y hu => ?_, fun i hfull => ?_⟩
  · rw [hconveyor]
    rw [hofficer] at hu
    by_cases heq : u = o
    · subst heq
      rw [Function.update_self] at hu
      exact hstore b y hu
    · rw [Function.update_of_ne heq] at hu
      exact hstored.free u b y hu
  · rw [hconveyor]
    rw [hofficer] at hu
    by_cases heq : u = o
    · subst heq
      rw [Function.update_self] at hu
      exact absurd hu (hmark b y)
    · rw [Function.update_of_ne heq] at hu
      exact hstored.marking u b y hu
  · rw [hconveyor] at hfull ⊢
    refine (hstored.labelled i hfull).imp id ?_
    rintro ⟨u, b, hu⟩
    have hne : u ≠ o := by
      rintro rfl
      exact hold b i hu
    exact ⟨u, b, by rw [hofficer, Function.update_of_ne hne]; exact hu⟩

/-- The others are at no point with `BaggageLock`. -/
theorem Locked.others (hlocked : s.Locked) (hat : (s.officer o).holdsLock = true) {u : Fin m}
    (hu : u ≠ o) : (s.officer u).holdsLock = false := by
  by_contra hheld
  exact hu (hlocked.baggage.unique (by simpa using hheld) hat)

/-- Only one officer is at a point with `BaggageLock`. -/
theorem stored_of_alone (honly : ∀ u, u ≠ o → (s.officer u).holdsLock = false)
    (hfree : ∀ b y, s.officer o = .storing b y → (s.conveyor y).weight = 0)
    (hmarking : ∀ b y, s.officer o = .marking b y → (s.conveyor y).bagAirline = b.airline)
    (hlabelled : ∀ i, (s.conveyor i).weight ≠ 0 →
      (s.conveyor i).airline = (s.conveyor i).bagAirline ∨ ∃ b, s.officer o = .marking b i) :
    s.Stored := by
  have hself : ∀ u, (s.officer u).holdsLock = true → u = o := by
    intro u hu
    by_contra hne
    rw [honly u hne] at hu
    exact absurd hu (by simp)
  refine ⟨fun u b y hu => ?_, fun u b y hu => ?_, fun i hfull => ?_⟩
  · obtain rfl := hself u (by rw [hu]; rfl)
    exact hfree b y hu
  · obtain rfl := hself u (by rw [hu]; rfl)
    exact hmarking b y hu
  · exact (hlabelled i hfull).imp id fun ⟨b, hb⟩ => ⟨o, b, hb⟩

theorem Stored.officer (hstored : s.Stored) (hlocked : s.Locked) (hmove : OfficerMove s o s') :
    s'.Stored := by
  have honly : (s.officer o).holdsLock = true → ∀ q u, u ≠ o →
      (Function.update s.officer o q u).holdsLock = false := by
    intro hheld q u hu
    rw [Function.update_of_ne hu]
    exact hlocked.others hheld hu
  -- only the officer with the lock can be marking a place
  have hlabelled : (s.officer o).holdsLock = true → ∀ i, (s.conveyor i).weight ≠ 0 →
      (s.conveyor i).airline = (s.conveyor i).bagAirline ∨ ∃ b, s.officer o = .marking b i := by
    intro hheld i hfull
    refine (hstored.labelled i hfull).imp id ?_
    rintro ⟨u, b, hu⟩
    obtain rfl := hlocked.baggage.unique (t := u) (by simp [hu, DropPoint.holdsLock]) hheld
    exact ⟨b, hu⟩
  cases hmove with
  | store b y hat =>
      have hheld : (s.officer o).holdsLock = true := by rw [hat]; rfl
      refine stored_of_alone (honly hheld _) ?_ ?_ fun i hfull => ?_
      · simp [Conveyor.go]
      · intro c z hz
        simp only [Conveyor.go, Function.update_self, DropPoint.marking.injEq] at hz
        obtain ⟨rfl, rfl⟩ := hz
        simp [Conveyor.go, countPut, setPlace, Place.store]
      · by_cases hi : i = y
        · subst hi
          exact Or.inr ⟨b, by simp [Conveyor.go]⟩
        · simp only [Conveyor.go, countPut, setPlace, Function.update_of_ne hi] at hfull ⊢
          refine (hlabelled hheld i hfull).imp id ?_
          simp [hat]
  | mark b y hat =>
      have hheld : (s.officer o).holdsLock = true := by rw [hat]; rfl
      refine stored_of_alone (honly hheld _) ?_ ?_ fun i hfull => Or.inl ?_
      · simp [Conveyor.go]
      · simp [Conveyor.go]
      · by_cases hi : i = y
        · subst hi
          simp only [Conveyor.go, setPlace, Place.mark, Function.update_self]
          exact (hstored.marking o b i hat).symm
        · simp only [Conveyor.go, setPlace, Function.update_of_ne hi] at hfull ⊢
          refine (hlabelled hheld i hfull).resolve_right ?_
          rintro ⟨c, hc⟩
          rw [hat] at hc
          exact hi (DropPoint.marking.inj hc).2.symm
  | find b y hat hempty =>
      refine hstored.go rfl rfl (by simp [hat]) (by simp) fun c z hz => ?_
      simp only [DropPoint.storing.injEq] at hz
      rw [← hz.2]
      exact hempty
  | arrive b hat | begin b hat | next b y hat | forget b y hat | leave hat =>
      exact hstored.go rfl rfl (by simp [hat]) (by simp) (by simp)

/-- A handler empties places only. -/
theorem Stored.handler (hstored : s.Stored) (hmove : HandlerMove s h s') : s'.Stored := by
  cases hmove with
  | empty i hat =>
      have hplace : ∀ k, (Function.update s.conveyor i (s.conveyor i).empty k).bagAirline =
          (s.conveyor k).bagAirline := by
        intro k
        by_cases hk : k = i
        · subst hk
          simp [Place.empty]
        · simp [hk]
      refine ⟨fun u b y hu => ?_, fun u b y hu => ?_, fun k hfull => ?_⟩
      · by_cases hy : y = i
        · subst hy
          simp [setPlace, post, Place.empty]
        · simp only [setPlace, post, Function.update_of_ne hy]
          exact hstored.free u b y hu
      · exact (hplace y).trans (hstored.marking u b y hu)
      · have hk : k ≠ i := by
          rintro rfl
          simp [setPlace, post, Place.empty] at hfull
        simp only [setPlace, post, Function.update_of_ne hk] at hfull ⊢
        exact hstored.labelled k hfull
  | _ => exact ⟨hstored.free, hstored.marking, hstored.labelled⟩

end Stores

section Copies

/-- The handler has found the bag at place `i` and not emptied the place. -/
def Copies (i : Slot) (q : CargoPoint) : Prop := q = .copying i ∨ q = .copied i ∨ q = .emptying i

/-- What handlers have copied, and what they have counted. -/
structure Copied (s : Conveyor m n) : Prop where
  full : ∀ h i, Copies i (s.handler h).point → (s.conveyor i).weight ≠ 0
  weight : ∀ h i, (s.handler h).point = .copied i ∨ (s.handler h).point = .emptying i →
    (s.handler h).temp.weight = (s.conveyor i).weight
  counted : ∀ h v, (s.handler h).point = .counted v →
    v = s.aircraftBaggageCount (s.handler h).temp.airline

theorem copied_start (m n : Nat) : (start m n).Copied where
  full := fun _ _ hat => absurd hat (by simp [start, Copies])
  weight := fun _ _ hat => absurd hat (by simp [start])
  counted := fun _ _ hat => absurd hat (by simp [start])

theorem holdsCargo_of_copies {x : CargoHandler} {i : Slot} (hat : Copies i x.point) :
    x.holdsCargo = true := by
  rcases hat with hat | hat | hat
  all_goals simp [CargoHandler.holdsCargo, hat]

/-- No officer changes the weight of a bag that lies there. -/
theorem Copied.officer (hcopied : s.Copied) (hstored : s.Stored) (hmove : OfficerMove s o s') :
    s'.Copied := by
  have hsame : (∀ i, (s.conveyor i).weight ≠ 0 → (s'.conveyor i).weight = (s.conveyor i).weight) →
      s'.handler = s.handler → s'.aircraftBaggageCount = s.aircraftBaggageCount → s'.Copied := by
    intro hweight hhandler hcount
    have hkeep : ∀ u i, Copies i (s.handler u).point →
        (s'.conveyor i).weight = (s.conveyor i).weight :=
      fun u i hat => hweight i (hcopied.full u i hat)
    refine ⟨fun u i hat => ?_, fun u i hat => ?_, fun u v hat => ?_⟩
    · rw [hhandler] at hat
      rw [hkeep u i hat]
      exact hcopied.full u i hat
    · rw [hhandler] at hat ⊢
      rw [hkeep u i (Or.inr hat)]
      exact hcopied.weight u i hat
    · rw [hhandler] at hat ⊢
      rw [hcount]
      exact hcopied.counted u v hat
  cases hmove with
  | store b y hat =>
      refine hsame (fun i hfull => ?_) rfl rfl
      have hi : i ≠ y := by
        rintro rfl
        exact hfull (hstored.free o b i hat)
      simp [Conveyor.go, countPut, setPlace, hi]
  | mark b y hat =>
      refine hsame (fun i _ => ?_) rfl rfl
      by_cases hi : i = y
      · subst hi
        simp [Conveyor.go, setPlace, Place.mark]
      · simp [Conveyor.go, setPlace, hi]
  | _ => exact hsame (fun _ _ => rfl) rfl rfl

/-- A handler goes on, and the others see nothing of it. -/
theorem Copied.post (hcopied : s.Copied) {x : CargoHandler}
    (hhandler : s'.handler = Function.update s.handler h x) (hconveyor : s'.conveyor = s.conveyor)
    (hcount : ∀ u v, u ≠ h → (s.handler u).point = .counted v →
      s'.aircraftBaggageCount (s.handler u).temp.airline =
        s.aircraftBaggageCount (s.handler u).temp.airline)
    (hfull : ∀ i, Copies i x.point → (s.conveyor i).weight ≠ 0)
    (hweight : ∀ i, x.point = .copied i ∨ x.point = .emptying i →
      x.temp.weight = (s.conveyor i).weight)
    (hcounted : ∀ v, x.point = .counted v → v = s'.aircraftBaggageCount x.temp.airline) :
    s'.Copied := by
  refine ⟨fun u i hat => ?_, fun u i hat => ?_, fun u v hat => ?_⟩
  · rw [hconveyor]
    by_cases hu : u = h
    · subst hu
      rw [hhandler, Function.update_self] at hat
      exact hfull i hat
    · rw [hhandler, Function.update_of_ne hu] at hat
      exact hcopied.full u i hat
  · rw [hconveyor]
    by_cases hu : u = h
    · subst hu
      rw [hhandler, Function.update_self] at hat ⊢
      exact hweight i hat
    · rw [hhandler, Function.update_of_ne hu] at hat ⊢
      exact hcopied.weight u i hat
  · by_cases hu : u = h
    · subst hu
      rw [hhandler, Function.update_self] at hat ⊢
      exact hcounted v hat
    · rw [hhandler, Function.update_of_ne hu] at hat ⊢
      rw [hcount u v hu hat]
      exact hcopied.counted u v hat

theorem Copied.handler (hcopied : s.Copied) (hlocked : s.Locked) (hmove : HandlerMove s h s') :
    s'.Copied := by
  cases hmove with
  | find i hat hfull =>
      refine hcopied.post rfl rfl (fun _ _ _ _ => rfl) ?_ (by simp) (by simp)
      intro k hk
      simp only [Copies, CargoHandler.goTo_point, CargoPoint.copying.injEq, reduceCtorEq,
        or_false] at hk
      exact hk ▸ hfull
  | copyWeight i hat =>
      refine hcopied.post rfl rfl (fun _ _ _ _ => rfl) ?_ ?_ (by simp)
      · intro k hk
        simp only [Copies, CargoHandler.goTo_point, CargoPoint.copied.injEq, reduceCtorEq,
          false_or, or_false] at hk
        exact hcopied.full h k (Or.inl (hk ▸ hat))
      · intro k hk
        simp only [CargoHandler.goTo_point, CargoPoint.copied.injEq, reduceCtorEq, or_false] at hk
        rw [← hk]
        rfl
  | copyAirline i hat =>
      refine hcopied.post rfl rfl (fun _ _ _ _ => rfl) ?_ ?_ (by simp)
      · intro k hk
        simp only [Copies, CargoHandler.goTo_point, CargoPoint.emptying.injEq, reduceCtorEq,
          false_or] at hk
        exact hcopied.full h k (Or.inr (Or.inl (hk ▸ hat)))
      · intro k hk
        simp only [CargoHandler.goTo_point, CargoPoint.emptying.injEq, reduceCtorEq, false_or] at hk
        exact hcopied.weight h k (Or.inl (hk ▸ hat))
  | empty i hat =>
      have hnobody : ∀ u k, ¬ Copies k (Function.update s.handler h
          ((s.handler h).goTo .testing) u).point := by
        intro u k hk
        by_cases hu : u = h
        · subst hu
          simp [Copies] at hk
        · rw [Function.update_of_ne hu] at hk
          exact hu (hlocked.cargo.unique (holdsCargo_of_copies hk)
            (by simp [CargoHandler.holdsCargo, hat]))
      refine ⟨fun u k hk => absurd hk (hnobody u k), fun u k hk => absurd (Or.inr hk) (hnobody u k),
        fun u v hv => ?_⟩
      by_cases hu : u = h
      · subst hu
        simp [Conveyor.post] at hv
      · simp only [Conveyor.post, Function.update_of_ne hu] at hv ⊢
        exact hcopied.counted u v hv
  | count hat =>
      refine hcopied.post rfl rfl (fun _ _ _ _ => rfl) (by simp [Copies]) (by simp) ?_
      intro v hv
      exact (CargoPoint.counted.inj hv).symm
  | counted v hat =>
      refine hcopied.post rfl rfl (fun u w hu hw => ?_) (by simp [Copies]) (by simp) (by simp)
      have hairline : (s.handler u).temp.airline ≠ (s.handler h).temp.airline := by
        intro heq
        refine hu ((hlocked.airlines (s.handler h).temp.airline).unique ?_ ?_)
        · simp [CargoHandler.holdsAirline, hw, heq]
        · simp [CargoHandler.holdsAirline, hat]
      exact Function.update_of_ne hairline ..
  | weigh weight hat =>
      exact hcopied.post rfl rfl (fun _ _ _ _ => rfl) (by simp [Copies]) (by simp) (by simp)
  | begin hat | next i hat | miss i hat | rest hat | take hat | wake hat | load hat | leave hat =>
      exact hcopied.post rfl rfl (fun _ _ _ _ => rfl) (by simp [Copies]) (by simp) (by simp)

end Copies

section Balance

/-- How many bags of airline `a` have been lost. -/
def lost (s : Conveyor m n) (a : Int) : Int :=
  s.put a - (s.onConveyor a + s.inHands a + s.aircraftBaggageCount a)

theorem balanced_iff_lost : s.Balanced ↔ ∀ a, s.lost a = 0 :=
  forall_congr' fun a => by
    unfold lost
    omega

/-- One for a bag, and nothing for none. -/
def one (P : Prop) [Decidable P] : Int := if P then 1 else 0

theorem one_of_iff {P Q : Prop} [Decidable P] [Decidable Q] (h : P ↔ Q) : one P = one Q := by
  simp [one, h]

theorem one_of_not {P : Prop} [Decidable P] (h : ¬ P) : one P = 0 := if_neg h

theorem one_eq_zero {P : Prop} [Decidable P] : one P = 0 ↔ ¬ P := by
  simp [one]

theorem cast_ite_one (P : Prop) [Decidable P] : ((if P then 1 else 0 : Nat) : Int) = one P := by
  unfold one
  split
  · rfl
  · rfl

/-- A place changes. -/
theorem onConveyor_setPlace (s : Conveyor m n) (i : Slot) (c : Place) (a : Int) :
    ((s.setPlace i c).onConveyor a : Int) + one ((s.conveyor i).weight ≠ 0 ∧
      (s.conveyor i).bagAirline = a) = s.onConveyor a + one (c.weight ≠ 0 ∧ c.bagAirline = a) := by
  have hplaces := headcount_update (P := fun c : Place => c.weight ≠ 0 ∧ c.bagAirline = a)
    (f := s.conveyor) (t := i) (a := c)
  rw [← cast_ite_one, ← cast_ite_one]
  exact_mod_cast hplaces

/-- A handler goes on. -/
theorem inHands_post (s : Conveyor m n) (h : Fin n) (x : CargoHandler) (a : Int) :
    ((s.post h x).inHands a : Int) + one ((s.handler h).carries a = true) =
      s.inHands a + one (x.carries a = true) := by
  have hhandlers := headcount_update (P := fun x : CargoHandler => x.carries a = true)
    (f := s.handler) (t := h) (a := x)
  rw [← cast_ite_one, ← cast_ite_one]
  exact_mod_cast hhandlers

/-- Nothing happens to a bag. -/
theorem lost_same (hput : s'.put = s.put) (hon : ∀ a, s'.onConveyor a = s.onConveyor a)
    (hhands : ∀ a, s'.inHands a = s.inHands a)
    (hcount : s'.aircraftBaggageCount = s.aircraftBaggageCount) (a : Int) :
    s'.lost a = s.lost a := by
  unfold lost
  rw [hput, hon, hhands, hcount]

theorem countPut_put (s : Conveyor m n) (a b : Int) :
    (s.countPut a).put b = s.put b + one (a = b) := by
  by_cases hb : b = a
  · subst hb
    simp [countPut, one]
  · simp [countPut, one, hb, Ne.symm hb]

/-- What an officer loses when it stores a bag. -/
theorem lost_store (hstored : s.Stored) {b : Baggage} {y : Slot} (hat : s.officer o = .storing b y)
    (a : Int) :
    (((s.setPlace y ((s.conveyor y).store b)).countPut b.airline).go o (.marking b y)).lost a =
      s.lost a + one (b.airline = a ∧ b.weight = 0) := by
  have hbefore : one ((s.conveyor y).weight ≠ 0 ∧ (s.conveyor y).bagAirline = a) = 0 :=
    one_of_not fun hfull => hfull.1 (hstored.free o b y hat)
  have hafter : one (((s.conveyor y).store b).weight ≠ 0 ∧
      ((s.conveyor y).store b).bagAirline = a) = one (b.weight ≠ 0 ∧ b.airline = a) :=
    one_of_iff Iff.rfl
  have hsplit : one (b.airline = a) =
      one (b.weight ≠ 0 ∧ b.airline = a) + one (b.airline = a ∧ b.weight = 0) := by
    by_cases ha : b.airline = a
    · by_cases hweight : b.weight = 0
      · simp [one, ha, hweight]
      · simp [one, ha, hweight]
    · simp [one, ha]
  have hon := s.onConveyor_setPlace y ((s.conveyor y).store b) a
  have hput := s.countPut_put b.airline a
  change (s.countPut b.airline).put a - (((s.setPlace y _).onConveyor a : Int) + s.inHands a +
    s.aircraftBaggageCount a) = s.put a - (s.onConveyor a + s.inHands a +
      s.aircraftBaggageCount a) + _
  omega

/-- What an officer loses when there is no free place. -/
theorem lost_forget (b : Baggage) (a : Int) :
    ((s.countPut b.airline).go o .leaving).lost a = s.lost a + one (b.airline = a) := by
  have hput := s.countPut_put b.airline a
  change (s.countPut b.airline).put a - (s.onConveyor a + s.inHands a +
    s.aircraftBaggageCount a) = s.put a - (s.onConveyor a + s.inHands a +
      s.aircraftBaggageCount a) + _
  omega

/-- The airline is not part of the accounts. -/
theorem lost_mark (o : Fin m) (b : Baggage) (y : Slot) (a : Int) :
    ((s.setPlace y ((s.conveyor y).mark b.airline)).go o .leaving).lost a = s.lost a := by
  have hon := s.onConveyor_setPlace y ((s.conveyor y).mark b.airline) a
  have hsame : one (((s.conveyor y).mark b.airline).weight ≠ 0 ∧
      ((s.conveyor y).mark b.airline).bagAirline = a) =
      one ((s.conveyor y).weight ≠ 0 ∧ (s.conveyor y).bagAirline = a) := one_of_iff Iff.rfl
  change s.put a - (((s.setPlace y _).onConveyor a : Int) + s.inHands a +
    s.aircraftBaggageCount a) = s.put a - (s.onConveyor a + s.inHands a + s.aircraftBaggageCount a)
  omega

/-- An officer keeps the balance just if its step is careful. -/
theorem Balanced.officer_iff (hbalanced : s.Balanced) (hstored : s.Stored)
    (hmove : OfficerMove s o s') (bag : Baggage) :
    s'.Balanced ↔ s.Careful (.officer o bag) := by
  rw [balanced_iff_lost] at hbalanced ⊢
  -- a step that puts no bag
  have haside : (∀ a, s'.lost a = s.lost a) → (∀ b y, s.officer o = .looking b y → y < 18) →
      (∀ b y, s.officer o ≠ .storing b y) →
      ((∀ a, s'.lost a = 0) ↔ s.Careful (.officer o bag)) := by
    intro hlost hlooking hstoring
    exact iff_of_true (fun a => (hlost a).trans (hbalanced a))
      ⟨hlooking, fun b y hat => absurd hat (hstoring b y)⟩
  cases hmove with
  | store b y hat =>
      simp only [lost_store hstored hat, hbalanced, Int.zero_add]
      constructor
      · intro hnone
        refine ⟨fun c z hc => absurd (hat.symm.trans hc) (by simp), fun c z hc hweight => ?_⟩
        obtain ⟨rfl, -⟩ := DropPoint.storing.inj (hat.symm.trans hc)
        exact one_eq_zero.mp (hnone b.airline) ⟨rfl, hweight⟩
      · intro hcareful a
        exact one_of_not fun hlost => hcareful.2 b y hat hlost.2
  | forget b y hat hy =>
      simp only [lost_forget, hbalanced, Int.zero_add]
      refine iff_of_false (fun hnone => ?_) fun hcareful => hy (hcareful.1 b y hat)
      exact one_eq_zero.mp (hnone b.airline) rfl
  | find b y hat hempty =>
      refine haside (lost_same rfl (fun _ => rfl) (fun _ => rfl) rfl) ?_ (by simp [hat])
      intro c z hc
      rw [← (DropPoint.looking.inj (hat.symm.trans hc)).2]
      exact y.isLt
  | next b y hat hy =>
      refine haside (lost_same rfl (fun _ => rfl) (fun _ => rfl) rfl) ?_ (by simp [hat])
      intro c z hc
      rw [← (DropPoint.looking.inj (hat.symm.trans hc)).2]
      exact hy
  | mark b y hat => exact haside (lost_mark o b y) (by simp [hat]) (by simp [hat])
  | arrive b hat | begin b hat | leave hat =>
      exact haside (lost_same rfl (fun _ => rfl) (fun _ => rfl) rfl) (by simp [hat]) (by simp [hat])

/-- A handler goes on with what it has in its hands. -/
theorem inHands_same {x : CargoHandler} (hx : ∀ a, x.carries a = (s.handler h).carries a)
    (a : Int) : (s.post h x).inHands a = s.inHands a := by
  have hhands := s.inHands_post h x a
  rw [hx a] at hhands
  omega

/-- What a handler loses when it takes a bag off the conveyor. -/
theorem lost_empty (hcopied : s.Copied) {i : Slot} (hat : (s.handler h).point = .emptying i)
    (a : Int) :
    ((s.setPlace i (s.conveyor i).empty).post h ((s.handler h).goTo .testing)).lost a =
      s.lost a + one ((s.conveyor i).bagAirline = a) - one ((s.handler h).temp.airline = a) := by
  have hfull := hcopied.full h i (Or.inr (Or.inr hat))
  have htemp := hcopied.weight h i (Or.inr hat)
  have hlay : one ((s.conveyor i).weight ≠ 0 ∧ (s.conveyor i).bagAirline = a) =
      one ((s.conveyor i).bagAirline = a) := one_of_iff (and_iff_right hfull)
  have hgone : one ((s.conveyor i).empty.weight ≠ 0 ∧ (s.conveyor i).empty.bagAirline = a) = 0 :=
    one_of_not (by simp [Place.empty])
  have hnone : one ((s.handler h).carries a = true) = 0 :=
    one_of_not (by simp [CargoHandler.carries, hat])
  have htaken : one (((s.handler h).goTo .testing).carries a = true) =
      one ((s.handler h).temp.airline = a) :=
    one_of_iff (by simp [CargoHandler.carries, htemp, hfull])
  have hplace := s.onConveyor_setPlace i (s.conveyor i).empty a
  have hhands := s.inHands_post h ((s.handler h).goTo .testing) a
  change s.put a - (((s.setPlace i _).onConveyor a : Int) + ((s.post h _).inHands a : Int) +
    s.aircraftBaggageCount a) = s.put a - (s.onConveyor a + s.inHands a +
      s.aircraftBaggageCount a) + _ - _
  omega

/-- What a handler loses when it finds no bag: it has one too many. -/
theorem lost_miss {i : Nat} (hat : (s.handler h).point = .looking i) (a : Int) :
    (s.post h ((s.handler h).goTo .testing)).lost a = s.lost a -
      one ((s.handler h).temp.weight ≠ 0 ∧ (s.handler h).temp.airline = a) := by
  have hnone : one ((s.handler h).carries a = true) = 0 :=
    one_of_not (by simp [CargoHandler.carries, hat])
  have hstale : one (((s.handler h).goTo .testing).carries a = true) =
      one ((s.handler h).temp.weight ≠ 0 ∧ (s.handler h).temp.airline = a) :=
    one_of_iff decide_eq_true_iff
  have hhands := s.inHands_post h ((s.handler h).goTo .testing) a
  change s.put a - (s.onConveyor a + ((s.post h _).inHands a : Int) + s.aircraftBaggageCount a) =
    s.put a - (s.onConveyor a + s.inHands a + s.aircraftBaggageCount a) - _
  omega

/-- A bag goes from the hands of a handler to the count of its airline. -/
theorem lost_counted (hcopied : s.Copied) {v : Int} (hat : (s.handler h).point = .counted v)
    (a : Int) : ({ s.post h ((s.handler h).goTo .weighing) with
      aircraftBaggageCount := Function.update s.aircraftBaggageCount (s.handler h).temp.airline
        (v + 1) } : Conveyor m n).lost a = s.lost a := by
  have hloaded := hcopied.counted h v hat
  have hcarried : one ((s.handler h).carries a = true) = one ((s.handler h).temp.airline = a) :=
    one_of_iff (by simp [CargoHandler.carries, hat])
  have hnone : one (((s.handler h).goTo .weighing).carries a = true) = 0 :=
    one_of_not (by simp [CargoHandler.carries])
  have hhands := s.inHands_post h ((s.handler h).goTo .weighing) a
  change s.put a - (s.onConveyor a + ((s.post h _).inHands a : Int) + Function.update
    s.aircraftBaggageCount (s.handler h).temp.airline (v + 1) a) =
      s.put a - (s.onConveyor a + s.inHands a + s.aircraftBaggageCount a)
  by_cases ha : (s.handler h).temp.airline = a
  · have hone : one ((s.handler h).temp.airline = a) = 1 := if_pos ha
    rw [ha] at hloaded ⊢
    rw [Function.update_self]
    omega
  · rw [one_of_not ha] at hcarried
    rw [Function.update_of_ne (Ne.symm ha)]
    omega

/-- A handler keeps the balance just if its step is careful. -/
theorem Balanced.handler_iff (hbalanced : s.Balanced) (hcopied : s.Copied)
    (hmove : HandlerMove s h s') : s'.Balanced ↔ s.Careful (.handler h) := by
  rw [balanced_iff_lost] at hbalanced ⊢
  -- a step that does not move a bag
  have haside : (∀ a, s'.lost a = s.lost a) →
      (∀ i, (s.handler h).point = .looking i → i < 18) →
      (∀ i, (s.handler h).point ≠ .emptying i) →
      ((∀ a, s'.lost a = 0) ↔ s.Careful (.handler h)) := by
    intro hlost hlooking hemptying
    exact iff_of_true (fun a => (hlost a).trans (hbalanced a))
      ⟨fun i hi => Or.inl (hlooking i hi), fun i hi => absurd hi (hemptying i)⟩
  cases hmove with
  | empty i hat =>
      simp only [lost_empty hcopied hat, hbalanced, Int.zero_add]
      constructor
      · intro hnone
        refine ⟨fun k hk => absurd (hat.symm.trans hk) (by simp), fun k hk => ?_⟩
        obtain rfl := CargoPoint.emptying.inj (hat.symm.trans hk)
        by_contra hne
        have hlost := hnone (s.conveyor i).bagAirline
        rw [one_of_not hne] at hlost
        simp [one] at hlost
      · intro hcareful a
        rw [hcareful.2 i hat, Int.sub_self]
  | miss i hat hi =>
      simp only [lost_miss hat, hbalanced, Int.zero_sub, Int.neg_eq_zero]
      constructor
      · intro hnone
        refine ⟨fun k hk => Or.inr ?_, fun k hk => absurd (hat.symm.trans hk) (by simp)⟩
        by_contra hweight
        exact one_eq_zero.mp (hnone _) ⟨hweight, rfl⟩
      · intro hcareful a
        have hweight := (hcareful.1 i hat).resolve_left hi
        exact one_of_not fun hstale => hstale.1 hweight
  | counted v hat => exact haside (lost_counted hcopied hat) (by simp [hat]) (by simp [hat])
  | find i hat =>
      refine haside (lost_same rfl (fun _ => rfl) (inHands_same ?_) rfl) ?_ (by simp [hat])
      · simp [CargoHandler.carries, hat]
      · intro k hk
        rw [← CargoPoint.looking.inj (hat.symm.trans hk)]
        exact i.isLt
  | next i hat hi =>
      refine haside (lost_same rfl (fun _ => rfl) (inHands_same ?_) rfl) ?_ (by simp [hat])
      · simp [CargoHandler.carries, hat]
      · intro k hk
        rw [← CargoPoint.looking.inj (hat.symm.trans hk)]
        exact hi
  | rest hat htemp =>
      refine haside (lost_same rfl (fun _ => rfl) (inHands_same ?_) rfl) (by simp [hat])
        (by simp [hat])
      simp [CargoHandler.carries, hat, htemp]
  | take hat htemp =>
      refine haside (lost_same rfl (fun _ => rfl) (inHands_same fun a => ?_) rfl) (by simp [hat])
        (by simp [hat])
      rw [CargoHandler.carries.eq_def _ (s.handler h), hat]
      exact decide_eq_decide.mpr (and_iff_right htemp).symm
  | load hat | leave hat | count hat =>
      -- the bag is in its hands before and after
      refine haside (lost_same rfl (fun _ => rfl) (inHands_same fun a => ?_) rfl) (by simp [hat])
        (by simp [hat])
      rw [CargoHandler.carries.eq_def _ (s.handler h), hat]
      rfl
  | begin hat | copyWeight i hat | copyAirline i hat | wake hat | weigh weight hat =>
      refine haside (lost_same rfl (fun _ => rfl) (inHands_same ?_) rfl) (by simp [hat])
        (by simp [hat])
      simp [CargoHandler.carries, hat]

end Balance

section Runs

/-- What every careful run keeps. -/
structure Sound (s : Conveyor m n) : Prop where
  locked : s.Locked
  stored : s.Stored
  copied : s.Copied
  balanced : s.Balanced

theorem sound_start (m n : Nat) : (start m n).Sound where
  locked := locked_start m n
  stored := stored_start m n
  copied := copied_start m n
  balanced := fun a => by
    have hplaces : (start m n).onConveyor a = 0 := by
      simp [onConveyor, headcount, start]
    have hhandlers : (start m n).inHands a = 0 := by
      simp [inHands, headcount, start, CargoHandler.carries]
    rw [hplaces, hhandlers]
    rfl

/-- A step from such a state keeps the balance just if it is careful. -/
theorem Sound.balanced_iff (hsound : s.Sound) {turn : ConveyorTurn m n}
    (hstep : step turn s = .ok s') : s'.Balanced ↔ s.Careful turn := by
  cases turn with
  | officer o bag =>
      exact hsound.balanced.officer_iff hsound.stored (officerStep_move hstep) bag
  | handler h => exact hsound.balanced.handler_iff hsound.copied (handlerStep_move hstep)

theorem Sound.step (hsound : s.Sound) {turn : ConveyorTurn m n} (hcareful : s.Careful turn)
    (hstep : step turn s = .ok s') : s'.Sound := by
  have hbalanced := (hsound.balanced_iff hstep).mpr hcareful
  obtain ⟨hlocked, hstored, hcopied, -⟩ := hsound
  cases turn with
  | officer o bag =>
      have hmove := officerStep_move hstep
      exact ⟨hlocked.officer hmove, hstored.officer hlocked hmove, hcopied.officer hstored hmove,
        hbalanced⟩
  | handler h =>
      have hmove := handlerStep_move hstep
      exact ⟨hlocked.handler hmove, hstored.handler hmove, hcopied.handler hlocked hmove, hbalanced⟩

theorem sound_of_reach (hrun : Reach step Careful (start m n) s) : s.Sound :=
  hrun.invariant (fun _ _ _ hsound hcareful hstep => hsound.step hcareful hstep) (sound_start m n)

/-- In a quiet state nothing is in the hands of a handler, and a bag has the airline it was put
with. -/
theorem Sound.agrees (hsound : s.Sound) (hquiet : s.Quiet) : s.Agrees := by
  intro a
  have hhands : s.inHands a = 0 := by
    simp [inHands, headcount, hquiet.2]
  have hplaces : s.onConveyor a =
      headcount (fun c : Place => c.weight ≠ 0 ∧ c.airline = a) s.conveyor := by
    unfold onConveyor headcount
    congr 1
    ext i
    simp only [Finset.mem_filter, Finset.mem_univ, true_and]
    refine and_congr_right fun hfull => ?_
    rcases hsound.stored.labelled i hfull with hlabel | ⟨o, b, hmarking⟩
    · rw [hlabel]
    · exact absurd hmarking (hquiet.1 o b i)
  rw [hsound.balanced a, hhands, hplaces]
  simp

/-- In a run of careful steps every bag that has been put is on the conveyor, in the hands of a
handler or loaded; and the next step keeps it so just if it is careful as well. -/
theorem accounts_of_careful (m n : Nat) {s : Conveyor m n}
    (hrun : Reach step Careful (start m n) s) :
    (∀ a, s.put a = s.onConveyor a + s.inHands a + s.aircraftBaggageCount a) ∧
      (s.Quiet → s.Agrees) ∧
      ∀ turn s', step turn s = .ok s' → (s'.Balanced ↔ s.Careful turn) :=
  have hsound := sound_of_reach hrun
  ⟨hsound.balanced, hsound.agrees, fun _ _ hstep => hsound.balanced_iff hstep⟩

/-- Whether a step is careful. -/
def isCareful (s : Conveyor m n) : ConveyorTurn m n → Bool
  | .officer o _ =>
      match s.officer o with
      | .looking _ y => y < 18
      | .storing b _ => b.weight ≠ 0
      | _ => true
  | .handler h =>
      match (s.handler h).point with
      | .looking i => i < 18 ∨ (s.handler h).temp.weight = 0
      | .emptying i => (s.handler h).temp.airline = (s.conveyor i).bagAirline
      | _ => true

theorem careful_of_isCareful {turn : ConveyorTurn m n} (hcheck : s.isCareful turn = true) :
    s.Careful turn := by
  cases turn with
  | officer o bag =>
      refine ⟨fun b y hat => ?_, fun b y hat => ?_⟩
      all_goals
        rw [isCareful, hat] at hcheck
        exact of_decide_eq_true hcheck
  | handler h =>
      refine ⟨fun i hat => ?_, fun i hat => ?_⟩
      all_goals
        rw [isCareful, hat] at hcheck
        exact of_decide_eq_true hcheck

/-- Nobody is in the middle of anything, with one officer and one handler. -/
theorem quiet_of_rest {s : Conveyor 1 1} (hofficer : s.officer 0 = .idle)
    (hhandler : (s.handler 0).point = .beginning) : s.Quiet := by
  refine ⟨fun o b y hat => ?_, fun h a => ?_⟩
  · obtain rfl := Subsingleton.elim o 0
    exact absurd (hofficer.symm.trans hat) (by simp)
  · obtain rfl := Subsingleton.elim h 0
    simp [CargoHandler.carries, hhandler]

/-- A bag of 30 pounds is put and loaded. -/
theorem accounts_of_one_bag : ∃ s : Conveyor 1 1, Reach step Careful (start 1 1) s ∧
    s.put 0 = 1 ∧ s.aircraftBaggageCount 0 = 1 ∧ s.Agrees := by
  obtain ⟨s, hrun, hofficer, hhandler, hput, hcount⟩ := exists_reach_of_replay
    (fun _ _ hcheck => careful_of_isCareful hcheck)
    (P := fun s : Conveyor 1 1 => s.officer 0 = .idle ∧ (s.handler 0).point = .beginning ∧
      s.put 0 = 1 ∧ s.aircraftBaggageCount 0 = 1)
    (show (replay step isCareful (List.replicate 6 (.officer 0 ⟨30, 0⟩) ++
      List.replicate 11 (.handler 0)) (start 1 1)).any _ = true by decide)
  exact ⟨s, hrun, hput, hcount,
    (accounts_of_careful 1 1 hrun).2.1 (quiet_of_rest hofficer hhandler)⟩

/-- An officer puts a bag of no weight, and the place it lies in is free. -/
theorem weightless_bag_lost : ¬ ∀ (m n : Nat) (s : Conveyor m n),
    Reach step (fun _ _ => True) (start m n) s → s.Quiet → s.Agrees := by
  intro h
  obtain ⟨s, hrun, hofficer, hhandler, hput, hcount, hfree⟩ : ∃ s : Conveyor 1 1,
      Reach step (fun _ _ => True) (start 1 1) s ∧ s.officer 0 = .idle ∧
        (s.handler 0).point = .beginning ∧ s.put 0 = 1 ∧ s.aircraftBaggageCount 0 = 0 ∧
        ∀ i, (s.conveyor i).weight = 0 :=
    exists_reach_of_replay (fun _ _ _ => trivial)
      (show (replay step (fun _ _ => true) (List.replicate 6 (.officer 0 ⟨0, 0⟩))
        (start 1 1)).any _ = true by decide)
  have hagrees := h 1 1 s hrun (quiet_of_rest hofficer hhandler) 0
  rw [hput, hcount] at hagrees
  simp [headcount, hfree] at hagrees

end Runs

end Conveyor
end Test
end Nachos
