import Mathlib.Algebra.BigOperators.Group.Finset.Basic
import Mathlib.Algebra.Ring.Int.Defs

/-!
# The bags of a check-in officer of `test/Airport.c`

`CheckIn_DoWork` stores bag `i` of a passenger in `totalBags[(passengerCount - 2) + i]`, and has
counted the passenger before.  So the bags of the passenger with number `k`, from one on, go to
`k - 2` and `k - 1`: the first bag of the first passenger lies outside of the array, and a second
bag is overwritten by the first bag of the next passenger.  At the end of the day the manager adds
up what is in the arrays.
-/

namespace Nachos
namespace Test

/-- `PASSENGER_COUNT`. -/
def passengerCountMax : Nat := 9

/-- `Baggage_t`. -/
structure Baggage where
  weight : Int
  airline : Int
  deriving DecidableEq, Repr

/-- `CheckInOfficer_t`.  `totalBags` lies behind `bags`, which has two places: cell `j` is
`totalBags[j]`, and cell `i - 2` is `bags[i]`. -/
structure CheckInOfficer where
  passengerCount : Int
  cells : Int → Baggage
  airline : Int
  /-- The indices at which it has stored into `totalBags`. -/
  stored : List Int

namespace CheckInOfficer

/-- An officer as `createCIOs` leaves it. -/
def start (airline : Int) : CheckInOfficer := ⟨0, fun _ => ⟨0, 0⟩, airline, []⟩

variable (s : CheckInOfficer)

/-- `bags[i]`. -/
def bag (i : Nat) : Baggage := s.cells (i - 2)

/-- A store to `bags[i]`. -/
def setBag (i : Nat) (b : Baggage) : CheckInOfficer :=
  { s with cells := Function.update s.cells (i - 2) b }

/-- The body of the first loop, which takes bag `i` over from `CPInfo`. -/
def takeBag (i : Nat) (b : Baggage) : CheckInOfficer :=
  if b.weight ≠ 0 then s.setBag i b else s.setBag i { s.bag i with weight := 0 }

/-- `totalBags[(passengerCount - 2) + i] = bags[i]`. -/
def storeBag (i : Nat) : CheckInOfficer :=
  let j := s.passengerCount - 2 + i
  { s with cells := Function.update s.cells j (s.bag i), stored := s.stored ++ [j] }

/-- The body of the second loop. -/
def dropBag (i : Nat) : CheckInOfficer :=
  (s.setBag i { s.bag i with airline := s.airline }).storeBag i

/-- A round of `CheckIn_DoWork`, for a passenger with these bags. -/
def serve (bag : List Baggage) : CheckInOfficer :=
  let s := { s with passengerCount := s.passengerCount + 1 }
  let s := bag.zipIdx.foldl (fun s b => s.takeBag b.2 b.1) s
  (List.range bag.length).foldl dropBag s

end CheckInOfficer

/-- What an officer does until the end of the day: a few passengers, of two bags at most. -/
structure Shift where
  airline : Int
  passengers : List (List Baggage)
  few : passengers.length ≤ passengerCountMax
  two : ∀ bags ∈ passengers, bags.length ≤ 2

namespace Shift

/-- The officer at the end of the day. -/
def officer (d : Shift) : CheckInOfficer :=
  d.passengers.foldl CheckInOfficer.serve (.start d.airline)

/-- What the bags weigh that the officer has handled. -/
def weight (d : Shift) : Int := (d.passengers.map fun bags => (bags.map Baggage.weight).sum).sum

/-- Each bag is stored inside of `totalBags`, and where no other bag is. -/
def StoresApart (d : Shift) : Prop :=
  d.officer.stored.Nodup ∧ ∀ j ∈ d.officer.stored, 0 ≤ j ∧ j < passengerCountMax * 2

/-- The first passenger has no bags, and behind a passenger with two there is one without. -/
def Spaced (d : Shift) : Prop :=
  (∀ bags, d.passengers.head? = some bags → bags = []) ∧
    d.passengers.IsChain fun bags next => bags.length = 2 → next = []

end Shift

/-- `CIOTotalWeight` behind the loops of `EndOfDay`. -/
def cioTotalWeight (officers : List CheckInOfficer) : Int → Int :=
  officers.foldl (fun totals s =>
    (List.range (passengerCountMax * 2)).foldl (fun totals (j : Nat) =>
      let b := s.cells j
      Function.update totals b.airline (totals b.airline + b.weight)) totals) fun _ => 0

/-- The total of each airline is what the bags of its officers weigh. -/
def CountsOnce (days : List Shift) : Prop :=
  ∀ a, cioTotalWeight (days.map Shift.officer) a =
    (days.map fun d => if d.airline = a then d.weight else 0).sum

section Indices

variable {k : Int} {counts : List Nat}

/-- The indices for passengers with so many bags, the first of them with index `k`. -/
def indices : Int → List Nat → List Int
  | _, [] => []
  | k, b :: counts => (List.range b).map (fun i : Nat => k + i) ++ indices (k + 1) counts

theorem mem_indices (htwo : ∀ b ∈ counts, b ≤ 2) {j : Int} (hj : j ∈ indices k counts) :
    k ≤ j ∧ j < k + counts.length + 1 := by
  induction counts generalizing k with
  | nil => simp [indices] at hj
  | cons b counts ih =>
      have hb := htwo b List.mem_cons_self
      simp only [indices, List.mem_append, List.mem_map, List.mem_range] at hj
      rw [List.length_cons]
      rcases hj with ⟨i, hi, rfl⟩ | hj
      · omega
      · have hrest := ih (fun c hc => htwo c (List.mem_cons_of_mem b hc)) hj
        omega

/-- The indices of a passenger differ from those that follow just if no bag follows on a second
one. -/
theorem disjoint_indices {b next : Nat} (hb : b ≤ 2) (htwo : ∀ c ∈ next :: counts, c ≤ 2) :
    (∀ j ∈ (List.range b).map (fun i : Nat => k + i), ∀ j' ∈ indices (k + 1) (next :: counts),
      j ≠ j') ↔ (b = 2 → next = 0) := by
  constructor
  · intro hapart hfull
    by_contra hnext
    refine hapart (k + 1) ?_ (k + 1) ?_ rfl
    · exact List.mem_map.mpr ⟨1, List.mem_range.mpr (by omega), by omega⟩
    · refine List.mem_append_left _ (List.mem_map.mpr ⟨0, List.mem_range.mpr (by omega), by omega⟩)
  · intro hspaced j hj j' hj'
    obtain ⟨i, hi, rfl⟩ := List.mem_map.mp hj
    rw [List.mem_range] at hi
    have hlater := (mem_indices htwo hj').1
    by_cases hfull : b = 2
    · rw [hspaced hfull, indices, List.range_zero, List.map_nil, List.nil_append] at hj'
      have hskip := (mem_indices (fun c hc => htwo c (List.mem_cons_of_mem next hc)) hj').1
      omega
    · omega

/-- The indices differ just if no bag follows on a second one. -/
theorem nodup_indices (htwo : ∀ b ∈ counts, b ≤ 2) :
    (indices k counts).Nodup ↔ counts.IsChain fun b next => b = 2 → next = 0 := by
  induction counts generalizing k with
  | nil => simp [indices]
  | cons b counts ih =>
      have hown : ((List.range b).map fun i : Nat => k + i).Nodup :=
        List.nodup_range.map fun i i' (h : k + (i : Int) = k + i') => by omega
      rw [indices, List.nodup_append]
      cases counts with
      | nil => simp [indices, hown]
      | cons next counts =>
          have hrest : ∀ c ∈ next :: counts, c ≤ 2 := fun c hc => htwo c (List.mem_cons_of_mem b hc)
          rw [List.isChain_cons_cons, ih hrest,
            disjoint_indices (htwo b List.mem_cons_self) hrest]
          exact ⟨fun h => ⟨h.2.2, h.2.1⟩, fun h => ⟨hown, h.2, h.1⟩⟩

/-- No index is negative just if the first passenger has no bags. -/
theorem nonneg_indices (htwo : ∀ b ∈ counts, b ≤ 2) :
    (∀ j ∈ indices (-1) counts, 0 ≤ j) ↔ ∀ b, counts.head? = some b → b = 0 := by
  cases counts with
  | nil => simp [indices]
  | cons b counts =>
      have hrest : ∀ c ∈ counts, c ≤ 2 := fun c hc => htwo c (List.mem_cons_of_mem b hc)
      simp only [List.head?_cons, Option.some.injEq, forall_eq']
      constructor
      · intro hnonneg
        by_contra hb
        have hfirst := hnonneg (-1) (List.mem_append_left _
          (List.mem_map.mpr ⟨0, List.mem_range.mpr (by omega), by omega⟩))
        omega
      · rintro rfl j hj
        rw [indices, List.range_zero, List.map_nil, List.nil_append] at hj
        have hlater := (mem_indices hrest hj).1
        omega

end Indices

namespace CheckInOfficer

variable {s : CheckInOfficer}

section Stored

/-- The rest of an officer, which the loops leave alone or count up. -/
structure Kept (s t : CheckInOfficer) : Prop where
  passengerCount : t.passengerCount = s.passengerCount
  airline : t.airline = s.airline

theorem takeBag_kept (s : CheckInOfficer) (i : Nat) (b : Baggage) :
    s.Kept (s.takeBag i b) ∧ (s.takeBag i b).stored = s.stored := by
  unfold takeBag
  split
  all_goals exact ⟨⟨rfl, rfl⟩, rfl⟩

theorem foldl_takeBag (bags : List (Baggage × Nat)) (s : CheckInOfficer) :
    s.Kept (bags.foldl (fun s b => s.takeBag b.2 b.1) s) ∧
      (bags.foldl (fun s b => s.takeBag b.2 b.1) s).stored = s.stored := by
  induction bags generalizing s with
  | nil => exact ⟨⟨rfl, rfl⟩, rfl⟩
  | cons b bags ih =>
      obtain ⟨hkept, hstored⟩ := takeBag_kept s b.2 b.1
      obtain ⟨hrest, hrestored⟩ := ih (s.takeBag b.2 b.1)
      exact ⟨⟨hrest.passengerCount.trans hkept.passengerCount, hrest.airline.trans hkept.airline⟩,
        hrestored.trans hstored⟩

theorem foldl_dropBag (s : CheckInOfficer) : ∀ n : Nat,
    s.Kept ((List.range n).foldl dropBag s) ∧ ((List.range n).foldl dropBag s).stored =
      s.stored ++ (List.range n).map fun i : Nat => s.passengerCount - 2 + i := by
  intro n
  induction n with
  | zero => exact ⟨⟨rfl, rfl⟩, by simp⟩
  | succ n ih =>
      obtain ⟨hkept, hstored⟩ := ih
      simp only [List.range_succ, List.foldl_append, List.foldl_cons, List.foldl_nil,
        List.map_append, List.map_cons, List.map_nil]
      refine ⟨⟨hkept.passengerCount, hkept.airline⟩, ?_⟩
      rw [← List.append_assoc, ← hstored, ← hkept.passengerCount]
      rfl

theorem serve_kept (s : CheckInOfficer) (bags : List Baggage) :
    (s.serve bags).passengerCount = s.passengerCount + 1 ∧
      (s.serve bags).airline = s.airline ∧
      (s.serve bags).stored =
        s.stored ++ (List.range bags.length).map fun i : Nat => s.passengerCount - 1 + i := by
  obtain ⟨htaken, hsame⟩ := foldl_takeBag bags.zipIdx
    { s with passengerCount := s.passengerCount + 1 }
  obtain ⟨hdropped, hstored⟩ := foldl_dropBag (bags.zipIdx.foldl (fun s b => s.takeBag b.2 b.1)
    { s with passengerCount := s.passengerCount + 1 }) bags.length
  refine ⟨hdropped.passengerCount.trans htaken.passengerCount,
    hdropped.airline.trans htaken.airline, ?_⟩
  have hindex : s.passengerCount + 1 - 2 = s.passengerCount - 1 := by omega
  rw [htaken.passengerCount, hsame, hindex] at hstored
  exact hstored

theorem foldl_serve_stored (passengers : List (List Baggage)) (s : CheckInOfficer) :
    (passengers.foldl serve s).stored =
      s.stored ++ indices (s.passengerCount - 1) (passengers.map List.length) := by
  induction passengers generalizing s with
  | nil => simp [indices]
  | cons bags passengers ih =>
      obtain ⟨hcount, -, hstored⟩ := serve_kept s bags
      have hindex : s.passengerCount + 1 - 1 = s.passengerCount - 1 + 1 := by omega
      rw [List.foldl_cons, ih, hcount, hstored, List.map_cons, indices, List.append_assoc, hindex]

theorem foldl_serve_airline (passengers : List (List Baggage)) (s : CheckInOfficer) :
    (passengers.foldl serve s).airline = s.airline := by
  induction passengers generalizing s with
  | nil => rfl
  | cons bags passengers ih =>
      rw [List.foldl_cons, ih]
      exact (serve_kept s bags).2.1

end Stored

section Worth

variable {next sum : Int}

/-- What the bags of an airline in `totalBags` weigh. -/
def worth (cells : Int → Baggage) (a : Int) : Int :=
  ∑ j ∈ Finset.range (passengerCountMax * 2), if (cells j).airline = a then (cells j).weight else 0

/-- A bag is stored in a free place. -/
theorem worth_update {cells : Int → Baggage} {j : Int} (hnonneg : 0 ≤ j)
    (hlt : j < passengerCountMax * 2) (hfree : (cells j).weight = 0) (b : Baggage) (a : Int) :
    worth (Function.update cells j b) a =
      worth cells a + if b.airline = a then b.weight else 0 := by
  obtain ⟨m, rfl⟩ := Int.eq_ofNat_of_zero_le hnonneg
  have hm : m ∈ Finset.range (passengerCountMax * 2) := Finset.mem_range.mpr (by omega)
  have hrest : ∀ i ∈ (Finset.range (passengerCountMax * 2)).erase m,
      Function.update cells (m : Int) b i = cells i := by
    intro i hi
    exact Function.update_of_ne (fun heq => Finset.ne_of_mem_erase hi (by omega)) ..
  unfold worth
  rw [← Finset.add_sum_erase _ _ hm, ← Finset.add_sum_erase _ _ hm,
    Finset.sum_congr rfl fun i hi => by rw [hrest i hi], Function.update_self, hfree, ite_self,
    Int.zero_add, Int.add_comm]

/-- `bags` does not count. -/
theorem worth_below {cells : Int → Baggage} {j : Int} (hneg : j < 0) (b : Baggage) (a : Int) :
    worth (Function.update cells j b) a = worth cells a := by
  refine Finset.sum_congr rfl fun i _ => ?_
  rw [Function.update_of_ne (by omega)]

theorem setBag_cells (i : Nat) (b : Baggage) :
    (s.setBag i b).cells = Function.update s.cells (i - 2) b := rfl

/-- A bag is marked with the airline and stored. -/
theorem dropBag_cells (i : Nat) : (s.dropBag i).cells =
    Function.update (Function.update s.cells (i - 2) { s.bag i with airline := s.airline })
      (s.passengerCount - 2 + i) { s.bag i with airline := s.airline } := by
  simp [dropBag, storeBag, setBag, bag]

/-- The places from `next` on are free, and the bags in the others weigh `sum`. -/
structure Tallied (s : CheckInOfficer) (next sum : Int) : Prop where
  free : ∀ j, next ≤ j → (s.cells j).weight = 0
  worth : ∀ a, CheckInOfficer.worth s.cells a = if s.airline = a then sum else 0

theorem tallied_start (airline : Int) : (start airline).Tallied 0 0 where
  free := fun _ _ => rfl
  worth := fun a => by
    rw [ite_self]
    exact Finset.sum_eq_zero fun _ _ => ite_self 0

theorem Tallied.mono (h : s.Tallied next sum) {next' : Int} (hle : next ≤ next') :
    s.Tallied next' sum := ⟨fun j hj => h.free j (by omega), h.worth⟩

theorem Tallied.setBag (h : s.Tallied next sum) (hnext : 0 ≤ next) {i : Nat} (hi : i < 2)
    (b : Baggage) : (s.setBag i b).Tallied next sum where
  free := fun j hj => by
    rw [setBag_cells, Function.update_of_ne (by omega)]
    exact h.free j hj
  worth := fun a => (worth_below (by omega) b a).trans (h.worth a)

theorem Tallied.takeBag (h : s.Tallied next sum) (hnext : 0 ≤ next) {i : Nat} (hi : i < 2)
    (b : Baggage) : (s.takeBag i b).Tallied next sum := by
  unfold CheckInOfficer.takeBag
  split
  all_goals exact h.setBag hnext hi _

theorem takeBag_weight (s : CheckInOfficer) (i : Nat) (b : Baggage) :
    ((s.takeBag i b).bag i).weight = b.weight := by
  unfold takeBag
  split
  · simp [setBag, bag]
  · rename_i hzero
    simp only [ne_eq, not_not] at hzero
    simp [setBag, bag, hzero]

theorem takeBag_other (s : CheckInOfficer) {i i' : Nat} (hi : i' ≠ i) (b : Baggage) :
    (s.takeBag i b).bag i' = s.bag i' := by
  unfold takeBag bag
  split
  all_goals exact Function.update_of_ne (by omega) ..

/-- A bag is dropped into a free place. -/
theorem Tallied.dropBag (h : s.Tallied next sum) (hnext : 0 ≤ next) {i : Nat} (hi : i < 2)
    (hfree : next ≤ s.passengerCount - 2 + i)
    (hroom : s.passengerCount - 2 + i < passengerCountMax * 2) :
    (s.dropBag i).Tallied (s.passengerCount - 2 + i + 1) (sum + (s.bag i).weight) := by
  have hmarked := h.setBag hnext hi { s.bag i with airline := s.airline }
  refine ⟨fun j hj => ?_, fun a => ?_⟩
  · rw [dropBag_cells, Function.update_of_ne (by omega)]
    exact hmarked.free j (by omega)
  · have hworth := worth_update (by omega) hroom (hmarked.free _ hfree)
      { s.bag i with airline := s.airline } a
    rw [hmarked.worth a] at hworth
    rw [dropBag_cells]
    refine hworth.trans ?_
    change (if s.airline = a then sum else 0) + (if s.airline = a then (s.bag i).weight else 0) =
      if s.airline = a then sum + (s.bag i).weight else 0
    by_cases ha : s.airline = a
    · simp only [if_pos ha]
    · simp only [if_neg ha, Int.add_zero]

theorem dropBag_other (s : CheckInOfficer) {i i' : Nat} (hi : i' < 2) (hne : i' ≠ i)
    (hnonneg : 0 ≤ s.passengerCount - 2 + i) : (s.dropBag i).bag i' = s.bag i' := by
  unfold bag
  rw [dropBag_cells, Function.update_of_ne (by omega), Function.update_of_ne (by omega)]

/-- The next place behind a passenger with so many bags. -/
def frontier (count : Int) (bags : Nat) : Int := count - 1 + if bags = 2 then 1 else 0

/-- A passenger is served, and its bags go to free places. -/
theorem Tallied.serve {last : Nat} (h : s.Tallied (frontier s.passengerCount last) sum)
    (hnonneg : 0 ≤ frontier s.passengerCount last) {bags : List Baggage} (htwo : bags.length ≤ 2)
    (hspaced : last = 2 → bags.length = 0) (hroom : s.passengerCount < 2 * passengerCountMax - 1) :
    (s.serve bags).Tallied (frontier (s.passengerCount + 1) bags.length)
      (sum + (bags.map Baggage.weight).sum) := by
  unfold frontier at h hnonneg ⊢
  let t : CheckInOfficer := { s with passengerCount := s.passengerCount + 1 }
  have htallied : t.Tallied (s.passengerCount - 1 + if last = 2 then 1 else 0) sum :=
    ⟨h.free, h.worth⟩
  match bags, htwo with
  | [], _ =>
      have hnone : (t.Tallied (s.passengerCount - 1 + if last = 2 then 1 else 0) (sum + 0)) := by
        rwa [Int.add_zero]
      have hempty : ¬ ([] : List Baggage).length = 2 := by simp
      refine hnone.mono ?_
      rw [if_neg hempty]
      split
      all_goals omega
  | [b], _ =>
      rw [if_neg fun hfull => absurd (hspaced hfull) (by simp)] at htallied hnonneg
      have hcount : (t.takeBag 0 b).passengerCount = s.passengerCount + 1 :=
        (takeBag_kept t 0 b).1.passengerCount
      have htaken := htallied.takeBag hnonneg Nat.zero_lt_two b
      have hdropped := htaken.dropBag hnonneg Nat.zero_lt_two (by omega) (by omega)
      rw [takeBag_weight, hcount] at hdropped
      have hsum : sum + ([b].map Baggage.weight).sum = sum + b.weight := by simp
      rw [hsum, if_neg (by simp)]
      exact hdropped.mono (by omega)
  | [b, c], _ =>
      rw [if_neg fun hfull => absurd (hspaced hfull) (by simp)] at htallied hnonneg
      let u : CheckInOfficer := (t.takeBag 0 b).takeBag 1 c
      have hcount : u.passengerCount = s.passengerCount + 1 :=
        (takeBag_kept (t.takeBag 0 b) 1 c).1.passengerCount.trans
          (takeBag_kept t 0 b).1.passengerCount
      have htaken : u.Tallied (s.passengerCount - 1 + 0) sum :=
        (htallied.takeBag hnonneg Nat.zero_lt_two b).takeBag hnonneg Nat.one_lt_two c
      have hdropped := htaken.dropBag hnonneg Nat.zero_lt_two (by omega) (by omega)
      have hagain := hdropped.dropBag (by omega) Nat.one_lt_two
        (by change _ ≤ u.passengerCount - 2 + 1; omega)
        (by change u.passengerCount - 2 + 1 < _; omega)
      have hfirst : (u.bag 0).weight = b.weight := by
        rw [takeBag_other _ Nat.zero_ne_one, takeBag_weight]
      have hsecond : ((u.dropBag 0).bag 1).weight = c.weight := by
        rw [dropBag_other _ Nat.one_lt_two Nat.one_ne_zero (by omega), takeBag_weight]
      have hsum : sum + ([b, c].map Baggage.weight).sum = sum + b.weight + c.weight := by
        simp [Int.add_assoc]
      rw [hfirst, hsecond] at hagain
      have hfull : [b, c].length = 2 := rfl
      rw [hsum, if_pos hfull]
      exact hagain.mono (by change u.passengerCount - 2 + 1 + 1 ≤ _; omega)

/-- The bags of spaced passengers are tallied. -/
theorem Tallied.foldl_serve {last : Nat} {passengers : List (List Baggage)}
    (h : s.Tallied (frontier s.passengerCount last) sum)
    (hnonneg : 0 ≤ frontier s.passengerCount last) (htwo : ∀ bags ∈ passengers, bags.length ≤ 2)
    (hspaced : (last :: passengers.map List.length).IsChain fun b next => b = 2 → next = 0)
    (hroom : s.passengerCount + passengers.length < 2 * passengerCountMax) :
    ∃ next, (passengers.foldl CheckInOfficer.serve s).Tallied next
      (sum + (passengers.map fun bags => (bags.map Baggage.weight).sum).sum) := by
  induction passengers generalizing s last sum with
  | nil => exact ⟨_, by simpa using h⟩
  | cons bags passengers ih =>
      rw [List.map_cons, List.isChain_cons_cons] at hspaced
      rw [List.length_cons] at hroom
      obtain ⟨hcount, -, -⟩ := serve_kept s bags
      have hserved := h.serve hnonneg (htwo bags List.mem_cons_self) hspaced.1 (by omega)
      rw [← hcount] at hserved
      have hnext : 0 ≤ frontier (s.serve bags).passengerCount bags.length := by
        unfold frontier at hnonneg ⊢
        rw [hcount]
        split at hnonneg
        all_goals split
        all_goals omega
      obtain ⟨next, hrest⟩ := ih hserved hnext
        (fun c hc => htwo c (List.mem_cons_of_mem bags hc)) hspaced.2 (by rw [hcount]; omega)
      rw [Int.add_assoc] at hrest
      exact ⟨next, by simpa using hrest⟩

end Worth

end CheckInOfficer

namespace Shift

variable (d : Shift)

theorem stored_eq : d.officer.stored = indices (-1) (d.passengers.map List.length) :=
  CheckInOfficer.foldl_serve_stored d.passengers (.start d.airline)

theorem counts_le : ∀ b ∈ d.passengers.map List.length, b ≤ 2 := by
  intro b hb
  obtain ⟨bags, hbags, rfl⟩ := List.mem_map.mp hb
  exact d.two bags hbags

theorem spaced_iff : d.Spaced ↔
    (∀ b, (d.passengers.map List.length).head? = some b → b = 0) ∧
      (d.passengers.map List.length).IsChain fun b next => b = 2 → next = 0 := by
  rw [Spaced, List.isChain_map, List.head?_map]
  simp

/-- The bags are stored apart just if the passengers are spaced. -/
theorem storesApart_iff : d.StoresApart ↔ d.Spaced := by
  rw [spaced_iff, StoresApart, stored_eq, nodup_indices d.counts_le,
    ← nonneg_indices d.counts_le, and_comm]
  refine and_congr_left fun _ => forall₂_congr fun j hj => ⟨And.left, fun hnonneg => ⟨hnonneg, ?_⟩⟩
  have hbelow := (mem_indices d.counts_le hj).2
  have hfew := d.few
  rw [List.length_map] at hbelow
  simp only [passengerCountMax] at hfew ⊢
  omega

/-- What a spaced officer has in `totalBags`. -/
theorem Spaced.worth {d : Shift} (h : d.Spaced) (a : Int) :
    CheckInOfficer.worth d.officer.cells a = if d.airline = a then d.weight else 0 := by
  have hchain : (2 :: d.passengers.map List.length).IsChain fun b next => b = 2 → next = 0 := by
    obtain ⟨hfirst, hspaced⟩ := d.spaced_iff.mp h
    exact List.isChain_cons.mpr ⟨fun b hb _ => hfirst b hb, hspaced⟩
  have hfew := d.few
  have hstart : (CheckInOfficer.start d.airline).Tallied (CheckInOfficer.frontier 0 2) 0 :=
    CheckInOfficer.tallied_start d.airline
  obtain ⟨next, htallied⟩ := hstart.foldl_serve (Int.le_refl 0) d.two hchain
    (by simp only [CheckInOfficer.start, passengerCountMax] at *; omega)
  have hworth := htallied.worth a
  rw [CheckInOfficer.foldl_serve_airline, Int.zero_add] at hworth
  exact hworth

end Shift

section EndOfDay

theorem foldl_cells (cells : Int → Baggage) (a : Int) : ∀ (n : Nat) (totals : Int → Int),
    (List.range n).foldl (fun totals (j : Nat) =>
      Function.update totals (cells j).airline (totals (cells j).airline + (cells j).weight))
      totals a = totals a + ∑ j ∈ Finset.range n,
        if (cells j).airline = a then (cells j).weight else 0 := by
  intro n totals
  induction n with
  | zero => simp
  | succ n ih =>
      rw [List.range_succ, List.foldl_append, List.foldl_cons, List.foldl_nil,
        Finset.sum_range_succ, ← Int.add_assoc, ← ih]
      by_cases ha : (cells n).airline = a
      · rw [if_pos ha, ha, Function.update_self]
      · rw [if_neg ha, Int.add_zero, Function.update_of_ne (Ne.symm ha)]

theorem foldl_officers (a : Int) (officers : List CheckInOfficer) (totals : Int → Int) :
    officers.foldl (fun totals s =>
      (List.range (passengerCountMax * 2)).foldl (fun totals (j : Nat) =>
        let b := s.cells j
        Function.update totals b.airline (totals b.airline + b.weight)) totals) totals a =
      totals a + (officers.map fun s => CheckInOfficer.worth s.cells a).sum := by
  induction officers generalizing totals with
  | nil => simp
  | cons s officers ih =>
      rw [List.foldl_cons, ih, List.map_cons, List.sum_cons, ← Int.add_assoc]
      exact congrArg (· + _) (foldl_cells s.cells a _ totals)

/-- The officers store their bags apart, and the manager counts each of them once, just if the
passengers of every officer are spaced. -/
theorem checkIn_bags_iff (days : List Shift) :
    ((∀ d ∈ days, d.StoresApart) ∧ CountsOnce days) ↔ ∀ d ∈ days, d.Spaced := by
  constructor
  · rintro ⟨hapart, -⟩ d hd
    exact d.storesApart_iff.mp (hapart d hd)
  · intro hspaced
    refine ⟨fun d hd => d.storesApart_iff.mpr (hspaced d hd), fun a => ?_⟩
    rw [cioTotalWeight, foldl_officers, Int.zero_add, List.map_map]
    exact congrArg List.sum (List.map_congr_left fun d hd => (hspaced d hd).worth a)

/-- Two passengers as `createPassengers` makes them, with two bags each: the first bag lies outside
of the array, and the second and the third in one place. -/
theorem checkIn_bags_lost : ¬ ∀ days : List Shift,
    (∀ d ∈ days, d.StoresApart) ∧ CountsOnce days := by
  intro h
  let d : Shift := ⟨0, [[⟨0, -1⟩, ⟨0, -1⟩], [⟨0, -1⟩, ⟨0, -1⟩]], by decide, by decide⟩
  have hapart := ((h [d]).1 d List.mem_cons_self).2 (-1) (by decide)
  exact absurd hapart.1 (by decide)

end EndOfDay

end Test
end Nachos
