import Mathlib.Data.List.Nodup
import Mathlib.Logic.Function.Basic

/-!
# How a screening officer looks for a security inspector

The search in `ScreeningOfficer::DoWork`, and `Screening_DoWork` of `test/Airport.c`.  A scan looks
at `SecurityAvailability` of one officer after the other, and gives `SecurityAvail` up between two
of them.  It reserves every officer that it finds available, but `y` is what it has found at the
last one: so the search ends with the last officer only, and the others stay reserved.
-/

namespace Nachos
namespace Airport

/-- The variables of the search. -/
structure OfficerSearch where
  y : Bool
  /-- `SPInfo[number].SecurityOfficer`. -/
  securityOfficer : Nat
  /-- The entries of `SecurityAvailability` that it has set from `true` to `false`. -/
  reserved : List Nat
  /-- Behind the `break`. -/
  left : Bool

namespace OfficerSearch

/-- `SecurityAvailability` behind the critical section for officer `i`. -/
def reserve (available : Nat → Bool) (i : Nat) : Nat → Bool :=
  if available i then Function.update available i false else available

/-- The entries of `n` officers that were `true` and are `false` now. -/
def withdrawn (n : Nat) (available available' : Nat → Bool) : List Nat :=
  (List.range n).filter fun j => available j && !available' j

/-- The critical section for officer `i`. -/
def look (n : Nat) (available : Nat → Bool) (i : Nat) (s : OfficerSearch) : OfficerSearch :=
  { s with
    y := available i
    securityOfficer := if available i then i else s.securityOfficer
    reserved := s.reserved ++ withdrawn n available (reserve available i) }

/-- The `for` loop over the officers, and the test behind it; `seen i` is `SecurityAvailability`
when it comes to officer `i`. -/
def scan (n : Nat) (seen : Nat → Nat → Bool) (s : OfficerSearch) : OfficerSearch :=
  let s := (List.range n).foldl (fun s i => s.look n (seen i) i) { s with y := false }
  { s with left := s.y }

/-- The search after `m` scans at most.  What other threads do between two critical sections is in
`seen`. -/
def search (n : Nat) (seen : Nat → Nat → Nat → Bool) (before : Nat) : Nat → OfficerSearch
  | 0 => ⟨false, before, [], false⟩
  | m + 1 =>
      let s := search n seen before m
      if s.left then s else s.scan n (seen m)

section Scan

variable {n : Nat} {seen : Nat → Nat → Bool} {s : OfficerSearch}

/-- A critical section withdraws the officer, if that was available. -/
theorem withdrawn_reserve {available : Nat → Bool} {i : Nat} (hi : i < n) :
    withdrawn n available (reserve available i) = if available i then [i] else [] := by
  unfold withdrawn reserve
  by_cases havailable : available i = true
  · have hone : ∀ j, (available j && !(Function.update available i false) j) = decide (j = i) := by
      intro j
      by_cases hj : j = i
      · subst hj
        simp [havailable]
      · simp [hj]
    rw [if_pos havailable, if_pos havailable]
    simp only [hone]
    rw [List.filter_eq, List.count_eq_one_of_mem List.nodup_range (List.mem_range.mpr hi)]
    rfl
  · rw [if_neg havailable, if_neg havailable]
    simp

theorem look_reserved {available : Nat → Bool} {i : Nat} (hi : i < n) :
    (s.look n available i).reserved = s.reserved ++ if available i then [i] else [] := by
  rw [look, withdrawn_reserve hi]

/-- A scan that has come to officer `count`. -/
theorem foldl_look (s : OfficerSearch) : ∀ count, count ≤ n →
    let t := (List.range count).foldl (fun s i => s.look n (seen i) i) { s with y := false }
    t.reserved = s.reserved ++ (List.range count).filter (fun i => seen i i) ∧
      t.y = (decide (0 < count) && seen (count - 1) (count - 1)) ∧
      (t.y = true → t.securityOfficer = count - 1) := by
  intro count
  induction count with
  | zero => simp
  | succ count ih =>
      intro hcount
      obtain ⟨hreserved, -, -⟩ := ih (by omega)
      simp only [List.range_succ, List.foldl_append, List.foldl_cons, List.foldl_nil]
      refine ⟨?_, by simp [look], fun havailable => ?_⟩
      · rw [look_reserved (Nat.lt_of_succ_le hcount), hreserved, List.filter_append,
          List.append_assoc]
        cases hseen : seen count count
        all_goals simp [hseen]
      · have hseen : seen count count = true := havailable
        simp [look, hseen]

theorem scan_reserved : (s.scan n seen).reserved =
    s.reserved ++ (List.range n).filter (fun i => seen i i) :=
  (foldl_look s n (Nat.le_refl n)).1

/-- A scan ends the search if it finds the last officer available. -/
theorem scan_left : (s.scan n seen).left = (decide (0 < n) && seen (n - 1) (n - 1)) :=
  (foldl_look s n (Nat.le_refl n)).2.1

/-- What a scan reserves that finds no officer but the last one available. -/
theorem filter_last (hnone : ∀ i, i + 1 < n → seen i i = false) :
    (List.range n).filter (fun i => seen i i) =
      if (s.scan n seen).left then [n - 1] else [] := by
  rw [scan_left]
  cases n with
  | zero => rfl
  | succ k =>
      have hbefore : (List.range k).filter (fun i => seen i i) = [] := by
        refine List.filter_eq_nil_iff.mpr fun i hi => ?_
        simp [hnone i (by simpa using hi)]
      rw [List.range_succ, List.filter_append, hbefore, List.nil_append]
      cases hseen : seen k k
      all_goals simp [hseen]

theorem scan_securityOfficer (h : (s.scan n seen).left = true) :
    (s.scan n seen).securityOfficer = n - 1 :=
  (foldl_look s n (Nat.le_refl n)).2.2 h

end Scan

section Search

variable {n m : Nat} {seen : Nat → Nat → Nat → Bool} {before : Nat}

/-- The search goes on while the last officer is not available. -/
theorem search_going : ∀ m, (search n seen before m).left = false ↔
    ∀ k < m, 0 < n → seen k (n - 1) (n - 1) = false := by
  intro m
  induction m with
  | zero => simp [search]
  | succ m ih =>
      by_cases hleft : (search n seen before m).left = true
      · have hnot := mt ih.mpr (by simp [hleft])
        simp only [search, hleft, if_true, Bool.true_eq_false, false_iff]
        exact fun h => hnot fun k hk => h k (by omega)
      · have hgoing := ih.mp (by simpa using hleft)
        simp only [search, hleft, Bool.false_eq_true, if_false, scan_left]
        constructor
        · intro hlast k hk hn
          rcases Nat.lt_succ_iff_lt_or_eq.mp hk with hk | rfl
          · exact hgoing k hk hn
          · simpa [hn] using hlast
        · intro h
          by_cases hn : 0 < n
          · simp [hn, h m (Nat.lt_succ_self m) hn]
          · simp [hn]

theorem search_succ (h : (search n seen before m).left = false) :
    search n seen before (m + 1) = (search n seen before m).scan n (seen m) := by
  simp [search, h]

/-- The search does what it should: when it ends, it has reserved one officer, the one in `SPInfo`,
and a scan that finds an officer available ends it. -/
structure Correct (n : Nat) (seen : Nat → Nat → Nat → Bool) (before : Nat) : Prop where
  one : ∀ m, (search n seen before m).left = true →
    (search n seen before m).reserved = [(search n seen before m).securityOfficer]
  ends : ∀ m, (search n seen before m).left = false → (∃ i < n, seen m i i = true) →
    (search n seen before (m + 1)).left = true

/-- No scan finds an officer other than the last one available. -/
def OnlyLastSeen (n : Nat) (seen : Nat → Nat → Nat → Bool) : Prop :=
  ∀ m, (∀ k < m, seen k (n - 1) (n - 1) = false) → ∀ i, i + 1 < n → seen m i i = false

/-- If only the last officer is seen, the search reserves nobody before it ends. -/
theorem OnlyLastSeen.reserved (h : OnlyLastSeen n seen) : ∀ m,
    (search n seen before m).reserved =
      if (search n seen before m).left then [(search n seen before m).securityOfficer] else [] := by
  intro m
  induction m with
  | zero => rfl
  | succ m ih =>
      by_cases hleft : (search n seen before m).left = true
      · simp only [search, hleft, if_true] at ih ⊢
        exact ih
      · have hgoing : (search n seen before m).left = false := by simpa using hleft
        have hnone : ∀ i, i + 1 < n → seen m i i = false := by
          intro i hi
          exact h m (fun k hk => (search_going m).mp hgoing k hk (by omega)) i hi
        rw [search_succ hgoing, scan_reserved, ih, hgoing,
          filter_last (s := search n seen before m) hnone]
        by_cases hends : ((search n seen before m).scan n (seen m)).left = true
        · rw [if_pos hends, if_pos hends, scan_securityOfficer hends]
          rfl
        · rw [if_neg hends, if_neg hends]
          rfl

/-- The search is correct just if no scan finds an officer other than the last one available. -/
theorem correct_iff (n : Nat) (seen : Nat → Nat → Nat → Bool) (before : Nat) :
    Correct n seen before ↔ OnlyLastSeen n seen := by
  constructor
  · intro hcorrect m hbefore i hi
    by_contra hseen
    have hgoing : (search n seen before m).left = false :=
      (search_going m).mpr fun k hk _ => hbefore k hk
    have hends := hcorrect.ends m hgoing ⟨i, by omega, by simpa using hseen⟩
    -- the scan that ends the search has reserved officer `i` and the last one
    have hone := hcorrect.one (m + 1) hends
    rw [search_succ hgoing] at hends hone
    rw [scan_securityOfficer hends, scan_reserved] at hone
    have hmem : i ∈ (search n seen before m).reserved ++
        (List.range n).filter fun i => seen m i i :=
      List.mem_append_right _ (List.mem_filter.mpr
        ⟨List.mem_range.mpr (by omega), by simpa using hseen⟩)
    rw [hone, List.mem_singleton] at hmem
    omega
  · intro honly
    refine ⟨fun m hleft => ?_, fun m hgoing hsome => ?_⟩
    · rw [honly.reserved m, if_pos hleft]
    · obtain ⟨i, hi, hseen⟩ := hsome
      have hlast : i = n - 1 := by
        by_contra hne
        have hnone := honly m (fun k hk => (search_going m).mp hgoing k hk (by omega)) i (by omega)
        simp [hnone] at hseen
      have hn : 0 < n := by omega
      rw [search_succ hgoing, scan_left, ← hlast, hseen]
      simp [hn]

/-- Three officers, the first and the last of them available: both are reserved. -/
theorem not_correct : ¬ ∀ (n : Nat) (seen : Nat → Nat → Nat → Bool) (before : Nat),
    Correct n seen before := by
  intro h
  have hone := (h 3 (fun _ i j => j = 2 || (i = 0 && j = 0)) 0).one 1 (by decide)
  exact absurd hone (by decide)

end Search

end OfficerSearch

end Airport
end Nachos
