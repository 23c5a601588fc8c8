import Nachos.Lib.Agents
import Nachos.Lib.GuardedRun

/-!
# The liaison lines of `test/Airport.c`

A passenger picks the shortest liaison line and counts itself in, `liaisonLine[myLine] += 1`,
under `liaisonLineLock`.  When a liaison has served it, it counts itself out under
`liaisonLineLocks[myLine]`.  The threads of a user program can be preempted between any two
loads and stores, and the two updates hold different locks, so one that begins in the
middle of the other is lost.

Here is the part of `Passenger` from the line to the counter: every load of `liaisonLine`
is a step, and so is every store to it.  A `Wait` gives its lock up, and comes back with it
at any time: who signals is left to the other agents.
-/

namespace Nachos
namespace Test

open Lib

/-- Where a passenger is; `m` is its `myLine`, `i` the loop's variable and `v` a value it
has loaded. -/
inductive Point
  /-- Before `Acquire(liaisonLineLock)`. -/
  | arriving
  /-- The loop that finds the shortest line. -/
  | comparing (i m : Nat)
  | compared (i m : Nat) (v : Int)
  /-- Before `liaisonLine[myLine] += 1`, and between its load and its store. -/
  | joining (m : Nat)
  | incrementing (m : Nat) (v : Int)
  /-- Before `Wait(liaisonLineCV[myLine], liaisonLineLock)`, in it and behind it. -/
  | joined (m : Nat)
  | inLine (m : Nat)
  | called (m : Nat)
  /-- Before `Acquire(liaisonLineLocks[myLine])`. -/
  | approaching (m : Nat)
  /-- Before the first `Wait` for the liaison, and in it. -/
  | talking (m : Nat)
  | waiting (m : Nat)
  /-- At the test of `if (liaisonLine[myLine] > 0)`, before the `liaisonLine[myLine]--`
  under it, and between its load and its store. -/
  | testing (m : Nat)
  | leaving (m : Nat)
  | decrementing (m : Nat) (v : Int)
  /-- Before the second `Wait` for the liaison, in it and behind it. -/
  | left (m : Nat)
  | waitingToGo (m : Nat)
  | directed (m : Nat)
  /-- Behind `Release(liaisonLineLocks[myLine])`. -/
  | gone
  deriving DecidableEq, Repr

namespace Point

/-- The points at which a passenger has `liaisonLineLock`. -/
def holdsLineLock : Point → Bool
  | comparing _ _ | compared _ _ _ | joining _ | incrementing _ _ | joined _ | called _ => true
  | _ => false

/-- The points at which it has `liaisonLineLocks[l]`. -/
def holdsLine (l : Nat) : Point → Bool
  | talking m | testing m | leaving m | decrementing m _ | left m | directed m => m = l
  | _ => false

/-- The points between joining line `l` and leaving it. -/
def stands (l : Nat) : Point → Bool
  | joined m | inLine m | called m | approaching m | talking m | waiting m | testing m
  | leaving m | decrementing m _ => m = l
  | _ => false

/-- The points in the middle of an update of line `l`. -/
def updates (l : Nat) : Point → Bool
  | incrementing m _ | decrementing m _ => m = l
  | _ => false

end Point

/-- The lines, their locks and `n` passengers. -/
structure Lines (n : Nat) where
  liaisonLine : Nat → Int
  liaisonLineLock : Option (Fin n)
  liaisonLineLocks : Nat → Option (Fin n)
  passenger : Fin n → Point

/-- Why a passenger makes no step. -/
inductive Idle
  | blocked
  | finished
  deriving DecidableEq, Repr

namespace Lines

variable {n : Nat}

/-- The lines are empty and the passengers arrive. -/
def start (n : Nat) : Lines n := ⟨fun _ => 0, none, fun _ => none, fun _ => .arriving⟩

/-- Passenger `t` goes on to another point. -/
def go (s : Lines n) (t : Fin n) (q : Point) : Lines n :=
  { s with passenger := Function.update s.passenger t q }

/-- It gets `liaisonLineLock`. -/
def takeLineLock (s : Lines n) (t : Fin n) (q : Point) : Except Idle (Lines n) :=
  if s.liaisonLineLock = none then .ok { s.go t q with liaisonLineLock := some t }
  else .error .blocked

/-- It gives it up. -/
def dropLineLock (s : Lines n) (t : Fin n) (q : Point) : Lines n :=
  { s.go t q with liaisonLineLock := none }

/-- It gets the lock of its line. -/
def takeLine (s : Lines n) (t : Fin n) (m : Nat) (q : Point) : Except Idle (Lines n) :=
  if s.liaisonLineLocks m = none then
    .ok { s.go t q with liaisonLineLocks := Function.update s.liaisonLineLocks m (some t) }
  else .error .blocked

/-- It gives it up. -/
def dropLine (s : Lines n) (t : Fin n) (m : Nat) (q : Point) : Lines n :=
  { s.go t q with liaisonLineLocks := Function.update s.liaisonLineLocks m none }

/-- It stores to `liaisonLine[m]`. -/
def store (s : Lines n) (t : Fin n) (m : Nat) (v : Int) (q : Point) : Lines n :=
  { s.go t q with liaisonLine := Function.update s.liaisonLine m v }

/-- A step of passenger `t`. -/
def step (simNumOfLiaisons : Nat) (t : Fin n) (s : Lines n) : Except Idle (Lines n) :=
  match s.passenger t with
  | .arriving => s.takeLineLock t (.comparing 1 0)
  | .comparing i m =>
      if i < simNumOfLiaisons then .ok (s.go t (.compared i m (s.liaisonLine i)))
      else .ok (s.go t (.joining m))
  | .compared i m v => .ok (s.go t (.comparing (i + 1) (if v < s.liaisonLine m then i else m)))
  | .joining m => .ok (s.go t (.incrementing m (s.liaisonLine m)))
  | .incrementing m v => .ok (s.store t m (v + 1) (.joined m))
  | .joined m => .ok (s.dropLineLock t (.inLine m))
  | .inLine m => s.takeLineLock t (.called m)
  | .called m => .ok (s.dropLineLock t (.approaching m))
  | .approaching m => s.takeLine t m (.talking m)
  | .talking m => .ok (s.dropLine t m (.waiting m))
  | .waiting m => s.takeLine t m (.testing m)
  | .testing m => .ok (s.go t (if 0 < s.liaisonLine m then .leaving m else .left m))
  | .leaving m => .ok (s.go t (.decrementing m (s.liaisonLine m)))
  | .decrementing m v => .ok (s.store t m (v - 1) (.left m))
  | .left m => .ok (s.dropLine t m (.waitingToGo m))
  | .waitingToGo m => s.takeLine t m (.directed m)
  | .directed m => .ok (s.dropLine t m .gone)
  | .gone => .error .finished

/-- When no passenger is in the middle of an update of a line, the line is as long as
there are passengers that have joined it and have not left it. -/
def Counts (s : Lines n) : Prop :=
  ∀ l, (∀ t, (s.passenger t).updates l = false) →
    s.liaisonLine l = headcount (fun p => p.stands l = true) s.passenger

/-- No passenger begins to leave a line while another is in the middle of joining it, nor
the other way round. -/
def KeepsApart (s : Lines n) (t : Fin n) : Prop :=
  (∀ l, s.passenger t = .joining l → ∀ u v, s.passenger u ≠ .decrementing l v) ∧
    ∀ l, s.passenger t = .leaving l → ∀ u v, s.passenger u ≠ .incrementing l v

/-- Passenger `t` neither joins nor leaves a line in going from `p` to `q`, and has loaded
nothing to store. -/
structure Aside (p q : Point) : Prop where
  stands : ∀ l, q.stands l = p.stands l
  updates : ∀ l, q.updates l = false

/-- What a step of a passenger can be. -/
inductive Moves (s : Lines n) (t : Fin n) : Lines n → Prop
  /-- It goes on under the locks it has. -/
  | plain (q : Point) (haside : Aside (s.passenger t) q)
      (hlock : q.holdsLineLock = true → (s.passenger t).holdsLineLock = true)
      (hline : ∀ l, q.holdsLine l = true → (s.passenger t).holdsLine l = true) :
      Moves s t (s.go t q)
  | takeLineLock (q : Point) (haside : Aside (s.passenger t) q) (hfree : s.liaisonLineLock = none)
      (hline : ∀ l, q.holdsLine l = false) :
      Moves s t { s.go t q with liaisonLineLock := some t }
  | dropLineLock (q : Point) (haside : Aside (s.passenger t) q)
      (hheld : (s.passenger t).holdsLineLock = true) (hlock : q.holdsLineLock = false)
      (hline : ∀ l, q.holdsLine l = false) : Moves s t (s.dropLineLock t q)
  | takeLine (m : Nat) (q : Point) (haside : Aside (s.passenger t) q)
      (hfree : s.liaisonLineLocks m = none) (hlock : q.holdsLineLock = false)
      (hline : ∀ l, q.holdsLine l = true → l = m) :
      Moves s t { s.go t q with
        liaisonLineLocks := Function.update s.liaisonLineLocks m (some t) }
  | dropLine (m : Nat) (q : Point) (haside : Aside (s.passenger t) q)
      (hheld : (s.passenger t).holdsLine m = true) (hlock : q.holdsLineLock = false)
      (hline : ∀ l, q.holdsLine l = false) : Moves s t (s.dropLine t m q)
  /-- The load and the store of an increment. -/
  | loadToJoin (m : Nat) (hat : s.passenger t = .joining m) :
      Moves s t (s.go t (.incrementing m (s.liaisonLine m)))
  | join (m : Nat) (v : Int) (hat : s.passenger t = .incrementing m v) :
      Moves s t (s.store t m (v + 1) (.joined m))
  /-- The line is found empty. -/
  | slip (m : Nat) (hat : s.passenger t = .testing m) (hempty : ¬ 0 < s.liaisonLine m) :
      Moves s t (s.go t (.left m))
  /-- The load and the store of a decrement. -/
  | loadToLeave (m : Nat) (hat : s.passenger t = .leaving m) :
      Moves s t (s.go t (.decrementing m (s.liaisonLine m)))
  | leave (m : Nat) (v : Int) (hat : s.passenger t = .decrementing m v) :
      Moves s t (s.store t m (v - 1) (.left m))

section Step

variable {simNumOfLiaisons : Nat} {s s' : Lines n} {t : Fin n}

theorem takeLineLock_cases {q : Point} (h : s.takeLineLock t q = .ok s') :
    s.liaisonLineLock = none ∧ s' = { s.go t q with liaisonLineLock := some t } := by
  unfold takeLineLock at h
  split at h
  · rename_i hfree
    exact ⟨hfree, (Except.ok.inj h).symm⟩
  · exact absurd h (by simp)

theorem takeLine_cases {m : Nat} {q : Point} (h : s.takeLine t m q = .ok s') :
    s.liaisonLineLocks m = none ∧ s' = { s.go t q with
      liaisonLineLocks := Function.update s.liaisonLineLocks m (some t) } := by
  unfold takeLine at h
  split at h
  · rename_i hfree
    exact ⟨hfree, (Except.ok.inj h).symm⟩
  · exact absurd h (by simp)

/-- Every step is one of the moves. -/
theorem step_moves (h : s.step simNumOfLiaisons t = .ok s') : Moves s t s' := by
  unfold step at h
  split at h
  case h_1 hat =>
    obtain ⟨hfree, rfl⟩ := takeLineLock_cases h
    exact .takeLineLock _ (by rw [hat]; exact ⟨fun _ => rfl, fun _ => rfl⟩) hfree fun _ => rfl
  case h_2 i m hat =>
    split at h
    · obtain rfl := Except.ok.inj h
      exact .plain _ (by rw [hat]; exact ⟨fun _ => rfl, fun _ => rfl⟩) (by rw [hat]; exact id)
        (by rw [hat]; exact fun _ => id)
    · obtain rfl := Except.ok.inj h
      exact .plain _ (by rw [hat]; exact ⟨fun _ => rfl, fun _ => rfl⟩) (by rw [hat]; exact id)
        (by rw [hat]; exact fun _ => id)
  case h_3 i m v hat =>
    obtain rfl := Except.ok.inj h
    exact .plain _ (by rw [hat]; exact ⟨fun _ => rfl, fun _ => rfl⟩) (by rw [hat]; exact id)
      (by rw [hat]; exact fun _ => id)
  case h_4 m hat =>
    obtain rfl := Except.ok.inj h
    exact .loadToJoin m hat
  case h_5 m v hat =>
    obtain rfl := Except.ok.inj h
    exact .join m v hat
  case h_6 m hat =>
    obtain rfl := Except.ok.inj h
    exact .dropLineLock _ (by rw [hat]; exact ⟨fun _ => rfl, fun _ => rfl⟩) (by rw [hat]; rfl) rfl
      fun _ => rfl
  case h_7 m hat =>
    obtain ⟨hfree, rfl⟩ := takeLineLock_cases h
    exact .takeLineLock _ (by rw [hat]; exact ⟨fun _ => rfl, fun _ => rfl⟩) hfree fun _ => rfl
  case h_8 m hat =>
    obtain rfl := Except.ok.inj h
    exact .dropLineLock _ (by rw [hat]; exact ⟨fun _ => rfl, fun _ => rfl⟩) (by rw [hat]; rfl) rfl
      fun _ => rfl
  case h_9 m hat =>
    obtain ⟨hfree, rfl⟩ := takeLine_cases h
    exact .takeLine m _ (by rw [hat]; exact ⟨fun _ => rfl, fun _ => rfl⟩) hfree rfl
      fun l hl => (of_decide_eq_true hl).symm
  case h_10 m hat =>
    obtain rfl := Except.ok.inj h
    exact .dropLine m _ (by rw [hat]; exact ⟨fun _ => rfl, fun _ => rfl⟩)
      (by rw [hat]; exact decide_eq_true rfl) rfl fun _ => rfl
  case h_11 m hat =>
    obtain ⟨hfree, rfl⟩ := takeLine_cases h
    exact .takeLine m _ (by rw [hat]; exact ⟨fun _ => rfl, fun _ => rfl⟩) hfree rfl
      fun l hl => (of_decide_eq_true hl).symm
  case h_12 m hat =>
    obtain rfl := Except.ok.inj h
    by_cases hsome : 0 < s.liaisonLine m
    · rw [if_pos hsome]
      exact .plain _ (by rw [hat]; exact ⟨fun _ => rfl, fun _ => rfl⟩) (by rw [hat]; exact id)
        (by rw [hat]; exact fun _ => id)
    · rw [if_neg hsome]
      exact .slip m hat hsome
  case h_13 m hat =>
    obtain rfl := Except.ok.inj h
    exact .loadToLeave m hat
  case h_14 m v hat =>
    obtain rfl := Except.ok.inj h
    exact .leave m v hat
  case h_15 m hat =>
    obtain rfl := Except.ok.inj h
    exact .dropLine m _ (by rw [hat]; exact ⟨fun _ => rfl, fun _ => rfl⟩)
      (by rw [hat]; exact decide_eq_true rfl) rfl fun _ => rfl
  case h_16 m hat =>
    obtain ⟨hfree, rfl⟩ := takeLine_cases h
    exact .takeLine m _ (by rw [hat]; exact ⟨fun _ => rfl, fun _ => rfl⟩) hfree rfl
      fun l hl => (of_decide_eq_true hl).symm
  case h_17 m hat =>
    obtain rfl := Except.ok.inj h
    exact .dropLine m _ (by rw [hat]; exact ⟨fun _ => rfl, fun _ => rfl⟩)
      (by rw [hat]; exact decide_eq_true rfl) rfl fun _ => rfl
  case h_18 hat => exact absurd h (by simp)

end Step

section Invariant

variable {s s' : Lines n} {t : Fin n}

/-- The locks exclude two passengers that join, and two that leave the same line; a line
is as long as it should be, and who is in the middle of an update has loaded its length. -/
structure InOrder (s : Lines n) : Prop where
  lineLock : Guarded s.liaisonLineLock (fun p => p.holdsLineLock = true) s.passenger
  lineLocks : ∀ l, Guarded (s.liaisonLineLocks l) (fun p => p.holdsLine l = true) s.passenger
  counts : ∀ l, s.liaisonLine l = headcount (fun p => p.stands l = true) s.passenger
  increments : ∀ u l v, s.passenger u = .incrementing l v →
    v = s.liaisonLine l ∧ ∀ w x, s.passenger w ≠ .decrementing l x
  decrements : ∀ u l v, s.passenger u = .decrementing l v → v = s.liaisonLine l

theorem inOrder_start (n : Nat) : InOrder (start n) where
  lineLock := fun _ h => absurd h (by simp [start, Point.holdsLineLock])
  lineLocks := fun _ _ h => absurd h (by simp [start, Point.holdsLine])
  counts := by
    intro l
    have hnone : headcount (fun p => p.stands l = true) (start n).passenger = 0 := by
      simp [headcount, start, Point.stands]
    rw [hnone]
    rfl
  increments := fun _ _ _ h => absurd h (by simp [start])
  decrements := fun _ _ _ h => absurd h (by simp [start])

/-- The passenger that has moved, and the others. -/
theorem go_passenger {q : Point} {u : Fin n} {p : Point} (h : (s.go t q).passenger u = p) :
    (u = t ∧ q = p) ∨ s.passenger u = p := by
  by_cases hu : u = t
  · refine Or.inl ⟨hu, ?_⟩
    rw [hu] at h
    simpa [go] using h
  · refine Or.inr ?_
    simpa [go, hu] using h

/-- A step of a passenger that is not in the middle of an update afterwards, and does not
change a line, leaves those that are in one alone. -/
theorem InOrder.increments_go (h : InOrder s) {q : Point} (hupdates : ∀ l, q.updates l = false)
    (u : Fin n) (l : Nat) (v : Int) (hu : (s.go t q).passenger u = .incrementing l v) :
    v = s.liaisonLine l ∧ ∀ w x, (s.go t q).passenger w ≠ .decrementing l x := by
  have hne : ∀ {p : Point}, q = p → p.updates l = false := fun hq => hq ▸ hupdates l
  rcases go_passenger hu with ⟨-, hq⟩ | hold
  · exact absurd (hne hq) (by simp [Point.updates])
  · obtain ⟨hv, hapart⟩ := h.increments u l v hold
    refine ⟨hv, fun w x hw => ?_⟩
    rcases go_passenger hw with ⟨-, hq⟩ | hold'
    · exact absurd (hne hq) (by simp [Point.updates])
    · exact hapart w x hold'

theorem InOrder.decrements_go (h : InOrder s) {q : Point} (hupdates : ∀ l, q.updates l = false)
    (u : Fin n) (l : Nat) (v : Int) (hu : (s.go t q).passenger u = .decrementing l v) :
    v = s.liaisonLine l := by
  rcases go_passenger hu with ⟨-, hq⟩ | hold
  · have hnone := hupdates l
    rw [hq] at hnone
    exact absurd hnone (by simp [Point.updates])
  · exact h.decrements u l v hold

/-- Moving aside changes no line. -/
theorem InOrder.counts_go (h : InOrder s) {q : Point} (haside : Aside (s.passenger t) q)
    (l : Nat) : s.liaisonLine l = headcount (fun p => p.stands l = true) (s.go t q).passenger := by
  rw [h.counts l]
  congr 1
  exact (headcount_keep (by rw [haside.stands l])).symm

/-- Nobody else is in the middle of an update of the line that a passenger is joining. -/
theorem InOrder.alone_joining (h : InOrder s) {m l : Nat} {v : Int}
    (hat : s.passenger t = .incrementing m v) {u : Fin n} {x : Int}
    (hu : s.passenger u = .incrementing l x) : u = t :=
  h.lineLock.unique (by rw [hu]; rfl) (by rw [hat]; rfl)

/-- Nor of the line that one is leaving. -/
theorem InOrder.alone_leaving (h : InOrder s) {m : Nat} {v : Int}
    (hat : s.passenger t = .decrementing m v) {u : Fin n} {x : Int}
    (hu : s.passenger u = .decrementing m x) : u = t :=
  (h.lineLocks m).unique (by simp [hu, Point.holdsLine]) (by simp [hat, Point.holdsLine])

/-- The locks under which a passenger goes on. -/
theorem InOrder.lineLock_go (h : InOrder s) {q : Point}
    (hlock : q.holdsLineLock = true → (s.passenger t).holdsLineLock = true) :
    Guarded s.liaisonLineLock (fun p => p.holdsLineLock = true) (s.go t q).passenger :=
  h.lineLock.keep hlock

theorem InOrder.lineLocks_go (h : InOrder s) {q : Point}
    (hline : ∀ l, q.holdsLine l = true → (s.passenger t).holdsLine l = true) (l : Nat) :
    Guarded (s.liaisonLineLocks l) (fun p => p.holdsLine l = true) (s.go t q).passenger :=
  (h.lineLocks l).keep (hline l)

/-- The load of an increment, with nobody in the middle of leaving the line. -/
theorem InOrder.loadToJoin (h : InOrder s) {m : Nat} (hat : s.passenger t = .joining m)
    (hapart : ∀ u v, s.passenger u ≠ .decrementing m v) :
    InOrder (s.go t (.incrementing m (s.liaisonLine m))) where
  lineLock := h.lineLock_go (by rw [hat]; exact id)
  lineLocks := h.lineLocks_go (by rw [hat]; exact fun _ => id)
  counts := by
    intro l
    rw [show (s.go t (.incrementing m (s.liaisonLine m))).liaisonLine l = s.liaisonLine l from rfl,
      h.counts l]
    congr 1
    exact (headcount_keep (by rw [hat]; rfl)).symm
  increments := by
    intro u l v hu
    rcases go_passenger hu with ⟨-, hq⟩ | hold
    · injection hq with hl hv
      subst hl
      refine ⟨hv.symm, fun w x hw => ?_⟩
      rcases go_passenger hw with ⟨-, habs⟩ | hold'
      · exact absurd habs (by simp)
      · exact hapart w x hold'
    · obtain ⟨hv, hkeep⟩ := h.increments u l v hold
      refine ⟨hv, fun w x hw => ?_⟩
      rcases go_passenger hw with ⟨-, habs⟩ | hold'
      · exact absurd habs (by simp)
      · exact hkeep w x hold'
  decrements := by
    intro u l v hu
    rcases go_passenger hu with ⟨-, habs⟩ | hold
    · exact absurd habs (by simp)
    · exact h.decrements u l v hold

/-- The store of an increment. -/
theorem InOrder.join (h : InOrder s) {m : Nat} {v : Int}
    (hat : s.passenger t = .incrementing m v) : InOrder (s.store t m (v + 1) (.joined m)) := by
  obtain ⟨hv, hapart⟩ := h.increments t m v hat
  constructor
  case lineLock => exact h.lineLock_go (by rw [hat]; exact id)
  case lineLocks => exact h.lineLocks_go (fun _ habs => absurd habs (by simp [Point.holdsLine]))
  case counts =>
    intro l
    show Function.update s.liaisonLine m (v + 1) l = _
    by_cases hl : l = m
    · subst hl
      have hmore : headcount (fun p => p.stands l = true) (s.go t (.joined l)).passenger =
          headcount (fun p => p.stands l = true) s.passenger + 1 :=
        headcount_enter (by simp [hat, Point.stands]) (by simp [Point.stands])
      rw [Function.update_self, hv, h.counts l]
      exact_mod_cast hmore.symm
    · rw [Function.update_of_ne hl, h.counts l]
      congr 1
      exact (headcount_keep (by simp [hat, Point.stands, Ne.symm hl])).symm
  case increments =>
    intro u l x hu
    rcases go_passenger hu with ⟨-, habs⟩ | hold
    · exact absurd habs (by simp)
    · have hsame := h.alone_joining hat hold
      subst hsame
      have hu' : (s.go u (.joined m)).passenger u = .joined m := by simp [go]
      rw [show (s.store u m (v + 1) (.joined m)).passenger u = (s.go u (.joined m)).passenger u
        from rfl, hu'] at hu
      exact absurd hu (by simp)
  case decrements =>
    intro u l x hu
    rcases go_passenger hu with ⟨-, habs⟩ | hold
    · exact absurd habs (by simp)
    · have hl : l ≠ m := by
        rintro rfl
        exact hapart u x hold
      show x = Function.update s.liaisonLine m (v + 1) l
      rw [Function.update_of_ne hl]
      exact h.decrements u l x hold

/-- The load of a decrement, with nobody in the middle of joining the line. -/
theorem InOrder.loadToLeave (h : InOrder s) {m : Nat} (hat : s.passenger t = .leaving m)
    (hapart : ∀ u v, s.passenger u ≠ .incrementing m v) :
    InOrder (s.go t (.decrementing m (s.liaisonLine m))) where
  lineLock := h.lineLock_go (by rw [hat]; exact id)
  lineLocks := h.lineLocks_go (by rw [hat]; exact fun _ => id)
  counts := by
    intro l
    rw [show (s.go t (.decrementing m (s.liaisonLine m))).liaisonLine l = s.liaisonLine l from rfl,
      h.counts l]
    congr 1
    exact (headcount_keep (by rw [hat]; rfl)).symm
  increments := by
    intro u l v hu
    rcases go_passenger hu with ⟨-, habs⟩ | hold
    · exact absurd habs (by simp)
    · obtain ⟨hv, hkeep⟩ := h.increments u l v hold
      refine ⟨hv, fun w x hw => ?_⟩
      rcases go_passenger hw with ⟨-, hq⟩ | hold'
      · injection hq with hl hx
        subst hl
        exact hapart u v hold
      · exact hkeep w x hold'
  decrements := by
    intro u l v hu
    rcases go_passenger hu with ⟨-, hq⟩ | hold
    · injection hq with hl hv
      subst hl
      exact hv.symm
    · exact h.decrements u l v hold

/-- The store of a decrement. -/
theorem InOrder.leave (h : InOrder s) {m : Nat} {v : Int}
    (hat : s.passenger t = .decrementing m v) : InOrder (s.store t m (v - 1) (.left m)) := by
  have hv := h.decrements t m v hat
  constructor
  case lineLock => exact h.lineLock_go (fun habs => absurd habs (by simp [Point.holdsLineLock]))
  case lineLocks => exact h.lineLocks_go (by rw [hat]; exact fun _ => id)
  case counts =>
    intro l
    show Function.update s.liaisonLine m (v - 1) l = _
    by_cases hl : l = m
    · subst hl
      have hless : headcount (fun p => p.stands l = true) (s.go t (.left l)).passenger + 1 =
          headcount (fun p => p.stands l = true) s.passenger :=
        headcount_leave (by simp [hat, Point.stands]) (by simp [Point.stands])
      rw [Function.update_self, hv, h.counts l, ← hless]
      show _ = ((headcount _ (s.go t (.left l)).passenger : Nat) : Int)
      omega
    · rw [Function.update_of_ne hl, h.counts l]
      congr 1
      exact (headcount_keep (by simp [hat, Point.stands, Ne.symm hl])).symm
  case increments =>
    intro u l x hu
    rcases go_passenger hu with ⟨-, habs⟩ | hold
    · exact absurd habs (by simp)
    · obtain ⟨hx, hkeep⟩ := h.increments u l x hold
      have hl : l ≠ m := by
        rintro rfl
        exact hkeep t v hat
      refine ⟨?_, fun w y hw => ?_⟩
      · show x = Function.update s.liaisonLine m (v - 1) l
        rw [Function.update_of_ne hl]
        exact hx
      · rcases go_passenger hw with ⟨-, habs⟩ | hold'
        · exact absurd habs (by simp)
        · exact hkeep w y hold'
  case decrements =>
    intro u l x hu
    by_cases hu' : u = t
    · subst hu'
      have hat' : (s.store u m (v - 1) (.left m)).passenger u = .left m := by simp [store, go]
      rw [hat'] at hu
      exact absurd hu (by simp)
    · rcases go_passenger hu with ⟨heq, -⟩ | hold
      · exact absurd heq hu'
      · have hl : l ≠ m := by
          rintro rfl
          exact hu' (h.alone_leaving hat hold)
        show x = Function.update s.liaisonLine m (v - 1) l
        rw [Function.update_of_ne hl]
        exact h.decrements u l x hold

/-- A line with a passenger in it is not found empty. -/
theorem InOrder.not_slip (h : InOrder s) {m : Nat} (hat : s.passenger t = .testing m) :
    0 < s.liaisonLine m := by
  have hpos : 0 < headcount (fun p => p.stands m = true) s.passenger :=
    headcount_pos (t := t) (by simp [hat, Point.stands])
  rw [h.counts m]
  exact_mod_cast hpos

/-- Every step that keeps joining and leaving apart keeps the lines in order. -/
theorem InOrder.step (h : InOrder s) (hguard : s.KeepsApart t) (hmoves : Moves s t s') :
    InOrder s' := by
  cases hmoves with
  | plain q haside hlock hline =>
      exact ⟨h.lineLock_go hlock, h.lineLocks_go hline, h.counts_go haside,
        h.increments_go haside.updates, h.decrements_go haside.updates⟩
  | takeLineLock q haside hfree hline =>
      refine ⟨?_, ?_, h.counts_go haside, h.increments_go haside.updates,
        h.decrements_go haside.updates⟩
      · have hlock := h.lineLock
        rw [hfree] at hlock
        exact hlock.acquire (Or.inl rfl)
      · exact h.lineLocks_go fun l habs => absurd habs (by simp [hline l])
  | dropLineLock q haside hheld hlock hline =>
      refine ⟨?_, ?_, h.counts_go haside, h.increments_go haside.updates,
        h.decrements_go haside.updates⟩
      · exact h.lineLock.drop hheld (by simp [hlock])
      · exact h.lineLocks_go fun l habs => absurd habs (by simp [hline l])
  | takeLine m q haside hfree hlock hline =>
      refine ⟨?_, ?_, h.counts_go haside, h.increments_go haside.updates,
        h.decrements_go haside.updates⟩
      · exact h.lineLock_go fun habs => absurd habs (by simp [hlock])
      · exact Guarded.acquire_at h.lineLocks (Or.inl hfree)
          fun l hl habs => absurd (hline l habs) hl
  | dropLine m q haside hheld hlock hline =>
      refine ⟨?_, ?_, h.counts_go haside, h.increments_go haside.updates,
        h.decrements_go haside.updates⟩
      · exact h.lineLock_go fun habs => absurd habs (by simp [hlock])
      · exact Guarded.drop_at h.lineLocks hheld (by simp [hline m])
          fun l _ habs => absurd habs (by simp [hline l])
  | loadToJoin m hat => exact h.loadToJoin hat (hguard.1 m hat)
  | join m v hat => exact h.join hat
  | slip m hat hempty => exact absurd (h.not_slip hat) hempty
  | loadToLeave m hat => exact h.loadToLeave hat (hguard.2 m hat)
  | leave m v hat => exact h.leave hat

end Invariant

/-- In every run in which nobody begins to leave a line in the middle of somebody's
joining it, nor the other way round, no update of `liaisonLine` is lost. -/
theorem liaisonLine_counts (n simNumOfLiaisons : Nat) (s : Lines n)
    (hrun : Reach (step simNumOfLiaisons) KeepsApart (start n) s) : s.Counts := by
  have horder : InOrder s :=
    hrun.invariant (fun _ _ _ hu hguard hstep => hu.step hguard (step_moves hstep))
      (inOrder_start n)
  exact fun l _ => horder.counts l

/-- Nobody is in the middle of an update when passenger `t` begins one. -/
def isApart (s : Lines n) (t : Fin n) : Bool :=
  match s.passenger t with
  | .joining l | .leaving l => decide (∀ u, (s.passenger u).updates l = false)
  | _ => true

theorem keepsApart_of_isApart {s : Lines n} {t : Fin n} (h : s.isApart t = true) :
    s.KeepsApart t := by
  constructor
  · intro l hat u v hu
    unfold isApart at h
    rw [hat] at h
    have hnone := of_decide_eq_true h u
    rw [hu] at hnone
    exact absurd hnone (by simp [Point.updates])
  · intro l hat u v hu
    unfold isApart at h
    rw [hat] at h
    have hnone := of_decide_eq_true h u
    rw [hu] at hnone
    exact absurd hnone (by simp [Point.updates])

/-- Two passengers at one liaison, in the order of `labels`. -/
theorem exists_two {check : Lines 2 → Fin 2 → Bool} {guard : Lines 2 → Fin 2 → Prop}
    (hcheck : ∀ u t, check u t = true → guard u t) {P : Lines 2 → Prop} [DecidablePred P]
    (labels : List (Fin 2))
    (h : (replay (step 1) check labels (start 2)).any (fun s => decide (P s)) = true) :
    ∃ s, Reach (step 1) guard (start 2) s ∧ P s :=
  exists_reach_of_replay hcheck h

/-- Two passengers join, and the first one leaves. -/
theorem liaisonLine_counts_two : ∃ s : Lines 2,
    Reach (step 1) KeepsApart (start 2) s ∧ s.liaisonLine 0 = 1 ∧ s.Counts := by
  obtain ⟨s, hrun, hline⟩ :=
    exists_two (fun u t => keepsApart_of_isApart (s := u) (t := t))
      (P := fun s => s.liaisonLine 0 = 1)
      (List.replicate 5 0 ++ List.replicate 5 1 ++ List.replicate 8 0) (by decide +kernel)
  exact ⟨s, hrun, hline, liaisonLine_counts 2 1 s hrun⟩

/-- The first passenger is preempted between the load and the store of its decrement, and
the second one joins: its increment is lost. -/
theorem increment_lost : ∃ s : Lines 2, Reach (step 1) (fun _ _ => True) (start 2) s ∧
    (∀ l t, (s.passenger t).updates l = false) ∧ ¬ s.Counts := by
  obtain ⟨s, hrun, hfirst, hsecond, hline⟩ :=
    exists_two (fun _ _ (_ : true = true) => trivial)
      (P := fun s => s.passenger 0 = .left 0 ∧ s.passenger 1 = .inLine 0 ∧ s.liaisonLine 0 = 0)
      (List.replicate 12 0 ++ List.replicate 5 1 ++ [0]) (by decide +kernel)
  have hquiet : ∀ l t, (s.passenger t).updates l = false := by
    intro l t
    match t with
    | 0 => rw [hfirst]; rfl
    | 1 => rw [hsecond]; rfl
  refine ⟨s, hrun, hquiet, fun hcounts => ?_⟩
  have hpos : 0 < headcount (fun p => p.stands 0 = true) s.passenger :=
    headcount_pos (t := 1) (by simp [hsecond, Point.stands])
  have hcount := hcounts 0 (hquiet 0)
  rw [hline] at hcount
  omega

end Lines

end Test
end Nachos
