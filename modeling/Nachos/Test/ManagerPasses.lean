import Mathlib.Logic.Basic
import Mathlib.Logic.Function.Basic

/-!
# The locks of the manager of `test/Airport.c`

A pass of `Manager_DoWork` looks at the places of the conveyor.  At each that has a bag it acquires
`CargoHandlerLock` and counts the handlers on a break; if all are, it calls them back and leaves the
loop with a `break` in front of the `Release`.  `AirportManager::DoWork`, of which it is the port,
has no loop there and releases the lock in both cases.
-/

namespace Nachos
namespace Test

/-- The locks that the manager uses. -/
inductive ManagerLock
  | cargoHandlerLock
  | gateLock (i : Nat)
  deriving DecidableEq, Repr

/-- `PASSENGER_COUNT * 2` and `MAX_CARGOHANDLERS`. -/
def conveyorPlaces : Nat := 18

def maxCargoHandlers : Nat := 4

/-- What the manager reads in a pass, and other threads write. -/
structure PassInput where
  /-- `conveyor[i].weight` when it looks at place `i`. -/
  weight : Nat → Int
  /-- `onBreak` of handler `y` when it counts at place `i`. -/
  onBreak : Nat → Nat → Int
  /-- The lounge and the plane of airline `i` are full when it looks at them. -/
  full : Nat → Bool
  /-- `conveyor.empty()` and `getBreak()` in `threadtest.cc`. -/
  empty : Bool
  getBreak : Nat → Bool

/-- The manager between two statements: the locks it owns, and its share of the globals. -/
structure Manager where
  owns : ManagerLock → Bool
  alreadyBoarded : Nat → Bool
  planeCount : Nat
  /-- How often it has called the handlers back. -/
  broadcasts : Nat
  /-- Behind the `break` at the end of the day. -/
  ended : Bool

namespace Manager

/-- The manager before its first pass. -/
def start : Manager := ⟨fun _ => false, fun _ => false, 0, 0, false⟩

variable (s : Manager)

/-- `Acquire`, when it comes back; who owns the lock already keeps it. -/
def acquire (l : ManagerLock) : Manager := { s with owns := Function.update s.owns l true }

def release (l : ManagerLock) : Manager := { s with owns := Function.update s.owns l false }

/-- `Broadcast(CargoHandlerCV, CargoHandlerLock)`. -/
def broadcast : Manager := { s with broadcasts := s.broadcasts + 1 }

/-- The loop over the handlers. -/
def breakCount (handlers : Nat) (onBreak : Nat → Bool) : Nat := (List.range handlers).countP onBreak

/-- The loop over the places of the conveyor; `chCount` is `handlers`. -/
def lookAtConveyor (handlers : Nat) (input : PassInput) : List Nat → Manager → Manager
  | [], s => s
  | i :: places, s =>
      if input.weight i ≠ 0 ∧ handlers = maxCargoHandlers then
        let s := s.acquire .cargoHandlerLock
        if breakCount handlers (fun y => input.onBreak i y = 1) = handlers then s.broadcast
        else lookAtConveyor handlers input places (s.release .cargoHandlerLock)
      else lookAtConveyor handlers input places s

/-- The same in `AirportManager::DoWork`. -/
def lookAtVector (handlers : Nat) (input : PassInput) : Manager :=
  if input.empty = false ∧ handlers ≠ 0 then
    let s := s.acquire .cargoHandlerLock
    let s := if breakCount handlers input.getBreak = handlers then s.broadcast else s
    s.release .cargoHandlerLock
  else s

/-- The body of the loop over the airlines. -/
def board (input : PassInput) (i : Nat) : Manager :=
  if input.full i = true ∧ s.alreadyBoarded i = false then
    let s := s.acquire (.gateLock i)
    let s := { s with alreadyBoarded := Function.update s.alreadyBoarded i true }.release (.gateLock i)
    { s with planeCount := s.planeCount + 1 }
  else s

/-- The rest of a pass. -/
def callPlanes (airlines : Nat) (input : PassInput) : Manager :=
  let s := (List.range airlines).foldl (fun s i => s.board input i) s
  { s with ended := s.planeCount = airlines }

/-- A pass of `Manager_DoWork`. -/
def portPass (handlers airlines : Nat) (input : PassInput) : Manager :=
  (lookAtConveyor handlers input (List.range conveyorPlaces) s).callPlanes airlines input

/-- A pass of `AirportManager::DoWork`. -/
def pass (handlers airlines : Nat) (input : PassInput) : Manager :=
  (s.lookAtVector handlers input).callPlanes airlines input

/-- The manager after `m` passes at most. -/
def after (body : Manager → PassInput → Manager) (inputs : Nat → PassInput) : Nat → Manager
  | 0 => start
  | m + 1 => if (after body inputs m).ended then after body inputs m
      else body (after body inputs m) (inputs m)

/-- The manager owns no lock. -/
def OwnsNone : Prop := ∀ l, s.owns l = false

end Manager

/-- A pass calls the handlers back: at some place it sees a bag and all handlers on a break. -/
def CallsBack (handlers : Nat) (input : PassInput) : Prop :=
  handlers = maxCargoHandlers ∧
    ∃ i < conveyorPlaces, input.weight i ≠ 0 ∧ ∀ y < handlers, input.onBreak i y = 1

namespace Manager

variable {handlers airlines : Nat} {input : PassInput} {inputs : Nat → PassInput} {s : Manager}

section Passes

theorem breakCount_eq (onBreak : Nat → Bool) :
    breakCount handlers onBreak = handlers ↔ ∀ y < handlers, onBreak y = true := by
  have hlength : breakCount handlers onBreak = handlers ↔
      breakCount handlers onBreak = (List.range handlers).length := by rw [List.length_range]
  rw [hlength, breakCount, List.countP_eq_length]
  simp

/-- The loop calls the handlers back at one of these places. -/
def CallsBackAt (handlers : Nat) (input : PassInput) (places : List Nat) : Prop :=
  handlers = maxCargoHandlers ∧
    ∃ i ∈ places, input.weight i ≠ 0 ∧ ∀ y < handlers, input.onBreak i y = 1

theorem callsBackAt_range :
    CallsBackAt handlers input (List.range conveyorPlaces) ↔ CallsBack handlers input := by
  simp [CallsBackAt, CallsBack]

/-- A place at which nobody is called back. -/
theorem callsBackAt_cons {i : Nat} {places : List Nat}
    (h : ¬ (handlers = maxCargoHandlers ∧ input.weight i ≠ 0 ∧
      ∀ y < handlers, input.onBreak i y = 1)) :
    CallsBackAt handlers input (i :: places) ↔ CallsBackAt handlers input places := by
  constructor
  · rintro ⟨hmax, j, hj, hfound⟩
    rcases List.mem_cons.mp hj with rfl | hj
    · exact absurd ⟨hmax, hfound⟩ h
    · exact ⟨hmax, j, hj, hfound⟩
  · rintro ⟨hmax, j, hj, hfound⟩
    exact ⟨hmax, j, List.mem_cons_of_mem i hj, hfound⟩

/-- Nothing is left of a lock that has been acquired and released. -/
theorem OwnsNone.release (h : s.OwnsNone) {l : ManagerLock} {t : Manager}
    (ht : t.owns = Function.update s.owns l true) : (t.release l).OwnsNone := by
  intro k
  by_cases hk : k = l
  · subst hk
    simp [Manager.release]
  · simp only [Manager.release, ht, Function.update_of_ne hk]
    exact h k

/-- A loop that calls the handlers back ends with the lock. -/
theorem lookAtConveyor_calls : ∀ (places : List Nat) (s : Manager),
    CallsBackAt handlers input places →
      (lookAtConveyor handlers input places s).owns .cargoHandlerLock = true := by
  intro places
  induction places with
  | nil => exact fun s h => absurd h.2 (by simp)
  | cons i places ih =>
      intro s hcalls
      simp only [lookAtConveyor]
      split
      · rename_i hlook
        split
        · simp [broadcast, acquire]
        · rename_i hcount
          refine ih _ ((callsBackAt_cons fun hfound => hcount ?_).mp hcalls)
          exact (breakCount_eq _).mpr (by simpa using hfound.2.2)
      · rename_i hlook
        exact ih _ ((callsBackAt_cons fun hfound => hlook ⟨hfound.2.1, hfound.1⟩).mp hcalls)

/-- A loop that does not releases what it acquires. -/
theorem lookAtConveyor_balanced : ∀ (places : List Nat) (s : Manager),
    ¬ CallsBackAt handlers input places → s.OwnsNone →
      (lookAtConveyor handlers input places s).OwnsNone := by
  intro places
  induction places with
  | nil => exact fun s _ hnone => hnone
  | cons i places ih =>
      intro s hnot hnone
      simp only [lookAtConveyor]
      split
      · rename_i hlook
        split
        · rename_i hcount
          have hflags := (breakCount_eq _).mp hcount
          exact absurd ⟨hlook.2, i, List.mem_cons_self, hlook.1, by simpa using hflags⟩ hnot
        · rename_i hcount
          have hplace : ¬ CallsBackAt handlers input places := by
            rwa [callsBackAt_cons fun hfound => hcount ((breakCount_eq _).mpr
              (by simpa using hfound.2.2))] at hnot
          exact ih _ hplace (hnone.release rfl)
      · rename_i hlook
        have hplace : ¬ CallsBackAt handlers input places := by
          rwa [callsBackAt_cons fun hfound => hlook ⟨hfound.2.1, hfound.1⟩] at hnot
        exact ih s hplace hnone

theorem lookAtVector_balanced (h : s.OwnsNone) : (s.lookAtVector handlers input).OwnsNone := by
  unfold lookAtVector
  split
  · refine h.release ?_
    split
    all_goals rfl
  · exact h

theorem board_frame (s : Manager) (input : PassInput) (i : Nat) :
    (s.OwnsNone → (s.board input i).OwnsNone) ∧
      (s.board input i).owns .cargoHandlerLock = s.owns .cargoHandlerLock := by
  unfold board
  split
  · have hother : ManagerLock.cargoHandlerLock ≠ .gateLock i := by simp
    refine ⟨fun h => h.release rfl, ?_⟩
    simp only [Manager.release, acquire, Function.update_of_ne hother]
  · exact ⟨id, rfl⟩

/-- The rest of a pass releases what it acquires, and leaves `CargoHandlerLock` alone. -/
theorem callPlanes_frame (s : Manager) (airlines : Nat) (input : PassInput) :
    (s.OwnsNone → (s.callPlanes airlines input).OwnsNone) ∧
      (s.callPlanes airlines input).owns .cargoHandlerLock = s.owns .cargoHandlerLock := by
  have hloop : ∀ (gates : List Nat) (s : Manager),
      (s.OwnsNone → (gates.foldl (fun s i => s.board input i) s).OwnsNone) ∧
        (gates.foldl (fun s i => s.board input i) s).owns .cargoHandlerLock =
          s.owns .cargoHandlerLock := by
    intro gates
    induction gates with
    | nil => exact fun s => ⟨id, rfl⟩
    | cons i gates ih =>
        intro s
        obtain ⟨hnone, hcargo⟩ := board_frame s input i
        obtain ⟨hrest, hsame⟩ := ih (s.board input i)
        exact ⟨fun h => hrest (hnone h), hsame.trans hcargo⟩
  exact hloop (List.range airlines) s

theorem portPass_calls (h : CallsBack handlers input) (s : Manager) :
    (s.portPass handlers airlines input).owns .cargoHandlerLock = true := by
  rw [portPass, (callPlanes_frame _ airlines input).2]
  exact lookAtConveyor_calls _ s (callsBackAt_range.mpr h)

theorem portPass_balanced (h : ¬ CallsBack handlers input) (hnone : s.OwnsNone) :
    (s.portPass handlers airlines input).OwnsNone :=
  (callPlanes_frame _ airlines input).1
    (lookAtConveyor_balanced _ s (mt callsBackAt_range.mp h) hnone)

theorem pass_balanced (hnone : s.OwnsNone) : (s.pass handlers airlines input).OwnsNone :=
  (callPlanes_frame _ airlines input).1 (lookAtVector_balanced hnone)

/-- What every pass keeps holds after any number of passes. -/
theorem after_induction {P : Manager → Prop} {body : Manager → PassInput → Manager}
    (hstart : P start) (hpass : ∀ m, P (after body inputs m) → (after body inputs m).ended = false →
      P (body (after body inputs m) (inputs m))) : ∀ m, P (after body inputs m) := by
  intro m
  induction m with
  | zero => exact hstart
  | succ m ih =>
      simp only [after]
      split
      · exact ih
      · rename_i hgoing
        exact hpass m ih (by simpa using hgoing)

/-- The manager of the port owns no lock behind its passes just if it never calls the handlers
back; that of `threadtest.cc` never does. -/
theorem ownsNone_iff (handlers airlines : Nat) (inputs : Nat → PassInput) :
    ((∀ m, (after (portPass · handlers airlines) inputs m).OwnsNone) ↔
      ∀ m, (after (portPass · handlers airlines) inputs m).ended = false →
        ¬ CallsBack handlers (inputs m)) ∧
    ∀ m, (after (pass · handlers airlines) inputs m).OwnsNone := by
  refine ⟨⟨fun hnone m hgoing hcalls => ?_, fun hnever => ?_⟩, ?_⟩
  · have hkept := hnone (m + 1) .cargoHandlerLock
    simp only [after, hgoing, Bool.false_eq_true, if_false] at hkept
    rw [portPass_calls hcalls] at hkept
    exact absurd hkept (by decide)
  · exact after_induction (fun _ => rfl) fun m hnone hgoing =>
      portPass_balanced (hnever m hgoing) hnone
  · exact after_induction (fun _ => rfl) fun m hnone _ => pass_balanced hnone

/-- A bag is on the conveyor, and the four handlers are on a break. -/
theorem keeps_cargoHandlerLock : ¬ ∀ (handlers airlines : Nat) (inputs : Nat → PassInput) (m : Nat),
    (after (portPass · handlers airlines) inputs m).OwnsNone := by
  intro h
  have hnone := h 4 3 (fun _ => ⟨fun _ => 30, fun _ _ => 1, fun _ => false, false, fun _ => true⟩) 1
  exact absurd (hnone .cargoHandlerLock) (by decide)

end Passes

end Manager

end Test
end Nachos
