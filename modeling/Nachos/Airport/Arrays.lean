import Mathlib.Tactic.IntervalCases
import Nachos.Airport.Counters

/-!
# The arrays of `threads/threadtest.cc`

The arrays that the threads of the simulation share are declared with sizes of their own, from
several constants of `threadtest.h`.  An access is an array with the index that is used.

`setupExecutiveCIOs` goes on behind the economy lines, in four arrays that the passengers and the
officers use with the number of a line.  Three of them have room for the executive lines;
`CheckInLocks` has not.
-/

namespace Nachos
namespace Airport

/-- The arrays, with those of the liaisons, the handlers and the manager. -/
inductive SharedArray
  | gates
  | screeningResult
  | liaisonOfficers
  | checkIn
  | security
  | screen
  | lpInfo
  | cpInfo
  | spInfo
  | secPInfo
  | aircraftBaggageCount
  | aircraftBaggageWeight
  | boardingLounges
  | totalPassengersOfAirline
  | totalBaggage
  | totalWeight
  | ticketsIssued
  | liaisonBaggageCount
  | alreadyBoarded
  | execLineNeedsHelp
  | securityAvailability
  | liaisonLine
  | checkInLine
  | securityLine
  | screenLine
  | screenLineCV
  | screenOfficerCV
  | securityOfficerCV
  | securityLineCV
  | liaisonLineCV
  | liaisonOfficerCV
  | checkInCV
  | checkInOfficerCV
  | checkInBreakCV
  | liaisonLineLocks
  | checkInLocks
  | screenLocks
  | securityLocks
  | airlineBaggage
  | gateLocks
  | gateLocksCV
  | execLineLocks
  | execLineCV
  | airlineBaggageCount
  | handlerWeight
  | handlerCount
  | cargoHandlerTotalWeight
  | cargoHandlerTotalCount
  | cioTotalCount
  | cioTotalWeight
  | liaisonTotalCount
  deriving DecidableEq, Repr

/-- The size that an array is declared with. -/
@[simp]
def SharedArray.size : SharedArray → Nat
  -- MAX_PASSENGERS
  | .screeningResult => 1000
  -- CHECKIN_COUNT*AIRLINE_COUNT+AIRLINE_COUNT, and the same with MAX_CIOS and MAX_AIRLINES
  | .checkInLine | .checkInCV | .checkIn | .cpInfo => 5 * 5 + 5
  -- CHECKIN_COUNT*AIRLINE_COUNT
  | .checkInOfficerCV | .checkInBreakCV | .checkInLocks => 5 * 5
  -- LIAISONLINE_COUNT, MAX_LIAISONS
  | .liaisonOfficers | .lpInfo | .liaisonLine | .liaisonLineCV | .liaisonOfficerCV
  | .liaisonLineLocks => 7
  -- MAX_SCREEN+1
  | .spInfo => 5 + 1
  -- SCREEN_COUNT, MAX_SCREEN
  | .security | .screen | .secPInfo | .securityAvailability | .securityLine | .screenLine
  | .screenLineCV | .screenOfficerCV | .securityOfficerCV | .securityLineCV | .screenLocks
  | .securityLocks => 5
  -- AIRLINE_COUNT, MAX_AIRLINES
  | .gates | .aircraftBaggageCount | .aircraftBaggageWeight | .boardingLounges
  | .totalPassengersOfAirline | .totalBaggage | .totalWeight | .ticketsIssued
  | .liaisonBaggageCount | .alreadyBoarded | .execLineNeedsHelp | .airlineBaggage | .gateLocks
  | .gateLocksCV | .execLineLocks | .execLineCV | .airlineBaggageCount | .handlerWeight
  | .handlerCount | .cargoHandlerTotalWeight | .cargoHandlerTotalCount | .cioTotalCount
  | .cioTotalWeight | .liaisonTotalCount => 5

/-- An array with an index that is used. -/
structure Access where
  array : SharedArray
  index : Nat
  deriving DecidableEq, Repr

/-- Index `i` into some arrays. -/
def usesAt (i : Nat) (arrays : List SharedArray) : List Access := arrays.map fun array => ⟨array, i⟩

/-- The indices of a loop. -/
def usesIn (first past : Nat) (arrays : List SharedArray) : List Access :=
  (List.range' first (past - first)).flatMap fun i => usesAt i arrays

/-- All indices are inside the bounds. -/
def Within (uses : List Access) : Prop := ∀ u ∈ uses, u.index < u.array.size

instance (uses : List Access) : Decidable (Within uses) :=
  inferInstanceAs (Decidable (∀ u ∈ uses, _))

section Bounds

variable {i first past : Nat} {array : SharedArray} {arrays : List SharedArray}
  {uses uses' : List Access}

@[simp]
theorem within_nil : Within [] := by simp [Within]

@[simp]
theorem within_append : Within (uses ++ uses') ↔ Within uses ∧ Within uses' := by
  unfold Within
  exact List.forall_mem_append

@[simp]
theorem usesAt_nil : usesAt i [] = [] := rfl

@[simp]
theorem within_usesAt_cons :
    Within (usesAt i (array :: arrays)) ↔ i < array.size ∧ Within (usesAt i arrays) := by
  unfold Within usesAt
  rw [List.map_cons]
  exact List.forall_mem_cons

/-- A loop is inside the bounds if its last round is. -/
@[simp]
theorem within_usesIn :
    Within (usesIn first past arrays) ↔ first < past → Within (usesAt (past - 1) arrays) := by
  unfold Within usesIn usesAt
  constructor
  · intro h hlt u hu
    refine h u (List.mem_flatMap.mpr ⟨past - 1, ?_, hu⟩)
    rw [List.mem_range'_1]
    omega
  · intro h u hu
    obtain ⟨j, hj, hu⟩ := List.mem_flatMap.mp hu
    obtain ⟨array, harray, rfl⟩ := List.mem_map.mp hu
    rw [List.mem_range'_1] at hj
    have hlast : past - 1 < array.size :=
      h (by omega) ⟨array, past - 1⟩ (List.mem_map.mpr ⟨array, harray, rfl⟩)
    change j < array.size
    omega

end Bounds

section Setup

variable (cfg : Settings) (screens : Nat)

/-- The constructor of the manager. -/
def createAirportManagerUses : List Access :=
  usesIn 0 cfg.simNumOfAirlines [.cioTotalCount, .cioTotalWeight, .liaisonTotalCount,
    .cargoHandlerTotalWeight, .cargoHandlerTotalCount]

def setupAirlinesUses : List Access :=
  usesIn 0 (5 * 5 + 5) [.checkInLine] ++ usesIn 0 7 [.liaisonLine] ++
  usesIn 0 5 [.securityAvailability, .securityLine, .screenLine] ++
  usesIn 0 cfg.simNumOfAirlines [.gates, .boardingLounges, .totalPassengersOfAirline,
    .aircraftBaggageCount, .aircraftBaggageWeight, .execLineNeedsHelp] ++
  (if 0 < cfg.simNumOfPassengers % cfg.simNumOfAirlines then usesAt 0 [.totalPassengersOfAirline]
    else []) ++
  usesIn 0 cfg.simNumOfAirlines [.gateLocks, .gateLocksCV, .execLineLocks, .execLineCV] ++
  usesIn 0 (cfg.simNumOfAirlines * 50) [.screeningResult]

def setupEconomyCIOsUses : List Access :=
  usesIn 0 (cfg.simNumOfAirlines * cfg.simNumOfCIOs) [.checkInLine, .checkIn, .checkInLocks,
    .checkInBreakCV, .checkInCV, .checkInOfficerCV]

def setupExecutiveCIOsUses : List Access :=
  usesIn (cfg.simNumOfAirlines * cfg.simNumOfCIOs)
    (cfg.simNumOfAirlines * cfg.simNumOfCIOs + cfg.simNumOfAirlines)
    [.checkInLine, .checkIn, .checkInLocks, .checkInCV]

def createCIOsUses : List Access :=
  usesIn 0 (cfg.simNumOfAirlines * cfg.simNumOfCIOs) [.checkIn]

/-- With the constructors of the liaisons. -/
def createLiaisonsUses : List Access :=
  usesIn 0 cfg.simNumOfLiaisons [.liaisonLine, .liaisonLineCV, .liaisonOfficerCV,
    .liaisonLineLocks, .liaisonOfficers] ++
  usesIn 0 cfg.simNumOfAirlines [.airlineBaggageCount]

def createSecurityAndScreenUses : List Access :=
  usesIn 0 screens [.securityLine, .security, .screen, .screenOfficerCV, .securityOfficerCV,
    .screenLocks, .securityLocks, .securityLineCV, .securityAvailability] ++
  usesAt 0 [.screenLineCV]

def setupBaggageAndCargoUses : List Access :=
  usesIn 0 cfg.simNumOfAirlines [.airlineBaggage]

/-- With the constructors of the handlers. -/
def createCargoHandlersUses : List Access :=
  usesIn 0 cfg.simNumOfAirlines [.handlerWeight, .handlerCount]

/-- `setup`. -/
def setupUses : List Access :=
  createAirportManagerUses cfg ++ setupAirlinesUses cfg ++ setupEconomyCIOsUses cfg ++
  setupExecutiveCIOsUses cfg ++ createCIOsUses cfg ++ createLiaisonsUses cfg ++
  createSecurityAndScreenUses screens ++ setupBaggageAndCargoUses cfg ++
  createCargoHandlersUses cfg

/-- The numbers that `RunSim` accepts. -/
structure Accepted : Prop where
  passengers : 20 ≤ cfg.simNumOfPassengers
  airlines : 3 ≤ cfg.simNumOfAirlines ∧ cfg.simNumOfAirlines ≤ 5
  liaisons : 5 ≤ cfg.simNumOfLiaisons ∧ cfg.simNumOfLiaisons ≤ 7
  checkInStaff : 3 ≤ cfg.simNumOfCIOs ∧ cfg.simNumOfCIOs ≤ 5
  cargoHandlers : 6 ≤ cfg.simNumOfCargoHandlers ∧ cfg.simNumOfCargoHandlers ≤ 10
  screeningOfficers : 3 ≤ screens ∧ screens ≤ 5

/-- Five airlines with five check-in officers each: there are more lines than `CheckInLocks`. -/
def Crowded : Prop := cfg.simNumOfAirlines = 5 ∧ cfg.simNumOfCIOs = 5

variable {cfg screens}

/-- The lines of an accepted simulation. -/
theorem Accepted.counters_le (h : Accepted cfg screens) : cfg.counters ≤ 25 ∧
    cfg.counters + cfg.simNumOfAirlines ≤ 30 ∧
    (cfg.counters + cfg.simNumOfAirlines ≤ 25 ↔ ¬ Crowded cfg) := by
  obtain ⟨-, ⟨hlow, hhigh⟩, -, ⟨hlow', hhigh'⟩, -, -⟩ := h
  unfold Settings.counters Crowded
  generalize cfg.simNumOfAirlines = airlines at *
  generalize cfg.simNumOfCIOs = staff at *
  interval_cases airlines
  all_goals
    interval_cases staff
    all_goals simp

/-- `setup` stays inside the arrays unless there are five airlines with five officers each. -/
theorem within_setupUses (h : Accepted cfg screens) :
    Within (setupUses cfg screens) ↔ ¬ Crowded cfg := by
  obtain ⟨hlocks, hlines, hcrowded⟩ := h.counters_le
  obtain ⟨-, hairlines, hliaisons, hstaff, -, hscreens⟩ := h
  have hpos : 0 < cfg.counters := Nat.mul_pos (by omega) (by omega)
  have hrest : Within (if 0 < cfg.simNumOfPassengers % cfg.simNumOfAirlines then
      usesAt 0 [.totalPassengersOfAirline] else []) := by
    split
    all_goals simp
  unfold Settings.counters at *
  rw [← hcrowded]
  simp only [setupUses, createAirportManagerUses, setupAirlinesUses, setupEconomyCIOsUses,
    setupExecutiveCIOsUses, createCIOsUses, createLiaisonsUses, createSecurityAndScreenUses,
    setupBaggageAndCargoUses, createCargoHandlersUses, within_append, within_usesIn,
    within_usesAt_cons, usesAt_nil, within_nil, and_true, hrest, SharedArray.size]
  omega

end Setup

end Airport
end Nachos
