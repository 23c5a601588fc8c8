import Mathlib.Algebra.Group.Int.Defs
import Mathlib.Algebra.Group.Nat.Defs

/-!
# The latency of a disk request

`Disk::ComputeLatency` and what it calls.  The clock has 64 bits, but `timeAfter` is an `int`: when
the clock has passed `2^31` it is off by a multiple of `2^32`, which is no number of rotations.  So
the sector that is under the head is not the one the code computes, and the request completes at a
time at which another sector has passed.
-/

namespace Nachos
namespace Machine
namespace Disk

/-- `SectorsPerTrack`, `NumSectors`, `RotationTime` and `SeekTime`. -/
abbrev sectorsPerTrack : Int := 32

abbrev numSectors : Int := 1024

abbrev rotationTime : Int := 500

abbrev seekTime : Int := 500

/-- The value of an `int`, and of an `int64_t`, to which a number is assigned. -/
def int (x : Int) : Int := x.bmod (2 ^ 32)

def int64 (x : Int) : Int := x.bmod (2 ^ 64)

/-- A disk that gets a request: its fields and the clock. -/
structure Request where
  lastSector : Int
  newSector : Int
  bufferInit : Int
  totalTicks : Int
  writing : Bool
  last : 0 ≤ lastSector ∧ lastSector < numSectors
  new : 0 ≤ newSector ∧ newSector < numSectors
  clock : 0 ≤ totalTicks ∧ totalTicks < 2 ^ 63

namespace Request

variable (r : Request)

/-- `Disk::TimeToSeek`: the time, and `*rotation`. -/
def timeToSeek : Int × Int :=
  let newTrack := r.newSector.tdiv sectorsPerTrack
  let oldTrack := r.lastSector.tdiv sectorsPerTrack
  let seek := int ((newTrack - oldTrack).natAbs * seekTime)
  let overTicks := int ((int64 (r.totalTicks + seek)).tmod rotationTime)
  (seek, if 0 < overTicks then int (rotationTime - overTicks) else 0)

/-- `Disk::ModuloDiff`. -/
def moduloDiff (target origin : Int) : Int :=
  let toOffset := target.tmod sectorsPerTrack
  let fromOffset := origin.tmod sectorsPerTrack
  (toOffset - fromOffset + sectorsPerTrack).tmod sectorsPerTrack

/-- `timeAfter`. -/
def timeAfter : Int := int (int64 (int64 (r.totalTicks + r.timeToSeek.1) + r.timeToSeek.2))

/-- The track buffer applies. -/
def UsesBuffer : Prop :=
  r.writing = false ∧ r.timeToSeek.1 = 0 ∧
    moduloDiff r.newSector (int (r.bufferInit.tdiv rotationTime)) <
      (int (r.timeAfter - r.bufferInit)).tdiv rotationTime

instance : Decidable r.UsesBuffer := inferInstanceAs (Decidable (_ ∧ _ ∧ _))

/-- `Disk::ComputeLatency`. -/
def computeLatency : Int :=
  if r.UsesBuffer then int rotationTime
  else
    let rotation := int (r.timeToSeek.2 +
      moduloDiff r.newSector (int (r.timeAfter.tdiv rotationTime)) * rotationTime)
    int (r.timeToSeek.1 + rotation + rotationTime)

section Specification

/-- What the seek takes. -/
def seek : Int := (r.newSector / sectorsPerTrack - r.lastSector / sectorsPerTrack).natAbs * seekTime

/-- The latency is that of a disk: when the buffer does not apply, the head has just passed the
sector, and nobody has waited for more than a seek and a turn. -/
structure Correct : Prop where
  least : rotationTime ≤ r.computeLatency
  boundary : ¬ r.UsesBuffer → (r.totalTicks + r.computeLatency) % rotationTime = 0
  sector : ¬ r.UsesBuffer →
    ((r.totalTicks + r.computeLatency) / rotationTime - 1) % sectorsPerTrack =
      r.newSector % sectorsPerTrack
  most : ¬ r.UsesBuffer → r.computeLatency < r.seek + (sectorsPerTrack + 1) * rotationTime

/-- When the head is at the next sector boundary behind the seek. -/
def arrival : Int := -(-(r.totalTicks + r.seek) / rotationTime) * rotationTime

/-- How often an `int` has wrapped around at some time. -/
def wraps (time : Int) : Int := (time + 2 ^ 31) / 2 ^ 32

/-- What an `int` has lost at some time is a number of turns, but for less than a sector: more than
that number where the `int` is negative, and less where it is not. -/
def InStep (time : Int) : Prop :=
  let lost := wraps time * 2 ^ 32 % (sectorsPerTrack * rotationTime)
  if time < wraps time * 2 ^ 32 then lost < rotationTime
  else lost = 0 ∨ sectorsPerTrack * rotationTime - rotationTime < lost

end Specification

section Arithmetic

theorem int_eq (x : Int) : int x = x - wraps x * 2 ^ 32 := by
  unfold int wraps
  rw [Int.bmod_def]
  omega

theorem int_small {x : Int} (hlow : -2 ^ 31 ≤ x) (hhigh : x < 2 ^ 31) : int x = x := by
  rw [int_eq]
  unfold wraps
  omega

/-- The remainder of a truncating division by the sectors of a track. -/
theorem tmod_bounds (x : Int) : ∃ turns : Int, x.tmod sectorsPerTrack = x - 32 * turns ∧
    -32 < x.tmod sectorsPerTrack ∧ x.tmod sectorsPerTrack < 32 := by
  refine ⟨x.tdiv sectorsPerTrack, ?_, ?_, ?_⟩
  · rw [Int.tmod_def]
  · have hlow := Int.lt_tmod_of_pos x (show 0 < sectorsPerTrack by decide)
    omega
  · exact Int.tmod_lt_of_pos x (by decide)

theorem moduloDiff_eq {target : Int} (origin : Int) (htarget : 0 ≤ target) :
    moduloDiff target origin = (target - origin) % sectorsPerTrack := by
  obtain ⟨turns, horigin, hlow, hhigh⟩ := tmod_bounds origin
  have hoffset : target.tmod sectorsPerTrack = target % 32 := Int.tmod_eq_emod_of_nonneg htarget
  unfold moduloDiff
  simp only [hoffset, sectorsPerTrack] at *
  rw [Int.tmod_eq_emod_of_nonneg (by omega)]
  omega

/-- Division by `RotationTime` cuts off what is behind the point. -/
theorem tdiv_rotationTime (x : Int) :
    x.tdiv rotationTime = if x < 0 then -(-x / 500) else x / 500 := by
  by_cases hneg : x < 0
  · rw [if_pos hneg, ← Int.tdiv_eq_ediv_of_nonneg (by omega), Int.neg_tdiv, Int.neg_neg]
  · rw [if_neg hneg]
    exact Int.tdiv_eq_ediv_of_nonneg (by omega)

/-- A time on a sector boundary, divided by `RotationTime` as an `int`, is the right sector just if
the `int` is in step. -/
theorem inStep_iff (sectors : Int) :
    (sectors - (int (sectors * rotationTime)).tdiv rotationTime) % sectorsPerTrack = 0 ↔
      InStep (sectors * rotationTime) := by
  rw [int_eq, tdiv_rotationTime]
  unfold InStep
  generalize wraps (sectors * rotationTime) * 2 ^ 32 = lost
  simp only [sectorsPerTrack, rotationTime]
  by_cases hneg : sectors * 500 < lost
  · rw [if_pos hneg, if_pos (by omega)]
    omega
  · rw [if_neg hneg, if_neg (by omega)]
    omega

end Arithmetic

section Seek

variable (r : Request)

theorem seek_bounds : 0 ≤ r.seek ∧ r.seek ≤ 15500 ∧ r.seek % 500 = 0 := by
  have hlast := r.last
  have hnew := r.new
  simp only [seek, numSectors, sectorsPerTrack, seekTime] at *
  omega

theorem int_seek : int ((r.newSector.tdiv sectorsPerTrack -
    r.lastSector.tdiv sectorsPerTrack).natAbs * seekTime) = r.seek := by
  have hbounds := r.seek_bounds
  unfold seek at hbounds ⊢
  rw [Int.tdiv_eq_ediv_of_nonneg r.last.1, Int.tdiv_eq_ediv_of_nonneg r.new.1]
  exact int_small (by omega) (by omega)

theorem timeToSeek_fst : r.timeToSeek.1 = r.seek := by
  simp only [timeToSeek, int_seek]

/-- The clock does not overflow in the seek, or it is on a sector boundary anyway. -/
def ClockFits : Prop := r.totalTicks + r.seek < 2 ^ 63 ∨ r.totalTicks % rotationTime = 0

theorem int64_eq {x : Int} (hlow : 0 ≤ x) (hhigh : x < 2 ^ 64) :
    int64 x = if x < 2 ^ 63 then x else x - 2 ^ 64 := by
  unfold int64
  rw [Int.bmod_def]
  omega

/-- `over`. -/
def overTicks : Int := (int64 (r.totalTicks + r.seek)).tmod rotationTime

theorem overTicks_bounds : -500 < r.overTicks ∧ r.overTicks < 500 := by
  constructor
  · have hlow := Int.lt_tmod_of_pos (int64 (r.totalTicks + r.seek)) (show 0 < rotationTime by decide)
    exact hlow
  · exact Int.tmod_lt_of_pos _ (by decide)

theorem timeToSeek_snd_eq :
    r.timeToSeek.2 = if 0 < r.overTicks then 500 - r.overTicks else 0 := by
  obtain ⟨hlow, hhigh⟩ := r.overTicks_bounds
  simp only [timeToSeek, int_seek]
  change (if 0 < int r.overTicks then int (rotationTime - int r.overTicks) else 0) = _
  rw [int_small (by omega) (by omega), int_small (by simp only [rotationTime]; omega)
    (by simp only [rotationTime]; omega)]

theorem overTicks_eq : r.overTicks =
    if r.totalTicks + r.seek < 2 ^ 63 then (r.totalTicks + r.seek) % 500
    else -(-(r.totalTicks + r.seek - 2 ^ 64) % 500) := by
  have hbounds := r.seek_bounds
  have hclock := r.clock
  unfold overTicks
  rw [int64_eq (by omega) (by omega)]
  split
  · exact Int.tmod_eq_emod_of_nonneg (by omega)
  · have hpos := Int.tmod_eq_emod_of_nonneg (a := -(r.totalTicks + r.seek - 2 ^ 64))
      (b := rotationTime) (by omega)
    rw [← hpos, Int.neg_tmod, Int.neg_neg]

/-- The head waits for the next boundary; but when the clock has overflowed it does not. -/
theorem timeToSeek_snd : (r.ClockFits → r.totalTicks + r.seek + r.timeToSeek.2 = r.arrival) ∧
    (¬ r.ClockFits → r.timeToSeek.2 = 0) := by
  have hbounds := r.seek_bounds
  rw [timeToSeek_snd_eq, overTicks_eq]
  unfold ClockFits arrival
  simp only [rotationTime]
  constructor
  · intro hfits
    by_cases hlt : r.totalTicks + r.seek < 2 ^ 63
    · rw [if_pos hlt]
      omega
    · rw [if_neg hlt]
      omega
  · intro hnot
    rw [if_neg (by omega : ¬ r.totalTicks + r.seek < 2 ^ 63), if_neg (by omega)]

theorem timeToSeek_snd_bounds : 0 ≤ r.timeToSeek.2 ∧ r.timeToSeek.2 < 500 := by
  have hbounds := r.overTicks_bounds
  rw [timeToSeek_snd_eq]
  split
  all_goals omega

end Seek

section Latency

variable (r : Request)

theorem timeAfter_eq : r.timeAfter = int (r.totalTicks + r.seek + r.timeToSeek.2) := by
  unfold timeAfter int64
  rw [timeToSeek_fst, Int.bmod_add_bmod]
  exact Int.bmod_bmod_of_dvd (Nat.pow_dvd_pow 2 (by decide))

/-- The sectors for which the head waits behind the next boundary. -/
def turn : Int := (r.newSector - r.timeAfter.tdiv rotationTime) % sectorsPerTrack

theorem turn_bounds : 0 ≤ r.turn ∧ r.turn ≤ 31 := by
  unfold turn sectorsPerTrack
  omega

theorem computeLatency_eq (h : ¬ r.UsesBuffer) :
    r.computeLatency = r.seek + r.timeToSeek.2 + r.turn * 500 + 500 := by
  have hseek := r.seek_bounds
  have hrotation := r.timeToSeek_snd_bounds
  have hturn := r.turn_bounds
  have hsector : int (r.timeAfter.tdiv rotationTime) = r.timeAfter.tdiv rotationTime := by
    have hafter : -2 ^ 31 ≤ r.timeAfter ∧ r.timeAfter < 2 ^ 31 := by
      rw [timeAfter_eq, int_eq]
      unfold wraps
      omega
    rw [tdiv_rotationTime]
    split
    all_goals exact int_small (by omega) (by omega)
  rw [computeLatency, if_neg h, hsector, moduloDiff_eq _ r.new.1, timeToSeek_fst]
  change int (r.seek + int (r.timeToSeek.2 + r.turn * rotationTime) + rotationTime) = _
  have hrest : int (r.timeToSeek.2 + r.turn * rotationTime) = r.timeToSeek.2 + r.turn * 500 :=
    int_small (by simp only [rotationTime]; omega) (by simp only [rotationTime]; omega)
  rw [hrest]
  refine (int_small ?_ ?_).trans ?_
  all_goals simp only [rotationTime]
  all_goals omega

/-- The sectors that have passed when the head arrives. -/
def sectors : Int := -(-(r.totalTicks + r.seek) / rotationTime)

theorem arrival_eq : r.arrival = r.sectors * rotationTime := rfl

/-- With a clock that fits, the latency is right just if the `int` is in step. -/
theorem ClockFits.correct_iff_inStep {r : Request} (h : r.ClockFits) (hbuffer : ¬ r.UsesBuffer) :
    r.Correct ↔ InStep r.arrival := by
  have hlatency := r.computeLatency_eq hbuffer
  have harrival := r.timeToSeek_snd.1 h
  have hseek := r.seek_bounds
  have hrotation := r.timeToSeek_snd_bounds
  have hturn := r.turn_bounds
  have hafter : r.timeAfter = int (r.sectors * rotationTime) := by
    rw [timeAfter_eq, harrival, arrival_eq]
  have hsector : r.turn = (r.newSector - (int (r.sectors * rotationTime)).tdiv rotationTime) % 32 := by
    rw [turn, hafter]
  rw [arrival_eq] at harrival ⊢
  rw [← inStep_iff]
  generalize (int (r.sectors * rotationTime)).tdiv rotationTime = current at hsector ⊢
  simp only [rotationTime, sectorsPerTrack] at *
  constructor
  · intro hcorrect
    have hpassed := hcorrect.sector hbuffer
    simp only [rotationTime, sectorsPerTrack] at hpassed
    omega
  · intro hstep
    refine ⟨?_, fun _ => ?_, fun _ => ?_, fun _ => ?_⟩
    all_goals simp only [rotationTime, sectorsPerTrack]
    all_goals omega

/-- When the clock overflows in the seek, the head does not wait for a boundary. -/
theorem not_correct_of_overflow {r : Request} (h : ¬ r.ClockFits) (hbuffer : ¬ r.UsesBuffer) :
    ¬ r.Correct := by
  intro hcorrect
  have hlatency := r.computeLatency_eq hbuffer
  have hnone := r.timeToSeek_snd.2 h
  have hseek := r.seek_bounds
  have hboundary := hcorrect.boundary hbuffer
  unfold ClockFits at h
  simp only [rotationTime] at h hboundary
  omega

/-- The latency is right just if the buffer applies, or the clock fits and the `int` is in step when
the head arrives. -/
theorem computeLatency_correct_iff :
    r.Correct ↔ r.UsesBuffer ∨ (r.ClockFits ∧ InStep r.arrival) := by
  by_cases hbuffer : r.UsesBuffer
  · have hlatency : r.computeLatency = 500 := by
      rw [computeLatency, if_pos hbuffer]
      exact int_small (by decide) (by decide)
    refine ⟨fun _ => Or.inl hbuffer, fun _ => ⟨Int.le_of_eq hlatency.symm, ?_, ?_, ?_⟩⟩
    all_goals exact fun hnot => absurd hbuffer hnot
  · by_cases hfits : r.ClockFits
    · rw [hfits.correct_iff_inStep hbuffer]
      exact ⟨fun h => Or.inr ⟨hfits, h⟩, fun h => (h.resolve_left hbuffer).2⟩
    · refine ⟨fun h => absurd h (not_correct_of_overflow hfits hbuffer), fun h => ?_⟩
      exact absurd (h.resolve_left hbuffer).1 hfits

/-- A write to the first sector when the clock has just passed `2^31`. -/
def late : Request where
  lastSector := 0
  newSector := 0
  bufferInit := 0
  totalTicks := 2147483648
  writing := true
  last := by decide
  new := by decide
  clock := by decide

theorem late_not_correct : ¬ ∀ r : Request, r.Correct := by
  intro h
  exact absurd ((h late).sector (by decide)) (by decide)

end Latency

end Request
end Disk
end Machine
end Nachos
