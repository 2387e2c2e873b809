import Mathlib.Algebra.Order.BigOperators.Group.List
import TaskSystem.Library.CPlatform

/-!
# Time Accumulators

`src/TimeHelper.c`: the difference and the sum of `struct timespec`s, by which `BucketTask` adds
up the time it spends in `send` and waiting in `receive`. Seconds and nanoseconds are `long`s; a
signed overflow has no result (`none`).

## Contents

- `Timespec`, `diff`, `tsAdd`, `accumulate`: the functions, and an accumulator over a list
- `nanoseconds`, `Normalised`: the value of a timespec, determined by it when normalised
- `diff_eq_some_iff`, `tsAdd_eq_some_iff`: what the borrow and the carry give
- `accumulate_exact_iff`: the accumulated time is exact, when it can be represented
- `exact_of_readings`: and so it is for the readings of one clock
-/

namespace TaskSystem.TimeHelper

open Library

/-! ## The functions -/

/-- `struct timespec` -/
structure Timespec where
  tvSec : Int64
  tvNsec : Int64
  deriving DecidableEq

/-- `diff`, from `start` to `end` -/
def diff (start stop : Timespec) : Option Timespec := do
  let nsec ← long (stop.tvNsec.toInt - start.tvNsec.toInt)
  if nsec < 0 then
    let sec ← long (stop.tvSec.toInt - start.tvSec.toInt)
    let sec ← long (sec.toInt - 1)
    let nsec ← long (1000000000 + stop.tvNsec.toInt)
    let nsec ← long (nsec.toInt - start.tvNsec.toInt)
    return ⟨sec, nsec⟩
  else
    let sec ← long (stop.tvSec.toInt - start.tvSec.toInt)
    let nsec ← long (stop.tvNsec.toInt - start.tvNsec.toInt)
    return ⟨sec, nsec⟩

/-- `tsAdd` -/
def tsAdd (time1 time2 : Timespec) : Option Timespec := do
  let sec ← long (time1.tvSec.toInt + time2.tvSec.toInt)
  let nsec ← long (time1.tvNsec.toInt + time2.tvNsec.toInt)
  if 1000000000 ≤ nsec then
    let sec ← long (sec.toInt + 1)
    let nsec ← long (nsec.toInt - 1000000000)
    return ⟨sec, nsec⟩
  else
    return ⟨sec, nsec⟩

namespace Timespec

/-- The value of a timespec, in nanoseconds. -/
def nanoseconds (t : Timespec) : Int := t.tvSec.toInt * 1000000000 + t.tvNsec.toInt

/-- The nanoseconds make up less than a second. -/
def Normalised (t : Timespec) : Prop := 0 ≤ t.tvNsec.toInt ∧ t.tvNsec.toInt < 1000000000

instance (t : Timespec) : Decidable t.Normalised := by
  unfold Normalised
  infer_instance

end Timespec

/-- Two readings of a clock, the second not before the first. -/
structure Interval where
  start : Timespec
  stop : Timespec
  start_normalised : start.Normalised
  stop_normalised : stop.Normalised
  start_le : start.nanoseconds ≤ stop.nanoseconds

namespace Interval

/-- What is between the readings, in nanoseconds. -/
def elapsed (p : Interval) : Int := p.stop.nanoseconds - p.start.nanoseconds

end Interval

/-- `acc = tsAdd(acc, diff(start, end))` -/
def accumulateStep (acc : Timespec) (p : Interval) : Option Timespec := do
  let time ← diff p.start p.stop
  tsAdd acc time

/-- An accumulator such as `send_time_acc`, which `start` sets to zero. -/
def accumulate (pairs : List Interval) : Option Timespec :=
  pairs.foldlM accumulateStep ⟨0, 0⟩

/-! ## Values -/

namespace Timespec

variable {t u : Timespec}

@[simp] theorem nanoseconds_mk (sec nsec : Int64) :
    nanoseconds ⟨sec, nsec⟩ = sec.toInt * 1000000000 + nsec.toInt := rfl

@[simp] theorem normalised_mk (sec nsec : Int64) :
    Normalised ⟨sec, nsec⟩ ↔ 0 ≤ nsec.toInt ∧ nsec.toInt < 1000000000 := Iff.rfl

/-- A normalised timespec is determined by its value. -/
theorem eq_of_nanoseconds (ht : t.Normalised) (hu : u.Normalised)
    (h : t.nanoseconds = u.nanoseconds) : t = u := by
  obtain ⟨ht₀, ht₁⟩ := ht
  obtain ⟨hu₀, hu₁⟩ := hu
  unfold nanoseconds at h
  have hsec : t.tvSec = u.tvSec := Int64.toInt_inj.mp (by omega)
  have hnsec : t.tvNsec = u.tvNsec := Int64.toInt_inj.mp (by omega)
  cases t
  cases u
  subst hsec hnsec
  rfl

/-- A value between those of two timespecs has one, too. -/
theorem exists_between {x : Int} (ht : t.Normalised) (hu : u.Normalised)
    (htx : t.nanoseconds ≤ x) (hxu : x ≤ u.nanoseconds) :
    ∃ v : Timespec, v.Normalised ∧ v.nanoseconds = x := by
  obtain ⟨ht₀, ht₁⟩ := ht
  obtain ⟨hu₀, hu₁⟩ := hu
  unfold nanoseconds at htx hxu
  have hlo := (le_longMax t.tvSec).1
  have hhi := (le_longMax u.tvSec).2
  obtain ⟨sec, -, hsec⟩ := exists_long (x := x / 1000000000) (by omega)
  obtain ⟨nsec, -, hnsec⟩ := exists_long (x := x % 1000000000) (by unfold longMax; omega)
  refine ⟨⟨sec, nsec⟩, ?_, ?_⟩
  · rw [normalised_mk]
    omega
  · rw [nanoseconds_mk]
    omega

end Timespec

variable {start stop t u v : Timespec}

/-- The guard of the borrow -/
theorem borrow_iff {nsec : Int64} : nsec < 0 ↔ nsec.toInt < 0 := by
  rw [Int64.lt_iff_toInt_lt, Int64.toInt_zero]

/-- The guard of the carry -/
theorem carry_iff {nsec : Int64} : 1000000000 ≤ nsec ↔ 1000000000 ≤ nsec.toInt := by
  have hsecond : (1000000000 : Int64).toInt = 1000000000 := by decide
  rw [Int64.le_iff_toInt_le, hsecond]

/-! ## The difference -/

theorem nanoseconds_of_diff (hstart : start.Normalised) (hstop : stop.Normalised)
    (h : diff start stop = some t) :
    stop.tvSec.toInt - start.tvSec.toInt ≤ longMax ∧ t.Normalised ∧
      t.nanoseconds = stop.nanoseconds - start.nanoseconds := by
  obtain ⟨hstart₀, hstart₁⟩ := hstart
  obtain ⟨hstop₀, hstop₁⟩ := hstop
  obtain ⟨nsec, hnsec, h⟩ := Option.bind_eq_some_iff.mp h
  rw [long_eq_some_iff] at hnsec
  split at h
  next hborrow =>
    obtain ⟨sec₁, hsec₁, h⟩ := Option.bind_eq_some_iff.mp h
    obtain ⟨sec₂, hsec₂, h⟩ := Option.bind_eq_some_iff.mp h
    obtain ⟨nsec₁, hnsec₁, h⟩ := Option.bind_eq_some_iff.mp h
    obtain ⟨nsec₂, hnsec₂, h⟩ := Option.bind_eq_some_iff.mp h
    cases h
    rw [long_eq_some_iff] at hsec₁ hsec₂ hnsec₁ hnsec₂
    rw [borrow_iff] at hborrow
    have hmax := (le_longMax sec₁).2
    rw [Timespec.normalised_mk, Timespec.nanoseconds_mk, Timespec.nanoseconds,
      Timespec.nanoseconds]
    omega
  next hplain =>
    obtain ⟨sec, hsec, h⟩ := Option.bind_eq_some_iff.mp h
    obtain ⟨nsec', hnsec', h⟩ := Option.bind_eq_some_iff.mp h
    cases h
    rw [long_eq_some_iff] at hsec hnsec'
    rw [borrow_iff] at hplain
    have hmax := (le_longMax sec).2
    rw [Timespec.normalised_mk, Timespec.nanoseconds_mk, Timespec.nanoseconds,
      Timespec.nanoseconds]
    omega

theorem exists_diff (hstart : start.Normalised) (hstop : stop.Normalised)
    (hle : start.nanoseconds ≤ stop.nanoseconds)
    (hsec : stop.tvSec.toInt - start.tvSec.toInt ≤ longMax) : ∃ t, diff start stop = some t := by
  obtain ⟨hstart₀, hstart₁⟩ := hstart
  obtain ⟨hstop₀, hstop₁⟩ := hstop
  unfold Timespec.nanoseconds at hle
  unfold longMax at hsec
  obtain ⟨nsec, hnsec, hnsec'⟩ :=
    exists_long (x := stop.tvNsec.toInt - start.tvNsec.toInt) (by unfold longMax; omega)
  obtain ⟨sec, hsec₁, hsec₁'⟩ :=
    exists_long (x := stop.tvSec.toInt - start.tvSec.toInt) (by unfold longMax; omega)
  by_cases hborrow : nsec < 0
  · have hnegative := borrow_iff.mp hborrow
    -- the second that is borrowed is there
    obtain ⟨sec₂, hsec₂, -⟩ := exists_long (x := sec.toInt - 1) (by unfold longMax; omega)
    obtain ⟨nsec₁, hnsec₁, hnsec₁'⟩ :=
      exists_long (x := 1000000000 + stop.tvNsec.toInt) (by unfold longMax; omega)
    obtain ⟨nsec₂, hnsec₂, -⟩ :=
      exists_long (x := nsec₁.toInt - start.tvNsec.toInt) (by unfold longMax; omega)
    refine ⟨⟨sec₂, nsec₂⟩, ?_⟩
    simp only [diff, hnsec, hsec₁, hborrow, hsec₂, hnsec₁, hnsec₂, if_true, Option.bind_eq_bind,
      Option.bind_some, Option.pure_def]
  · refine ⟨⟨sec, nsec⟩, ?_⟩
    simp only [diff, hnsec, hsec₁, hborrow, if_false, Option.bind_eq_bind, Option.bind_some,
      Option.pure_def]

/-- **The difference** of two readings: the borrow keeps it normalised. It is defined while the
    seconds between them are a `long`. -/
theorem diff_eq_some_iff (hstart : start.Normalised) (hstop : stop.Normalised)
    (hle : start.nanoseconds ≤ stop.nanoseconds) :
    diff start stop = some t ↔ stop.tvSec.toInt - start.tvSec.toInt ≤ longMax ∧
      t.Normalised ∧ t.nanoseconds = stop.nanoseconds - start.nanoseconds := by
  constructor
  · exact nanoseconds_of_diff hstart hstop
  · rintro ⟨hsec, ht, hvalue⟩
    obtain ⟨u, hdiff⟩ := exists_diff hstart hstop hle hsec
    obtain ⟨-, hu, hvalue'⟩ := nanoseconds_of_diff hstart hstop hdiff
    rw [hdiff, Timespec.eq_of_nanoseconds ht hu (hvalue.trans hvalue'.symm)]

/-! ## The sum -/

theorem nanoseconds_of_tsAdd (ht : t.Normalised) (hu : u.Normalised) (h : tsAdd t u = some v) :
    v.Normalised ∧ v.nanoseconds = t.nanoseconds + u.nanoseconds := by
  obtain ⟨ht₀, ht₁⟩ := ht
  obtain ⟨hu₀, hu₁⟩ := hu
  obtain ⟨sec, hsec, h⟩ := Option.bind_eq_some_iff.mp h
  obtain ⟨nsec, hnsec, h⟩ := Option.bind_eq_some_iff.mp h
  rw [long_eq_some_iff] at hsec hnsec
  split at h
  next hcarry =>
    obtain ⟨sec', hsec', h⟩ := Option.bind_eq_some_iff.mp h
    obtain ⟨nsec', hnsec', h⟩ := Option.bind_eq_some_iff.mp h
    cases h
    rw [long_eq_some_iff] at hsec' hnsec'
    rw [carry_iff] at hcarry
    rw [Timespec.normalised_mk, Timespec.nanoseconds_mk, Timespec.nanoseconds,
      Timespec.nanoseconds]
    omega
  next hplain =>
    cases h
    rw [carry_iff] at hplain
    rw [Timespec.normalised_mk, Timespec.nanoseconds_mk, Timespec.nanoseconds,
      Timespec.nanoseconds]
    omega

theorem exists_tsAdd (ht : t.Normalised) (hu : u.Normalised) (hpos : 0 ≤ u.nanoseconds)
    (hv : v.Normalised) (hvalue : v.nanoseconds = t.nanoseconds + u.nanoseconds) :
    ∃ v', tsAdd t u = some v' := by
  obtain ⟨ht₀, ht₁⟩ := ht
  obtain ⟨hu₀, hu₁⟩ := hu
  obtain ⟨hv₀, hv₁⟩ := hv
  unfold Timespec.nanoseconds at hpos hvalue
  have hlo := (le_longMax t.tvSec).1
  have hhi := (le_longMax v.tvSec).2
  obtain ⟨sec, hsec, hsec'⟩ := exists_long (x := t.tvSec.toInt + u.tvSec.toInt) (by omega)
  obtain ⟨nsec, hnsec, hnsec'⟩ :=
    exists_long (x := t.tvNsec.toInt + u.tvNsec.toInt) (by unfold longMax; omega)
  by_cases hcarry : 1000000000 ≤ nsec
  · have hsize := carry_iff.mp hcarry
    obtain ⟨sec₁, hsec₁, -⟩ := exists_long (x := sec.toInt + 1) (by omega)
    obtain ⟨nsec₁, hnsec₁, -⟩ :=
      exists_long (x := nsec.toInt - 1000000000) (by unfold longMax; omega)
    refine ⟨⟨sec₁, nsec₁⟩, ?_⟩
    simp only [tsAdd, hsec, hnsec, hcarry, hsec₁, hnsec₁, if_true, Option.bind_eq_bind,
      Option.bind_some, Option.pure_def]
  · refine ⟨⟨sec, nsec⟩, ?_⟩
    simp only [tsAdd, hsec, hnsec, hcarry, if_false, Option.bind_eq_bind, Option.bind_some,
      Option.pure_def]

/-- **The sum** of a timespec and a time: the carry keeps it normalised. It is defined while there
    is a timespec of that value. -/
theorem tsAdd_eq_some_iff (ht : t.Normalised) (hu : u.Normalised) (hpos : 0 ≤ u.nanoseconds) :
    tsAdd t u = some v ↔ v.Normalised ∧ v.nanoseconds = t.nanoseconds + u.nanoseconds := by
  constructor
  · exact nanoseconds_of_tsAdd ht hu
  · rintro ⟨hv, hvalue⟩
    obtain ⟨v', hsum⟩ := exists_tsAdd ht hu hpos hv hvalue
    obtain ⟨hv', hvalue'⟩ := nanoseconds_of_tsAdd ht hu hsum
    rw [hsum, Timespec.eq_of_nanoseconds hv hv' (hvalue.trans hvalue'.symm)]

/-! ## The accumulator -/

variable {acc : Timespec} {p : Interval} {pairs : List Interval}

namespace Interval

theorem elapsed_nonneg (p : Interval) : 0 ≤ p.elapsed := Int.sub_nonneg_of_le p.start_le

/-- The seconds between the readings are a `long`. -/
def Fits (p : Interval) : Prop := p.stop.tvSec.toInt - p.start.tvSec.toInt ≤ longMax

/-- The difference of the readings is the time between them. -/
theorem diff_eq_some_iff :
    diff p.start p.stop = some t ↔ p.Fits ∧ t.Normalised ∧ t.nanoseconds = p.elapsed :=
  TimeHelper.diff_eq_some_iff p.start_normalised p.stop_normalised p.start_le

theorem exists_time (h : p.Fits) :
    ∃ time, diff p.start p.stop = some time ∧ time.Normalised ∧ 0 ≤ time.nanoseconds ∧
      time.nanoseconds = p.elapsed := by
  obtain ⟨time, hdiff⟩ := exists_diff p.start_normalised p.stop_normalised p.start_le h
  obtain ⟨-, htime, hvalue⟩ := diff_eq_some_iff.mp hdiff
  exact ⟨time, hdiff, htime, hvalue ▸ p.elapsed_nonneg, hvalue⟩

/-- The time between two readings, added to the first, gives the second. -/
theorem back_of_fits (h : p.Fits) : (diff p.start p.stop).bind (tsAdd p.start) = some p.stop := by
  obtain ⟨time, hdiff, htime, hpos, hvalue⟩ := exists_time h
  rw [hdiff, Option.bind_some, tsAdd_eq_some_iff p.start_normalised htime hpos, hvalue, elapsed]
  exact ⟨p.stop_normalised, by omega⟩

end Interval

/-- **One interval** more. -/
theorem accumulateStep_eq_some_iff (hacc : acc.Normalised) :
    accumulateStep acc p = some v ↔
      p.Fits ∧ v.Normalised ∧ v.nanoseconds = acc.nanoseconds + p.elapsed := by
  rw [accumulateStep, Option.bind_eq_bind, Option.bind_eq_some_iff]
  constructor
  · rintro ⟨time, hdiff, hsum⟩
    obtain ⟨hfits, htime, hvalue⟩ := Interval.diff_eq_some_iff.mp hdiff
    obtain ⟨hv, htotal⟩ := nanoseconds_of_tsAdd hacc htime hsum
    exact ⟨hfits, hv, by rw [htotal, hvalue]⟩
  · rintro ⟨hfits, hv, htotal⟩
    obtain ⟨time, hdiff, htime, hpos, hvalue⟩ := Interval.exists_time hfits
    refine ⟨time, hdiff, (tsAdd_eq_some_iff hacc htime hpos).mpr ⟨hv, ?_⟩⟩
    rw [htotal, hvalue]

theorem sum_elapsed_nonneg (pairs : List Interval) : 0 ≤ (pairs.map Interval.elapsed).sum := by
  apply List.sum_nonneg
  intro x hx
  obtain ⟨p, -, rfl⟩ := List.mem_map.mp hx
  exact p.elapsed_nonneg

/-- **Any number of intervals** more. What is between the accumulator and the total has a
    timespec, since no interval is negative. -/
theorem foldlM_accumulateStep (hacc : acc.Normalised) :
    pairs.foldlM accumulateStep acc = some v ↔
      (∀ p ∈ pairs, p.Fits) ∧ v.Normalised ∧
        v.nanoseconds = acc.nanoseconds + (pairs.map Interval.elapsed).sum := by
  induction pairs generalizing acc with
  | nil =>
    simp only [List.foldlM_nil, Option.pure_def, Option.some.injEq, List.not_mem_nil,
      false_implies, implies_true, true_and, List.map_nil, List.sum_nil, Int.add_zero]
    constructor
    · rintro rfl
      exact ⟨hacc, rfl⟩
    · rintro ⟨hv, hvalue⟩
      exact Timespec.eq_of_nanoseconds hacc hv hvalue.symm
  | cons p pairs ih =>
    rw [List.foldlM_cons, Option.bind_eq_bind, Option.bind_eq_some_iff, List.map_cons,
      List.sum_cons, List.forall_mem_cons]
    constructor
    · rintro ⟨next, hstep, hrest⟩
      obtain ⟨hfits, hnext, hvalue⟩ := (accumulateStep_eq_some_iff hacc).mp hstep
      obtain ⟨hall, hv, htotal⟩ := (ih hnext).mp hrest
      exact ⟨⟨hfits, hall⟩, hv, by omega⟩
    · rintro ⟨⟨hfits, hall⟩, hv, htotal⟩
      have hp := p.elapsed_nonneg
      have hrest := sum_elapsed_nonneg pairs
      obtain ⟨next, hnext, hvalue⟩ := Timespec.exists_between
        (x := acc.nanoseconds + p.elapsed) hacc hv (by omega) (by omega)
      exact ⟨next, (accumulateStep_eq_some_iff hacc).mpr ⟨hfits, hnext, hvalue⟩,
        (ih hnext).mpr ⟨hall, hv, by omega⟩⟩

/-- **The accumulator** is the normalised timespec of the sum. -/
theorem accumulate_eq_some_iff :
    accumulate pairs = some v ↔
      (∀ p ∈ pairs, p.Fits) ∧ v.Normalised ∧
        v.nanoseconds = (pairs.map Interval.elapsed).sum := by
  have hzero : Timespec.Normalised ⟨0, 0⟩ := by decide
  have hvalue : Timespec.nanoseconds ⟨0, 0⟩ = 0 := by decide
  rw [accumulate, foldlM_accumulateStep hzero, hvalue, Int.zero_add]

/-- The order of the intervals does not matter. -/
theorem accumulate_perm {other : List Interval} (h : other.Perm pairs) :
    accumulate other = accumulate pairs := by
  apply Option.ext
  intro v
  rw [accumulate_eq_some_iff, accumulate_eq_some_iff, (h.map Interval.elapsed).sum_eq]
  simp only [h.mem_iff]

/-- **The accumulated time is exact**, -/
structure Exact (pairs : List Interval) : Prop where
  /-- in whatever order the intervals come, -/
  sum : ∃ acc : Timespec, acc.Normalised ∧
    acc.nanoseconds = (pairs.map Interval.elapsed).sum ∧
    ∀ other : List Interval, other.Perm pairs → accumulate other = some acc
  /-- and each leads back from its beginning to its end. -/
  back : ∀ p ∈ pairs, (diff p.start p.stop).bind (tsAdd p.start) = some p.stop

/-- The times and their sum have timespecs. -/
structure Fits (pairs : List Interval) : Prop where
  each : ∀ p ∈ pairs, p.Fits
  total : (pairs.map Interval.elapsed).sum < (longMax + 1) * 1000000000

theorem exact_of_fits (h : Fits pairs) : Exact pairs where
  sum := by
    have hzero : Timespec.Normalised ⟨0, 0⟩ := by decide
    have hlast : Timespec.Normalised ⟨Int64.maxValue, 999999999⟩ := by decide
    have hpos := sum_elapsed_nonneg pairs
    have htotal := h.total
    have hfirst : Timespec.nanoseconds ⟨0, 0⟩ = 0 := by decide
    have hend : Timespec.nanoseconds ⟨Int64.maxValue, 999999999⟩ =
        (longMax + 1) * 1000000000 - 1 := by decide
    obtain ⟨acc, hacc, hvalue⟩ := Timespec.exists_between
      (x := (pairs.map Interval.elapsed).sum) hzero hlast (by omega) (by omega)
    refine ⟨acc, hacc, hvalue, ?_⟩
    intro other hperm
    rw [accumulate_perm hperm, accumulate_eq_some_iff]
    exact ⟨h.each, hacc, hvalue⟩
  back p hp := Interval.back_of_fits (h.each p hp)

/-- **Time accumulation is exact** as long as the times and their sum have timespecs. -/
theorem accumulate_exact_iff (pairs : List Interval) : Exact pairs ↔ Fits pairs := by
  refine ⟨?_, exact_of_fits⟩
  rintro ⟨⟨acc, hacc, hvalue, horder⟩, -⟩
  obtain ⟨heach, -, -⟩ := accumulate_eq_some_iff.mp (horder pairs (List.Perm.refl _))
  refine ⟨heach, ?_⟩
  have hmax := (le_longMax acc.tvSec).2
  rw [← hvalue, Timespec.nanoseconds]
  have hlt := hacc.2
  omega

/-- As long as a clock can show. -/
def eternity : Interval where
  start := ⟨0, 0⟩
  stop := ⟨Int64.maxValue, 0⟩
  start_normalised := by decide
  stop_normalised := by decide
  start_le := by decide

/-- **Overflow**: the sum of two such times has no timespec. -/
theorem accumulate_overflows :
    accumulate [eternity, eternity] = none ∧ ¬Exact [eternity, eternity] := by
  have hnone : accumulate [eternity, eternity] = none := by decide
  refine ⟨hnone, ?_⟩
  rintro ⟨⟨acc, -, -, horder⟩, -⟩
  have hsome := horder _ (List.Perm.refl _)
  rw [hnone] at hsome
  cases hsome

/-! ## The readings of a clock -/

/-- Readings that a task takes one after another of a clock that does not go back. -/
structure Readings (pairs : List Interval) : Prop where
  nonneg : ∀ p ∈ pairs, 0 ≤ p.start.nanoseconds
  ordered : pairs.Pairwise fun p q => p.stop.nanoseconds ≤ q.start.nanoseconds

/-- Intervals one after another take no more time than there is around them. -/
theorem sum_elapsed_le
    (h : pairs.Pairwise fun p q => p.stop.nanoseconds ≤ q.start.nanoseconds) {lo hi : Int}
    (hlo : ∀ p ∈ pairs, lo ≤ p.start.nanoseconds) (hhi : ∀ p ∈ pairs, p.stop.nanoseconds ≤ hi)
    (hle : lo ≤ hi) : (pairs.map Interval.elapsed).sum ≤ hi - lo := by
  induction pairs generalizing lo with
  | nil => exact Int.sub_nonneg_of_le hle
  | cons p pairs ih =>
    rw [List.pairwise_cons] at h
    rw [List.forall_mem_cons] at hlo hhi
    have hrest := ih h.2 h.1 hhi.2 hhi.1
    rw [List.map_cons, List.sum_cons, Interval.elapsed]
    omega

/-- **The times of a task are exact**: readings of one clock always fit. -/
theorem exact_of_readings (h : Readings pairs) : Exact pairs := by
  apply exact_of_fits
  constructor
  case each =>
    intro p hp
    have hstart := h.nonneg p hp
    have hnormal := p.start_normalised.2
    have hmax := (le_longMax p.stop.tvSec).2
    unfold Timespec.nanoseconds at hstart
    unfold Interval.Fits
    omega
  case total =>
    have hend : ∀ p ∈ pairs, p.stop.nanoseconds ≤ (longMax + 1) * 1000000000 - 1 := by
      intro p hp
      have hnormal := p.stop_normalised.2
      have hmax := (le_longMax p.stop.tvSec).2
      unfold Timespec.nanoseconds
      omega
    have hsum := sum_elapsed_le h.ordered h.nonneg hend (by decide)
    omega

end TaskSystem.TimeHelper
