import TaskSystem.Library.MapM
import TaskSystem.Library.Sorting

/-!
# The Root of a Sample Sort

The computations of `src/Tasks/SampleSortTask/SampleSortTask.c`: choosing the splitters,
cutting the data into slices for the buckets, and handing each bucket its part of what all
buckets published. An access outside an array has no result (`none`).

## Contents

- `randomAtMost`, `gatherSamples`, `pickSplitters`, `length_pickSplitters`
- `slices`: the part of the data each bucket is sent
- `SubArrays`, `gatherColumn`: what buckets publish, and one bucket's share of it
-/

namespace TaskSystem.SampleSort

open Library

/-- `samplesorttask_cmpfunc` -/
def samplesorttaskCmpfunc (a b : Int32) : Int32 := a - b

/-! ## Random numbers -/

/-- What `random()` returns: a `long` from 0 to `RAND_MAX`. -/
abbrev Draw := Fin 2147483648

/-- `num_bins`, for `max` converted to `unsigned long` -/
def numBins (max : Int) : Int := (max + 1) % 18446744073709551616

/-- `num_rand`, one more than `RAND_MAX` -/
def numRand : Int := 2147483648

/-- `bin_size` -/
def binSize (max : Int) : Int := numRand / numBins max

/-- `defect` -/
def defect (max : Int) : Int := numRand % numBins max

/-- The loop of `random_at_most` takes the draw. -/
def Accepts (max : Int) (x : Draw) : Prop := ¬numRand - defect max ≤ x.val

instance (max : Int) (x : Draw) : Decidable (Accepts max x) := by unfold Accepts; infer_instance

/-- `random_at_most`, given what `random` is going to return; `none` while still drawing. -/
def randomAtMost (max : Int) : List Draw → Option (Int × List Draw)
  | [] => none
  | x :: draws =>
    if Accepts max x then some (x.val / binSize max, draws) else randomAtMost max draws

/-! ## Splitters -/

/-- `SAMPLE_SIZE` -/
def sampleSize : Nat := 1500

/-- The loop that fills `samples`, from `n` samples to go. -/
def gatherSamples (data : List Int32) : Nat → List Draw → Option (List Int32)
  | 0, _ => some []
  | n + 1, draws =>
    match randomAtMost (data.length - 1) draws with
    | none => none
    | some (val, draws) =>
      match data[val.toNat]?, gatherSamples data n draws with
      | some sample, some samples => some (sample :: samples)
      | _, _ => none

/-- The splitters: every `step`-th of the sorted samples, and a last one that is not
    important. -/
def pickSplitters (samples : List Int32) (K : Nat) : Option (List Int32) :=
  let step := sampleSize / K
  ((List.range (K - 1)).mapM fun i => samples[(i + 1) * step]?).map fun splitters =>
    splitters ++ [1000000]

/-- There is a splitter for each bucket. -/
theorem length_pickSplitters {samples splitters : List Int32} {K : Nat} (hK : 1 ≤ K)
    (h : pickSplitters samples K = some splitters) : splitters.length = K := by
  obtain ⟨picked, hpicked, rfl⟩ := Option.map_eq_some_iff.mp h
  have hlen := length_mapM hpicked
  simp only [List.length_append, hlen, List.length_range, List.length_singleton]
  omega

/-! ## The parts of the buckets -/

/-- What the `K` buckets are sent as their data: `size_per_task` values each, the last one
    the rest. -/
def slices (data : List Int32) (K : Nat) : List (List Int32) :=
  let sizePerTask := data.length / K
  (List.range K).map fun ki =>
    let current := ki * sizePerTask
    if ki + 1 < K then (data.drop current).take sizePerTask else data.drop current

/-- What a `RefTwoDimIntArrayMsg` refers to: for each of `size` arrays its length and its
    values. -/
structure SubArrays where
  counts : List Nat
  values : List (List Int32)

/-- The `counts` and `values` sent to bucket `ki`, from the messages in
    `buckets_values_arr`. -/
def gatherColumn (bucketsValuesArr : List SubArrays) (ki : Nat) : SubArrays where
  counts := bucketsValuesArr.map fun m => m.counts.getD ki 0
  values := bucketsValuesArr.map fun m => m.values.getD ki []

end TaskSystem.SampleSort
