import TaskSystem.Tasks.SampleSortTask

/-!
# A Bucket of a Sample Sort

The computations of `src/Tasks/BucketTask/BucketTask.c`: distributing the bucket's slice of
the data by splitter, in one pass that counts and one that fills, and rebuilding the
bucket's final array from what all buckets published for it.

## Contents

- `findSplitter`: the inner loop of both passes
- `countPass`, `fillPass`, `subArrays`
- `rebuild`, `finalDataValues`
-/

namespace TaskSystem.SampleSort

open Library

/-- `buckettask_cmpfunc` -/
def buckettaskCmpfunc (a b : Int32) : Int32 := a - b

/-- The inner loop of both passes: the first splitter not below the value, or the last one. -/
def findSplitter (val : Int32) : List Int32 → Option Nat
  | [] => none
  | splitter :: splitters =>
    if val ≤ splitter then some 0
    else if splitters = [] then some 0
    else (findSplitter val splitters).map (· + 1)

/-- One round of the first pass on `counts`. -/
def countStep (splitters : List Int32) (counts : List Nat) (val : Int32) : List Nat :=
  match findSplitter val splitters with
  | some si => counts.modify si (· + 1)
  | none => counts

/-- 1) get count -/
def countPass (bucketCount : Nat) (splitters dataRef : List Int32) : List Nat :=
  dataRef.foldl (countStep splitters) (List.replicate bucketCount 0)

/-- One round of the second pass on `values_to_propagate` and `current`. -/
def fillStep (splitters : List Int32) (s : List (List Int32) × List Nat) (val : Int32) :
    List (List Int32) × List Nat :=
  match findSplitter val splitters with
  | some si =>
    (s.1.modify si fun cells => cells.set (s.2.getD si 0) val, s.2.modify si (· + 1))
  | none => s

/-- 2) fill array. The arrays are allocated with the lengths counted; `uninit` is what their
    cells contain before they are written. -/
def fillPass (bucketCount : Nat) (splitters dataRef : List Int32) (counts : List Nat)
    (uninit : Nat → Nat → Int32) : List (List Int32) :=
  let valuesToPropagate := (List.range bucketCount).map fun i =>
    (List.range (counts.getD i 0)).map (uninit i)
  (dataRef.foldl (fillStep splitters) (valuesToPropagate, List.replicate bucketCount 0)).1

/-- 3) what is sent to the root -/
def subArrays (bucketCount : Nat) (splitters dataRef : List Int32) (uninit : Nat → Nat → Int32) :
    SubArrays :=
  let counts := countPass bucketCount splitters dataRef
  { counts, values := fillPass bucketCount splitters dataRef counts uninit }

/-- `handle_SetSubArrayMsg`: the arrays one after another, `counts[i]` values of each. -/
def rebuild (m : SubArrays) : List Int32 :=
  (m.counts.zip m.values).flatMap fun (count, values) => values.take count

/-- The final sorting. -/
def finalDataValues (qsort : Qsort Int32) (m : SubArrays) : List Int32 :=
  qsort.sort buckettaskCmpfunc (rebuild m)

end TaskSystem.SampleSort
