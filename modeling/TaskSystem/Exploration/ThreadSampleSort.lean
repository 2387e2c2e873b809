import Mathlib.Order.Defs.LinearOrder
import Mathlib.Order.Lattice
import TaskSystem.Library.Transition

/-!
# The Threaded Sample Sort

`src/exploration/samplesort/ss.py`: the sample sort in Python, with one thread for each task, a
lock around the samples, an event, and a barrier between sampling and swapping. What a thread does
under a lock is one step.

## Contents

- `pick`, `route`: the sampling loops, and the choice of a task for a value
- `Task`, `State`: where the threads and the main function stand
- `State.run`, `State.mainStep`, `samplesort`: the steps, and all interleavings of them
- `Input.Sorts`: what the sample sort is to do
-/

namespace TaskSystem.ThreadSampleSort

open Library

variable {α : Type*} [LinearOrder α]

/-! ## Lists -/

/-- Python's `sorted` -/
def sorted (xs : List α) : List α := xs.mergeSort fun a b => a ≤ b

/-- `range(0, n, step)` -/
def pyRange (n step : Nat) : List Nat := (List.range ((n + step - 1) / step)).map (· * step)

/-- The loop `for ni in range(0, n, step)` that collects `values[ni]`; `none` is an exception:
    a step of zero, or an index outside the list. -/
def pick (values : List α) (n step : Nat) : Option (List α) :=
  if step = 0 then none else (pyRange n step).mapM fun ni => values[ni]?

/-- The loop of `run` over the splitters from index `i` on. -/
def routeFrom (val : α) : Nat → List α → Option Nat
  | _, [] => none
  | i, splitter :: splitters =>
    if val < splitter then some (i - 1)
    else if splitters.isEmpty then some i
    else routeFrom val (i + 1) splitters

/-- The task that a value is sent to, if any: `for i in range(1, splitter_size)`. -/
def route (splitters : List α) (val : α) : Option Nat := routeFrom val 1 (splitters.drop 1)

/-! ## The input -/

/-- The arguments of `samplesort`; `N` is the length of the data. -/
structure Input (α : Type*) where
  data : List α
  K : Nat
  K_pos : 1 ≤ K
  K_le : K ≤ data.length

namespace Input

variable (x : Input α)

/-- `size_per_task = int(N/K)`. The quotient of two list lengths is exact enough in floating
    point: the address space holds no list of 2^53 references. -/
def sizePerTask : Nat := x.data.length / x.K

/-- `step = int(self.SN / self.K)` -/
def sampleStep : Nat := x.sizePerTask / x.K

/-- `data_to_task`: the last task takes the rest of the data. -/
def dataToTask (ki currentIndex : Nat) : List α :=
  (x.data.drop currentIndex).take x.sizePerTask ++
    if ki = x.K - 1 then x.data.drop (currentIndex + x.sizePerTask) else []

end Input

/-! ## The threads -/

/-- Where a thread stands in `run`. -/
inductive TaskPoint (α : Type*) where
  | start
  /-- Before it adds its samples to those of the others -/
  | send (sampleToSend : List α)
  /-- Before the barrier -/
  | barrier
  /-- At the barrier -/
  | waiting
  /-- Before it sends the rest of its values -/
  | swap (rest : List α)
  | done
  /-- Ended by an exception -/
  | failed

/-- `ss_task` -/
structure Task (α : Type*) where
  sample : List α
  splitters : Option (List α)
  data : List α
  point : TaskPoint α

/-- Where the main function stands in `samplesort`. -/
inductive MainPoint where
  /-- Before it creates task `ki` -/
  | spawn (ki currentIndex : Nat)
  /-- Before `root_sample_event.wait()` -/
  | waitEvent
  /-- Before it gives task `ki` the splitters -/
  | setSplitters (ki : Nat)
  | barrier
  | waiting
  /-- Before it joins task `ki` -/
  | join (ki : Nat)
  | done
  /-- In the exception handler -/
  | failed
  deriving DecidableEq

/-- The threads that have been created, and what they share with the main function. -/
structure State (α : Type*) where
  threads : List (Task α)
  rootSample : List α
  rootSampleReceived : Nat
  /-- `root_sample_event` is set. -/
  event : Bool
  /-- The threads at the barrier, or past it -/
  arrived : Nat
  /-- The list computed by the main function -/
  splitters : List α
  main : MainPoint

/-! ## The steps -/

/-- `insertValue` -/
def Task.insertValue (w : Task α) (newVal : α) : Task α :=
  { w with data := sorted (w.data ++ [newVal]) }

/-- The thread has ended: `join` returns. -/
def TaskPoint.ended : TaskPoint α → Bool
  | .done | .failed => true
  | _ => false

namespace State

variable (x : Input α) (s : State α)

/-- `run` of thread `k` goes on from where `w` stands. -/
def run (k : Nat) (w : Task α) : Option (State α) :=
  let goto (point : TaskPoint α) := s.threads.set k { w with point := point }
  match w.point with
  | .start =>
    let sample := sorted w.sample
    match pick sample x.sizePerTask x.sampleStep with
    | none =>
      some { s with threads := s.threads.set k { w with sample := sample, point := .failed } }
    | some sampleToSend =>
      some { s with
        threads := s.threads.set k { w with sample := sample, point := .send sampleToSend } }
  | .send sampleToSend =>
    some { s with
      rootSample := s.rootSample ++ sampleToSend
      rootSampleReceived := s.rootSampleReceived + 1
      event := s.event || s.rootSampleReceived + 1 == x.K
      threads := goto .barrier }
  | .barrier => some { s with arrived := s.arrived + 1, threads := goto .waiting }
  | .waiting =>
    if s.arrived = x.K + 1 then some { s with threads := goto (.swap w.sample) } else none
  | .swap [] => some { s with threads := goto .done }
  | .swap (val :: rest) =>
    match w.splitters with
    | none => some { s with threads := goto .failed }
    | some splitters =>
      match route splitters val with
      | none => some { s with threads := goto (.swap rest) }
      | some i =>
        match (goto (.swap rest))[i]? with
        | none => some { s with threads := goto .failed }
        | some target =>
          some { s with threads := (goto (.swap rest)).set i (target.insertValue val) }
  | .done | .failed => none

/-- `samplesort` goes on. -/
def mainStep : Option (State α) :=
  match s.main with
  | .spawn ki currentIndex =>
    if ki < x.K then
      some { s with
        threads := s.threads ++ [⟨x.dataToTask ki currentIndex, none, [], .start⟩]
        main := .spawn (ki + 1) (currentIndex + x.sizePerTask) }
    else some { s with main := .waitEvent }
  | .waitEvent =>
    if s.event then
      let rootSample := sorted s.rootSample
      match pick rootSample rootSample.length (rootSample.length / x.K) with
      | none => some { s with rootSample := rootSample, main := .failed }
      | some splitters =>
        some { s with rootSample := rootSample, splitters := splitters, main := .setSplitters 0 }
    else none
  | .setSplitters ki =>
    if ki < x.K then
      (s.threads[ki]?).map fun w =>
        { s with
          threads := s.threads.set ki { w with splitters := some s.splitters }
          main := .setSplitters (ki + 1) }
    else some { s with main := .barrier }
  | .barrier => some { s with arrived := s.arrived + 1, main := .waiting }
  | .waiting => if s.arrived = x.K + 1 then some { s with main := .join 0 } else none
  | .join ki =>
    if ki < x.K then
      (s.threads[ki]?).bind fun w =>
        if w.point.ended then some { s with main := .join (ki + 1) } else none
    else some { s with main := .done }
  | .done | .failed => none

end State

/-- Which thread goes on. -/
inductive Turn where
  | main
  | task (k : Nat)

/-- Before the first task is created. -/
def initialized : State α where
  threads := []
  rootSample := []
  rootSampleReceived := 0
  event := false
  arrived := 0
  splitters := []
  main := .spawn 0 0

/-- All interleavings of the main function and the threads. -/
def samplesort (x : Input α) : System (State α) Turn where
  init s := s = initialized
  step s
    | .main => s.mainStep x
    | .task k => (s.threads[k]?).bind (s.run x k)

/-! ## What the sample sort is for -/

/-- The splitters have been derived. -/
def MainPoint.derived : MainPoint → Bool
  | .spawn .. | .waitEvent | .failed => false
  | _ => true

namespace Input

variable (x : Input α)

/-- The samples of all tasks. -/
def allSamples : List α :=
  (List.range x.K).flatMap fun k =>
    (pick (sorted (x.dataToTask k (k * x.sizePerTask))) x.sizePerTask x.sampleStep).getD []

/-- **The sample sort sorts**, in whatever order the threads go on. -/
structure Sorts : Prop where
  /-- Neither step is zero. -/
  sampleStep : x.sampleStep ≠ 0
  splitterStep : ∀ s, (samplesort x).Reachable s → s.main.derived → s.rootSample.length / x.K ≠ 0
  /-- No exception is raised. -/
  defined : ∀ s, (samplesort x).Reachable s →
    s.main ≠ .failed ∧ ∀ w ∈ s.threads, w.point ≠ .failed
  /-- The samples of all tasks are gathered, -/
  gathered : ∀ s, (samplesort x).Reachable s → s.main.derived → s.rootSample.Perm x.allSamples
  /-- and there is one splitter for each task. -/
  splitters : ∀ s, (samplesort x).Reachable s → s.main.derived → s.splitters.length = x.K
  /-- Some thread can go on until the end, -/
  progress : ∀ s, (samplesort x).Reachable s → s.main ≠ .done →
    ∃ turn s', (samplesort x).step s turn = some s'
  /-- which comes after a bounded number of steps. -/
  bounded : ∃ n, ∀ turns s, (samplesort x).runFrom initialized turns = some s → turns.length ≤ n
  /-- In the end the tasks' data make up the sorted input. -/
  result : ∀ s, (samplesort x).Reachable s → s.main = .done →
    s.threads.flatMap (·.data) = sorted x.data

end Input

end TaskSystem.ThreadSampleSort
