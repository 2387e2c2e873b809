import Mathlib.Algebra.BigOperators.Group.List.Basic
import TaskSystem.Benchmarks.LinkedList.Refinement
import TaskSystem.Library.Transition

/-!
# Threads That Add to One List

`src/nano_benchmarking/inproc/pthread_inproc/pthread_inproc.c`: threads put numbers at the end of
one linked list, which a mutex guards, and `main` starts them and waits for them. Every statement
is a step of its own, those of `Insert` included, and the threads take their steps in any order.
`thread_count`, the length of an array in `main`, is positive, and the `malloc` of `MakeEmpty`, for
the header that the threads share, succeeds.

## Contents

- `Point`, `Adder`, `MainPoint`, `State`: the threads and what they share
- `addProc`, `main`, `inproc`: the steps, and all interleavings of them
- `FreshBlocks`: what `malloc` promises
-/

namespace TaskSystem.PthreadInproc

open Library Library.Heap LinkedList

/-- The arguments of the program. -/
structure Parameters where
  threadCount : Int
  updateCount : Int
  updateSize : Int32

/-- Where a thread stands in `add_proc`. -/
inductive Point where
  /-- Before the test of its loop -/
  | loop
  /-- Before `pthread_mutex_lock` -/
  | lock
  /-- Before `malloc` in `Insert` -/
  | alloc
  /-- Before `TmpCell->Element = X` -/
  | element (P TmpCell : UInt64)
  /-- Before `TmpCell->Next = P->Next` -/
  | next (P TmpCell : UInt64)
  /-- Before `P->Next = TmpCell` -/
  | link (P TmpCell : UInt64)
  /-- Before `pos = Advance(pos)` -/
  | advance
  /-- Before `pthread_mutex_unlock` -/
  | unlock
  | exited
  deriving DecidableEq

/-- A thread in `add_proc`. -/
structure Adder where
  i : Nat
  point : Point

/-- Where `main` stands, once it has made the list. -/
inductive MainPoint where
  /-- Before it creates thread `i` -/
  | create (i : Nat)
  /-- Before it joins thread `i` -/
  | join (i : Nat)
  | done
  deriving DecidableEq

/-- Why the process has ended early. -/
inductive Ending where
  /-- `Error creating client %d thread`, and `main` returns -1. -/
  | createFailed (i : Nat)
  /-- `Error joining`, and `main` returns 0. -/
  | joinFailed
  | fatalError (text : String)

/-- The global variables, the memory and the threads. -/
structure State where
  nodes : Nodes
  list : UInt64
  pos : UInt64
  /-- The thread that has locked the mutex -/
  holder : Option Nat
  threads : List Adder
  main : MainPoint
  ended : Option Ending

namespace State

variable (par : Parameters) (s : State)

/-- Thread `k`, which was `t`, goes on from another point. -/
def goto (k : Nat) (t : Adder) (point : Point) : State :=
  { s with threads := s.threads.set k { t with point := point } }

/-- Thread `k` accesses the list; `none` when that is undefined. -/
def access {α : Type} (k : Nat) (t : Adder) (p : ListM α) (point : α → Point) : Option State :=
  match p s.nodes with
  | .ok (a, nodes) => some { s.goto k t (point a) with nodes }
  | .error (.fatalError text) => some { s with ended := some (.fatalError text) }
  | .error _ => none

/-- A step of `add_proc` in thread `k`; `malloc` returns `b` if this step calls it. -/
def addProc (b : Block) (k : Nat) (t : Adder) : Option State :=
  match t.point with
  | .loop => some (s.goto k t (if (t.i : Int) < par.updateCount then .lock else .exited))
  | .lock => if s.holder = none then some { s.goto k t .alloc with holder := some k } else none
  -- `Insert(update_size, list, pos)`
  | .alloc => s.access k t (malloc b "Out of space!!!") fun TmpCell => .element s.pos TmpCell
  | .element P TmpCell =>
    s.access k t (setElement TmpCell par.updateSize) fun _ => .next P TmpCell
  | .next P TmpCell => s.access k t (do setNext TmpCell (← node P).next) fun _ => .link P TmpCell
  | .link P TmpCell => s.access k t (setNext P TmpCell) fun _ => .advance
  | .advance =>
    match LinkedList.advance s.pos s.nodes with
    | .ok (P, _) => some { s.goto k t .unlock with pos := P }
    | .error _ => none
  | .unlock =>
    if s.holder = some k then
      some { s with holder := none, threads := s.threads.set k ⟨t.i + 1, .loop⟩ }
    else none
  | .exited => none

/-- A step of `main`; `ok` says whether the function of the threads that it calls succeeds. -/
def mainStep (ok : Bool) : Option State :=
  match s.main with
  | .create i =>
    if (i : Int) < par.threadCount then
      if ok then
        some { s with threads := s.threads ++ [⟨0, .loop⟩], main := .create (i + 1) }
      else some { s with ended := some (.createFailed i) }
    else some { s with main := .join 0 }
  | .join i =>
    if (i : Int) < par.threadCount then
      if ok then
        -- `pthread_join` waits for the thread
        if (s.threads[i]?).map Adder.point = some .exited then
          some { s with main := .join (i + 1) }
        else none
      else some { s with ended := some .joinFailed }
    else some { s with main := .done }
  | .done => none

end State

/-- Who goes on. -/
inductive Turn where
  | main
  | thread (k : Nat)

/-- What the functions called in a step return, if it calls any. -/
structure Answer where
  ok : Bool
  block : Block

def State.step (par : Parameters) (s : State) (e : Turn × Answer) : Option State :=
  if s.ended.isSome then none
  else
    match e.1 with
    | .main => s.mainStep par e.2.ok
    | .thread k => (s.threads[k]?).bind (s.addProc par e.2.block k)

/-- All interleavings of `main` and the threads, from the list that `main` has made. -/
def inproc (par : Parameters) : System State (Turn × Answer) where
  init s := ∃ b nodes, Gives (makeEmpty 0 null b) (fun _ => none) b.address nodes ∧
    s = ⟨nodes, b.address, b.address, none, [], .create 0, none⟩
  step := State.step par

/-- `malloc` returns `NULL` or a block that is not in use. -/
def FreshBlocks (s : State) (e : Turn × Answer) : Prop :=
  match e.1 with
  | .main => True
  | .thread k => (s.threads[k]?).map Adder.point = some .alloc → e.2.block.address ≠ null →
      s.nodes e.2.block.address = none

instance (s : State) (e : Turn × Answer) : Decidable (FreshBlocks s e) :=
  match e with
  | (.main, _) => .isTrue trivial
  | (.thread k, answer) =>
    inferInstanceAs (Decidable ((s.threads[k]?).map Adder.point = some .alloc →
      answer.block.address ≠ null → s.nodes answer.block.address = none))

end TaskSystem.PthreadInproc
