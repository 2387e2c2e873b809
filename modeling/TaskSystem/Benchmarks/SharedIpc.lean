import TaskSystem.Library.CellRing
import TaskSystem.Library.Transition

/-!
# The Shared-Memory Buffer

`src/nano_benchmarking/ipc/shared_ipc/shared_ipc.c`: clients put numbers into a ring in shared
memory and a server takes them out, with one semaphore for the empty cells, one for the full
ones, and one as a mutex. Every statement is a step of its own. The server, whose
`thread_count` is positive, has got the segment and set the semaphores up before the clients, any
number of them, start, and `malloc` gives it the cells of its list.

## Contents

- `Point`, `Producer`, `Consumer`: where a process stands in its loop
- `SharedStuff`: the shared struct, the processes, and what has gone through the buffer
- `sendProc`, `recvProc`, `sharedIpc`: the steps, and all interleavings of them
-/

namespace TaskSystem.SharedIpc

open Library

/-- `BUFFER_SIZE` -/
def bufferSize : Nat := 10000

/-! ## The processes -/

/-- Where a process stands in the body of its loop. -/
inductive Point where
  /-- Before `sem_wait` on its own semaphore -/
  | wait
  /-- Before `sem_wait` on the mutex -/
  | lock
  /-- Before it accesses the cell -/
  | access
  /-- Before it moves `in` or `out` -/
  | move
  /-- Before it changes `count` -/
  | adjust
  /-- Before `sem_post` on the mutex -/
  | unlock
  /-- Before `sem_post` on the other side's semaphore -/
  | post
  /-- Before `Insert`, in the server only -/
  | insert
  deriving DecidableEq

/-- A client in `send_proc`. -/
structure Producer where
  updateCount : Int
  i : Nat
  point : Point

/-- The server in `recv_proc`. -/
structure Consumer where
  /-- `update_count*thread_count` -/
  rounds : Int
  updateSize : Int
  i : Nat
  item : Int
  point : Point

/-- `struct prod_cons_shared`, the processes, and the history of the buffer. `in` and `out` are
    never negative. -/
structure SharedStuff where
  semEmpty : Nat
  semFull : Nat
  semMutex : Nat
  inPos : Nat
  outPos : Nat
  count : Int
  buffer : Nat → Int
  producers : List Producer
  consumer : Consumer
  /-- The server's linked list -/
  list : List Int
  /-- The items put into the buffer, in that order, each with its producer -/
  produced : List (Nat × Int)
  /-- The items taken out -/
  taken : List Int

/-! ## The steps -/

namespace SharedStuff

/-- The `k`-th producer goes on from where `w` stands. -/
def sendProc (s : SharedStuff) (k : Nat) (w : Producer) : Option SharedStuff :=
  let goto (point : Point) := s.producers.set k { w with point := point }
  match w.point with
  | .wait =>
    if (w.i : Int) < w.updateCount ∧ 0 < s.semEmpty then
      some { s with semEmpty := s.semEmpty - 1, producers := goto .lock }
    else none
  | .lock =>
    if 0 < s.semMutex then some { s with semMutex := s.semMutex - 1, producers := goto .access }
    else none
  | .access =>
    some { s with
      buffer := Function.update s.buffer s.inPos w.i
      produced := s.produced ++ [(k, (w.i : Int))]
      producers := goto .move }
  | .move => some { s with inPos := (s.inPos + 1) % bufferSize, producers := goto .adjust }
  | .adjust => some { s with count := s.count + 1, producers := goto .unlock }
  | .unlock => some { s with semMutex := s.semMutex + 1, producers := goto .post }
  | .post =>
    some { s with
      semFull := s.semFull + 1
      producers := s.producers.set k { w with i := w.i + 1, point := .wait } }
  | .insert => none

/-- The server goes on. -/
def recvProc (s : SharedStuff) : Option SharedStuff :=
  let goto (point : Point) := { s.consumer with point := point }
  match s.consumer.point with
  | .wait =>
    if (s.consumer.i : Int) < s.consumer.rounds ∧ 0 < s.semFull then
      some { s with semFull := s.semFull - 1, consumer := goto .lock }
    else none
  | .lock =>
    if 0 < s.semMutex then some { s with semMutex := s.semMutex - 1, consumer := goto .access }
    else none
  | .access =>
    let item := s.buffer s.outPos
    some { s with
      taken := s.taken ++ [item]
      consumer := { goto .move with item := item } }
  | .move => some { s with outPos := (s.outPos + 1) % bufferSize, consumer := goto .adjust }
  | .adjust => some { s with count := s.count - 1, consumer := goto .unlock }
  | .unlock => some { s with semMutex := s.semMutex + 1, consumer := goto .post }
  | .post => some { s with semEmpty := s.semEmpty + 1, consumer := goto .insert }
  | .insert =>
    some { s with
      list := s.list ++ [s.consumer.updateSize]
      consumer := { goto .wait with i := s.consumer.i + 1 } }

end SharedStuff

/-- Which process goes on. -/
inductive Turn where
  | producer (k : Nat)
  | consumer

/-- After the server's initialisation, before any process has entered its loop. -/
def initialized (updateCounts : List Int) (rounds updateSize : Int) : SharedStuff where
  semEmpty := bufferSize
  semFull := 0
  semMutex := 1
  inPos := 0
  outPos := 0
  count := 0
  buffer _ := 0
  producers := updateCounts.map fun updateCount => ⟨updateCount, 0, .wait⟩
  consumer := ⟨rounds, updateSize, 0, 0, .wait⟩
  list := []
  produced := []
  taken := []

/-- All interleavings of the server and any number of clients. -/
def sharedIpc : System SharedStuff Turn where
  init s := ∃ updateCounts rounds updateSize, s = initialized updateCounts rounds updateSize
  step s
    | .producer k => (s.producers[k]?).bind (s.sendProc k)
    | .consumer => s.recvProc

/-! ## What the buffer is for -/

namespace SharedStuff

/-- What producer `k` has put into the buffer. -/
def itemsOf (s : SharedStuff) (k : Nat) : List Int :=
  (s.produced.filter fun e => e.1 = k).map Prod.snd

/-- All items, in the order of the producers' critical sections. -/
def items (s : SharedStuff) : List Int := s.produced.map Prod.snd

/-- **The buffer loses and duplicates nothing.** -/
structure Correct (s : SharedStuff) : Prop where
  /-- While the mutex is free, `count` counts the cells from `out` up to `in`. -/
  free : 0 < s.semMutex → 0 ≤ s.count ∧ s.count ≤ bufferSize ∧
    (s.inPos : Int) = (s.outPos + s.count) % bufferSize
  /-- Both indices stay in the array. -/
  inside : s.inPos < bufferSize ∧ s.outPos < bufferSize
  /-- Items that have not been taken are in their cells, -/
  kept : ∀ k item, s.taken.length ≤ k → s.items[k]? = some item →
    s.buffer (k % bufferSize) = item
  /-- and the cell a producer is about to write is none of these. -/
  apart : ∀ w ∈ s.producers, w.point = .access → ∀ k, s.taken.length ≤ k →
    k < s.produced.length → k % bufferSize ≠ s.inPos
  /-- The consumer has taken the oldest items, each once and in order. -/
  taken : s.taken <+: s.items
  /-- Every producer has put in its numbers from 0 on, each once and in order. -/
  once : ∀ k w, s.producers[k]? = some w →
    ∃ n, s.itemsOf k = (List.range n).map Nat.cast ∧ n ≤ w.updateCount.toNat
  /-- Every item comes from a producer. -/
  known : ∀ e ∈ s.produced, e.1 < s.producers.length

/-- The number of items all producers are to put in. -/
def total (s : SharedStuff) : Nat := CellRing.tally (fun w => w.updateCount.toNat) s.producers

/-- Every producer has put in all its items, and the consumer has taken all of them. -/
structure Complete (s : SharedStuff) : Prop where
  taken : s.taken = s.items
  produced : ∀ k w, s.producers[k]? = some w →
    s.itemsOf k = (List.range w.updateCount.toNat).map Nat.cast
  list : s.list.length = s.total

/-- No process can go on. -/
def Stuck (s : SharedStuff) : Prop := ∀ turn, sharedIpc.step s turn = none

end SharedStuff

end TaskSystem.SharedIpc
