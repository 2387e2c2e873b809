import TaskSystem.Library.Transition
import TaskSystem.MsgQueue.CircularMsgQ
import TaskSystem.System.Repository

/-!
# Processes That Share a System

Processes that create or acquire the system (`src/System/System.c`) and then create tasks in
it. The counter of task IDs and its mutex lie in a shared segment, the queue of task `n` in the
segment `/TS_T<n>`, and every process has a table of the queues it has mapped.

Creating a task takes several steps: the three under `TaskIDLock` in `getNextTaskID`, and then
`createMsgQ`. `System_create` and `CreateQueue` open their segment with `O_CREAT` alone, so they
reset one that exists.

## Contents

- `Runtime`, `RuntimeEvent`: processes, shared state, and their steps
- `checkQAndAcquire`, `create`, `createMsgQ`, ...: what each function does to the state
- `step`, `indices`, `runtime`: the transition system, and the table entries a step uses
- `Moves`, `step_moves`: what each step can do
- `createTask`: the steps of one creation
-/

namespace TaskSystem

open Library Repository

/-! ## The state -/

/-- Where a thread stands in `getNextTaskID`. -/
inductive AllocationPoint where
  /-- It has got `TaskIDLock` -/
  | locked
  /-- It has read `nextTaskID` -/
  | read (nextID : UInt32)
  /-- It has incremented `nextTaskID` -/
  | incremented (nextID : UInt32)
  deriving DecidableEq

/-- A thread inside `getNextTaskID`. -/
structure Allocation where
  process : Nat
  point : AllocationPoint

/-- A task that has got its ID and not ended yet. -/
structure RunningTask where
  process : Nat
  taskID : UInt32
  /-- Its `createMsgQ` has returned -/
  ready : Bool

/-- The processes and what they share. -/
structure Runtime where
  /-- `data->nextTaskID`; none while the system's segment does not exist -/
  nextTaskID : Option UInt32
  /-- `data->TaskIDLock` -/
  taskIDLocked : Bool
  /-- `data->task_name` and what follows it -/
  names : Mem
  /-- The segments `/TS_T<n>` that exist -/
  queues : Nat → Option Segment
  /-- `TaskTable[n] != NULL` in each process; none in one that has no system yet -/
  table : Nat → Option (Nat → Bool)
  allocations : List Allocation
  tasks : List RunningTask
  /-- All IDs that `getNextTaskID` has returned so far -/
  known : List Nat
  /-- The IDs whose queue has been created since the last `System_create` -/
  opened : List Nat

inductive RuntimeEvent where
  /-- `System_create` in a process -/
  | create (p : Nat)
  /-- `System_acquire` in a process -/
  | acquire (p : Nat)
  /-- A thread of the process enters `getNextTaskID` -/
  | lockTaskID (p : Nat)
  | readTaskID (j : Nat)
  | incrementTaskID (j : Nat)
  | unlockTaskID (j : Nat)
  /-- `createMsgQ` for the task at a position of `tasks` -/
  | createMsgQ (k : Nat)
  /-- The task ends -/
  | finish (k : Nat)
  /-- `send` to an ID, in a process that maps the segment at `base` -/
  | send (p taskID : Nat) (base : UInt64) (msg : AnyMsg)
  /-- `receive` or `dropMsg` of a task on its own queue -/
  | dequeue (k : Nat) (P : Process)
  /-- `message_notify` of a task, up to the test of its queue -/
  | messageNotify (k : Nat)
  /-- `repository_set_name` for a task -/
  | setName (k : Nat) (name : List UInt8)
  /-- A pass of `loop_wait_signal` -/
  | signalPass (p : Nat)

namespace Runtime

/-! ## The functions -/

/-- `check_Q_and_acquire`: the entry stays NULL while the segment does not exist. -/
def checkQAndAcquire (s : Runtime) (p taskID : Nat) : Runtime :=
  { s with
    table := Function.update s.table p ((s.table p).map fun table =>
      Function.update table taskID (table taskID || (s.queues taskID).isSome)) }

/-- `System_initialize` -/
def systemInitialize (s : Runtime) (p : Nat) : Runtime :=
  { s with table := Function.update s.table p (some fun _ => false) }

/-- `System_create`: it opens the segment whether it exists or not. -/
def create (s : Runtime) (p : Nat) : Runtime :=
  { s.systemInitialize p with
    -- the counter starts again, also for a system that is in use
    nextTaskID := some 1
    taskIDLocked := false
    names := Repository.create s.names
    opened := [] }

/-- `CreateQueue` on the segment `/TS_T<taskID>`; a new segment is filled with zeros. -/
def createQueue (s : Runtime) (taskID : Nat) : Runtime :=
  { s with
    queues := Function.update s.queues taskID
      -- head, tail and size are reset; what lay in the segment stays there
      (some (TaskSystem.createQueue (((s.queues taskID).map Segment.mem).getD fun _ => 0)))
    opened := taskID :: s.opened }

/-- `createMsgQ` of the task at position `k` -/
def createMsgQ (s : Runtime) (k : Nat) (task : RunningTask) : Runtime :=
  let s := s.createQueue task.taskID.toNat
  { s with
    table := Function.update s.table task.process ((s.table task.process).map fun table =>
      Function.update table task.taskID.toNat true)
    tasks := s.tasks.set k { task with ready := true } }

/-- `send` after `check_Q_and_acquire`: `Enqueue` returns 0 for a NULL queue. -/
def enqueueAt (s : Runtime) (taskID : Nat) (base : UInt64) (msg : AnyMsg) : Runtime :=
  { s with
    queues := Function.update s.queues taskID
      ((s.queues taskID).map fun Q => (enqueue base Q msg.toMessage).1) }

def dequeueAt (s : Runtime) (taskID : Nat) (P : Process) : Runtime :=
  { s with
    queues := Function.update s.queues taskID
      ((s.queues taskID).map fun Q => (dequeue P Q).1) }

/-- One step of `getNextTaskID`. -/
def moveTo (s : Runtime) (j : Nat) (a : Allocation) (point : AllocationPoint) : Runtime :=
  { s with allocations := s.allocations.set j { a with point := point } }

/-- `data->nextTaskID++` -/
def increment (s : Runtime) (j : Nat) (a : Allocation) (nextID n : UInt32) : Runtime :=
  { s.moveTo j a (.incremented nextID) with nextTaskID := some (n + 1) }

/-- `getNextTaskID` returns. -/
def handOut (s : Runtime) (j : Nat) (a : Allocation) (nextID : UInt32) : Runtime :=
  { s with
    taskIDLocked := false
    allocations := s.allocations.eraseIdx j
    tasks := s.tasks ++ [⟨a.process, nextID, false⟩]
    known := nextID.toNat :: s.known }

/-- The next state. An access outside the tables, which in the program overwrites what lies
    behind them, is let pass here; `indices` shows it. -/
def step (s : Runtime) : RuntimeEvent → Option Runtime
  | .create p => some (s.create p)
  | .acquire p => s.nextTaskID.map fun _ => s.systemInitialize p
  | .lockTaskID p =>
    if s.taskIDLocked = false ∧ (s.table p).isSome then
      some { s with taskIDLocked := true, allocations := s.allocations ++ [⟨p, .locked⟩] }
    else none
  -- `int nextID = data->nextTaskID`
  | .readTaskID j =>
    match s.allocations[j]?, s.nextTaskID with
    | some ⟨p, .locked⟩, some nextID => some (s.moveTo j ⟨p, .locked⟩ (.read nextID))
    | _, _ => none
  | .incrementTaskID j =>
    match s.allocations[j]?, s.nextTaskID with
    | some ⟨p, .read nextID⟩, some n => some (s.increment j ⟨p, .read nextID⟩ nextID n)
    | _, _ => none
  | .unlockTaskID j =>
    match s.allocations[j]? with
    | some ⟨p, .incremented nextID⟩ => some (s.handOut j ⟨p, .incremented nextID⟩ nextID)
    | _ => none
  | .createMsgQ k =>
    match s.tasks[k]? with
    | some task => if task.ready then none else some (s.createMsgQ k task)
    | none => none
  | .finish k => if k < s.tasks.length then some { s with tasks := s.tasks.eraseIdx k } else none
  | .send p taskID base msg =>
    if (s.table p).isSome ∧ taskID ∈ s.known then
      some ((s.checkQAndAcquire p taskID).enqueueAt taskID base msg)
    else none
  -- the task's own queue has to be mapped before it is read
  | .dequeue k P =>
    match s.tasks[k]? with
    | some task => if task.ready then
        some ((s.checkQAndAcquire task.process task.taskID.toNat).dequeueAt task.taskID.toNat P)
      else none
    | none => none
  | .messageNotify k =>
    match s.tasks[k]? with
    | some task => if task.ready then
        some (s.checkQAndAcquire task.process task.taskID.toNat)
      else none
    | none => none
  | .setName k name =>
    match s.tasks[k]? with
    | some task => some { s with names := Repository.setName s.names name task.taskID.toNat }
    | none => none
  | .signalPass p => if (s.table p).isSome then some s else none

/-- The entries of `TaskTable`, `sleepers` and `task_name` that a step uses. A pass of
    `loop_wait_signal` goes from 0 up to the `int` it has read. -/
def indices (s : Runtime) : RuntimeEvent → List Nat
  | .createMsgQ k | .dequeue k _ | .messageNotify k | .setName k _ =>
    (s.tasks[k]?.map fun task => task.taskID.toNat).toList
  | .send _ taskID _ _ => [taskID]
  | .signalPass _ =>
    List.range (((s.nextTaskID.map fun n : UInt32 => n.toInt32.toInt).getD 0).toNat)
  | _ => []

/-- No process has run yet. -/
def boot (names : Mem) : Runtime where
  nextTaskID := none
  taskIDLocked := false
  names := names
  queues _ := none
  table _ := none
  allocations := []
  tasks := []
  known := []
  opened := []

end Runtime

/-- All runs of processes that share a system. -/
def runtime : System Runtime RuntimeEvent where
  init s := ∃ names, s = .boot names
  step := Runtime.step

namespace Runtime

/-- What each step does when it is taken, and what it has found. -/
inductive Moves (s : Runtime) : RuntimeEvent → Runtime → Prop where
  | create (p : Nat) : Moves s (.create p) (s.create p)
  | acquire (p : Nat) {n : UInt32} (hn : s.nextTaskID = some n) :
    Moves s (.acquire p) (s.systemInitialize p)
  | lockTaskID {p : Nat} (hfree : s.taskIDLocked = false) (htable : (s.table p).isSome) :
    Moves s (.lockTaskID p)
      { s with taskIDLocked := true, allocations := s.allocations ++ [⟨p, .locked⟩] }
  | readTaskID {j p : Nat} {nextID : UInt32} (ha : s.allocations[j]? = some ⟨p, .locked⟩)
    (hn : s.nextTaskID = some nextID) :
    Moves s (.readTaskID j) (s.moveTo j ⟨p, .locked⟩ (.read nextID))
  | incrementTaskID {j p : Nat} {nextID n : UInt32}
    (ha : s.allocations[j]? = some ⟨p, .read nextID⟩) (hn : s.nextTaskID = some n) :
    Moves s (.incrementTaskID j) (s.increment j ⟨p, .read nextID⟩ nextID n)
  | unlockTaskID {j p : Nat} {nextID : UInt32}
    (ha : s.allocations[j]? = some ⟨p, .incremented nextID⟩) :
    Moves s (.unlockTaskID j) (s.handOut j ⟨p, .incremented nextID⟩ nextID)
  | createMsgQ {k : Nat} {task : RunningTask} (htask : s.tasks[k]? = some task)
    (hnew : task.ready = false) : Moves s (.createMsgQ k) (s.createMsgQ k task)
  | finish {k : Nat} (hk : k < s.tasks.length) :
    Moves s (.finish k) { s with tasks := s.tasks.eraseIdx k }
  | send {p taskID : Nat} (base : UInt64) (msg : AnyMsg) (htable : (s.table p).isSome)
    (hknown : taskID ∈ s.known) :
    Moves s (.send p taskID base msg) ((s.checkQAndAcquire p taskID).enqueueAt taskID base msg)
  | dequeue {k : Nat} {task : RunningTask} (P : Process) (htask : s.tasks[k]? = some task)
    (hready : task.ready = true) :
    Moves s (.dequeue k P)
      ((s.checkQAndAcquire task.process task.taskID.toNat).dequeueAt task.taskID.toNat P)
  | messageNotify {k : Nat} {task : RunningTask} (htask : s.tasks[k]? = some task)
    (hready : task.ready = true) :
    Moves s (.messageNotify k) (s.checkQAndAcquire task.process task.taskID.toNat)
  | setName {k : Nat} {task : RunningTask} (name : List UInt8)
    (htask : s.tasks[k]? = some task) :
    Moves s (.setName k name)
      { s with names := Repository.setName s.names name task.taskID.toNat }
  | signalPass {p : Nat} (htable : (s.table p).isSome) : Moves s (.signalPass p) s

/-- **Every step is one of these.** -/
theorem step_moves {s s' : Runtime} {e : RuntimeEvent} (hs : s.step e = some s') :
    s.Moves e s' := by
  cases e with
  | create p =>
    obtain rfl := Option.some.inj hs
    exact .create p
  | acquire p =>
    obtain ⟨n, hn, rfl⟩ := Option.map_eq_some_iff.mp hs
    exact .acquire p hn
  | lockTaskID p =>
    simp only [step] at hs
    split at hs <;> cases hs
    case isTrue.refl hfree => exact .lockTaskID hfree.1 hfree.2
  | readTaskID j =>
    simp only [step] at hs
    split at hs <;> cases hs
    case h_1 p nextID ha hn => exact .readTaskID ha hn
  | incrementTaskID j =>
    simp only [step] at hs
    split at hs <;> cases hs
    case h_1 p nextID n ha hn => exact .incrementTaskID ha hn
  | unlockTaskID j =>
    simp only [step] at hs
    split at hs <;> cases hs
    case h_1 p nextID ha => exact .unlockTaskID ha
  | createMsgQ k =>
    simp only [step] at hs
    split at hs
    case h_2 => cases hs
    case h_1 task htask =>
      split at hs <;> cases hs
      case isFalse hnew => exact .createMsgQ htask (Bool.not_eq_true _ ▸ hnew)
  | finish k =>
    simp only [step] at hs
    split at hs <;> cases hs
    case isTrue.refl hk => exact .finish hk
  | send p taskID base msg =>
    simp only [step] at hs
    split at hs <;> cases hs
    case isTrue.refl hknown => exact .send base msg hknown.1 hknown.2
  | dequeue k P =>
    simp only [step] at hs
    split at hs
    case h_2 => cases hs
    case h_1 task htask =>
      split at hs <;> cases hs
      case isTrue hready => exact .dequeue P htask hready
  | messageNotify k =>
    simp only [step] at hs
    split at hs
    case h_2 => cases hs
    case h_1 task htask =>
      split at hs <;> cases hs
      case isTrue hready => exact .messageNotify htask hready
  | setName k name =>
    simp only [step] at hs
    split at hs <;> cases hs
    case h_1 task htask => exact .setName name htask
  | signalPass p =>
    simp only [step] at hs
    split at hs <;> cases hs
    case isTrue.refl htable => exact .signalPass htable

/-- The steps that create the next task, in a process whose other tasks are created already. -/
def createTask (p k : Nat) : List RuntimeEvent :=
  [.lockTaskID p, .readTaskID 0, .incrementTaskID 0, .unlockTaskID 0, .createMsgQ k]

end Runtime

end TaskSystem
