import TaskSystem.MsgQueue.Post
import TaskSystem.System.Runtime

/-!
# Queues That Are Missing or Empty

The functions of `src/System/System.c` on an entry of `TaskTable`, where it may be NULL and its
queue may hold nothing. `Enqueue` and `IsEmpty` test the pointer before they use it, `Peek` and
`Dequeue` lock `Q->QLock` first, and `receive` neither acquires the queue nor gets past its
error report, which reads two fields of the message that is NULL.

## Contents

- `QueueTable`: what one process knows of the queues; `Abort`: how a call ends early
- `enqueueAt`, `peekAt`, `dequeueAt`, `isEmptyAt`: the queue's functions on a pointer
- `send`, `receive`, `dropMsg`, `getMsgTag`, `messageImmediate`
- `Reports`, `reports_iff`: which calls report a missing and an empty queue, and which do not
- `reports_fails`: a missing and an empty queue, and a NULL pointer dereferenced at each
- `Runtime.queueTable`: the tables of processes that share a system
-/

namespace TaskSystem

open Library Repository

/-! ## The state -/

/-- `this->TaskTable` of one process, and the segments it finds. -/
@[ext]
structure QueueTable where
  /-- The queue each entry points to; none for NULL -/
  taskTable : Fin maxTask → Option Segment
  /-- What `AcquireQueue` returns for `/TS_T<n>`: none where `shm_open` or `mmap` fails -/
  acquireQueue : Fin maxTask → Option Segment

/-- How a call ends that does not return. -/
inductive Abort where
  /-- It dereferences a `Queue` that is NULL. -/
  | nullQueue
  /-- It dereferences a `Message` that is NULL. -/
  | nullMessage
  /-- `exit(-1)` -/
  | exit

/-! ## The functions of the queue, on a pointer -/

/-- `pthread_mutex_lock(&(Q->QLock))` -/
def lockQueue : Option Segment → Except Abort Segment
  | none => .error .nullQueue
  | some Q => .ok Q

/-- `Enqueue` returns 0 for a NULL queue and for a NULL item. -/
def enqueueAt (base : UInt64) : Option Segment → Option Message → Option Segment × Int
  | some Q, some item =>
    let sent := enqueue base Q item
    (some sent.1, sent.2)
  | Q, _ => (Q, 0)

/-- `Peek`: `Q` is tested under its own lock. -/
def peekAt (Q : Option Segment) : Except Abort (Option Int) := do
  let Q ← lockQueue Q
  return peek Q

/-- `Dequeue`: `Q` is tested under its own lock. -/
def dequeueAt (P : Process) (Q : Option Segment) :
    Except Abort (Option Segment × Option Int) := do
  let Q ← lockQueue Q
  let taken := dequeue P Q
  return (some taken.1, taken.2)

/-- `IsEmpty` returns 0 for a NULL queue. -/
def isEmptyAt : Option Segment → Int
  | none => 0
  | some Q => isEmpty Q

/-- `msg->tid` or `msg->tag` -/
def messageField (msg : Option Int) (Q : Option Segment) (field : Int) : Except Abort Int32 :=
  match msg, Q with
  | some a, some Q => .ok (Q.mem.loadInt (a + field))
  | _, _ => .error .nullMessage

namespace QueueTable

/-! ## The functions of the system -/

/-- The table with another queue in an entry. -/
def setQueue (s : QueueTable) (taskID : Fin maxTask) (Q : Option Segment) : QueueTable :=
  { s with taskTable := Function.update s.taskTable taskID Q }

/-- `check_Q_and_acquire` -/
def checkQAndAcquire (s : QueueTable) (taskID : Fin maxTask) : QueueTable :=
  match s.taskTable taskID with
  | none => s.setQueue taskID (s.acquireQueue taskID)
  | some _ => s

/-- `send`, by a process that maps the queue of the target at `base` -/
def send (s : QueueTable) (base : UInt64) (msgData : Option Message)
    (targetTaskID : Fin maxTask) : Except Abort (Int × QueueTable) :=
  let s := s.checkQAndAcquire targetTaskID
  let sent := TaskSystem.enqueueAt base (s.taskTable targetTaskID) msgData
  .ok (sent.2, s.setQueue targetTaskID sent.1)

/-- `receive`, which takes the entry as it is; the clone is `none` where the record's `clone`
    leads to no function. -/
def receive (s : QueueTable) (P : Process) (targetTaskID : Fin maxTask) :
    Except Abort (Option AnyMsg × QueueTable) := do
  let (Q, msg) ← dequeueAt P (s.taskTable targetTaskID)
  match msg, Q with
  | some a, some Q => return (cloneAt P Q.mem a, s.setQueue targetTaskID Q)
  | _, _ =>
    -- the arguments of the error report are read before anything is printed
    let _ ← messageField msg Q 4
    let _ ← messageField msg Q 0
    .error .exit

/-- `dropMsg` -/
def dropMsg (s : QueueTable) (P : Process) (targetTaskID : Fin maxTask) :
    Except Abort QueueTable := do
  let s := s.checkQAndAcquire targetTaskID
  let (Q, _) ← dequeueAt P (s.taskTable targetTaskID)
  return s.setQueue targetTaskID Q

/-- `getMsgTag` -/
def getMsgTag (s : QueueTable) (targetTaskID : Fin maxTask) :
    Except Abort (Int32 × QueueTable) := do
  let s := s.checkQAndAcquire targetTaskID
  let msg ← peekAt (s.taskTable targetTaskID)
  match msg with
  | none => return (-1, s)
  | some a =>
    let tag ← messageField (some a) (s.taskTable targetTaskID) 0
    return (tag, s)

/-- `message_immediate`: 1 for "no message is available" -/
def messageImmediate (s : QueueTable) (taskID : Fin maxTask) :
    Except Abort (Int × QueueTable) :=
  let s := s.checkQAndAcquire taskID
  .ok (isEmptyAt (s.taskTable taskID), s)

/-- The calls of these functions on one task. -/
inductive Call where
  | send (base : UInt64) (msgData : Option Message)
  | receive (P : Process)
  | dropMsg (P : Process)
  | getMsgTag
  | messageImmediate

/-! ## What is to be reported -/

/-- The queue a call works on once it is acquired. -/
def queue? (s : QueueTable) (taskID : Fin maxTask) : Option Segment :=
  (s.checkQAndAcquire taskID).taskTable taskID

/-- The entry is NULL and there is no queue to acquire. -/
def Missing (s : QueueTable) (taskID : Fin maxTask) : Prop :=
  s.taskTable taskID = none ∧ s.acquireQueue taskID = none

/-- The queue holds no message, whether the entry points to it already or not. -/
def Empty (s : QueueTable) (taskID : Fin maxTask) : Prop :=
  ∃ Q, s.queue? taskID = some Q ∧ Q.q.size = 0

/-- `Enqueue` has nothing to put into the queue, or finds no place for it. -/
def Refuses (s : QueueTable) (taskID : Fin maxTask) (msgData : Option Message) : Prop :=
  ∀ Q item, s.queue? taskID = some Q → msgData = some item →
    predictTail Q.q item.msgSize.toInt = none

/-- **The call reports that there is nothing**: it returns the value for that, or takes its
    error exit. Where it returns, no queue is changed. -/
def Reports (s : QueueTable) (taskID : Fin maxTask) : Call → Prop
  | .send base msgData =>
    s.send base msgData taskID = .ok (0, s.checkQAndAcquire taskID)
  | .receive P => s.receive P taskID = .error .exit
  | .dropMsg P => s.dropMsg P taskID = .ok (s.checkQAndAcquire taskID)
  | .getMsgTag => s.getMsgTag taskID = .ok (-1, s.checkQAndAcquire taskID)
  | .messageImmediate => s.messageImmediate taskID = .ok (1, s.checkQAndAcquire taskID)

/-- The calls that do. -/
def ReportsWhen (s : QueueTable) (taskID : Fin maxTask) : Call → Prop
  | .send _ msgData => s.Refuses taskID msgData
  | .receive _ => False
  | .dropMsg _ | .getMsgTag | .messageImmediate => ¬s.Missing taskID

/-! ## The entry after `check_Q_and_acquire` -/

variable {s : QueueTable} {taskID : Fin maxTask} {Q : Segment}

@[simp] theorem setQueue_self (s : QueueTable) (taskID : Fin maxTask) (Q : Option Segment) :
    (s.setQueue taskID Q).taskTable taskID = Q :=
  Function.update_self ..

theorem setQueue_eq {Q : Option Segment} (h : s.taskTable taskID = Q) :
    s.setQueue taskID Q = s := by
  rw [setQueue, ← h, Function.update_eq_self]

theorem missing_iff : s.Missing taskID ↔ s.queue? taskID = none := by
  unfold Missing queue? checkQAndAcquire
  cases h : s.taskTable taskID with
  | none => simp
  | some Q => simp [h]

theorem missing_or_empty_cases (h : s.Missing taskID ∨ s.Empty taskID) :
    s.queue? taskID = none ∨ ∃ Q, s.queue? taskID = some Q ∧ Q.q.size = 0 :=
  h.imp_left missing_iff.mp

/-! ## One lemma for each call -/

theorem peek_of_empty (h : Q.q.size = 0) : peek Q = none := by
  rw [peek, if_pos h]

theorem dequeue_of_empty (P : Process) (h : Q.q.size = 0) : dequeue P Q = (Q, none) := by
  rw [dequeue, if_pos h]

/-- `send` never ends early. -/
theorem send_reports_iff (base : UInt64) (msgData : Option Message) :
    s.Reports taskID (.send base msgData) ↔ s.Refuses taskID msgData := by
  simp only [Reports, send, Refuses, Except.ok.injEq, Prod.mk.injEq]
  change _ ↔ ∀ Q item, (s.checkQAndAcquire taskID).taskTable taskID = some Q → _
  cases hQ : (s.checkQAndAcquire taskID).taskTable taskID with
  | none =>
    have hsame := setQueue_eq hQ
    simp [TaskSystem.enqueueAt, hsame]
  | some Q =>
    have hsame := setQueue_eq hQ
    cases msgData with
    | none => simp [TaskSystem.enqueueAt, hsame]
    | some item =>
      -- the return value is decided by the prediction
      cases hpredict : predictTail Q.q item.msgSize.toInt with
      | none => simp [TaskSystem.enqueueAt, enqueue, hpredict, hsame]
      | some p => simp [TaskSystem.enqueueAt, enqueue, hpredict]

/-- **`receive` never gets to its error exit**: a NULL entry is locked, and a NULL message is
    read. -/
theorem receive_not_reports (P : Process) : ¬s.Reports taskID (.receive P) := by
  intro hexit
  change s.receive P taskID = .error .exit at hexit
  simp only [receive] at hexit
  cases hQ : s.taskTable taskID with
  | none => simp [dequeueAt, lockQueue, hQ, bind, Except.bind] at hexit
  | some Q =>
    cases hmsg : (dequeue P Q).2 with
    | none => simp [dequeueAt, lockQueue, messageField, hQ, hmsg, bind, Except.bind, pure,
        Except.pure] at hexit
    | some a => simp [dequeueAt, lockQueue, hQ, hmsg, bind, Except.bind, pure,
        Except.pure] at hexit

theorem dropMsg_missing (P : Process) (h : s.queue? taskID = none) :
    s.dropMsg P taskID = .error .nullQueue := by
  have hQ : (s.checkQAndAcquire taskID).taskTable taskID = none := h
  simp only [dropMsg, hQ, dequeueAt, lockQueue, bind, Except.bind]

theorem dropMsg_empty (P : Process) (h : s.queue? taskID = some Q) (hempty : Q.q.size = 0) :
    s.dropMsg P taskID = .ok (s.checkQAndAcquire taskID) := by
  have hQ : (s.checkQAndAcquire taskID).taskTable taskID = some Q := h
  simp only [dropMsg, hQ, dequeueAt, lockQueue, dequeue_of_empty P hempty, bind, Except.bind,
    pure, Except.pure, setQueue_eq hQ]

theorem getMsgTag_missing (h : s.queue? taskID = none) :
    s.getMsgTag taskID = .error .nullQueue := by
  have hQ : (s.checkQAndAcquire taskID).taskTable taskID = none := h
  simp only [getMsgTag, hQ, peekAt, lockQueue, bind, Except.bind]

theorem getMsgTag_empty (h : s.queue? taskID = some Q) (hempty : Q.q.size = 0) :
    s.getMsgTag taskID = .ok (-1, s.checkQAndAcquire taskID) := by
  have hQ : (s.checkQAndAcquire taskID).taskTable taskID = some Q := h
  simp only [getMsgTag, hQ, peekAt, lockQueue, peek_of_empty hempty, bind, Except.bind,
    pure, Except.pure]

/-- A missing queue counts as one with a message. -/
theorem messageImmediate_missing (h : s.queue? taskID = none) :
    s.messageImmediate taskID = .ok (0, s.checkQAndAcquire taskID) := by
  have hQ : (s.checkQAndAcquire taskID).taskTable taskID = none := h
  simp only [messageImmediate, hQ, isEmptyAt]

theorem messageImmediate_empty (h : s.queue? taskID = some Q) (hempty : Q.q.size = 0) :
    s.messageImmediate taskID = .ok (1, s.checkQAndAcquire taskID) := by
  have hQ : (s.checkQAndAcquire taskID).taskTable taskID = some Q := h
  simp only [messageImmediate, hQ, isEmptyAt, isEmpty, hempty, if_true]

/-! ## Every call -/

/-- **Which calls report a missing or empty queue**: a `send` that is refused, and
    `dropMsg`, `getMsgTag` and `message_immediate` on a queue that exists. -/
theorem reports_iff (s : QueueTable) (taskID : Fin maxTask) (c : Call)
    (h : s.Missing taskID ∨ s.Empty taskID) : s.Reports taskID c ↔ s.ReportsWhen taskID c := by
  have hcases := missing_or_empty_cases h
  cases c with
  | send base msgData => exact send_reports_iff base msgData
  | receive P => exact iff_of_false (receive_not_reports P) not_false
  | dropMsg P =>
    rcases hcases with hnone | ⟨Q, hQ, hempty⟩
    · have hmissing : s.Missing taskID := missing_iff.mpr hnone
      simp [Reports, ReportsWhen, dropMsg_missing P hnone, hmissing]
    · have hthere : ¬s.Missing taskID := by simp [missing_iff, hQ]
      simp [Reports, ReportsWhen, dropMsg_empty P hQ hempty, hthere]
  | getMsgTag =>
    rcases hcases with hnone | ⟨Q, hQ, hempty⟩
    · have hmissing : s.Missing taskID := missing_iff.mpr hnone
      simp [Reports, ReportsWhen, getMsgTag_missing hnone, hmissing]
    · have hthere : ¬s.Missing taskID := by simp [missing_iff, hQ]
      simp [Reports, ReportsWhen, getMsgTag_empty hQ hempty, hthere]
  | messageImmediate =>
    rcases hcases with hnone | ⟨Q, hQ, hempty⟩
    · have hmissing : s.Missing taskID := missing_iff.mpr hnone
      simp [Reports, ReportsWhen, messageImmediate_missing hnone, hmissing]
    · have hthere : ¬s.Missing taskID := by simp [missing_iff, hQ]
      simp [Reports, ReportsWhen, messageImmediate_empty hQ hempty, hthere]

/-- A process that has not mapped any queue, and what it finds. -/
def unmapped (acquireQueue : Fin maxTask → Option Segment) : QueueTable where
  taskTable _ := none
  acquireQueue := acquireQueue

/-- On a queue that another process has just created `message_immediate` reports that there is
    no message and `send` takes one, while `receive` does not report anything. -/
theorem reports_iff_created :
    let s := unmapped fun _ => some (createQueue fun _ => 0)
    let taskID : Fin maxTask := ⟨1, by decide⟩
    s.Reports taskID .messageImmediate ∧
      ¬s.Reports taskID (.send 4096 (some (headerBar 72))) ∧
      ¬s.Reports taskID (.receive ⟨4096, .packed⟩) := by
  intro s taskID
  have hempty : s.Empty taskID := ⟨createQueue fun _ => 0, rfl, rfl⟩
  refine ⟨?_, ?_, ?_⟩
  · exact (reports_iff s taskID .messageImmediate (.inr hempty)).mpr fun hmissing => by
      cases hmissing.2
  · intro hreports
    have hrefuses := (reports_iff s taskID _ (.inr hempty)).mp hreports
    exact absurd (hrefuses (createQueue fun _ => 0) (headerBar 72) rfl rfl) (by decide)
  · exact (reports_iff s taskID (.receive ⟨4096, .packed⟩) (.inr hempty)).mp

/-- **A NULL pointer is dereferenced**: `getMsgTag` of a task whose queue does not exist locks
    NULL, and `receive` of a task whose queue is empty reads the `tid` of NULL. -/
theorem reports_fails :
    let taskID : Fin maxTask := ⟨5, by decide⟩
    let P : Process := ⟨0, .packed⟩
    let missing := unmapped fun _ => none
    let mapped : QueueTable := ⟨fun _ => some (createQueue fun _ => 0), fun _ => none⟩
    missing.Missing taskID ∧ missing.getMsgTag taskID = .error .nullQueue ∧
      ¬missing.Reports taskID .getMsgTag ∧
      mapped.Empty taskID ∧ mapped.receive P taskID = .error .nullMessage ∧
      ¬mapped.Reports taskID (.receive P) := by
  intro taskID P missing mapped
  have hlocks : missing.getMsgTag taskID = .error .nullQueue := getMsgTag_missing rfl
  refine ⟨⟨rfl, rfl⟩, hlocks, ?_, ⟨createQueue fun _ => 0, rfl, rfl⟩, rfl,
    receive_not_reports P⟩
  intro hreports
  have htag : missing.getMsgTag taskID = .ok (-1, missing.checkQAndAcquire taskID) := hreports
  rw [hlocks] at htag
  cases htag

end QueueTable

/-! ## Processes that share a system -/

namespace Runtime

/-- The table of process `p`: where an entry is set, it points to the segment of that task. -/
def queueTable (s : Runtime) (p : Nat) : QueueTable where
  taskTable taskID := if (s.table p).any fun table => table taskID then s.queues taskID else none
  acquireQueue taskID := s.queues taskID

variable {s : Runtime} {p : Nat} {taskID : Fin maxTask}

/-- An event that acquires a queue does in the table what `check_Q_and_acquire` does. -/
theorem queueTable_checkQAndAcquire (hp : (s.table p).isSome) :
    (s.checkQAndAcquire p taskID).queueTable p = (s.queueTable p).checkQAndAcquire taskID := by
  obtain ⟨table, htable⟩ := Option.isSome_iff_exists.mp hp
  have hentry : ((s.checkQAndAcquire p taskID).queueTable p).taskTable =
      Function.update (s.queueTable p).taskTable taskID (s.queues taskID) := by
    funext i
    by_cases hi : i = taskID
    · subst hi
      cases hQ : s.queues i <;> simp [queueTable, checkQAndAcquire, htable, hQ]
    · have hne : (i : Nat) ≠ taskID := fun heq => hi (Fin.ext heq)
      simp [queueTable, checkQAndAcquire, htable, hi, hne]
  unfold QueueTable.checkQAndAcquire
  cases hQ : (s.queueTable p).taskTable taskID with
  | none => exact QueueTable.ext hentry rfl
  | some Q =>
    refine QueueTable.ext ?_ rfl
    -- an entry that is set points to the segment of that name
    have hqueue : s.queues taskID = some Q := by
      simp only [queueTable] at hQ
      split at hQ
      · exact hQ
      · cases hQ
    have hself := Function.update_eq_self taskID (s.queueTable p).taskTable
    rw [hQ] at hself
    rw [hentry, hqueue]
    exact hself

/-- The queues a process sees after a `send` event are those that `send` leaves. -/
theorem queueTable_send (hp : (s.table p).isSome) (base : UInt64) (msg : AnyMsg) :
    ∃ sent s', (s.queueTable p).send base (some msg.toMessage) taskID = .ok (sent, s') ∧
      (((s.checkQAndAcquire p taskID).enqueueAt taskID base msg).queueTable p).taskTable =
        s'.taskTable := by
  refine ⟨_, _, rfl, ?_⟩
  rw [← queueTable_checkQAndAcquire hp]
  obtain ⟨table, htable⟩ := Option.isSome_iff_exists.mp hp
  funext i
  by_cases hi : i = taskID
  · subst hi
    cases hQ : s.queues i <;>
      simp [queueTable, checkQAndAcquire, enqueueAt, htable, hQ, TaskSystem.enqueueAt]
  · have hne : (i : Nat) ≠ taskID := fun heq => hi (Fin.ext heq)
    simp [queueTable, checkQAndAcquire, enqueueAt, QueueTable.setQueue, hi, hne]

end Runtime
end TaskSystem
