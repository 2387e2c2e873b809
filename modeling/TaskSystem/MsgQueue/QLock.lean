import TaskSystem.Library.CriticalSection
import TaskSystem.MsgQueue.Refinement

/-!
# The Queue Lock

`src/MsgQueue/CircularMsgQ.c` statement by statement: what a thread does to the segment between
locking `QLock` and unlocking it, with the early exits. Any number of threads of any processes
call the functions at once; the functions as one step each, which is how the rest of the
development sees them, are what the threads observe.

## Contents

- `QLock.enqueue`, `QLock.dequeue`, `QLock.peek`, `QLock.isEmpty`: the programs
- `Answer`, `answer`: what a call returns, as one step
- `guarded`: each program is its step
- `queue_linearizable`: threads at work on one queue; `queue_call_returns`: none is locked out
-/

namespace TaskSystem

open Library

/-- What a function of the queue returns -/
inductive Answer where
  | int (n : Int)
  /-- The offset of a record, `none` for NULL -/
  | message (a : Option Int)
  deriving DecidableEq, Repr

namespace QLock

/-! ## The functions, statement by statement -/

/-- A write to the header -/
def modifyHeader (f : Queue → Queue) : Prog Segment PUnit := .modify fun Q => { Q with q := f Q.q }

/-- The end of a function: the queue is unlocked, then the function returns. -/
def unlockReturn (a : Answer) : Prog Segment Answer := .unlock (.ret a)

/-- Where `Enqueue` has decided where the record ends -/
def writeToFuture (base : UInt64) (item : Message) (futureTail hasToRollover : Int) :
    Prog Segment Answer := do
  .modify fun Q =>
    { Q with mem := item.writeAt base (futureTail - item.msgSize.toInt) Q.mem }
  modifyHeader fun q => { q with tail := toUnsigned futureTail }
  -- only dequeue can set rollover back to -1
  if hasToRollover > 0 then
    modifyHeader fun q => { q with rolloverPosition := hasToRollover }
  let Q ← .get
  modifyHeader fun q => { q with size := toUnsigned (Q.q.size + 1) }
  unlockReturn (.int 1)

/-- `Enqueue`, called in a process that maps the segment at `base` -/
def enqueue (base : UInt64) (item : Message) : Prog Segment Answer :=
  .lock do
    -- predict future tail position
    let Q ← .get
    let futureTail := toSigned (toUnsigned (Q.q.tail + item.msgSize.toInt))
    let Q ← .get
    if Q.q.rolloverPosition = -1 then
      if futureTail > queueSize then
        let futureTail := toSigned (sizeofQueue + item.msgSize.toInt)
        let Q ← .get
        let hasToRollover := toSigned Q.q.tail
        -- full array protection in case of overflow
        if hasToRollover ≠ -1 then
          let Q ← .get
          if toUnsigned futureTail > Q.q.head then unlockReturn (.int 0)
          else writeToFuture base item futureTail hasToRollover
        else writeToFuture base item futureTail hasToRollover
      else writeToFuture base item futureTail (-1)
    else
      -- already overflow
      let Q ← .get
      if toUnsigned futureTail > Q.q.head then unlockReturn (.int 0)
      else writeToFuture base item futureTail (-1)

/-- Where `Dequeue` has decided where the record is -/
def takeMessage (P : Process) (readPos : Int) : Prog Segment Answer := do
  let Q ← .get
  modifyHeader fun q =>
    { q with head := toUnsigned (readPos + (Q.mem.loadInt (readPos + 8)).toInt) }
  let Q ← .get
  modifyHeader fun q => { q with size := toUnsigned ((Q.q.size : Int) - 1) }
  -- rebind function
  let Q ← .get
  match rebinder (Q.mem.loadInt (readPos + 4)) with
  | some t =>
    .modify fun Q => { Q with mem := rebindAt P t readPos Q.mem }
    unlockReturn (.message (some readPos))
  | none => unlockReturn (.message none)

/-- `Dequeue`, in process `P` -/
def dequeue (P : Process) : Prog Segment Answer :=
  .lock do
    let Q ← .get
    if Q.q.size = 0 then unlockReturn (.message none)
    else
      let Q ← .get
      if Q.q.head = toUnsigned Q.q.rolloverPosition then
        modifyHeader fun q => { q with rolloverPosition := -1 }
        takeMessage P sizeofQueue
      else takeMessage P (toSigned Q.q.head)

/-- `Peek` -/
def peek : Prog Segment Answer :=
  .lock do
    let Q ← .get
    if Q.q.size = 0 then unlockReturn (.message none)
    else
      let Q ← .get
      if Q.q.head = toUnsigned Q.q.rolloverPosition then
        unlockReturn (.message (some sizeofQueue))
      else unlockReturn (.message (some (toSigned Q.q.head)))

/-- `IsEmpty` -/
def isEmpty : Prog Segment Answer :=
  .lock do
    let Q ← .get
    unlockReturn (.int (if Q.q.size = 0 then 1 else 0))

/-- The program of a call -/
def code : Call → Prog Segment Answer
  | .enqueue P item => enqueue P.base item
  | .dequeue P => dequeue P
  | .peek => peek
  | .isEmpty => isEmpty

end QLock

/-! ## The functions as one step -/

/-- What a call returns on `Q`, and the segment it leaves. -/
def answer : Call → Segment → Segment × Answer
  | .enqueue P item, Q => ((enqueue P.base Q item).1, .int (enqueue P.base Q item).2)
  | .dequeue P, Q => ((dequeue P Q).1, .message (dequeue P Q).2)
  | .peek, Q => (Q, .message (peek Q))
  | .isEmpty, Q => (Q, .int (isEmpty Q))

/-- The answer tells its caller that the event took place. -/
inductive Answer.Reports : Answer → Fifo.Event Record → Prop where
  | accepted (x : Record) : Reports (.int 1) (.accepted x)
  | refused : Reports (.int 0) .refused
  | removed {x : Record} {a : Int} (h : x.off = a) : Reports (.message (some a)) (.removed x)
  | removedNothing : Reports (.message none) .removedNothing
  | peeked {x : Record} {a : Int} (h : x.off = a) : Reports (.message (some a)) (.peeked x)
  | peekedNothing : Reports (.message none) .peekedNothing
  | tested (b : Bool) : Reports (.int (if b then 1 else 0)) (.tested b)

@[simp] theorem answer_fst (c : Call) (Q : Segment) : (answer c Q).1 = (call Q c).1 := by
  cases c with
  | enqueue P item => rfl
  | dequeue P =>
    simp only [answer, call]
    split <;> simp_all
  | peek =>
    simp only [answer, call]
    split <;> rfl
  | isEmpty => rfl

/-- What a call returns reports what it shows. -/
theorem answer_reports (c : Call) (Q : Segment) : (answer c Q).2.Reports (call Q c).2 := by
  cases c with
  | enqueue P item =>
    simp only [answer, call]
    unfold enqueue
    split
    · exact .refused
    · exact .accepted _
  | dequeue P =>
    simp only [answer, call]
    split
    case h_1 hdeq =>
      rw [hdeq]
      exact .removed rfl
    case h_2 hdeq =>
      rw [hdeq]
      exact .removedNothing
  | peek =>
    simp only [answer, call]
    split
    case h_1 hpeek =>
      rw [hpeek]
      exact .peeked rfl
    case h_2 hpeek =>
      rw [hpeek]
      exact .peekedNothing
  | isEmpty =>
    have h := Answer.Reports.tested (decide (isEmpty Q = 1))
    by_cases hsize : Q.q.size = 0 <;> simpa [answer, call, isEmpty, hsize] using h

/-! ## Each program is its step -/

namespace QLock

theorem leave_unlockReturn (a : Answer) (Q : Segment) :
    (unlockReturn a).leave Q = some (Q, a) := rfl

/-- The second half of `Enqueue`. -/
theorem leave_writeToFuture (base : UInt64) (item : Message) (futureTail hasToRollover : Int)
    (Q : Segment) :
    (writeToFuture base item futureTail hasToRollover).leave Q =
      some (
        { mem := item.writeAt base (futureTail - item.msgSize.toInt) Q.mem
          q :=
            { Q.q with
              tail := toUnsigned futureTail
              rolloverPosition :=
                if hasToRollover > 0 then hasToRollover else Q.q.rolloverPosition
              size := toUnsigned (Q.q.size + 1) } }, .int 1) := by
  by_cases hroll : hasToRollover > 0 <;>
    simp [writeToFuture, modifyHeader, unlockReturn, Prog.leave, hroll]

/-- The second half of `Dequeue`. -/
theorem leave_takeMessage (P : Process) (readPos : Int) (Q : Segment) :
    (takeMessage P readPos).leave Q =
      let q :=
        { Q.q with
          head := toUnsigned (readPos + (Q.mem.loadInt (readPos + 8)).toInt)
          size := toUnsigned ((Q.q.size : Int) - 1) }
      let Q' : Segment × Option Int :=
        match rebinder (Q.mem.loadInt (readPos + 4)) with
        | some t => ({ q, mem := rebindAt P t readPos Q.mem }, some readPos)
        | none => ({ q, mem := Q.mem }, none)
      some (Q'.1, .message Q'.2) := by
  cases hmap : rebinder (Q.mem.loadInt (readPos + 4)) <;>
    simp [takeMessage, modifyHeader, unlockReturn, Prog.leave, hmap]

/-- **Step**: on its way from locking to unlocking, every program does what its call does. -/
theorem leave_code (c : Call) :
    ∃ body, code c = .lock body ∧ ∀ Q, body.leave Q = some (answer c Q) := by
  cases c with
  | enqueue P item =>
    refine ⟨_, rfl, fun Q => ?_⟩
    simp only [Prog.get_bind, Prog.leave, id_eq, answer, TaskSystem.enqueue, predictTail]
    by_cases hroll : Q.q.rolloverPosition = -1
    · by_cases hend : toSigned (toUnsigned (Q.q.tail + item.msgSize.toInt)) > queueSize
      · by_cases htail : toSigned Q.q.tail = -1
        · simp [hroll, hend, htail, Prog.leave, leave_writeToFuture]
        · by_cases hfull : toUnsigned (toSigned (sizeofQueue + item.msgSize.toInt)) > Q.q.head
          · simp [hroll, hend, htail, hfull, Prog.leave, leave_unlockReturn]
          · simp [hroll, hend, htail, hfull, Prog.leave, leave_writeToFuture]
      · simp [hroll, hend, leave_writeToFuture]
    · by_cases hfull :
        toUnsigned (toSigned (toUnsigned (Q.q.tail + item.msgSize.toInt))) > Q.q.head
      · simp [hroll, hfull, Prog.leave, leave_unlockReturn]
      · simp [hroll, hfull, Prog.leave, leave_writeToFuture]
  | dequeue P =>
    refine ⟨_, rfl, fun Q => ?_⟩
    simp only [Prog.get_bind, Prog.leave, id_eq, answer, TaskSystem.dequeue]
    by_cases hsize : Q.q.size = 0
    · simp [hsize, leave_unlockReturn]
    · by_cases hturn : Q.q.head = toUnsigned Q.q.rolloverPosition
      · cases hrebind : rebinder (Q.mem.loadInt (sizeofQueue + 4)) with
        | none | some t =>
          simp [hsize, hturn, hrebind, readPosition, modifyHeader, Prog.leave, leave_takeMessage]
      · cases hrebind : rebinder (Q.mem.loadInt (toSigned Q.q.head + 4)) with
        | none | some t =>
          simp [hsize, hturn, hrebind, readPosition, Prog.leave, leave_takeMessage]
  | peek =>
    refine ⟨_, rfl, fun Q => ?_⟩
    simp only [Prog.get_bind, Prog.leave, id_eq, answer, TaskSystem.peek, readPosition]
    by_cases hsize : Q.q.size = 0
    · simp [hsize, leave_unlockReturn]
    · by_cases hturn : Q.q.head = toUnsigned Q.q.rolloverPosition
      · simp [hsize, hturn, Prog.leave, leave_unlockReturn]
      · simp [hsize, hturn, Prog.leave, leave_unlockReturn]
  | isEmpty => exact ⟨_, rfl, fun Q => rfl⟩

/-- The queue keeps some records. -/
def KeepsRecords (Q : Segment) : Prop := ∃ xs, Keeps recordKind Q xs

/-- The functions of the queue are guarded by `QLock`. -/
theorem guarded : Guarded KeepsRecords (Call.Sends Message.WellBehaved) code answer where
  locks c _ := by
    obtain ⟨body, hcode, hleave⟩ := leave_code c
    exact ⟨body, hcode, fun Q _ => hleave Q⟩
  keeps c Q hc hQ := by
    obtain ⟨xs, hkeeps⟩ := hQ
    obtain ⟨ys, -, hkeeps'⟩ := call_step hkeeps c hc
    exact ⟨ys, by rwa [answer_fst]⟩

/-! ## Threads on one queue -/

/-- Threads that call the functions of a queue which was created on bytes `mem` -/
def machine (mem : Mem) : System (Machine Segment Call Answer) (MachineEvent Call) :=
  Library.machine code (createQueue mem)

/-- One call after another is a run. -/
theorem after_eq_run (Q : Segment) (order : List (Nat × Call)) :
    after answer Q order = (run Q (order.map Prod.snd)).1 := by
  induction order generalizing Q with
  | nil => rfl
  | cons e order ih =>
    have hstep : after answer Q (e :: order) = after answer (answer e.2 Q).1 order := rfl
    rw [hstep, ih, answer_fst]
    rfl

/-- What the calls of thread `t` show when the calls run one after another. -/
def eventsOf (Q : Segment) (order : List (Nat × Call)) (t : Nat) : List (Fifo.Event Record) :=
  (((order.map Prod.fst).zip (run Q (order.map Prod.snd)).2).filter fun e => e.1 = t).map Prod.snd

/-- What the calls of a thread return reports what they show. -/
theorem answersTo_report (Q : Segment) (order : List (Nat × Call)) (t : Nat) :
    List.Forall₂ (fun e x => e.2.Reports x) (answersTo answer Q order t) (eventsOf Q order t) := by
  induction order generalizing Q with
  | nil => exact .nil
  | cons e order ih =>
    obtain ⟨u, c⟩ := e
    have hrest := ih (answer c Q).1
    by_cases hu : u = t
    · subst hu
      have hevents : eventsOf Q ((u, c) :: order) u =
          (call Q c).2 :: eventsOf (answer c Q).1 order u := by
        simp [eventsOf, run]
      rw [hevents, answersTo, if_pos rfl]
      exact .cons (answer_reports c Q) hrest
    · have hevents : eventsOf Q ((u, c) :: order) t = eventsOf (answer c Q).1 order t := by
        simp [eventsOf, run, hu]
      rw [hevents, answersTo, if_neg hu]
      exact hrest

/-- What threads can observe of a queue: the calls in the order in which they locked it are
    FIFO operations, each thread has been told what they show to it (but for the last one, if it
    has not returned), and later calls come later. -/
structure Linearizable (mem : Mem) (s : Machine Segment Call Answer) (outstanding : List Record) :
    Prop where
  fifo : Fifo.Steps [] (run (createQueue mem) (s.order.map Prod.snd)).2 outstanding
  kept : s.holder = none → Keeps recordKind s.object outstanding
  told : ∀ t, ∃ pending, pending.length ≤ 1 ∧ (s.inside t = none → pending = []) ∧
    (s.returned t ++ pending).map Prod.fst =
      (s.order.filter fun e => e.1 = t).map Prod.snd ∧
    List.Forall₂ (fun e x => e.2.Reports x) (s.returned t ++ pending)
      (eventsOf (createQueue mem) s.order t)
  later : ∀ es s', (machine mem).runFrom s es = some s' → s.order <+: s'.order

/-- **Linearizability**: threads that call the functions of a queue at once, with well-behaved
    messages, observe a FIFO queue. -/
theorem queue_linearizable (mem : Mem) {s : Machine Segment Call Answer}
    (h : (machine mem).ReachableWhen (Calls (Call.Sends Message.WellBehaved)) s) :
    ∃ outstanding, Linearizable mem s outstanding := by
  have hatomic := Machine.atomic_of_reachable guarded ⟨[], keeps_createQueue mem⟩ h
  obtain ⟨outstanding, hfifo, hkeeps⟩ :=
    run_steps (keeps_createQueue mem) (s.order.map Prod.snd)
      (List.forall_mem_map.mpr hatomic.called)
  refine ⟨outstanding, hfifo, ?_, ?_, ?_⟩
  · intro hfree
    rw [hatomic.object hfree, after_eq_run]
    exact hkeeps
  · intro t
    obtain ⟨pending, hanswers, hlength, hout⟩ := hatomic.returned_eq t
    refine ⟨pending, hlength, hout, ?_⟩
    rw [← hanswers]
    exact ⟨map_fst_answersTo .., answersTo_report ..⟩
  · exact fun es s' hrun => Machine.order_prefix es hrun

/-- One process enqueues a bar message; another one, which maps the queue elsewhere, enters
    `Dequeue` while the first holds the lock, and gets the message in the end. -/
def twoProcesses : List (MachineEvent Call) :=
  [.call 1 (.enqueue ⟨4096, .packed⟩ (AnyMsg.bar ⟨5, barMsgId, 72, 9⟩).toMessage), .step 1,
    .call 2 (.dequeue ⟨8192, .packed⟩)] ++ List.replicate 8 (.step 1) ++
    List.replicate 11 (.step 2)

theorem twoProcesses_send : ∀ e ∈ twoProcesses, ∀ s : Machine Segment Call Answer,
    Calls (Call.Sends Message.WellBehaved) s e := by
  have hbar : (AnyMsg.bar ⟨5, barMsgId, 72, 9⟩).WellFormed := ⟨rfl, trivial, by decide⟩
  have hsafe : (AnyMsg.bar ⟨5, barMsgId, 72, 9⟩).toMessage.WellBehaved :=
    hbar.toMessage (by decide)
  intro e he s
  simp only [twoProcesses, List.mem_append, List.mem_cons, List.mem_replicate, List.not_mem_nil,
    or_false] at he
  rcases he with ((rfl | rfl | rfl) | ⟨-, rfl⟩) | ⟨-, rfl⟩
  · exact hsafe
  all_goals trivial

theorem queue_linearizable_two :
    ∃ s, (machine fun _ => 0).runFrom (.start (createQueue fun _ => 0)) twoProcesses = some s ∧
      (s.returned 2).map Prod.snd = [.message (some 56)] ∧
      ∃ outstanding, Linearizable (fun _ => 0) s outstanding := by
  have hresult : ((machine fun _ => 0).runFrom (.start (createQueue fun _ => 0))
      twoProcesses).map (fun s => (s.returned 2).map Prod.snd) =
      some [.message (some 56)] := by decide +kernel
  obtain ⟨s, hrun, hreturned⟩ := Option.map_eq_some_iff.mp hresult
  exact ⟨s, hrun, hreturned, queue_linearizable _ (.runFrom (.init rfl) _
    (fun e he s => twoProcesses_send e he s) hrun)⟩

/-- **Progress**: none of the functions leaves the queue locked. A thread that is inside one
    returns, if the threads get to run in a suitable order; no other call has to begin. -/
theorem queue_call_returns (mem : Mem) {s : Machine Segment Call Answer}
    (h : (machine mem).ReachableWhen (Calls (Call.Sends Message.WellBehaved)) s) {t : Nat} {c : Call}
    {p : Prog Segment Answer} (hin : s.inside t = some (c, p)) :
    Machine.Returns code (createQueue mem) s t c :=
  (Machine.atomic_of_reachable guarded ⟨[], keeps_createQueue mem⟩ h).returns guarded hin

/-- `Dequeue` while another process holds the lock in the middle of `Enqueue`. -/
theorem queue_call_returns_waiting :
    ∃ s, (machine fun _ => 0).runFrom (.start (createQueue fun _ => 0)) (twoProcesses.take 3) =
        some s ∧ s.holder = some 1 ∧
      s.Returns code (createQueue fun _ => 0) 2 (.dequeue ⟨8192, .packed⟩) :=
  ⟨_, rfl, rfl, queue_call_returns _ (.runFrom (.init rfl) (twoProcesses.take 3)
    (fun e he s => twoProcesses_send e (List.mem_of_mem_take he) s) rfl) rfl⟩

end QLock

end TaskSystem
