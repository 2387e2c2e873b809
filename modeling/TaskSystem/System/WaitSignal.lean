import Mathlib.Logic.Function.Basic
import TaskSystem.Library.Transition
import TaskSystem.MsgQueue.Mailbox

/-!
# Sleeping and Waking

`message_notify` puts a task to sleep when its queue is empty, and `loop_wait_signal` wakes the
tasks whose queues are not (`src/System/System.c`). Test and sleep are separate steps, and the
loop signals without holding `sleepers_lock`, so a signal may come between them and be lost.
What makes up for it is that the loop passes over all tasks again and again, and takes a queue
that its process has not mapped for one with messages.

## Contents

- `SleepPoint`, `LoopPoint`: where a task stands in `message_notify`, and the loop in its pass
- `Signalling`, `SignalEvent`, `signalling`: tasks, their queues, and the loop
- `Caught`: what the loop will still do for a task that was asleep when the pass began
- `no_wakeup_lost`: no pass ends with a task in the sleep in which it began
-/

namespace TaskSystem

open Library

/-! ## The state -/

/-- Where a task stands in `message_notify`. -/
inductive SleepPoint where
  /-- Not inside, or past the test with messages in its queue -/
  | awake
  /-- Its queue was empty; before `pthread_mutex_lock` -/
  | tested
  /-- It holds `sleepers_lock`, before `pthread_cond_wait` -/
  | locked
  /-- Blocked in `pthread_cond_wait`, which has released the lock -/
  | waiting
  /-- Woken in `pthread_cond_wait`, which is to get the lock back -/
  | woken
  /-- Before `pthread_mutex_unlock` -/
  | leaving
  deriving DecidableEq

/-- Where `loop_wait_signal` stands. -/
inductive LoopPoint where
  /-- Before it tests `shutdown_signal` and reads `nextTaskID` -/
  | between
  /-- At the head of the `for` loop -/
  | testing (currentMaxId i : Nat)
  /-- Before `pthread_cond_signal` of entry `i` -/
  | signalling (currentMaxId i : Nat)
  | finished
  deriving DecidableEq

/-- The loop has yet to come to entry `t` of the pass, or to signal it. -/
def LoopPoint.Ahead (t : Nat) : LoopPoint → Prop
  | .testing currentMaxId i | .signalling currentMaxId i => t < currentMaxId ∧ i ≤ t
  | .between | .finished => False

/-- The tasks, their queues, and the signalling loop. The number of tasks stays far below the
    range of an `int`. -/
structure Signalling where
  /-- `data->shutdown_signal` is set -/
  shutdownSignal : Bool
  nextTaskID : Nat
  queues : Nat → Segment
  /-- `TaskTable[i] != NULL` in the process of the loop -/
  mapped : Nat → Bool
  /-- `data->sleepers_lock` is held -/
  sleepersLock : Bool
  sleep : Nat → SleepPoint
  loop : LoopPoint
  /-- How often each task has gone to sleep -/
  waits : Nat → Nat
  /-- The sleep of each task that had messages in its queue, and was asleep, when the last pass
      of the loop began -/
  asleep : Nat → Option Nat

inductive SignalEvent where
  /-- `Enqueue` on the queue of a task, by any other -/
  | send (t : Nat) (base : UInt64) (msg : ValidMsg)
  /-- `Dequeue` of a task on its own queue -/
  | dequeue (t : Nat) (P : Process)
  /-- The task calls `message_notify`, which tests its queue -/
  | test (t : Nat)
  | lock (t : Nat)
  | wait (t : Nat)
  /-- A wake-up without a signal -/
  | spurious (t : Nat)
  | relock (t : Nat)
  | unlock (t : Nat)
  /-- Another task is created. -/
  | newTask (mem : Mem)
  /-- A thread of the loop's process maps the queue of a task. -/
  | acquire (t : Nat)
  /-- `destroy` sets `shutdown_signal`. -/
  | shutdown
  /-- The loop's next step -/
  | loop

namespace Signalling

/-! ## The steps -/

/-- `IsEmpty(this->TaskTable[i])` in the loop: 0 for NULL. -/
def isEmptyAt (s : Signalling) (i : Nat) : Int := if s.mapped i then isEmpty (s.queues i) else 0

def setSleep (s : Signalling) (t : Nat) (point : SleepPoint) : Signalling :=
  { s with sleep := Function.update s.sleep t point }

def setQueue (s : Signalling) (t : Nat) (Q : Segment) : Signalling :=
  { s with queues := Function.update s.queues t Q }

/-- `pthread_cond_signal(&sleepers[t])`: no other task waits there. -/
def signal (s : Signalling) (t : Nat) : Signalling :=
  if s.sleep t = .waiting then s.setSleep t .woken else s

/-- A pass begins. -/
def beginPass (s : Signalling) : Signalling :=
  { s with
    loop := .testing s.nextTaskID 0
    asleep := fun t =>
      if t < s.nextTaskID ∧ s.sleep t = .waiting ∧ isEmpty (s.queues t) = 0 then some (s.waits t)
      else none }

/-- One step of `loop_wait_signal`. -/
def loopStep (s : Signalling) : Option Signalling :=
  match s.loop with
  | .between => if s.shutdownSignal then some { s with loop := .finished } else some s.beginPass
  | .testing currentMaxId i =>
    if i < currentMaxId then
      if s.isEmptyAt i = 0 then some { s with loop := .signalling currentMaxId i }
      else some { s with loop := .testing currentMaxId (i + 1) }
    else some { s with loop := .between }
  | .signalling currentMaxId i => some { s.signal i with loop := .testing currentMaxId (i + 1) }
  | .finished => none

/-- A task of the system stands at a point. -/
def At (s : Signalling) (t : Nat) (point : SleepPoint) : Prop :=
  t < s.nextTaskID ∧ s.sleep t = point

instance (s : Signalling) (t : Nat) (point : SleepPoint) : Decidable (s.At t point) :=
  inferInstanceAs (Decidable (_ ∧ _))

/-- The next state. A record whose end is no `int` would be written over the end of the segment;
    such a `send` has none. -/
def step (s : Signalling) : SignalEvent → Option Signalling
  | .send t base msg =>
    if (s.queues t).q.rolloverPosition = -1 → (s.queues t).q.tail + msg.size ≤ intMax then
      some (s.setQueue t (enqueue base (s.queues t) msg.1.toMessage).1)
    else none
  | .dequeue t P =>
    if s.At t .awake then some (s.setQueue t (dequeue P (s.queues t)).1) else none
  | .test t =>
    if s.At t .awake then
      if isEmpty (s.queues t) = 0 then some s else some (s.setSleep t .tested)
    else none
  | .lock t =>
    if s.At t .tested ∧ s.sleepersLock = false then
      some { s.setSleep t .locked with sleepersLock := true }
    else none
  | .wait t =>
    if s.At t .locked then
      some { s.setSleep t .waiting with
        sleepersLock := false
        waits := Function.update s.waits t (s.waits t + 1) }
    else none
  | .spurious t => if s.At t .waiting then some (s.setSleep t .woken) else none
  | .relock t =>
    if s.At t .woken ∧ s.sleepersLock = false then
      some { s.setSleep t .leaving with sleepersLock := true }
    else none
  | .unlock t =>
    if s.At t .leaving then some { s.setSleep t .awake with sleepersLock := false } else none
  | .newTask mem =>
    some { s.setQueue s.nextTaskID (createQueue mem) with nextTaskID := s.nextTaskID + 1 }
  | .acquire t => some { s with mapped := Function.update s.mapped t true }
  | .shutdown => some { s with shutdownSignal := true }
  | .loop => s.loopStep

/-- `n` tasks with fresh queues, before the first pass. -/
def start (n : Nat) (mems : Nat → Mem) (mapped : Nat → Bool) : Signalling where
  shutdownSignal := false
  nextTaskID := n
  queues t := createQueue (mems t)
  mapped := mapped
  sleepersLock := false
  sleep _ := .awake
  loop := .between
  waits _ := 0
  asleep _ := none

end Signalling

/-- All interleavings of senders, sleepers and the loop. -/
def signalling : System Signalling SignalEvent where
  init s := ∃ n mems mapped, s = .start n mems mapped
  step := Signalling.step

namespace Signalling

variable {s s' : Signalling} {t : Nat}

/-! ## Queues -/

/-- Every queue keeps a list of messages. -/
def QueuesKeep (s : Signalling) : Prop := ∀ t, ∃ xs, Keeps messageKind (s.queues t) xs

/-- **`Enqueue`** leaves the queue as it is or adds the message. -/
theorem keeps_enqueue {Q : Segment} {xs : List ValidMsg} (h : Keeps messageKind Q xs)
    (base : UInt64) (msg : ValidMsg)
    (hmax : Q.q.rolloverPosition = -1 → Q.q.tail + msg.size ≤ intMax) :
    (enqueue base Q msg.1.toMessage).1 = Q ∨
      Keeps messageKind (enqueue base Q msg.1.toMessage).1 (xs ++ [msg]) := by
  -- a mailbox whose reader holds nothing
  have hholds : Mailbox.Holds ⟨0, .packed⟩ ⟨Q, none⟩ none xs := ⟨.none, h⟩
  rcases hholds.send_cases base msg ⟨hmax, nofun⟩ with ⟨-, hrefused⟩ | ⟨a, mb', hsent, -, -, hkeeps⟩
  · exact .inl (congrArg (fun sent => sent.1.Q) hrefused)
  · right
    have hQ : (enqueue base Q msg.1.toMessage).1 = mb'.Q := congrArg (fun sent => sent.1.Q) hsent
    rw [hQ]
    exact hkeeps.keeps

/-- A queue with messages still has some after a `send`. -/
theorem isEmpty_enqueue {Q : Segment} {xs : List ValidMsg} (h : Keeps messageKind Q xs)
    (base : UInt64) (msg : ValidMsg)
    (hmax : Q.q.rolloverPosition = -1 → Q.q.tail + msg.size ≤ intMax) (hfull : isEmpty Q = 0) :
    isEmpty (enqueue base Q msg.1.toMessage).1 = 0 := by
  rcases keeps_enqueue h base msg hmax with hsame | hkeeps
  · rw [hsame]
    exact hfull
  · rw [isEmpty_eq hkeeps, if_neg (by simp)]

theorem QueuesKeep.setQueue (h : s.QueuesKeep) (t : Nat) {Q : Segment} {xs : List ValidMsg}
    (hQ : Keeps messageKind Q xs) : (s.setQueue t Q).QueuesKeep := by
  intro u
  -- the queue that was set, and those of the other tasks
  by_cases hu : u = t
  · refine ⟨xs, ?_⟩
    show Keeps messageKind (Function.update s.queues t Q u) xs
    rw [hu, Function.update_self]
    exact hQ
  · obtain ⟨ys, hys⟩ := h u
    refine ⟨ys, ?_⟩
    show Keeps messageKind (Function.update s.queues t Q u) ys
    rw [Function.update_of_ne hu]
    exact hys

/-- A `send` adds its message or leaves the queue as it is. -/
theorem QueuesKeep.send (h : s.QueuesKeep) (t : Nat) (base : UInt64) (msg : ValidMsg)
    (hmax : (s.queues t).q.rolloverPosition = -1 → (s.queues t).q.tail + msg.size ≤ intMax) :
    (s.setQueue t (enqueue base (s.queues t) msg.1.toMessage).1).QueuesKeep := by
  obtain ⟨xs, hkeeps⟩ := h t
  rcases keeps_enqueue hkeeps base msg hmax with hsame | hadded
  · exact h.setQueue t (by rw [hsame]; exact hkeeps)
  · exact h.setQueue t hadded

/-- `Dequeue` removes a message, if there is one. -/
theorem QueuesKeep.dequeue (h : s.QueuesKeep) (t : Nat) (P : Process) :
    (s.setQueue t (dequeue P (s.queues t)).1).QueuesKeep := by
  obtain ⟨xs, hkeeps⟩ := h t
  cases xs with
  | nil =>
    rw [dequeue_nil P hkeeps]
    exact h.setQueue t hkeeps
  | cons x xs =>
    obtain ⟨Q', hdequeue, -, -, -, -, -, -, hkeeps'⟩ := dequeue_cons P hkeeps
    rw [hdequeue]
    exact h.setQueue t hkeeps'

/-- The loop reads queues and changes none. -/
theorem loopStep_queues (hs : s.loopStep = some s') : s'.queues = s.queues := by
  unfold Signalling.loopStep at hs
  split at hs
  · split at hs <;> cases hs <;> rfl
  · split at hs
    · split at hs <;> cases hs <;> rfl
    · cases hs
      rfl
  · cases hs
    simp only [signal, Signalling.setSleep]
    split <;> rfl
  · cases hs

/-! ## What the loop will still do -/

/-- What holds of task `t`: if it is still in the sleep in which the last pass found it, its
    queue still has messages and the loop has yet to come to its entry. -/
structure Caught (s : Signalling) (t : Nat) : Prop where
  le : ∀ w, s.asleep t = some w → w ≤ s.waits t
  new : s.nextTaskID ≤ t → s.asleep t = none
  ahead : s.asleep t = some (s.waits t) → s.sleep t = .waiting →
    isEmpty (s.queues t) = 0 ∧ s.loop.Ahead t

theorem caught_start (n : Nat) (mems : Nat → Mem) (mapped : Nat → Bool) (t : Nat) :
    (start n mems mapped).Caught t where
  le w hw := by cases hw
  new _ := rfl
  ahead hw := by cases hw

namespace Caught

/-- Steps of other tasks, and those that change neither queues nor sleep. -/
theorem congr (h : s.Caught t) (hasleep : s'.asleep t = s.asleep t)
    (hwaits : s'.waits t = s.waits t) (hnext : s.nextTaskID ≤ s'.nextTaskID)
    (hsleep : s'.sleep t = s.sleep t)
    (hqueue : isEmpty (s.queues t) = 0 → isEmpty (s'.queues t) = 0)
    (hloop : s.loop.Ahead t → s'.loop.Ahead t) : s'.Caught t where
  le := by
    rw [hasleep, hwaits]
    exact h.le
  new hle := by
    rw [hasleep]
    exact h.new (Nat.le_trans hnext hle)
  ahead := by
    rw [hasleep, hwaits, hsleep]
    intro hsame hwaiting
    obtain ⟨hfull, hahead⟩ := h.ahead hsame hwaiting
    exact ⟨hqueue hfull, hloop hahead⟩

/-- A task that is awake, or on its way there, needs no signal. -/
theorem of_awake (h : s.Caught t) (hasleep : s'.asleep t = s.asleep t)
    (hwaits : s'.waits t = s.waits t) (hnext : s'.nextTaskID = s.nextTaskID)
    (hsleep : s'.sleep t ≠ .waiting) : s'.Caught t where
  -- the third clause speaks of tasks that wait
  le := by
    rw [hasleep, hwaits]
    exact h.le
  new := by
    rw [hasleep, hnext]
    exact h.new
  ahead _ hwaiting := absurd hwaiting hsleep

/-- A task moves in `message_notify`, but not to sleep. -/
theorem setSleep (h : s.Caught t) (u : Nat) (point : SleepPoint) (hpoint : point ≠ .waiting)
    (locked : Bool) : Caught { s.setSleep u point with sleepersLock := locked } t := by
  by_cases ht : t = u
  · refine h.of_awake rfl rfl rfl ?_
    show Function.update s.sleep u point t ≠ .waiting
    rw [ht, Function.update_self]
    exact hpoint
  · exact h.congr rfl rfl (Nat.le_refl _) (Function.update_of_ne ht _ _) id id

/-- The loop moves without reading or changing anything. -/
theorem goto (h : s.Caught t) {loop : LoopPoint} (hloop : s.loop.Ahead t → loop.Ahead t) :
    Caught { s with loop := loop } t :=
  h.congr rfl rfl (Nat.le_refl _) rfl id hloop

/-- The queue of a task changes. -/
theorem setQueue (h : s.Caught t) (u : Nat) {Q : Segment}
    (hQ : t = u → isEmpty (s.queues u) = 0 → isEmpty Q = 0) : (s.setQueue u Q).Caught t := by
  refine h.congr rfl rfl (Nat.le_refl _) rfl ?_ id
  intro hfull
  show isEmpty (Function.update s.queues u Q t) = 0
  by_cases ht : t = u
  · rw [ht, Function.update_self]
    exact hQ ht (ht ▸ hfull)
  · rw [Function.update_of_ne ht]
    exact hfull

/-- A new sleep is not the one the pass found. -/
theorem wait (h : s.Caught t) (u : Nat) :
    Caught { s.setSleep u .waiting with
      sleepersLock := false
      waits := Function.update s.waits u (s.waits u + 1) } t := by
  by_cases ht : t = u
  · subst ht
    refine ⟨?_, h.new, ?_⟩
    · intro w hw
      show w ≤ Function.update s.waits t (s.waits t + 1) t
      rw [Function.update_self]
      exact Nat.le_succ_of_le (h.le w hw)
    · -- the task sleeps for the `waits + 1`st time, the pass found it in an earlier sleep
      intro hsame _
      have hnew : s.asleep t = some (Function.update s.waits t (s.waits t + 1) t) := hsame
      rw [Function.update_self] at hnew
      exact absurd (h.le _ hnew) (Nat.not_succ_le_self _)
  · exact h.congr rfl (Function.update_of_ne ht _ _) (Nat.le_refl _) (Function.update_of_ne ht _ _)
      id id

theorem newTask (h : s.Caught t) (mem : Mem) :
    Caught { s.setQueue s.nextTaskID (createQueue mem) with nextTaskID := s.nextTaskID + 1 } t := by
  by_cases ht : t = s.nextTaskID
  · -- the new entry has not been seen by any pass
    have hnone : s.asleep t = none := h.new (Nat.le_of_eq ht.symm)
    refine ⟨h.le, fun _ => hnone, ?_⟩
    intro hsame
    have hsome : s.asleep t = some (s.waits t) := hsame
    rw [hnone] at hsome
    cases hsome
  · refine h.congr rfl rfl (Nat.le_succ _) rfl ?_ id
    intro hfull
    show isEmpty (Function.update s.queues s.nextTaskID _ t) = 0
    rw [Function.update_of_ne ht]
    exact hfull

/-- **Pass**: every step of the loop leaves the task with messages ahead of it, or woken. -/
theorem loopStep (h : s.Caught t) (hs : s.loopStep = some s') : s'.Caught t := by
  unfold Signalling.loopStep at hs
  split at hs
  case h_1 hloop =>
    split at hs <;> cases hs
    case isTrue.refl =>
      apply h.goto
      rw [hloop]
      exact False.elim
    -- a pass begins: the sleeps it finds are those of this moment, all of them ahead
    case isFalse.refl =>
      refine ⟨?_, ?_, ?_⟩
      · intro w hw
        simp only [beginPass] at hw
        split at hw <;> cases hw
        exact Nat.le_refl _
      · intro hle
        have hge : ¬t < s.nextTaskID := Nat.not_lt.mpr hle
        simp only [beginPass, hge, false_and, if_false]
      · intro hsame _
        simp only [beginPass] at hsame
        split at hsame
        case isTrue hfound => exact ⟨hfound.2.2, hfound.1, Nat.zero_le t⟩
        case isFalse => cases hsame
  case h_2 currentMaxId i hloop =>
    split at hs
    case isTrue hlt =>
      split at hs <;> cases hs
      -- the entry has messages or is not mapped; it will be signalled
      case isTrue.refl =>
        apply h.goto
        rw [hloop]
        exact id
      case isFalse.refl hempty =>
        refine ⟨h.le, h.new, ?_⟩
        intro hsame hwaiting
        obtain ⟨hfull, hahead⟩ := h.ahead hsame hwaiting
        rw [hloop] at hahead
        obtain ⟨htmax, hit⟩ := hahead
        -- an entry found empty is mapped and has no messages, so it is another one's
        have hne : i ≠ t := by
          rintro rfl
          apply hempty
          unfold isEmptyAt
          split
          · exact hfull
          · rfl
        exact ⟨hfull, htmax, by omega⟩
    -- at the end of the pass no entry is ahead
    case isFalse hge =>
      cases hs
      apply h.goto
      rw [hloop]
      rintro ⟨htmax, hit⟩
      omega
  case h_3 currentMaxId i hloop =>
    cases hs
    by_cases ht : t = i
    · -- its own entry: it is awake afterwards
      subst ht
      unfold signal
      split
      case isTrue =>
        refine h.of_awake rfl rfl rfl ?_
        show Function.update s.sleep t .woken t ≠ .waiting
        rw [Function.update_self]
        nofun
      case isFalse hawake => exact h.of_awake rfl rfl rfl hawake
    · have hahead : s.loop.Ahead t → LoopPoint.Ahead t (.testing currentMaxId (i + 1)) := by
        rw [hloop]
        rintro ⟨htmax, hit⟩
        exact ⟨htmax, by omega⟩
      unfold signal
      split
      case isTrue =>
        exact h.congr rfl rfl (Nat.le_refl _) (Function.update_of_ne ht _ _) id hahead
      case isFalse => exact h.goto hahead
  case h_4 => cases hs

end Caught

/-! ## Runs -/

/-- **Step**: queues keep their messages, and every task is caught. -/
theorem step_caught {e : SignalEvent} (hq : s.QueuesKeep) (h : ∀ t, s.Caught t)
    (hs : s.step e = some s') : s'.QueuesKeep ∧ ∀ t, s'.Caught t := by
  cases e with
  | send u base msg =>
    simp only [Signalling.step] at hs
    split at hs
    case isFalse => cases hs
    case isTrue hmax =>
      cases hs
      obtain ⟨xs, hkeeps⟩ := hq u
      refine ⟨hq.send u base msg hmax, fun t => ?_⟩
      exact (h t).setQueue u fun _ hfull => isEmpty_enqueue hkeeps base msg hmax hfull
  | dequeue u P =>
    simp only [Signalling.step] at hs
    split at hs
    case isFalse => cases hs
    case isTrue hat =>
      cases hs
      refine ⟨hq.dequeue u P, fun t => ?_⟩
      by_cases ht : t = u
      · -- the consumer itself is awake
        refine (h t).of_awake rfl rfl rfl ?_
        show s.sleep t ≠ .waiting
        rw [ht, hat.2]
        nofun
      · exact (h t).setQueue u fun heq => absurd heq ht
  | test u =>
    simp only [Signalling.step] at hs
    split at hs
    case isFalse => cases hs
    case isTrue =>
      split at hs <;> cases hs
      · exact ⟨hq, h⟩
      · exact ⟨hq, fun t => (h t).setSleep u .tested nofun s.sleepersLock⟩
  | lock u =>
    simp only [Signalling.step] at hs
    split at hs <;> cases hs
    exact ⟨hq, fun t => (h t).setSleep u .locked nofun true⟩
  | wait u =>
    simp only [Signalling.step] at hs
    split at hs <;> cases hs
    exact ⟨hq, fun t => (h t).wait u⟩
  | spurious u =>
    simp only [Signalling.step] at hs
    split at hs <;> cases hs
    exact ⟨hq, fun t => (h t).setSleep u .woken nofun s.sleepersLock⟩
  | relock u =>
    simp only [Signalling.step] at hs
    split at hs <;> cases hs
    exact ⟨hq, fun t => (h t).setSleep u .leaving nofun true⟩
  | unlock u =>
    simp only [Signalling.step] at hs
    split at hs <;> cases hs
    exact ⟨hq, fun t => (h t).setSleep u .awake nofun false⟩
  | newTask mem =>
    cases hs
    exact ⟨hq.setQueue s.nextTaskID (keeps_createQueue mem), fun t => (h t).newTask mem⟩
  | acquire u =>
    cases hs
    exact ⟨hq, fun t => (h t).congr rfl rfl (Nat.le_refl _) rfl id id⟩
  | shutdown =>
    cases hs
    exact ⟨hq, fun t => (h t).congr rfl rfl (Nat.le_refl _) rfl id id⟩
  | loop =>
    refine ⟨fun t => ?_, fun t => (h t).loopStep hs⟩
    rw [loopStep_queues hs]
    exact hq t

/-- **Run**: in every reachable state all tasks are caught. -/
theorem reachable_caught (h : signalling.Reachable s) : s.QueuesKeep ∧ ∀ t, s.Caught t := by
  refine System.Reachable.invariant (P := fun s => s.QueuesKeep ∧ ∀ t, s.Caught t) ?_ ?_ h
  · rintro s ⟨n, mems, mapped, rfl⟩
    exact ⟨fun t => ⟨[], keeps_createQueue _⟩, caught_start n mems mapped⟩
  · rintro s e s' ⟨hq, h⟩ hs
    exact step_caught hq h hs

/-- The loop is about to end its pass. -/
def PassEnds (s : Signalling) : Prop := ∃ currentMaxId i, s.loop = .testing currentMaxId i ∧
  currentMaxId ≤ i

/-- **No wake-up is lost**: when a pass ends, no task is still in the sleep in which it was, with
    messages in its queue, when the pass began; whether the loop's process has mapped its queue
    or not. -/
theorem no_wakeup_lost (h : signalling.Reachable s) (hend : s.PassEnds) (t : Nat) :
    ¬(s.sleep t = .waiting ∧ s.asleep t = some (s.waits t)) := by
  rintro ⟨hwaiting, hsame⟩
  obtain ⟨currentMaxId, i, hloop, hle⟩ := hend
  obtain ⟨-, hahead⟩ := ((reachable_caught h).2 t).ahead hsame hwaiting
  rw [hloop] at hahead
  obtain ⟨htmax, hit⟩ := hahead
  omega

/-- A message without a payload. -/
def doneMsg : ValidMsg :=
  ⟨.done (.create ⟨0, 0, 0, 1⟩ 8), (DoneMsg.Built.create _ _).wellFormed⟩

/-- A message that comes between the test and the sleep, to a task whose queue the loop's
    process has not mapped: the next pass finds the task asleep and wakes it. -/
theorem no_wakeup_lost_once : ∃ s, signalling.Reachable s ∧ s.PassEnds ∧ s.asleep 1 = some 1 ∧
    ¬(s.sleep 1 = .waiting ∧ s.asleep 1 = some (s.waits 1)) := by
  have hrun : (signalling.runFrom (start 2 (fun _ _ => 0) fun i => i = 0)
      [.test 1, .send 1 4096 doneMsg, .lock 1, .wait 1, .loop, .loop, .loop, .loop]).map
        (fun s => (s.loop, s.asleep 1)) = some (.testing 2 2, some 1) := by
    -- the pass goes over entries 0 and 1, and signals both
    decide +kernel
  obtain ⟨s, hs, hobs⟩ := Option.map_eq_some_iff.mp hrun
  obtain ⟨hloop, hasleep⟩ := Prod.mk.inj hobs
  have hreach : signalling.Reachable s := System.Reachable.runFrom (.init ⟨_, _, _, rfl⟩) _ hs
  have hend : s.PassEnds := ⟨2, 2, hloop, Nat.le_refl 2⟩
  exact ⟨s, hreach, hend, hasleep, no_wakeup_lost hreach hend 1⟩

end Signalling

end TaskSystem
