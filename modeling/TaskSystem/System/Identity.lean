import Mathlib.Data.List.Nodup
import TaskSystem.System.TaskTable

/-!
# Task IDs as Identities

Two tasks with one ID share a queue, and the second one's `createMsgQ` resets it. The mutex
around the counter keeps IDs apart; `System_create`, which resets counter and mutex, does not.

## Contents

- `ResetsNothing`, `Orderly`: what creation should leave alone, and the condition
- `Distinct`: the invariant; one lemma for each kind of step, and `Distinct.step`
- `identity_unique`: when IDs are unique and no queue is reset
- `identity_lost`: two creators
-/

namespace TaskSystem

open Library Repository

namespace Runtime

variable {s s' : Runtime} {e : RuntimeEvent}

/-- `createMsgQ` resets no queue that holds messages or that another task reads. -/
def ResetsNothing (s : Runtime) : RuntimeEvent → Prop
  | .createMsgQ k => ∀ task, s.tasks[k]? = some task →
      (∀ Q, s.queues task.taskID.toNat = some Q → isEmpty Q = 1) ∧
        ∀ other ∈ s.tasks, other.ready = true → other.taskID ≠ task.taskID
  | _ => True

/-- **The condition on the steps**: `System_create` runs only while there are no tasks, no thread
    is inside `getNextTaskID` and all queues are empty; messages go to queues created since;
    and IDs lie in the tables. -/
def Orderly (s : Runtime) : RuntimeEvent → Prop
  | .create _ => s.tasks = [] ∧ s.allocations = [] ∧
      ∀ taskID Q, s.queues taskID = some Q → isEmpty Q = 1
  | .send _ taskID _ _ => taskID ∈ s.opened
  | e => s.FewTasks e

/-- What holds of the thread inside `getNextTaskID`. -/
def Allocation.Sound (s : Runtime) (a : Allocation) : Prop :=
  match a.point with
  | .locked => True
  | .read nextID => s.nextTaskID = some nextID
  | .incremented nextID =>
    (∀ n, s.nextTaskID = some n → nextID.toNat < n.toNat) ∧
      (∀ task ∈ s.tasks, task.taskID ≠ nextID) ∧ nextID.toNat ∉ s.opened

/-- IDs are distinct and below the counter, the mutex keeps all but one thread out, and a queue
    that has not been opened holds nothing. -/
structure Distinct (s : Runtime) : Prop where
  absent : s.nextTaskID = none → s.tasks = [] ∧ s.allocations = [] ∧ s.opened = [] ∧
    ∀ p, s.table p = none
  tasks_lt : ∀ n, s.nextTaskID = some n → ∀ task ∈ s.tasks, task.taskID.toNat < n.toNat
  opened_lt : ∀ n, s.nextTaskID = some n → ∀ i ∈ s.opened, i < n.toNat
  nodup : (s.tasks.map RunningTask.taskID).Nodup
  unlocked : s.taskIDLocked = false → s.allocations = []
  allocations : s.allocations = [] ∨ ∃ a, s.allocations = [a] ∧ Allocation.Sound s a
  opened_iff : ∀ task ∈ s.tasks, task.ready = true ↔ task.taskID.toNat ∈ s.opened
  empty : ∀ i Q, s.queues i = some Q → isEmpty Q = 1 ∨ i ∈ s.opened

theorem distinct_boot (names : Mem) : (boot names).Distinct where
  absent _ := ⟨rfl, rfl, rfl, fun _ => rfl⟩
  tasks_lt n hn := by cases hn
  opened_lt n hn := by cases hn
  nodup := List.nodup_nil
  unlocked _ := rfl
  allocations := .inl rfl
  opened_iff task htask := by cases htask
  empty i Q hQ := by cases hQ

namespace Distinct

/-- Steps that change only tables, names and the queues that are open. -/
theorem congr (h : s.Distinct) (hcounter : s'.nextTaskID = s.nextTaskID)
    (htasks : s'.tasks = s.tasks) (hallocations : s'.allocations = s.allocations)
    (hopened : s'.opened = s.opened) (hlocked : s'.taskIDLocked = s.taskIDLocked)
    (htable : s.nextTaskID = none → ∀ p, s'.table p = none)
    (hqueues : ∀ i Q, s'.queues i = some Q → isEmpty Q = 1 ∨ i ∈ s.opened) : s'.Distinct where
  absent hnone := by
    rw [hcounter] at hnone
    rw [htasks, hallocations, hopened]
    obtain ⟨h₁, h₂, h₃, -⟩ := h.absent hnone
    exact ⟨h₁, h₂, h₃, htable hnone⟩
  tasks_lt := by rw [hcounter, htasks]; exact h.tasks_lt
  opened_lt := by rw [hcounter, hopened]; exact h.opened_lt
  nodup := by rw [htasks]; exact h.nodup
  unlocked := by rw [hlocked, hallocations]; exact h.unlocked
  allocations := by
    simp only [Allocation.Sound, hcounter, htasks, hallocations, hopened]
    exact h.allocations
  opened_iff := by rw [htasks, hopened]; exact h.opened_iff
  empty := by rw [hopened]; exact hqueues

/-- The thread inside `getNextTaskID` is the only one. -/
theorem allocation_eq (h : s.Distinct) {j : Nat} {a : Allocation}
    (ha : s.allocations[j]? = some a) :
    j = 0 ∧ s.allocations = [a] ∧ Allocation.Sound s a := by
  rcases h.allocations with hnil | ⟨b, hone, hsound⟩
  · rw [hnil] at ha
    cases ha
  · rw [hone] at ha
    obtain ⟨hj, hb⟩ := List.getElem?_eq_some_iff.mp ha
    rw [List.length_singleton] at hj
    obtain rfl : j = 0 := by omega
    obtain rfl : b = a := hb
    exact ⟨rfl, hone, hsound⟩

theorem createStep {p : Nat} (hG : s.Orderly (.create p)) : (s.create p).Distinct := by
  obtain ⟨htasks, hallocations, hempty⟩ := hG
  have htasks' : (s.create p).tasks = [] := htasks
  -- there are no tasks and no threads, and every queue is empty
  refine ⟨nofun, ?_, ?_, ?_, fun _ => hallocations, .inl hallocations, ?_, ?_⟩
  · intro n _ task htask
    rw [htasks'] at htask
    cases htask
  · intro n _ i hi
    cases hi
  · rw [htasks']
    exact List.nodup_nil
  · intro task htask
    rw [htasks'] at htask
    cases htask
  · intro i Q hQ
    exact .inl (hempty i Q hQ)

theorem lock (h : s.Distinct) {p : Nat} (hfree : s.taskIDLocked = false)
    (htable : (s.table p).isSome) :
    Distinct { s with taskIDLocked := true, allocations := s.allocations ++ [⟨p, .locked⟩] } where
  absent hnone := by
    rw [(h.absent hnone).2.2.2 p] at htable
    cases htable
  tasks_lt := h.tasks_lt
  opened_lt := h.opened_lt
  nodup := h.nodup
  unlocked := nofun
  allocations := by
    refine .inr ⟨⟨p, .locked⟩, ?_, trivial⟩
    rw [h.unlocked hfree]
    rfl
  opened_iff := h.opened_iff
  empty := h.empty

theorem read (h : s.Distinct) {j p : Nat} {nextID : UInt32}
    (ha : s.allocations[j]? = some ⟨p, .locked⟩) (hn : s.nextTaskID = some nextID) :
    (s.moveTo j ⟨p, .locked⟩ (.read nextID)).Distinct := by
  obtain ⟨rfl, hone, -⟩ := h.allocation_eq ha
  -- nothing changes but the point of the only thread
  refine ⟨?_, h.tasks_lt, h.opened_lt, h.nodup, ?_, .inr ⟨⟨p, .read nextID⟩, ?_, hn⟩,
    h.opened_iff, h.empty⟩
  · intro hnone
    rw [show s.nextTaskID = none from hnone] at hn
    cases hn
  · intro hfree
    rw [h.unlocked hfree] at hone
    cases hone
  · simp only [moveTo, hone]
    rfl

theorem increment (h : s.Distinct) {j p : Nat} {nextID n : UInt32}
    (ha : s.allocations[j]? = some ⟨p, .read nextID⟩) (hn : s.nextTaskID = some n)
    (hlt : n.toNat < maxTask) : (s.increment j ⟨p, .read nextID⟩ nextID n).Distinct := by
  obtain ⟨rfl, hone, hsound⟩ := h.allocation_eq ha
  -- no other thread has touched the counter since it was read
  obtain rfl : nextID = n := Option.some.inj (hsound.symm.trans hn)
  have hnext : (nextID + 1).toNat = nextID.toNat + 1 := by
    unfold maxTask at hlt
    rw [UInt32.toNat_add]
    show (nextID.toNat + 1) % 4294967296 = _
    omega
  refine ⟨nofun, ?_, ?_, h.nodup, ?_, .inr ⟨⟨p, .incremented nextID⟩, ?_, ?_, ?_, ?_⟩,
    h.opened_iff, h.empty⟩
  · -- all IDs are below the old counter, so they are below the new one
    rintro _ ⟨⟩ task htask
    have := h.tasks_lt nextID hn task htask
    omega
  · rintro _ ⟨⟩ i hi
    have := h.opened_lt nextID hn i hi
    omega
  · intro hfree
    rw [h.unlocked hfree] at hone
    cases hone
  · simp only [Runtime.increment, moveTo, hone]
    rfl
  · rintro _ ⟨⟩
    omega
  · -- and none of them is the ID read, which is the old counter
    rintro task htask rfl
    exact Nat.lt_irrefl _ (h.tasks_lt _ hn task htask)
  · intro hopened
    exact Nat.lt_irrefl _ (h.opened_lt _ hn _ hopened)

theorem unlock (h : s.Distinct) {j p : Nat} {nextID : UInt32}
    (ha : s.allocations[j]? = some ⟨p, .incremented nextID⟩) :
    (s.handOut j ⟨p, .incremented nextID⟩ nextID).Distinct := by
  obtain ⟨rfl, hone, hlt, hfresh, hclosed⟩ := h.allocation_eq ha
  have hnone : s.allocations.eraseIdx 0 = [] := by
    rw [hone]
    rfl
  refine ⟨?_, ?_, h.opened_lt, ?_, fun _ => hnone, .inl hnone, ?_, h.empty⟩
  · intro habsent
    rw [(h.absent habsent).2.1] at hone
    cases hone
  · intro n hn task htask
    rcases List.mem_append.mp htask with htask | htask
    · exact h.tasks_lt n hn task htask
    · obtain rfl := List.mem_singleton.mp htask
      exact hlt n hn
  · -- no running task has the ID that is handed out
    show ((s.tasks ++ [(⟨p, nextID, false⟩ : RunningTask)]).map RunningTask.taskID).Nodup
    rw [List.map_append]
    apply List.nodup_append.mpr
    refine ⟨h.nodup, List.nodup_singleton _, ?_⟩
    intro id hid id' hid'
    obtain ⟨task, htask, rfl⟩ := List.mem_map.mp hid
    obtain rfl := List.mem_singleton.mp hid'
    exact hfresh task htask
  · intro task htask
    rcases List.mem_append.mp htask with htask | htask
    · exact h.opened_iff task htask
    · obtain rfl := List.mem_singleton.mp htask
      exact ⟨nofun, fun hopened => absurd hopened hclosed⟩

/-- Different positions hold different IDs. -/
theorem taskID_ne (h : s.Distinct) {i k : Nat} {t u : RunningTask} (ht : s.tasks[i]? = some t)
    (hu : s.tasks[k]? = some u) (hik : i ≠ k) : t.taskID ≠ u.taskID := by
  have hid : ∀ {m : Nat} {v : RunningTask}, s.tasks[m]? = some v →
      (s.tasks.map RunningTask.taskID)[m]? = some v.taskID := by
    intro m v hv
    rw [List.getElem?_map, hv, Option.map_some]
  have hti := hid ht
  have huk := hid hu
  -- an ID that stands at two positions contradicts `nodup`
  intro heq
  apply hik
  obtain ⟨hi, -⟩ := List.getElem?_eq_some_iff.mp hti
  apply (List.getElem?_inj hi h.nodup).mp
  rw [hti, huk, heq]

theorem createMsgQ (h : s.Distinct) {k : Nat} {task : RunningTask}
    (htask : s.tasks[k]? = some task) : (s.createMsgQ k task).Distinct := by
  have hmem := List.mem_of_getElem? htask
  -- `ready` changes, the IDs do not
  have hids : ((s.tasks.set k { task with ready := true }).map RunningTask.taskID) =
      s.tasks.map RunningTask.taskID := by
    obtain ⟨hk, rfl⟩ := List.getElem?_eq_some_iff.mp htask
    have hk' : k < (s.tasks.map RunningTask.taskID).length := by simpa using hk
    have hget : s.tasks[k].taskID = (s.tasks.map RunningTask.taskID)[k] := by
      rw [List.getElem_map]
    rw [List.map_set]
    show (s.tasks.map RunningTask.taskID).set k s.tasks[k].taskID = _
    rw [hget, List.set_getElem_self]
  have hsame : ∀ t ∈ (s.tasks.set k { task with ready := true }),
      ∃ t' ∈ s.tasks, t'.taskID = t.taskID := by
    intro t ht
    rcases List.mem_or_eq_of_mem_set ht with ht | rfl
    · exact ⟨t, ht, rfl⟩
    · exact ⟨task, hmem, rfl⟩
  refine ⟨?_, ?_, ?_, ?_, h.unlocked, ?_, ?_, ?_⟩
  · intro hnone
    rw [(h.absent hnone).1] at hmem
    cases hmem
  · intro n hn t ht
    obtain ⟨t', ht', heq⟩ := hsame t ht
    rw [← heq]
    exact h.tasks_lt n hn t' ht'
  · intro n hn i hi
    rcases List.mem_cons.mp hi with rfl | hi
    · exact h.tasks_lt n hn task hmem
    · exact h.opened_lt n hn i hi
  · show ((s.tasks.set k { task with ready := true }).map RunningTask.taskID).Nodup
    rw [hids]
    exact h.nodup
  · -- the thread inside `getNextTaskID` is to get an ID that is not this task's
    rcases h.allocations with hnil | ⟨a, hone, hsound⟩
    · exact .inl hnil
    · refine .inr ⟨a, hone, ?_⟩
      obtain ⟨p, point⟩ := a
      cases point with
      | locked => trivial
      | read nextID => exact hsound
      | incremented nextID =>
        obtain ⟨hlt, hfresh, hclosed⟩ := hsound
        refine ⟨hlt, ?_, ?_⟩
        · intro t ht
          obtain ⟨t', ht', heq⟩ := hsame t ht
          rw [← heq]
          exact hfresh t' ht'
        · intro hopened
          rcases List.mem_cons.mp hopened with heq | hopened
          · exact hfresh task hmem (UInt32.toNat_inj.mp heq.symm)
          · exact hclosed hopened
  · intro t ht
    obtain ⟨i, hi⟩ := List.mem_iff_getElem?.mp ht
    have hi' : (s.tasks.set k { task with ready := true })[i]? = some t := hi
    rw [List.getElem?_set] at hi'
    split at hi'
    case isTrue hk =>
      split at hi' <;> cases hi'
      exact ⟨fun _ => List.mem_cons_self .., fun _ => rfl⟩
    case isFalse hk =>
      -- another task has another ID
      have hne := h.taskID_ne hi' htask fun heq => hk heq.symm
      have hiff := h.opened_iff t (List.mem_of_getElem? hi')
      constructor
      · intro hready
        exact List.mem_cons_of_mem _ (hiff.mp hready)
      · intro hopened
        rcases List.mem_cons.mp hopened with heq | hopened
        · exact absurd (UInt32.toNat_inj.mp heq) hne
        · exact hiff.mpr hopened
  · intro i Q hQ
    by_cases hi : i = task.taskID.toNat
    · exact .inr (hi ▸ List.mem_cons_self ..)
    · have hQ' : Function.update s.queues task.taskID.toNat _ i = some Q := hQ
      rw [Function.update_of_ne hi] at hQ'
      exact (h.empty i Q hQ').imp_right (List.mem_cons_of_mem _)

theorem finish (h : s.Distinct) (k : Nat) : Distinct { s with tasks := s.tasks.eraseIdx k } where
  absent hnone := by
    obtain ⟨htasks, hrest⟩ := h.absent hnone
    refine ⟨?_, hrest⟩
    show s.tasks.eraseIdx k = []
    rw [htasks]
    rfl
  tasks_lt n hn task htask := h.tasks_lt n hn task (List.mem_of_mem_eraseIdx htask)
  opened_lt := h.opened_lt
  nodup := h.nodup.sublist ((List.eraseIdx_sublist _ _).map _)
  unlocked := h.unlocked
  allocations := by
    rcases h.allocations with hnil | ⟨⟨p, point⟩, hone, hsound⟩
    · exact .inl hnil
    · refine .inr ⟨⟨p, point⟩, hone, ?_⟩
      cases point with
      | locked => trivial
      | read nextID => exact hsound
      | incremented nextID =>
        obtain ⟨hlt, hfresh, hclosed⟩ := hsound
        exact ⟨hlt, fun task htask => hfresh task (List.mem_of_mem_eraseIdx htask), hclosed⟩
  opened_iff task htask := h.opened_iff task (List.mem_of_mem_eraseIdx htask)
  empty := h.empty

/-- An operation on a queue that has been opened. -/
theorem useQueue (h : s.Distinct) {p taskID : Nat} (hopened : taskID ∈ s.opened)
    (f : Segment → Segment) :
    Distinct { s.checkQAndAcquire p taskID with
      queues := Function.update s.queues taskID ((s.queues taskID).map f) } := by
  refine h.congr rfl rfl rfl rfl rfl ?_ ?_
  · intro hnone q
    have htable := (h.absent hnone).2.2.2
    show Function.update s.table p _ q = none
    by_cases hq : q = p
    · rw [hq, Function.update_self, htable p]
      rfl
    · rw [Function.update_of_ne hq, htable q]
  · -- only the queue that is open may have changed
    intro i Q hQ
    by_cases hi : i = taskID
    · exact .inr (hi ▸ hopened)
    · have hQ' : Function.update s.queues taskID _ i = some Q := hQ
      rw [Function.update_of_ne hi] at hQ'
      exact h.empty i Q hQ'

/-- **Step**: IDs stay distinct. -/
theorem step (h : s.Distinct) (hG : s.Orderly e) (hs : s.step e = some s') : s'.Distinct := by
  cases step_moves hs with
  | create p => exact createStep hG
  | acquire p hn =>
    refine h.congr rfl rfl rfl rfl rfl ?_ h.empty
    intro hnone
    rw [hn] at hnone
    cases hnone
  | lockTaskID hfree htable => exact h.lock hfree htable
  | readTaskID ha hn => exact h.read ha hn
  | incrementTaskID ha hn => exact h.increment ha hn (hG _ hn)
  | unlockTaskID ha => exact h.unlock ha
  | createMsgQ htask hnew => exact h.createMsgQ htask
  | finish hk => exact h.finish _
  | send base msg htable hknown => exact h.useQueue hG fun Q => (enqueue base Q msg.toMessage).1
  | dequeue P htask hready =>
    -- a task that is ready has opened its queue
    have hopened := (h.opened_iff _ (List.mem_of_getElem? htask)).mp hready
    exact h.useQueue hopened fun Q => (TaskSystem.dequeue P Q).1
  | @messageNotify k task htask hready =>
    have hopened := (h.opened_iff task (List.mem_of_getElem? htask)).mp hready
    have hused := h.useQueue (p := task.process) hopened id
    rw [Option.map_id_fun, id, Function.update_eq_self] at hused
    exact hused
  | setName name htask =>
    exact h.congr rfl rfl rfl rfl rfl (fun hnone => (h.absent hnone).2.2.2) h.empty
  | signalPass htable => exact h

/-- A queue that is created now holds nothing and has no reader. -/
theorem resetsNothing (h : s.Distinct) (hs : s.step e = some s') : s.ResetsNothing e := by
  cases step_moves hs with
  | @createMsgQ k task htask hnew =>
    intro task' htask'
    obtain rfl : task = task' := Option.some.inj (htask.symm.trans htask')
    have hclosed : task.taskID.toNat ∉ s.opened := by
      intro hopened
      rw [(h.opened_iff task (List.mem_of_getElem? htask)).mpr hopened] at hnew
      cases hnew
    refine ⟨?_, ?_⟩
    · intro Q hQ
      exact (h.empty _ Q hQ).resolve_right hclosed
    · intro other hother hready heq
      apply hclosed
      rw [← heq]
      exact (h.opened_iff other hother).mp hready
  | create | acquire | lockTaskID | readTaskID | incrementTaskID | unlockTaskID | finish | send
  | dequeue | messageNotify | setName | signalPass => trivial

end Distinct

/-- **When task IDs are identities.** In all runs whose steps meet the condition, no two running
    tasks hold the same ID, and no step resets a queue that holds messages or that a running
    task reads. -/
theorem identity_unique (h : runtime.ReachableWhen Orderly s) :
    (s.tasks.map RunningTask.taskID).Nodup ∧
      ∀ e s', runtime.step s e = some s' → s.ResetsNothing e := by
  -- one step keeps the IDs distinct, and so does a run
  have hdistinct : s.Distinct := by
    refine System.ReachableWhen.invariant ?_ ?_ h
    · rintro s ⟨names, rfl⟩
      exact distinct_boot names
    · exact fun s e s' h hG hs => h.step hG hs
  exact ⟨hdistinct.nodup, fun e s' hs => hdistinct.resetsNothing hs⟩

/-- The condition, for every step but `System_create`. -/
def orderlyCheck (s : Runtime) : RuntimeEvent → Bool
  | .create _ => false
  | .send _ taskID _ _ => decide (taskID ∈ s.opened)
  | e => decide (s.FewTasks e)

theorem orderly_of_check (h : s.orderlyCheck e = true) : s.Orderly e := by
  cases e with
  | create p => cases h
  | _ => simpa [orderlyCheck, Orderly] using h

/-- Process 0 creates the system and a task, to which it sends a message; process 1 maps the
    system and has got the ID of a task of its own. -/
def twoCreators : List RuntimeEvent :=
  createTask 0 0 ++
    [.send 0 1 4096 (.done (.create ⟨0, 0, 0, 1⟩ 8)), .acquire 1, .lockTaskID 1, .readTaskID 0,
      .incrementTaskID 0, .unlockTaskID 0]

/-- The two tasks have different IDs, and the queue created next, beside one that holds a
    message, is reset before anything is in it. -/
theorem identity_unique_two : ∃ s s', runtime.ReachableWhen Orderly s ∧
    s.tasks.map (fun task => (task.process, task.taskID)) = [(0, 1), (1, 2)] ∧
      (s.queues 1).map isEmpty = some 0 ∧ (s.tasks.map RunningTask.taskID).Nodup ∧
        runtime.step s (.createMsgQ 1) = some s' ∧ s.ResetsNothing (.createMsgQ 1) := by
  have hrun : (runtime.runFrom (boot fun _ => 0) (.create 0 :: twoCreators)).map
      (fun s => (s.tasks.map fun task => (task.process, task.taskID), (s.queues 1).map isEmpty,
        (s.step (.createMsgQ 1)).isSome)) = some ([(0, 1), (1, 2)], some 0, true) := by
    decide +kernel
  have hlater : runtime.Along (fun s e => s.orderlyCheck e = true) ((boot fun _ => 0).create 0)
      twoCreators := by
    decide +kernel
  have horderly : runtime.Along Orderly (boot fun _ => 0) (.create 0 :: twoCreators) := by
    refine ⟨⟨rfl, rfl, fun taskID Q hQ => nomatch hQ⟩, ?_⟩
    rintro _ ⟨⟩
    exact hlater.mono fun s e => orderly_of_check
  obtain ⟨s, hs, hobs⟩ := Option.map_eq_some_iff.mp hrun
  obtain ⟨hids, hrest⟩ := Prod.mk.inj hobs
  obtain ⟨hfull, hsome⟩ := Prod.mk.inj hrest
  obtain ⟨s', hs'⟩ := Option.isSome_iff_exists.mp hsome
  have hreach := horderly.reachableWhen (.init ⟨_, rfl⟩) hs
  obtain ⟨hnodup, hresets⟩ := identity_unique hreach
  exact ⟨s, s', hreach, hids, hfull, hnodup, hs', hresets _ s' hs'⟩

/-- **Two creators**: process 0 creates the system and a task, to which a message is sent; then
    process 1 creates the system and a task as well. Both tasks have ID 1, and the second one's
    `createMsgQ` resets the queue of the first with the message in it. -/
theorem identity_lost : ∃ s s', runtime.Reachable s ∧ runtime.step s (.createMsgQ 1) = some s' ∧
    ¬(s.tasks.map RunningTask.taskID).Nodup ∧ ¬s.ResetsNothing (.createMsgQ 1) ∧
      (s.queues 1).map isEmpty = some 0 ∧ (s'.queues 1).map isEmpty = some 1 := by
  have hrun : (runtime.runFrom (boot fun _ => 0)
      (.create 0 :: createTask 0 0 ++
        [.send 0 1 4096 (.done (.create ⟨0, 0, 0, 1⟩ 8)), .create 1, .lockTaskID 1, .readTaskID 0,
          .incrementTaskID 0, .unlockTaskID 0])).map
        (fun s => (s.tasks.map fun task => (task.taskID, task.ready), (s.queues 1).map isEmpty,
          (s.step (.createMsgQ 1)).map fun s' => (s'.queues 1).map isEmpty)) =
      some ([(1, true), (1, false)], some 0, some (some 1)) := by
    decide +kernel
  obtain ⟨s, hs, hobs⟩ := Option.map_eq_some_iff.mp hrun
  obtain ⟨htasks, hrest⟩ := Prod.mk.inj hobs
  obtain ⟨hfull, hstep⟩ := Prod.mk.inj hrest
  obtain ⟨s', hs', hreset⟩ := Option.map_eq_some_iff.mp hstep
  -- both tasks have been given ID 1
  have hids : s.tasks.map RunningTask.taskID = [1, 1] := by
    have hfst := congrArg (List.map Prod.fst) htasks
    rwa [List.map_map] at hfst
  refine ⟨s, s', System.Reachable.runFrom (.init ⟨_, rfl⟩) _ hs, hs', ?_, ?_, hfull, hreset⟩
  · rw [hids]
    decide
  · -- the queue of the second task is that of the first, which is not empty
    intro hnothing
    obtain ⟨Q, hQ, hempty⟩ := Option.map_eq_some_iff.mp hfull
    have hsecond : (s.tasks.map RunningTask.taskID)[1]? = some 1 := by rw [hids]; rfl
    rw [List.getElem?_map] at hsecond
    obtain ⟨task, htask, hid⟩ := Option.map_eq_some_iff.mp hsecond
    have hone := (hnothing task htask).1 Q (by rw [hid]; exact hQ)
    rw [hempty] at hone
    cases hone

end Runtime

end TaskSystem
