import TaskSystem.System.Runtime

/-!
# Task IDs as Indices

`TaskTable`, `sleepers` and the name tables have `MAX_TASK` entries, and the IDs that index them
come from a counter that nobody compares with `MAX_TASK`.

## Contents

- `Inside`, `FewTasks`, `InTables`: steps inside the tables, the condition, the invariant
- `ids_inside`: when every step stays inside
- `ids_outside`: a hundred tasks
-/

namespace TaskSystem

open Library Repository

namespace Runtime

/-- The step uses entries of the tables only. -/
def Inside (s : Runtime) (e : RuntimeEvent) : Prop := ∀ i ∈ s.indices e, i < maxTask

/-- **The condition on the steps**: `getNextTaskID` reads and increments the counter only while
    it is below `MAX_TASK`. -/
def FewTasks (s : Runtime) : RuntimeEvent → Prop
  | .readTaskID _ | .incrementTaskID _ => ∀ n, s.nextTaskID = some n → n.toNat < maxTask
  | _ => True

/-- The counter is compared if there is one. -/
def decFew : (o : Option UInt32) → Decidable (∀ n, o = some n → n.toNat < maxTask)
  | none => isTrue fun _ h => nomatch h
  | some m => decidable_of_iff (m.toNat < maxTask)
    ⟨fun h _ hn => Option.some.inj hn ▸ h, fun h => h m rfl⟩

instance (s : Runtime) : (e : RuntimeEvent) → Decidable (s.FewTasks e)
  | .readTaskID _ | .incrementTaskID _ => decFew s.nextTaskID
  | .create _ | .acquire _ | .lockTaskID _ | .unlockTaskID _ | .createMsgQ _ | .finish _
  | .send .. | .dequeue .. | .messageNotify _ | .setName .. | .signalPass _ => isTrue trivial

/-- Every ID that has been read lies in the tables, and the counter not behind their end. -/
structure InTables (s : Runtime) : Prop where
  counter : ∀ n, s.nextTaskID = some n → n.toNat ≤ maxTask
  allocations : ∀ a ∈ s.allocations, ∀ nextID,
    a.point = .read nextID ∨ a.point = .incremented nextID → nextID.toNat < maxTask
  tasks : ∀ task ∈ s.tasks, task.taskID.toNat < maxTask
  known : ∀ i ∈ s.known, i < maxTask

theorem inTables_boot (names : Mem) : (boot names).InTables where
  counter n hn := by cases hn
  allocations a ha := by cases ha
  tasks task htask := by cases htask
  known i hi := by cases hi

variable {s s' : Runtime} {e : RuntimeEvent}

/-- A step of `getNextTaskID` keeps the other threads where they are. -/
theorem InTables.moveTo (h : s.InTables) {j : Nat} {a : Allocation} {point : AllocationPoint}
    (hpoint : ∀ nextID, point = .read nextID ∨ point = .incremented nextID →
      nextID.toNat < maxTask) : (s.moveTo j a point).InTables where
  counter := h.counter
  allocations := by
    intro b hb nextID hb'
    -- either another thread, or the one that has moved
    rcases List.mem_or_eq_of_mem_set hb with hb | rfl
    · exact h.allocations b hb nextID hb'
    · exact hpoint nextID hb'
  tasks := h.tasks
  known := h.known

/-- **Step**: IDs stay in the tables. -/
theorem InTables.step (h : s.InTables) (hG : s.FewTasks e) (hs : s.step e = some s') :
    s'.InTables := by
  cases step_moves hs with
  | create p =>
    refine ⟨?_, h.allocations, h.tasks, h.known⟩
    rintro n ⟨⟩
    decide
  | lockTaskID hfree htable =>
    refine ⟨h.counter, ?_, h.tasks, h.known⟩
    intro a ha nextID ha'
    rcases List.mem_append.mp ha with ha | ha
    · exact h.allocations a ha nextID ha'
    · -- a thread that has just entered has read nothing
      obtain rfl := List.mem_singleton.mp ha
      rcases ha' with ha' | ha' <;> cases ha'
  | readTaskID ha hn =>
    apply h.moveTo
    rintro _ (heq | heq) <;> cases heq
    exact hG _ hn
  | @incrementTaskID j p nextID n ha hn =>
    have hread := h.allocations _ (List.mem_of_getElem? ha) nextID (.inl rfl)
    have hmoved : (s.moveTo j ⟨p, .read nextID⟩ (.incremented nextID)).InTables := by
      apply h.moveTo
      rintro _ (heq | heq) <;> cases heq
      exact hread
    refine ⟨?_, hmoved.allocations, hmoved.tasks, hmoved.known⟩
    -- the counter was below the end before it was incremented
    rintro _ ⟨⟩
    have hlt := hG _ hn
    unfold maxTask at hlt ⊢
    rw [UInt32.toNat_add]
    show (n.toNat + 1) % 4294967296 ≤ 100
    omega
  | @unlockTaskID j p nextID ha =>
    have hread := h.allocations _ (List.mem_of_getElem? ha) nextID (.inr rfl)
    refine ⟨h.counter, ?_, ?_, ?_⟩
    · intro b hb
      exact h.allocations b (List.mem_of_mem_eraseIdx hb)
    · intro task htask
      rcases List.mem_append.mp htask with htask | htask
      · exact h.tasks task htask
      · obtain rfl := List.mem_singleton.mp htask
        exact hread
    · intro i hi
      rcases List.mem_cons.mp hi with rfl | hi
      · exact hread
      · exact h.known i hi
  | @createMsgQ k task htask hnew =>
    refine ⟨h.counter, h.allocations, ?_, h.known⟩
    intro task' htask'
    rcases List.mem_or_eq_of_mem_set htask' with htask' | rfl
    · exact h.tasks task' htask'
    · exact h.tasks task (List.mem_of_getElem? htask)
  | finish hk =>
    refine ⟨h.counter, h.allocations, ?_, h.known⟩
    intro task htask
    exact h.tasks task (List.mem_of_mem_eraseIdx htask)
  | acquire p hn => exact ⟨h.counter, h.allocations, h.tasks, h.known⟩
  | send base msg htable hknown => exact ⟨h.counter, h.allocations, h.tasks, h.known⟩
  | dequeue P htask hready => exact ⟨h.counter, h.allocations, h.tasks, h.known⟩
  | messageNotify htask hready => exact ⟨h.counter, h.allocations, h.tasks, h.known⟩
  | setName name htask => exact ⟨h.counter, h.allocations, h.tasks, h.known⟩
  | signalPass htable => exact h

/-- Steps that are taken use entries of the tables only. -/
theorem InTables.inside (h : s.InTables) (hs : s.step e = some s') : s.Inside e := by
  have htask : ∀ (k i : Nat),
      i ∈ (s.tasks[k]?.map fun task : RunningTask => task.taskID.toNat).toList → i < maxTask := by
    intro k i hi
    obtain ⟨task, htask, rfl⟩ := Option.map_eq_some_iff.mp (Option.mem_toList.mp hi)
    exact h.tasks task (List.mem_of_getElem? htask)
  intro i hi
  cases step_moves hs with
  | createMsgQ | dequeue | messageNotify | setName => exact htask _ i hi
  | send base msg htable hknown =>
    obtain rfl := List.mem_singleton.mp hi
    exact h.known _ hknown
  | signalPass htable =>
    -- the pass stops before the counter, which is not behind the end
    cases hn : s.nextTaskID with
    | none =>
      simp only [indices, hn] at hi
      cases hi
    | some n =>
      have hle := h.counter n hn
      have hi' := List.mem_range.mp hi
      simp only [hn, Option.map_some, Option.getD_some] at hi'
      have hint : n.toInt32.toInt = n.toNat := by
        unfold maxTask at hle
        rw [← UInt32.ofNat_toNat (x := n), UInt32.toInt32_ofNat', ← Int32.ofInt_eq_ofNat,
          UInt32.ofNat_toNat]
        exact Int32.toInt_ofInt_of_le (by omega) (by omega)
      rw [hint] at hi'
      omega
  | create | acquire | lockTaskID | readTaskID | incrementTaskID | unlockTaskID | finish => cases hi

/-- The ID a thread reads while the counter is not below `MAX_TASK` is one that its `createMsgQ`
    uses outside the table. -/
theorem outside_of_read {j : Nat} {s₁ : Runtime} (hmany : ¬s.FewTasks (.readTaskID j))
    (hs : s.step (.readTaskID j) = some s₁) :
    ∃ s₂ k s₃, runtime.runFrom s₁ [.incrementTaskID j, .unlockTaskID j] = some s₂ ∧
      s₂.step (.createMsgQ k) = some s₃ ∧ ¬s₂.Inside (.createMsgQ k) := by
  cases step_moves hs with
  | @readTaskID _ p nextID ha hn =>
    obtain ⟨hlt, -⟩ := List.getElem?_eq_some_iff.mp ha
    -- the three states are named, so that nothing computes with the numbers in them
    obtain ⟨sr, hsr⟩ : ∃ sr, s.moveTo j ⟨p, .locked⟩ (.read nextID) = sr := ⟨_, rfl⟩
    have hread : sr.allocations[j]? = some ⟨p, .read nextID⟩ := by
      rw [← hsr]
      exact List.getElem?_set_self hlt
    have hcounter : sr.nextTaskID = some nextID := by
      rw [← hsr]
      exact hn
    have hincremented : (sr.increment j ⟨p, .read nextID⟩ nextID nextID).allocations[j]? =
        some ⟨p, .incremented nextID⟩ :=
      List.getElem?_set_self (List.getElem?_eq_some_iff.mp hread).1
    obtain ⟨si, hsi⟩ : ∃ si, sr.increment j ⟨p, .read nextID⟩ nextID nextID = si := ⟨_, rfl⟩
    rw [hsi] at hincremented
    -- the new task is the last one
    have hlast : (si.handOut j ⟨p, .incremented nextID⟩ nextID).tasks[si.tasks.length]? =
        some ⟨p, nextID, false⟩ := List.getElem?_concat_length
    refine ⟨si.handOut j ⟨p, .incremented nextID⟩ nextID, si.tasks.length,
      (si.handOut j ⟨p, .incremented nextID⟩ nextID).createMsgQ si.tasks.length
        ⟨p, nextID, false⟩, ?_, ?_, ?_⟩
    · rw [hsr]
      simp only [System.runFrom, runtime, Runtime.step, hread, hcounter, hsi, hincremented,
        Option.bind_some]
    · simp only [Runtime.step, hlast]
      rfl
    · intro hinside
      apply hmany
      intro n hn'
      obtain rfl : nextID = n := Option.some.inj (hn.symm.trans hn')
      apply hinside
      simp only [indices, hlast]
      exact List.mem_singleton.mpr rfl

/-- **When task IDs are indices.** In all runs in which `getNextTaskID` is entered only while the
    counter is below `MAX_TASK`, every step uses table entries only; and a task created at any
    other time uses one outside as soon as its queue is created. -/
theorem ids_inside (s : Runtime) :
    (∀ e s', runtime.ReachableWhen FewTasks s → runtime.step s e = some s' → s.Inside e) ∧
      ∀ j s₁, ¬s.FewTasks (.readTaskID j) → runtime.step s (.readTaskID j) = some s₁ →
        ∃ s₂ k s₃, runtime.runFrom s₁ [.incrementTaskID j, .unlockTaskID j] = some s₂ ∧
          runtime.step s₂ (.createMsgQ k) = some s₃ ∧ ¬s₂.Inside (.createMsgQ k) := by
  -- the invariant holds in all runs of the first part; the second is one creation
  refine ⟨?_, fun j s₁ hmany hs => outside_of_read hmany hs⟩
  intro e s' hreach hs
  have hin : s.InTables := by
    refine System.ReachableWhen.invariant ?_ ?_ hreach
    · rintro s ⟨names, rfl⟩
      exact inTables_boot names
    · exact fun s e s' h hG hs => h.step hG hs
  exact hin.inside hs

/-- **A sort with 98 buckets** fills the table: the last bucket gets ID 99, and its queue the
    last entry. The thread that is in `getNextTaskID` next gets an ID outside. -/
theorem ids_inside_full :
    (∃ s s', runtime.ReachableWhen FewTasks s ∧ runtime.step s (.createMsgQ 98) = some s' ∧
      s.indices (.createMsgQ 98) = [99] ∧ s.Inside (.createMsgQ 98)) ∧
    ∃ s s₂ k s₃, runtime.Reachable s ∧ s.tasks.length = 99 ∧
      runtime.runFrom s [.readTaskID 0, .incrementTaskID 0, .unlockTaskID 0] = some s₂ ∧
        runtime.step s₂ (.createMsgQ k) = some s₃ ∧ ¬s₂.Inside (.createMsgQ k) := by
  constructor
  · have hrun : (runtime.runFrom (boot fun _ => 0)
        (.create 0 :: (List.range 98).flatMap (createTask 0) ++
          [.lockTaskID 0, .readTaskID 0, .incrementTaskID 0, .unlockTaskID 0])).map
            (fun s => (s.indices (.createMsgQ 98), (s.step (.createMsgQ 98)).isSome)) =
        some ([99], true) := by
      decide +kernel
    have hfew : runtime.Along FewTasks (boot fun _ => 0)
        (.create 0 :: (List.range 98).flatMap (createTask 0) ++
          [.lockTaskID 0, .readTaskID 0, .incrementTaskID 0, .unlockTaskID 0]) := by
      decide +kernel
    obtain ⟨s, hs, hobs⟩ := Option.map_eq_some_iff.mp hrun
    obtain ⟨hindices, hsome⟩ := Prod.mk.inj hobs
    obtain ⟨s', hs'⟩ := Option.isSome_iff_exists.mp hsome
    have hreach := hfew.reachableWhen (.init ⟨_, rfl⟩) hs
    exact ⟨s, s', hreach, hs', hindices, (ids_inside s).1 _ s' hreach hs'⟩
  · have hrun : (runtime.runFrom (boot fun _ => 0)
        (.create 0 :: (List.range 99).flatMap (createTask 0) ++ [.lockTaskID 0])).map
          (fun s => (s.tasks.length, decide (s.FewTasks (.readTaskID 0)),
            (s.step (.readTaskID 0)).isSome)) = some (99, false, true) := by
      decide +kernel
    obtain ⟨s, hs, hobs⟩ := Option.map_eq_some_iff.mp hrun
    obtain ⟨hlen, hrest⟩ := Prod.mk.inj hobs
    obtain ⟨hmany, hsome⟩ := Prod.mk.inj hrest
    obtain ⟨s₁, hs₁⟩ := Option.isSome_iff_exists.mp hsome
    obtain ⟨s₂, k, s₃, hs₂, hs₃, houtside⟩ :=
      (ids_inside s).2 0 s₁ (of_decide_eq_false hmany) hs₁
    refine ⟨s, s₂, k, s₃, System.Reachable.runFrom (.init ⟨_, rfl⟩) _ hs, hlen, ?_, hs₃, houtside⟩
    exact Option.bind_eq_some_iff.mpr ⟨s₁, hs₁, hs₂⟩

/-- **A sort with 99 buckets**: the root gets ID 1, and the last bucket ID 100, with which
    `createMsgQ` writes behind the table. -/
theorem ids_outside : ∃ s s', runtime.Reachable s ∧
    runtime.step s (.createMsgQ 99) = some s' ∧ s.indices (.createMsgQ 99) = [maxTask] ∧
      ¬s.Inside (.createMsgQ 99) := by
  have hrun : (runtime.runFrom (boot fun _ => 0)
      (.create 0 :: (List.range 99).flatMap (createTask 0) ++
        [.lockTaskID 0, .readTaskID 0, .incrementTaskID 0, .unlockTaskID 0])).map
          (fun s => (s.indices (.createMsgQ 99), (s.step (.createMsgQ 99)).isSome)) =
      some ([maxTask], true) := by
    decide +kernel
  obtain ⟨s, hs, hobs⟩ := Option.map_eq_some_iff.mp hrun
  obtain ⟨hindices, hsome⟩ := Prod.mk.inj hobs
  obtain ⟨s', hs'⟩ := Option.isSome_iff_exists.mp hsome
  have hreach : runtime.Reachable s := System.Reachable.runFrom (.init ⟨_, rfl⟩) _ hs
  refine ⟨s, s', hreach, hs', hindices, ?_⟩
  intro hinside
  have hlt := hinside maxTask (by rw [hindices]; exact List.mem_singleton.mpr rfl)
  exact Nat.lt_irrefl _ hlt

end Runtime

end TaskSystem
