import TaskSystem.Exploration.ThreadSampleSort.Invariant

/-!
# The Threaded Sample Sort Sorts

Every step brings the end nearer, some thread can go on until it is reached, and there the tasks'
data are the sorted input: for two tasks or more and at least as many values as the square of
their number. One task alone has one splitter and sends its values nowhere; with fewer values the
step of the sampling loop is zero.

## Contents

- `State.rank`, `rank_step`: every step lowers the rank
- `exists_step`: some thread can go on
- `result_of_done`: the tasks' data at the end
- `sorts_iff`: the sample sort sorts exactly then
- `sorts_fails`: two values for two tasks
-/

namespace TaskSystem.ThreadSampleSort

open Library Library.CellRing

variable {α : Type*}

/-! ## The rank -/

/-- The steps that a task has still to make, at most -/
def Task.rank (w : Task α) : Nat :=
  match w.point with
  | .start => w.sample.length + 5
  | .send _ => w.sample.length + 4
  | .barrier => w.sample.length + 3
  | .waiting => w.sample.length + 2
  | .swap rest => rest.length + 1
  | .done | .failed => 0

/-- The steps of the main function, and of the tasks it has still to create -/
def MainPoint.rank (x : Input α) (main : MainPoint) : Nat :=
  match main with
  | .spawn ki _ => (x.unspawned main).length + (x.K - ki) * 6 + 2 * x.K + 10
  | .waitEvent => 2 * x.K + 9
  | .setSplitters ki => (x.K - ki) + x.K + 7
  | .barrier => x.K + 6
  | .waiting => x.K + 5
  | .join ki => (x.K - ki) + 2
  | .done | .failed => 0

def State.rank (x : Input α) (s : State α) : Nat := s.main.rank x + tally Task.rank s.threads

variable {x : Input α} {s s' : State α} {k : Nat} {w w' : Task α}

theorem rank_setThread (hw : s.threads[k]? = some w) (hthreads : s'.threads = s.threads.set k w')
    (hmain : s'.main = s.main) (hless : w'.rank < w.rank) : s'.rank x < s.rank x := by
  have htally := tally_set hw Task.rank w'
  rw [State.rank, State.rank, hthreads, hmain]
  omega

theorem rank_setMain (hthreads : s'.threads = s.threads)
    (hless : s'.main.rank x < s.main.rank x) : s'.rank x < s.rank x := by
  rw [State.rank, State.rank, hthreads]
  exact Nat.add_lt_add_right hless _

section Steps

variable [LinearOrder α]

theorem rank_run (hw : s.threads[k]? = some w) (hstep : s.run x k w = some s') :
    s'.rank x < s.rank x := by
  cases hpoint : w.point with
  | start =>
    simp only [State.run, hpoint] at hstep
    split at hstep
    · rw [← Option.some.inj hstep]
      exact rank_setThread hw rfl rfl (by simp [Task.rank, hpoint])
    · rw [← Option.some.inj hstep]
      exact rank_setThread hw rfl rfl (by simp [Task.rank, hpoint])
  | send xs =>
    simp only [State.run, hpoint, Option.some.injEq] at hstep
    rw [← hstep]
    exact rank_setThread hw rfl rfl (by simp [Task.rank, hpoint])
  | barrier =>
    simp only [State.run, hpoint, Option.some.injEq] at hstep
    rw [← hstep]
    exact rank_setThread hw rfl rfl (by simp [Task.rank, hpoint])
  | waiting =>
    simp only [State.run, hpoint] at hstep
    split at hstep
    · rw [← Option.some.inj hstep]
      exact rank_setThread hw rfl rfl (by simp [Task.rank, hpoint])
    · cases hstep
  | swap values =>
    cases values with
    | nil =>
      simp only [State.run, hpoint, Option.some.injEq] at hstep
      rw [← hstep]
      exact rank_setThread hw rfl rfl (by simp [Task.rank, hpoint])
    | cons val rest =>
      have hrest : ({ w with point := .swap rest } : Task α).rank < w.rank := by
        simp [Task.rank, hpoint]
      simp only [State.run, hpoint] at hstep
      split at hstep
      · rw [← Option.some.inj hstep]
        exact rank_setThread hw rfl rfl (by simp [Task.rank, hpoint])
      · split at hstep
        · rw [← Option.some.inj hstep]
          exact rank_setThread hw rfl rfl hrest
        · split at hstep
          · rw [← Option.some.inj hstep]
            exact rank_setThread hw rfl rfl (by simp [Task.rank, hpoint])
          next i _ target hi =>
            -- the task that the value goes to has no more to do than before
            rw [← Option.some.inj hstep]
            have hsender := tally_set hw Task.rank { w with point := .swap rest }
            have hreceiver := tally_set hi Task.rank (target.insertValue val)
            have hsame : (target.insertValue val).rank = target.rank := rfl
            simp only [State.rank]
            omega
  | done => simp [State.run, hpoint] at hstep
  | failed => simp [State.run, hpoint] at hstep

theorem rank_mainStep (hstep : s.mainStep x = some s') : s'.rank x < s.rank x := by
  cases hmain : s.main with
  | spawn ki currentIndex =>
    simp only [State.mainStep, hmain] at hstep
    split at hstep
    next hki =>
      rw [← Option.some.inj hstep]
      have hlength := congrArg List.length (Input.dataToTask_append_unspawned hki currentIndex)
      rw [List.length_append] at hlength
      simp only [State.rank, hmain, MainPoint.rank, tally_append]
      simp only [tally, List.map_cons, List.map_nil, List.sum_cons, List.sum_nil, Task.rank]
      omega
    next =>
      rw [← Option.some.inj hstep]
      exact rank_setMain rfl (by simp only [hmain, MainPoint.rank]; omega)
  | waitEvent =>
    simp only [State.mainStep, hmain] at hstep
    split at hstep
    · split at hstep
      · rw [← Option.some.inj hstep]
        exact rank_setMain rfl (by simp only [hmain, MainPoint.rank]; omega)
      · rw [← Option.some.inj hstep]
        exact rank_setMain rfl (by simp only [hmain, MainPoint.rank]; omega)
    · cases hstep
  | setSplitters ki =>
    simp only [State.mainStep, hmain] at hstep
    split at hstep
    next hki =>
      obtain ⟨w, hw, rfl⟩ := Option.map_eq_some_iff.mp hstep
      have htally := tally_set hw Task.rank { w with splitters := some s.splitters }
      have hsame : ({ w with splitters := some s.splitters } : Task α).rank = w.rank := rfl
      simp only [State.rank, hmain, MainPoint.rank]
      omega
    next =>
      rw [← Option.some.inj hstep]
      exact rank_setMain rfl (by simp only [hmain, MainPoint.rank]; omega)
  | barrier =>
    simp only [State.mainStep, hmain, Option.some.injEq] at hstep
    rw [← hstep]
    exact rank_setMain rfl (by simp only [hmain, MainPoint.rank]; omega)
  | waiting =>
    simp only [State.mainStep, hmain] at hstep
    split at hstep
    · rw [← Option.some.inj hstep]
      exact rank_setMain rfl (by simp only [hmain, MainPoint.rank]; omega)
    · cases hstep
  | join ki =>
    simp only [State.mainStep, hmain] at hstep
    split at hstep
    next hki =>
      obtain ⟨w, -, hended⟩ := Option.bind_eq_some_iff.mp hstep
      split at hended
      · rw [← Option.some.inj hended]
        exact rank_setMain rfl (by simp only [hmain, MainPoint.rank]; omega)
      · cases hended
    next =>
      rw [← Option.some.inj hstep]
      exact rank_setMain rfl (by simp only [hmain, MainPoint.rank]; omega)
  | done => simp [State.mainStep, hmain] at hstep
  | failed => simp [State.mainStep, hmain] at hstep

/-- **Every step brings the end nearer.** -/
theorem rank_step {turn : Turn} (hstep : (samplesort x).step s turn = some s') :
    s'.rank x < s.rank x := by
  cases turn with
  | main => exact rank_mainStep hstep
  | task k =>
    obtain ⟨w, hw, hrun⟩ := Option.bind_eq_some_iff.mp hstep
    exact rank_run hw hrun

/-! ## Progress -/

/-- A task that has not ended and does not wait can go on. -/
theorem exists_run (k : Nat) (hended : w.point.ended = false)
    (hwaiting : w.point = .waiting → s.arrived = x.K + 1) : ∃ s', s.run x k w = some s' := by
  cases hpoint : w.point with
  | start =>
    simp only [State.run, hpoint]
    split <;> exact ⟨_, rfl⟩
  | send xs => exact ⟨_, by simp only [State.run, hpoint]; rfl⟩
  | barrier => exact ⟨_, by simp only [State.run, hpoint]; rfl⟩
  | waiting => exact ⟨_, by simp only [State.run, hpoint, if_pos (hwaiting hpoint)]; rfl⟩
  | swap values =>
    cases values with
    | nil => exact ⟨_, by simp only [State.run, hpoint]; rfl⟩
    | cons val rest =>
      simp only [State.run, hpoint]
      split
      · exact ⟨_, rfl⟩
      · split
        · exact ⟨_, rfl⟩
        · split <;> exact ⟨_, rfl⟩
  | done => rw [hpoint] at hended; cases hended
  | failed => rw [hpoint] at hended; cases hended

theorem exists_taskStep (hw : w ∈ s.threads) (hended : w.point.ended = false)
    (hwaiting : w.point = .waiting → s.arrived = x.K + 1) :
    ∃ turn s', (samplesort x).step s turn = some s' := by
  obtain ⟨k, hk⟩ := List.getElem?_of_mem hw
  obtain ⟨s', hs'⟩ := exists_run k hended hwaiting
  exact ⟨.task k, s', Option.bind_eq_some_iff.mpr ⟨w, hk, hs'⟩⟩

/-- **Some thread can go on** until the main function is done. -/
theorem exists_step (h : Inv x s) (hx : x.Enough) (hdone : s.main ≠ .done) :
    ∃ turn s', (samplesort x).step s turn = some s' := by
  have hcreated := h.tokens.created
  have harrived := h.tokens.arrived
  have hreleased := h.tokens.released
  cases hmain : s.main with
  | spawn ki currentIndex =>
    by_cases hki : ki < x.K
    · exact ⟨.main, _, by simp only [samplesort, State.mainStep, hmain, if_pos hki]; rfl⟩
    · exact ⟨.main, _, by simp only [samplesort, State.mainStep, hmain, if_neg hki]; rfl⟩
  | waitEvent =>
    rw [hmain] at hcreated
    cases hevent : s.event with
    | true =>
      obtain ⟨splitters, hpick, -⟩ := h.derive hx hmain hevent
      exact ⟨.main, _,
        by simp only [samplesort, State.mainStep, hmain, hevent, if_true, hpick]; rfl⟩
    | false =>
      -- some task has not sent its samples
      obtain ⟨w, hw, hsent⟩ : ∃ w ∈ s.threads, w.point.sent = false := by
        refine exists_of_tally_ne fun hall => ?_
        rw [← h.tokens.received, hcreated] at hall
        have hset := h.tokens.event.mpr hall
        rw [hevent] at hset
        cases hset
      have hdefined := h.tokens.defined w hw
      refine exists_taskStep hw ?_ ?_
      · revert hsent hdefined
        cases w.point <;> simp [TaskPoint.sent, TaskPoint.ended]
      · intro hpoint
        rw [hpoint] at hsent
        cases hsent
  | setSplitters ki =>
    rw [hmain] at hcreated
    by_cases hki : ki < x.K
    · have hw : s.threads[ki]? = some _ := List.getElem?_eq_getElem (hcreated.symm ▸ hki)
      exact ⟨.main, _, by simp only [samplesort, State.mainStep, hmain, if_pos hki, hw]; rfl⟩
    · exact ⟨.main, _, by simp only [samplesort, State.mainStep, hmain, if_neg hki]; rfl⟩
  | barrier => exact ⟨.main, _, by simp only [samplesort, State.mainStep, hmain]; rfl⟩
  | waiting =>
    rw [hmain] at hcreated harrived
    by_cases hopen : s.arrived = x.K + 1
    · exact ⟨.main, _, by simp only [samplesort, State.mainStep, hmain, if_pos hopen]; rfl⟩
    · -- some task has not come to the barrier
      obtain ⟨w, hw, hnot⟩ : ∃ w ∈ s.threads, w.point.arrived = false := by
        refine exists_of_tally_ne fun hall => hopen ?_
        rw [harrived, hall, hcreated]
        rfl
      have hdefined := h.tokens.defined w hw
      refine exists_taskStep hw ?_ ?_
      · revert hnot hdefined
        cases w.point <;> simp [TaskPoint.arrived, TaskPoint.ended]
      · intro hpoint
        rw [hpoint] at hnot
        cases hnot
  | join ki =>
    rw [hmain] at hcreated hreleased
    by_cases hki : ki < x.K
    · have hlt : ki < s.threads.length := hcreated.symm ▸ hki
      have hw := List.getElem?_eq_getElem hlt
      cases hended : s.threads[ki].point.ended with
      | true =>
        exact ⟨.main, { s with main := .join (ki + 1) },
          by simp [samplesort, State.mainStep, hmain, hki, hw, hended]⟩
      | false => exact exists_taskStep (List.getElem_mem hlt) hended fun _ => hreleased rfl
    · exact ⟨.main, _, by simp only [samplesort, State.mainStep, hmain, if_neg hki]; rfl⟩
  | done => exact absurd hmain hdone
  | failed => exact absurd hmain h.tokens.main_defined

/-! ## The result -/

/-- **At the end the tasks' data are the sorted input.** -/
theorem result_of_done (h : Inv x s) (hK : 2 ≤ x.K) (hmain : s.main = .done) :
    s.threads.flatMap (·.data) = sorted x.data := by
  have hopen := h.tokens.released (by rw [hmain]; rfl)
  have hcreated := h.tokens.created
  have hjoined := h.tokens.joined
  rw [hmain] at hcreated hjoined
  obtain ⟨-, hsplitters, -, -⟩ := h.splitters_of_open hopen
  refine eq_sorted ?_ ?_
  · rw [List.perm_iff_count]
    intro a
    -- nothing is pending any more
    have hshare : ∀ w ∈ s.threads, w.share a = w.data.count a := by
      intro w hw
      obtain ⟨k, hk⟩ := List.getElem?_of_mem hw
      have hlt := (List.getElem?_eq_some_iff.mp hk).1
      rw [hcreated] at hlt
      have hpoint := hjoined k hlt w hk
      simp [Task.share, Task.pending, hpoint]
    have hflow := h.flow hK a
    rw [tally_congr hshare, hmain] at hflow
    rw [List.count_flatMap]
    exact hflow
  · rw [List.pairwise_flatMap]
    refine ⟨h.contents.inOrder, ?_⟩
    rw [List.pairwise_iff_getElem]
    intro i j hi hj hij v hv v' hv'
    exact le_of_route hsplitters
      (h.contents.routed i _ (List.getElem?_eq_getElem hi) v hv)
      (h.contents.routed j _ (List.getElem?_eq_getElem hj) v' hv') hij

/-- With one task, no value is sent anywhere. -/
theorem data_eq_nil (h : Inv x s) (hK : x.K = 1) (hmain : s.main = .done) :
    s.threads.flatMap (·.data) = [] := by
  have hopen := h.tokens.released (by rw [hmain]; rfl)
  obtain ⟨-, -, hlength, -⟩ := h.splitters_of_open hopen
  rw [List.flatMap_eq_nil_iff]
  intro w hw
  obtain ⟨k, hk⟩ := List.getElem?_of_mem hw
  apply List.eq_nil_iff_forall_not_mem.mpr
  intro v hv
  have hroute := h.contents.routed k w hk v hv
  rw [route_eq_none (by omega)] at hroute
  cases hroute

/-! ## When it sorts -/

theorem sorts_of_enough (hK : 2 ≤ x.K) (hx : x.Enough) : x.Sorts where
  sampleStep := Nat.ne_of_gt hx.sampleStep_pos
  splitterStep s hs hderived := by
    have h := inv_of_reachable hx hs
    have hperm := h.rootSample_perm (h.tokens.derived hderived)
    rw [hperm.length_eq, hx.length_allSamples, Nat.mul_div_cancel_left _ x.K_pos]
    exact Nat.ne_of_gt hx.sampleCount_pos
  defined s hs := ⟨(inv_of_reachable hx hs).tokens.main_defined,
    (inv_of_reachable hx hs).tokens.defined⟩
  gathered s hs hderived :=
    (inv_of_reachable hx hs).rootSample_perm ((inv_of_reachable hx hs).tokens.derived hderived)
  splitters s hs hderived := ((inv_of_reachable hx hs).contents.splitters hderived).2
  progress s hs hdone := exists_step (inv_of_reachable hx hs) hx hdone
  bounded := by
    refine ⟨(initialized : State α).rank x, fun turns s hrun => ?_⟩
    have hle := System.length_add_rank_le (State.rank x) (I := fun _ => True)
      (fun _ _ _ _ _ => trivial) (fun _ _ _ _ hstep => rank_step hstep) trivial hrun
    omega
  result s hs hmain := result_of_done (inv_of_reachable hx hs) hK hmain

/-- **The sample sort sorts** exactly for two tasks or more, and at least as many values as the
    square of their number. -/
theorem sorts_iff (x : Input α) : x.Sorts ↔ 2 ≤ x.K ∧ x.K * x.K ≤ x.data.length := by
  constructor
  · intro h
    have hx := Input.enough_of_sampleStep h.sampleStep
    refine ⟨?_, hx⟩
    by_contra hlt
    have hK : x.K = 1 := by
      have := x.K_pos
      omega
    -- the run with one task ends, and its value is with no task
    obtain ⟨n, hbound⟩ := h.bounded
    obtain ⟨s, hs, hmain⟩ := System.exists_final (fun s => s.main = .done) rfl hbound
      fun s hs hdone => h.progress s hs hdone
    have hresult := h.result s hs hmain
    rw [data_eq_nil (inv_of_reachable hx hs) hK hmain] at hresult
    have hlength := congrArg List.length hresult
    have hdata := x.K_le
    rw [length_sorted, List.length_nil] at hlength
    omega
  · rintro ⟨hK, hx⟩
    exact sorts_of_enough hK hx

/-- Two values for two tasks -/
def twoValues : Input Int where
  data := [2, 1]
  K := 2
  K_pos := by decide
  K_le := by decide

/-- **The step of the sampling loop is zero**, and the first thread ends in a `ValueError`. -/
theorem sorts_fails : ¬ twoValues.Sorts := by
  intro h
  -- the first task is created, and takes its samples
  have hrun : (samplesort twoValues).runFrom initialized [.main, .task 0] =
      some { (initialized : State Int) with
        threads := [⟨sorted [2], none, [], .failed⟩]
        main := .spawn 1 1 } := rfl
  exact (h.defined _ (.runFrom (.init rfl) _ hrun)).2 _ (List.mem_singleton_self _) rfl

end Steps

end TaskSystem.ThreadSampleSort

