import Mathlib.Order.Basic
import TaskSystem.Exploration.ThreadSampleSort
import TaskSystem.Library.MapM

/-!
# Sampling and Routing

The computations of the threaded sample sort: how many samples and splitters its three integer
divisions give, and how the splitters order the tasks' data.

## Contents

- `sorted_perm`, `sorted_pairwise`: what Python's `sorted` gives
- `pick_eq_some`: sampling with a step that is not zero
- `Enough`: there are enough values for the number of tasks
- `Enough.samples`, `splitters_of_length`: the numbers of samples and of splitters
- `route_spec`, `le_of_route`: values sent to different tasks
-/

namespace TaskSystem.ThreadSampleSort

open Library

variable {α : Type*}

/-! ## Sorting -/

section Sorting

variable [LinearOrder α]

theorem sorted_perm (xs : List α) : (sorted xs).Perm xs := List.mergeSort_perm ..

theorem sorted_pairwise (xs : List α) : (sorted xs).Pairwise (· ≤ ·) := by
  have h : (sorted xs).Pairwise fun a b => decide (a ≤ b) = true := List.pairwise_mergeSort
    (fun a b c hab hbc => by
      simp only [decide_eq_true_eq] at hab hbc ⊢
      exact hab.trans hbc)
    (fun a b => by simpa using le_total a b) xs
  exact h.imp of_decide_eq_true

@[simp]
theorem length_sorted (xs : List α) : (sorted xs).length = xs.length := List.length_mergeSort ..

@[simp]
theorem count_sorted (a : α) (xs : List α) : (sorted xs).count a = xs.count a :=
  (sorted_perm xs).count_eq a

/-- A permutation that ascends is the sorted list. -/
theorem eq_sorted {xs ys : List α} (hperm : xs.Perm ys) (h : xs.Pairwise (· ≤ ·)) :
    xs = sorted ys :=
  (hperm.trans (sorted_perm ys).symm).eq_of_pairwise (fun _ _ _ _ => le_antisymm) h
    (sorted_pairwise ys)

end Sorting

/-! ## Sampling -/

theorem pick_eq_some {values : List α} {n step : Nat} (hstep : step ≠ 0)
    (hn : n ≤ values.length) :
    ∃ picked, pick values n step = some picked ∧ picked.length = (n + step - 1) / step := by
  have hinside : ∀ ni ∈ pyRange n step, ∃ value, values[ni]? = pure value := by
    intro ni hni
    obtain ⟨i, hi, rfl⟩ := List.mem_map.mp hni
    have hlt : i < (n + step - 1) / step := List.mem_range.mp hi
    -- the last place is less than a step before the end
    have hmul : (i + 1) * step ≤ n + step - 1 :=
      (Nat.le_div_iff_mul_le (Nat.pos_of_ne_zero hstep)).mp hlt
    rw [Nat.add_one_mul] at hmul
    have hplace : i * step < values.length := by omega
    exact ⟨_, List.getElem?_eq_getElem hplace⟩
  obtain ⟨picked, hpicked⟩ := exists_mapM hinside
  refine ⟨picked, ?_, ?_⟩
  · rw [pick, if_neg hstep, hpicked]
    rfl
  · rw [length_mapM hpicked, pyRange, List.length_map, List.length_range]

theorem pick_pairwise [LinearOrder α] {values picked : List α} {n step : Nat}
    (h : values.Pairwise (· ≤ ·)) (hpicked : pick values n step = some picked) :
    picked.Pairwise (· ≤ ·) := by
  unfold pick at hpicked
  split at hpicked
  · cases hpicked
  · rw [pyRange, List.mapM_map] at hpicked
    exact mapM_pairwise le_refl h (fun i => i * step)
      (fun i j hlt => Nat.mul_le_mul_right step (Nat.le_of_lt hlt)) List.pairwise_lt_range hpicked

/-! ## The slices -/

namespace Input

variable {x : Input α}

/-- The square of the number of tasks is not more than the number of values. -/
def Enough (x : Input α) : Prop := x.K * x.K ≤ x.data.length

/-- The number of samples that a task sends -/
def sampleCount (x : Input α) : Nat := (x.sizePerTask + x.sampleStep - 1) / x.sampleStep

theorem Enough.sampleStep_pos (h : x.Enough) : 0 < x.sampleStep := by
  have hsize : x.K ≤ x.sizePerTask := (Nat.le_div_iff_mul_le x.K_pos).mpr h
  exact Nat.div_pos hsize x.K_pos

theorem Enough.sampleCount_pos (h : x.Enough) : 0 < x.sampleCount := by
  have hstep := h.sampleStep_pos
  have hle : x.sampleStep ≤ x.sizePerTask := Nat.div_le_self ..
  exact Nat.div_pos (by omega) hstep

theorem enough_of_sampleStep (h : x.sampleStep ≠ 0) : x.Enough := by
  have hsize : x.K ≤ x.sizePerTask := by
    by_contra hlt
    exact h (Nat.div_eq_of_lt (Nat.not_le.mp hlt))
  exact (Nat.le_div_iff_mul_le x.K_pos).mp hsize

/-- The slice of a task is long enough for its samples. -/
theorem sizePerTask_le_length {ki : Nat} (hki : ki < x.K) :
    x.sizePerTask ≤ (x.dataToTask ki (ki * x.sizePerTask)).length := by
  have hall : (ki + 1) * x.sizePerTask ≤ x.data.length :=
    Nat.le_trans (Nat.mul_le_mul_right _ hki) (Nat.mul_div_le ..)
  rw [Nat.add_one_mul] at hall
  rw [dataToTask, List.length_append, List.length_take, List.length_drop]
  omega

/-- What the tasks that have not been created are to get. -/
def unspawned (x : Input α) : MainPoint → List α
  | .spawn ki currentIndex => if ki < x.K then x.data.drop currentIndex else []
  | _ => []

theorem dataToTask_append_unspawned {ki : Nat} (hki : ki < x.K) (currentIndex : Nat) :
    x.dataToTask ki currentIndex ++ x.unspawned (.spawn (ki + 1) (currentIndex + x.sizePerTask)) =
      x.unspawned (.spawn ki currentIndex) := by
  have hsplit : (x.data.drop currentIndex).take x.sizePerTask ++
      x.data.drop (currentIndex + x.sizePerTask) = x.data.drop currentIndex := by
    rw [← List.drop_drop, List.take_append_drop]
  by_cases hlast : ki = x.K - 1
  · have hend : ¬ ki + 1 < x.K := by omega
    simp only [dataToTask, unspawned, hlast, if_true]
    rw [hlast] at hend hki
    rw [if_neg hend, if_pos hki, List.append_nil, hsplit]
  · have hmore : ki + 1 < x.K := by omega
    simp only [dataToTask, unspawned, hlast, if_false, hki, hmore, if_true, List.append_nil]
    exact hsplit

section Samples

variable [LinearOrder α] {x : Input α}

/-- The samples of task `ki` -/
def samplesOf (x : Input α) (ki : Nat) : List α :=
  (pick (sorted (x.dataToTask ki (ki * x.sizePerTask))) x.sizePerTask x.sampleStep).getD []

/-- Every task has its samples, and all have equally many. -/
theorem Enough.samples (h : x.Enough) {ki : Nat} (hki : ki < x.K) :
    pick (sorted (x.dataToTask ki (ki * x.sizePerTask))) x.sizePerTask x.sampleStep =
      some (x.samplesOf ki) ∧ (x.samplesOf ki).length = x.sampleCount := by
  have hlength := sizePerTask_le_length hki
  rw [← length_sorted] at hlength
  obtain ⟨picked, hpicked, hcount⟩ := pick_eq_some (Nat.ne_of_gt h.sampleStep_pos) hlength
  rw [samplesOf, hpicked]
  exact ⟨rfl, hcount⟩

theorem Enough.length_allSamples (h : x.Enough) :
    x.allSamples.length = x.K * x.sampleCount := by
  rw [allSamples, List.length_flatMap]
  have hmap : (List.range x.K).map (fun k => (x.samplesOf k).length) =
      (List.range x.K).map fun _ => x.sampleCount :=
    List.map_congr_left fun k hk => (h.samples (List.mem_range.mp hk)).2
  calc ((List.range x.K).map fun k => (x.samplesOf k).length).sum
      = ((List.range x.K).map fun _ => x.sampleCount).sum := by rw [hmap]
    _ = x.K * x.sampleCount := by
      rw [List.map_const', List.sum_replicate_nat, List.length_range]

end Samples

end Input

/-! ## The splitters -/

/-- As many samples as `K` tasks send, `m` each, give `K` splitters. -/
theorem splitters_of_length {values : List α} {K m : Nat} (hK : 0 < K) (hm : 0 < m)
    (hlength : values.length = K * m) :
    ∃ splitters, pick values values.length (values.length / K) = some splitters ∧
      splitters.length = K := by
  have hstep : values.length / K = m := by rw [hlength, Nat.mul_div_cancel_left _ hK]
  rw [hstep]
  obtain ⟨splitters, hsplitters, hcount⟩ :=
    pick_eq_some (Nat.ne_of_gt hm) (Nat.le_refl values.length)
  refine ⟨splitters, hsplitters, ?_⟩
  have hdiv : (K * m + (m - 1)) / m = K := by
    rw [Nat.mul_comm, Nat.mul_add_div hm, Nat.div_eq_of_lt (by omega), Nat.add_zero]
  rw [hcount, hlength, Nat.add_sub_assoc hm, hdiv]

/-! ## Routing -/

variable [LinearOrder α]

theorem routeFrom_spec {splitters rest : List α} {val : α} {i j : Nat}
    (hrest : splitters.drop i = rest) (hi : 0 < i)
    (hbelow : 1 < i → ∀ splitter, splitters[i - 1]? = some splitter → splitter ≤ val)
    (h : routeFrom val i rest = some j) :
    j < splitters.length ∧ (∀ splitter, splitters[j + 1]? = some splitter → val < splitter) ∧
      (0 < j → ∀ splitter, splitters[j]? = some splitter → splitter ≤ val) := by
  induction rest generalizing i with
  | nil => cases h
  | cons first rest ih =>
    have hlt : i < splitters.length := by
      by_contra hge
      rw [List.drop_eq_nil_of_le (Nat.not_lt.mp hge)] at hrest
      cases hrest
    have hfirst : splitters[i]? = some first := by
      rw [← List.head?_drop, hrest]
      rfl
    have htail : splitters.drop (i + 1) = rest := by
      rw [← List.drop_drop, hrest]
      rfl
    rw [routeFrom] at h
    split at h
    next hval =>
      obtain rfl := Option.some.inj h
      refine ⟨by omega, ?_, ?_⟩
      · intro splitter hs
        rw [Nat.sub_add_cancel hi, hfirst] at hs
        exact Option.some.inj hs ▸ hval
      · intro hj
        exact hbelow (by omega)
    next hval =>
      have hle : first ≤ val := not_lt.mp hval
      split at h
      next hend =>
        obtain rfl := Option.some.inj h
        refine ⟨hlt, ?_, ?_⟩
        · intro splitter hs
          have hnil : splitters.drop (i + 1) = [] := htail.trans (List.isEmpty_iff.mp hend)
          have hge := List.drop_eq_nil_iff.mp hnil
          rw [List.getElem?_eq_none hge] at hs
          cases hs
        · intro _ splitter hs
          rw [hfirst] at hs
          exact Option.some.inj hs ▸ hle
      next =>
        refine ih htail (Nat.succ_pos i) ?_ h
        intro _ splitter hs
        rw [Nat.add_sub_cancel, hfirst] at hs
        exact Option.some.inj hs ▸ hle

/-- **Routing**: a value goes to a task whose splitter it is not below, before the first splitter
    it is below. -/
theorem route_spec {splitters : List α} {val : α} {j : Nat} (h : route splitters val = some j) :
    j < splitters.length ∧ (∀ splitter, splitters[j + 1]? = some splitter → val < splitter) ∧
      (0 < j → ∀ splitter, splitters[j]? = some splitter → splitter ≤ val) :=
  routeFrom_spec rfl Nat.one_pos (fun h => absurd h (Nat.lt_irrefl 1)) h

theorem exists_routeFrom (val : α) (i : Nat) {rest : List α} (h : rest ≠ []) :
    ∃ j, routeFrom val i rest = some j := by
  induction rest generalizing i with
  | nil => exact absurd rfl h
  | cons first rest ih =>
    rw [routeFrom]
    split
    · exact ⟨_, rfl⟩
    · split
      · exact ⟨_, rfl⟩
      next hrest => exact ih (i + 1) fun hnil => hrest (by rw [hnil]; rfl)

/-- With two splitters or more, every value goes to some task. -/
theorem exists_route {splitters : List α} (h : 2 ≤ splitters.length) (val : α) :
    ∃ j, route splitters val = some j := by
  refine exists_routeFrom val 1 fun hnil => ?_
  have := List.drop_eq_nil_iff.mp hnil
  omega

/-- With one, none does. -/
theorem route_eq_none {splitters : List α} (h : splitters.length ≤ 1) (val : α) :
    route splitters val = none := by
  rw [route, List.drop_eq_nil_of_le h]
  rfl

/-- A value that goes to an earlier task is not above one that goes to a later one. -/
theorem le_of_route {splitters : List α} (hsorted : splitters.Pairwise (· ≤ ·)) {v w : α}
    {j k : Nat} (hv : route splitters v = some j) (hw : route splitters w = some k) (hjk : j < k) :
    v ≤ w := by
  obtain ⟨-, habove, -⟩ := route_spec hv
  obtain ⟨hk, -, hbelow⟩ := route_spec hw
  have hnext : j + 1 < splitters.length := by omega
  calc v ≤ splitters[j + 1] := le_of_lt (habove _ (List.getElem?_eq_getElem hnext))
    _ ≤ splitters[k] := by
      rcases Nat.lt_or_eq_of_le hjk with hlt | heq
      · exact List.pairwise_iff_getElem.mp hsorted _ _ hnext hk hlt
      · simp only [← heq, Nat.succ_eq_add_one, le_refl]
    _ ≤ w := hbelow (by omega) _ (List.getElem?_eq_getElem hk)

end TaskSystem.ThreadSampleSort
