import TaskSystem.Tasks.SampleSort.EarlyReturn

/-!
# The Output of a Sample Sort

From the protocol, the arrays and the computations to what the sort is for: it comes to its end,
and when the root has finished, the buckets' `final_data_values`, in the order of the buckets,
are the data sorted.

## Contents

- `arrays_defined`: no task reads an array that does not exist
- `sort_bounded`, `sort_completes`: every sort ends
- `sorted_output`: the output
-/

namespace TaskSystem.SampleSort

open Library

variable {set : Setting} {uninit : UInt32 → Nat → Nat → Int32} {map : Mapping} {s s' : SortState}

/-! ## Steps with arrays -/

/-- **No dangling access**: in every run in which buckets return late enough, every step that the
    tasks and their queues can take reads only arrays that exist, and stays inside them. -/
theorem arrays_defined (hadm : set.Admitted) (hsep : set.Separate)
    (uninit : UInt32 → Nat → Nat → Int32) (map : Mapping)
    (h : (sorting set uninit map).ReachableWhen (ReturnsRead set) s) (t : Nat)
    (hcan : ∃ net, (sortNetwork set map).step s.net t = some net) :
    ∃ s', (sorting set uninit map).step s t = some s' := by
  obtain ⟨net, hnet⟩ := hcan
  obtain ⟨arrays, hstep, -⟩ := step_inOrder uninit hadm hsep
    (reachable_inOrder hadm hsep h) hnet
  exact ⟨_, hstep⟩

/-- The start of the sort of two values. -/
def twoSort : SortState := ⟨.start (mailboxes oneLayout) initialTasks (samplesort + 1), .empty⟩

theorem twoSort_inOrder : twoSort.InOrder twoValues oneLayout := by
  have hstart : (sorting twoValues (fun _ _ _ => 0) oneLayout).ReachableWhen
      (ReturnsRead twoValues) twoSort := .init rfl
  exact reachable_inOrder twoValues_admitted twoValues_separate hstart

/-- The root reads what the first bucket has published, for the last time. -/
theorem arrays_defined_two : ∃ s r s',
    (sorting twoValues (fun _ _ _ => 0) oneLayout).ReachableWhen (ReturnsRead twoValues) s ∧
      s.net.tasks samplesort = some (.root r) ∧
      r.AtLastRead (twoValues.valuesToPropagate (bucketId 0)) ∧
      (sorting twoValues (fun _ _ _ => 0) oneLayout).step s samplesort = some s' := by
  obtain ⟨ts, net, halong, hrun, g, a, h, hlast⟩ :=
    (Placed.start twoValues_admitted oneLayout).exists_atLastRead twoValues_splitters (by decide)
      (show 0 < twoValues.k by decide) trivial
  obtain ⟨s, halong', hrun', rfl⟩ :=
    twoSort_inOrder.runFrom twoValues_admitted twoValues_separate (fun _ _ _ => 0) halong hrun
  have hreach := halong'.reachableWhen (.init rfl) hrun'
  -- the root has not come to its end, so the network can take its step
  have hcan : ∃ net, (sortNetwork twoValues oneLayout).step s.net samplesort = some net := by
    obtain ⟨ki, kj, K, m, hpc, -⟩ := hlast
    have hgo : code twoValues (.root (g.rootLocal twoValues)) ≠ .stop := by
      intro hstop
      cases (rootMove_stop hstop).symm.trans hpc
    obtain ⟨net, hnet⟩ := h.runs h.rootTask hgo
    refine ⟨net, ?_⟩
    show s.net.step _ _ _ = _
    rw [Net.step, h.rootTask, Option.bind_some, hnet]
  obtain ⟨s', hs'⟩ := arrays_defined twoValues_admitted twoValues_separate _ oneLayout hreach
    samplesort hcan
  exact ⟨s, _, s', hreach, h.rootTask, hlast, hs'⟩


/-- A task that waits leaves the arrays alone. -/
theorem waits_arrays {l : Local} (hwaits : l.Waits) (arrays : Arrays) :
    arrays.step set uninit l l = some arrays := by
  cases l with
  | starter | crashed => exact hwaits.elim
  | bucket b =>
    obtain ⟨call, hpc⟩ := hwaits
    simp only [Arrays.step, hpc]
    rfl
  | root r =>
    rcases hwaits with ⟨call, hpc⟩ | hpc
    · simp only [Arrays.step, Arrays.rootStep, hpc]
    · simp only [Arrays.step, Arrays.rootStep, hpc]

/-- **Step of the sort**, with its arrays. -/
theorem SortState.step_rank {g : Progress} {a : Net Local (Log AnyMsg)}
    (h : Placed set map g a s.net) {t : Nat} (hstep : s.step set uninit map t = some s') :
    s' = s ∨ sortRank set s'.net < sortRank set s.net := by
  obtain ⟨net, arrays, l, l', hnet, hl, hl', harrays, rfl⟩ := SortState.step_cases hstep
  obtain ⟨l₀, hl₀, hmove⟩ := Option.bind_eq_some_iff.mp hnet
  obtain rfl := Option.some.inj (hl.symm.trans hl₀)
  obtain ⟨⟨l₁, hleads, hl₁⟩, -, -⟩ := Net.perform_cases hmove
  obtain rfl := Option.some.inj (hl'.symm.trans hl₁)
  rcases (code_rank h.admitted h.valid h.placed (h.tracks.tasks ▸ hl) hleads).2 with
    hlt | ⟨rfl, hwaits⟩
  · exact .inr (sortRank_lt h.admitted h.valid h.placed h.tracks hl hmove hl' hlt)
  · -- neither the network nor the arrays change
    refine .inl ?_
    rw [Net.perform_idle hmove (waits_quiet hwaits hleads) hl hl',
      ← Option.some.inj ((waits_arrays hwaits s.arrays).symm.trans harrays)]

/-- **Every sort ends**: in a run without steps that change nothing, which are polls that find no
    message and rounds of drawing samples, the tasks take at most `k² + 33k + 17` steps. -/
theorem sort_bounded (hadm : set.Admitted) (uninit : UInt32 → Nat → Nat → Int32) (map : Mapping)
    (hstart : (sorting set uninit map).init s) {ts : List Nat}
    (hmoves : (sorting set uninit map).Along
      (fun s t => (sorting set uninit map).step s t ≠ some s) s ts)
    (hrun : (sorting set uninit map).runFrom s ts = some s') :
    ts.length ≤ set.k * set.k + 33 * set.k + 17 := by
  obtain rfl : s = _ := hstart
  have hle := hmoves.length_add_rank_le (fun s : SortState => sortRank set s.net)
    (I := fun s => ∃ g a, Placed set map g a s.net) ?_ ?_ ⟨_, _, .start hadm map⟩ hrun
  · rw [sortRank_start] at hle
    omega
  · rintro s t s' ⟨g, a, h⟩ hstep
    obtain ⟨net, arrays, -, -, hnet, -, -, -, rfl⟩ := SortState.step_cases hstep
    exact h.step hnet
  · rintro s t s' ⟨g, a, h⟩ hstep
    exact SortState.step_rank h hstep

/-- **Completion**, from where the tasks, the queues and the arrays are in order. -/
theorem SortState.InOrder.completes (h : s.InOrder set map) (hadm : set.Admitted)
    (hsep : set.Separate) (hclose : set.Close) (hdraws : set.Draws)
    (uninit : UInt32 → Nat → Nat → Int32) :
    ∃ ts s', (sorting set uninit map).Along (fun s t => ReturnsRead set s t ∧
        (sorting set uninit map).step s t ≠ some s) s ts ∧
      (sorting set uninit map).runFrom s ts = some s' ∧ Returned set s'.net ∧
      ts.length ≤ sortRank set s.net := by
  apply System.exists_final_along (fun s : SortState => sortRank set s.net)
    (fun s => Returned set s.net) (I := fun s => s.InOrder set map) ?_ ?_ h
  · rintro s t s' hs ⟨hreturns, -⟩ hstep
    obtain ⟨net, arrays, -, -, hnet, -, -, -, rfl⟩ := SortState.step_cases hstep
    obtain ⟨arrays', hstep', hplace⟩ := step_inOrder uninit hadm hsep hs hnet
    obtain rfl : arrays' = arrays :=
      (SortState.mk.inj (Option.some.inj (hstep'.symm.trans hstep))).2
    exact ⟨hplace, hs.2.step hreturns hnet⟩
  · intro s hs hnot
    obtain ⟨g, a, htracks, hv, hm, -⟩ := hs.1
    have hplaced : Placed set map g a s.net := ⟨hadm, htracks, hv, hm⟩
    obtain ⟨t, hkeeps, net, hnet, hlt⟩ := hplaced.exists_advances hclose hdraws hnot
    obtain ⟨arrays, hstep, -⟩ := step_inOrder uninit hadm hsep hs hnet
    refine ⟨t, _, ⟨hkeeps, fun hstay => ?_⟩, hstep, hlt⟩
    -- a step that brings the sort closer to its end changes something
    obtain rfl := Option.some.inj (hstay.symm.trans hstep)
    exact absurd hlt (Nat.lt_irrefl _)

/-- **No deadlock**: wherever the tasks have come, they can come to the end, in which all of them
    have returned, and no bucket has to return too early for that. -/
theorem sort_completes (hadm : set.Admitted) (hsep : set.Separate) (hclose : set.Close)
    (hdraws : set.Draws) (uninit : UInt32 → Nat → Nat → Int32) (map : Mapping)
    (h : (sorting set uninit map).ReachableWhen (ReturnsRead set) s) :
    ∃ ts s', (sorting set uninit map).Along (ReturnsRead set) s ts ∧
      (sorting set uninit map).runFrom s ts = some s' ∧ Returned set s'.net := by
  obtain ⟨ts, s', halong, hrun, hreturned, -⟩ :=
    (reachable_inOrder hadm hsep h).completes hadm hsep hclose hdraws uninit
  exact ⟨ts, s', halong.mono fun _ _ => And.left, hrun, hreturned⟩

/-! ## A sort of two values -/

theorem twoValues_close : twoValues.Close := by
  have hone : ∀ x ∈ twoValues.data, x = 1 := by simp [twoValues]
  intro x hx y hy
  rw [hone x hx, hone y hy, Int.sub_self]
  exact Nat.two_pow_pos 31

/-- All its numbers are taken. -/
theorem twoValues_draws : twoValues.Draws := by
  have haccepts : decide (Accepts (twoValues.data.length - 1) 7) = true := by decide
  show sampleSize ≤ (List.replicate sampleSize 7).countP _
  rw [List.countP_replicate, if_pos haccepts]

/-- A run of it to its end, in which every step changes something. -/
theorem sort_bounded_two :
    ∃ ts s', (sorting twoValues (fun _ _ _ => 0) oneLayout).runFrom twoSort ts = some s' ∧
      Returned twoValues s'.net ∧ ts.length ≤ 87 := by
  obtain ⟨ts, s', halong, hrun, hreturned, -⟩ := twoSort_inOrder.completes twoValues_admitted
    twoValues_separate twoValues_close twoValues_draws (fun _ _ _ => 0)
  exact ⟨ts, s', hrun, hreturned, sort_bounded twoValues_admitted (fun _ _ _ => 0) oneLayout rfl
    (halong.mono fun _ _ => And.right) hrun⟩

/-- It comes to its end. -/
theorem sort_completes_two :
    ∃ ts s', (sorting twoValues (fun _ _ _ => 0) oneLayout).Along (ReturnsRead twoValues) twoSort ts ∧
      (sorting twoValues (fun _ _ _ => 0) oneLayout).runFrom twoSort ts = some s' ∧
      Returned twoValues s'.net :=
  sort_completes twoValues_admitted twoValues_separate twoValues_close twoValues_draws _ oneLayout
    (.init rfl)

/-! ## The output -/

/-- What the buckets have in their `final_data_values`, in the order of the buckets. -/
def SortState.output (set : Setting) (s : SortState) : Option (List (List Int32)) :=
  (List.range set.k).mapM fun i => s.arrays.finalDataValues (bucketId i)

/-- When the root has finished, every bucket has sorted its share. -/
theorem SortState.InOrder.shares (h : s.InOrder set map) {r : RootLocal}
    (hr : s.net.tasks samplesort = some (.root r)) (hfinished : r.pc = .finished) :
    ∃ subs, subs.Perm (List.range set.k) ∧ r.splitters.length = set.k ∧
      ∀ i < set.k, s.arrays.finalDataValues (bucketId i) =
        some (set.qsort.sort buckettaskCmpfunc (share set r.splitters subs i)) := by
  obtain ⟨⟨g, a, htracks, hv, hm, hholds⟩, -⟩ := h
  rw [htracks.tasks, hm.rootTask] at hr
  obtain rfl := Local.root.inj (Option.some.inj hr)
  have hpc : g.root = .finished := hfinished
  have hcreated : g.root.created set.k = set.k := by rw [hpc]; rfl
  have hperm := perm_range_of_nodup hv.subs_nodup hv.subs_lt (hv.all_subs (by rw [hpc]; trivial))
  have hsp : (g.rootLocal set).splitters = g.sp := by
    simp only [Progress.rootLocal, hpc, RootPc.picked, if_true]
  rw [hsp]
  refine ⟨g.subs, hperm, hv.length_sp, ?_⟩
  obtain ⟨-, hdone⟩ := hv.finished hpc
  intro i hi
  apply (hholds.bucket i (by rw [hcreated]; exact hi)).sorted
  -- every bucket has reported
  have hsent := (hdone i hi).1
  cases hb : g.bucket i with
  | leave | returned => simp only [BucketPc.stage]; omega
  | _ =>
    rw [hb] at hsent
    exact hsent.elim

/-- **The output is the data sorted**: when the root has finished, in whatever order the tasks
    have taken their steps, the final arrays in bucket order are the values of the input in
    ascending order, each as often as in the input. -/
theorem sorted_output (hadm : set.Admitted) (hsep : set.Separate)
    (hclose : set.Close) (uninit : UInt32 → Nat → Nat → Int32) (map : Mapping)
    (h : (sorting set uninit map).ReachableWhen (ReturnsRead set) s) {r : RootLocal}
    (hr : s.net.tasks samplesort = some (.root r)) (hfinished : r.pc = .finished) :
    ∃ final, s.output set = some final ∧ final.flatten.Pairwise (· ≤ ·) ∧
      final.flatten.Perm set.data := by
  obtain ⟨subs, hsubs, hlen, hfinal⟩ :=
    (reachable_inOrder hadm hsep h).shares hr hfinished
  refine ⟨_, ?_, shares_sorted hadm hlen hsubs hclose⟩
  exact mapM_eq_pure fun i hi => hfinal i (List.mem_range.mp hi)

/-- What it leaves is sorted. -/
theorem sorted_output_two : ∃ s final,
    (sorting twoValues (fun _ _ _ => 0) oneLayout).ReachableWhen (ReturnsRead twoValues) s ∧
      Returned twoValues s.net ∧ s.output twoValues = some final ∧
      final.flatten.Pairwise (· ≤ ·) ∧ final.flatten.Perm twoValues.data := by
  have hstart : (sorting twoValues (fun _ _ _ => 0) oneLayout).ReachableWhen
      (ReturnsRead twoValues) twoSort := .init rfl
  obtain ⟨ts, s, halong, hrun, hreturned, -⟩ :=
    (reachable_inOrder twoValues_admitted twoValues_separate hstart).completes twoValues_admitted
      twoValues_separate twoValues_close twoValues_draws (fun _ _ _ => 0)
  have hreach := (halong.mono fun _ _ => And.left).reachableWhen hstart hrun
  obtain ⟨r, hr, hfinished⟩ := hreturned.root
  obtain ⟨final, hfinal, hsorted⟩ := sorted_output twoValues_admitted twoValues_separate
    twoValues_close _ oneLayout hreach hr hfinished
  exact ⟨s, final, hreach, hreturned, hfinal, hsorted⟩

end TaskSystem.SampleSort
