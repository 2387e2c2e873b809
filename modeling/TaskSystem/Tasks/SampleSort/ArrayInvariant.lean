import TaskSystem.Tasks.SampleSort.ArrayProtocol

/-!
# Tasks, Queues and Arrays in Order

The invariant of a sample sort with its arrays, over every run in which buckets return late
enough: the tasks are in phase, and the arrays contain what their progress says.

## Contents

- `SortState.InPlace`, `SortState.InOrder`: the invariant; `step_inOrder`, `reachable_inOrder`
- `SortState.InOrder.runFrom`: runs of the network, with the arrays
-/

namespace TaskSystem.SampleSort

open Library

variable {set : Setting} {uninit : UInt32 → Nat → Nat → Int32} {map : Mapping} {s s' : SortState}

/-! ## Runs -/

/-- The tasks, their queues and the arrays are where some progress puts them. -/
def SortState.InPlace (set : Setting) (map : Mapping) (s : SortState) : Prop :=
  ∃ (g : Progress) (a : Net Local (Log AnyMsg)), s.net.Tracks (mailboxes_carry map recordCap) a ∧
    g.Valid set ∧ g.Matches set a ∧ g.Holds set s.arrays

/-- And the arrays of the buckets that have returned have been read. -/
def SortState.InOrder (set : Setting) (map : Mapping) (s : SortState) : Prop :=
  s.InPlace set map ∧ ReturnedRead set s.net

/-- A bucket that has returned is not going to be read. -/
theorem not_mayRead {g : Progress} {a : Net Local (Log AnyMsg)} {net : Net Local Mailbox}
    (hm : g.Matches set a) (htasks : net.tasks = a.tasks) (hread : ReturnedRead set net) {i : Nat}
    (hi : i < g.root.created set.k) (hstage : (g.bucket i).stage = 4) :
    ¬(g.rootLocal set).MayRead (set.valuesToPropagate (bucketId i)) := by
  have hpc : g.bucket i = .returned := by
    cases hb : g.bucket i with
    | receive call point =>
      rw [hb] at hstage
      simp only [BucketPc.stage] at hstage
      split at hstage <;> cases hstage
    | returned => rfl
    | propagate | sendDone | leave =>
      rw [hb] at hstage
      cases hstage
  have hbucket : net.tasks (bucketTask i) = some (.bucket (g.bucketLocal set i)) := by
    rw [htasks, hm.bucketTasks i hi]
  have hroot : net.tasks samplesort = some (.root (g.rootLocal set)) := by
    rw [htasks, hm.rootTask]
  have hid : (g.bucketLocal set i).this.taskID = bucketId i := by
    show (bucketThis set g.sp i (g.bucket i).handled).taskID = _
    rw [hpc]
    exact (bucketThis_final set g.sp i).1
  have hnot := hread.read _ _ _ hbucket hpc hroot
  rwa [hid] at hnot

/-- **Step**: where the network can take a step, its accesses are defined. -/
theorem step_inOrder (uninit : UInt32 → Nat → Nat → Int32) (hadm : set.Admitted)
    (hsep : set.Separate) (h : s.InOrder set map) {t : Nat}
    {net : Net Local Mailbox} (hnet : s.net.step (mailboxes map) (code set) t = some net) :
    ∃ arrays, s.step set uninit map t = some ⟨net, arrays⟩ ∧
      SortState.InPlace set map ⟨net, arrays⟩ := by
  obtain ⟨⟨g, a, htracks, hv, hm, hholds⟩, hread⟩ := h
  obtain ⟨l, hl, hmove⟩ := Option.bind_eq_some_iff.mp hnet
  have hla : a.tasks t = some l := by rw [← htracks.tasks, hl]
  have hne : code set l ≠ .stop := by
    intro hstop
    rw [hstop] at hmove
    cases hmove
  obtain ⟨net', a', hnet', ha', htracks', g', hv', hm'⟩ :=
    Carries.perform htracks hne (allows_code hadm a t l ⟨g, hv, hm⟩ hla)
  obtain rfl : net' = net := Option.some.inj (hnet'.symm.trans hmove)
  have hstep : a.step (Log.medium tagOf) (code set) t = some a' := by
    rw [Net.step, hla, Option.bind_some, ha']
  obtain ⟨⟨l', hleads, hl'⟩, -, -⟩ := Net.perform_cases ha'
  have hf := follows hadm hsep hv hm hv' hm' hstep
  have harrays : ∃ arrays, s.arrays.step set uninit l l' = some arrays ∧
      g'.Holds set arrays := by
    obtain rfl | rfl | ⟨j, htask⟩ : t = 0 ∨ t = samplesort ∨ ∃ j, t = bucketTask j := by
      unfold bucketTask samplesort
      by_cases hlow : t < 2
      · omega
      · exact .inr (.inr ⟨t - 2, by omega⟩)
    · -- the starter accesses nothing
      obtain rfl := Option.some.inj (hla.symm.trans hm.starterTask)
      obtain ⟨n, rfl⟩ := starter_leads hleads
      refine ⟨s.arrays, rfl, hholds.frame hv hf ?_ ?_⟩
      · intro i hi
        rw [bucket_unmoved hm hm' hstep hf.created_le hi (bucketTask_ne_zero i)]
      · have hroot : g'.root = g.root := congrArg RootLocal.pc
          (root_unmoved hm hm' hstep samplesort_ne_zero)
        exact fun _ _ _ hn => hroot ▸ hn
    · obtain rfl := Option.some.inj (hla.symm.trans hm.rootTask)
      obtain rfl := Option.some.inj (hl'.symm.trans hm'.rootTask)
      exact holds_rootStep hadm hsep hv hm hm' hf hstep hleads
        (fun i hi => not_mayRead hm htracks.tasks hread hi) hholds
    · rw [htask] at hla hl' hstep
      have hj : j < g.root.created set.k := by
        apply Nat.lt_of_not_le
        intro hle
        rw [hm.noTasks j hle] at hla
        cases hla
      obtain rfl := Option.some.inj (hla.symm.trans (hm.bucketTasks j hj))
      obtain rfl := Option.some.inj (hl'.symm.trans
        (hm'.bucketTasks j (Nat.lt_of_lt_of_le hj hf.created_le)))
      exact holds_bucketStep hadm hsep hv hm hv' hm' hf hj hstep hleads hholds
  obtain ⟨arrays, hwrite, hholds'⟩ := harrays
  refine ⟨arrays, ?_, g', a', htracks', hv', hm', hholds'⟩
  have hlnet : net'.tasks t = some l' := by rw [htracks'.tasks, hl']
  simp only [SortState.step, hnet, hl, hlnet, Option.bind_eq_bind, Option.bind_some, hwrite]

/-- A step of a bucket that returns does so when the root is not going to read its array any
    more. -/
def ReturnsRead (set : Setting) (s : SortState) (t : Nat) : Prop := KeepsUnread set s.net t

/-- **Run**: the tasks, their queues and the arrays stay in order. -/
theorem reachable_inOrder (hadm : set.Admitted) (hsep : set.Separate)
    (h : (sorting set uninit map).ReachableWhen (ReturnsRead set) s) : s.InOrder set map := by
  refine System.ReachableWhen.invariant (P := fun s => s.InOrder set map) ?_ ?_ h
  · rintro s rfl
    exact ⟨⟨_, _, Net.Tracks.start _ _ _, start_valid set, start_matches set, holds_start set⟩,
      .start set map⟩
  · intro s t s' hs hreturns hstep
    obtain ⟨net, hnet, hrest⟩ := Option.bind_eq_some_iff.mp hstep
    obtain ⟨arrays, hstep', hinv⟩ := step_inOrder uninit hadm hsep hs hnet
    obtain rfl := Option.some.inj (hstep.symm.trans hstep')
    exact ⟨hinv, hs.2.step hreturns hnet⟩

/-- **Runs with their arrays**: a run of the network in which buckets return late enough is one
    in which all accesses are defined. -/
theorem SortState.InOrder.runFrom (hadm : set.Admitted) (hsep : set.Separate)
    (h : s.InOrder set map) (uninit : UInt32 → Nat → Nat → Int32) {ts : List Nat}
    {net : Net Local Mailbox} (halong : (sortNetwork set map).Along (KeepsUnread set) s.net ts)
    (hrun : (sortNetwork set map).runFrom s.net ts = some net) :
    ∃ s', (sorting set uninit map).Along (ReturnsRead set) s ts ∧
      (sorting set uninit map).runFrom s ts = some s' ∧ s'.net = net := by
  induction ts generalizing s with
  | nil => exact ⟨s, trivial, rfl, Option.some.inj hrun⟩
  | cons t ts ih =>
    obtain ⟨net₁, hnet₁, hrest⟩ := Option.bind_eq_some_iff.mp hrun
    obtain ⟨arrays, hstep, hplace⟩ := step_inOrder uninit hadm hsep h hnet₁
    have horder : SortState.InOrder set map ⟨net₁, arrays⟩ := ⟨hplace, h.2.step halong.1 hnet₁⟩
    obtain ⟨s', halong', hrun', hnet⟩ := ih horder (halong.2 net₁ hnet₁) hrest
    refine ⟨s', ⟨halong.1, fun s₁ hs₁ => ?_⟩, ?_, hnet⟩
    · obtain rfl := Option.some.inj (hstep.symm.trans hs₁)
      exact halong'
    · have hfirst : (sorting set uninit map).step s t = some ⟨net₁, arrays⟩ := hstep
      rw [System.runFrom, hfirst, Option.bind_some, hrun']

theorem twoValues_separate : twoValues.Separate where
  counts := by decide
  values := by decide

end TaskSystem.SampleSort
