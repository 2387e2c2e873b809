import TaskSystem.System.Repository
import TaskSystem.Tasks.SampleSort.BucketSteps

/-!
# The Protocol of a Sample Sort

What can be seen of a sample sort in phase, in any state that its tasks reach over their queues:
every task receives the messages it is meant to receive at each of its calls, nothing is sent to
a full queue and nothing is read that has not been set.

## Contents

- `rootTags`, `scriptTags`: the tags a task receives, call by call
- `BucketLocal.Phased`, `RootLocal.Phased`, `Completed`: what holds of a bucket, of the root, and
  when the root finishes
- `reachable_inPhase`: runs over the queues stay in phase
- `sort_in_phase`: the protocol, over every reachable state
-/

namespace TaskSystem.SampleSort

open Library

variable {set : Setting} {g : Progress} {a : Net Local (Log AnyMsg)} {s : Net Local Mailbox}

/-! ## Statements -/

/-- The tags the root receives from `k` buckets and the starter, call by call. -/
def rootTags (k : Nat) : List Int32 :=
  [barMsgTag, refIntarrayMsgTag] ++ List.replicate k subArratMsgTag ++ List.replicate k doneMsgTag

/-- A bucket has received the first of its five messages, in order, one at each call of
    `receive` that has returned. -/
def BucketLocal.Phased (b : BucketLocal) : Prop :=
  b.received.map AnyMsg.tag = scriptTags.take b.pc.handled

/-- So has the root, and in phase 2 it has not received the sub arrays of any bucket twice;
    behind the loop of phase 2 it has received those of all buckets. -/
structure RootLocal.Phased (set : Setting) (r : RootLocal) : Prop where
  tags : r.received.map AnyMsg.tag = (rootTags set.k).take (r.pc.handled set.k)
  subArrays : ∃ senders : List Nat, senders.Nodup ∧ (∀ i ∈ senders, i < set.k) ∧
    (r.received.drop 2).take set.k =
      senders.map (fun i => .refTwoDimIntArray (subMsg set i)) ∧
    (r.pc.AllArrived → senders.Perm (List.range set.k))

/-- All buckets have received their five messages and are done, and all queues are empty. -/
structure Completed (set : Setting) (s : Net Local Mailbox) : Prop where
  root : ∀ mb, s.channels samplesort = some mb → isEmpty mb.Q = 1
  buckets : ∀ i < set.k, ∃ b mb, s.tasks (bucketTask i) = some (.bucket b) ∧
    s.channels (bucketTask i) = some mb ∧ b.received.map AnyMsg.tag = scriptTags ∧
    b.pc.SentDone ∧ isEmpty mb.Q = 1

/-! ## The messages for the root -/

/-- The root is sent the tags it waits for, in order. -/
theorem toRoot_tags (hv : g.Valid set) :
    (g.toRoot set).map AnyMsg.tag <+: rootTags set.k := by
  have htags : (g.toRoot set).map AnyMsg.tag =
      [barMsgTag, refIntarrayMsgTag].take g.started ++
        List.replicate g.subs.length subArratMsgTag ++
        List.replicate g.dones.length doneMsgTag := by
    have hsub : AnyMsg.tag ∘ (fun i => .refTwoDimIntArray (subMsg set i)) =
        fun _ : Nat => subArratMsgTag := rfl
    simp only [Progress.toRoot, stream, List.map_append, List.map_map, List.map_take, hsub,
      List.map_const', List.map_replicate]
    rfl
  have hreplicate : ∀ {m n : Nat} (tag : Int32), m ≤ n →
      List.replicate m tag <+: List.replicate n tag := by
    intro m n tag hle
    refine ⟨List.replicate (n - m) tag, ?_⟩
    rw [List.replicate_append_replicate, Nat.add_sub_cancel' hle]
  rw [htags, rootTags]
  by_cases hall : g.root.AllArrived
  · -- phase 2 is over: all sub arrays are there
    have htwo : g.started = 2 := by
      apply hv.started
      apply Nat.le_of_not_lt
      intro hlt
      exact (RootPc.created_eq_zero hlt).2.1 hall
    rw [htwo, hv.all_subs hall]
    exact (List.prefix_append_right_inj _).mpr (hreplicate _ hv.length_dones_le)
  · rw [hv.dones_eq_nil hall, List.length_nil, List.replicate_zero, List.append_nil]
    by_cases htaken : 2 ≤ g.root.taken set.k
    · rw [hv.started htaken, List.append_assoc]
      apply (List.prefix_append_right_inj _).mpr
      exact (hreplicate _ hv.length_subs_le).trans (List.prefix_append _ _)
    · -- there are no buckets yet
      rw [hv.subs_eq_nil (RootPc.created_eq_zero (Nat.lt_of_not_le htaken)).1, List.length_nil,
        List.replicate_zero, List.append_nil, List.append_assoc]
      exact (List.take_prefix _ _).trans (List.prefix_append _ _)

theorem rootLocal_phased (hadm : set.Admitted) (hv : g.Valid set) :
    (g.rootLocal set).Phased set where
  tags := by
    have hle := Nat.le_trans (g.root.handled_le_taken set.k) hv.taken_le
    obtain ⟨later, hlater⟩ := toRoot_tags hv
    show ((g.toRoot set).take (g.root.handled set.k)).map AnyMsg.tag =
      (rootTags set.k).take (g.root.handled set.k)
    rw [← hlater, List.map_take, List.take_append_of_le_length (by rwa [List.length_map])]
  subArrays := by
    show ∃ senders : List Nat, senders.Nodup ∧ (∀ i ∈ senders, i < set.k) ∧
      (((g.toRoot set).take (g.root.handled set.k)).drop 2).take set.k = _ ∧
      (g.root.AllArrived → senders.Perm (List.range set.k))
    have hone := hadm.one_le_k
    by_cases htwo : 2 ≤ g.root.handled set.k
    · have hstarted := hv.started (Nat.le_trans htwo (g.root.handled_le_taken set.k))
      have hdrop : (g.toRoot set).drop 2 =
          g.subs.map (fun i => .refTwoDimIntArray (subMsg set i)) ++
            g.dones.map fun _ => set.outputDoneMsg := by
        rw [Progress.toRoot, hstarted, stream, List.append_assoc]
        rfl
      -- among the first `k` behind the starter's messages, none says "done"
      have hfront : ∀ n ≤ set.k, ((g.toRoot set).drop 2).take n =
          (g.subs.take n).map fun i => .refTwoDimIntArray (subMsg set i) := by
        intro n hn
        rw [hdrop, List.map_take]
        by_cases hall : g.root.AllArrived
        · apply List.take_append_of_le_length
          rw [List.length_map, hv.all_subs hall]
          exact hn
        · rw [hv.dones_eq_nil hall, List.map_nil, List.append_nil]
      refine ⟨g.subs.take (min set.k (g.root.handled set.k - 2)),
        hv.subs_nodup.sublist (List.take_sublist ..),
        fun i hi => hv.subs_lt i (List.mem_of_mem_take hi), ?_, ?_⟩
      · rw [List.drop_take, List.take_take, hfront _ (Nat.min_le_left ..)]
      · intro hall
        have hlen := hv.all_subs hall
        have hmany : set.k ≤ g.root.handled set.k - 2 := by
          have hhandled := RootPc.le_handled (k := set.k) hall
          omega
        rw [Nat.min_eq_left hmany, List.take_of_length_le (Nat.le_of_eq hlen)]
        exact perm_range_of_nodup hv.subs_nodup hv.subs_lt hlen
    · refine ⟨[], List.nodup_nil, by simp, ?_, ?_⟩
      · have hshort : ((g.toRoot set).take (g.root.handled set.k)).length ≤ 2 := by
          rw [List.length_take]
          omega
        rw [List.drop_of_length_le hshort, List.take_nil, List.map_nil]
      · intro hall
        have hhandled := RootPc.le_handled (k := set.k) hall
        omega

/-! ## Buckets -/

theorem bucketLocal_phased (i : Nat) : (g.bucketLocal set i).Phased := by
  show ((script set g.sp i).take (g.bucket i).handled).map AnyMsg.tag = _
  rw [List.map_take, script_tags]
  rfl

/-- A task that is a bucket is one of those the root has created. -/
theorem Progress.Matches.bucket_eq (hm : g.Matches set a) {t : Nat} {b : BucketLocal}
    (h : a.tasks t = some (.bucket b)) :
    ∃ i, t = bucketTask i ∧ i < g.root.created set.k ∧ b = g.bucketLocal set i := by
  match t with
  | 0 => cases h.symm.trans hm.starterTask
  | 1 => cases h.symm.trans hm.rootTask
  | i + 2 =>
    have htask : i + 2 = bucketTask i := by
      unfold bucketTask samplesort
      omega
    rw [htask] at h
    by_cases hi : i < g.root.created set.k
    · exact ⟨i, htask, hi, Local.bucket.inj (Option.some.inj (h.symm.trans (hm.bucketTasks i hi)))⟩
    · rw [hm.noTasks i (Nat.le_of_not_lt hi)] at h
      cases h

/-! ## The end -/

/-- When the root finishes, every bucket has reported and every message has been taken. -/
theorem Progress.Valid.finished (hv : g.Valid set) (hpc : g.root = .finished) :
    (g.toRoot set).length ≤ g.root.taken set.k ∧
      ∀ i < set.k, (g.bucket i).SentDone ∧ (g.bucket i).handled = 5 ∧ (g.bucket i).taken = 5 := by
  have htaken := hv.taken_le
  have hlength := hv.length_toRoot
  have hstarted := hv.started_le
  have hsubs := hv.length_subs_le
  have hle := hv.length_dones_le
  have hall : g.dones.length = set.k := by
    rw [hpc] at htaken
    simp only [RootPc.taken, RootPc.handled] at htaken
    omega
  refine ⟨?_, ?_⟩
  · rw [hpc]
    simp only [RootPc.taken, RootPc.handled]
    omega
  · intro i hi
    have hperm := perm_range_of_nodup hv.dones_nodup hv.dones_lt hall
    have hdone := ((hv.mem_dones i).mp (hperm.mem_iff.mpr (List.mem_range.mpr hi))).2
    refine ⟨hdone, ?_⟩
    cases hb : g.bucket i with
    | leave | returned => exact ⟨rfl, rfl⟩
    | _ =>
      rw [hb] at hdone
      exact hdone.elim

/-! ## Runs over the queues -/

/-- **Run**: whatever the tasks do, their queues stand for logs in phase. -/
theorem reachable_inPhase (hadm : set.Admitted) {map : Mapping}
    (h : (sortNetwork set map).Reachable s) :
    ∃ a, s.Tracks (mailboxes_carry map recordCap) a ∧ InPhase set a :=
  Carries.reachable _ ⟨.start set, start_valid set, start_matches set⟩ (allows_code hadm) h

/-- What the queues contain when the root finishes. -/
theorem completed (hv : g.Valid set) (hm : g.Matches set a) {map : Mapping}
    (htracks : s.Tracks (mailboxes_carry map recordCap) a) (hpc : g.root = .finished) :
    Completed set s := by
  obtain ⟨hroot, hbuckets⟩ := hv.finished hpc
  have hcreated : g.root.created set.k = set.k := by rw [hpc]; rfl
  constructor
  · intro mb hmb
    obtain ⟨mb', hmb', hlog⟩ := htracks.channel hm.rootChannel
    obtain rfl := Option.some.inj (hmb.symm.trans hmb')
    exact Mailbox.TracksLog.isEmpty hlog hroot
  · intro i hi
    obtain ⟨hdone, hhandled, htaken⟩ := hbuckets i hi
    rw [← hcreated] at hi
    obtain ⟨mb, hmb, hlog⟩ := htracks.channel (hm.bucketChannels i hi)
    have htask : s.tasks (bucketTask i) = some (.bucket (g.bucketLocal set i)) := by
      rw [htracks.tasks, hm.bucketTasks i hi]
    refine ⟨g.bucketLocal set i, mb, htask, hmb, ?_, hdone, ?_⟩
    · -- a bucket that has handled five messages has had its whole script
      have hphased : (g.bucketLocal set i).Phased := bucketLocal_phased i
      rw [BucketLocal.Phased] at hphased
      rw [hphased]
      show scriptTags.take (g.bucket i).handled = scriptTags
      rw [hhandled]
      rfl
    · apply Mailbox.TracksLog.isEmpty hlog
      show ((script set g.sp i).take (g.root.sentTo i)).length ≤ (g.bucket i).taken
      rw [htaken]
      exact List.length_take_le' ..

/-- **The protocol stays in phase.** In every state that the starter, the root and the buckets
    reach, in any order of their steps: what they send next will be accepted, no task reads what
    has not been set, every bucket has received the messages of its calls in order, the root has
    received one message of each bucket in each of its loops, all task IDs are below `MAX_TASK`,
    and once the root has finished all queues are empty. -/
theorem sort_in_phase (hadm : set.Admitted) (map : Mapping)
    (h : (sortNetwork set map).Reachable s) :
    s.Sound (mailboxes map) (code set) ∧
      (∀ t b, s.tasks t = some (.bucket b) → b.Phased) ∧
      (∃ r, s.tasks samplesort = some (.root r) ∧ r.Phased set ∧
        (r.pc = .finished → Completed set s)) ∧
      s.nextId ≤ Repository.maxTask := by
  obtain ⟨a, htracks, hphase⟩ := reachable_inPhase hadm h
  have hsound := Carries.sound htracks fun t l => allows_code hadm a t l hphase
  obtain ⟨g, hv, hm⟩ := hphase
  refine ⟨hsound, ?_, ⟨g.rootLocal set, ?_, rootLocal_phased hadm hv, completed hv hm htracks⟩, ?_⟩
  · intro t b hb
    rw [htracks.tasks] at hb
    obtain ⟨i, -, -, rfl⟩ := hm.bucket_eq hb
    exact bucketLocal_phased i
  · rw [htracks.tasks, hm.rootTask]
  · -- the last bucket has ID 99 at most
    have hcreated := hv.created_le
    have hk := hadm.k_le
    rw [htracks.nextId, hm.nextId]
    unfold bucketTask samplesort Repository.maxTask
    omega

/-! ## A sort of two values -/

/-- Two equal values for two buckets. -/
def twoValues : Setting where
  K := 2
  data := [1, 1]
  testData := 4096
  qsort := .merge
  draws := List.replicate sampleSize 7
  newBar := ⟨0, 0, 0, 0⟩
  newRefIntArray := ⟨0, 0, 0, 0, 0⟩
  newTopology := ⟨0, 0, 0, 0, 0, 0, 0, []⟩
  newIntArray := ⟨0, 0, 0, 0, []⟩
  newDone := ⟨0, 0, 0, 0⟩
  newRefTwoDimIntArray := ⟨0, 0, 0, 0, 0, 0⟩
  bucketCounts id := 8192 + 64 * id.toUInt64
  valuesToPropagate id := 16384 + 64 * id.toUInt64
  rootCounts ki := 32768 + 64 * UInt64.ofNat ki
  rootValues ki := 65536 + 64 * UInt64.ofNat ki

/-- All tasks in processes of one layout. -/
def oneLayout : Mapping where
  process _ := ⟨8192, .packed⟩
  base _ _ := 4096
  segment _ _ := 0

theorem twoValues_admitted : twoValues.Admitted where
  one_le := by decide
  le_max := by decide
  nonempty := by decide
  isInt := by decide

/-- All samples are alike, and so they are after sorting. -/
theorem twoValues_splitters :
    twoValues.pickedSplitters twoValues.data twoValues.K = some [1, 1000000] := by
  have hsamples : ∀ n, gatherSamples [1, 1] n (List.replicate n 7) =
      some (List.replicate n 1) := by
    intro n
    induction n with
    | zero => rfl
    | succ n ih =>
      have hdraw : randomAtMost 1 (7 :: List.replicate n 7) = some (0, List.replicate n 7) := rfl
      have hmax : (([1, 1] : List Int32).length : Int) - 1 = 1 := rfl
      simp only [List.replicate_succ, gatherSamples, hmax, hdraw, ih]
      rfl
  -- sorting equal samples changes nothing
  have hsorted : twoValues.qsort.sort samplesorttaskCmpfunc (List.replicate sampleSize 1) =
      List.replicate sampleSize 1 :=
    List.perm_replicate.mp (List.mergeSort_perm _ _)
  have hpick : pickSplitters (List.replicate sampleSize 1) 2 = some [1, 1000000] := by
    have hmiddle :
        (List.replicate sampleSize (1 : Int32))[(0 + 1) * (sampleSize / 2)]? = some 1 := by
      rw [List.getElem?_replicate, if_pos (by decide)]
    have hone : List.range (2 - 1) = [0] := rfl
    simp only [pickSplitters, hone, List.mapM_cons, List.mapM_nil, hmiddle]
    rfl
  show ((gatherSamples [1, 1] sampleSize (List.replicate sampleSize 7)).bind fun samples =>
    pickSplitters (twoValues.qsort.sort samplesorttaskCmpfunc samples) 2) = _
  rw [hsamples, Option.bind_some, hsorted, hpick]

/-- The sort over logs. -/
def twoLogs : System (Net Local (Log AnyMsg)) Nat :=
  network (Log.medium tagOf) (code twoValues) initialTasks (samplesort + 1)

/-- Its state at the start, -/
def twoStart : Net Local (Log AnyMsg) := .start (Log.medium tagOf) initialTasks (samplesort + 1)

/-- when the root has received its two messages, -/
def twoSampling : Net Local (Log AnyMsg) :=
  (twoLogs.runFrom twoStart [0, 0, 1, 1, 1, 1, 1, 1]).getD twoStart

/-- and when it has picked the splitters. -/
def twoSampled : Net Local (Log AnyMsg) :=
  twoSampling.resume samplesort (.root
    { pc := .create 0
      this := rootThis twoValues [] 2 none
      splitters := [1, 1000000]
      buckets := []
      received := [twoValues.kMsg, twoValues.testDataMsg] })

theorem twoSampling_step : twoLogs.step twoSampling samplesort = some twoSampled := by
  have htask : twoSampling.tasks samplesort = some (.root
      { pc := .sample
        this := rootThis twoValues [] 2 none
        splitters := []
        buckets := []
        received := [twoValues.kMsg, twoValues.testDataMsg] }) := rfl
  have harray : twoValues.arrayAt twoValues.testData twoValues.n = some twoValues.data := rfl
  have hpositive : ¬twoValues.K ≤ 0 := by decide
  simp only [twoLogs, network, Net.step, htask, Option.bind_some, code, rootMove, rootThis,
    RootLocal.phaseMove, Nat.le_refl, Nat.one_le_ofNat, if_true, hpositive, if_false, harray,
    twoValues_splitters]
  rfl

/-- **Runs of this sort** over logs are runs over the queues. -/
theorem replay_two (ts : List Nat) {a : Net Local (Log AnyMsg)}
    (hrun : twoLogs.runFrom twoSampled ts = some a) :
    ∃ s, (sortNetwork twoValues oneLayout).Reachable s ∧
      s.Tracks (mailboxes_carry oneLayout recordCap) a := by
  have hallows := allows_code twoValues_admitted
  have hfirst : twoLogs.runFrom twoStart [0, 0, 1, 1, 1, 1, 1, 1] = some twoSampling := rfl
  have hstep : twoLogs.runFrom twoSampling [samplesort] = some twoSampled := by
    rw [System.runFrom, twoSampling_step]
    rfl
  obtain ⟨s₁, hrun₁, htracks₁, hphase₁⟩ := Carries.replay hallows
    (Net.Tracks.start (mailboxes_carry oneLayout recordCap) initialTasks (samplesort + 1))
    ⟨_, start_valid twoValues, start_matches twoValues⟩ _ hfirst
  obtain ⟨s₂, hrun₂, htracks₂, hphase₂⟩ := Carries.replay hallows htracks₁ hphase₁ _ hstep
  obtain ⟨s₃, hrun₃, htracks₃, -⟩ := Carries.replay hallows htracks₂ hphase₂ _ hrun
  refine ⟨s₃, ?_, htracks₃⟩
  have hstart : (sortNetwork twoValues oneLayout).Reachable
    (.start (mailboxes oneLayout) initialTasks (samplesort + 1)) := .init rfl
  exact ((hstart.runFrom _ hrun₁).runFrom _ hrun₂).runFrom _ hrun₃

/-- All steps until the root is about to gather what the second bucket gets: its own up to
    phase 2, both buckets' until they have published, and phase 2 and the first round of
    phase 3. -/
def twoRounds : List Nat :=
  List.replicate 15 samplesort ++ List.replicate 13 (bucketTask 0) ++
    List.replicate 13 (bucketTask 1) ++ List.replicate 12 samplesort

/-- A run to the end. -/
theorem sort_in_phase_two : ∃ s r, (sortNetwork twoValues oneLayout).Reachable s ∧
    s.tasks samplesort = some (.root r) ∧ r.pc = .finished ∧ Completed twoValues s := by
  have hrun : (twoLogs.runFrom twoSampled (twoRounds ++ List.replicate 4 samplesort ++
      List.replicate 5 (bucketTask 0) ++ List.replicate 5 (bucketTask 1) ++
      List.replicate 9 samplesort)).map
        (fun a => ((a.tasks samplesort).bind Local.root?).map RootLocal.pc) =
      some (some .finished) := by
    decide +kernel
  obtain ⟨a, ha, hpc⟩ := Option.map_eq_some_iff.mp hrun
  obtain ⟨s, hs, htracks⟩ := replay_two _ ha
  obtain ⟨-, -, ⟨r, hr, -, hcompleted⟩, -⟩ := sort_in_phase twoValues_admitted oneLayout hs
  rw [← htracks.tasks, hr] at hpc
  have hfinished : r.pc = .finished := Option.some.inj hpc
  exact ⟨s, r, hs, hr, hfinished, hcompleted hfinished⟩

end TaskSystem.SampleSort
