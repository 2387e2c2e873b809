import Mathlib.Data.List.Nodup
import TaskSystem.Tasks.SampleSort.RootSteps

/-!
# The Buckets Stay in Phase

Every move of a bucket leads from a state in phase to a state in phase, and so does every move
of any task.

## Contents

- `Progress.atBucket`: a bucket goes on
- `allows_bucketReceive`: inside its calls of `receive`
- `allows_propagate`, `allows_sendDone`: what it sends to the root
- `allows_bucket`: all its moves
- `allows_code`: all moves of all tasks
-/

namespace TaskSystem.SampleSort

open Library

variable {set : Setting} {g g' : Progress} {a : Net Local (Log AnyMsg)}

/-! ## One step of a bucket -/

/-- Bucket `j` goes on to `pc`. -/
def Progress.atBucket (g : Progress) (j : Nat) (pc : BucketPc) : Progress :=
  { g with bucket := Function.update g.bucket j pc }

section Bucket

variable {j : Nat} {pc : BucketPc}

@[simp] theorem atBucket_self : (g.atBucket j pc).bucket j = pc := Function.update_self ..

theorem atBucket_ne {i : Nat} (h : i ≠ j) : (g.atBucket j pc).bucket i = g.bucket i :=
  Function.update_of_ne h _ _

theorem bucketLocal_atBucket : (g.atBucket j pc).bucketLocal set j =
    { pc
      this := bucketThis set g.sp j pc.handled
      received := (script set g.sp j).take pc.handled } := by
  simp only [Progress.bucketLocal, atBucket_self]
  rfl

theorem bucketLog_atBucket : (g.atBucket j pc).bucketLog set j =
    ⟨(script set g.sp j).take (g.root.sentTo j), pc.taken, pc.hand (script set g.sp j)⟩ := by
  simp only [Progress.bucketLog, atBucket_self]
  rfl

/-- The other buckets do not notice. -/
theorem others_atBucket {i : Nat} (h : i ≠ j) :
    (g.atBucket j pc).bucketLocal set i = g.bucketLocal set i ∧
      (g.atBucket j pc).bucketLog set i = g.bucketLog set i := by
  simp only [Progress.bucketLocal, Progress.bucketLog, atBucket_ne h]
  exact ⟨rfl, rfl⟩

/-- The progress stays valid when a bucket goes on without sending anything. -/
theorem valid_atBucket (hv : g.Valid set)
    (hvalid : pc.Valid (script set g.sp j) (g.root.sentTo j))
    (hsub : pc.SentSub ↔ (g.bucket j).SentSub) (hdone : pc.SentDone ↔ (g.bucket j).SentDone) :
    (g.atBucket j pc).Valid set where
  length_sp := hv.length_sp
  started_le := hv.started_le
  root := hv.root
  taken_le := hv.taken_le
  started := hv.started
  -- only bucket `j` has moved
  bucket i hi := by
    by_cases hij : i = j
    · subst hij
      rw [atBucket_self]
      exact hvalid
    · rw [atBucket_ne hij]
      exact hv.bucket i hi
  subs_nodup := hv.subs_nodup
  dones_nodup := hv.dones_nodup
  mem_subs i := by
    have hmem := hv.mem_subs i
    by_cases hij : i = j
    · subst hij
      rw [atBucket_self, hsub]
      exact hmem
    · rw [atBucket_ne hij]
      exact hmem
  mem_dones i := by
    have hmem := hv.mem_dones i
    by_cases hij : i = j
    · subst hij
      rw [atBucket_self, hdone]
      exact hmem
    · rw [atBucket_ne hij]
      exact hmem
  all_subs := hv.all_subs

theorem code_bucketReceive {b : BucketLocal} {call : Nat} {point : ReceivePoint}
    (h : b.pc = .receive call point) :
    code set (.bucket b) = receiveMove bucketSwitch (fun point => b.goto (.receive call point))
      (b.handled call) (b.goto (.after call)) point := by
  simp only [code, bucketMove, h]

/-- Where a bucket goes on after a call of `receive`. -/
theorem after_call {call : Nat} (h : call ≤ 4) :
    (BucketPc.after call).handled = call + 1 ∧ (BucketPc.after call).taken = call + 1 ∧
      (∀ msgs, (BucketPc.after call).hand msgs = none) ∧
      (∀ msgs sent, call < sent → (BucketPc.after call).Valid msgs sent) ∧
      ((BucketPc.after call).SentSub ↔ call = 4) ∧ ¬(BucketPc.after call).SentDone := by
  match call with
  -- the first three calls are followed by another one
  | 0 | 1 | 2 =>
    refine ⟨rfl, rfl, fun _ => rfl, fun _ _ hsent => ⟨by omega, hsent, trivial⟩, ?_, id⟩
    simp [BucketPc.after, BucketPc.SentSub]
  -- the fourth by the sub arrays, the fifth by the report
  | 3 | 4 =>
    refine ⟨rfl, rfl, fun _ => rfl, fun _ _ hsent => hsent, ?_, id⟩
    simp [BucketPc.after, BucketPc.SentSub]
  | call + 5 => omega

/-- What has been sent to a bucket is the beginning of its script. -/
theorem script_of_sent {sp : List Int32} {n call : Nat} {msg : AnyMsg}
    (h : ((script set sp j).take n)[call]? = some msg) : (script set sp j)[call]? = some msg := by
  rw [List.getElem?_take] at h
  split at h
  · exact h
  · cases h

/-- Within a call of `receive` only the point changes. -/
theorem goto_receive {call : Nat} {point : ReceivePoint} (hpc : g.bucket j = .receive call point)
    (p : ReceivePoint) : (g.bucketLocal set j).goto (.receive call p) =
      .bucket ((g.atBucket j (.receive call p)).bucketLocal set j) := by
  rw [bucketLocal_atBucket, BucketLocal.goto, Progress.bucketLocal, hpc]
  rfl

/-- Within a call of `receive` the bucket sends nothing. -/
theorem valid_atReceive (hv : g.Valid set) {call : Nat} {point p : ReceivePoint}
    (hpc : g.bucket j = .receive call point)
    (hvalid : (BucketPc.receive call p).Valid (script set g.sp j) (g.root.sentTo j)) :
    (g.atBucket j (.receive call p)).Valid set := by
  apply valid_atBucket hv hvalid
  · rw [hpc]
    exact Iff.rfl
  · rw [hpc]
    exact Iff.rfl

/-- The head of a bucket's queue is the message of the script whose turn it is. -/
theorem allows_bucketPoll (hv : g.Valid set) (hm : g.Matches set a)
    (hj : j < g.root.created set.k) {call : Nat} (hpc : g.bucket j = .receive call .poll) :
    Permitted set a (bucketTask j) (code set (.bucket (g.bucketLocal set j))) := by
  have hvalid := hv.bucket j hj
  rw [hpc] at hvalid
  obtain ⟨hcall, hle, -⟩ := hvalid
  have hchannel := hm.bucketChannels j hj
  have hself : a.tasks (bucketTask j) =
      some ((g.bucketLocal set j).goto (.receive call .poll)) := by
    rw [hm.bucketTasks j hj, ← hpc]
    rfl
  rw [code_bucketReceive hpc]
  apply allows_poll hchannel hself ⟨g, hv, hm⟩
  intro msg hmsg
  simp only [Log.next?, Progress.bucketLog, hpc, BucketPc.taken, ReceivePoint.dequeued,
    Nat.add_zero] at hmsg
  obtain ⟨⟨htag, hswitch⟩, -⟩ := handle_script set g.sp j (script_of_sent hmsg)
  refine ⟨htag, hswitch, g.atBucket j (.receive call (.receive msg.tag)),
    valid_atReceive hv hpc ⟨hcall, hle, msg, hmsg, rfl⟩, ?_⟩
  have hlog : (g.atBucket j (.receive call (.receive msg.tag))).bucketLog set j =
      g.bucketLog set j := by
    rw [bucketLog_atBucket, Progress.bucketLog, hpc]
    rfl
  have hstep : (g.atBucket j (.receive call (.receive msg.tag))).Matches set _ :=
    hm.bucket hj rfl rfl rfl rfl fun i hi => others_atBucket hi
  rw [hlog, Net.setChannel_self hchannel] at hstep
  rw [goto_receive hpc]
  exact hstep

/-- `Dequeue` gives the bucket the message that was found. -/
theorem allows_bucketDequeue (hv : g.Valid set) (hm : g.Matches set a)
    (hj : j < g.root.created set.k) {call : Nat} {tag : Int32}
    (hpc : g.bucket j = .receive call (.receive tag)) :
    Permitted set a (bucketTask j) (code set (.bucket (g.bucketLocal set j))) := by
  have hvalid := hv.bucket j hj
  rw [hpc] at hvalid
  obtain ⟨hcall, hle, msg, hmsg, htag⟩ := hvalid
  have hnext : (g.bucketLog set j).next? = some msg := by
    simp only [Log.next?, Progress.bucketLog, hpc]
    exact hmsg
  rw [code_bucketReceive hpc]
  apply allows_receive (hm.bucketChannels j hj) hnext
  refine ⟨g.atBucket j (.receive call (.clone tag)),
    valid_atReceive hv hpc ⟨hcall, hle, msg, hmsg, htag⟩, ?_⟩
  have hlog : { g.bucketLog set j with
        taken := (g.bucketLog set j).taken + 1, inHand := some msg } =
      (g.atBucket j (.receive call (.clone tag))).bucketLog set j := by
    rw [bucketLog_atBucket, Progress.bucketLog, hpc]
    simp only [BucketPc.hand, ReceivePoint.hand, script_of_sent hmsg]
    rfl
  rw [goto_receive hpc, hlog]
  exact hm.bucket hj rfl rfl rfl rfl fun i hi => others_atBucket hi

/-- `clone` gives the message in the bucket's hands to its handler, and the bucket goes on to what
    follows the call. -/
theorem allows_bucketClone (hv : g.Valid set) (hm : g.Matches set a)
    (hj : j < g.root.created set.k) {call : Nat} {tag : Int32}
    (hpc : g.bucket j = .receive call (.clone tag)) :
    Permitted set a (bucketTask j) (code set (.bucket (g.bucketLocal set j))) := by
  have hvalid := hv.bucket j hj
  rw [hpc] at hvalid
  obtain ⟨hcall, hle, msg, hmsg, rfl⟩ := hvalid
  have hlt := (List.getElem?_eq_some_iff.mp hmsg).1
  rw [List.length_take] at hlt
  have hscript := script_of_sent hmsg
  have hhand : (g.bucketLog set j).inHand = some msg := by
    rw [Progress.bucketLog, hpc]
    exact hscript
  obtain ⟨hhandled', htaken', hhand', hvalid', hsub', hdone'⟩ := after_call hcall
  have hlocal : (g.bucketLocal set j).handled call msg.tag msg =
      .bucket ((g.atBucket j (.after call)).bucketLocal set j) := by
    have hthis : (g.bucketLocal set j).this = bucketThis set g.sp j call := by
      rw [Progress.bucketLocal, hpc]
      rfl
    have hreceived : (g.bucketLocal set j).received = (script set g.sp j).take call := by
      rw [Progress.bucketLocal, hpc]
      rfl
    rw [BucketLocal.handled, hthis, (handle_script set g.sp j hscript).2, bucketLocal_atBucket,
      hhandled', List.take_add_one, hscript, hreceived]
    rfl
  have hlog : { g.bucketLog set j with inHand := none } =
      (g.atBucket j (.after call)).bucketLog set j := by
    rw [bucketLog_atBucket, htaken', hhand', Progress.bucketLog, hpc]
    rfl
  rw [code_bucketReceive hpc]
  apply allows_clone (hm.bucketChannels j hj) hhand
  rw [hlocal, hlog]
  refine ⟨g.atBucket j (.after call), ?_,
    hm.bucket hj rfl rfl rfl rfl fun i hi => others_atBucket hi⟩
  apply valid_atBucket hv (hvalid' _ _ (by omega))
  · rw [hsub', hpc]
    exact Iff.rfl
  · rw [hpc]
    exact ⟨fun h => absurd h hdone', fun h => h.elim⟩

/-- **`receive` of a bucket**, at each point inside. -/
theorem allows_bucketReceive (hv : g.Valid set) (hm : g.Matches set a)
    (hj : j < g.root.created set.k) {call : Nat} {point : ReceivePoint}
    (hpc : g.bucket j = .receive call point) :
    Permitted set a (bucketTask j) (code set (.bucket (g.bucketLocal set j))) := by
  cases point with
  | poll => exact allows_bucketPoll hv hm hj hpc
  | receive tag => exact allows_bucketDequeue hv hm hj hpc
  | clone tag => exact allows_bucketClone hv hm hj hpc
  | drop =>
    -- the root sends a bucket no message without a handler
    have hvalid := hv.bucket j hj
    rw [hpc] at hvalid
    exact hvalid.2.2.elim

/-- A bucket that can still publish or report has not been counted by the root. -/
theorem not_allArrived (hv : g.Valid set) (hj : j < g.root.created set.k)
    (hsub : ¬(g.bucket j).SentSub) : ¬g.root.AllArrived := by
  intro hall
  -- once all sub arrays have arrived, every bucket has published
  have hperm := perm_range_of_nodup hv.subs_nodup hv.subs_lt (hv.all_subs hall)
  have hmem : j ∈ g.subs :=
    hperm.mem_iff.mpr (List.mem_range.mpr (Nat.lt_of_lt_of_le hj hv.created_le))
  exact hsub ((hv.mem_subs j).mp hmem).2

/-- A bucket that has sent something to the root has left its own queue as it was. -/
theorem bucketLog_sent {pc' : BucketPc} (hpc : g.bucket j = pc) (htaken : pc'.taken = pc.taken)
    (hhand : ∀ msgs, pc'.hand msgs = pc.hand msgs) (i : Nat) :
    (g.atBucket j pc').bucketLog set i = g.bucketLog set i := by
  by_cases hij : i = j
  · subst hij
    rw [bucketLog_atBucket, Progress.bucketLog, hpc, htaken, hhand]
  · exact (others_atBucket (g := g) hij).2

/-! ### The sub arrays -/

/-- Bucket `j` has published its sub arrays. -/
def Progress.published (g : Progress) (j : Nat) : Progress :=
  { g.atBucket j (.receive 4 .poll) with subs := g.subs ++ [j] }

theorem toRoot_published (set : Setting) (j : Nat) (hdones : g.dones = []) :
    (g.published j).toRoot set = g.toRoot set ++ [.refTwoDimIntArray (subMsg set j)] := by
  have hd : (g.published j).dones = [] := hdones
  simp only [Progress.toRoot, hdones, hd, stream, List.map_nil, List.append_nil]
  simp [Progress.published, Progress.atBucket]

/-- The bucket has handled four messages, so that everything it reads is set. -/
theorem code_propagate (hadm : set.Admitted) (hpc : g.bucket j = .propagate) :
    code set (.bucket (g.bucketLocal set j)) =
      .send samplesort (.refTwoDimIntArray (subMsg set j)) fun _ =>
        (g.bucketLocal set j).goto (.receive 4 .poll) := by
  obtain ⟨hid, hcount, hroot, hdata, hsize, hsp, hspSize⟩ := bucketThis_four set g.sp j
  obtain ⟨dataRef, hdata⟩ := Option.isSome_iff_exists.mp hdata
  obtain ⟨dataSize, hsize⟩ := Option.isSome_iff_exists.mp hsize
  obtain ⟨splitterSize, hspSize⟩ := Option.isSome_iff_exists.mp hspSize
  have hthis : (g.bucketLocal set j).this = bucketThis set g.sp j 4 := by
    rw [Progress.bucketLocal, hpc]
    rfl
  have hpc' : (g.bucketLocal set j).pc = .propagate := hpc
  simp only [code, bucketMove, hpc', hthis, hid, hcount, hroot, hdata, hsize, hsp, hspSize,
    hadm.ofInt_k]
  rfl

theorem published_valid (hv : g.Valid set) (hj : j < g.root.created set.k)
    (hpc : g.bucket j = .propagate) : (g.published j).Valid set := by
  have hnot : ¬(g.bucket j).SentSub := by rw [hpc]; exact id
  have hdones := hv.dones_eq_nil (not_allArrived hv hj hnot)
  have hfresh : j ∉ g.subs := fun hmem => hnot ((hv.mem_subs j).mp hmem).2
  have hmsgs := toRoot_published set j hdones
  have hvalid := hv.bucket j hj
  rw [hpc] at hvalid
  have hbase : ∀ i, i ≠ j → (g.published j).bucket i = g.bucket i := fun i hij => atBucket_ne hij
  have hself : (g.published j).bucket j = .receive 4 .poll := atBucket_self
  exact {
    length_sp := hv.length_sp
    started_le := hv.started_le
    root := rootValid_append hv rfl hmsgs
    taken_le := by
      rw [hmsgs, List.length_append]
      exact Nat.le_add_right_of_le hv.taken_le
    started := hv.started
    bucket := by
      intro i hi
      by_cases hij : i = j
      · subst hij
        rw [hself]
        exact ⟨Nat.le_refl 4, hvalid, trivial⟩
      · rw [hbase i hij]
        exact hv.bucket i hi
    subs_nodup := hv.subs_nodup.append (List.nodup_singleton j)
      (List.disjoint_singleton.mpr hfresh)
    dones_nodup := hv.dones_nodup
    mem_subs := by
      intro i
      show i ∈ g.subs ++ [j] ↔ _
      by_cases hij : i = j
      · subst hij
        rw [hself]
        exact ⟨fun _ => ⟨hj, rfl⟩, fun _ => List.mem_append_right _ (List.mem_singleton_self i)⟩
      · rw [hbase i hij, List.mem_append, List.mem_singleton, or_iff_left hij]
        exact hv.mem_subs i
    mem_dones := by
      intro i
      by_cases hij : i = j
      · -- nobody is done yet, and this bucket is not either
        subst hij
        rw [hself]
        have hmem : i ∉ (g.published i).dones := by
          show i ∉ g.dones
          rw [hdones]
          exact List.not_mem_nil
        exact ⟨fun h => absurd h hmem, fun h => h.2.elim⟩
      · rw [hbase i hij]
        exact hv.mem_dones i
    all_subs := fun hall =>
      absurd (show g.root.AllArrived from hall) (not_allArrived hv hj hnot) }

/-- **A bucket publishes** its sub arrays. -/
theorem allows_propagate (hadm : set.Admitted) (hv : g.Valid set) (hm : g.Matches set a)
    (hj : j < g.root.created set.k) (hpc : g.bucket j = .propagate) :
    Permitted set a (bucketTask j) (code set (.bucket (g.bucketLocal set j))) := by
  have hnot : ¬(g.bucket j).SentSub := by rw [hpc]; exact id
  have hmsgs := toRoot_published set j
    (hv.dones_eq_nil (not_allArrived hv hj hnot))
  have hlocal : (g.bucketLocal set j).goto (.receive 4 .poll) =
      .bucket ((g.published j).bucketLocal set j) := by
    have hb : (g.published j).bucketLocal set j =
        (g.atBucket j (.receive 4 .poll)).bucketLocal set j := rfl
    rw [hb, bucketLocal_atBucket, BucketLocal.goto, Progress.bucketLocal, hpc]
    rfl
  have hlog : (g.published j).rootLog set = _ := rootLog_append hv rfl hmsgs
  have hroot : (g.published j).rootLocal set = g.rootLocal set :=
    rootLocal_append hv rfl rfl hmsgs (rootThis_append set g.subs j _ hv.arrived_le)
  rw [code_propagate hadm hpc]
  refine ⟨g.rootLog set, hm.rootChannel, root_roomy hv hadm (subMsg_small set j), g.published j,
    published_valid hv hj hpc, ?_⟩
  rw [← hlog, hlocal]
  exact hm.bucketSend hj rfl rfl hroot (bucketLog_sent hpc rfl fun _ => rfl)
    fun i hij => (others_atBucket hij).1

/-! ### The report -/

/-- Bucket `j` has reported that it is done. -/
def Progress.reported (g : Progress) (j : Nat) : Progress :=
  { g.atBucket j .leave with dones := g.dones ++ [j] }

theorem toRoot_reported : (g.reported j).toRoot set = g.toRoot set ++ [set.outputDoneMsg] := by
  simp [Progress.reported, Progress.toRoot, Progress.atBucket, stream]

theorem code_sendDone (hpc : g.bucket j = .sendDone) :
    code set (.bucket (g.bucketLocal set j)) =
      .send samplesort set.outputDoneMsg fun _ => (g.bucketLocal set j).goto .leave := by
  obtain ⟨hroot, hfinal⟩ := bucketThis_five set g.sp j
  obtain ⟨finalData, hfinal⟩ := Option.isSome_iff_exists.mp hfinal
  have hthis : (g.bucketLocal set j).this = bucketThis set g.sp j 5 := by
    rw [Progress.bucketLocal, hpc]
    rfl
  have hpc' : (g.bucketLocal set j).pc = .sendDone := hpc
  simp only [code, bucketMove, hpc', hthis, hroot, hfinal]
  rfl

theorem reported_valid (hv : g.Valid set) (hj : j < g.root.created set.k)
    (hpc : g.bucket j = .sendDone) : (g.reported j).Valid set := by
  have hnot : ¬(g.bucket j).SentDone := by rw [hpc]; exact id
  have hfresh : j ∉ g.dones := fun hmem => hnot ((hv.mem_dones j).mp hmem).2
  have hvalid := hv.bucket j hj
  rw [hpc] at hvalid
  have hbase : ∀ i, i ≠ j → (g.reported j).bucket i = g.bucket i := fun i hij => atBucket_ne hij
  have hself : (g.reported j).bucket j = .leave := atBucket_self
  exact {
    length_sp := hv.length_sp
    started_le := hv.started_le
    root := rootValid_append hv rfl toRoot_reported
    taken_le := by
      rw [toRoot_reported, List.length_append]
      exact Nat.le_add_right_of_le hv.taken_le
    started := hv.started
    bucket := by
      intro i hi
      by_cases hij : i = j
      · subst hij
        rw [hself]
        exact hvalid
      · rw [hbase i hij]
        exact hv.bucket i hi
    subs_nodup := hv.subs_nodup
    dones_nodup := hv.dones_nodup.append (List.nodup_singleton j)
      (List.disjoint_singleton.mpr hfresh)
    mem_subs := by
      -- the bucket has published long before
      intro i
      show i ∈ g.subs ↔ _
      by_cases hij : i = j
      · subst hij
        rw [hself, hv.mem_subs i, hpc]
        exact Iff.rfl
      · rw [hbase i hij]
        exact hv.mem_subs i
    mem_dones := by
      intro i
      show i ∈ g.dones ++ [j] ↔ _
      by_cases hij : i = j
      · subst hij
        rw [hself]
        exact ⟨fun _ => ⟨hj, trivial⟩,
          fun _ => List.mem_append_right _ (List.mem_singleton_self i)⟩
      · rw [hbase i hij, List.mem_append, List.mem_singleton, or_iff_left hij]
        exact hv.mem_dones i
    all_subs := hv.all_subs }

/-- **A bucket reports** that it is done. -/
theorem allows_sendDone (hadm : set.Admitted) (hv : g.Valid set) (hm : g.Matches set a)
    (hj : j < g.root.created set.k) (hpc : g.bucket j = .sendDone) :
    Permitted set a (bucketTask j) (code set (.bucket (g.bucketLocal set j))) := by
  have hmsgs : (g.reported j).toRoot set = _ := toRoot_reported
  have hlocal : (g.bucketLocal set j).goto .leave =
      .bucket ((g.reported j).bucketLocal set j) := by
    have hb : (g.reported j).bucketLocal set j = (g.atBucket j .leave).bucketLocal set j := rfl
    rw [hb, bucketLocal_atBucket, BucketLocal.goto, Progress.bucketLocal, hpc]
    rfl
  have hlog : (g.reported j).rootLog set = _ := rootLog_append hv rfl hmsgs
  have hroot : (g.reported j).rootLocal set = g.rootLocal set :=
    rootLocal_append hv rfl rfl hmsgs rfl
  rw [code_sendDone hpc]
  refine ⟨g.rootLog set, hm.rootChannel, root_roomy hv hadm (outputDoneMsg_small set),
    g.reported j, reported_valid hv hj hpc, ?_⟩
  rw [← hlog, hlocal]
  exact hm.bucketSend hj rfl rfl hroot (bucketLog_sent hpc rfl fun _ => rfl)
    fun i hij => (others_atBucket hij).1

/-! ### All of them -/

/-- **Moves of a bucket** -/
theorem allows_bucket (hadm : set.Admitted) (hv : g.Valid set) (hm : g.Matches set a)
    (hj : j < g.root.created set.k) :
    Permitted set a (bucketTask j) (code set (.bucket (g.bucketLocal set j))) := by
  cases hpc : g.bucket j with
  | receive call point => exact allows_bucketReceive hv hm hj hpc
  | propagate => exact allows_propagate hadm hv hm hj hpc
  | sendDone => exact allows_sendDone hadm hv hm hj hpc
  | leave =>
    have hvalid := hv.bucket j hj
    rw [hpc] at hvalid
    have hpc' : (g.bucketLocal set j).pc = .leave := hpc
    have hlocal : (g.bucketLocal set j).goto .returned =
        .bucket ((g.atBucket j .returned).bucketLocal set j) := by
      rw [bucketLocal_atBucket, BucketLocal.goto, Progress.bucketLocal, hpc]
      rfl
    have hlog : (g.atBucket j .returned).bucketLog set j = g.bucketLog set j := by
      rw [bucketLog_atBucket, Progress.bucketLog, hpc]
      rfl
    have hstep : (g.atBucket j .returned).Matches set _ :=
      hm.bucket hj rfl rfl rfl rfl fun i hi => others_atBucket hi
    rw [hlog, Net.setChannel_self (hm.bucketChannels j hj)] at hstep
    simp only [code, bucketMove, hpc', hlocal]
    refine ⟨g.atBucket j .returned, valid_atBucket hv hvalid ?_ ?_, hstep⟩
    · rw [hpc]
      exact Iff.rfl
    · rw [hpc]
      exact Iff.rfl
  | returned =>
    have hpc' : (g.bucketLocal set j).pc = .returned := hpc
    simp only [code, bucketMove, hpc']
    exact trivial

end Bucket

/-! ## All moves -/

/-- **Step**: every move keeps the tasks in phase. -/
theorem allows_code (hadm : set.Admitted) (a : Net Local (Log AnyMsg)) (t : Nat) (l : Local)
    (h : InPhase set a) (hl : a.tasks t = some l) : Permitted set a t (code set l) := by
  obtain ⟨g, hv, hm⟩ := h
  -- task 0 is the starter, task 1 the root, and the buckets follow
  match t with
  | 0 =>
    obtain rfl := Option.some.inj (hl.symm.trans hm.starterTask)
    exact allows_starter hadm hv hm
  | 1 =>
    obtain rfl := Option.some.inj (hl.symm.trans hm.rootTask)
    exact allows_root hadm hv hm
  | i + 2 =>
    have htask : i + 2 = bucketTask i := by
      unfold bucketTask samplesort
      omega
    rw [htask] at hl ⊢
    by_cases hi : i < g.root.created set.k
    · obtain rfl := Option.some.inj (hl.symm.trans (hm.bucketTasks i hi))
      exact allows_bucket hadm hv hm hi
    · rw [hm.noTasks i (Nat.le_of_not_lt hi)] at hl
      cases hl

end TaskSystem.SampleSort
