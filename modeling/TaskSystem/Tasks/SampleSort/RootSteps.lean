import TaskSystem.Tasks.SampleSort.Invariant

/-!
# The Root Stays in Phase

Every move of the root leads from a state in phase to a state in phase.

## Contents

- `Progress.atRoot`: the root goes on
- `allows_rootPoll`, `allows_rootDequeue`, `allows_rootClone`, `allows_rootReceive`: inside its
  calls of `receive`
- `allows_goto`, `allows_sendTo`, `allows_create`: what its loops do
- `allows_sample` to `allows_waitDone`, `allows_rootPhase`: between its calls of `receive`
- `allows_root`: all moves
-/

namespace TaskSystem.SampleSort

open Library

variable {set : Setting} {g g' : Progress} {a : Net Local (Log AnyMsg)}

/-! ## One step of the root -/

/-- The root goes on to `pc`. -/
def Progress.atRoot (g : Progress) (pc : RootPc) : Progress := { g with root := pc }

@[simp] theorem atRoot_root (g : Progress) (pc : RootPc) : (g.atRoot pc).root = pc := rfl

theorem rootLog_atRoot (g : Progress) (pc : RootPc) : (g.atRoot pc).rootLog set =
    ⟨g.toRoot set, pc.taken set.k, pc.hand set.k (g.toRoot set)⟩ := rfl

theorem rootLocal_atRoot (g : Progress) (pc : RootPc) : (g.atRoot pc).rootLocal set =
    { pc
      this := rootThis set g.subs pc.known (pc.arrived set.k)
      splitters := if pc.picked then g.sp else []
      buckets := bucketIds (pc.created set.k)
      received := (g.toRoot set).take (pc.handled set.k) } := rfl

/-- The progress stays valid when the root goes on without sending anything. -/
theorem valid_atRoot (hv : g.Valid set) {pc : RootPc}
    (hcreated : pc.created set.k = g.root.created set.k)
    (hsent : ∀ i < g.root.created set.k, pc.sentTo i = g.root.sentTo i)
    (hvalid : pc.Valid set (g.toRoot set)) (htaken : pc.taken set.k ≤ (g.toRoot set).length)
    (hstarted : 2 ≤ pc.taken set.k → g.started = 2)
    (hall : pc.AllArrived → g.subs.length = set.k) : (g.atRoot pc).Valid set where
  length_sp := hv.length_sp
  started_le := hv.started_le
  root := hvalid
  taken_le := htaken
  started := hstarted
  -- no bucket has been sent more than before
  bucket i hi := by
    rw [atRoot_root, hcreated] at hi
    rw [atRoot_root, hsent i hi]
    exact hv.bucket i hi
  subs_nodup := hv.subs_nodup
  dones_nodup := hv.dones_nodup
  mem_subs i := by rw [atRoot_root, hcreated]; exact hv.mem_subs i
  mem_dones i := by rw [atRoot_root, hcreated]; exact hv.mem_dones i
  all_subs := hall

/-- Buckets do not notice where the root is, but by what it sends. -/
theorem bucket_atRoot {pc : RootPc}
    (hsent : ∀ i < g.root.created set.k, pc.sentTo i = g.root.sentTo i) :
    ∀ i < g.root.created set.k, (g.atRoot pc).bucketLocal set i = g.bucketLocal set i ∧
      (g.atRoot pc).bucketLog set i = g.bucketLog set i := by
  intro i hi
  refine ⟨rfl, ?_⟩
  simp only [Progress.bucketLog, atRoot_root, hsent i hi]
  rfl

theorem code_rootReceive {r : RootLocal} {call : RootCall} {point : ReceivePoint}
    (h : r.pc = .receive call point) :
    code set (.root r) = receiveMove rootSwitch (fun point => r.goto (.receive call point))
      (r.handled call) (r.goto (.after call)) point := by
  simp only [code, rootMove, h]

/-- Inside a call of `receive`, the root has created and sent as much at every point. -/
theorem sameCall (set : Setting) (call : RootCall) (p p' : ReceivePoint) :
    (RootPc.receive call p').created set.k = (RootPc.receive call p).created set.k ∧
      (∀ i, (RootPc.receive call p').sentTo i = (RootPc.receive call p).sentTo i) ∧
      ((RootPc.receive call p').AllArrived ↔ (RootPc.receive call p).AllArrived) := by
  cases call <;> exact ⟨rfl, fun _ => rfl, Iff.rfl⟩

/-- The root goes to another point of the same call. -/
theorem valid_samePoint (hv : g.Valid set) {call : RootCall} {p : ReceivePoint}
    (hpc : g.root = .receive call p) (p' : ReceivePoint)
    (hready : p'.Ready (g.toRoot set)[call.number set.k]?)
    (htaken : call.number set.k + p'.dequeued ≤ (g.toRoot set).length)
    (hstarted : 2 ≤ call.number set.k + p'.dequeued → g.started = 2) :
    (g.atRoot (.receive call p')).Valid set := by
  obtain ⟨hcreated, hsent, hall⟩ := sameCall set call p p'
  have hvalid := hv.root
  rw [hpc] at hvalid
  apply valid_atRoot hv
  · rw [hpc, hcreated]
  · intro i _
    rw [hpc, hsent]
  · exact ⟨hvalid.1, hready⟩
  · exact htaken
  · exact hstarted
  · rw [hall, ← hpc]
    exact hv.all_subs

theorem rootLocal_samePoint {call : RootCall} {p p' : ReceivePoint}
    (hpc : g.root = .receive call p) :
    (g.rootLocal set).goto (.receive call p') =
      .root ((g.atRoot (.receive call p')).rootLocal set) := by
  simp only [RootLocal.goto, Progress.rootLocal, Progress.atRoot, hpc]
  cases call <;> rfl

/-- Inside a call the root creates no buckets. -/
theorem created_samePoint {call : RootCall} {p : ReceivePoint} (hpc : g.root = .receive call p)
    (p' : ReceivePoint) :
    (g.atRoot (.receive call p')).root.created set.k = g.root.created set.k := by
  rw [atRoot_root, hpc, (sameCall set call p p').1]

/-- The buckets do not notice at which point of a call the root is. -/
theorem bucket_samePoint {call : RootCall} {p : ReceivePoint} (hpc : g.root = .receive call p)
    (p' : ReceivePoint) : ∀ i < g.root.created set.k,
      (g.atRoot (.receive call p')).bucketLocal set i = g.bucketLocal set i ∧
        (g.atRoot (.receive call p')).bucketLog set i = g.bucketLog set i := by
  apply bucket_atRoot
  intro i _
  rw [hpc, (sameCall set call p p').2.1]

/-- A poll finds at the head of the queue the message that this call is meant for. -/
theorem allows_rootPoll (hv : g.Valid set) (hm : g.Matches set a) {call : RootCall}
    (hpc : g.root = .receive call .poll) :
    Permitted set a samplesort (code set (.root (g.rootLocal set))) := by
  have hvalid := hv.root
  have htaken := hv.taken_le
  have hstarted := hv.started
  rw [hpc] at hvalid htaken hstarted
  rw [code_rootReceive hpc]
  have hself : a.tasks samplesort = some ((g.rootLocal set).goto (.receive call .poll)) := by
    rw [hm.rootTask, rootLocal_samePoint hpc, ← hpc]
    rfl
  apply allows_poll hm.rootChannel hself ⟨g, hv, hm⟩
  intro msg hmsg
  simp only [Log.next?, Progress.rootLog, hpc] at hmsg
  obtain ⟨⟨htag, hswitch⟩, -⟩ := handle_expected hvalid.1 (hv.expected hpc hmsg) .poll
  refine ⟨htag, hswitch, _,
    valid_samePoint hv hpc (.receive msg.tag) ⟨msg, hmsg, rfl⟩ htaken hstarted, ?_⟩
  rw [rootLocal_samePoint hpc]
  have hlog : (g.atRoot (.receive call (.receive msg.tag))).rootLog set = g.rootLog set := by
    rw [rootLog_atRoot, Progress.rootLog, hpc]
    rfl
  exact hm.rootLocal hlog rfl (created_samePoint hpc _) (bucket_samePoint hpc _)

/-- `Dequeue` gives the message that was found. -/
theorem allows_rootDequeue (hv : g.Valid set) (hm : g.Matches set a) {call : RootCall}
    {tag : Int32} (hpc : g.root = .receive call (.receive tag)) :
    Permitted set a samplesort (code set (.root (g.rootLocal set))) := by
  have hvalid := hv.root
  have hstarted := hv.started
  rw [hpc] at hvalid hstarted
  rw [code_rootReceive hpc]
  obtain ⟨msg, hmsg, htag⟩ := hvalid.2
  have hlt := (List.getElem?_eq_some_iff.mp hmsg).1
  have hnext : (g.rootLog set).next? = some msg := by
    simp only [Log.next?, Progress.rootLog, hpc]
    exact hmsg
  apply allows_receive hm.rootChannel hnext
  refine ⟨_, valid_samePoint hv hpc (.clone tag) ⟨msg, hmsg, htag⟩ hlt ?_, ?_⟩
  · -- the second message comes from the starter: there is no bucket yet
    intro htwo
    cases call with
    | bar =>
      simp only [RootCall.number, ReceivePoint.dequeued] at htwo
      omega
    | refIntarray =>
      have hsubs := hv.subs_eq_nil (by rw [hpc]; rfl)
      have hdones := hv.dones_eq_nil (by rw [hpc]; exact id)
      have hlen := hv.length_toRoot
      rw [hsubs, hdones, List.length_nil] at hlen
      simp only [RootCall.number] at hlt
      have hle := hv.started_le
      omega
    | subArray ki | done ki =>
      apply hstarted
      simp only [RootPc.taken, RootCall.number]
      omega
  · rw [rootLocal_samePoint hpc]
    have hlog : { g.rootLog set with taken := (g.rootLog set).taken + 1, inHand := some msg } =
        (g.atRoot (.receive call (.clone tag))).rootLog set := by
      rw [rootLog_atRoot, Progress.rootLog, hpc]
      simp only [RootPc.hand, ReceivePoint.hand, hmsg]
      rfl
    rw [hlog]
    exact hm.root rfl (created_samePoint hpc _) (bucket_samePoint hpc _)

/-- What the root has done where a call ends, which is where the next phase begins. -/
structure AfterCall (set : Setting) (g : Progress) (call : RootCall) : Prop where
  created : (RootPc.after call).created set.k = g.root.created set.k
  sentTo : ∀ i < g.root.created set.k, (RootPc.after call).sentTo i = g.root.sentTo i
  valid : (RootPc.after call).Valid set (g.toRoot set)
  taken : (RootPc.after call).taken set.k = call.number set.k + 1
  handled : (RootPc.after call).handled set.k = call.number set.k + 1
  hand : ∀ msgs, (RootPc.after call).hand set.k msgs = none
  allArrived : (RootPc.after call).AllArrived ↔ g.root.AllArrived
  picked : (RootPc.after call).picked = g.root.picked

/-- **Where a call ends** the root has handled its message and nothing else has changed. -/
theorem after_spec {call : RootCall} {point : ReceivePoint} (hpc : g.root = .receive call point)
    (hcall : call.Valid set.k) : AfterCall set g call := by
  obtain ⟨sp, started, root, bucket, subs, dones⟩ := g
  obtain rfl : root = .receive call point := hpc
  cases call with
  | bar => exact ⟨rfl, fun _ _ => rfl, ⟨trivial, trivial⟩, rfl, rfl, fun _ => rfl, Iff.rfl, rfl⟩
  | refIntarray => exact ⟨rfl, fun _ _ => rfl, trivial, rfl, rfl, fun _ => rfl, Iff.rfl, rfl⟩
  | subArray ki | done ki =>
    exact ⟨rfl, fun _ _ => rfl, hcall, rfl, rfl, fun _ => rfl, Iff.rfl, rfl⟩

/-- `clone` gives the message in the root's hands to its handler, which fills the fields that the
    next phase reads. -/
theorem allows_rootClone (hv : g.Valid set) (hm : g.Matches set a) {call : RootCall}
    {tag : Int32} (hpc : g.root = .receive call (.clone tag)) :
    Permitted set a samplesort (code set (.root (g.rootLocal set))) := by
  have hvalid := hv.root
  have hstarted := hv.started
  rw [hpc] at hvalid hstarted
  rw [code_rootReceive hpc]
  obtain ⟨msg, hmsg, rfl⟩ := hvalid.2
  have hlt := (List.getElem?_eq_some_iff.mp hmsg).1
  have hhand : (g.rootLog set).inHand = some msg := by
    rw [Progress.rootLog, hpc]
    exact hmsg
  have hhandle := (handle_expected hvalid.1 (hv.expected hpc hmsg) (.clone msg.tag)).2
  have hafter := after_spec hpc hvalid.1
  have hlocal : (g.rootLocal set).handled call msg.tag msg =
      .root ((g.atRoot (.after call)).rootLocal set) := by
    have hthis : (g.rootLocal set).this = rootThis set g.subs
        (RootPc.receive call (.clone msg.tag)).known
        ((RootPc.receive call (.clone msg.tag)).arrived set.k) := by rw [← hpc]; rfl
    rw [RootLocal.handled, hthis, hhandle, rootLocal_atRoot, hafter.created, hafter.handled,
      hafter.picked, List.take_add_one, hmsg]
    simp only [Progress.rootLocal, hpc]
    rfl
  have hlog : { g.rootLog set with inHand := none } =
      (g.atRoot (.after call)).rootLog set := by
    rw [rootLog_atRoot, hafter.hand, hafter.taken, Progress.rootLog, hpc]
    rfl
  apply allows_clone hm.rootChannel hhand
  rw [hlocal, hlog]
  refine ⟨g.atRoot (.after call), ?_, hm.root rfl hafter.created (bucket_atRoot hafter.sentTo)⟩
  apply valid_atRoot hv hafter.created hafter.sentTo hafter.valid
  · rw [hafter.taken]
    exact hlt
  · rw [hafter.taken]
    exact hstarted
  · rw [hafter.allArrived]
    exact hv.all_subs

/-- **`receive` of the root**, at each point inside. -/
theorem allows_rootReceive (hv : g.Valid set) (hm : g.Matches set a) {call : RootCall}
    {point : ReceivePoint} (hpc : g.root = .receive call point) :
    Permitted set a samplesort (code set (.root (g.rootLocal set))) := by
  cases point with
  | poll => exact allows_rootPoll hv hm hpc
  | receive tag => exact allows_rootDequeue hv hm hpc
  | clone tag => exact allows_rootClone hv hm hpc
  | drop =>
    -- the root gets no message without a handler
    have hvalid := hv.root
    rw [hpc] at hvalid
    exact hvalid.2.elim

/-- The root has created, received and learnt as much at both points. -/
structure RootPc.Alike (k : Nat) (pc pc' : RootPc) : Prop where
  created : pc'.created k = pc.created k
  handled : pc'.handled k = pc.handled k
  taken : pc'.taken k = pc.taken k
  hand : ∀ msgs, pc'.hand k msgs = pc.hand k msgs
  known : pc'.known = pc.known
  arrived : pc'.arrived k = pc.arrived k
  picked : pc'.picked = pc.picked

section Alike

variable {p : RootPc}

theorem goto_eq (h : g.root.Alike set.k p) :
    (g.rootLocal set).goto p = .root ((g.atRoot p).rootLocal set) := by
  rw [rootLocal_atRoot, h.created, h.handled, h.known, h.arrived, h.picked]
  rfl

theorem rootLog_eq (h : g.root.Alike set.k p) : (g.atRoot p).rootLog set = g.rootLog set := by
  rw [rootLog_atRoot, h.taken, h.hand]
  rfl

/-- The root goes on within a phase, or to the next one. -/
theorem allows_goto (hv : g.Valid set) (hm : g.Matches set a) (h : g.root.Alike set.k p)
    (hsent : ∀ i < g.root.created set.k, p.sentTo i = g.root.sentTo i)
    (hvalid : p.Valid set (g.toRoot set)) (hall : p.AllArrived → g.subs.length = set.k) :
    Permitted set a samplesort (.compute ((g.rootLocal set).goto p)) := by
  rw [goto_eq h]
  refine ⟨g.atRoot p, ?_, hm.rootLocal (rootLog_eq h) rfl h.created (bucket_atRoot hsent)⟩
  apply valid_atRoot hv h.created hsent hvalid
  · rw [h.taken]
    exact hv.taken_le
  · rw [h.taken]
    exact hv.started
  · exact hall

/-- A bucket may rely on its messages when more are sent. -/
theorem BucketPc.Valid.succ {msgs : List AnyMsg} {sent : Nat} {pc : BucketPc}
    (h : pc.Valid msgs sent) : pc.Valid msgs (sent + 1) := by
  cases pc with
  | receive call point =>
    obtain ⟨hcall, hle, hready⟩ := h
    refine ⟨hcall, Nat.le_succ_of_le hle, ?_⟩
    rw [List.take_add_one]
    exact hready.append _
  | propagate | sendDone | leave | returned => exact Nat.le_succ_of_le h

/-- **The root sends** bucket `j` the next message of its script. -/
theorem allows_sendTo (hadm : set.Admitted) (hv : g.Valid set) (hm : g.Matches set a)
    (h : g.root.Alike set.k p) (hcreated : g.root.created set.k = set.k) {j : Nat}
    (hj : j < set.k) {msg : AnyMsg} (hmsg : (script set g.sp j)[g.root.sentTo j]? = some msg)
    (hsent : ∀ i, p.sentTo i = if i = j then g.root.sentTo i + 1 else g.root.sentTo i)
    (hvalid : p.Valid set (g.toRoot set)) (hall : p.AllArrived → g.root.AllArrived)
    {next : Bool → Local} (hnext : next true = (g.rootLocal set).goto p) :
    Permitted set a samplesort ((g.rootLocal set).sendTo j msg next) := by
  have hk := hadm.k_le
  have hbucket : (g.rootLocal set).buckets[j]? = some (bucketId j) := by
    simp only [Progress.rootLocal, hcreated, bucketIds, List.getElem?_map, List.getElem?_range hj,
      Option.map_some]
  -- the ID in `buckets[j]` is the one the bucket was created with
  have hsend : (g.rootLocal set).sendTo j msg next = .send (bucketTask j) msg next := by
    simp only [RootLocal.sendTo, hbucket, bucketId_toNat (show j < 98 by omega)]
  rw [hsend]
  have hsmall := script_small hadm hv.length_sp hj msg (List.mem_of_getElem? hmsg)
  -- the bucket's queue gets the next message of its script
  have hlog : (g.atRoot p).bucketLog set j =
      { g.bucketLog set j with accepted := (g.bucketLog set j).accepted ++ [msg] } := by
    have hone : (g.atRoot p).root.sentTo j = g.root.sentTo j + 1 := by
      rw [atRoot_root, hsent, if_pos rfl]
    simp only [Progress.bucketLog, hone]
    simp only [Progress.atRoot, List.take_add_one, hmsg, Option.toList_some]
  refine ⟨g.bucketLog set j, hm.bucketChannels j (by omega), ?_, g.atRoot p, ?_, ?_⟩
  · -- a bucket is sent five messages in all
    have hlen : (g.bucketLog set j).accepted.length ≤ 5 := by
      simp only [Progress.bucketLog, List.length_take]
      exact Nat.min_le_right _ _
    have hcap : recordCap (bucketTask j) = 40000 := if_neg (bucketTask_ne_samplesort j)
    refine ⟨hsmall.wellFormed, hcap ▸ hsmall.size_le, ?_⟩
    rw [hcap]
    unfold queueSize sizeofQueue
    omega
  · exact {
      length_sp := hv.length_sp
      started_le := hv.started_le
      root := hvalid
      taken_le := by
        rw [atRoot_root, h.taken]
        exact hv.taken_le
      started := by
        rw [atRoot_root, h.taken]
        exact hv.started
      bucket := by
        intro i hi
        rw [atRoot_root, h.created] at hi
        rw [atRoot_root, hsent]
        split
        · exact (hv.bucket i hi).succ
        · exact hv.bucket i hi
      subs_nodup := hv.subs_nodup
      dones_nodup := hv.dones_nodup
      mem_subs := by
        intro i
        rw [atRoot_root, h.created]
        exact hv.mem_subs i
      mem_dones := by
        intro i
        rw [atRoot_root, h.created]
        exact hv.mem_dones i
      all_subs := fun hpc => hv.all_subs (hall hpc) }
  · rw [hnext, goto_eq h, ← hlog]
    apply hm.rootSend (rootLog_eq h) rfl h.created (fun _ => rfl)
    intro i hij
    simp only [Progress.bucketLog, atRoot_root, hsent, hij, if_false]
    rfl

end Alike

theorem code_rootPhase (hpc : ∀ call point, g.root ≠ .receive call point) :
    code set (.root (g.rootLocal set)) =
      (g.rootLocal set).phaseMove set set.K set.n set.testData g.root := by
  cases h : g.root with
  | receive call point => exact absurd h (hpc call point)
  | _ => simp [code, rootMove, Progress.rootLocal, rootThis, RootPc.known, h]

/-- One round of a loop that sends every bucket a message. -/
theorem sentTo_round (i n j : Nat) : (if j < i + 1 then n + 1 else n) =
    if j = i then (if j < i then n + 1 else n) + 1 else if j < i then n + 1 else n := by
  split <;> split <;> split <;> omega

/-- The root has created bucket `i`, which has neither been sent nor sent anything. -/
def Progress.withBucket (g : Progress) (i : Nat) : Progress :=
  { g with root := .create (i + 1), bucket := Function.update g.bucket i (.receive 0 .poll) }

theorem withBucket_self (i : Nat) : (g.withBucket i).bucket i = .receive 0 .poll :=
  Function.update_self ..

theorem withBucket_ne {i j : Nat} (h : j ≠ i) : (g.withBucket i).bucket j = g.bucket j :=
  Function.update_of_ne h _ _

theorem withBucket_valid (hv : g.Valid set) {i : Nat} (hpc : g.root = .create i)
    (hlt : i < set.k) : (g.withBucket i).Valid set := by
  have hcreated : g.root.created set.k = i := by rw [hpc, RootPc.created]
  have hcreated' : (g.withBucket i).root.created set.k = i + 1 := rfl
  exact {
    length_sp := hv.length_sp
    started_le := hv.started_le
    root := hlt
    taken_le := by
      have htaken := hv.taken_le
      rw [hpc] at htaken
      exact htaken
    started := by
      have hstarted := hv.started
      rw [hpc] at hstarted
      exact hstarted
    bucket := by
      intro j hj
      by_cases hji : j = i
      · rw [hji, withBucket_self]
        exact ⟨Nat.zero_le _, Nat.zero_le _, trivial⟩
      · have hvalid := hv.bucket j (by omega)
        rw [hpc] at hvalid
        rw [withBucket_ne hji]
        exact hvalid
    subs_nodup := hv.subs_nodup
    dones_nodup := hv.dones_nodup
    mem_subs := by
      intro j
      have hmem : j ∈ (g.withBucket i).subs ↔ _ := hv.mem_subs j
      rw [hmem, hcreated, hcreated']
      by_cases hji : j = i
      · subst hji
        simp [withBucket_self, BucketPc.SentSub]
      · have hiff : j < i + 1 ↔ j < i := by omega
        rw [withBucket_ne hji, hiff]
    mem_dones := by
      intro j
      have hmem : j ∈ (g.withBucket i).dones ↔ _ := hv.mem_dones j
      rw [hmem, hcreated, hcreated']
      by_cases hji : j = i
      · subst hji
        simp [withBucket_self, BucketPc.SentDone]
      · have hiff : j < i + 1 ↔ j < i := by omega
        rw [withBucket_ne hji, hiff]
    all_subs := fun hall => hall.elim }

/-- **The root creates** a bucket. -/
theorem allows_create (hv : g.Valid set) (hm : g.Matches set a)
    (hpc : g.root = .create i) (hlt : i < set.k) :
    Permitted set a samplesort (.create (fun id => .bucket (.start id)) fun id =>
      .root { g.rootLocal set with
        pc := .create (i + 1)
        buckets := (g.rootLocal set).buckets ++ [UInt32.ofNat id] }) := by
  have hid : a.nextId = bucketTask i := by rw [hm.nextId, hpc, RootPc.created]
  have hcreated : g.root.created set.k = i := by rw [hpc, RootPc.created]
  have hcreated' : (g.withBucket i).root.created set.k = i + 1 := rfl
  refine ⟨g.withBucket i, withBucket_valid hv hpc hlt, ?_⟩
  have hlog : (g.withBucket i).rootLog set = g.rootLog set := by
    simp only [Progress.rootLog, hpc]
    rfl
  have hlocal : (g.withBucket i).rootLocal set =
      { g.rootLocal set with
        pc := .create (i + 1)
        buckets := (g.rootLocal set).buckets ++ [UInt32.ofNat a.nextId] } := by
    simp only [Progress.rootLocal, hpc, hcreated', bucketIds_succ, hid]
    rfl
  have hstart : (g.withBucket i).bucketLocal set i = .start (bucketTask i) ∧
      (g.withBucket i).bucketLog set i = Log.empty := by
    simp only [Progress.bucketLocal, Progress.bucketLog, withBucket_self]
    exact ⟨rfl, rfl⟩
  have hothers : ∀ j < i, (g.withBucket i).bucketLocal set j = g.bucketLocal set j ∧
      (g.withBucket i).bucketLog set j = g.bucketLog set j := by
    intro j hj
    have hji : j ≠ i := Nat.ne_of_lt hj
    simp only [Progress.bucketLocal, Progress.bucketLog, withBucket_ne hji, hpc]
    exact ⟨rfl, rfl⟩
  have hcreate := hm.rootCreate hcreated hcreated' hlog rfl hstart hothers
  rw [hlocal] at hcreate
  exact hcreate

/-! ## The phases, one by one -/

section Phases

variable {i ki kj : Nat} {topoMsg : TopologyMsg}

/-- A loop that is over has sent every bucket its message. -/
theorem sentTo_over (i n : Nat) {j k : Nat} (hj : j < k) (hover : ¬i < k) :
    n + 1 = if j < i then n + 1 else n :=
  (if_pos (Nat.lt_of_lt_of_le hj (Nat.not_lt.mp hover))).symm

/-- It draws its samples, and picks the splitters from them. -/
theorem allows_sample (hadm : set.Admitted) (hv : g.Valid set) (hm : g.Matches set a)
    (hpc : g.root = .sample) :
    Permitted set a samplesort
      ((g.rootLocal set).phaseMove set set.K set.n set.testData .sample) := by
  obtain ⟨sp, started, root, bucket, subs, dones⟩ := g
  obtain rfl : root = .sample := hpc
  have hone := hadm.one_le
  have hK : ¬set.K ≤ 0 := by
    rw [Int32.le_iff_toInt_le]
    simp only [Int32.toInt_zero]
    omega
  have harray : set.arrayAt set.testData set.n = some set.data := if_pos ⟨rfl, rfl⟩
  simp only [RootLocal.phaseMove, hK, if_false, harray]
  split
  case h_1 splitters hpicked =>
    obtain ⟨samples, -, hpick⟩ := Option.bind_eq_some_iff.mp hpicked
    have hlen := length_pickSplitters hadm.one_le_k hpick
    -- there is no bucket yet that has been promised other splitters
    refine ⟨{ sp := splitters, started, root := .create 0, bucket, subs, dones }, ?_, ?_⟩
    · exact { hv with
        length_sp := hlen
        root := Nat.zero_le _
        bucket := fun i hi => absurd hi (Nat.not_lt_zero i)
        all_subs := fun hall => hall.elim }
    · have hlocal : Progress.Matches set ⟨splitters, started, .create 0, bucket, subs, dones⟩
          (a.resume samplesort _) :=
        hm.rootLocal rfl rfl rfl fun i hi => absurd hi (Nat.not_lt_zero i)
      exact hlocal
  case h_2 =>
    -- still drawing
    exact allows_goto hv hm ⟨rfl, rfl, rfl, fun _ => rfl, rfl, rfl, rfl⟩ (fun _ _ => rfl) trivial
      fun hall => hall.elim

/-- The loop that creates the buckets. -/
theorem allows_createLoop (hadm : set.Admitted) (hv : g.Valid set) (hm : g.Matches set a)
    (hpc : g.root = .create i) :
    Permitted set a samplesort
      ((g.rootLocal set).phaseMove set set.K set.n set.testData (.create i)) := by
  obtain ⟨sp, started, root, bucket, subs, dones⟩ := g
  obtain rfl : root = .create i := hpc
  have hvalid := hv.root
  have hi : i ≤ set.k := hvalid
  simp only [RootLocal.phaseMove, hadm.lt_iff]
  split
  case isTrue hlt => exact allows_create hv hm rfl hlt
  case isFalse hnot =>
    obtain rfl : i = set.k := by omega
    exact allows_goto hv hm ⟨rfl, rfl, rfl, fun _ => rfl, rfl, rfl, rfl⟩
      (fun j _ => by simp [RootPc.sentTo]) ⟨Nat.zero_le _, rfl⟩ fun hall => hall.elim

/-- Phase 1: the loop that sends the topology. -/
theorem allows_topology (hadm : set.Admitted) (hv : g.Valid set) (hm : g.Matches set a)
    (hpc : g.root = .topology i topoMsg) :
    Permitted set a samplesort
      ((g.rootLocal set).phaseMove set set.K set.n set.testData (.topology i topoMsg)) := by
  obtain ⟨sp, started, root, bucket, subs, dones⟩ := g
  obtain rfl : root = .topology i topoMsg := hpc
  have hvalid := hv.root
  obtain ⟨hi, rfl⟩ := hvalid
  simp only [RootLocal.phaseMove, hadm.lt_iff]
  split
  case isTrue hlt =>
    refine allows_sendTo (p := .topology (i + 1) (topoAt set (i + 1))) hadm hv hm
      ⟨rfl, rfl, rfl, fun _ => rfl, rfl, rfl, rfl⟩ rfl hlt ?_ (sentTo_round i 0) ⟨hlt, rfl⟩ id rfl
    simp [RootPc.sentTo, script]
  case isFalse hnot =>
    exact allows_goto hv hm ⟨rfl, rfl, rfl, fun _ => rfl, rfl, rfl, rfl⟩
      (fun _ hj => sentTo_over i 0 hj hnot) (Nat.zero_le _) fun hall => hall.elim

/-- Phase 1: the loop that sends the slices. -/
theorem allows_dataRef (hadm : set.Admitted) (hv : g.Valid set) (hm : g.Matches set a)
    (hpc : g.root = .dataRef ki) :
    Permitted set a samplesort
      ((g.rootLocal set).phaseMove set set.K set.n set.testData (.dataRef ki)) := by
  obtain ⟨sp, started, root, bucket, subs, dones⟩ := g
  obtain rfl : root = .dataRef ki := hpc
  simp only [RootLocal.phaseMove, hadm.lt_iff]
  split
  case isTrue hlt =>
    refine allows_sendTo (p := .dataRef (ki + 1)) hadm hv hm
      ⟨rfl, rfl, rfl, fun _ => rfl, rfl, rfl, rfl⟩ rfl hlt ?_ (sentTo_round ki 1) hlt id rfl
    simp [RootPc.sentTo, script]
  case isFalse hnot =>
    exact allows_goto hv hm ⟨rfl, rfl, rfl, fun _ => rfl, rfl, rfl, rfl⟩
      (fun _ hj => sentTo_over ki 1 hj hnot) (Nat.zero_le _) fun hall => hall.elim

/-- Phase 1: the loop that sends the splitters. -/
theorem allows_splitters (hadm : set.Admitted) (hv : g.Valid set) (hm : g.Matches set a)
    (hpc : g.root = .splitters ki) :
    Permitted set a samplesort
      ((g.rootLocal set).phaseMove set set.K set.n set.testData (.splitters ki)) := by
  obtain ⟨sp, started, root, bucket, subs, dones⟩ := g
  obtain rfl : root = .splitters ki := hpc
  simp only [RootLocal.phaseMove, hadm.lt_iff]
  split
  case isTrue hlt =>
    refine allows_sendTo (p := .splitters (ki + 1)) hadm hv hm
      ⟨rfl, rfl, rfl, fun _ => rfl, rfl, rfl, rfl⟩ rfl hlt ?_ (sentTo_round ki 2) hlt id rfl
    simp [RootPc.sentTo, script, Progress.rootLocal, RootPc.picked]
  case isFalse hnot =>
    -- before phase 2 no sub arrays have arrived
    have harr : arrivedArr set subs 0 = List.replicate set.k none := by
      simp [arrivedArr]
    let g : Progress := ⟨sp, started, .splitters ki, bucket, subs, dones⟩
    have hsent : ∀ j < g.root.created set.k,
        (RootPc.getSubArray 0).sentTo j = g.root.sentTo j :=
      fun _ hj => sentTo_over ki 2 hj hnot
    refine ⟨g.atRoot (.getSubArray 0), ?_, ?_⟩
    · exact valid_atRoot hv rfl hsent (Nat.zero_le _) hv.taken_le hv.started fun hall => hall.elim
    · have hlocal : Progress.Matches set (g.atRoot (.getSubArray 0)) (a.resume samplesort _) :=
        hm.rootLocal rfl rfl rfl (bucket_atRoot hsent)
      rw [rootLocal_atRoot, rootThis, RootPc.arrived, Option.elim_some, harr] at hlocal
      exact hlocal

/-- Phase 2: the loop that asks for the sub arrays. -/
theorem allows_getSubArray (hadm : set.Admitted) (hv : g.Valid set) (hm : g.Matches set a)
    (hpc : g.root = .getSubArray ki) :
    Permitted set a samplesort
      ((g.rootLocal set).phaseMove set set.K set.n set.testData (.getSubArray ki)) := by
  obtain ⟨sp, started, root, bucket, subs, dones⟩ := g
  obtain rfl : root = .getSubArray ki := hpc
  simp only [RootLocal.phaseMove, hadm.lt_iff]
  split
  case isTrue hlt =>
    refine allows_sendTo (p := .getSubArray (ki + 1)) hadm hv hm
      ⟨rfl, rfl, rfl, fun _ => rfl, rfl, rfl, rfl⟩ rfl hlt ?_ (sentTo_round ki 3) hlt id rfl
    simp [RootPc.sentTo, script]
  case isFalse hnot =>
    exact allows_goto hv hm ⟨rfl, rfl, rfl, fun _ => rfl, rfl, rfl, rfl⟩
      (fun _ hj => sentTo_over ki 3 hj hnot) (Nat.zero_le _) fun hall => hall.elim

/-- Phase 2: the loop that waits for them. -/
theorem allows_waitSubArrays (hadm : set.Admitted) (hv : g.Valid set) (hm : g.Matches set a)
    (hpc : g.root = .waitSubArrays ki) :
    Permitted set a samplesort
      ((g.rootLocal set).phaseMove set set.K set.n set.testData (.waitSubArrays ki)) := by
  obtain ⟨sp, started, root, bucket, subs, dones⟩ := g
  obtain rfl : root = .waitSubArrays ki := hpc
  have hvalid := hv.root
  have htaken := hv.taken_le
  have hki : ki ≤ set.k := hvalid
  simp only [RootLocal.phaseMove, hadm.lt_iff]
  split
  case isTrue hlt =>
    exact allows_goto hv hm ⟨rfl, rfl, rfl, fun _ => rfl, rfl, rfl, rfl⟩ (fun _ _ => rfl)
      ⟨hlt, trivial⟩ fun hall => hall.elim
  case isFalse hnot =>
    -- as many messages have been taken as there are buckets, all of them sub arrays
    obtain rfl : ki = set.k := by omega
    obtain rfl : dones = [] := hv.dones_eq_nil id
    have hlen : _ = started + subs.length + 0 := hv.length_toRoot
    have hstarted : started ≤ 2 := hv.started_le
    have hle : subs.length ≤ set.k := hv.length_subs_le
    have hall : subs.length = set.k := by
      simp only [RootPc.taken, RootPc.handled] at htaken
      omega
    exact allows_goto hv hm ⟨rfl, rfl, rfl, fun _ => rfl, rfl, rfl, rfl⟩ (fun _ _ => rfl)
      ⟨Nat.zero_le _, Nat.zero_le _⟩ fun _ => hall

/-- Phase 3: the loop over the sub arrays of a bucket, and that over the buckets. -/
theorem allows_gather (hadm : set.Admitted) (hv : g.Valid set) (hm : g.Matches set a)
    (hpc : g.root = .gather ki kj) :
    Permitted set a samplesort
      ((g.rootLocal set).phaseMove set set.K set.n set.testData (.gather ki kj)) := by
  obtain ⟨sp, started, root, bucket, subs, dones⟩ := g
  obtain rfl : root = .gather ki kj := hpc
  have hvalid := hv.root
  obtain ⟨hki, hkj⟩ := hvalid
  have hsubs : subs.length = set.k := hv.all_subs trivial
  simp only [RootLocal.phaseMove, hadm.lt_iff]
  split
  case isTrue hlt =>
    split
    case isTrue hlt' =>
      -- the sub arrays of every bucket are there
      have hread : (arrivedArr set subs set.k)[kj]? = some (some (subMsg set subs[kj])) := by
        rw [arrivedArr, List.getElem?_map, List.getElem?_range hlt', Option.map_some, if_pos hlt',
          List.getElem?_eq_getElem (by omega), Option.map_some]
      simp only [Progress.rootLocal, rootThis, RootPc.arrived, Option.elim_some, hread]
      exact allows_goto hv hm ⟨rfl, rfl, rfl, fun _ => rfl, rfl, rfl, rfl⟩ (fun _ _ => rfl)
        ⟨hki, hlt'⟩ fun _ => hsubs
    case isFalse hnot =>
      refine allows_sendTo (p := .gather (ki + 1) 0) hadm hv hm
        ⟨rfl, rfl, rfl, fun _ => rfl, rfl, rfl, rfl⟩ rfl hlt ?_ (sentTo_round ki 4)
        ⟨hlt, Nat.zero_le _⟩ id rfl
      simp [RootPc.sentTo, script]
  case isFalse hnot =>
    exact allows_goto hv hm ⟨rfl, rfl, rfl, fun _ => rfl, rfl, rfl, rfl⟩
      (fun _ hj => sentTo_over ki 4 hj hnot) (Nat.zero_le _) fun _ => hsubs

/-- The loop that waits for the buckets to be done. -/
theorem allows_waitDone (hadm : set.Admitted) (hv : g.Valid set) (hm : g.Matches set a)
    (hpc : g.root = .waitDone ki) :
    Permitted set a samplesort
      ((g.rootLocal set).phaseMove set set.K set.n set.testData (.waitDone ki)) := by
  obtain ⟨sp, started, root, bucket, subs, dones⟩ := g
  obtain rfl : root = .waitDone ki := hpc
  have hvalid := hv.root
  have hki : ki ≤ set.k := hvalid
  have hsubs : subs.length = set.k := hv.all_subs trivial
  simp only [RootLocal.phaseMove, hadm.lt_iff]
  split
  case isTrue hlt =>
    exact allows_goto hv hm ⟨rfl, rfl, rfl, fun _ => rfl, rfl, rfl, rfl⟩ (fun _ _ => rfl)
      ⟨hlt, trivial⟩ fun _ => hsubs
  case isFalse hnot =>
    obtain rfl : ki = set.k := by omega
    exact allows_goto hv hm ⟨rfl, rfl, rfl, fun _ => rfl, rfl, rfl, rfl⟩ (fun _ _ => rfl)
      trivial fun _ => hsubs

end Phases

/-- **The root between calls of `receive`**, in each phase. -/
theorem allows_rootPhase (hadm : set.Admitted) (hv : g.Valid set) (hm : g.Matches set a)
    (hpc : ∀ call point, g.root ≠ .receive call point) :
    Permitted set a samplesort (code set (.root (g.rootLocal set))) := by
  rw [code_rootPhase hpc]
  cases h : g.root with
  | receive call point => exact absurd h (hpc call point)
  | finished => trivial
  | sample => exact allows_sample hadm hv hm h
  | create i => exact allows_createLoop hadm hv hm h
  | topology i topoMsg => exact allows_topology hadm hv hm h
  | dataRef ki => exact allows_dataRef hadm hv hm h
  | splitters ki => exact allows_splitters hadm hv hm h
  | getSubArray ki => exact allows_getSubArray hadm hv hm h
  | waitSubArrays ki => exact allows_waitSubArrays hadm hv hm h
  | gather ki kj => exact allows_gather hadm hv hm h
  | waitDone ki => exact allows_waitDone hadm hv hm h

/-- **Moves of the root** -/
theorem allows_root (hadm : set.Admitted) (hv : g.Valid set) (hm : g.Matches set a) :
    Permitted set a samplesort (code set (.root (g.rootLocal set))) := by
  by_cases hreceive : ∃ call point, g.root = .receive call point
  · obtain ⟨call, point, hpc⟩ := hreceive
    exact allows_rootReceive hv hm hpc
  · apply allows_rootPhase hadm hv hm
    intro call point hpc
    exact hreceive ⟨call, point, hpc⟩

end TaskSystem.SampleSort
