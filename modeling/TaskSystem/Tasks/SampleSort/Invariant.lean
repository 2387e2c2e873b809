import TaskSystem.Tasks.SampleSort.Phases

/-!
# A Sample Sort in Phase

What the tasks may rely on in a state that their progress determines, and that the sends of
the starter lead to such a state again.

## Contents

- `Progress.Valid.expected`: the root's next message is the one its call is meant for
- `InPhase`: the invariant
- `root_roomy`, `rootLog_append`, ...: one message more for the root
- `allows_starter`: the starter's moves keep the invariant
-/

namespace TaskSystem.SampleSort

open Library

variable {set : Setting} {g g' : Progress} {a : Net Local (Log AnyMsg)}

/-! ## Consequences of the invariant -/

theorem RootPc.handled_le_taken (k : Nat) (pc : RootPc) : pc.handled k ≤ pc.taken k := by
  cases pc with
  | receive call point => exact Nat.le_add_right _ _
  | _ => exact Nat.le_refl _

theorem RootPc.sentTo_le {pc : RootPc} (h : ¬pc.AllArrived) (i : Nat) : pc.sentTo i ≤ 4 := by
  cases pc with
  | receive call point =>
    -- the fifth message is sent in phase 3, when all sub arrays have arrived
    cases call with
    | done ki => exact absurd trivial h
    | _ => simp [sentTo]
  | gather | waitDone | finished => exact absurd trivial h
  | _ => simp only [sentTo]; first | omega | (split <;> omega)

/-- Behind phase 2 the root has handled a message of each bucket. -/
theorem RootPc.le_handled {k : Nat} {pc : RootPc} (h : pc.AllArrived) : 2 + k ≤ pc.handled k := by
  cases pc with
  | receive call point =>
    cases call with
    | done ki => exact Nat.le_add_right _ _
    | _ => exact h.elim
  | gather | waitDone | finished =>
    simp only [handled]
    omega
  | _ => exact h.elim

theorem RootPc.created_eq_zero {k : Nat} {pc : RootPc} (h : pc.taken k < 2) :
    pc.created k = 0 ∧ ¬pc.AllArrived ∧ pc.arrived k = none := by
  cases pc with
  | receive call point =>
    -- the root creates buckets only after its first two messages
    cases call with
    | bar | refIntarray => exact ⟨rfl, id, rfl⟩
    | subArray ki | done ki =>
      simp only [taken, RootCall.number] at h
      omega
  | _ => simp only [taken, handled] at h; omega

/-! Where the messages stand among those for the root. -/

theorem stream_nil (set : Setting) (n : Nat) :
    stream set n [] [] = [set.kMsg, set.testDataMsg].take n := by
  simp [stream]

theorem stream_sub (set : Setting) (subs : List Nat) (ki : Nat) :
    (stream set 2 subs [])[2 + ki]? =
      subs[ki]?.map fun i => .refTwoDimIntArray (subMsg set i) := by
  rw [Nat.add_comm]
  simp [stream]

theorem stream_done (set : Setting) (subs dones : List Nat) (ki : Nat) :
    (stream set 2 subs dones)[2 + subs.length + ki]? =
      dones[ki]?.map fun _ => set.outputDoneMsg := by
  have hfront : ([set.kMsg, set.testDataMsg].take 2 ++
      subs.map fun i => AnyMsg.refTwoDimIntArray (subMsg set i)).length = 2 + subs.length := by
    simp
    omega
  rw [stream, List.getElem?_append_right (by omega), hfront, Nat.add_sub_cancel_left,
    List.getElem?_map]

namespace Progress.Valid

theorem created_le (h : g.Valid set) : g.root.created set.k ≤ set.k := by
  have hroot := h.root
  cases hpc : g.root with
  | receive call point => cases call <;> simp [RootPc.created]
  | create i =>
    rw [hpc] at hroot
    exact hroot
  | sample => exact Nat.zero_le _
  | _ => exact Nat.le_refl _

theorem subs_lt (h : g.Valid set) : ∀ i ∈ g.subs, i < set.k := by
  intro i hi
  have hcreated := ((h.mem_subs i).mp hi).1
  have hle := h.created_le
  omega

theorem dones_lt (h : g.Valid set) : ∀ i ∈ g.dones, i < set.k := by
  intro i hi
  have hcreated := ((h.mem_dones i).mp hi).1
  have hle := h.created_le
  omega

theorem length_subs_le (h : g.Valid set) : g.subs.length ≤ set.k :=
  length_le_of_nodup h.subs_nodup h.subs_lt

theorem length_dones_le (h : g.Valid set) : g.dones.length ≤ set.k :=
  length_le_of_nodup h.dones_nodup h.dones_lt

/-- Before there are buckets, none has published anything. -/
theorem subs_eq_nil (h : g.Valid set) (hzero : g.root.created set.k = 0) : g.subs = [] := by
  apply List.eq_nil_iff_forall_not_mem.mpr
  intro i hi
  have hcreated := ((h.mem_subs i).mp hi).1
  omega

/-- Before all sub arrays have arrived, no bucket is done: it has not even been sent what it
    needs for that. -/
theorem dones_eq_nil (h : g.Valid set) (hnot : ¬g.root.AllArrived) : g.dones = [] := by
  apply List.eq_nil_iff_forall_not_mem.mpr
  intro i hi
  obtain ⟨hcreated, hdone⟩ := (h.mem_dones i).mp hi
  have hsent := h.bucket i hcreated
  have hle := RootPc.sentTo_le hnot i
  cases hpc : g.bucket i with
  | leave | returned =>
    rw [hpc] at hsent
    have hfive : 5 ≤ g.root.sentTo i := hsent
    omega
  | _ =>
    rw [hpc] at hdone
    exact hdone

theorem length_toRoot (h : g.Valid set) :
    (g.toRoot set).length = g.started + g.subs.length + g.dones.length := by
  have hle := h.started_le
  simp [toRoot, stream, List.length_take]
  omega

theorem length_toRoot_le (h : g.Valid set) : (g.toRoot set).length ≤ 2 + set.k + set.k := by
  have h₁ := h.length_toRoot
  have h₂ := h.started_le
  have h₃ := h.length_subs_le
  have h₄ := h.length_dones_le
  omega

/-- What has arrived at the root has been sent. -/
theorem arrived_le (h : g.Valid set) :
    ∀ n, g.root.arrived set.k = some n → n ≤ g.subs.length := by
  intro n hn
  -- behind phase 2 all have arrived; within it the root has taken a message for each
  by_cases hall : g.root.AllArrived
  · have hlen := h.all_subs hall
    cases hpc : g.root with
    | receive call point =>
      rw [hpc] at hn hall
      cases call with
      | done ki =>
        obtain rfl : set.k = n := Option.some.inj hn
        exact Nat.le_of_eq hlen.symm
      | _ => exact hall.elim
    | gather | waitDone | finished =>
      rw [hpc] at hn
      obtain rfl : set.k = n := Option.some.inj hn
      exact Nat.le_of_eq hlen.symm
    | _ =>
      rw [hpc] at hall
      exact hall.elim
  · have htaken := h.taken_le
    rw [h.length_toRoot, h.dones_eq_nil hall, List.length_nil] at htaken
    have hstarted := h.started_le
    cases hpc : g.root with
    | receive call point =>
      rw [hpc] at hn htaken hall
      cases call with
      | subArray ki =>
        obtain rfl : ki = n := Option.some.inj hn
        simp only [RootPc.taken, RootCall.number] at htaken
        omega
      | done ki => exact absurd trivial hall
      | _ => cases hn
    | getSubArray i =>
      rw [hpc] at hn
      obtain rfl : 0 = n := Option.some.inj hn
      exact Nat.zero_le _
    | waitSubArrays ki =>
      rw [hpc] at hn htaken
      obtain rfl : ki = n := Option.some.inj hn
      simp only [RootPc.taken, RootPc.handled] at htaken
      omega
    | gather | waitDone | finished =>
      rw [hpc] at hall
      exact absurd trivial hall
    | _ =>
      rw [hpc] at hn
      cases hn

/-- **The root's next message** is the one that its call of `receive` is meant for. -/
theorem expected (h : g.Valid set) {call : RootCall} {point : ReceivePoint}
    (hpc : g.root = .receive call point) {msg : AnyMsg}
    (hmsg : (g.toRoot set)[call.number set.k]? = some msg) : Expected set g.subs call msg := by
  have hvalid := h.root
  rw [hpc] at hvalid
  have hcall : call.Valid set.k := hvalid.1
  cases call with
  -- no bucket has sent anything yet
  | bar | refIntarray =>
    have hsubs := h.subs_eq_nil (by rw [hpc]; rfl)
    have hdones := h.dones_eq_nil (by rw [hpc]; exact id)
    rw [toRoot, hsubs, hdones, stream_nil, List.getElem?_take] at hmsg
    split at hmsg
    case isFalse => cases hmsg
    case isTrue =>
      obtain rfl := Option.some.inj hmsg
      constructor
  -- no bucket is done yet, so behind the starter's messages stand sub arrays only
  | subArray ki =>
    have htwo := h.started (by rw [hpc]; simp [RootPc.taken, RootCall.number]; omega)
    have hdones := h.dones_eq_nil (by rw [hpc]; exact id)
    rw [toRoot, htwo, hdones, RootCall.number, stream_sub] at hmsg
    obtain ⟨i, hi, rfl⟩ := Option.map_eq_some_iff.mp hmsg
    exact .subArray hi
  -- all sub arrays are there, so what follows them are reports
  | done ki =>
    have htwo := h.started (by rw [hpc]; simp [RootPc.taken, RootCall.number]; omega)
    have hlen := h.all_subs (by rw [hpc]; trivial)
    rw [toRoot, htwo, RootCall.number, ← hlen, stream_done] at hmsg
    obtain ⟨-, -, rfl⟩ := Option.map_eq_some_iff.mp hmsg
    exact .done

end Progress.Valid

/-- **Handlers of the root**: each takes the message its call is meant for. -/
theorem handle_expected {subs : List Nat} {call : RootCall} {msg : AnyMsg}
    (hcall : call.Valid set.k) (h : Expected set subs call msg) (point : ReceivePoint) :
    (0 ≤ msg.tag ∧ rootSwitch msg.tag = .handle) ∧
      (rootThis set subs (RootPc.receive call point).known
        ((RootPc.receive call point).arrived set.k)).handle msg.tag msg =
      some (rootThis set subs (RootPc.after call).known ((RootPc.after call).arrived set.k)) := by
  have hbar : 0 ≤ barMsgTag ∧ rootSwitch barMsgTag = .handle := ⟨by decide, rfl⟩
  have href : 0 ≤ refIntarrayMsgTag ∧ rootSwitch refIntarrayMsgTag = .handle := ⟨by decide, rfl⟩
  have hsub : 0 ≤ subArratMsgTag ∧ rootSwitch subArratMsgTag = .handle := ⟨by decide, rfl⟩
  have hdone : 0 ≤ doneMsgTag ∧ rootSwitch doneMsgTag = .handle := ⟨by decide, rfl⟩
  cases h with
  | bar => exact ⟨hbar, rfl⟩
  | refIntarray => exact ⟨href, rfl⟩
  | subArray hi => exact ⟨hsub, handle_subArray set hcall hi⟩
  | done => exact ⟨hdone, rfl⟩

/-! ## The invariant -/

/-- The largest record in the queue of a task. -/
def recordCap (t : Nat) : Int := if t = samplesort then 100 else 40000

/-- The tasks and queues are where some valid progress puts them. -/
def InPhase (set : Setting) (a : Net Local (Log AnyMsg)) : Prop :=
  ∃ g : Progress, g.Valid set ∧ g.Matches set a

/-- What has to be shown of a move. -/
abbrev Permitted (set : Setting) (a : Net Local (Log AnyMsg)) (t : Nat)
    (mv : Move AnyMsg Int32 Local) : Prop :=
  Allows tagOf (fun t q msg => Roomy (recordCap t) q msg) (InPhase set) a t mv

theorem start_valid (set : Setting) : (Progress.start set).Valid set where
  length_sp := List.length_replicate
  started_le := Nat.zero_le _
  root := ⟨trivial, trivial⟩
  taken_le := Nat.zero_le _
  started h := by
    have hzero : 2 ≤ 0 := h
    omega
  bucket i hi := absurd hi (Nat.not_lt_zero i)
  subs_nodup := List.nodup_nil
  dones_nodup := List.nodup_nil
  mem_subs i := by
    simp only [Progress.start, List.not_mem_nil, RootPc.created, Nat.not_lt_zero, false_and]
  mem_dones i := by
    simp only [Progress.start, List.not_mem_nil, RootPc.created, Nat.not_lt_zero, false_and]
  all_subs h := h.elim

theorem start_matches (set : Setting) :
    (Progress.start set).Matches set (.start (Log.medium tagOf) initialTasks (samplesort + 1)) where
  nextId := rfl
  starterTask := rfl
  rootTask := rfl
  bucketTasks i hi := absurd hi (Nat.not_lt_zero i)
  noTasks i _ := by simp [Net.start, initialTasks]
  rootChannel := rfl
  bucketChannels i hi := absurd hi (Nat.not_lt_zero i)

/-! ## Messages for the root -/

section Append

variable {msg : AnyMsg}

/-- The root has room for one message more. -/
theorem root_roomy (h : g.Valid set) (hadm : set.Admitted) (hsmall : Small 100 msg) :
    Roomy (recordCap samplesort) (g.rootLog set) msg := by
  have hlen := h.length_toRoot_le
  have hk := hadm.k_le
  refine ⟨hsmall.wellFormed, hsmall.size_le, ?_⟩
  simp only [Progress.rootLog, recordCap, if_true, queueSize, sizeofQueue]
  omega

/-- A message more does not change what the root has taken. -/
theorem rootLog_append (h : g.Valid set) (hroot : g'.root = g.root)
    (hmsgs : g'.toRoot set = g.toRoot set ++ [msg]) :
    g'.rootLog set =
      { g.rootLog set with accepted := (g.rootLog set).accepted ++ [msg] } := by
  have hvalid := h.root
  simp only [Progress.rootLog, hroot, hmsgs, Log.mk.injEq, true_and]
  cases hpc : g.root with
  | receive call point =>
    rw [hpc] at hvalid
    exact hvalid.2.hand_append _
  | _ => rfl

/-- Nor what it knows. -/
theorem rootLocal_append (h : g.Valid set) (hroot : g'.root = g.root) (hsp : g'.sp = g.sp)
    (hmsgs : g'.toRoot set = g.toRoot set ++ [msg])
    (hthis : rootThis set g'.subs g.root.known (g.root.arrived set.k) =
      rootThis set g.subs g.root.known (g.root.arrived set.k)) :
    g'.rootLocal set = g.rootLocal set := by
  have hle := Nat.le_trans (g.root.handled_le_taken set.k) h.taken_le
  simp only [Progress.rootLocal, hroot, hsp, hmsgs, hthis, List.take_append_of_le_length hle]

/-- Nor what it is waiting for. -/
theorem rootValid_append (h : g.Valid set) (hroot : g'.root = g.root)
    (hmsgs : g'.toRoot set = g.toRoot set ++ [msg]) : g'.root.Valid set (g'.toRoot set) := by
  have hvalid := h.root
  rw [hroot, hmsgs]
  cases hpc : g.root with
  | receive call point =>
    rw [hpc] at hvalid
    exact ⟨hvalid.1, hvalid.2.append _⟩
  | _ =>
    rw [hpc] at hvalid
    exact hvalid

end Append

/-! ## The starter -/

/-- **The starter** sends the number of buckets and then the data, before there are buckets. -/
theorem allows_starter (hadm : set.Admitted) (hv : g.Valid set) (hm : g.Matches set a) :
    Permitted set a 0 (code set (.starter g.started)) := by
  have hsend : ∀ msg, [set.kMsg, set.testDataMsg][g.started]? = some msg → Small 100 msg →
      Permitted set a 0 (.send samplesort msg fun _ => .starter (g.started + 1)) := by
    intro msg hmsg hsmall
    have hlt : g.started < 2 := (List.getElem?_eq_some_iff.mp hmsg).1
    -- the root has not taken more than the starter has sent
    have htaken : g.root.taken set.k < 2 := by
      have hstarted := hv.started
      omega
    obtain ⟨hzero, hnot, -⟩ := RootPc.created_eq_zero htaken
    have hsubs := hv.subs_eq_nil hzero
    have hdones := hv.dones_eq_nil hnot
    let g' : Progress := { g with started := g.started + 1 }
    have hmsgs : g'.toRoot set = g.toRoot set ++ [msg] := by
      simp only [g', Progress.toRoot, hsubs, hdones, stream_nil]
      rw [List.take_add_one, hmsg]
      rfl
    have hlen : (g'.toRoot set).length = (g.toRoot set).length + 1 := by simp [hmsgs]
    refine ⟨g.rootLog set, hm.rootChannel, root_roomy hv hadm hsmall, g', ?_, ?_⟩
    · exact {
        length_sp := hv.length_sp
        started_le := hlt
        root := rootValid_append hv rfl hmsgs
        taken_le := by
          rw [hlen]
          exact Nat.le_succ_of_le hv.taken_le
        started := fun h => absurd (show 2 ≤ g.root.taken set.k from h) (by omega)
        bucket := hv.bucket
        subs_nodup := hv.subs_nodup
        dones_nodup := hv.dones_nodup
        mem_subs := hv.mem_subs
        mem_dones := hv.mem_dones
        all_subs := hv.all_subs }
    · have hlog : g'.rootLog set = _ := rootLog_append hv rfl hmsgs
      rw [← hlog]
      exact hm.starter (rootLocal_append hv rfl rfl hmsgs rfl) fun i => ⟨rfl, rfl⟩
  match hstarted : g.started with
  | 0 =>
    rw [hstarted] at hsend
    exact hsend _ rfl (kMsg_small set)
  | 1 =>
    rw [hstarted] at hsend
    exact hsend _ rfl (testDataMsg_small set)
  | n + 2 => trivial

end TaskSystem.SampleSort
