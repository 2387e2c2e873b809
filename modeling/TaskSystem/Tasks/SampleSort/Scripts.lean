import TaskSystem.Tasks.SampleSort.Program

/-!
# What the Tasks of a Sample Sort Tell Each Other

The messages every bucket is sent, in order, and those the root is sent; what the tasks know
after having handled some of them; and that all of these messages are small.

## Contents

- `Setting.Admitted`: the settings the sort is meant for
- `script`, `stream`: the messages for a bucket, and for the root
- `bucketThis`, `rootThis`: the fields of a task after so many messages
- `handle_script`, `handle_expected`: a handler adds one message
- `Small`, `script_small`, `subMsg_small`: sizes
-/

namespace TaskSystem.SampleSort

open Library

/-- `1 ≤ K ≤ 98`, and an array of at least one value whose length is an `int`. -/
structure Setting.Admitted (set : Setting) : Prop where
  one_le : 1 ≤ set.K.toInt
  le_max : set.K.toInt ≤ 98
  nonempty : 1 ≤ set.data.length
  isInt : set.data.length ≤ 2147483647

namespace Setting

variable (set : Setting)

/-- The number of buckets. -/
def k : Nat := set.K.toInt.toNat

variable {set}

theorem Admitted.k_eq (h : set.Admitted) : (set.k : Int) = set.K.toInt := by
  have := h.one_le
  unfold k
  omega

theorem Admitted.one_le_k (h : set.Admitted) : 1 ≤ set.k := by
  have := h.k_eq
  have := h.one_le
  omega

theorem Admitted.k_le (h : set.Admitted) : set.k ≤ 98 := by
  have := h.k_eq
  have := h.le_max
  omega

/-- The loops over the buckets run `k` times. -/
theorem Admitted.lt_iff (h : set.Admitted) {i : Nat} : (i : Int) < set.K.toInt ↔ i < set.k := by
  have := h.k_eq
  omega

theorem Admitted.ofInt_k (h : set.Admitted) : Int32.ofInt set.k = set.K := by
  rw [h.k_eq, Int32.ofInt_toInt]

end Setting

/-! ## Messages for a bucket -/

/-- The task number of bucket `i`: tasks get their IDs in the order of their creation. -/
def bucketTask (i : Nat) : Nat := samplesort + 1 + i

/-- The ID of bucket `i` -/
def bucketId (i : Nat) : UInt32 := UInt32.ofNat (bucketTask i)

/-- `buckets`, once `n` of them have been created -/
def bucketIds (n : Nat) : List UInt32 := (List.range n).map bucketId

theorem bucketId_toNat {i : Nat} (hi : i < 98) : (bucketId i).toNat = bucketTask i := by
  unfold bucketId
  rw [UInt32.toNat_ofNat']
  unfold bucketTask samplesort
  omega

theorem bucketIds_succ (n : Nat) : bucketIds (n + 1) = bucketIds n ++ [bucketId n] := by
  simp [bucketIds, List.range_succ]

/-- `topo_msg` after `j` sends, each of which has made its `msg_size` larger. -/
def topoAt (set : Setting) : Nat → TopologyMsg
  | 0 => set.topoMsg (UInt32.ofNat samplesort) set.n set.K (bucketIds set.k)
  | j + 1 => (topoAt set j).afterWriteAt

/-- What bucket `i` is sent, in order, when the splitters are `sp`. -/
def script (set : Setting) (sp : List Int32) (i : Nat) : List AnyMsg :=
  [.topology (topoAt set i), set.dataMsg set.testData set.n set.K i, set.splittersMsg sp,
    set.getSubArraySignal, set.refToBucket set.K i]

/-- The tags of these. -/
def scriptTags : List Int32 :=
  [topologyMsgTag, dataRefMsgTag, splitterMsgTag, getSubArrayMsgTag, setSubArrayMsgTag]

theorem topoAt_fields (set : Setting) (j : Nat) :
    (topoAt set j).tag = topologyMsgTag ∧ (topoAt set j).tid = topologyMsgId ∧
      (topoAt set j).bucketCount = Int32.ofInt set.k ∧
      (topoAt set j).rootId = (UInt32.ofNat samplesort).toInt32 ∧
      (topoAt set j).bucketIds = bucketIds set.k := by
  induction j with
  | zero => simp [topoAt, Setting.topoMsg, TopologyMsg.setBucketIds, TopologyMsg.setRootId,
      TopologyMsg.create, bucketIds]
  | succ j ih => exact ih

theorem dataMsg_eq (set : Setting) (data : UInt64) (size K : Int32) (ki : Nat) :
    ∃ m : RefIntArrayMsg, set.dataMsg data size K ki = .refIntArray m ∧ m.tag = dataRefMsgTag ∧
      m.tid = refIntArrayMsgId ∧ m.msgSize = Int32.ofInt RefIntArrayMsg.sizeof := by
  refine ⟨_, rfl, ?_⟩
  split <;> exact ⟨rfl, rfl, rfl⟩

theorem script_tags (set : Setting) (sp : List Int32) (i : Nat) :
    (script set sp i).map AnyMsg.tag = scriptTags := by
  obtain ⟨m, hm, htag, -⟩ := dataMsg_eq set set.testData set.n set.K i
  simp only [script, List.map_cons, List.map_nil, hm, AnyMsg.tag, htag, (topoAt_fields set i).1]
  rfl

/-- The fields of bucket `i` after the first `r` messages. -/
def bucketThis (set : Setting) (sp : List Int32) (i r : Nat) : BucketTask :=
  ((script set sp i).take r).foldl (fun this msg => (this.handle msg.tag msg).getD this)
    (.create (bucketId i))

theorem bucketSwitch_handle : ∀ tag ∈ scriptTags, 0 ≤ tag ∧ bucketSwitch tag = .handle := by
  intro tag htag
  simp only [scriptTags, List.mem_cons, List.not_mem_nil, or_false] at htag
  rcases htag with rfl | rfl | rfl | rfl | rfl <;> exact ⟨by decide, rfl⟩

/-- **Handlers of a bucket**: each takes the message that comes in its turn. -/
theorem handle_script (set : Setting) (sp : List Int32) (i : Nat) {r : Nat} {msg : AnyMsg}
    (h : (script set sp i)[r]? = some msg) :
    (0 ≤ msg.tag ∧ bucketSwitch msg.tag = .handle) ∧
      (bucketThis set sp i r).handle msg.tag msg = some (bucketThis set sp i (r + 1)) := by
  have htag : msg.tag ∈ scriptTags := by
    rw [← script_tags set sp i]
    exact List.mem_map_of_mem (List.mem_of_getElem? h)
  refine ⟨bucketSwitch_handle _ htag, ?_⟩
  have hstep : bucketThis set sp i (r + 1) =
      ((bucketThis set sp i r).handle msg.tag msg).getD (bucketThis set sp i r) := by
    rw [bucketThis, List.take_add_one, h, List.foldl_append]
    rfl
  have hsome : ((bucketThis set sp i r).handle msg.tag msg).isSome := by
    obtain ⟨m, hm, hmtag, -⟩ := dataMsg_eq set set.testData set.n set.K i
    -- message by message of the script
    match r, h with
    | 0, h =>
      obtain rfl : .topology (topoAt set i) = msg := by simpa [script] using h
      simp [BucketTask.handle, AnyMsg.tag, (topoAt_fields set i).1]
    | 1, h =>
      obtain rfl : .refIntArray m = msg := by simpa [script, hm] using h
      simp [BucketTask.handle, AnyMsg.tag, hmtag]
    | 2, h =>
      obtain rfl : set.splittersMsg sp = msg := by simpa [script] using h
      rfl
    | 3, h =>
      obtain rfl : set.getSubArraySignal = msg := by simpa [script] using h
      rfl
    | 4, h =>
      obtain rfl : set.refToBucket set.K i = msg := by simpa [script] using h
      rfl
    | r + 5, h => simp [script] at h
  obtain ⟨this, hthis⟩ := Option.isSome_iff_exists.mp hsome
  rw [hstep, hthis, Option.getD_some]

/-- After four messages a bucket knows all that its two passes read. -/
theorem bucketThis_four (set : Setting) (sp : List Int32) (i : Nat) :
    (bucketThis set sp i 4).taskID = bucketId i ∧
      (bucketThis set sp i 4).bucketCount = some (Int32.ofInt set.k) ∧
      (bucketThis set sp i 4).rootId = some (UInt32.ofNat samplesort) ∧
      (bucketThis set sp i 4).dataRef.isSome ∧ (bucketThis set sp i 4).dataSize.isSome ∧
      (bucketThis set sp i 4).splitters = some sp ∧
      (bucketThis set sp i 4).splitterSize.isSome := by
  obtain ⟨m, hm, hmtag, -⟩ := dataMsg_eq set set.testData set.n set.K i
  obtain ⟨htag, -, hcount, hroot, -⟩ := topoAt_fields set i
  have hid : (UInt32.ofNat samplesort).toInt32.toUInt32 = UInt32.ofNat samplesort := by decide
  simp only [bucketThis, script, hm, List.take_succ_cons, List.take_zero, List.foldl_cons,
    List.foldl_nil, BucketTask.handle, AnyMsg.tag, htag, hmtag, if_true, Option.getD_some,
    Setting.splittersMsg, Setting.getSubArraySignal, IntArrayMsg.create, IntArrayMsg.setValues,
    DoneMsg.create, BucketTask.handleTopologyMsg, BucketTask.handleDataRefMsg,
    BucketTask.handleSplitterMsg, BucketTask.create, hcount, hroot, hid, Option.isSome_some,
    and_self]

theorem bucketThis_five (set : Setting) (sp : List Int32) (i : Nat) :
    (bucketThis set sp i 5).rootId = some (UInt32.ofNat samplesort) ∧
      (bucketThis set sp i 5).finalData.isSome := by
  -- the fifth message changes only the field for the final data
  have hlast : bucketThis set sp i 5 =
      ((bucketThis set sp i 4).handle setSubArrayMsgTag (set.refToBucket set.K i)).getD
        (bucketThis set sp i 4) := rfl
  rw [hlast]
  exact ⟨(bucketThis_four set sp i).2.2.1, rfl⟩

/-! ## Messages for the root -/

/-- What bucket `i` publishes. -/
def subMsg (set : Setting) (i : Nat) : RefTwoDimIntArrayMsg := set.refToRoot (bucketId i) set.K

/-- All that the root has been sent: the starter's first `n` messages, the sub arrays of the
    buckets `subs`, in their order of arrival, and the buckets `dones` being done. -/
def stream (set : Setting) (n : Nat) (subs dones : List Nat) : List AnyMsg :=
  [set.kMsg, set.testDataMsg].take n ++ subs.map (fun i => .refTwoDimIntArray (subMsg set i)) ++
    dones.map fun _ => set.outputDoneMsg

/-- The message meant for a call of `receive` in the root. -/
inductive Expected (set : Setting) (subs : List Nat) : RootCall → AnyMsg → Prop where
  | bar : Expected set subs .bar set.kMsg
  | refIntarray : Expected set subs .refIntarray set.testDataMsg
  | subArray {ki i : Nat} (h : subs[ki]? = some i) :
      Expected set subs (.subArray ki) (.refTwoDimIntArray (subMsg set i))
  | done {ki : Nat} : Expected set subs (.done ki) set.outputDoneMsg

/-- The array of sub arrays after the first `h` of them. -/
def arrivedArr (set : Setting) (subs : List Nat) (h : Nat) : List (Option RefTwoDimIntArrayMsg) :=
  (List.range set.k).map fun kj => if kj < h then subs[kj]?.map (subMsg set) else none

/-- The fields of the root, when it knows the number of buckets (`known ≥ 1`) and the data
    (`known ≥ 2`), and has been sent so many sub arrays since it allocated their array. -/
def rootThis (set : Setting) (subs : List Nat) (known : Nat) (arrived : Option Nat) :
    SampleSortTask where
  taskID := UInt32.ofNat samplesort
  data := if 2 ≤ known then some set.testData else none
  size := if 2 ≤ known then some set.n else none
  K := if 1 ≤ known then some set.K else none
  bucketsValuesArr := arrived.elim [] (arrivedArr set subs)
  bucketsValuesArrCount := arrived.getD 0

theorem length_arrivedArr (set : Setting) (subs : List Nat) (h : Nat) :
    (arrivedArr set subs h).length = set.k := by
  simp [arrivedArr]

/-- Sub arrays that arrive later do not change what has arrived. -/
theorem rootThis_append (set : Setting) (subs : List Nat) (i known : Nat) {arrived : Option Nat}
    (h : ∀ n, arrived = some n → n ≤ subs.length) :
    rootThis set (subs ++ [i]) known arrived = rootThis set subs known arrived := by
  cases arrived with
  | none => rfl
  | some n =>
    have hn := h n rfl
    simp only [rootThis, Option.elim_some, arrivedArr, SampleSortTask.mk.injEq, and_true, true_and]
    apply List.map_congr_left
    intro kj _
    split
    case isTrue hlt => rw [List.getElem?_append_left (by omega)]
    case isFalse => rfl

/-- `handle_SubArrayMsg` puts the sub array that arrives in its place. -/
theorem handle_subArray (set : Setting) {subs : List Nat} {ki i : Nat} (hki : ki < set.k)
    (h : subs[ki]? = some i) :
    (rootThis set subs 2 (some ki)).handle subArratMsgTag (.refTwoDimIntArray (subMsg set i)) =
      some (rootThis set subs 2 (some (ki + 1))) := by
  have hroom : ki < (arrivedArr set subs ki).length := by rwa [length_arrivedArr]
  -- the places below `ki` are filled, and `ki` is the next
  have hset : (arrivedArr set subs ki).set ki (some (subMsg set i)) =
      arrivedArr set subs (ki + 1) := by
    apply List.ext_getElem
    · simp [arrivedArr]
    · intro j h₁ h₂
      rw [List.getElem_set]
      simp only [arrivedArr, List.getElem_map, List.getElem_range]
      by_cases hj : ki = j
      · subst hj
        simp [h]
      · have hiff : j < ki + 1 ↔ j < ki := by omega
        simp only [hj, if_false, hiff]
  have htag : subArratMsgTag = subArratMsgTag ∧ ki < (arrivedArr set subs ki).length :=
    ⟨rfl, hroom⟩
  simp only [SampleSortTask.handle, SampleSortTask.handleSubArrayMsg, rootThis, Option.elim_some,
    Option.getD_some, htag, and_self, if_true, hset]

/-! ## Sizes -/

/-- `topo_msg` grows by the size of its array with every send. -/
theorem topoAt_msgSize {set : Setting} (h : set.Admitted) {j : Nat} (hj : j ≤ 98) :
    (topoAt set j).msgSize.toInt = 104 + 4 * ((set.k * (j + 1) : Nat) : Int) := by
  have hk := h.k_le
  induction j with
  | zero =>
    have hlen : (bucketIds set.k).length = set.k := by simp [bucketIds]
    simp only [topoAt, Setting.topoMsg, TopologyMsg.setBucketIds, hlen]
    rw [toInt_ofInt_of_fits] <;> simp only [TopologyMsg.sizeof, intMax] <;> omega
  | succ j ih =>
    have hcount : (Int32.ofInt set.k).toInt = set.k :=
      toInt_ofInt_of_fits (by omega) (by unfold intMax; omega)
    -- 98 buckets and 98 sends stay far below the range of `int`
    have hprod : set.k * (j + 1) ≤ 98 * 98 := Nat.mul_le_mul hk (by omega)
    have hnext : set.k * (j + 1 + 1) = set.k * (j + 1) + set.k := Nat.mul_succ _ _
    simp only [topoAt, TopologyMsg.afterWriteAt, ih (by omega), (topoAt_fields set j).2.2.1, hcount,
      hnext]
    rw [toInt_ofInt_of_fits]
    · omega
    · omega
    · unfold intMax
      omega

/-- A message with a small record. -/
structure Small (cap : Int) (msg : AnyMsg) : Prop where
  wellFormed : msg.WellFormed
  size_le : msg.msgSize.toInt ≤ cap

/-- Messages for buckets are small. -/
theorem script_small {set : Setting} (h : set.Admitted) {sp : List Int32} (hsp : sp.length = set.k)
    {i : Nat} (hi : i < set.k) : ∀ msg ∈ script set sp i, Small 40000 msg := by
  have hk := h.k_le
  intro msg hmsg
  simp only [script, List.mem_cons, List.not_mem_nil, or_false] at hmsg
  -- the topology, the data, the splitters, the signal and the reference
  rcases hmsg with rfl | rfl | rfl | rfl | rfl
  · have hsize := topoAt_msgSize h (show i ≤ 98 by omega)
    obtain ⟨-, htid, hcount, -, hids⟩ := topoAt_fields set i
    have hprod : set.k * (i + 1) ≤ 98 * 98 := Nat.mul_le_mul hk (by omega)
    have hone : set.k * 1 ≤ set.k * (i + 1) := Nat.mul_le_mul_left _ (by omega)
    have hlen : (bucketIds set.k).length = set.k := by simp [bucketIds]
    refine ⟨⟨htid, ?_, ?_⟩, ?_⟩
    · simp only [AnyMsg.PayloadMatches, hcount, hids, hlen]
      exact toInt_ofInt_of_fits (by omega) (by unfold intMax; omega)
    · simp only [AnyMsg.type, MsgType.sizeof, AnyMsg.payloadBytes, AnyMsg.msgSize, hsize, hids,
        hlen, TopologyMsg.sizeof]
      omega
    · simp only [AnyMsg.msgSize, hsize]
      omega
  · obtain ⟨m, hm, -, htid, hsize⟩ := dataMsg_eq set set.testData set.n set.K i
    rw [hm]
    have hbytes : (Int32.ofInt RefIntArrayMsg.sizeof).toInt = 88 := by decide
    refine ⟨⟨htid, trivial, ?_⟩, ?_⟩
    · simp only [AnyMsg.type, MsgType.sizeof, AnyMsg.payloadBytes, AnyMsg.msgSize, hsize, hbytes]
      decide
    · simp only [AnyMsg.msgSize, hsize, hbytes]
      omega
  · have hfits : IntArrayMsg.sizeof + sp.length * 4 ≤ intMax := by
      unfold IntArrayMsg.sizeof intMax
      omega
    refine ⟨setValues_wellFormed rfl hfits, ?_⟩
    have hsize := toInt_ofInt_of_fits (by unfold IntArrayMsg.sizeof; omega) hfits
    simp only [AnyMsg.msgSize, Setting.splittersMsg, IntArrayMsg.setValues, hsize]
    unfold IntArrayMsg.sizeof
    omega
  · exact ⟨(DoneMsg.Built.assign (.create ..) 1).wellFormed, by show (56 : Int) ≤ 40000; decide⟩
  · exact ⟨(RefTwoDimIntArrayMsg.Built.assign (.create ..) _ _ _).wellFormed,
      by show (72 : Int) ≤ 40000; decide⟩

/-- Messages for the root are small. -/
theorem kMsg_small (set : Setting) : Small 100 set.kMsg :=
  ⟨(BarMsg.Built.setValue (.create ..) _).wellFormed, by show (72 : Int) ≤ 100; decide⟩

theorem testDataMsg_small (set : Setting) : Small 100 set.testDataMsg :=
  ⟨(RefIntArrayMsg.Built.setValues (.create ..) _ _).wellFormed,
    by show (88 : Int) ≤ 100; decide⟩

theorem subMsg_small (set : Setting) (i : Nat) : Small 100 (.refTwoDimIntArray (subMsg set i)) :=
  ⟨(RefTwoDimIntArrayMsg.Built.assign (.create ..) _ _ _).wellFormed,
    by show (72 : Int) ≤ 100; decide⟩

theorem outputDoneMsg_small (set : Setting) : Small 100 set.outputDoneMsg :=
  ⟨(DoneMsg.Built.assign (.create ..) 1).wellFormed, by show (56 : Int) ≤ 100; decide⟩

end TaskSystem.SampleSort
