import TaskSystem.System.TaskReceive
import TaskSystem.Tasks.BucketTask

/-!
# The Tasks of a Sample Sort

`start` and `receive` of `SampleSortTask.c` and `BucketTask.c` as programs, from the points at
which they use a queue, and the part of `test/samplesort_test.c` that starts them. What the
arrays contain is modelled in `SampleSortTask` and `BucketTask`; here the messages carry the
addresses of arrays, as they do in the source. A field that has not been set yet is `none`,
and reading it is a fault. `message_wait`, which yields the processor, and `message_notify`, in
which a task sleeps until it has a message, are left out: a task may be delayed at any point, and
the loop that wakes the sleepers (`System.WaitSignal`) is assumed to run and to wake each of them
that has a message.

## Contents

- `Setting`: the input of a sort, and where its arrays lie
- `BucketTask`, `bucketMove`: a bucket
- `SampleSortTask`, `rootMove`: the root
- `code`, `sortNetwork`: all tasks together; `received` records the messages a task handled
-/

namespace TaskSystem.SampleSort

open Library

/-! ## Tags -/

def barMsgTag : Int32 := 0
def refIntarrayMsgTag : Int32 := 1
def topologyMsgTag : Int32 := 2
def dataRefMsgTag : Int32 := 3
def splitterMsgTag : Int32 := 4
def getSubArrayMsgTag : Int32 := 5
def subArratMsgTag : Int32 := 6
def setSubArrayMsgTag : Int32 := 7
def doneMsgTag : Int32 := 8

/-- The input of a sort, what `random` and `qsort` do, what `malloc` returns for messages, and
    where the arrays lie that messages refer to. -/
structure Setting where
  /-- The number of buckets asked for -/
  K : Int32
  /-- The `n` values of `test_data` -/
  data : List Int32
  testData : UInt64
  qsort : Qsort Int32
  draws : List Draw
  newBar : BarMsg
  newRefIntArray : RefIntArrayMsg
  newTopology : TopologyMsg
  newIntArray : IntArrayMsg
  newDone : DoneMsg
  newRefTwoDimIntArray : RefTwoDimIntArrayMsg
  /-- `counts` and `values_to_propagate` of the bucket with the task ID -/
  bucketCounts : UInt32 → UInt64
  valuesToPropagate : UInt32 → UInt64
  /-- `counts` and `values` that the root allocates for bucket `ki` -/
  rootCounts : Nat → UInt64
  rootValues : Nat → UInt64

/-! ## Buckets -/

/-- `struct BucketTask` without its thread and its times. -/
structure BucketTask where
  taskID : UInt32
  bucketCount : Option Int32
  bucketIds : Option (List UInt32)
  rootId : Option UInt32
  dataRef : Option UInt64
  dataSize : Option Int32
  splitters : Option (List Int32)
  splitterSize : Option Int32
  /-- What `final_data_values` has been rebuilt from -/
  finalData : Option RefTwoDimIntArrayMsg

namespace BucketTask

/-- The task as `BucketTask_create` leaves it. -/
def create (taskID : UInt32) : BucketTask where
  taskID := taskID
  bucketCount := none
  bucketIds := none
  rootId := none
  dataRef := none
  dataSize := none
  splitters := none
  splitterSize := none
  finalData := none

def handleTopologyMsg (this : BucketTask) (topologyMsg : TopologyMsg) : BucketTask :=
  { this with
    bucketCount := some topologyMsg.bucketCount
    bucketIds := some topologyMsg.bucketIds
    rootId := some topologyMsg.rootId.toUInt32 }

def handleDataRefMsg (this : BucketTask) (refintarrayMsg : RefIntArrayMsg) : BucketTask :=
  { this with dataSize := some refintarrayMsg.size, dataRef := some refintarrayMsg.values }

def handleSplitterMsg (this : BucketTask) (intarrayMsg : IntArrayMsg) : BucketTask :=
  { this with splitterSize := some intarrayMsg.size, splitters := some intarrayMsg.values }

def handleSetSubArrayMsg (this : BucketTask) (reftwodimMsg : RefTwoDimIntArrayMsg) : BucketTask :=
  { this with finalData := some reftwodimMsg }

/-- The handler for the tag; `none` when the message is of another type than it is cast to. -/
def handle (this : BucketTask) (tag : Int32) : AnyMsg → Option BucketTask
  | .topology m => if tag = topologyMsgTag then some (this.handleTopologyMsg m) else none
  | .refIntArray m => if tag = dataRefMsgTag then some (this.handleDataRefMsg m) else none
  | .intArray m => if tag = splitterMsgTag then some (this.handleSplitterMsg m) else none
  -- `handle_GetSubArrayMsg` only prints
  | .done _ => if tag = getSubArrayMsgTag then some this else none
  | .refTwoDimIntArray m =>
    if tag = setSubArrayMsgTag then some (this.handleSetSubArrayMsg m) else none
  | _ => none

end BucketTask

/-- The switch of a bucket's `receive`. -/
def bucketSwitch (tag : Int32) : TagCase :=
  if tag ∈ [topologyMsgTag, dataRefMsgTag, splitterMsgTag, getSubArrayMsgTag, setSubArrayMsgTag]
  then .handle
  else if tag ∈ [barMsgTag, refIntarrayMsgTag, subArratMsgTag, doneMsgTag] then .ignore
  else .default

/-- Where a bucket stands in `start`. -/
inductive BucketPc where
  /-- Inside one of its five calls of `receive`, counted from 0 -/
  | receive (call : Nat) (point : ReceivePoint)
  /-- Before it computes its sub arrays and sends them to the root -/
  | propagate
  /-- Before it sends "done" to the root -/
  | sendDone
  /-- Before it returns from `start` -/
  | leave
  | returned
  deriving DecidableEq

/-- Where `start` goes on after a call of `receive`. -/
def BucketPc.after : Nat → BucketPc
  | 3 => .propagate
  | 4 => .sendDone
  | call => .receive (call + 1) .poll

structure BucketLocal where
  pc : BucketPc
  this : BucketTask
  received : List AnyMsg

/-! ## The root -/

/-- `struct SampleSortTask` without its thread. -/
structure SampleSortTask where
  taskID : UInt32
  data : Option UInt64
  size : Option Int32
  K : Option Int32
  /-- No cells before it is allocated -/
  bucketsValuesArr : List (Option RefTwoDimIntArrayMsg)
  bucketsValuesArrCount : Nat

namespace SampleSortTask

/-- The task as `SampleSortTask_create` leaves it. -/
def create (taskID : UInt32) : SampleSortTask where
  taskID := taskID
  data := none
  size := none
  K := none
  bucketsValuesArr := []
  bucketsValuesArrCount := 0

def handleBarMsg (this : SampleSortTask) (barMsg : BarMsg) : SampleSortTask :=
  { this with K := some barMsg.value }

def handleRefIntArrayMsg (this : SampleSortTask) (refIntArrayMsg : RefIntArrayMsg) :
    SampleSortTask :=
  { this with size := some refIntArrayMsg.size, data := some refIntArrayMsg.values }

def handleSubArrayMsg (this : SampleSortTask) (reftwodimMsg : RefTwoDimIntArrayMsg) :
    SampleSortTask :=
  { this with
    bucketsValuesArr := this.bucketsValuesArr.set this.bucketsValuesArrCount (some reftwodimMsg)
    bucketsValuesArrCount := this.bucketsValuesArrCount + 1 }

/-- The handler for the tag; `none` when the message is of another type than it is cast to, or
    is put outside the array. -/
def handle (this : SampleSortTask) (tag : Int32) : AnyMsg → Option SampleSortTask
  | .bar m => if tag = barMsgTag then some (this.handleBarMsg m) else none
  | .refIntArray m => if tag = refIntarrayMsgTag then some (this.handleRefIntArrayMsg m) else none
  | .refTwoDimIntArray m =>
    if tag = subArratMsgTag ∧ this.bucketsValuesArrCount < this.bucketsValuesArr.length then
      some (this.handleSubArrayMsg m)
    else none
  -- `handle_DoneMsg` only prints
  | .done _ => if tag = doneMsgTag then some this else none
  | _ => none

end SampleSortTask

/-- The switch of the root's `receive`. -/
def rootSwitch (tag : Int32) : TagCase :=
  if tag ∈ [barMsgTag, refIntarrayMsgTag, subArratMsgTag, doneMsgTag] then .handle
  else if tag ∈ [topologyMsgTag, dataRefMsgTag, splitterMsgTag, getSubArrayMsgTag,
    setSubArrayMsgTag] then .ignore
  else .default

/-- The root's calls of `receive`. -/
inductive RootCall where
  | bar
  | refIntarray
  /-- In the loop of phase 2 -/
  | subArray (ki : Nat)
  /-- In the loop of phase 3 -/
  | done (ki : Nat)
  deriving DecidableEq

/-- Where the root stands in `start`; at the head of a loop, with the loop's variable. -/
inductive RootPc where
  | receive (call : RootCall) (point : ReceivePoint)
  /-- Before it draws the samples and picks the splitters -/
  | sample
  | create (i : Nat)
  /-- `topo_msg` as the sends so far have left it -/
  | topology (i : Nat) (topoMsg : TopologyMsg)
  | dataRef (ki : Nat)
  | splitters (ki : Nat)
  | getSubArray (ki : Nat)
  | waitSubArrays (ki : Nat)
  /-- In the inner loop of phase 3, which reads the sub arrays for bucket `ki` -/
  | gather (ki kj : Nat)
  | waitDone (ki : Nat)
  | finished
  deriving DecidableEq

/-- Where `start` goes on after a call of `receive`. -/
def RootPc.after : RootCall → RootPc
  | .bar => .receive .refIntarray .poll
  | .refIntarray => .sample
  | .subArray ki => .waitSubArrays (ki + 1)
  | .done ki => .waitDone (ki + 1)

/-- The root's local state; `splitters` and `buckets` are local arrays of `start`. -/
structure RootLocal where
  pc : RootPc
  this : SampleSortTask
  splitters : List Int32
  buckets : List UInt32
  received : List AnyMsg

/-! ## Programs -/

/-- The local state of any of the tasks. -/
inductive Local where
  /-- `main`, after so many of its sends -/
  | starter (sent : Nat)
  | root (r : RootLocal)
  | bucket (b : BucketLocal)
  /-- A handler has been given a message it cannot handle. -/
  | crashed

/-- The root, if the task is it. -/
def Local.root? : Local → Option RootLocal
  | .root r => some r
  | _ => none

theorem Local.bind_root? {o : Option Local} {r : RootLocal} :
    o.bind Local.root? = some r ↔ o = some (.root r) := by
  rcases o with _ | (_ | _ | _ | _) <;> simp [root?]

/-- The bucket, if the task is one. -/
def Local.bucket? : Local → Option BucketLocal
  | .bucket b => some b
  | _ => none

theorem Local.bind_bucket? {o : Option Local} {b : BucketLocal} :
    o.bind Local.bucket? = some b ↔ o = some (.bucket b) := by
  rcases o with _ | (_ | _ | _ | _) <;> simp [bucket?]

namespace Setting

variable (set : Setting)

/-- `n` -/
def n : Int32 := Int32.ofNat set.data.length

/-- The array of `size` values at the address. -/
def arrayAt (address : UInt64) (size : Int32) : Option (List Int32) :=
  if address = set.testData ∧ size = set.n then some set.data else none

/-! The messages the tasks build. -/

/-- `k_msg` -/
def kMsg : AnyMsg := .bar ((BarMsg.create set.newBar barMsgTag).setValue set.K)

/-- `data_msg` of the starter -/
def testDataMsg : AnyMsg :=
  .refIntArray ((RefIntArrayMsg.create set.newRefIntArray refIntarrayMsgTag).setValues
    set.n set.testData)

/-- `size_per_task` -/
def sizePerTask (size K : Int32) : Int32 := Int32.ofInt (size.toInt.tdiv K.toInt)

/-- `topo_msg`, before it is sent -/
def topoMsg (taskID : UInt32) (size K : Int32) (buckets : List UInt32) : TopologyMsg :=
  { ((TopologyMsg.create set.newTopology topologyMsgTag).setRootId taskID).setBucketIds buckets with
    sampleSize := sizePerTask size K
    dataSize := size }

/-- `data_msg` of the root for bucket `ki` -/
def dataMsg (data : UInt64) (size K : Int32) (ki : Nat) : AnyMsg :=
  let current := ki * (sizePerTask size K).toInt
  let start := data + UInt64.ofNat (4 * current).toNat
  let newMsg := RefIntArrayMsg.create set.newRefIntArray dataRefMsgTag
  .refIntArray
    (if (ki : Int) < K.toInt - 1 then newMsg.setValues (sizePerTask size K) start
    else newMsg.setValues (Int32.ofInt (size.toInt - current)) start)

/-- `splitters_msg` -/
def splittersMsg (splitters : List Int32) : AnyMsg :=
  .intArray ((IntArrayMsg.create set.newIntArray splitterMsgTag).setValues splitters)

/-- `getSubArraySignal` -/
def getSubArraySignal : AnyMsg :=
  .done { DoneMsg.create set.newDone getSubArrayMsgTag with success := 1 }

/-- `ref_to_root` -/
def refToRoot (taskID : UInt32) (bucketCount : Int32) : RefTwoDimIntArrayMsg :=
  { RefTwoDimIntArrayMsg.create set.newRefTwoDimIntArray subArratMsgTag with
    size := bucketCount
    counts := set.bucketCounts taskID
    values := set.valuesToPropagate taskID }

/-- `ref_to_bucket` for bucket `ki` -/
def refToBucket (K : Int32) (ki : Nat) : AnyMsg :=
  .refTwoDimIntArray
    { RefTwoDimIntArrayMsg.create set.newRefTwoDimIntArray setSubArrayMsgTag with
      size := K
      counts := set.rootCounts ki
      values := set.rootValues ki }

/-- `output_done_msg` -/
def outputDoneMsg : AnyMsg := .done { DoneMsg.create set.newDone doneMsgTag with success := 1 }

/-- The splitters the root picks from the data; none while it is still drawing samples. -/
def pickedSplitters (data : List Int32) (K : Int32) : Option (List Int32) :=
  (gatherSamples data sampleSize set.draws).bind fun samples =>
    pickSplitters (set.qsort.sort samplesorttaskCmpfunc samples) K.toInt.toNat

end Setting

/-- A bucket that starts. -/
def BucketLocal.start (taskID : Nat) : BucketLocal where
  pc := .receive 0 .poll
  this := .create (UInt32.ofNat taskID)
  received := []

namespace BucketLocal

def goto (b : BucketLocal) (pc : BucketPc) : Local := .bucket { b with pc := pc }

/-- After the handler for the tag has run on the message. -/
def handled (b : BucketLocal) (call : Nat) (tag : Int32) (msg : AnyMsg) : Local :=
  match b.this.handle tag msg with
  | some this => .bucket { pc := .after call, this, received := b.received ++ [msg] }
  | none => .crashed

end BucketLocal

/-- The next move of a bucket. -/
def bucketMove (set : Setting) (b : BucketLocal) : Move AnyMsg Int32 Local :=
  match b.pc with
  | .receive call point =>
    receiveMove bucketSwitch (fun point => b.goto (.receive call point)) (b.handled call)
      (b.goto (.after call)) point
  | .propagate =>
    -- the two passes read all of these
    match b.this.bucketCount, b.this.dataRef, b.this.dataSize, b.this.splitters,
      b.this.splitterSize, b.this.rootId with
    | some bucketCount, some _, some _, some _, some _, some rootId =>
      .send rootId.toNat (.refTwoDimIntArray (set.refToRoot b.this.taskID bucketCount)) fun _ =>
        b.goto (.receive 4 .poll)
    | _, _, _, _, _, _ => .fault
  | .sendDone =>
    -- `qsort` has read the final data
    match b.this.finalData, b.this.rootId with
    | some _, some rootId =>
      .send rootId.toNat set.outputDoneMsg fun _ => b.goto .leave
    | _, _ => .fault
  | .leave => .compute (b.goto .returned)
  | .returned => .stop

namespace RootLocal

/-- The root that starts. -/
def start (taskID : UInt32) : RootLocal where
  pc := .receive .bar .poll
  this := .create taskID
  splitters := []
  buckets := []
  received := []

def goto (r : RootLocal) (pc : RootPc) : Local := .root { r with pc := pc }

/-- After the handler for the tag has run on the message. -/
def handled (r : RootLocal) (call : RootCall) (tag : Int32) (msg : AnyMsg) : Local :=
  match r.this.handle tag msg with
  | some this => .root { r with pc := .after call, this, received := r.received ++ [msg] }
  | none => .crashed

/-- `send(this, msg, buckets[i])` -/
def sendTo (r : RootLocal) (i : Nat) (msg : AnyMsg) (next : Bool → Local) :
    Move AnyMsg Int32 Local :=
  match r.buckets[i]? with
  | some bucket => .send bucket.toNat msg next
  | none => .fault

/-- The next move of the root after it has got its data. -/
def phaseMove (set : Setting) (r : RootLocal) (K size : Int32) (data : UInt64) :
    RootPc → Move AnyMsg Int32 Local
  | .receive _ _ => .fault
  | .finished => .stop
  | .sample =>
    -- neither a division by 0 nor an array of negative length
    if K ≤ 0 then .fault
    else
      match set.arrayAt data size with
      | none => .fault
      | some values =>
        match set.pickedSplitters values K with
        | some splitters => .compute (.root { r with pc := .create 0, splitters })
        | none => .compute (r.goto .sample)
  | .create i =>
    if (i : Int) < K.toInt then
      .create (fun id => .bucket (.start id)) fun id =>
        .root { r with pc := .create (i + 1), buckets := r.buckets ++ [UInt32.ofNat id] }
    else .compute (r.goto (.topology 0 (set.topoMsg r.this.taskID size K r.buckets)))
  | .topology i topoMsg =>
    if (i : Int) < K.toInt then
      r.sendTo i (.topology topoMsg) fun sent =>
        r.goto (.topology (i + 1) (if sent then topoMsg.afterWriteAt else topoMsg))
    else .compute (r.goto (.dataRef 0))
  | .dataRef ki =>
    if (ki : Int) < K.toInt then
      r.sendTo ki (set.dataMsg data size K ki) fun _ => r.goto (.dataRef (ki + 1))
    else .compute (r.goto (.splitters 0))
  | .splitters ki =>
    if (ki : Int) < K.toInt then
      r.sendTo ki (set.splittersMsg r.splitters) fun _ => r.goto (.splitters (ki + 1))
    else
      .compute (.root { r with
        pc := .getSubArray 0
        this :=
          { r.this with
            bucketsValuesArr := List.replicate K.toInt.toNat none
            bucketsValuesArrCount := 0 } })
  | .getSubArray ki =>
    if (ki : Int) < K.toInt then
      r.sendTo ki set.getSubArraySignal fun _ => r.goto (.getSubArray (ki + 1))
    else .compute (r.goto (.waitSubArrays 0))
  | .waitSubArrays ki =>
    if (ki : Int) < K.toInt then .compute (r.goto (.receive (.subArray ki) .poll))
    else .compute (r.goto (.gather 0 0))
  | .gather ki kj =>
    if (ki : Int) < K.toInt then
      if (kj : Int) < K.toInt then
        match r.this.bucketsValuesArr[kj]? with
        | some (some _) => .compute (r.goto (.gather ki (kj + 1)))
        | _ => .fault
      else r.sendTo ki (set.refToBucket K ki) fun _ => r.goto (.gather (ki + 1) 0)
    else .compute (r.goto (.waitDone 0))
  | .waitDone ki =>
    if (ki : Int) < K.toInt then .compute (r.goto (.receive (.done ki) .poll))
    else .compute (r.goto .finished)

end RootLocal

/-- The next move of the root. -/
def rootMove (set : Setting) (r : RootLocal) : Move AnyMsg Int32 Local :=
  match r.pc with
  | .receive call point =>
    receiveMove rootSwitch (fun point => r.goto (.receive call point)) (r.handled call)
      (r.goto (.after call)) point
  | pc =>
    match r.this.K, r.this.size, r.this.data with
    | some K, some size, some data => r.phaseMove set K size data pc
    | _, _, _ => .fault

/-- The ID of the root, the first that is given out -/
def samplesort : Nat := 1

/-- The next move of a task. -/
def code (set : Setting) : Local → Move AnyMsg Int32 Local
  | .starter 0 => .send samplesort set.kMsg fun _ => .starter 1
  | .starter 1 => .send samplesort set.testDataMsg fun _ => .starter 2
  | .starter _ => .stop
  | .root r => rootMove set r
  | .bucket b => bucketMove set b
  | .crashed => .fault

/-- The starter, which has no task ID (it stands at 0), and the root it has created. -/
def initialTasks (t : Nat) : Option Local :=
  if t = 0 then some (.starter 0)
  else if t = samplesort then some (.root (.start (UInt32.ofNat samplesort)))
  else none

/-- A sample sort over the queues of its tasks. -/
def sortNetwork (set : Setting) (map : Mapping) : System (Net Local Mailbox) Nat :=
  network (mailboxes map) (code set) initialTasks (samplesort + 1)

end TaskSystem.SampleSort
