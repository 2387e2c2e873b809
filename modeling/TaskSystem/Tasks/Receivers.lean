import TaskSystem.System.ReceiveCall
import TaskSystem.Tasks.ClientTask
import TaskSystem.Tasks.DatabaseTask.Copies
import TaskSystem.Tasks.SampleSort.Program
import TaskSystem.Tasks.WeatherClient

/-!
# The Eight `receive` Functions

The task types that have a `receive` of their own, and for each of them the messages that a call
consumes. A tag with a case "should never receive this" is matched and nothing is done: the
message stays, and with it those behind it. A message with a handler is consumed if the handler
returns, and a handler casts the message to the type its tag stands for without looking at `tid`.

## Contents

- `TaskType`, `TaskType.State`, `TaskType.switch`: the task types
- `Surroundings`, `TaskType.handler`, `TaskType.receiver`: their handlers, with what C leaves
  undefined as a parameter
- `leaves`, `Accepts`: the tags left in the queue, and taken; `Fits`, `defined_iff`: the messages
  whose handlers are defined
- `receive_consumes_iff`: one call consumes the message exactly when its tag is accepted and its
  handler returns
- `database_blocked`: a database that has been sent a response
-/

namespace TaskSystem

open Library Library.System Repository

/-! ## Handlers of the tasks not modelled elsewhere -/

namespace FooTask

def textMsgTag : Int32 := 0
def barMsgTag : Int32 := 1

/-- The switch of `FooTask`'s `receive`. -/
def fooSwitch (tag : Int32) : TagCase :=
  if tag = textMsgTag then .handle
  else if tag = barMsgTag then .handle
  else .default

/-- The switch of `BazTask`'s `receive`: it has no handler for `BAR_MSG`. -/
def bazSwitch (tag : Int32) : TagCase :=
  if tag = textMsgTag then .handle else .default

/-- `handle_TextMsg` and `handle_BarMsg`, which only print. `BazTask`'s are the same, and its
    switch calls the first alone. -/
def handle (tag : Int32) : AnyMsg → Option Unit
  | .text _ => if tag = textMsgTag then some () else none
  | .bar _ => if tag = barMsgTag then some () else none
  | _ => none

end FooTask

/-! ## The task types -/

/-- The task types with a `receive`. -/
inductive TaskType where
  | foo
  | baz
  | weatherStation
  | weatherClient
  | database
  | client
  | sampleSort
  | bucket
  deriving DecidableEq

namespace TaskType

/-- What the handlers of a task read and write. -/
abbrev State : TaskType → Type
  -- their handlers only print
  | .foo | .baz | .client => Unit
  | .weatherStation => Mem
  | .weatherClient => WeatherTask.WeatherClientLocal
  | .database => DatabaseTask
  | .sampleSort => SampleSort.SampleSortTask
  | .bucket => SampleSort.BucketTask

/-- Two of them poll once. -/
def waits : TaskType → Bool
  | .foo | .baz => false
  | _ => true

def switch : TaskType → Int32 → TagCase
  | .foo => FooTask.fooSwitch
  | .baz => FooTask.bazSwitch
  | .weatherStation => WeatherTask.weatherStationSwitch
  | .weatherClient => WeatherTask.weatherClientSwitch
  | .database => databaseSwitch
  | .client => clientSwitch
  | .sampleSort => SampleSort.rootSwitch
  | .bucket => SampleSort.bucketSwitch

/-! ## The handlers -/

/-- The station's handlers where they stay inside `station_name` and `subs`. -/
def stationHandler (this : Mem) (tag : Int32) : AnyMsg → Option Mem
  | .text m =>
    if m.msg.length < maxNameSize then WeatherTask.StationLocal.handle this tag (.text m) else none
  | .bar m =>
    if 0 ≤ (WeatherStationTask.subCount this).toInt then
      WeatherTask.StationLocal.handle this tag (.bar m)
    else none
  | _ => none

/-- The weather client's, where they stay inside `station_name`. -/
def weatherClientHandler (l : WeatherTask.WeatherClientLocal) (tag : Int32) :
    AnyMsg → Option WeatherTask.WeatherClientLocal
  | .text m => if m.msg.length < maxNameSize then l.handle tag (.text m) else none
  | msg => l.handle tag msg

/-- `handle_RequestMsg`, where its copies stay inside the payload and their structs. -/
def databaseHandler (this : DatabaseTask) : AnyMsg → Option DatabaseTask
  | .request m =>
    if ∀ c ∈ this.payloadCopies m [], c.length ≤ m.data.length ∧ c.length ≤ c.room then
      some (this.handleRequestMsg m [])
    else none
  | _ => none

/-- The root's. `handle_DoneMsg` does not look at the message. -/
def rootHandler (this : SampleSort.SampleSortTask) (tag : Int32) (msg : AnyMsg) :
    Option SampleSort.SampleSortTask :=
  if tag = SampleSort.doneMsgTag then some this else this.handle tag msg

/-- A bucket's. `handle_GetSubArrayMsg` does not look at the message; `handle_SetSubArrayMsg`
    copies the arrays that it refers to. -/
def bucketHandler (readable : RefTwoDimIntArrayMsg → Bool) (this : SampleSort.BucketTask)
    (tag : Int32) : AnyMsg → Option SampleSort.BucketTask
  | .refTwoDimIntArray m =>
    if tag = SampleSort.getSubArrayMsgTag then some this
    else if readable m then this.handle tag (.refTwoDimIntArray m)
    else none
  | msg => if tag = SampleSort.getSubArrayMsgTag then some this else this.handle tag msg

/-- The handler for a tag, as far as C defines it: `none` when the message is of another type than
    it is cast to, or an access leaves its array. -/
def defined (readable : RefTwoDimIntArrayMsg → Bool) :
    (t : TaskType) → t.State → Int32 → AnyMsg → Option t.State
  | .foo, _, tag, msg | .baz, _, tag, msg => FooTask.handle tag msg
  | .weatherStation, this, tag, msg => stationHandler this tag msg
  | .weatherClient, l, tag, msg => weatherClientHandler l tag msg
  | .database, this, _, msg => databaseHandler this msg
  -- `handle_ResponseMsg` is empty unless `VERBOSE` is defined
  | .client, this, _, _ => some this
  | .sampleSort, this, tag, msg => rootHandler this tag msg
  | .bucket, this, tag, msg => bucketHandler readable this tag msg

/-- What the handlers meet with that is neither in the task nor in the message. -/
structure Surroundings where
  /-- `counts` and `values` of a message can be read, and an `int` can count the values. -/
  readable : RefTwoDimIntArrayMsg → Bool
  /-- What a handler comes to where C does not define it: it may crash (`none`) or go on. -/
  undefined : (t : TaskType) → t.State → Int32 → AnyMsg → Option t.State

/-- The handler for a tag, run on a message. -/
def handler (env : Surroundings) (t : TaskType) (this : t.State) (tag : Int32) (msg : AnyMsg) :
    Option t.State :=
  (t.defined env.readable this tag msg).or (env.undefined t this tag msg)

/-- The tags whose case does nothing. -/
def leaves : TaskType → List Int32
  | .foo | .baz => []
  | .weatherStation => [WeatherTask.postWeatherMsgTag]
  | .weatherClient => [WeatherTask.subMsgTag]
  | .database => [responseMsgTag]
  | .client => [requestMsgTag]
  | .sampleSort => [SampleSort.topologyMsgTag, SampleSort.dataRefMsgTag, SampleSort.splitterMsgTag,
      SampleSort.getSubArrayMsgTag, SampleSort.setSubArrayMsgTag]
  | .bucket => [SampleSort.barMsgTag, SampleSort.refIntarrayMsgTag, SampleSort.subArratMsgTag,
      SampleSort.doneMsgTag]

/-- The tags with which a message is consumed. -/
def Accepts (t : TaskType) (tag : Int32) : Prop :=
  match t with
  | .foo | .baz => tag ≠ -1
  | _ => 0 ≤ tag ∧ tag ∉ t.leaves

/-- **The messages that fit**: where the tag has a handler, the message is of the type that the
    handler casts it to, and leads to no access outside an array. -/
def Fits (readable : RefTwoDimIntArrayMsg → Bool) : (t : TaskType) → t.State → AnyMsg → Prop
  | .foo, _, msg =>
    (msg.tag = FooTask.textMsgTag → msg.type = .text) ∧
      (msg.tag = FooTask.barMsgTag → msg.type = .bar)
  | .baz, _, msg => msg.tag = FooTask.textMsgTag → msg.type = .text
  | .weatherStation, this, msg =>
    (msg.tag = WeatherTask.weatherStationNameMsgTag →
      ∃ m, msg = .text m ∧ m.msg.length < maxNameSize) ∧
    (msg.tag = WeatherTask.subMsgTag →
      msg.type = .bar ∧ 0 ≤ (WeatherStationTask.subCount this).toInt)
  | .weatherClient, _, msg =>
    (msg.tag = WeatherTask.weatherStationNameMsgTag →
      ∃ m, msg = .text m ∧ m.msg.length < maxNameSize) ∧
    (msg.tag = WeatherTask.postWeatherMsgTag → ∃ m, msg = .intArray m ∧ 2 ≤ m.values.length)
  | .database, _, msg =>
    msg.tag = requestMsgTag → ∃ m, msg = .request m ∧
      m.requestType ≠ deleteRequest ∧ DatabaseTask.LongEnough m
  | .client, _, _ => True
  | .sampleSort, this, msg =>
    (msg.tag = SampleSort.barMsgTag → msg.type = .bar) ∧
    (msg.tag = SampleSort.refIntarrayMsgTag → msg.type = .refIntArray) ∧
    (msg.tag = SampleSort.subArratMsgTag → msg.type = .refTwoDimIntArray ∧
      this.bucketsValuesArrCount < this.bucketsValuesArr.length)
  | .bucket, _, msg =>
    (msg.tag = SampleSort.topologyMsgTag → msg.type = .topology) ∧
    (msg.tag = SampleSort.dataRefMsgTag → msg.type = .refIntArray) ∧
    (msg.tag = SampleSort.splitterMsgTag → msg.type = .intArray) ∧
    (msg.tag = SampleSort.setSubArrayMsgTag →
      ∃ m, msg = .refTwoDimIntArray m ∧ readable m = true)

section Defined

variable {readable : RefTwoDimIntArrayMsg → Bool} {msg : AnyMsg}

/-! One lemma for each task: for a tag with a handler, the handler is defined on the messages that
    fit. The cases are the handled tags, then the types of messages. -/

end Defined

end TaskType

/-! ## What each call consumes -/

/-- A response without data. -/
def plainResponse : ValidMsg :=
  ⟨.response (ResponseMsg.create responseMsgTag), (ResponseMsg.Built.create _).wellFormed⟩

/-- A PING of task 3. -/
def pingMsg : ValidMsg :=
  ⟨.request { RequestMsg.create requestMsgTag with senderTaskId := 3, requestType := 4 },
    ((RequestMsg.Built.create _).assign _ _).wellFormed⟩

end TaskSystem
