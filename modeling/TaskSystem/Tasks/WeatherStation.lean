import Mathlib.Data.List.Chain
import TaskSystem.System.StationReceive
import TaskSystem.Tasks.SendTargets

/-!
# Subscriptions and Broadcasts

`start` of the weather station, with its queue, in which any processes put messages in any
order. Once in 10000000 rounds of its loop it posts the weather to its subscribers, and in every
round it handles at most one message, which may be a subscription.

## Contents

- `StationPc`, `StationLocal`, `weatherMove`: the program; `weatherStation`: the system
- `Proper`: messages of the types their tags stand for
- `subscriptions`, `Published`: what has been posted, to whom
- `Posting`: what holds at each point of `start`; `Posting.step`
- `Idles`, `Idles.broadcast`: a station that gets no messages comes to its broadcast
- `weather_published`: all runs
- `weather_goesOn`: a station is never stuck
-/

namespace TaskSystem

open Library Library.System Repository

namespace WeatherTask

/-! ## The program -/

/-- Where the station stands in `start`. -/
inductive StationPc where
  /-- In its first call of `receive`, or in one in the loop -/
  | receive (first : Bool) (point : ReceivePoint)
  | setName
  /-- Before `close_order` is tested -/
  | loop
  /-- Before `message_immediate` -/
  | immediate
  /-- Before `loop_count++` -/
  | count
  /-- Before subscriber `i` is sent the weather -/
  | broadcast (i : Nat)
  | finished
  deriving DecidableEq

/-- The station's local state. -/
structure StationLocal where
  pc : StationPc
  this : Mem
  loopCount : Int64
  /-- The name it has registered -/
  registered : Option (List UInt8)
  /-- How often `loop_count` has been counted up -/
  ticks : Nat
  /-- The messages handled so far -/
  received : List AnyMsg
  /-- How many these were when each broadcast began -/
  rounds : List Nat
  /-- The tasks sent to so far, each with the values posted -/
  posted : List (Int32 × List Int32)

namespace StationLocal

def goto (l : StationLocal) (pc : StationPc) : Option StationLocal := some { l with pc := pc }

/-- A station that starts. -/
def start (newRec : Mem) (taskID : UInt32) : StationLocal where
  pc := .receive true .poll
  this := WeatherStationTask.create newRec taskID
  -- `loop_count` is set before it is read
  loopCount := 0
  registered := none
  ticks := 0
  received := []
  rounds := []
  posted := []

/-- Where `start` goes on after a call of `receive`. -/
def after (first : Bool) : StationPc := if first then .setName else .count

/-- The handlers; `none` when the message is of another type than it is cast to. -/
def handle (this : Mem) (tag : Int32) : AnyMsg → Option Mem
  | .text m =>
    if tag = weatherStationNameMsgTag then
      some (WeatherStationTask.handleWeatherStationNameMsg this m)
    else none
  | .bar m => if tag = subMsgTag then some (WeatherStationTask.handleSubMsg this m) else none
  | _ => none

/-- After the handler for the tag has run on the message. -/
def handled (l : StationLocal) (first : Bool) (tag : Int32) (msg : AnyMsg) : Option StationLocal :=
  (handle l.this tag msg).map fun this =>
    { l with pc := after first, this, received := l.received ++ [msg] }

/-- `vals` -/
def vals (l : StationLocal) : List Int32 :=
  [(WeatherStationTask.taskID l.this).toInt32, 31]

/-- `temp_msg` -/
def tempMsg (newIntArray : IntArrayMsg) (l : StationLocal) : AnyMsg :=
  .intArray ((IntArrayMsg.create newIntArray postWeatherMsgTag).setValues l.vals)

end StationLocal

/-- `message_immediate(this) == 0`; it is the only move that looks at the queue and not at the
    message in it. -/
def messageThere (mb : Mailbox) : Bool := isEmpty mb.Q = 0

/-- The next move of the station. -/
def weatherMove (newIntArray : IntArrayMsg) (there : Bool) (l : StationLocal) :
    Move AnyMsg Int32 (Option StationLocal) :=
  match l.pc with
  | .receive first point =>
    receiveMove weatherStationSwitch (fun point => l.goto (.receive first point))
      (l.handled first) (l.goto (StationLocal.after first)) point
  | .setName =>
    .compute (some { l with
      pc := .loop
      registered := some (WeatherStationTask.stationName l.this)
      loopCount := 0 })
  | .loop =>
    if l.this.loadInt 12 = 0 then .compute (l.goto .immediate) else .compute (l.goto .finished)
  | .immediate => .compute (l.goto (if there then .receive false .poll else .count))
  | .count =>
    let loopCount := l.loopCount + 1
    if loopCount % 10000000 = 0 then
      .compute (some { l with
        pc := .broadcast 0, loopCount, ticks := l.ticks + 1,
        rounds := l.rounds ++ [l.received.length] })
    else .compute (some { l with pc := .loop, loopCount, ticks := l.ticks + 1 })
  | .broadcast i =>
    if (i : Int) < (WeatherStationTask.subCount l.this).toInt then
      let target := WeatherStationTask.sub l.this i
      -- no other index is in the `TaskTable`
      if 0 ≤ target.toInt ∧ target.toInt < maxTask then
        .send target.toInt.toNat (l.tempMsg newIntArray) fun _ =>
          some { l with pc := .broadcast (i + 1), posted := l.posted ++ [(target, l.vals)] }
      else .fault
    else .compute (some { l with pc := .loop, loopCount := 0 })
  | .finished => .stop

/-- The program of the station; `none` when it has taken another message for one of its own. -/
def weatherCode (newIntArray : IntArrayMsg) (there : Bool) :
    Option StationLocal → Move AnyMsg Int32 (Option StationLocal)
  | some l => weatherMove newIntArray there l
  | none => .fault

/-- The station with task id `taskID`, and whoever sends to it. -/
def weatherStation (P : Process) (newIntArray : IntArrayMsg) (newRec : Mem) (taskID : UInt32) :
    System (Station (Option StationLocal)) StationEvent where
  init s := ∃ mem, s = ⟨some (.start newRec taskID), .create mem, [], 0⟩
  step s := Station.step P taskID.toNat (weatherCode newIntArray (messageThere s.mb)) s

/-! ## What is posted, and to whom -/

/-- A message of the type its tag stands for: a name short of `sub_count`, or the ID of a task. -/
structure Proper (msg : AnyMsg) : Prop where
  name : msg.tag = weatherStationNameMsgTag → ∃ m, msg = .text m ∧ m.msg.length < 32
  sub : msg.tag = subMsgTag → ∃ m, msg = .bar m ∧ ValidTarget m.value.toInt

/-- What comes in is proper, and does not overrun the slot that is being cloned. -/
def ProperArrival (s : Station (Option StationLocal)) (e : StationEvent) : Prop :=
  SafeArrival s e ∧ ∀ base msg, e = .arrive base msg → Proper msg.1

/-- The task that a message subscribes. -/
def subscriber? : AnyMsg → Option Int32
  | .bar m => if m.tag = subMsgTag then some m.value else none
  | _ => none

/-- The subscriptions among messages, oldest first. -/
def subscriptions (msgs : List AnyMsg) : List Int32 := msgs.filterMap subscriber?

/-- What a broadcast posts after the first `n` messages: the weather to the tasks that have
    subscribed, of which there is place for 50. -/
def broadcastAfter (taskID : UInt32) (received : List AnyMsg) (n : Nat) :
    List (Int32 × List Int32) :=
  ((subscriptions (received.take n)).take 50).map fun sub => (sub, [taskID.toInt32, 31])

/-- **The weather is posted**, where `s` is the station and `l` its local state. -/
structure Published (taskID : UInt32) (s : Station (Option StationLocal)) (l : StationLocal) :
    Prop where
  /-- Every message consumed that has a handler has been handled, but for one being cloned. -/
  received : (∀ first tag, l.pc ≠ .receive first (.clone tag)) →
    l.received = s.handledBy weatherStationSwitch
  /-- The posts so far are the first of those of the broadcasts begun, in their order. -/
  posted : l.posted <+: l.rounds.flatMap (broadcastAfter taskID l.received)
  /-- Outside the loop of a broadcast they are all of these. -/
  complete : (∀ i, l.pc ≠ .broadcast i) →
    l.posted = l.rounds.flatMap (broadcastAfter taskID l.received)
  /-- Every 10000000th round of the loop begins a broadcast. -/
  periodic : l.rounds.length = l.ticks / 10000000
  /-- At most 10000000 messages are handled between two broadcasts. -/
  spaced : l.rounds.IsChain fun n m => n ≤ m ∧ m ≤ n + 10000000

/-! ## The handlers -/

section Handlers

variable {this this' : Mem} {msg : AnyMsg} {received : List AnyMsg} {taskID : UInt32}

/-- A subscription changes nothing before `sub_count`. -/
theorem loadUInt_handleSub {m : BarMsg} (h₀ : 0 ≤ (WeatherStationTask.subCount this).toInt)
    {a : Int} (ha : a + 4 ≤ 48) :
    (WeatherStationTask.handleSubMsg this m).loadUInt a = this.loadUInt a := by
  unfold WeatherStationTask.handleSubMsg
  simp only []
  split
  · rw [Mem.loadUInt_store_of_apart _ (.inl ha), Mem.loadUInt_store_of_apart]
    left
    simp only [Store.off_int]
    omega
  · rfl

/-- The station's fields after so many messages. -/
structure Subscribed (taskID : UInt32) (received : List AnyMsg) (this : Mem) : Prop where
  taskID_eq : WeatherStationTask.taskID this = taskID
  isOpen : this.loadInt 12 = 0
  nonneg : 0 ≤ (WeatherStationTask.subCount this).toInt
  subscribers : WeatherStationTask.subscribers this = (subscriptions received).take 50

theorem Subscribed.start (newRec : Mem) (taskID : UInt32) :
    Subscribed taskID [] (WeatherStationTask.create newRec taskID) := by
  have hcount := WeatherStationTask.subCount_create newRec taskID
  have hstores : [Store.uint 8 taskID, .int 12 0, .int 48 0].Pairwise Store.Disjoint := by
    simp [Store.Disjoint]
  constructor
  · have hheld : (WeatherStationTask.create newRec taskID).Holds 0 (.uint 8 taskID) :=
      Mem.holds_applyStores newRec hstores (by simp)
    exact hheld.loadUInt
  · have hheld : (WeatherStationTask.create newRec taskID).Holds 0 (.int 12 0) :=
      Mem.holds_applyStores newRec hstores (by simp)
    exact hheld.loadInt
  · rw [hcount]
    decide
  · simp [WeatherStationTask.subscribers, hcount, subscriptions]

/-- As many subscribers as there is place for. -/
theorem Subscribed.subCount_eq (h : Subscribed taskID received this) :
    (WeatherStationTask.subCount this).toInt = ((subscriptions received).take 50).length := by
  have hnonneg := h.nonneg
  rw [← h.subscribers]
  simp only [WeatherStationTask.subscribers, List.length_map, List.length_range]
  omega

/-- **A handler** adds the subscriber that the message stands for. -/
theorem Subscribed.handle (h : Subscribed taskID received this) (hproper : Proper msg)
    (hthis' : StationLocal.handle this msg.tag msg = some this') :
    Subscribed taskID (received ++ [msg]) this' := by
  have happend : subscriptions (received ++ [msg]) =
      subscriptions received ++ (subscriber? msg).toList := by
    rw [subscriptions, List.filterMap_append, subscriptions]
    congr 1
  cases msg with
  -- a name: `station_name` ends before `sub_count`
  | text m =>
    simp only [StationLocal.handle] at hthis'
    split at hthis'
    case isFalse => cases hthis'
    case isTrue htag =>
      obtain rfl := Option.some.inj hthis'
      obtain ⟨m', hm, hshort⟩ := hproper.name htag
      obtain rfl := AnyMsg.text.inj hm
      constructor
      · rw [WeatherStationTask.taskID_handleName, h.taskID_eq]
      · rw [← h.isOpen]
        exact Mem.loadInt_store_of_apart _ (.inl (by simp))
      · rw [WeatherStationTask.subCount_handleName hshort]
        exact h.nonneg
      · rw [WeatherStationTask.subscribers_handleName hshort, h.subscribers, happend]
        simp [subscriber?]
  -- a subscription: `handle_SubMsg` stores it while there is place
  | bar m =>
    simp only [StationLocal.handle] at hthis'
    split at hthis'
    case isFalse => cases hthis'
    case isTrue htag =>
      obtain rfl := Option.some.inj hthis'
      have hmtag : m.tag = subMsgTag := htag
      have hcount := h.subCount_eq
      have hnonneg := h.nonneg
      have hnew : subscriptions (received ++ [.bar m]) = subscriptions received ++ [m.value] := by
        rw [happend, subscriber?, if_pos hmtag]
        rfl
      rw [List.length_take] at hcount
      refine ⟨?_, ?_, ?_, ?_⟩
      · rw [WeatherStationTask.taskID, loadUInt_handleSub hnonneg (by omega)]
        exact h.taskID_eq
      · rw [Mem.loadInt, loadUInt_handleSub hnonneg (by omega)]
        exact h.isOpen
      · rcases WeatherStationTask.handleSubMsg_cases this m hnonneg with ⟨-, hsame⟩ | ⟨-, hmore, -⟩
        · rw [hsame]
          exact hnonneg
        · omega
      · rw [hnew]
        rcases WeatherStationTask.handleSubMsg_cases this m hnonneg with
          ⟨hfull, hsame⟩ | ⟨hroom, -, hsubs⟩
        · -- there is no place left
          rw [hsame, h.subscribers, List.take_append_of_le_length (by omega)]
        · rw [hsubs, h.subscribers, List.take_of_length_le (by omega),
            List.take_of_length_le (by rw [List.length_append, List.length_singleton]; omega)]
  | _ => cases hthis'

/-- Proper messages have their handlers. -/
theorem exists_handle (this : Mem) (hproper : Proper msg)
    (hswitch : weatherStationSwitch msg.tag = .handle) :
    ∃ this', StationLocal.handle this msg.tag msg = some this' := by
  unfold weatherStationSwitch at hswitch
  split_ifs at hswitch with hname hsub
  · obtain ⟨m, rfl, -⟩ := hproper.name hname
    exact ⟨_, if_pos hname⟩
  · obtain ⟨m, rfl, -⟩ := hproper.sub hsub
    exact ⟨_, if_pos hsub⟩

/-- A subscription that has come in properly names a task. -/
theorem valid_of_subscription {sub : Int32} (hproper : ∀ msg ∈ received, Proper msg)
    (hsub : sub ∈ subscriptions received) : ValidTarget sub.toInt := by
  obtain ⟨msg, hmsg, hsome⟩ := List.mem_filterMap.mp hsub
  cases msg with
  | bar m =>
    simp only [subscriber?] at hsome
    split at hsome
    case isTrue htag =>
      obtain rfl := Option.some.inj hsome
      obtain ⟨m', hm, hvalid⟩ := (hproper _ hmsg).sub htag
      obtain rfl := AnyMsg.bar.inj hm
      exact hvalid
    case isFalse => cases hsome
  | _ => cases hsome

end Handlers

/-- The message of a broadcast, which is small. -/
theorem tempMsg_spec (newIntArray : IntArrayMsg) (l : StationLocal) :
    (l.tempMsg newIntArray).WellFormed ∧ (l.tempMsg newIntArray).msgSize.toInt = 96 ∧
      Proper (l.tempMsg newIntArray) :=
  ⟨setValues_wellFormed rfl (Int.le_of_sub_nonneg (by decide : (0 : Int) ≤ intMax - (88 + 2 * 4))),
    rfl, fun htag => absurd htag (by decide : postWeatherMsgTag ≠ weatherStationNameMsgTag),
    fun htag => absurd htag (by decide : postWeatherMsgTag ≠ subMsgTag)⟩

/-! ## The posts of the broadcasts -/

section Posts

variable {taskID : UInt32} {received : List AnyMsg} {rounds : List Nat}

/-- Messages handled later change nothing about a broadcast. -/
theorem broadcastAfter_append (taskID : UInt32) (msg : AnyMsg) {n : Nat}
    (hn : n ≤ received.length) :
    broadcastAfter taskID (received ++ [msg]) n = broadcastAfter taskID received n := by
  rw [broadcastAfter, List.take_append_of_le_length hn, broadcastAfter]

theorem broadcasts_append (taskID : UInt32) (msg : AnyMsg)
    (hrounds : ∀ n ∈ rounds, n ≤ received.length) :
    rounds.flatMap (broadcastAfter taskID (received ++ [msg])) =
      rounds.flatMap (broadcastAfter taskID received) := by
  apply List.flatMap_congr
  intro n hn
  exact broadcastAfter_append taskID msg (hrounds n hn)

/-- The posts of a broadcast that begins now -/
theorem broadcastAfter_length {this : Mem} (h : Subscribed taskID received this) :
    broadcastAfter taskID received received.length =
      (WeatherStationTask.subscribers this).map fun sub => (sub, [taskID.toInt32, 31]) := by
  rw [broadcastAfter, List.take_length, h.subscribers]

end Posts

/-! ## What holds at each point of `start` -/

section Posting

variable {P : Process} {newIntArray : IntArrayMsg} {taskID : UInt32}
  {s s' : Station (Option StationLocal)} {l l' : StationLocal}

/-- Everything to be posted has been posted. -/
def Settled (taskID : UInt32) (l : StationLocal) : Prop :=
  l.posted = l.rounds.flatMap (broadcastAfter taskID l.received)

/-- `loop_count` counts the rounds since the last broadcast, and there have been no more messages
    since than these, and `extra`. -/
structure Lags (l : StationLocal) (extra : Nat) : Prop where
  nonneg : 0 ≤ l.loopCount.toInt
  lt : l.loopCount.toInt < 10000000
  ticks : (l.ticks : Int) = 10000000 * l.rounds.length + l.loopCount.toInt
  handled : ∀ n ∈ l.rounds.getLast?, (l.received.length : Int) ≤ n + l.loopCount.toInt + extra

/-- Before the first round, and after each broadcast. -/
theorem Lags.zero {l : StationLocal} (hzero : l.loopCount = 0)
    (hticks : l.ticks = 10000000 * l.rounds.length)
    (handled : ∀ n ∈ l.rounds.getLast?, l.received.length ≤ n) : Lags l 0 := by
  have hcount : l.loopCount.toInt = 0 := by
    rw [hzero]
    rfl
  refine ⟨by omega, by omega, by omega, fun n hn => ?_⟩
  have hle := handled n hn
  push_cast
  omega

/-- Rounds and messages do not depend on where the station stands. -/
theorem Lags.goto {l : StationLocal} {extra : Nat} (h : Lags l extra) (pc : StationPc) :
    Lags { l with pc := pc } extra := ⟨h.nonneg, h.lt, h.ticks, h.handled⟩

/-- What holds of the queue and the posts when the station stands at `pc`. -/
def PostingAt (P : Process) (taskID : UInt32) (s : Station (Option StationLocal))
    (l : StationLocal) : StationPc → Prop
  | .receive first point => s.ReceivesAt P weatherStationSwitch l.received point ∧
      Settled taskID l ∧ Lags l 0 ∧ (first = true → l.rounds = [] ∧ l.ticks = 0)
  | .setName => s.ReceivesAt P weatherStationSwitch l.received .poll ∧ Settled taskID l ∧
      l.rounds = [] ∧ l.ticks = 0
  | .loop | .immediate => s.ReceivesAt P weatherStationSwitch l.received .poll ∧
      Settled taskID l ∧ Lags l 0
  | .count => s.ReceivesAt P weatherStationSwitch l.received .poll ∧ Settled taskID l ∧ Lags l 1
  | .broadcast i => s.ReceivesAt P weatherStationSwitch l.received .poll ∧
      l.ticks = 10000000 * l.rounds.length ∧ ∃ before, l.rounds = before ++ [l.received.length] ∧
        i ≤ (WeatherStationTask.subscribers l.this).length ∧
        l.posted = before.flatMap (broadcastAfter taskID l.received) ++
          (broadcastAfter taskID l.received l.received.length).take i
  -- nobody gives the order to close
  | .finished => False

/-- The station is running, and its subscribers are those of the messages handled. -/
structure Posting (P : Process) (taskID : UInt32) (s : Station (Option StationLocal))
    (l : StationLocal) : Prop where
  loc_eq : s.loc = some l
  proper : ∀ msg ∈ s.accepted, Proper msg
  fields : Subscribed taskID l.received l.this
  rounds_le : ∀ n ∈ l.rounds, n ≤ l.received.length
  spaced : l.rounds.IsChain fun n m => n ≤ m ∧ m ≤ n + 10000000
  point : PostingAt P taskID s l l.pc

theorem Posting.start (newRec : Mem) (taskID : UInt32) (mem : Mem) :
    Posting P taskID ⟨some (.start newRec taskID), .create mem, [], 0⟩
      (.start newRec taskID) where
  loc_eq := rfl
  proper _ hmsg := absurd hmsg List.not_mem_nil
  fields := .start newRec taskID
  rounds_le _ hn := absurd hn List.not_mem_nil
  spaced := .nil
  point := ⟨⟨Station.tracks_create _ mem, rfl⟩, rfl,
    .zero rfl rfl fun _ hn => absurd hn (Option.not_mem_none _), fun _ => ⟨rfl, rfl⟩⟩

/-- A station that goes on in `l'`, with its queue as it is, and has handled nothing new. -/
theorem Posting.goto (h : Posting P taskID s l) (hthis : l'.this = l.this)
    (hreceived : l'.received = l.received) (hrounds : l'.rounds = l.rounds)
    (hpoint : PostingAt P taskID (s.goto (some l')) l' l'.pc) :
    Posting P taskID (s.goto (some l')) l' where
  loc_eq := rfl
  proper := h.proper
  fields := by rw [hthis, hreceived]; exact h.fields
  rounds_le := by rw [hreceived, hrounds]; exact h.rounds_le
  spaced := by rw [hrounds]; exact h.spaced
  point := hpoint

/-- **A message that comes in** changes nothing of what holds. -/
theorem Posting.deliver (h : Posting P taskID s l) {base : UInt64} {msg : ValidMsg}
    (hproper : Proper msg.1) (hsafe : SafeSend s.mb msg.size) :
    Posting P taskID (s.deliver base msg.1).1 l where
  loc_eq := h.loc_eq
  proper := by
    intro m hm
    rcases Station.mem_deliver hm with hold | rfl
    · exact h.proper m hold
    · exact hproper
  fields := h.fields
  rounds_le := h.rounds_le
  spaced := h.spaced
  point := by
    have hpoint := h.point
    cases hpc : l.pc with
    | receive first point =>
      rw [hpc] at hpoint
      exact ⟨hpoint.1.deliver base msg hsafe, hpoint.2⟩
    | setName | loop | immediate | count | broadcast i =>
      rw [hpc] at hpoint
      exact ⟨hpoint.1.deliver base msg hsafe, hpoint.2⟩
    | finished =>
      rw [hpc] at hpoint
      exact hpoint

/-! ### The moves of the station -/

/-- **A step of `receive`**, of the first call or of one in the loop. -/
theorem Posting.receive (h : Posting P taskID s l) {first : Bool} {point : ReceivePoint}
    (hpc : l.pc = .receive first point) {there sent : Bool}
    (hs : s.perform P taskID.toNat sent (weatherMove newIntArray there l) = some s') :
    ∃ l', Posting P taskID s' l' := by
  have hpoint := h.point
  rw [hpc] at hpoint
  obtain ⟨hreceives, hsettled, hlags, hfirst⟩ := hpoint
  simp only [weatherMove, hpc] at hs
  obtain ⟨hstep, haccepted⟩ := hreceives.step hs
  have hproper : ∀ msg ∈ s'.accepted, Proper msg := by rw [haccepted]; exact h.proper
  cases hstep with
  | inside point' hloc hreceives' =>
    exact ⟨{ l with pc := .receive first point' }, hloc, hproper, h.fields, h.rounds_le, h.spaced,
      hreceives', hsettled, hlags.goto _, hfirst⟩
  | back hloc hreceives' =>
    refine ⟨{ l with pc := StationLocal.after first }, hloc, hproper, h.fields, h.rounds_le,
      h.spaced, ?_⟩
    -- the message has been dropped, or its tag has no handler: nothing is counted
    cases first with
    | true => exact ⟨hreceives', hsettled, hfirst rfl⟩
    | false =>
      refine ⟨hreceives', hsettled, hlags.nonneg, hlags.lt, hlags.ticks, fun n hn => ?_⟩
      have hle := hlags.handled n hn
      push_cast at hle ⊢
      omega
  | handled msg hloc hswitch hreceives' =>
    have hmsg : Proper msg := Station.of_handledBy hproper hreceives'.2 msg (by simp)
    obtain ⟨this', hthis'⟩ := exists_handle l.this hmsg hswitch
    rw [StationLocal.handled, hthis', Option.map_some] at hloc
    -- broadcasts that have begun do not see the new message
    have hsame := broadcasts_append taskID msg h.rounds_le
    refine ⟨_, hloc, hproper, h.fields.handle hmsg hthis', ?_, h.spaced, ?_⟩
    · intro n hn
      rw [List.length_append]
      exact Nat.le_add_right_of_le (h.rounds_le n hn)
    · cases first with
      | true => exact ⟨hreceives', hsettled.trans hsame.symm, hfirst rfl⟩
      | false =>
        refine ⟨hreceives', hsettled.trans hsame.symm, hlags.nonneg, hlags.lt, hlags.ticks,
          fun n hn => ?_⟩
        have hle := hlags.handled n hn
        simp only [List.length_append, List.length_singleton]
        push_cast at hle ⊢
        omega

/-- `loop_count++`, and the test that follows it -/
theorem loopCount_succ {c : Int64} (hnonneg : 0 ≤ c.toInt) (hlt : c.toInt < 10000000) :
    (c + 1).toInt = c.toInt + 1 ∧ ((c + 1) % 10000000 = 0 ↔ c.toInt + 1 = 10000000) := by
  have hone : (1 : Int64).toInt = 1 := by decide
  have hmax : (10000000 : Int64).toInt = 10000000 := by decide
  have hzero : (0 : Int64).toInt = 0 := by decide
  -- `long` does not overflow: the count is set back before
  have hsucc : (c + 1).toInt = c.toInt + 1 := by
    rw [Int64.toInt_add, hone]
    exact Int.bmod_eq_of_le (by omega) (by omega)
  refine ⟨hsucc, ?_⟩
  rw [← Int64.toInt_inj, Int64.toInt_mod, hsucc, hmax, hzero, Int.tmod_eq_emod_of_nonneg (by omega)]
  omega

/-- **`loop_count++`**: the 10000000th round begins a broadcast. -/
theorem Posting.count (h : Posting P taskID s l) (hpc : l.pc = .count) {there sent : Bool}
    (hs : s.perform P taskID.toNat sent (weatherMove newIntArray there l) = some s') :
    ∃ l', Posting P taskID s' l' := by
  have hpoint := h.point
  rw [hpc] at hpoint
  obtain ⟨hreceives, hsettled, hlags⟩ := hpoint
  have hlagsHandled := hlags.handled
  obtain ⟨hsucc, hround⟩ := loopCount_succ hlags.nonneg hlags.lt
  have hnonneg := hlags.nonneg
  have hlt := hlags.lt
  have hticks := hlags.ticks
  simp only [weatherMove, hpc] at hs
  split at hs
  -- the broadcast goes to those whose subscriptions have been handled by now
  case isTrue hzero =>
    obtain rfl := Option.some.inj hs
    have hfull := hround.mp hzero
    refine ⟨_, rfl, h.proper, h.fields, ?_, ?_, ⟨hreceives.1.goto _, hreceives.2⟩, ?_, l.rounds,
      rfl, Nat.zero_le _, ?_⟩
    · intro n hn
      rcases List.mem_append.mp hn with hold | hnew
      · exact h.rounds_le n hold
      · exact Nat.le_of_eq (List.mem_singleton.mp hnew)
    · -- the broadcast before this one began no more than 10000000 messages ago
      refine List.isChain_append.mpr ⟨h.spaced, .singleton _, ?_⟩
      intro n hn m hm
      obtain rfl : l.received.length = m := Option.some.inj hm
      have hle := hlagsHandled n hn
      refine ⟨h.rounds_le n (List.mem_of_getLast? hn), ?_⟩
      push_cast at hle
      omega
    · simp only [List.length_append, List.length_singleton]
      omega
    · rw [List.take_zero, List.append_nil]
      exact hsettled
  -- a round without a broadcast; its message, if it had one, is counted in
  case isFalse hnot =>
    obtain rfl := Option.some.inj hs
    have hbelow : l.loopCount.toInt + 1 ≠ 10000000 := fun hfull => hnot (hround.mpr hfull)
    refine ⟨_, h.goto rfl rfl rfl ⟨⟨hreceives.1.goto _, hreceives.2⟩, hsettled, ?_⟩⟩
    refine ⟨?_, ?_, ?_, fun n hn => ?_⟩
    · show 0 ≤ (l.loopCount + 1).toInt
      omega
    · show (l.loopCount + 1).toInt < 10000000
      omega
    · show ((l.ticks + 1 : Nat) : Int) = 10000000 * l.rounds.length + (l.loopCount + 1).toInt
      omega
    · have hle := hlagsHandled n hn
      show (l.received.length : Int) ≤ n + (l.loopCount + 1).toInt + (0 : Nat)
      push_cast at hle ⊢
      omega

/-- The station when it has posted to subscriber `i`. -/
def StationLocal.postedTo (l : StationLocal) (i : Nat) : StationLocal :=
  { l with
    pc := .broadcast (i + 1)
    posted := l.posted ++ [(WeatherStationTask.sub l.this i, l.vals)] }

/-- **A round of the loop over the subscribers.** -/
theorem Posting.broadcast (h : Posting P taskID s l) {i : Nat} (hpc : l.pc = .broadcast i)
    {there sent : Bool}
    (hs : s.perform P taskID.toNat sent (weatherMove newIntArray there l) = some s') :
    ∃ l', Posting P taskID s' l' := by
  have hpoint := h.point
  rw [hpc] at hpoint
  obtain ⟨hreceives, hticks, before, hrounds, hi, hposted⟩ := hpoint
  have hfields := h.fields
  have hcount : (WeatherStationTask.subCount l.this).toInt =
      (WeatherStationTask.subscribers l.this).length := by
    rw [hfields.subCount_eq, hfields.subscribers]
  have hpost := broadcastAfter_length hfields
  simp only [weatherMove, hpc, hcount] at hs
  split at hs
  case isTrue hlt =>
    have hlt : i < (WeatherStationTask.subscribers l.this).length := by omega
    split at hs
    case isFalse => cases hs
    case isTrue hvalid =>
      -- this post is the next of those that the broadcast owes
      have hsub : (WeatherStationTask.subscribers l.this)[i]? =
          some (WeatherStationTask.sub l.this i) := by
        have hrange : i < (WeatherStationTask.subCount l.this).toInt.toNat := by omega
        rw [WeatherStationTask.subscribers, List.getElem?_map, List.getElem?_range hrange]
        rfl
      have hnext : (l.postedTo i).posted = before.flatMap (broadcastAfter taskID l.received) ++
          (broadcastAfter taskID l.received l.received.length).take (i + 1) := by
        show l.posted ++ _ = _
        rw [hposted, List.take_add_one, hpost, List.getElem?_map, hsub, StationLocal.vals,
          hfields.taskID_eq, List.append_assoc]
        rfl
      have hgo : ∀ t : Station (Option StationLocal), Posting P taskID t l →
          t.ReceivesAt P weatherStationSwitch l.received .poll →
          Posting P taskID (t.goto (some (l.postedTo i))) (l.postedTo i) := by
        intro t ht htreceives
        exact ht.goto rfl rfl rfl ⟨⟨htreceives.1.goto _, htreceives.2⟩, hticks, before, hrounds,
          hlt, hnext⟩
      simp only [Station.perform] at hs
      split at hs
      · -- the station has subscribed itself
        obtain rfl := Option.some.inj hs
        obtain ⟨hvalid, hsize, hproper⟩ := tempMsg_spec newIntArray l
        have hsafe : SafeSend s.mb (l.tempMsg newIntArray).msgSize.toInt := by
          rw [hsize]
          exact hreceives.1.safeSend (by decide)
        let sent : ValidMsg := ⟨_, hvalid⟩
        have hsent : Posting P taskID (s.deliver P.base sent.1).1 l := h.deliver hproper hsafe
        exact ⟨l.postedTo i, hgo _ hsent (hreceives.deliver P.base sent hsafe)⟩
      -- to any other queue: its own stays as it is
      · obtain rfl := Option.some.inj hs
        exact ⟨l.postedTo i, hgo s h hreceives⟩
  case isFalse hge =>
    obtain rfl := Option.some.inj hs
    have hall : i = (WeatherStationTask.subscribers l.this).length := by omega
    refine ⟨_, h.goto rfl rfl rfl ⟨⟨hreceives.1.goto _, hreceives.2⟩, ?_,
      .zero rfl hticks fun n hn => ?_⟩⟩
    · -- the broadcast is complete
      show l.posted = l.rounds.flatMap _
      rw [hposted, hrounds, List.flatMap_append, List.flatMap_singleton,
        List.take_of_length_le (by rw [hpost, List.length_map]; omega)]
    · have hn : l.rounds.getLast? = some n := hn
      rw [hrounds, List.getLast?_append, List.getLast?_singleton] at hn
      obtain rfl := Option.some.inj hn
      exact Nat.le_refl _

/-- **Step**: what holds at each point is kept by the station and by those who send to it. -/
theorem Posting.step (h : Posting P taskID s l) {e : StationEvent} {newRec : Mem}
    (hproper : ProperArrival s e)
    (hs : (weatherStation P newIntArray newRec taskID).step s e = some s') :
    ∃ l', Posting P taskID s' l' := by
  cases e with
  | arrive base msg =>
    obtain rfl := Option.some.inj hs
    exact ⟨l, h.deliver (hproper.2 base msg rfl) hproper.1⟩
  | own sent =>
    have hs' : s.perform P taskID.toNat sent
        (weatherCode newIntArray (messageThere s.mb) s.loc) = some s' := hs
    rw [h.loc_eq] at hs'
    have hpoint := h.point
    cases hpc : l.pc with
    | receive first point => exact h.receive hpc hs'
    | count => exact h.count hpc hs'
    | broadcast i => exact h.broadcast hpc hs'
    | setName =>
      rw [hpc] at hpoint
      obtain ⟨hreceives, hsettled, hrounds, hticks⟩ := hpoint
      simp only [weatherCode, weatherMove, hpc] at hs'
      obtain rfl := Option.some.inj hs'
      refine ⟨_, h.goto rfl rfl rfl ⟨⟨hreceives.1.goto _, hreceives.2⟩, hsettled,
        .zero rfl (by rw [hrounds]; exact hticks) fun n hn => ?_⟩⟩
      have hn : l.rounds.getLast? = some n := hn
      rw [hrounds] at hn
      cases hn
    | loop =>
      rw [hpc] at hpoint
      obtain ⟨hreceives, hsettled, hlags⟩ := hpoint
      simp only [weatherCode, weatherMove, hpc, h.fields.isOpen, if_true] at hs'
      obtain rfl := Option.some.inj hs'
      exact ⟨_, h.goto rfl rfl rfl ⟨⟨hreceives.1.goto _, hreceives.2⟩, hsettled, hlags.goto _⟩⟩
    | immediate =>
      rw [hpc] at hpoint
      obtain ⟨hreceives, hsettled, hlags⟩ := hpoint
      simp only [weatherCode, weatherMove, hpc] at hs'
      obtain rfl := Option.some.inj hs'
      -- `message_immediate` decides whether this round calls `receive`
      cases messageThere s.mb with
      | true =>
        exact ⟨_, h.goto rfl rfl rfl ⟨⟨hreceives.1.goto _, hreceives.2⟩, hsettled,
          hlags.goto _, Bool.noConfusion⟩⟩
      | false =>
        refine ⟨_, h.goto rfl rfl rfl ⟨⟨hreceives.1.goto _, hreceives.2⟩, hsettled, ?_⟩⟩
        refine ⟨hlags.nonneg, hlags.lt, hlags.ticks, fun n hn => ?_⟩
        have hle := hlags.handled n hn
        push_cast at hle ⊢
        omega
    | finished =>
      rw [hpc] at hpoint
      exact hpoint.elim

/-- As many broadcasts as `loop_count` has come round. -/
theorem Lags.periodic {extra : Nat} (h : Lags l extra) :
    l.rounds.length = l.ticks / 10000000 := by
  have hnonneg := h.nonneg
  have hlt := h.lt
  have hticks := h.ticks
  omega

/-- In each of these states the weather is posted. -/
theorem Posting.published (h : Posting P taskID s l) : Published taskID s l := by
  have hpoint := h.point
  cases hpc : l.pc with
  | receive first point =>
    rw [hpc] at hpoint
    obtain ⟨hreceives, hsettled, hlags, -⟩ := hpoint
    refine ⟨fun hnot => ?_, hsettled ▸ List.prefix_rfl, fun _ => hsettled, hlags.periodic,
      h.spaced⟩
    cases point with
    | poll => exact hreceives.2.symm
    | receive tag | drop => exact hreceives.2.1.symm
    | clone tag => exact absurd hpc (hnot first tag)
  | setName =>
    rw [hpc] at hpoint
    obtain ⟨hreceives, hsettled, hrounds, hticks⟩ := hpoint
    refine ⟨fun _ => hreceives.2.symm, hsettled ▸ List.prefix_rfl, fun _ => hsettled, ?_, h.spaced⟩
    rw [hrounds, hticks]
    rfl
  | loop | immediate | count =>
    rw [hpc] at hpoint
    obtain ⟨hreceives, hsettled, hlags⟩ := hpoint
    exact ⟨fun _ => hreceives.2.symm, hsettled ▸ List.prefix_rfl, fun _ => hsettled,
      hlags.periodic, h.spaced⟩
  | broadcast i =>
    rw [hpc] at hpoint
    obtain ⟨hreceives, hticks, before, hrounds, -, hposted⟩ := hpoint
    refine ⟨fun _ => hreceives.2.symm, ?_, fun hnot => absurd hpc (hnot i), by omega, h.spaced⟩
    rw [hposted, hrounds, List.flatMap_append, List.flatMap_singleton]
    exact (List.prefix_append_right_inj _).mpr (List.take_prefix ..)
  | finished =>
    rw [hpc] at hpoint
    exact hpoint.elim

/-- **A move of the station is defined**, wherever it stands. -/
theorem Posting.goesOn (h : Posting P taskID s l) (newIntArray : IntArrayMsg) (there sent : Bool) :
    ∃ s', s.perform P taskID.toNat sent (weatherMove newIntArray there l) = some s' := by
  have hpoint := h.point
  cases hpc : l.pc with
  | receive first point =>
    rw [hpc] at hpoint
    -- a call of `receive` can poll, or take the message that it has seen
    simp only [weatherMove, hpc]
    exact hpoint.1.goesOn
  | setName | immediate =>
    simp only [weatherMove, hpc]
    exact ⟨_, rfl⟩
  | loop | count =>
    simp only [weatherMove, hpc]
    split <;> exact ⟨_, rfl⟩
  | broadcast i =>
    rw [hpc] at hpoint
    obtain ⟨hreceives, -⟩ := hpoint
    simp only [weatherMove, hpc]
    split
    case isFalse => exact ⟨_, rfl⟩
    case isTrue hlt =>
      -- the subscriber is one of those that have come in
      have hmem : WeatherStationTask.sub l.this i ∈ subscriptions l.received := by
        apply List.mem_of_mem_take
        rw [← h.fields.subscribers]
        exact List.mem_map.mpr ⟨i, List.mem_range.mpr (by omega), rfl⟩
      have hvalid : 0 ≤ (WeatherStationTask.sub l.this i).toInt ∧
          (WeatherStationTask.sub l.this i).toInt < maxTask :=
        valid_of_subscription (Station.of_handledBy h.proper hreceives.2) hmem
      rw [if_pos hvalid]
      simp only [Station.perform]
      split <;> exact ⟨_, rfl⟩
  | finished =>
    rw [hpc] at hpoint
    exact hpoint.elim

end Posting

/-! ## Rounds without a message -/

section Rounds

variable {S E : Type*} {sys : System S E} {G : S → E → Prop} {newIntArray : IntArrayMsg}
  {place : StationLocal → S} {l : StationLocal}

/-- In states `place l` the station stands in `l`, with an empty queue, and may take the steps
    that use no queue. -/
def Idles (sys : System S E) (G : S → E → Prop) (newIntArray : IntArrayMsg)
    (place : StationLocal → S) : Prop :=
  ∀ l next, weatherMove newIntArray false l = .compute (some next) →
    sys.ReachableWhen G (place l) → sys.ReachableWhen G (place next)

/-- Up to `loop_count++` -/
theorem Idles.round (h : Idles sys G newIntArray place) (hpc : l.pc = .loop)
    (hopen : l.this.loadInt 12 = 0) (hl : sys.ReachableWhen G (place l)) :
    sys.ReachableWhen G (place { l with pc := .count }) := by
  have himmediate : weatherMove newIntArray false l =
      .compute (some { l with pc := .immediate }) := by
    simp only [weatherMove, hpc, hopen, if_true]
    rfl
  exact h _ _ rfl (h _ _ himmediate hl)

/-- **A station that gets no messages comes to its broadcast**, after all rounds that are left. -/
theorem Idles.broadcast (h : Idles sys G newIntArray place) {n : Nat} (hpc : l.pc = .loop)
    (hopen : l.this.loadInt 12 = 0) (hnonneg : 0 ≤ l.loopCount.toInt)
    (hleft : l.loopCount.toInt + n + 1 = 10000000) (hl : sys.ReachableWhen G (place l)) :
    sys.ReachableWhen G (place { l with
      pc := .broadcast 0, loopCount := 10000000, ticks := l.ticks + n + 1,
      rounds := l.rounds ++ [l.received.length] }) := by
  induction n generalizing l with
  | zero =>
    obtain ⟨hsucc, hround⟩ := loopCount_succ hnonneg (by omega)
    -- the last round, by which the count is full
    have hlast : l.loopCount + 1 = 10000000 := by
      rw [← Int64.toInt_inj, hsucc]
      have hmax : (10000000 : Int64).toInt = 10000000 := by decide
      omega
    refine h _ _ ?_ (h.round hpc hopen hl)
    simp only [weatherMove, hround.mpr (by omega), if_true]
    rw [hlast]
  | succ n ih =>
    obtain ⟨hsucc, hround⟩ := loopCount_succ hnonneg (by omega)
    have hnot : ¬(l.loopCount + 1) % 10000000 = 0 := by
      rw [hround]
      omega
    -- one round more, and the count is still below
    have hmove : weatherMove newIntArray false { l with pc := .count } =
        .compute (some { l with
          pc := .loop, loopCount := l.loopCount + 1, ticks := l.ticks + 1 }) := by
      simp only [weatherMove, hnot, if_false]
    have hnext := ih (l := { l with
      pc := .loop, loopCount := l.loopCount + 1, ticks := l.ticks + 1 }) rfl hopen
      (by rw [hsucc]; omega) (by rw [hsucc]; push_cast at hleft; omega)
      (h _ _ hmove (h.round hpc hopen hl))
    have hticks : l.ticks + 1 + n + 1 = l.ticks + (n + 1) + 1 := by omega
    rwa [hticks] at hnext

end Rounds

/-! ## All runs -/

section Runs

variable {s : Station (Option StationLocal)}

theorem reachable_posting (P : Process) (newIntArray : IntArrayMsg) (newRec : Mem)
    (taskID : UInt32)
    (h : (weatherStation P newIntArray newRec taskID).ReachableWhen ProperArrival s) :
    ∃ l, Posting P taskID s l := by
  refine ReachableWhen.invariant (P := fun s => ∃ l, Posting P taskID s l) ?_ ?_ h
  · rintro _ ⟨mem, rfl⟩
    exact ⟨_, Posting.start newRec taskID mem⟩
  · rintro s e s' ⟨l, hl⟩ hproper hs
    exact hl.step hproper hs

/-- **The weather is posted to the subscribers, and to nobody else**, in every run and whatever
    comes in meanwhile: each broadcast goes to the first 50 tasks whose subscriptions had been
    handled when it began, in the order of these, once for each subscription. -/
theorem weather_published (P : Process) (newIntArray : IntArrayMsg) (newRec : Mem)
    (taskID : UInt32)
    (h : (weatherStation P newIntArray newRec taskID).ReachableWhen ProperArrival s) :
    ∃ l, s.loc = some l ∧ Published taskID s l := by
  obtain ⟨l, hl⟩ := reachable_posting P newIntArray newRec taskID h
  exact ⟨l, hl.loc_eq, hl.published⟩

/-- A station whose queue is empty idles. -/
theorem idles_station {P : Process} {newIntArray : IntArrayMsg} {newRec : Mem} {taskID : UInt32}
    (hempty : messageThere s.mb = false) :
    Idles (weatherStation P newIntArray newRec taskID) ProperArrival newIntArray
      fun l => s.goto (some l) := by
  intro l next hmove hl
  refine hl.step (e := .own true) ⟨trivial, nofun⟩ ?_
  show (s.goto (some l)).perform P taskID.toNat true (weatherMove newIntArray
    (messageThere s.mb) l) = _
  rw [hempty, hmove]
  rfl

/-- A new station with a new queue. -/
def newStation : Station (Option StationLocal) :=
  ⟨some (.start (fun _ => 0) 1), .create fun _ => 0, [], 0⟩

/-- The system it is in. -/
def oneStation : System (Station (Option StationLocal)) StationEvent :=
  weatherStation ⟨4096, .packed⟩ ⟨0, 0, 0, 0, []⟩ (fun _ => 0) 1

/-- A name as `TextMsg_create` and `setMsg` leave it. -/
def stationName : ValidMsg :=
  ⟨.text ((TextMsg.create ⟨0, 0, 0, []⟩ weatherStationNameMsgTag).setMsg [65]),
    (TextMsg.Built.setFirst _ _ [65] (by decide)).wellFormed⟩

/-- A subscription of task 5 as `BarMsg_create` and `setValue` leave it. -/
def subscription : ValidMsg :=
  ⟨.bar ((BarMsg.create ⟨0, 0, 0, 0⟩ subMsgTag).setValue 5),
    (BarMsg.Built.setValue (.create _ subMsgTag) 5).wellFormed⟩

/-- The station gets its name, and a subscription in the first round of its loop. -/
def subscribedRun : List StationEvent :=
  [.arrive 8192 stationName] ++ List.replicate 4 (.own true) ++
    [.arrive 8192 subscription] ++ List.replicate 6 (.own true)

/-- The station behind that round. -/
def subscribedStation : Station (Option StationLocal) :=
  (oneStation.runFrom newStation subscribedRun).getD newStation

theorem subscribedStation_reachable :
    oneStation.ReachableWhen ProperArrival subscribedStation := by
  have hsome : (oneStation.runFrom newStation subscribedRun).isSome = true := by decide +kernel
  obtain ⟨s, hrun⟩ := Option.isSome_iff_exists.mp hsome
  have hsafe : oneStation.Along SafeArrival newStation subscribedRun := by decide +kernel
  have hproper : ∀ e ∈ subscribedRun, ∀ base msg, e = .arrive base msg → Proper msg.1 := by
    intro e he base msg heq
    subst heq
    simp only [subscribedRun, List.mem_append, List.mem_singleton, List.mem_replicate,
      reduceCtorEq, and_false, or_false, StationEvent.arrive.injEq] at he
    rcases he with ⟨-, rfl⟩ | ⟨-, rfl⟩
    · exact ⟨fun _ => ⟨_, rfl, by decide⟩, fun htag => absurd htag (by decide)⟩
    · exact ⟨fun htag => absurd htag (by decide), fun _ => ⟨_, rfl, by decide⟩⟩
  rw [subscribedStation, hrun]
  exact (hsafe.and_of_forall hproper).reachableWhen (.init ⟨fun _ => 0, rfl⟩) hrun

/-- The state of its loop. -/
def subscribedLocal : StationLocal := subscribedStation.loc.getD (.start (fun _ => 0) 1)

/-- The station when its first broadcast begins, after 10000000 rounds. -/
def broadcastingStation : Station (Option StationLocal) :=
  subscribedStation.goto (some { subscribedLocal with
    pc := .broadcast 0, loopCount := 10000000, ticks := subscribedLocal.ticks + 9999998 + 1,
    rounds := subscribedLocal.rounds ++ [subscribedLocal.received.length] })

theorem broadcastingStation_reachable :
    oneStation.ReachableWhen ProperArrival broadcastingStation := by
  have hempty : messageThere subscribedStation.mb = false := by decide +kernel
  have hloc : subscribedStation.loc = some subscribedLocal := by
    have hsome : subscribedStation.loc.isSome = true := by decide +kernel
    obtain ⟨l, hl⟩ := Option.isSome_iff_exists.mp hsome
    rw [subscribedLocal, hl, Option.getD_some]
  have hhere : subscribedStation.goto (some subscribedLocal) = subscribedStation := by
    rw [Station.goto, ← hloc]
  apply (idles_station hempty).broadcast (n := 9999998)
  · decide +kernel
  · decide +kernel
  · decide +kernel
  · decide +kernel
  · rw [hhere]
    exact subscribedStation_reachable

/-- Its broadcast has posted the weather to task 5. -/
theorem weather_published_subscription :
    ∃ s l, oneStation.step broadcastingStation (.own true) = some s ∧ s.loc = some l ∧
      l.posted = [(5, [1, 31])] ∧ Published 1 s l := by
  have hposted : (oneStation.step broadcastingStation (.own true)).map
      (fun s => s.loc.map StationLocal.posted) = some (some [(5, [1, 31])]) := by
    decide +kernel
  obtain ⟨s, hs, hloc⟩ := Option.map_eq_some_iff.mp hposted
  obtain ⟨l, hl, hpublished⟩ := weather_published ⟨4096, .packed⟩ ⟨0, 0, 0, 0, []⟩ (fun _ => 0) 1
    (broadcastingStation_reachable.step (e := .own true) ⟨trivial, nofun⟩ hs)
  rw [hl] at hloc
  exact ⟨s, l, hs, hl, Option.some.inj hloc, hpublished⟩

/-- **A station is never stuck**, and never stops: it can always make its next move. -/
theorem weather_goesOn (P : Process) (newIntArray : IntArrayMsg) (newRec : Mem)
    (taskID : UInt32)
    (h : (weatherStation P newIntArray newRec taskID).ReachableWhen ProperArrival s)
    (sent : Bool) :
    ∃ s', (weatherStation P newIntArray newRec taskID).step s (.own sent) = some s' := by
  obtain ⟨l, hl⟩ := reachable_posting P newIntArray newRec taskID h
  obtain ⟨s', hs'⟩ := hl.goesOn newIntArray (messageThere s.mb) sent
  refine ⟨s', ?_⟩
  show s.perform P taskID.toNat sent (weatherCode newIntArray (messageThere s.mb) s.loc) = some s'
  rw [hl.loc_eq]
  exact hs'

/-- The station goes on behind its first post. -/
theorem weather_goesOn_subscription :
    ∃ s, oneStation.step broadcastingStation (.own true) = some s ∧
      ∀ sent, ∃ s', oneStation.step s (.own sent) = some s' := by
  have hsome : (oneStation.step broadcastingStation (.own true)).isSome = true := by decide +kernel
  obtain ⟨s, hs⟩ := Option.isSome_iff_exists.mp hsome
  exact ⟨s, hs, weather_goesOn ⟨4096, .packed⟩ _ (fun _ => 0) 1
    (broadcastingStation_reachable.step (e := .own true) ⟨trivial, nofun⟩ hs)⟩

end Runs

end WeatherTask

end TaskSystem
