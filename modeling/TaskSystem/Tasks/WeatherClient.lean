import TaskSystem.Tasks.WeatherStation

/-!
# A Subscriber

`start` of the weather client, with its queue, in which any processes put messages in any order.
It receives the name of a station, looks the station up, subscribes with its own task ID, and
prints what comes in from then on.

## Contents

- `WeatherClientPc`, `WeatherClientLocal`, `weatherClientMove`: the program; `weatherClient`: the
  system
- `ProperPost`: messages of the types their tags stand for
- `Listens`: what a client has printed and sent
- `tempMsg_reported`, `subMsg_proper`: what stations and clients send each other is proper
- `Listening`: what holds at each point of `start`; `Listening.step`
- `weather_client_listens`: all runs
- `weather_client_goesOn_iff`: when a client can make its next move
-/

namespace TaskSystem

open Library Library.System Repository

namespace WeatherTask

/-! ## The program -/

/-- Where the client stands in `start`. -/
inductive WeatherClientPc where
  /-- In its first call of `receive`, or in one in the loop -/
  | receive (first : Bool) (point : ReceivePoint)
  /-- Before `repository_get_id` -/
  | lookUp
  /-- Before it sends the subscription to the station with the ID that it has got -/
  | subscribe (station : Int32)
  deriving DecidableEq

/-- The client's local state. -/
structure WeatherClientLocal where
  pc : WeatherClientPc
  this : Mem
  /-- The messages handled so far -/
  received : List AnyMsg
  /-- The one that the first call of `receive` has handled -/
  first : Option AnyMsg
  /-- The name it has looked up -/
  lookedUp : Option (List UInt8)
  /-- The messages sent so far, each with its target -/
  sent : List (Int32 × AnyMsg)
  /-- The stations and temperatures printed so far -/
  printed : List (Int32 × Int32)

/-- `sub_msg` of the task with this ID -/
def subMsg (newBar : BarMsg) (taskID : UInt32) : AnyMsg :=
  .bar ((BarMsg.create newBar subMsgTag).setValue taskID.toInt32)

namespace WeatherClientLocal

def goto (l : WeatherClientLocal) (pc : WeatherClientPc) : Option WeatherClientLocal :=
  some { l with pc := pc }

/-- A client that starts. -/
def start (newRec : Mem) (taskID : UInt32) : WeatherClientLocal where
  pc := .receive true .poll
  this := WeatherClientTask.create newRec taskID
  received := []
  first := none
  lookedUp := none
  sent := []
  printed := []

/-- Where `start` goes on after a call of `receive`. -/
def after (first : Bool) : WeatherClientPc := if first then .lookUp else .receive false .poll

/-- `handle_PostWeatherMsg` prints the first two values; `none` when there are fewer. -/
def handlePostWeatherMsg (m : IntArrayMsg) : Option (Int32 × Int32) :=
  match m.values with
  | id :: weather :: _ => some (id, weather)
  | _ => none

/-- The handlers; `none` when the message is of another type than it is cast to. -/
def handle (l : WeatherClientLocal) (tag : Int32) : AnyMsg → Option WeatherClientLocal
  | .text m =>
    if tag = weatherStationNameMsgTag then
      some { l with this := WeatherClientTask.handleWeatherStationNameMsg l.this m }
    else none
  | .intArray m =>
    if tag = postWeatherMsgTag then
      (handlePostWeatherMsg m).map fun post => { l with printed := l.printed ++ [post] }
    else none
  | _ => none

/-- After the handler for the tag has run on the message. -/
def handled (l : WeatherClientLocal) (first : Bool) (tag : Int32) (msg : AnyMsg) :
    Option WeatherClientLocal :=
  (l.handle tag msg).map fun l' =>
    { l' with
      pc := after first
      received := l.received ++ [msg]
      first := if first then some msg else l.first }

end WeatherClientLocal

/-- The next move of the client, where `getId` says what its lookup returns. -/
def weatherClientMove (newBar : BarMsg) (getId : List UInt8 → Int32) (l : WeatherClientLocal) :
    Move AnyMsg Int32 (Option WeatherClientLocal) :=
  match l.pc with
  | .receive first point =>
    receiveMove weatherClientSwitch (fun point => l.goto (.receive first point))
      (l.handled first) (l.goto (WeatherClientLocal.after first)) point
  | .lookUp =>
    let name := WeatherClientTask.stationName l.this
    .compute (some { l with pc := .subscribe (getId name), lookedUp := some name })
  | .subscribe station =>
    let msg := subMsg newBar (WeatherClientTask.taskID l.this)
    -- no other index is in the `TaskTable`
    if 0 ≤ station.toInt ∧ station.toInt < maxTask then
      .send station.toInt.toNat msg fun _ =>
        some { l with pc := .receive false .poll, sent := l.sent ++ [(station, msg)] }
    else .fault

/-- The program of the client; `none` when it has taken another message for one of its own. -/
def weatherClientCode (newBar : BarMsg) (getId : List UInt8 → Int32) :
    Option WeatherClientLocal → Move AnyMsg Int32 (Option WeatherClientLocal)
  | some l => weatherClientMove newBar getId l
  | none => .fault

/-- The client with task id `taskID`, and whoever sends to it. -/
def weatherClient (P : Process) (newBar : BarMsg) (getId : List UInt8 → Int32) (newRec : Mem)
    (taskID : UInt32) : System (Station (Option WeatherClientLocal)) StationEvent :=
  station P taskID.toNat (weatherClientCode newBar getId) (some (.start newRec taskID))

/-! ## What is printed and sent -/

/-- A message of the type its tag stands for: a name that fits, or a post of two values. -/
structure ProperPost (msg : AnyMsg) : Prop where
  name : msg.tag = weatherStationNameMsgTag →
    ∃ m, msg = .text m ∧ m.msg.length < maxNameSize ∧ ∀ c ∈ m.msg, c ≠ 0
  post : msg.tag = postWeatherMsgTag → ∃ m, msg = .intArray m ∧ 2 ≤ m.values.length

/-- What comes in is proper, and does not overrun the slot that is being cloned. -/
def ProperPostArrival (s : Station (Option WeatherClientLocal)) (e : StationEvent) : Prop :=
  SafeArrival s e ∧ ∀ base msg, e = .arrive base msg → ProperPost msg.1

/-- What is printed for a message. -/
def report? : AnyMsg → Option (Int32 × Int32)
  | .intArray m =>
    if m.tag = postWeatherMsgTag then WeatherClientLocal.handlePostWeatherMsg m else none
  | _ => none

/-- What is printed for messages, oldest first. -/
def reports (msgs : List AnyMsg) : List (Int32 × Int32) := msgs.filterMap report?

/-- **A client listens**, where `s` is the client with its queue and `l` its local state. -/
structure Listens (newBar : BarMsg) (getId : List UInt8 → Int32) (taskID : UInt32)
    (s : Station (Option WeatherClientLocal)) (l : WeatherClientLocal) : Prop where
  /-- Every message removed that has a handler has been handled, but for one being cloned. -/
  received : (∀ first tag, l.pc ≠ .receive first (.clone tag)) →
    l.received = s.handledBy weatherClientSwitch
  /-- Every post handled has been printed, in that order, and nothing else. -/
  printed : l.printed = reports l.received
  /-- Before the lookup nothing is sent. -/
  quiet : l.lookedUp = none → l.sent = []
  /-- After it, one subscription with the client's own ID, to the task that was found. -/
  once : ∀ name, l.lookedUp = some name →
    l.sent = [] ∧ l.pc = .subscribe (getId name) ∨
      l.sent = [(getId name, subMsg newBar taskID)]
  /-- What is looked up is the name that the first call of `receive` has handled. -/
  named : ∀ m, l.first = some (.text m) → ∀ name, l.lookedUp = some name → name = m.msg
  first : ∀ msg, l.first = some msg → l.received.head? = some msg

/-- A client's subscription is proper for the station. -/
theorem subMsg_spec (newBar : BarMsg) (taskID : UInt32) :
    (subMsg newBar taskID).WellFormed ∧ (subMsg newBar taskID).msgSize.toInt = 72 ∧
      ProperPost (subMsg newBar taskID) := by
  refine ⟨(BarMsg.Built.setValue (.create newBar _) _).wellFormed, rfl, ?_, ?_⟩
  · intro htag
    exact absurd htag (by decide : subMsgTag ≠ weatherStationNameMsgTag)
  · intro htag
    exact absurd htag (by decide : subMsgTag ≠ postWeatherMsgTag)

/-! ## What a station and its clients send each other -/

/-- **A post of a station** is proper for a client, which prints the station's ID and 31. -/
theorem tempMsg_reported (newIntArray : IntArrayMsg) (l : StationLocal) :
    ProperPost (l.tempMsg newIntArray) ∧ report? (l.tempMsg newIntArray) =
      some ((WeatherStationTask.taskID l.this).toInt32, 31) := by
  refine ⟨⟨?_, fun _ => ⟨_, rfl, Nat.le_refl 2⟩⟩, rfl⟩
  intro htag
  exact absurd htag (by decide : postWeatherMsgTag ≠ weatherStationNameMsgTag)

/-- **The subscription of a client** is proper for a station, if the client is in the table. -/
theorem subMsg_proper (newBar : BarMsg) {taskID : UInt32}
    (hvalid : ValidTarget taskID.toInt32.toInt) : Proper (subMsg newBar taskID) := by
  refine ⟨?_, fun _ => ⟨_, rfl, hvalid⟩⟩
  intro htag
  exact absurd htag (by decide : subMsgTag ≠ weatherStationNameMsgTag)

/-! ## The handlers -/

section Handlers

variable {msg : AnyMsg} {received : List AnyMsg}

theorem reports_append (received : List AnyMsg) (msg : AnyMsg) :
    reports (received ++ [msg]) = reports received ++ (report? msg).toList := by
  rw [reports, List.filterMap_append, reports]
  congr 1

/-- What is stored at `station_name` is found there. -/
theorem stationName_handleName (this : Mem) {m : TextMsg} (hfits : m.msg.length < maxNameSize)
    (hchars : ∀ c ∈ m.msg, c ≠ 0) :
    WeatherClientTask.stationName (WeatherClientTask.handleWeatherStationNameMsg this m) =
      m.msg := by
  have hheld : (WeatherClientTask.handleWeatherStationNameMsg this m).Holds 0 (.cstr 16 m.msg) :=
    Mem.holds_applyStores this (List.pairwise_singleton _ _) (List.mem_singleton_self _)
  unfold maxNameSize at hfits
  exact hheld.loadCStr hchars (by omega)

/-- **Proper messages have their handlers**: a name becomes the client's, a post is printed. -/
theorem exists_clientHandle (l : WeatherClientLocal) (hproper : ProperPost msg)
    (hswitch : weatherClientSwitch msg.tag = .handle) :
    ∃ this post, l.handle msg.tag msg = some { l with this, printed := l.printed ++ post } ∧
      WeatherClientTask.taskID this = WeatherClientTask.taskID l.this ∧
      post = (report? msg).toList ∧
      ∀ m, msg = .text m → WeatherClientTask.stationName this = m.msg := by
  unfold weatherClientSwitch at hswitch
  -- the tags with a handler are those of a name and of a post
  split_ifs at hswitch with hname hsub hpost
  · obtain ⟨m, rfl, hfits, hchars⟩ := hproper.name hname
    refine ⟨WeatherClientTask.handleWeatherStationNameMsg l.this m, [], ?_, ?_, rfl, ?_⟩
    · simp only [WeatherClientLocal.handle, hname, if_true, List.append_nil]
    · exact l.this.loadUInt_store_of_apart (.inl (by simp))
    · intro m' hm
      obtain rfl := AnyMsg.text.inj hm
      exact stationName_handleName l.this hfits hchars
  · obtain ⟨m, rfl, htwo⟩ := hproper.post hpost
    have htag : m.tag = postWeatherMsgTag := hpost
    have hprints : ∃ post, WeatherClientLocal.handlePostWeatherMsg m = some post := by
      unfold WeatherClientLocal.handlePostWeatherMsg
      cases hvalues : m.values with
      | nil =>
        rw [hvalues] at htwo
        exact absurd htwo (by decide)
      | cons id values =>
        cases values with
        | nil =>
          rw [hvalues] at htwo
          exact absurd htwo (by decide : ¬2 ≤ 1)
        | cons weather values => exact ⟨_, rfl⟩
    obtain ⟨post, hprints⟩ := hprints
    refine ⟨l.this, [post], ?_, rfl, ?_, ?_⟩
    · simp only [WeatherClientLocal.handle, hpost, if_true, hprints, Option.map_some]
    · simp only [report?, htag, if_true, hprints, Option.toList_some]
    · intro m' hm
      cases hm

end Handlers

/-! ## What holds at each point of `start` -/

section Listening

variable {P : Process} {newBar : BarMsg} {getId : List UInt8 → Int32} {taskID : UInt32}
  {s s' : Station (Option WeatherClientLocal)} {l l' : WeatherClientLocal}

/-- The name is the one that the first call of `receive` has handled, if it was one. -/
def NamedBy (l : WeatherClientLocal) (name : List UInt8) : Prop :=
  ∀ m, l.first = some (.text m) → name = m.msg

/-- What holds of the queue and of what has been sent when the client stands at `pc`. -/
def ListeningAt (P : Process) (newBar : BarMsg) (getId : List UInt8 → Int32) (taskID : UInt32)
    (s : Station (Option WeatherClientLocal)) (l : WeatherClientLocal) : WeatherClientPc → Prop
  | .receive true point => s.ReceivesAt P weatherClientSwitch l.received point ∧
      l.received = [] ∧ l.first = none ∧ l.lookedUp = none ∧ l.sent = []
  | .receive false point => s.ReceivesAt P weatherClientSwitch l.received point ∧
      ∃ name, l.lookedUp = some name ∧ l.sent = [(getId name, subMsg newBar taskID)] ∧
        NamedBy l name
  | .lookUp => s.ReceivesAt P weatherClientSwitch l.received .poll ∧
      l.lookedUp = none ∧ l.sent = [] ∧ NamedBy l (WeatherClientTask.stationName l.this)
  | .subscribe station => s.ReceivesAt P weatherClientSwitch l.received .poll ∧
      l.sent = [] ∧ ∃ name, l.lookedUp = some name ∧ station = getId name ∧ NamedBy l name

/-- The client is running, and has printed the posts it has handled. -/
structure Listening (P : Process) (newBar : BarMsg) (getId : List UInt8 → Int32)
    (taskID : UInt32) (s : Station (Option WeatherClientLocal)) (l : WeatherClientLocal) :
    Prop where
  loc_eq : s.loc = some l
  proper : ∀ msg ∈ s.accepted, ProperPost msg
  taskID_eq : WeatherClientTask.taskID l.this = taskID
  printed : l.printed = reports l.received
  first : ∀ msg, l.first = some msg → l.received.head? = some msg
  point : ListeningAt P newBar getId taskID s l l.pc

theorem Listening.start (newRec : Mem) (taskID : UInt32) (mem : Mem) :
    Listening P newBar getId taskID ⟨some (.start newRec taskID), .create mem, [], 0⟩
      (.start newRec taskID) where
  loc_eq := rfl
  proper _ hmsg := absurd hmsg List.not_mem_nil
  taskID_eq := by
    have hstores : [Store.uint 8 taskID, .int 12 0].Pairwise Store.Disjoint := by
      simp [Store.Disjoint]
    have hheld : (WeatherClientTask.create newRec taskID).Holds 0 (.uint 8 taskID) :=
      Mem.holds_applyStores newRec hstores (by simp)
    exact hheld.loadUInt
  printed := rfl
  first _ hmsg := absurd hmsg (Option.not_mem_none _)
  point := ⟨⟨Station.tracks_create _ mem, rfl⟩, rfl, rfl, rfl, rfl⟩

/-- **A message that comes in** changes nothing of what holds. -/
theorem Listening.deliver (h : Listening P newBar getId taskID s l) {base : UInt64}
    {msg : ValidMsg} (hproper : ProperPost msg.1) (hsafe : SafeSend s.mb msg.size) :
    Listening P newBar getId taskID (s.deliver base msg.1).1 l where
  loc_eq := h.loc_eq
  proper := by
    intro m hm
    rcases Station.mem_deliver hm with hold | rfl
    · exact h.proper m hold
    · exact hproper
  taskID_eq := h.taskID_eq
  printed := h.printed
  first := h.first
  point := by
    have hpoint := h.point
    cases hpc : l.pc with
    | receive first point =>
      rw [hpc] at hpoint
      cases first <;> exact ⟨hpoint.1.deliver base msg hsafe, hpoint.2⟩
    | lookUp | subscribe station =>
      rw [hpc] at hpoint
      exact ⟨hpoint.1.deliver base msg hsafe, hpoint.2⟩

/-! ### The moves of the client -/

/-- **A step of `receive`**, of the first call or of one in the loop. -/
theorem Listening.receive (h : Listening P newBar getId taskID s l) {first : Bool}
    {point : ReceivePoint} (hpc : l.pc = .receive first point) {sent : Bool}
    (hs : s.perform P taskID.toNat sent (weatherClientMove newBar getId l) = some s') :
    ∃ l', Listening P newBar getId taskID s' l' := by
  have hpoint := h.point
  rw [hpc] at hpoint
  simp only [weatherClientMove, hpc] at hs
  cases first with
  | true =>
    -- nothing has been handled before this call
    obtain ⟨hreceives, hnothing, hfirst, hlookedUp, hsent⟩ := hpoint
    obtain ⟨hstep, haccepted⟩ := hreceives.step hs
    have hproper : ∀ msg ∈ s'.accepted, ProperPost msg := by rw [haccepted]; exact h.proper
    cases hstep with
    | inside point' hloc hreceives' =>
      exact ⟨{ l with pc := .receive true point' }, hloc, hproper, h.taskID_eq, h.printed, h.first,
        hreceives', hnothing, hfirst, hlookedUp, hsent⟩
    | back hloc hreceives' =>
      -- the tag had no handler, so `station_name` is what `malloc` left there
      refine ⟨{ l with pc := .lookUp }, hloc, hproper, h.taskID_eq, h.printed, h.first,
        hreceives', hlookedUp, hsent, ?_⟩
      intro m hm
      rw [show l.first = some (.text m) from hm] at hfirst
      cases hfirst
    | handled msg hloc hswitch hreceives' =>
      have hmsg : ProperPost msg := Station.of_handledBy hproper hreceives'.2 msg (by simp)
      obtain ⟨this', post, hhandle, htaskID, rfl, hname⟩ := exists_clientHandle l hmsg hswitch
      rw [WeatherClientLocal.handled, hhandle, Option.map_some] at hloc
      refine ⟨_, hloc, hproper, htaskID.trans h.taskID_eq, ?_, ?_, hreceives', hlookedUp, hsent, ?_⟩
      · rw [reports_append, h.printed]
      · intro msg' hmsg'
        rw [hnothing]
        exact hmsg'
      · -- a name stands in `station_name` now, where the lookup reads it
        intro m hm
        exact hname m (Option.some.inj hm)
  | false =>
    -- in the loop a name may be stored again, but the lookup is over
    obtain ⟨hreceives, name, hlookedUp, hsent, hnamed⟩ := hpoint
    obtain ⟨hstep, haccepted⟩ := hreceives.step hs
    have hproper : ∀ msg ∈ s'.accepted, ProperPost msg := by rw [haccepted]; exact h.proper
    cases hstep with
    | inside point' hloc hreceives' =>
      exact ⟨{ l with pc := .receive false point' }, hloc, hproper, h.taskID_eq, h.printed, h.first,
        hreceives', name, hlookedUp, hsent, hnamed⟩
    | back hloc hreceives' =>
      exact ⟨{ l with pc := .receive false .poll }, hloc, hproper, h.taskID_eq, h.printed, h.first,
        hreceives', name, hlookedUp, hsent, hnamed⟩
    | handled msg hloc hswitch hreceives' =>
      have hmsg : ProperPost msg := Station.of_handledBy hproper hreceives'.2 msg (by simp)
      obtain ⟨this', post, hhandle, htaskID, rfl, -⟩ := exists_clientHandle l hmsg hswitch
      rw [WeatherClientLocal.handled, hhandle, Option.map_some] at hloc
      refine ⟨_, hloc, hproper, htaskID.trans h.taskID_eq, ?_, ?_, hreceives', name, hlookedUp,
        hsent, hnamed⟩
      · rw [reports_append, h.printed]
      · intro msg' hmsg'
        -- the first message handled stays the first
        rw [List.head?_append, h.first msg' hmsg']
        rfl

/-- The client when it has sent its subscription. -/
def WeatherClientLocal.subscribedTo (l : WeatherClientLocal) (newBar : BarMsg) (station : Int32) :
    WeatherClientLocal :=
  { l with
    pc := .receive false .poll
    sent := l.sent ++ [(station, subMsg newBar (WeatherClientTask.taskID l.this))] }

/-- **The subscription** goes to the station that was looked up, and only once. -/
theorem Listening.subscribe (h : Listening P newBar getId taskID s l) {station : Int32}
    (hpc : l.pc = .subscribe station) {sent : Bool}
    (hs : s.perform P taskID.toNat sent (weatherClientMove newBar getId l) = some s') :
    ∃ l', Listening P newBar getId taskID s' l' := by
  have hpoint := h.point
  rw [hpc] at hpoint
  obtain ⟨hreceives, hsent, name, hlookedUp, rfl, hnamed⟩ := hpoint
  simp only [weatherClientMove, hpc] at hs
  split at hs
  -- an ID outside the task table: no step is defined
  case isFalse => cases hs
  case isTrue hvalid =>
    have hgo : ∀ t : Station (Option WeatherClientLocal), Listening P newBar getId taskID t l →
        t.ReceivesAt P weatherClientSwitch l.received .poll →
        Listening P newBar getId taskID (t.goto (some (l.subscribedTo newBar (getId name))))
          (l.subscribedTo newBar (getId name)) := by
      intro t ht htreceives
      refine ⟨rfl, ht.proper, ht.taskID_eq, ht.printed, ht.first, ⟨htreceives.1.goto _,
        htreceives.2⟩, name, hlookedUp, ?_, hnamed⟩
      show l.sent ++ _ = _
      rw [hsent, ht.taskID_eq, List.nil_append]
    simp only [Station.perform] at hs
    split at hs
    · -- the lookup has found the client itself
      obtain rfl := Option.some.inj hs
      obtain ⟨hwellFormed, hsize, hproper⟩ := subMsg_spec newBar (WeatherClientTask.taskID l.this)
      have hsafe : SafeSend s.mb
          (subMsg newBar (WeatherClientTask.taskID l.this)).msgSize.toInt := by
        rw [hsize]
        exact hreceives.1.safeSend (by decide)
      let own : ValidMsg := ⟨_, hwellFormed⟩
      have hown : Listening P newBar getId taskID (s.deliver P.base own.1).1 l :=
        h.deliver hproper hsafe
      exact ⟨l.subscribedTo newBar (getId name), hgo _ hown (hreceives.deliver P.base own hsafe)⟩
    -- the subscription goes to another queue, or nowhere; `send` is not looked at
    · obtain rfl := Option.some.inj hs
      exact ⟨l.subscribedTo newBar (getId name), hgo s h hreceives⟩

/-- **Step**: what holds at each point is kept by the client and by those who send to it. -/
theorem Listening.step (h : Listening P newBar getId taskID s l) {e : StationEvent} {newRec : Mem}
    (hproper : ProperPostArrival s e)
    (hs : (weatherClient P newBar getId newRec taskID).step s e = some s') :
    ∃ l', Listening P newBar getId taskID s' l' := by
  cases e with
  | arrive base msg =>
    obtain rfl := Option.some.inj hs
    exact ⟨l, h.deliver (hproper.2 base msg rfl) hproper.1⟩
  | own sent =>
    have hs' : s.perform P taskID.toNat sent (weatherClientCode newBar getId s.loc) = some s' := hs
    rw [h.loc_eq] at hs'
    have hpoint := h.point
    cases hpc : l.pc with
    | receive first point => exact h.receive hpc hs'
    | subscribe station => exact h.subscribe hpc hs'
    | lookUp =>
      -- what is looked up is what `station_name` holds now
      rw [hpc] at hpoint
      obtain ⟨hreceives, hlookedUp, hsent, hnamed⟩ := hpoint
      simp only [weatherClientCode, weatherClientMove, hpc] at hs'
      obtain rfl := Option.some.inj hs'
      exact ⟨_, rfl, h.proper, h.taskID_eq, h.printed, h.first, ⟨hreceives.1.goto _, hreceives.2⟩,
        hsent, _, rfl, rfl, hnamed⟩

/-- In each of these states the client listens. -/
theorem Listening.listens (h : Listening P newBar getId taskID s l) :
    Listens newBar getId taskID s l := by
  have hpoint := h.point
  cases hpc : l.pc with
  | receive first point =>
    rw [hpc] at hpoint
    have hreceives : s.ReceivesAt P weatherClientSwitch l.received point := by
      cases first <;> exact hpoint.1
    have hreceived : (∀ first tag, l.pc ≠ .receive first (.clone tag)) →
        l.received = s.handledBy weatherClientSwitch := by
      intro hnot
      cases point with
      | poll => exact hreceives.2.symm
      | receive tag | drop => exact hreceives.2.1.symm
      | clone tag => exact absurd hpc (hnot first tag)
    -- before the first message nothing has been looked up
    cases first with
    | true =>
      obtain ⟨-, -, hfirst, hlookedUp, hsent⟩ := hpoint
      refine ⟨hreceived, h.printed, fun _ => hsent, ?_, ?_, h.first⟩
      · intro name hname
        rw [hlookedUp] at hname
        cases hname
      · intro m _ name hname
        rw [hlookedUp] at hname
        cases hname
    | false =>
      obtain ⟨-, name, hlookedUp, hsent, hnamed⟩ := hpoint
      refine ⟨hreceived, h.printed, ?_, ?_, ?_, h.first⟩
      · intro hnone
        rw [hlookedUp] at hnone
        cases hnone
      · intro name' hname'
        obtain rfl := Option.some.inj (hlookedUp.symm.trans hname')
        exact .inr hsent
      · intro m hm name' hname'
        obtain rfl := Option.some.inj (hlookedUp.symm.trans hname')
        exact hnamed m hm
  | lookUp =>
    rw [hpc] at hpoint
    obtain ⟨hreceives, hlookedUp, hsent, -⟩ := hpoint
    refine ⟨fun _ => hreceives.2.symm, h.printed, fun _ => hsent, ?_, ?_, h.first⟩
    · intro name hname
      rw [hlookedUp] at hname
      cases hname
    · intro m _ name hname
      rw [hlookedUp] at hname
      cases hname
  | subscribe station =>
    rw [hpc] at hpoint
    obtain ⟨hreceives, hsent, name, hlookedUp, rfl, hnamed⟩ := hpoint
    refine ⟨fun _ => hreceives.2.symm, h.printed, fun _ => hsent, ?_, ?_, h.first⟩
    · intro name' hname'
      obtain rfl := Option.some.inj (hlookedUp.symm.trans hname')
      exact .inl ⟨hsent, hpc⟩
    · intro m hm name' hname'
      obtain rfl := Option.some.inj (hlookedUp.symm.trans hname')
      exact hnamed m hm

/-- **A move of the client is defined** wherever it stands, but for a send out of the table. -/
theorem Listening.goesOn_iff (h : Listening P newBar getId taskID s l) (sent : Bool) :
    (∃ s', s.perform P taskID.toNat sent (weatherClientMove newBar getId l) = some s') ↔
      ∀ station, l.pc = .subscribe station → ValidTarget station.toInt := by
  have hpoint := h.point
  cases hpc : l.pc with
  | receive first point =>
    rw [hpc] at hpoint
    have hreceives : s.ReceivesAt P weatherClientSwitch l.received point := by
      cases first <;> exact hpoint.1
    simp only [weatherClientMove, hpc]
    exact iff_of_true hreceives.goesOn (fun _ heq => WeatherClientPc.noConfusion heq)
  | lookUp =>
    simp only [weatherClientMove, hpc]
    exact iff_of_true ⟨_, rfl⟩ (fun _ heq => WeatherClientPc.noConfusion heq)
  | subscribe station =>
    simp only [weatherClientMove, hpc]
    constructor
    · rintro ⟨s', hs'⟩ station' heq
      obtain rfl := WeatherClientPc.subscribe.inj heq
      split at hs'
      case isTrue hvalid => exact hvalid
      -- `send` indexes the task table with it
      case isFalse => cases hs'
    · intro hvalid
      have hvalid' : 0 ≤ station.toInt ∧ station.toInt < maxTask := hvalid station rfl
      rw [if_pos hvalid']
      simp only [Station.perform]
      split <;> exact ⟨_, rfl⟩

end Listening

/-! ## All runs of a client -/

section ClientRuns

variable {s : Station (Option WeatherClientLocal)}

theorem reachable_listening (P : Process) (newBar : BarMsg) (getId : List UInt8 → Int32)
    (newRec : Mem) (taskID : UInt32)
    (h : (weatherClient P newBar getId newRec taskID).ReachableWhen ProperPostArrival s) :
    ∃ l, Listening P newBar getId taskID s l := by
  refine ReachableWhen.invariant (P := fun s => ∃ l, Listening P newBar getId taskID s l) ?_ ?_ h
  · rintro _ ⟨mem, rfl⟩
    exact ⟨_, Listening.start newRec taskID mem⟩
  · rintro s e s' ⟨l, hl⟩ hproper hs
    exact hl.step hproper hs

/-- **A client subscribes once and prints every post it gets**, in every run and whatever comes in
    meanwhile: the subscription carries its own ID and goes to the task that the lookup of the
    name it was given has found. -/
theorem weather_client_listens (P : Process) (newBar : BarMsg) (getId : List UInt8 → Int32)
    (newRec : Mem) (taskID : UInt32)
    (h : (weatherClient P newBar getId newRec taskID).ReachableWhen ProperPostArrival s) :
    ∃ l, s.loc = some l ∧ Listens newBar getId taskID s l := by
  obtain ⟨l, hl⟩ := reachable_listening P newBar getId newRec taskID h
  exact ⟨l, hl.loc_eq, hl.listens⟩

/-- A new client with a new queue. -/
def newClient : Station (Option WeatherClientLocal) :=
  ⟨some (.start (fun _ => 0) 5), .create fun _ => 0, [], 0⟩

/-- A post as `IntArrayMsg_create` and `setValues` leave it. -/
def post : ValidMsg :=
  ⟨.intArray ((IntArrayMsg.create ⟨0, 0, 0, 0, []⟩ postWeatherMsgTag).setValues [1, 20]),
    setValues_wellFormed rfl (Int.le_of_sub_nonneg (by decide : (0 : Int) ≤ intMax - (88 + 2 * 4)))⟩

/-- The system of a client whose lookup returns `station`. -/
def oneClient (station : Int32) : System (Station (Option WeatherClientLocal)) StationEvent :=
  weatherClient ⟨4096, .packed⟩ ⟨0, 0, 0, 0⟩ (fun _ => station) (fun _ => 0) 5

/-- The client gets the name of a station, and looks it up. -/
def namedRun : List StationEvent :=
  [.arrive 8192 stationName] ++ List.replicate 4 (.own true)

/-- It subscribes, and gets a post. -/
def postedRun : List StationEvent :=
  namedRun ++ [.own true] ++ [.arrive 8192 post] ++ List.replicate 3 (.own true)

/-- What comes in in these runs is proper. -/
theorem postedRun_proper : ∀ e ∈ postedRun, ∀ base msg, e = .arrive base msg → ProperPost msg.1 := by
  intro e he base msg heq
  subst heq
  simp only [postedRun, namedRun, List.mem_append, List.mem_singleton, List.mem_replicate,
    reduceCtorEq, and_false, or_false, StationEvent.arrive.injEq] at he
  rcases he with ⟨-, rfl⟩ | ⟨-, rfl⟩
  · exact ⟨fun _ => ⟨_, rfl, by decide, by decide +kernel⟩, fun htag => absurd htag (by decide)⟩
  · exact ⟨fun htag => absurd htag (by decide), fun _ => ⟨_, rfl, by decide⟩⟩

/-- It has subscribed to task 1, and printed the weather there. -/
theorem weather_client_listens_post :
    ∃ s l, (oneClient 1).runFrom newClient postedRun = some s ∧ s.loc = some l ∧
      l.sent.map Prod.fst = [1] ∧ l.printed = [(1, 20)] ∧
      Listens ⟨0, 0, 0, 0⟩ (fun _ => 1) 5 s l := by
  have hprinted : ((oneClient 1).runFrom newClient postedRun).map
      (fun s => s.loc.map fun l => (l.sent.map Prod.fst, l.printed)) =
        some (some ([1], [(1, 20)])) := by
    decide +kernel
  obtain ⟨s, hrun, hloc⟩ := Option.map_eq_some_iff.mp hprinted
  have hsafe : (oneClient 1).Along SafeArrival newClient postedRun := by decide +kernel
  obtain ⟨l, hl, hlistens⟩ := weather_client_listens ⟨4096, .packed⟩ ⟨0, 0, 0, 0⟩ (fun _ => 1)
    (fun _ => 0) 5
    ((hsafe.and_of_forall postedRun_proper).reachableWhen (.init ⟨fun _ => 0, rfl⟩) hrun)
  rw [hl] at hloc
  obtain ⟨hsent, hposts⟩ := Prod.mk.inj (Option.some.inj hloc)
  exact ⟨s, l, hrun, hl, hsent, hposts, hlistens⟩

/-- **Only a failed lookup stops a client**: its next move is defined unless it is about to send
    to an ID outside the task table. -/
theorem weather_client_goesOn_iff (P : Process) (newBar : BarMsg) (getId : List UInt8 → Int32)
    (newRec : Mem) (taskID : UInt32)
    (h : (weatherClient P newBar getId newRec taskID).ReachableWhen ProperPostArrival s)
    (sent : Bool) :
    ∃ l, s.loc = some l ∧
      ((∃ s', (weatherClient P newBar getId newRec taskID).step s (.own sent) = some s') ↔
        ∀ station, l.pc = .subscribe station → ValidTarget station.toInt) := by
  obtain ⟨l, hl⟩ := reachable_listening P newBar getId newRec taskID h
  refine ⟨l, hl.loc_eq, ?_⟩
  rw [← hl.goesOn_iff sent]
  show (∃ s', s.perform P taskID.toNat sent (weatherClientCode newBar getId s.loc) = some s') ↔ _
  rw [hl.loc_eq]
  exact Iff.rfl

/-- A client that has looked up a name sends its subscription if an ID of the table has been
    found, and cannot if the lookup has returned -1. -/
theorem weather_client_goesOn_iff_named :
    (∃ s, (oneClient 1).runFrom newClient namedRun = some s ∧
      ∃ s', (oneClient 1).step s (.own true) = some s') ∧
    ∃ s, (oneClient (-1)).runFrom newClient namedRun = some s ∧
      ¬∃ s', (oneClient (-1)).step s (.own true) = some s' := by
  have hproper : ∀ e ∈ namedRun, ∀ base msg, e = .arrive base msg → ProperPost msg.1 := by
    intro e he
    exact postedRun_proper e (List.mem_append_left _ (List.mem_append_left _
      (List.mem_append_left _ he)))
  constructor
  · have hpc : ((oneClient 1).runFrom newClient namedRun).map
        (fun s => s.loc.map WeatherClientLocal.pc) = some (some (.subscribe 1)) := by
      decide +kernel
    have hsafe : (oneClient 1).Along SafeArrival newClient namedRun := by decide +kernel
    obtain ⟨s, hrun, hloc⟩ := Option.map_eq_some_iff.mp hpc
    obtain ⟨l, hl, hiff⟩ := weather_client_goesOn_iff ⟨4096, .packed⟩ ⟨0, 0, 0, 0⟩ (fun _ => 1)
      (fun _ => 0) 5
      ((hsafe.and_of_forall hproper).reachableWhen (.init ⟨fun _ => 0, rfl⟩) hrun) true
    refine ⟨s, hrun, hiff.mpr ?_⟩
    rw [hl, Option.map_some] at hloc
    intro station hstation
    obtain rfl := WeatherClientPc.subscribe.inj ((Option.some.inj hloc).symm.trans hstation)
    decide
  · have hpc : ((oneClient (-1)).runFrom newClient namedRun).map
        (fun s => s.loc.map WeatherClientLocal.pc) = some (some (.subscribe (-1))) := by
      decide +kernel
    have hsafe : (oneClient (-1)).Along SafeArrival newClient namedRun := by decide +kernel
    obtain ⟨s, hrun, hloc⟩ := Option.map_eq_some_iff.mp hpc
    obtain ⟨l, hl, hiff⟩ := weather_client_goesOn_iff ⟨4096, .packed⟩ ⟨0, 0, 0, 0⟩ (fun _ => -1)
      (fun _ => 0) 5
      ((hsafe.and_of_forall hproper).reachableWhen (.init ⟨fun _ => 0, rfl⟩) hrun) true
    refine ⟨s, hrun, fun hgoes => ?_⟩
    rw [hl, Option.map_some] at hloc
    exact absurd (hiff.mp hgoes (-1) (Option.some.inj hloc)) (by decide)

end ClientRuns

end WeatherTask

end TaskSystem
