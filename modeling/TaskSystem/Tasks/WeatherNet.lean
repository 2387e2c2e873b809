import TaskSystem.Tasks.WeatherClient

/-!
# Stations and Clients Together

Any number of weather stations and weather clients, each with its queue, that move one after
another in any order; `main` of `wt_start_test.c` and `wt_client_test.c` sends them the names.
What is assumed of the messages that come in at a single task holds of all that the tasks send,
so the two programs can be put together from what is known of each.

## Contents

- `WeatherSetUp`, `WeatherNet`, `WeatherNet.step`, `weatherSystem`: the tasks and their moves
- `SafeSending`: no sender writes into a slot that is being cloned
- `weatherMove_cases`, `weatherClientMove_cases`: which moves send
- `step_of_outgoing`, `act_station`, `act_client`: the step function
- `Running`: each task stands at one of the points of its program
- `Effect`, `Running.step`: what one step does to the queues, the posts and the subscriptions
-/

namespace TaskSystem

open Library Library.System Repository

namespace WeatherTask

/-! ## The tasks and their moves -/

/-- The type of a task. -/
inductive WeatherRole where
  | station
  | client
  deriving DecidableEq

/-- The tasks that have been created. -/
structure WeatherSetUp where
  role : UInt32 → Option WeatherRole
  /-- The process a task runs in -/
  process : UInt32 → Process
  /-- The blocks that `malloc` returns -/
  newRec : UInt32 → Mem
  newText : TextMsg
  newBar : BarMsg
  newIntArray : IntArrayMsg
  /-- What the lookup of a client returns -/
  getId : UInt32 → List UInt8 → Int32
  /-- IDs are indices of the `TaskTable`. -/
  inTable : ∀ id, role id ≠ none → id.toNat < maxTask

/-- All tasks; of the two entries of an ID, that of its role counts. -/
structure WeatherNet where
  station : UInt32 → Station (Option StationLocal)
  client : UInt32 → Station (Option WeatherClientLocal)

/-- What happens next. -/
inductive WeatherEvent where
  /-- A task makes its next move. -/
  | own (id : UInt32)
  /-- `main` of a process that maps the queue at `base` sends a task the name of a station. -/
  | name (id : UInt32) (base : UInt64) (text : List UInt8)

/-- `station_name_msg` -/
def WeatherSetUp.nameMsg (w : WeatherSetUp) (text : List UInt8) : AnyMsg :=
  .text ((TextMsg.create w.newText weatherStationNameMsgTag).setMsg text)

/-- The tasks that are there have indices of the table. -/
theorem WeatherSetUp.lt_maxTask (w : WeatherSetUp) {id : UInt32} {role : WeatherRole}
    (h : w.role id = some role) : id.toNat < maxTask := by
  apply w.inTable
  rw [h]
  exact Option.some_ne_none role

/-- The task that is sent to under an index of the `TaskTable` -/
def taskAt (target : Int32) : UInt32 := UInt32.ofNat target.toInt.toNat

/-- What a move of task `self` sends to another task. -/
def outgoing? {L : Type*} (self : Nat) : Move AnyMsg Int32 L → Option (UInt32 × AnyMsg)
  | .send target msg _ => if target = self then none else some (UInt32.ofNat target, msg)
  | _ => none

namespace WeatherNet

def setStation (σ : WeatherNet) (id : UInt32) (s : Station (Option StationLocal)) : WeatherNet :=
  { σ with station := Function.update σ.station id s }

def setClient (σ : WeatherNet) (id : UInt32) (s : Station (Option WeatherClientLocal)) :
    WeatherNet :=
  { σ with client := Function.update σ.client id s }

/-- `send` to the task with this index of the table, and whether it has returned 1. -/
def deliver (w : WeatherSetUp) (σ : WeatherNet) (id : UInt32) (base : UInt64) (msg : AnyMsg) :
    WeatherNet × Bool :=
  match w.role id with
  | some .station =>
    let r := (σ.station id).deliver base msg
    (σ.setStation id r.1, r.2)
  | some .client =>
    let r := (σ.client id).deliver base msg
    (σ.setClient id r.1, r.2)
  -- `AcquireQueue` has found no queue, and `Enqueue` returns 0 for NULL
  | none => (σ, false)

def stationMove (w : WeatherSetUp) (σ : WeatherNet) (id : UInt32) :
    Move AnyMsg Int32 (Option StationLocal) :=
  weatherCode w.newIntArray (messageThere (σ.station id).mb) (σ.station id).loc

def clientMove (w : WeatherSetUp) (σ : WeatherNet) (id : UInt32) :
    Move AnyMsg Int32 (Option WeatherClientLocal) :=
  weatherClientCode w.newBar (w.getId id) (σ.client id).loc

/-- The message that an event puts in the queue of another task. -/
def outgoing (w : WeatherSetUp) (σ : WeatherNet) : WeatherEvent → Option (UInt32 × AnyMsg)
  | .own id =>
    match w.role id with
    | some .station => outgoing? id.toNat (σ.stationMove w id)
    | some .client => outgoing? id.toNat (σ.clientMove w id)
    | none => none
  | .name id _ text => some (id, w.nameMsg text)

/-- Where the sender maps the queue -/
def baseOf (w : WeatherSetUp) : WeatherEvent → UInt64
  | .own id => (w.process id).base
  | .name _ base _ => base

/-- The task goes on, when a `send` to another task has returned `sent`. -/
def act (w : WeatherSetUp) (σ : WeatherNet) (sent : Bool) : WeatherEvent → Option WeatherNet
  | .own id =>
    match w.role id with
    | some .station =>
      ((σ.station id).perform (w.process id) id.toNat sent (σ.stationMove w id)).map
        (σ.setStation id)
    | some .client =>
      ((σ.client id).perform (w.process id) id.toNat sent (σ.clientMove w id)).map
        (σ.setClient id)
    | none => none
  | .name .. => some σ

def step (w : WeatherSetUp) (σ : WeatherNet) (e : WeatherEvent) : Option WeatherNet :=
  match σ.outgoing w e with
  | none => σ.act w false e
  | some (target, msg) =>
    let r := σ.deliver w target (baseOf w e) msg
    r.1.act w r.2 e

/-- The queue of a task -/
def mailbox (w : WeatherSetUp) (σ : WeatherNet) (id : UInt32) : Mailbox :=
  if w.role id = some .station then (σ.station id).mb else (σ.client id).mb

/-- The messages that the queue of a task has accepted -/
def accepted (w : WeatherSetUp) (σ : WeatherNet) (id : UInt32) : List AnyMsg :=
  if w.role id = some .station then (σ.station id).accepted else (σ.client id).accepted

/-- What a station has posted, and to whom -/
def posted (σ : WeatherNet) (id : UInt32) : List (Int32 × List Int32) :=
  (σ.station id).loc.elim [] StationLocal.posted

/-- What a client has sent, and to whom -/
def sent (σ : WeatherNet) (id : UInt32) : List (Int32 × AnyMsg) :=
  (σ.client id).loc.elim [] WeatherClientLocal.sent

/-- The name that a client has looked up -/
def lookedUp (σ : WeatherNet) (id : UInt32) : Option (List UInt8) :=
  (σ.client id).loc.bind WeatherClientLocal.lookedUp

/-- What a client has printed -/
def printed (σ : WeatherNet) (id : UInt32) : List (Int32 × Int32) :=
  (σ.client id).loc.elim [] WeatherClientLocal.printed

end WeatherNet

/-- The weather system. -/
def weatherSystem (w : WeatherSetUp) : System WeatherNet WeatherEvent where
  init σ := ∃ mem : UInt32 → Mem, σ =
    { station := fun id => ⟨some (.start (w.newRec id) id), .create (mem id), [], 0⟩
      client := fun id => ⟨some (.start (w.newRec id) id), .create (mem id), [], 0⟩ }
  step := WeatherNet.step w

/-- Nobody sends into a slot that is being cloned, and the names that `main` sends fit. -/
def SafeSending (w : WeatherSetUp) (σ : WeatherNet) (e : WeatherEvent) : Prop :=
  (∀ target msg, σ.outgoing w e = some (target, msg) → w.role target ≠ none →
    SafeSend (σ.mailbox w target) msg.msgSize.toInt) ∧
  ∀ id base text, e = .name id base text → text.length < maxNameSize

instance (w : WeatherSetUp) (σ : WeatherNet) : ∀ e, Decidable (SafeSending w σ e)
  | .own id =>
    decidable_of_iff (∀ out ∈ σ.outgoing w (.own id), w.role out.1 ≠ none →
        SafeSend (σ.mailbox w out.1) out.2.msgSize.toInt)
      ⟨fun h => ⟨fun target msg hout => h (target, msg) hout, fun _ _ _ h => by cases h⟩,
        fun h out hout => h.1 out.1 out.2 hout⟩
  | .name id base text =>
    decidable_of_iff ((w.role id ≠ none →
        SafeSend (σ.mailbox w id) (w.nameMsg text).msgSize.toInt) ∧ text.length < maxNameSize)
      ⟨fun h => ⟨fun _ _ hout => by cases hout; exact h.1, fun _ _ _ heq => by cases heq; exact h.2⟩,
        fun h => ⟨h.1 _ _ rfl, h.2 _ _ _ rfl⟩⟩

/-! ## Which moves send -/

section Moves

variable {L : Type*} {P : Process} {self : Nat} {sent : Bool} {move : Move AnyMsg Int32 L}

/-- A move that sends nothing. -/
def Quiet (move : Move AnyMsg Int32 L) : Prop := ∀ target msg next, move ≠ .send target msg next

theorem Quiet.outgoing?_eq (h : Quiet move) : outgoing? self move = none := by
  cases move with
  | send target msg next => exact absurd rfl (h target msg next)
  | _ => rfl

/-- A task that sends nothing leaves the messages that have come in as they are. -/
theorem Quiet.perform (h : Quiet move) {s s' : Station L}
    (hs : s.perform P self sent move = some s') :
    s'.accepted = s.accepted ∧ move.Leads s'.loc := by
  cases move with
  | compute next | take next | drop next =>
    obtain rfl := Option.some.inj hs
    exact ⟨rfl, rfl⟩
  | peek next =>
    obtain rfl := Option.some.inj hs
    exact ⟨rfl, _, rfl⟩
  | finish next =>
    obtain ⟨msg, -, rfl⟩ := Option.map_eq_some_iff.mp hs
    exact ⟨rfl, msg, rfl⟩
  | send target msg next => exact absurd rfl (h target msg next)
  | create | stop | fault => cases hs

theorem quiet_receiveMove {switch : Int32 → TagCase} {inside : ReceivePoint → L}
    {handled : Int32 → AnyMsg → L} {back : L} {point : ReceivePoint} :
    Quiet (receiveMove switch inside handled back point) := by
  intro target msg next
  cases point <;> nofun

theorem quiet_compute (next : L) : Quiet (.compute next : Move AnyMsg Int32 L) := nofun

theorem quiet_fault : Quiet (.fault : Move AnyMsg Int32 L) := nofun

theorem quiet_stop : Quiet (.stop : Move AnyMsg Int32 L) := nofun

end Moves

/-- **A station sends** its weather to subscriber `i`, and nothing else. -/
theorem weatherMove_cases (newIntArray : IntArrayMsg) (there : Bool) (l : StationLocal) :
    (∃ i : Nat, (i : Int) < (WeatherStationTask.subCount l.this).toInt ∧
      ValidTarget (WeatherStationTask.sub l.this i).toInt ∧
      weatherMove newIntArray there l =
        .send (WeatherStationTask.sub l.this i).toInt.toNat (l.tempMsg newIntArray) fun _ =>
          some { l with
            pc := .broadcast (i + 1)
            posted := l.posted ++ [(WeatherStationTask.sub l.this i, l.vals)] }) ∨
    Quiet (weatherMove newIntArray there l) ∧
      ∀ l', (weatherMove newIntArray there l).Leads (some l') → l'.posted = l.posted := by
  unfold weatherMove
  cases l.pc with
  | receive first point =>
    refine .inr ⟨quiet_receiveMove, ?_⟩
    intro l' hleads
    -- inside the call, behind a handler, or back without one
    rcases receiveMove_leads hleads with ⟨p, hl'⟩ | ⟨tag, msg, hl'⟩ | hl'
    · obtain rfl := Option.some.inj hl'
      rfl
    · obtain ⟨this, -, rfl⟩ := Option.map_eq_some_iff.mp hl'.symm
      rfl
    · obtain rfl := Option.some.inj hl'
      rfl
  | setName =>
    refine .inr ⟨quiet_compute _, ?_⟩
    rintro l' ⟨⟩
    rfl
  | loop =>
    right
    dsimp only
    split
    all_goals
      refine ⟨quiet_compute _, ?_⟩
      rintro l' ⟨⟩
      rfl
  | immediate =>
    refine .inr ⟨quiet_compute _, ?_⟩
    rintro l' ⟨⟩
    rfl
  | count =>
    right
    dsimp only
    split
    all_goals
      refine ⟨quiet_compute _, ?_⟩
      rintro l' ⟨⟩
      rfl
  | broadcast i =>
    dsimp only
    split
    case isTrue hlt =>
      split
      case isTrue hvalid => exact .inl ⟨i, hlt, hvalid, rfl⟩
      -- an ID outside the task table
      case isFalse => exact .inr ⟨quiet_fault, fun l' hleads => hleads.elim⟩
    case isFalse =>
      refine .inr ⟨quiet_compute _, ?_⟩
      rintro l' ⟨⟩
      rfl
  | finished => exact .inr ⟨quiet_stop, fun l' hleads => hleads.elim⟩

/-- A handler sends nothing. -/
theorem sent_handle {l l' : WeatherClientLocal} {tag : Int32} {msg : AnyMsg}
    (h : l.handle tag msg = some l') : l'.sent = l.sent := by
  cases msg with
  | text m =>
    simp only [WeatherClientLocal.handle] at h
    split at h
    · obtain rfl := Option.some.inj h
      rfl
    · cases h
  | intArray m =>
    simp only [WeatherClientLocal.handle] at h
    split at h
    · obtain ⟨post, -, rfl⟩ := Option.map_eq_some_iff.mp h
      rfl
    · cases h
  | _ => cases h

/-- **A client sends** its subscription, and nothing else. -/
theorem weatherClientMove_cases (newBar : BarMsg) (getId : List UInt8 → Int32)
    (l : WeatherClientLocal) :
    (∃ station, l.pc = .subscribe station ∧ ValidTarget station.toInt ∧
      weatherClientMove newBar getId l =
        .send station.toInt.toNat (subMsg newBar (WeatherClientTask.taskID l.this)) fun _ =>
          some { l with
            pc := .receive false .poll
            sent := l.sent ++
              [(station, subMsg newBar (WeatherClientTask.taskID l.this))] }) ∨
    Quiet (weatherClientMove newBar getId l) ∧
      ∀ l', (weatherClientMove newBar getId l).Leads (some l') → l'.sent = l.sent := by
  unfold weatherClientMove
  cases hpc : l.pc with
  | receive first point =>
    refine .inr ⟨quiet_receiveMove, ?_⟩
    intro l' hleads
    rcases receiveMove_leads hleads with ⟨p, hl'⟩ | ⟨tag, msg, hl'⟩ | hl'
    · obtain rfl := Option.some.inj hl'
      rfl
    · obtain ⟨l₁, hhandle, rfl⟩ := Option.map_eq_some_iff.mp hl'.symm
      show l₁.sent = l.sent
      exact sent_handle hhandle
    · obtain rfl := Option.some.inj hl'
      rfl
  | lookUp =>
    refine .inr ⟨quiet_compute _, ?_⟩
    rintro l' ⟨⟩
    rfl
  | subscribe station =>
    dsimp only
    split
    case isTrue hvalid => exact .inl ⟨station, rfl, hvalid, rfl⟩
    -- the lookup has failed: -1 is outside the task table
    case isFalse => exact .inr ⟨quiet_fault, fun l' hleads => hleads.elim⟩

/-! ## What one step does -/

/-- An index of the table comes back as it is. -/
theorem toInt_toInt32 {id : UInt32} (h : id.toNat < maxTask) : id.toInt32.toInt = id.toNat := by
  unfold maxTask at h
  rw [← UInt32.ofNat_toNat (x := id), UInt32.toInt32_ofNat', ← Int32.ofInt_eq_ofNat,
    Int32.toInt_ofInt_of_le (by omega) (by omega)]
  simp

theorem taskAt_toInt32 {id : UInt32} (h : id.toNat < maxTask) : taskAt id.toInt32 = id := by
  rw [taskAt, toInt_toInt32 h, Int.toNat_natCast, UInt32.ofNat_toNat]

/-- Different indices of the table are different as `int`s. -/
theorem eq_of_toInt32_eq {id id' : UInt32} (h : id.toNat < maxTask) (h' : id'.toNat < maxTask)
    (heq : id.toInt32 = id'.toInt32) : id = id' := by
  rw [← taskAt_toInt32 h, heq, taskAt_toInt32 h']

section Steps

variable {w : WeatherSetUp} {σ σ' : WeatherNet} {e : WeatherEvent} {id target : UInt32}
  {msg : AnyMsg}

/-! ### The step function -/

theorem step_eq_act (hout : σ.outgoing w e = none) : σ.step w e = σ.act w false e := by
  rw [WeatherNet.step, hout]

/-- A message comes in at another task before the sender goes on. -/
theorem step_of_outgoing (hout : σ.outgoing w e = some (target, msg)) :
    ∃ σ₁ sent, σ.deliver w target (WeatherNet.baseOf w e) msg = (σ₁, sent) ∧
      σ.step w e = σ₁.act w sent e := by
  obtain ⟨⟨σ₁, sent⟩, hd⟩ : ∃ r, σ.deliver w target (WeatherNet.baseOf w e) msg = r := ⟨_, rfl⟩
  refine ⟨σ₁, sent, hd, ?_⟩
  simp only [WeatherNet.step, hout, hd]

theorem outgoing_station (hrole : w.role id = some .station) {l : StationLocal}
    (hloc : (σ.station id).loc = some l) : σ.outgoing w (.own id) = outgoing? id.toNat
      (weatherMove w.newIntArray (messageThere (σ.station id).mb) l) := by
  simp only [WeatherNet.outgoing, hrole, WeatherNet.stationMove, hloc, weatherCode]

theorem act_station (hrole : w.role id = some .station) {l : StationLocal}
    (hloc : (σ.station id).loc = some l) (sent : Bool) :
    σ.act w sent (.own id) = ((σ.station id).perform (w.process id) id.toNat sent
      (weatherMove w.newIntArray (messageThere (σ.station id).mb) l)).map (σ.setStation id) := by
  simp only [WeatherNet.act, hrole, WeatherNet.stationMove, hloc, weatherCode]

theorem outgoing_client (hrole : w.role id = some .client) {l : WeatherClientLocal}
    (hloc : (σ.client id).loc = some l) :
    σ.outgoing w (.own id) = outgoing? id.toNat (weatherClientMove w.newBar (w.getId id) l) := by
  simp only [WeatherNet.outgoing, hrole, WeatherNet.clientMove, hloc, weatherClientCode]

theorem act_client (hrole : w.role id = some .client) {l : WeatherClientLocal}
    (hloc : (σ.client id).loc = some l) (sent : Bool) :
    σ.act w sent (.own id) = ((σ.client id).perform (w.process id) id.toNat sent
      (weatherClientMove w.newBar (w.getId id) l)).map (σ.setClient id) := by
  simp only [WeatherNet.act, hrole, WeatherNet.clientMove, hloc, weatherClientCode]

/-! ### Messages that come in -/

/-- Each task stands at one of the points of its program. -/
structure Running (w : WeatherSetUp) (σ : WeatherNet) : Prop where
  station : ∀ id, w.role id = some .station → ∃ l, Posting (w.process id) id (σ.station id) l
  client : ∀ id, w.role id = some .client →
    ∃ l, Listening (w.process id) w.newBar (w.getId id) id (σ.client id) l

theorem Running.setStation (h : Running w σ) {s : Station (Option StationLocal)}
    {l : StationLocal} (hs : Posting (w.process id) id s l) : Running w (σ.setStation id s) where
  station j hj := by
    by_cases heq : j = id
    · subst heq
      exact ⟨l, by simpa [WeatherNet.setStation] using hs⟩
    · simpa [WeatherNet.setStation, heq] using h.station j hj
  client := h.client

theorem Running.setClient (h : Running w σ) {s : Station (Option WeatherClientLocal)}
    {l : WeatherClientLocal} (hs : Listening (w.process id) w.newBar (w.getId id) id s l) :
    Running w (σ.setClient id s) where
  station := h.station
  client j hj := by
    by_cases heq : j = id
    · subst heq
      exact ⟨l, by simpa [WeatherNet.setClient] using hs⟩
    · simpa [WeatherNet.setClient, heq] using h.client j hj

/-- The queue of task `target` has accepted the message or refused it. -/
def Delivers (w : WeatherSetUp) (σ σ' : WeatherNet) (target : UInt32) (msg : AnyMsg) : Prop :=
  ∃ more, (more = [] ∨ more = [msg]) ∧
    ∀ id, σ'.accepted w id = σ.accepted w id ++ if id = target then more else []

theorem accepted_setStation (hrole : w.role id = some .station)
    {s : Station (Option StationLocal)} {more : List AnyMsg}
    (haccepted : s.accepted = (σ.station id).accepted ++ more) (j : UInt32) :
    (σ.setStation id s).accepted w j = σ.accepted w j ++ if j = id then more else [] := by
  by_cases heq : j = id
  · subst heq
    simp [WeatherNet.accepted, WeatherNet.setStation, hrole, haccepted]
  · simp [WeatherNet.accepted, WeatherNet.setStation, heq]

theorem accepted_setStation_of_eq (hrole : w.role id = some .station)
    {s : Station (Option StationLocal)} (haccepted : s.accepted = (σ.station id).accepted)
    (j : UInt32) : (σ.setStation id s).accepted w j = σ.accepted w j := by
  rw [← List.append_nil (σ.station id).accepted] at haccepted
  rw [accepted_setStation hrole haccepted, ite_self, List.append_nil]

theorem accepted_setClient (hrole : w.role id = some .client)
    {s : Station (Option WeatherClientLocal)} {more : List AnyMsg}
    (haccepted : s.accepted = (σ.client id).accepted ++ more) (j : UInt32) :
    (σ.setClient id s).accepted w j = σ.accepted w j ++ if j = id then more else [] := by
  by_cases heq : j = id
  · subst heq
    simp [WeatherNet.accepted, WeatherNet.setClient, hrole, haccepted]
  · simp [WeatherNet.accepted, WeatherNet.setClient, heq]

theorem accepted_setClient_of_eq (hrole : w.role id = some .client)
    {s : Station (Option WeatherClientLocal)} (haccepted : s.accepted = (σ.client id).accepted)
    (j : UInt32) : (σ.setClient id s).accepted w j = σ.accepted w j := by
  rw [← List.append_nil (σ.client id).accepted] at haccepted
  rw [accepted_setClient hrole haccepted, ite_self, List.append_nil]

theorem posted_setStation (s : Station (Option StationLocal)) :
    (σ.setStation id s).posted =
      Function.update σ.posted id (s.loc.elim [] StationLocal.posted) := by
  funext j
  by_cases heq : j = id
  · subst heq
    simp [WeatherNet.posted, WeatherNet.setStation]
  · simp [WeatherNet.posted, WeatherNet.setStation, heq]

theorem sent_setClient (s : Station (Option WeatherClientLocal)) :
    (σ.setClient id s).sent =
      Function.update σ.sent id (s.loc.elim [] WeatherClientLocal.sent) := by
  funext j
  by_cases heq : j = id
  · subst heq
    simp [WeatherNet.sent, WeatherNet.setClient]
  · simp [WeatherNet.sent, WeatherNet.setClient, heq]

/-- **A message that comes in** from another task, which is as it should be. -/
theorem Running.deliver (h : Running w σ) {base : UInt64} {msg : ValidMsg} {sent : Bool}
    (hproper : Proper msg.1) (hpost : ProperPost msg.1)
    (hsafe : w.role target ≠ none → SafeSend (σ.mailbox w target) msg.size)
    (hd : σ.deliver w target base msg.1 = (σ', sent)) :
    Running w σ' ∧ Delivers w σ σ' target msg.1 ∧ σ'.posted = σ.posted ∧ σ'.sent = σ.sent ∧
      ∀ id ≠ target, σ'.station id = σ.station id ∧ σ'.client id = σ.client id := by
  unfold WeatherNet.deliver at hd
  cases hrole : w.role target with
  | none =>
    -- there is no queue that could change
    rw [hrole] at hd
    obtain ⟨rfl, -⟩ := Prod.mk.inj hd
    refine ⟨h, ⟨[], .inl rfl, fun id => ?_⟩, rfl, rfl, fun id _ => ⟨rfl, rfl⟩⟩
    rw [ite_self, List.append_nil]
  | some role =>
    rw [hrole] at hd
    replace hsafe := hsafe (by rw [hrole]; exact Option.some_ne_none role)
    cases role with
    | station =>
      simp only [Prod.mk.injEq] at hd
      obtain ⟨rfl, -⟩ := hd
      -- a station keeps running, and has posted nothing by it
      simp only [WeatherNet.mailbox, hrole, if_true] at hsafe
      obtain ⟨l, hl⟩ := h.station target hrole
      obtain ⟨more, hmore, haccepted⟩ := Station.accepted_deliver (σ.station target) base msg.1
      refine ⟨h.setStation (hl.deliver hproper hsafe),
        ⟨more, hmore, accepted_setStation hrole haccepted⟩, ?_, rfl, ?_⟩
      · rw [posted_setStation]
        exact Function.update_eq_self ..
      · intro id hne
        exact ⟨Function.update_of_ne hne .., rfl⟩
    | client =>
      simp only [Prod.mk.injEq] at hd
      obtain ⟨rfl, -⟩ := hd
      have hclient : ¬some WeatherRole.client = some .station := nofun
      -- a client keeps listening, and has sent nothing by it
      simp only [WeatherNet.mailbox, hrole, if_neg hclient] at hsafe
      obtain ⟨l, hl⟩ := h.client target hrole
      obtain ⟨more, hmore, haccepted⟩ := Station.accepted_deliver (σ.client target) base msg.1
      refine ⟨h.setClient (hl.deliver hpost hsafe),
        ⟨more, hmore, accepted_setClient hrole haccepted⟩, rfl, ?_, ?_⟩
      · rw [sent_setClient]
        exact Function.update_eq_self ..
      · intro id hne
        exact ⟨rfl, Function.update_of_ne hne ..⟩

/-- What an event does to the queues, and to what has been posted and subscribed. -/
inductive Effect (w : WeatherSetUp) (σ σ' : WeatherNet) : Prop where
  | quiet (accepted : ∀ id, σ'.accepted w id = σ.accepted w id) (posted : σ'.posted = σ.posted)
      (sent : σ'.sent = σ.sent)
  | name (target : UInt32) (m : TextMsg) (accepted : Delivers w σ σ' target (.text m))
      (posted : σ'.posted = σ.posted) (sent : σ'.sent = σ.sent)
  /-- Station `id` posts to a subscriber. -/
  | post (id : UInt32) (sub : Int32) (msg : AnyMsg) (hrole : w.role id = some .station)
      (hsub : sub ∈ subscriptions (σ.accepted w id)) (hreport : report? msg = some (id.toInt32, 31))
      (accepted : Delivers w σ σ' (taskAt sub) msg)
      (posted : σ'.posted =
        Function.update σ.posted id (σ.posted id ++ [(sub, [id.toInt32, 31])]))
      (sent : σ'.sent = σ.sent)
  /-- Client `id` subscribes. -/
  | subscribe (id : UInt32) (station : Int32) (hrole : w.role id = some .client)
      (accepted : Delivers w σ σ' (taskAt station) (subMsg w.newBar id))
      (posted : σ'.posted = σ.posted)
      (sent : σ'.sent =
        Function.update σ.sent id (σ.sent id ++ [(station, subMsg w.newBar id)]))

/-- A move of the station's own. -/
theorem Posting.own {P : Process} {newIntArray : IntArrayMsg} {sent : Bool}
    {s s' : Station (Option StationLocal)} {l : StationLocal} (h : Posting P id s l)
    (hs : s.perform P id.toNat sent (weatherMove newIntArray (messageThere s.mb) l) = some s') :
    ∃ l', Posting P id s' l' := by
  have hs' : (weatherStation P newIntArray (fun _ => 0) id).step s (.own sent) = some s' := by
    show s.perform P id.toNat sent (weatherCode newIntArray (messageThere s.mb) s.loc) = some s'
    rw [h.loc_eq]
    exact hs
  exact h.step (e := .own sent) ⟨trivial, nofun⟩ hs'

/-- A move of the client's own. -/
theorem Listening.own {P : Process} {newBar : BarMsg} {getId : List UInt8 → Int32} {sent : Bool}
    {s s' : Station (Option WeatherClientLocal)} {l : WeatherClientLocal}
    (h : Listening P newBar getId id s l)
    (hs : s.perform P id.toNat sent (weatherClientMove newBar getId l) = some s') :
    ∃ l', Listening P newBar getId id s' l' := by
  have hs' : (weatherClient P newBar getId (fun _ => 0) id).step s (.own sent) = some s' := by
    show s.perform P id.toNat sent (weatherClientCode newBar getId s.loc) = some s'
    rw [h.loc_eq]
    exact hs
  exact h.step (e := .own sent) ⟨trivial, nofun⟩ hs'

/-- A station has handled what has come in. -/
theorem Posting.received_sublist {P : Process} {s : Station (Option StationLocal)}
    {l : StationLocal} (h : Posting P id s l) : l.received.Sublist s.accepted := by
  have hpoint := h.point
  cases hpc : l.pc with
  | receive first point | setName | loop | immediate | count | broadcast i =>
    rw [hpc] at hpoint
    exact hpoint.1.sublist
  | finished =>
    rw [hpc] at hpoint
    exact hpoint.elim

/-- Those in the table of a station have subscribed. -/
theorem Posting.sub_mem {P : Process} {s : Station (Option StationLocal)} {l : StationLocal}
    (h : Posting P id s l) {i : Nat} (hi : (i : Int) < (WeatherStationTask.subCount l.this).toInt) :
    WeatherStationTask.sub l.this i ∈ subscriptions s.accepted := by
  apply (h.received_sublist.filterMap subscriber?).subset
  apply List.mem_of_mem_take
  show WeatherStationTask.sub l.this i ∈ (subscriptions l.received).take 50
  rw [← h.fields.subscribers]
  exact List.mem_map.mpr ⟨i, List.mem_range.mpr (by omega), rfl⟩

/-- **A move of a station.** -/
theorem Running.station_own (h : Running w σ) (hrole : w.role id = some .station)
    (hself : ∀ sub ∈ subscriptions (σ.accepted w id), taskAt sub ≠ id)
    (hsafe : SafeSending w σ (.own id)) (hs : σ.step w (.own id) = some σ') :
    Running w σ' ∧ Effect w σ σ' := by
  obtain ⟨l, hl⟩ := h.station id hrole
  have haccepted : σ.accepted w id = (σ.station id).accepted := if_pos hrole
  have hposted : σ.posted id = l.posted := by
    rw [WeatherNet.posted, hl.loc_eq]
    rfl
  have hout := outgoing_station hrole hl.loc_eq
  rcases weatherMove_cases w.newIntArray (messageThere (σ.station id).mb) l with
    ⟨i, hi, -, hsend⟩ | ⟨hquiet, hsame⟩
  -- a post: the subscriber has sent its subscription, and is another task
  · have hsub := hl.sub_mem hi
    rw [← haccepted] at hsub
    have hne := hself _ hsub
    have hnat : (WeatherStationTask.sub l.this i).toInt.toNat ≠ id.toNat := by
      intro heq
      apply hne
      rw [taskAt, heq, UInt32.ofNat_toNat]
    rw [hsend, outgoing?, if_neg hnat] at hout
    obtain ⟨σ₁, sent, hd, hact⟩ := step_of_outgoing hout
    rw [hact] at hs
    -- the post comes in at the subscriber
    obtain ⟨hvalid, -, hproper⟩ := tempMsg_spec w.newIntArray l
    obtain ⟨hpost, hreport⟩ := tempMsg_reported w.newIntArray l
    rw [hl.fields.taskID_eq] at hreport
    let temp : ValidMsg := ⟨_, hvalid⟩
    have htemp : w.role (taskAt (WeatherStationTask.sub l.this i)) ≠ none →
        SafeSend (σ.mailbox w (taskAt (WeatherStationTask.sub l.this i))) temp.size :=
      hsafe.1 _ _ hout
    obtain ⟨h₁, hdelivers, hposted₁, hsent₁, hothers⟩ := h.deliver hproper hpost htemp hd
    -- and the station goes on
    obtain ⟨hstation, -⟩ := hothers id hne.symm
    rw [act_station hrole (hstation ▸ hl.loc_eq), hstation] at hs
    obtain ⟨s', hs', rfl⟩ := Option.map_eq_some_iff.mp hs
    obtain ⟨l', hl'⟩ := hl.own hs'
    rw [hsend] at hs'
    simp only [Station.perform, if_neg hnat] at hs'
    obtain rfl := Option.some.inj hs'
    refine ⟨h₁.setStation hl', .post id _ _ hrole hsub hreport ?_ ?_ hsent₁⟩
    · obtain ⟨more, hmore, hqueues⟩ := hdelivers
      refine ⟨more, hmore, fun j => ?_⟩
      refine (accepted_setStation_of_eq hrole ?_ j).trans (hqueues j)
      rw [hstation]
      rfl
    · rw [posted_setStation, hposted₁, hposted]
      congr 1
      show l.posted ++ [(_, l.vals)] = _
      rw [StationLocal.vals, hl.fields.taskID_eq]
  -- any other move touches only the station's own queue, and posts nothing
  · rw [hquiet.outgoing?_eq] at hout
    rw [step_eq_act hout, act_station hrole hl.loc_eq] at hs
    obtain ⟨s', hs', rfl⟩ := Option.map_eq_some_iff.mp hs
    obtain ⟨l', hl'⟩ := hl.own hs'
    obtain ⟨hqueue, hleads⟩ := hquiet.perform hs'
    rw [hl'.loc_eq] at hleads
    refine ⟨h.setStation hl', .quiet ?_ ?_ rfl⟩
    · exact accepted_setStation_of_eq hrole hqueue
    · rw [posted_setStation, hl'.loc_eq, Option.elim_some, hsame l' hleads, ← hposted]
      exact Function.update_eq_self ..

/-- A client that has found another task has another ID. -/
theorem ne_taskAt {station : Int32} (hvalid : ValidTarget station.toInt)
    (hne : station.toInt.toNat ≠ id.toNat) : id ≠ taskAt station := by
  intro heq
  apply hne
  rw [heq, taskAt, UInt32.toNat_ofNat_of_lt']
  unfold ValidTarget maxTask at hvalid
  show station.toInt.toNat < 4294967296
  omega

/-- **A move of a client**, which may have found itself. -/
theorem Running.client_own (h : Running w σ) (hrole : w.role id = some .client)
    (hsafe : SafeSending w σ (.own id)) (hs : σ.step w (.own id) = some σ') :
    Running w σ' ∧ Effect w σ σ' := by
  obtain ⟨l, hl⟩ := h.client id hrole
  have hsent : σ.sent id = l.sent := by
    rw [WeatherNet.sent, hl.loc_eq]
    rfl
  have hout := outgoing_client hrole hl.loc_eq
  rcases weatherClientMove_cases w.newBar (w.getId id) l with
    ⟨station, -, hvalid, hsend⟩ | ⟨hquiet, hsame⟩
  · rw [hl.taskID_eq] at hsend
    by_cases hnat : station.toInt.toNat = id.toNat
    · -- the subscription goes to its own queue
      have hself : taskAt station = id := by rw [taskAt, hnat, UInt32.ofNat_toNat]
      rw [hsend, outgoing?, if_pos hnat] at hout
      rw [step_eq_act hout, act_client hrole hl.loc_eq] at hs
      obtain ⟨s', hs', rfl⟩ := Option.map_eq_some_iff.mp hs
      obtain ⟨l', hl'⟩ := hl.own hs'
      rw [hsend] at hs'
      simp only [Station.perform, if_pos hnat] at hs'
      obtain rfl := Option.some.inj hs'
      obtain ⟨more, hmore, haccepted⟩ :=
        Station.accepted_deliver (σ.client id) (w.process id).base (subMsg w.newBar id)
      refine ⟨h.setClient hl', .subscribe id station hrole ⟨more, hmore, ?_⟩ rfl ?_⟩
      · rw [hself]
        exact accepted_setClient hrole haccepted
      · rw [sent_setClient, hsent]
        rfl
    · rw [hsend, outgoing?, if_neg hnat] at hout
      obtain ⟨σ₁, sent, hd, hact⟩ := step_of_outgoing hout
      rw [hact] at hs
      -- the subscription comes in at the task that was found, if there is one
      obtain ⟨hvalidMsg, -, hpost⟩ := subMsg_spec w.newBar id
      have hid := w.lt_maxTask hrole
      have hproper : Proper (subMsg w.newBar id) := by
        apply subMsg_proper
        rw [toInt_toInt32 hid]
        exact ⟨Int.natCast_nonneg _, Int.ofNat_lt.mpr hid⟩
      let own : ValidMsg := ⟨_, hvalidMsg⟩
      have hown : w.role (taskAt station) ≠ none →
          SafeSend (σ.mailbox w (taskAt station)) own.size := hsafe.1 _ _ hout
      obtain ⟨h₁, hdelivers, hposted₁, hsent₁, hothers⟩ := h.deliver hproper hpost hown hd
      -- and the client goes on
      obtain ⟨-, hclient⟩ := hothers id (ne_taskAt hvalid hnat)
      rw [act_client hrole (hclient ▸ hl.loc_eq), hclient] at hs
      obtain ⟨s', hs', rfl⟩ := Option.map_eq_some_iff.mp hs
      obtain ⟨l', hl'⟩ := hl.own hs'
      rw [hsend] at hs'
      simp only [Station.perform, if_neg hnat] at hs'
      obtain rfl := Option.some.inj hs'
      refine ⟨h₁.setClient hl', .subscribe id station hrole ?_ hposted₁ ?_⟩
      · obtain ⟨more, hmore, hqueues⟩ := hdelivers
        refine ⟨more, hmore, fun j => ?_⟩
        refine (accepted_setClient_of_eq hrole ?_ j).trans (hqueues j)
        rw [hclient]
        rfl
      · rw [sent_setClient, hsent₁, hsent]
        rfl
  -- any other move sends nothing
  · rw [hquiet.outgoing?_eq] at hout
    rw [step_eq_act hout, act_client hrole hl.loc_eq] at hs
    obtain ⟨s', hs', rfl⟩ := Option.map_eq_some_iff.mp hs
    obtain ⟨l', hl'⟩ := hl.own hs'
    obtain ⟨hqueue, hleads⟩ := hquiet.perform hs'
    rw [hl'.loc_eq] at hleads
    refine ⟨h.setClient hl', .quiet ?_ rfl ?_⟩
    · exact accepted_setClient_of_eq hrole hqueue
    · rw [sent_setClient, hl'.loc_eq, Option.elim_some, hsame l' hleads, ← hsent]
      exact Function.update_eq_self ..

/-- The name of a station, if it fits, is proper for every task. -/
theorem nameMsg_spec (w : WeatherSetUp) {text : List UInt8} (hfits : text.length < maxNameSize) :
    (w.nameMsg text).WellFormed ∧ Proper (w.nameMsg text) ∧ ProperPost (w.nameMsg text) := by
  have hshort : (text.takeWhile (· ≠ 0)).length < maxNameSize :=
    Nat.lt_of_le_of_lt (List.takeWhile_sublist _).length_le hfits
  unfold maxNameSize at hshort
  refine ⟨(TextMsg.Built.setFirst w.newText _ text ?_).wellFormed, ⟨fun _ => ⟨_, rfl, ?_⟩, ?_⟩,
    ⟨fun _ => ⟨_, rfl, hshort, ?_⟩, ?_⟩⟩
  · exact Nat.lt_trans hshort (by decide)
  · exact Nat.lt_trans hshort (by decide)
  · intro htag
    exact absurd htag (by decide : weatherStationNameMsgTag ≠ subMsgTag)
  · intro c hc
    have hmem : c ∈ text.takeWhile (· ≠ 0) := hc
    simpa using List.mem_takeWhile_imp hmem
  · intro htag
    exact absurd htag (by decide : weatherStationNameMsgTag ≠ postWeatherMsgTag)

/-- **Step**: every event keeps all tasks running, and has one of these effects. -/
theorem Running.step (h : Running w σ)
    (hself : ∀ id, w.role id = some .station → ∀ sub ∈ subscriptions (σ.accepted w id),
      taskAt sub ≠ id)
    (hsafe : SafeSending w σ e) (hs : σ.step w e = some σ') : Running w σ' ∧ Effect w σ σ' := by
  cases e with
  | own id =>
    cases hrole : w.role id with
    | none =>
      simp only [WeatherNet.step, WeatherNet.outgoing, WeatherNet.act, hrole] at hs
      cases hs
    | some role =>
      cases role with
      | station => exact h.station_own hrole (hself id hrole) hsafe hs
      | client => exact h.client_own hrole hsafe hs
  | name id base text =>
    -- the test program sends a name, and has no queue of its own
    obtain ⟨hvalid, hproper, hpost⟩ := nameMsg_spec w (hsafe.2 id base text rfl)
    let own : ValidMsg := ⟨_, hvalid⟩
    have hown : w.role id ≠ none → SafeSend (σ.mailbox w id) own.size := hsafe.1 _ _ rfl
    obtain ⟨σ₁, sent, hd, hact⟩ := step_of_outgoing (show σ.outgoing w (.name id base text) = _ from rfl)
    rw [hact] at hs
    obtain rfl := Option.some.inj hs
    obtain ⟨h₁, hdelivers, hposted, hsent, -⟩ := h.deliver hproper hpost hown hd
    exact ⟨h₁, .name id _ hdelivers hposted hsent⟩

end Steps

end WeatherTask

end TaskSystem
