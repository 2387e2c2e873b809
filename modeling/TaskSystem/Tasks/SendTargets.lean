import TaskSystem.Library.Transition
import TaskSystem.Tasks.DatabaseTask.Program
import TaskSystem.Tasks.WeatherTasks

/-!
# The Targets of `send`

Servers and clients that start in any order, and the task IDs they pass to `System.send`. A
target comes from the repository, from a field of a request, or from a subscription, and none
of the three is tested before `check_Q_and_acquire` uses it as an index.

## Contents

- `TaskLocal`: where a task of one of the four types stands; `Received`, `receive`, `advance`
- `Senders`, `senders`: the tasks, the repository, and the targets so far
- `Checked`: what a step has to find or to receive for its task to send inside the table
- `TaskLocal.Sound`: what a task holds under this condition; one lemma for each kind of step
- `targets_valid`: all targets are in the table
- `target_missing`: a client that starts before the database
-/

namespace TaskSystem

open Library Repository

/-! ## The tasks -/

/-- "database" -/
def databaseName : List UInt8 := [100, 97, 116, 97, 98, 97, 115, 101]

/-- Where a task stands in its `start`. How long the loops go on is left open. -/
inductive TaskLocal where
  /-- `DatabaseTask`, before `repository_set_name` -/
  | databaseSetName (this : DatabaseTask)
  | databaseReceive (this : DatabaseTask)
  /-- `receive` has returned, whatever it did. -/
  | databaseSend (this : DatabaseTask)
  /-- `WeatherStationTask`, before the first `receive` -/
  | stationReceive (this : Mem)
  | stationSetName (this : Mem)
  /-- In the loop, which receives and broadcasts -/
  | stationLoop (this : Mem)
  /-- `ClientTask`, before `repository_get_id` -/
  | clientGetId
  | clientSend (databaseId : Int)
  | clientReceive (databaseId : Int)
  /-- `WeatherClientTask`, before the first `receive` -/
  | weatherReceive (this : Mem)
  | weatherGetId (this : Mem)
  | weatherSend (stationId : Int)
  /-- In the loop, which only receives -/
  | weatherLoop

/-- A call of `receive`, by the handler it runs. -/
inductive Received where
  /-- `handle_RequestMsg`; `beyond` lies behind the payload. -/
  | request (requestMsg : RequestMsg) (beyond : List UInt8)
  /-- `handle_WeatherStationNameMsg` -/
  | name (textMsg : TextMsg)
  /-- `handle_SubMsg` -/
  | sub (barMsg : BarMsg)
  /-- A handler that only prints, or none -/
  | other

/-- `receive` of a station. -/
def Received.station (this : Mem) : Received → Option Mem
  | .name textMsg => some (WeatherStationTask.handleWeatherStationNameMsg this textMsg)
  | .sub barMsg => some (WeatherStationTask.handleSubMsg this barMsg)
  | .other => some this
  | .request _ _ => none

namespace TaskLocal

/-- A call of `receive`. -/
def receive (r : Received) : TaskLocal → Option TaskLocal
  | .databaseReceive this =>
    match r with
    | .request requestMsg beyond => some (.databaseSend (this.handleRequestMsg requestMsg beyond))
    | .other => some (.databaseSend this)
    | _ => none
  | .stationReceive this => (r.station this).map .stationSetName
  | .stationLoop this => (r.station this).map .stationLoop
  | .clientReceive databaseId => some (.clientSend databaseId)
  | .weatherReceive this =>
    match r with
    | .name textMsg =>
      some (.weatherGetId (WeatherClientTask.handleWeatherStationNameMsg this textMsg))
    | _ => some (.weatherGetId this)
  | .weatherLoop => some .weatherLoop
  | _ => none

/-- What a step other than `receive` does. -/
structure Progress where
  names : Mem
  next : TaskLocal
  /-- The targets it passes to `System.send` -/
  sent : List Int

/-- The step of a task that does not receive. -/
def advance (names : Mem) (taskID : Nat) : TaskLocal → Option Progress
  | .databaseSetName this =>
    some ⟨setName names databaseName taskID, .databaseReceive this, []⟩
  | .databaseSend this =>
    some ⟨names, .databaseReceive this, [this.currentRequesterTaskId.toInt]⟩
  | .stationSetName this =>
    some ⟨setName names (WeatherStationTask.stationName this) taskID, .stationLoop this, []⟩
  -- a broadcast
  | .stationLoop this =>
    some ⟨names, .stationLoop this, (WeatherStationTask.subscribers this).map Int32.toInt⟩
  | .clientGetId => some ⟨names, .clientSend (getId names databaseName), []⟩
  | .clientSend databaseId => some ⟨names, .clientReceive databaseId, [databaseId]⟩
  | .weatherGetId this =>
    some ⟨names, .weatherSend (getId names (WeatherClientTask.stationName this)), []⟩
  | .weatherSend stationId => some ⟨names, .weatherLoop, [stationId]⟩
  | _ => none

end TaskLocal

/-! ## The system -/

/-- The tasks and the repository. -/
structure Senders where
  names : Mem
  tasks : Nat → Option TaskLocal
  /-- The targets that have been passed to `System.send` -/
  targets : List Int

/-- Tasks start with any contents of the memory `malloc` gives them. -/
inductive SenderEvent where
  | startDatabase (taskID : UInt32) (newRec : DatabaseTask)
  | startStation (taskID : UInt32) (newRec : Mem)
  | startClient (taskID : UInt32)
  | startWeatherClient (taskID : UInt32) (newRec : Mem)
  | receive (taskID : Nat) (r : Received)
  | advance (taskID : Nat)

namespace Senders

def start (s : Senders) (taskID : UInt32) (task : TaskLocal) : Option Senders :=
  if s.tasks taskID.toNat = none then
    some { s with tasks := Function.update s.tasks taskID.toNat (some task) }
  else none

def step (s : Senders) : SenderEvent → Option Senders
  | .startDatabase taskID newRec =>
    s.start taskID (.databaseSetName (DatabaseTask.create newRec taskID))
  | .startStation taskID newRec =>
    s.start taskID (.stationReceive (WeatherStationTask.create newRec taskID))
  | .startClient taskID => s.start taskID .clientGetId
  | .startWeatherClient taskID newRec =>
    s.start taskID (.weatherReceive (WeatherClientTask.create newRec taskID))
  | .receive taskID r =>
    ((s.tasks taskID).bind (TaskLocal.receive r)).map fun task =>
      { s with tasks := Function.update s.tasks taskID (some task) }
  | .advance taskID =>
    ((s.tasks taskID).bind (TaskLocal.advance s.names taskID)).map fun p =>
      { names := p.names
        tasks := Function.update s.tasks taskID (some p.next)
        targets := s.targets ++ p.sent }

end Senders

/-- All orders in which tasks start, register, look up, receive and send, after
    `System_create`. -/
def senders : System Senders SenderEvent where
  init s := ∃ m, s = ⟨Repository.create m, fun _ => none, []⟩
  step := Senders.step

/-! ## The condition -/

/-- An index of `TaskTable`. -/
def ValidTarget (target : Int) : Prop := 0 ≤ target ∧ target < maxTask

instance (target : Int) : Decidable (ValidTarget target) := by unfold ValidTarget; infer_instance

/-- Some task has the name, as `repository_get_id` compares names. -/
def Registered (names : Mem) (name : List UInt8) : Prop :=
  ∃ i < maxTask, hasName names i ∧ sameName names name i

/-- What a station receives: names stop before `sub_count`, and subscriptions that are taken
    carry an index of the table. -/
def Received.StationChecked (this : Mem) : Received → Prop
  | .name textMsg => textMsg.msg.length < 32
  | .sub barMsg =>
    50 ≤ (WeatherStationTask.subCount this).toInt ∨ ValidTarget barMsg.value.toInt
  | _ => True

/-- What a task receives. A database that receives no request answers the last one again. -/
def TaskLocal.ReceiveChecked (r : Received) : TaskLocal → Prop
  | .databaseReceive this =>
    match r with
    | .request requestMsg _ => ValidTarget requestMsg.senderTaskId.toInt
    | _ => ValidTarget this.currentRequesterTaskId.toInt
  | .stationReceive this | .stationLoop this => r.StationChecked this
  | _ => True

/-- The name a task looks up is registered already. -/
def TaskLocal.AdvanceChecked (names : Mem) : TaskLocal → Prop
  | .clientGetId => Registered names databaseName
  | .weatherGetId this => Registered names (WeatherClientTask.stationName this)
  | _ => True

/-- **The condition on the steps.** -/
def Checked (s : Senders) : SenderEvent → Prop
  | .receive taskID r => ∀ task ∈ s.tasks taskID, task.ReceiveChecked r
  | .advance taskID => ∀ task ∈ s.tasks taskID, task.AdvanceChecked s.names
  | _ => True

instance (names : Mem) (name : List UInt8) : Decidable (Registered names name) := by
  unfold Registered
  infer_instance

instance (this : Mem) (r : Received) : Decidable (r.StationChecked this) := by
  cases r <;> unfold Received.StationChecked <;> infer_instance

instance (r : Received) (task : TaskLocal) : Decidable (task.ReceiveChecked r) := by
  cases task <;> cases r <;> unfold TaskLocal.ReceiveChecked <;> infer_instance

instance (names : Mem) (task : TaskLocal) : Decidable (task.AdvanceChecked names) := by
  cases task <;> unfold TaskLocal.AdvanceChecked <;> infer_instance

instance (s : Senders) (e : SenderEvent) : Decidable (Checked s e) := by
  cases e <;> unfold Checked <;> infer_instance

/-! ## The results of a lookup -/

/-- `repository_get_id` never returns an index outside the table but -1. -/
theorem getId_cases (names : Mem) (name : List UInt8) :
    getId names name = -1 ∧ ¬Registered names name ∨ ValidTarget (getId names name) := by
  rw [getId, search_eq]
  cases hfind : (List.range maxTask).find? fun i => hasName names i && sameName names name i with
  | some i =>
    have hi := List.mem_range.mp (List.mem_of_find?_eq_some hfind)
    exact .inr ⟨Int.natCast_nonneg i, Int.ofNat_lt.mpr hi⟩
  | none =>
    refine .inl ⟨rfl, ?_⟩
    rintro ⟨i, hi, hflag, hsame⟩
    have hnot := List.find?_eq_none.mp hfind i (List.mem_range.mpr hi)
    exact hnot (by rw [hflag, hsame]; rfl)

theorem getId_valid {names : Mem} {name : List UInt8} (h : Registered names name) :
    ValidTarget (getId names name) := by
  rcases getId_cases names name with ⟨-, hnot⟩ | hvalid
  · exact absurd h hnot
  · exact hvalid

/-! ## What a task holds -/

/-- The subscribers of a station are in the table. -/
structure SoundStation (this : Mem) : Prop where
  subCount_nonneg : 0 ≤ (WeatherStationTask.subCount this).toInt
  valid : ∀ sub ∈ WeatherStationTask.subscribers this, ValidTarget sub.toInt

/-- The targets a task holds on to are in the table. -/
def TaskLocal.Sound : TaskLocal → Prop
  | .databaseSend this => ValidTarget this.currentRequesterTaskId.toInt
  | .stationReceive this | .stationSetName this | .stationLoop this => SoundStation this
  | .clientSend id | .clientReceive id | .weatherSend id => ValidTarget id
  | _ => True

theorem soundStation_create (newRec : Mem) (taskID : UInt32) :
    SoundStation (WeatherStationTask.create newRec taskID) := by
  have hcount := WeatherStationTask.subCount_create newRec taskID
  constructor
  · rw [hcount]
    decide
  · intro sub hsub
    simp [WeatherStationTask.subscribers, hcount] at hsub

/-- **A station that receives** a checked message stays sound. -/
theorem SoundStation.receive {this this' : Mem} {r : Received} (h : SoundStation this)
    (hr : r.StationChecked this) (hthis' : r.station this = some this') : SoundStation this' := by
  cases r with
  | request requestMsg beyond => cases hthis'
  | other =>
    obtain rfl := Option.some.inj hthis'
    exact h
  | name textMsg =>
    obtain rfl := Option.some.inj hthis'
    constructor
    · rw [WeatherStationTask.subCount_handleName hr]
      exact h.subCount_nonneg
    · rw [WeatherStationTask.subscribers_handleName hr]
      exact h.valid
  | sub barMsg =>
    obtain rfl := Option.some.inj hthis'
    rcases WeatherStationTask.handleSubMsg_cases this barMsg h.subCount_nonneg with
      ⟨-, hsame⟩ | ⟨hroom, hcount, hsubs⟩
    · rw [hsame]
      exact h
    · have hnonneg := h.subCount_nonneg
      refine ⟨by omega, ?_⟩
      intro sub hsub
      rw [hsubs] at hsub
      rcases List.mem_append.mp hsub with hold | hnew
      · exact h.valid sub hold
      · rw [List.mem_singleton.mp hnew]
        exact hr.resolve_left (by omega)

theorem TaskLocal.Sound.receive {task task' : TaskLocal} {r : Received} (h : task.Sound)
    (hr : task.ReceiveChecked r) (htask' : task.receive r = some task') : task'.Sound := by
  cases task with
  | databaseReceive this =>
    cases r with
    | request requestMsg beyond =>
      obtain rfl := Option.some.inj htask'
      -- the handler has taken the sender over
      simp only [Sound, DatabaseTask.handle_requester]
      exact hr
    | other =>
      obtain rfl := Option.some.inj htask'
      exact hr
    | name _ | sub _ => cases htask'
  | stationReceive this | stationLoop this =>
    obtain ⟨this', hthis', rfl⟩ := Option.map_eq_some_iff.mp htask'
    exact SoundStation.receive h hr hthis'
  | clientReceive databaseId =>
    obtain rfl := Option.some.inj htask'
    exact h
  | weatherReceive this =>
    cases r <;> obtain rfl := Option.some.inj htask' <;> trivial
  | weatherLoop =>
    obtain rfl := Option.some.inj htask'
    trivial
  | databaseSetName _ | databaseSend _ | stationSetName _ | clientGetId | clientSend _
  | weatherGetId _ | weatherSend _ => cases htask'

/-- **A step that sends** sends to valid targets. -/
theorem TaskLocal.Sound.advance {task : TaskLocal} {names : Mem} {taskID : Nat} {p : Progress}
    (h : task.Sound) (hnames : task.AdvanceChecked names)
    (hp : task.advance names taskID = some p) :
    p.next.Sound ∧ ∀ target ∈ p.sent, ValidTarget target := by
  cases task with
  | databaseSetName this =>
    obtain rfl := Option.some.inj hp
    exact ⟨trivial, nofun⟩
  | databaseSend this =>
    obtain rfl := Option.some.inj hp
    refine ⟨trivial, ?_⟩
    intro target htarget
    rw [List.mem_singleton.mp htarget]
    exact h
  | stationSetName this =>
    obtain rfl := Option.some.inj hp
    exact ⟨h, nofun⟩
  | stationLoop this =>
    obtain rfl := Option.some.inj hp
    refine ⟨h, ?_⟩
    intro target htarget
    obtain ⟨sub, hsub, rfl⟩ := List.mem_map.mp htarget
    exact SoundStation.valid h sub hsub
  | clientGetId =>
    obtain rfl := Option.some.inj hp
    exact ⟨getId_valid hnames, nofun⟩
  | weatherGetId this =>
    obtain rfl := Option.some.inj hp
    exact ⟨getId_valid hnames, nofun⟩
  | clientSend databaseId =>
    obtain rfl := Option.some.inj hp
    refine ⟨h, ?_⟩
    intro target htarget
    rw [List.mem_singleton.mp htarget]
    exact h
  | weatherSend stationId =>
    obtain rfl := Option.some.inj hp
    refine ⟨trivial, ?_⟩
    intro target htarget
    rw [List.mem_singleton.mp htarget]
    exact h
  | databaseReceive _ | stationReceive _ | clientReceive _ | weatherReceive _ | weatherLoop =>
    cases hp

/-! ## Every run -/

/-- All targets so far, and all that tasks hold on to, are in the table. -/
structure Senders.Sound (s : Senders) : Prop where
  targets : ∀ target ∈ s.targets, ValidTarget target
  tasks : ∀ taskID task, s.tasks taskID = some task → task.Sound

namespace Senders

variable {s s' : Senders}

/-- Only one task changes in a step. -/
theorem Sound.update (h : s.Sound) {taskID : Nat} {task : TaskLocal} (htask : task.Sound) :
    ∀ i other, Function.update s.tasks taskID (some task) i = some other → other.Sound := by
  intro i other hother
  by_cases hi : i = taskID
  · rw [hi, Function.update_self, Option.some.injEq] at hother
    rw [← hother]
    exact htask
  · rw [Function.update_of_ne hi] at hother
    exact h.tasks i other hother

theorem Sound.start (h : s.Sound) {taskID : UInt32} {task : TaskLocal}
    (hs : s.start taskID task = some s') (htask : task.Sound) : s'.Sound := by
  unfold Senders.start at hs
  split at hs
  · obtain rfl := Option.some.inj hs
    exact ⟨h.targets, h.update htask⟩
  · cases hs

/-- **Step**: a checked step keeps the targets inside the table. -/
theorem Sound.step (h : s.Sound) {e : SenderEvent} (hG : Checked s e)
    (hs : s.step e = some s') : s'.Sound := by
  cases e with
  | startDatabase taskID newRec | startClient taskID | startWeatherClient taskID newRec =>
    exact h.start hs trivial
  | startStation taskID newRec =>
    exact h.start hs (soundStation_create newRec taskID)
  | receive taskID r =>
    obtain ⟨task', hbind, rfl⟩ := Option.map_eq_some_iff.mp hs
    obtain ⟨task, htask, hreceive⟩ := Option.bind_eq_some_iff.mp hbind
    exact ⟨h.targets, h.update ((h.tasks _ _ htask).receive (hG task htask) hreceive)⟩
  | advance taskID =>
    obtain ⟨p, hbind, rfl⟩ := Option.map_eq_some_iff.mp hs
    obtain ⟨task, htask, hadvance⟩ := Option.bind_eq_some_iff.mp hbind
    obtain ⟨hnext, hsent⟩ := (h.tasks _ _ htask).advance (hG task htask) hadvance
    refine ⟨?_, h.update hnext⟩
    intro target htarget
    rcases List.mem_append.mp htarget with hold | hnew
    · exact h.targets target hold
    · exact hsent target hnew

end Senders

/-- **Targets are indices of the table** in every run whose lookups find a name, whose requests
    and subscriptions carry one, and whose databases have a request to answer. -/
theorem targets_valid {s : Senders} (h : senders.ReachableWhen Checked s) :
    ∀ target ∈ s.targets, ValidTarget target := by
  have hsound : s.Sound := by
    refine System.ReachableWhen.invariant (P := Senders.Sound) ?_ ?_ h
    · rintro s ⟨m, rfl⟩
      exact ⟨nofun, nofun⟩
    · intro s e s' hsound hG hs
      exact hsound.step hG hs
  exact hsound.targets

/-! ## Two orders -/

/-- The system after `System_create` on memory that is zero. -/
def Senders.boot : Senders := ⟨Repository.create fun _ => 0, fun _ => none, []⟩

theorem create_zero : Repository.create (fun _ => 0) = fun _ => 0 := by
  funext x
  exact foldl_initRow_zero _ _ x (.inl rfl)

/-- A message with the name "x" -/
def nameX : TextMsg := ⟨0, 2, 168, [120]⟩

/-- A station "x" starts as task 1 and registers, and a client of it as task 2, which
    subscribes; then the station broadcasts. -/
def stationFirst : List SenderEvent :=
  [.startStation 1 fun _ => 0, .receive 1 (.name nameX), .advance 1,
    .startWeatherClient 2 fun _ => 0, .receive 2 (.name nameX), .advance 2, .advance 2,
    .receive 1 (.sub ⟨1, 1, 72, 2⟩), .advance 1]

theorem targets_valid_station :
    ∃ s, senders.runFrom Senders.boot stationFirst = some s ∧ s.targets = [1, 2] ∧
      ∀ target ∈ s.targets, ValidTarget target := by
  have hchecked : senders.Along Checked Senders.boot stationFirst := by
    rw [Senders.boot, create_zero]
    decide +kernel
  have hrun : (senders.runFrom Senders.boot stationFirst).map Senders.targets = some [1, 2] := by
    rw [Senders.boot, create_zero]
    decide +kernel
  obtain ⟨s, hs, htargets⟩ := Option.map_eq_some_iff.mp hrun
  exact ⟨s, hs, htargets, targets_valid (hchecked.reachableWhen (.init ⟨_, rfl⟩) hs)⟩

/-- A client starts as task 1, looks the database up and sends. -/
def clientFirst : List SenderEvent := [.startClient 1, .advance 1, .advance 1]

/-- **Out of the table**: when the client comes before the database, the lookup fails and -1 is
    the target of its first request. -/
theorem target_missing :
    ∃ s, senders.Reachable s ∧ -1 ∈ s.targets ∧ ¬ValidTarget (-1) := by
  have hrun : (senders.runFrom Senders.boot clientFirst).map Senders.targets = some [-1] := by
    rw [Senders.boot, create_zero]
    decide +kernel
  obtain ⟨s, hs, htargets⟩ := Option.map_eq_some_iff.mp hrun
  refine ⟨s, System.Reachable.runFrom (.init ⟨_, rfl⟩) _ hs, ?_, by decide⟩
  rw [htargets]
  exact List.mem_singleton_self _

end TaskSystem
