import TaskSystem.System.Repository
import TaskSystem.Tasks.ClientTask

/-!
# A Database and Its Clients

One database task and any number of client tasks that know its ID. A state of such a service
over logs is determined by where its tasks stand and by the requests that have been sent, in
the order in which they reached the database's queue.

## Contents

- `Service`, `serviceNetwork`: the tasks together
- `requestOf`, `events`: the requests
- `ServiceProgress`: how far the tasks have come; `Valid`, `Matches`
- `Matches.database`, `Matches.client`, ...: what one step changes
-/

namespace TaskSystem

open Library

/-! ## The tasks -/

/-- A database and its clients. -/
structure Service where
  /-- The ID of the database -/
  database : Nat
  /-- The block `malloc` returned for it -/
  newRec : DatabaseTask
  /-- What lies behind the payload of each request it handles -/
  beyond : Nat → List UInt8
  /-- The clients by their IDs -/
  client : Nat → Option Client

inductive ServiceLocal where
  | database (d : DatabaseLocal)
  | client (c : Client) (l : ClientLocal)
  /-- A handler has been given a message it cannot handle. -/
  | crashed

/-- The database, if the task is one. -/
def ServiceLocal.database? : ServiceLocal → Option DatabaseLocal
  | .database d => some d
  | _ => none

namespace Service

variable (svc : Service)

/-- The database as `DatabaseTask_create` leaves it. -/
def init : DatabaseTask := .create svc.newRec (UInt32.ofNat svc.database)

/-- The next move of a task. -/
def code : ServiceLocal → Move AnyMsg Int32 ServiceLocal
  | .database d => databaseMove svc.beyond .database .crashed d
  | .client c l => clientMove c svc.database (.client c) .crashed l
  | .crashed => .fault

def initialTasks (t : Nat) : Option ServiceLocal :=
  if t = svc.database then some (.database (.start svc.init))
  else (svc.client t).map fun c => .client c (.start (Int32.ofNat t))

/-- The IDs are different and below `MAX_TASK`, and no client deletes. -/
structure Admitted : Prop where
  database_lt : svc.database < Repository.maxTask
  database_free : svc.client svc.database = none
  client_lt : ∀ t c, svc.client t = some c → t < Repository.maxTask
  reqType : ∀ t c i, svc.client t = some c → c.reqType i = 1 ∨ c.reqType i = 2 ∨ c.reqType i = 4

end Service

/-- A service over the queues of its tasks. -/
def serviceNetwork (svc : Service) (map : Mapping) : System (Net ServiceLocal Mailbox) Nat :=
  network (mailboxes map) svc.code svc.initialTasks Repository.maxTask

/-! ## Requests -/

namespace Service

variable (svc : Service)

/-- The request of a client in a turn of its loop. -/
def requestOf (p : Nat × Nat) : RequestMsg :=
  ((svc.client p.1).bind fun c => c.buildRequest (Int32.ofNat p.1) p.2).getD
    (.create requestMsgTag)

/-- The requests of these clients and turns, as the database handles them. -/
def events (ps : List (Nat × Nat)) : List (RequestMsg × List UInt8) :=
  ps.mapIdx fun j p => (svc.requestOf p, svc.beyond j)

@[simp] theorem length_events (ps : List (Nat × Nat)) : (svc.events ps).length = ps.length := by
  simp [events]

theorem events_append (ps : List (Nat × Nat)) (p : Nat × Nat) :
    svc.events (ps ++ [p]) = svc.events ps ++ [(svc.requestOf p, svc.beyond ps.length)] := by
  simp [events, List.mapIdx_append]

variable {svc}

theorem Admitted.buildRequest_eq (h : svc.Admitted) {t : Nat} {c : Client}
    (hc : svc.client t = some c)
    (i : Nat) : c.buildRequest (Int32.ofNat t) i = some (svc.requestOf (t, i)) := by
  have hbuild : (c.buildRequest (Int32.ofNat t) i).isSome := by
    rcases h.reqType t c i hc with htype | htype | htype <;>
      simp [Client.buildRequest, htype]
  obtain ⟨req, hreq⟩ := Option.isSome_iff_exists.mp hbuild
  simp [requestOf, hc, hreq]

/-- What a client sends: a request of its own, with a small record. -/
theorem Admitted.requestOf_spec (h : svc.Admitted) {t : Nat} {c : Client}
    (hc : svc.client t = some c) (i : Nat) :
    (svc.requestOf (t, i)).tag = requestMsgTag ∧
      (svc.requestOf (t, i)).senderTaskId = Int32.ofNat t ∧
      (AnyMsg.request (svc.requestOf (t, i))).WellFormed ∧
      (svc.requestOf (t, i)).msgSize.toInt ≤ 136 := by
  have hbuild := h.buildRequest_eq hc i
  have hassign : ∀ requestType, RequestMsg.Built
      { RequestMsg.create requestMsgTag with
        senderTaskId := Int32.ofNat t, requestType := requestType } := by
    intro requestType
    exact .assign (.create _) _ _
  have hset : ∀ requestType (data : List UInt8), data.length ≤ 48 →
      let req := { RequestMsg.create requestMsgTag with
        senderTaskId := Int32.ofNat t, requestType := requestType }.setData data
      (AnyMsg.request req).WellFormed ∧ req.msgSize.toInt ≤ 136 := by
    intro requestType data hlen
    have hsize : (Int32.ofInt RequestMsg.sizeof).toInt = 88 := by decide
    have hfits : (88 : Int) + data.length ≤ intMax := by
      unfold intMax
      omega
    refine ⟨(RequestMsg.Built.setData (hassign requestType) data ?_).wellFormed, ?_⟩
    · show (Int32.ofInt RequestMsg.sizeof).toInt + _ ≤ _
      rw [hsize]
      exact hfits
    · show (Int32.ofInt ((Int32.ofInt RequestMsg.sizeof).toInt + _)).toInt ≤ 136
      rw [hsize, toInt_ofInt_of_fits (by omega) hfits]
      omega
  have hselect : ∀ i, (Client.selData i).length ≤ 48 := by
    intro i
    rw [Client.selData, (longBytes _).2]
    omega
  have hne : (2 : Int32) ≠ 1 ∧ (4 : Int32) ≠ 1 ∧ (4 : Int32) ≠ 2 ∧ (4 : Int32) ≠ 3 := by decide
  rcases h.reqType t c i hc with htype | htype | htype
  · simp only [Client.buildRequest, htype, if_true, Option.some.injEq] at hbuild
    rw [← hbuild]
    exact ⟨rfl, rfl, hset _ _ (hselect i)⟩
  · simp only [Client.buildRequest, htype, hne.1, if_false, if_true, Option.some.injEq] at hbuild
    rw [← hbuild]
    exact ⟨rfl, rfl, hset _ _ (by rw [StudentInfo.length_bytes]; decide)⟩
  · simp only [Client.buildRequest, htype, hne, if_false, if_true, Option.some.injEq] at hbuild
    rw [← hbuild]
    refine ⟨rfl, rfl, (hassign _).wellFormed, ?_⟩
    show (Int32.ofInt RequestMsg.sizeof).toInt ≤ 136
    decide

/-- Task IDs are small enough for an `int`. -/
theorem Admitted.ofNat_toInt (h : svc.Admitted) {t : Nat} {c : Client}
    (hc : svc.client t = some c) : (Int32.ofNat t).toInt = t := by
  have hlt := h.client_lt t c hc
  unfold Repository.maxTask at hlt
  rw [← Int32.ofInt_eq_ofNat]
  exact toInt_ofInt_of_fits (by omega) (by unfold intMax; omega)

/-- Different clients are different senders. -/
theorem Admitted.sender_inj (h : svc.Admitted) {t u : Nat} {c d : Client}
    (hc : svc.client t = some c) (hd : svc.client u = some d) :
    Int32.ofNat t = Int32.ofNat u ↔ t = u := by
  refine ⟨fun heq => ?_, fun heq => by rw [heq]⟩
  have hint := congrArg Int32.toInt heq
  rw [h.ofNat_toInt hc, h.ofNat_toInt hd] at hint
  omega

end Service

/-! ## Progress -/

namespace ClientPc

/-- How many responses a client with `n` requests has handled. -/
def handled (n : Nat) : ClientPc → Nat
  | .request i | .receive i _ => i
  | .finished => n

/-- How many requests it has sent. -/
def sent (n : Nat) : ClientPc → Nat
  | .request i => i
  | .receive i _ => i + 1
  | .finished => n

/-- How many responses it has dequeued. -/
def taken (n : Nat) : ClientPc → Nat
  | .receive i point => i + point.dequeued
  | pc => pc.handled n

def hand (msgs : List AnyMsg) : ClientPc → Option AnyMsg
  | .receive i point => point.hand msgs[i]?
  | _ => none

/-- The loop stays in its bounds, and a client that is past polling has got its response. -/
def Valid (n : Nat) (msgs : List AnyMsg) : ClientPc → Prop
  | .request i => i ≤ n
  | .receive i point => i < n ∧ point.Ready msgs[i]?
  | .finished => True

end ClientPc

/-- The number of requests of a client. -/
def Client.n (c : Client) : Nat := c.nbRequest.toInt.toNat

/-- How far the tasks of a service have come. -/
structure ServiceProgress where
  database : DatabasePc
  client : Nat → ClientPc
  /-- The requests answered, each as its client and turn, in the order of the database's queue -/
  served : List (Nat × Nat)
  /-- The requests sent but not yet answered -/
  pending : List (Nat × Nat)

namespace ServiceProgress

variable (svc : Service) (g : ServiceProgress)

/-- What the database has been sent. -/
def toDatabase : List AnyMsg := (g.served ++ g.pending).map fun p => .request (svc.requestOf p)

/-- The requests the database has handled. -/
def handled : List (Nat × Nat) :=
  match g.database with
  | .receive _ => g.served
  | .respond => g.served ++ g.pending.take 1

/-- The responses sent. -/
def answers : List ResponseMsg := svc.init.respondAll (svc.events g.served)

/-- The responses sent to client `t`. -/
def toClient (t : Nat) : List ResponseMsg :=
  ((g.served.zip (g.answers svc)).filter fun e => e.1.1 = t).map Prod.snd

def databaseLocal : DatabaseLocal where
  pc := g.database
  this := svc.init.afterAll (svc.events g.handled)
  handled := svc.events g.handled
  sent := (g.served.zip (g.answers svc)).map fun e => (Int32.ofNat e.1.1, e.2)

def clientLocal (t : Nat) (c : Client) : ClientLocal where
  pc := g.client t
  taskID := Int32.ofNat t
  responses := (g.toClient svc t).take ((g.client t).handled c.n)

def databaseLog : Log AnyMsg where
  accepted := g.toDatabase svc
  taken := g.served.length +
    match g.database with
    | .receive point => point.dequeued
    | .respond => 1
  inHand :=
    match g.database with
    | .receive point => point.hand (g.toDatabase svc)[g.served.length]?
    | .respond => none

def clientLog (t : Nat) (c : Client) : Log AnyMsg where
  accepted := (g.toClient svc t).map .response
  taken := (g.client t).taken c.n
  inHand := (g.client t).hand ((g.toClient svc t).map .response)

/-- The state of all tasks and queues. -/
structure Matches (a : Net ServiceLocal (Log AnyMsg)) : Prop where
  databaseTask : a.tasks svc.database = some (.database (g.databaseLocal svc))
  clientTasks : ∀ t c, svc.client t = some c → a.tasks t = some (.client c (g.clientLocal svc t c))
  noTasks : ∀ t, t ≠ svc.database → svc.client t = none → a.tasks t = none
  databaseChannel : a.channels svc.database = some (g.databaseLog svc)
  clientChannels : ∀ t c, svc.client t = some c → a.channels t = some (g.clientLog svc t c)

/-- Every client's requests have reached the database's queue in the order of its turns, and it
    has handled no more responses than it has been sent. -/
structure Valid : Prop where
  database : match g.database with
    | .receive point => point.Ready (g.toDatabase svc)[g.served.length]?
    | .respond => g.pending ≠ []
  sender : ∀ p ∈ g.served ++ g.pending, (svc.client p.1).isSome
  order : ∀ t c, svc.client t = some c →
    ((g.served ++ g.pending).filter fun p => p.1 = t).map Prod.snd =
      List.range ((g.client t).sent c.n)
  handled_le : ∀ t c, svc.client t = some c →
    (g.client t).handled c.n ≤ (g.toClient svc t).length
  client : ∀ t c, svc.client t = some c →
    (g.client t).Valid c.n ((g.toClient svc t).map .response)

end ServiceProgress

/-- How the tasks start. -/
def ServiceProgress.start : ServiceProgress where
  database := .receive .poll
  client _ := .request 0
  served := []
  pending := []

end TaskSystem
