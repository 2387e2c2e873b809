import Mathlib.Tactic.SplitIfs
import TaskSystem.System.Repository
import TaskSystem.System.TaskReceive
import TaskSystem.Tasks.DatabaseTask.Store

/-!
# The Program of the Database Task

`start` and `receive` of `DatabaseTask.c` as a program, for `max_request` -1, where the loop
does not end and `count` decides nothing. The loop sends a response after every call of
`receive`, whatever that call did.

## Contents

- `databaseSwitch`: the switch of `receive`
- `DatabaseLocal`: where the task stands, its fields, and what it has handled and sent
- `databaseMove`: its next move
- `afterAll`, `respondAll_append`: its fields after a list of requests
-/

namespace TaskSystem

open Library

variable {L : Type*}

/-- The switch of the database's `receive`. -/
def databaseSwitch (tag : Int32) : TagCase :=
  if tag = requestMsgTag then .handle
  -- "Should never receive this"
  else if tag = responseMsgTag then .ignore
  else .default

/-- Where the database stands in `start`. -/
inductive DatabasePc where
  | receive (point : ReceivePoint)
  /-- Before it builds the response and sends it -/
  | respond
  deriving DecidableEq

structure DatabaseLocal where
  pc : DatabasePc
  this : DatabaseTask
  /-- The requests given to `handle_RequestMsg`, each with what lies behind its payload -/
  handled : List (RequestMsg × List UInt8)
  /-- The responses sent, each with the task it was sent to -/
  sent : List (Int32 × ResponseMsg)

namespace DatabaseLocal

/-- A database that starts. -/
def start (this : DatabaseTask) : DatabaseLocal where
  pc := .receive .poll
  this := this
  handled := []
  sent := []

def goto (d : DatabaseLocal) (pc : DatabasePc) : DatabaseLocal := { d with pc := pc }

/-- After `handle_RequestMsg` has run. -/
def serve (d : DatabaseLocal) (requestMsg : RequestMsg) (beyond : List UInt8) : DatabaseLocal :=
  { d with
    pc := .respond
    this := d.this.handleRequestMsg requestMsg beyond
    handled := d.handled ++ [(requestMsg, beyond)] }

/-- After `send` has run. -/
def answered (d : DatabaseLocal) : DatabaseLocal :=
  { d with
    pc := .receive .poll
    sent := d.sent ++ [(d.this.currentRequesterTaskId, d.this.response)] }

end DatabaseLocal

/-- After the handler has run on a message; `crashed` when the message has been taken for a
    request and is none. `beyond` gives the bytes behind the payload of each request. -/
def databaseHandle (beyond : Nat → List UInt8) (wrap : DatabaseLocal → L) (crashed : L)
    (d : DatabaseLocal) : AnyMsg → L
  | .request requestMsg => wrap (d.serve requestMsg (beyond d.handled.length))
  | _ => crashed

/-- The next move of the database. -/
def databaseMove (beyond : Nat → List UInt8) (wrap : DatabaseLocal → L) (crashed : L)
    (d : DatabaseLocal) : Move AnyMsg Int32 L :=
  match d.pc with
  | .receive point =>
    receiveMove databaseSwitch (fun point => wrap (d.goto (.receive point)))
      (fun _ => databaseHandle beyond wrap crashed d) (wrap (d.goto .respond)) point
  | .respond =>
    let target := d.this.currentRequesterTaskId.toInt
    -- `send` reads `TaskTable[target]`, which has `MAX_TASK` entries
    if 0 ≤ target ∧ target < Repository.maxTask then
      .send target.toNat (.response d.this.response) fun _ => wrap d.answered
    else .fault

namespace DatabaseTask

/-! ## Requests in a row -/

variable {s : DatabaseTask}

/-- The task after it has handled the requests. -/
def afterAll (s : DatabaseTask) (reqs : List (RequestMsg × List UInt8)) : DatabaseTask :=
  reqs.foldl (fun s e => s.handleRequestMsg e.1 e.2) s

theorem afterAll_append (reqs : List (RequestMsg × List UInt8)) (e : RequestMsg × List UInt8) :
    s.afterAll (reqs ++ [e]) = (s.afterAll reqs).handleRequestMsg e.1 e.2 := by
  rw [afterAll, List.foldl_append]
  rfl

@[simp] theorem length_respondAll (reqs : List (RequestMsg × List UInt8)) :
    (s.respondAll reqs).length = reqs.length := by
  induction reqs generalizing s with
  | nil => rfl
  | cons e es ih => rw [respondAll, List.length_cons, List.length_cons, ih]

/-- The last response is that of the task after all requests. -/
theorem respondAll_append (reqs : List (RequestMsg × List UInt8)) (e : RequestMsg × List UInt8) :
    s.respondAll (reqs ++ [e]) = s.respondAll reqs ++ [(s.afterAll (reqs ++ [e])).response] := by
  induction reqs generalizing s with
  | nil => rfl
  | cons e' es ih =>
    rw [List.cons_append, respondAll, ih]
    rfl

theorem respondAll_tag (reqs : List (RequestMsg × List UInt8)) (s : DatabaseTask)
    {response : ResponseMsg} (h : response ∈ s.respondAll reqs) :
    response.tag = responseMsgTag := by
  induction reqs generalizing s with
  | nil => cases h
  | cons e es ih =>
    rcases List.mem_cons.mp h with rfl | h
    · unfold DatabaseTask.response
      split <;> rfl
    · exact ih _ h

theorem handle_requester (req : RequestMsg) (beyond : List UInt8) :
    (s.handleRequestMsg req beyond).currentRequesterTaskId = req.senderTaskId := by
  simp only [handleRequestMsg_eq]
  split_ifs <;> first | rfl | (split <;> rfl)

/-- Responses carry at most one record. -/
theorem handle_responseSize (req : RequestMsg) (beyond : List UInt8)
    (h : s.responseSize.toInt ≤ sizeofStudentInfo) :
    (s.handleRequestMsg req beyond).responseSize.toInt ≤ sizeofStudentInfo := by
  have hnone : (0 : Int32).toInt ≤ sizeofStudentInfo := by decide
  have hone : (Int32.ofNat sizeofStudentInfo).toInt ≤ sizeofStudentInfo := by decide
  simp only [handleRequestMsg_eq]
  split_ifs <;> first | assumption | (split <;> assumption)

theorem afterAll_responseSize (h : s.responseSize.toInt ≤ sizeofStudentInfo)
    (reqs : List (RequestMsg × List UInt8)) :
    (s.afterAll reqs).responseSize.toInt ≤ sizeofStudentInfo := by
  induction reqs generalizing s with
  | nil => exact h
  | cons e es ih => exact ih (handle_responseSize e.1 e.2 h)

/-- A response is a message built by the setters, of at most 128 bytes. -/
theorem response_small (h : s.responseSize.toInt ≤ sizeofStudentInfo) :
    (AnyMsg.response s.response).WellFormed ∧ s.response.msgSize.toInt ≤ 128 := by
  have hcreate :
      ResponseMsg.Built { ResponseMsg.create responseMsgTag with code := s.responseCode } :=
    .assign (.create _) _
  unfold sizeofStudentInfo at h
  unfold response
  split
  case isTrue hpos =>
    have hlen : (s.responseBytes.take s.responseSize.toInt.toNat).length ≤ 48 := by
      rw [List.length_take]
      omega
    have hsize : (Int32.ofInt ResponseMsg.sizeof).toInt = 80 := by decide
    have hfits :
        (80 : Int) + (s.responseBytes.take s.responseSize.toInt.toNat).length ≤ intMax := by
      unfold intMax
      omega
    refine ⟨(ResponseMsg.Built.setData hcreate _ ?_).wellFormed, ?_⟩
    · show (Int32.ofInt ResponseMsg.sizeof).toInt + _ ≤ _
      rw [hsize]
      exact hfits
    · show (Int32.ofInt ((Int32.ofInt ResponseMsg.sizeof).toInt + _)).toInt ≤ 128
      rw [hsize, toInt_ofInt_of_fits (by omega) hfits]
      omega
  case isFalse =>
    refine ⟨hcreate.wellFormed, ?_⟩
    show (Int32.ofInt ResponseMsg.sizeof).toInt ≤ 128
    decide

end DatabaseTask

end TaskSystem
