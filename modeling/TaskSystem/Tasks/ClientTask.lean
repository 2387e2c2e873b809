import TaskSystem.Tasks.DatabaseTask.Program

/-!
# Client Tasks

`src/Tasks/ClientTask/ClientTask.c`: a task that sends one request after another to the
database, each after the response to the one before. It waits in the loop of `receive` and never
sleeps in `message_notify`, so that nothing is assumed of the loop that wakes sleepers.

## Contents

- `Client`: what the tests set for a client
- `buildRequest`: the request of one turn of the loop
- `ClientLocal`, `clientMove`: the client's program, once it has got the database's ID
-/

namespace TaskSystem

open Library

variable {L : Type*}

/-- The number of requests of a client and their types. -/
structure Client where
  /-- `nb_request` -/
  nbRequest : Int32
  /-- `req_type`. The tests set it once; here every turn of the loop may have its own. -/
  reqType : Nat → Int32
  /-- The bytes of `student_data` that no assignment sets -/
  gap : Nat → Bytes 2
  rest : Nat → Bytes 4

/-- "Francois Gingras" -/
def clientName : List UInt8 :=
  [70, 114, 97, 110, 99, 111, 105, 115, 32, 71, 105, 110, 103, 114, 97, 115]

namespace Client

/-- `student_data` of turn `i`; the grade is `4.3f`. -/
def studentData (c : Client) (i : Nat) : StudentInfo where
  id := Int64.ofNat i
  name := ⟨strncpy clientName 30, length_strncpy _ _⟩
  gap := c.gap i
  gpa := ⟨[0x9A, 0x99, 0x89, 0x40], rfl⟩
  rest := c.rest i

/-- `sel_data` of turn `i` -/
def selData (i : Nat) : List UInt8 := (longBytes (Int64.ofNat i)).1

/-- The request of turn `i`; none when the type is wrong, which ends the process. -/
def buildRequest (c : Client) (taskID : Int32) (i : Nat) : Option RequestMsg :=
  let req := { RequestMsg.create requestMsgTag with senderTaskId := taskID }
  if c.reqType i = 1 then some ({ req with requestType := selectRequest }.setData (selData i))
  else if c.reqType i = 2 then
    some ({ req with requestType := insertRequest }.setData (c.studentData i).bytes)
  else if c.reqType i = 3 then
    some ({ req with requestType := deleteRequest }.setData (selData i))
  else if c.reqType i = 4 then some { req with requestType := pingRequest }
  else none

end Client

/-- The switch of a client's `receive`. -/
def clientSwitch (tag : Int32) : TagCase :=
  -- "SHOULD NOT RECEIVE REQUEST"
  if tag = requestMsgTag then .ignore
  else if tag = responseMsgTag then .handle
  else .default

/-- Where a client stands in `start`, with its loop's variable. -/
inductive ClientPc where
  /-- At the head of the loop -/
  | request (i : Nat)
  | receive (i : Nat) (point : ReceivePoint)
  | finished
  deriving DecidableEq

structure ClientLocal where
  pc : ClientPc
  taskID : Int32
  /-- The responses given to `handle_ResponseMsg`, which only prints them -/
  responses : List ResponseMsg

namespace ClientLocal

/-- A client that has got the database's ID. -/
def start (taskID : Int32) : ClientLocal where
  pc := .request 0
  taskID := taskID
  responses := []

def goto (l : ClientLocal) (pc : ClientPc) : ClientLocal := { l with pc := pc }

/-- After `handle_ResponseMsg` has run. -/
def handled (l : ClientLocal) (i : Nat) (responseMsg : ResponseMsg) : ClientLocal :=
  { l with pc := .request (i + 1), responses := l.responses ++ [responseMsg] }

end ClientLocal

/-- After the handler has run on a message. -/
def clientHandle (wrap : ClientLocal → L) (crashed : L) (l : ClientLocal) (i : Nat) : AnyMsg → L
  | .response responseMsg => wrap (l.handled i responseMsg)
  | _ => crashed

/-- The next move of a client. `message_wait` yields the processor and does nothing else. -/
def clientMove (c : Client) (database : Nat) (wrap : ClientLocal → L) (crashed : L)
    (l : ClientLocal) : Move AnyMsg Int32 L :=
  match l.pc with
  | .request i =>
    if (i : Int) < c.nbRequest.toInt then
      match c.buildRequest l.taskID i with
      | some req => .send database (.request req) fun _ => wrap (l.goto (.receive i .poll))
      | none => .fault
    else .compute (wrap (l.goto .finished))
  | .receive i point =>
    receiveMove clientSwitch (fun point => wrap (l.goto (.receive i point)))
      (fun _ => clientHandle wrap crashed l i) (wrap (l.goto (.request (i + 1)))) point
  | .finished => .stop

end TaskSystem
