import TaskSystem.Messages.RoundTrip

/-!
# The Database Task

`src/Tasks/DatabaseTask/DatabaseTask.c`: a table of students kept by one task that answers
one request at a time. The handler leaves its answer in fields of the task, from which
`start` builds the response.

## Contents

- `StudentInfo`, `SelectInfo`: the structs a request and a response carry, byte for byte
- `DatabaseTask`: the task's fields; `create`, `setResponse`
- `memcpy`, `runRequestMsg`: the handler, with the copies it makes of the payload
- `handleRequestMsg`, `payloadCopies`: what it leaves in the task, and what it has copied
- `response`: the message `start` sends after it
-/

namespace TaskSystem

open Library

/-! ## Records -/

/-- `struct StudentInfo`, padding included: responses carry all of its bytes. -/
structure StudentInfo where
  id : Int64
  name : Bytes 30
  /-- Padding between `name` and `gpa` -/
  gap : Bytes 2
  /-- The bytes of the `float` -/
  gpa : Bytes 4
  /-- Padding at the end -/
  rest : Bytes 4
  deriving DecidableEq

/-- `sizeof(struct StudentInfo)` -/
def sizeofStudentInfo : Nat := 48

example : structLayout [.long, .chars 30, .float] = ([0, 8, 40], sizeofStudentInfo) := by decide

namespace StudentInfo

/-- The bytes of the struct. -/
def bytes (s : StudentInfo) : List UInt8 :=
  (longBytes s.id).1 ++ s.name.1 ++ s.gap.1 ++ s.gpa.1 ++ s.rest.1

/-- The struct whose bytes start the buffer. -/
def ofBytes (bs : List UInt8) : StudentInfo where
  id := ofLongBytes (slice bs 0 8)
  name := slice bs 8 30
  gap := slice bs 38 2
  gpa := slice bs 40 4
  rest := slice bs 44 4

@[simp] theorem length_bytes (s : StudentInfo) : s.bytes.length = sizeofStudentInfo := by
  simp [bytes, s.name.2, s.gap.2, s.gpa.2, s.rest.2, (longBytes s.id).2, sizeofStudentInfo]

/-- **A struct is read back from its bytes**, whatever lies behind them. -/
theorem ofBytes_bytes (s : StudentInfo) (beyond : List UInt8) :
    ofBytes (s.bytes ++ beyond) = s := by
  obtain ⟨id, name, gap, gpa, rest⟩ := s
  obtain ⟨i, hi⟩ : ∃ i, longBytes id = i := ⟨_, rfl⟩
  obtain ⟨hidLen, hnameLen, hgapLen, hgpaLen⟩ :=
    And.intro i.2 (And.intro name.2 (And.intro gap.2 gpa.2))
  have hbytes : bytes ⟨id, name, gap, gpa, rest⟩ ++ beyond =
      i.1 ++ (name.1 ++ (gap.1 ++ (gpa.1 ++ (rest.1 ++ beyond)))) := by
    simp [bytes, hi]
  -- each field is the slice that starts where the fields before it end
  have hid : slice (i.1 ++ (name.1 ++ (gap.1 ++ (gpa.1 ++ (rest.1 ++ beyond))))) 0 8 = i :=
    slice_append i (rfl : ([] : List UInt8).length = 0)
  have hname : slice (i.1 ++ (name.1 ++ (gap.1 ++ (gpa.1 ++ (rest.1 ++ beyond))))) 8 30 = name :=
    slice_append name hidLen
  have hgap : slice (i.1 ++ (name.1 ++ (gap.1 ++ (gpa.1 ++ (rest.1 ++ beyond))))) 38 2 = gap := by
    rw [← List.append_assoc i.1]
    apply slice_append gap
    rw [List.length_append, hidLen, hnameLen]
  have hgpa : slice (i.1 ++ (name.1 ++ (gap.1 ++ (gpa.1 ++ (rest.1 ++ beyond))))) 40 4 = gpa := by
    rw [← List.append_assoc i.1, ← List.append_assoc (i.1 ++ name.1)]
    apply slice_append gpa
    rw [List.length_append, List.length_append, hidLen, hnameLen, hgapLen]
  have hrest : slice (i.1 ++ (name.1 ++ (gap.1 ++ (gpa.1 ++ (rest.1 ++ beyond))))) 44 4 = rest := by
    rw [← List.append_assoc i.1, ← List.append_assoc (i.1 ++ name.1),
      ← List.append_assoc (i.1 ++ name.1 ++ gap.1)]
    apply slice_append rest
    rw [List.length_append, List.length_append, List.length_append, hidLen, hnameLen, hgapLen,
      hgpaLen]
  simp only [ofBytes, hbytes, hid, hname, hgap, hgpa, hrest]
  rw [← hi, ofLongBytes_longBytes]

end StudentInfo

/-- `struct SelectInfo` -/
structure SelectInfo where
  id : Int64
  deriving DecidableEq

/-- `sizeof(struct SelectInfo)` -/
def sizeofSelectInfo : Nat := 8

example : structLayout [.long] = ([0], sizeofSelectInfo) := by decide

/-- The struct whose bytes start the buffer. -/
def SelectInfo.ofBytes (bs : List UInt8) : SelectInfo := ⟨ofLongBytes (slice bs 0 8)⟩

/-! ## The task -/

def maxStudent : Nat := 1000

def requestMsgTag : Int32 := 0
def responseMsgTag : Int32 := 1

def selectRequest : Int32 := 0
def insertRequest : Int32 := 1
def deleteRequest : Int32 := 2
def pingRequest : Int32 := 3

def responseError : Int32 := 0
def responseOk : Int32 := 1

/-- `struct DatabaseTask` without its thread. -/
structure DatabaseTask where
  taskID : UInt32
  currentRequesterTaskId : Int32
  responseCode : Int32
  /-- `response_data` is NULL or the address of a slot of `students` -/
  responseData : Option Nat
  responseSize : Int32
  studentCount : Nat
  students : List StudentInfo
  /-- `students` is an array of `MAX_STUDENT` slots -/
  length_students : students.length = maxStudent
  studentCount_le : studentCount ≤ maxStudent

namespace DatabaseTask

/-- `DatabaseTask_create`, on the block `malloc` returned. -/
def create (newRec : DatabaseTask) (taskID : UInt32) : DatabaseTask :=
  { newRec with
    taskID := taskID
    responseCode := responseError
    responseData := none
    responseSize := 0
    studentCount := 0
    studentCount_le := Nat.zero_le _ }

def setResponse (this : DatabaseTask) (code : Int32) (data : Option Nat) (dataSize : Int32) :
    DatabaseTask :=
  { this with responseCode := code, responseData := data, responseSize := dataSize }

/-- The search loops: the first used slot with the id. -/
def findStudent (this : DatabaseTask) (id : Int64) : Option Nat :=
  (this.students.take this.studentCount).findIdx? fun s => s.id == id

/-- The slot after INSERT of `info`: the padding stays as it was. -/
def fillSlot (info slot : StudentInfo) : StudentInfo :=
  { slot with
    id := info.id
    name := ⟨strncpy info.name.1 30, length_strncpy _ _⟩
    gpa := info.gpa }

/-- The slot after DELETE. -/
def clearSlot (slot : StudentInfo) : StudentInfo :=
  { slot with
    id := -1
    name := ⟨strncpy [] 30, length_strncpy _ _⟩
    gpa := ⟨[0, 0, 0, 0], rfl⟩ }

/-- A call of `memcpy` that copies the start of the payload into a local struct. -/
structure PayloadCopy where
  /-- The number of bytes copied -/
  length : Nat
  /-- The size of the struct copied into -/
  room : Nat
  deriving DecidableEq

/-- `memcpy(&info, requestMsg->getData(requestMsg), length)`, where `info` has `room` bytes: the
    bytes that `info` is read from, and the call. -/
def memcpy (payload : List UInt8) (length room : Nat) : List UInt8 × PayloadCopy :=
  (payload.take length, ⟨length, room⟩)

/-- `handle_RequestMsg`: the task after it, and the copies it has made. `beyond` are the bytes that
    lie behind the payload in memory, which `memcpy` reads when the payload is shorter than what
    it copies; of `del_info` only the id is modelled, not the 40 bytes that are copied over its
    end. -/
def runRequestMsg (this : DatabaseTask) (requestMsg : RequestMsg) (beyond : List UInt8) :
    DatabaseTask × List PayloadCopy :=
  let this := { this with currentRequesterTaskId := requestMsg.senderTaskId }
  let payload := requestMsg.data ++ beyond
  if requestMsg.requestType = selectRequest then
    let (bytes, copy) := memcpy payload sizeofSelectInfo sizeofSelectInfo
    let selInfo := SelectInfo.ofBytes bytes
    (match this.findStudent selInfo.id with
      | some found => this.setResponse responseOk (some found) (Int32.ofNat sizeofStudentInfo)
      | none => this.setResponse responseError none 0, [copy])
  else if requestMsg.requestType = insertRequest then
    let (bytes, copy) := memcpy payload sizeofStudentInfo sizeofStudentInfo
    let insertInfo := StudentInfo.ofBytes bytes
    -- put the new student in the buffer
    (if h : this.studentCount < maxStudent then
      { this with
        students := this.students.modify this.studentCount (fillSlot insertInfo)
        studentCount := this.studentCount + 1
        length_students := by rw [List.length_modify, this.length_students]
        studentCount_le := h }.setResponse responseOk none 0
    else this.setResponse responseError none 0, [copy])
  else if requestMsg.requestType = deleteRequest then
    -- the length is that of the other struct
    let (bytes, copy) := memcpy payload sizeofStudentInfo sizeofSelectInfo
    let delInfo := SelectInfo.ofBytes bytes
    (match this.findStudent delInfo.id with
      | some i =>
        { this with
          students := this.students.modify i clearSlot
          length_students := by rw [List.length_modify, this.length_students] }.setResponse
            responseOk none 0
      | none => this.setResponse responseError none 0, [copy])
  else if requestMsg.requestType = pingRequest then (this.setResponse responseOk none 0, [])
  else
    -- "Database error, invalid request type": the last response stays
    (this, [])

/-- The task after `handle_RequestMsg`. -/
def handleRequestMsg (this : DatabaseTask) (requestMsg : RequestMsg) (beyond : List UInt8) :
    DatabaseTask :=
  (this.runRequestMsg requestMsg beyond).1

/-- The copies that `handle_RequestMsg` makes. -/
def payloadCopies (this : DatabaseTask) (requestMsg : RequestMsg) (beyond : List UInt8) :
    List PayloadCopy :=
  (this.runRequestMsg requestMsg beyond).2

/-- Each copy is long enough for what is read of it, so that the structs are those at the start of
    the payload. -/
theorem handleRequestMsg_eq (this : DatabaseTask) (requestMsg : RequestMsg)
    (beyond : List UInt8) :
    this.handleRequestMsg requestMsg beyond =
      let this := { this with currentRequesterTaskId := requestMsg.senderTaskId }
      let payload := requestMsg.data ++ beyond
      if requestMsg.requestType = selectRequest then
        match this.findStudent (SelectInfo.ofBytes payload).id with
        | some found => this.setResponse responseOk (some found) (Int32.ofNat sizeofStudentInfo)
        | none => this.setResponse responseError none 0
      else if requestMsg.requestType = insertRequest then
        if h : this.studentCount < maxStudent then
          { this with
            students := this.students.modify this.studentCount
              (fillSlot (StudentInfo.ofBytes payload))
            studentCount := this.studentCount + 1
            length_students := by rw [List.length_modify, this.length_students]
            studentCount_le := h }.setResponse responseOk none 0
        else this.setResponse responseError none 0
      else if requestMsg.requestType = deleteRequest then
        match this.findStudent (SelectInfo.ofBytes payload).id with
        | some i =>
          { this with
            students := this.students.modify i clearSlot
            length_students := by rw [List.length_modify, this.length_students] }.setResponse
              responseOk none 0
        | none => this.setResponse responseError none 0
      else if requestMsg.requestType = pingRequest then this.setResponse responseOk none 0
      else this := by
  have hselect : ∀ bs, SelectInfo.ofBytes (bs.take sizeofSelectInfo) = SelectInfo.ofBytes bs := by
    intro bs
    rw [SelectInfo.ofBytes, SelectInfo.ofBytes, slice_take bs (by decide)]
  have hdelete : ∀ bs, SelectInfo.ofBytes (bs.take sizeofStudentInfo) = SelectInfo.ofBytes bs := by
    intro bs
    rw [SelectInfo.ofBytes, SelectInfo.ofBytes, slice_take bs (by decide)]
  have hinsert : ∀ bs, StudentInfo.ofBytes (bs.take sizeofStudentInfo) = StudentInfo.ofBytes bs := by
    intro bs
    simp only [StudentInfo.ofBytes]
    rw [slice_take bs (by decide), slice_take bs (by decide), slice_take bs (by decide),
      slice_take bs (by decide), slice_take bs (by decide)]
  simp only [handleRequestMsg, runRequestMsg, memcpy, hselect, hdelete, hinsert]
  split_ifs <;> rfl

/-- The bytes at `response_data`. -/
def responseBytes (this : DatabaseTask) : List UInt8 :=
  match this.responseData with
  | some i => (this.students.drop i).flatMap StudentInfo.bytes
  | none => []

/-- The response `start` builds after `receive`, which it sends to
    `current_requester_task_id`. -/
def response (this : DatabaseTask) : ResponseMsg :=
  let res := { ResponseMsg.create responseMsgTag with code := this.responseCode }
  if this.responseSize.toInt > 0 then
    res.setData (this.responseBytes.take this.responseSize.toInt.toNat)
  else res

end DatabaseTask

end TaskSystem
