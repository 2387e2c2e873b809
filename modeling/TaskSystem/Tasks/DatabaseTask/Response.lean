import TaskSystem.Library.Transition
import TaskSystem.Tasks.DatabaseTask

/-!
# What a Response Depends On

The answer of the handler lives in fields of the task from one request to the next. For a
request of one of the four types every branch sets all of them; for any other type none is
set, and the requester is sent the answer to somebody's earlier request.

## Contents

- `handle_select`, `handle_insert`, `handle_delete`, `handle_ping`, `handle_other`
- `response_known_iff`: the response depends on the request and the table alone exactly for
  the four types
- `response_leak`: a record that one client selected is sent to another
-/

namespace TaskSystem

open Library

namespace DatabaseTask

/-! ## One lemma per request type -/

/-- The id a SELECT or DELETE request asks for. -/
def requestId (req : RequestMsg) : Int64 := ofLongBytes (slice req.data 0 sizeofSelectInfo)

/-- The record an INSERT request brings. -/
def requestStudent (req : RequestMsg) : StudentInfo := StudentInfo.ofBytes req.data

/-- The payload is as long as the struct the type of the request stands for. -/
def LongEnough (req : RequestMsg) : Prop :=
  (req.requestType = selectRequest → sizeofSelectInfo ≤ req.data.length) ∧
    (req.requestType = insertRequest → sizeofStudentInfo ≤ req.data.length) ∧
    (req.requestType = deleteRequest → sizeofSelectInfo ≤ req.data.length)

/-- One of the four request types. -/
def KnownType (t : Int32) : Prop :=
  t = selectRequest ∨ t = insertRequest ∨ t = deleteRequest ∨ t = pingRequest

/-- The task with the requester of `req` noted. -/
def noteRequester (this : DatabaseTask) (req : RequestMsg) : DatabaseTask :=
  { this with currentRequesterTaskId := req.senderTaskId }

variable {this : DatabaseTask} {req : RequestMsg}

theorem selectInfo_append (beyond : List UInt8) (h : sizeofSelectInfo ≤ req.data.length) :
    (SelectInfo.ofBytes (req.data ++ beyond)).id = requestId req := by
  rw [SelectInfo.ofBytes, slice_append_left beyond (by simpa [sizeofSelectInfo] using h)]
  rfl

theorem studentInfo_append (beyond : List UInt8) (h : sizeofStudentInfo ≤ req.data.length) :
    StudentInfo.ofBytes (req.data ++ beyond) = requestStudent req := by
  unfold sizeofStudentInfo at h
  simp only [requestStudent, StudentInfo.ofBytes]
  rw [slice_append_left beyond (by omega), slice_append_left beyond (by omega),
    slice_append_left beyond (by omega), slice_append_left beyond (by omega),
    slice_append_left beyond (by omega)]

theorem handle_select (beyond : List UInt8) (htype : req.requestType = selectRequest)
    (hlen : sizeofSelectInfo ≤ req.data.length) :
    this.handleRequestMsg req beyond =
      match this.findStudent (requestId req) with
      | some found =>
        (this.noteRequester req).setResponse responseOk (some found)
          (Int32.ofNat sizeofStudentInfo)
      | none => (this.noteRequester req).setResponse responseError none 0 := by
  simp only [handleRequestMsg_eq, htype, if_true, selectInfo_append beyond hlen]
  rfl

theorem handle_insert (beyond : List UInt8) (htype : req.requestType = insertRequest)
    (hlen : sizeofStudentInfo ≤ req.data.length) :
    this.handleRequestMsg req beyond =
      if h : this.studentCount < maxStudent then
        { this.noteRequester req with
          students := this.students.modify this.studentCount (fillSlot (requestStudent req))
          studentCount := this.studentCount + 1
          length_students := by rw [List.length_modify, this.length_students]
          studentCount_le := h }.setResponse responseOk none 0
      else (this.noteRequester req).setResponse responseError none 0 := by
  have hne : insertRequest ≠ selectRequest := by decide
  simp only [handleRequestMsg_eq, htype, hne, if_true, if_false, studentInfo_append beyond hlen]
  rfl

theorem handle_delete (beyond : List UInt8) (htype : req.requestType = deleteRequest)
    (hlen : sizeofSelectInfo ≤ req.data.length) :
    this.handleRequestMsg req beyond =
      match this.findStudent (requestId req) with
      | some i =>
        { this.noteRequester req with
          students := this.students.modify i clearSlot
          length_students := by rw [List.length_modify, this.length_students] }.setResponse
            responseOk none 0
      | none => (this.noteRequester req).setResponse responseError none 0 := by
  have hne₁ : deleteRequest ≠ selectRequest := by decide
  have hne₂ : deleteRequest ≠ insertRequest := by decide
  simp only [handleRequestMsg_eq, htype, hne₁, hne₂, if_true, if_false,
    selectInfo_append beyond hlen]
  rfl

theorem handle_ping (beyond : List UInt8) (htype : req.requestType = pingRequest) :
    this.handleRequestMsg req beyond =
      (this.noteRequester req).setResponse responseOk none 0 := by
  have hne₁ : pingRequest ≠ selectRequest := by decide
  have hne₂ : pingRequest ≠ insertRequest := by decide
  have hne₃ : pingRequest ≠ deleteRequest := by decide
  simp only [handleRequestMsg_eq, htype, hne₁, hne₂, hne₃, if_true, if_false]
  rfl

theorem handle_other (beyond : List UInt8) (htype : ¬KnownType req.requestType) :
    this.handleRequestMsg req beyond = this.noteRequester req := by
  simp only [KnownType, not_or] at htype
  obtain ⟨h₁, h₂, h₃, h₄⟩ := htype
  simp only [handleRequestMsg_eq, h₁, h₂, h₃, h₄, if_false]
  rfl

/-! ## The response to a request of a known type -/

/-- The two tasks hold the same students table and `student_count`. -/
structure SameTable (s₁ s₂ : DatabaseTask) : Prop where
  students : s₁.students = s₂.students
  studentCount : s₁.studentCount = s₂.studentCount

/-- The two tasks will send the same response. -/
structure SameAnswer (s₁ s₂ : DatabaseTask) : Prop extends SameTable s₁ s₂ where
  responseCode : s₁.responseCode = s₂.responseCode
  responseData : s₁.responseData = s₂.responseData
  responseSize : s₁.responseSize = s₂.responseSize

theorem SameAnswer.response_eq {s₁ s₂ : DatabaseTask} (h : SameAnswer s₁ s₂) :
    s₁.response = s₂.response := by
  simp only [response, responseBytes, h.responseCode, h.responseData, h.responseSize, h.students]

/-- `setResponse` sets all that a response depends on but the table. -/
theorem SameTable.setResponse {s₁ s₂ : DatabaseTask} (h : SameTable s₁ s₂) (code : Int32)
    (data : Option Nat) (dataSize : Int32) :
    SameAnswer (s₁.setResponse code data dataSize) (s₂.setResponse code data dataSize) :=
  ⟨⟨h.students, h.studentCount⟩, rfl, rfl, rfl⟩

theorem SameTable.findStudent_eq {s₁ s₂ : DatabaseTask} (h : SameTable s₁ s₂) (id : Int64) :
    s₁.findStudent id = s₂.findStudent id := by
  rw [findStudent, findStudent, h.students, h.studentCount]

/-- **Every branch of a known type sets the whole answer**, from the table and the request. -/
theorem SameTable.handle {s₁ s₂ : DatabaseTask} (h : SameTable s₁ s₂)
    (hknown : KnownType req.requestType) (hlen : LongEnough req) (beyond₁ beyond₂ : List UInt8) :
    SameAnswer (s₁.handleRequestMsg req beyond₁) (s₂.handleRequestMsg req beyond₂) := by
  have hnote : SameTable (s₁.noteRequester req) (s₂.noteRequester req) :=
    ⟨h.students, h.studentCount⟩
  rcases hknown with htype | htype | htype | htype
  · rw [handle_select beyond₁ htype (hlen.1 htype), handle_select beyond₂ htype (hlen.1 htype),
      h.findStudent_eq]
    split
    · exact hnote.setResponse _ _ _
    · exact hnote.setResponse _ _ _
  · rw [handle_insert beyond₁ htype (hlen.2.1 htype), handle_insert beyond₂ htype (hlen.2.1 htype)]
    by_cases hroom : s₁.studentCount < maxStudent
    · rw [dif_pos hroom, dif_pos (h.studentCount ▸ hroom)]
      apply SameTable.setResponse
      exact ⟨by simp only [h.students, h.studentCount], by simp only [h.studentCount]⟩
    · rw [dif_neg hroom, dif_neg (h.studentCount ▸ hroom)]
      exact hnote.setResponse _ _ _
  · rw [handle_delete beyond₁ htype (hlen.2.2 htype), handle_delete beyond₂ htype (hlen.2.2 htype),
      h.findStudent_eq]
    split
    · apply SameTable.setResponse
      exact ⟨by simp only [h.students], h.studentCount⟩
    · exact hnote.setResponse _ _ _
  · rw [handle_ping beyond₁ htype, handle_ping beyond₂ htype]
    exact hnote.setResponse _ _ _

/-! ## All runs -/

/-- The database task, request after request. -/
def database : System DatabaseTask (RequestMsg × List UInt8) where
  init s := ∃ newRec taskID, s = create newRec taskID
  step s e := some (s.handleRequestMsg e.1 e.2)

@[simp] theorem response_code (s : DatabaseTask) : s.response.code = s.responseCode := by
  unfold response
  split <;> rfl

/-- A zeroed block of memory as `malloc` may return it. -/
def zeroRec : DatabaseTask where
  taskID := 0
  currentRequesterTaskId := 0
  responseCode := 0
  responseData := none
  responseSize := 0
  studentCount := 0
  students := List.replicate maxStudent (StudentInfo.ofBytes [])
  length_students := List.length_replicate
  studentCount_le := Nat.zero_le _

/-- A request of the given type and payload. -/
def mkRequest (requestType : Int32) (data : List UInt8) : RequestMsg :=
  { (RequestMsg.create requestMsgTag).setData data with requestType := requestType }

/-- **The response depends only on the request and the table**, whatever came before, exactly
    when the request is of one of the four types. -/
theorem response_known_iff (req : RequestMsg) (hlen : LongEnough req) :
    (∀ s₁ s₂, database.Reachable s₁ → database.Reachable s₂ → SameTable s₁ s₂ →
      ∀ beyond₁ beyond₂, (s₁.handleRequestMsg req beyond₁).response =
        (s₂.handleRequestMsg req beyond₂).response) ↔ KnownType req.requestType := by
  constructor
  · intro hall
    by_contra hother
    -- a fresh task answers ERROR, one that has answered a PING answers OK
    have hfresh : database.Reachable (create zeroRec 1) := .init ⟨zeroRec, 1, rfl⟩
    have hpinged : database.Reachable
        ((create zeroRec 1).handleRequestMsg (mkRequest pingRequest []) []) :=
      hfresh.step (e := (mkRequest pingRequest [], [])) rfl
    rw [handle_ping [] rfl] at hpinged
    have heq := congrArg ResponseMsg.code (hall _ _ hfresh hpinged ⟨rfl, rfl⟩ [] [])
    rw [handle_other [] hother, handle_other [] hother, response_code, response_code] at heq
    have hcodes : responseError = responseOk := heq
    exact absurd hcodes (by decide)
  · intro hknown s₁ s₂ _ _ hsame beyond₁ beyond₂
    exact (hsame.handle hknown hlen beyond₁ beyond₂).response_eq

/-- The student with id 7, "Ada" and no grade. -/
def ada : StudentInfo :=
  { StudentInfo.ofBytes [] with
    id := 7
    name := ⟨strncpy [65, 100, 97] 30, length_strncpy _ _⟩ }

/-- A SELECT of the student just inserted is answered alike by a new table with that student and
    by one that has answered a SELECT and a PING since. -/
theorem response_known_iff_select :
    let s₁ := (create zeroRec 1).handleRequestMsg (mkRequest insertRequest ada.bytes) []
    let s₂ := (s₁.handleRequestMsg (mkRequest selectRequest (longBytes 7).1) []).handleRequestMsg
      (mkRequest pingRequest []) []
    ((s₁.handleRequestMsg (mkRequest selectRequest (longBytes 7).1) []).response.data =
        ada.bytes) ∧
      ∀ beyond₁ beyond₂,
        (s₁.handleRequestMsg (mkRequest selectRequest (longBytes 7).1) beyond₁).response =
          (s₂.handleRequestMsg (mkRequest selectRequest (longBytes 7).1) beyond₂).response := by
  intro s₁ s₂
  have hfresh : database.Reachable (create zeroRec 1) := .init ⟨zeroRec, 1, rfl⟩
  have h₁ : database.Reachable s₁ :=
    hfresh.step (e := (mkRequest insertRequest ada.bytes, [])) rfl
  have h₂ : database.Reachable s₂ :=
    (h₁.step (e := (mkRequest selectRequest (longBytes 7).1, [])) rfl).step
      (e := (mkRequest pingRequest [], [])) rfl
  have hlen : LongEnough (mkRequest selectRequest (longBytes 7).1) :=
    ⟨by decide, by decide, by decide⟩
  have hanswer := (response_known_iff _ hlen).mpr (.inl rfl) s₁ s₂ h₁ h₂
  exact ⟨by decide +kernel, hanswer ⟨by decide +kernel, by decide +kernel⟩⟩

/-- **A leak**: after one client has inserted a record, a request of type 4 is answered with
    no data; after another client has selected it as well, with that record. -/
theorem response_leak :
    let s₁ := (create zeroRec 1).handleRequestMsg (mkRequest insertRequest ada.bytes) []
    let s₂ := s₁.handleRequestMsg (mkRequest selectRequest (longBytes 7).1) []
    database.Reachable s₁ ∧ database.Reachable s₂ ∧ SameTable s₁ s₂ ∧
      (s₁.handleRequestMsg (mkRequest 4 []) []).response.data = [] ∧
      (s₂.handleRequestMsg (mkRequest 4 []) []).response.data = ada.bytes := by
  intro s₁ s₂
  have hfresh : database.Reachable (create zeroRec 1) := .init ⟨zeroRec, 1, rfl⟩
  have h₁ : database.Reachable s₁ :=
    hfresh.step (e := (mkRequest insertRequest ada.bytes, [])) rfl
  have h₂ : database.Reachable s₂ :=
    h₁.step (e := (mkRequest selectRequest (longBytes 7).1, [])) rfl
  refine ⟨h₁, h₂, ?_, by decide +kernel, by decide +kernel⟩
  have hselect : s₂ = _ := handle_select [] rfl (by decide)
  rw [hselect]
  split
  · exact ⟨rfl, rfl⟩
  · exact ⟨rfl, rfl⟩

end DatabaseTask

end TaskSystem
