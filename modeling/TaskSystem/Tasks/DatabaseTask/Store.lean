import TaskSystem.Library.SlotArray
import TaskSystem.Tasks.DatabaseTask.Response

/-!
# The Students Table as a List

What the database is for: a list of records that requests search, extend and shorten. The
table of slots, in which DELETE leaves tombstones and the count never shrinks, answers every
sequence of requests as that list does.

## Contents

- `StudentRecord`, `Query`, `Answer`, `answerQuery`: the list and its answers
- `asQuery`, `asAnswer`: what a request asks and what a response says
- `Refines`, `refines_step`: the slots stand for the list, and each request keeps it so
- `database_refines_list`: all runs with at most `MAX_STUDENT` INSERTs
-/

namespace TaskSystem

open Library Library.SlotArray

namespace DatabaseTask

/-! ## The list of live records -/

/-- A student as clients see one. -/
structure StudentRecord where
  id : Int64
  name : List UInt8
  gpa : Bytes 4
  deriving DecidableEq

inductive Query where
  | select (id : Int64)
  | insert (r : StudentRecord)
  | delete (id : Int64)
  | ping

structure Answer where
  code : Int32
  record : Option StudentRecord
  deriving DecidableEq

/-- One query on the list `l`: the list afterwards, and the answer. -/
def answerQuery (l : List StudentRecord) : Query → List StudentRecord × Answer
  | .select id =>
    match l.find? fun r => r.id == id with
    | some r => (l, ⟨responseOk, some r⟩)
    | none => (l, ⟨responseError, none⟩)
  | .insert r => (l ++ [r], ⟨responseOk, none⟩)
  | .delete id =>
    match l.find? fun r => r.id == id with
    | some _ => (l.eraseP fun r => r.id == id, ⟨responseOk, none⟩)
    | none => (l, ⟨responseError, none⟩)
  | .ping => (l, ⟨responseOk, none⟩)

/-- The answers to a sequence of queries. -/
def answerAll (l : List StudentRecord) : List Query → List Answer
  | [] => []
  | q :: qs => (answerQuery l q).2 :: answerAll (answerQuery l q).1 qs

/-! ## Requests and responses -/

/-- The record in a slot: the name is cut at its first NUL or its 30 bytes. -/
def recordOf (s : StudentInfo) : StudentRecord :=
  ⟨s.id, cString s.name.1, s.gpa⟩

/-- What a request of a known type asks. -/
def asQuery (req : RequestMsg) : Query :=
  if req.requestType = selectRequest then .select (requestId req)
  else if req.requestType = insertRequest then .insert (recordOf (requestStudent req))
  else if req.requestType = deleteRequest then .delete (requestId req)
  else .ping

/-- What a response says. -/
def asAnswer (res : ResponseMsg) : Answer where
  code := res.code
  record := if res.dataSize = 0 then none else some (recordOf (StudentInfo.ofBytes res.data))

/-- A request of one of the four types with a payload for it; no id is -1. -/
structure WellFormed (req : RequestMsg) : Prop where
  known : KnownType req.requestType
  long : LongEnough req
  /-- The payload of every type but PING starts with an id -/
  id_ne : req.requestType ≠ pingRequest → requestId req ≠ -1

/-- The responses to a sequence of requests. -/
def respondAll (s : DatabaseTask) : List (RequestMsg × List UInt8) → List ResponseMsg
  | [] => []
  | e :: es => (s.handleRequestMsg e.1 e.2).response :: respondAll (s.handleRequestMsg e.1 e.2) es

/-! ## The slots stand for the list -/

/-- A slot that is no tombstone. -/
def alive (s : StudentInfo) : Bool := s.id != -1

/-- The live slots of the task are the records of `l`, in order. -/
def Refines (s : DatabaseTask) (l : List StudentRecord) : Prop :=
  l = (live alive (s.students.take s.studentCount)).map recordOf

theorem refines_create (newRec : DatabaseTask) (taskID : UInt32) :
    (create newRec taskID).Refines [] := rfl

variable {s : DatabaseTask} {l : List StudentRecord} {req : RequestMsg}

/-- Searching for an id other than -1 finds live slots only. -/
theorem alive_of_id {id : Int64} (hid : id ≠ -1) (x : StudentInfo) (hx : (x.id == id) = true) :
    alive x = true := by
  obtain rfl : x.id = id := by simpa using hx
  simpa [alive] using hid

/-- The search loop finds the slot of the first record with the id. -/
theorem Refines.find?_eq (h : s.Refines l) {id : Int64} (hid : id ≠ -1) :
    l.find? (fun r => r.id == id) =
      (s.findStudent id).bind fun i => (s.students.take s.studentCount)[i]?.map recordOf := by
  rw [h, List.find?_map, show ((fun r : StudentRecord => r.id == id) ∘ recordOf) =
    (fun x : StudentInfo => x.id == id) from rfl, find?_live (alive_of_id hid),
    List.find?_eq_bind_findIdx?_getElem?, Option.map_bind]
  rfl

/-- A slot found is in use. -/
theorem findStudent_lt {id : Int64} {i : Nat} (h : s.findStudent id = some i) :
    i < s.studentCount ∧ i < s.students.length := by
  obtain ⟨hlt, -⟩ := List.findIdx?_eq_some_iff_getElem.mp h
  rw [List.length_take] at hlt
  omega

/-- The response after `setResponse` of a code without data. -/
theorem asAnswer_setResponse_none (s : DatabaseTask) (code : Int32) :
    asAnswer (s.setResponse code none 0).response = ⟨code, none⟩ := rfl

/-- The response after `setResponse` of the slot `i`. -/
theorem asAnswer_setResponse_some {i : Nat} (hi : i < s.students.length) (code : Int32) :
    asAnswer (s.setResponse code (some i) (Int32.ofNat sizeofStudentInfo)).response =
      ⟨code, some (recordOf s.students[i])⟩ := by
  have hsize : (Int32.ofNat sizeofStudentInfo).toInt = 48 := by decide
  have hdata : ((s.students.drop i).flatMap StudentInfo.bytes).take 48 = s.students[i].bytes := by
    rw [List.drop_eq_getElem_cons hi, List.flatMap_cons]
    exact List.take_left' (StudentInfo.length_bytes _)
  have hread := StudentInfo.ofBytes_bytes s.students[i] []
  rw [List.append_nil] at hread
  have hlen : Int32.ofInt (sizeofStudentInfo : Int) ≠ 0 := by decide
  simp [asAnswer, response, setResponse, responseBytes, hsize, hdata, ResponseMsg.setData,
    ResponseMsg.create, hread, hlen]

/-! ## Each request keeps the refinement -/

/-- What a request leads to: the answer of the list, and slots that stand for the list. -/
def Answers (s' : DatabaseTask) (l : List StudentRecord) (q : Query) : Prop :=
  asAnswer s'.response = (answerQuery l q).2 ∧ s'.Refines (answerQuery l q).1

theorem Refines.select (h : s.Refines l) (beyond : List UInt8) (hw : WellFormed req)
    (htype : req.requestType = selectRequest) :
    (s.handleRequestMsg req beyond).Answers l (.select (requestId req)) ∧
      (s.handleRequestMsg req beyond).studentCount = s.studentCount := by
  have hid : requestId req ≠ -1 := hw.id_ne (by rw [htype]; decide)
  have hfind := h.find?_eq hid
  rw [handle_select beyond htype (hw.long.1 htype)]
  cases hslot : s.findStudent (requestId req) with
  | none =>
    rw [hslot, Option.bind_none] at hfind
    simp only [Answers, answerQuery, hfind]
    exact ⟨⟨asAnswer_setResponse_none _ _, h⟩, rfl⟩
  | some i =>
    obtain ⟨hlt, hi⟩ := findStudent_lt hslot
    have hget : (s.students.take s.studentCount)[i]? = some s.students[i] := by
      rw [List.getElem?_take_of_lt hlt, List.getElem?_eq_getElem hi]
    rw [hslot, Option.bind_some, hget, Option.map_some] at hfind
    simp only [Answers, answerQuery, hfind]
    exact ⟨⟨asAnswer_setResponse_some (s := s.noteRequester req) hi _, h⟩, rfl⟩

/-- A record brought by INSERT reads back from its slot as it came. -/
theorem recordOf_fillSlot (info slot : StudentInfo) :
    recordOf (fillSlot info slot) = recordOf info := by
  have hlen : (cString info.name.1).length ≤ 30 := by
    have hcut : (cString info.name.1).length ≤ info.name.1.length :=
      (List.takeWhile_sublist _).length_le
    have hbuf := info.name.2
    omega
  simp only [recordOf, fillSlot, cString_strncpy, List.take_of_length_le hlen]

theorem Refines.insert (h : s.Refines l) (beyond : List UInt8) (hw : WellFormed req)
    (htype : req.requestType = insertRequest) (hroom : s.studentCount < maxStudent) :
    (s.handleRequestMsg req beyond).Answers l (.insert (recordOf (requestStudent req))) ∧
      (s.handleRequestMsg req beyond).studentCount = s.studentCount + 1 := by
  have hid : requestId req ≠ -1 := hw.id_ne (by rw [htype]; decide)
  have hslots : s.studentCount < s.students.length := by rwa [s.length_students]
  rw [handle_insert beyond htype (hw.long.2.1 htype), dif_pos hroom]
  refine ⟨⟨rfl, ?_⟩, rfl⟩
  -- the filled slot is the new last live one
  have hfilled : alive (fillSlot (requestStudent req) s.students[s.studentCount]) = true := by
    have hne : (requestStudent req).id ≠ -1 := hid
    simpa [alive, fillSlot] using hne
  have hused := take_modify_succ hslots (fillSlot (requestStudent req))
  simp only [Refines, setResponse, noteRequester, answerQuery, hused, live_append hfilled,
    List.map_append, List.map_cons, List.map_nil, recordOf_fillSlot]
  rw [h]

theorem Refines.delete (h : s.Refines l) (beyond : List UInt8) (hw : WellFormed req)
    (htype : req.requestType = deleteRequest) :
    (s.handleRequestMsg req beyond).Answers l (.delete (requestId req)) ∧
      (s.handleRequestMsg req beyond).studentCount = s.studentCount := by
  have hid : requestId req ≠ -1 := hw.id_ne (by rw [htype]; decide)
  have hfind := h.find?_eq hid
  rw [handle_delete beyond htype (hw.long.2.2 htype)]
  cases hslot : s.findStudent (requestId req) with
  | none =>
    rw [hslot, Option.bind_none] at hfind
    simp only [Answers, answerQuery, hfind]
    exact ⟨⟨asAnswer_setResponse_none _ _, h⟩, rfl⟩
  | some i =>
    obtain ⟨hlt, hi⟩ := findStudent_lt hslot
    have hget : (s.students.take s.studentCount)[i]? = some s.students[i] := by
      rw [List.getElem?_take_of_lt hlt, List.getElem?_eq_getElem hi]
    rw [hslot, Option.bind_some, hget, Option.map_some] at hfind
    simp only [Answers, answerQuery, hfind]
    refine ⟨⟨asAnswer_setResponse_none _ _, ?_⟩, rfl⟩
    -- the tombstone goes to the slot of the record that is erased
    have hbury : ∀ x, alive (clearSlot x) = false := fun _ => rfl
    have herase := live_modify (alive_of_id hid) hbury hslot
    simp only [Refines, setResponse, noteRequester, take_modify hlt, herase]
    rw [h, List.eraseP_map]
    rfl

/-- **Step**: a request is answered as the list answers it. -/
theorem refines_step (h : s.Refines l) (beyond : List UInt8) (hw : WellFormed req)
    (hroom : req.requestType = insertRequest → s.studentCount < maxStudent) :
    (s.handleRequestMsg req beyond).Answers l (asQuery req) ∧
      (s.handleRequestMsg req beyond).studentCount =
        s.studentCount + if req.requestType = insertRequest then 1 else 0 := by
  have hne₁ : insertRequest ≠ selectRequest := by decide
  have hne₂ : deleteRequest ≠ selectRequest ∧ deleteRequest ≠ insertRequest := by decide
  have hne₃ : pingRequest ≠ selectRequest ∧ pingRequest ≠ insertRequest ∧
    pingRequest ≠ deleteRequest := by decide
  rcases hw.known with htype | htype | htype | htype
  · simpa [asQuery, htype, hne₁.symm] using h.select beyond hw htype
  · simpa [asQuery, htype, hne₁] using h.insert beyond hw htype (hroom htype)
  · simpa [asQuery, htype, hne₂] using h.delete beyond hw htype
  · rw [handle_ping beyond htype]
    have hquery : asQuery req = .ping := by simp [asQuery, htype, hne₃]
    rw [hquery, htype, if_neg hne₃.2.1]
    exact ⟨⟨rfl, h⟩, rfl⟩

/-- **Run**: a task whose slots stand for `l` answers all requests as `l` does, as long as the
    table has a slot for every INSERT. -/
theorem Refines.respondAll_eq (h : s.Refines l) (reqs : List (RequestMsg × List UInt8))
    (hw : ∀ e ∈ reqs, WellFormed e.1)
    (hroom : s.studentCount + reqs.countP (fun e => e.1.requestType = insertRequest) ≤ maxStudent) :
    (respondAll s reqs).map asAnswer = answerAll l (reqs.map fun e => asQuery e.1) := by
  induction reqs generalizing s l with
  | nil => rfl
  | cons e es ih =>
    have hstep := refines_step h e.2 (hw e (List.mem_cons_self ..)) (by
      intro htype
      rw [List.countP_cons_of_pos (by simpa using htype)] at hroom
      omega)
    obtain ⟨⟨hanswer, hrefines⟩, hcount⟩ := hstep
    have hrest := ih hrefines (fun f hf => hw f (List.mem_cons_of_mem _ hf)) (by
      rw [List.countP_cons] at hroom
      simp only [decide_eq_true_eq] at hroom
      omega)
    rw [respondAll, List.map_cons, List.map_cons, answerAll, hanswer, hrest]

/-- **The database refines a list of records**: with at most `MAX_STUDENT` INSERTs, the codes
    and records it responds are those of the list that starts empty. -/
theorem database_refines_list (newRec : DatabaseTask) (taskID : UInt32)
    (reqs : List (RequestMsg × List UInt8)) (hw : ∀ e ∈ reqs, WellFormed e.1)
    (hroom : reqs.countP (fun e => e.1.requestType = insertRequest) ≤ maxStudent) :
    (respondAll (create newRec taskID) reqs).map asAnswer =
      answerAll [] (reqs.map fun e => asQuery e.1) := by
  apply (refines_create newRec taskID).respondAll_eq reqs hw
  rw [show (create newRec taskID).studentCount = 0 from rfl, Nat.zero_add]
  exact hroom

/-- A student inserted, deleted and selected in vain. -/
theorem database_refines_list_ada :
    (respondAll (create zeroRec 1)
        [(mkRequest insertRequest ada.bytes, []), (mkRequest deleteRequest (longBytes 7).1, []),
          (mkRequest selectRequest (longBytes 7).1, [])]).map asAnswer =
      answerAll [] [asQuery (mkRequest insertRequest ada.bytes),
        asQuery (mkRequest deleteRequest (longBytes 7).1),
        asQuery (mkRequest selectRequest (longBytes 7).1)] := by
  refine database_refines_list zeroRec 1 _ ?_ (by decide)
  intro e he
  simp only [List.mem_cons, List.not_mem_nil, or_false] at he
  rcases he with rfl | rfl | rfl
  · exact ⟨by unfold KnownType; decide, by unfold LongEnough; decide, by decide⟩
  · exact ⟨by unfold KnownType; decide, by unfold LongEnough; decide, by decide⟩
  · exact ⟨by unfold KnownType; decide, by unfold LongEnough; decide, by decide⟩

end DatabaseTask

end TaskSystem
