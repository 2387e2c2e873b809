import TaskSystem.Tasks.DatabaseTask.Program

/-!
# Deletion

What becomes of a record that DELETE has found, over any sequence of requests: of any types,
with payloads of any length and any ids. DELETE takes away one record; others with the same
id stay, since INSERT does not look for one. The slot itself is never used again: the table
is full after `MAX_STUDENT` INSERTs, whatever has been deleted.

## Contents

- `readId`, `used`, `holders`: the id a request goes by, the used slots, and how many have it
- `TableStep`, `tableStep`: what a request does to the used slots, by its type
- `grants`, `tally`: the requests answered `RESPONSE_OK`
- `deleted_gone_iff`: a deleted record is gone when it was the last one with its id
- `present`: the slots whose record was inserted and not since deleted
- `insert_refused_iff`: when an INSERT is refused only by a table full of records
-/

namespace TaskSystem

open Library Library.SlotArray

namespace DatabaseTask

/-- A request, and what lies behind its payload. -/
abbrev Request := RequestMsg × List UInt8

/-- The id that SELECT, INSERT and DELETE read. -/
def readId (e : Request) : Int64 := ofLongBytes (slice (e.1.data ++ e.2) 0 sizeofSelectInfo)

/-- The slots below `student_count`. -/
def used (s : DatabaseTask) : List StudentInfo := s.students.take s.studentCount

/-- How many used slots have the id. -/
def holders (s : DatabaseTask) (id : Int64) : Nat := s.used.countP fun x => x.id == id

variable {s s' : DatabaseTask} {e : Request} {id : Int64}

@[simp] theorem length_used (s : DatabaseTask) : s.used.length = s.studentCount := by
  have hle := s.studentCount_le
  rw [used, List.length_take, s.length_students]
  omega

@[simp] theorem holders_create (newRec : DatabaseTask) (taskID : UInt32) (id : Int64) :
    (create newRec taskID).holders id = 0 := rfl

/-- The search finds nothing when no used slot has the id. -/
theorem findStudent_eq_none : s.findStudent id = none ↔ s.holders id = 0 := by
  simp only [findStudent, holders, used, List.findIdx?_eq_none_iff, List.countP_eq_zero,
    Bool.not_eq_true]

theorem holders_ne_zero {i : Nat} (h : s.findStudent id = some i) : s.holders id ≠ 0 := by
  intro hzero
  rw [findStudent_eq_none.mpr hzero] at h
  cases h

/-! ## What a request does to the table -/

/-- The used slots after a request, and the answer, by the type of the request. -/
inductive TableStep (s : DatabaseTask) (e : Request) (s' : DatabaseTask) : Prop where
  | keep (hinsert : e.1.requestType ≠ insertRequest) (hdelete : e.1.requestType ≠ deleteRequest)
      (hused : s'.used = s.used)
  | fill (slot : StudentInfo) (htype : e.1.requestType = insertRequest)
      (hroom : s.studentCount < maxStudent) (hid : slot.id = readId e)
      (hused : s'.used = s.used ++ [slot]) (hcode : s'.responseCode = responseOk)
  | full (htype : e.1.requestType = insertRequest) (hfull : s.studentCount = maxStudent)
      (hused : s'.used = s.used) (hcode : s'.responseCode = responseError)
  | clear (i : Nat) (htype : e.1.requestType = deleteRequest)
      (hfind : s.findStudent (readId e) = some i) (hused : s'.used = s.used.modify i clearSlot)
      (hcode : s'.responseCode = responseOk)
  | miss (htype : e.1.requestType = deleteRequest) (hfind : s.findStudent (readId e) = none)
      (hused : s'.used = s.used) (hcode : s'.responseCode = responseError)

/-- **Every request is one of these.** -/
theorem tableStep (s : DatabaseTask) (e : Request) :
    TableStep s e (s.handleRequestMsg e.1 e.2) := by
  have hne₁ : insertRequest ≠ selectRequest := by decide
  have hne₂ : deleteRequest ≠ selectRequest ∧ deleteRequest ≠ insertRequest := by decide
  by_cases hinsert : e.1.requestType = insertRequest
  · by_cases hroom : s.studentCount < maxStudent
    · -- `students[student_count++]` is filled from the payload
      have hslots : s.studentCount < s.students.length := by rwa [s.length_students]
      let info := StudentInfo.ofBytes (e.1.data ++ e.2)
      have hhandle : s.handleRequestMsg e.1 e.2 =
          { s.noteRequester e.1 with
            students := s.students.modify s.studentCount (fillSlot info)
            studentCount := s.studentCount + 1
            length_students := by rw [List.length_modify, s.length_students]
            studentCount_le := hroom }.setResponse responseOk none 0 := by
        simp only [handleRequestMsg_eq, hinsert, hne₁, if_true, if_false, dif_pos hroom]
        rfl
      refine .fill (fillSlot info s.students[s.studentCount]) hinsert hroom rfl ?_
        (by rw [hhandle]; rfl)
      rw [hhandle]
      exact take_modify_succ hslots _
    · -- `student_count >= MAX_STUDENT`
      have hfull : s.studentCount = maxStudent := by
        have hle := s.studentCount_le
        omega
      have hhandle : s.handleRequestMsg e.1 e.2 =
          (s.noteRequester e.1).setResponse responseError none 0 := by
        simp only [handleRequestMsg_eq, hinsert, hne₁, if_true, if_false, dif_neg hroom]
        rfl
      exact .full hinsert hfull (by rw [hhandle]; rfl) (by rw [hhandle]; rfl)
  · by_cases hdelete : e.1.requestType = deleteRequest
    · cases hfind : s.findStudent (readId e) with
      | none =>
        have hhandle : s.handleRequestMsg e.1 e.2 =
            (s.noteRequester e.1).setResponse responseError none 0 := by
          have hfind' : findStudent { s with currentRequesterTaskId := e.1.senderTaskId }
            (SelectInfo.ofBytes (e.1.data ++ e.2)).id = none := hfind
          simp only [handleRequestMsg_eq, hdelete, hne₂, if_true, if_false, hfind']
          rfl
        exact .miss hdelete hfind (by rw [hhandle]; rfl) (by rw [hhandle]; rfl)
      | some i =>
        have hhandle : s.handleRequestMsg e.1 e.2 =
            { s.noteRequester e.1 with
              students := s.students.modify i clearSlot
              length_students := by rw [List.length_modify, s.length_students] }.setResponse
                responseOk none 0 := by
          have hfind' : findStudent { s with currentRequesterTaskId := e.1.senderTaskId }
            (SelectInfo.ofBytes (e.1.data ++ e.2)).id = some i := hfind
          simp only [handleRequestMsg_eq, hdelete, hne₂, if_true, if_false, hfind']
          rfl
        -- the slot found is below `student_count`, so the change shows among the used ones
        refine .clear i hdelete hfind ?_ (by rw [hhandle]; rfl)
        rw [hhandle]
        exact take_modify (findStudent_lt hfind).1 _
    · -- SELECT, PING and unknown types leave the slots alone
      refine .keep hinsert hdelete ?_
      simp only [handleRequestMsg_eq, hinsert, hdelete, if_false]
      split_ifs <;> first | rfl | (split <;> rfl)

/-- **A search** finds its id, or answers `RESPONSE_ERROR`. -/
theorem search_code
    (htype : e.1.requestType = selectRequest ∨ e.1.requestType = deleteRequest) :
    (s.handleRequestMsg e.1 e.2).response.code =
      if s.holders (readId e) = 0 then responseError else responseOk := by
  rw [response_code]
  rcases htype with htype | htype
  · -- SELECT searches the slots as DELETE does, and changes none
    have hfind : findStudent { s with currentRequesterTaskId := e.1.senderTaskId }
        (SelectInfo.ofBytes (e.1.data ++ e.2)).id = s.findStudent (readId e) := rfl
    simp only [handleRequestMsg_eq, htype, if_true, hfind]
    cases hslot : s.findStudent (readId e) with
    | none => rw [if_pos (findStudent_eq_none.mp hslot)]; rfl
    | some i => rw [if_neg (holders_ne_zero hslot)]; rfl
  · have hne : deleteRequest ≠ insertRequest := by decide
    rcases tableStep s e with ⟨-, hdelete, -⟩ | ⟨-, hinsert, -⟩ | ⟨hinsert, -⟩ |
      ⟨i, -, hfind, -, hcode⟩ | ⟨-, hfind, -, hcode⟩
    · exact absurd htype hdelete
    · exact absurd (htype.symm.trans hinsert) hne
    · exact absurd (htype.symm.trans hinsert) hne
    · rw [hcode, if_neg (holders_ne_zero hfind)]
    · rw [hcode, if_pos (findStudent_eq_none.mp hfind)]

/-! ## What has been granted -/

/-- A request of type `t` that the task answers `RESPONSE_OK`. -/
def grants (t : Int32) (s : DatabaseTask) (e : Request) : Bool :=
  e.1.requestType == t && (s.handleRequestMsg e.1 e.2).response.code == responseOk

/-- The same, for a request that goes by `id`. -/
def grantsId (t : Int32) (id : Int64) (s : DatabaseTask) (e : Request) : Bool :=
  grants t s e && readId e == id

/-- How many of the requests, from `s` on, are of that kind. -/
def tally (p : DatabaseTask → Request → Bool) (s : DatabaseTask) : List Request → Nat
  | [] => 0
  | e :: es => (p s e).toNat + tally p (s.handleRequestMsg e.1 e.2) es

theorem afterAll_cons (s : DatabaseTask) (e : Request) (es : List Request) :
    s.afterAll (e :: es) = (s.handleRequestMsg e.1 e.2).afterAll es := rfl

theorem tally_append (p : DatabaseTask → Request → Bool) (es fs : List Request) :
    tally p s (es ++ fs) = tally p s es + tally p (s.afterAll es) fs := by
  induction es generalizing s with
  | nil => simp [tally, afterAll]
  | cons e es ih =>
    rw [List.cons_append, tally, tally, ih, afterAll_cons]
    omega

theorem grants_of_ne {t : Int32} (h : e.1.requestType ≠ t) : grants t s e = false := by
  simp [grants, h]

theorem grants_of_code {t code : Int32} (h : e.1.requestType = t)
    (hcode : (s.handleRequestMsg e.1 e.2).responseCode = code) :
    grants t s e = (code == responseOk) := by
  simp [grants, h, hcode]

/-- **Step**: INSERT adds a holder of its id and DELETE takes one away; of the id that marks
    cleared slots this cannot be said. -/
theorem holders_step (hid : id ≠ -1) (e : Request) :
    (s.handleRequestMsg e.1 e.2).holders id + (grantsId deleteRequest id s e).toNat =
      s.holders id + (grantsId insertRequest id s e).toNat := by
  have hne : insertRequest ≠ deleteRequest := by decide
  have herror : (responseError == responseOk) = false := by decide
  unfold holders grantsId
  rcases tableStep s e with ⟨hinsert, hdelete, hused⟩ | ⟨slot, htype, -, hslot, hused, hcode⟩ |
    ⟨htype, -, hused, hcode⟩ | ⟨i, htype, hfind, hused, hcode⟩ | ⟨htype, -, hused, hcode⟩
  · rw [hused, grants_of_ne hinsert, grants_of_ne hdelete]
  · rw [hused, grants_of_code htype hcode, grants_of_ne (by rw [htype]; exact hne), ← hslot]
    -- the new record is one holder of its own id
    simp only [List.countP_append, List.countP_singleton, Bool.false_and, Bool.toNat_false,
      beq_self_eq_true, Bool.true_and]
    cases slot.id == id <;> simp
  · rw [hused, grants_of_code htype hcode, grants_of_ne (by rw [htype]; exact hne), herror]
  · -- the slot found has the id that was asked for, and is cleared
    have hfind' : s.used.findIdx? (fun x => x.id == readId e) = some i := hfind
    obtain ⟨hi, hmatch, -⟩ := List.findIdx?_eq_some_iff_getElem.mp hfind'
    have hfound : s.used[i].id = readId e := by simpa using hmatch
    -- a cleared slot has the id -1
    have hcleared : ((clearSlot s.used[i]).id == id) = false := by
      have hne' : (-1 : Int64) ≠ id := hid.symm
      simpa [clearSlot] using hne'
    have hcount := countP_modify (fun x : StudentInfo => x.id == id) hi clearSlot
    have hold : (s.used[i].id == id) = (readId e == id) := by rw [hfound]
    rw [hused, grants_of_code htype hcode, grants_of_ne (by rw [htype]; exact hne.symm)]
    simp only [beq_self_eq_true, Bool.true_and, Bool.false_and, Bool.toNat_false]
    rw [hcleared, hold, Bool.toNat_false] at hcount
    exact hcount
  · rw [hused, grants_of_code htype hcode, grants_of_ne (by rw [htype]; exact hne.symm), herror]

/-- **Run**: the holders of an id are as many as its INSERTs granted and not its DELETEs. -/
theorem holders_afterAll (hid : id ≠ -1) (es : List Request) :
    (s.afterAll es).holders id + tally (grantsId deleteRequest id) s es =
      s.holders id + tally (grantsId insertRequest id) s es := by
  induction es generalizing s with
  | nil => rfl
  | cons e es ih =>
    have hstep := holders_step (s := s) hid e
    have hrest := ih (s := s.handleRequestMsg e.1 e.2)
    rw [afterAll_cons, tally, tally]
    omega

/-! ## When a deleted record is gone -/

/-- From `s` on, every SELECT and every DELETE of `id` is answered `RESPONSE_ERROR`, until an
    INSERT with that id is answered `RESPONSE_OK`. -/
def Gone (s : DatabaseTask) (id : Int64) : Prop :=
  ∀ (after : List Request) (q : Request), tally (grantsId insertRequest id) s after = 0 →
    (q.1.requestType = selectRequest ∨ q.1.requestType = deleteRequest) → readId q = id →
      ((s.afterAll after).handleRequestMsg q.1 q.2).response.code = responseError

theorem readId_mkRequest (t : Int32) (id : Int64) :
    readId (mkRequest t (longBytes id).1, []) = id := by
  have hslice : slice ((longBytes id).1 ++ []) 0 sizeofSelectInfo = longBytes id :=
    slice_append (longBytes id) (rfl : ([] : List UInt8).length = 0)
  show ofLongBytes (slice ((longBytes id).1 ++ []) 0 sizeofSelectInfo) = id
  rw [hslice, ofLongBytes_longBytes]

/-- An id is gone exactly when no used slot has it. -/
theorem gone_iff (hid : id ≠ -1) : s.Gone id ↔ s.holders id = 0 := by
  constructor
  · intro hgone
    -- a SELECT right away tells
    have hcode := hgone [] (mkRequest selectRequest (longBytes id).1, []) rfl (.inl rfl)
      (readId_mkRequest _ _)
    rw [search_code (.inl rfl), readId_mkRequest] at hcode
    by_contra hsome
    have hsome' : (s.afterAll []).holders id ≠ 0 := hsome
    rw [if_neg hsome'] at hcode
    exact absurd hcode (by decide)
  · intro hzero after q hinserts htype hq
    have hrun := holders_afterAll (s := s) hid after
    -- without an INSERT there are no new holders
    have hstill : (s.afterAll after).holders (readId q) = 0 := by
      rw [hq]
      omega
    rw [search_code htype, if_pos hstill]

/-- **A deleted record is gone**, for an id other than -1, exactly when it was the last one:
    when as many DELETEs of its id as INSERTs have been answered `RESPONSE_OK`. -/
theorem deleted_gone_iff (newRec : DatabaseTask) (taskID : UInt32) (before : List Request)
    (d : Request) (id : Int64) (hid : id ≠ -1)
    (hd : grantsId deleteRequest id ((create newRec taskID).afterAll before) d = true) :
    ((create newRec taskID).afterAll (before ++ [d])).Gone id ↔
      tally (grantsId insertRequest id) (create newRec taskID) before =
        tally (grantsId deleteRequest id) (create newRec taskID) (before ++ [d]) := by
  have hrun := holders_afterAll (s := create newRec taskID) hid (before ++ [d])
  rw [holders_create, tally_append (grantsId insertRequest id)] at hrun
  -- the last request is a DELETE and adds nothing to the INSERTs
  have hlast :
      tally (grantsId insertRequest id) ((create newRec taskID).afterAll before) [d] = 0 := by
    have htype : d.1.requestType = deleteRequest := by
      simp only [grantsId, grants, Bool.and_eq_true, beq_iff_eq] at hd
      exact hd.1.1
    have hne : d.1.requestType ≠ insertRequest := by
      rw [htype]
      decide
    simp only [tally, grantsId, grants_of_ne hne]
    rfl
  rw [gone_iff hid]
  omega

/-- A student inserted, deleted, and gone. -/
theorem deleted_gone_iff_ada :
    ((create zeroRec 1).afterAll ([(mkRequest insertRequest ada.bytes, [])] ++
        [(mkRequest deleteRequest (longBytes 7).1, [])])).Gone 7 ↔
      tally (grantsId insertRequest 7) (create zeroRec 1)
          [(mkRequest insertRequest ada.bytes, [])] =
        tally (grantsId deleteRequest 7) (create zeroRec 1)
          ([(mkRequest insertRequest ada.bytes, [])] ++
            [(mkRequest deleteRequest (longBytes 7).1, [])]) :=
  deleted_gone_iff zeroRec 1 _ _ 7 (by decide) (by decide +kernel)

/-- **What deletion leaves**: of two records with one id DELETE takes away the first, and the
    other is found; and every record deleted can be selected and deleted by the id -1. -/
theorem deleted_not_gone :
    let s₀ := create zeroRec 1
    let insertAda : Request := (mkRequest insertRequest ada.bytes, [])
    let deleteAda : Request := (mkRequest deleteRequest (longBytes 7).1, [])
    let deleteMark : Request := (mkRequest deleteRequest (longBytes (-1)).1, [])
    (grantsId deleteRequest 7 (s₀.afterAll [insertAda, insertAda]) deleteAda = true ∧
      ¬(s₀.afterAll [insertAda, insertAda, deleteAda]).Gone 7) ∧
    (grantsId deleteRequest (-1) (s₀.afterAll [insertAda, deleteAda]) deleteMark = true ∧
      ¬(s₀.afterAll [insertAda, deleteAda, deleteMark]).Gone (-1)) := by
  intro s₀ insertAda deleteAda deleteMark
  refine ⟨⟨by decide +kernel, ?_⟩, by decide +kernel, ?_⟩
  · intro hgone
    -- asking once more finds the second record
    have hcode := hgone [] deleteAda rfl (.inr rfl) (readId_mkRequest _ _)
    exact absurd hcode (by decide +kernel)
  · intro hgone
    -- the cleared slot itself has the id -1
    have hcode := hgone [] deleteMark rfl (.inr rfl) (readId_mkRequest _ _)
    exact absurd hcode (by decide +kernel)

/-! ## Slots are not used again -/

/-- The slots that hold a record which was inserted and not since deleted, after one more
    request. -/
def present (s : DatabaseTask) (slots : List Nat) (e : Request) : List Nat :=
  if e.1.requestType = insertRequest then
    if s.studentCount < maxStudent then slots ++ [s.studentCount] else slots
  else if e.1.requestType = deleteRequest then
    match s.findStudent (readId e) with
    | some i => slots.erase i
    | none => slots
  else slots

/-- The same after a list of requests. -/
def presentAfter (s : DatabaseTask) (slots : List Nat) : List Request → List Nat
  | [] => slots
  | e :: es => presentAfter (s.handleRequestMsg e.1 e.2) (present s slots e) es

/-- As long as none of them has been cleared, all used slots hold records; from then on there
    are fewer records than used slots. -/
def Ledger (s : DatabaseTask) (slots : List Nat) (cleared : Nat) : Prop :=
  (cleared = 0 ∧ slots = List.range s.studentCount) ∨
    (0 < cleared ∧ slots.length < s.studentCount)

theorem studentCount_eq_of_used {s s' : DatabaseTask} (h : s'.used = s.used) :
    s'.studentCount = s.studentCount := by
  rw [← length_used, h, length_used]

/-- **Step**: a request keeps the ledger. -/
theorem Ledger.step {slots : List Nat} {cleared : Nat} (h : s.Ledger slots cleared) (e : Request) :
    (s.handleRequestMsg e.1 e.2).Ledger (present s slots e)
      (cleared + (grants deleteRequest s e).toNat) := by
  have hne : insertRequest ≠ deleteRequest := by decide
  -- a full table takes no record
  have hnotFull : ∀ {n : Nat}, n = maxStudent → ¬n < maxStudent := by
    intro n hn
    omega
  unfold present
  rcases tableStep s e with ⟨hinsert, hdelete, hused⟩ | ⟨slot, htype, hroom, -, hused, hcode⟩ |
    ⟨htype, hfull, hused, hcode⟩ | ⟨i, htype, hfind, hused, hcode⟩ | ⟨htype, hfind, hused, hcode⟩
  · rw [if_neg hinsert, if_neg hdelete, grants_of_ne hdelete]
    unfold Ledger
    rw [studentCount_eq_of_used hused]
    exact h
  · -- a new record goes to a new slot
    have hcount : (s.handleRequestMsg e.1 e.2).studentCount = s.studentCount + 1 := by
      rw [← length_used, hused, List.length_append, length_used]
      rfl
    rw [if_pos htype, if_pos hroom, grants_of_ne (by rw [htype]; exact hne)]
    unfold Ledger
    rw [hcount]
    rcases h with ⟨hzero, rfl⟩ | ⟨hpos, hlt⟩
    · exact .inl ⟨hzero, List.range_succ.symm⟩
    · refine .inr ⟨hpos, ?_⟩
      rw [List.length_append, List.length_singleton]
      omega
  · rw [if_pos htype, if_neg (hnotFull hfull), grants_of_ne (by rw [htype]; exact hne)]
    unfold Ledger
    rw [studentCount_eq_of_used hused]
    exact h
  · -- the slot found is used, so the first time one is cleared it holds a record
    have hlt := (findStudent_lt hfind).1
    have hcount : (s.handleRequestMsg e.1 e.2).studentCount = s.studentCount := by
      rw [← length_used, hused, List.length_modify, length_used]
    rw [if_neg (by rw [htype]; exact hne.symm), if_pos htype, hfind,
      grants_of_code htype hcode]
    unfold Ledger
    rw [hcount]
    refine .inr ⟨by simp, ?_⟩
    show (slots.erase i).length < s.studentCount
    rcases h with ⟨-, rfl⟩ | ⟨-, hfew⟩
    · rw [List.length_erase_of_mem (List.mem_range.mpr hlt), List.length_range]
      omega
    · have hle := (List.erase_sublist (a := i) (l := slots)).length_le
      omega
  · have herror : (responseError == responseOk) = false := by decide
    rw [if_neg (by rw [htype]; exact hne.symm), if_pos htype, hfind,
      grants_of_code htype hcode, herror]
    unfold Ledger
    rw [studentCount_eq_of_used hused]
    exact h

/-- **Run**: the ledger is kept over any list of requests. -/
theorem Ledger.run {slots : List Nat} {cleared : Nat} (h : s.Ledger slots cleared)
    (es : List Request) :
    (s.afterAll es).Ledger (presentAfter s slots es)
      (cleared + tally (grants deleteRequest) s es) := by
  induction es generalizing s slots cleared with
  | nil => exact h
  | cons e es ih =>
    have hrest := ih (h.step e)
    rw [Nat.add_assoc] at hrest
    exact hrest

/-- **Step**: an INSERT takes a new slot if there is one. -/
theorem studentCount_step (s : DatabaseTask) (e : Request) :
    (s.handleRequestMsg e.1 e.2).studentCount =
      min maxStudent (s.studentCount + if e.1.requestType = insertRequest then 1 else 0) := by
  have hle := s.studentCount_le
  have hne : deleteRequest ≠ insertRequest := by decide
  rcases tableStep s e with ⟨hinsert, -, hused⟩ | ⟨slot, htype, hroom, -, hused, -⟩ |
    ⟨htype, hfull, hused, -⟩ | ⟨i, htype, -, hused, -⟩ | ⟨htype, -, hused, -⟩
  · rw [studentCount_eq_of_used hused, if_neg hinsert]
    omega
  · rw [← length_used, hused, List.length_append, length_used, if_pos htype,
      List.length_singleton]
    omega
  · rw [studentCount_eq_of_used hused, if_pos htype]
    omega
  · -- a cleared slot stays below `student_count`
    rw [← length_used, hused, List.length_modify, length_used, htype, if_neg hne]
    omega
  · rw [studentCount_eq_of_used hused, htype, if_neg hne]
    omega

/-- **Run**: `student_count` is the number of INSERTs, up to `MAX_STUDENT`. -/
theorem studentCount_afterAll (es : List Request) :
    (s.afterAll es).studentCount =
      min maxStudent (s.studentCount + es.countP fun e => e.1.requestType = insertRequest) := by
  induction es generalizing s with
  | nil =>
    have hle := s.studentCount_le
    rw [List.countP_nil, Nat.add_zero, Nat.min_eq_right hle]
    rfl
  | cons e es ih =>
    rw [afterAll_cons, ih, studentCount_step, List.countP_cons]
    simp only [decide_eq_true_eq]
    omega

/-- **An INSERT is refused only by a table full of records** exactly when there have been fewer
    than `MAX_STUDENT` INSERTs before, or no DELETE has been answered `RESPONSE_OK`. -/
theorem insert_refused_iff (newRec : DatabaseTask) (taskID : UInt32) (es : List Request)
    (e : Request) (htype : e.1.requestType = insertRequest) :
    ((((create newRec taskID).afterAll es).handleRequestMsg e.1 e.2).response.code =
        responseError → (presentAfter (create newRec taskID) [] es).length = maxStudent) ↔
      es.countP (fun e => e.1.requestType = insertRequest) < maxStudent ∨
        tally (grants deleteRequest) (create newRec taskID) es = 0 := by
  have hfresh : (create newRec taskID).Ledger [] 0 := .inl ⟨rfl, rfl⟩
  have hledger := hfresh.run es
  have hcount := studentCount_afterAll (s := create newRec taskID) es
  rw [Nat.zero_add] at hledger
  rw [show (create newRec taskID).studentCount = 0 from rfl, Nat.zero_add] at hcount
  -- an INSERT is refused exactly when every slot has been used
  have hcode : (((create newRec taskID).afterAll es).handleRequestMsg e.1 e.2).response.code =
      responseError ↔ ((create newRec taskID).afterAll es).studentCount = maxStudent := by
    have hne : insertRequest ≠ deleteRequest := by decide
    have hcodes : responseOk ≠ responseError := by decide
    rw [response_code]
    rcases tableStep ((create newRec taskID).afterAll es) e with ⟨hinsert, -⟩ |
      ⟨slot, -, hroom, -, -, hcode⟩ | ⟨-, hfull, -, hcode⟩ | ⟨i, hdelete, -⟩ | ⟨hdelete, -⟩
    · exact absurd htype hinsert
    · rw [hcode]
      exact ⟨fun h => absurd h hcodes, fun h => absurd hroom (by omega)⟩
    · rw [hcode]
      exact ⟨fun _ => hfull, fun _ => rfl⟩
    · exact absurd (htype.symm.trans hdelete) hne
    · exact absurd (htype.symm.trans hdelete) hne
  rw [hcode]
  rcases hledger with ⟨hzero, hslots⟩ | ⟨hpos, hfew⟩
  · -- nothing has been cleared
    rw [hslots, List.length_range]
    exact ⟨fun _ => .inr hzero, fun _ hfull => hfull⟩
  · -- fewer records than used slots: the refusal is justified only if it cannot happen
    constructor
    · intro hclaim
      by_contra hneither
      have hfull : ((create newRec taskID).afterAll es).studentCount = maxStudent := by
        omega
      have hall := hclaim hfull
      omega
    · rintro (hroom | hnone) hfull
      · omega
      · omega

/-- After two INSERTs and a DELETE that is granted the next INSERT is not refused; after 998 more
    it is, by a table with a slot that holds no record. -/
theorem insert_refused_iff_deleted :
    let insertAda : Request := (mkRequest insertRequest ada.bytes, [])
    let deleteAda : Request := (mkRequest deleteRequest (longBytes 7).1, [])
    let es := [insertAda, deleteAda, insertAda]
    let more := es ++ List.replicate 998 insertAda
    tally (grants deleteRequest) (create zeroRec 1) es = 1 ∧
      ((((create zeroRec 1).afterAll es).handleRequestMsg insertAda.1 []).response.code =
        responseError → (presentAfter (create zeroRec 1) [] es).length = maxStudent) ∧
      ¬((((create zeroRec 1).afterAll more).handleRequestMsg insertAda.1 []).response.code =
        responseError → (presentAfter (create zeroRec 1) [] more).length = maxStudent) := by
  intro insertAda deleteAda es more
  have hgranted : tally (grants deleteRequest) (create zeroRec 1) es = 1 := by
    decide +kernel
  refine ⟨hgranted, ?_, ?_⟩
  · -- two INSERTs are fewer than `MAX_STUDENT`
    exact (insert_refused_iff zeroRec 1 es insertAda rfl).mpr (.inl (by decide))
  · intro hclaim
    rcases (insert_refused_iff zeroRec 1 more insertAda rfl).mp hclaim with hfew | hnone
    · have hinserts : more.countP (fun e => e.1.requestType = insertRequest) = 1000 := by
        rw [List.countP_append, List.countP_replicate]
        decide
      rw [hinserts] at hfew
      exact absurd hfew (by decide)
    · rw [tally_append, hgranted] at hnone
      omega

/-- **Capacity is not given back**: a student is inserted and deleted, then 999 more are
    inserted; the next INSERT is refused by a table that is not full of records. -/
theorem insert_refused_early :
    let insertAda : Request := (mkRequest insertRequest ada.bytes, [])
    let deleteAda : Request := (mkRequest deleteRequest (longBytes 7).1, [])
    let es := [insertAda, deleteAda] ++ List.replicate 999 insertAda
    (((create zeroRec 1).afterAll es).handleRequestMsg insertAda.1 []).response.code =
        responseError ∧
      (presentAfter (create zeroRec 1) [] es).length ≠ maxStudent := by
  intro insertAda deleteAda es
  -- a thousand INSERTs use up the slots
  have hfull : ((create zeroRec 1).afterAll es).studentCount = maxStudent := by
    have hinserts : es.countP (fun e => e.1.requestType = insertRequest) = 1000 := by
      rw [List.countP_append, List.countP_replicate]
      decide
    rw [studentCount_afterAll, hinserts, show (create zeroRec 1).studentCount = 0 from rfl]
    decide
  -- one DELETE has been granted
  have hcleared : 0 < tally (grants deleteRequest) (create zeroRec 1) es := by
    have hgrant : tally (grants deleteRequest) (create zeroRec 1) [insertAda, deleteAda] = 1 := by
      decide +kernel
    rw [tally_append, hgrant]
    omega
  constructor
  · have hcount : ¬((create zeroRec 1).afterAll es).studentCount < maxStudent := by
      omega
    rw [response_code, handle_insert [] rfl (by decide), dif_neg hcount]
    rfl
  · have hfresh : (create zeroRec 1).Ledger [] 0 := .inl ⟨rfl, rfl⟩
    rcases hfresh.run es with ⟨hzero, -⟩ | ⟨-, hfew⟩
    · omega
    · omega

end DatabaseTask

end TaskSystem
