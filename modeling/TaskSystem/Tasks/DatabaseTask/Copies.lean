import TaskSystem.Tasks.DatabaseTask.Deletion

/-!
# What the Handler Copies

Each branch of `handle_RequestMsg` copies a struct out of the payload first, and the length of
the copy is a constant of the branch: it does not depend on `data_size`. DELETE copies
`sizeof(struct StudentInfo)` bytes into a `struct SelectInfo`.

## Contents

- `payloadCopies_select`, `payloadCopies_insert`, `payloadCopies_delete`, `payloadCopies_other`:
  the copies of a run of the handler, by the type of the request
- `copies_inside_iff`, `CopiesWithin`, `copies_within_iff`: no copy leaves the payload or its
  struct, exactly for requests long enough for their type, and never for DELETE
- `short_insert`: an INSERT is granted whatever the length of its payload
-/

namespace TaskSystem

open Library

namespace DatabaseTask

variable {s : DatabaseTask} {req : RequestMsg} {beyond : List UInt8}

/-! ## The copies of a run -/

/-- SELECT fills `sel_info`. -/
theorem payloadCopies_select (h : req.requestType = selectRequest) :
    s.payloadCopies req beyond = [⟨sizeofSelectInfo, sizeofSelectInfo⟩] := by
  simp only [payloadCopies, runRequestMsg, memcpy, h, if_true]

/-- INSERT fills `insert_info`. -/
theorem payloadCopies_insert (h : req.requestType = insertRequest) :
    s.payloadCopies req beyond = [⟨sizeofStudentInfo, sizeofStudentInfo⟩] := by
  have hne : insertRequest ≠ selectRequest := by decide
  simp only [payloadCopies, runRequestMsg, memcpy, h, hne, if_true, if_false]

/-- DELETE fills `del_info`, a `struct SelectInfo`, with a `struct StudentInfo`. -/
theorem payloadCopies_delete (h : req.requestType = deleteRequest) :
    s.payloadCopies req beyond = [⟨sizeofStudentInfo, sizeofSelectInfo⟩] := by
  have hne : deleteRequest ≠ selectRequest ∧ deleteRequest ≠ insertRequest := by decide
  simp only [payloadCopies, runRequestMsg, memcpy, h, hne, if_true, if_false]

/-- A request of another type, whatever it is, is not read. -/
theorem payloadCopies_other (h₁ : req.requestType ≠ selectRequest)
    (h₂ : req.requestType ≠ insertRequest) (h₃ : req.requestType ≠ deleteRequest) :
    s.payloadCopies req beyond = [] := by
  simp only [payloadCopies, runRequestMsg, h₁, h₂, h₃, if_false]
  split <;> rfl

/-! ## When the copies are within bounds -/

/-- Every copy is within the payload and within its struct, and a request too short for its
    type is answered `RESPONSE_ERROR` and leaves the table alone. -/
structure CopiesWithin (s : DatabaseTask) (req : RequestMsg) (beyond : List UInt8) : Prop where
  source : ∀ c ∈ s.payloadCopies req beyond, (c.length : Int) ≤ req.dataSize.toInt
  room : ∀ c ∈ s.payloadCopies req beyond, c.length ≤ c.room
  short : ¬LongEnough req →
    (s.handleRequestMsg req beyond).response.code = responseError ∧
      (s.handleRequestMsg req beyond).students = s.students

/-- **No copy leaves the payload or its struct** exactly for requests other than DELETE whose
    payload is as long as the struct their type stands for. -/
theorem copies_inside_iff (s : DatabaseTask) (req : RequestMsg) (beyond : List UInt8) :
    (∀ c ∈ s.payloadCopies req beyond, c.length ≤ req.data.length ∧ c.length ≤ c.room) ↔
      req.requestType ≠ deleteRequest ∧ LongEnough req := by
  constructor
  · intro h
    have hnot : req.requestType ≠ deleteRequest := by
      intro hdelete
      -- 48 bytes into a struct of 8
      have hroom := (h ⟨sizeofStudentInfo, sizeofSelectInfo⟩
        (by rw [payloadCopies_delete hdelete]; exact List.mem_cons_self ..)).2
      exact absurd hroom (by decide)
    -- the source bound of each type is the length of its struct
    refine ⟨hnot, ?_, ?_, fun hdelete => absurd hdelete hnot⟩
    · intro hselect
      exact (h ⟨sizeofSelectInfo, sizeofSelectInfo⟩
        (by rw [payloadCopies_select hselect]; exact List.mem_cons_self ..)).1
    · intro hinsert
      exact (h ⟨sizeofStudentInfo, sizeofStudentInfo⟩
        (by rw [payloadCopies_insert hinsert]; exact List.mem_cons_self ..)).1
  · rintro ⟨hnot, hlong⟩ c hc
    by_cases hselect : req.requestType = selectRequest
    · rw [payloadCopies_select hselect] at hc
      obtain rfl := List.mem_singleton.mp hc
      exact ⟨hlong.1 hselect, Nat.le_refl _⟩
    · by_cases hinsert : req.requestType = insertRequest
      · rw [payloadCopies_insert hinsert] at hc
        obtain rfl := List.mem_singleton.mp hc
        exact ⟨hlong.2.1 hinsert, Nat.le_refl _⟩
      · rw [payloadCopies_other hselect hinsert hnot] at hc
        cases hc

/-- **The copies are within bounds** exactly for requests other than DELETE whose payload is as
    long as the struct their type stands for. -/
theorem copies_within_iff (s : DatabaseTask) (req : RequestMsg) (beyond : List UInt8)
    (hdata : req.dataSize.toInt = req.data.length) :
    s.CopiesWithin req beyond ↔ req.requestType ≠ deleteRequest ∧ LongEnough req := by
  rw [← copies_inside_iff s req beyond]
  constructor
  · intro h c hc
    have hsource := h.source c hc
    exact ⟨by omega, h.room c hc⟩
  · intro h
    -- and a request that is long enough is not a short one
    have hlong := ((copies_inside_iff s req beyond).mp h).2
    refine ⟨?_, fun c hc => (h c hc).2, fun hshort => absurd hlong hshort⟩
    intro c hc
    have hsource := (h c hc).1
    omega

/-- A SELECT with an id copies 8 bytes into a struct of 8; an INSERT with an id only would copy
    48. -/
theorem copies_within_iff_select :
    (create zeroRec 1).payloadCopies (mkRequest selectRequest (longBytes 7).1) [] = [⟨8, 8⟩] ∧
      (create zeroRec 1).CopiesWithin (mkRequest selectRequest (longBytes 7).1) [] ∧
      ¬(create zeroRec 1).CopiesWithin (mkRequest insertRequest (longBytes 7).1) [] := by
  refine ⟨payloadCopies_select rfl, ?_, ?_⟩
  · rw [copies_within_iff _ _ _ (by decide)]
    exact ⟨by decide, by decide, by decide, by decide⟩
  · rw [copies_within_iff _ _ _ (by decide)]
    rintro ⟨-, hlong⟩
    exact absurd (hlong.2.1 rfl) (by decide)

/-- **A short INSERT** is not refused: as long as a slot is free it is granted, and the record
    is filled with whatever lies behind the payload. -/
theorem short_insert (htype : req.requestType = insertRequest)
    (hroom : s.studentCount < maxStudent) :
    (s.handleRequestMsg req beyond).response.code = responseOk ∧
      (s.handleRequestMsg req beyond).studentCount = s.studentCount + 1 := by
  have hne : insertRequest ≠ deleteRequest := by decide
  rcases tableStep s (req, beyond) with ⟨hinsert, -⟩ | ⟨slot, -, -, -, hused, hcode⟩ |
    ⟨-, hfull, -⟩ | ⟨i, hdelete, -⟩ | ⟨hdelete, -⟩
  · exact absurd htype hinsert
  · refine ⟨by rw [response_code]; exact hcode, ?_⟩
    rw [← length_used, hused, List.length_append, length_used]
    rfl
  · omega
  · exact absurd (htype.symm.trans hdelete) hne
  · exact absurd (htype.symm.trans hdelete) hne

/-- **Out of bounds**: for the DELETE that clients send, of 8 bytes, 48 are copied, and into a
    struct of 8; and an INSERT without a payload is granted. -/
theorem copies_outside :
    let deleteAda := mkRequest deleteRequest (longBytes 7).1
    deleteAda.dataSize.toInt = deleteAda.data.length ∧
      (create zeroRec 1).payloadCopies deleteAda [] = [⟨48, 8⟩] ∧ deleteAda.dataSize.toInt = 8 ∧
      ¬(create zeroRec 1).CopiesWithin deleteAda [] ∧
      ¬(create zeroRec 1).CopiesWithin (mkRequest insertRequest []) [] := by
  intro deleteAda
  refine ⟨by decide, payloadCopies_delete rfl, by decide, ?_, ?_⟩
  · intro h
    -- `memcpy(&del_info, ..., sizeof(struct StudentInfo))`
    have hroom := h.room ⟨48, 8⟩ (by rw [payloadCopies_delete rfl]; exact List.mem_cons_self ..)
    exact absurd hroom (by decide)
  · intro h
    have hshort : ¬LongEnough (mkRequest insertRequest []) := by
      intro hlong
      exact absurd (hlong.2.1 rfl) (by decide)
    -- a short request should be refused, and this one is answered `RESPONSE_OK`
    have hcode := (h.short hshort).1
    rw [(short_insert rfl (by decide)).1] at hcode
    exact absurd hcode (by decide)

end DatabaseTask

end TaskSystem
