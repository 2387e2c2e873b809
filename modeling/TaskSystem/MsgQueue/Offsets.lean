import TaskSystem.Library.Transition
import TaskSystem.MsgQueue.Receive

/-!
# Where `Enqueue` Writes

`future_tail` is an `int`, the tail it is computed from an `unsigned int`, and the size of the
header a 64-bit value. Before the tail has gone back to the start the sum is compared as an
`int`: above `INT_MAX` it is negative, passes for a tail that fits, and the record is written
4294967296 bytes before its place. Afterwards it is compared with the unsigned head, which
undoes the overflow.

## Contents

- `recordOffset`: the offset `Enqueue` hands to `writeAt`
- `PlacesInside`: it refuses and changes nothing, or writes inside the segment
- `segment`: runs of calls on one queue
- `enqueue_inside_iff`: in every state of a run, exactly for the sizes whose sum fits
- `enqueue_outside`: a request of `INT_MAX` bytes on a new queue
-/

namespace TaskSystem

open Library Library.Rollover

/-! ## Offsets -/

/-- The offset `future_tail - item->msg_size` that `Enqueue` hands to `writeAt`; `none` for
    "Circular array full". -/
def recordOffset (Q : Queue) (msgSize : Int) : Option Int :=
  (predictTail Q msgSize).map fun p => p.1 - msgSize

/-- **What `Enqueue` is to do** with an item: return 0 and leave the queue as it is, or place
    the record between the header and the end of the segment. -/
def PlacesInside (base : UInt64) (Q : Segment) (item : Message) : Prop :=
  match recordOffset Q.q item.msgSize.toInt with
  | none => enqueue base Q item = (Q, 0)
  | some off =>
    (enqueue base Q item).2 = 1 ∧ (enqueue base Q item).1.mem = item.writeAt base off Q.mem ∧
      sizeofQueue ≤ off ∧ off + item.msgSize.toInt ≤ queueSize

/-- What `Enqueue` does is decided by the offset alone. -/
theorem placesInside_iff (base : UInt64) (Q : Segment) (item : Message) :
    PlacesInside base Q item ↔ ∀ off, recordOffset Q.q item.msgSize.toInt = some off →
      sizeofQueue ≤ off ∧ off + item.msgSize.toInt ≤ queueSize := by
  unfold PlacesInside recordOffset enqueue
  cases hpredict : predictTail Q.q item.msgSize.toInt with
  | none => simp
  | some p => simp

/-- An item for which there is an offset is accepted. -/
theorem enqueue_of_recordOffset {base : UInt64} {Q : Segment} {item : Message} {off : Int}
    (hoff : recordOffset Q.q item.msgSize.toInt = some off) : (enqueue base Q item).2 = 1 := by
  obtain ⟨p, hpredict, -⟩ := Option.map_eq_some_iff.mp hoff
  simp only [enqueue, hpredict]

theorem not_placesInside {base : UInt64} {Q : Segment} {item : Message} {off : Int}
    (hoff : recordOffset Q.q item.msgSize.toInt = some off) (hlow : off < sizeofQueue) :
    ¬PlacesInside base Q item := by
  rw [placesInside_iff]
  intro hinside
  have hout := (hinside off hoff).1
  omega

/-! ## One call -/

section Call

variable {α : Type*} {K : RecordKind α} {Q : Segment} {xs : List α} {n : Int}

/-- **A sum that fits** leads to an offset inside the segment. -/
theorem recordOffset_inside (h : Keeps K Q xs) (hpos : 0 < n) (hmax : n ≤ intMax)
    (hsum : SumFits Q.q n) {off : Int} (hoff : recordOffset Q.q n = some off) :
    sizeofQueue ≤ off ∧ off + n ≤ queueSize := by
  obtain ⟨ss, hlay, -⟩ := h.ring
  rcases predictTail_eq hlay hpos hmax hsum with ⟨-, hnone⟩ | ⟨a, roll, c', hplace, hsome, -⟩
  · rw [recordOffset, hnone] at hoff
    cases hoff
  · -- the offset is the ring's place for the record
    obtain rfl : a = off := by
      rw [recordOffset, hsome, Option.map_some, Option.some.injEq] at hoff
      omega
    exact h.ring.put_inside hpos hplace

/-- **A sum that does not fit** passes for one that does, far below the segment. -/
theorem recordOffset_wrapped (h : Keeps K Q xs) (hmax : n ≤ intMax) (hsum : ¬SumFits Q.q n) :
    recordOffset Q.q n = some ((Q.q.tail : Int) - 4294967296) := by
  obtain ⟨-, -, htail₁, htail₂⟩ := h.bounds
  simp only [SumFits, Classical.not_imp, Int.not_le] at hsum
  obtain ⟨hroll, hover⟩ := hsum
  unfold sizeofQueue at htail₁
  unfold queueSize at htail₂
  unfold intMax at hmax hover
  -- between `INT_MAX` and `UINT_MAX` the sum keeps its bits and changes its sign
  have hunsigned : (toUnsigned (Q.q.tail + n) : Int) = Q.q.tail + n :=
    toUnsigned_of_range (by omega) (by omega)
  have hsigned : toSigned (Q.q.tail + n) = Q.q.tail + n - 4294967296 := by
    unfold toSigned
    omega
  have hfits : ¬Q.q.tail + n - 4294967296 > queueSize := by
    unfold queueSize
    omega
  simp only [recordOffset, predictTail, hroll, hunsigned, hsigned, hfits, if_true, if_false,
    Option.map_some, Option.some.injEq]
  omega

end Call

/-! ## Every run -/

/-- Runs of calls on one queue. -/
def segment : System Segment Call where
  init Q := ∃ mem, Q = createQueue mem
  step Q c := some (call Q c).1

/-- Admissible calls leave a queue that keeps records. -/
theorem keeps_of_reachableWhen {Q : Segment} (h : segment.ReachableWhen Call.Admissible Q) :
    ∃ xs, Keeps recordKind Q xs := by
  refine System.ReachableWhen.invariant (P := fun Q => ∃ xs, Keeps recordKind Q xs) ?_ ?_ h
  · rintro Q ⟨mem, rfl⟩
    exact ⟨[], keeps_createQueue mem⟩
  · rintro Q c Q' ⟨xs, hkeeps⟩ hc hstep
    obtain rfl := Option.some.inj hstep
    obtain ⟨ys, -, hkeeps'⟩ := call_step_of_admissible hkeeps c hc
    exact ⟨ys, hkeeps'⟩

/-- **`Enqueue` stays inside the segment exactly for the sums that fit**: in every state that
    admissible calls lead to, and for every item of positive size. -/
theorem enqueue_inside_iff {Q : Segment} (h : segment.ReachableWhen Call.Admissible Q)
    (base : UInt64) (item : Message) (hpos : 0 < item.msgSize.toInt) :
    PlacesInside base Q item ↔ SumFits Q.q item.msgSize.toInt := by
  obtain ⟨xs, hkeeps⟩ := keeps_of_reachableWhen h
  have hmax : item.msgSize.toInt ≤ intMax := by
    have hlt := item.msgSize.toInt_lt
    unfold intMax
    omega
  rw [placesInside_iff]
  constructor
  · intro hinside
    by_contra hsum
    have hout := (hinside _ (recordOffset_wrapped hkeeps hmax hsum)).1
    have htail := hkeeps.bounds.2.2.2
    unfold sizeofQueue at hout
    unfold queueSize at htail
    omega
  · intro hsum off hoff
    exact recordOffset_inside hkeeps hpos hmax hsum hoff

/-- Near the end of the segment, where a record of 999800 bytes has passed: one of 300 bytes goes
    inside, and one of 2147483000, whose sum with the tail is no `int`, does not. -/
theorem enqueue_inside_iff_passed :
    let calls : List Call :=
      [.enqueue ⟨4096, .packed⟩ (headerBar 999800), .dequeue ⟨8192, .packed⟩]
    ∃ Q, segment.runFrom (createQueue fun _ => 0) calls = some Q ∧ Q.q.tail = 999856 ∧
      PlacesInside 4096 Q (headerBar 300) ∧ ¬PlacesInside 4096 Q (headerBar 2147483000) := by
  intro calls
  have hrun : (segment.runFrom (createQueue fun _ => 0) calls).map
      (fun Q => (Q.q.tail, decide (SumFits Q.q 300), decide (SumFits Q.q 2147483000))) =
      some (999856, true, false) := by
    decide +kernel
  obtain ⟨Q, hQ, hobs⟩ := Option.map_eq_some_iff.mp hrun
  obtain ⟨htail, hsums⟩ := Prod.mk.inj hobs
  obtain ⟨hfits, hover⟩ := Prod.mk.inj hsums
  have hadmissible : segment.Along Call.Admissible (createQueue fun _ => 0) calls := by
    have hitem : (headerBar 999800).WellBehaved :=
      headerBar_wellBehaved 999800 (by decide) (by decide)
    refine ⟨hitem.admissible (keeps_createQueue fun _ => 0), fun Q₁ _ => ⟨trivial, ?_⟩⟩
    exact fun _ _ => trivial
  have hreach := hadmissible.reachableWhen (.init ⟨_, rfl⟩) hQ
  refine ⟨Q, hQ, htail, ?_, ?_⟩
  · exact (enqueue_inside_iff hreach 4096 (headerBar 300) (by decide)).mpr
      (of_decide_eq_true hfits)
  · intro hinside
    exact of_decide_eq_false hover
      ((enqueue_inside_iff hreach 4096 (headerBar 2147483000) (by decide)).mp hinside)

/-- A request with as much data as an `int` can count with its struct. -/
theorem zeroData_largest {n : Nat} (hn : 88 + (n : Int) = intMax) :
    (zeroData n).Built ∧ (zeroData n).msgSize.toInt = intMax := by
  have hcreate : (RequestMsg.create 0).msgSize.toInt = 88 := by decide
  constructor
  · refine RequestMsg.Built.setData (.create 0) _ ?_
    rw [hcreate, List.length_replicate]
    omega
  · simp only [zeroData, AnyMsg.msgSize, RequestMsg.setData, hcreate, List.length_replicate, hn]
    exact toInt_ofInt_of_fits (by decide) (Int.le_refl _)

theorem exists_largest : ∃ msg : ValidMsg, msg.1.Built ∧ msg.size = intMax := by
  have hn : ∃ n : Nat, 88 + (n : Int) = intMax := ⟨2147483559, by simp [intMax]⟩
  obtain ⟨n, hn⟩ := hn
  obtain ⟨hbuilt, hsize⟩ := zeroData_largest hn
  exact ⟨⟨zeroData n, hbuilt.wellFormed⟩, hbuilt, hsize⟩

/-- **Outside the segment**: on a new queue a request of `INT_MAX` bytes is accepted, and
    `writeAt` is called with an offset of -4294967240. -/
theorem enqueue_outside :
    let Q := createQueue fun _ => 0
    ∃ msg : ValidMsg, msg.1.Built ∧ msg.size = intMax ∧
      (enqueue 4096 Q msg.1.toMessage).2 = 1 ∧
      recordOffset Q.q msg.size = some (-4294967240) ∧
      ¬PlacesInside 4096 Q msg.1.toMessage := by
  intro Q
  obtain ⟨msg, hbuilt, hsize⟩ := exists_largest
  have hitem : msg.1.toMessage.msgSize.toInt = intMax := hsize
  have hkeeps : Keeps recordKind Q [] := keeps_createQueue _
  have hsum : ¬SumFits Q.q intMax := by decide
  have hoff : recordOffset Q.q intMax = some (-4294967240) := by
    have htail : Q.q.tail = 56 := rfl
    rw [recordOffset_wrapped hkeeps (Int.le_refl _) hsum, htail]
    rfl
  have hoff' : recordOffset Q.q msg.1.toMessage.msgSize.toInt = some (-4294967240) := by
    rw [hitem]
    exact hoff
  refine ⟨msg, hbuilt, hsize, enqueue_of_recordOffset hoff', ?_, not_placesInside hoff' ?_⟩
  · rw [hsize]
    exact hoff
  · unfold sizeofQueue
    omega

end TaskSystem
