import TaskSystem.Library.RecordRing
import TaskSystem.Messages.RoundTrip

/-!
# The Circular Message Queue

`src/MsgQueue/CircularMsgQ.c`: the queue a task receives from, in a shared segment of
`Q_SIZE` bytes that starts with `struct Queue`. Each function runs under `QLock`, so each
is one atomic step. The code's arithmetic is kept as it is: `head`, `tail` and `size` are
unsigned, `future_tail`, `read_pos` and `rollover_position` are `int`.

## Contents

- `Queue`, `Segment`, `Message`; `createQueue`, `enqueue`, `dequeue`, `peek`, `isEmpty`
- `Queue.cursor`: the rollover ring the offsets stand for
- `RecordKind`, `Keeps`: the queue keeps a list of records of some kind
- one lemma per function: `enqueue_cases`, `dequeue_cons`, `dequeue_nil`, ...
-/

namespace TaskSystem

open Library Library.Rollover

/-! ## The functions -/

/-- `Q_SIZE` -/
def queueSize : Int := 1000000

/-- `sizeof(struct Queue)`: the mutex takes 40 bytes, the four fields 16. -/
def sizeofQueue : Int := 56

/-- `struct Queue` without its mutex -/
structure Queue where
  /-- Offset of start addr -/
  head : Nat
  /-- Offset of start addr -/
  tail : Nat
  size : Nat
  /-- offset where tail went back to start, -1 = no rollover -/
  rolloverPosition : Int
  deriving DecidableEq, Repr

/-- The shared segment: the queue header, and its bytes by offset from the header. -/
structure Segment where
  q : Queue
  mem : Mem

/-- `struct Message`, the part of a message object the queue uses. `writeAt` is called with
    the address the segment is mapped at and the offset to write at. -/
structure Message where
  tag : Int32
  tid : Int32
  msgSize : Int32
  writeAt : UInt64 → Int → Mem → Mem

/-- The cast `(Message)msg`. -/
def AnyMsg.toMessage (msg : AnyMsg) : Message where
  tag := msg.tag
  tid := msg.tid
  msgSize := msg.msgSize
  writeAt base a m := m.applyStores a (msg.writeAt (address base a))

/-- `CreateQueue`, on a segment whose bytes are `mem`. -/
def createQueue (mem : Mem) : Segment where
  q := { size := 0, head := sizeofQueue.toNat, tail := sizeofQueue.toNat, rolloverPosition := -1 }
  mem := mem

/-- `IsEmpty` -/
def isEmpty (Q : Segment) : Int := if Q.q.size = 0 then 1 else 0

/-- Where `Enqueue` predicts the tail, and `has_to_rollover`; `none` for "Circular array full". -/
def predictTail (Q : Queue) (msgSize : Int) : Option (Int × Int) :=
  let futureTail := toSigned (toUnsigned (Q.tail + msgSize))
  if Q.rolloverPosition = -1 then
    if futureTail > queueSize then
      let futureTail := toSigned (sizeofQueue + msgSize)
      let hasToRollover := toSigned Q.tail
      -- full array protection in case of overflow
      if hasToRollover ≠ -1 ∧ toUnsigned futureTail > Q.head then none
      else some (futureTail, hasToRollover)
    else some (futureTail, -1)
  else
    -- already overflow
    if toUnsigned futureTail > Q.head then none else some (futureTail, -1)

/-- `Enqueue`, called in a process that maps the segment at `base` -/
def enqueue (base : UInt64) (Q : Segment) (item : Message) : Segment × Int :=
  match predictTail Q.q item.msgSize.toInt with
  | none => (Q, 0)
  | some (futureTail, hasToRollover) =>
    ({  mem := item.writeAt base (futureTail - item.msgSize.toInt) Q.mem
        q :=
          { Q.q with
            tail := toUnsigned futureTail
            -- only dequeue can set rollover back to -1
            rolloverPosition :=
              if hasToRollover > 0 then hasToRollover else Q.q.rolloverPosition
            size := toUnsigned (Q.q.size + 1) } }, 1)

/-- `read_pos`, as `Peek` and `Dequeue` compute it -/
def readPosition (Q : Queue) : Int :=
  if Q.head = toUnsigned Q.rolloverPosition then sizeofQueue else toSigned Q.head

/-- `Peek`: the offset of the record, `none` for NULL -/
def peek (Q : Segment) : Option Int :=
  if Q.q.size = 0 then none else some (readPosition Q.q)

/-- `Dequeue`: the offset of the record returned, `none` for NULL -/
def dequeue (P : Process) (Q : Segment) : Segment × Option Int :=
  if Q.q.size = 0 then (Q, none)
  else
    let readPos := readPosition Q.q
    let msgSize := (Q.mem.loadInt (readPos + 8)).toInt
    let q :=
      { Q.q with
        rolloverPosition :=
          if Q.q.head = toUnsigned Q.q.rolloverPosition then -1 else Q.q.rolloverPosition
        head := toUnsigned (readPos + msgSize)
        size := toUnsigned ((Q.q.size : Int) - 1) }
    match rebinder (Q.mem.loadInt (readPos + 4)) with
    | some t => ({ q, mem := rebindAt P t readPos Q.mem }, some readPos)
    | none => ({ q, mem := Q.mem }, none)

/-! ## The ring behind the offsets -/

/-- The rollover ring whose cursor the offsets are. -/
def Queue.cursor (Q : Queue) : Cursor where
  head := Q.head
  tail := Q.tail
  roll := if Q.rolloverPosition = -1 then none else some Q.rolloverPosition

/-- The code's test for the turning point, a comparison of `unsigned` with `int`, is the
    ring's. -/
theorem head_eq_rollover_iff {Q : Queue} {ss : List Slot}
    (h : Layout sizeofQueue queueSize Q.cursor ss) :
    Q.head = toUnsigned Q.rolloverPosition ↔ Q.cursor.roll = some Q.cursor.head := by
  obtain ⟨h₁, h₂, -, -, hroll⟩ := h.bounds
  simp only [Queue.cursor, sizeofQueue, queueSize] at h₁ h₂ hroll ⊢
  by_cases hr : Q.rolloverPosition = -1
  · have hne : Q.head ≠ toUnsigned (-1) := by unfold toUnsigned; omega
    simp [hr, hne]
  · have hb := hroll Q.rolloverPosition (by simp [hr])
    have hun : (toUnsigned Q.rolloverPosition : Int) = Q.rolloverPosition :=
      toUnsigned_of_range (by omega) (by omega)
    simp only [hr, if_false, Option.some.injEq]
    omega

/-- `read_pos` is where the ring's reader looks. -/
theorem readPosition_eq {Q : Queue} {ss : List Slot}
    (h : Layout sizeofQueue queueSize Q.cursor ss) :
    readPosition Q = readPos sizeofQueue Q.cursor := by
  have hb := h.bounds
  have hhead : toSigned Q.head = Q.head := by
    simp only [Queue.cursor, sizeofQueue, queueSize] at hb
    exact toSigned_of_range (by omega) (by unfold intMax; omega)
  simp only [readPosition, readPos, head_eq_rollover_iff h, hhead]
  rfl

/-- The header after `Dequeue` of a record of `n` bytes is the ring's after the reader step. -/
theorem cursor_advance {Q : Queue} {ss : List Slot} {n : Int}
    (h : Layout sizeofQueue queueSize Q.cursor ss) (h₁ : 0 ≤ readPosition Q + n)
    (h₂ : readPosition Q + n ≤ queueSize) :
    Queue.cursor
      { Q with
        rolloverPosition :=
          if Q.head = toUnsigned Q.rolloverPosition then -1 else Q.rolloverPosition
        head := toUnsigned (readPosition Q + n)
        size := toUnsigned ((Q.size : Int) - 1) } = advance sizeofQueue Q.cursor n := by
  unfold queueSize at h₂
  have hun : (toUnsigned (readPosition Q + n) : Int) = readPosition Q + n :=
    toUnsigned_of_range h₁ (by omega)
  have hiff := head_eq_rollover_iff h
  simp only [advance, ← readPosition_eq h, ← hiff]
  by_cases hturn : Q.head = toUnsigned Q.rolloverPosition
  · rw [if_pos hturn, if_pos hturn]
    simp [Queue.cursor, hun]
  · rw [if_neg hturn, if_neg hturn]
    simp [Queue.cursor, hun]

/-- **`Enqueue` predicts what the ring's writer does**, unless `future_tail` overflows before
    the tail has gone back to the start. -/
theorem predictTail_eq {Q : Queue} {ss : List Slot} {n : Int}
    (h : Layout sizeofQueue queueSize Q.cursor ss) (hn : 0 < n) (hmax : n ≤ intMax)
    (hsum : Q.rolloverPosition = -1 → Q.tail + n ≤ intMax) :
    (place sizeofQueue queueSize Q.cursor n = none ∧ predictTail Q n = none) ∨
    ∃ a roll c', place sizeofQueue queueSize Q.cursor n = some (a, c') ∧
      predictTail Q n = some (a + n, roll) ∧
      c' = Queue.cursor { Q with
        tail := toUnsigned (a + n)
        rolloverPosition := if roll > 0 then roll else Q.rolloverPosition } := by
  obtain ⟨h₁, h₂, h₃, h₄, hroll⟩ := h.bounds
  simp only [Queue.cursor, sizeofQueue, queueSize] at h₁ h₂ h₃ h₄ hroll
  simp only [intMax] at hmax hsum
  have hun : (toUnsigned (Q.tail + n) : Int) = Q.tail + n :=
    toUnsigned_of_range (by omega) (by omega)
  by_cases hr : Q.rolloverPosition = -1
  · -- none of the sums leaves the range of its C type
    have hle := hsum hr
    have hfuture : toSigned (toUnsigned (Q.tail + n)) = Q.tail + n := by
      rw [hun]
      exact toSigned_of_range (by omega) hle
    have htail : toSigned Q.tail = Q.tail := toSigned_of_range (by omega) (by unfold intMax; omega)
    have hstart : toSigned (56 + n) = 56 + n :=
      toSigned_of_range (by omega) (by unfold intMax; omega)
    have hstart' : (toUnsigned (56 + n) : Int) = 56 + n := toUnsigned_of_range (by omega) (by omega)
    by_cases hfit : Q.tail + n ≤ 1000000
    · -- the record fits before the end
      refine .inr ⟨Q.tail, -1, _, by simp [place, Queue.cursor, hr, queueSize, hfit]; rfl, ?_, ?_⟩
      · simp [predictTail, hr, hfuture, queueSize, hfit]
      · simp [Queue.cursor, hr, hun]
    · by_cases hroom : 56 + n ≤ Q.head
      · -- the tail goes back to the start
        refine .inr ⟨56, Q.tail, _,
          by simp [place, Queue.cursor, hr, queueSize, sizeofQueue, hfit, hroom]; rfl, ?_, ?_⟩
        · have hfull : ¬(Q.head < toUnsigned (56 + n)) := by omega
          simp [predictTail, hr, hfuture, queueSize, sizeofQueue, hstart, htail, hfull]
          omega
        · have hpos : 0 < Q.tail := by omega
          have hne : (Q.tail : Int) ≠ -1 := by omega
          simp [Queue.cursor, hstart', hpos, hne]
      · refine .inl ⟨by simp [place, Queue.cursor, hr, queueSize, sizeofQueue, hfit, hroom], ?_⟩
        have hfull : Q.head < toUnsigned (56 + n) := by omega
        have hne : (Q.tail : Int) ≠ -1 := by omega
        simp [predictTail, hr, hfuture, queueSize, sizeofQueue, hstart, htail, hfull, hne]
        omega
  · by_cases hroom : Q.tail + n ≤ Q.head
    · have hfuture : toSigned (toUnsigned (Q.tail + n)) = Q.tail + n := by
        rw [hun]
        exact toSigned_of_range (by omega) (by unfold intMax; omega)
      refine .inr ⟨Q.tail, -1, _, by simp [place, Queue.cursor, hr, hroom]; rfl, ?_, ?_⟩
      · have hfull : ¬(Q.head < toUnsigned (Q.tail + n)) := by omega
        simp [predictTail, hr, hfuture, hfull]
      · simp [Queue.cursor, hr, hun]
    · -- an overflow to a negative `int` is undone by the comparison with the unsigned head
      refine .inl ⟨by simp [place, Queue.cursor, hr, hroom], ?_⟩
      have hback : (toUnsigned (toSigned (toUnsigned (Q.tail + n))) : Int) = Q.tail + n := by
        rw [hun]
        unfold toUnsigned toSigned
        omega
      have hfull : Q.head < toUnsigned (toSigned (toUnsigned (Q.tail + n))) := by omega
      simp [predictTail, hr, hfull]

/-! ## What the queue keeps -/

/-- A kind of record the queue can keep: what is stored says how long the record is and which
    rebinder to run, and that rebinder stays inside the record. -/
structure RecordKind (α : Type*) extends Discipline α where
  /-- The type registered for the record's `tid` -/
  typeOf : α → MsgType
  msgSize_eq : ∀ {m : Mem} {a : Int} {x : α}, Stored m a x → (m.loadInt (a + 8)).toInt = size x
  rebinder_eq : ∀ {m : Mem} {a : Int} {x : α}, Stored m a x →
    rebinder (m.loadInt (a + 4)) = some (typeOf x)
  rebindEnd_le : ∀ {m : Mem} {a : Int} {x : α}, Stored m a x → (typeOf x).rebindEnd ≤ size x

variable {α : Type*} {K : RecordKind α}

/-- The queue keeps the records `xs`, oldest first. -/
structure Keeps (K : RecordKind α) (Q : Segment) (xs : List α) : Prop where
  ring : K.Represents sizeofQueue queueSize Q.q.cursor Q.mem xs
  size_eq : Q.q.size = xs.length

theorem keeps_createQueue (mem : Mem) : Keeps K (createQueue mem) [] where
  ring := Discipline.represents_fresh mem (a := 56) (by decide) (by decide)
  size_eq := rfl

/-- The counter `size` never wraps: every record takes at least a byte. -/
theorem Keeps.length_le {Q : Segment} {xs : List α} (h : Keeps K Q xs) :
    xs.length ≤ 999944 := by
  obtain ⟨ss, hlay, hfill⟩ := h.ring
  have hlen := hlay.length_le
  rw [hfill.length_eq] at hlen
  unfold queueSize sizeofQueue at hlen
  omega

/-- The offsets of the header stay in the segment. -/
theorem Keeps.bounds {Q : Segment} {xs : List α} (h : Keeps K Q xs) :
    sizeofQueue ≤ Q.q.head ∧ (Q.q.head : Int) ≤ queueSize ∧ sizeofQueue ≤ Q.q.tail ∧
      (Q.q.tail : Int) ≤ queueSize := by
  obtain ⟨ss, hlay, -⟩ := h.ring
  obtain ⟨h₁, h₂, h₃, h₄, -⟩ := hlay.bounds
  exact ⟨h₁, h₂, h₃, h₄⟩

/-! ## One lemma per function -/

theorem isEmpty_eq {Q : Segment} {xs : List α} (h : Keeps K Q xs) :
    isEmpty Q = if xs = [] then 1 else 0 := by
  simp [isEmpty, h.size_eq]

/-- **`Enqueue`** refuses and changes nothing when the ring has no place; otherwise it writes
    the record at the ring's place `a` and the queue keeps one record more. -/
theorem enqueue_cases {Q : Segment} {xs : List α} (h : Keeps K Q xs) (base : UInt64)
    (item : Message) (hpos : 0 < item.msgSize.toInt)
    (hmax : Q.q.rolloverPosition = -1 → Q.q.tail + item.msgSize.toInt ≤ intMax)
    (hframe : ∀ a m y, y < a ∨ a + item.msgSize.toInt ≤ y → item.writeAt base a m y = m y) :
    (place sizeofQueue queueSize Q.q.cursor item.msgSize.toInt = none ∧
      enqueue base Q item = (Q, 0)) ∨
    ∃ a Q', enqueue base Q item = (Q', 1) ∧ Q'.mem = item.writeAt base a Q.mem ∧
      place sizeofQueue queueSize Q.q.cursor item.msgSize.toInt = some (a, Q'.q.cursor) ∧
      sizeofQueue ≤ a ∧ a + item.msgSize.toInt ≤ queueSize ∧
      ∀ x, K.size x = item.msgSize.toInt → K.Stored Q'.mem a x → Keeps K Q' (xs ++ [x]) := by
  obtain ⟨ss, hlay, -⟩ := h.ring
  have hint : item.msgSize.toInt ≤ intMax := by
    have := item.msgSize.toInt_lt
    unfold intMax
    omega
  rcases predictTail_eq hlay hpos hint hmax with
    ⟨hplace, hpredict⟩ | ⟨a, roll, c', hplace, hpredict, hc⟩
  · exact .inl ⟨hplace, by simp [enqueue, hpredict]⟩
  · subst hc
    have hin := h.ring.put_inside hpos hplace
    refine .inr ⟨a, _, by simp only [enqueue, hpredict]; rfl, ?_, hplace, hin.1, hin.2, ?_⟩
    · simp only [Int.add_sub_cancel]
    · intro x hx hstored
      refine ⟨h.ring.put (by omega) (by rw [hx]; exact hplace) ?_ hstored, ?_⟩
      · intro y hy
        simp only [Int.add_sub_cancel]
        exact hframe a Q.mem y (by rwa [hx] at hy)
      · have hlen := h.length_le
        have hsize : (toUnsigned (Q.q.size + 1) : Int) = Q.q.size + 1 :=
          toUnsigned_of_range (by omega) (by have := h.size_eq; omega)
        simp only [List.length_append, List.length_singleton]
        have := h.size_eq
        omega

theorem peek_nil {Q : Segment} (h : Keeps K Q []) : peek Q = none := by
  have hsize : Q.q.size = 0 := h.size_eq
  simp [peek, hsize]

/-- **`Peek`** points at the oldest record. -/
theorem peek_cons {Q : Segment} {x : α} {xs : List α} (h : Keeps K Q (x :: xs)) :
    peek Q = some (readPosition Q.q) := by
  have hsize : Q.q.size = xs.length + 1 := h.size_eq
  simp [peek, hsize]

theorem dequeue_nil {Q : Segment} (P : Process) (h : Keeps K Q []) :
    dequeue P Q = (Q, none) := by
  have hsize : Q.q.size = 0 := h.size_eq
  simp [dequeue, hsize]

/-- **`Dequeue`** returns the place of the oldest record, having run its rebinder there and
    nothing else; the queue keeps the other records. -/
theorem dequeue_cons {Q : Segment} {x : α} {xs : List α} (P : Process)
    (h : Keeps K Q (x :: xs)) :
    ∃ Q', dequeue P Q = (Q', some (readPosition Q.q)) ∧
      K.Stored Q.mem (readPosition Q.q) x ∧
      Q'.mem = rebindAt P (K.typeOf x) (readPosition Q.q) Q.mem ∧
      Q'.q.cursor = advance sizeofQueue Q.q.cursor (K.size x) ∧
      (Q'.q.head : Int) = readPosition Q.q + K.size x ∧
      sizeofQueue ≤ readPosition Q.q ∧ readPosition Q.q + K.size x ≤ queueSize ∧
      Keeps K Q' xs := by
  obtain ⟨ss, hlay, -⟩ := h.ring
  have hpos := readPosition_eq hlay
  obtain ⟨hstored, hlo, hhi, hhead, hrest⟩ := h.ring.take
  rw [← hpos] at hstored hlo hhi hhead hrest
  have hend := K.rebindEnd_le hstored
  have hendPos : 48 ≤ (K.typeOf x).rebindEnd := by cases K.typeOf x <;> decide
  have hnonzero : Q.q.size ≠ 0 := by have := h.size_eq; simp at this; omega
  have hlen := h.length_le
  have hun : (toUnsigned (readPosition Q.q + K.size x) : Int) = readPosition Q.q + K.size x := by
    unfold sizeofQueue at hlo
    unfold queueSize at hhi
    exact toUnsigned_of_range (by omega) (by omega)
  have hsize : (toUnsigned ((Q.q.size : Int) - 1) : Int) = Q.q.size - 1 :=
    toUnsigned_of_range (by omega) (by have := h.size_eq; omega)
  have hcursor := cursor_advance hlay (n := K.size x) (by unfold sizeofQueue at hlo; omega) hhi
  refine ⟨{ q := _, mem := rebindAt P (K.typeOf x) (readPosition Q.q) Q.mem }, ?_, hstored, rfl,
    hcursor, hun, hlo, hhi, ?_, ?_⟩
  · simp only [dequeue, hnonzero, if_false, K.rebinder_eq hstored, K.msgSize_eq hstored]
  · rw [hcursor]
    exact hrest _ fun y hy => rebindAt_frame _ (by omega)
  · have := h.size_eq
    simp only [List.length_cons] at this
    dsimp only
    omega

end TaskSystem
