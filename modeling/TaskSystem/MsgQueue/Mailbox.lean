import TaskSystem.MsgQueue.Refinement

/-!
# Mailboxes

`System.send` and `System.receive` (`src/System/System.c`) on the queue of one task.
`receive` is two steps: `Dequeue`, which frees the slot and returns a pointer to it, and
`clone` through that pointer after the lock has been released.

## Contents

- `Mailbox`: the queue and the pointer the receiver holds; `send`, `take`, `finish`
- `ValidMsg`, `messageKind`: well-formed messages as records of the queue
- `Mailbox.Holds`: the message in the receiver's hands and the outstanding ones
- one lemma per step: `send_cases`, `take_nil`, `take_cons`, `finish_some`
-/

namespace TaskSystem

open Library Library.Rollover

/-! ## The steps -/

/-- The queue of a task, and what its `Dequeue` returned until `clone` has read it. -/
structure Mailbox where
  Q : Segment
  slot : Option Int

namespace Mailbox

def create (mem : Mem) : Mailbox := ⟨createQueue mem, none⟩

/-- `send`, by a process that maps the segment at `base` -/
def send (base : UInt64) (mb : Mailbox) (msg : AnyMsg) : Mailbox × Int :=
  let sent := enqueue base mb.Q msg.toMessage
  ({ mb with Q := sent.1 }, sent.2)

/-- `Dequeue(this->TaskTable[targetTaskID])` in `receive` -/
def take (P : Process) (mb : Mailbox) : Mailbox :=
  let taken := dequeue P mb.Q
  { Q := taken.1, slot := taken.2 }

/-- `msg->clone(msg)` in `receive` -/
def finish (P : Process) (mb : Mailbox) : Mailbox × Option AnyMsg :=
  ({ mb with slot := none }, mb.slot.bind (cloneAt P mb.Q.mem))

end Mailbox

/-! ## Messages as records of the queue -/

/-- A message of one of the nine types whose fields agree. -/
abbrev ValidMsg := { msg : AnyMsg // msg.WellFormed }

/-- `msg_size` -/
def ValidMsg.size (msg : ValidMsg) : Int := msg.1.msgSize.toInt

theorem ValidMsg.size_pos (msg : ValidMsg) : 0 < msg.size := msg.2.msgSize_pos

theorem ValidMsg.rebindEnd_le (msg : ValidMsg) : msg.1.type.rebindEnd ≤ msg.size := by
  have := msg.1.type.rebindEnd_le_sizeof
  have := msg.1.payloadBytes_nonneg
  have := msg.2.covers
  unfold ValidMsg.size
  omega

/-- Messages as `writeAt` stores them. -/
def messageKind : RecordKind ValidMsg where
  size := ValidMsg.size
  Stored m a msg := StoredAt m a msg.1
  stored_congr h hm := h.congr (Subtype.property _) hm
  typeOf msg := msg.1.type
  msgSize_eq h := by rw [h.header.2.2, ValidMsg.size]
  rebinder_eq := by
    intro m a msg h
    rw [h.header.2.1, msg.2.tid_eq, rebinder_id]
  rebindEnd_le {_ _ msg} _ := msg.rebindEnd_le

/-! ## What a mailbox holds -/

/-- The receiver's pointer leads to `pending`, rebound, in the slot below the head. -/
inductive SlotHolds (P : Process) (Q : Segment) : Option Int → Option ValidMsg → Prop where
  | none : SlotHolds P Q none none
  | some {p : Int} {msg : ValidMsg} (inside : sizeofQueue ≤ p) (stop : p + msg.size = Q.q.head)
      (bound : BoundAt P Q.mem p msg.1) : SlotHolds P Q (some p) (some msg)

/-- The receiver's pointer leads to `pending`, and the queue keeps `outstanding`. -/
structure Mailbox.Holds (P : Process) (mb : Mailbox) (pending : Option ValidMsg)
    (outstanding : List ValidMsg) : Prop where
  slot : SlotHolds P mb.Q mb.slot pending
  keeps : Keeps messageKind mb.Q outstanding

/-- The record of `n` bytes that `Enqueue` is to write reaches into the slot from `p` to the
    head, which has been dequeued. -/
def Overwrites (Q : Queue) (p n : Int) : Prop :=
  if Q.rolloverPosition = -1 then
    queueSize < Q.tail + n ∧ sizeofQueue + n ≤ Q.head ∧ p < sizeofQueue + n
  else Q.tail + n ≤ Q.head ∧ p < Q.tail + n

instance (Q : Queue) (p n : Int) : Decidable (Overwrites Q p n) := by
  unfold Overwrites
  infer_instance

theorem overwrites_iff (Q : Queue) (p n : Int) :
    Overwrites Q p n ↔ Reaches sizeofQueue queueSize Q.cursor p n := by
  by_cases hr : Q.rolloverPosition = -1 <;> simp [Overwrites, Reaches, Queue.cursor, hr]

/-- What keeps `Enqueue` of `n` bytes from doing damage: its sum of the tail and `n` is an
    `int`, and it stays off the slot the receiver is reading. -/
def SafeSend (mb : Mailbox) (n : Int) : Prop :=
  (mb.Q.q.rolloverPosition = -1 → mb.Q.q.tail + n ≤ intMax) ∧
    ∀ p, mb.slot = some p → ¬Overwrites mb.Q.q p n

instance (mb : Mailbox) (n : Int) : Decidable (SafeSend mb n) :=
  inferInstanceAs (Decidable ((mb.Q.q.rolloverPosition = -1 → mb.Q.q.tail + n ≤ intMax) ∧
    ∀ p ∈ mb.slot, ¬Overwrites mb.Q.q p n))

/-! ## One lemma per step -/

namespace Mailbox

variable {P : Process} {mb : Mailbox} {pending : Option ValidMsg} {outstanding : List ValidMsg}

theorem holds_create (mem : Mem) : (create mem).Holds P none [] :=
  ⟨.none, keeps_createQueue mem⟩

/-- What the receiver holds survives changes away from its slot. -/
theorem SlotHolds.congr {Q Q' : Segment} {slot : Option Int} (h : SlotHolds P Q slot pending)
    (hhead : Q'.q.head = Q.q.head)
    (hmem : ∀ p, slot = some p → ∀ y, p ≤ y → y < Q.q.head → Q'.mem y = Q.mem y) :
    SlotHolds P Q' slot pending := by
  cases h with
  | none => exact .none
  | @some p msg inside stop bound =>
    refine .some inside (by rw [hhead, stop]) (bound.congr msg.2 fun y h₁ h₂ => ?_)
    exact hmem p rfl y h₁ (by rw [← stop]; exact h₂)

/-- **`send`** is refused and changes nothing when the ring has no place, or the mailbox holds
    one message more; the one in the receiver's hands stays what it is. -/
theorem Holds.send_cases (h : mb.Holds P pending outstanding) (base : UInt64) (msg : ValidMsg)
    (hsafe : SafeSend mb msg.size) :
    (place sizeofQueue queueSize mb.Q.q.cursor msg.size = none ∧
      mb.send base msg.1 = (mb, 0)) ∨
    ∃ a mb', mb.send base msg.1 = (mb', 1) ∧
      place sizeofQueue queueSize mb.Q.q.cursor msg.size = some (a, mb'.Q.q.cursor) ∧
      mb'.slot = mb.slot ∧ mb'.Holds P pending (outstanding ++ [msg]) := by
  have hframe : ∀ a m y, y < a ∨ a + msg.size ≤ y →
      msg.1.toMessage.writeAt base a m y = m y :=
    fun a m y hy => writeAt_frame msg.2 m _ hy
  rcases enqueue_cases h.keeps base msg.1.toMessage msg.size_pos hsafe.1 hframe with
    ⟨hnone, hrefused⟩ | ⟨a, Q', henq, hmem, hplace, -, -, hkeeps⟩
  · exact .inl ⟨hnone, by simp [send, hrefused]⟩
  · refine .inr ⟨a, { mb with Q := Q' }, by simp [send, henq], hplace, rfl, ?_, ?_⟩
    · obtain ⟨ss, hlay, -⟩ := h.keeps.ring
      have hhead := place_head hplace
      refine SlotHolds.congr h.slot (by simpa [Queue.cursor] using hhead) ?_
      intro p hp y h₁ h₂
      have hclear := place_clear hlay hplace
        fun hreach => hsafe.2 p hp ((overwrites_iff _ _ _).mpr hreach)
      have hsize : msg.1.toMessage.msgSize.toInt = msg.size := rfl
      simp only [Queue.cursor, hsize] at hclear
      dsimp only
      rw [hmem]
      exact hframe a mb.Q.mem y (by omega)
    · refine hkeeps msg rfl ?_
      rw [hmem]
      exact storedAt_writeAt mb.Q.mem a msg.1 _

theorem Holds.take_nil (h : mb.Holds P none []) : mb.take P = mb := by
  have hslot : mb.slot = none := by
    obtain ⟨hslot, -⟩ := h
    cases hs : mb.slot with
    | none => rfl
    | some p => rw [hs] at hslot; cases hslot
  simp [take, dequeue_nil P h.keeps, ← hslot]

/-- **`Dequeue`** puts the oldest message into the receiver's hands. -/
theorem Holds.take_cons {msg : ValidMsg} (h : mb.Holds P pending (msg :: outstanding)) :
    (mb.take P).Holds P (some msg) outstanding ∧
      (mb.take P).slot = some (readPosition mb.Q.q) ∧
      (mb.take P).Q.q.cursor = advance sizeofQueue mb.Q.q.cursor msg.size ∧
      ((mb.take P).Q.q.head : Int) = readPosition mb.Q.q + msg.size := by
  obtain ⟨Q', hdeq, hstored, hmem, hcursor, hhead, hlo, -, hkeeps⟩ := dequeue_cons P h.keeps
  have htake : mb.take P = ⟨Q', some (readPosition mb.Q.q)⟩ := by simp [take, hdeq]
  rw [htake]
  refine ⟨⟨.some hlo hhead.symm ?_, hkeeps⟩, rfl, hcursor, hhead⟩
  rw [hmem]
  exact StoredAt.rebind msg.2 hstored P

/-- **`clone`** returns the message in the receiver's hands. -/
theorem Holds.finish_some {msg : ValidMsg} (h : mb.Holds P (some msg) outstanding) :
    (mb.finish P).2 = some msg.1 ∧ (mb.finish P).1.Holds P none outstanding := by
  obtain ⟨hslot, hkeeps⟩ := h
  cases hs : mb.slot with
  | none => rw [hs] at hslot; cases hslot
  | some p =>
    rw [hs] at hslot
    cases hslot with
    | some inside stop bound =>
      have haddr : Addressable p msg.1 := by
        have hhead := hkeeps.bounds.2.1
        have hsize : msg.size = msg.1.msgSize.toInt := rfl
        unfold sizeofQueue at inside
        unfold queueSize at hhead
        exact ⟨by omega, by omega⟩
      refine ⟨?_, .none, hkeeps⟩
      simp [finish, hs, cloneAt_of_boundAt msg.2 haddr bound]

end Mailbox

end TaskSystem
