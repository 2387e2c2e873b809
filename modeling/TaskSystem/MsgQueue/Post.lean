import Mathlib.Tactic.Ring
import TaskSystem.Library.Network
import TaskSystem.MsgQueue.Mailbox

/-!
# Mailboxes as Channels

A system of tasks that send to and receive from each other's queues, and why its queues can be
thought of as logs: as long as the records outstanding on a queue leave room for three more
of the largest size, `Enqueue` accepts every message and stays off the slot that the receiver
is still cloning.

## Contents

- `Mailbox.getMsgTag`, `Mailbox.drop`: the other two functions of `System.c` on a queue
- `mailboxes`: the mailboxes of a system of tasks as a medium
- `Mailbox.Calm`: what a mailbox holds, in records of limited size
- `Roomy`, `mailboxes_carry`: with room, mailboxes behave like logs
-/

namespace TaskSystem

open Library Library.Rollover

/-! ## A system of mailboxes -/

/-- `getMsgTag`. The tag is read after `Peek` has released the lock; meanwhile the record stays
    what it is, since only the receiver itself removes records. -/
def Mailbox.getMsgTag (mb : Mailbox) : Int32 :=
  match peek mb.Q with
  | none => -1
  | some a => mb.Q.mem.loadInt (a + 0)

/-- `dropMsg` -/
def Mailbox.drop (P : Process) (mb : Mailbox) : Mailbox := { mb.take P with slot := none }

/-- What `getMsgTag` returns when `msg` is next. -/
def tagOf : Option AnyMsg → Int32
  | none => -1
  | some msg => msg.tag

/-- How the tasks of a system use the queues. -/
structure Mapping where
  /-- The process of each task, as it maps that task's own queue -/
  process : Nat → Process
  /-- Where the process of the first task maps the queue of the second -/
  base : Nat → Nat → UInt64
  /-- The bytes of the segment of each task's queue before `CreateQueue` -/
  segment : Nat → Mem

/-- The mailboxes of a system of tasks. -/
def mailboxes (map : Mapping) : Medium AnyMsg Int32 Mailbox where
  create t := .create (map.segment t)
  send t target mb msg :=
    let sent := mb.send (map.base t target) msg
    (sent.1, sent.2 = 1)
  peek := Mailbox.getMsgTag
  take t := Mailbox.take (map.process t)
  drop t := Mailbox.drop (map.process t)
  finish t := Mailbox.finish (map.process t)

/-! ## Records of limited size -/

/-- The mailbox holds these messages, each of at most `cap` bytes, and its writer went back to
    the start no earlier than such sizes make it. -/
structure Mailbox.Calm (P : Process) (cap : Int) (mb : Mailbox) (pending : Option ValidMsg)
    (outstanding : List ValidMsg) : Prop where
  holds : mb.Holds P pending outstanding
  late : TurnedLate queueSize cap mb.Q.q.cursor
  pending_le : ∀ msg, pending = some msg → msg.size ≤ cap
  outstanding_le : ∀ msg ∈ outstanding, msg.size ≤ cap

namespace Mailbox

variable {P : Process} {cap : Int} {mb : Mailbox} {pending : Option ValidMsg}
  {outstanding : List ValidMsg}

theorem calm_create (mem : Mem) : (create mem).Calm P cap none [] where
  holds := holds_create mem
  late := by
    intro r hr
    simp [create, createQueue, Queue.cursor] at hr
  pending_le := by simp
  outstanding_le := by simp

/-- Slots that hold records of at most `cap` bytes take at most `cap` bytes each. -/
theorem total_le {m : Mem} {ss : List Slot} (h : List.Forall₂ (messageKind.Fills m) ss outstanding)
    (hcap : ∀ msg ∈ outstanding, msg.size ≤ cap) : total ss ≤ outstanding.length * cap := by
  induction h with
  | nil => simp
  | @cons s msg ss msgs hs _ ih =>
    have hfirst : s.len = msg.size := hs.len
    have hmsg := hcap msg (List.mem_cons_self ..)
    have hrest := ih fun x hx => hcap x (List.mem_cons_of_mem _ hx)
    rw [total_cons, List.length_cons]
    push_cast
    have hsplit : ((msgs.length : Int) + 1) * cap = cap + msgs.length * cap := by ring
    omega

/-- The receiver's pointer leads to a record that ends at the head. -/
theorem SlotHolds.stop_eq {Q : Segment} {slot : Option Int} (h : SlotHolds P Q slot pending)
    {p : Int} (hp : slot = some p) : ∃ msg, pending = some msg ∧ p + msg.size = Q.q.head := by
  cases h with
  | none => cases hp
  | @some p' msg inside stop bound =>
    obtain rfl : p' = p := Option.some.inj hp
    exact ⟨msg, rfl, stop⟩

/-- **`send` with room** is accepted, and neither overflows nor touches the slot the receiver is
    reading. -/
theorem Calm.send (h : mb.Calm P cap pending outstanding) (base : UInt64) (msg : ValidMsg)
    (hmsg : msg.size ≤ cap)
    (hroom : (outstanding.length + 3 : Int) * cap ≤ queueSize - sizeofQueue) :
    ∃ mb', mb.send base msg.1 = (mb', 1) ∧ mb'.Calm P cap pending (outstanding ++ [msg]) := by
  obtain ⟨ss, hlay, hfill⟩ := h.holds.keeps.ring
  have hpos := msg.size_pos
  have htotal := total_le hfill h.outstanding_le
  have hsum : (outstanding.length + 3 : Int) * cap = outstanding.length * cap + 3 * cap := by ring
  have hcount : 0 ≤ (outstanding.length : Int) * cap := Int.mul_nonneg (by omega) (by omega)
  have hsafe : SafeSend mb msg.size := by
    constructor
    · intro _
      have hbounds := h.holds.keeps.bounds
      unfold queueSize sizeofQueue at hroom
      unfold queueSize at hbounds
      unfold intMax
      omega
    · intro p hp hover
      obtain ⟨taken, htaken, hstop⟩ := SlotHolds.stop_eq h.holds.slot hp
      have htaken' := h.pending_le taken htaken
      have hclear := not_reaches_of_room (k := taken.size) hlay h.late hmsg (by omega)
      apply hclear
      have hp' : mb.Q.q.cursor.head - taken.size = p := by
        simp only [Queue.cursor]
        omega
      rw [hp', ← overwrites_iff]
      exact hover
  rcases h.holds.send_cases base msg hsafe with ⟨hnone, -⟩ | ⟨a, mb', hsend, hplace, -, hholds⟩
  · obtain ⟨a, c', hplace⟩ := place_of_room hlay h.late hmsg (by omega)
    rw [hnone] at hplace
    cases hplace
  · refine ⟨mb', hsend, hholds, place_turnedLate h.late hmsg hplace, h.pending_le, ?_⟩
    intro x hx
    rcases List.mem_append.mp hx with hx | hx
    · exact h.outstanding_le x hx
    · obtain rfl := List.mem_singleton.mp hx
      exact hmsg

theorem Holds.getMsgTag (h : mb.Holds P pending outstanding) :
    mb.getMsgTag = tagOf (outstanding.head?.map Subtype.val) := by
  cases outstanding with
  | nil => rw [Mailbox.getMsgTag, peek_nil h.keeps]; rfl
  | cons msg rest =>
    obtain ⟨ss, hlay, -⟩ := h.keeps.ring
    have hstored := h.keeps.ring.take.1
    rw [← readPosition_eq hlay] at hstored
    rw [Mailbox.getMsgTag, peek_cons h.keeps]
    exact hstored.header.1

/-- The receiver lets go of what it holds. -/
theorem Holds.release (h : mb.Holds P pending outstanding) :
    Holds P { mb with slot := none } none outstanding :=
  ⟨.none, h.keeps⟩

theorem Calm.take {msg : ValidMsg} (h : mb.Calm P cap pending (msg :: outstanding)) :
    (mb.take P).Calm P cap (some msg) outstanding where
  holds := h.holds.take_cons.1
  late := by
    rw [h.holds.take_cons.2.2.1]
    exact advance_turnedLate h.late
  pending_le := by
    rintro x ⟨⟩
    exact h.outstanding_le msg (List.mem_cons_self ..)
  outstanding_le x hx := h.outstanding_le x (List.mem_cons_of_mem _ hx)

/-- The receiver lets go of what it holds. -/
theorem Calm.release (h : mb.Calm P cap pending outstanding) :
    Calm P cap { mb with slot := none } none outstanding where
  holds := h.holds.release
  late := h.late
  pending_le := by simp
  outstanding_le := h.outstanding_le

end Mailbox

/-! ## Mailboxes behave like logs -/

/-- The log has room for the message: it and what is outstanding are no larger than `cap`, and
    the queue has space for three more records of that size. -/
structure Roomy (cap : Int) (q : Log AnyMsg) (msg : AnyMsg) : Prop where
  wellFormed : msg.WellFormed
  size_le : msg.msgSize.toInt ≤ cap
  space : ((q.accepted.length - q.taken : Nat) + 3 : Int) * cap ≤ queueSize - sizeofQueue

/-- The mailbox stands for the log. -/
structure Mailbox.TracksLog (P : Process) (cap : Int) (mb : Mailbox) (q : Log AnyMsg) : Prop where
  taken_le : q.taken ≤ q.accepted.length
  calm : ∃ pending outstanding, mb.Calm P cap pending outstanding ∧
    pending.map Subtype.val = q.inHand ∧ outstanding.map Subtype.val = q.accepted.drop q.taken

/-- A queue whose messages have all been taken is empty. -/
theorem Mailbox.TracksLog.isEmpty {P : Process} {cap : Int} {mb : Mailbox} {q : Log AnyMsg}
    (h : mb.TracksLog P cap q) (hall : q.accepted.length ≤ q.taken) :
    TaskSystem.isEmpty mb.Q = 1 := by
  obtain ⟨pending, outstanding, hcalm, -, hout⟩ := h.calm
  rw [List.drop_of_length_le hall] at hout
  rw [isEmpty_eq hcalm.holds.keeps, if_pos (List.map_eq_nil_iff.mp hout)]

/-- A queue that holds a message is not. -/
theorem Mailbox.TracksLog.not_isEmpty {P : Process} {cap : Int} {mb : Mailbox} {q : Log AnyMsg}
    (h : mb.TracksLog P cap q) (hmore : q.taken < q.accepted.length) :
    TaskSystem.isEmpty mb.Q = 0 := by
  obtain ⟨pending, outstanding, hcalm, -, hout⟩ := h.calm
  have hne : outstanding ≠ [] := by
    rintro rfl
    have hlen := congrArg List.length hout
    rw [List.map_nil, List.length_nil, List.length_drop] at hlen
    omega
  rw [isEmpty_eq hcalm.holds.keeps, if_neg hne]

/-- The next message of the log is the first one outstanding. -/
theorem next?_eq_some {q : Log AnyMsg} {outstanding : List ValidMsg} {msg : AnyMsg}
    (heq : outstanding.map Subtype.val = q.accepted.drop q.taken) (h : q.next? = some msg) :
    ∃ first rest, outstanding = first :: rest ∧ first.1 = msg ∧
      rest.map Subtype.val = q.accepted.drop (q.taken + 1) ∧ q.taken < q.accepted.length := by
  obtain ⟨hlt, hget⟩ := List.getElem?_eq_some_iff.mp h
  rw [List.drop_eq_getElem_cons hlt] at heq
  cases outstanding with
  | nil => cases heq
  | cons first rest =>
    obtain ⟨hfirst, hrest⟩ := List.cons.inj heq
    exact ⟨first, rest, rfl, hfirst.trans hget, hrest, hlt⟩

/-- **Mailboxes behave like logs** where messages are sent only with room, for any limit on the
    sizes of the records of each queue. -/
def mailboxes_carry (map : Mapping) (cap : Nat → Int) :
    Carries (mailboxes map) tagOf fun t q msg => Roomy (cap t) q msg where
  Tracks t mb q := mb.TracksLog (map.process t) (cap t) q
  create t := ⟨Nat.le_refl 0, none, [], Mailbox.calm_create _, rfl, rfl⟩
  send := by
    rintro u t mb q msg ⟨htaken, pending, outstanding, hcalm, hhand, hout⟩ hroom
    have hlen : outstanding.length = q.accepted.length - q.taken := by
      rw [← List.length_drop, ← hout, List.length_map]
    have hspace := hroom.space
    rw [← hlen] at hspace
    obtain ⟨mb', hsend, hcalm'⟩ :=
      hcalm.send (map.base u t) ⟨msg, hroom.wellFormed⟩ hroom.size_le hspace
    simp only [mailboxes, hsend, decide_true, true_and]
    refine ⟨by simp; omega, pending, _, hcalm', hhand, ?_⟩
    rw [List.map_append, hout, List.drop_append_of_le_length htaken]
    rfl
  peek := by
    rintro t mb q ⟨-, pending, outstanding, hcalm, -, hout⟩
    show mb.getMsgTag = _
    rw [hcalm.holds.getMsgTag, ← List.head?_map, hout, List.head?_drop]
    rfl
  take := by
    rintro t mb q msg ⟨-, pending, outstanding, hcalm, -, hout⟩ hnext
    obtain ⟨first, rest, rfl, hfirst, hrest, hlt⟩ := next?_eq_some hout hnext
    exact ⟨hlt, some first, rest, hcalm.take, by simp [hfirst], hrest⟩
  drop := by
    rintro t mb q msg ⟨-, pending, outstanding, hcalm, -, hout⟩ hnext
    obtain ⟨first, rest, rfl, -, hrest, hlt⟩ := next?_eq_some hout hnext
    exact ⟨hlt, none, rest, hcalm.take.release, rfl, hrest⟩
  finish := by
    rintro t mb q msg ⟨htaken, pending, outstanding, hcalm, hhand, hout⟩ hinHand
    rw [hinHand] at hhand
    obtain ⟨held, rfl, hheld⟩ := Option.map_eq_some_iff.mp hhand
    refine ⟨?_, htaken, none, outstanding, hcalm.release, rfl, hout⟩
    show (mb.finish (map.process t)).2 = some msg
    rw [hcalm.holds.finish_some.1, hheld]

end TaskSystem
