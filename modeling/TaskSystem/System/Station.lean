import TaskSystem.System.TaskReceive

/-!
# One Task and Its Queue

A task that runs its program, and any other processes that send to its queue, in any order.
Messages of all types and tags may come in; what the other tasks do is left open.

## Contents

- `Station`: the task, its mailbox, and the history of the mailbox
- `StationEvent`, `Station.step`, `station`: the task's own moves, and messages that come in
- `SafeArrival`: no sender writes into the slot that is being cloned
- `Station.Tracks`: the mailbox keeps what has come in and has not been removed
- one lemma for each operation: `Tracks.deliver`, `getMsgTag`, `take`, `drop`, `finish`
-/

namespace TaskSystem

open Library

/-- A task and its queue. -/
structure Station (L : Type*) where
  /-- The task's local state -/
  loc : L
  mb : Mailbox
  /-- Messages the queue has accepted, oldest first -/
  accepted : List AnyMsg
  /-- How many of them the task has removed -/
  taken : Nat

/-- What happens at a task. -/
inductive StationEvent where
  /-- The task makes its next move; `sent` is what a `send` to another task returns. -/
  | own (sent : Bool)
  /-- Another process, that maps the queue at `base`, sends `msg`. -/
  | arrive (base : UInt64) (msg : ValidMsg)

namespace Station

variable {L : Type*}

def goto (s : Station L) (l : L) : Station L := { s with loc := l }

/-- The message at the head of the queue. -/
def next? (s : Station L) : Option AnyMsg := s.accepted[s.taken]?

/-- `Enqueue` of a message to the queue of the task, and what it returns. -/
def deliver (s : Station L) (base : UInt64) (msg : AnyMsg) : Station L × Bool :=
  let sent := s.mb.send base msg
  ({ s with
      mb := sent.1
      -- `send` returns 1 when the message is in the queue
      accepted := if sent.2 = 1 then s.accepted ++ [msg] else s.accepted }, sent.2 = 1)

/-- `Dequeue` removes a message unless the queue is empty. -/
def removed (s : Station L) : Nat :=
  if isEmpty s.mb.Q = 1 then s.taken else s.taken + 1

/-- The task, with process `P` and task id `self`, makes a move; `none` when it cannot. -/
def perform (P : Process) (self : Nat) (s : Station L) (sent : Bool) :
    Move AnyMsg Int32 L → Option (Station L)
  | .compute next => some (s.goto next)
  | .peek next => some (s.goto (next s.mb.getMsgTag))
  -- `Dequeue` fills `currentMsg` with the head; the record stays readable until `clone`
  | .take next => some { s with loc := next, mb := s.mb.take P, taken := s.removed }
  | .drop next => some { s with loc := next, mb := s.mb.drop P, taken := s.removed }
  | .finish next =>
    let read := s.mb.finish P
    read.2.map fun msg => { s with loc := next msg, mb := read.1 }
  | .send target msg next =>
    -- a send to itself goes through the task's own queue
    if target = self then
      let own := s.deliver P.base msg
      some (own.1.goto (next own.2))
    else some (s.goto (next sent))
  | .create _ _ | .stop | .fault => none

def step (P : Process) (self : Nat) (code : L → Move AnyMsg Int32 L) (s : Station L) :
    StationEvent → Option (Station L)
  | .own sent => s.perform P self sent (code s.loc)
  | .arrive base msg => some (s.deliver base msg.1).1

end Station

/-- A task that starts in local state `start`, with a new queue. -/
def station {L : Type*} (P : Process) (self : Nat) (code : L → Move AnyMsg Int32 L) (start : L) :
    System (Station L) StationEvent where
  init s := ∃ mem, s = ⟨start, .create mem, [], 0⟩
  step := Station.step P self code

/-- A sender keeps off the slot that the task is cloning, and within the range of `int`. -/
def SafeArrival {L : Type*} (s : Station L) : StationEvent → Prop
  | .own _ => True
  | .arrive _ msg => SafeSend s.mb msg.size

instance {L : Type*} (s : Station L) : ∀ e, Decidable (SafeArrival s e)
  | .own _ => .isTrue trivial
  | .arrive _ msg => inferInstanceAs (Decidable (SafeSend s.mb msg.size))

namespace Station

variable {L : Type*} {P : Process} {s : Station L} {pending : Option AnyMsg} {msg : AnyMsg}

/-- The task holds `pending`, and its queue keeps what has been accepted and not removed. -/
structure Tracks (P : Process) (s : Station L) (pending : Option AnyMsg) : Prop where
  taken_le : s.taken ≤ s.accepted.length
  holds : ∃ held outstanding, s.mb.Holds P held outstanding ∧
    held.map Subtype.val = pending ∧ outstanding.map Subtype.val = s.accepted.drop s.taken

theorem tracks_create (l : L) (mem : Mem) :
    Tracks P (⟨l, .create mem, [], 0⟩ : Station L) none :=
  ⟨Nat.le_refl _, none, [], Mailbox.holds_create mem, rfl, rfl⟩

/-- The local state does not matter. -/
theorem Tracks.goto (h : s.Tracks P pending) (l : L) : (s.goto l).Tracks P pending :=
  ⟨h.taken_le, h.holds⟩

/-- **`Enqueue`** adds the message at the end of the queue or does nothing. -/
theorem Tracks.deliver (h : s.Tracks P pending) (base : UInt64) (msg : ValidMsg)
    (hsafe : SafeSend s.mb msg.size) :
    (s.deliver base msg.1).1.Tracks P pending ∧
      ∃ more, (s.deliver base msg.1).1.accepted = s.accepted ++ more := by
  obtain ⟨hle, held, outstanding, hholds, hheld, hout⟩ := h
  rcases hholds.send_cases base msg hsafe with ⟨-, hsend⟩ | ⟨a, mb', hsend, -, -, hholds'⟩
  · -- the queue has refused it, and nothing has changed
    have hsame : (s.deliver base msg.1).1 = s := by
      simp [Station.deliver, hsend]
    rw [hsame]
    exact ⟨⟨hle, held, outstanding, hholds, hheld, hout⟩, [], (List.append_nil _).symm⟩
  · -- it stands behind the messages that are already there
    have hadded : (s.deliver base msg.1).1 =
        { s with mb := mb', accepted := s.accepted ++ [msg.1] } := by
      simp [Station.deliver, hsend]
    rw [hadded]
    refine ⟨⟨?_, held, _, hholds', hheld, ?_⟩, [msg.1], rfl⟩
    · show s.taken ≤ (s.accepted ++ [msg.1]).length
      rw [List.length_append]
      omega
    · -- what is behind the removed ones grows at its end only
      rw [List.map_append, hout, List.drop_append_of_le_length hle]
      rfl

/-- **`getMsgTag`** tells the tag of the next message, or -1. -/
theorem Tracks.getMsgTag (h : s.Tracks P pending) : s.mb.getMsgTag = tagOf s.next? := by
  obtain ⟨-, held, outstanding, hholds, -, hout⟩ := h
  rw [hholds.getMsgTag, ← List.head?_map, hout, List.head?_drop, next?]

/-- Where there is a message, `Dequeue` finds it. -/
theorem Tracks.front (h : s.Tracks P pending) (hnext : s.next? = some msg) :
    s.removed = s.taken + 1 ∧ s.taken + 1 ≤ s.accepted.length ∧
      ∃ held first rest, s.mb.Holds P held (first :: rest) ∧ first.1 = msg ∧
        rest.map Subtype.val = s.accepted.drop (s.taken + 1) := by
  obtain ⟨-, held, outstanding, hholds, -, hout⟩ := h
  obtain ⟨hlt, hget⟩ := List.getElem?_eq_some_iff.mp hnext
  rw [List.drop_eq_getElem_cons hlt, hget] at hout
  -- the messages outstanding are those not removed, so the first of them is `msg`
  cases outstanding with
  | nil => cases hout
  | cons first rest =>
    obtain ⟨hfirst, hrest⟩ := List.cons.inj hout
    have hfull : isEmpty s.mb.Q ≠ 1 := by
      rw [isEmpty_eq hholds.keeps, if_neg (List.cons_ne_nil first rest)]
      decide
    exact ⟨if_neg hfull, hlt, held, first, rest, hholds, hfirst, hrest⟩

/-- **`Dequeue`** puts the next message into the task's hands. -/
theorem Tracks.take (h : s.Tracks P pending) (hnext : s.next? = some msg) (l : L) :
    Tracks P { s with loc := l, mb := s.mb.take P, taken := s.removed } (some msg) := by
  obtain ⟨hremoved, hle, held, first, rest, hholds, rfl, hrest⟩ := h.front hnext
  rw [hremoved]
  exact ⟨hle, some first, rest, hholds.take_cons.1, rfl, hrest⟩

/-- **`dropMsg`** removes the next message. -/
theorem Tracks.drop (h : s.Tracks P pending) (hnext : s.next? = some msg) (l : L) :
    Tracks P { s with loc := l, mb := s.mb.drop P, taken := s.removed } none := by
  obtain ⟨hremoved, hle, held, first, rest, hholds, -, hrest⟩ := h.front hnext
  rw [hremoved]
  exact ⟨hle, none, rest, hholds.take_cons.1.release, rfl, hrest⟩

/-- **`clone`** returns the message in the task's hands. -/
theorem Tracks.finish (h : s.Tracks P (some msg)) (l : L) :
    (s.mb.finish P).2 = some msg ∧
      Tracks P { s with loc := l, mb := (s.mb.finish P).1 } none := by
  obtain ⟨hle, held, outstanding, hholds, hheld, hout⟩ := h
  obtain ⟨first, rfl, rfl⟩ := Option.map_eq_some_iff.mp hheld
  obtain ⟨hread, hholds'⟩ := hholds.finish_some
  exact ⟨hread, hle, none, outstanding, hholds', rfl, hout⟩

/-- A task that clones nothing can be sent any message of reasonable size. -/
theorem Tracks.safeSend (h : s.Tracks P none) {n : Int} (hn : n ≤ intMax - queueSize) :
    SafeSend s.mb n := by
  obtain ⟨-, held, outstanding, hholds, hheld, -⟩ := h
  rw [Option.map_eq_none_iff] at hheld
  subst hheld
  constructor
  · intro _
    have hbounds := hholds.keeps.bounds
    omega
  · intro p hp
    have hslot := hholds.slot
    rw [hp] at hslot
    cases hslot

end Station

end TaskSystem
