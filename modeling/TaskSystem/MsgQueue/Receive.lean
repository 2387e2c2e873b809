import TaskSystem.Library.Transition
import TaskSystem.MsgQueue.Mailbox

/-!
# What a Receiver Gets

Any number of senders and one receiver on one queue, under every interleaving of the
critical sections of `Enqueue` and `Dequeue` and the `clone` that follows a `Dequeue`.

## Contents

- `Exchange`, `exchange`: the state, with the history of both sides, and the system
- `Exchange.Faithful`: each receive returned the message its `Dequeue` found, in order
- `receive_faithful`: it holds while no sender writes into a dequeued slot
- `receive_overwritten`: a run in which a sender does
-/

namespace TaskSystem

open Library Library.Rollover

/-- One queue and the history of its users. -/
structure Exchange where
  mailbox : Mailbox
  /-- Messages whose `Enqueue` returned 1, oldest first -/
  accepted : List AnyMsg
  /-- What `clone` would have returned inside the critical section of each `Dequeue` -/
  heads : List (Option AnyMsg)
  /-- What each `receive` returned -/
  received : List (Option AnyMsg)

/-- The steps that interleave. -/
inductive ExchangeStep where
  /-- A sender that maps the segment at `base` runs `Enqueue` -/
  | send (base : UInt64) (msg : ValidMsg)
  /-- The receiver runs `Dequeue` -/
  | dequeue
  /-- The receiver clones the slot `Dequeue` returned -/
  | clone

/-- One step. The receiver alternates `Dequeue` and `clone`; a `Dequeue` that returns NULL
    returns nothing from `receive`. -/
def Exchange.step (P : Process) (s : Exchange) : ExchangeStep → Option Exchange
  | .send base msg =>
    let sent := s.mailbox.send base msg.1
    some { s with
      mailbox := sent.1
      accepted := if sent.2 = 1 then s.accepted ++ [msg.1] else s.accepted }
  | .dequeue =>
    match s.mailbox.slot with
    | some _ => none
    | none =>
      let mb := s.mailbox.take P
      match mb.slot with
      | some p => some { s with mailbox := mb, heads := s.heads ++ [cloneAt P mb.Q.mem p] }
      | none => some { s with mailbox := mb }
  | .clone =>
    match s.mailbox.slot with
    | some _ =>
      let (mb, msg) := s.mailbox.finish P
      some { s with mailbox := mb, received := s.received ++ [msg] }
    | none => none

/-! What a step does once it is known what the queue answers. -/

section Step

variable {P : Process} {s : Exchange}

theorem Exchange.step_send {base : UInt64} {msg : ValidMsg} {mb : Mailbox}
    (h : s.mailbox.send base msg.1 = (mb, 1)) :
    s.step P (.send base msg) =
      some { s with mailbox := mb, accepted := s.accepted ++ [msg.1] } := by
  simp [step, h]

theorem Exchange.step_dequeue {p : Int} (hslot : s.mailbox.slot = none)
    (h : (s.mailbox.take P).slot = some p) :
    s.step P .dequeue =
      some { s with
        mailbox := s.mailbox.take P
        heads := s.heads ++ [cloneAt P (s.mailbox.take P).Q.mem p] } := by
  simp [step, hslot, h]

theorem Exchange.step_clone {p : Int} (hslot : s.mailbox.slot = some p) :
    s.step P .clone =
      some { s with
        mailbox := (s.mailbox.finish P).1
        received := s.received ++ [(s.mailbox.finish P).2] } := by
  simp [step, hslot]

end Step

/-- The queue as `CreateQueue` leaves it, before anyone has used it. -/
def Exchange.start (mem : Mem) : Exchange := ⟨.create mem, [], [], []⟩

/-- Senders and receiver `P` on one queue. -/
def exchange (P : Process) : System Exchange ExchangeStep where
  init s := ∃ mem, s = .start mem
  step := Exchange.step P

/-- Every `receive` returned the message that stood at the head of the queue when its
    `Dequeue` ran, and these are the accepted messages, each once and in order. -/
structure Exchange.Faithful (s : Exchange) : Prop where
  returns_head : s.received = s.heads.take s.received.length
  one_pending : s.heads.length = s.received.length + s.mailbox.slot.toList.length
  in_order : s.heads = (s.accepted.take s.heads.length).map some
  none_lost : s.accepted.length = s.heads.length + s.mailbox.Q.q.size

/-! ## The invariant -/

/-- What was taken from the queue and what is still in it is what was accepted. -/
structure Exchange.Inv (P : Process) (s : Exchange) (pending : Option ValidMsg)
    (outstanding : List ValidMsg) : Prop where
  holds : s.mailbox.Holds P pending outstanding
  heads_eq : s.heads = s.received ++ pending.toList.map fun msg => some msg.1
  accepted_eq : s.accepted.map some = s.heads ++ outstanding.map fun msg => some msg.1

variable {P : Process} {s s' : Exchange} {pending : Option ValidMsg} {outstanding : List ValidMsg}

theorem Exchange.inv_start (mem : Mem) : (Exchange.start mem).Inv P none [] :=
  ⟨Mailbox.holds_create mem, rfl, rfl⟩

/-- The slot is held exactly while a message is pending. -/
theorem SlotHolds.length_eq {Q : Segment} {slot : Option Int} (h : SlotHolds P Q slot pending) :
    slot.toList.length = pending.toList.length := by
  cases h <;> rfl

/-- The invariant gives the property. -/
theorem Exchange.Inv.faithful (h : s.Inv P pending outstanding) : s.Faithful := by
  obtain ⟨⟨hslot, hkeeps⟩, hheads, haccepted⟩ := h
  have hlen := congrArg List.length haccepted
  simp only [List.length_map, List.length_append] at hlen
  refine ⟨?_, ?_, ?_, ?_⟩
  · rw [hheads, List.take_left]
  · rw [hheads, hslot.length_eq]
    simp
  · rw [List.map_take, haccepted, List.take_left]
  · rw [hlen, hkeeps.size_eq]

/-- A send that stays off the slot in the receiver's hands keeps the invariant. -/
theorem Exchange.Inv.send (h : s.Inv P pending outstanding) (base : UInt64) (msg : ValidMsg)
    (hsafe : SafeSend s.mailbox msg.size) (hs : s.step P (.send base msg) = some s') :
    ∃ outstanding', s'.Inv P pending outstanding' := by
  simp only [Exchange.step, Option.some.injEq] at hs
  subst hs
  rcases h.holds.send_cases base msg hsafe with ⟨-, hsent⟩ | ⟨a, mb', hsent, -, -, hholds⟩
  · exact ⟨outstanding, by simpa [hsent] using h.holds, h.heads_eq,
      by simpa [hsent] using h.accepted_eq⟩
  · refine ⟨outstanding ++ [msg], by simpa [hsent] using hholds, h.heads_eq, ?_⟩
    simp [hsent, h.accepted_eq]

/-- `Dequeue` moves the oldest message into the receiver's hands. -/
theorem Exchange.Inv.dequeue (h : s.Inv P pending outstanding)
    (hs : s.step P .dequeue = some s') :
    ∃ pending' outstanding', s'.Inv P pending' outstanding' := by
  obtain ⟨⟨hslot, hkeeps⟩, hheads, haccepted⟩ := h
  unfold Exchange.step at hs
  cases hpend : s.mailbox.slot with
  | some p => simp [hpend] at hs
  | none =>
    rw [hpend] at hslot
    cases hslot
    have hholds : s.mailbox.Holds P none outstanding := ⟨by rw [hpend]; exact .none, hkeeps⟩
    cases outstanding with
    | nil =>
      obtain rfl : s = s' := by simpa [hpend, hholds.take_nil] using hs
      exact ⟨none, [], hholds, hheads, haccepted⟩
    | cons msg outstanding =>
      obtain ⟨hholds', hslot', -⟩ := hholds.take_cons
      have hclone : cloneAt P (s.mailbox.take P).Q.mem (readPosition s.mailbox.Q.q) =
          some msg.1 := by
        simpa [Mailbox.finish, hslot'] using hholds'.finish_some.1
      obtain rfl : _ = s' := by simpa only [hpend, hslot', Option.some.injEq] using hs
      refine ⟨some msg, outstanding, hholds', ?_, ?_⟩
      · simp [hclone, hheads]
      · simp [hclone, haccepted]

/-- `clone` returns the message in the receiver's hands. -/
theorem Exchange.Inv.clone (h : s.Inv P pending outstanding)
    (hs : s.step P .clone = some s') : s'.Inv P none outstanding := by
  obtain ⟨hholds, hheads, haccepted⟩ := h
  unfold Exchange.step at hs
  cases hpend : s.mailbox.slot with
  | none => simp [hpend] at hs
  | some p =>
    cases pending with
    | none =>
      have hslot := hholds.slot
      rw [hpend] at hslot
      cases hslot
    | some msg =>
      obtain ⟨hclone, hholds'⟩ := hholds.finish_some
      obtain rfl : _ = s' := by simpa only [hpend, Option.some.injEq] using hs
      exact ⟨hholds', by simp [hclone, hheads], haccepted⟩

/-! ## Runs -/

/-- No sender overflows the tail or writes into the slot in the receiver's hands. -/
def SafeStep (s : Exchange) : ExchangeStep → Prop
  | .send _ msg => SafeSend s.mailbox msg.size
  | _ => True

/-- **Receive returns what was sent**, in every run all of whose sends are safe. -/
theorem receive_faithful (h : (exchange P).ReachableWhen SafeStep s) : s.Faithful := by
  have hinv : ∃ pending outstanding, s.Inv P pending outstanding := by
    refine h.invariant (P := fun s => ∃ pending outstanding, s.Inv P pending outstanding) ?_ ?_
    · rintro _ ⟨mem, rfl⟩
      exact ⟨none, [], Exchange.inv_start mem⟩
    · rintro s e s' ⟨pending, outstanding, hinv⟩ hsafe hs
      cases e with
      | send base msg => exact ⟨pending, hinv.send base msg hsafe hs⟩
      | dequeue => exact hinv.dequeue hs
      | clone => exact ⟨none, outstanding, hinv.clone hs⟩
  obtain ⟨pending, outstanding, hinv⟩ := hinv
  exact hinv.faithful

instance (s : Exchange) : ∀ e, Decidable (SafeStep s e)
  | .send _ msg => inferInstanceAs (Decidable (SafeSend s.mailbox msg.size))
  | .dequeue | .clone => .isTrue trivial

/-- Two bar messages, sent and received by processes that map the queue differently; the second
    is sent between the `Dequeue` and the `clone` of the first. -/
theorem receive_faithful_bar :
    let first : ValidMsg := ⟨.bar ⟨5, barMsgId, 72, 9⟩, rfl, trivial, by decide⟩
    let second : ValidMsg := ⟨.bar ⟨6, barMsgId, 72, 10⟩, rfl, trivial, by decide⟩
    ∃ s, (exchange ⟨8192, .packed⟩).runFrom (.start fun _ => 0)
        [.send 4096 first, .dequeue, .send 12288 second, .clone, .dequeue, .clone] = some s ∧
      s.received = [some first.1, some second.1] ∧ s.Faithful := by
  intro first second
  have hreceives : ((exchange ⟨8192, .packed⟩).runFrom (.start fun _ => 0)
      [.send 4096 first, .dequeue, .send 12288 second, .clone, .dequeue, .clone]).map
        Exchange.received = some [some first.1, some second.1] := by
    decide +kernel
  obtain ⟨s, hrun, hreceived⟩ := Option.map_eq_some_iff.mp hreceives
  have hsafe : (exchange ⟨8192, .packed⟩).Along SafeStep (.start fun _ => 0)
      [.send 4096 first, .dequeue, .send 12288 second, .clone, .dequeue, .clone] := by
    decide +kernel
  exact ⟨s, hrun, hreceived, receive_faithful (hsafe.reachableWhen (.init ⟨_, rfl⟩) hrun)⟩

/-! ## A slot overwritten in the window -/

/-- `writeAt` leaves the `clone` pointer of the record it overwrites. -/
theorem writeAt_clone_disjoint (msg : AnyMsg) (addr q : UInt64) :
    ∀ s ∈ msg.writeAt addr, (Store.ptr 24 q).Disjoint s := by
  cases msg <;>
    simp [AnyMsg.writeAt, headerStores, BarMsg.writeAt, TextMsg.writeAt, RefIntArrayMsg.writeAt,
      TopologyMsg.writeAt, IntArrayMsg.writeAt, DoneMsg.writeAt, RefTwoDimIntArrayMsg.writeAt,
      RequestMsg.writeAt, ResponseMsg.writeAt, Store.Disjoint, TopologyMsg.sizeof,
      IntArrayMsg.sizeof, RequestMsg.sizeof, ResponseMsg.sizeof]

/-- A message written over a bound one of its type, through the same mapping, is bound. -/
theorem BoundAt.overwrite {m : Mem} {p : Int} {msg msg' : AnyMsg} (h : BoundAt P m p msg)
    (htype : msg'.type = msg.type) :
    BoundAt P (m.applyStores p (msg'.writeAt (address P.base p))) p msg' where
  stores _ hs := Mem.holds_applyStores m (msg'.writeAt_disjoint _) hs
  clone := by
    rw [htype]
    exact h.clone.applyStores (writeAt_clone_disjoint msg' _ _)

/-- **A slot is overwritten** when a message that fills the segment is dequeued and, before
    it is cloned, one of the same type is sent that fits only in its place. -/
theorem receive_overwrites {A B : ValidMsg} (hA : sizeofQueue + A.size ≤ queueSize)
    (hB : queueSize < sizeofQueue + A.size + B.size) (hle : B.size ≤ A.size)
    (htype : B.1.type = A.1.type) (hne : B.1 ≠ A.1) (mem : Mem) :
    ∃ s, (exchange P).runFrom (.start mem)
        [.send P.base A, .dequeue, .send P.base B, .clone] = some s ∧
      s.heads = [some A.1] ∧ s.received = [some B.1] ∧ ¬s.Faithful := by
  simp only [sizeofQueue, queueSize] at hA hB
  have hposA := A.size_pos
  have hposB := B.size_pos
  -- the first send fills the segment from its start
  have hplace₁ : place sizeofQueue queueSize (Mailbox.create mem).Q.q.cursor A.size =
      some (56, ⟨56, 56 + A.size, none⟩) := by
    simp [place, Mailbox.create, createQueue, Queue.cursor, sizeofQueue, queueSize, hA]
  have hsafe₁ : SafeSend (Mailbox.create mem) A.size := by
    refine ⟨fun _ => ?_, by simp [Mailbox.create]⟩
    simp only [Mailbox.create, createQueue, sizeofQueue, intMax]
    omega
  rcases (Mailbox.holds_create (P := P) mem).send_cases P.base A hsafe₁ with
    ⟨hnone, -⟩ | ⟨a, mb₁, hsend₁, hplace, hslot₁, h₁⟩
  · rw [hplace₁] at hnone
    cases hnone
  obtain ⟨rfl, hcursor₁⟩ : a = 56 ∧ mb₁.Q.q.cursor = ⟨56, 56 + A.size, none⟩ := by
    rw [hplace₁] at hplace
    simpa [eq_comm] using hplace
  -- `Dequeue` frees those bytes and returns a pointer to them
  obtain ⟨h₂, hslot₂, hcursor₂, -⟩ := h₁.take_cons
  have hpos : readPosition mb₁.Q.q = 56 := by
    obtain ⟨ss, hlay, -⟩ := h₁.keeps.ring
    rw [readPosition_eq hlay, hcursor₁]
    rfl
  rw [hpos] at hslot₂
  have hclone₂ : cloneAt P (mb₁.take P).Q.mem 56 = some A.1 := by
    simpa [Mailbox.finish, hslot₂] using h₂.finish_some.1
  have hbound : BoundAt P (mb₁.take P).Q.mem 56 A.1 := by
    have hslot := h₂.slot
    rw [hslot₂] at hslot
    cases hslot with
    | some _ _ bound => exact bound
  rw [hcursor₁] at hcursor₂
  -- the second send goes back to the start
  have hplace₃ : place sizeofQueue queueSize (mb₁.take P).Q.q.cursor B.size =
      some (56, ⟨56 + A.size, 56 + B.size, some (56 + A.size)⟩) := by
    have hnofit : ¬(56 + A.size + B.size ≤ 1000000) := by omega
    simp [hcursor₂, advance, readPos, place, sizeofQueue, queueSize, hnofit, hle]
  have hmax₃ : (mb₁.take P).Q.q.rolloverPosition = -1 →
      (mb₁.take P).Q.q.tail + B.size ≤ intMax := by
    have := h₂.keeps.bounds.2.2.2
    unfold queueSize at this
    unfold intMax
    omega
  rcases enqueue_cases h₂.keeps P.base B.1.toMessage hposB hmax₃
      (fun a m y hy => writeAt_frame B.2 m _ hy) with
    ⟨hnone, -⟩ | ⟨a, Q₃, henq₃, hmem₃, hplace, -, -, -⟩
  · rw [show B.1.toMessage.msgSize.toInt = B.size from rfl, hplace₃] at hnone
    cases hnone
  obtain rfl : 56 = a := by
    rw [show B.1.toMessage.msgSize.toInt = B.size from rfl, hplace₃] at hplace
    exact congrArg Prod.fst (Option.some.inj hplace)
  -- and what `clone` finds there is the second message
  have hclone₃ : cloneAt P Q₃.mem 56 = some B.1 := by
    refine cloneAt_of_boundAt B.2 ⟨by decide, ?_⟩ ?_
    · have hsize : B.1.msgSize.toInt = B.size := rfl
      omega
    · rw [hmem₃]
      exact hbound.overwrite htype
  have hsend₃ : (mb₁.take P).send P.base B.1 = (⟨Q₃, some 56⟩, 1) := by
    simp [Mailbox.send, henq₃, hslot₂]
  have hstep₁ := Exchange.step_send (P := P) (s := .start mem) hsend₁
  have hstep₂ := Exchange.step_dequeue (P := P) (s := ⟨mb₁, [A.1], [], []⟩) hslot₁ hslot₂
  have hstep₃ := Exchange.step_send (P := P) (s := ⟨mb₁.take P, [A.1], [some A.1], []⟩) hsend₃
  have hstep₄ := Exchange.step_clone (P := P) (p := 56)
    (s := ⟨⟨Q₃, some 56⟩, [A.1, B.1], [some A.1], []⟩) rfl
  rw [hclone₂] at hstep₂
  refine ⟨⟨⟨Q₃, none⟩, [A.1, B.1], [some A.1], [some B.1]⟩, ?_, rfl, rfl, ?_⟩
  · simp only [System.runFrom, exchange]
    rw [hstep₁, Option.bind_some, Exchange.start, List.nil_append, hstep₂, Option.bind_some,
      List.nil_append, hstep₃, Option.bind_some, List.singleton_append, hstep₄]
    simp [Mailbox.finish, hclone₃]
  · intro hfaithful
    have hreturns := hfaithful.returns_head
    simp [hne] at hreturns

/-- The request `DatabaseTask` clients send, with `n` zero bytes of data. -/
def zeroData (n : Nat) : AnyMsg :=
  .request ((RequestMsg.create 0).setData (List.replicate n 0))

theorem zeroData_built {n : Nat} (h : n ≤ 900000) : (zeroData n).Built := by
  refine RequestMsg.Built.setData (.create 0) _ ?_
  have hsize : (RequestMsg.create 0).msgSize.toInt = 88 := by decide
  rw [hsize, List.length_replicate]
  unfold intMax
  omega

/-- A built request with `n` zero bytes of data. -/
def zeroRequest (n : Nat) (h : n ≤ 900000) : ValidMsg := ⟨zeroData n, (zeroData_built h).wellFormed⟩

theorem zeroRequest_built (n : Nat) (h : n ≤ 900000) : (zeroRequest n h).1.Built :=
  zeroData_built h

theorem type_zeroRequest (n : Nat) (h : n ≤ 900000) : (zeroRequest n h).1.type = .request := rfl

theorem size_zeroRequest (n : Nat) (h : n ≤ 900000) : (zeroRequest n h).size = 88 + n := by
  have hsize : (RequestMsg.create 0).msgSize.toInt = 88 := by decide
  simp only [ValidMsg.size, zeroRequest, zeroData, AnyMsg.msgSize, RequestMsg.setData, hsize,
    List.length_replicate]
  exact toInt_ofInt_of_fits (by omega) (by unfold intMax; omega)

/-- A request of 600000 bytes is sent and dequeued; before it is cloned, one of 500000 bytes
    is sent; `receive` returns the second request. -/
theorem receive_overwritten :
    ∃ A B : ValidMsg, A.1.Built ∧ B.1.Built ∧ A.size = 600000 ∧ B.size = 500000 ∧
      ∃ s, (exchange ⟨4096, .packed⟩).runFrom (.start fun _ => 0)
          [.send 4096 A, .dequeue, .send 4096 B, .clone] = some s ∧
        s.heads = [some A.1] ∧ s.received = [some B.1] ∧ ¬s.Faithful := by
  have hA : (zeroRequest 599912 (by decide)).size = 600000 := by
    have := size_zeroRequest 599912 (by decide)
    omega
  have hB : (zeroRequest 499912 (by decide)).size = 500000 := by
    have := size_zeroRequest 499912 (by decide)
    omega
  have hne : (zeroRequest 499912 (by decide)).1 ≠ (zeroRequest 599912 (by decide)).1 := by
    intro heq
    have hsize := congrArg (fun msg : AnyMsg => msg.msgSize.toInt) heq
    simp only [ValidMsg.size] at hA hB
    omega
  exact ⟨zeroRequest 599912 (by decide), zeroRequest 499912 (by decide), zeroRequest_built _ _,
    zeroRequest_built _ _, hA, hB,
    receive_overwrites (P := ⟨4096, .packed⟩) (by rw [hA]; decide) (by rw [hA, hB]; decide)
      (by omega) ((type_zeroRequest _ _).trans (type_zeroRequest _ _).symm) hne _⟩

end TaskSystem
