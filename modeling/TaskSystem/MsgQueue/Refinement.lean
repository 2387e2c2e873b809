import TaskSystem.Library.Fifo
import TaskSystem.MsgQueue.CircularMsgQ

/-!
# The Circular Queue Refines a FIFO Queue

Any sequence of calls on one queue, by any processes and with records of any sizes, is a
sequence of FIFO operations on the records as their bytes lie in the segment.

## Contents

- `Record`: what is observed of a record; its bytes but for those the rebinder sets
- `Call`, `call`, `run`: a sequence of calls and what the callers observe
- `Message.Fits`, `Message.Storable`, `Message.WellBehaved`: what the queue relies on in the messages it is given
- `FifoRun`: what refinement of a run means; `run_refines_fifo`
-/

namespace TaskSystem

open Library Library.Rollover

/-! ## Records and calls -/

/-- Offset `i` of a record is set by the rebinder of type `t`. -/
def MsgType.rebinds (t : MsgType) (i : Int) : Bool :=
  (t.rebind .packed 0).any fun s => s.off ≤ i ∧ i < s.stop

/-- A record in the segment. -/
structure Record where
  /-- Where it lies -/
  off : Int
  tag : Int32
  tid : Int32
  msgSize : Int32
  /-- Its `msg_size` bytes; those the rebinder sets are left out -/
  content : List (Option UInt8)
  deriving DecidableEq

/-- The `n` bytes at offset `a`, but for those that the rebinder registered for `tid` sets. -/
def contentAt (m : Mem) (a : Int) (tid n : Int32) : List (Option UInt8) :=
  (List.range n.toInt.toNat).map fun i : Nat =>
    if (rebinder tid).any fun t => t.rebinds i then none else some (m (a + i))

/-- The record that starts at offset `a`. -/
def recordAt (m : Mem) (a : Int) : Record where
  off := a
  tag := m.loadInt (a + 0)
  tid := m.loadInt (a + 4)
  msgSize := m.loadInt (a + 8)
  content := contentAt m a (m.loadInt (a + 4)) (m.loadInt (a + 8))

/-- A call on the queue by a task; `P` is how that task maps the segment. -/
inductive Call where
  | enqueue (P : Process) (item : Message)
  | dequeue (P : Process)
  | peek
  | isEmpty

/-- One call, and what it shows: the record an accepted message has become, the record a
    pointer leads to, or the answer. -/
def call (Q : Segment) : Call → Segment × Fifo.Event Record
  | .enqueue P item =>
    let (Q', accepted) := enqueue P.base Q item
    (Q',
      if accepted = 1 then
        let a := (Q'.q.tail : Int) - item.msgSize.toInt
        .accepted ⟨a, item.tag, item.tid, item.msgSize,
          contentAt Q'.mem a item.tid item.msgSize⟩
      else .refused)
  | .dequeue P =>
    match dequeue P Q with
    | (Q', some a) => (Q', .removed (recordAt Q'.mem a))
    | (Q', none) => (Q', .removedNothing)
  | .peek =>
    match peek Q with
    | some a => (Q, .peeked (recordAt Q.mem a))
    | none => (Q, .peekedNothing)
  | .isEmpty => (Q, .tested (isEmpty Q = 1))

/-- A sequence of calls, and what they show. -/
def run (Q : Segment) : List Call → Segment × List (Fifo.Event Record)
  | [] => (Q, [])
  | c :: cs =>
    let (Q₁, e) := call Q c
    let (Q₂, es) := run Q₁ cs
    (Q₂, e :: es)

/-! ## What the messages must do -/

/-- The message has a registered rebinder, a size the queue's arithmetic can handle, and
    writes inside that size only. -/
structure Message.Fits (item : Message) : Prop where
  sizeofMessage_le : sizeofMessage ≤ item.msgSize.toInt
  le_max : item.msgSize.toInt ≤ intMax - queueSize
  registered : ∃ t, rebinder item.tid = some t
  frame : ∀ base a m y, y < a ∨ a + item.msgSize.toInt ≤ y → item.writeAt base a m y = m y

/-- `writeAt` writes the three header fields. -/
def Message.WritesHeader (item : Message) : Prop :=
  ∀ base a m, (item.writeAt base a m).loadInt (a + 0) = item.tag ∧
    (item.writeAt base a m).loadInt (a + 4) = item.tid ∧
    (item.writeAt base a m).loadInt (a + 8) = item.msgSize

/-- The rebinder sets only bytes of the record. -/
def Message.CoversRebinder (item : Message) : Prop :=
  ∀ t, rebinder item.tid = some t → t.rebindEnd ≤ item.msgSize.toInt

/-- Every message the calls enqueue has the property. -/
def Call.Sends (ok : Message → Prop) : Call → Prop
  | .enqueue _ item => ok item
  | _ => True

/-- `future_tail` is computed without overflow where the code compares it as an `int`. -/
def SumFits (Q : Queue) (n : Int) : Prop := Q.rolloverPosition = -1 → Q.tail + n ≤ intMax

instance (Q : Queue) (n : Int) : Decidable (SumFits Q n) :=
  inferInstanceAs (Decidable (Q.rolloverPosition = -1 → Q.tail + n ≤ intMax))

/-- A message of any size that is stored as a record and found again. -/
structure Message.Storable (item : Message) : Prop where
  sizeofMessage_le : sizeofMessage ≤ item.msgSize.toInt
  registered : ∃ t, rebinder item.tid = some t
  frame : ∀ base a m y, y < a ∨ a + item.msgSize.toInt ≤ y → item.writeAt base a m y = m y
  header : item.WritesHeader
  covers : item.CoversRebinder

theorem Message.Storable.msgSize_pos {item : Message} (h : item.Storable) :
    0 < item.msgSize.toInt := by
  have hmin := h.sizeofMessage_le
  unfold sizeofMessage at hmin
  omega

/-- Where the call enqueues, the message is storable and the sum fits. -/
def Call.Admissible (Q : Segment) : Call → Prop
  | .enqueue _ item => item.Storable ∧ SumFits Q.q item.msgSize.toInt
  | _ => True

/-- The messages of the nine types are storable, whatever their size. -/
theorem AnyMsg.WellFormed.storable {msg : AnyMsg} (h : msg.WellFormed) :
    msg.toMessage.Storable := by
  have htid : rebinder msg.toMessage.tid = some msg.type := by
    rw [show msg.toMessage.tid = msg.tid from rfl, h.tid_eq, rebinder_id]
  refine ⟨h.sizeofMessage_le, ⟨_, htid⟩, ?_, ?_, ?_⟩
  · exact fun base a m y hy => writeAt_frame h m _ hy
  · exact fun base a m => (storedAt_writeAt m a msg _).header
  · intro t ht
    obtain rfl : msg.type = t := by simpa [htid] using ht
    have := h.covers
    have := msg.payloadBytes_nonneg
    have := msg.type.rebindEnd_le_sizeof
    exact show msg.type.rebindEnd ≤ msg.msgSize.toInt by omega

/-- Those of a size that leaves room for the tail meet all three conditions. -/
theorem AnyMsg.WellFormed.toMessage {msg : AnyMsg} (h : msg.WellFormed)
    (hmax : msg.msgSize.toInt ≤ intMax - queueSize) :
    msg.toMessage.Fits ∧ msg.toMessage.WritesHeader ∧ msg.toMessage.CoversRebinder :=
  ⟨⟨h.sizeofMessage_le, hmax, h.storable.registered, h.storable.frame⟩, h.storable.header,
    h.storable.covers⟩

/-! ## Records as a kind the queue keeps -/

/-- The rebinder touches the bytes it is said to set and no others. -/
theorem rebindAt_apply {P : Process} {t : MsgType} {a x : Int} (m : Mem)
    (hx : t.rebinds (x - a) = false) : rebindAt P t a m x = m x := by
  -- where a rebinder stores does not depend on the image and the address
  have hplaces : (t.rebind P.image (address P.base a)).map (fun s => (s.off, s.stop)) =
      (t.rebind .packed 0).map (fun s => (s.off, s.stop)) := by
    cases t <;>
      simp [MsgType.rebind, rebindHeader, BarMsg.rebind, TextMsg.rebind, RefIntArrayMsg.rebind,
        TopologyMsg.rebind, IntArrayMsg.rebind, DoneMsg.rebind, RefTwoDimIntArrayMsg.rebind,
        RequestMsg.rebind, ResponseMsg.rebind]
  refine Mem.applyStores_apply m fun s hs => ?_
  have hmem := List.mem_map_of_mem (f := fun s : Store => (s.off, s.stop)) hs
  rw [hplaces] at hmem
  obtain ⟨r, hr, heq⟩ := List.mem_map.mp hmem
  obtain ⟨hoff, hstop⟩ := Prod.mk.inj heq
  have hmiss := List.any_eq_false.mp hx r hr
  simp only [decide_eq_true_eq] at hmiss
  omega

/-- A record depends only on its own bytes. -/
theorem recordAt_congr {m m' : Mem} {a : Int}
    (hsize : 12 ≤ (m.loadInt (a + 8)).toInt)
    (h : ∀ y, a ≤ y → y < a + (m.loadInt (a + 8)).toInt → m' y = m y) :
    recordAt m' a = recordAt m a := by
  have hload : ∀ k : Int, 0 ≤ k → k ≤ 8 → m'.loadInt (a + k) = m.loadInt (a + k) :=
    fun k h₁ h₂ => Mem.loadInt_congr fun x hx₁ hx₂ => h x (by omega) (by omega)
  simp only [recordAt, hload 0 (by omega) (by omega), hload 4 (by omega) (by omega),
    hload 8 (by omega) (by omega), Record.mk.injEq, true_and]
  refine List.map_congr_left fun i hi => ?_
  rw [List.mem_range] at hi
  rw [h _ (by omega) (by omega)]

/-- Rebinding changes nothing that is observed of a record. -/
theorem recordAt_rebindAt {P : Process} {t : MsgType} {m : Mem} {a : Int}
    (ht : rebinder (m.loadInt (a + 4)) = some t) :
    recordAt (rebindAt P t a m) a = recordAt m a := by
  have hload : ∀ k : Int, 0 ≤ k → k ≤ 8 →
      (rebindAt P t a m).loadInt (a + k) = m.loadInt (a + k) :=
    fun k h₁ h₂ => Mem.loadInt_congr fun x hx₁ hx₂ => rebindAt_frame m (by omega)
  simp only [recordAt, hload 0 (by omega) (by omega), hload 4 (by omega) (by omega),
    hload 8 (by omega) (by omega), Record.mk.injEq, true_and]
  refine List.map_congr_left fun i _ => ?_
  -- bytes that the rebinder sets are left out of a record's content
  by_cases hi : t.rebinds i
  · simp [ht, hi]
  · have hmiss : t.rebinds (a + i - a) = false := by
      rw [Int.add_comm, Int.add_sub_cancel]
      simpa using hi
    simp [ht, hi, rebindAt_apply m hmiss]

/-- Records of any sizes and types, told apart by their bytes. -/
def recordKind : RecordKind Record where
  size x := x.msgSize.toInt
  Stored m a x := recordAt m a = x ∧ ∃ t, rebinder x.tid = some t ∧ t.rebindEnd ≤ x.msgSize.toInt
  stored_congr := by
    rintro m m' a x ⟨rfl, t, ht, hend⟩ hm
    have : 48 ≤ t.rebindEnd := by cases t <;> decide
    exact ⟨recordAt_congr (by simp only [recordAt] at hend; omega) hm, t, ht, hend⟩
  typeOf x := (rebinder x.tid).getD .bar
  msgSize_eq := by
    rintro m a x ⟨rfl, -⟩
    rfl
  rebinder_eq := by
    rintro m a x ⟨rfl, t, ht, -⟩
    have ht' : rebinder (m.loadInt (a + 4)) = some t := ht
    simp [recordAt, ht']
  rebindEnd_le := by
    rintro m a x ⟨rfl, t, ht, hend⟩
    simpa [ht] using hend

/-! ## Each call is a FIFO step -/

/-- What the queue relies on in a message. -/
def Message.WellBehaved (item : Message) : Prop :=
  item.Fits ∧ item.WritesHeader ∧ item.CoversRebinder

/-- A message that leaves room for the tail can be sent to every queue. -/
theorem Message.WellBehaved.admissible {Q : Segment} {xs : List Record}
    (h : Keeps recordKind Q xs) {item : Message} (hitem : item.WellBehaved) :
    item.Storable ∧ SumFits Q.q item.msgSize.toInt := by
  obtain ⟨hfits, hheader, hcovers⟩ := hitem
  refine ⟨⟨hfits.sizeofMessage_le, hfits.registered, hfits.frame, hheader, hcovers⟩, ?_⟩
  intro _
  have hbounds := h.bounds
  have hmax := hfits.le_max
  omega

/-- **Step**: every admissible call on a queue that keeps `xs` is a FIFO operation on `xs`. -/
theorem call_step_of_admissible {Q : Segment} {xs : List Record} (h : Keeps recordKind Q xs)
    (c : Call) (hc : c.Admissible Q) :
    ∃ ys, Fifo.Step xs (call Q c).2 ys ∧ Keeps recordKind (call Q c).1 ys := by
  cases c with
  | enqueue P item =>
    obtain ⟨⟨hsize, hregistered, hframe, hheader, hcovers⟩, hmax⟩ := hc
    have hpos : 0 < item.msgSize.toInt := by unfold sizeofMessage at hsize; omega
    rcases enqueue_cases h P.base item hpos hmax (hframe P.base) with
      -- `Enqueue` refuses, or puts the record behind the others
      ⟨-, hrefused⟩ | ⟨a, Q', henq, hmem, hplace, -, -, hkeeps⟩
    · exact ⟨xs, by simpa [call, hrefused] using Fifo.Step.refuse xs, by simpa [call, hrefused]⟩
    · -- the accepted record is the one now found in memory
      have htail : (Q'.q.tail : Int) - item.msgSize.toInt = a := by
        have := place_tail hplace
        simp only [Queue.cursor] at this
        omega
      obtain ⟨htag, htid, hmsgSize⟩ := hheader P.base a Q.mem
      rw [← hmem] at htag htid hmsgSize
      have hrecord : recordAt Q'.mem a =
          ⟨a, item.tag, item.tid, item.msgSize, contentAt Q'.mem a item.tid item.msgSize⟩ := by
        simp only [recordAt, htag, htid, hmsgSize]
      obtain ⟨t, ht⟩ := hregistered
      have hkept := hkeeps (recordAt Q'.mem a) (by rw [hrecord]; rfl)
        ⟨rfl, t, by rw [hrecord]; exact ht, by rw [hrecord]; exact hcovers t ht⟩
      refine ⟨xs ++ [recordAt Q'.mem a], ?_, by simpa [call, henq] using hkept⟩
      have hevent : (call Q (.enqueue P item)).2 = .accepted (recordAt Q'.mem a) := by
        simp [call, henq, htail, hrecord]
      rw [hevent]
      exact .accept xs _
  | dequeue P =>
    cases xs with
    | nil =>
      have hnone := dequeue_nil P h
      exact ⟨[], by simpa [call, hnone] using Fifo.Step.removeNothing, by simpa [call, hnone]⟩
    | cons x xs =>
      obtain ⟨Q', hdeq, hstored, hmem, -, -, -, -, hkept⟩ := dequeue_cons P h
      -- what `Dequeue` hands out is the oldest record, with its methods rebound
      have hrecord : recordAt Q'.mem (readPosition Q.q) = x := by
        rw [hmem, recordAt_rebindAt (recordKind.rebinder_eq hstored), hstored.1]
      refine ⟨xs, ?_, by simpa [call, hdeq] using hkept⟩
      simpa [call, hdeq, hrecord] using Fifo.Step.remove xs x
  | peek =>
    cases xs with
    | nil =>
      have hnone := peek_nil h
      exact ⟨[], by simpa [call, hnone] using Fifo.Step.peekNothing, by simpa [call, hnone]⟩
    | cons x xs =>
      obtain ⟨-, -, hstored, -⟩ := dequeue_cons ⟨0, .packed⟩ h
      have hsome := peek_cons h
      refine ⟨x :: xs, ?_, by simpa [call, hsome] using h⟩
      simpa [call, hsome, hstored.1] using Fifo.Step.peek xs x
  | isEmpty =>
    refine ⟨xs, ?_, h⟩
    have hempty : decide (isEmpty Q = 1) = xs.isEmpty := by
      rw [isEmpty_eq h]
      cases xs <;> simp
    simpa [call, hempty] using Fifo.Step.test xs

/-- Calls with well-behaved messages are admissible on every queue. -/
theorem call_step {Q : Segment} {xs : List Record} (h : Keeps recordKind Q xs) (c : Call)
    (hc : c.Sends Message.WellBehaved) :
    ∃ ys, Fifo.Step xs (call Q c).2 ys ∧ Keeps recordKind (call Q c).1 ys := by
  apply call_step_of_admissible h
  cases c with
  | enqueue P item => exact Message.WellBehaved.admissible h hc
  | dequeue P | peek | isEmpty => trivial

/-- **Run**: every sequence of calls is a sequence of FIFO operations. -/
theorem run_steps {Q : Segment} {xs : List Record} (h : Keeps recordKind Q xs)
    (calls : List Call) (hc : ∀ c ∈ calls, c.Sends Message.WellBehaved) :
    ∃ ys, Fifo.Steps xs (run Q calls).2 ys ∧ Keeps recordKind (run Q calls).1 ys := by
  induction calls generalizing Q xs with
  | nil => exact ⟨xs, .nil xs, h⟩
  | cons c cs ih =>
    obtain ⟨ys, hstep, hkeeps⟩ := call_step h c (hc c (List.mem_cons_self ..))
    obtain ⟨zs, hsteps, hkeeps'⟩ := ih hkeeps fun d hd => hc d (List.mem_cons_of_mem _ hd)
    exact ⟨zs, .cons hstep hsteps, hkeeps'⟩

/-! ## The queue as its callers see it -/

/-- The bytes a record occupies. -/
def Record.slot (x : Record) : Slot := ⟨x.off, x.msgSize.toInt⟩

/-- The calls behave as FIFO operations from the empty queue on, and leave the outstanding
    records as accepted, in the segment and apart; a refused `Enqueue` changes nothing. -/
def FifoRun (mem : Mem) (calls : List Call) : Prop :=
  let Q := (run (createQueue mem) calls).1
  let events := (run (createQueue mem) calls).2
  ∃ outstanding : List Record,
    Fifo.Steps [] events outstanding ∧
    events.filterMap Fifo.Event.inserted? = events.filterMap Fifo.Event.removed? ++ outstanding ∧
    (∀ x ∈ outstanding, sizeofQueue ≤ x.off ∧ x.off + x.msgSize.toInt ≤ queueSize ∧
      recordAt Q.mem x.off = x) ∧
    outstanding.Pairwise (fun x y => x.slot.Disjoint y.slot) ∧
    ∀ (P : Process) (item : Message), (enqueue P.base Q item).2 = 0 →
      (enqueue P.base Q item).1 = Q

/-- The slots that hold records are theirs. -/
theorem slots_of_fills {m : Mem} {ss : List Slot} {xs : List Record}
    (h : List.Forall₂ (recordKind.Fills m) ss xs) :
    xs.map Record.slot = ss ∧ ∀ x ∈ xs, recordAt m x.off = x := by
  induction h with
  | nil => simp
  | @cons s x ss xs hs _ ih =>
    obtain ⟨hlen, rfl, -⟩ := hs
    refine ⟨?_, List.forall_mem_cons.mpr ⟨rfl, ih.2⟩⟩
    rw [List.map_cons, ih.1]
    exact congrArg (· :: ss) (congrArg (Slot.mk s.off) hlen.symm)

/-- What `Enqueue` returns tells whether it changed anything. -/
theorem enqueue_refused {base : UInt64} {Q : Segment} {item : Message}
    (h : (enqueue base Q item).2 = 0) : (enqueue base Q item).1 = Q := by
  unfold enqueue at h ⊢
  split at h
  · rfl
  · simp at h

/-- **Refinement**: every sequence of calls with well-behaved messages runs as FIFO. -/
theorem run_refines_fifo (mem : Mem) (calls : List Call)
    (h : ∀ c ∈ calls, c.Sends Message.WellBehaved) : FifoRun mem calls := by
  obtain ⟨ys, hsteps, hkeeps⟩ := run_steps (keeps_createQueue mem) calls h
  obtain ⟨ss, hfill, hinside, hdisj⟩ := hkeeps.ring.slots
  obtain ⟨hslots, hrecords⟩ := slots_of_fills hfill
  refine ⟨ys, hsteps, by simpa using hsteps.conservation, fun x hx => ?_, ?_, ?_⟩
  · have hin := hinside x.slot (hslots ▸ List.mem_map_of_mem hx)
    exact ⟨hin.1, hin.2, hrecords x hx⟩
  · rw [← List.pairwise_map, hslots]
    exact hdisj
  · exact fun P item => enqueue_refused

theorem loadInt_headerStores (m : Mem) (a : Int) (tag tid msgSize : Int32) :
    let m' := m.applyStores a (headerStores tag tid msgSize)
    m'.loadInt (a + 0) = tag ∧ m'.loadInt (a + 4) = tid ∧ m'.loadInt (a + 8) = msgSize := by
  intro m'
  have hdisj : (headerStores tag tid msgSize).Pairwise Store.Disjoint := by
    simp [headerStores, Store.Disjoint]
  have hheld : ∀ s ∈ headerStores tag tid msgSize, m'.Holds a s :=
    fun s hs => Mem.holds_applyStores m hdisj hs
  exact ⟨(hheld (.int 0 tag) (by simp [headerStores])).loadInt,
    (hheld (.int 4 tid) (by simp [headerStores])).loadInt,
    (hheld (.int 8 msgSize) (by simp [headerStores])).loadInt⟩

/-- A message of `n` bytes by the type id of `BarMsg`, of which `writeAt` writes the header. -/
def headerBar (n : Int32) : Message where
  tag := 5
  tid := barMsgId
  msgSize := n
  writeAt _ a m := m.applyStores a (headerStores 5 barMsgId n)

theorem headerBar_fits (n : Int32) (hmin : sizeofMessage ≤ n.toInt)
    (hmax : n.toInt ≤ intMax - queueSize) : (headerBar n).Fits ∧ (headerBar n).WritesHeader := by
  have hwithin : ∀ s ∈ headerStores 5 barMsgId n, s.Within 0 48 := by
    simp [headerStores, Store.Within]
  refine ⟨⟨hmin, hmax, ⟨.bar, rebinder_id .bar⟩, fun _ a m y hy => ?_⟩, fun _ a m => ?_⟩
  · have hsize : (headerBar n).msgSize.toInt = n.toInt := rfl
    unfold sizeofMessage at hmin
    exact Mem.applyStores_frame m hwithin (by omega)
  · exact loadInt_headerStores m a 5 barMsgId n

theorem headerBar_wellBehaved (n : Int32) (hmin : 72 ≤ n.toInt)
    (hmax : n.toInt ≤ intMax - queueSize) : (headerBar n).WellBehaved := by
  obtain ⟨hfits, hheader⟩ := headerBar_fits n (by unfold sizeofMessage; omega) hmax
  refine ⟨hfits, hheader, fun t ht => ?_⟩
  have hbar : rebinder (headerBar n).tid = some .bar := rebinder_id .bar
  obtain rfl := Option.some.inj (hbar.symm.trans ht)
  exact hmin

/-- Four records go in and one comes out; the third has gone back to the start of the
    segment. -/
def rollingCalls : List Call :=
  [.enqueue ⟨4096, .packed⟩ (headerBar 600000), .dequeue ⟨8192, .packed⟩,
    .enqueue ⟨4096, .packed⟩ (headerBar 300000), .enqueue ⟨12288, .packed⟩ (headerBar 200000),
    .enqueue ⟨4096, .packed⟩ (headerBar 72)]

/-- Records of four sizes between tasks that map the queue at different addresses: the tail
    rolls over, and behind it the head, until the queue is empty. -/
theorem run_refines_fifo_bar :
    let received : List Call :=
      [.peek, .dequeue ⟨8192, .packed⟩, .dequeue ⟨8192, .packed⟩, .dequeue ⟨8192, .packed⟩,
        .isEmpty]
    (run (createQueue fun _ => 0) rollingCalls).1.q.rolloverPosition = 900056 ∧
      (run (createQueue fun _ => 0) (rollingCalls ++ received)).1.q.size = 0 ∧
      FifoRun (fun _ => 0) (rollingCalls ++ received) := by
  intro received
  refine ⟨by decide +kernel, by decide +kernel, run_refines_fifo _ _ ?_⟩
  have hsent : ∀ n : Int32, 72 ≤ n.toInt ∧ n.toInt ≤ intMax - queueSize →
      (headerBar n).WellBehaved :=
    fun n hn => headerBar_wellBehaved n hn.1 hn.2
  simp only [rollingCalls, received, List.cons_append, List.nil_append, List.forall_mem_cons,
    Call.Sends, true_and]
  exact ⟨hsent 600000 (by decide), hsent 300000 (by decide), hsent 200000 (by decide),
    hsent 72 (by decide), by simp⟩

/-- A message of `struct Message` only that goes by the type id of `BarMsg`. -/
def shortBar : Message where
  tag := 5
  tid := barMsgId
  msgSize := 48
  writeAt _ a m := m.applyStores a (headerStores 5 barMsgId 48)

/-- A message of the size of `BarMsg` that writes nothing. -/
def silentBar : Message where
  tag := 5
  tid := barMsgId
  msgSize := 72
  writeAt _ _ m := m

theorem shortBar_fits : shortBar.Fits ∧ shortBar.WritesHeader :=
  headerBar_fits 48 (by decide) (by decide)

theorem silentBar_fits : silentBar.Fits ∧ silentBar.CoversRebinder := by
  have hbar : rebinder silentBar.tid = some .bar := by decide
  refine ⟨⟨by decide, by decide, ⟨.bar, hbar⟩, fun _ _ _ _ _ => rfl⟩, fun t ht => ?_⟩
  obtain rfl : MsgType.bar = t := by simpa [hbar] using ht
  decide

/-- **What fitting alone does not give**: `BarMsg_rebind` runs over the end of a record of 48
    bytes into the header of the next record; and a record whose header is not written is
    not found again. -/
theorem fits_not_enough :
    let P : Process := ⟨0, .packed⟩
    let short : List Call :=
      [.enqueue P shortBar, .enqueue P shortBar, .dequeue P, .dequeue P]
    let silent : List Call := [.enqueue P silentBar, .dequeue P]
    ((∀ c ∈ short, c.Sends fun item => item.Fits ∧ item.WritesHeader) ∧
      ¬FifoRun (fun _ => 0) short) ∧
    ((∀ c ∈ silent, c.Sends fun item => item.Fits ∧ item.CoversRebinder) ∧
      ¬FifoRun (fun _ => 0) silent) := by
  intro P short silent
  refine ⟨⟨by simp [short, Call.Sends, shortBar_fits], ?_⟩,
    ⟨by simp [silent, Call.Sends, silentBar_fits], ?_⟩⟩
  · -- the second record comes back with the low half of a code address for its `msg_size`
    rintro ⟨outstanding, -, hcons, -⟩
    have hsizes := congrArg (List.map fun x : Record => x.msgSize) hcons
    have haccepted : ((run (createQueue fun _ => 0) short).2.filterMap
        Fifo.Event.inserted?).map (fun x : Record => x.msgSize) = [48, 48] := by
      decide +kernel
    have hremoved : ((run (createQueue fun _ => 0) short).2.filterMap
        Fifo.Event.removed?).map (fun x : Record => x.msgSize) = [48, 4198464] := by
      decide +kernel
    rw [List.map_append, haccepted, hremoved] at hsizes
    simp at hsizes
  · -- the record outstanding has tag 5, memory says 0
    rintro ⟨outstanding, -, hcons, hrecords, -⟩
    have haccepted : ((run (createQueue fun _ => 0) silent).2.filterMap
        Fifo.Event.inserted?).map (fun x : Record => (x.off, x.tag)) = [(56, 5)] := by
      decide +kernel
    have hremoved : ((run (createQueue fun _ => 0) silent).2.filterMap
        Fifo.Event.removed?).map (fun x : Record => (x.off, x.tag)) = [] := by
      decide +kernel
    have houtstanding := congrArg (List.map fun x : Record => (x.off, x.tag)) hcons
    rw [List.map_append, haccepted, hremoved, List.nil_append] at houtstanding
    obtain ⟨x, hx, hoff⟩ : ∃ x ∈ outstanding, (x.off, x.tag) = (56, 5) := by
      have hmem : ((56 : Int), (5 : Int32)) ∈ outstanding.map fun x => (x.off, x.tag) := by
        simp [← houtstanding]
      simpa using hmem
    obtain ⟨hoff, htag⟩ := Prod.mk.inj hoff
    have hrecord := congrArg Record.tag (hrecords x hx).2.2
    have hzero : (run (createQueue fun _ => 0) silent).1.mem.loadInt (56 + 0) = 0 := by
      decide +kernel
    rw [hoff, htag] at hrecord
    simp only [recordAt, hzero] at hrecord
    revert hrecord
    decide

end TaskSystem
