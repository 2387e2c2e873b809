import TaskSystem.MsgQueue.Drained

/-!
# How Full a Queue May Be

A queue can refuse a message although it has the bytes for it: they may lie on both sides of its
head, and those behind the point where the tail went back are lost until the head comes round.
Neither costs more than the largest message, so a queue whose receiver keeps the backlog two such
messages below the capacity accepts everything.

## Contents

- `backlog`, `KeepsUp`, `AcceptsWithin`: bytes not delivered, and what is relied on
- `call_turnedLate`, `enqueue_of_room`: one call; `run_accepts`: a run
- `queue_room`: how much backlog a queue can take
-/

namespace TaskSystem

open Library Library.Rollover

/-! ## The backlog -/

/-- The bytes that records occupy. -/
def bytesOf (xs : List Record) : Int := (xs.map fun x => x.msgSize.toInt).sum

/-- The bytes that have been accepted and not removed. -/
def backlog (events : List (Fifo.Event Record)) : Int :=
  bytesOf (events.filterMap Fifo.Event.inserted?) - bytesOf (events.filterMap Fifo.Event.removed?)

/-- Whenever something is sent, the receiver has left at most `b` bytes behind. -/
def KeepsUp (mem : Mem) (b : Int) (calls : List Call) : Prop :=
  ∀ before P item after, calls = before ++ .enqueue P item :: after →
    backlog (run (createQueue mem) before).2 ≤ b

/-- A queue that is sent messages of at most `m` bytes, and whose receiver keeps up to `b` bytes,
    refuses nothing. -/
def AcceptsWithin (m b : Int) : Prop :=
  ∀ mem calls, (∀ c ∈ calls, c.Sends fun item => item.WellBehaved ∧ item.msgSize.toInt ≤ m) →
    KeepsUp mem b calls → Fifo.Event.refused ∉ (run (createQueue mem) calls).2

@[simp] theorem bytesOf_nil : bytesOf [] = 0 := rfl

@[simp] theorem bytesOf_cons (x : Record) (xs : List Record) :
    bytesOf (x :: xs) = x.msgSize.toInt + bytesOf xs := by
  simp [bytesOf]

@[simp] theorem bytesOf_append (xs ys : List Record) :
    bytesOf (xs ++ ys) = bytesOf xs + bytesOf ys := by
  simp [bytesOf]

@[simp] theorem backlog_nil : backlog [] = 0 := rfl

theorem backlog_append (es es' : List (Fifo.Event Record)) :
    backlog (es ++ es') = backlog es + backlog es' := by
  simp only [backlog, List.filterMap_append, bytesOf_append]
  omega

/-- What one operation adds to the backlog. -/
theorem bytesOf_step {xs ys : List Record} {e : Fifo.Event Record} (h : Fifo.Step xs e ys) :
    bytesOf ys = bytesOf xs + backlog [e] := by
  cases h with
  | accept _ x | remove _ x =>
    simp [backlog, List.filterMap_cons, Fifo.Event.inserted?, Fifo.Event.removed?]
  | refuse | removeNothing | peek | peekNothing | test =>
    simp [backlog, List.filterMap_cons, Fifo.Event.inserted?, Fifo.Event.removed?]

/-- What the calls of a run show, the last ones after the others. -/
theorem run_append (Q : Segment) (calls more : List Call) :
    (run Q (calls ++ more)).2 = (run Q calls).2 ++ (run (run Q calls).1 more).2 := by
  induction calls generalizing Q with
  | nil => rfl
  | cons c calls ih =>
    simp only [List.cons_append, run]
    rw [ih]

/-- The slots of the records outstanding take as many bytes. -/
theorem total_slots {m : Mem} {ss : List Slot} {xs : List Record}
    (h : List.Forall₂ (recordKind.Fills m) ss xs) : total ss = bytesOf xs := by
  rw [← (slots_of_fills h).1, total, bytesOf, List.map_map]
  rfl

/-! ## One call -/

section Calls

variable {Q : Segment} {xs : List Record} {m : Int}

/-- **Step**: the tail goes back to the start no earlier than messages of `m` bytes make it. -/
theorem call_turnedLate (h : Keeps recordKind Q xs) (hlate : TurnedLate queueSize m Q.q.cursor)
    (c : Call) (hc : c.Sends fun item => item.WellBehaved ∧ item.msgSize.toInt ≤ m) :
    TurnedLate queueSize m (call Q c).1.q.cursor := by
  cases c with
  | enqueue P item =>
    obtain ⟨hitem, hm⟩ := hc
    obtain ⟨hstorable, hsum⟩ := hitem.admissible h
    rcases enqueue_cases h P.base item hstorable.msgSize_pos hsum (hstorable.frame P.base) with
      ⟨-, hrefused⟩ | ⟨a, Q', haccepted, -, hplace, -⟩
    · simpa [call, hrefused] using hlate
    · simpa [call, haccepted] using place_turnedLate hlate hm hplace
  | dequeue P =>
    cases xs with
    | nil => simpa [call, dequeue_nil P h] using hlate
    | cons x xs =>
      obtain ⟨Q', hdequeue, -, -, hcursor, -⟩ := dequeue_cons P h
      have hlate' : TurnedLate queueSize m Q'.q.cursor := by
        rw [hcursor]
        exact advance_turnedLate hlate
      simpa [call, hdequeue] using hlate'
  | peek =>
    simp only [call]
    split <;> exact hlate
  | isEmpty => exact hlate

/-- **`Enqueue` with room** is accepted. -/
theorem enqueue_of_room (h : Keeps recordKind Q xs) (hlate : TurnedLate queueSize m Q.q.cursor)
    {item : Message} (hitem : item.WellBehaved) (hm : item.msgSize.toInt ≤ m)
    (hroom : bytesOf xs + 2 * m ≤ queueSize - sizeofQueue) (base : UInt64) :
    (enqueue base Q item).2 = 1 := by
  obtain ⟨hstorable, hsum⟩ := hitem.admissible h
  rcases enqueue_cases h base item hstorable.msgSize_pos hsum (hstorable.frame base) with
    ⟨hnone, -⟩ | ⟨a, Q', haccepted, -⟩
  · -- it would have been refused because no place was found, but there is one
    obtain ⟨ss, hlayout, hfills⟩ := h.ring
    rw [← total_slots hfills] at hroom
    obtain ⟨a, c', hplace⟩ := place_of_room hlayout hlate hm hroom
    rw [hnone] at hplace
    cases hplace
  · rw [haccepted]

/-! ## A run -/

/-- **Run**: as long as each message finds room, none is refused. -/
theorem run_accepts {b : Int} (hb : b + 2 * m ≤ queueSize - sizeofQueue) {calls : List Call}
    (h : Keeps recordKind Q xs) (hlate : TurnedLate queueSize m Q.q.cursor)
    (hcalls : ∀ c ∈ calls, c.Sends fun item => item.WellBehaved ∧ item.msgSize.toInt ≤ m)
    (hbacklog : ∀ before P item after, calls = before ++ .enqueue P item :: after →
      bytesOf xs + backlog (run Q before).2 ≤ b) :
    Fifo.Event.refused ∉ (run Q calls).2 := by
  induction calls generalizing Q xs with
  | nil => exact List.not_mem_nil
  | cons c calls ih =>
    have hc := hcalls c (List.mem_cons_self ..)
    have hsends : c.Sends Message.WellBehaved := by
      cases c with
      | enqueue P item => exact hc.1
      | dequeue P | peek | isEmpty => trivial
    obtain ⟨ys, hstep, hkeeps⟩ := call_step h c hsends
    have haccepted : (call Q c).2 ≠ .refused := by
      cases c with
      | enqueue P item =>
        -- the bound on the backlog is used here, with no call before
        have hnow := hbacklog [] P item calls rfl
        simp only [run, backlog_nil, Int.add_zero] at hnow
        have hone := enqueue_of_room h hlate hc.1 hc.2 (by omega) P.base
        simp [call, hone]
      | dequeue P | peek =>
        simp only [call]
        split <;> intro hrefused <;> cases hrefused
      | isEmpty =>
        intro hrefused
        cases hrefused
    have hrest : Fifo.Event.refused ∉ (run (call Q c).1 calls).2 := by
      apply ih hkeeps (call_turnedLate h hlate c hc)
      · exact fun d hd => hcalls d (List.mem_cons_of_mem _ hd)
      · -- what this call has added counts for those behind it
        rintro before P item after rfl
        have hlater := hbacklog (c :: before) P item after rfl
        rw [bytesOf_step hstep]
        simp only [run] at hlater
        rw [← List.singleton_append, backlog_append] at hlater
        omega
    simp only [run]
    rw [List.mem_cons, not_or]
    exact ⟨haccepted.symm, hrest⟩

end Calls

/-! ## How much backlog a queue can take -/

/-- A message that is refused, after other calls. -/
theorem refused_mem_run {mem : Mem} {calls : List Call} {P : Process} {item : Message}
    (h : (enqueue P.base (queueAfter mem calls) item).2 ≠ 1) :
    Fifo.Event.refused ∈ (run (createQueue mem) (calls ++ [.enqueue P item])).2 := by
  rw [queueAfter] at h
  rw [run_append]
  apply List.mem_append_right
  simp only [run, call, if_neg h]
  exact List.mem_singleton_self _

/-- An empty queue whose head lies too far from both ends. -/
theorem enqueue_ne_one {Q : Segment} (h : Keeps recordKind Q []) {item : Message}
    (hitem : item.WellBehaved) (hfits : item.msgSize.toInt ≤ queueSize - sizeofQueue) {n : Int}
    (hhead : (Q.q.head : Int) = sizeofQueue + n) (hlarger : n < item.msgSize.toInt)
    (hboth : queueSize - sizeofQueue < n + item.msgSize.toInt) (base : UInt64) :
    (enqueue base Q item).2 ≠ 1 := by
  intro haccepted
  have hfit := (enqueue_empty h base hitem.1.sizeofMessage_le hfits).mp haccepted
  rw [FitsBeside, hhead] at hfit
  omega

/-- What has been delivered is not left behind. -/
theorem backlog_of_drained {mem : Mem} {calls : List Call} (h : Drained mem calls) :
    backlog (run (createQueue mem) calls).2 = 0 := by
  rw [Drained] at h
  rw [backlog, h, Int.sub_self]

section TwoMessages

variable {first second : ValidMsg}

/-- A message that has passed through a new queue leaves its bytes in the way of the next. -/
theorem refuses_second (mem : Mem) (P : Process) (hfits : second.size ≤ queueSize - sizeofQueue)
    (hlarger : first.size < second.size)
    (hboth : queueSize - sizeofQueue < first.size + second.size) :
    Fifo.Event.refused ∈ (run (createQueue mem) ([.enqueue P first.1.toMessage, .dequeue P] ++
      [.enqueue P second.1.toMessage])).2 := by
  have hsmall : first.size ≤ queueSize - sizeofQueue := by omega
  obtain ⟨hcalls, hdrained⟩ := passed_drained mem P first hsmall
  have hhead := (head_after_one mem P first hsmall).2
  have hkeeps := keeps_of_drained hcalls hdrained
  have hsecond : second.1.toMessage.WellBehaved :=
    (passed_drained mem P second hfits).1 _ (List.mem_cons_self ..)
  exact refused_mem_run (enqueue_ne_one hkeeps hsecond hfits hhead hlarger hboth P.base)

/-- Each of the two finds the queue empty. -/
theorem second_keepsUp (mem : Mem) (P : Process) (hfits : first.size ≤ queueSize - sizeofQueue) :
    KeepsUp mem 0 ([.enqueue P first.1.toMessage, .dequeue P] ++
      [.enqueue P second.1.toMessage]) := by
  intro before P' item after hsplit
  rw [List.cons_append, List.cons_append, List.nil_append] at hsplit
  cases before with
  | nil =>
    rw [run, backlog_nil]
  | cons c₁ before =>
    obtain ⟨hfirst, hrest⟩ := List.cons.inj hsplit
    cases before with
    | nil => cases (List.cons.inj hrest).1
    | cons c₂ before =>
      obtain ⟨hsecond, hlast⟩ := List.cons.inj hrest
      cases before with
      | nil =>
        rw [← hfirst, ← hsecond]
        exact Int.le_of_eq (backlog_of_drained (passed_drained mem P first hfits).2)
      | cons c₃ before =>
        have hlength := congrArg List.length hlast
        simp only [List.length_cons, List.append_eq, List.length_append, List.length_nil] at hlength
        omega

/-- So there is no bound on what a receiver leaves behind that would be low enough. -/
theorem not_acceptsWithin_zero {m : Int} (hm : second.size ≤ m)
    (hfits : second.size ≤ queueSize - sizeofQueue) (hlarger : first.size < second.size)
    (hboth : queueSize - sizeofQueue < first.size + second.size) : ¬AcceptsWithin m 0 := by
  intro haccepts
  have hsmall : first.size ≤ queueSize - sizeofQueue := by omega
  have hsends : ∀ msg : ValidMsg, msg.size ≤ queueSize - sizeofQueue → msg.size ≤ m →
      msg.1.toMessage.WellBehaved ∧ msg.1.toMessage.msgSize.toInt ≤ m := by
    intro msg hmsg hle
    exact ⟨(passed_drained (fun _ => 0) ⟨0, .packed⟩ msg hmsg).1 _ (List.mem_cons_self ..), hle⟩
  apply haccepts _ _ _ (second_keepsUp (fun _ => 0) ⟨0, .packed⟩ hsmall)
    (refuses_second (fun _ => 0) ⟨0, .packed⟩ hfits hlarger hboth)
  intro c hc
  rcases List.mem_append.mp hc with hfirst | hsecond
  · rcases List.mem_cons.mp hfirst with rfl | hdequeue
    · exact hsends first hsmall (by omega)
    · obtain rfl := List.mem_singleton.mp hdequeue
      trivial
  · obtain rfl := List.mem_singleton.mp hsecond
    exact hsends second hfits hm

end TwoMessages

/-- **The room of a queue**: messages of at most `m` bytes are all accepted while the receiver
    leaves room for two of them; and without that room not even all that find the queue empty. -/
theorem queue_room (m : Int) :
    (∀ b, b + 2 * m ≤ queueSize - sizeofQueue → AcceptsWithin m b) ∧
      (AcceptsWithin m 0 → 2 * m ≤ queueSize - sizeofQueue) := by
  constructor
  · intro b hb mem calls hcalls hkeepsUp
    apply run_accepts hb (keeps_createQueue mem) _ hcalls
    · intro before P item after hsplit
      rw [bytesOf_nil, Int.zero_add]
      exact hkeepsUp before P item after hsplit
    · intro r hr
      cases hr
  · intro haccepts
    by_contra hlarge
    have hcapacity : queueSize - sizeofQueue = 999944 := rfl
    -- requests of 499972 and 499973 bytes, one after the other
    obtain ⟨first, hfirst⟩ : ∃ first : ValidMsg, first.size = 499972 :=
      ⟨zeroRequest 499884 (by decide), size_zeroRequest 499884 (by decide)⟩
    obtain ⟨second, hsecond⟩ : ∃ second : ValidMsg, second.size = 499973 :=
      ⟨zeroRequest 499885 (by decide), size_zeroRequest 499885 (by decide)⟩
    have hm : second.size ≤ m := by omega
    have hlarger : first.size < second.size := by omega
    exact not_acceptsWithin_zero hm (by omega) hlarger (by omega) haccepts

end TaskSystem
