import TaskSystem.MsgQueue.Receive

/-!
# A Drained Queue

When the receiver has taken every message, head and tail stand together somewhere in the
segment. `Enqueue` does not move them back to the start, and refuses a record that fits
neither behind them nor before them: "Circular array full", of a queue without a message.

## Contents

- `Drained`: every message accepted has been returned by `Dequeue`
- `FitsBeside`: the record fits behind the head or before it
- `drained_accepts_iff`: then and only then it is accepted, now or on any later retry, and a
  drained queue that accepts every size stands at one of its ends
- `drained_refuses`: a queue of 1000000 bytes without a message refuses one of 700000
-/

namespace TaskSystem

open Library Library.Rollover

/-- No undelivered message remains: `Dequeue` has returned what `Enqueue` has accepted. -/
def Drained (mem : Mem) (calls : List Call) : Prop :=
  (run (createQueue mem) calls).2.filterMap Fifo.Event.inserted? =
    (run (createQueue mem) calls).2.filterMap Fifo.Event.removed?

/-- The queue as the calls leave it. -/
def queueAfter (mem : Mem) (calls : List Call) : Segment := (run (createQueue mem) calls).1

/-- A record of `n` bytes fits behind the head or before it. -/
def FitsBeside (Q : Queue) (n : Int) : Prop :=
  Q.head + n ≤ queueSize ∨ sizeofQueue + n ≤ Q.head

instance (Q : Queue) (n : Int) : Decidable (FitsBeside Q n) :=
  inferInstanceAs (Decidable (Q.head + n ≤ queueSize ∨ sizeofQueue + n ≤ Q.head))

/-- A sender that tries `item` again and again, and a receiver. -/
def Call.Retries (item : Message) : Call → Prop
  | .enqueue _ tried => tried = item
  | _ => True

/-- Some retry of `item` is accepted. -/
def AcceptedInTime (Q : Segment) (item : Message) : Prop :=
  ∃ more, (∀ c ∈ more, c.Retries item) ∧ ∃ x, Fifo.Event.accepted x ∈ (run Q more).2

/-! ## Where a drained queue stands -/

section Empty

variable {α : Type*} {K : RecordKind α} {Q : Segment} {item : Message}

/-- **`Enqueue` on an empty queue** asks whether the record fits beside the head. -/
theorem enqueue_empty (h : Keeps K Q []) (base : UInt64)
    (hmin : sizeofMessage ≤ item.msgSize.toInt)
    (hmax : item.msgSize.toInt ≤ queueSize - sizeofQueue) :
    (enqueue base Q item).2 = 1 ↔ FitsBeside Q.q item.msgSize.toInt := by
  obtain ⟨ss, hlay, hfill⟩ := h.ring
  cases hfill
  have hbounds := h.bounds
  have hpos : 0 < item.msgSize.toInt := by
    unfold sizeofMessage at hmin
    omega
  have hint : item.msgSize.toInt ≤ intMax ∧ Q.q.tail + item.msgSize.toInt ≤ intMax := by
    unfold queueSize sizeofQueue at hmax
    unfold queueSize at hbounds
    unfold intMax
    omega
  have hplace : place sizeofQueue queueSize Q.q.cursor item.msgSize.toInt ≠ none ↔
      FitsBeside Q.q item.msgSize.toInt := place_empty hlay
  -- `predictTail` finds a place exactly when the cursor arithmetic does
  rw [← hplace]
  rcases predictTail_eq hlay hpos hint.1 fun _ => hint.2 with
    ⟨hnone, hpredict⟩ | ⟨a, roll, c', hsome, hpredict, -⟩
  · simp [enqueue, hnone, hpredict]
  · simp [enqueue, hsome, hpredict]

/-- A receiver finds nothing in an empty queue, and a sender that is refused changes nothing:
    retries go on being refused. -/
theorem retries_refused (h : Keeps K Q []) (hrefused : ∀ base, (enqueue base Q item).2 ≠ 1)
    (more : List Call) (hmore : ∀ c ∈ more, c.Retries item) :
    ∀ x, Fifo.Event.accepted x ∉ (run Q more).2 := by
  induction more with
  | nil =>
    intro x hx
    cases hx
  | cons c cs ih =>
    have hrest := ih fun d hd => hmore d (List.mem_cons_of_mem _ hd)
    -- each call leaves the queue as it is and accepts nothing
    have hstep : (call Q c).1 = Q ∧ ∀ x, (call Q c).2 ≠ .accepted x := by
      cases c with
      | enqueue P tried =>
        obtain rfl : tried = item := hmore _ (List.mem_cons_self ..)
        have hzero : enqueue P.base Q tried = (Q, 0) := by
          have hne := hrefused P.base
          -- where `predictTail` gives -1, `Enqueue` returns before it writes
          unfold enqueue at hne ⊢
          split
          · rfl
          case h_2 hpredict => simp [hpredict] at hne
        simp [call, hzero]
      | dequeue P => simp [call, dequeue_nil P h]
      | peek => simp [call, peek_nil h]
      | isEmpty => simp [call]
    intro x hx
    simp only [run, hstep.1] at hx
    rcases List.mem_cons.mp hx with hx | hx
    · exact hstep.2 x hx.symm
    · exact hrest x hx

end Empty

/-- A queue whose messages have all been delivered keeps none. -/
theorem keeps_of_drained {mem : Mem} {calls : List Call}
    (hcalls : ∀ c ∈ calls, c.Sends Message.WellBehaved) (h : Drained mem calls) :
    Keeps recordKind (queueAfter mem calls) [] := by
  obtain ⟨ys, hsteps, hkeeps⟩ := run_steps (keeps_createQueue mem) calls hcalls
  -- what went in is what came out followed by what is kept
  have hcons := hsteps.conservation
  rw [List.nil_append, h, List.self_eq_append_right] at hcons
  subst hcons
  exact hkeeps

/-- The messages delivered and not delivered are counted by `size`. -/
theorem drained_of_isEmpty {mem : Mem} {calls : List Call}
    (hcalls : ∀ c ∈ calls, c.Sends Message.WellBehaved)
    (h : isEmpty (queueAfter mem calls) = 1) : Drained mem calls := by
  obtain ⟨ys, hsteps, hkeeps⟩ := run_steps (keeps_createQueue mem) calls hcalls
  -- `isEmpty` returns 1 only for a queue that keeps nothing
  have hnil : ys = [] := by
    by_contra hne
    have hzero : isEmpty (queueAfter mem calls) = 0 := by
      rw [queueAfter, isEmpty_eq hkeeps, if_neg hne]
    omega
  subst hnil
  have hcons := hsteps.conservation
  rwa [List.nil_append, List.append_nil] at hcons

/-! ## What a drained queue accepts -/

/-- **Some retry is accepted** exactly when the first one is. -/
theorem acceptedInTime_iff {Q : Segment} {item : Message} (h : Keeps recordKind Q [])
    (hmin : sizeofMessage ≤ item.msgSize.toInt)
    (hmax : item.msgSize.toInt ≤ queueSize - sizeofQueue) :
    AcceptedInTime Q item ↔ FitsBeside Q.q item.msgSize.toInt := by
  constructor
  · -- a refused message stays refused, since retries change nothing
    rintro ⟨more, hmore, x, hx⟩
    by_contra hfit
    apply retries_refused h _ more hmore x hx
    intro base haccepted
    exact hfit ((enqueue_empty h base hmin hmax).mp haccepted)
  · intro hfit
    -- the first retry is accepted
    have haccepted := (enqueue_empty h 0 hmin hmax).mpr hfit
    refine ⟨[.enqueue ⟨0, .packed⟩ item], ?_, ?_⟩
    · intro c hc
      obtain rfl := List.mem_singleton.mp hc
      exact rfl
    · simp only [run, call, haccepted, if_true]
      exact ⟨_, List.mem_cons_self ..⟩

/-- **Only at its ends** is an empty queue as good as a new one. -/
theorem accepts_all_iff {Q : Segment} (h : Keeps recordKind Q []) :
    (∀ item : Message, sizeofMessage ≤ item.msgSize.toInt →
      item.msgSize.toInt ≤ queueSize - sizeofQueue → ∀ base, (enqueue base Q item).2 = 1) ↔
      (Q.q.head : Int) = sizeofQueue ∨ (Q.q.head : Int) = queueSize := by
  have hbounds := h.bounds
  constructor
  · intro hall
    -- a record that takes the whole segment fits only at an end
    have hwhole : (999944 : Int32).toInt = queueSize - sizeofQueue := by decide
    have haccepted := hall { silentBar with msgSize := 999944 } (by decide) (by decide) 0
    have hfit := (enqueue_empty h 0 (by decide) (by decide)).mp haccepted
    simp only [FitsBeside, hwhole] at hfit
    omega
  · intro hend item hmin hmax base
    apply (enqueue_empty h base hmin hmax).mpr
    unfold FitsBeside
    omega

/-- **A drained queue accepts a message exactly when the record fits beside its head**; when it
    does not, no retry is ever accepted; and it accepts all sizes only with its head at an end. -/
theorem drained_accepts_iff (mem : Mem) (calls : List Call)
    (hcalls : ∀ c ∈ calls, c.Sends Message.WellBehaved) (hdrained : Drained mem calls) :
    (∀ item : Message, sizeofMessage ≤ item.msgSize.toInt →
      item.msgSize.toInt ≤ queueSize - sizeofQueue →
        ((∀ base, (enqueue base (queueAfter mem calls) item).2 = 1) ↔
          FitsBeside (queueAfter mem calls).q item.msgSize.toInt) ∧
        (AcceptedInTime (queueAfter mem calls) item ↔
          FitsBeside (queueAfter mem calls).q item.msgSize.toInt)) ∧
    ((∀ item : Message, sizeofMessage ≤ item.msgSize.toInt →
      item.msgSize.toInt ≤ queueSize - sizeofQueue →
        ∀ base, (enqueue base (queueAfter mem calls) item).2 = 1) ↔
      ((queueAfter mem calls).q.head : Int) = sizeofQueue ∨
        ((queueAfter mem calls).q.head : Int) = queueSize) := by
  have hkeeps := keeps_of_drained hcalls hdrained
  refine ⟨?_, accepts_all_iff hkeeps⟩
  intro item hmin hmax
  have hiff : ∀ base, (enqueue base (queueAfter mem calls) item).2 = 1 ↔
      FitsBeside (queueAfter mem calls).q item.msgSize.toInt :=
    fun base => enqueue_empty hkeeps base hmin hmax
  exact ⟨⟨fun h => (hiff 0).mp (h 0), fun h base => (hiff base).mpr h⟩,
    acceptedInTime_iff hkeeps hmin hmax⟩

/-! ## A queue that a large message has passed through -/

theorem run_enqueue_dequeue {Q Q₁ Q₂ : Segment} {P : Process} {item : Message}
    {slot : Option Int} (h₁ : (enqueue P.base Q item).1 = Q₁)
    (h₂ : dequeue P Q₁ = (Q₂, slot)) : (run Q [.enqueue P item, .dequeue P]).1 = Q₂ := by
  subst h₁
  cases slot with
  | none => simp only [run, call, h₂]
  | some a => simp only [run, call, h₂]

/-- A record that has been put into a new queue and taken out again leaves both ends of the
    queue behind it. -/
theorem head_after_one (mem : Mem) (P : Process) (msg : ValidMsg)
    (hsize : msg.size ≤ queueSize - sizeofQueue) :
    let calls : List Call := [.enqueue P msg.1.toMessage, .dequeue P]
    isEmpty (queueAfter mem calls) = 1 ∧
      ((queueAfter mem calls).q.head : Int) = sizeofQueue + msg.size := by
  intro calls
  have hpos := msg.size_pos
  have hfresh : Keeps messageKind (createQueue mem) [] := keeps_createQueue mem
  have hframe : ∀ a m y, y < a ∨ a + msg.size ≤ y →
      msg.1.toMessage.writeAt P.base a m y = m y :=
    fun a m y hy => writeAt_frame msg.2 m _ hy
  have hint : (createQueue mem).q.tail + msg.size ≤ intMax := by
    unfold queueSize sizeofQueue at hsize
    simp only [createQueue, sizeofQueue]
    unfold intMax
    omega
  -- a new queue has both ends behind its header
  have hcursor₀ : (createQueue mem).q.cursor = ⟨56, 56, none⟩ := by
    simp [createQueue, Queue.cursor, sizeofQueue]
  have hfits : place sizeofQueue queueSize (createQueue mem).q.cursor msg.size =
      some (56, ⟨56, 56 + msg.size, none⟩) := by
    have hle : 56 + msg.size ≤ queueSize := by
      unfold sizeofQueue at hsize
      omega
    rw [hcursor₀]
    simp [place, hle]
  rcases enqueue_cases hfresh P.base msg.1.toMessage msg.size_pos (fun _ => hint) hframe with
    ⟨hnone, -⟩ | ⟨a, Q₁, henq, hmem, hplace, -, -, hkeeps⟩
  · have hnone' : place sizeofQueue queueSize (createQueue mem).q.cursor msg.size = none := hnone
    rw [hfits] at hnone'
    cases hnone'
  · have hplace' : some (56, ⟨56, 56 + msg.size, none⟩) = some (a, Q₁.q.cursor) :=
      hfits.symm.trans hplace
    obtain ⟨rfl, hcursor⟩ := Prod.mk.inj (Option.some.inj hplace')
    have hstored : StoredAt Q₁.mem 56 msg.1 := by
      rw [hmem]
      exact storedAt_writeAt mem 56 msg.1 _
    -- `Dequeue` moves the head behind the record it returns
    obtain ⟨Q₂, hdeq, -, -, -, hhead, -, -, hkeeps₂⟩ := dequeue_cons P (hkeeps msg rfl hstored)
    have hafter : queueAfter mem calls = Q₂ := by
      rw [queueAfter]
      exact run_enqueue_dequeue (congrArg Prod.fst henq) hdeq
    rw [hafter]
    refine ⟨by rw [isEmpty_eq hkeeps₂, if_pos rfl], ?_⟩
    obtain ⟨ss, hlay, -⟩ := (hkeeps msg rfl hstored).ring
    have hread : readPos sizeofQueue (⟨56, 56 + msg.size, none⟩ : Cursor) = sizeofQueue := by
      simp [readPos, sizeofQueue]
    have hmsg : messageKind.size msg = msg.size := rfl
    rw [hhead, readPosition_eq hlay, ← hcursor, hread, hmsg]

/-- The messages of the nine types are what the queue relies on, and pass through it. -/
theorem passed_drained (mem : Mem) (P : Process) (msg : ValidMsg)
    (hsize : msg.size ≤ queueSize - sizeofQueue) :
    let calls : List Call := [.enqueue P msg.1.toMessage, .dequeue P]
    (∀ c ∈ calls, c.Sends Message.WellBehaved) ∧ Drained mem calls := by
  intro calls
  have hsends : ∀ c ∈ calls, c.Sends Message.WellBehaved := by
    -- a record that fits the segment is far from the range of `int`
    have hmax : msg.1.msgSize.toInt ≤ intMax - queueSize := by
      have hmsg : msg.1.msgSize.toInt ≤ queueSize - sizeofQueue := hsize
      unfold queueSize sizeofQueue at hmsg
      unfold intMax queueSize
      omega
    intro c hc
    rcases List.mem_cons.mp hc with rfl | hc
    · exact msg.2.toMessage hmax
    · obtain rfl := List.mem_singleton.mp hc
      trivial
  exact ⟨hsends, drained_of_isEmpty hsends (head_after_one mem P msg hsize).1⟩

/-- Behind a request of 600000 bytes that has been sent and received there is place for one of
    300000 bytes, but not for every size. -/
theorem drained_accepts_iff_request :
    let A := zeroRequest 599912 (by decide)
    let B := zeroRequest 299912 (by decide)
    let calls : List Call := [.enqueue ⟨4096, .packed⟩ A.1.toMessage, .dequeue ⟨4096, .packed⟩]
    (∀ base, (enqueue base (queueAfter (fun _ => 0) calls) B.1.toMessage).2 = 1) ∧
      AcceptedInTime (queueAfter (fun _ => 0) calls) B.1.toMessage ∧
      ∃ item : Message, sizeofMessage ≤ item.msgSize.toInt ∧
        item.msgSize.toInt ≤ queueSize - sizeofQueue ∧
        ∃ base, (enqueue base (queueAfter (fun _ => 0) calls) item).2 ≠ 1 := by
  intro A B calls
  have hA : A.size = 600000 := size_zeroRequest 599912 (by decide)
  have hB : B.1.toMessage.msgSize.toInt = 300000 := size_zeroRequest 299912 (by decide)
  have hin : A.size ≤ queueSize - sizeofQueue := by
    rw [hA]
    decide
  obtain ⟨hcalls, hdrained⟩ := passed_drained (fun _ => 0) ⟨4096, .packed⟩ A hin
  have hhead := (head_after_one (fun _ => 0) ⟨4096, .packed⟩ A hin).2
  obtain ⟨hone, hall⟩ := drained_accepts_iff (fun _ => 0) calls hcalls hdrained
  obtain ⟨hnow, htime⟩ := hone B.1.toMessage (by rw [hB]; decide) (by rw [hB]; decide)
  -- 600056 + 300000 ≤ 1000000
  have hfit : FitsBeside (queueAfter (fun _ => 0) calls).q B.1.toMessage.msgSize.toInt := by
    rw [FitsBeside, hhead, hA, hB]
    decide
  refine ⟨hnow.mpr hfit, htime.mpr hfit, ?_⟩
  by_contra hno
  push Not at hno
  -- the head is at 600056, at neither end
  have hend := hall.mp fun item hmin hmax base => hno item hmin hmax base
  have hposition : ((queueAfter (fun _ => 0) calls).q.head : Int) = 600056 := by
    rw [hhead, hA]
    decide
  rcases hend with hend | hend
  · exact absurd (hposition.symm.trans hend) (by decide)
  · exact absurd (hposition.symm.trans hend) (by decide)

/-- **A queue without a message is full**: a request of 600000 bytes is sent and received; one
    of 700000 bytes is then refused, however often it is tried. -/
theorem drained_refuses :
    let P : Process := ⟨4096, .packed⟩
    let A := zeroRequest 599912 (by decide)
    let B := zeroRequest 699912 (by decide)
    let calls : List Call := [.enqueue P A.1.toMessage, .dequeue P]
    (∀ c ∈ calls, c.Sends Message.WellBehaved) ∧ Drained (fun _ => 0) calls ∧
      sizeofMessage ≤ B.1.toMessage.msgSize.toInt ∧
      B.1.toMessage.msgSize.toInt ≤ queueSize - sizeofQueue ∧
      (∀ base, (enqueue base (queueAfter (fun _ => 0) calls) B.1.toMessage).2 ≠ 1) ∧
      ¬AcceptedInTime (queueAfter (fun _ => 0) calls) B.1.toMessage := by
  intro P A B calls
  have hA : A.size = 600000 := by
    have hsize : A.size = 88 + 599912 := size_zeroRequest 599912 (by decide)
    exact hsize
  have hB : B.1.toMessage.msgSize.toInt = 700000 := by
    have hsize : B.size = 88 + 699912 := size_zeroRequest 699912 (by decide)
    exact hsize
  have hin : A.size ≤ queueSize - sizeofQueue := by
    rw [hA]
    decide
  obtain ⟨hcalls, hdrained⟩ := passed_drained (fun _ => 0) P A hin
  have hhead := (head_after_one (fun _ => 0) P A hin).2
  have hkeeps := keeps_of_drained hcalls hdrained
  have hmin : sizeofMessage ≤ B.1.toMessage.msgSize.toInt := by
    rw [hB]
    decide
  have hmax : B.1.toMessage.msgSize.toInt ≤ queueSize - sizeofQueue := by
    rw [hB]
    decide
  have hrefused : ∀ base, (enqueue base (queueAfter (fun _ => 0) calls) B.1.toMessage).2 ≠ 1 := by
    intro base haccepted
    have hfit := (enqueue_empty hkeeps base hmin hmax).mp haccepted
    -- neither 600056 + 700000 ≤ 1000000 nor 56 + 700000 ≤ 600056
    rw [FitsBeside, hhead, hA, hB] at hfit
    exact absurd hfit (by decide)
  refine ⟨hcalls, hdrained, hmin, hmax, hrefused, ?_⟩
  rintro ⟨more, hmore, x, hx⟩
  exact retries_refused hkeeps hrefused more hmore x hx

end TaskSystem
