import TaskSystem.Tasks.Receivers

/-!
# Responses and Requests

The database alone with its queue, in which any processes put messages of any types and tags.
`start` sends a response after every call of `receive`. As long as every message it polls is a
request from a task ID, the responses are one for each request consumed, in order, to its
sender, and the database goes on; after any other message with a tag that is not negative it
answers somebody once more.

## Contents

- `databaseStation`: the system; `Station.requests`: the requests the database has consumed
- `PollsRequests`: what the database finds when it polls
- `Answered`: responses and requests correspond
- `Serving`: what holds at each point of the loop; `Serving.step`, `Serving.goesOn`
- `database_answers`: all runs in which the database polls requests only
- `database_answers_nobody`: a response sent before any request has come
-/

namespace TaskSystem

open Library Library.System

/-! ## The system -/

/-- The program of the database; `none` when it has taken another message for a request. -/
def databaseCode (beyond : Nat → List UInt8) :
    Option DatabaseLocal → Move AnyMsg Int32 (Option DatabaseLocal)
  | some d => databaseMove beyond some none d
  | none => .fault

/-- The database `this` with task id `self`, and whoever sends to it. -/
def databaseStation (P : Process) (self : Nat) (beyond : Nat → List UInt8) (this : DatabaseTask) :
    System (Station (Option DatabaseLocal)) StationEvent :=
  station P self (databaseCode beyond) (some (.start this))

/-- The request that a message is: of type `RequestMsg` and with tag `REQUEST_MSG`. -/
def requestOf? : AnyMsg → Option RequestMsg
  | .request req => if req.tag = requestMsgTag then some req else none
  | _ => none

/-- The requests among the messages removed from the queue, oldest first. -/
def Station.requests {L : Type*} (s : Station L) : List RequestMsg :=
  (s.accepted.take s.taken).filterMap requestOf?

/-- The request names a task ID as its sender. -/
def RequestMsg.FromTask (req : RequestMsg) : Prop :=
  0 ≤ req.senderTaskId.toInt ∧ req.senderTaskId.toInt < Repository.maxTask

instance (req : RequestMsg) : Decidable req.FromTask :=
  inferInstanceAs (Decidable (_ ∧ _))

/-- What the database finds when it polls is nothing, a negative tag, or a request. -/
def PollsRequests (s : Station (Option DatabaseLocal)) : StationEvent → Prop
  | .own _ => ∀ d ∈ s.loc, d.pc = .receive .poll →
      ∀ msg ∈ s.next?, msg.tag < 0 ∨ ∃ req ∈ requestOf? msg, req.FromTask
  | .arrive _ _ => True

instance (s : Station (Option DatabaseLocal)) : ∀ e, Decidable (PollsRequests s e)
  | .own _ => inferInstanceAs (Decidable (∀ d ∈ s.loc, d.pc = .receive .poll →
      ∀ msg ∈ s.next?, msg.tag < 0 ∨ ∃ req ∈ requestOf? msg, req.FromTask))
  | .arrive _ _ => .isTrue trivial

/-- The responses to the requests, each with the task it is for. -/
def answersTo (this : DatabaseTask) (handled : List (RequestMsg × List UInt8)) :
    List (Int32 × ResponseMsg) :=
  (handled.map fun e => e.1.senderTaskId).zip (this.respondAll handled)

/-- **Responses and requests correspond.** -/
structure Answered (this : DatabaseTask) (s : Station (Option DatabaseLocal))
    (d : DatabaseLocal) : Prop where
  /-- The responses go to the senders of the first requests consumed, one each, in order. -/
  addressed : d.sent.map Prod.fst <+: s.requests.map RequestMsg.senderTaskId
  /-- Between two calls of `receive` every request consumed has been answered. -/
  complete : d.pc = .receive .poll →
    d.sent.map Prod.fst = s.requests.map RequestMsg.senderTaskId
  /-- Each response is what `handle_RequestMsg` has left for its request. -/
  answers : d.handled.map Prod.fst <+: s.requests ∧ d.sent <+: answersTo this d.handled

/-! ## Lists of answers -/

section Lists

variable {this : DatabaseTask} {handled : List (RequestMsg × List UInt8)}

theorem map_fst_answersTo :
    (answersTo this handled).map Prod.fst = handled.map fun e => e.1.senderTaskId := by
  apply List.map_fst_zip
  rw [List.length_map, DatabaseTask.length_respondAll]

theorem answersTo_append (e : RequestMsg × List UInt8) :
    answersTo this (handled ++ [e]) =
      answersTo this handled ++
        [(e.1.senderTaskId, (this.afterAll (handled ++ [e])).response)] := by
  unfold answersTo
  -- the requesters and the responses each grow by one, so the zip does
  rw [List.map_append, DatabaseTask.respondAll_append, List.zip_append]
  · rfl
  · rw [List.length_map, DatabaseTask.length_respondAll]

theorem answersTo_isPrefixOf (more : List (RequestMsg × List UInt8)) :
    answersTo this handled <+: answersTo this (handled ++ more) := by
  induction more generalizing handled with
  | nil => exact (List.append_nil handled).symm ▸ List.prefix_rfl
  | cons e es ih =>
    have hfirst : answersTo this handled <+: answersTo this (handled ++ [e]) := by
      rw [answersTo_append]
      exact List.prefix_append _ _
    rw [List.append_cons]
    exact hfirst.trans ih

theorem requestOf?_eq_some {msg : AnyMsg} {req : RequestMsg} (h : requestOf? msg = some req) :
    msg = .request req ∧ req.tag = requestMsgTag := by
  cases msg with
  | request m =>
    simp only [requestOf?] at h
    split at h
    case isTrue htag =>
      obtain rfl := Option.some.inj h
      exact ⟨rfl, htag⟩
    case isFalse => cases h
  | _ => cases h

end Lists

/-! ## What holds at each point of the loop -/

section Serving

variable {P : Process} {self : Nat} {beyond : Nat → List UInt8} {this : DatabaseTask}
  {s s' : Station (Option DatabaseLocal)} {d : DatabaseLocal}

/-- What holds of the queue and the histories when the database stands at `pc`. -/
def ServingAt (P : Process) (this : DatabaseTask) (s : Station (Option DatabaseLocal))
    (d : DatabaseLocal) : DatabasePc → Prop
  | .receive .poll =>
    s.Tracks P none ∧ s.requests = d.handled.map Prod.fst ∧ d.sent = answersTo this d.handled
  | .receive (.receive _) =>
    s.Tracks P none ∧ s.requests = d.handled.map Prod.fst ∧ d.sent = answersTo this d.handled ∧
      ∃ msg req, s.next? = some msg ∧ requestOf? msg = some req ∧ req.FromTask
  | .receive (.clone _) =>
    d.sent = answersTo this d.handled ∧
      ∃ req, s.Tracks P (some (.request req)) ∧ s.requests = d.handled.map Prod.fst ++ [req] ∧
        req.FromTask
  | .receive .drop => False
  | .respond =>
    s.Tracks P none ∧ s.requests = d.handled.map Prod.fst ∧
      ∃ before e, d.handled = before ++ [e] ∧ d.sent = answersTo this before ∧ e.1.FromTask

/-- The database is running, and its fields are those after the requests handled. -/
structure Serving (P : Process) (this : DatabaseTask) (s : Station (Option DatabaseLocal))
    (d : DatabaseLocal) : Prop where
  loc_eq : s.loc = some d
  this_eq : d.this = this.afterAll d.handled
  point : ServingAt P this s d d.pc

theorem Serving.start (this : DatabaseTask) (mem : Mem) :
    Serving P this ⟨some (.start this), .create mem, [], 0⟩ (.start this) :=
  ⟨rfl, rfl, Station.tracks_create _ mem, rfl, rfl⟩

/-- Responses and requests correspond when the first requests consumed have been handled, and
    the first of these answered. -/
theorem answered_of_prefix {answered : List (RequestMsg × List UInt8)}
    (hsent : d.sent = answersTo this answered) (hanswered : answered <+: d.handled)
    (hhandled : d.handled.map Prod.fst <+: s.requests)
    (hpoll : d.pc = .receive .poll → answered.map Prod.fst = s.requests) : Answered this s d := by
  have haddress : d.sent.map Prod.fst = (answered.map Prod.fst).map RequestMsg.senderTaskId := by
    rw [hsent, map_fst_answersTo, List.map_map]
    rfl
  refine ⟨?_, ?_, hhandled, ?_⟩
  · -- the requests answered are among those handled, and these among those consumed
    rw [haddress]
    exact ((hanswered.map Prod.fst).trans hhandled).map _
  · intro hpc
    rw [haddress, hpoll hpc]
  · obtain ⟨more, hmore⟩ := hanswered
    rw [hsent, ← hmore]
    exact answersTo_isPrefixOf more

/-- In each of these states they do. -/
theorem Serving.answered (h : Serving P this s d) : Answered this s d := by
  have hpoint := h.point
  cases hpc : d.pc with
  | receive point =>
    rw [hpc] at hpoint
    cases point with
    -- at the poll everything consumed has been handled and answered
    | poll =>
      obtain ⟨-, hrequests, hsent⟩ := hpoint
      apply answered_of_prefix hsent List.prefix_rfl
      · exact hrequests ▸ List.prefix_rfl
      · exact fun _ => hrequests.symm
    | receive tag =>
      obtain ⟨-, hrequests, hsent, -⟩ := hpoint
      apply answered_of_prefix hsent List.prefix_rfl
      · exact hrequests ▸ List.prefix_rfl
      · exact fun _ => hrequests.symm
    | clone tag =>
      -- the request in the database's hands has been consumed and not handled
      obtain ⟨hsent, req, -, hrequests, -⟩ := hpoint
      apply answered_of_prefix hsent List.prefix_rfl
      · rw [hrequests]
        exact List.prefix_append _ _
      · intro hpoll
        rw [hpc] at hpoll
        cases hpoll
    | drop => exact hpoint.elim
  | respond =>
    -- the last request has been handled and not answered
    rw [hpc] at hpoint
    obtain ⟨-, hrequests, before, e, hhandled, hsent, -⟩ := hpoint
    apply answered_of_prefix hsent
    · rw [hhandled]
      exact List.prefix_append _ _
    · exact hrequests ▸ List.prefix_rfl
    · intro hpoll
      rw [hpc] at hpoll
      cases hpoll

/-! ## Messages that come in -/

/-- What comes in later is behind the messages removed. -/
theorem requests_of_append {t : Station (Option DatabaseLocal)} {more : List AnyMsg}
    (hle : s.taken ≤ s.accepted.length) (haccepted : t.accepted = s.accepted ++ more)
    (htaken : t.taken = s.taken) : t.requests = s.requests := by
  rw [Station.requests, haccepted, htaken, List.take_append_of_le_length hle, Station.requests]

/-- A message at the head stays there. -/
theorem next?_of_append {t : Station (Option DatabaseLocal)} {more : List AnyMsg} {msg : AnyMsg}
    (haccepted : t.accepted = s.accepted ++ more) (htaken : t.taken = s.taken)
    (h : s.next? = some msg) : t.next? = some msg := by
  have hlt := (List.getElem?_eq_some_iff.mp h).1
  rw [Station.next?, haccepted, htaken, List.getElem?_append_left hlt]
  exact h

/-- **A message that comes in** changes nothing of what holds. -/
theorem Serving.deliver (h : Serving P this s d) (base : UInt64) (msg : ValidMsg)
    (hsafe : SafeSend s.mb msg.size) : Serving P this (s.deliver base msg.1).1 d := by
  have hpoint := h.point
  refine ⟨h.loc_eq, h.this_eq, ?_⟩
  cases hpc : d.pc with
  | receive point =>
    rw [hpc] at hpoint
    cases point with
    | poll =>
      obtain ⟨htracks, hrequests, hsent⟩ := hpoint
      obtain ⟨htracks', more, hmore⟩ := htracks.deliver base msg hsafe
      exact ⟨htracks', (requests_of_append htracks.taken_le hmore rfl).trans hrequests, hsent⟩
    -- the request that was seen is still at the head
    | receive tag =>
      obtain ⟨htracks, hrequests, hsent, head, req, hhead, hreq⟩ := hpoint
      obtain ⟨htracks', more, hmore⟩ := htracks.deliver base msg hsafe
      exact ⟨htracks', (requests_of_append htracks.taken_le hmore rfl).trans hrequests, hsent,
        head, req, next?_of_append hmore rfl hhead, hreq⟩
    | clone tag =>
      obtain ⟨hsent, req, htracks, hrequests, hfrom⟩ := hpoint
      obtain ⟨htracks', more, hmore⟩ := htracks.deliver base msg hsafe
      exact ⟨hsent, req, htracks',
        (requests_of_append htracks.taken_le hmore rfl).trans hrequests, hfrom⟩
    | drop => exact hpoint.elim
  | respond =>
    rw [hpc] at hpoint
    obtain ⟨htracks, hrequests, before, e, hhandled, hsent, hfrom⟩ := hpoint
    obtain ⟨htracks', more, hmore⟩ := htracks.deliver base msg hsafe
    exact ⟨htracks', (requests_of_append htracks.taken_le hmore rfl).trans hrequests, before, e,
      hhandled, hsent, hfrom⟩

/-! ## The moves of the database -/

/-- Removing the message at the head adds it to those consumed. -/
theorem requests_succ {t : Station (Option DatabaseLocal)} {msg : AnyMsg}
    (hnext : s.next? = some msg) (haccepted : t.accepted = s.accepted)
    (htaken : t.taken = s.taken + 1) :
    t.requests = s.requests ++ (requestOf? msg).toList := by
  have hget : s.accepted[s.taken]? = some msg := hnext
  rw [Station.requests, haccepted, htaken, List.take_add_one, hget, List.filterMap_append,
    Station.requests]
  rfl

/-- **`getMsgTag`**: the database goes on polling, or has seen a request. -/
theorem Serving.poll (h : Serving P this s d) (hpc : d.pc = .receive .poll) {sent : Bool}
    (hpolls : PollsRequests s (.own sent))
    (hs : s.perform P self sent (databaseMove beyond some none d) = some s') :
    ∃ d', Serving P this s' d' := by
  have hpoint := h.point
  rw [hpc] at hpoint
  obtain ⟨htracks, hrequests, hsent⟩ := hpoint
  have htag := htracks.getMsgTag
  simp only [databaseMove, hpc, receiveMove, Station.perform, htag] at hs
  have hstay : d.goto (.receive .poll) = d := by
    rw [← hpc]
    rfl
  have hserving : Serving P this (s.goto (some d)) d := by
    refine ⟨rfl, h.this_eq, ?_⟩
    rw [hpc]
    exact ⟨htracks.goto _, hrequests, hsent⟩
  -- `receive` goes on polling while the tag is negative
  cases hnext : s.next? with
  | none =>
    have hneg : (-1 : Int32) < 0 := by decide
    simp only [hnext, tagOf, hneg, if_true, hstay] at hs
    obtain rfl := Option.some.inj hs
    exact ⟨d, hserving⟩
  | some msg =>
    rcases hpolls d h.loc_eq hpc msg hnext with hneg | hrequest
    · simp only [hnext, tagOf, hneg, if_true, hstay] at hs
      obtain rfl := Option.some.inj hs
      exact ⟨d, hserving⟩
    · -- of the tags that are not negative the condition leaves `REQUEST_MSG`
      obtain ⟨req, hreq, hfrom⟩ := hrequest
      obtain ⟨rfl, hreqTag⟩ := requestOf?_eq_some hreq
      have hzero : (AnyMsg.request req).tag = requestMsgTag := hreqTag
      have hnonneg : ¬requestMsgTag < 0 := by decide
      have hswitch : databaseSwitch requestMsgTag = .handle := by decide
      simp only [hnext, tagOf, hzero, hnonneg, if_false, hswitch] at hs
      obtain rfl := Option.some.inj hs
      exact ⟨_, rfl, h.this_eq, htracks.goto _, hrequests, hsent, _, req, hnext, hreq,
        hfrom⟩

/-- **`receive` and the handler**: the request seen is dequeued, cloned and handled. -/
theorem Serving.receive (h : Serving P this s d) {point : ReceivePoint}
    (hpc : d.pc = .receive point) (hpast : point ≠ .poll) {sent : Bool}
    (hs : s.perform P self sent (databaseMove beyond some none d) = some s') :
    ∃ d', Serving P this s' d' := by
  have hpoint := h.point
  rw [hpc] at hpoint
  simp only [databaseMove, hpc] at hs
  cases point with
  | poll => exact absurd rfl hpast
  | receive tag =>
    obtain ⟨htracks, hrequests, hsent, msg, req, hnext, hreq, hfrom⟩ := hpoint
    obtain rfl := Option.some.inj hs
    have htaken := (htracks.front hnext).1
    -- from here on the request counts as consumed
    have hrequests' := requests_succ (t := { s with
      loc := some (d.goto (.receive (.clone tag))), mb := s.mb.take P, taken := s.removed })
      hnext rfl htaken
    obtain ⟨rfl, -⟩ := requestOf?_eq_some hreq
    refine ⟨_, rfl, h.this_eq, hsent, req, htracks.take hnext _, ?_, hfrom⟩
    rw [hrequests', hrequests, hreq]
    rfl
  | clone tag =>
    obtain ⟨hsent, req, htracks, hrequests, hfrom⟩ := hpoint
    -- `clone` reads the request, and the handler fills the response from it
    let served := d.serve req (beyond d.handled.length)
    obtain ⟨hread, htracks'⟩ := htracks.finish (some served)
    simp only [receiveMove, Station.perform, hread, Option.map_some, databaseHandle] at hs
    obtain rfl := Option.some.inj hs
    refine ⟨served, rfl, ?_, htracks', ?_, d.handled, (req, beyond d.handled.length), rfl, hsent,
      hfrom⟩
    · show d.this.handleRequestMsg req (beyond d.handled.length) =
        this.afterAll (d.handled ++ [(req, beyond d.handled.length)])
      rw [DatabaseTask.afterAll_append, h.this_eq]
    · show s.requests = (d.handled ++ [(req, beyond d.handled.length)]).map Prod.fst
      rw [hrequests, List.map_append]
      rfl
  | drop => exact hpoint.elim

/-- `currentRequesterTaskId` was noted by the handler of the last request. -/
theorem Serving.requester (h : Serving P this s d) {before : List (RequestMsg × List UInt8)}
    {e : RequestMsg × List UInt8} (hhandled : d.handled = before ++ [e]) :
    d.this.currentRequesterTaskId = e.1.senderTaskId := by
  rw [h.this_eq, hhandled, DatabaseTask.afterAll_append]
  exact DatabaseTask.handle_requester e.1 e.2

/-- **`send`**: the response to the last request handled goes to its sender, which may be the
    database itself. -/
theorem Serving.respond (h : Serving P this s d) (hpc : d.pc = .respond)
    (hthis : this.responseSize.toInt ≤ sizeofStudentInfo) {sent : Bool}
    (hs : s.perform P self sent (databaseMove beyond some none d) = some s') :
    ∃ d', Serving P this s' d' := by
  have hpoint := h.point
  rw [hpc] at hpoint
  obtain ⟨htracks, hrequests, before, e, hhandled, hsent, -⟩ := hpoint
  have hthis' := h.this_eq
  have hrequester := h.requester hhandled
  have hanswered : d.answered.sent = answersTo this d.answered.handled := by
    show d.sent ++ [(d.this.currentRequesterTaskId, d.this.response)] = answersTo this d.handled
    rw [hhandled, answersTo_append, hsent, hrequester, hthis', hhandled]
  simp only [databaseMove, hpc] at hs
  -- `send` needs an entry of the table of queues
  split at hs
  case isFalse => cases hs
  case isTrue =>
    simp only [Station.perform] at hs
    split at hs
    · -- the response comes in at the database's own queue
      obtain rfl := Option.some.inj hs
      have hsmall : d.this.responseSize.toInt ≤ sizeofStudentInfo := by
        rw [hthis']
        exact DatabaseTask.afterAll_responseSize hthis d.handled
      obtain ⟨hwf, hle⟩ := DatabaseTask.response_small hsmall
      let response : ValidMsg := ⟨.response d.this.response, hwf⟩
      have hsafe : SafeSend s.mb response.size := by
        apply htracks.safeSend
        have hsize : response.size ≤ 128 := hle
        unfold intMax queueSize
        omega
      obtain ⟨htracks', more, hmore⟩ := htracks.deliver P.base response hsafe
      have hsame := requests_of_append htracks.taken_le hmore rfl
      exact ⟨d.answered, rfl, hthis', htracks'.goto _, hsame.trans hrequests, hanswered⟩
    · obtain rfl := Option.some.inj hs
      exact ⟨d.answered, rfl, hthis', htracks.goto _, hrequests, hanswered⟩

/-- **Step**: what holds at each point is kept by the database and by those who send to it. -/
theorem Serving.step (h : Serving P this s d)
    (hthis : this.responseSize.toInt ≤ sizeofStudentInfo) {e : StationEvent}
    (hsafe : SafeArrival s e) (hpolls : PollsRequests s e)
    (hs : (databaseStation P self beyond this).step s e = some s') :
    ∃ d', Serving P this s' d' := by
  cases e with
  | arrive base msg =>
    obtain rfl := Option.some.inj hs
    exact ⟨d, h.deliver base msg hsafe⟩
  | own sent =>
    have hs' : s.perform P self sent (databaseCode beyond s.loc) = some s' := hs
    rw [h.loc_eq] at hs'
    cases hpc : d.pc with
    | receive point =>
      by_cases hpoll : point = .poll
      · subst hpoll
        exact h.poll hpc hpolls hs'
      · exact h.receive hpc hpoll hs'
    | respond => exact h.respond hpc hthis hs'

/-- **The database goes on** at each point: what it has seen at the head can be received, and
    whom it answers has an entry in the table of queues. -/
theorem Serving.goesOn (h : Serving P this s d) (sent : Bool) :
    ((databaseStation P self beyond this).step s (.own sent)).isSome := by
  have hpoint := h.point
  show (s.perform P self sent (databaseCode beyond s.loc)).isSome
  rw [h.loc_eq]
  simp only [databaseCode, databaseMove]
  cases hpc : d.pc with
  | receive point =>
    rw [hpc] at hpoint
    cases point with
    | poll | receive _ => rfl
    | clone tag =>
      obtain ⟨-, req, htracks, -⟩ := hpoint
      obtain ⟨hread, -⟩ := htracks.finish s.loc
      simp only [receiveMove, Station.perform, hread, Option.map_some, Option.isSome_some]
    | drop => exact hpoint.elim
  | respond =>
    rw [hpc] at hpoint
    obtain ⟨-, -, before, e, hhandled, -, hfrom⟩ := hpoint
    have hentry : 0 ≤ d.this.currentRequesterTaskId.toInt ∧
        d.this.currentRequesterTaskId.toInt < Repository.maxTask := by
      rw [h.requester hhandled]
      exact hfrom
    simp only [hentry, and_self, if_true, Station.perform]
    split <;> rfl

end Serving

/-! ## All runs -/

/-- **The database answers requests and nothing else** in every run in which it polls nothing
    else: after any of its moves the responses sent are those to the first requests consumed,
    to their senders, and whenever it polls, to all of them; and its next move is defined. -/
theorem database_answers (P : Process) (self : Nat) (beyond : Nat → List UInt8)
    (newRec : DatabaseTask) (taskID : UInt32) {s : Station (Option DatabaseLocal)}
    (h : (databaseStation P self beyond (.create newRec taskID)).ReachableWhen
      (fun s e => SafeArrival s e ∧ PollsRequests s e) s) :
    ∃ d, s.loc = some d ∧ Answered (.create newRec taskID) s d ∧
      ∀ sent, ((databaseStation P self beyond (.create newRec taskID)).step s
        (.own sent)).isSome := by
  have hthis : (DatabaseTask.create newRec taskID).responseSize.toInt ≤ sizeofStudentInfo := by
    show (0 : Int32).toInt ≤ sizeofStudentInfo
    decide
  have hserving : ∃ d, Serving P (.create newRec taskID) s d := by
    refine ReachableWhen.invariant (P := fun s => ∃ d, Serving P (.create newRec taskID) s d)
      ?_ ?_ h
    · rintro _ ⟨mem, rfl⟩
      exact ⟨_, Serving.start _ mem⟩
    · rintro s e s' ⟨d, hd⟩ ⟨hsafe, hpolls⟩ hs
      exact hd.step hthis hsafe hpolls hs
  obtain ⟨d, hd⟩ := hserving
  exact ⟨d, hd.loc_eq, hd.answered, hd.goesOn⟩

/-- A block of memory that `malloc` may return, with 42 where the requester will be noted. -/
def usedRec : DatabaseTask := { DatabaseTask.zeroRec with currentRequesterTaskId := 42 }

/-- A new database with a new queue. -/
def newDatabase (this : DatabaseTask) : Station (Option DatabaseLocal) :=
  ⟨some (.start this), .create fun _ => 0, [], 0⟩

/-- A database whose process maps the queue at 4096. -/
def usedStation : System (Station (Option DatabaseLocal)) StationEvent :=
  databaseStation ⟨4096, .packed⟩ 1 (fun _ => []) (.create usedRec 1)

/-- A PING comes in, and the database polls it, receives it, clones and handles it, and
    responds. -/
def pingRun : List StationEvent :=
  [.own true, .arrive 8192 pingMsg, .own true, .own true, .own true, .own true]

/-- The response has been sent to task 3. -/
theorem database_answers_ping :
    ∃ s d, usedStation.runFrom (newDatabase (.create usedRec 1)) pingRun = some s ∧
      s.loc = some d ∧ d.sent.map Prod.fst = [3] ∧ Answered (.create usedRec 1) s d ∧
      ∀ sent, (usedStation.step s (.own sent)).isSome := by
  have hsent : (usedStation.runFrom (newDatabase (.create usedRec 1)) pingRun).map
      (fun s => s.loc.map fun d => d.sent.map Prod.fst) = some (some [3]) := by
    decide +kernel
  obtain ⟨s, hrun, hloc⟩ := Option.map_eq_some_iff.mp hsent
  have hmeets : usedStation.Along (fun s e => SafeArrival s e ∧ PollsRequests s e)
      (newDatabase (.create usedRec 1)) pingRun := by
    decide +kernel
  have hreach := hmeets.reachableWhen (.init ⟨fun _ => 0, rfl⟩) hrun
  obtain ⟨d, hd, hanswered, hgoesOn⟩ :=
    database_answers ⟨4096, .packed⟩ 1 (fun _ => []) usedRec 1 hreach
  rw [hd] at hloc
  exact ⟨s, d, hrun, hd, Option.some.inj hloc, hanswered, hgoesOn⟩

/-- **A response to nobody**: a response has been put into the queue of a new database, which
    leaves it there and sends a response, before any request has come, to the task whose
    number happened to stand in its memory. -/
theorem database_answers_nobody :
    (usedStation.runFrom (newDatabase (.create usedRec 1))
        [.arrive 4096 plainResponse, .own true, .own true, .own true, .own true]).map
      (fun s => (s.loc.map fun d => d.sent.map Prod.fst, s.requests)) =
    some (some [42, 42], []) := by
  -- two rounds: poll, send, poll, send; the message stays at the head
  decide +kernel

end TaskSystem
