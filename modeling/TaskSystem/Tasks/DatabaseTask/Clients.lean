import Mathlib.Tactic.SplitIfs
import TaskSystem.Tasks.DatabaseTask.ServiceSteps

/-!
# The Database Serves Its Clients as One Store

What can be seen of a service in any state that its tasks reach over their queues: every client
has received one response for each of its requests, in their order, and all responses are those
of one store that is asked one request after the other.

## Contents

- `Served`: what holds of a client
- `reachable_inService`: runs over the queues keep the order of the service
- `AnsweredByList`, `database_answers_clients`: the responses are those of a list of records
- `database_serves`: the service, over every reachable state
-/

namespace TaskSystem

open Library

variable {svc : Service} {g : ServiceProgress} {s : Net ServiceLocal Mailbox}

/-- **What client `t` has got** from database `d`: a response for each call of `receive` that has
    returned; its requests, in order, are the database's requests from `t`, and its responses the
    first of those which a store gives to `t` that starts empty and is asked all of the database's
    requests in their order. -/
structure Served (svc : Service) (d : DatabaseLocal) (t : Nat) (c : Client) (l : ClientLocal) :
    Prop where
  count : l.responses.length = l.pc.handled c.n
  requests : ∃ m, (d.handled.filter fun e => e.1.senderTaskId = Int32.ofNat t).map
      (fun e => some e.1) = (List.range m).map (c.buildRequest (Int32.ofNat t)) ∧
    l.responses.length ≤ m ∧ m ≤ l.pc.sent c.n
  responses : l.responses <+: ((d.handled.zip (svc.init.respondAll d.handled)).filter
    fun e => e.1.1.senderTaskId = Int32.ofNat t).map Prod.snd

/-! ## The order of the requests -/

/-- Choosing from a list by the keys of another one. -/
theorem filter_zip_congr {α β γ : Type*} {p : α → Bool} {q : β → Bool} {xs : List α} {ys : List β}
    (h : xs.map p = ys.map q) (zs : List γ) :
    ((xs.zip zs).filter fun e => p e.1).map Prod.snd =
      ((ys.zip zs).filter fun e => q e.1).map Prod.snd := by
  induction xs generalizing ys zs with
  | nil =>
    obtain rfl := List.map_eq_nil_iff.mp h.symm
    rfl
  | cons x xs ih =>
    cases ys with
    | nil => cases h
    | cons y ys =>
      obtain ⟨hfirst, hrest⟩ := List.cons.inj h
      cases zs with
      | nil => rfl
      | cons z zs =>
        simp only [List.zip_cons_cons, List.filter_cons, hfirst]
        split
        · rw [List.map_cons, List.map_cons, ih hrest]
        · exact ih hrest zs

theorem map_events (ps : List (Nat × Nat)) :
    (svc.events ps).map Prod.fst = ps.map svc.requestOf := by
  apply List.ext_getElem
  · simp
  · intro i h₁ h₂
    simp [Service.events]

/-- The requests of client `t` are those that name it as their sender. -/
theorem sender_iff (hadm : svc.Admitted) {t : Nat} {c : Client} (hc : svc.client t = some c)
    {p : Nat × Nat} (hp : (svc.client p.1).isSome) :
    (svc.requestOf p).senderTaskId = Int32.ofNat t ↔ p.1 = t := by
  obtain ⟨d, hd⟩ := Option.isSome_iff_exists.mp hp
  rw [(hadm.requestOf_spec hd p.2).2.1]
  exact hadm.sender_inj hd hc

namespace ServiceProgress.Valid

theorem handled_isPrefixOf (g : ServiceProgress) : g.handled <+: g.served ++ g.pending := by
  cases hpc : g.database with
  | receive point =>
    simp only [handled, hpc]
    exact List.prefix_append _ _
  | respond =>
    simp only [handled, hpc]
    exact (List.prefix_append_right_inj _).mpr (List.take_prefix _ _)

theorem served_isPrefixOf (g : ServiceProgress) : g.served <+: g.handled := by
  cases hpc : g.database with
  | receive point =>
    simp only [handled, hpc]
    exact List.prefix_refl _
  | respond =>
    simp only [handled, hpc]
    exact List.prefix_append _ _

/-- Choosing the requests of client `t` by their sender. -/
theorem filter_events (hadm : svc.Admitted) (hv : g.Valid svc) {t : Nat} {c : Client}
    (hc : svc.client t = some c) :
    (svc.events g.handled).map (fun e => decide (e.1.senderTaskId = Int32.ofNat t)) =
      g.handled.map fun p => decide (p.1 = t) := by
  have hsplit : (svc.events g.handled).map (fun e => decide (e.1.senderTaskId = Int32.ofNat t)) =
      ((svc.events g.handled).map Prod.fst).map
        fun req => decide (req.senderTaskId = Int32.ofNat t) := by
    rw [List.map_map]
    rfl
  rw [hsplit, map_events, List.map_map]
  apply List.map_congr_left
  intro p hp
  have hsender := hv.sender p ((handled_isPrefixOf g).subset hp)
  simp only [Function.comp_apply, sender_iff hadm hc hsender]

/-- The requests of client `t` that have been handled are its first ones, in order. -/
theorem handled_range (hv : g.Valid svc) {t : Nat} {c : Client}
    (hc : svc.client t = some c) :
    ∃ m, (g.handled.filter fun p => p.1 = t).map Prod.snd = List.range m ∧
      (g.toClient svc t).length ≤ m ∧ m ≤ (g.client t).sent c.n := by
  have hprefix := ((handled_isPrefixOf g).filter fun p => decide (p.1 = t)).map Prod.snd
  rw [hv.order t c hc] at hprefix
  have hle := hprefix.length_le
  rw [List.length_range] at hle
  refine ⟨((g.handled.filter fun p => p.1 = t).map Prod.snd).length, ?_, ?_, hle⟩
  · have htake := List.prefix_iff_eq_take.mp hprefix
    rwa [List.take_range, Nat.min_eq_left hle] at htake
  · rw [length_toClient, List.length_map]
    exact ((served_isPrefixOf g).filter _).length_le

/-- The requests of client `t` that have been handled are those it has built. -/
theorem events_of_client (hadm : svc.Admitted) (hv : g.Valid svc) {t : Nat} {c : Client}
    (hc : svc.client t = some c) :
    ((svc.events g.handled).filter fun e => e.1.senderTaskId = Int32.ofNat t).map
        (fun e => some e.1) =
      (g.handled.filter fun p => p.1 = t).map fun p => c.buildRequest (Int32.ofNat t) p.2 := by
  have hfilter :
      ((svc.events g.handled).filter fun e => e.1.senderTaskId = Int32.ofNat t).map Prod.fst =
        (g.handled.map svc.requestOf).filter fun req => req.senderTaskId = Int32.ofNat t := by
    rw [← map_events, List.filter_map]
    rfl
  calc ((svc.events g.handled).filter fun e => e.1.senderTaskId = Int32.ofNat t).map
        (fun e => some e.1)
      = ((g.handled.map svc.requestOf).filter fun req =>
          req.senderTaskId = Int32.ofNat t).map some := by
        rw [← hfilter, List.map_map]
        rfl
    _ = ((g.handled.filter fun p => p.1 = t).map svc.requestOf).map some := by
        rw [List.filter_map]
        congr 2
        apply List.filter_congr
        intro p hp
        have hsender := hv.sender p ((handled_isPrefixOf g).subset hp)
        simp only [Function.comp_apply, sender_iff hadm hc hsender]
    _ = (g.handled.filter fun p => p.1 = t).map fun p => c.buildRequest (Int32.ofNat t) p.2 := by
        rw [List.map_map]
        apply List.map_congr_left
        rintro ⟨u, i⟩ hp
        obtain rfl : u = t := by simpa using (List.mem_filter.mp hp).2
        exact (hadm.buildRequest_eq hc i).symm

/-- What client `t` has been sent are the responses to its requests. -/
theorem toClient_isPrefixOf (hadm : svc.Admitted) (hv : g.Valid svc) {t : Nat} {c : Client}
    (hc : svc.client t = some c) :
    g.toClient svc t <+: (((svc.events g.handled).zip
      (svc.init.respondAll (svc.events g.handled))).filter
        fun e => e.1.1.senderTaskId = Int32.ofNat t).map Prod.snd := by
  rw [filter_zip_congr (hv.filter_events hadm hc)]
  rw [toClient]
  apply List.IsPrefix.map
  apply List.IsPrefix.filter
  cases hpc : g.database with
  | receive point =>
    simp only [handled, hpc]
    exact List.prefix_refl _
  | respond =>
    have hpending := hv.database
    rw [hpc] at hpending
    obtain ⟨p, rest, hpending⟩ := List.exists_cons_of_ne_nil hpending
    have hhandled : g.handled = g.served ++ [p] := by
      simp only [handled, hpc, hpending]
      rfl
    rw [hhandled, Service.events_append, DatabaseTask.respondAll_append]
    have hlen : g.served.length = (svc.init.respondAll (svc.events g.served)).length :=
      length_answers.symm
    rw [List.zip_append hlen]
    exact List.prefix_append _ _

end ServiceProgress.Valid

/-- A client has received what it is to receive. -/
theorem clientLocal_served (hadm : svc.Admitted) (hv : g.Valid svc) {t : Nat} {c : Client}
    (hc : svc.client t = some c) :
    Served svc (g.databaseLocal svc) t c (g.clientLocal svc t c) := by
  have hcount : ((g.toClient svc t).take ((g.client t).handled c.n)).length =
      (g.client t).handled c.n := by
    rw [List.length_take, Nat.min_eq_left (hv.handled_le t c hc)]
  obtain ⟨m, hrange, hle, hsent⟩ := hv.handled_range hc
  refine ⟨hcount, ⟨m, ?_, ?_, hsent⟩, ?_⟩
  · show ((svc.events g.handled).filter fun e => e.1.senderTaskId = Int32.ofNat t).map _ = _
    rw [← hrange, hv.events_of_client hadm hc, List.map_map]
    rfl
  · show ((g.toClient svc t).take ((g.client t).handled c.n)).length ≤ m
    rw [hcount]
    exact Nat.le_trans (hv.handled_le t c hc) hle
  · exact (List.take_prefix _ _).trans (hv.toClient_isPrefixOf hadm hc)

/-! ## Runs over the queues -/

/-- **Run**: whatever the tasks do, their queues stand for logs in the order of the service. -/
theorem reachable_inService (hadm : svc.Admitted) {map : Mapping}
    (h : (serviceNetwork svc map).Reachable s) :
    ∃ a, s.Tracks (mailboxes_carry map fun _ => 200) a ∧ InService svc a :=
  Carries.reachable _ ⟨.start, service_start_valid svc, service_start_matches hadm⟩
    (allows_service hadm) h

/-- A client that has no response to take has its request with the database. -/
theorem ServiceProgress.Valid.pending_of_waiting (hv : g.Valid svc) {t : Nat} {c : Client}
    (hc : svc.client t = some c) (hnone : (g.toClient svc t).length ≤ (g.client t).taken c.n)
    (hwaits : (g.client t).sent c.n ≠ (g.client t).taken c.n) : g.pending ≠ [] := by
  intro hpending
  have hsent := (hv.pending_le hc).1
  rw [hpending] at hsent
  have htaken : (g.client t).taken c.n ≤ (g.client t).sent c.n := by
    cases g.client t with
    | request i | finished => exact Nat.le_refl _
    | receive i point => cases point <;> simp [ClientPc.taken, ClientPc.sent, ReceivePoint.dequeued]
  simp only [List.filter_nil, List.length_nil] at hsent
  omega

/-- **The database serves its clients as one store.** In every state that the database and its
    clients reach, in any order of their steps: what they send next will be accepted and no task
    is stuck, every client has received its responses as `Served` says, the queue of a client
    that waits for no response is empty, and for a client that waits there is a response in its
    queue or the database has work to do. -/
theorem database_serves (hadm : svc.Admitted) (map : Mapping)
    (h : (serviceNetwork svc map).Reachable s) :
    s.Sound (mailboxes map) svc.code ∧
      ∃ d dmb, s.tasks svc.database = some (.database d) ∧ s.channels svc.database = some dmb ∧
        ∀ t c, svc.client t = some c → ∃ l mb, s.tasks t = some (.client c l) ∧
          s.channels t = some mb ∧ Served svc d t c l ∧
          (l.pc.sent c.n = l.pc.handled c.n → isEmpty mb.Q = 1) ∧
          (l.pc.sent c.n ≠ l.pc.taken c.n →
            isEmpty mb.Q = 0 ∨ isEmpty dmb.Q = 0 ∨ d.pc ≠ .receive .poll) := by
  obtain ⟨a, htracks, hservice⟩ := reachable_inService hadm h
  have hsound := Carries.sound htracks fun t l => allows_service hadm a t l hservice
  obtain ⟨g, hv, hm⟩ := hservice
  obtain ⟨dmb, hdmb, hdlog⟩ := htracks.channel hm.databaseChannel
  refine ⟨hsound, g.databaseLocal svc, dmb, by rw [htracks.tasks, hm.databaseTask], hdmb, ?_⟩
  intro t c hc
  obtain ⟨mb, hmb, hlog⟩ := htracks.channel (hm.clientChannels t c hc)
  refine ⟨g.clientLocal svc t c, mb, by rw [htracks.tasks, hm.clientTasks t c hc], hmb,
    clientLocal_served hadm hv hc, ?_, ?_⟩
  · intro hidle
    apply Mailbox.TracksLog.isEmpty hlog
    have hlen := (hv.pending_le hc).1
    have htaken := (g.client t).handled_le_taken c.n
    have hidle' : (g.client t).sent c.n = (g.client t).handled c.n := hidle
    show ((g.toClient svc t).map AnyMsg.response).length ≤ (g.client t).taken c.n
    rw [List.length_map]
    omega
  · intro hwaits
    by_cases hresponse : (g.clientLog svc t c).accepted.length ≤ (g.clientLog svc t c).taken
    · -- its request has not been answered, so the database has it
      right
      by_cases hpoll : g.database = .receive .poll
      · left
        apply Mailbox.TracksLog.not_isEmpty hdlog
        have hnone : (g.toClient svc t).length ≤ (g.client t).taken c.n := by
          simpa [ServiceProgress.clientLog] using hresponse
        have hpending := List.length_pos_of_ne_nil (hv.pending_of_waiting hc hnone hwaits)
        show g.served.length + _ < (g.toDatabase svc).length
        rw [hpoll, ServiceProgress.toDatabase, List.length_map, List.length_append]
        show g.served.length + 0 < _
        omega
      · exact .inr hpoll
    · exact .inl (Mailbox.TracksLog.not_isEmpty hlog (Nat.lt_of_not_le hresponse))

/-! ## The answers of a list of records -/

section Answers

open DatabaseTask

variable {d : DatabaseLocal} {t : Nat} {c : Client} {l : ClientLocal}

/-- **What client `t` has been answered** is what a list of records, empty at first, answers to it
    when it is asked all of the database's requests in their order. -/
def AnsweredByList (d : DatabaseLocal) (t : Nat) (l : ClientLocal) : Prop :=
  l.responses.map asAnswer <+:
    ((d.handled.zip (answerAll [] (d.handled.map fun e => asQuery e.1))).filter
      fun e => e.1.1.senderTaskId = Int32.ofNat t).map Prod.snd

/-- Reading the values of a list that has been chosen by the keys of another one. -/
theorem map_filter_zip {α β γ : Type*} (p : α → Bool) (f : β → γ) (xs : List α) (ys : List β) :
    (((xs.zip ys).filter fun e => p e.1).map Prod.snd).map f =
      ((xs.zip (ys.map f)).filter fun e => p e.1).map Prod.snd := by
  rw [List.zip_map_right, List.filter_map, List.map_map, List.map_map]
  rfl

/-- The id of a record or of a search is read back from the payload. -/
theorem requestId_selData {req : RequestMsg} {i : Nat} (h : req.data = Client.selData i) :
    requestId req = Int64.ofNat i := by
  have hslice : slice (([] : List UInt8) ++ ((longBytes (Int64.ofNat i)).1 ++ [])) 0 8 =
      longBytes (Int64.ofNat i) := slice_append _ rfl
  rw [List.nil_append, List.append_nil] at hslice
  have hid : requestId req = ofLongBytes (slice req.data 0 8) := rfl
  rw [hid, h, Client.selData, hslice, ofLongBytes_longBytes]

theorem requestId_studentData {req : RequestMsg} {c : Client} {i : Nat}
    (h : req.data = (c.studentData i).bytes) : requestId req = Int64.ofNat i := by
  have hread := congrArg StudentInfo.id (StudentInfo.ofBytes_bytes (c.studentData i) [])
  rw [List.append_nil] at hread
  rw [requestId, h]
  exact hread

/-- A turn of a client's loop is no -1. -/
theorem ofNat_ne_neg_one {i : Nat} (h : i < 2 ^ 31) : Int64.ofNat i ≠ -1 := by
  intro heq
  have hint := congrArg Int64.toInt heq
  rw [Int64.toInt_ofNat_of_lt (by omega)] at hint
  have hneg : (-1 : Int64).toInt = -1 := by decide
  omega

/-- **What a client sends** is a request of a known type with a payload for it. -/
theorem wellFormed_requestOf (hadm : svc.Admitted) {t : Nat} {c : Client}
    (hc : svc.client t = some c) {i : Nat} (hi : i < 2 ^ 31) :
    DatabaseTask.WellFormed (svc.requestOf (t, i)) := by
  have hbuild := hadm.buildRequest_eq hc i
  have hid := ofNat_ne_neg_one hi
  have hne : (2 : Int32) ≠ 1 ∧ (4 : Int32) ≠ 1 ∧ (4 : Int32) ≠ 2 ∧ (4 : Int32) ≠ 3 := by decide
  have hselect : selectRequest ≠ insertRequest ∧ selectRequest ≠ deleteRequest := by decide
  have hinsert : insertRequest ≠ selectRequest ∧ insertRequest ≠ deleteRequest := by decide
  have hping : pingRequest ≠ selectRequest ∧ pingRequest ≠ insertRequest ∧
      pingRequest ≠ deleteRequest := by decide
  rcases hadm.reqType t c i hc with htype | htype | htype
  · simp only [Client.buildRequest, htype, if_true, Option.some.injEq] at hbuild
    rw [← hbuild]
    have hlen : (Client.selData i).length = sizeofSelectInfo := (longBytes _).2
    refine ⟨.inl rfl, ⟨fun _ => Nat.le_of_eq hlen.symm, ?_, ?_⟩, fun _ => ?_⟩
    · exact fun h => absurd h hselect.1
    · exact fun h => absurd h hselect.2
    · rw [requestId_selData rfl]
      exact hid
  · simp only [Client.buildRequest, htype, hne.1, if_false, if_true, Option.some.injEq] at hbuild
    rw [← hbuild]
    have hlen := StudentInfo.length_bytes (c.studentData i)
    refine ⟨.inr (.inl rfl), ⟨?_, fun _ => Nat.le_of_eq hlen.symm, ?_⟩, fun _ => ?_⟩
    · exact fun h => absurd h hinsert.1
    · exact fun h => absurd h hinsert.2
    · rw [requestId_studentData rfl]
      exact hid
  · simp only [Client.buildRequest, htype, hne, if_false, if_true, Option.some.injEq] at hbuild
    rw [← hbuild]
    refine ⟨.inr (.inr (.inr rfl)), ⟨?_, ?_, ?_⟩, fun h => absurd rfl h⟩
    · exact fun h => absurd h hping.1
    · exact fun h => absurd h hping.2.1
    · exact fun h => absurd h hping.2.2

/-- A client's loop takes fewer turns than an `int` can count. -/
theorem ServiceProgress.Valid.turn_lt (hv : g.Valid svc) {p : Nat × Nat}
    (hp : p ∈ g.served ++ g.pending) : p.2 < 2 ^ 31 := by
  obtain ⟨c, hc⟩ := Option.isSome_iff_exists.mp (hv.sender p hp)
  have hmem : p.2 ∈ List.range ((g.client p.1).sent c.n) := by
    rw [← hv.order p.1 c hc]
    exact List.mem_map_of_mem (List.mem_filter.mpr ⟨hp, decide_eq_true rfl⟩)
  have hlt := List.mem_range.mp hmem
  have hvalid := hv.client p.1 c hc
  have hsent : (g.client p.1).sent c.n ≤ c.n := by
    cases hpc : g.client p.1 with
    | request i =>
      rw [hpc] at hvalid
      exact hvalid
    | receive i point =>
      rw [hpc] at hvalid
      exact hvalid.1
    | finished => exact Nat.le_refl _
  have hmax := c.nbRequest.toInt_lt
  have hn : c.n = c.nbRequest.toInt.toNat := rfl
  omega

/-- **The responses of a client are those of the list**, while the database has been asked to
    insert no more records than its table has slots. -/
theorem Served.answers (h : Served svc d t c l) (hw : ∀ e ∈ d.handled, DatabaseTask.WellFormed e.1)
    (hroom : d.handled.countP (fun e => e.1.requestType = insertRequest) ≤ maxStudent) :
    AnsweredByList d t l := by
  have hlist : (svc.init.respondAll d.handled).map asAnswer =
      answerAll [] (d.handled.map fun e => asQuery e.1) := by
    apply (refines_create svc.newRec _).respondAll_eq d.handled hw
    rw [show (create svc.newRec (UInt32.ofNat svc.database)).studentCount = 0 from rfl,
      Nat.zero_add]
    exact hroom
  have hprefix := h.responses.map asAnswer
  have hvalues := map_filter_zip
    (fun e : RequestMsg × List UInt8 => decide (e.1.senderTaskId = Int32.ofNat t)) asAnswer
    d.handled (svc.init.respondAll d.handled)
  rw [hlist] at hvalues
  rw [AnsweredByList, ← hvalues]
  exact hprefix

/-- **The database answers its clients as one list of records**: in every state that it and its
    clients reach, in any order of their steps, while it has been asked to insert at most
    `MAX_STUDENT` records. -/
theorem database_answers_clients (hadm : svc.Admitted) (map : Mapping)
    (h : (serviceNetwork svc map).Reachable s) :
    ∃ d, s.tasks svc.database = some (.database d) ∧
      (d.handled.countP (fun e => e.1.requestType = insertRequest) ≤ maxStudent →
        ∀ t c, svc.client t = some c →
          ∃ l, s.tasks t = some (.client c l) ∧ AnsweredByList d t l) := by
  obtain ⟨a, htracks, g, hv, hm⟩ := reachable_inService hadm h
  refine ⟨g.databaseLocal svc, by rw [htracks.tasks, hm.databaseTask], ?_⟩
  intro hroom t c hc
  refine ⟨g.clientLocal svc t c, by rw [htracks.tasks, hm.clientTasks t c hc], ?_⟩
  apply (clientLocal_served hadm hv hc).answers _ hroom
  -- every request handled has been built by a client
  intro e he
  obtain ⟨p, hp, hreq⟩ : ∃ p ∈ g.handled, svc.requestOf p = e.1 := by
    have hmem := List.mem_map_of_mem (f := Prod.fst) he
    rw [show (g.databaseLocal svc).handled = svc.events g.handled from rfl, map_events] at hmem
    exact List.mem_map.mp hmem
  have hsent := (ServiceProgress.Valid.handled_isPrefixOf g).subset hp
  obtain ⟨c', hc'⟩ := Option.isSome_iff_exists.mp (hv.sender p hsent)
  rw [← hreq]
  exact wellFormed_requestOf hadm hc' (hv.turn_lt hsent)

end Answers

/-- A database with two clients; the first inserts a record and the second selects it. -/
def insertAndSelect : Service where
  database := 1
  newRec := DatabaseTask.zeroRec
  beyond _ := []
  client t :=
    if t = 2 then some ⟨1, fun _ => 2, fun _ => slice [] 0 2, fun _ => slice [] 0 4⟩
    else if t = 3 then some ⟨1, fun _ => 1, fun _ => slice [] 0 2, fun _ => slice [] 0 4⟩
    else none

theorem insertAndSelect_admitted : insertAndSelect.Admitted where
  database_lt := by decide
  database_free := rfl
  client_lt t c hc := by
    simp only [insertAndSelect] at hc
    unfold Repository.maxTask
    split_ifs at hc <;> omega
  reqType t c i hc := by
    simp only [insertAndSelect] at hc
    split_ifs at hc <;> cases hc
    · exact .inr (.inl rfl)
    · exact .inl rfl

/-- Every queue in a segment of its own, which every process maps at the same address. -/
def oneMapping : Mapping := ⟨fun _ => ⟨8192, .packed⟩, fun _ _ => 4096, fun _ _ => 0⟩

/-- Both requests are sent before the database handles them, and then both clients get their
    responses. -/
def insertAndSelectRun : List Nat :=
  [2, 3] ++ List.replicate 8 1 ++ List.replicate 4 2 ++ List.replicate 4 3

/-- What a client has been answered. -/
def ServiceLocal.answered : ServiceLocal → List DatabaseTask.Answer
  | .client _ l => l.responses.map DatabaseTask.asAnswer
  | _ => []

/-- The state after this run: the INSERT has been granted, and the SELECT has got the record. -/
theorem insertAndSelect_run : ∃ s,
    (serviceNetwork insertAndSelect oneMapping).Reachable s ∧
      (s.tasks 2).map ServiceLocal.answered = some [⟨responseOk, none⟩] ∧
      (s.tasks 3).map ServiceLocal.answered =
        some [⟨responseOk, some ⟨0, clientName, ⟨[0x9A, 0x99, 0x89, 0x40], rfl⟩⟩⟩] ∧
      ((s.tasks 1).bind ServiceLocal.database?).map (fun d => (d.sent.map Prod.fst,
        d.handled.countP fun e => e.1.requestType = insertRequest)) = some ([2, 3], 1) := by
  have hrun : ((network (Log.medium tagOf) insertAndSelect.code insertAndSelect.initialTasks
      Repository.maxTask).runFrom
        (.start (Log.medium tagOf) insertAndSelect.initialTasks Repository.maxTask)
        insertAndSelectRun).map (fun a => ((a.tasks 2).map ServiceLocal.answered,
          (a.tasks 3).map ServiceLocal.answered,
          ((a.tasks 1).bind ServiceLocal.database?).map fun d => (d.sent.map Prod.fst,
            d.handled.countP fun e => e.1.requestType = insertRequest))) =
      some (some [⟨responseOk, none⟩],
        some [⟨responseOk, some ⟨0, clientName, ⟨[0x9A, 0x99, 0x89, 0x40], rfl⟩⟩⟩],
        some ([2, 3], 1)) := by
    decide +kernel
  obtain ⟨a, ha, hobs⟩ := Option.map_eq_some_iff.mp hrun
  obtain ⟨hinsert, hrest⟩ := Prod.mk.inj hobs
  obtain ⟨hselect, hsent⟩ := Prod.mk.inj hrest
  obtain ⟨s, hs, htracks, -⟩ := Carries.replay (allows_service insertAndSelect_admitted)
    (Net.Tracks.start (mailboxes_carry oneMapping fun _ => 200) insertAndSelect.initialTasks
      Repository.maxTask)
    ⟨.start, service_start_valid _, service_start_matches insertAndSelect_admitted⟩ _ ha
  have hstart : (serviceNetwork insertAndSelect oneMapping).Reachable
      (.start (mailboxes oneMapping) insertAndSelect.initialTasks Repository.maxTask) := .init rfl
  exact ⟨s, hstart.runFrom _ hs, by rw [htracks.tasks, hinsert], by rw [htracks.tasks, hselect],
    by rw [htracks.tasks, hsent]⟩

/-- The SELECT has got the record that the other client has inserted. -/
theorem database_answers_clients_insertAndSelect : ∃ s d,
    (serviceNetwork insertAndSelect oneMapping).Reachable s ∧
      (s.tasks 3).map ServiceLocal.answered =
        some [⟨responseOk, some ⟨0, clientName, ⟨[0x9A, 0x99, 0x89, 0x40], rfl⟩⟩⟩] ∧
      s.tasks 1 = some (.database d) ∧ ∀ t c, insertAndSelect.client t = some c →
        ∃ l, s.tasks t = some (.client c l) ∧ AnsweredByList d t l := by
  obtain ⟨s, hreach, -, hselect, hsent⟩ := insertAndSelect_run
  obtain ⟨d, hd, hanswered⟩ :=
    database_answers_clients insertAndSelect_admitted oneMapping hreach
  refine ⟨s, d, hreach, hselect, hd, hanswered ?_⟩
  -- one INSERT has been handled
  rw [show s.tasks 1 = some (.database d) from hd] at hsent
  have hone := (Prod.mk.inj (Option.some.inj hsent)).2
  rw [hone]
  decide

/-- In the end both clients have got their responses, and the SELECT the record. -/
theorem database_serves_insertAndSelect :
    ∃ s, (serviceNetwork insertAndSelect oneMapping).Reachable s ∧
      s.Sound (mailboxes oneMapping) insertAndSelect.code ∧
      (s.tasks 3).map ServiceLocal.answered =
        some [⟨responseOk, some ⟨0, clientName, ⟨[0x9A, 0x99, 0x89, 0x40], rfl⟩⟩⟩] ∧
      ∃ d, s.tasks 1 = some (.database d) ∧ d.sent.map Prod.fst = [2, 3] ∧
        ∀ t c, insertAndSelect.client t = some c →
          ∃ l, s.tasks t = some (.client c l) ∧ Served insertAndSelect d t c l := by
  obtain ⟨s, hreach, -, hselect, hsent⟩ := insertAndSelect_run
  obtain ⟨hsound, d, dmb, hd, -, hclients⟩ :=
    database_serves insertAndSelect_admitted oneMapping hreach
  refine ⟨s, hreach, hsound, hselect, d, hd, ?_, ?_⟩
  · rw [show s.tasks 1 = some (.database d) from hd] at hsent
    exact (Prod.mk.inj (Option.some.inj hsent)).1
  · intro t c hc
    obtain ⟨l, mb, hl, -, hserved, -⟩ := hclients t c hc
    exact ⟨l, hl, hserved⟩

end TaskSystem
