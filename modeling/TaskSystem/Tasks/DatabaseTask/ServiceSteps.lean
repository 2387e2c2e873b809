import TaskSystem.Tasks.DatabaseTask.Service

/-!
# Every Step of a Service Keeps Its Order

What the tasks of a service may rely on, and that every move of the database and of its clients
leads from a state determined by a valid progress to such a state.

## Contents

- `toClient_serve`, `pending_le`: responses sent, requests outstanding
- `InService`: the invariant
- `allows_database`, `allows_client`: one lemma for each task
- `allows_service`: all moves keep the invariant
-/

namespace TaskSystem

open Library

variable {svc : Service} {g g' : ServiceProgress} {a : Net ServiceLocal (Log AnyMsg)}

/-! ## What one step changes -/

/-- A client is the one that moves, or another. -/
theorem Service.client_cases {t u : Nat} {c d : Client} (hc : svc.client t = some c)
    (hd : svc.client u = some d) : (t = u ∧ c = d) ∨ t ≠ u := by
  by_cases htu : t = u
  · subst htu
    exact .inl ⟨rfl, Option.some.inj (hc.symm.trans hd)⟩
  · exact .inr htu

namespace ServiceProgress.Matches

/-- A client is not the database. -/
theorem ne_database (hadm : svc.Admitted) {t : Nat} {c : Client} (hc : svc.client t = some c) :
    t ≠ svc.database := by
  rintro rfl
  rw [hadm.database_free] at hc
  cases hc

/-- A step of the database on its own queue. -/
theorem database (hadm : svc.Admitted) (h : g.Matches svc a)
    (hclient : ∀ t c, svc.client t = some c → g'.clientLocal svc t c = g.clientLocal svc t c ∧
      g'.clientLog svc t c = g.clientLog svc t c) :
    g'.Matches svc ((a.setChannel svc.database (g'.databaseLog svc)).resume svc.database
      (.database (g'.databaseLocal svc))) := by
  constructor
  · simp
  · intro t c hc
    simp [ne_database hadm hc, h.clientTasks t c hc, (hclient t c hc).1]
  · intro t ht hnone
    simp [ht, h.noTasks t ht hnone]
  · simp
  · intro t c hc
    simp [ne_database hadm hc, h.clientChannels t c hc, (hclient t c hc).2]

/-- The database sends to client `u`. -/
theorem databaseSend (hadm : svc.Admitted) (h : g.Matches svc a) {u : Nat} {d : Client}
    (hd : svc.client u = some d) (hlog : g'.databaseLog svc = g.databaseLog svc)
    (hlocal : ∀ t c, svc.client t = some c → g'.clientLocal svc t c = g.clientLocal svc t c)
    (hother : ∀ t c, t ≠ u → svc.client t = some c →
      g'.clientLog svc t c = g.clientLog svc t c) :
    g'.Matches svc ((a.setChannel u (g'.clientLog svc u d)).resume svc.database
      (.database (g'.databaseLocal svc))) := by
  have hu := ne_database hadm hd
  constructor
  · simp
  · intro t c hc
    simp [ne_database hadm hc, h.clientTasks t c hc, hlocal t c hc]
  · intro t ht hnone
    simp [ht, h.noTasks t ht hnone]
  · simp [hu.symm, h.databaseChannel, hlog]
  · intro t c hc
    rcases Service.client_cases hc hd with ⟨rfl, rfl⟩ | htu
    · simp
    · simp [htu, h.clientChannels t c hc, hother t c htu hc]

/-- A step of client `u` on its own queue. -/
theorem client (hadm : svc.Admitted) (h : g.Matches svc a) {u : Nat} {d : Client}
    (hd : svc.client u = some d) (hdatabase : g'.databaseLocal svc = g.databaseLocal svc)
    (hlog : g'.databaseLog svc = g.databaseLog svc)
    (hother : ∀ t c, t ≠ u → svc.client t = some c →
      g'.clientLocal svc t c = g.clientLocal svc t c ∧
        g'.clientLog svc t c = g.clientLog svc t c) :
    g'.Matches svc ((a.setChannel u (g'.clientLog svc u d)).resume u
      (.client d (g'.clientLocal svc u d))) := by
  have hu := ne_database hadm hd
  constructor
  · simp [hu.symm, h.databaseTask, hdatabase]
  · intro t c hc
    rcases Service.client_cases hc hd with ⟨rfl, rfl⟩ | htu
    · simp
    · simp [htu, h.clientTasks t c hc, (hother t c htu hc).1]
  · intro t ht hnone
    have htu : t ≠ u := by
      rintro rfl
      rw [hnone] at hd
      cases hd
    simp [htu, h.noTasks t ht hnone]
  · simp [hu.symm, h.databaseChannel, hlog]
  · intro t c hc
    rcases Service.client_cases hc hd with ⟨rfl, rfl⟩ | htu
    · simp
    · simp [htu, h.clientChannels t c hc, (hother t c htu hc).2]

/-- Client `u` sends to the database. -/
theorem clientSend (hadm : svc.Admitted) (h : g.Matches svc a) {u : Nat} {d : Client}
    (hd : svc.client u = some d) (hdatabase : g'.databaseLocal svc = g.databaseLocal svc)
    (hlog : ∀ t c, svc.client t = some c → g'.clientLog svc t c = g.clientLog svc t c)
    (hother : ∀ t c, t ≠ u → svc.client t = some c →
      g'.clientLocal svc t c = g.clientLocal svc t c) :
    g'.Matches svc ((a.setChannel svc.database (g'.databaseLog svc)).resume u
      (.client d (g'.clientLocal svc u d))) := by
  have hu := ne_database hadm hd
  constructor
  · simp [hu.symm, h.databaseTask, hdatabase]
  · intro t c hc
    rcases Service.client_cases hc hd with ⟨rfl, rfl⟩ | htu
    · simp
    · simp [htu, h.clientTasks t c hc, hother t c htu hc]
  · intro t ht hnone
    have htu : t ≠ u := by
      rintro rfl
      rw [hnone] at hd
      cases hd
    simp [htu, h.noTasks t ht hnone]
  · simp
  · intro t c hc
    simp [ne_database hadm hc, h.clientChannels t c hc, hlog t c hc]

end ServiceProgress.Matches

/-! ## Requests outstanding -/

/-- A client sends the next request when it has handled the last response. -/
theorem ClientPc.sent_le (n : Nat) (pc : ClientPc) : pc.sent n ≤ pc.handled n + 1 := by
  cases pc with
  | request i | finished => exact Nat.le_succ _
  | receive i point => exact Nat.le_refl _

namespace ServiceProgress

theorem length_answers : (g.answers svc).length = g.served.length := by
  rw [answers, DatabaseTask.length_respondAll, Service.length_events]

/-- Every request answered has sent its client a response. -/
theorem length_toClient (t : Nat) :
    (g.toClient svc t).length = (g.served.filter fun p => p.1 = t).length := by
  have hfst : ((g.served.zip (g.answers svc)).map Prod.fst) = g.served :=
    List.map_fst_zip (Nat.le_of_eq length_answers.symm)
  rw [toClient, List.length_map]
  conv_rhs => rw [← hfst, List.filter_map, List.length_map]
  rfl

/-- The answer to the first request outstanding goes to its client. -/
theorem toClient_serve (p : Nat × Nat) (rest : List (Nat × Nat)) (pc : DatabasePc) (t : Nat) :
    let response := (svc.init.afterAll (svc.events (g.served ++ [p]))).response
    ({ g with database := pc, served := g.served ++ [p], pending := rest } :
        ServiceProgress).toClient svc t =
      g.toClient svc t ++ if p.1 = t then [response] else [] := by
  intro response
  -- the answers to the requests served before stay the same
  have hanswers : svc.init.respondAll (svc.events (g.served ++ [p])) =
      g.answers svc ++ [response] := by
    rw [Service.events_append, DatabaseTask.respondAll_append, ← Service.events_append]
    rfl
  simp only [toClient, answers]
  rw [hanswers, List.zip_append length_answers.symm, List.filter_append, List.map_append]
  congr 1
  by_cases hp : p.1 = t
  · simp [hp]
  · simp [hp]

namespace Valid

/-- A client has at most one request outstanding. -/
theorem pending_le (hv : g.Valid svc) {t : Nat} {c : Client} (hc : svc.client t = some c) :
    (g.toClient svc t).length + (g.pending.filter fun p => p.1 = t).length =
        (g.client t).sent c.n ∧
      (g.pending.filter fun p => p.1 = t).length ≤ 1 := by
  have hserved : (g.toClient svc t).length = _ := length_toClient t
  have hlen := congrArg List.length (hv.order t c hc)
  rw [List.length_map, List.length_range, List.filter_append, List.length_append,
    ← hserved] at hlen
  have hle := hv.handled_le t c hc
  have hsent := (g.client t).sent_le c.n
  refine ⟨hlen, ?_⟩
  omega

/-- There are no more requests outstanding than there may be tasks. -/
theorem length_pending_le (hadm : svc.Admitted) (hv : g.Valid svc) : g.pending.length ≤ 100 := by
  have hclient : ∀ t ∈ g.pending.map Prod.fst, ∃ c, svc.client t = some c := by
    intro t ht
    obtain ⟨p, hp, rfl⟩ := List.mem_map.mp ht
    exact Option.isSome_iff_exists.mp (hv.sender p (List.mem_append_right _ hp))
  -- no client is outstanding twice, and clients have IDs below 100
  have hnodup : (g.pending.map Prod.fst).Nodup := by
    apply List.nodup_iff_count.mpr
    intro t
    by_cases ht : t ∈ g.pending.map Prod.fst
    · obtain ⟨c, hc⟩ := hclient t ht
      have hle := (hv.pending_le hc).2
      rw [← List.countP_eq_length_filter] at hle
      rw [List.count, List.countP_map]
      exact hle
    · rw [List.count_eq_zero_of_not_mem ht]
      exact Nat.zero_le 1
  rw [← List.length_map (f := Prod.fst)]
  apply length_le_of_nodup hnodup
  intro t ht
  obtain ⟨c, hc⟩ := hclient t ht
  exact hadm.client_lt t c hc

end Valid

end ServiceProgress

/-! ## The invariant -/

/-- The tasks and queues are where some valid progress puts them. -/
def InService (svc : Service) (a : Net ServiceLocal (Log AnyMsg)) : Prop :=
  ∃ g : ServiceProgress, g.Valid svc ∧ g.Matches svc a

/-- What has to be shown of a move; no record is larger than 200 bytes. -/
abbrev Serves (svc : Service) (a : Net ServiceLocal (Log AnyMsg)) (t : Nat)
    (mv : Move AnyMsg Int32 ServiceLocal) : Prop :=
  Allows tagOf (fun _ q msg => Roomy 200 q msg) (InService svc) a t mv

theorem service_start_valid (svc : Service) : ServiceProgress.start.Valid svc where
  database := trivial
  sender _ hp := absurd hp List.not_mem_nil
  order _ _ _ := rfl
  handled_le _ _ _ := Nat.zero_le _
  client _ _ _ := Nat.zero_le _

theorem service_start_matches (hadm : svc.Admitted) : ServiceProgress.start.Matches svc
    (.start (Log.medium tagOf) svc.initialTasks Repository.maxTask) where
  databaseTask := by
    simp only [Net.start, Service.initialTasks, if_true]
    rfl
  clientTasks t c hc := by
    simp only [Net.start, Service.initialTasks,
      ServiceProgress.Matches.ne_database hadm hc, if_false, hc]
    rfl
  noTasks t ht hnone := by simp [Net.start, Service.initialTasks, ht, hnone]
  databaseChannel := by
    simp only [Net.start, Service.initialTasks, if_true]
    rfl
  clientChannels t c hc := by
    simp only [Net.start, Service.initialTasks,
      ServiceProgress.Matches.ne_database hadm hc, if_false, hc]
    rfl

/-! ## The database -/

/-- What the database may rely on about its next message. -/
theorem databaseSwitch_request (req : RequestMsg) (h : req.tag = requestMsgTag) :
    0 ≤ (AnyMsg.request req).tag ∧ databaseSwitch (AnyMsg.request req).tag = .handle := by
  rw [AnyMsg.tag, h]
  decide

/-- The next message for the database is the first request outstanding. -/
theorem toDatabase_next : (g.toDatabase svc)[g.served.length]? =
    g.pending.head?.map fun p => .request (svc.requestOf p) := by
  rw [ServiceProgress.toDatabase, List.map_append,
    List.getElem?_append_right (by rw [List.length_map]), List.length_map, Nat.sub_self,
    List.getElem?_map, List.head?_eq_getElem?]

/-- The database goes on to `pc`. -/
def ServiceProgress.atDatabase (g : ServiceProgress) (pc : DatabasePc) : ServiceProgress :=
  { g with database := pc }

theorem atDatabase_valid (hv : g.Valid svc) {pc : DatabasePc}
    (hpc : match pc with
      | .receive point => point.Ready (g.toDatabase svc)[g.served.length]?
      | .respond => g.pending ≠ []) : (g.atDatabase pc).Valid svc where
  database := hpc
  sender := hv.sender
  order := hv.order
  handled_le := hv.handled_le
  client := hv.client

/-- Within `receive` only the point changes. -/
theorem databaseGoto_receive {point : ReceivePoint} (hpc : g.database = .receive point)
    (p : ReceivePoint) : (g.databaseLocal svc).goto (.receive p) =
      (g.atDatabase (.receive p)).databaseLocal svc := by
  have hhandled : (g.atDatabase (.receive p)).handled = g.handled := by
    simp only [ServiceProgress.handled, hpc]
    rfl
  simp only [ServiceProgress.databaseLocal, hhandled]
  rfl

theorem code_databaseReceive {point : ReceivePoint} (hpc : g.database = .receive point) :
    svc.code (.database (g.databaseLocal svc)) =
      receiveMove databaseSwitch
        (fun p => .database ((g.atDatabase (.receive p)).databaseLocal svc))
        (fun _ => databaseHandle svc.beyond .database .crashed (g.databaseLocal svc))
        (.database ((g.databaseLocal svc).goto .respond)) point := by
  have hpc' : (g.databaseLocal svc).pc = .receive point := hpc
  simp only [Service.code, databaseMove, hpc', databaseGoto_receive hpc]

/-- The next message for the database is a request of a client. -/
theorem toDatabase_request (hadm : svc.Admitted) (hv : g.Valid svc) {msg : AnyMsg}
    (hmsg : (g.toDatabase svc)[g.served.length]? = some msg) :
    ∃ p rest, g.pending = p :: rest ∧ msg = .request (svc.requestOf p) ∧
      (0 ≤ msg.tag ∧ databaseSwitch msg.tag = .handle) := by
  rw [toDatabase_next] at hmsg
  obtain ⟨p, hp, rfl⟩ := Option.map_eq_some_iff.mp hmsg
  obtain ⟨rest, hrest⟩ := List.head?_eq_some_iff.mp hp
  have hmem : p ∈ g.served ++ g.pending := by simp [hrest]
  obtain ⟨c, hc⟩ := Option.isSome_iff_exists.mp (hv.sender p hmem)
  exact ⟨p, rest, hrest, rfl, databaseSwitch_request _ (hadm.requestOf_spec hc p.2).1⟩

/-- At the poll either nothing is there, or the first request outstanding. -/
theorem allows_databasePoll (hadm : svc.Admitted) (hv : g.Valid svc) (hm : g.Matches svc a)
    (hpc : g.database = .receive .poll) :
    Serves svc a svc.database (svc.code (.database (g.databaseLocal svc))) := by
  have hself : a.tasks svc.database =
      some (.database ((g.atDatabase (.receive .poll)).databaseLocal svc)) := by
    rw [hm.databaseTask, ← databaseGoto_receive hpc, DatabaseLocal.goto, ← hpc]
    rfl
  rw [code_databaseReceive hpc]
  apply allows_poll hm.databaseChannel hself ⟨g, hv, hm⟩
  intro msg hmsg
  have hmsg' : (g.toDatabase svc)[g.served.length]? = some msg := by
    simp only [Log.next?, ServiceProgress.databaseLog, hpc, ReceivePoint.dequeued,
      Nat.add_zero] at hmsg
    exact hmsg
  obtain ⟨p, rest, -, -, htag, hswitch⟩ := toDatabase_request hadm hv hmsg'
  have hvalid : (g.atDatabase (.receive (.receive msg.tag))).Valid svc :=
    atDatabase_valid hv ⟨msg, hmsg', rfl⟩
  refine ⟨htag, hswitch, _, hvalid, ?_⟩
  have hlog : (g.atDatabase (.receive (.receive msg.tag))).databaseLog svc =
      g.databaseLog svc := by
    simp only [ServiceProgress.databaseLog, hpc]
    rfl
  have hstep : (g.atDatabase (.receive (.receive msg.tag))).Matches svc _ :=
    hm.database hadm fun _ _ _ => ⟨rfl, rfl⟩
  rwa [hlog, Net.setChannel_self hm.databaseChannel] at hstep

/-- `Dequeue` gives the database the request that was found. -/
theorem allows_databaseDequeue (hadm : svc.Admitted) (hv : g.Valid svc) (hm : g.Matches svc a)
    {tag : Int32} (hpc : g.database = .receive (.receive tag)) :
    Serves svc a svc.database (svc.code (.database (g.databaseLocal svc))) := by
  have hready := hv.database
  rw [hpc] at hready
  obtain ⟨msg, hmsg, htag⟩ := hready
  have hnext : (g.databaseLog svc).next? = some msg := by
    simp only [Log.next?, ServiceProgress.databaseLog, hpc]
    exact hmsg
  have hvalid : (g.atDatabase (.receive (.clone tag))).Valid svc :=
    atDatabase_valid hv ⟨msg, hmsg, htag⟩
  have hlog : { g.databaseLog svc with
        taken := (g.databaseLog svc).taken + 1, inHand := some msg } =
      (g.atDatabase (.receive (.clone tag))).databaseLog svc := by
    have hhand : some msg = (g.toDatabase svc)[g.served.length]? := hmsg.symm
    simp only [ServiceProgress.databaseLog, hpc, hhand]
    rfl
  rw [code_databaseReceive hpc]
  apply allows_receive hm.databaseChannel hnext
  refine ⟨_, hvalid, ?_⟩
  rw [hlog]
  exact hm.database hadm fun _ _ _ => ⟨rfl, rfl⟩

/-- Handling the request makes it one of those handled, and leaves it outstanding. -/
theorem allows_databaseClone (hadm : svc.Admitted) (hv : g.Valid svc) (hm : g.Matches svc a)
    {tag : Int32} (hpc : g.database = .receive (.clone tag)) :
    Serves svc a svc.database (svc.code (.database (g.databaseLocal svc))) := by
  have hready := hv.database
  rw [hpc] at hready
  obtain ⟨msg, hmsg, rfl⟩ := hready
  obtain ⟨p, rest, hpending, rfl, -⟩ := toDatabase_request hadm hv hmsg
  have hhand : (g.databaseLog svc).inHand = some (.request (svc.requestOf p)) := by
    simp only [ServiceProgress.databaseLog, hpc]
    exact hmsg
  have hlog : { g.databaseLog svc with inHand := none } =
      (g.atDatabase .respond).databaseLog svc := by
    simp only [ServiceProgress.databaseLog, hpc]
    rfl
  have hlocal : (g.databaseLocal svc).serve (svc.requestOf p)
      (svc.beyond (g.databaseLocal svc).handled.length) =
        (g.atDatabase .respond).databaseLocal svc := by
    have hbefore : g.handled = g.served := by simp only [ServiceProgress.handled, hpc]
    have hafter : (g.atDatabase .respond).handled = g.served ++ [p] := by
      show g.served ++ g.pending.take 1 = _
      rw [hpending]
      rfl
    simp only [ServiceProgress.databaseLocal, hbefore, hafter, Service.events_append,
      DatabaseTask.afterAll_append, DatabaseLocal.serve, Service.length_events]
    rfl
  have hvalid : (g.atDatabase .respond).Valid svc := by
    apply atDatabase_valid hv
    rw [hpending]
    exact List.cons_ne_nil _ _
  rw [code_databaseReceive hpc]
  apply allows_clone hm.databaseChannel hhand
  rw [hlog, databaseHandle, hlocal]
  exact ⟨_, hvalid, hm.database hadm fun _ _ _ => ⟨rfl, rfl⟩⟩

/-- **`receive` of the database**, at each point inside. -/
theorem allows_databaseReceive (hadm : svc.Admitted) (hv : g.Valid svc) (hm : g.Matches svc a)
    {point : ReceivePoint} (hpc : g.database = .receive point) :
    Serves svc a svc.database (svc.code (.database (g.databaseLocal svc))) := by
  cases point with
  | poll => exact allows_databasePoll hadm hv hm hpc
  | receive tag => exact allows_databaseDequeue hadm hv hm hpc
  | clone tag => exact allows_databaseClone hadm hv hm hpc
  | drop =>
    -- clients send no message without a handler
    have hready := hv.database
    rw [hpc] at hready
    exact hready.elim

/-- A client that is past polling does not notice more responses. -/
theorem ClientPc.Valid.append {n : Nat} {msgs : List AnyMsg} {pc : ClientPc}
    (h : pc.Valid n msgs) (more : List AnyMsg) :
    pc.Valid n (msgs ++ more) ∧ pc.hand (msgs ++ more) = pc.hand msgs := by
  cases pc with
  | receive i point => exact ⟨⟨h.1, h.2.append more⟩, h.2.hand_append more⟩
  | request i | finished => exact ⟨h, rfl⟩

theorem ClientPc.handled_le_taken (n : Nat) (pc : ClientPc) : pc.handled n ≤ pc.taken n := by
  cases pc with
  | receive i point => exact Nat.le_add_right _ _
  | request i | finished => exact Nat.le_refl _

/-- A client has room for the response it waits for. -/
theorem client_roomy (hv : g.Valid svc) {t : Nat} {c : Client} (hc : svc.client t = some c)
    {response : ResponseMsg} (hwf : (AnyMsg.response response).WellFormed)
    (hsize : response.msgSize.toInt ≤ 128) :
    Roomy 200 (g.clientLog svc t c) (.response response) := by
  refine ⟨hwf, by show response.msgSize.toInt ≤ 200; omega, ?_⟩
  have hlen := (hv.pending_le hc).1
  have htaken := (g.client t).handled_le_taken c.n
  have hsent := (g.client t).sent_le c.n
  simp only [ServiceProgress.clientLog, List.length_map, queueSize, sizeofQueue]
  omega

section Respond

variable {p : Nat × Nat} {rest : List (Nat × Nat)} {c : Client}

/-- The database's fields when it has handled request `p` as well. -/
def ServiceProgress.thisAfter (g : ServiceProgress) (svc : Service) (p : Nat × Nat) :
    DatabaseTask := svc.init.afterAll (svc.events (g.served ++ [p]))

/-- The database has answered request `p`, and `rest` are outstanding. -/
def ServiceProgress.responded (g : ServiceProgress) (p : Nat × Nat) (rest : List (Nat × Nat)) :
    ServiceProgress :=
  { g with database := .receive .poll, served := g.served ++ [p], pending := rest }

theorem responded_all (hpending : g.pending = p :: rest) :
    (g.responded p rest).served ++ (g.responded p rest).pending = g.served ++ g.pending := by
  simp [ServiceProgress.responded, hpending]

theorem handled_of_respond (hpc : g.database = .respond) (hpending : g.pending = p :: rest) :
    g.handled = g.served ++ [p] := by
  simp only [ServiceProgress.handled, hpc, hpending]
  rfl

/-- `currentRequesterTaskId` is the client's. -/
theorem thisAfter_requester (hadm : svc.Admitted) (hc : svc.client p.1 = some c) :
    (g.thisAfter svc p).currentRequesterTaskId = Int32.ofNat p.1 := by
  simp only [ServiceProgress.thisAfter, Service.events_append, DatabaseTask.afterAll_append,
    DatabaseTask.handle_requester]
  exact (hadm.requestOf_spec hc p.2).2.1

theorem toClient_responded (t : Nat) : (g.responded p rest).toClient svc t =
    g.toClient svc t ++ if p.1 = t then [(g.thisAfter svc p).response] else [] :=
  ServiceProgress.toClient_serve p rest (.receive .poll) t

theorem toClient_responded_ne {t : Nat} (ht : t ≠ p.1) :
    (g.responded p rest).toClient svc t = g.toClient svc t := by
  rw [toClient_responded, if_neg (Ne.symm ht), List.append_nil]

theorem responded_valid (hv : g.Valid svc) (hpending : g.pending = p :: rest) :
    (g.responded p rest).Valid svc where
  database := trivial
  sender := by
    rw [responded_all hpending]
    exact hv.sender
  order := by
    rw [responded_all hpending]
    exact hv.order
  handled_le t d hd := by
    rw [toClient_responded, List.length_append]
    exact Nat.le_add_right_of_le (hv.handled_le t d hd)
  client t d hd := by
    -- a client that is waiting finds one response more
    rw [toClient_responded, List.map_append]
    exact ((hv.client t d hd).append _).1

theorem databaseLocal_responded (hadm : svc.Admitted) (hpc : g.database = .respond)
    (hpending : g.pending = p :: rest) (hc : svc.client p.1 = some c) :
    (g.databaseLocal svc).answered = (g.responded p rest).databaseLocal svc := by
  have hanswers : (g.responded p rest).answers svc =
      g.answers svc ++ [(g.thisAfter svc p).response] := by
    show svc.init.respondAll (svc.events (g.served ++ [p])) = _
    rw [Service.events_append, DatabaseTask.respondAll_append, ← Service.events_append]
    rfl
  have hsent : ((g.served ++ [p]).zip ((g.responded p rest).answers svc)).map
        (fun e => (Int32.ofNat e.1.1, e.2)) =
      (g.served.zip (g.answers svc)).map (fun e => (Int32.ofNat e.1.1, e.2)) ++
        [((g.thisAfter svc p).currentRequesterTaskId, (g.thisAfter svc p).response)] := by
    rw [hanswers, List.zip_append ServiceProgress.length_answers.symm, List.map_append,
      thisAfter_requester hadm hc]
    rfl
  have hserved : (g.responded p rest).served = g.served ++ [p] := rfl
  simp only [DatabaseLocal.answered, ServiceProgress.databaseLocal, hserved, hsent,
    handled_of_respond hpc hpending]
  rfl

/-- The response is at the end of the client's queue. -/
theorem clientLog_responded (hv : g.Valid svc) (hc : svc.client p.1 = some c)
    (rest : List (Nat × Nat)) :
    { g.clientLog svc p.1 c with
      accepted := (g.clientLog svc p.1 c).accepted ++ [.response (g.thisAfter svc p).response] } =
    (g.responded p rest).clientLog svc p.1 c := by
  have hmsgs : ((g.responded p rest).toClient svc p.1).map AnyMsg.response =
      (g.toClient svc p.1).map .response ++ [.response (g.thisAfter svc p).response] := by
    rw [toClient_responded, if_pos rfl, List.map_append]
    rfl
  simp only [ServiceProgress.clientLog, hmsgs, Log.mk.injEq, true_and]
  exact ⟨rfl, ((hv.client p.1 c hc).append _).2.symm⟩

/-- **The response** goes to the client whose request is the first outstanding. -/
theorem allows_respond (hadm : svc.Admitted) (hv : g.Valid svc) (hm : g.Matches svc a)
    (hpc : g.database = .respond) :
    Serves svc a svc.database (svc.code (.database (g.databaseLocal svc))) := by
  have hready := hv.database
  rw [hpc] at hready
  obtain ⟨p, rest, hpending⟩ := List.exists_cons_of_ne_nil hready
  obtain ⟨c, hc⟩ := Option.isSome_iff_exists.mp (hv.sender p (by simp [hpending]))
  have hsize : (g.thisAfter svc p).responseSize.toInt ≤ sizeofStudentInfo :=
    DatabaseTask.afterAll_responseSize (show (0 : Int32).toInt ≤ sizeofStudentInfo by decide) _
  obtain ⟨hwf, hsmall⟩ := DatabaseTask.response_small hsize
  have hcode : svc.code (.database (g.databaseLocal svc)) =
      .send p.1 (.response (g.thisAfter svc p).response)
        fun _ => .database (g.databaseLocal svc).answered := by
    have hthis : (g.databaseLocal svc).this = g.thisAfter svc p := by
      rw [ServiceProgress.databaseLocal, handled_of_respond hpc hpending]
      rfl
    have hpc' : (g.databaseLocal svc).pc = .respond := hpc
    have hint : (g.thisAfter svc p).currentRequesterTaskId.toInt = p.1 := by
      rw [thisAfter_requester hadm hc, hadm.ofNat_toInt hc]
    have hentry : (0 : Int) ≤ p.1 ∧ (p.1 : Int) < Repository.maxTask :=
      ⟨Int.natCast_nonneg _, Int.ofNat_lt.mpr (hadm.client_lt p.1 c hc)⟩
    simp only [Service.code, databaseMove, hpc', hthis, hint, hentry, and_self, if_true,
      Int.toNat_natCast]
  rw [hcode]
  refine ⟨g.clientLog svc p.1 c, hm.clientChannels p.1 c hc, client_roomy hv hc hwf hsmall,
    g.responded p rest, responded_valid hv hpending, ?_⟩
  rw [databaseLocal_responded hadm hpc hpending hc, clientLog_responded hv hc rest]
  apply hm.databaseSend hadm hc
  · -- the database's own queue is as it was
    simp only [ServiceProgress.databaseLog, ServiceProgress.toDatabase, responded_all hpending, hpc]
    simp [ServiceProgress.responded, ReceivePoint.dequeued, ReceivePoint.hand]
  · -- no client has handled the response yet
    intro t d hd
    have htake : ((g.responded p rest).toClient svc t).take ((g.client t).handled d.n) =
        (g.toClient svc t).take ((g.client t).handled d.n) := by
      rw [toClient_responded, List.take_append_of_le_length (hv.handled_le t d hd)]
    exact congrArg (ClientLocal.mk _ _) htake
  · intro t d ht hd
    simp only [ServiceProgress.clientLog, toClient_responded_ne ht]
    rfl

end Respond

/-- **Moves of the database** -/
theorem allows_database (hadm : svc.Admitted) (hv : g.Valid svc) (hm : g.Matches svc a) :
    Serves svc a svc.database (svc.code (.database (g.databaseLocal svc))) := by
  cases hpc : g.database with
  | receive point => exact allows_databaseReceive hadm hv hm hpc
  | respond => exact allows_respond hadm hv hm hpc

/-! ## The clients -/

/-- Client `u` goes on to `pc`. -/
def ServiceProgress.atClient (g : ServiceProgress) (u : Nat) (pc : ClientPc) : ServiceProgress :=
  { g with client := Function.update g.client u pc }

section Client

variable {u : Nat} {d : Client} {pc : ClientPc}

@[simp] theorem atClient_self : (g.atClient u pc).client u = pc := Function.update_self ..

theorem atClient_ne {t : Nat} (h : t ≠ u) : (g.atClient u pc).client t = g.client t :=
  Function.update_of_ne h _ _

/-- The other clients do not notice. -/
theorem others_atClient {t : Nat} (h : t ≠ u) (c : Client) :
    (g.atClient u pc).clientLocal svc t c = g.clientLocal svc t c ∧
      (g.atClient u pc).clientLog svc t c = g.clientLog svc t c := by
  simp only [ServiceProgress.clientLocal, ServiceProgress.clientLog, atClient_ne h]
  exact ⟨rfl, rfl⟩

theorem clientLocal_atClient : (g.atClient u pc).clientLocal svc u d =
    ⟨pc, Int32.ofNat u, (g.toClient svc u).take (pc.handled d.n)⟩ := by
  simp only [ServiceProgress.clientLocal, atClient_self]
  rfl

theorem clientLog_atClient : (g.atClient u pc).clientLog svc u d =
    ⟨(g.toClient svc u).map .response, pc.taken d.n,
      pc.hand ((g.toClient svc u).map .response)⟩ := by
  simp only [ServiceProgress.clientLog, atClient_self]
  rfl

/-- The progress stays valid when a client goes on without sending anything. -/
theorem atClient_valid (hv : g.Valid svc) (hd : svc.client u = some d)
    (hsent : pc.sent d.n = (g.client u).sent d.n)
    (hhandled : pc.handled d.n ≤ (g.toClient svc u).length)
    (hvalid : pc.Valid d.n ((g.toClient svc u).map .response)) :
    (g.atClient u pc).Valid svc where
  database := hv.database
  sender := hv.sender
  -- the requests sent are as before
  order t c hc := by
    rcases Service.client_cases hc hd with ⟨rfl, rfl⟩ | htu
    · rw [atClient_self, hsent]
      exact hv.order t c hc
    · rw [atClient_ne htu]
      exact hv.order t c hc
  handled_le t c hc := by
    rcases Service.client_cases hc hd with ⟨rfl, rfl⟩ | htu
    · rw [atClient_self]
      exact hhandled
    · rw [atClient_ne htu]
      exact hv.handled_le t c hc
  client t c hc := by
    rcases Service.client_cases hc hd with ⟨rfl, rfl⟩ | htu
    · rw [atClient_self]
      exact hvalid
    · rw [atClient_ne htu]
      exact hv.client t c hc

/-- Clients' loops run `n` times. -/
theorem Client.lt_iff {i : Nat} : (i : Int) < d.nbRequest.toInt ↔ i < d.n := by
  unfold Client.n
  omega

/-- Within a call of `receive` only the point changes. -/
theorem clientGoto_receive {i : Nat} {point : ReceivePoint} (hpc : g.client u = .receive i point)
    (p : ReceivePoint) : (g.clientLocal svc u d).goto (.receive i p) =
      (g.atClient u (.receive i p)).clientLocal svc u d := by
  rw [clientLocal_atClient, ClientLocal.goto, ServiceProgress.clientLocal, hpc]
  rfl

theorem code_clientReceive {i : Nat} {point : ReceivePoint}
    (hpc : g.client u = .receive i point) :
    svc.code (.client d (g.clientLocal svc u d)) =
      receiveMove clientSwitch
        (fun p => .client d ((g.atClient u (.receive i p)).clientLocal svc u d))
        (fun _ => clientHandle (.client d) .crashed (g.clientLocal svc u d) i)
        (.client d ((g.clientLocal svc u d).goto (.request (i + 1)))) point := by
  have hpc' : (g.clientLocal svc u d).pc = .receive i point := hpc
  simp only [Service.code, clientMove, hpc', clientGoto_receive hpc]

/-- All messages for a client are responses, and every response sent is one that the database has
    made. -/
theorem toClient_response {i : Nat} {msg : AnyMsg}
    (hmsg : ((g.toClient svc u).map AnyMsg.response)[i]? = some msg) :
    ∃ response, (g.toClient svc u)[i]? = some response ∧ msg = .response response ∧
      (0 ≤ msg.tag ∧ clientSwitch msg.tag = .handle) := by
  rw [List.getElem?_map] at hmsg
  obtain ⟨response, hget, rfl⟩ := Option.map_eq_some_iff.mp hmsg
  refine ⟨response, hget, rfl, ?_⟩
  have htag : response.tag = responseMsgTag := by
    have hmem : response ∈ g.toClient svc u := List.mem_of_getElem? hget
    obtain ⟨e, he, rfl⟩ := List.mem_map.mp hmem
    have hanswer : e.2 ∈ g.answers svc := (List.of_mem_zip (List.mem_of_mem_filter he)).2
    exact DatabaseTask.respondAll_tag _ _ hanswer
  rw [AnyMsg.tag, htag]
  decide

/-- Within a call of `receive` the client sends nothing. -/
theorem valid_clientReceive (hv : g.Valid svc) (hd : svc.client u = some d) {i : Nat}
    {point : ReceivePoint} (hpc : g.client u = .receive i point) (p : ReceivePoint)
    (hvalid : (ClientPc.receive i p).Valid d.n ((g.toClient svc u).map .response)) :
    (g.atClient u (.receive i p)).Valid svc := by
  have hhandled : i ≤ (g.toClient svc u).length := by
    have hle := hv.handled_le u d hd
    rwa [hpc] at hle
  have hsent : (ClientPc.receive i p).sent d.n = (g.client u).sent d.n := by
    rw [hpc]
    rfl
  exact atClient_valid hv hd hsent hhandled hvalid

/-- The head of a client's queue is the response whose turn it is. -/
theorem allows_clientPoll (hadm : svc.Admitted) (hv : g.Valid svc) (hm : g.Matches svc a)
    (hd : svc.client u = some d) {i : Nat} (hpc : g.client u = .receive i .poll) :
    Serves svc a u (svc.code (.client d (g.clientLocal svc u d))) := by
  have hvalid := hv.client u d hd
  rw [hpc] at hvalid
  have hlt := hvalid.1
  have hchannel := hm.clientChannels u d hd
  have hself : a.tasks u =
      some (.client d ((g.atClient u (.receive i .poll)).clientLocal svc u d)) := by
    rw [hm.clientTasks u d hd, ← clientGoto_receive hpc, ClientLocal.goto, ← hpc]
    rfl
  rw [code_clientReceive hpc]
  apply allows_poll hchannel hself ⟨g, hv, hm⟩
  intro msg hmsg
  have hmsg' : ((g.toClient svc u).map AnyMsg.response)[i]? = some msg := by
    simp only [Log.next?, ServiceProgress.clientLog, hpc, ClientPc.taken,
      ReceivePoint.dequeued, Nat.add_zero] at hmsg
    exact hmsg
  obtain ⟨response, -, -, htag, hswitch⟩ := toClient_response hmsg'
  refine ⟨htag, hswitch, _, valid_clientReceive hv hd hpc (.receive msg.tag)
    ⟨hlt, msg, hmsg', rfl⟩, ?_⟩
  have hlog : (g.atClient u (.receive i (.receive msg.tag))).clientLog svc u d =
      g.clientLog svc u d := by
    rw [clientLog_atClient, ServiceProgress.clientLog, hpc]
    rfl
  have hstep : (g.atClient u (.receive i (.receive msg.tag))).Matches svc _ :=
    hm.client hadm hd rfl rfl fun _ c htu _ => others_atClient htu c
  rwa [hlog, Net.setChannel_self hchannel] at hstep

/-- `Dequeue` gives the client the response that was found. -/
theorem allows_clientDequeue (hadm : svc.Admitted) (hv : g.Valid svc) (hm : g.Matches svc a)
    (hd : svc.client u = some d) {i : Nat} {tag : Int32}
    (hpc : g.client u = .receive i (.receive tag)) :
    Serves svc a u (svc.code (.client d (g.clientLocal svc u d))) := by
  have hvalid := hv.client u d hd
  rw [hpc] at hvalid
  obtain ⟨hlt, msg, hmsg, htag⟩ := hvalid
  have hnext : (g.clientLog svc u d).next? = some msg := by
    simp only [Log.next?, ServiceProgress.clientLog, hpc]
    exact hmsg
  have hlog : { g.clientLog svc u d with
        taken := (g.clientLog svc u d).taken + 1, inHand := some msg } =
      (g.atClient u (.receive i (.clone tag))).clientLog svc u d := by
    have hhand : some msg = ((g.toClient svc u).map AnyMsg.response)[i]? := hmsg.symm
    rw [clientLog_atClient, ServiceProgress.clientLog, hpc, hhand]
    rfl
  rw [code_clientReceive hpc]
  apply allows_receive (hm.clientChannels u d hd) hnext
  refine ⟨_, valid_clientReceive hv hd hpc (.clone tag) ⟨hlt, msg, hmsg, htag⟩, ?_⟩
  rw [hlog]
  exact hm.client hadm hd rfl rfl fun _ c htu _ => others_atClient htu c

/-- The response handled is the next of those sent to the client. -/
theorem allows_clientClone (hadm : svc.Admitted) (hv : g.Valid svc) (hm : g.Matches svc a)
    (hd : svc.client u = some d) {i : Nat} {tag : Int32}
    (hpc : g.client u = .receive i (.clone tag)) :
    Serves svc a u (svc.code (.client d (g.clientLocal svc u d))) := by
  have hvalid := hv.client u d hd
  rw [hpc] at hvalid
  obtain ⟨hlt, msg, hmsg, rfl⟩ := hvalid
  obtain ⟨response, hget, rfl, -⟩ := toClient_response hmsg
  have hlen := (List.getElem?_eq_some_iff.mp hget).1
  have hhand : (g.clientLog svc u d).inHand = some (.response response) := by
    simp only [ServiceProgress.clientLog, hpc]
    exact hmsg
  have hlog : { g.clientLog svc u d with inHand := none } =
      (g.atClient u (.request (i + 1))).clientLog svc u d := by
    rw [clientLog_atClient, ServiceProgress.clientLog, hpc]
    rfl
  have hlocal : (g.clientLocal svc u d).handled i response =
      (g.atClient u (.request (i + 1))).clientLocal svc u d := by
    rw [clientLocal_atClient, ClientLocal.handled, ServiceProgress.clientLocal, hpc]
    simp only [ClientPc.handled]
    rw [List.take_add_one, hget]
    rfl
  have hnext : (g.atClient u (.request (i + 1))).Valid svc := by
    apply atClient_valid hv hd
    · rw [hpc]
      rfl
    · exact hlen
    · exact hlt
  rw [code_clientReceive hpc]
  apply allows_clone (hm.clientChannels u d hd) hhand
  rw [hlog, clientHandle, hlocal]
  exact ⟨_, hnext, hm.client hadm hd rfl rfl fun _ c htu _ => others_atClient htu c⟩

/-- **`receive` of a client**, at each point inside. -/
theorem allows_clientReceive (hadm : svc.Admitted) (hv : g.Valid svc) (hm : g.Matches svc a)
    (hd : svc.client u = some d) {i : Nat} {point : ReceivePoint}
    (hpc : g.client u = .receive i point) :
    Serves svc a u (svc.code (.client d (g.clientLocal svc u d))) := by
  cases point with
  | poll => exact allows_clientPoll hadm hv hm hd hpc
  | receive tag => exact allows_clientDequeue hadm hv hm hd hpc
  | clone tag => exact allows_clientClone hadm hv hm hd hpc
  | drop =>
    -- a client gets nothing but responses
    have hvalid := hv.client u d hd
    rw [hpc] at hvalid
    exact hvalid.2.elim

/-- The database has room for a request more. -/
theorem database_roomy (hadm : svc.Admitted) (hv : g.Valid svc) (hd : svc.client u = some d)
    (i : Nat) : Roomy 200 (g.databaseLog svc) (.request (svc.requestOf (u, i))) := by
  obtain ⟨-, -, hwf, hsize⟩ := hadm.requestOf_spec hd i
  -- a hundred requests of at most 200 bytes are far from filling the queue
  have hpending := hv.length_pending_le hadm
  refine ⟨hwf, by show (svc.requestOf (u, i)).msgSize.toInt ≤ 200; omega, ?_⟩
  simp only [ServiceProgress.databaseLog, ServiceProgress.toDatabase, List.length_map,
    List.length_append, queueSize, sizeofQueue]
  omega

/-- Client `u` has sent its request number `i`. -/
def ServiceProgress.requested (g : ServiceProgress) (u i : Nat) : ServiceProgress :=
  { g.atClient u (.receive i .poll) with pending := g.pending ++ [(u, i)] }

theorem requested_self (i : Nat) : (g.requested u i).client u = .receive i .poll := atClient_self

theorem requested_ne (i : Nat) {t : Nat} (h : t ≠ u) :
    (g.requested u i).client t = g.client t := atClient_ne h

theorem requested_all (i : Nat) : (g.requested u i).served ++ (g.requested u i).pending =
    (g.served ++ g.pending) ++ [(u, i)] := by
  rw [List.append_assoc]
  rfl

theorem toDatabase_requested (i : Nat) : (g.requested u i).toDatabase svc =
    g.toDatabase svc ++ [.request (svc.requestOf (u, i))] := by
  rw [ServiceProgress.toDatabase, requested_all, List.map_append]
  rfl

theorem requested_valid (hv : g.Valid svc) (hd : svc.client u = some d) {i : Nat}
    (hpc : g.client u = .request i) (hlt : i < d.n) : (g.requested u i).Valid svc where
  database := by
    have hdatabase := hv.database
    show match g.database with
      | .receive point => point.Ready ((g.requested u i).toDatabase svc)[g.served.length]?
      | .respond => (g.requested u i).pending ≠ []
    cases hdpc : g.database with
    | receive point =>
      -- what the database is about to read is still there
      rw [hdpc] at hdatabase
      rw [toDatabase_requested]
      exact hdatabase.append _
    | respond => exact List.append_ne_nil_of_right_ne_nil _ (List.cons_ne_nil _ _)
  sender := by
    rw [requested_all]
    intro p hp
    rcases List.mem_append.mp hp with hp | hp
    · exact hv.sender p hp
    · obtain rfl := List.mem_singleton.mp hp
      exact Option.isSome_iff_exists.mpr ⟨d, hd⟩
  order t c hc := by
    -- the requests of each client are in the order of its turns
    have horder := hv.order t c hc
    rw [requested_all, List.filter_append, List.map_append, horder]
    by_cases htu : t = u
    · subst htu
      rw [requested_self, hpc]
      simp [ClientPc.sent, List.range_succ]
    · have hut : ¬u = t := Ne.symm htu
      simp [requested_ne i htu, hut]
  handled_le t c hc := by
    have hle := hv.handled_le t c hc
    by_cases htu : t = u
    · subst htu
      rw [hpc] at hle
      rw [requested_self]
      exact hle
    · rw [requested_ne i htu]
      exact hle
  client t c hc := by
    rcases Service.client_cases hc hd with ⟨rfl, rfl⟩ | htu
    · rw [requested_self]
      exact ⟨hlt, trivial⟩
    · rw [requested_ne i htu]
      exact hv.client t c hc

/-- The database does not notice. -/
theorem databaseLocal_requested (hv : g.Valid svc) (i : Nat) :
    (g.requested u i).databaseLocal svc = g.databaseLocal svc := by
  have hdatabase := hv.database
  have hhandled : (g.requested u i).handled = g.handled := by
    simp only [ServiceProgress.handled]
    cases hdpc : g.database with
    | receive point => simp [ServiceProgress.requested, ServiceProgress.atClient, hdpc]
    | respond =>
      -- the request it has handled is not the new one
      rw [hdpc] at hdatabase
      obtain ⟨p, rest, hpending⟩ := List.exists_cons_of_ne_nil hdatabase
      simp [ServiceProgress.requested, ServiceProgress.atClient, hdpc, hpending]
  simp only [ServiceProgress.databaseLocal, hhandled]
  rfl

/-- The request is at the end of the database's queue. -/
theorem databaseLog_requested (hv : g.Valid svc) (i : Nat) :
    { g.databaseLog svc with
      accepted := (g.databaseLog svc).accepted ++ [.request (svc.requestOf (u, i))] } =
    (g.requested u i).databaseLog svc := by
  have hdatabase := hv.database
  have hpc_eq : (g.requested u i).database = g.database := rfl
  have hserved : (g.requested u i).served = g.served := rfl
  simp only [ServiceProgress.databaseLog, toDatabase_requested, hpc_eq, hserved, Log.mk.injEq,
    true_and]
  cases hdpc : g.database with
  | receive point =>
    rw [hdpc] at hdatabase
    exact (hdatabase.hand_append _).symm
  | respond => rfl

/-- **The request of a turn** goes to the database behind all others. -/
theorem allows_request (hadm : svc.Admitted) (hv : g.Valid svc) (hm : g.Matches svc a)
    (hd : svc.client u = some d) {i : Nat} (hpc : g.client u = .request i) :
    Serves svc a u (svc.code (.client d (g.clientLocal svc u d))) := by
  have hle : i ≤ d.n := by
    have hvalid := hv.client u d hd
    rwa [hpc] at hvalid
  have hhandled : i ≤ (g.toClient svc u).length := by
    have hle := hv.handled_le u d hd
    rwa [hpc] at hle
  have hpc' : (g.clientLocal svc u d).pc = .request i := hpc
  have htaskID : (g.clientLocal svc u d).taskID = Int32.ofNat u := rfl
  simp only [Service.code, clientMove, hpc', htaskID, Client.lt_iff, hadm.buildRequest_eq hd]
  split
  case isTrue hlt =>
    refine ⟨g.databaseLog svc, hm.databaseChannel, database_roomy hadm hv hd i, g.requested u i,
      requested_valid hv hd hpc hlt, ?_⟩
    have hlocal : (g.clientLocal svc u d).goto (.receive i .poll) =
        (g.requested u i).clientLocal svc u d := by
      have hcl : (g.requested u i).clientLocal svc u d =
          (g.atClient u (.receive i .poll)).clientLocal svc u d := rfl
      rw [hcl, clientLocal_atClient, ClientLocal.goto, ServiceProgress.clientLocal, hpc]
      rfl
    rw [hlocal, databaseLog_requested hv]
    apply hm.clientSend hadm hd (databaseLocal_requested hv i)
    · -- the client's own queue is as it was
      intro t c hc
      rcases Service.client_cases hc hd with ⟨rfl, rfl⟩ | htu
      · have hcl : (g.requested t i).clientLog svc t c =
            (g.atClient t (.receive i .poll)).clientLog svc t c := rfl
        rw [hcl, clientLog_atClient, ServiceProgress.clientLog, hpc]
        rfl
      · exact (others_atClient (g := g) htu c).2
    · intro t c htu _
      exact (others_atClient (g := g) htu c).1
  case isFalse hnot =>
    -- the loop is over
    obtain rfl : i = d.n := by omega
    have hlocal : (g.clientLocal svc u d).goto .finished =
        (g.atClient u .finished).clientLocal svc u d := by
      rw [clientLocal_atClient, ClientLocal.goto, ServiceProgress.clientLocal, hpc]
      rfl
    have hlog : (g.atClient u .finished).clientLog svc u d = g.clientLog svc u d := by
      rw [clientLog_atClient, ServiceProgress.clientLog, hpc]
      rfl
    have hvalid : (g.atClient u .finished).Valid svc := by
      apply atClient_valid hv hd
      · rw [hpc]
        rfl
      · exact hhandled
      · exact trivial
    have hstep : (g.atClient u .finished).Matches svc _ :=
      hm.client hadm hd rfl rfl fun t c htu _ => others_atClient htu c
    rw [hlog, Net.setChannel_self (hm.clientChannels u d hd)] at hstep
    rw [hlocal]
    exact ⟨_, hvalid, hstep⟩

/-- **Moves of a client** -/
theorem allows_client (hadm : svc.Admitted) (hv : g.Valid svc) (hm : g.Matches svc a)
    (hd : svc.client u = some d) :
    Serves svc a u (svc.code (.client d (g.clientLocal svc u d))) := by
  cases hpc : g.client u with
  | request i => exact allows_request hadm hv hm hd hpc
  | receive i point => exact allows_clientReceive hadm hv hm hd hpc
  | finished =>
    have hpc' : (g.clientLocal svc u d).pc = .finished := hpc
    simp only [Service.code, clientMove, hpc']
    exact trivial

end Client

/-! ## All moves -/

/-- **Step**: every move keeps the order of the service. -/
theorem allows_service (hadm : svc.Admitted) (a : Net ServiceLocal (Log AnyMsg)) (t : Nat)
    (l : ServiceLocal) (h : InService svc a) (hl : a.tasks t = some l) :
    Serves svc a t (svc.code l) := by
  obtain ⟨g, hv, hm⟩ := h
  -- the database, a client, or a task that is not there
  by_cases ht : t = svc.database
  · subst ht
    obtain rfl := Option.some.inj (hl.symm.trans hm.databaseTask)
    exact allows_database hadm hv hm
  · cases hc : svc.client t with
    | none =>
      rw [hm.noTasks t ht hc] at hl
      cases hl
    | some c =>
      obtain rfl := Option.some.inj (hl.symm.trans (hm.clientTasks t c hc))
      exact allows_client hadm hv hm hc

end TaskSystem
