import TaskSystem.Tasks.DatabaseTask.Answers
import TaskSystem.Tasks.DatabaseTask.Clients
import TaskSystem.Tasks.DatabaseTask.Ranks

/-!
# Every Client Finishes

The database never ends, but a service comes to rest: after a bounded number of steps that change
something, every client has got a response to each of its requests and has finished, and the
database polls an empty queue.

## Contents

- `ServicePlaced`, `AllAnswered`: where the tasks are, and where they come to rest
- `ServicePlaced.database_advances`, `ServicePlaced.client_advances`: tasks that can go on
- `service_bounded`, `service_completes`
-/

namespace TaskSystem

open Library

variable {svc : Service} {g : ServiceProgress} {a : Net ServiceLocal (Log AnyMsg)}
  {s s' : Net ServiceLocal Mailbox} {map : Mapping} {t : Nat} {l : ServiceLocal}

/-- The tasks, the queues and their logs are where the progress says. -/
structure ServicePlaced (svc : Service) (map : Mapping) (g : ServiceProgress)
    (a : Net ServiceLocal (Log AnyMsg)) (s : Net ServiceLocal Mailbox) : Prop where
  admitted : svc.Admitted
  tracks : s.Tracks (mailboxes_carry map fun _ => 200) a
  valid : g.Valid svc
  placed : g.Matches svc a

/-- The service has come to rest. -/
structure AllAnswered (svc : Service) (s : Net ServiceLocal Mailbox) : Prop where
  clients : ∀ t c, svc.client t = some c →
    ∃ l, s.tasks t = some (.client c l) ∧ l.pc = .finished ∧ l.responses.length = c.n
  database : ∃ d mb, s.tasks svc.database = some (.database d) ∧ d.pc = .receive .poll ∧
    d.sent.length = svc.total ∧ s.channels svc.database = some mb ∧ isEmpty mb.Q = 1

/-- Task `t` can take a step that brings the service closer to its rest. -/
def ServiceAdvances (svc : Service) (map : Mapping) (s : Net ServiceLocal Mailbox) (t : Nat) :
    Prop :=
  ∃ s', (serviceNetwork svc map).step s t = some s' ∧ serviceRank svc s' < serviceRank svc s

/-- Every response sent is one the database has made. -/
theorem toClient_tag {response : ResponseMsg} (h : response ∈ g.toClient svc t) :
    response.tag = responseMsgTag := by
  obtain ⟨e, he, rfl⟩ := List.mem_map.mp h
  have hanswer : e.2 ∈ g.answers svc := (List.of_mem_zip (List.mem_of_mem_filter he)).2
  exact DatabaseTask.respondAll_tag _ _ hanswer

namespace ServicePlaced

/-! ## Tasks that can go on -/

/-- A task that has not returned can take a step, and what the step does to it is enough. -/
theorem advances_of_lower (h : ServicePlaced svc map g a s) (hl : s.tasks t = some l)
    (hgo : svc.code l ≠ .stop)
    (hlower : ∀ s', s.perform (mailboxes map) t (svc.code l) = some s' →
      ∃ l', s'.tasks t = some l' ∧ l'.rank svc.total < l.rank svc.total) :
    ServiceAdvances svc map s t := by
  obtain ⟨s', -, hs', -⟩ := Carries.perform h.tracks hgo
    (allows_service h.admitted a t l ⟨g, h.valid, h.placed⟩ (h.tracks.tasks ▸ hl))
  obtain ⟨l', hl', hlt⟩ := hlower s' hs'
  refine ⟨s', ?_, serviceRank_lt h.admitted h.valid h.placed h.tracks.tasks hl hs' hl' hlt⟩
  show s.step (mailboxes map) svc.code t = some s'
  rw [Net.step, hl, Option.bind_some, hs']

/-- **A task that does not poll** advances. -/
theorem advances_of_busy (h : ServicePlaced svc map g a s) (hl : s.tasks t = some l)
    (hgo : svc.code l ≠ .stop) (hbusy : ¬l.Polls) : ServiceAdvances svc map s t := by
  apply h.advances_of_lower hl hgo
  intro s' hs'
  obtain ⟨⟨l', hleads, hl'⟩, -, -⟩ := Net.perform_cases hs'
  refine ⟨l', hl', ?_⟩
  rcases (service_code_rank h.admitted h.valid h.placed (h.tracks.tasks ▸ hl) hleads).2 with
    hlt | ⟨-, hpolls⟩
  · exact hlt
  · exact absurd hpolls hbusy

/-- The queue shows the tag of the message that is next in the log. -/
theorem peek (h : ServicePlaced svc map g a s) {q : Log AnyMsg} {msg : AnyMsg}
    (hq : a.channels t = some q) (hnext : q.next? = some msg) (htag : 0 ≤ msg.tag) :
    ∃ mb, s.channels t = some mb ∧ 0 ≤ (mailboxes map).peek mb := by
  obtain ⟨mb, hmb, hlog⟩ := h.tracks.channel hq
  refine ⟨mb, hmb, ?_⟩
  rw [(mailboxes_carry map fun _ => 200).peek hlog, hnext]
  exact htag

/-- **The database** advances while a request is outstanding. -/
theorem database_advances (h : ServicePlaced svc map g a s)
    (hwork : g.database ≠ .receive .poll ∨ g.pending ≠ []) :
    ServiceAdvances svc map s svc.database := by
  have hdatabase : s.tasks svc.database = some (.database (g.databaseLocal svc)) := by
    rw [h.tracks.tasks, h.placed.databaseTask]
  have hgo : svc.code (.database (g.databaseLocal svc)) ≠ .stop := by
    simp only [Service.code, databaseMove]
    split
    · exact receiveMove_ne_stop
    · split <;> intro hstop <;> cases hstop
  by_cases hpc : g.database = .receive .poll
  · obtain ⟨p, rest, hpending⟩ := List.exists_cons_of_ne_nil (hwork.resolve_left (absurd hpc))
    have hmem : p ∈ g.served ++ g.pending := by simp [hpending]
    obtain ⟨c, hc⟩ := Option.isSome_iff_exists.mp (h.valid.sender p hmem)
    -- the first request outstanding is the next message
    have hnext : (g.databaseLog svc).next? = some (.request (svc.requestOf p)) := by
      simp only [ServiceProgress.databaseLog, Log.next?, hpc, ReceivePoint.dequeued, Nat.add_zero]
      rw [toDatabase_next, hpending]
      rfl
    have htag := (databaseSwitch_request _ (h.admitted.requestOf_spec hc p.2).1).1
    have hpc' : (g.databaseLocal svc).pc = .receive .poll := hpc
    have hself : (g.databaseLocal svc).goto (.receive .poll) = g.databaseLocal svc := by
      rw [DatabaseLocal.goto, ← hpc']
    obtain ⟨hinside, hhandled, hback⟩ := databaseReceive_rank svc (g.databaseLocal svc)
    apply h.advances_of_lower hdatabase hgo
    intro s' hs'
    simp only [Service.code, databaseMove, hpc'] at hs'
    have hlower := receive_lowers hinside hhandled hback hs' fun _ =>
      h.peek h.placed.databaseChannel hnext htag
    rwa [hself] at hlower
  · exact h.advances_of_busy hdatabase hgo hpc

/-- **A client** advances when its request has been answered, or it has not sent one. -/
theorem client_advances (h : ServicePlaced svc map g a s) {c : Client} (hc : svc.client t = some c)
    (hgo : g.client t ≠ .finished)
    (hanswered : ∀ i, g.client t = .receive i .poll → i < (g.toClient svc t).length) :
    ServiceAdvances svc map s t := by
  have hclient : s.tasks t = some (.client c (g.clientLocal svc t c)) := by
    rw [h.tracks.tasks, h.placed.clientTasks t c hc]
  have hgo' : svc.code (.client c (g.clientLocal svc t c)) ≠ .stop := by
    simp only [Service.code, clientMove]
    split
    · split
      · split <;> intro hstop <;> cases hstop
      · intro hstop
        cases hstop
    · exact receiveMove_ne_stop
    case h_3 hfinished => exact absurd hfinished hgo
  by_cases hpolls : ∃ i, g.client t = .receive i .poll
  · obtain ⟨i, hpc⟩ := hpolls
    have hlt := hanswered i hpc
    have hnext : (g.clientLog svc t c).next? =
        some (.response ((g.toClient svc t)[i])) := by
      simp only [ServiceProgress.clientLog, Log.next?, hpc, ClientPc.taken, ReceivePoint.dequeued,
        Nat.add_zero, List.getElem?_map, List.getElem?_eq_getElem hlt, Option.map_some]
    have htag : 0 ≤ (AnyMsg.response ((g.toClient svc t)[i])).tag := by
      rw [AnyMsg.tag, toClient_tag (List.getElem_mem hlt)]
      decide
    have hpc' : (g.clientLocal svc t c).pc = .receive i .poll := hpc
    have hself : (g.clientLocal svc t c).goto (.receive i .poll) = g.clientLocal svc t c := by
      rw [ClientLocal.goto, ← hpc']
    obtain ⟨hinside, hhandled, hback⟩ := clientReceive_rank svc c (g.clientLocal svc t c) i
    apply h.advances_of_lower hclient hgo'
    intro s' hs'
    simp only [Service.code, clientMove, hpc'] at hs'
    have hlower := receive_lowers hinside hhandled hback hs' fun _ =>
      h.peek (h.placed.clientChannels t c hc) hnext htag
    rwa [hself] at hlower
  · exact h.advances_of_busy hclient hgo' hpolls

/-! ## Rest -/

/-- When all clients have finished, all of their requests have been answered. -/
theorem all_served (h : ServicePlaced svc map g a s)
    (hfinished : ∀ t c, svc.client t = some c → g.client t = .finished) :
    g.pending = [] ∧ g.served.length = svc.total := by
  have hserved : ∀ t c, svc.client t = some c → (g.toClient svc t).length = c.n ∧
      (g.pending.filter fun p => p.1 = t) = [] := by
    intro t c hc
    have hsent := (h.valid.pending_le hc).1
    have hle := h.valid.handled_le t c hc
    rw [hfinished t c hc] at hsent hle
    simp only [ClientPc.sent, ClientPc.handled] at hsent hle
    refine ⟨by omega, List.eq_nil_of_length_eq_zero (by omega)⟩
  have hpending : g.pending = [] := by
    apply List.eq_nil_iff_forall_not_mem.mpr
    intro p hp
    obtain ⟨c, hc⟩ := Option.isSome_iff_exists.mp (h.valid.sender p (List.mem_append_right _ hp))
    have hmem : p ∈ g.pending.filter fun q => q.1 = p.1 :=
      List.mem_filter.mpr ⟨hp, decide_eq_true rfl⟩
    rw [(hserved p.1 c hc).2] at hmem
    cases hmem
  refine ⟨hpending, ?_⟩
  -- count the requests answered client by client
  have hclient : ∀ p ∈ g.served, p.1 < Repository.maxTask := by
    intro p hp
    obtain ⟨c, hc⟩ := Option.isSome_iff_exists.mp (h.valid.sender p (List.mem_append_left _ hp))
    exact h.admitted.client_lt p.1 c hc
  rw [length_eq_sum Prod.fst hclient, Service.total]
  congr 1
  apply List.map_congr_left
  intro t _
  have hlength : (g.toClient svc t).length = (g.served.filter fun p => p.1 = t).length :=
    ServiceProgress.length_toClient t
  rw [← hlength, Service.requests]
  cases hc : svc.client t with
  | none =>
    -- nobody sends under this number
    have hnil : g.served.filter (fun p => p.1 = t) = [] := by
      apply List.filter_eq_nil_iff.mpr
      intro p hp heq
      have hsome := h.valid.sender p (List.mem_append_left _ hp)
      rw [of_decide_eq_true heq, hc] at hsome
      cases hsome
    rw [ServiceProgress.length_toClient, hnil]
    rfl
  | some c => exact (hserved t c hc).1

/-- **No deadlock**: a task advances, or the service has come to rest. -/
theorem exists_advances (h : ServicePlaced svc map g a s) (hnot : ¬AllAnswered svc s) :
    ∃ t, ServiceAdvances svc map s t := by
  by_contra hnone
  apply hnot
  have hidle : g.database = .receive .poll ∧ g.pending = [] := by
    constructor
    · by_contra hne
      exact hnone ⟨_, h.database_advances (.inl hne)⟩
    · by_contra hne
      exact hnone ⟨_, h.database_advances (.inr hne)⟩
  have hfinished : ∀ t c, svc.client t = some c → g.client t = .finished := by
    intro t c hc
    by_contra hne
    refine hnone ⟨t, h.client_advances hc hne ?_⟩
    -- with no request outstanding, its request has been answered
    intro i hpc
    have hsent := (h.valid.pending_le hc).1
    rw [hidle.2, hpc] at hsent
    simp only [List.filter_nil, List.length_nil, ClientPc.sent] at hsent
    omega
  obtain ⟨hpending, hserved⟩ := h.all_served hfinished
  obtain ⟨mb, hmb, hlog⟩ := h.tracks.channel h.placed.databaseChannel
  constructor
  · intro t c hc
    refine ⟨g.clientLocal svc t c, ?_, hfinished t c hc, ?_⟩
    · rw [h.tracks.tasks, h.placed.clientTasks t c hc]
    · have hcount := (clientLocal_served h.admitted h.valid hc).count
      have hpc : (g.clientLocal svc t c).pc = .finished := hfinished t c hc
      rw [hcount, hpc]
      rfl
  · refine ⟨g.databaseLocal svc, mb, ?_, hidle.1, length_sent.trans hserved, hmb, ?_⟩
    · rw [h.tracks.tasks, h.placed.databaseTask]
    · apply Mailbox.TracksLog.isEmpty hlog
      show ((g.served ++ g.pending).map _).length ≤ _
      rw [hpending, List.append_nil, List.length_map]
      exact Nat.le_add_right _ _

/-! ## Runs -/

/-- A step leads from logs in order to logs in order. -/
theorem step (h : ServicePlaced svc map g a s)
    (hstep : (serviceNetwork svc map).step s t = some s') :
    ∃ g' a', ServicePlaced svc map g' a' s' := by
  obtain ⟨l, hl, hmove⟩ := Option.bind_eq_some_iff.mp hstep
  have hgo : svc.code l ≠ .stop := by
    intro hstop
    rw [hstop] at hmove
    cases hmove
  obtain ⟨s'', a', hs'', -, htracks, g', hv, hm⟩ := Carries.perform h.tracks hgo
    (allows_service h.admitted a t l ⟨g, h.valid, h.placed⟩ (h.tracks.tasks ▸ hl))
  obtain rfl : s'' = s' := Option.some.inj (hs''.symm.trans hmove)
  exact ⟨g', a', h.admitted, htracks, hv, hm⟩

/-- **Completion**, from where the tasks and the queues are in order. -/
theorem completes (h : ServicePlaced svc map g a s) :
    ∃ ts s', (serviceNetwork svc map).Along
        (fun s t => (serviceNetwork svc map).step s t ≠ some s) s ts ∧
      (serviceNetwork svc map).runFrom s ts = some s' ∧ AllAnswered svc s' ∧
      ts.length ≤ serviceRank svc s := by
  apply System.exists_final_along (serviceRank svc) (AllAnswered svc)
    (I := fun s => ∃ g a, ServicePlaced svc map g a s) ?_ ?_ ⟨g, a, h⟩
  · rintro s t s' ⟨g, a, h⟩ - hstep
    exact h.step hstep
  · rintro s ⟨g, a, h⟩ hnot
    obtain ⟨t, s', hs', hlt⟩ := h.exists_advances hnot
    refine ⟨t, s', fun hstay => ?_, hs', hlt⟩
    -- a step that brings the service closer to rest changes something
    obtain rfl := Option.some.inj (hstay.symm.trans hs')
    exact absurd hlt (Nat.lt_irrefl _)

/-- A service starts in order. -/
theorem start (hadm : svc.Admitted) (map : Mapping) : ServicePlaced svc map .start
    (.start (Log.medium tagOf) svc.initialTasks Repository.maxTask)
    (.start (mailboxes map) svc.initialTasks Repository.maxTask) where
  admitted := hadm
  tracks := Net.Tracks.start _ _ _
  valid := service_start_valid svc
  placed := service_start_matches hadm

end ServicePlaced

/-- **Every service comes to rest**: in a run without polls that find no message, the tasks take
    at most `9 r + 103` steps for `r` requests. -/
theorem service_bounded (hadm : svc.Admitted) (map : Mapping)
    (hstart : (serviceNetwork svc map).init s) {ts : List Nat}
    (hmoves : (serviceNetwork svc map).Along
      (fun s t => (serviceNetwork svc map).step s t ≠ some s) s ts)
    (hrun : (serviceNetwork svc map).runFrom s ts = some s') :
    ts.length ≤ 9 * svc.total + 103 := by
  obtain rfl : s = _ := hstart
  have hle := hmoves.length_add_rank_le (serviceRank svc)
    (I := fun s => ∃ g a, ServicePlaced svc map g a s) ?_ ?_ ⟨_, _, .start hadm map⟩ hrun
  · have hbound := serviceRank_start_le map hadm
    omega
  · rintro s t s' ⟨g, a, h⟩ hstep
    exact h.step hstep
  · rintro s t s' ⟨g, a, h⟩ hstep
    exact service_step_rank hadm h.valid h.placed h.tracks.tasks hstep

/-- **No deadlock**: wherever the database and its clients have come, they can come to rest, with
    a response to each client for each of its requests. -/
theorem service_completes (hadm : svc.Admitted) (map : Mapping)
    (h : (serviceNetwork svc map).Reachable s) :
    ∃ ts s', (serviceNetwork svc map).runFrom s ts = some s' ∧ AllAnswered svc s' := by
  obtain ⟨a, htracks, g, hv, hm⟩ := reachable_inService hadm h
  have hplaced : ServicePlaced svc map g a s := ⟨hadm, htracks, hv, hm⟩
  obtain ⟨ts, s', -, hrun, hrest, -⟩ := hplaced.completes
  exact ⟨ts, s', hrun, hrest⟩

/-- The service in which one client inserts a record and the other selects it, in a run to its end
    in which every step changes something. -/
theorem service_bounded_insertAndSelect :
    ∃ ts s', (serviceNetwork insertAndSelect oneMapping).runFrom
        (.start (mailboxes oneMapping) insertAndSelect.initialTasks Repository.maxTask) ts =
          some s' ∧
      AllAnswered insertAndSelect s' ∧ ts.length ≤ 9 * insertAndSelect.total + 103 := by
  obtain ⟨ts, s', hmoves, hrun, hanswered, -⟩ :=
    (ServicePlaced.start insertAndSelect_admitted oneMapping).completes
  exact ⟨ts, s', hrun, hanswered,
    service_bounded insertAndSelect_admitted oneMapping rfl hmoves hrun⟩

/-- It comes to rest from its start. -/
theorem service_completes_insertAndSelect :
    ∃ ts s', (serviceNetwork insertAndSelect oneMapping).runFrom
      (.start (mailboxes oneMapping) insertAndSelect.initialTasks Repository.maxTask) ts = some s' ∧
        AllAnswered insertAndSelect s' :=
  service_completes insertAndSelect_admitted oneMapping (.init rfl)

end TaskSystem
