import TaskSystem.Library.NetworkRank
import TaskSystem.Tasks.DatabaseTask.ServiceSteps

/-!
# What the Tasks of a Service Have Still to Do

The loop of the database does not end, but the requests of its clients do: every step of a
service brings it closer to the point at which all of them have been answered, but for a poll
that finds no message.

## Contents

- `ClientPc.rank`, `DatabaseLocal.rank`, `ServiceLocal.rank`: steps still to be taken
- `length_requests_le`: no more requests have been sent than the clients are to send
- `clientMove_rank`, `databaseMove_rank`: one step of a task
- `service_step_rank`: one step of the service; `serviceRank_start_le`
-/

namespace TaskSystem

open Library

variable {svc : Service} {g : ServiceProgress} {a : Net ServiceLocal (Log AnyMsg)}
  {s s' : Net ServiceLocal Mailbox} {map : Mapping} {t : Nat} {l l' : ServiceLocal}

/-! ## Steps still to be taken -/

/-- The number of requests that task `t` is to send. -/
def Service.requests (svc : Service) (t : Nat) : Nat := (svc.client t).elim 0 Client.n

/-- The number of all requests. -/
def Service.total (svc : Service) : Nat :=
  ((List.range Repository.maxTask).map svc.requests).sum

/-- What a client with `n` requests has still to do. -/
def ClientPc.rank (n : Nat) : ClientPc → Nat
  | .request i => 5 * (n - i) + 1
  | .receive i point => 5 * (n - (i + 1)) + 1 + point.stepsLeft
  | .finished => 0

/-- What the database has still to do, of `total` requests. -/
def DatabaseLocal.rank (total : Nat) (d : DatabaseLocal) : Nat :=
  match d.pc with
  | .receive point => 4 * (total - d.sent.length) + point.stepsLeft
  | .respond => 4 * (total - d.sent.length)

def ServiceLocal.rank (total : Nat) : ServiceLocal → Nat
  | .database d => d.rank total
  | .client c l => l.pc.rank c.n
  | .crashed => 0

/-- The task polls its queue. -/
def ServiceLocal.Polls : ServiceLocal → Prop
  | .database d => d.pc = .receive .poll
  | .client _ l => ∃ i, l.pc = .receive i .poll
  | .crashed => False

/-- What all tasks together have still to do. -/
def serviceRank (svc : Service) (s : Net ServiceLocal Mailbox) : Nat :=
  s.rank (ServiceLocal.rank svc.total) 0 Repository.maxTask

/-! ## The requests sent -/

/-- One of the numbers below `n` is `k`. -/
theorem sum_ite_eq (k x n : Nat) :
    ((List.range n).map fun t => if k = t then x else 0).sum = if k < n then x else 0 := by
  induction n with
  | zero => rfl
  | succ n ih =>
    rw [List.range_succ, List.map_append, List.sum_append, ih, List.map_singleton,
      List.sum_singleton]
    rcases Nat.lt_trichotomy k n with hlt | rfl | hgt
    · rw [if_pos hlt, if_neg (Nat.ne_of_lt hlt), if_pos (Nat.lt_succ_of_lt hlt), Nat.add_zero]
    · rw [if_neg (Nat.lt_irrefl k), if_pos rfl, if_pos (Nat.lt_succ_self k), Nat.zero_add]
    · rw [if_neg (Nat.lt_asymm hgt), if_neg (Nat.ne_of_gt hgt), if_neg (by omega)]

/-- A list is as long as its parts for the numbers below `n` together. -/
theorem length_eq_sum {α : Type*} (key : α → Nat) {n : Nat} {xs : List α}
    (h : ∀ x ∈ xs, key x < n) :
    xs.length = ((List.range n).map fun t => (xs.filter fun x => key x = t).length).sum := by
  induction xs with
  | nil => simp
  | cons x xs ih =>
    have hx := h x (List.mem_cons_self ..)
    have hstep : ∀ t, ((x :: xs).filter fun x => key x = t).length =
        (xs.filter fun x => key x = t).length + if key x = t then 1 else 0 := by
      intro t
      rw [List.filter_cons]
      by_cases hkey : key x = t <;> simp [hkey]
    have hone : ((List.range n).map fun t => if key x = t then 1 else 0).sum = 1 := by
      rw [sum_ite_eq, if_pos hx]
    simp only [hstep, List.sum_map_add, hone, List.length_cons]
    rw [ih fun y hy => h y (List.mem_cons_of_mem _ hy)]

/-- **No more requests have been sent** than the clients are to send. -/
theorem ServiceProgress.Valid.length_requests_le (hadm : svc.Admitted) (hv : g.Valid svc) :
    (g.served ++ g.pending).length ≤ svc.total := by
  have hclient : ∀ p ∈ g.served ++ g.pending, p.1 < Repository.maxTask := by
    intro p hp
    obtain ⟨c, hc⟩ := Option.isSome_iff_exists.mp (hv.sender p hp)
    exact hadm.client_lt p.1 c hc
  rw [length_eq_sum Prod.fst hclient]
  apply List.sum_le_sum
  intro t _
  cases hc : svc.client t with
  | none =>
    -- nobody sends under this number
    have hnil : (g.served ++ g.pending).filter (fun p => p.1 = t) = [] := by
      apply List.filter_eq_nil_iff.mpr
      intro p hp heq
      have hsome := hv.sender p hp
      rw [of_decide_eq_true heq, hc] at hsome
      cases hsome
    rw [hnil]
    exact Nat.zero_le _
  | some c =>
    have hlen := congrArg List.length (hv.order t c hc)
    rw [List.length_map, List.length_range] at hlen
    rw [hlen, Service.requests, hc]
    have hvalid := hv.client t c hc
    cases hpc : g.client t with
    | request i =>
      rw [hpc] at hvalid
      exact hvalid
    | receive i point =>
      rw [hpc] at hvalid
      exact hvalid.1
    | finished => exact Nat.le_refl _

/-! ## One step of a task -/

/-- A client in a call of `receive`, and behind it. -/
theorem clientReceive_rank (svc : Service) (c : Client) (cl : ClientLocal) (i : Nat) :
    (∀ p, (ServiceLocal.client c (cl.goto (.receive i p))).rank svc.total =
        5 * (c.n - (i + 1)) + 1 + p.stepsLeft) ∧
      (∀ (_ : Int32) msg,
        (clientHandle (ServiceLocal.client c) .crashed cl i msg).rank svc.total ≤
          5 * (c.n - (i + 1)) + 1) ∧
      (ServiceLocal.client c (cl.goto (.request (i + 1)))).rank svc.total ≤
        5 * (c.n - (i + 1)) + 1 := by
  refine ⟨fun _ => rfl, ?_, Nat.le_refl _⟩
  intro _ msg
  cases msg with
  | response m => exact Nat.le_refl _
  | _ => exact Nat.zero_le _

/-- **Step of a client**. -/
theorem clientMove_rank {c : Client} {cl : ClientLocal}
    (h : (clientMove c svc.database (.client c) .crashed cl).Leads l) :
    l.rank svc.total < cl.pc.rank c.n ∨ l = .client c cl ∧ (ServiceLocal.client c cl).Polls := by
  cases hpc : cl.pc with
  | request i =>
    refine .inl ?_
    simp only [clientMove, hpc, Client.lt_iff] at h
    split at h
    case isTrue hi =>
      split at h
      · obtain ⟨sent, rfl⟩ := h
        simp only [ServiceLocal.rank, ClientLocal.goto, ClientPc.rank, ReceivePoint.stepsLeft]
        omega
      · exact h.elim
    case isFalse hi =>
      rw [h]
      exact Nat.succ_pos _
  | receive i point =>
    obtain ⟨hinside, hhandled, hback⟩ := clientReceive_rank svc c cl i
    simp only [clientMove, hpc] at h
    rcases receiveMove_rank hinside hhandled hback h with hlt | ⟨rfl, rfl⟩
    · exact .inl hlt
    · refine .inr ⟨?_, i, hpc⟩
      rw [ClientLocal.goto, ← hpc]
  | finished =>
    simp only [clientMove, hpc] at h
    exact h.elim

/-- The database in a call of `receive`, and behind it. -/
theorem databaseReceive_rank (svc : Service) (d : DatabaseLocal) :
    (∀ p, (ServiceLocal.database (d.goto (.receive p))).rank svc.total =
        4 * (svc.total - d.sent.length) + p.stepsLeft) ∧
      (∀ (_ : Int32) msg,
        (databaseHandle svc.beyond ServiceLocal.database .crashed d msg).rank svc.total ≤
          4 * (svc.total - d.sent.length)) ∧
      (ServiceLocal.database (d.goto .respond)).rank svc.total ≤
        4 * (svc.total - d.sent.length) := by
  refine ⟨fun _ => rfl, ?_, Nat.le_refl _⟩
  intro _ msg
  cases msg with
  | request m => exact Nat.le_refl _
  | _ => exact Nat.zero_le _

/-- **Step of the database**, which answers a request only if there is one. -/
theorem databaseMove_rank {d : DatabaseLocal}
    (hrespond : d.pc = .respond → d.sent.length < svc.total)
    (h : (databaseMove svc.beyond .database .crashed d).Leads l) :
    l.rank svc.total < d.rank svc.total ∨
      l = .database d ∧ (ServiceLocal.database d).Polls := by
  cases hpc : d.pc with
  | receive point =>
    obtain ⟨hinside, hhandled, hback⟩ := databaseReceive_rank svc d
    have hself : d.goto (.receive point) = d := by rw [DatabaseLocal.goto, ← hpc]
    simp only [databaseMove, hpc] at h
    rcases receiveMove_rank hinside hhandled hback h with hlt | ⟨rfl, rfl⟩
    · rw [hself] at hlt
      exact .inl hlt
    · rw [hself]
      exact .inr ⟨rfl, hpc⟩
  | respond =>
    refine .inl ?_
    have hlt := hrespond hpc
    simp only [databaseMove, hpc] at h
    split at h
    · obtain ⟨sent, rfl⟩ := h
      simp only [ServiceLocal.rank, DatabaseLocal.rank, DatabaseLocal.answered, hpc,
        List.length_append, List.length_singleton, ReceivePoint.stepsLeft]
      omega
    · exact h.elim

/-! ## One step of the service -/

/-- The database has sent a response to each request answered. -/
theorem length_sent : (g.databaseLocal svc).sent.length = g.served.length := by
  show ((g.served.zip (g.answers svc)).map _).length = _
  rw [List.length_map, List.length_zip, ServiceProgress.length_answers, Nat.min_self]

/-- A task of the service is its database or a client. -/
theorem ServiceProgress.Matches.task_cases (hm : g.Matches svc a) (hl : a.tasks t = some l) :
    t = svc.database ∧ l = .database (g.databaseLocal svc) ∨
      ∃ c, svc.client t = some c ∧ l = .client c (g.clientLocal svc t c) := by
  by_cases ht : t = svc.database
  · refine .inl ⟨ht, ?_⟩
    rw [ht, hm.databaseTask] at hl
    exact (Option.some.inj hl).symm
  · cases hc : svc.client t with
    | none =>
      rw [hm.noTasks t ht hc] at hl
      cases hl
    | some c =>
      rw [hm.clientTasks t c hc] at hl
      exact .inr ⟨c, rfl, (Option.some.inj hl).symm⟩

/-- **Step of a task**. -/
theorem service_code_rank (hadm : svc.Admitted) (hv : g.Valid svc) (hm : g.Matches svc a)
    (hl : a.tasks t = some l) (h : (svc.code l).Leads l') :
    t < Repository.maxTask ∧ (l'.rank svc.total < l.rank svc.total ∨ l' = l ∧ l.Polls) := by
  rcases hm.task_cases hl with ⟨rfl, rfl⟩ | ⟨c, hc, rfl⟩
  · refine ⟨hadm.database_lt, databaseMove_rank ?_ h⟩
    intro hpc
    have hpc' : g.database = .respond := hpc
    have hpending := hv.database
    rw [hpc'] at hpending
    have hpos := List.length_pos_of_ne_nil hpending
    have hle := hv.length_requests_le hadm
    rw [List.length_append] at hle
    rw [length_sent]
    omega
  · exact ⟨hadm.client_lt t c hc, clientMove_rank h⟩

/-- No task creates another one. -/
theorem service_code_create {child next : Nat → ServiceLocal} : svc.code l ≠ .create child next := by
  intro h
  cases l with
  | crashed => cases h
  | database d =>
    simp only [Service.code, databaseMove] at h
    split at h
    · rename_i point _
      cases point <;> cases h
    · split at h <;> cases h
  | client c cl =>
    simp only [Service.code, clientMove] at h
    split at h
    · split at h
      · split at h <;> cases h
      · cases h
    · rename_i point _
      cases point <;> cases h
    · cases h

/-- The ranks of the tasks add up. -/
theorem serviceRank_lt (hadm : svc.Admitted) (hv : g.Valid svc) (hm : g.Matches svc a)
    (htasks : s.tasks = a.tasks) (hl : s.tasks t = some l)
    (hstep : s.perform (mailboxes map) t (svc.code l) = some s') (hl' : s'.tasks t = some l')
    (hlt : l'.rank svc.total < l.rank svc.total) : serviceRank svc s' < serviceRank svc s := by
  obtain ⟨⟨l'', hleads, -⟩, -, -⟩ := Net.perform_cases hstep
  have hbound := (service_code_rank hadm hv hm (htasks ▸ hl) hleads).1
  exact Net.rank_lt hstep (fun _ _ hcreate => absurd hcreate service_code_create) hbound hl hl' hlt

/-- A task that polls leaves the queues alone. -/
theorem polls_quiet (h : l.Polls) : (svc.code l).Quiet := by
  cases l with
  | crashed => exact h.elim
  | database d =>
    have hpc : d.pc = .receive .poll := h
    simp only [Service.code, databaseMove, hpc]
    trivial
  | client c cl =>
    obtain ⟨i, hpc⟩ := h
    simp only [Service.code, clientMove, hpc]
    trivial

/-- **Step of the service**: it brings it closer to its end, or changes nothing. -/
theorem service_step_rank (hadm : svc.Admitted) (hv : g.Valid svc) (hm : g.Matches svc a)
    (htasks : s.tasks = a.tasks) (hstep : s.step (mailboxes map) svc.code t = some s') :
    s' = s ∨ serviceRank svc s' < serviceRank svc s := by
  obtain ⟨l, hl, hmove⟩ := Option.bind_eq_some_iff.mp hstep
  obtain ⟨⟨l', hleads, hl'⟩, -, -⟩ := Net.perform_cases hmove
  rcases (service_code_rank hadm hv hm (htasks ▸ hl) hleads).2 with hlt | ⟨rfl, hpolls⟩
  · exact .inr (serviceRank_lt hadm hv hm htasks hl hmove hl' hlt)
  · exact .inl (Net.perform_idle hmove (polls_quiet hpolls) hl hl')

/-- What there is to do at the start is linear in the number of requests. -/
theorem serviceRank_start_le (map : Mapping) (hadm : svc.Admitted) :
    serviceRank svc (.start (mailboxes map) svc.initialTasks Repository.maxTask) ≤
      9 * svc.total + 103 := by
  have hterm : ∀ t, (svc.initialTasks t).elim 0 (ServiceLocal.rank svc.total) ≤
      (if svc.database = t then 4 * svc.total + 3 else 0) + (5 * svc.requests t + 1) := by
    intro t
    unfold Service.initialTasks
    by_cases ht : t = svc.database
    · rw [if_pos ht, if_pos ht.symm]
      simp only [Option.elim_some, ServiceLocal.rank, DatabaseLocal.rank, DatabaseLocal.start,
        List.length_nil, Nat.sub_zero, ReceivePoint.stepsLeft]
      exact Nat.le_add_right _ _
    · rw [if_neg ht, if_neg (Ne.symm ht), Service.requests]
      cases svc.client t with
      | none => exact Nat.zero_le _
      | some c =>
        show 5 * (c.n - 0) + 1 ≤ 0 + (5 * c.n + 1)
        omega
  have hfive : ∀ ts : List Nat, (ts.map fun t => 5 * svc.requests t + 1).sum =
      5 * (ts.map svc.requests).sum + ts.length := by
    intro ts
    induction ts with
    | nil => rfl
    | cons t ts ih =>
      simp only [List.map_cons, List.sum_cons, List.length_cons, ih]
      omega
  calc serviceRank svc (.start (mailboxes map) svc.initialTasks Repository.maxTask)
      ≤ ((List.range Repository.maxTask).map fun t =>
          (if svc.database = t then 4 * svc.total + 3 else 0) + (5 * svc.requests t + 1)).sum :=
        List.sum_le_sum fun t _ => hterm t
    _ = 4 * svc.total + 3 + (5 * svc.total + Repository.maxTask) := by
        rw [List.sum_map_add, sum_ite_eq, if_pos hadm.database_lt, hfive, List.length_range,
          Service.total]
    _ = 9 * svc.total + 103 := by
        unfold Repository.maxTask
        omega

end TaskSystem
