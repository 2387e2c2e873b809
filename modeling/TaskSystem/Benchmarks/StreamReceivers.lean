import TaskSystem.Library.CellRing
import TaskSystem.Library.CPlatform
import TaskSystem.Library.Transition

/-!
# The Stream Receivers

`recv_proc` of `socket_tcp.c`, `dns_ipc.c` and `pipe_ipc.c` in `src/nano_benchmarking`: the server
reads the clients' streams in turn and inserts one element into its list for each read that
returned something. Streams keep no message borders, so what a read returns is up to the system.

## Contents

- `Workload`: what the clients write and how the reads split it
- `Receiver`, `State`, `recvProc`: the three receivers
- `CountsMessages`: one element a message, and no message missing at the end
- `State.Inv`: elements count reads
- `counts_iff`: the receivers count messages exactly when reads return whole ones
-/

namespace TaskSystem.StreamReceivers

open Library Library.CellRing

/-! ## The streams -/

/-- The parameters of a run, and for each client's stream the sizes that successive reads of it
    return: each `update_count` messages of `len` bytes in all. -/
structure Workload where
  updateCount : Nat
  updateSize : Int
  len : Nat
  streams : List (List Nat)
  len_pos : 0 < len
  len_int : (len : Int) ≤ intMax
  updateCount_int : (updateCount : Int) ≤ intMax
  threadCount_int : (streams.length : Int) ≤ intMax
  /-- A read returns between one byte and the size of the buffer. -/
  chunks : ∀ chunks ∈ streams, ∀ c ∈ chunks, 0 < c ∧ c ≤ len
  /-- Streams deliver every byte. -/
  delivered : ∀ chunks ∈ streams, chunks.sum = updateCount * len

/-- `thread_count`: every client has one stream. -/
def Workload.threadCount (w : Workload) : Nat := w.streams.length

/-- `thread_count*update_count` -/
def Workload.rounds (w : Workload) : Nat := w.threadCount * w.updateCount

/-- A stream at the server's end. -/
structure Stream where
  /-- What the reads to come return -/
  left : List Nat
  /-- The bytes read -/
  received : Nat

/-! ## The receivers -/

/-- What the three functions differ in. -/
structure Receiver where
  /-- It accepts the clients first, and what it prints when that fails. -/
  acceptError : Option String
  /-- What it prints when a read returns nothing. -/
  readError : Option String

/-- Where a receiver stands. -/
inductive Point where
  /-- Before it accepts client `i` -/
  | accept (i : Nat)
  /-- Before the test of its `while` loop -/
  | head
  /-- Before the test of its `for` loop at client `t` -/
  | read (t : Nat)
  /-- It has left its loop. -/
  | left
  /-- It has returned because a client was not accepted. -/
  | refused
  /-- An `int` has overflowed. -/
  | undefined
  deriving DecidableEq

structure State where
  point : Point
  i : Nat
  clients : List Stream
  /-- The linked list; `pos` is at its end. -/
  list : List Int
  output : List String

namespace State

variable (r : Receiver) (w : Workload) (s : State)

/-- `while (i < thread_count*update_count)` -/
def whileTest : State :=
  if intMax < (w.rounds : Int) then { s with point := .undefined }
  else if s.i < w.rounds then { s with point := .read 0 }
  else { s with point := .left }

/-- `read(clients[t], buf, len)` and what is done with its result. -/
def readClient (t : Nat) (stream : Stream) : State :=
  match stream.left with
  -- the client has written everything and closed its end
  | [] => { s with output := s.output ++ r.readError.toList, point := .read (t + 1) }
  | e :: left =>
    if intMax < (s.i : Int) + 1 then { s with point := .undefined }
    else
      { s with
        i := s.i + 1
        clients := s.clients.set t ⟨left, stream.received + e⟩
        list := s.list ++ [w.updateSize]
        point := .read (t + 1) }

/-- `for (t < thread_count)` -/
def forTest (t : Nat) : State :=
  if t < w.threadCount then s.readClient r w t (s.clients.getD t ⟨[], 0⟩)
  else { s with point := .head }

end State

/-- What happens next: the answer of an `accept`, or a step of the receiver alone. -/
inductive Event where
  | accepted
  | refused
  | goOn

/-- At the beginning of `recv_proc`. -/
def started (r : Receiver) (w : Workload) : State where
  point := if r.acceptError.isSome then .accept 0 else .head
  i := 0
  clients := w.streams.map fun chunks => ⟨chunks, 0⟩
  list := []
  output := []

/-- The body that the three functions share. -/
def receive (r : Receiver) (w : Workload) : System State Event where
  init s := s = started r w
  step s e :=
    match s.point, e with
    | .accept i, .accepted =>
      if i < w.threadCount then some { s with point := .accept (i + 1) } else none
    | .accept i, .refused =>
      if i < w.threadCount then
        some { s with point := .refused, output := s.output ++ r.acceptError.toList }
      else none
    | .accept i, .goOn => if i < w.threadCount then none else some { s with point := .head }
    | .head, .goOn => some (s.whileTest w)
    | .read t, .goOn => some (s.forTest r w t)
    | _, _ => none

/-- `socket_tcp.c` -/
def socketTcp : Receiver where
  acceptError := some "Error accepting connexion\n"
  readError := some "Thread receiving error\n"

/-- `dns_ipc.c` -/
def dnsIpc : Receiver where
  acceptError := some "Error accepting connexion\n"
  readError := some "Thread receiving error\n"

/-- `pipe_ipc.c`: the pipes have been opened by `main`. -/
def pipeIpc : Receiver where
  acceptError := none
  readError := none

namespace SocketTcp

def recvProc (w : Workload) : System State Event := receive socketTcp w

end SocketTcp

namespace DnsIpc

def recvProc (w : Workload) : System State Event := receive dnsIpc w

end DnsIpc

namespace PipeIpc

def recvProc (w : Workload) : System State Event := receive pipeIpc w

end PipeIpc

/-! ## What the receivers are for -/

/-- The messages of a stream that have been received completely. -/
def Stream.messages (w : Workload) (stream : Stream) : Nat := stream.received / w.len

/-- **One element a message**, and none missing when the loop is left. -/
structure State.Whole (w : Workload) (s : State) : Prop where
  defined : s.point ≠ .undefined
  inserted : s.list.length = tally (·.messages w) s.clients
  complete : s.point = .left → ∀ stream ∈ s.clients, stream.received = w.updateCount * w.len

/-- A receiver counts the messages of a workload. -/
def CountsMessages (recvProc : Workload → System State Event) (w : Workload) : Prop :=
  ∀ s, (recvProc w).Reachable s → s.Whole w

/-! ## The steps -/

variable {r : Receiver} {w : Workload} {s s' : State}

namespace State

/-- The receiver has only moved on or printed something: to the end of the loop once it has
    counted enough, and over the edge when an `int` does not hold the value. -/
def MovesTo (w : Workload) (s s' : State) : Prop :=
  ∃ point output, s' = { s with point := point, output := output } ∧
    (point = .left → w.rounds ≤ s.i) ∧
    (point = .undefined → intMax < (w.rounds : Int) ∨
      ∃ stream ∈ s.clients, stream.left ≠ [] ∧ intMax < (s.i : Int) + 1)

/-- The receiver has read `e` bytes from client `t`, and gone on to the next. -/
def Reads (w : Workload) (s s' : State) : Prop :=
  ∃ t e left received, s.clients[t]? = some ⟨e :: left, received⟩ ∧
    s' = { s with
      i := s.i + 1
      clients := s.clients.set t ⟨left, received + e⟩
      list := s.list ++ [w.updateSize]
      point := .read (t + 1) }

theorem whileTest_movesTo : s.MovesTo w (s.whileTest w) := by
  unfold whileTest
  split
  next hrounds => exact ⟨.undefined, s.output, rfl, nofun, fun _ => .inl hrounds⟩
  next =>
    split
    next => exact ⟨.read 0, s.output, rfl, nofun, nofun⟩
    next hi => exact ⟨.left, s.output, rfl, fun _ => Nat.le_of_not_lt hi, nofun⟩

/-- A client with something to read is one of the clients. -/
theorem client_of_left {t : Nat} (h : (s.clients.getD t ⟨[], 0⟩).left ≠ []) :
    s.clients[t]? = some (s.clients.getD t ⟨[], 0⟩) := by
  rw [List.getD_eq_getElem?_getD] at h ⊢
  cases hclient : s.clients[t]? with
  | none => simp [hclient] at h
  | some stream => rfl

theorem readClient_cases {t : Nat} {stream : Stream}
    (hclient : stream.left ≠ [] → s.clients[t]? = some stream) :
    s.MovesTo w (s.readClient r w t stream) ∨ s.Reads w (s.readClient r w t stream) := by
  obtain ⟨left, received⟩ := stream
  cases left with
  -- `read` returns 0: the stream is at its end, and nothing is counted
  | nil => exact .inl ⟨.read (t + 1), _, rfl, nofun, nofun⟩
  | cons e left =>
    have hmem := hclient (List.cons_ne_nil _ _)
    unfold readClient
    simp only
    split
    next hi =>
      exact .inl ⟨.undefined, s.output, rfl, nofun,
        fun _ => .inr ⟨_, List.mem_of_getElem? hmem, List.cons_ne_nil _ _, hi⟩⟩
    next => exact .inr ⟨t, e, left, received, hmem, rfl⟩

/-- **What a step does.** -/
theorem step_cases {e : Event} (h : (receive r w).step s e = some s') :
    s.MovesTo w s' ∨ s.Reads w s' := by
  simp only [receive] at h
  -- accepting clients, the head of the loop, and the reads in turn
  split at h
  · split at h
    · cases h
      exact .inl ⟨_, s.output, rfl, nofun, nofun⟩
    · cases h
  · split at h
    · cases h
      exact .inl ⟨.refused, _, rfl, nofun, nofun⟩
    · cases h
  · split at h
    · cases h
    · cases h
      exact .inl ⟨.head, s.output, rfl, nofun, nofun⟩
  · cases h
    exact .inl whileTest_movesTo
  next t _ _ =>
    cases h
    unfold forTest
    split
    · exact readClient_cases client_of_left
    · exact .inl ⟨.head, s.output, rfl, nofun, nofun⟩
  · cases h

/-! ## The invariant -/

/-- The reads that will still return something. -/
def chunksLeft (s : State) : Nat := tally (·.left.length) s.clients

theorem left_le {stream : Stream} (h : stream ∈ s.clients) :
    stream.left.length ≤ s.chunksLeft :=
  le_tally h fun stream => stream.left.length

end State

/-- The reads of a run that return something. -/
def Workload.chunkCount (w : Workload) : Nat := tally List.length w.streams

namespace State

/-- **Elements count reads.** -/
structure Inv (w : Workload) (s : State) : Prop where
  length : s.clients.length = w.threadCount
  /-- Every stream has been read up to some point. -/
  split : ∀ (t : Nat) (stream : Stream), s.clients[t]? = some stream →
    ∃ read : List Nat, w.streams[t]? = some (read ++ stream.left) ∧ stream.received = read.sum
  list : s.list.length = s.i
  reads : s.i + s.chunksLeft = w.chunkCount
  left : s.point = .left → w.rounds ≤ s.i

theorem inv_started : (started r w).Inv w where
  length := List.length_map ..
  split t stream hclient := by
    simp only [started, List.getElem?_map] at hclient
    obtain ⟨chunks, hchunks, rfl⟩ := Option.map_eq_some_iff.mp hclient
    exact ⟨[], hchunks, rfl⟩
  list := rfl
  reads := by
    rw [chunksLeft, started, Workload.chunkCount, tally, tally, List.map_map]
    exact Nat.zero_add _
  left h := by
    unfold started at h
    split at h <;> cases h

theorem Inv.movesTo (h : s.Inv w) (hstep : s.MovesTo w s') : s'.Inv w := by
  obtain ⟨point, output, rfl, hleft, -⟩ := hstep
  exact ⟨h.length, h.split, h.list, h.reads, hleft⟩

theorem Inv.reads_step (h : s.Inv w) (hstep : s.Reads w s') : s'.Inv w := by
  obtain ⟨t, e, left, received, hclient, rfl⟩ := hstep
  have hlt := (List.getElem?_eq_some_iff.mp hclient).1
  constructor
  · rw [List.length_set]
    exact h.length
  · intro u stream hstream
    rcases eq_or_ne t u with rfl | hne
    · rw [List.getElem?_set_self hlt] at hstream
      obtain rfl := Option.some.inj hstream
      obtain ⟨read, hread, hsum⟩ := h.split t _ hclient
      -- the stream that was read is one chunk further
      refine ⟨read ++ [e], ?_, ?_⟩
      · rw [hread, List.append_assoc]
        rfl
      · rw [List.sum_append_nat, ← hsum]
        rfl
    · rw [List.getElem?_set_ne hne] at hstream
      exact h.split u stream hstream
  · rw [List.length_append, h.list]
    rfl
  · have htally := tally_set hclient (fun stream => stream.left.length) ⟨left, received + e⟩
    have hreads := h.reads
    simp only [chunksLeft, List.length_cons] at htally hreads ⊢
    omega
  · nofun

theorem inv_of_reachable (h : (receive r w).Reachable s) : s.Inv w := by
  refine h.invariant ?_ ?_
  · rintro s rfl
    exact inv_started
  · intro s e s' hinv hstep
    rcases step_cases hstep with hmoves | hreads
    · exact hinv.movesTo hmoves
    · exact hinv.reads_step hreads

/-! ## Whole messages -/

end State

/-- Every read returns a whole message, and the number of rounds fits an `int`. -/
structure Workload.WholeReads (w : Workload) : Prop where
  rounds : (w.rounds : Int) ≤ intMax
  whole : ∀ chunks ∈ w.streams, ∀ c ∈ chunks, c = w.len

theorem sum_of_whole {n : Nat} {cs : List Nat} (h : ∀ c ∈ cs, c = n) : cs.sum = cs.length * n := by
  rw [List.eq_replicate_of_mem h, List.sum_replicate_nat, List.length_replicate]

namespace Workload.WholeReads

variable (hw : w.WholeReads)
include hw

/-- A client's messages are as many reads. -/
theorem length_of_mem {chunks : List Nat} (h : chunks ∈ w.streams) :
    chunks.length = w.updateCount := by
  have hsum := w.delivered chunks h
  rw [sum_of_whole (hw.whole chunks h)] at hsum
  exact Nat.eq_of_mul_eq_mul_right w.len_pos hsum

theorem chunkCount_eq : w.chunkCount = w.rounds := by
  rw [Workload.chunkCount, tally_congr (g := fun _ => w.updateCount) fun _ h => hw.length_of_mem h,
    tally_const]
  rfl

/-- What has been read of a stream are whole messages. -/
theorem messages_add_left {t : Nat} {stream : Stream} (hinv : s.Inv w)
    (h : s.clients[t]? = some stream) :
    stream.received = stream.messages w * w.len ∧
      stream.messages w + stream.left.length = w.updateCount := by
  obtain ⟨read, hread, hsum⟩ := hinv.split t stream h
  have hmem := List.mem_of_getElem? hread
  have hlength := hw.length_of_mem hmem
  rw [List.length_append] at hlength
  rw [sum_of_whole fun c hc => hw.whole _ hmem c (List.mem_append_left _ hc)] at hsum
  have hmessages : stream.messages w = read.length := by
    rw [Stream.messages, hsum, Nat.mul_div_cancel _ w.len_pos]
  rw [hmessages]
  exact ⟨hsum, hlength⟩

theorem messages_total (hinv : s.Inv w) :
    tally (·.messages w) s.clients + s.chunksLeft = w.rounds := by
  have hall : ∀ stream ∈ s.clients, stream.messages w + stream.left.length = w.updateCount := by
    intro stream hmem
    obtain ⟨t, ht⟩ := List.getElem?_of_mem hmem
    exact (hw.messages_add_left hinv ht).2
  rw [State.chunksLeft, ← tally_add, tally_congr hall, tally_const, hinv.length]
  rfl

/-- The counter of the reads is the number of messages received. -/
theorem i_eq (hinv : s.Inv w) : s.i = tally (·.messages w) s.clients := by
  have hreads := hinv.reads
  have htotal := hw.messages_total hinv
  rw [hw.chunkCount_eq] at hreads
  omega

/-- The counter never runs past the number of rounds. -/
theorem not_undefined (hinv : s.Inv w) (hstep : s.MovesTo w s') : s'.point ≠ .undefined := by
  obtain ⟨point, output, rfl, -, hover⟩ := hstep
  intro hpoint
  have hrounds := hw.rounds
  rcases hover hpoint with hlt | ⟨stream, hmem, hleft, hlt⟩
  · omega
  · -- the stream is one of those with something left, so that not all rounds are done
    have hone : 0 < stream.left.length := List.length_pos_of_ne_nil hleft
    have hle : stream.left.length ≤ s.chunksLeft := State.left_le hmem
    have hreads := hinv.reads
    rw [hw.chunkCount_eq] at hreads
    omega

theorem whole_of_reachable (h : (receive r w).Reachable s) : s.Whole w := by
  have hinv := State.inv_of_reachable h
  refine ⟨?_, ?_, ?_⟩
  · refine (h.invariant (P := fun s => s.Inv w ∧ s.point ≠ .undefined) ?_ ?_).2
    · rintro s rfl
      refine ⟨State.inv_started, ?_⟩
      unfold started
      split <;> nofun
    · rintro s e s' ⟨hinv, -⟩ hstep
      rcases State.step_cases hstep with hmoves | hreads
      · exact ⟨hinv.movesTo hmoves, hw.not_undefined hinv hmoves⟩
      · refine ⟨hinv.reads_step hreads, ?_⟩
        obtain ⟨t, e, left, received, -, rfl⟩ := hreads
        nofun
  -- as many elements as reads, and as many reads as messages
  · rw [hinv.list, hw.i_eq hinv]
  · intro hpoint stream hmem
    obtain ⟨t, ht⟩ := List.getElem?_of_mem hmem
    obtain ⟨hreceived, hcount⟩ := hw.messages_add_left hinv ht
    -- all rounds are done, so that nothing is left in any stream
    have hdone := hinv.left hpoint
    have hi := hw.i_eq hinv
    have htotal := hw.messages_total hinv
    have hle : stream.left.length ≤ s.chunksLeft := State.left_le hmem
    have hmessages : stream.messages w = w.updateCount := by omega
    rw [hreceived, hmessages]

end Workload.WholeReads

/-! ## Broken messages -/

theorem length_ge_of_sum {n k : Nat} {cs : List Nat} (hle : ∀ c ∈ cs, c ≤ k) (hk : 0 < k)
    (hsum : cs.sum = n * k) : n ≤ cs.length := by
  have hbound : tally id cs ≤ tally (fun _ => k) cs := tally_le hle
  rw [tally_const, tally, List.map_id, hsum] at hbound
  exact Nat.le_of_mul_le_mul_right hbound hk

/-- As many chunks as messages are whole messages. -/
theorem whole_of_sum {k : Nat} {cs : List Nat} (hle : ∀ c ∈ cs, c ≤ k)
    (hsum : cs.sum = cs.length * k) : ∀ c ∈ cs, c = k := by
  refine eq_of_tally_le (f := id) (g := fun _ => k) hle ?_
  rw [tally_const, tally, List.map_id, hsum]

/-- There are at least as many reads as messages. -/
theorem rounds_le_chunkCount (w : Workload) : w.rounds ≤ w.chunkCount := by
  rw [Workload.rounds, Workload.threadCount, ← tally_const, Workload.chunkCount]
  apply tally_le
  intro chunks hmem
  exact length_ge_of_sum (fun c hc => (w.chunks chunks hmem c hc).2) w.len_pos
    (w.delivered chunks hmem)

/-- The receiver accepts all its clients, in some run. -/
theorem exists_head (r : Receiver) (w : Workload) :
    ∃ s, (receive r w).Reachable s ∧ s.point = .head := by
  have hstart : (receive r w).Reachable (started r w) := .init rfl
  by_cases haccepts : r.acceptError.isSome
  · have haccept : ∀ k, k ≤ w.threadCount →
        (receive r w).Reachable { started r w with point := .accept k } := by
      intro k
      induction k with
      | zero =>
        intro _
        simpa [started, haccepts] using hstart
      | succ k ih =>
        intro hk
        refine (ih (Nat.le_of_succ_le hk)).step (e := .accepted) ?_
        simp [receive, Nat.lt_of_succ_le hk]
    refine ⟨{ started r w with point := .head }, ?_, rfl⟩
    refine (haccept w.threadCount (Nat.le_refl _)).step (e := .goOn) ?_
    simp [receive]
  · exact ⟨started r w, hstart, by simp [started, haccepts]⟩

section CountsMessages

variable (hall : CountsMessages (receive r) w)
include hall

theorem rounds_le_of_countsMessages : (w.rounds : Int) ≤ intMax := by
  obtain ⟨s, hs, hhead⟩ := exists_head r w
  by_contra hlt
  have hstep : (receive r w).step s .goOn = some { s with point := .undefined } := by
    simp [receive, hhead, State.whileTest, Int.not_le.mp hlt]
  exact (hall _ (hs.step hstep)).defined rfl

/-- **One client**: the receiver goes on to the next, with one read less to come if there was
    something to read. -/
theorem read_step {t : Nat} (ht : t < w.threadCount) (hs : (receive r w).Reachable s)
    (hpoint : s.point = .read t) :
    ∃ s', (receive r w).Reachable s' ∧ s'.point = .read (t + 1) ∧
      (∀ u, t < u → s'.clients[u]? = s.clients[u]?) ∧ s'.chunksLeft ≤ s.chunksLeft ∧
      ((∃ stream, s.clients[t]? = some stream ∧ stream.left ≠ []) →
        s'.chunksLeft < s.chunksLeft) := by
  have hinv := State.inv_of_reachable hs
  obtain ⟨⟨left, received⟩, hclient⟩ :
      ∃ stream, s.clients[t]? = some stream := ⟨_, List.getElem?_eq_getElem (hinv.length ▸ ht)⟩
  have hstep : (receive r w).step s .goOn = some (s.readClient r w t ⟨left, received⟩) := by
    simp [receive, hpoint, State.forTest, ht, List.getD_eq_getElem?_getD, hclient]
  have hreach := hs.step hstep
  refine ⟨_, hreach, ?_⟩
  cases left with
  | nil =>
    refine ⟨rfl, fun _ _ => rfl, Nat.le_refl _, ?_⟩
    rintro ⟨stream, hstream, hleft⟩
    obtain rfl := Option.some.inj (hclient.symm.trans hstream)
    exact absurd rfl hleft
  | cons e left =>
    -- `i++` does not overflow, as every reachable state is defined
    by_cases hover : intMax < (s.i : Int) + 1
    · have hundefined : (s.readClient r w t ⟨e :: left, received⟩).point = .undefined := by
        simp [State.readClient, hover]
      exact absurd hundefined (hall _ hreach).defined
    · have htally := tally_set hclient (fun stream => stream.left.length) ⟨left, received + e⟩
      simp only [List.length_cons] at htally
      have hless : (s.readClient r w t ⟨e :: left, received⟩).chunksLeft < s.chunksLeft := by
        simp only [State.readClient, hover, if_false, State.chunksLeft]
        omega
      refine ⟨?_, ?_, Nat.le_of_lt hless, fun _ => hless⟩
      · simp [State.readClient, hover]
      · intro u hu
        simp [State.readClient, hover, List.getElem?_set_ne (Nat.ne_of_lt hu)]

/-- **One round**: the receiver comes back to its test, with fewer reads to come if there was
    something to read. -/
theorem round_step (k : Nat) {t : Nat} (ht : t + k = w.threadCount)
    (hs : (receive r w).Reachable s) (hpoint : s.point = .read t) :
    ∃ s', (receive r w).Reachable s' ∧ s'.point = .head ∧ s'.chunksLeft ≤ s.chunksLeft ∧
      ((∃ u stream, t ≤ u ∧ s.clients[u]? = some stream ∧ stream.left ≠ []) →
        s'.chunksLeft < s.chunksLeft) := by
  induction k generalizing s t with
  | zero =>
    have hend : ¬ t < w.threadCount := by omega
    have hstep : (receive r w).step s .goOn = some { s with point := .head } := by
      simp [receive, hpoint, State.forTest, hend]
    refine ⟨_, hs.step hstep, rfl, Nat.le_refl _, ?_⟩
    rintro ⟨u, stream, hu, hclient, -⟩
    have hlt := (List.getElem?_eq_some_iff.mp hclient).1
    rw [(State.inv_of_reachable hs).length] at hlt
    omega
  | succ k ih =>
    obtain ⟨s₁, hs₁, hpoint₁, hrest, hle₁, hless₁⟩ := read_step hall (by omega) hs hpoint
    obtain ⟨s₂, hs₂, hpoint₂, hle₂, hless₂⟩ := ih (by omega) hs₁ hpoint₁
    refine ⟨s₂, hs₂, hpoint₂, Nat.le_trans hle₂ hle₁, ?_⟩
    rintro ⟨u, stream, hu, hclient, hleft⟩
    rcases Nat.eq_or_lt_of_le hu with rfl | hlt
    · exact Nat.lt_of_le_of_lt hle₂ (hless₁ ⟨stream, hclient, hleft⟩)
    · exact Nat.lt_of_lt_of_le
        (hless₂ ⟨u, stream, hlt, (hrest u hlt).trans hclient, hleft⟩) hle₁

/-- The receiver leaves its loop, in some run. -/
theorem exists_left (n : Nat) (hs : (receive r w).Reachable s) (hpoint : s.point = .head)
    (hn : s.chunksLeft = n) : ∃ s', (receive r w).Reachable s' ∧ s'.point = .left := by
  induction n using Nat.strong_induction_on generalizing s with
  | _ n ih =>
    have hfits := Int.not_lt.mpr (rounds_le_of_countsMessages hall)
    -- another round, in which something is read
    by_cases hi : s.i < w.rounds
    · have hstep : (receive r w).step s .goOn = some { s with point := .read 0 } := by
        simp [receive, hpoint, State.whileTest, hfits, hi]
      obtain ⟨s', hs', hpoint', -, hless⟩ :=
        round_step hall w.threadCount (Nat.zero_add _) (hs.step hstep) rfl
      -- not all rounds are done, so that some stream has something left
      have hinv := State.inv_of_reachable hs
      have hsome : ∃ u stream, 0 ≤ u ∧ s.clients[u]? = some stream ∧ stream.left ≠ [] := by
        by_contra hnone
        have hzero : s.chunksLeft = 0 := by
          apply tally_eq_zero
          intro stream hmem
          obtain ⟨u, hu⟩ := List.getElem?_of_mem hmem
          by_contra hleft
          exact hnone ⟨u, stream, Nat.zero_le _, hu, fun hnil => hleft (by rw [hnil]; rfl)⟩
        have hreads := hinv.reads
        have hrounds := rounds_le_chunkCount w
        omega
      exact ih s'.chunksLeft (hn ▸ hless hsome) hs' hpoint' rfl
    · have hstep : (receive r w).step s .goOn = some { s with point := .left } := by
        simp [receive, hpoint, State.whileTest, hfits, hi]
      exact ⟨_, hs.step hstep, rfl⟩

/-- **Broken messages are miscounted**: the receiver counts messages only if reads return whole
    ones. -/
theorem wholeReads_of_countsMessages : w.WholeReads := by
  obtain ⟨s₀, hs₀, hhead⟩ := exists_head r w
  obtain ⟨s, hs, hleft⟩ := exists_left hall s₀.chunksLeft hs₀ hhead rfl
  have hinv := State.inv_of_reachable hs
  have hwhole := hall s hs
  have hcomplete := hwhole.complete hleft
  -- all streams have been read to their ends
  have hempty : ∀ stream ∈ s.clients, stream.left = [] := by
    intro stream hmem
    obtain ⟨t, ht⟩ := List.getElem?_of_mem hmem
    obtain ⟨read, hread, hsum⟩ := hinv.split t stream ht
    have hchunks := List.mem_of_getElem? hread
    have hdelivered := w.delivered _ hchunks
    rw [List.sum_append_nat, ← hsum, hcomplete stream hmem] at hdelivered
    have hzero : stream.left.sum = 0 := by omega
    apply List.eq_nil_iff_forall_not_mem.mpr
    intro c hc
    have hpos := (w.chunks _ hchunks c (List.mem_append_right _ hc)).1
    have hle := List.le_sum_of_mem hc
    omega
  have hnone : s.chunksLeft = 0 := tally_eq_zero fun stream hmem => by rw [hempty stream hmem]; rfl
  have hmessages : ∀ stream ∈ s.clients, stream.messages w = w.updateCount := by
    intro stream hmem
    rw [Stream.messages, hcomplete stream hmem, Nat.mul_div_cancel _ w.len_pos]
  -- so there have been as many reads as there are messages
  have hcount : w.chunkCount = w.rounds := by
    have hinserted := hwhole.inserted
    rw [hinv.list, tally_congr hmessages, tally_const, hinv.length] at hinserted
    rw [← hinv.reads, hnone, hinserted]
    rfl
  have hlength : ∀ chunks ∈ w.streams, w.updateCount = chunks.length := by
    refine eq_of_tally_le (f := fun _ => w.updateCount) (g := List.length) ?_ ?_
    · intro chunks hmem
      exact length_ge_of_sum (fun c hc => (w.chunks chunks hmem c hc).2) w.len_pos
        (w.delivered chunks hmem)
    · rw [tally_const]
      exact Nat.le_of_eq hcount
  constructor
  · exact rounds_le_of_countsMessages hall
  · intro chunks hmem
    refine whole_of_sum (fun c hc => (w.chunks chunks hmem c hc).2) ?_
    rw [← hlength chunks hmem]
    exact w.delivered chunks hmem

end CountsMessages

theorem receive_countsMessages_iff (r : Receiver) (w : Workload) :
    CountsMessages (receive r) w ↔ w.WholeReads := by
  constructor
  · exact wholeReads_of_countsMessages
  · intro hw s hs
    exact hw.whole_of_reachable hs

/-- **The receivers count messages** exactly when no message is broken in a read, and the number
    of rounds fits an `int`. -/
theorem counts_iff (w : Workload) :
    (CountsMessages SocketTcp.recvProc w ↔ w.WholeReads) ∧
      (CountsMessages DnsIpc.recvProc w ↔ w.WholeReads) ∧
      (CountsMessages PipeIpc.recvProc w ↔ w.WholeReads) :=
  ⟨receive_countsMessages_iff socketTcp w, receive_countsMessages_iff dnsIpc w,
    receive_countsMessages_iff pipeIpc w⟩

/-- One client writes one message of four bytes, and the first read returns one of them. -/
def brokenMessage : Workload where
  updateCount := 1
  updateSize := 0
  len := 4
  streams := [[1, 3]]
  len_pos := by decide
  len_int := by decide
  updateCount_int := by decide
  threadCount_int := by decide
  chunks := by decide
  delivered := by decide

/-- The receiver has left its loop with three of the four bytes unread. -/
def leftEarly : State where
  point := .left
  i := 1
  clients := [⟨[3], 1⟩]
  list := [0]
  output := []

theorem not_whole_leftEarly : ¬ leftEarly.Whole brokenMessage := by
  intro h
  exact absurd (h.complete rfl _ (List.mem_singleton_self _)) (by decide)

/-- **A broken message counts at once**: each of the three receivers has an element for a message
    of which it has one byte, and leaves its loop. -/
theorem broken_message_counted :
    ¬ CountsMessages SocketTcp.recvProc brokenMessage ∧
      ¬ CountsMessages DnsIpc.recvProc brokenMessage ∧
      ¬ CountsMessages PipeIpc.recvProc brokenMessage := by
  have hrun : ∀ recvProc : Workload → System State Event,
      (recvProc brokenMessage).Reachable leftEarly → ¬ CountsMessages recvProc brokenMessage :=
    fun _ hreach hcounts => not_whole_leftEarly (hcounts _ hreach)
  refine ⟨hrun _ ?_, hrun _ ?_, hrun _ ?_⟩
  -- accept the client, read one byte of it, and find all rounds done
  · exact .runFrom (.init rfl) [.accepted, .goOn, .goOn, .goOn, .goOn, .goOn] rfl
  · exact .runFrom (.init rfl) [.accepted, .goOn, .goOn, .goOn, .goOn, .goOn] rfl
  · exact .runFrom (.init rfl) [.goOn, .goOn, .goOn, .goOn] rfl

end TaskSystem.StreamReceivers
