import TaskSystem.Library.NetworkRank
import TaskSystem.Tasks.SampleSort.Lifetime

/-!
# What the Tasks of a Sample Sort Have Still to Do

Every step of the starter, of the root and of a bucket brings the sort closer to its end, but for
a poll that finds no message and a loop that is still drawing samples; these leave everything as
it is.

## Contents

- `BucketPc.rank`, `RootPc.rank`, `Local.rank`: steps still to be taken; `sortRank`: by all tasks
- `Local.Waits`: where a step may change nothing
- `bucketMove_rank`, `rootMove_rank`: one step of a task
- `code_rank`, `sortRank_lt`: one step of the sort
-/

namespace TaskSystem.SampleSort

open Library

variable {set : Setting} {g : Progress} {a : Net Local (Log AnyMsg)} {s s' : Net Local Mailbox}
  {map : Mapping} {t : Nat} {l l' : Local}

/-! ## Steps still to be taken -/

/-- What a bucket has still to do after so many calls of `receive` have returned. -/
def BucketPc.rest : Nat → Nat
  | 4 => 2
  | call => 3 * (3 - call) + 6

def BucketPc.rank : BucketPc → Nat
  | .receive call point => rest call + point.stepsLeft
  | .propagate => 6
  | .sendDone => 2
  | .leave => 1
  | .returned => 0

/-- What the root has still to do from the beginning of phase 3, of `k` buckets, -/
def phase3Rank (k : Nat) : Nat := 4 * k + 2 + k * (k + 1) + k

/-- and from the first call of `receive` in phase 2. -/
def phase2Rank (k : Nat) : Nat := phase3Rank k + 4 * k + 1

/-- What the root has still to do after the call. -/
def RootCall.rest (k : Nat) : RootCall → Nat
  | .bar => phase2Rank k + 5 * k + 9
  | .refIntarray => phase2Rank k + 5 * k + 6
  | .subArray ki => phase3Rank k + 4 * (k - (ki + 1)) + 1
  | .done ki => 4 * (k - (ki + 1)) + 1

def RootPc.rank (k : Nat) : RootPc → Nat
  | .receive call point => call.rest k + point.stepsLeft
  | .sample => phase2Rank k + 5 * k + 6
  | .create i => phase2Rank k + 4 * k + 5 + (k - i)
  | .topology i _ => phase2Rank k + 3 * k + 4 + (k - i)
  | .dataRef ki => phase2Rank k + 2 * k + 3 + (k - ki)
  | .splitters ki => phase2Rank k + k + 2 + (k - ki)
  | .getSubArray ki => phase2Rank k + 1 + (k - ki)
  | .waitSubArrays ki => phase3Rank k + 4 * (k - ki) + 1
  | .gather ki kj => 4 * k + 2 + (k - ki) * (k + 1) + (k - kj)
  | .waitDone ki => 4 * (k - ki) + 1
  | .finished => 0

def Local.rank (k : Nat) : Local → Nat
  | .starter sent => 2 - sent
  | .root r => r.pc.rank k
  | .bucket b => b.pc.rank
  | .crashed => 0

/-- The task polls its queue, or is drawing samples. -/
def Local.Waits : Local → Prop
  | .root r => (∃ call, r.pc = .receive call .poll) ∨ r.pc = .sample
  | .bucket b => ∃ call, b.pc = .receive call .poll
  | _ => False

/-- What all tasks together have still to do; a bucket that has not been created, all of its
    `start`. -/
def sortRank {C : Type} (set : Setting) (s : Net Local C) : Nat :=
  s.rank (Local.rank set.k) (BucketPc.rank (.receive 0 .poll)) (bucketTask set.k)

/-! ## One step of a bucket -/

theorem BucketPc.rank_after {call : Nat} (h : call ≤ 4) : (after call).rank ≤ rest call := by
  match call with
  | 0 | 1 | 2 | 3 | 4 => decide
  | n + 5 => omega

/-- A bucket in a call of `receive`, and behind it. -/
theorem bucketReceive_rank (b : BucketLocal) {call : Nat} (hcall : call ≤ 4) (k : Nat) :
    (∀ p, (b.goto (.receive call p)).rank k = BucketPc.rest call + p.stepsLeft) ∧
      (∀ tag msg, (b.handled call tag msg).rank k ≤ BucketPc.rest call) ∧
      (b.goto (.after call)).rank k ≤ BucketPc.rest call := by
  have hback := BucketPc.rank_after hcall
  refine ⟨fun _ => rfl, ?_, hback⟩
  intro tag msg
  unfold BucketLocal.handled
  split
  · exact hback
  · exact Nat.zero_le _

/-- **Step of a bucket**. -/
theorem bucketMove_rank {b : BucketLocal} (hcall : ∀ call point, b.pc = .receive call point →
    call ≤ 4) (h : (bucketMove set b).Leads l) :
    l.rank set.k < b.pc.rank ∨ (l = .bucket b ∧ (Local.bucket b).Waits) := by
  cases hpc : b.pc with
  | receive call point =>
    obtain ⟨hinside, hhandled, hback⟩ := bucketReceive_rank b (hcall call point hpc) set.k
    simp only [bucketMove, hpc] at h
    rcases receiveMove_rank hinside hhandled hback h with hlt | ⟨rfl, rfl⟩
    · exact .inl hlt
    · refine .inr ⟨?_, call, hpc⟩
      rw [BucketLocal.goto, ← hpc]
  | propagate =>
    simp only [bucketMove, hpc] at h
    split at h
    · obtain ⟨sent, rfl⟩ := h
      exact .inl (Nat.lt_succ_self 5)
    · exact h.elim
  | sendDone =>
    simp only [bucketMove, hpc] at h
    split at h
    · obtain ⟨sent, rfl⟩ := h
      exact .inl (Nat.lt_succ_self 1)
    · exact h.elim
  | leave =>
    simp only [bucketMove, hpc] at h
    obtain rfl : l = b.goto .returned := h
    exact .inl Nat.zero_lt_one
  | returned =>
    simp only [bucketMove, hpc] at h
    exact h.elim

/-! ## One step of the root -/

theorem RootPc.rank_after (k : Nat) (call : RootCall) : (after call).rank k ≤ call.rest k := by
  cases call with
  | bar =>
    simp only [after, rank, RootCall.rest, ReceivePoint.stepsLeft]
    omega
  | refIntarray | subArray ki | done ki =>
    simp only [after, rank, RootCall.rest]
    omega

/-- The root in a call of `receive`, and behind it. -/
theorem rootReceive_rank (r : RootLocal) (call : RootCall) (k : Nat) :
    (∀ p, (r.goto (.receive call p)).rank k = call.rest k + p.stepsLeft) ∧
      (∀ tag msg, (r.handled call tag msg).rank k ≤ call.rest k) ∧
      (r.goto (.after call)).rank k ≤ call.rest k := by
  have hback := RootPc.rank_after k call
  refine ⟨fun _ => rfl, ?_, hback⟩
  intro tag msg
  unfold RootLocal.handled
  split
  · exact hback
  · exact Nat.zero_le _

/-- The next round of phase 3. -/
theorem RootPc.rank_round {k ki : Nat} (hki : ki < k) :
    (gather (ki + 1) 0).rank k < (gather ki k).rank k := by
  have hround : (k - ki) * (k + 1) = (k - (ki + 1)) * (k + 1) + (k + 1) := by
    rw [← Nat.succ_mul]
    congr 1
    omega
  simp only [rank, hround]
  omega

/-- **Step of the root** between its calls of `receive`, in which only drawing samples may leave it
    where it is. -/
theorem phaseMove_rank (hadm : set.Admitted) {r : RootLocal} {msgs : List AnyMsg} {size : Int32}
    {data : UInt64} (hvalid : r.pc.Valid set msgs)
    (h : (r.phaseMove set set.K size data r.pc).Leads l) :
    l.rank set.k < r.pc.rank set.k ∨ (l = .root r ∧ r.pc = .sample) := by
  generalize hpc : r.pc = pc at h hvalid ⊢
  cases pc with
  | receive call point => exact h.elim
  | finished => exact h.elim
  | sample =>
    simp only [RootLocal.phaseMove] at h
    split at h
    case isTrue => exact h.elim
    case isFalse =>
      split at h
      case h_1 => exact h.elim
      case h_2 =>
        split at h
        case h_1 splitters hpicked =>
          refine .inl ?_
          rw [h]
          simp only [Local.rank, RootPc.rank]
          omega
        case h_2 =>
          refine .inr ⟨?_, rfl⟩
          rw [h, RootLocal.goto, ← hpc]
  | create i =>
    refine .inl ?_
    simp only [RootLocal.phaseMove, hadm.lt_iff] at h
    split at h
    case isTrue hi =>
      obtain ⟨id, rfl⟩ := h
      simp only [Local.rank, RootPc.rank]
      omega
    case isFalse hi =>
      rw [h]
      simp only [Local.rank, RootLocal.goto, RootPc.rank]
      omega
  | waitSubArrays i | waitDone i =>
    refine .inl ?_
    simp only [RootLocal.phaseMove, hadm.lt_iff] at h
    split at h
    case isTrue hi =>
      rw [h]
      simp only [Local.rank, RootLocal.goto, RootPc.rank, RootCall.rest, ReceivePoint.stepsLeft]
      omega
    case isFalse hi =>
      rw [h]
      simp only [Local.rank, RootLocal.goto, RootPc.rank, phase3Rank, Nat.sub_zero]
      omega
  | gather ki kj =>
    refine .inl ?_
    simp only [RootLocal.phaseMove, hadm.lt_iff] at h
    split at h
    case isTrue hki =>
      split at h
      case isTrue hkj =>
        split at h
        · rw [h]
          simp only [Local.rank, RootLocal.goto, RootPc.rank]
          omega
        · exact h.elim
      case isFalse hkj =>
        obtain ⟨sent, rfl⟩ := sendTo_leads h
        obtain rfl : kj = set.k := Nat.le_antisymm hvalid.2 (Nat.le_of_not_lt hkj)
        exact RootPc.rank_round hki
    case isFalse hki =>
      rw [h]
      simp only [Local.rank, RootLocal.goto, RootPc.rank, Nat.sub_zero]
      omega
  | topology i | dataRef i | splitters i | getSubArray i =>
    refine .inl ?_
    simp only [RootLocal.phaseMove, hadm.lt_iff] at h
    split at h
    case isTrue hi =>
      obtain ⟨sent, rfl⟩ := sendTo_leads h
      simp only [Local.rank, RootLocal.goto, RootPc.rank]
      omega
    case isFalse hi =>
      rw [h]
      simp only [Local.rank, RootLocal.goto, RootPc.rank, phase2Rank]
      omega

/-- **Step of the root**. -/
theorem rootMove_rank (hadm : set.Admitted) (hv : g.Valid set)
    (h : (rootMove set (g.rootLocal set)).Leads l) :
    l.rank set.k < g.root.rank set.k ∨
      (l = .root (g.rootLocal set) ∧ (Local.root (g.rootLocal set)).Waits) := by
  have hvalid := hv.root
  cases hpc : g.root with
  | receive call point =>
    have hpc' : (g.rootLocal set).pc = .receive call point := hpc
    obtain ⟨hinside, hhandled, hback⟩ := rootReceive_rank (g.rootLocal set) call set.k
    simp only [rootMove, hpc'] at h
    rcases receiveMove_rank hinside hhandled hback h with hlt | ⟨rfl, rfl⟩
    · exact .inl hlt
    · refine .inr ⟨?_, .inl ⟨call, hpc'⟩⟩
      rw [RootLocal.goto, ← hpc']
  | _ =>
    have hcode : rootMove set (g.rootLocal set) =
        (g.rootLocal set).phaseMove set set.K set.n set.testData g.root := by
      apply code_rootPhase
      intro call point hreceive
      rw [hpc] at hreceive
      cases hreceive
    have hphase : (g.rootLocal set).pc.Valid set (g.toRoot set) := hvalid
    rw [hcode] at h
    rw [← hpc]
    rcases phaseMove_rank hadm hphase h with hlt | ⟨hself, hsample⟩
    · exact .inl hlt
    · exact .inr ⟨hself, .inr hsample⟩

/-! ## One step of the sort -/

/-- Drawing samples uses no queue. -/
theorem sample_quiet {r : RootLocal} {K size : Int32} {data : UInt64}
    (h : (r.phaseMove set K size data .sample).Leads l) :
    (r.phaseMove set K size data .sample).Quiet := by
  simp only [RootLocal.phaseMove] at h ⊢
  by_cases hK : K ≤ 0
  · rw [if_pos hK] at h
    exact h.elim
  · rw [if_neg hK] at h ⊢
    cases harray : set.arrayAt data size with
    | none =>
      rw [harray] at h
      exact h.elim
    | some values =>
      simp only []
      cases set.pickedSplitters values K <;> trivial

/-- A task that waits leaves the queues alone. -/
theorem waits_quiet (hwaits : l.Waits) (h : (code set l).Leads l') : (code set l).Quiet := by
  cases l with
  | starter | crashed => exact hwaits.elim
  | bucket b =>
    obtain ⟨call, hpc⟩ := hwaits
    rw [code_bucketReceive hpc]
    trivial
  | root r =>
    rcases hwaits with ⟨call, hpc⟩ | hpc
    · rw [code_rootReceive hpc]
      trivial
    · simp only [code, rootMove, hpc] at h ⊢
      cases hK : r.this.K with
      | none =>
        simp only [hK] at h
        exact h.elim
      | some K =>
        cases hsize : r.this.size with
        | none =>
          simp only [hK, hsize] at h
          exact h.elim
        | some size =>
          cases hdata : r.this.data with
          | none =>
            simp only [hK, hsize, hdata] at h
            exact h.elim
          | some data =>
            simp only [hK, hsize, hdata] at h
            exact sample_quiet h

/-- **Step of a task**. -/
theorem code_rank (hadm : set.Admitted) (hv : g.Valid set) (hm : g.Matches set a)
    (hl : a.tasks t = some l) (h : (code set l).Leads l') :
    t < bucketTask set.k ∧
      (l'.rank set.k < l.rank set.k ∨ (l' = l ∧ l.Waits)) := by
  have hbound : ∀ i < set.k, bucketTask i < bucketTask set.k := by
    intro i hi
    unfold bucketTask
    omega
  have hone := hbound 0 hadm.one_le_k
  match t with
  | 0 =>
    obtain rfl := Option.some.inj (hl.symm.trans hm.starterTask)
    refine ⟨Nat.zero_lt_of_lt hone, .inl ?_⟩
    generalize g.started = n at h
    match n with
    | 0 | 1 =>
      obtain ⟨sent, rfl⟩ := h
      simp [Local.rank]
    | n + 2 => exact h.elim
  | 1 =>
    obtain rfl := Option.some.inj (hl.symm.trans hm.rootTask)
    refine ⟨Nat.lt_of_succ_lt hone, ?_⟩
    exact rootMove_rank hadm hv h
  | i + 2 =>
    have htask : i + 2 = bucketTask i := by
      unfold bucketTask samplesort
      omega
    rw [htask] at hl ⊢
    obtain ⟨hi, rfl⟩ : i < g.root.created set.k ∧ l = .bucket (g.bucketLocal set i) := by
      by_cases hi : i < g.root.created set.k
      · exact ⟨hi, Option.some.inj (hl.symm.trans (hm.bucketTasks i hi))⟩
      · rw [hm.noTasks i (Nat.le_of_not_lt hi)] at hl
        cases hl
    refine ⟨hbound i (Nat.lt_of_lt_of_le hi hv.created_le), bucketMove_rank ?_ h⟩
    intro call point hpc
    have hvalid := hv.bucket i hi
    have hpc' : g.bucket i = .receive call point := hpc
    rw [hpc'] at hvalid
    exact hvalid.1

/-- The ranks of the tasks add up. -/
theorem sortRank_lt (hadm : set.Admitted) (hv : g.Valid set) (hm : g.Matches set a)
    (htracks : s.Tracks (mailboxes_carry map recordCap) a) (hl : s.tasks t = some l)
    (hstep : s.perform (mailboxes map) t (code set l) = some s') (hl' : s'.tasks t = some l')
    (hlt : l'.rank set.k < l.rank set.k) : sortRank set s' < sortRank set s := by
  obtain ⟨⟨l'', hleads, -⟩, -, -⟩ := Net.perform_cases hstep
  have hfresh : s.tasks s.nextId = none := by
    rw [htracks.tasks, htracks.nextId, hm.nextId]
    exact hm.noTasks _ (Nat.le_refl _)
  have hbound := (code_rank hadm hv hm (htracks.tasks ▸ hl) hleads).1
  apply Net.rank_lt hstep ?_ hbound hl hl' hlt
  intro child next hcreate
  refine ⟨hfresh, fun id => ?_⟩
  rw [code_create hcreate]
  exact Nat.le_refl _

/-- What there is to do when the sort starts. -/
theorem sortRank_start {map : Mapping} :
    sortRank set (.start (mailboxes map) initialTasks (samplesort + 1)) =
      set.k * set.k + 33 * set.k + 17 := by
  have htasks : (List.range (bucketTask set.k)).map (fun t =>
      (initialTasks t).elim (BucketPc.rank (.receive 0 .poll)) (Local.rank set.k)) =
      Local.rank set.k (.starter 0) :: Local.rank set.k (.root (.start 1)) ::
        List.replicate set.k (BucketPc.rank (.receive 0 .poll)) := by
    have hrange : bucketTask set.k = set.k + 1 + 1 := by
      unfold bucketTask samplesort
      omega
    rw [hrange, List.range_succ_eq_map, List.range_succ_eq_map]
    simp only [List.map_cons, List.map_map]
    refine congrArg₂ _ rfl (congrArg₂ _ rfl ?_)
    -- no bucket has been created
    refine List.eq_replicate_iff.mpr ⟨by simp, ?_⟩
    intro n hn
    obtain ⟨i, -, rfl⟩ := List.mem_map.mp hn
    rfl
  simp only [sortRank, Net.rank, Net.start, htasks]
  simp [Local.rank, RootLocal.start, RootPc.rank, RootCall.rest, phase2Rank, phase3Rank,
    BucketPc.rank, BucketPc.rest, ReceivePoint.stepsLeft]
  ring

end TaskSystem.SampleSort
