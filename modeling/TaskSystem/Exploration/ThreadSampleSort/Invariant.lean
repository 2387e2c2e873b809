import TaskSystem.Exploration.ThreadSampleSort.Sampling
import TaskSystem.Library.CellRing

/-!
# The Invariant of the Threaded Sample Sort

What holds of the threads in every reachable state, where there are enough values for the number
of tasks: how far each is, what the counter of samples and the barrier say about that, and where
the values are.

## Contents

- `Tokens`: the threads' places, the event and the barrier
- `Contents`: samples, splitters and the tasks' data
- `Flow`: every value is with one thread, or still to be handed out
- `inv_of_reachable`: they hold in every reachable state
-/

namespace TaskSystem.ThreadSampleSort

open Library Library.CellRing

variable {α : Type*}

/-! ## Places -/

namespace TaskPoint

/-- The samples have been sent. -/
def sent : TaskPoint α → Bool
  | .barrier | .waiting | .swap _ | .done => true
  | _ => false

/-- The thread has come to the barrier. -/
def arrived : TaskPoint α → Bool
  | .waiting | .swap _ | .done => true
  | _ => false

/-- The thread has passed the barrier. -/
def released : TaskPoint α → Bool
  | .swap _ | .done => true
  | _ => false

end TaskPoint

namespace MainPoint

/-- The number of tasks created -/
def created (K : Nat) : MainPoint → Nat
  | .spawn ki _ => ki
  | _ => K

/-- The number of tasks that have the splitters -/
def given (K : Nat) : MainPoint → Nat
  | .spawn .. | .waitEvent | .failed => 0
  | .setSplitters ki => ki
  | _ => K

def arrived : MainPoint → Bool
  | .waiting | .join _ | .done => true
  | _ => false

def released : MainPoint → Bool
  | .join _ | .done => true
  | _ => false

/-- The number of tasks joined -/
def joined (K : Nat) : MainPoint → Nat
  | .join ki => ki
  | .done => K
  | _ => 0

end MainPoint

/-! ## The invariant -/

/-- **Where the threads stand.** -/
structure Tokens (x : Input α) (s : State α) : Prop where
  created : s.threads.length = s.main.created x.K
  cursor : ∀ ki currentIndex, s.main = .spawn ki currentIndex →
    ki ≤ x.K ∧ currentIndex = ki * x.sizePerTask
  main_defined : s.main ≠ .failed
  defined : ∀ w ∈ s.threads, w.point ≠ .failed
  /-- The counter of samples counts the tasks that have sent theirs, -/
  received : s.rootSampleReceived = tally (fun w => w.point.sent.toNat) s.threads
  /-- and the event is set when all have. -/
  event : s.event = true ↔ s.rootSampleReceived = x.K
  derived : s.main.derived → s.rootSampleReceived = x.K
  /-- The barrier counts the threads that have come to it, -/
  arrived : s.arrived = tally (fun w => w.point.arrived.toNat) s.threads + s.main.arrived.toNat
  /-- and nobody passes it before all have. -/
  released : s.main.released → s.arrived = x.K + 1
  swapping : ∀ w ∈ s.threads, w.point.released → s.arrived = x.K + 1
  joined : ∀ k < s.main.joined x.K, ∀ w, s.threads[k]? = some w → w.point = .done

section Holdings

variable [LinearOrder α]

/-- The part of the data that a task holds, in order once it has started. -/
def Input.sampleAt (x : Input α) (k : Nat) : TaskPoint α → List α
  | .start => x.dataToTask k (k * x.sizePerTask)
  | _ => sorted (x.dataToTask k (k * x.sizePerTask))

/-- The samples a task has sent -/
def Task.contributed (x : Input α) (w : Task α) : List α :=
  if w.point.sent then (pick w.sample x.sizePerTask x.sampleStep).getD [] else []

/-- **What the threads hold.** -/
structure Contents (x : Input α) (s : State α) : Prop where
  sample : ∀ k w, s.threads[k]? = some w → w.sample = x.sampleAt k w.point
  toSend : ∀ k w xs, s.threads[k]? = some w → w.point = .send xs → xs = x.samplesOf k
  gathered : ∀ a, s.rootSample.count a = tally (fun w => (w.contributed x).count a) s.threads
  splitters : s.main.derived → s.splitters.Pairwise (· ≤ ·) ∧ s.splitters.length = x.K
  given : ∀ k < s.main.given x.K, ∀ w, s.threads[k]? = some w → w.splitters = some s.splitters
  /-- The data of a task are the values that go to it, in order; -/
  routed : ∀ k w, s.threads[k]? = some w → ∀ v ∈ w.data, route s.splitters v = some k
  inOrder : ∀ w ∈ s.threads, w.data.Pairwise (· ≤ ·)
  /-- none is there before the barrier opens. -/
  early : ∀ w ∈ s.threads, w.data ≠ [] → s.arrived = x.K + 1

/-- The values that a task has not sent to their tasks -/
def Task.pending (w : Task α) : List α :=
  match w.point with
  | .swap rest => rest
  | .done | .failed => []
  | _ => w.sample

/-- A value's copies with one task -/
def Task.share (a : α) (w : Task α) : Nat := w.data.count a + w.pending.count a

/-- **Every value is somewhere**, where values are sent at all. -/
def Flow (x : Input α) (s : State α) : Prop :=
  2 ≤ x.K → ∀ a, tally (Task.share a) s.threads + (x.unspawned s.main).count a = x.data.count a

end Holdings

/-! ## What the counters say -/

variable {x : Input α} {s s' : State α} {k : Nat} {w w' : Task α}

theorem MainPoint.created_le (h : Tokens x s) : s.threads.length ≤ x.K := by
  rw [h.created]
  cases hmain : s.main with
  | spawn ki currentIndex => exact (h.cursor ki currentIndex hmain).1
  -- everywhere else all tasks have been created
  | _ => exact Nat.le_refl _

/-- A tally of yes and no is at most the number of threads, and less if there is a no. -/
theorem tally_toNat_le (f : Task α → Bool) (ws : List (Task α)) :
    tally (fun w => (f w).toNat) ws ≤ ws.length := by
  have hle : tally (fun w => (f w).toNat) ws ≤ tally (fun _ => 1) ws :=
    tally_le fun w _ => Bool.toNat_le _
  rwa [tally_const, Nat.mul_one] at hle

/-- The counter is full when everybody says yes. -/
theorem tally_eq_length_iff {f : Task α → Bool} {ws : List (Task α)} :
    tally (fun w => (f w).toNat) ws = ws.length ↔ ∀ w ∈ ws, f w = true := by
  have hones : tally (fun _ => 1) ws = ws.length := by rw [tally_const, Nat.mul_one]
  constructor
  · intro h w hw
    -- each thread's share is at most one, and the sum is as large as it can be
    have heq := eq_of_tally_le (fun w _ => Bool.toNat_le (f w)) (by rw [hones, h]) w hw
    cases hf : f w with
    | false =>
      rw [hf] at heq
      cases heq
    | true => rfl
  · intro h
    rw [← hones]
    refine tally_congr fun w hw => ?_
    rw [h w hw]
    rfl

/-- Where it is not full, there is a no. -/
theorem exists_of_tally_ne {f : Task α → Bool} {ws : List (Task α)}
    (h : tally (fun w => (f w).toNat) ws ≠ ws.length) : ∃ w ∈ ws, f w = false := by
  by_contra hnone
  refine h (tally_eq_length_iff.mpr fun w hw => ?_)
  exact Bool.eq_true_of_not_eq_false fun hf => hnone ⟨w, hw, hf⟩

theorem Tokens.length_of_received (h : Tokens x s) (hK : s.rootSampleReceived = x.K) :
    s.threads.length = x.K := by
  have hle := tally_toNat_le (fun w => w.point.sent) s.threads
  have hcreated := MainPoint.created_le h
  have hreceived := h.received
  omega

/-- When all samples have been received, every task has sent its own. -/
theorem Tokens.sent_of_received (h : Tokens x s) (hK : s.rootSampleReceived = x.K) :
    ∀ w ∈ s.threads, w.point.sent = true := by
  refine tally_eq_length_iff.mp ?_
  rw [← h.received, hK, h.length_of_received hK]

/-- When the barrier opens, everybody has come to it. -/
theorem Tokens.arrived_of_open (h : Tokens x s) (hopen : s.arrived = x.K + 1) :
    s.main.arrived = true ∧ ∀ w ∈ s.threads, w.point.arrived = true := by
  have hle := tally_toNat_le (fun w => w.point.arrived) s.threads
  have hcreated := MainPoint.created_le h
  have harrived := h.arrived
  have hmain : s.main.arrived.toNat ≤ 1 := Bool.toNat_le _
  -- the tasks alone are too few: the main function must have come as well,
  -- and with it every task
  constructor
  · cases hm : s.main.arrived with
    | false =>
      rw [hm, Bool.toNat_false] at harrived
      omega
    | true => rfl
  · refine tally_eq_length_iff.mp ?_
    omega

/-- The counter of samples is not full while a task has not sent its own. -/
theorem Tokens.not_received_of_mem (h : Tokens x s) (hw : w ∈ s.threads)
    (hsent : w.point.sent = false) : s.rootSampleReceived ≠ x.K := by
  intro hK
  rw [h.sent_of_received hK w hw] at hsent
  cases hsent

theorem Tokens.not_open_of_mem (h : Tokens x s) (hw : w ∈ s.threads)
    (harrived : w.point.arrived = false) : s.arrived ≠ x.K + 1 := by
  intro hopen
  rw [(h.arrived_of_open hopen).2 w hw] at harrived
  cases harrived

/-! ## One thread changes -/

theorem Tokens.setThread (h : Tokens x s) (hw : s.threads[k]? = some w)
    (hthreads : s'.threads = s.threads.set k w') (hmain : s'.main = s.main)
    (hdone : w.point = .done → w'.point = .done) (hdefined : w'.point ≠ .failed)
    (hreceived : s'.rootSampleReceived + w.point.sent.toNat =
      s.rootSampleReceived + w'.point.sent.toNat)
    (hevent : s'.event = true ↔ s'.rootSampleReceived = x.K)
    (hderived : s.main.derived → s'.rootSampleReceived = x.K)
    (harrived : s'.arrived + w.point.arrived.toNat = s.arrived + w'.point.arrived.toNat)
    (hopen : s.arrived = x.K + 1 → s'.arrived = x.K + 1)
    (hreleased : w'.point.released → s'.arrived = x.K + 1) : Tokens x s' where
  created := by rw [hthreads, List.length_set, hmain, h.created]
  cursor := hmain ▸ h.cursor
  main_defined := hmain ▸ h.main_defined
  defined v hv := by
    rw [hthreads] at hv
    rcases List.mem_or_eq_of_mem_set hv with hv | rfl
    · exact h.defined v hv
    · exact hdefined
  received := by
    have htally := tally_set hw (fun w => w.point.sent.toNat) w'
    have hr := h.received
    rw [hthreads]
    omega
  event := hevent
  derived := hmain ▸ hderived
  arrived := by
    have htally := tally_set hw (fun w => w.point.arrived.toNat) w'
    have ha := h.arrived
    rw [hthreads, hmain]
    omega
  released hm := hopen (h.released (hmain ▸ hm))
  swapping v hv hr := by
    rw [hthreads] at hv
    rcases List.mem_or_eq_of_mem_set hv with hv | rfl
    · exact hopen (h.swapping v hv hr)
    · exact hreleased hr
  joined j hj v hv := by
    rw [hthreads] at hv
    rw [hmain] at hj
    rcases of_getElem?_set hv with ⟨rfl, rfl⟩ | ⟨-, hv⟩
    · exact hdone (h.joined _ hj w hw)
    · exact h.joined j hj v hv

theorem Tokens.setMain (h : Tokens x s) {main : MainPoint}
    (hcreated : main.created x.K = s.main.created x.K)
    (hspawn : ∀ ki currentIndex, main ≠ .spawn ki currentIndex) (hdefined : main ≠ .failed)
    (hderived : main.derived → s.rootSampleReceived = x.K)
    (harrived : main.arrived = s.main.arrived) (hreleased : main.released → s.arrived = x.K + 1)
    (hjoined : ∀ k < main.joined x.K, ∀ w, s.threads[k]? = some w → w.point = .done) :
    Tokens x { s with main := main } where
  created := by
    rw [hcreated]
    exact h.created
  cursor ki currentIndex hmain := absurd hmain (hspawn ki currentIndex)
  main_defined := hdefined
  defined := h.defined
  received := h.received
  event := h.event
  derived := hderived
  arrived := by
    rw [harrived]
    exact h.arrived
  released := hreleased
  swapping := h.swapping
  joined := hjoined

section Steps

variable [LinearOrder α]

theorem Contents.setThread (h : Contents x s) (hw : s.threads[k]? = some w)
    (hthreads : s'.threads = s.threads.set k w') (hmain : s'.main = s.main)
    (hsplitters : s'.splitters = s.splitters)
    (hsample : w'.sample = x.sampleAt k w'.point)
    (htoSend : ∀ xs, w'.point = .send xs → xs = x.samplesOf k)
    (hgathered : ∀ a, s'.rootSample.count a + (w.contributed x).count a =
      s.rootSample.count a + (w'.contributed x).count a)
    (hgiven : w.splitters = some s.splitters → w'.splitters = some s.splitters)
    (hrouted : ∀ v ∈ w'.data, route s.splitters v = some k)
    (hinOrder : w'.data.Pairwise (· ≤ ·))
    (hopen : s.arrived = x.K + 1 → s'.arrived = x.K + 1)
    (hearly : w'.data ≠ [] → s'.arrived = x.K + 1) : Contents x s' where
  sample j v hv := by
    rw [hthreads] at hv
    rcases of_getElem?_set hv with ⟨rfl, rfl⟩ | ⟨-, hv⟩
    · exact hsample
    · exact h.sample j v hv
  toSend j v xs hv hpoint := by
    rw [hthreads] at hv
    rcases of_getElem?_set hv with ⟨rfl, rfl⟩ | ⟨-, hv⟩
    · exact htoSend xs hpoint
    · exact h.toSend j v xs hv hpoint
  gathered a := by
    have htally := tally_set hw (fun w => (w.contributed x).count a) w'
    have hg := h.gathered a
    have hg' := hgathered a
    rw [hthreads]
    omega
  splitters := by
    rw [hmain, hsplitters]
    exact h.splitters
  given j hj v hv := by
    rw [hthreads] at hv
    rw [hmain] at hj
    rw [hsplitters]
    rcases of_getElem?_set hv with ⟨rfl, rfl⟩ | ⟨-, hv⟩
    · exact hgiven (h.given _ hj w hw)
    · exact h.given j hj v hv
  routed j v hv := by
    rw [hthreads] at hv
    rw [hsplitters]
    rcases of_getElem?_set hv with ⟨rfl, rfl⟩ | ⟨-, hv⟩
    · exact hrouted
    · exact h.routed j v hv
  inOrder v hv := by
    rw [hthreads] at hv
    rcases List.mem_or_eq_of_mem_set hv with hv | rfl
    · exact h.inOrder v hv
    · exact hinOrder
  early v hv hne := by
    rw [hthreads] at hv
    rcases List.mem_or_eq_of_mem_set hv with hv | rfl
    · exact hopen (h.early v hv hne)
    · exact hearly hne

theorem Flow.setThread (h : Flow x s) (hw : s.threads[k]? = some w)
    (hthreads : s'.threads = s.threads.set k w') (hmain : s'.main = s.main)
    (hshare : ∀ a, w'.share a = w.share a) : Flow x s' := by
  intro hK a
  have htally := tally_set hw (Task.share a) w'
  have hflow := h hK a
  rw [hthreads, hmain]
  have hsame := hshare a
  omega

/-! ## The steps of a task -/

/-- **The invariant** -/
structure Inv (x : Input α) (s : State α) : Prop where
  tokens : Tokens x s
  contents : Contents x s
  flow : Flow x s

theorem Inv.lt_K (h : Inv x s) (hw : s.threads[k]? = some w) : k < x.K :=
  Nat.lt_of_lt_of_le (List.getElem?_eq_some_iff.mp hw).1 (MainPoint.created_le h.tokens)

/-- A task sorts its slice and takes its samples. -/
theorem Inv.start (h : Inv x s) (hx : x.Enough) (hw : s.threads[k]? = some w)
    (hpoint : w.point = .start) :
    pick (sorted w.sample) x.sizePerTask x.sampleStep = some (x.samplesOf k) ∧
      Inv x { s with
        threads := s.threads.set k
          { w with sample := sorted w.sample, point := .send (x.samplesOf k) } } := by
  have hsample : w.sample = x.dataToTask k (k * x.sizePerTask) := by
    rw [h.contents.sample k w hw, hpoint]
    rfl
  refine ⟨hsample ▸ (hx.samples (h.lt_K hw)).1, ?_, ?_, ?_⟩
  · exact h.tokens.setThread hw rfl rfl (by simp [hpoint]) nofun (by simp [hpoint, TaskPoint.sent])
      h.tokens.event h.tokens.derived (by simp [hpoint, TaskPoint.arrived]) id nofun
  -- the samples wait to be sent; nothing else of the task is seen by the others
  · refine h.contents.setThread hw rfl rfl rfl ?_ ?_ ?_ id (h.contents.routed k w hw)
      (h.contents.inOrder w (List.mem_of_getElem? hw)) id
      (h.contents.early w (List.mem_of_getElem? hw))
    · rw [hsample]
      rfl
    · intro xs hxs
      exact (TaskPoint.send.inj hxs).symm
    · intro a
      simp [Task.contributed, hpoint, TaskPoint.sent]
  · refine h.flow.setThread hw rfl rfl fun a => ?_
    simp [Task.share, Task.pending, hpoint]

/-- A task adds its samples to those of the others. -/
theorem Inv.send (h : Inv x s) (hx : x.Enough) (hw : s.threads[k]? = some w) {xs : List α}
    (hpoint : w.point = .send xs) :
    Inv x { s with
      rootSample := s.rootSample ++ xs
      rootSampleReceived := s.rootSampleReceived + 1
      event := s.event || s.rootSampleReceived + 1 == x.K
      threads := s.threads.set k { w with point := .barrier } } := by
  have hmem := List.mem_of_getElem? hw
  have hsent : w.point.sent = false := by rw [hpoint]; rfl
  have hnot := h.tokens.not_received_of_mem hmem hsent
  have hevent : s.event = false := Bool.eq_false_iff.mpr fun he => hnot (h.tokens.event.mp he)
  refine ⟨?_, ?_, ?_⟩
  · refine h.tokens.setThread hw rfl rfl (by simp [hpoint]) nofun ?_ ?_ ?_
      (by simp [hpoint, TaskPoint.arrived]) id nofun
    · simp [hpoint, TaskPoint.sent]
    -- the event is set by the last task, and only by it
    · simp [hevent]
    · exact fun hderived => absurd (h.tokens.derived hderived) hnot
  · refine h.contents.setThread hw rfl rfl rfl ?_ nofun ?_ id (h.contents.routed k w hw)
      (h.contents.inOrder w hmem) id (h.contents.early w hmem)
    · rw [h.contents.sample k w hw, hpoint]
      rfl
    · intro a
      -- its samples count from now on, being in the common list
      have hsample : w.sample = sorted (x.dataToTask k (k * x.sizePerTask)) := by
        rw [h.contents.sample k w hw, hpoint]
        rfl
      obtain rfl := h.contents.toSend k w xs hw hpoint
      simp [Task.contributed, hpoint, TaskPoint.sent, hsample, (hx.samples (h.lt_K hw)).1]
  · refine h.flow.setThread hw rfl rfl fun a => ?_
    simp [Task.share, Task.pending, hpoint]

/-- A task comes to the barrier. -/
theorem Inv.barrier (h : Inv x s) (hw : s.threads[k]? = some w) (hpoint : w.point = .barrier) :
    Inv x { s with
      arrived := s.arrived + 1
      threads := s.threads.set k { w with point := .waiting } } := by
  have hmem := List.mem_of_getElem? hw
  have hnot := h.tokens.not_open_of_mem hmem (by rw [hpoint]; rfl)
  -- this task was missing, so that nobody has passed the barrier yet
  refine ⟨?_, ?_, ?_⟩
  · exact h.tokens.setThread hw rfl rfl (by simp [hpoint]) nofun (by simp [hpoint, TaskPoint.sent])
      h.tokens.event h.tokens.derived (by simp [hpoint, TaskPoint.arrived])
      (fun hopen => absurd hopen hnot) nofun
  · refine h.contents.setThread hw rfl rfl rfl ?_ nofun ?_ id (h.contents.routed k w hw)
      (h.contents.inOrder w hmem) (fun hopen => absurd hopen hnot)
      (fun hne => absurd (h.contents.early w hmem hne) hnot)
    · rw [h.contents.sample k w hw, hpoint]
      rfl
    · intro a
      simp [Task.contributed, hpoint, TaskPoint.sent]
  · refine h.flow.setThread hw rfl rfl fun a => ?_
    simp [Task.share, Task.pending, hpoint]

/-- A task that only moves past the barrier or on among its values, or to its end. -/
theorem Inv.goto (h : Inv x s) (hw : s.threads[k]? = some w) (point : TaskPoint α)
    (hopen : s.arrived = x.K + 1) (harrived : w.point.arrived) (hreleased : point.released)
    (hdone : w.point = .done → point = .done) :
    Tokens x { s with threads := s.threads.set k { w with point := point } } ∧
      Contents x { s with threads := s.threads.set k { w with point := point } } := by
  have hmem := List.mem_of_getElem? hw
  have hsent : w.point.sent = true ∧ point.sent = true ∧ point.arrived = true := by
    refine ⟨?_, ?_, ?_⟩
    · revert harrived
      cases w.point <;> simp [TaskPoint.arrived, TaskPoint.sent]
    · revert hreleased
      cases point <;> simp [TaskPoint.released, TaskPoint.sent]
    · revert hreleased
      cases point <;> simp [TaskPoint.released, TaskPoint.arrived]
  -- from `send` on the sample is the sorted slice
  have hstarted : ∀ point' : TaskPoint α, point'.sent = true →
      x.sampleAt k point' = sorted (x.dataToTask k (k * x.sizePerTask)) := by
    intro point' hpoint'
    cases point' with
    | start => cases hpoint'
    | _ => rfl
  constructor
  · refine h.tokens.setThread hw rfl rfl hdone ?_ (by rw [hsent.1, hsent.2.1]) h.tokens.event
      h.tokens.derived (by rw [harrived, hsent.2.2]) id (fun _ => hopen)
    rintro rfl
    cases hreleased
  · refine h.contents.setThread hw rfl rfl rfl ?_ ?_ ?_ id (h.contents.routed k w hw)
      (h.contents.inOrder w hmem) id (fun _ => hopen)
    · rw [h.contents.sample k w hw, hstarted _ hsent.1, hstarted _ hsent.2.1]
    · rintro xs rfl
      cases hreleased
    · intro a
      simp [Task.contributed, hsent.1, hsent.2.1]

/-- The barrier lets a task go. -/
theorem Inv.waiting (h : Inv x s) (hw : s.threads[k]? = some w) (hpoint : w.point = .waiting)
    (hopen : s.arrived = x.K + 1) :
    Inv x { s with threads := s.threads.set k { w with point := .swap w.sample } } := by
  obtain ⟨htokens, hcontents⟩ := h.goto hw (.swap w.sample) hopen (by rw [hpoint]; rfl) rfl
    (by simp [hpoint])
  refine ⟨htokens, hcontents, h.flow.setThread hw rfl rfl fun a => ?_⟩
  simp [Task.share, Task.pending, hpoint]

/-- A task has sent all its values. -/
theorem Inv.finish (h : Inv x s) (hw : s.threads[k]? = some w) (hpoint : w.point = .swap []) :
    Inv x { s with threads := s.threads.set k { w with point := .done } } := by
  have hopen := h.tokens.swapping w (List.mem_of_getElem? hw) (by rw [hpoint]; rfl)
  obtain ⟨htokens, hcontents⟩ := h.goto hw .done hopen (by rw [hpoint]; rfl) rfl
    (fun _ => rfl)
  refine ⟨htokens, hcontents, h.flow.setThread hw rfl rfl fun a => ?_⟩
  simp [Task.share, Task.pending, hpoint]

/-- When the barrier opens, every task has the splitters. -/
theorem Inv.splitters_of_open (h : Inv x s) (hopen : s.arrived = x.K + 1) :
    s.threads.length = x.K ∧ s.splitters.Pairwise (· ≤ ·) ∧ s.splitters.length = x.K ∧
      ∀ w ∈ s.threads, w.splitters = some s.splitters := by
  have harrived := (h.tokens.arrived_of_open hopen).1
  -- the main function comes to the barrier when it has given the splitters to all
  have hplaces : s.main.created x.K = x.K ∧ s.main.given x.K = x.K ∧ s.main.derived = true := by
    revert harrived
    cases s.main <;>
      simp [MainPoint.arrived, MainPoint.created, MainPoint.given, MainPoint.derived]
  have hlength : s.threads.length = x.K := by rw [h.tokens.created, hplaces.1]
  obtain ⟨hsorted, hcount⟩ := h.contents.splitters hplaces.2.2
  refine ⟨hlength, hsorted, hcount, ?_⟩
  intro w hmem
  obtain ⟨k, hk⟩ := List.getElem?_of_mem hmem
  refine h.contents.given k ?_ w hk
  rw [hplaces.2.1, ← hlength]
  exact (List.getElem?_eq_some_iff.mp hk).1

/-- A task has a value for no task: there is one splitter only. -/
theorem Inv.drop (h : Inv x s) (hw : s.threads[k]? = some w) {val : α} {rest : List α}
    (hpoint : w.point = .swap (val :: rest)) (hroute : route s.splitters val = none) :
    Inv x { s with threads := s.threads.set k { w with point := .swap rest } } := by
  have hopen := h.tokens.swapping w (List.mem_of_getElem? hw) (by rw [hpoint]; rfl)
  obtain ⟨htokens, hcontents⟩ := h.goto hw (.swap rest) hopen (by rw [hpoint]; rfl) rfl
    (by simp [hpoint])
  refine ⟨htokens, hcontents, fun hK => ?_⟩
  obtain ⟨-, -, hlength, -⟩ := h.splitters_of_open hopen
  -- with two splitters every value has a task, so that `Flow` says nothing here
  obtain ⟨i, hi⟩ := exists_route (hlength ▸ hK) val
  rw [hi] at hroute
  cases hroute

theorem share_insertValue (target : Task α) (val a : α) :
    (target.insertValue val).share a = target.share a + [val].count a := by
  have hpending : (target.insertValue val).pending = target.pending := rfl
  rw [Task.share, Task.share, hpending, Task.insertValue, count_sorted, List.count_append]
  omega

/-- **A value goes to its task.** -/
theorem Inv.deliver (h : Inv x s) (hw : s.threads[k]? = some w) {val : α} {rest : List α}
    (hpoint : w.point = .swap (val :: rest)) {i : Nat} (hroute : route s.splitters val = some i)
    {target : Task α}
    (hi : (s.threads.set k { w with point := .swap rest })[i]? = some target) :
    Inv x { s with
      threads :=
        (s.threads.set k { w with point := .swap rest }).set i (target.insertValue val) } := by
  have hopen := h.tokens.swapping w (List.mem_of_getElem? hw) (by rw [hpoint]; rfl)
  -- first the sender goes on, then the value is with the other task
  obtain ⟨htokens, hcontents⟩ := h.goto hw (.swap rest) hopen (by rw [hpoint]; rfl) rfl
    (by simp [hpoint])
  have htarget := List.mem_of_getElem? hi
  refine ⟨?_, ?_, ?_⟩
  · exact htokens.setThread hi rfl rfl id (htokens.defined target htarget) rfl htokens.event
      htokens.derived rfl id (fun _ => hopen)
  · refine hcontents.setThread hi rfl rfl rfl (hcontents.sample i target hi)
      (fun xs => hcontents.toSend i target xs hi) (fun _ => rfl) id ?_ (sorted_pairwise _) id
      (fun _ => hopen)
    -- the values that were there before, and the new one
    intro v hv
    rcases List.mem_append.mp ((sorted_perm _).mem_iff.mp hv) with hv | hv
    · exact hcontents.routed i target hi v hv
    · rw [List.mem_singleton.mp hv]
      exact hroute
  · intro hK a
    -- one copy less with the sender, one more with the other; they may be the same task
    have hsender := tally_set hw (Task.share a) { w with point := .swap rest }
    have hreceiver := tally_set hi (Task.share a) (target.insertValue val)
    have hless : w.share a = ({ w with point := .swap rest } : Task α).share a + [val].count a := by
      have hcons : (val :: rest).count a = rest.count a + [val].count a := by
        rw [← List.singleton_append, List.count_append, Nat.add_comm]
      simp only [Task.share, Task.pending, hpoint, hcons]
      omega
    rw [share_insertValue] at hreceiver
    have hflow := h.flow hK a
    dsimp only
    omega

/-- **A task keeps the invariant**, whatever it does. -/
theorem Inv.run (h : Inv x s) (hx : x.Enough) (hw : s.threads[k]? = some w)
    (hstep : s.run x k w = some s') : Inv x s' := by
  cases hpoint : w.point with
  | start =>
    obtain ⟨hpick, hinv⟩ := h.start hx hw hpoint
    simp only [State.run, hpoint, hpick, Option.some.injEq] at hstep
    exact hstep ▸ hinv
  | send xs =>
    simp only [State.run, hpoint, Option.some.injEq] at hstep
    exact hstep ▸ h.send hx hw hpoint
  | barrier =>
    simp only [State.run, hpoint, Option.some.injEq] at hstep
    exact hstep ▸ h.barrier hw hpoint
  | waiting =>
    simp only [State.run, hpoint] at hstep
    split at hstep
    next hopen =>
      rw [← Option.some.inj hstep]
      exact h.waiting hw hpoint hopen
    -- not all threads have come to the barrier
    next => cases hstep
  | swap values =>
    cases values with
    | nil =>
      simp only [State.run, hpoint, Option.some.injEq] at hstep
      exact hstep ▸ h.finish hw hpoint
    | cons val rest =>
      have hmem := List.mem_of_getElem? hw
      have hopen := h.tokens.swapping w hmem (by rw [hpoint]; rfl)
      obtain ⟨hlength, -, hcount, hall⟩ := h.splitters_of_open hopen
      have hsplitters := hall w hmem
      obtain ⟨sample, splitters, data, point⟩ := w
      obtain rfl : point = .swap (val :: rest) := hpoint
      obtain rfl : splitters = some s.splitters := hsplitters
      simp only [State.run] at hstep
      cases hroute : route s.splitters val with
      | none =>
        simp only [hroute, Option.some.injEq] at hstep
        -- the value is sent nowhere: `ss.py` does so when there is one splitter only
        exact hstep ▸ h.drop hw rfl hroute
      | some i =>
        -- the value goes to one of the tasks
        simp only [hroute] at hstep
        split at hstep
        next hnone =>
          -- the index is one of a splitter, and there are as many tasks
          have hge := List.getElem?_eq_none_iff.mp hnone
          have hlt := (route_spec hroute).1
          rw [List.length_set] at hge
          omega
        next target hi =>
          rw [← Option.some.inj hstep]
          exact h.deliver hw rfl hroute hi
  | done => simp [State.run, hpoint] at hstep
  | failed => exact absurd hpoint (h.tokens.defined w (List.mem_of_getElem? hw))

/-! ## The steps of the main function -/

theorem Contents.setMain (h : Contents x s) {main : MainPoint}
    (hsplitters : main.derived → s.main.derived)
    (hgiven : ∀ k < main.given x.K, ∀ w, s.threads[k]? = some w →
      w.splitters = some s.splitters) : Contents x { s with main := main } where
  sample := h.sample
  toSend := h.toSend
  gathered := h.gathered
  splitters hd := h.splitters (hsplitters hd)
  given := hgiven
  routed := h.routed
  inOrder := h.inOrder
  early := h.early

/-- The next task is created. -/
theorem Inv.spawn (h : Inv x s) {ki currentIndex : Nat} (hmain : s.main = .spawn ki currentIndex)
    (hki : ki < x.K) :
    Inv x { s with
      threads := s.threads ++ [⟨x.dataToTask ki currentIndex, none, [], .start⟩]
      main := .spawn (ki + 1) (currentIndex + x.sizePerTask) } := by
  obtain ⟨-, hindex⟩ := h.tokens.cursor ki currentIndex hmain
  have hlength : s.threads.length = ki := by
    rw [h.tokens.created, hmain]
    rfl
  -- the new task is the last one
  have hcases : ∀ {k : Nat} {w : Task α},
      (s.threads ++ [⟨x.dataToTask ki currentIndex, none, [], .start⟩])[k]? = some w →
        s.threads[k]? = some w ∨
          (k = ki ∧ w = ⟨x.dataToTask ki currentIndex, none, [], .start⟩) := by
    intro k w hw
    rcases Nat.lt_or_ge k s.threads.length with hlt | hge
    · rw [List.getElem?_append_left hlt] at hw
      exact .inl hw
    · rw [List.getElem?_append_right hge, List.getElem?_singleton] at hw
      split at hw
      · exact .inr ⟨by omega, (Option.some.inj hw).symm⟩
      · cases hw
  have harrived := h.tokens.arrived
  rw [hmain] at harrived
  -- it is at its start: it has not sent, has not arrived and has no data
  constructor
  · constructor
    · rw [List.length_append, hlength]
      rfl
    · rintro ki' currentIndex' ⟨⟩
      exact ⟨hki, by rw [hindex, Nat.add_one_mul]⟩
    · nofun
    · intro w hw
      rcases List.mem_append.mp hw with hw | hw
      · exact h.tokens.defined w hw
      · rw [List.mem_singleton.mp hw]
        nofun
    · rw [tally_append]
      exact h.tokens.received
    · exact h.tokens.event
    · nofun
    · rw [tally_append]
      exact harrived
    · nofun
    · intro w hw hreleased
      rcases List.mem_append.mp hw with hw | hw
      · exact h.tokens.swapping w hw hreleased
      · rw [List.mem_singleton.mp hw] at hreleased
        cases hreleased
    · nofun
  · constructor
    · intro k w hw
      rcases hcases hw with hw | ⟨rfl, rfl⟩
      · exact h.contents.sample k w hw
      · rw [hindex]
        rfl
    · intro k w xs hw hpoint
      rcases hcases hw with hw | ⟨rfl, rfl⟩
      · exact h.contents.toSend k w xs hw hpoint
      · cases hpoint
    · intro a
      rw [tally_append]
      exact h.contents.gathered a
    · nofun
    · nofun
    · intro k w hw
      rcases hcases hw with hw | ⟨rfl, rfl⟩
      · exact h.contents.routed k w hw
      · nofun
    · intro w hw
      rcases List.mem_append.mp hw with hw | hw
      · exact h.contents.inOrder w hw
      · rw [List.mem_singleton.mp hw]
        exact .nil
    · intro w hw hne
      rcases List.mem_append.mp hw with hw | hw
      · exact h.contents.early w hw hne
      · rw [List.mem_singleton.mp hw] at hne
        exact absurd rfl hne
  · intro hK a
    -- its slice is taken from what was still to be handed out
    have hflow := h.flow hK a
    rw [hmain, ← Input.dataToTask_append_unspawned hki, List.count_append] at hflow
    rw [tally_append, ← hflow, ← Nat.add_assoc]
    congr 2
    simp [tally, Task.share, Task.pending]

/-- **The samples of all tasks are gathered** when the counter says so. -/
theorem Inv.rootSample_perm (h : Inv x s) (hK : s.rootSampleReceived = x.K) :
    s.rootSample.Perm x.allSamples := by
  -- every task has contributed the samples of its slice
  have hmap : s.threads.map (Task.contributed x) = (List.range x.K).map x.samplesOf := by
    apply List.ext_getElem
    · rw [List.length_map, List.length_map, List.length_range, h.tokens.length_of_received hK]
    · intro k hk hk'
      have hlt : k < s.threads.length := by rwa [List.length_map] at hk
      have hw := List.getElem?_eq_getElem hlt
      have hsent := h.tokens.sent_of_received hK _ (List.getElem_mem hlt)
      have hsample : x.sampleAt k s.threads[k].point =
          sorted (x.dataToTask k (k * x.sizePerTask)) := by
        revert hsent
        cases s.threads[k].point <;> simp [TaskPoint.sent, Input.sampleAt]
      rw [List.getElem_map, List.getElem_map, List.getElem_range, Task.contributed, hsent,
        if_pos rfl, h.contents.sample k _ hw, hsample, Input.samplesOf]
  rw [List.perm_iff_count]
  intro a
  calc s.rootSample.count a
      = ((s.threads.map (Task.contributed x)).map (List.count a)).sum := by
        rw [h.contents.gathered a, tally, List.map_map]
        rfl
    _ = x.allSamples.count a := by
        rw [hmap, List.map_map]
        exact List.count_flatMap.symm

/-- All tasks have been created. -/
theorem Inv.spawned (h : Inv x s) {ki currentIndex : Nat}
    (hmain : s.main = .spawn ki currentIndex) (hki : ¬ ki < x.K) :
    Inv x { s with main := .waitEvent } := by
  have hle := (h.tokens.cursor ki currentIndex hmain).1
  refine ⟨?_, h.contents.setMain nofun nofun, ?_⟩
  · refine h.tokens.setMain ?_ nofun nofun nofun (by rw [hmain]; rfl) nofun nofun
    rw [hmain]
    exact Nat.le_antisymm (Nat.not_lt.mp hki) hle
  · intro hK a
    have hflow := h.flow hK a
    rw [hmain, Input.unspawned, if_neg hki] at hflow
    exact hflow

/-- **The splitters are derived**: there is one for each task. -/
theorem Inv.derive (h : Inv x s) (hx : x.Enough) (hmain : s.main = .waitEvent)
    (hevent : s.event = true) :
    ∃ splitters, pick (sorted s.rootSample) (sorted s.rootSample).length
        ((sorted s.rootSample).length / x.K) = some splitters ∧
      Inv x { s with
        rootSample := sorted s.rootSample
        splitters := splitters
        main := .setSplitters 0 } := by
  have hK := h.tokens.event.mp hevent
  -- all samples are there, in number a multiple of `K`
  have hlength : (sorted s.rootSample).length = x.K * x.sampleCount := by
    rw [length_sorted, (h.rootSample_perm hK).length_eq, hx.length_allSamples]
  obtain ⟨splitters, hpick, hcount⟩ := splitters_of_length x.K_pos hx.sampleCount_pos hlength
  refine ⟨splitters, hpick, ?_, ?_, ?_⟩
  · have htokens : Tokens x { s with main := .setSplitters 0 } :=
      h.tokens.setMain (by rw [hmain]; rfl) nofun nofun (fun _ => hK) (by rw [hmain]; rfl) nofun
        nofun
    exact ⟨htokens.created, htokens.cursor, htokens.main_defined, htokens.defined,
      htokens.received, htokens.event, htokens.derived, htokens.arrived, htokens.released,
      htokens.swapping, htokens.joined⟩
  · constructor
    · exact h.contents.sample
    · exact h.contents.toSend
    · intro a
      rw [count_sorted]
      exact h.contents.gathered a
    · exact fun _ => ⟨pick_pairwise (sorted_pairwise _) hpick, hcount⟩
    · nofun
    · -- no task has any data yet
      intro k w hw v hv
      have hopen := h.contents.early w (List.mem_of_getElem? hw) (List.ne_nil_of_mem hv)
      have harrived := (h.tokens.arrived_of_open hopen).1
      rw [hmain] at harrived
      cases harrived
    · exact h.contents.inOrder
    · exact h.contents.early
  · intro hK a
    have hflow := h.flow hK a
    rw [hmain] at hflow
    exact hflow

/-- A task is given the splitters. -/
theorem Inv.give (h : Inv x s) {ki : Nat} (hmain : s.main = .setSplitters ki)
    (hw : s.threads[ki]? = some w) :
    Inv x { s with
      threads := s.threads.set ki { w with splitters := some s.splitters }
      main := .setSplitters (ki + 1) } := by
  have hmem := List.mem_of_getElem? hw
  have hderived := h.tokens.derived (by rw [hmain]; rfl)
  have htokens : Tokens x
      { s with threads := s.threads.set ki { w with splitters := some s.splitters } } :=
    h.tokens.setThread hw rfl rfl id (h.tokens.defined w hmem) rfl h.tokens.event
      (fun _ => hderived) rfl id (h.tokens.swapping w hmem)
  have hcontents : Contents x
      { s with threads := s.threads.set ki { w with splitters := some s.splitters } } :=
    h.contents.setThread hw rfl rfl rfl (h.contents.sample ki w hw)
      (fun xs => h.contents.toSend ki w xs hw) (fun _ => rfl) (fun _ => rfl)
      (h.contents.routed ki w hw) (h.contents.inOrder w hmem) id (h.contents.early w hmem)
  have hflow : Flow x
      { s with threads := s.threads.set ki { w with splitters := some s.splitters } } :=
    h.flow.setThread hw rfl rfl fun _ => rfl
  refine ⟨?_, ?_, ?_⟩
  · exact htokens.setMain (by rw [hmain]; rfl) nofun nofun (fun _ => hderived)
      (by rw [hmain]; rfl) nofun nofun
  · refine hcontents.setMain (by rw [hmain]; exact fun _ => rfl) ?_
    intro k hk v hv
    rcases of_getElem?_set hv with ⟨rfl, rfl⟩ | ⟨hne, hv⟩
    · rfl
    -- the tasks before have theirs already
    · have hlt : k < ki := Nat.lt_of_le_of_ne (Nat.lt_succ_iff.mp hk) hne
      exact h.contents.given k (by rw [hmain]; exact hlt) v hv
  · intro hK a
    have := hflow hK a
    rw [hmain] at this
    exact this

/-- The main function comes to the barrier. -/
theorem Inv.mainBarrier (h : Inv x s) (hmain : s.main = .barrier) :
    Inv x { s with arrived := s.arrived + 1, main := .waiting } := by
  -- the main function itself was missing
  have hnot : s.arrived ≠ x.K + 1 := by
    intro hopen
    have harrived := (h.tokens.arrived_of_open hopen).1
    rw [hmain] at harrived
    cases harrived
  have hcreated := h.tokens.created
  have hderived := h.tokens.derived
  have harrived := h.tokens.arrived
  have hgiven := h.contents.given
  have hsplitters := h.contents.splitters
  rw [hmain] at hcreated hderived harrived hgiven hsplitters
  refine ⟨?_, ?_, ?_⟩
  · refine ⟨hcreated, nofun, nofun, h.tokens.defined, h.tokens.received, h.tokens.event, hderived,
      ?_, nofun, ?_, nofun⟩
    · exact congrArg (· + 1) harrived
    · exact fun w hw hr => absurd (h.tokens.swapping w hw hr) hnot
  · refine ⟨h.contents.sample, h.contents.toSend, h.contents.gathered, hsplitters, hgiven,
      h.contents.routed, h.contents.inOrder, ?_⟩
    exact fun w hw hne => absurd (h.contents.early w hw hne) hnot
  · intro hK a
    have hflow := h.flow hK a
    rw [hmain] at hflow
    exact hflow

/-- The main function moves on past the last task, the barrier or an ended task. -/
theorem Inv.mainGoto (h : Inv x s) {main : MainPoint}
    (hcreated : main.created x.K = s.main.created x.K) (hdefined : main ≠ .failed)
    (hderived : main.derived = true ∧ s.main.derived = true)
    (harrived : main.arrived = s.main.arrived) (hreleased : main.released → s.arrived = x.K + 1)
    (hjoined : ∀ k < main.joined x.K, ∀ w, s.threads[k]? = some w → w.point = .done)
    (hgiven : main.given x.K ≤ s.main.given x.K) : Inv x { s with main := main } := by
  -- from here on no values are left to hand out
  have hspawn : ∀ (main : MainPoint), main.derived = true →
      (∀ ki currentIndex, main ≠ .spawn ki currentIndex) ∧ x.unspawned main = [] := by
    intro main hd
    cases main <;> simp [MainPoint.derived, Input.unspawned] at hd ⊢
  refine ⟨?_, ?_, ?_⟩
  · exact h.tokens.setMain hcreated (hspawn _ hderived.1).1 hdefined
      (fun _ => h.tokens.derived hderived.2) harrived hreleased hjoined
  · exact h.contents.setMain (fun _ => hderived.2)
      fun k hk => h.contents.given k (Nat.lt_of_lt_of_le hk hgiven)
  · intro hK a
    have hflow := h.flow hK a
    rw [(hspawn _ hderived.2).2] at hflow
    rw [(hspawn _ hderived.1).2]
    exact hflow

/-- **The main function keeps the invariant.** -/
theorem Inv.mainStep (h : Inv x s) (hx : x.Enough) (hstep : s.mainStep x = some s') :
    Inv x s' := by
  have hopen := h.tokens.released
  have hjoined := h.tokens.joined
  cases hmain : s.main with
  | spawn ki currentIndex =>
    simp only [State.mainStep, hmain] at hstep
    split at hstep
    next hki => exact Option.some.inj hstep ▸ h.spawn hmain hki
    next hki => exact Option.some.inj hstep ▸ h.spawned hmain hki
  | waitEvent =>
    simp only [State.mainStep, hmain] at hstep
    split at hstep
    next hevent =>
      obtain ⟨splitters, hpick, hinv⟩ := h.derive hx hmain hevent
      simp only [hpick, Option.some.injEq] at hstep
      exact hstep ▸ hinv
    -- `root_sample_event` is not set
    next => cases hstep
  | setSplitters ki =>
    simp only [State.mainStep, hmain] at hstep
    split at hstep
    next hki =>
      obtain ⟨w, hw, rfl⟩ := Option.map_eq_some_iff.mp hstep
      exact h.give hmain hw
    -- every task has been given the splitters
    next hki =>
      rw [← Option.some.inj hstep]
      exact h.mainGoto (by rw [hmain]; rfl) nofun (by rw [hmain]; exact ⟨rfl, rfl⟩)
        (by rw [hmain]; rfl) nofun nofun (by rw [hmain]; exact Nat.not_lt.mp hki)
  | barrier =>
    simp only [State.mainStep, hmain, Option.some.injEq] at hstep
    exact hstep ▸ h.mainBarrier hmain
  | waiting =>
    simp only [State.mainStep, hmain] at hstep
    split at hstep
    next harrived =>
      rw [← Option.some.inj hstep]
      exact h.mainGoto (by rw [hmain]; rfl) nofun (by rw [hmain]; exact ⟨rfl, rfl⟩)
        (by rw [hmain]; rfl) (fun _ => harrived) nofun (by rw [hmain]; exact Nat.le_refl _)
    -- not all threads have come to the barrier
    next => cases hstep
  | join ki =>
    rw [hmain] at hopen hjoined
    simp only [State.mainStep, hmain] at hstep
    split at hstep
    next hki =>
      obtain ⟨w, hw, hended⟩ := Option.bind_eq_some_iff.mp hstep
      split at hended
      next hend =>
        rw [← Option.some.inj hended]
        refine h.mainGoto (by rw [hmain]; rfl) nofun (by rw [hmain]; exact ⟨rfl, rfl⟩)
          (by rw [hmain]; rfl) (fun _ => hopen rfl) ?_ (by rw [hmain]; exact Nat.le_refl _)
        intro k hk v hv
        rcases Nat.lt_or_eq_of_le (Nat.lt_succ_iff.mp hk) with hlt | rfl
        · exact hjoined k hlt v hv
        · -- the task just joined has ended, and not by an exception
          obtain rfl := Option.some.inj (hw.symm.trans hv)
          have hdefined := h.tokens.defined w (List.mem_of_getElem? hw)
          revert hend hdefined
          cases w.point <;> simp [TaskPoint.ended]
      -- the task has not ended: `join` waits
      next => cases hended
    next hki =>
      rw [← Option.some.inj hstep]
      refine h.mainGoto (by rw [hmain]; rfl) nofun (by rw [hmain]; exact ⟨rfl, rfl⟩)
        (by rw [hmain]; rfl) (fun _ => hopen rfl) ?_ (by rw [hmain]; exact Nat.le_refl _)
      exact fun k hk => hjoined k (Nat.lt_of_lt_of_le hk (Nat.not_lt.mp hki))
  | done => simp [State.mainStep, hmain] at hstep
  | failed => exact absurd hmain h.tokens.main_defined

/-! ## Every reachable state -/

theorem inv_initialized : Inv x initialized := by
  refine ⟨⟨rfl, ?_, nofun, nofun, rfl, ?_, nofun, rfl, nofun, nofun, nofun⟩,
    ⟨nofun, nofun, fun _ => rfl, nofun, nofun, nofun, nofun, nofun⟩, ?_⟩
  · rintro ki currentIndex ⟨⟩
    exact ⟨Nat.zero_le _, (Nat.zero_mul _).symm⟩
  · have := x.K_pos
    simp only [initialized, Bool.false_eq_true, false_iff]
    omega
  · intro hK a
    have hK' : 0 < x.K := x.K_pos
    simp only [initialized, Input.unspawned, List.drop_zero, if_pos hK']
    exact Nat.zero_add _

theorem Inv.step (h : Inv x s) (hx : x.Enough) {turn : Turn}
    (hstep : (samplesort x).step s turn = some s') : Inv x s' := by
  cases turn with
  | main => exact h.mainStep hx hstep
  | task k =>
    obtain ⟨w, hw, hrun⟩ := Option.bind_eq_some_iff.mp hstep
    exact h.run hx hw hrun

/-- **The invariant holds in every reachable state.** -/
theorem inv_of_reachable (hx : x.Enough) (h : (samplesort x).Reachable s) : Inv x s := by
  refine h.invariant ?_ fun s turn s' hs hstep => hs.step hx hstep
  rintro s rfl
  exact inv_initialized

end Steps

end TaskSystem.ThreadSampleSort
