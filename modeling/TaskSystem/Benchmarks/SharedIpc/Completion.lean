import Mathlib.Algebra.BigOperators.Ring.List
import Mathlib.Algebra.Ring.Nat
import TaskSystem.Benchmarks.SharedIpc.Invariant

/-!
# The Buffer Comes to Its End

A client takes seven steps for each of its items and the server eight, whatever the order. So no
run goes on for ever; and a run can be continued until all items have passed through the buffer.

## Contents

- `Point.done`, `SharedStuff.rank`: how many steps are left
- `rank_step`: every step is one of them; `length_add_rank`
- `ipc_completes`: the length of a run that has come to its end, and that every run can
-/

namespace TaskSystem.SharedIpc

open Library CellRing

/-! ## What is left to do -/

/-- How many statements of the round have been executed -/
def Point.done : Point → Nat
  | .wait => 0
  | .lock => 1
  | .access => 2
  | .move => 3
  | .adjust => 4
  | .unlock => 5
  | .post => 6
  | .insert => 7

def Producer.rank (w : Producer) : Nat := 7 * (w.updateCount.toNat - w.i) - w.point.done

def Consumer.rank (c : Consumer) : Nat := 8 * (c.rounds.toNat - c.i) - c.point.done

namespace SharedStuff

def rank (s : SharedStuff) : Nat := tally Producer.rank s.producers + s.consumer.rank

variable {s s' : SharedStuff} {k : Nat} {w : Producer} {turn : Turn}

/-- What a producer's statement makes of the producer. -/
theorem sendProc_producer (hs : s.sendProc k w = some s') :
    ∃ w', s'.producers = s.producers.set k w' ∧ s'.consumer = s.consumer ∧
      w'.updateCount = w.updateCount ∧
      (w.point = .wait → (w.i : Int) < w.updateCount) ∧
      (w'.i = w.i ∧ w'.point.done = w.point.done + 1 ∨
        w'.i = w.i + 1 ∧ w'.point = .wait ∧ w.point = .post) := by
  cases hp : w.point with
  | wait | lock =>
    simp only [sendProc, hp] at hs
    split at hs
    case isFalse => cases hs
    case isTrue hguard =>
      obtain rfl := Option.some.inj hs
      refine ⟨_, rfl, rfl, rfl, ?_, .inl ⟨rfl, rfl⟩⟩
      first | exact fun _ => hguard.1 | exact Point.noConfusion
  | access | move | adjust | unlock =>
    simp only [sendProc, hp] at hs
    obtain rfl := Option.some.inj hs
    exact ⟨_, rfl, rfl, rfl, Point.noConfusion, .inl ⟨rfl, rfl⟩⟩
  | post =>
    simp only [sendProc, hp] at hs
    obtain rfl := Option.some.inj hs
    exact ⟨_, rfl, rfl, rfl, Point.noConfusion, .inr ⟨rfl, rfl, rfl⟩⟩
  | insert =>
    simp only [sendProc, hp] at hs
    cases hs

/-- What the server's statement makes of the server. -/
theorem recvProc_consumer (hs : s.recvProc = some s') :
    s'.producers = s.producers ∧ s'.consumer.rounds = s.consumer.rounds ∧
      (s.consumer.point = .wait → (s.consumer.i : Int) < s.consumer.rounds) ∧
      (s'.consumer.i = s.consumer.i ∧ s'.consumer.point.done = s.consumer.point.done + 1 ∨
        s'.consumer.i = s.consumer.i + 1 ∧ s'.consumer.point = .wait ∧
          s.consumer.point = .insert) := by
  cases hp : s.consumer.point with
  | wait | lock =>
    simp only [recvProc, hp] at hs
    split at hs
    case isFalse => cases hs
    case isTrue hguard =>
      obtain rfl := Option.some.inj hs
      refine ⟨rfl, rfl, ?_, .inl ⟨rfl, rfl⟩⟩
      first | exact fun _ => hguard.1 | exact Point.noConfusion
  | access | move | adjust | unlock | post =>
    simp only [recvProc, hp] at hs
    obtain rfl := Option.some.inj hs
    exact ⟨rfl, rfl, Point.noConfusion, .inl ⟨rfl, rfl⟩⟩
  | insert =>
    simp only [recvProc, hp] at hs
    obtain rfl := Option.some.inj hs
    exact ⟨rfl, rfl, Point.noConfusion, .inr ⟨rfl, rfl, rfl⟩⟩

/-- **A step of a producer** is one of those it has left. -/
theorem Contents.rank_send (h : s.Contents) (hw : s.producers[k]? = some w)
    (hs : s.sendProc k w = some s') : s'.rank + 1 = s.rank := by
  obtain ⟨w', hproducers, hconsumer, hcount, hguard, hnext⟩ := sendProc_producer hs
  obtain ⟨-, hlt, hinsert⟩ := h.bounds w (List.mem_of_getElem? hw)
  have hbusy : (w.i : Int) < w.updateCount := by
    by_cases hp : w.point = .wait
    · exact hguard hp
    · exact hlt hp
  have hdone : w.point.done < 7 := by
    cases hp : w.point with
    | insert => exact absurd hp hinsert
    | _ => decide
  have hlower : w'.rank + 1 = w.rank := by
    rw [Producer.rank, Producer.rank, hcount]
    rcases hnext with ⟨hi, hpoint⟩ | ⟨hi, hpoint, hpost⟩
    · omega
    · rw [hpoint, hpost, hi]
      simp only [Point.done]
      omega
  have htally := tally_set hw Producer.rank w'
  rw [rank, rank, hproducers, hconsumer]
  omega

/-- **A step of the server** is one of those it has left. -/
theorem Contents.rank_recv (h : s.Contents) (hs : s.recvProc = some s') :
    s'.rank + 1 = s.rank := by
  obtain ⟨hproducers, hrounds, hguard, hnext⟩ := recvProc_consumer hs
  have hbusy : (s.consumer.i : Int) < s.consumer.rounds := by
    by_cases hp : s.consumer.point = .wait
    · exact hguard hp
    · exact h.rounds.2 hp
  have hdone : s.consumer.point.done < 8 := by
    cases s.consumer.point <;> decide
  have hlower : s'.consumer.rank + 1 = s.consumer.rank := by
    rw [Consumer.rank, Consumer.rank, hrounds]
    rcases hnext with ⟨hi, hpoint⟩ | ⟨hi, hpoint, hinsert⟩
    · omega
    · rw [hpoint, hinsert, hi]
      simp only [Point.done]
      omega
  rw [rank, rank, hproducers]
  omega

/-- **Step**: one step fewer is left. -/
theorem rank_step (h : sharedIpc.Reachable s) (hs : sharedIpc.step s turn = some s') :
    s'.rank + 1 = s.rank := by
  have hcontents := (invariant_of_reachable h).2
  cases turn with
  | producer k =>
    obtain ⟨w, hw, hs⟩ := Option.bind_eq_some_iff.mp hs
    exact hcontents.rank_send hw hs
  | consumer => exact hcontents.rank_recv hs

/-- **Run**: the steps taken and the steps left are always as many. -/
theorem length_add_rank (h : sharedIpc.Reachable s) {turns : List Turn}
    (hrun : sharedIpc.runFrom s turns = some s') : turns.length + s'.rank = s.rank := by
  induction turns generalizing s with
  | nil =>
    obtain rfl := Option.some.inj hrun
    exact Nat.zero_add _
  | cons turn turns ih =>
    obtain ⟨s₁, hs₁, hrest⟩ := Option.bind_eq_some_iff.mp hrun
    have hlater := ih (h.step hs₁) hrest
    have hfirst := rank_step h hs₁
    rw [List.length_cons]
    omega

/-! ## What the processes are to do -/

/-- No process changes what it is to do. -/
theorem total_step (hs : sharedIpc.step s turn = some s') :
    s'.total = s.total ∧ s'.consumer.rounds = s.consumer.rounds := by
  cases turn with
  | producer k =>
    obtain ⟨w, hw, hs⟩ := Option.bind_eq_some_iff.mp hs
    obtain ⟨w', hproducers, hconsumer, hcount, -⟩ := sendProc_producer hs
    have htally := tally_set hw (fun w => w.updateCount.toNat) w'
    rw [hcount] at htally
    rw [total, total, hproducers, hconsumer]
    exact ⟨Nat.add_right_cancel htally, rfl⟩
  | consumer =>
    obtain ⟨hproducers, hrounds, -⟩ := recvProc_consumer hs
    rw [total, total, hproducers]
    exact ⟨rfl, hrounds⟩

theorem total_runFrom {turns : List Turn} (hrun : sharedIpc.runFrom s turns = some s') :
    s'.total = s.total ∧ s'.consumer.rounds = s.consumer.rounds := by
  induction turns generalizing s with
  | nil =>
    obtain rfl := Option.some.inj hrun
    exact ⟨rfl, rfl⟩
  | cons turn turns ih =>
    obtain ⟨s₁, hs₁, hrest⟩ := Option.bind_eq_some_iff.mp hrun
    obtain ⟨htotal, hrounds⟩ := total_step hs₁
    obtain ⟨htotal', hrounds'⟩ := ih hrest
    exact ⟨htotal'.trans htotal, hrounds'.trans hrounds⟩

/-- Before anybody has begun, all steps are left. -/
theorem rank_initialized (updateCounts : List Int) (rounds updateSize : Int) :
    (initialized updateCounts rounds updateSize).rank =
      7 * (initialized updateCounts rounds updateSize).total + 8 * rounds.toNat := by
  have hproducers : ∀ w ∈ (initialized updateCounts rounds updateSize).producers,
      w.rank = 7 * w.updateCount.toNat := by
    intro w hw
    obtain ⟨updateCount, -, rfl⟩ := List.mem_map.mp hw
    rfl
  have hseven : ∀ ps : List Producer, tally (fun w => 7 * w.updateCount.toNat) ps =
      7 * tally (fun w => w.updateCount.toNat) ps := by
    intro ps
    rw [tally, tally, ← List.sum_map_mul_left]
  rw [rank, tally_congr hproducers, hseven]
  rfl

/-- Processes that are done have no steps left. -/
theorem rank_of_complete (h : sharedIpc.Reachable s) (hstuck : s.Stuck) (hcomplete : s.Complete)
    (hrounds : s.consumer.rounds = s.total) : s.rank = 0 := by
  obtain ⟨ht, hc⟩ := invariant_of_reachable h
  obtain ⟨hwait, hpoint, -⟩ := waiting_of_stuck ht hc hstuck
  have hproducers : tally Producer.rank s.producers = 0 := by
    apply tally_eq_zero
    intro w hw
    obtain ⟨k, hk⟩ := List.mem_iff_getElem?.mp hw
    have hall := congrArg List.length (hcomplete.produced k w hk)
    rw [hc.once k w hk, Producer.sent, (hwait w hw).1] at hall
    simp only [List.length_map, List.length_range, Point.accessed, Nat.add_zero] at hall
    rw [Producer.rank, hall, Nat.sub_self]
    exact Nat.zero_sub _
  have hserver : s.consumer.rounds.toNat = s.consumer.i := by
    rw [hrounds, Int.toNat_natCast, ← hcomplete.list, ht.list]
  rw [rank, hproducers, Consumer.rank, hserver, Nat.sub_self, Nat.mul_zero, Nat.zero_sub]

/-- **The buffer comes to its end**: from wherever a run has got to, the processes can go on until
    all items have passed through, where the server was to make as many rounds as there are items;
    and whatever the order, that takes 15 steps for each item. -/
theorem ipc_completes {updateCounts : List Int} {rounds updateSize : Int} {turns : List Turn}
    (hrounds : rounds = (initialized updateCounts rounds updateSize).total)
    (hrun : sharedIpc.runFrom (initialized updateCounts rounds updateSize) turns = some s) :
    ∃ more s', sharedIpc.runFrom s more = some s' ∧ s'.Complete ∧
      (turns ++ more).length = 15 * (initialized updateCounts rounds updateSize).total := by
  have hstart : sharedIpc.Reachable (initialized updateCounts rounds updateSize) :=
    .init ⟨_, _, _, rfl⟩
  have hreach := hstart.runFrom turns hrun
  have hkeep : ∀ s turn s', sharedIpc.Reachable s → True → sharedIpc.step s turn = some s' →
      sharedIpc.Reachable s' := fun _ _ _ h _ hs => h.step hs
  have hless : ∀ s, sharedIpc.Reachable s → ¬s.Stuck →
      ∃ turn s', True ∧ sharedIpc.step s turn = some s' ∧ s'.rank < s.rank := by
    intro s h hnot
    obtain ⟨turn, hturn⟩ := not_forall.mp hnot
    obtain ⟨s', hs'⟩ := Option.ne_none_iff_exists'.mp hturn
    exact ⟨turn, s', trivial, hs', Nat.lt_of_succ_le (Nat.le_of_eq (rank_step h hs'))⟩
  obtain ⟨more, s', -, hmore, hstuck, -⟩ := System.exists_final_along rank Stuck hkeep hless hreach
  have hreach' := hreach.runFrom more hmore
  obtain ⟨ht, hc⟩ := invariant_of_reachable hreach'
  obtain ⟨htotal, hserver⟩ := total_runFrom hrun
  obtain ⟨htotal', hserver'⟩ := total_runFrom hmore
  have hall : s'.consumer.rounds = s'.total := by
    rw [hserver', hserver, htotal', htotal]
    exact hrounds
  have hcomplete := complete_of_stuck ht hc hstuck hall
  refine ⟨more, s', hmore, hcomplete, ?_⟩
  -- no step is left
  have hfirst := length_add_rank hstart hrun
  have hlast := length_add_rank hreach hmore
  rw [rank_of_complete hreach' hstuck hcomplete hall] at hlast
  rw [rank_initialized] at hfirst
  rw [List.length_append]
  omega

/-- Two clients pass their first semaphore. -/
def twoStarted : List Turn := [.producer 0, .producer 1]

/-- They can go on to the end. -/
theorem ipc_completes_two :
    ∃ s, sharedIpc.runFrom (initialized [1, 1] 2 8) twoStarted = some s ∧
      ∃ more s', sharedIpc.runFrom s more = some s' ∧ s'.Complete ∧
        (twoStarted ++ more).length = 15 * (initialized [1, 1] 2 8).total := by
  have hsome : (sharedIpc.runFrom (initialized [1, 1] 2 8) twoStarted).isSome := by
    decide +kernel
  obtain ⟨s, hs⟩ := Option.isSome_iff_exists.mp hsome
  exact ⟨s, hs, ipc_completes (by decide) hs⟩

end SharedStuff
end TaskSystem.SharedIpc
