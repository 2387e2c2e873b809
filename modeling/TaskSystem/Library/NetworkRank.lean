import Mathlib.Algebra.GroupWithZero.Nat
import Mathlib.Algebra.Order.BigOperators.Group.List
import Mathlib.Algebra.Order.Group.Nat
import TaskSystem.Library.Network

/-!
# Ranks of Networks

How much the tasks of a network have still to do, added up. A task that comes closer to its end
lowers the sum, whatever it does to the channels, and so does one that creates a task, when what
the new task will have to do has been counted before.

## Contents

- `Net.rank`, `Net.rank_lt`
- `Move.Quiet`, `Net.perform_idle`: moves that do not touch the channels
-/

namespace TaskSystem.Library

variable {M V C L : Type*} {med : Medium M V C} {s s' : Net L C} {t : Nat} {mv : Move M V L}
  {l l' : L} {weight : L → Nat} {unborn n : Nat}

namespace Net

/-- What the first `n` tasks have still to do; `unborn` for each that has not been created. -/
def rank (weight : L → Nat) (unborn n : Nat) (s : Net L C) : Nat :=
  ((List.range n).map fun t => (s.tasks t).elim unborn weight).sum

/-- **A task that comes closer to its end** lowers the sum. -/
theorem rank_lt (h : s.perform med t mv = some s')
    (hchild : ∀ child next, mv = .create child next →
      s.tasks s.nextId = none ∧ ∀ id, weight (child id) ≤ unborn) (ht : t < n)
    (hl : s.tasks t = some l) (hl' : s'.tasks t = some l') (hlt : weight l' < weight l) :
    s'.rank weight unborn n < s.rank weight unborn n := by
  obtain ⟨-, -, hothers⟩ := perform_cases h
  apply List.sum_lt_sum
  · intro u hu
    by_cases hut : u = t
    · rw [hut, hl, hl']
      exact Nat.le_of_lt hlt
    · rcases hothers u hut with hsame | ⟨child, next, hmv, rfl, hnew⟩
      · rw [hsame]
      · -- the new task has been counted as one that was not yet created
        obtain ⟨hfresh, hweight⟩ := hchild child next hmv
        rw [hnew, hfresh]
        exact hweight _
  · refine ⟨t, List.mem_range.mpr ht, ?_⟩
    rw [hl, hl']
    exact hlt

end Net

/-- The move uses no channel, or only looks at one. -/
def Move.Quiet : Move M V L → Prop
  | .compute _ | .peek _ => True
  | _ => False

/-- A quiet move that leads a task to where it was changes nothing. -/
theorem Net.perform_idle (h : s.perform med t mv = some s') (hquiet : mv.Quiet)
    (hl : s.tasks t = some l) (hl' : s'.tasks t = some l) : s' = s := by
  have hself : ∀ l', (s.resume t l').tasks t = some l → s.resume t l' = s := by
    intro l' heq
    rw [resume_tasks, if_pos rfl] at heq
    rw [Option.some.inj heq, resume_self hl]
  cases mv with
  | compute next =>
    obtain rfl := Option.some.inj h
    exact hself _ hl'
  | peek next =>
    obtain ⟨c, -, rfl⟩ := Option.map_eq_some_iff.mp h
    exact hself _ hl'
  | create | send | take | drop | finish | stop | fault => exact hquiet.elim

end TaskSystem.Library
