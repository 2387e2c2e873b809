import Mathlib.Algebra.GroupWithZero.Nat
import Mathlib.Algebra.Order.BigOperators.Group.List
import Mathlib.Algebra.Order.Group.Nat
import Mathlib.Logic.Function.Basic

/-!
# Rings of Cells

A sequence that is written into a ring of cells one after the other and read in the same order,
and totals over a list of processes of which one changes at a time.

## Contents

- `Keeps`: what has been written and not read lies in its cells
- `Keeps.put`, `Keeps.take`: the writer's and the reader's step
- `tally`, `tally_set`: a total over the processes, and what one of them changes in it
-/

namespace TaskSystem.Library.CellRing

variable {α : Type*} {size : Nat} {buffer : Nat → α} {xs : List α} {taken : Nat}

/-! ## Cells -/

/-- Of the sequence `xs` the first `taken` items have been read, and the others, which are no
    more than there are cells, lie in theirs. -/
structure Keeps (size : Nat) (buffer : Nat → α) (xs : List α) (taken : Nat) : Prop where
  taken_le : taken ≤ xs.length
  room : xs.length ≤ taken + size
  cells : ∀ k (h : k < xs.length), taken ≤ k → buffer (k % size) = xs[k]

theorem keeps_nil (size : Nat) (buffer : Nat → α) : Keeps size buffer [] 0 where
  taken_le := Nat.le_refl _
  room := Nat.zero_le _
  cells k h := absurd h (Nat.not_lt_zero k)

/-- Places less than `size` apart have different cells. -/
theorem cell_ne {k n : Nat} (hk : k < n) (hn : n < k + size) : k % size ≠ n % size := by
  intro heq
  -- the distance would be a positive multiple of `size` below `size`
  have hdvd : size ∣ n - k := Nat.dvd_of_mod_eq_zero (Nat.sub_mod_eq_zero_of_mod_eq heq.symm)
  have hle := Nat.le_of_dvd (by omega) hdvd
  omega

/-- The cell of the next item holds none that is to be read. -/
theorem free_cell (hroom : xs.length < taken + size) {k : Nat} (hk : taken ≤ k)
    (hlt : k < xs.length) : k % size ≠ xs.length % size :=
  cell_ne hlt (by omega)

/-- **Put**: the next item goes into the next cell. -/
theorem Keeps.put (h : Keeps size buffer xs taken) (hroom : xs.length < taken + size) (x : α) :
    Keeps size (Function.update buffer (xs.length % size) x) (xs ++ [x]) taken where
  taken_le := by
    rw [List.length_append]
    exact Nat.le_add_right_of_le h.taken_le
  room := by
    rw [List.length_append]
    exact hroom
  cells k hk htaken := by
    rw [List.length_append, List.length_singleton] at hk
    by_cases hlast : k = xs.length
    · subst hlast
      rw [Function.update_self, List.getElem_concat_length rfl]
    · have hlt : k < xs.length := by omega
      rw [Function.update_of_ne (free_cell hroom htaken hlt), h.cells k hlt htaken,
        List.getElem_append_left hlt]

/-- **Take**: the oldest item is in its cell. -/
theorem Keeps.take (h : Keeps size buffer xs taken) (hlt : taken < xs.length) :
    buffer (taken % size) = xs[taken] ∧ Keeps size buffer xs (taken + 1) := by
  refine ⟨h.cells taken hlt (Nat.le_refl _), hlt, ?_, ?_⟩
  · have := h.room
    omega
  · intro k hk htaken
    exact h.cells k hk (by omega)

/-! ## Totals -/

/-- The total of `f` over the processes. -/
def tally (f : α → Nat) (ps : List α) : Nat := (ps.map f).sum

variable {f g : α → Nat} {ps : List α}

/-- What is in the list after one process has changed. -/
theorem of_getElem?_set {i j : Nat} {p q : α} (h : (ps.set i p)[j]? = some q) :
    (j = i ∧ q = p) ∨ (j ≠ i ∧ ps[j]? = some q) := by
  rw [List.getElem?_set] at h
  split at h
  next hij =>
    split at h
    · exact .inl ⟨hij.symm, (Option.some.inj h).symm⟩
    · cases h
  next hij => exact .inr ⟨fun hji => hij hji.symm, h⟩

/-- **One process changes**: its old share is counted out and its new one in. -/
theorem tally_set {i : Nat} {p : α} (h : ps[i]? = some p) (f : α → Nat) (p' : α) :
    tally f (ps.set i p') + f p = tally f ps + f p' := by
  induction ps generalizing i with
  | nil => cases h
  | cons q ps ih =>
    cases i with
    | zero =>
      obtain rfl : q = p := Option.some.inj h
      simp only [List.set_cons_zero, tally, List.map_cons, List.sum_cons]
      omega
    | succ i =>
      have hrest : tally f (ps.set i p') + f p = tally f ps + f p' := ih h
      simp only [tally] at hrest
      simp only [List.set_cons_succ, tally, List.map_cons, List.sum_cons]
      omega

theorem tally_append (f : α → Nat) (ps qs : List α) :
    tally f (ps ++ qs) = tally f ps + tally f qs := by
  rw [tally, List.map_append, List.sum_append_nat]
  rfl

theorem le_tally {p : α} (h : p ∈ ps) (f : α → Nat) : f p ≤ tally f ps :=
  List.le_sum_of_mem (List.mem_map_of_mem h)

theorem tally_congr (h : ∀ p ∈ ps, f p = g p) : tally f ps = tally g ps := by
  rw [tally, List.map_congr_left h]
  rfl

theorem tally_le (h : ∀ p ∈ ps, f p ≤ g p) : tally f ps ≤ tally g ps := by
  induction ps with
  | nil => exact Nat.le_refl _
  | cons p ps ih =>
    have hrest : tally f ps ≤ tally g ps := ih fun q hq => h q (List.mem_cons_of_mem _ hq)
    have hp := h p (List.mem_cons_self ..)
    simp only [tally] at hrest
    simp only [tally, List.map_cons, List.sum_cons]
    omega

theorem tally_eq_zero (h : ∀ p ∈ ps, f p = 0) : tally f ps = 0 := by
  induction ps with
  | nil => rfl
  | cons p ps ih =>
    have hrest : tally f ps = 0 := ih fun q hq => h q (List.mem_cons_of_mem _ hq)
    simp only [tally] at hrest
    simp only [tally, List.map_cons, List.sum_cons, hrest, h p (List.mem_cons_self ..)]

theorem tally_add (f g : α → Nat) (ps : List α) :
    tally (fun p => f p + g p) ps = tally f ps + tally g ps := by
  induction ps with
  | nil => rfl
  | cons p ps ih =>
    simp only [tally] at ih
    simp only [tally, List.map_cons, List.sum_cons, ih]
    omega

theorem tally_const (n : Nat) (ps : List α) : tally (fun _ => n) ps = ps.length * n := by
  rw [tally, List.map_const', List.sum_replicate_nat]

/-- Shares that are bounded one by one and reach the bounds in total reach them one by one. -/
theorem eq_of_tally_le (hle : ∀ p ∈ ps, f p ≤ g p) (h : tally g ps ≤ tally f ps) :
    ∀ p ∈ ps, f p = g p := by
  induction ps with
  | nil => nofun
  | cons q ps ih =>
    have hrest : ∀ p ∈ ps, f p ≤ g p := fun p hp => hle p (List.mem_cons_of_mem _ hp)
    have hq := hle q (List.mem_cons_self ..)
    have hsum : tally f ps ≤ tally g ps := tally_le hrest
    simp only [tally, List.map_cons, List.sum_cons] at h hsum ih
    intro p hp
    rcases List.mem_cons.mp hp with rfl | hp
    · omega
    · exact ih hrest (by omega) p hp

end TaskSystem.Library.CellRing
