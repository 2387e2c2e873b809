import Mathlib.Data.List.Basic
import Mathlib.Data.List.Perm.Basic
import Mathlib.Order.Basic

/-!
# Sorting with Comparison Functions, and by Distribution

What a library sort driven by a three-way comparison function gives when the function is
consistent on the elements sorted, and why sorting the groups of a distribution sorts the
whole.

## Contents

- `ConsistentOn`, `Qsort`: comparison functions, and sorts that obey consistent ones
- `distribute_perm`: the groups of a distribution by key are a permutation of the elements
- `pairwise_flatMap_range`: sorted groups in the order of their keys are sorted together
-/

namespace TaskSystem.Library

variable {α : Type*}

/-! ## Comparison functions -/

/-- The sign of `cmp` orders the elements of `xs`. -/
structure ConsistentOn (cmp : α → α → Int32) (xs : List α) : Prop where
  total : ∀ a ∈ xs, ∀ b ∈ xs, (cmp a b).toInt ≤ 0 ∨ (cmp b a).toInt ≤ 0
  trans : ∀ a ∈ xs, ∀ b ∈ xs, ∀ c ∈ xs,
    (cmp a b).toInt ≤ 0 → (cmp b c).toInt ≤ 0 → (cmp a c).toInt ≤ 0

/-- A sort that permutes and sorts whenever the comparison function is consistent on what it
    is given; nothing is said about other inputs. -/
structure Qsort (α : Type*) where
  sort : (α → α → Int32) → List α → List α
  perm : ∀ {cmp : α → α → Int32} {xs : List α}, ConsistentOn cmp xs → (sort cmp xs).Perm xs
  sorted : ∀ {cmp : α → α → Int32} {xs : List α}, ConsistentOn cmp xs →
    (sort cmp xs).Pairwise fun a b => (cmp a b).toInt ≤ 0

theorem ConsistentOn.subset {cmp : α → α → Int32} {xs ys : List α} (h : ConsistentOn cmp xs)
    (hsub : ∀ y ∈ ys, y ∈ xs) : ConsistentOn cmp ys where
  total a ha b hb := h.total a (hsub a ha) b (hsub b hb)
  trans a ha b hb c hc := h.trans a (hsub a ha) b (hsub b hb) c (hsub c hc)

/-- Merge sort is such a sort. -/
def Qsort.merge : Qsort α where
  sort cmp xs := xs.mergeSort fun a b => (cmp a b).toInt ≤ 0
  perm _ := List.mergeSort_perm _ _
  sorted {cmp xs} h := by
    -- sort the elements together with the proofs that they are among `xs`
    have hattach := @List.pairwise_mergeSort { a // a ∈ xs }
      (fun a b => decide ((cmp a.1 b.1).toInt ≤ 0))
      (fun a b c hab hbc => by
        simp only [decide_eq_true_eq] at hab hbc ⊢
        exact h.trans _ a.2 _ b.2 _ c.2 hab hbc)
      (fun a b => by
        simpa using h.total _ a.2 _ b.2) xs.attach
    have hmap := List.map_mergeSort (l := xs.attach) (f := Subtype.val)
      (r := fun a b : { a // a ∈ xs } => decide ((cmp a.1 b.1).toInt ≤ 0))
      (s := fun a b => decide ((cmp a b).toInt ≤ 0)) (fun _ _ _ _ => rfl)
    rw [List.attach_map_subtype_val] at hmap
    rw [← hmap, List.pairwise_map]
    simpa using hattach

/-! ## Distribution -/

/-- **Distribution**: the groups of `xs` by key, put one after another, permute `xs`. -/
theorem distribute_perm (key : α → Nat) (k : Nat) (xs : List α) (h : ∀ x ∈ xs, key x < k) :
    ((List.range k).flatMap fun i => xs.filter fun x => key x = i).Perm xs := by
  have hbelow : ∀ n, ((List.range n).flatMap fun i => xs.filter fun x => key x = i).Perm
      (xs.filter fun x => key x < n) := by
    intro n
    induction n with
    | zero => simp
    | succ n ih =>
      rw [List.range_succ, List.flatMap_append, List.flatMap_singleton]
      apply (ih.append_right _).trans
      -- split the elements below `n + 1` by whether they are below `n`
      have hsplit := List.filter_append_perm (fun x => decide (key x < n))
        (xs.filter fun x => key x < n + 1)
      simp only [List.filter_filter] at hsplit
      convert hsplit using 2
      · apply List.filter_congr
        intro x _
        simp only [← Bool.decide_and, decide_eq_decide]
        omega
      · apply List.filter_congr
        intro x _
        rw [Bool.eq_iff_iff]
        simp only [decide_eq_true_eq, Bool.and_eq_true, Bool.not_eq_true', decide_eq_false_iff_not]
        omega
  apply (hbelow k).trans
  rw [List.filter_eq_self.mpr fun x hx => by simpa using h x hx]

/-- Groups sorted by `R` each, and in order of their numbers among each other, are sorted
    together. -/
theorem pairwise_flatMap_range {R : α → α → Prop} {group : Nat → List α} {k : Nat}
    (hin : ∀ i < k, (group i).Pairwise R)
    (hacross : ∀ i j, i < j → j < k → ∀ x ∈ group i, ∀ y ∈ group j, R x y) :
    ((List.range k).flatMap group).Pairwise R := by
  rw [List.pairwise_flatMap]
  refine ⟨fun i hi => hin i (List.mem_range.mp hi), ?_⟩
  refine List.Pairwise.imp_of_mem ?_ List.pairwise_lt_range
  intro i j _ hj hlt x hx y hy
  exact hacross i j hlt (List.mem_range.mp hj) x hx y hy

end TaskSystem.Library
