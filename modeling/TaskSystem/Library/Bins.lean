import Mathlib.Algebra.BigOperators.Fin
import Mathlib.Data.Fintype.BigOperators
import Mathlib.Order.Interval.Finset.Nat

/-!
# Rejection Sampling with Bins

A number below `n` is mapped to one of `b` values: `b` bins of `n / b` numbers each, and the
`n % b` numbers behind them are rejected and drawn again.

## Contents

- `bin`: the bin of a number
- `card_bin`, `card_rejected`, `two_mul_mod_lt`: the bins are of one size, and fewer than half of
  the numbers are rejected
- `runs`, `runs_eq`: values that are equally likely in one draw are so in any number of draws
-/

namespace TaskSystem.Library.Bins

/-! ## Bins -/

/-- The bin of `x`; behind the last bin there is none. -/
def bin (n b x : Nat) : Option Nat := if x < n - n % b then some (x / (n / b)) else none

variable {n b v : Nat}

/-- The bins end where the rejected numbers begin. -/
theorem sub_mod_eq (n b : Nat) : n - n % b = b * (n / b) := by
  have hsplit := Nat.mod_add_div n b
  omega

/-- A bin is an interval. -/
theorem bin_eq_some_iff (hv : v < b) {x : Nat} :
    bin n b x = some v ↔ v * (n / b) ≤ x ∧ x < (v + 1) * (n / b) := by
  have hlast : (v + 1) * (n / b) ≤ b * (n / b) := Nat.mul_le_mul_right _ hv
  rw [bin, sub_mod_eq, Option.ite_none_right_eq_some, Option.some.injEq]
  rcases Nat.eq_zero_or_pos (n / b) with hzero | hpos
  · simp [hzero]
  · rw [Nat.div_eq_iff hpos]
    rw [Nat.succ_mul] at hlast ⊢
    omega

theorem bin_lt {x : Nat} (h : bin n b x = some v) : v < b := by
  rw [bin, sub_mod_eq, Option.ite_none_right_eq_some, Option.some.injEq] at h
  rw [← h.2]
  exact Nat.div_lt_of_lt_mul (by rw [Nat.mul_comm]; exact h.1)

theorem bin_eq_none_iff {x : Nat} : bin n b x = none ↔ n - n % b ≤ x := by
  simp [bin]

/-- How many numbers below `n` lie in an interval. -/
theorem card_interval {lo hi : Nat} (h : hi ≤ n) {p : Fin n → Prop} [DecidablePred p]
    (hp : ∀ x, p x ↔ lo ≤ x.val ∧ x.val < hi) :
    (Finset.univ.filter p).card = hi - lo := by
  have hrange : (Finset.range n).filter (fun x => lo ≤ x ∧ x < hi) = Finset.Ico lo hi := by
    ext x
    rw [Finset.mem_filter, Finset.mem_range, Finset.mem_Ico]
    omega
  rw [Finset.filter_congr fun x _ => hp x, Finset.card_filter,
    Fin.sum_univ_eq_sum_range (fun x => if lo ≤ x ∧ x < hi then 1 else 0), ← Finset.card_filter,
    hrange, Nat.card_Ico]

/-- **Every bin has the same size.** -/
theorem card_bin (hv : v < b) :
    (Finset.univ.filter fun x : Fin n => bin n b x = some v).card = n / b := by
  have hend : (v + 1) * (n / b) ≤ n :=
    Nat.le_trans (Nat.mul_le_mul_right _ hv) (Nat.mul_div_le n b)
  rw [card_interval hend fun x => bin_eq_some_iff hv, Nat.succ_mul, Nat.add_sub_cancel_left]

/-- The numbers that are rejected. -/
theorem card_rejected (n b : Nat) :
    (Finset.univ.filter fun x : Fin n => bin n b x = none).card = n % b := by
  have hrejected : ∀ x : Fin n, bin n b x = none ↔ n - n % b ≤ x.val ∧ x.val < n :=
    fun x => by rw [bin_eq_none_iff, and_iff_left x.isLt]
  rw [card_interval (Nat.le_refl n) hrejected, Nat.sub_sub_self (Nat.mod_le n b)]

/-- **Fewer than half** of the numbers are rejected. -/
theorem two_mul_mod_lt (hb : 0 < b) (hbn : b ≤ n) : 2 * (n % b) < n := by
  have hmod := Nat.mod_lt n hb
  have hsplit := Nat.mod_add_div n b
  -- there is one bin at least, and what is left is smaller
  have hbin : b * 1 ≤ b * (n / b) := Nat.mul_le_mul_left b (Nat.div_pos hbn hb)
  omega

/-! ## Runs -/

section Runs

variable {α β : Type} [Fintype α] [DecidableEq β] (f : α → Option β)

/-- How many runs of `m` draws give `v`, where draws without a value are repeated. -/
def runs (m : Nat) (v : β) : Nat :=
  (Finset.univ.filter fun d : Fin m → α => (List.ofFn d).findSome? f = some v).card

/-- The runs that begin with `x`. -/
theorem card_runs_cons (m : Nat) (v : β) (x : α) :
    (Finset.univ.filter fun d : Fin m → α => (x :: List.ofFn d).findSome? f = some v).card =
      (if f x = some v then Fintype.card (Fin m → α) else 0) +
        if f x = none then runs f m v else 0 := by
  cases hx : f x with
  | none => simp [hx, runs]
  | some y =>
    by_cases hy : y = v <;> simp [hx, hy]

/-- One more draw: it has a value, or the other draws decide. -/
theorem runs_succ (m : Nat) (v : β) :
    runs f (m + 1) v =
      (Finset.univ.filter fun x => f x = some v).card * Fintype.card (Fin m → α) +
        (Finset.univ.filter fun x => f x = none).card * runs f m v := by
  have hfirst : runs f (m + 1) v = ∑ x, (Finset.univ.filter fun d : Fin m → α =>
      (x :: List.ofFn d).findSome? f = some v).card := by
    rw [runs, Finset.card_filter, ← (Fin.consEquiv fun _ => α).sum_comp, Fintype.sum_prod_type]
    apply Finset.sum_congr rfl
    intro x _
    rw [Finset.card_filter]
    simp [Fin.consEquiv, List.ofFn_succ]
  rw [hfirst, Finset.sum_congr rfl fun x _ => card_runs_cons f m v x, Finset.sum_add_distrib,
    ← Finset.sum_filter, ← Finset.sum_filter, Finset.sum_const, Finset.sum_const, smul_eq_mul,
    smul_eq_mul]

/-- **Runs are uniform**: values that are equally likely in one draw are equally likely in any
    number of draws. -/
theorem runs_eq {v w : β}
    (h : (Finset.univ.filter fun x => f x = some v).card =
      (Finset.univ.filter fun x => f x = some w).card) (m : Nat) :
    runs f m v = runs f m w := by
  induction m with
  | zero => simp [runs]
  | succ m ih => rw [runs_succ, runs_succ, h, ih]

end Runs

end TaskSystem.Library.Bins
