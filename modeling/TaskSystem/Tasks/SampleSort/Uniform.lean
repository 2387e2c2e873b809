import TaskSystem.Library.Bins
import TaskSystem.Tasks.SampleSort.Sorts

/-!
# `random_at_most` is Uniform

What the loop of `random_at_most` (`SampleSortTask.c`) makes of the numbers from 0 to `RAND_MAX`:
they fall into `max + 1` bins of one size, and what is left over is drawn again.

## Contents

- `mapsTo`, `randomAtMost_eq`: one number, and the loop as a run of such
- `mapsTo_eq`: the bins of the loop
- `Uniform`, `randomAtMost_uniform`: all results have equally many numbers
- `randomAtMost_runs`: and equally many sequences of numbers lead to them
-/

namespace TaskSystem.SampleSort

open Library Bins

/-! ## One number -/

/-- What the loop makes of one number: the result, or `none` where it draws again. -/
def mapsTo (max : Int) (x : Draw) : Option Int := (randomAtMost max [x]).map Prod.fst

theorem mapsTo_of_accepts {max : Int} {x : Draw} (h : Accepts max x) :
    mapsTo max x = some (x.val / binSize max) := by
  simp [mapsTo, randomAtMost, h]

theorem mapsTo_of_not_accepts {max : Int} {x : Draw} (h : ¬Accepts max x) :
    mapsTo max x = none := by
  simp [mapsTo, randomAtMost, h]

/-- The loop ends at the first number that it takes. -/
theorem randomAtMost_eq (max : Int) (draws : List Draw) :
    (randomAtMost max draws).map Prod.fst = draws.findSome? (mapsTo max) := by
  induction draws with
  | nil => rfl
  | cons x draws ih =>
    rw [List.findSome?_cons, randomAtMost]
    by_cases hx : Accepts max x
    · rw [if_pos hx, mapsTo_of_accepts hx]
      rfl
    · rw [if_neg hx, mapsTo_of_not_accepts hx]
      exact ih

/-- **The bins of the loop**: `max + 1` of them, over the numbers up to `RAND_MAX`. -/
theorem mapsTo_eq {m : Nat} (hm : (m : Int) < numRand) (x : Draw) :
    mapsTo m x = (bin 2147483648 (m + 1) x.val).map Nat.cast := by
  have hbins : numBins m = ((m + 1 : Nat) : Int) := by
    unfold numRand at hm
    unfold numBins
    omega
  have hsize : binSize m = ((2147483648 / (m + 1) : Nat) : Int) := by
    rw [binSize, hbins, numRand]
    rfl
  have hdefect : defect m = ((2147483648 % (m + 1) : Nat) : Int) := by
    rw [defect, hbins, numRand]
    rfl
  have haccepts : Accepts m x ↔ x.val < 2147483648 - 2147483648 % (m + 1) := by
    rw [Accepts, hdefect, numRand]
    omega
  unfold bin
  by_cases hx : Accepts m x
  · rw [mapsTo_of_accepts hx, if_pos (haccepts.mp hx), hsize, Option.map_some]
    rfl
  · rw [mapsTo_of_not_accepts hx, if_neg (mt haccepts.mpr hx)]
    rfl

/-! ## All numbers -/

/-- **Uniform**: what `random_at_most` makes of the numbers from 0 to `RAND_MAX`. -/
structure Uniform (max : Int) : Prop where
  /-- Every result has the same number of them. -/
  each : ∀ v, 0 ≤ v → v ≤ max →
    ((Finset.univ.filter fun x => mapsTo max x = some v).card : Int) = numRand / (max + 1)
  /-- A number that is accepted has a result in `[0, max]`. -/
  inside : ∀ x v, mapsTo max x = some v → 0 ≤ v ∧ v ≤ max
  /-- Fewer than half are rejected. -/
  rejected : 2 * (Finset.univ.filter fun x => mapsTo max x = none).card < Fintype.card Draw

theorem mapsTo_eq_some_iff {m v : Nat} (hm : (m : Int) < numRand) (x : Draw) :
    mapsTo m x = some (v : Int) ↔ bin 2147483648 (m + 1) x.val = some v := by
  rw [mapsTo_eq hm]
  cases bin 2147483648 (m + 1) x.val <;> simp

theorem mapsTo_eq_none_iff {m : Nat} (hm : (m : Int) < numRand) (x : Draw) :
    mapsTo m x = none ↔ bin 2147483648 (m + 1) x.val = none := by
  rw [mapsTo_eq hm, Option.map_eq_none_iff]

theorem card_mapsTo {m v : Nat} (hm : (m : Int) < numRand) (hv : v ≤ m) :
    (Finset.univ.filter fun x => mapsTo m x = some (v : Int)).card = 2147483648 / (m + 1) := by
  rw [Finset.filter_congr fun x _ => mapsTo_eq_some_iff hm x]
  exact card_bin (Nat.lt_succ_of_le hv)

theorem card_mapsTo_none {m : Nat} (hm : (m : Int) < numRand) :
    (Finset.univ.filter fun x => mapsTo m x = none).card = 2147483648 % (m + 1) := by
  rw [Finset.filter_congr fun x _ => mapsTo_eq_none_iff hm x]
  exact card_rejected _ _

/-- **`random_at_most` is uniform.** -/
theorem randomAtMost_uniform {max : Int} (h₀ : 0 ≤ max) (hmax : max < numRand) :
    Uniform max := by
  obtain ⟨m, rfl⟩ := Int.eq_ofNat_of_zero_le h₀
  constructor
  case each =>
    intro v hv hle
    obtain ⟨v, rfl⟩ := Int.eq_ofNat_of_zero_le hv
    rw [card_mapsTo hmax (by omega)]
    rfl
  case inside =>
    intro x v hv
    rw [mapsTo_eq hmax] at hv
    obtain ⟨i, hi, rfl⟩ := Option.map_eq_some_iff.mp hv
    have hlt := bin_lt hi
    omega
  case rejected =>
    rw [card_mapsTo_none hmax, Fintype.card_fin]
    unfold numRand at hmax
    exact two_mul_mod_lt (Nat.succ_pos m) (by omega)

/-- Indices into 100 values. -/
theorem randomAtMost_uniform_hundred : Uniform 99 :=
  randomAtMost_uniform (by decide) (by decide)

/-- **Whole runs of the loop**: however many numbers are drawn, each result comes out of equally
    many sequences of them. -/
theorem randomAtMost_runs {max v w : Int} (hmax : max < numRand) (hv : 0 ≤ v ∧ v ≤ max)
    (hw : 0 ≤ w ∧ w ≤ max) (n : Nat) :
    (Finset.univ.filter fun draws : Fin n → Draw =>
        (randomAtMost max (List.ofFn draws)).map Prod.fst = some v).card =
      (Finset.univ.filter fun draws : Fin n → Draw =>
        (randomAtMost max (List.ofFn draws)).map Prod.fst = some w).card := by
  obtain ⟨m, rfl⟩ := Int.eq_ofNat_of_zero_le (Int.le_trans hv.1 hv.2)
  obtain ⟨v, rfl⟩ := Int.eq_ofNat_of_zero_le hv.1
  obtain ⟨w, rfl⟩ := Int.eq_ofNat_of_zero_le hw.1
  simp only [randomAtMost_eq]
  apply runs_eq (mapsTo m)
  rw [card_mapsTo hmax (by omega), card_mapsTo hmax (by omega)]

end TaskSystem.SampleSort
