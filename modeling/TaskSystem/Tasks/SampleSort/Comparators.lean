import TaskSystem.Tasks.SampleSort.Sorts

/-!
# The Comparison Functions

`samplesorttask_cmpfunc` and `buckettask_cmpfunc` subtract. The difference of two `int`s is an
`int` again only when they are less than 2147483648 apart; beyond that its sign is wrong, and
what `qsort` does with such a function is anybody's guess.

## Contents

- `SignAgrees`, `OrdersExactly`, `Close`
- `signAgrees_iff`: when the difference has the right sign
- `Ascends`: samples, splitters and final arrays come out in ascending order
- `comparators_exact_iff`: all of it, exactly for values that are close to each other
- `comparators_wrong`: 2000000000 and -2000000000
-/

namespace TaskSystem.SampleSort

open Library

/-! ## Signs -/

/-- The result is negative, zero or positive exactly as `a < b`, `a = b` or `b < a`. -/
def SignAgrees (result a b : Int32) : Prop :=
  (result < 0 ↔ a < b) ∧ (result = 0 ↔ a = b) ∧ (0 < result ↔ b < a)

/-- The comparison function tells the order of any two of the values. -/
def OrdersExactly (cmp : Int32 → Int32 → Int32) (xs : List Int32) : Prop :=
  ∀ a ∈ xs, ∀ b ∈ xs, SignAgrees (cmp a b) a b

/-- No two of the values are 2147483648 or more apart. -/
def Close (xs : List Int32) : Prop :=
  ∀ a ∈ xs, ∀ b ∈ xs, (a.toInt - b.toInt).natAbs < 2 ^ 31

/-- **The difference has the right sign** exactly when it is an `int`. -/
theorem signAgrees_iff (a b : Int32) :
    SignAgrees (samplesorttaskCmpfunc a b) a b ↔
      -2 ^ 31 ≤ a.toInt - b.toInt ∧ a.toInt - b.toInt < 2 ^ 31 := by
  have ha₁ := a.le_toInt
  have ha₂ := a.toInt_lt
  have hb₁ := b.le_toInt
  have hb₂ := b.toInt_lt
  have hzero : (0 : Int32).toInt = 0 := by decide
  have hdiff : (samplesorttaskCmpfunc a b).toInt = (a.toInt - b.toInt).bmod (2 ^ 32) := by
    rw [samplesorttaskCmpfunc, Int32.toInt_sub]
  simp only [SignAgrees, Int32.lt_iff_toInt_lt, ← Int32.toInt_inj, hzero, hdiff]
  rw [Int.bmod]
  split <;> omega

/-- Both orders of a pair have the right sign when the two are close. -/
theorem signAgrees_pair_iff (a b : Int32) :
    SignAgrees (samplesorttaskCmpfunc a b) a b ∧ SignAgrees (samplesorttaskCmpfunc b a) b a ↔
      (a.toInt - b.toInt).natAbs < 2 ^ 31 := by
  rw [signAgrees_iff, signAgrees_iff]
  omega

theorem ordersExactly_iff (xs : List Int32) :
    OrdersExactly samplesorttaskCmpfunc xs ↔ Close xs := by
  constructor
  · intro hexact a ha b hb
    exact (signAgrees_pair_iff a b).mp ⟨hexact a ha b hb, hexact b hb a ha⟩
  · intro hclose a ha b hb
    exact ((signAgrees_pair_iff a b).mpr (hclose a ha b hb)).1

/-! ## What is sorted with them -/

/-- The samples `start` sorts, the splitters it picks from them, and the final array of a
    bucket are in ascending order, when all values are among `xs`. The last splitter is no
    sample. -/
structure Ascends (qsort : Qsort Int32) (xs : List Int32) : Prop where
  samples : ∀ samples, (∀ v ∈ samples, v ∈ xs) →
    (qsort.sort samplesorttaskCmpfunc samples).Pairwise (· ≤ ·)
  splitters : ∀ samples K splitters, (∀ v ∈ samples, v ∈ xs) →
    pickSplitters (qsort.sort samplesorttaskCmpfunc samples) K = some splitters →
    splitters.dropLast.Pairwise (· ≤ ·)
  finalData : ∀ m : SubArrays, (∀ v ∈ rebuild m, v ∈ xs) →
    (finalDataValues qsort m).Pairwise (· ≤ ·)

/-- A sort with one of the comparison functions puts values that are close in order. -/
theorem sort_ascends (qsort : Qsort Int32) {xs ys : List Int32} (hclose : Close xs)
    (hsub : ∀ v ∈ ys, v ∈ xs) :
    (qsort.sort samplesorttaskCmpfunc ys).Pairwise (· ≤ ·) := by
  have hconsistent := (cmpfunc_consistent hclose).subset hsub
  apply (qsort.sorted hconsistent).imp_of_mem
  intro a b ha hb hab
  have hmem := qsort.perm hconsistent
  have ha' := hsub a (hmem.mem_iff.mp ha)
  have hb' := hsub b (hmem.mem_iff.mp hb)
  exact (cmpfunc_le_iff (hclose a ha' b hb')).mp hab

theorem ascends_of_close (qsort : Qsort Int32) {xs : List Int32} (hclose : Close xs) :
    Ascends qsort xs where
  samples samples hsub := sort_ascends qsort hclose hsub
  splitters samples K splitters hsub h := by
    obtain ⟨picked, hpicked, rfl⟩ := Option.map_eq_some_iff.mp h
    rw [List.dropLast_concat]
    refine mapM_pairwise Int32.le_refl (sort_ascends qsort hclose hsub) _ ?_
      List.pairwise_lt_range hpicked
    intro i j hij
    exact Nat.mul_le_mul_right _ (by omega)
  finalData m hsub := sort_ascends qsort hclose hsub

/-- **The comparison functions order the values, and everything sorted with them ascends**,
    exactly when no two of the values are 2147483648 or more apart. -/
theorem comparators_exact_iff (xs : List Int32) :
    (OrdersExactly samplesorttaskCmpfunc xs ∧ OrdersExactly buckettaskCmpfunc xs ∧
      ∀ qsort : Qsort Int32, Ascends qsort xs) ↔ Close xs := by
  have hexact := ordersExactly_iff xs
  constructor
  · rintro ⟨hroot, -, -⟩
    exact hexact.mp hroot
  · intro hclose
    -- both functions subtract
    exact ⟨hexact.mpr hclose, hexact.mpr hclose, fun qsort => ascends_of_close qsort hclose⟩

/-- **Far apart**: 2000000000 counts as less than -2000000000, and a bucket that gets both puts
    them in that order. -/
theorem comparators_wrong :
    ¬SignAgrees (buckettaskCmpfunc 2000000000 (-2000000000)) 2000000000 (-2000000000) ∧
      finalDataValues Qsort.merge ⟨[2], [[-2000000000, 2000000000]]⟩ =
        [2000000000, -2000000000] ∧
      ¬Ascends Qsort.merge [-2000000000, 2000000000] := by
  have hfinal : finalDataValues Qsort.merge ⟨[2], [[-2000000000, 2000000000]]⟩ =
      [2000000000, -2000000000] := by
    have hswap : ¬(buckettaskCmpfunc (-2000000000) 2000000000).toInt ≤ 0 := by decide
    simp [finalDataValues, rebuild, Qsort.merge, List.mergeSort, List.MergeSort.Internal.splitInTwo,
      hswap]
  refine ⟨?_, hfinal, ?_⟩
  · rintro ⟨hless, -, -⟩
    exact absurd (hless.mp (by decide)) (by decide)
  · intro hascends
    have hsorted := hascends.finalData ⟨[2], [[-2000000000, 2000000000]]⟩ fun v hv => hv
    rw [hfinal] at hsorted
    have hle := (List.pairwise_cons.mp hsorted).1 _ (List.mem_singleton_self _)
    exact absurd hle (by decide)

end TaskSystem.SampleSort
