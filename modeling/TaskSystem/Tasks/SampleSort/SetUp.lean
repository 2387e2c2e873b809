import TaskSystem.Tasks.SampleSort.Sorts

/-!
# Setting a Sample Sort Up

The arithmetic of `start` (`SampleSortTask.c`) from the two messages with `K` and the data to
the end of splitter selection, for any two `int`s, with each operation that can be undefined
checked. Nothing on the way from the command line rejects a `K` or an `N`. The arrays that `start`
declares are assumed to fit on the stack of its thread, whose size the program does not set.

## Contents

- `Fault`, `Stop`: undefined operations, and the wait for a number `random_at_most` takes
- `checkedRandomAtMost`, `checkedSamples`, `checkedSplitters`, `setUp`
- `SetUpDefined`: no undefined operation, and the end is reached
- `setUp_defined_iff`: exactly for positive `K` and `N`
- `setUp_undefined`: one bucket and no data
-/

namespace TaskSystem.SampleSort

open Library

/-! ## Checked arithmetic -/

/-- An operation that C leaves undefined. -/
inductive Fault where
  | divisionByZero
  /-- An array of no or less than no elements is declared -/
  | arrayLength
  /-- An array is accessed outside its bounds -/
  | outOfBounds
  deriving DecidableEq, Repr

/-- Why the set-up has not come to its end. -/
inductive Stop where
  | fault (f : Fault)
  /-- `random` has not yet returned a number that the loop takes -/
  | drawing
  deriving DecidableEq, Repr

/-- `a / b` on `int`s, which truncates. -/
def checkedDiv (a b : Int) : Except Stop Int :=
  if b = 0 then .error (.fault .divisionByZero) else .ok (a.tdiv b)

/-- Element `i` of an array of `size` elements. -/
def checkedGet (array : List Int32) (size i : Int) : Except Stop Int32 :=
  if 0 ≤ i ∧ i < size then .ok (array.getD i.toNat 0) else .error (.fault .outOfBounds)

/-! ## The set-up -/

/-- `random_at_most`: `num_rand / num_bins` and `num_rand % num_bins` come before the loop,
    `x/bin_size` after it. -/
def checkedRandomAtMost (max : Int) (draws : List Draw) : Except Stop (Int × List Draw) :=
  if numBins max = 0 then .error (.fault .divisionByZero)
  else
    match randomAtMost max draws with
    | none => .error .drawing
    | some drawn =>
      if binSize max = 0 then .error (.fault .divisionByZero) else .ok drawn

/-- The loop that fills `samples` from the `size` values of `data`, with `n` samples to go. -/
def checkedSamples (data : List Int32) (size : Int) : Nat → List Draw → Except Stop (List Int32)
  | 0, _ => .ok []
  | n + 1, draws => do
    let (val, draws) ← checkedRandomAtMost (size - 1) draws
    let sample ← checkedGet data size val
    let samples ← checkedSamples data size n draws
    .ok (sample :: samples)

/-- `splitters`, picked from the sorted samples. -/
def checkedSplitters (samples : List Int32) (K : Int) : Except Stop (List Int32) := do
  -- int splitters[this->K]
  if K ≤ 0 then .error (.fault .arrayLength)
  let step ← checkedDiv sampleSize K
  let splitters ← (List.range (K - 1).toNat).mapM fun i : Nat =>
    checkedGet samples sampleSize ((i + 1) * step)
  .ok (splitters ++ [1000000])

/-- `start` after the two messages, up to the end of splitter selection: `size_per_task` and
    `splitters`. `qsort` is what sorts the samples. -/
def setUp (qsort : List Int32 → List Int32) (K N : Int32) (data : List Int32)
    (draws : List Draw) : Except Stop (Int × List Int32) := do
  let sizePerTask ← checkedDiv N.toInt K.toInt
  let samples ← checkedSamples data N.toInt sampleSize draws
  let splitters ← checkedSplitters (qsort samples) K.toInt
  .ok (sizePerTask, splitters)

/-- **The set-up is defined** for `K` and `N`: whatever `random` returns and `data` holds, no
    operation is undefined, and with as many numbers to take as there are samples the end is
    reached. -/
def SetUpDefined (K N : Int32) : Prop :=
  ∀ (qsort : List Int32 → List Int32) (data : List Int32) (draws : List Draw),
    (data.length : Int) = N.toInt →
    (∀ f, setUp qsort K N data draws ≠ .error (.fault f)) ∧
    (sampleSize ≤ draws.countP (fun x => Accepts (N.toInt - 1) x) →
      ∃ sizePerTask splitters, setUp qsort K N data draws = .ok (sizePerTask, splitters))

/-! ## Sampling -/

theorem checkedRandomAtMost_eq (max : Int) (h₀ : 0 ≤ max) (hmax : max < numRand)
    (draws : List Draw) :
    checkedRandomAtMost max draws =
      match randomAtMost max draws with
      | none => .error .drawing
      | some drawn => .ok drawn := by
  have hbins : numBins max = max + 1 := by
    unfold numRand at hmax
    unfold numBins
    omega
  have hsize : 0 < binSize max := by
    rw [binSize, hbins]
    exact Int.le_ediv_of_mul_le (by omega) (by omega)
  have hbins' : numBins max ≠ 0 := by omega
  have hsize' : binSize max ≠ 0 := by omega
  simp only [checkedRandomAtMost, hbins', hsize', if_false]

/-- **Sampling** from data ends, or waits for more numbers. -/
theorem checkedSamples_cases (data : List Int32) {size : Int} (hpos : 0 < size)
    (hmax : size ≤ numRand) (n : Nat) (draws : List Draw) :
    (∃ samples, checkedSamples data size n draws = .ok samples) ∨
      checkedSamples data size n draws = .error .drawing ∧
        draws.countP (fun x => Accepts (size - 1) x) < n := by
  induction n generalizing draws with
  | zero => exact .inl ⟨[], rfl⟩
  | succ n ih =>
    have hdraw := checkedRandomAtMost_eq (size - 1) (by omega) (by omega) draws
    cases hrandom : randomAtMost (size - 1) draws with
    | none =>
      rw [hrandom] at hdraw
      refine .inr ⟨by simp only [checkedSamples, hdraw]; rfl, ?_⟩
      -- one number to take would have ended the loop
      by_contra hmany
      obtain ⟨val, rest, hval, -⟩ := randomAtMost_some (n := n) (Nat.le_of_not_lt hmany)
      rw [hrandom] at hval
      cases hval
    | some drawn =>
      obtain ⟨val, rest⟩ := drawn
      rw [hrandom] at hdraw
      obtain ⟨h₁, h₂⟩ := randomAtMost_mem (by omega) (by omega) hrandom
      have hinside : 0 ≤ val ∧ val < size := ⟨h₁, by omega⟩
      have hget : checkedGet data size val = .ok (data.getD val.toNat 0) := if_pos hinside
      rcases ih rest with ⟨samples, hsamples⟩ | ⟨hwait, hfew⟩
      · refine .inl ⟨data.getD val.toNat 0 :: samples, ?_⟩
        simp only [checkedSamples, hdraw, hget, hsamples, bind, Except.bind]
      · refine .inr ⟨by simp only [checkedSamples, hdraw, hget, hwait, bind, Except.bind], ?_⟩
        by_contra hmany
        obtain ⟨val', rest', hval', hrest'⟩ :=
          randomAtMost_some (n := n) (Nat.le_of_not_lt hmany)
        obtain ⟨rfl, rfl⟩ : val = val' ∧ rest = rest' := by
          rw [hrandom] at hval'
          simpa using hval'
        omega

/-! ## Splitters -/

/-- **Splitter selection** for a positive `K` stays inside the samples. -/
theorem checkedSplitters_ok (samples : List Int32) {K : Int} (hK : 0 < K) :
    ∃ splitters, checkedSplitters samples K = .ok splitters := by
  obtain ⟨k, rfl⟩ : ∃ k : Nat, K = k := ⟨K.toNat, by omega⟩
  have hstep : checkedDiv sampleSize k = .ok ((sampleSize / k : Nat) : Int) := by
    have hne : (k : Int) ≠ 0 := by omega
    simp only [checkedDiv, hne, if_false, ← Int.ofNat_tdiv]
  have hnumber : ((k : Int) - 1).toNat = k - 1 := by omega
  have hget : ∀ i ∈ List.range (k - 1), ∃ sample,
      checkedGet samples sampleSize ((i + 1) * ((sampleSize / k : Nat) : Int)) = .ok sample := by
    intro i hi
    have hlt := pick_lt_sampleSize hi
    have hinside : 0 ≤ ((i : Int) + 1) * ((sampleSize / k : Nat) : Int) ∧
        ((i : Int) + 1) * ((sampleSize / k : Nat) : Int) < sampleSize := by
      exact_mod_cast And.intro (Nat.zero_le _) hlt
    exact ⟨_, if_pos hinside⟩
  obtain ⟨picked, hpicked⟩ := exists_mapM hget
  have hlength : ¬(k : Int) ≤ 0 := by omega
  refine ⟨picked ++ [1000000], ?_⟩
  simp only [checkedSplitters, hlength, if_false, hstep, hnumber, hpicked, bind, Except.bind, pure,
    Except.pure]

/-! ## The whole set-up -/

/-- A number that is always taken. -/
theorem accepts_zero {max : Int} (h₀ : 0 ≤ max) (hmax : max < numRand) : Accepts max 0 := by
  have hbins : numBins max = max + 1 := by
    unfold numRand at hmax
    unfold numBins
    omega
  have hdefect : defect max < numRand := by
    rw [defect, hbins]
    have hlt := Int.emod_lt_of_pos numRand (show 0 < max + 1 by omega)
    omega
  have hzero : ((0 : Draw).val : Int) = 0 := rfl
  unfold Accepts
  omega

/-- The set-up of a positive `K` on data ends, or waits for more numbers. -/
theorem setUp_cases (qsort : List Int32 → List Int32) {K N : Int32} (hK : 0 < K.toInt)
    (hN : 0 < N.toInt) (data : List Int32) (draws : List Draw) :
    (∃ sizePerTask splitters, setUp qsort K N data draws = .ok (sizePerTask, splitters)) ∨
      setUp qsort K N data draws = .error .drawing ∧
        draws.countP (fun x => Accepts (N.toInt - 1) x) < sampleSize := by
  have hne : K.toInt ≠ 0 := by omega
  have hdiv : checkedDiv N.toInt K.toInt = .ok (N.toInt.tdiv K.toInt) := if_neg hne
  have hmax : N.toInt ≤ numRand := by
    have hlt := N.toInt_lt
    unfold numRand
    omega
  rcases checkedSamples_cases data hN hmax sampleSize draws with
    ⟨samples, hsamples⟩ | ⟨hwait, hfew⟩
  · obtain ⟨splitters, hsplitters⟩ := checkedSplitters_ok (qsort samples) hK
    refine .inl ⟨N.toInt.tdiv K.toInt, splitters, ?_⟩
    simp only [setUp, hdiv, hsamples, hsplitters, bind, Except.bind]
  · refine .inr ⟨?_, hfew⟩
    simp only [setUp, hdiv, hwait, bind, Except.bind]

theorem setUp_zero_buckets (qsort : List Int32 → List Int32) {K : Int32} (hK : K.toInt = 0)
    (N : Int32) (data : List Int32) (draws : List Draw) :
    setUp qsort K N data draws = .error (.fault .divisionByZero) := by
  simp only [setUp, checkedDiv, hK, if_true, bind, Except.bind]

/-- Without data the first call of `random_at_most` divides by `num_bins`, which is 0. -/
theorem setUp_no_data (qsort : List Int32 → List Int32) {K N : Int32} (hN : N.toInt = 0)
    (data : List Int32) (draws : List Draw) :
    setUp qsort K N data draws = .error (.fault .divisionByZero) := by
  have hbins : numBins (0 - 1) = 0 := by decide
  have hsamples : checkedSamples data 0 sampleSize draws = .error (.fault .divisionByZero) := by
    rw [show sampleSize = 1499 + 1 from rfl]
    simp only [checkedSamples, checkedRandomAtMost, hbins, if_true, bind, Except.bind]
  simp only [setUp, hN, hsamples, bind, Except.bind, checkedDiv]
  split <;> rename_i hdiv
  · split at hdiv <;> cases hdiv
    rfl
  · rfl

/-- With a negative `K` the sampling comes to its end and the array of splitters has none. -/
theorem setUp_negative_buckets (qsort : List Int32 → List Int32) {K N : Int32}
    (hK : K.toInt < 0) (hN : 0 < N.toInt) (data : List Int32) :
    setUp qsort K N data (List.replicate sampleSize 0) = .error (.fault .arrayLength) := by
  have hne : K.toInt ≠ 0 := by omega
  have hdiv : checkedDiv N.toInt K.toInt = .ok (N.toInt.tdiv K.toInt) := if_neg hne
  have hmax : N.toInt - 1 < numRand := by
    have hlt := N.toInt_lt
    unfold numRand
    omega
  have haccepts : Accepts (N.toInt - 1) 0 := accepts_zero (by omega) hmax
  have hlength : K.toInt ≤ 0 := by omega
  rcases checkedSamples_cases data hN (by omega) sampleSize
      (List.replicate sampleSize 0) with ⟨samples, hsamples⟩ | ⟨-, hfew⟩
  · simp only [setUp, hdiv, hsamples, checkedSplitters, hlength, if_true, bind, Except.bind]
  · rw [List.countP_replicate, if_pos (by simpa using haccepts)] at hfew
    exact absurd hfew (Nat.lt_irrefl _)

/-- **The set-up is defined exactly for positive `K` and `N`.** -/
theorem setUp_defined_iff (K N : Int32) (hN : 0 ≤ N.toInt) :
    SetUpDefined K N ↔ 0 < K.toInt ∧ 0 < N.toInt := by
  constructor
  · intro hdefined
    -- some data of the size
    have hlen : ((List.replicate N.toInt.toNat (0 : Int32)).length : Int) = N.toInt := by
      rw [List.length_replicate]
      omega
    by_contra hnot
    obtain ⟨hnofault, -⟩ :=
      hdefined id (List.replicate N.toInt.toNat 0) (List.replicate sampleSize 0) hlen
    rcases Int.lt_trichotomy K.toInt 0 with hneg | hzero | hpos
    · rcases Int.lt_or_eq_of_le hN with hdata | hnone
      · exact hnofault _ (setUp_negative_buckets id hneg hdata _)
      · exact hnofault _ (setUp_no_data id hnone.symm _ _)
    · exact hnofault _ (setUp_zero_buckets id hzero N _ _)
    · have hnone : N.toInt = 0 := by
        by_contra hne
        exact hnot ⟨hpos, by omega⟩
      exact hnofault _ (setUp_no_data id hnone _ _)
  · rintro ⟨hK, hdata⟩ qsort data draws -
    rcases setUp_cases qsort hK hdata data draws with hend | ⟨hwait, hfew⟩
    · refine ⟨?_, fun _ => hend⟩
      obtain ⟨sizePerTask, splitters, hok⟩ := hend
      intro f hfault
      rw [hok] at hfault
      cases hfault
    · refine ⟨?_, fun hmany => absurd hfew (Nat.not_lt.mpr hmany)⟩
      intro f hfault
      rw [hwait] at hfault
      cases hfault

/-- Four buckets for 100 values. -/
theorem setUp_defined_iff_four :
    SetUpDefined 4 100 ↔ 0 < (4 : Int32).toInt ∧ 0 < (100 : Int32).toInt :=
  setUp_defined_iff 4 100 (by decide)

/-- **Undefined**: one bucket and no data, as `samplesort_test 1 0` asks for. -/
theorem setUp_undefined :
    setUp id 1 0 [] [] = .error (.fault .divisionByZero) ∧ ¬SetUpDefined 1 0 := by
  have hdivides : setUp id 1 0 [] [] = .error (.fault .divisionByZero) :=
    setUp_no_data id (by decide) [] []
  refine ⟨hdivides, ?_⟩
  intro hdefined
  exact (hdefined id [] [] (by decide)).1 _ hdivides

end TaskSystem.SampleSort
