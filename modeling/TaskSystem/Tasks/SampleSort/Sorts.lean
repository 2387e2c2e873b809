import Mathlib.Algebra.Group.Int.Defs
import Mathlib.Algebra.Group.Nat.Defs
import Mathlib.Data.List.Induction
import TaskSystem.Tasks.BucketTask

/-!
# Sample Sort Sorts

From the slices of the data through the two passes of every bucket, the root's redistribution
and the final sorting: the buckets' final arrays, in bucket order, are the data sorted.

## Contents

- `gatherSamples_some`, `pickSplitters_some`: there are splitters, whatever is drawn
- `slices_flatten`: the slices are the data
- `le_of_findSplitter`, `lt_of_findSplitter`: how a value lies to the splitters around it
- `subArrays_column`: each bucket publishes its slice distributed by splitter
- `rebuild_gatherColumn`: what a bucket gets back
- `sampleSort`, `sampleSort_sorts`
-/

namespace TaskSystem.SampleSort

open Library

/-! ## Sampling -/

/-- An accepted draw is mapped into `[0, max]`. -/
theorem randomAtMost_mem {max : Int} {draws rest : List Draw} {val : Int} (h₀ : 0 ≤ max)
    (hmax : max < numRand) (h : randomAtMost max draws = some (val, rest)) :
    0 ≤ val ∧ val ≤ max := by
  induction draws with
  | nil => simp [randomAtMost] at h
  | cons x draws ih =>
    by_cases hx : Accepts max x
    · obtain ⟨rfl, -⟩ : x.val / binSize max = val ∧ draws = rest := by
        simpa [randomAtMost, hx] using h
      unfold numRand at hmax
      have hbins : numBins max = max + 1 := by unfold numBins; omega
      -- the draw lies below the whole bins
      have hwhole : defect max + (max + 1) * binSize max = numRand := by
        rw [defect, binSize, hbins]
        exact Int.emod_add_mul_ediv ..
      have hdraw : (x.val : Int) < (max + 1) * binSize max := by
        unfold Accepts at hx
        omega
      have hpos : 0 < binSize max := by
        rw [binSize, hbins]
        apply Int.le_ediv_of_mul_le (by omega)
        unfold numRand
        omega
      exact ⟨Int.ediv_nonneg (by omega) (by omega),
        Int.lt_add_one_iff.mp (Int.ediv_lt_of_lt_mul hpos hdraw)⟩
    · simp only [randomAtMost, hx, if_false] at h
      exact ih h

/-- While accepted draws are to come the loop ends, and it uses up one of them. -/
theorem randomAtMost_some {max : Int} {n : Nat} {draws : List Draw}
    (h : n + 1 ≤ draws.countP fun x => Accepts max x) :
    ∃ val rest, randomAtMost max draws = some (val, rest) ∧
      n ≤ rest.countP fun x => Accepts max x := by
  induction draws with
  | nil => simp at h
  | cons x draws ih =>
    by_cases hx : Accepts max x
    · rw [List.countP_cons_of_pos (by simpa using hx)] at h
      refine ⟨x.val / binSize max, draws, ?_, by omega⟩
      simp [randomAtMost, hx]
    · rw [List.countP_cons_of_neg (by simpa using hx)] at h
      simpa [randomAtMost, hx] using ih h

/-- **Sampling** ends and takes values of the data. -/
theorem gatherSamples_some {data : List Int32} (hN : 1 ≤ data.length)
    (hint : (data.length : Int) ≤ numRand) {n : Nat} {draws : List Draw}
    (h : n ≤ draws.countP fun x => Accepts (data.length - 1) x) :
    ∃ samples, gatherSamples data n draws = some samples ∧ samples.length = n ∧
      ∀ sample ∈ samples, sample ∈ data := by
  induction n generalizing draws with
  | zero => exact ⟨[], rfl, rfl, by simp⟩
  | succ n ih =>
    obtain ⟨val, rest, hval, hrest⟩ := randomAtMost_some h
    obtain ⟨samples, hsamples, hlen, hmem⟩ := ih hrest
    obtain ⟨h₁, h₂⟩ := randomAtMost_mem (by omega) (by omega) hval
    have hlt : val.toNat < data.length := by omega
    refine ⟨data[val.toNat] :: samples, ?_, by simp [hlen], ?_⟩
    · simp [gatherSamples, hval, hsamples, List.getElem?_eq_getElem hlt]
    · intro sample hsample
      rcases List.mem_cons.mp hsample with rfl | hsample
      · exact List.getElem_mem hlt
      · exact hmem sample hsample

/-- The last splitter picked is still a step before the end of the samples. -/
theorem pick_lt_sampleSize {i K : Nat} (hi : i ∈ List.range (K - 1)) :
    (i + 1) * (sampleSize / K) < sampleSize := by
  have hi' : i + 2 ≤ K := by
    have := List.mem_range.mp hi
    omega
  have hle : (i + 2) * (sampleSize / K) ≤ sampleSize :=
    Nat.le_trans (Nat.mul_le_mul_right _ hi') (Nat.mul_div_le _ _)
  have hsize : sampleSize = 1500 := rfl
  rcases Nat.eq_zero_or_pos (sampleSize / K) with hzero | hpos
  · rw [hzero, hsize]
    omega
  · rw [show i + 2 = (i + 1) + 1 from rfl, Nat.succ_mul] at hle
    omega

/-- **Splitters**: there are `K` of them. -/
theorem pickSplitters_some {samples : List Int32} (hlen : samples.length = sampleSize) {K : Nat}
    (hK : 1 ≤ K) :
    ∃ splitters, pickSplitters samples K = some splitters ∧ splitters.length = K := by
  have hinside : ∀ i ∈ List.range (K - 1), (i + 1) * (sampleSize / K) < samples.length := by
    intro i hi
    rw [hlen]
    exact pick_lt_sampleSize hi
  obtain ⟨picked, hpicked⟩ := exists_mapM fun i hi =>
    ⟨_, List.getElem?_eq_getElem (hinside i hi)⟩
  have hall : pickSplitters samples K = some (picked ++ [1000000]) := by
    simp only [pickSplitters, hpicked, Option.pure_def, Option.map_some]
  exact ⟨_, hall, length_pickSplitters hK hall⟩

/-! ## Slicing -/

/-- **The slices are the data**: nothing is lost between them. -/
theorem slices_flatten (data : List Int32) {K : Nat} (hK : 1 ≤ K) :
    (slices data K).flatten = data := by
  obtain ⟨k, rfl⟩ : ∃ k, K = k + 1 := ⟨K - 1, by omega⟩
  have hfirst : ∀ j ≤ k, ((List.range j).map fun ki =>
      if ki + 1 < k + 1 then (data.drop (ki * (data.length / (k + 1)))).take (data.length / (k + 1))
      else data.drop (ki * (data.length / (k + 1)))).flatten =
        data.take (j * (data.length / (k + 1))) := by
    intro j hj
    induction j with
    | zero => simp
    | succ j ih =>
      have hlt : j + 1 < k + 1 := by omega
      rw [List.range_succ, List.map_append, List.flatten_append, ih (by omega)]
      simp only [List.map_cons, List.map_nil, List.flatten_cons, List.flatten_nil,
        List.append_nil, hlt, if_true, Nat.succ_mul, List.take_add]
  have hlast : ¬k + 1 < k + 1 := by omega
  rw [slices, List.range_succ, List.map_append, List.flatten_append, hfirst k (Nat.le_refl k)]
  simp only [List.map_cons, List.map_nil, List.flatten_cons, List.flatten_nil, List.append_nil,
    hlast, if_false, List.take_append_drop]

theorem length_slices (data : List Int32) (K : Nat) : (slices data K).length = K := by
  simp [slices]

/-! ## Finding the splitter -/

theorem findSplitter_some (val : Int32) {splitters : List Int32} (h : splitters ≠ []) :
    ∃ i < splitters.length, findSplitter val splitters = some i := by
  induction splitters with
  | nil => exact absurd rfl h
  | cons s ss ih =>
    by_cases hle : val ≤ s
    · exact ⟨0, by simp, by simp [findSplitter, hle]⟩
    · by_cases hnil : ss = []
      · exact ⟨0, by simp, by simp [findSplitter, hnil]⟩
      · obtain ⟨i, hi, hfind⟩ := ih hnil
        exact ⟨i + 1, by simpa using hi, by simp [findSplitter, hle, hnil, hfind]⟩

/-- A value lies at or below its splitter, unless that is the last. -/
theorem le_of_findSplitter {val : Int32} {splitters : List Int32} {i : Nat}
    (h : findSplitter val splitters = some i) (hi : i + 1 < splitters.length) :
    val ≤ splitters[i] := by
  induction splitters generalizing i with
  | nil => simp [findSplitter] at h
  | cons s ss ih =>
    unfold findSplitter at h
    split at h
    case isTrue hle =>
      obtain rfl : 0 = i := by simpa using h
      exact hle
    case isFalse hgt =>
      split at h
      case isTrue hnil =>
        simp [hnil] at hi
      case isFalse =>
        obtain ⟨j, hj, rfl⟩ := Option.map_eq_some_iff.mp h
        exact ih hj (by simpa using hi)

/-- A value lies above all splitters before its own. -/
theorem lt_of_findSplitter {val : Int32} {splitters : List Int32} {i j : Nat}
    (h : findSplitter val splitters = some j) (hij : i < j) (hi : i < splitters.length) :
    ¬val ≤ splitters[i] := by
  induction splitters generalizing i j with
  | nil => simp [findSplitter] at h
  | cons s ss ih =>
    unfold findSplitter at h
    split at h
    case isTrue hle =>
      obtain rfl : 0 = j := by simpa using h
      omega
    case isFalse hgt =>
      split at h
      case isTrue hnil =>
        obtain rfl : 0 = j := by simpa using h
        omega
      case isFalse =>
        obtain ⟨k, hk, rfl⟩ := Option.map_eq_some_iff.mp h
        cases i with
        | zero => exact hgt
        | succ i => exact ih hk (by omega) (by simpa using hi)

/-! ## The two passes -/

/-- The rounds of the first pass, seen at count `i`. -/
theorem foldl_countStep {splitters : List Int32} {i n : Nat} (dataRef : List Int32)
    {counts : List Nat} (hcount : counts[i]? = some n) :
    (dataRef.foldl (countStep splitters) counts)[i]? =
      some (n + dataRef.countP fun val => findSplitter val splitters = some i) := by
  induction dataRef generalizing counts n with
  | nil => simpa using hcount
  | cons val dataRef ih =>
    rw [List.foldl_cons]
    by_cases hkey : findSplitter val splitters = some i
    · rw [List.countP_cons_of_pos (by simpa using hkey)]
      rw [ih (n := n + 1) (by simp [countStep, hkey, hcount])]
      congr 1
      omega
    · rw [List.countP_cons_of_neg (by simpa using hkey)]
      apply ih
      unfold countStep
      split
      case h_1 si hsi =>
        have hne : si ≠ i := fun heq => hkey (heq ▸ hsi)
        simpa [List.getElem?_modify, hne] using hcount
      case h_2 => exact hcount

/-- **First pass**: how many values have the splitter `i`. -/
theorem countPass_getElem? {K i : Nat} (hi : i < K) (splitters dataRef : List Int32) :
    (countPass K splitters dataRef)[i]? =
      some (dataRef.countP fun val => findSplitter val splitters = some i) := by
  rw [countPass, foldl_countStep dataRef (n := 0) (by simp [hi]), Nat.zero_add]

/-- The rounds of the second pass, seen at array `i`: the cells written so far are `done`. -/
theorem foldl_fillStep {splitters : List Int32} {i : Nat} (dataRef : List Int32)
    {s : List (List Int32) × List Nat} (done tail : List Int32)
    (hcells : s.1[i]? = some (done ++ tail)) (hcurrent : s.2[i]? = some done.length)
    (htail : tail.length = dataRef.countP fun val => findSplitter val splitters = some i) :
    (dataRef.foldl (fillStep splitters) s).1[i]? =
      some (done ++ dataRef.filter fun val => findSplitter val splitters = some i) := by
  induction dataRef generalizing s done tail with
  | nil =>
    obtain rfl : tail = [] := List.length_eq_zero_iff.mp htail
    simpa using hcells
  | cons val dataRef ih =>
    rw [List.foldl_cons]
    by_cases hkey : findSplitter val splitters = some i
    · rw [List.countP_cons_of_pos (by simpa using hkey)] at htail
      -- the next cell is the first of those not written yet
      obtain ⟨cell, tail, rfl⟩ := List.exists_cons_of_length_eq_add_one htail
      rw [List.filter_cons_of_pos (by simpa using hkey)]
      rw [ih (done ++ [val]) tail]
      · simp
      · simp [fillStep, hkey, hcells, hcurrent]
      · simp [fillStep, hkey, hcurrent]
      · simpa using htail
    · rw [List.countP_cons_of_neg (by simpa using hkey)] at htail
      rw [List.filter_cons_of_neg (by simpa using hkey)]
      -- another array is written, or none
      have hframe : (fillStep splitters s val).1[i]? = s.1[i]? ∧
          (fillStep splitters s val).2[i]? = s.2[i]? := by
        unfold fillStep
        split
        case h_1 si hsi =>
          have hne : si ≠ i := fun heq => hkey (heq ▸ hsi)
          simp [hne]
        case h_2 => exact ⟨rfl, rfl⟩
      exact ih done tail (hframe.1.trans hcells) (hframe.2.trans hcurrent) htail

/-- **Both passes**: array `i` holds the values of the slice whose splitter is `i`, and its
    count is their number. -/
theorem subArrays_column {K i : Nat} (hi : i < K) (splitters dataRef : List Int32)
    (uninit : Nat → Nat → Int32) :
    (subArrays K splitters dataRef uninit).values.getD i [] =
      dataRef.filter (fun val => findSplitter val splitters = some i) ∧
    (subArrays K splitters dataRef uninit).counts.getD i 0 =
      (dataRef.filter fun val => findSplitter val splitters = some i).length := by
  have hcount := countPass_getElem? hi splitters dataRef
  have hfill : (fillPass K splitters dataRef (countPass K splitters dataRef) uninit)[i]? =
      some (dataRef.filter fun val => findSplitter val splitters = some i) := by
    apply foldl_fillStep dataRef []
    · simp only [List.nil_append, List.getElem?_map, List.getElem?_range hi, Option.map_some]
      rfl
    · simp [hi]
    · simp only [List.length_map, List.length_range, List.getD_eq_getElem?_getD, hcount,
        Option.getD_some]
  rw [List.countP_eq_length_filter] at hcount
  simp only [subArrays, List.getD_eq_getElem?_getD, hfill, hcount, Option.getD_some, and_self]

/-! ## The whole sort -/

/-- What the buckets publish, by bucket. -/
def published (data splitters : List Int32) (K : Nat) (uninit : Nat → Nat → Nat → Int32) :
    List SubArrays :=
  (slices data K).zipIdx.map fun (slice, b) => subArrays K splitters slice (uninit b)

/-- **A sample sort**: the buckets' final arrays, in bucket order. `arrival` is the order in
    which the buckets' `SUB_ARRAT` messages reach the root. -/
def sampleSort (qsort : Qsort Int32) (uninit : Nat → Nat → Nat → Int32) (data : List Int32)
    (K : Nat) (draws : List Draw) (arrival : List Nat) : Option (List (List Int32)) := do
  let samples ← gatherSamples data sampleSize draws
  let splitters ← pickSplitters (qsort.sort samplesorttaskCmpfunc samples) K
  let bucketsValuesArr := arrival.filterMap fun b => (published data splitters K uninit)[b]?
  some ((List.range K).map fun ki => finalDataValues qsort (gatherColumn bucketsValuesArr ki))

/-- **Transposition and rebuilding**: bucket `ki` gets its part of every slice, in the order
    of arrival. -/
theorem rebuild_gatherColumn {data splitters : List Int32} {K ki : Nat}
    (uninit : Nat → Nat → Nat → Int32) {arrival : List Nat} (hki : ki < K)
    (harrival : ∀ b ∈ arrival, b < K) :
    rebuild (gatherColumn
      (arrival.filterMap fun b => (published data splitters K uninit)[b]?) ki) =
    (arrival.filterMap fun b => (slices data K)[b]?).flatten.filter
      fun val => findSplitter val splitters = some ki := by
  induction arrival with
  | nil => rfl
  | cons b arrival ih =>
    have hb : b < (slices data K).length := by
      rw [length_slices]
      exact harrival b (List.mem_cons_self ..)
    have hslice := List.getElem?_eq_getElem hb
    have hpub : (published data splitters K uninit)[b]? =
        some (subArrays K splitters (slices data K)[b] (uninit b)) := by
      simp [published, hslice]
    obtain ⟨hvalues, hcounts⟩ := subArrays_column hki splitters (slices data K)[b] (uninit b)
    rw [List.filterMap_cons_some hpub, List.filterMap_cons_some hslice, List.flatten_cons,
      List.filter_append, ← ih fun c hc => harrival c (List.mem_cons_of_mem _ hc)]
    simp only [gatherColumn, rebuild, List.map_cons, List.zip_cons_cons, List.flatMap_cons,
      hvalues, hcounts, List.take_length]

/-- Looking every index up gives the list. -/
theorem filterMap_getElem?_range {α : Type} (xs : List α) :
    ((List.range xs.length).filterMap fun b => xs[b]?) = xs := by
  induction xs using List.reverseRecOn with
  | nil => rfl
  | append_singleton xs x ih =>
    have hbefore : ((List.range xs.length).filterMap fun b => (xs ++ [x])[b]?) =
        (List.range xs.length).filterMap fun b => xs[b]? := by
      apply List.filterMap_congr
      intro b hb
      exact List.getElem?_append_left (List.mem_range.mp hb)
    rw [List.length_append, List.length_singleton, List.range_succ, List.filterMap_append,
      hbefore, ih]
    simp

/-- The slices in any order of arrival are the data. -/
theorem arrival_perm (data : List Int32) {K : Nat} (hK : 1 ≤ K) {arrival : List Nat}
    (harrival : arrival.Perm (List.range K)) :
    (arrival.filterMap fun b => (slices data K)[b]?).flatten.Perm data := by
  apply ((harrival.filterMap _).flatten).trans
  have hall := filterMap_getElem?_range (slices data K)
  rw [length_slices] at hall
  rw [hall, slices_flatten data hK]

/-- Where two values differ by less than `2 ^ 31`, the comparison function does not
    overflow. -/
theorem cmpfunc_le_iff {a b : Int32} (h : (a.toInt - b.toInt).natAbs < 2 ^ 31) :
    (samplesorttaskCmpfunc a b).toInt ≤ 0 ↔ a ≤ b := by
  have hsub : (samplesorttaskCmpfunc a b).toInt = a.toInt - b.toInt := by
    rw [samplesorttaskCmpfunc, Int32.toInt_sub]
    apply Int.bmod_eq_of_le <;> omega
  rw [hsub, Int32.le_iff_toInt_le]
  omega

/-- The comparison function of both tasks is consistent on values that close. -/
theorem cmpfunc_consistent {data : List Int32}
    (hclose : ∀ a ∈ data, ∀ b ∈ data, (a.toInt - b.toInt).natAbs < 2 ^ 31) :
    ConsistentOn samplesorttaskCmpfunc data where
  total a ha b hb := by
    rw [cmpfunc_le_iff (hclose a ha b hb), cmpfunc_le_iff (hclose b hb a ha)]
    exact Int32.le_total a b
  trans a ha b hb c hc := by
    rw [cmpfunc_le_iff (hclose a ha b hb), cmpfunc_le_iff (hclose b hb c hc),
      cmpfunc_le_iff (hclose a ha c hc)]
    exact Int32.le_trans

/-- **Sample sort sorts**: whatever is drawn, while `sampleSize` draws get accepted, and in
    whatever order the buckets' messages arrive, the final arrays in bucket order are the
    data in ascending order. -/
theorem sampleSort_sorts (qsort : Qsort Int32) (uninit : Nat → Nat → Nat → Int32)
    {data : List Int32} {K : Nat} {draws : List Draw} {arrival : List Nat}
    (hN : 1 ≤ data.length) (hint : data.length ≤ 2147483647)
    (hclose : ∀ a ∈ data, ∀ b ∈ data, (a.toInt - b.toInt).natAbs < 2 ^ 31)
    (hK : 1 ≤ K)
    (hdraws : sampleSize ≤ draws.countP fun x => Accepts (data.length - 1) x)
    (harrival : arrival.Perm (List.range K)) :
    ∃ final, sampleSort qsort uninit data K draws arrival = some final ∧
      final.flatten.Pairwise (· ≤ ·) ∧ final.flatten.Perm data := by
  obtain ⟨samples, hsamples, hlen, hmem⟩ := gatherSamples_some hN (by unfold numRand; omega) hdraws
  have hconsistent := cmpfunc_consistent hclose
  have hsorted := qsort.perm (hconsistent.subset hmem)
  obtain ⟨splitters, hsplitters, hcount⟩ :=
    pickSplitters_some (hsorted.length_eq.trans hlen) hK
  have hnil : splitters ≠ [] := by
    rintro rfl
    simp only [List.length_nil] at hcount
    omega
  -- all values there are, as they reach their buckets
  let flat := (arrival.filterMap fun b => (slices data K)[b]?).flatten
  have hflat : flat.Perm data := arrival_perm data hK harrival
  let share ki := flat.filter fun val => findSplitter val splitters = some ki
  have hshare : ∀ ki, ∀ val ∈ share ki, val ∈ data := by
    intro ki val hval
    exact hflat.mem_iff.mp (List.mem_filter.mp hval).1
  -- what a bucket sorts is its share
  let group ki := qsort.sort buckettaskCmpfunc (share ki)
  have hgroupPerm : ∀ ki, (group ki).Perm (share ki) := fun ki =>
    qsort.perm (hconsistent.subset (hshare ki))
  have hfinal : ((List.range K).map fun ki => finalDataValues qsort (gatherColumn
      (arrival.filterMap fun b => (published data splitters K uninit)[b]?) ki)) =
      (List.range K).map group := by
    apply List.map_congr_left
    intro ki hki
    rw [finalDataValues, rebuild_gatherColumn uninit (List.mem_range.mp hki)
      fun b hb => List.mem_range.mp (harrival.mem_iff.mp hb)]
  refine ⟨(List.range K).map group, ?_, ?_, ?_⟩
  · simp only [sampleSort, hsamples, hsplitters, Option.bind_eq_bind, Option.bind_some, hfinal]
  · rw [← List.flatMap_def]
    apply pairwise_flatMap_range
    · -- inside a bucket, by its sort
      intro ki _
      apply (qsort.sorted (hconsistent.subset (hshare ki))).imp_of_mem
      intro a b ha hb hab
      exact (cmpfunc_le_iff (hclose a (hshare ki a ((hgroupPerm ki).mem_iff.mp ha)) b
        (hshare ki b ((hgroupPerm ki).mem_iff.mp hb)))).mp hab
    · -- between buckets, by the splitter of the first
      intro i j hij hj x hx y hy
      have hx' := (List.mem_filter.mp ((hgroupPerm i).mem_iff.mp hx)).2
      have hy' := (List.mem_filter.mp ((hgroupPerm j).mem_iff.mp hy)).2
      have hle := le_of_findSplitter (of_decide_eq_true hx') (by omega)
      have hlt := lt_of_findSplitter (of_decide_eq_true hy') hij (by omega)
      exact Int32.le_trans hle (Int32.le_of_lt (Int32.not_le.mp hlt))
  · rw [← List.flatMap_def]
    have hkey : ∀ val, ∃ i < K, findSplitter val splitters = some i := fun val =>
      hcount ▸ findSplitter_some val hnil
    have hdistribute := distribute_perm (fun val => (findSplitter val splitters).getD 0) K flat
      fun val _ => by
        obtain ⟨i, hi, hfind⟩ := hkey val
        simpa [hfind] using hi
    apply (List.Perm.flatMap_left _ fun ki _ => hgroupPerm ki).trans
    apply List.Perm.trans _ (hdistribute.trans hflat)
    have hsame : ∀ ki, share ki =
        flat.filter fun val => (findSplitter val splitters).getD 0 = ki := by
      intro ki
      apply List.filter_congr
      intro val _
      obtain ⟨i, _, hfind⟩ := hkey val
      simp [hfind]
    apply List.Perm.flatMap_left
    intro ki _
    rw [hsame]

theorem sampleSort_sorts_three : ∃ final,
    sampleSort Qsort.merge (fun _ _ _ => 0) [3, -1, 2] 2 (List.replicate sampleSize 7) [1, 0] =
      some final ∧ final.flatten.Pairwise (· ≤ ·) ∧ final.flatten.Perm [3, -1, 2] := by
  have hclose : ∀ a ∈ [3, -1, 2], ∀ b ∈ [3, -1, 2],
      (Int32.toInt a - Int32.toInt b).natAbs < 2 ^ 31 := by
    simp only [List.forall_mem_cons]
    refine ⟨⟨?_, ?_, ?_, ?_⟩, ⟨?_, ?_, ?_, ?_⟩, ⟨?_, ?_, ?_, ?_⟩, ?_⟩
    all_goals first | exact fun _ h => nomatch h | decide
  refine sampleSort_sorts _ _ (by decide) (by decide) hclose (by decide) ?_ (by decide)
  rw [List.countP_replicate]
  decide

end TaskSystem.SampleSort
