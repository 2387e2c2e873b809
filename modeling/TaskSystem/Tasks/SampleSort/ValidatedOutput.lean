import TaskSystem.Tasks.SampleSort.Comparators
import TaskSystem.Tasks.SampleSort.SortedOutput
import TaskSystem.Tools.ValidateResult.Verdict

/-!
# The Checked Output of a Sample Sort

`validate_result.py` on the files of a sort that has come to its end. What the buckets print is
in order, and still the script does not always say so: it looks up every bucket in a dictionary
that has no entry for an empty one, and it compares the values of the last bucket with 1000000000.

## Contents

- `sorted_eq`: what ascends is the sorted input
- `Prints`: the files of a sort; `exists_prints`
- `validation_success_iff`: the verdict on the output of a sort
-/

namespace TaskSystem

open Library

/-! ## The only sorted list of its values -/

namespace ValidateResult

/-- The sorted input is the only list of its values that ascends. -/
theorem sorted_eq {xs ys : List Int} (hperm : ys.Perm xs) (hsorted : ys.Pairwise (· ≤ ·)) :
    sorted xs = ys :=
  ((List.mergeSort_perm xs _).trans hperm.symm).eq_of_pairwise
    (fun _ _ _ _ => Int.le_antisymm) (Report.pairwise_sorted xs) hsorted

end ValidateResult

/-! ## The files of a sort -/

namespace SampleSort

open ValidateResult (Report Line valuesOf lastSplitter sorted)

variable {set : Setting} {uninit : UInt32 → Nat → Nat → Int32} {map : Mapping} {s : SortState}

/-- **The files of a sort** that has come to state `s`: the values sorted, and the lines printed,
    in which the values of a bucket stand in their order, whatever the other tasks print between
    them. -/
structure Prints (set : Setting) (s : SortState) (rep : Report) : Prop where
  K : rep.K = set.k
  input : rep.input = set.data.map Int32.toInt
  splitters : ∀ r, s.net.tasks samplesort = some (.root r) →
    rep.splitters = (r.splitters.take (set.k - 1)).map Int32.toInt
  values : ∀ i < set.k, ∃ vals, s.arrays.finalDataValues (bucketId i) = some vals ∧
    valuesOf (rep.before ++ rep.after) (bucketTask i) = vals.map Int32.toInt

section Prints

variable {rep : Report} {final : Nat → List Int32}

/-- The script reads what the buckets have printed. -/
theorem Prints.buckets (hrep : Prints set s rep)
    (hfinal : ∀ i < set.k, s.arrays.finalDataValues (bucketId i) = some (final i)) :
    rep.buckets = (List.range set.k).map fun i => (final i).map Int32.toInt := by
  rw [Report.buckets, hrep.K, List.range'_eq_map_range, List.map_map]
  apply List.map_congr_left
  intro i hi
  have hi := List.mem_range.mp hi
  obtain ⟨vals, hvals, hprinted⟩ := hrep.values i hi
  obtain rfl := Option.some.inj (hvals.symm.trans (hfinal i hi))
  exact hprinted

/-- The lines of the buckets one after another -/
def bucketLines (k : Nat) (final : Nat → List Int32) : List Line :=
  (List.range k).flatMap fun i => (final i).map fun val => .value (bucketTask i) val.toInt

theorem valuesOf_bucketLines (final : Nat → List Int32) {i k : Nat} (hi : i < k) :
    valuesOf (bucketLines k final) (bucketTask i) = (final i).map Int32.toInt := by
  have hone : ∀ j, valuesOf ((final j).map fun val => .value (bucketTask j) val.toInt)
      (bucketTask i) = if j = i then (final j).map Int32.toInt else [] := by
    intro j
    have hsame : ((bucketTask j : Int) = (bucketTask i : Int)) ↔ j = i := by
      unfold bucketTask
      omega
    simp only [valuesOf, List.filterMap_map, Function.comp_def, Line.valueOf, hsame]
    split
    · exact congrFun List.filterMap_eq_map' (final j)
    · exact List.filterMap_none ..
  have hbelow : ∀ n, valuesOf (bucketLines n final) (bucketTask i) =
      if i < n then (final i).map Int32.toInt else [] := by
    intro n
    induction n with
    | zero => rfl
    | succ n ih =>
      have hsucc : bucketLines (n + 1) final =
          bucketLines n final ++ (final n).map fun val => .value (bucketTask n) val.toInt := by
        rw [bucketLines, List.range_succ, List.flatMap_append, List.flatMap_singleton]
        rfl
      rw [hsucc, ValidateResult.valuesOf_append, ih, hone]
      by_cases hn : n = i
      · subst hn
        simp
      · have hiff : i < n + 1 ↔ i < n := by omega
        simp [hn, hiff]
  rw [hbelow, if_pos hi]

/-- **Every sort has its files.** -/
theorem exists_prints (hadm : set.Admitted) {r : RootLocal}
    (hr : s.net.tasks samplesort = some (.root r)) (hlen : r.splitters.length = set.k)
    (hfinal : ∀ i < set.k, s.arrays.finalDataValues (bucketId i) = some (final i)) :
    ∃ rep, Prints set s rep := by
  have hone := hadm.one_le_k
  refine ⟨{
    K := set.k
    input := set.data.map Int32.toInt
    splitters := (r.splitters.take (set.k - 1)).map Int32.toInt
    before := []
    after := bucketLines set.k final
    K_pos := hone
    splitters_length := ?_ }, rfl, rfl, ?_, ?_⟩
  · rw [List.length_map, List.length_take, hlen]
    omega
  · intro r' hr'
    obtain rfl := Local.root.inj (Option.some.inj (hr.symm.trans hr'))
    rfl
  · intro i hi
    exact ⟨final i, hfinal i hi, valuesOf_bucketLines final hi⟩

/-- What the buckets print is in order. -/
theorem Prints.lawful (hrep : Prints set s rep) (hadm : set.Admitted) (hclose : set.Close)
    {r : RootLocal} (hr : s.net.tasks samplesort = some (.root r))
    (hlen : r.splitters.length = set.k) {subs : List Nat} (hsubs : subs.Perm (List.range set.k))
    (hfinal : ∀ i < set.k, s.arrays.finalDataValues (bucketId i) =
      some (set.qsort.sort buckettaskCmpfunc (share set r.splitters subs i))) : rep.Lawful where
  complete := by
    obtain ⟨hsorted, hperm⟩ := shares_sorted hadm hlen hsubs hclose
    have hflatten : rep.buckets.flatten = ((List.range set.k).map fun i =>
        set.qsort.sort buckettaskCmpfunc (share set r.splitters subs i)).flatten.map
          Int32.toInt := by
      rw [hrep.buckets hfinal, List.map_flatten, List.map_map]
      rfl
    rw [hflatten, hrep.input]
    symm
    apply ValidateResult.sorted_eq
    · exact hperm.map Int32.toInt
    · exact List.pairwise_map.mpr (hsorted.imp Int32.le_iff_toInt_le.mp)
  bounded := by
    intro j splitter hsplitter val hval
    rw [hrep.splitters r hr, List.getElem?_map, Option.map_eq_some_iff] at hsplitter
    obtain ⟨sp, hsp, rfl⟩ := hsplitter
    obtain ⟨hj, hget⟩ := List.getElem?_eq_some_iff.mp hsp
    rw [List.length_take, hlen] at hj
    rw [List.getElem_take] at hget
    have hjk : j < set.k := by omega
    rw [hrep.buckets hfinal, List.getD_eq_getElem _ _ (by simpa using hjk)] at hval
    simp only [List.getElem_map, List.getElem_range, List.mem_map] at hval
    obtain ⟨x, hx, rfl⟩ := hval
    have hlt : ∀ i ∈ subs, i < set.k := fun i hi => List.mem_range.mp (hsubs.mem_iff.mp hi)
    -- the value has been sent to the bucket for its splitter
    have hmem := (set.qsort.perm ((cmpfunc_consistent hclose).subset
      (share_subset hadm hsubs r.splitters j))).mem_iff.mp hx
    rw [share_eq set r.splitters hlt] at hmem
    have hfind := of_decide_eq_true (List.mem_filter.mp hmem).2
    have hle := le_of_findSplitter hfind (by omega)
    rw [hget] at hle
    exact Int32.le_iff_toInt_le.mp hle

end Prints

/-- **The verdict on a sort**: when the root has finished, the script ends with `SUCCESS` exactly
    when no bucket has been left without values and no value is above 1000000000. -/
theorem validation_success_iff (hadm : set.Admitted) (hsep : set.Separate) (hclose : set.Close)
    (uninit : UInt32 → Nat → Nat → Int32) (map : Mapping)
    (h : (sorting set uninit map).ReachableWhen (ReturnsRead set) s) {r : RootLocal}
    (hr : s.net.tasks samplesort = some (.root r)) (hfinished : r.pc = .finished) {rep : Report}
    (hrep : Prints set s rep) :
    rep.outcome = .success ↔
      (∀ i < set.k, s.arrays.finalDataValues (bucketId i) ≠ some []) ∧
        ∀ val ∈ set.data, val.toInt ≤ lastSplitter := by
  have hs := reachable_inOrder hadm hsep h
  obtain ⟨subs, hsubs, hlen, hfinal⟩ := hs.shares hr hfinished
  have hone := hadm.one_le_k
  rw [Report.success_iff_of_lawful (hrep.lawful hadm hclose hr hlen hsubs hfinal),
    hrep.buckets hfinal, hrep.K]
  let final i := set.qsort.sort buckettaskCmpfunc (share set r.splitters subs i)
  obtain ⟨hsorted, hperm⟩ := shares_sorted hadm hlen hsubs hclose
  have hlast : ((List.range set.k).map fun i => (final i).map Int32.toInt)[set.k - 1]? =
      some ((final (set.k - 1)).map Int32.toInt) := by
    simp [show set.k - 1 < set.k by omega]
  have hempty : (∀ vals ∈ (List.range set.k).map fun i => (final i).map Int32.toInt, vals ≠ []) ↔
      ∀ i < set.k, s.arrays.finalDataValues (bucketId i) ≠ some [] := by
    simp only [List.forall_mem_map, List.mem_range, ne_eq, List.map_eq_nil_iff]
    apply forall₂_congr
    intro i hi
    rw [hfinal i hi, Option.some.injEq]
  rw [hempty]
  apply and_congr_right
  intro hnonempty
  rw [hlast]
  -- the last bucket has the largest values
  have hsplit : (List.range set.k).map final =
      (List.range (set.k - 1)).map final ++ [final (set.k - 1)] := by
    conv_lhs => rw [show set.k = set.k - 1 + 1 by omega, List.range_succ, List.map_append]
    rfl
  constructor
  · intro hbounded val hval
    obtain ⟨w, hw⟩ := List.exists_mem_of_ne_nil (final (set.k - 1)) (by
      have hne := hnonempty (set.k - 1) (by omega)
      rw [hfinal _ (by omega)] at hne
      exact fun heq => hne (congrArg some heq))
    have hbound : ∀ x ∈ final (set.k - 1), x.toInt ≤ lastSplitter := fun x hx =>
      hbounded _ rfl _ (List.mem_map_of_mem hx)
    have hmem := hperm.mem_iff.mpr hval
    rw [show ((List.range set.k).map _) = _ from hsplit, List.flatten_append,
      List.flatten_singleton] at hmem hsorted
    rcases List.mem_append.mp hmem with hbelow | hin
    · have hle := (List.pairwise_append.mp hsorted).2.2 val hbelow w hw
      exact Int.le_trans (Int32.le_iff_toInt_le.mp hle) (hbound w hw)
    · exact hbound val hin
  · intro hbounded vals hvals x hx
    obtain rfl := Option.some.inj hvals
    obtain ⟨val, hval, rfl⟩ := List.mem_map.mp hx
    apply hbounded val
    apply hperm.mem_iff.mp
    rw [show ((List.range set.k).map _) = _ from hsplit, List.flatten_append,
      List.flatten_singleton]
    exact List.mem_append_right _ hval

/-- The files of the sort of two equal values. -/
theorem validation_success_iff_two : ∃ s rep,
    (sorting twoValues (fun _ _ _ => 0) oneLayout).ReachableWhen (ReturnsRead twoValues) s ∧
      Prints twoValues s rep ∧ (rep.outcome = .success ↔
        (∀ i < 2, s.arrays.finalDataValues (bucketId i) ≠ some []) ∧
          ∀ val ∈ twoValues.data, val.toInt ≤ lastSplitter) := by
  have hstart : (sorting twoValues (fun _ _ _ => 0) oneLayout).ReachableWhen
      (ReturnsRead twoValues) twoSort := .init rfl
  obtain ⟨ts, s, halong, hrun, hreturned, -⟩ :=
    (reachable_inOrder twoValues_admitted twoValues_separate hstart).completes twoValues_admitted
      twoValues_separate twoValues_close twoValues_draws (fun _ _ _ => 0)
  have hreach := (halong.mono fun _ _ => And.left).reachableWhen hstart hrun
  obtain ⟨r, hr, hfinished⟩ := hreturned.root
  obtain ⟨subs, -, hlen, hfinal⟩ :=
    (reachable_inOrder twoValues_admitted twoValues_separate hreach).shares hr hfinished
  obtain ⟨rep, hrep⟩ := exists_prints twoValues_admitted hr hlen hfinal
  exact ⟨s, rep, hreach, hrep, validation_success_iff twoValues_admitted twoValues_separate
    twoValues_close _ oneLayout hreach hr hfinished hrep⟩

end SampleSort

end TaskSystem
