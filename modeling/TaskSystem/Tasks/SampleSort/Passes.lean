import TaskSystem.Library.TwoPass
import TaskSystem.Tasks.SampleSort.Sorts

/-!
# The Two Passes of a Bucket

Round 2 of `start` (`BucketTask.c`) loop by loop: the pass that counts and the pass that fills
search the splitters in loops of their own, of which only the first breaks at the last splitter.
An access outside an array or a block has no result (`none`).

## Contents

- `countLoop`, `getCount`, `fillLoop`, `fillArray`, `propagate`: the loops
- `Belongs`: the splitter of a value
- `countLoop_eq`, `fillLoop_eq`: both loops find that splitter
- `passes_agree`: the second pass stays in the blocks that the first has counted
- `propagate_subArrays`: what is sent to the root
-/

namespace TaskSystem.SampleSort

open Library TwoPass

/-! ## The loops -/

/-- The loop over the splitters in the first pass, from splitter `si` on. -/
def countLoop (splitterSize : Nat) (val : Int32) :
    Nat → List Int32 → List Nat → Option (List Nat)
  | _, [], counts => some counts
  | si, splitter :: splitters, counts =>
    if val ≤ splitter then bump counts si
    else if si = splitterSize - 1 then bump counts si
    else countLoop splitterSize val (si + 1) splitters counts

/-- 1) get count -/
def getCount (bucketCount : Nat) (splitters dataRef : List Int32) : Option (List Nat) :=
  dataRef.foldlM (fun counts val => countLoop splitters.length val 0 splitters counts)
    (List.replicate bucketCount 0)

/-- The loop over the splitters in the second pass, from splitter `si` on. -/
def fillLoop (splitterSize : Nat) (val : Int32) :
    Nat → List Int32 → Blocks Int32 → Option (Blocks Int32)
  | _, [], s => some s
  | si, splitter :: splitters, s =>
    if val ≤ splitter then s.put si val
    else if si = splitterSize - 1 then
      -- no `break` here
      (s.put si val).bind (fillLoop splitterSize val (si + 1) splitters)
    else fillLoop splitterSize val (si + 1) splitters s

/-- 2) fill array -/
def fillArray (splitters dataRef : List Int32) (s : Blocks Int32) : Option (Blocks Int32) :=
  dataRef.foldlM (fun s val => fillLoop splitters.length val 0 splitters s) s

/-- Both passes: `counts`, and the blocks `values_to_propagate` with `current`. -/
def propagate (bucketCount : Nat) (splitters dataRef : List Int32)
    (uninit : Nat → Nat → Int32) : Option (List Nat × Blocks Int32) := do
  let counts ← getCount bucketCount splitters dataRef
  let s ← fillArray splitters dataRef (allocate counts uninit)
  return (counts, s)

/-! ## The splitter of a value -/

/-- Splitter `i` is the first that is not below the value, or all splitters are below it and
    `i` is the last. -/
def Belongs (splitters : List Int32) (i : Nat) (val : Int32) : Prop :=
  splitters.findIdx? (val ≤ ·) = some i ∨
    splitters.findIdx? (val ≤ ·) = none ∧ i + 1 = splitters.length

instance (splitters : List Int32) (i : Nat) (val : Int32) :
    Decidable (Belongs splitters i val) := by
  unfold Belongs
  infer_instance

theorem findSplitter_eq_some_iff {splitters : List Int32} {i : Nat} {val : Int32} :
    findSplitter val splitters = some i ↔ Belongs splitters i val := by
  unfold Belongs
  induction splitters generalizing i with
  | nil => simp [findSplitter]
  | cons splitter splitters ih =>
    rw [findSplitter, List.findIdx?_cons]
    by_cases hle : val ≤ splitter
    · simp [hle]
    · by_cases hlast : splitters = []
      · simp [hle, hlast, eq_comm]
      · have hpos := List.length_pos_iff.mpr hlast
        simp only [hle, hlast, decide_false, Bool.false_eq_true, if_false, Option.map_eq_some_iff,
          Option.map_eq_none_iff, List.length_cons]
        constructor
        · rintro ⟨j, hj, rfl⟩
          rcases ih.mp hj with hfirst | ⟨hnone, hend⟩
          · exact .inl ⟨j, hfirst, rfl⟩
          · exact .inr ⟨hnone, by omega⟩
        · rintro (⟨j, hfirst, rfl⟩ | ⟨hnone, hend⟩)
          · exact ⟨j, ih.mpr (.inl hfirst), rfl⟩
          · obtain ⟨j, rfl⟩ : ∃ j, i = j + 1 := ⟨i - 1, by omega⟩
            exact ⟨j, ih.mpr (.inr ⟨hnone, by omega⟩), rfl⟩

/-! ## Both loops find it -/

/-- A loop that acts at the first splitter not below the value, or at the last one, acts at the
    splitter of the value. -/
theorem search_eq {σ : Type} (val : Int32) (loop : Nat → List Int32 → σ → Option σ)
    (act : Nat → σ → Option σ) {splitterSize : Nat} (hnil : ∀ si s, loop si [] s = some s)
    (hcons : ∀ si splitter splitters s, si + (splitters.length + 1) = splitterSize →
      loop si (splitter :: splitters) s =
        if val ≤ splitter then act si s
        else if splitters = [] then act si s
        else loop (si + 1) splitters s)
    (splitters : List Int32) (si : Nat) (s : σ) (h : si + splitters.length = splitterSize) :
    loop si splitters s =
      match findSplitter val splitters with
      | some i => act (si + i) s
      | none => some s := by
  induction splitters generalizing si with
  | nil => exact hnil si s
  | cons splitter splitters ih =>
    rw [hcons si splitter splitters s h, findSplitter]
    by_cases hle : val ≤ splitter
    · simp [hle]
    · by_cases hlast : splitters = []
      · simp [hle, hlast]
      · rw [List.length_cons] at h
        rw [if_neg hle, if_neg hlast, if_neg hle, if_neg hlast, ih (si + 1) (by omega)]
        cases findSplitter val splitters with
        | none => rfl
        | some i => simp only [Option.map_some, Nat.add_assoc, Nat.add_comm 1]

/-- The last splitter, by its number. -/
theorem last_iff {si splitterSize : Nat} {splitters : List Int32}
    (h : si + (splitters.length + 1) = splitterSize) :
    si = splitterSize - 1 ↔ splitters = [] := by
  rw [← List.length_eq_zero_iff]
  omega

/-- The loop of the first pass counts the value at its splitter. -/
theorem countLoop_eq (val : Int32) (splitters : List Int32) (counts : List Nat) :
    countLoop splitters.length val 0 splitters counts =
      match findSplitter val splitters with
      | some i => bump counts i
      | none => some counts := by
  have hloop := search_eq val (countLoop splitters.length val) (fun si counts => bump counts si)
    (fun _ _ => rfl) (fun si splitter rest counts h => by simp only [countLoop, last_iff h])
    splitters 0 counts (Nat.zero_add _)
  simpa only [Nat.zero_add] using hloop

/-- The loop of the second pass writes the value at the same splitter. After the last one it
    goes on, and is at its end. -/
theorem fillLoop_eq (val : Int32) (splitters : List Int32) (s : Blocks Int32) :
    fillLoop splitters.length val 0 splitters s =
      match findSplitter val splitters with
      | some i => s.put i val
      | none => some s := by
  have hcons : ∀ si splitter rest (s : Blocks Int32), si + (rest.length + 1) = splitters.length →
      fillLoop splitters.length val si (splitter :: rest) s =
        if val ≤ splitter then s.put si val
        else if rest = [] then s.put si val
        else fillLoop splitters.length val (si + 1) rest s := by
    intro si splitter rest s h
    simp only [fillLoop, last_iff h]
    by_cases hlast : rest = []
    · subst hlast
      have hstop : fillLoop splitters.length val (si + 1) [] = some := rfl
      simp only [if_true, hstop, Option.bind_fun_some]
    · simp only [hlast, if_false]
  have hloop := search_eq val (fillLoop splitters.length val) (fun si s => s.put si val)
    (fun _ _ => rfl) hcons splitters 0 s (Nat.zero_add _)
  simpa only [Nat.zero_add] using hloop

/-! ## Both passes -/

/-- The number of the splitter of a value. -/
def splitterOf (splitters : List Int32) (val : Int32) : Nat := (findSplitter val splitters).getD 0

variable {splitters : List Int32}

theorem findSplitter_eq (h : splitters ≠ []) (val : Int32) :
    findSplitter val splitters = some (splitterOf splitters val) := by
  obtain ⟨i, -, hfind⟩ := findSplitter_some val h
  rw [splitterOf, hfind, Option.getD_some]

theorem splitterOf_lt (h : splitters ≠ []) (val : Int32) :
    splitterOf splitters val < splitters.length := by
  obtain ⟨i, hi, hfind⟩ := findSplitter_some val h
  rwa [splitterOf, hfind, Option.getD_some]

/-- The first pass distributes by splitter, -/
theorem getCount_eq (h : splitters ≠ []) (bucketCount : Nat) (dataRef : List Int32) :
    getCount bucketCount splitters dataRef =
      countAll (splitterOf splitters) bucketCount dataRef := by
  simp only [getCount, countLoop_eq, findSplitter_eq h, countAll]

/-- and so does the second. -/
theorem fillArray_eq (h : splitters ≠ []) (dataRef : List Int32) (s : Blocks Int32) :
    fillArray splitters dataRef s = fillAll (splitterOf splitters) s dataRef := by
  simp only [fillArray, fillLoop_eq, findSplitter_eq h, fillAll]

/-- The group of splitter `i`: the values that belong to it. -/
theorem group_splitterOf (h : splitters ≠ []) (dataRef : List Int32) (i : Nat) :
    group (splitterOf splitters) dataRef i = dataRef.filter fun val => Belongs splitters i val := by
  apply List.filter_congr
  intro val _
  rw [decide_eq_decide, ← findSplitter_eq_some_iff, findSplitter_eq h, Option.some.injEq]

/-- Both passes end, with every block filled. -/
theorem propagate_eq {bucketCount : Nat} (hsize : splitters.length = bucketCount)
    (hpos : 1 ≤ bucketCount) (dataRef : List Int32) (uninit : Nat → Nat → Int32) :
    ∃ s, propagate bucketCount splitters dataRef uninit =
        some (tallies (splitterOf splitters) bucketCount dataRef, s) ∧
      Filled (splitterOf splitters) bucketCount dataRef [] s := by
  have hnil : splitters ≠ [] := List.ne_nil_of_length_pos (by omega)
  have hkeys : ∀ val ∈ dataRef, splitterOf splitters val < bucketCount :=
    fun val _ => hsize ▸ splitterOf_lt hnil val
  obtain ⟨s, hfill, hfilled⟩ := fillAll_eq hkeys uninit
  refine ⟨s, ?_, hfilled⟩
  rw [propagate, getCount_eq hnil, countAll_eq hkeys]
  simp only [fillArray_eq hnil, hfill, Option.bind_eq_bind, Option.bind_some, Option.pure_def]

/-- What both passes leave. `counts` and `current` count values of the data, so that they are
    `int`s as `data_size` is. -/
structure Agree (bucketCount : Nat) (splitters dataRef : List Int32) (counts : List Nat)
    (s : Blocks Int32) : Prop where
  length : counts.length = bucketCount
  /-- Every write `values_to_propagate[si][current[si]]` goes to a cell that was counted, -/
  inside : ∀ w ∈ s.written, w.1 < bucketCount ∧ w.2 < counts.getD w.1 0
  /-- each to another one, -/
  apart : s.written.Nodup
  /-- and there is one for each value. -/
  once : s.written.length = dataRef.length
  current : s.current = counts
  total : counts.sum = dataRef.length
  /-- Block `i` contains the values that belong to splitter `i`, in their order. -/
  values : s.cells =
    (List.range bucketCount).map fun i => dataRef.filter fun val => Belongs splitters i val

/-- **The two passes of a bucket agree**, whatever the data and the splitters are. -/
theorem passes_agree {bucketCount : Nat} (hsize : splitters.length = bucketCount)
    (hpos : 1 ≤ bucketCount) (dataRef : List Int32) (uninit : Nat → Nat → Int32) :
    ∃ counts s, propagate bucketCount splitters dataRef uninit = some (counts, s) ∧
      Agree bucketCount splitters dataRef counts s := by
  have hnil : splitters ≠ [] := List.ne_nil_of_length_pos (by omega)
  have hkeys : ∀ val ∈ dataRef, splitterOf splitters val < bucketCount :=
    fun val _ => hsize ▸ splitterOf_lt hnil val
  obtain ⟨s, hpasses, hfilled⟩ := propagate_eq hsize hpos dataRef uninit
  refine ⟨_, s, hpasses, ?_⟩
  constructor
  case length => exact length_tallies dataRef
  case inside =>
    intro w hw
    obtain ⟨hlt, hcell⟩ := hfilled.inside w hw
    rw [List.getD_eq_getElem?_getD, tallies_getElem? hlt, Option.getD_some]
    exact ⟨hlt, hcell⟩
  case apart => exact hfilled.apart
  case once => exact hfilled.once
  case current => exact hfilled.current
  case total => exact sum_tallies hkeys
  case values =>
    rw [hfilled.cells_eq]
    exact List.map_congr_left fun i _ => group_splitterOf hnil dataRef i

/-- Splitters that are not sorted. -/
theorem passes_agree_unsorted :
    ∃ counts s, propagate 3 [7, 2, 5] [9, 5, 7, -3, 8] (fun _ _ => 0) = some (counts, s) ∧
      Agree 3 [7, 2, 5] [9, 5, 7, -3, 8] counts s :=
  passes_agree rfl (by decide) _ _

example : (propagate 3 [7, 2, 5] [9, 5, 7, -3, 8] fun _ _ => 0).map (fun r => (r.1, r.2.cells)) =
    some ([3, 0, 2], [[5, 7, -3], [], [9, 8]]) := by decide

/-- **What is sent to the root**, bucket by bucket. -/
theorem propagate_subArrays {bucketCount : Nat} (hsize : splitters.length = bucketCount)
    (hpos : 1 ≤ bucketCount) (dataRef : List Int32) (uninit : Nat → Nat → Int32) :
    ∃ counts s, propagate bucketCount splitters dataRef uninit = some (counts, s) ∧
      ∀ i < bucketCount,
        counts.getD i 0 = (subArrays bucketCount splitters dataRef uninit).counts.getD i 0 ∧
        s.cells.getD i [] = (subArrays bucketCount splitters dataRef uninit).values.getD i [] := by
  have hnil : splitters ≠ [] := List.ne_nil_of_length_pos (by omega)
  obtain ⟨s, hpasses, hfilled⟩ := propagate_eq hsize hpos dataRef uninit
  refine ⟨_, s, hpasses, ?_⟩
  intro i hi
  obtain ⟨hvalues, hcounts⟩ := subArrays_column hi splitters dataRef uninit
  have hgroup : group (splitterOf splitters) dataRef i =
      dataRef.filter fun val => findSplitter val splitters = some i := by
    rw [group_splitterOf hnil]
    simp only [findSplitter_eq_some_iff]
  rw [hvalues, hcounts, hfilled.cells_eq, List.getD_eq_getElem?_getD, tallies_getElem? hi,
    List.getD_eq_getElem?_getD, List.getElem?_map, List.getElem?_range hi, Option.map_some,
    Option.getD_some, Option.getD_some, hgroup]
  exact ⟨rfl, rfl⟩

end TaskSystem.SampleSort
