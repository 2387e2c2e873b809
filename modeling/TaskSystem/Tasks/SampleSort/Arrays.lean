import Mathlib.Data.List.GetD
import TaskSystem.Tasks.SampleSort.Sorts
import TaskSystem.Tasks.SampleSort.Lifetime

/-!
# The Arrays of a Sample Sort

The messages of a sample sort carry addresses; here the arrays at these addresses are added to
the network of the tasks: `counts` and `values_to_propagate` of the buckets, `counts` and
`values` that the root allocates for each bucket, and the buckets' `final_data_values`. A step
of a task reads and writes arrays as its part of `start` and its handlers do. The array
`values_to_propagate` is a local of `start`, so it is gone when its bucket returns.

## Contents

- `Arrays`, `Setting.sliceAt`; `propagate`, `gather`, `setSubArray`, `finalSort`: the accesses
- `sorting`: the tasks, their queues and the arrays
- `Setting.Separate`: arrays that live at the same time lie apart
- `column`, `share`: what the passes, the transposition and the rebuilding compute
-/

namespace TaskSystem.SampleSort

open Library

/-! ## Arrays -/

/-- A pointer in `values_to_propagate`: what the task has allocated for the splitter. -/
structure ArrayRef where
  taskID : UInt32
  splitter : Nat
  deriving DecidableEq

/-- The arrays the tasks share, by address; an array that does not exist is `none`. -/
structure Arrays where
  counts : UInt64 → Option (List Nat)
  values : UInt64 → Option (List ArrayRef)
  /-- The cells of the arrays that the pointers lead to -/
  cells : ArrayRef → Option (List Int32)
  /-- `final_data_values` of the bucket with the task ID -/
  finalDataValues : UInt32 → Option (List Int32)

/-- No array has been allocated yet. -/
def Arrays.empty : Arrays := ⟨fun _ => none, fun _ => none, fun _ => none, fun _ => none⟩

/-- The `size` values at an address inside `test_data`. -/
def Setting.sliceAt (set : Setting) (address : UInt64) (size : Int32) : Option (List Int32) :=
  let offset := (address - set.testData).toNat
  if offset % 4 = 0 ∧ 0 ≤ size.toInt ∧ offset / 4 + size.toInt.toNat ≤ set.data.length then
    some ((set.data.drop (offset / 4)).take size.toInt.toNat)
  else none

namespace Arrays

variable (set : Setting) (uninit : UInt32 → Nat → Nat → Int32)

/-- The two passes of a bucket: it reads its slice, and fills the arrays it is going to
    publish. -/
def propagate (this : BucketTask) (arrays : Arrays) : Option Arrays := do
  let bucketCount ← this.bucketCount
  let slice ← set.sliceAt (← this.dataRef) (← this.dataSize)
  let sub := subArrays bucketCount.toInt.toNat (← this.splitters) slice (uninit this.taskID)
  some {
    counts :=
      Function.update arrays.counts (set.bucketCounts this.taskID) (some sub.counts)
    values :=
      Function.update arrays.values (set.valuesToPropagate this.taskID)
        (some ((List.range bucketCount.toInt.toNat).map fun i => ⟨this.taskID, i⟩))
    cells := fun ref =>
      if ref.taskID = this.taskID then sub.values[ref.splitter]? else arrays.cells ref
    finalDataValues := arrays.finalDataValues }

/-- The array at the address with one cell more; it is allocated before the first round. -/
def pushAt {α : Type} (arrays : UInt64 → Option (List α)) (address : UInt64) (kj : Nat) (x : α) :
    UInt64 → Option (List α) :=
  Function.update arrays address (some ((if kj = 0 then [] else (arrays address).getD []) ++ [x]))

/-- The inner loop of phase 3 at `kj`: the root copies a count and a pointer for bucket `ki`. -/
def gather (this : SampleSortTask) (ki kj : Nat) (arrays : Arrays) : Option Arrays := do
  let m ← (this.bucketsValuesArr[kj]?).join
  let count ← (← arrays.counts m.counts)[ki]?
  let value ← (← arrays.values m.values)[ki]?
  some { arrays with
    counts := pushAt arrays.counts (set.rootCounts ki) kj count
    values := pushAt arrays.values (set.rootValues ki) kj value }

/-- `handle_SetSubArrayMsg` rebuilds the final data from what the message refers to. -/
def setSubArray (this : BucketTask) (arrays : Arrays) : Option Arrays := do
  let m ← this.finalData
  let counts ← arrays.counts m.counts
  let values ← (← arrays.values m.values).mapM arrays.cells
  -- the loops stay inside the arrays
  if m.size.toInt = counts.length ∧ m.size.toInt = values.length ∧
      (counts.zip values).all fun (count, values) => count ≤ values.length then
    some { arrays with
      finalDataValues :=
        Function.update arrays.finalDataValues this.taskID (some (rebuild ⟨counts, values⟩)) }
  else none

/-- The final sorting of a bucket. -/
def finalSort (this : BucketTask) (arrays : Arrays) : Option Arrays := do
  let values ← arrays.finalDataValues this.taskID
  some { arrays with
    finalDataValues :=
      Function.update arrays.finalDataValues this.taskID
        (some (set.qsort.sort buckettaskCmpfunc values)) }

/-- The locals of a bucket's `start` are gone. -/
def leave (this : BucketTask) (arrays : Arrays) : Arrays :=
  { arrays with
    values := Function.update arrays.values (set.valuesToPropagate this.taskID) none }

/-- What a bucket does to the arrays in a step from `pc`; `this` are its fields before the step,
    and `this'` those after it. -/
def bucketStep (arrays : Arrays) (pc : BucketPc) (this this' : BucketTask) : Option Arrays :=
  match pc with
  | .propagate => arrays.propagate set uninit this
  -- the handler of the last call runs on the message that the task has got hold of
  | .receive call (.clone _) => if call = 4 then arrays.setSubArray this' else some arrays
  | .sendDone => arrays.finalSort set this
  | .leave => some (arrays.leave set this)
  | _ => some arrays

/-- What the root does to them. -/
def rootStep (arrays : Arrays) (r : RootLocal) : Option Arrays :=
  match r.pc, r.this.K with
  | .gather ki kj, some K =>
    if (ki : Int) < K.toInt ∧ (kj : Int) < K.toInt then arrays.gather set r.this ki kj
    else some arrays
  | _, _ => some arrays

/-- What a task does to the arrays in the step that takes it from one local state to another;
    `none` when it reads an array that does not exist, or outside one. -/
def step (arrays : Arrays) : Local → Local → Option Arrays
  | .bucket b, .bucket b' => arrays.bucketStep set uninit b.pc b.this b'.this
  | .root r, .root _ => arrays.rootStep set r
  | _, _ => some arrays

end Arrays

/-! ## Tasks, queues and arrays -/

/-- A state of a sort. -/
structure SortState where
  net : Net Local Mailbox
  arrays : Arrays

/-- Task `t` takes its next step. -/
def SortState.step (set : Setting) (uninit : UInt32 → Nat → Nat → Int32) (map : Mapping)
    (s : SortState) (t : Nat) : Option SortState := do
  let net ← s.net.step (mailboxes map) (code set) t
  let arrays ← s.arrays.step set uninit (← s.net.tasks t) (← net.tasks t)
  some ⟨net, arrays⟩

/-- **Inversion**: the network takes the step, and its accesses are defined. -/
theorem SortState.step_cases {set : Setting} {uninit : UInt32 → Nat → Nat → Int32} {map : Mapping}
    {s s' : SortState} {t : Nat} (h : s.step set uninit map t = some s') :
    ∃ net arrays l l', s.net.step (mailboxes map) (code set) t = some net ∧
      s.net.tasks t = some l ∧ net.tasks t = some l' ∧
      s.arrays.step set uninit l l' = some arrays ∧ s' = ⟨net, arrays⟩ := by
  obtain ⟨net, hnet, hrest⟩ := Option.bind_eq_some_iff.mp h
  obtain ⟨l, hl, hrest⟩ := Option.bind_eq_some_iff.mp hrest
  obtain ⟨l', hl', hrest⟩ := Option.bind_eq_some_iff.mp hrest
  obtain ⟨arrays, harrays, hs'⟩ := Option.bind_eq_some_iff.mp hrest
  exact ⟨net, arrays, l, l', hnet, hl, hl', harrays, (Option.some.inj hs').symm⟩

/-- A sample sort with its arrays; `uninit` is what the buckets' cells contain before they are
    written. -/
def sorting (set : Setting) (uninit : UInt32 → Nat → Nat → Int32) (map : Mapping) :
    System SortState Nat where
  init s := s = ⟨.start (mailboxes map) initialTasks (samplesort + 1), .empty⟩
  step := SortState.step set uninit map

/-- Arrays that are allocated at the same time have different addresses. -/
structure Setting.Separate (set : Setting) : Prop where
  counts : ((List.range set.k).map (fun i => set.bucketCounts (bucketId i)) ++
    (List.range set.k).map set.rootCounts).Nodup
  values : ((List.range set.k).map (fun i => set.valuesToPropagate (bucketId i)) ++
    (List.range set.k).map set.rootValues).Nodup

/-! ## What the arrays are meant to contain -/

/-- The values of bucket `i`'s slice that belong to bucket `ki`. -/
def column (set : Setting) (sp : List Int32) (i ki : Nat) : List Int32 :=
  ((slices set.data set.k).getD i []).filter fun val => findSplitter val sp = some ki

/-- The values that bucket `ki` gets, in the order in which the slices have arrived. -/
def share (set : Setting) (sp : List Int32) (subs : List Nat) (ki : Nat) : List Int32 :=
  subs.flatMap fun i => column set sp i ki

/-! ## A bucket's slice -/

theorem Setting.Admitted.n_eq {set : Setting} (h : set.Admitted) :
    set.n.toInt = set.data.length := by
  have := h.isInt
  exact Int32.toInt_ofNat_of_lt (by omega)

theorem Setting.Admitted.sizePerTask_eq {set : Setting} (h : set.Admitted) :
    (Setting.sizePerTask set.n set.K).toInt = (set.data.length / set.k : Nat) := by
  have hdiv : set.data.length / set.k ≤ set.data.length := Nat.div_le_self ..
  have hint := h.isInt
  have hquot : (set.data.length : Int).tdiv set.k = ((set.data.length / set.k : Nat) : Int) := rfl
  rw [Setting.sizePerTask, h.n_eq, ← h.k_eq, hquot]
  apply toInt_ofInt_of_fits
  · exact Int.natCast_nonneg _
  · unfold intMax
    exact_mod_cast Nat.le_trans hdiv hint

/-- Values from a place inside `test_data` on. -/
theorem Setting.Admitted.sliceAt_eq {set : Setting} (h : set.Admitted) {current : Nat}
    {size : Int32} (hsize : 0 ≤ size.toInt) (hend : current + size.toInt.toNat ≤ set.data.length) :
    set.sliceAt (set.testData + UInt64.ofNat (4 * current)) size =
      some ((set.data.drop current).take size.toInt.toNat) := by
  have hint := h.isInt
  have hoffset : (set.testData + UInt64.ofNat (4 * current) - set.testData).toNat =
      4 * current := by
    rw [UInt64.add_comm, UInt64.add_sub_cancel, UInt64.toNat_ofNat']
    omega
  have hquot : 4 * current / 4 = current := by omega
  have hrem : 4 * current % 4 = 0 := by omega
  simp only [sliceAt, hoffset, hquot, hrem, hsize, hend, and_self, if_true]

/-- **The slice of a bucket**: the message with its data leads to it. -/
theorem sliceAt_dataMsg {set : Setting} (h : set.Admitted) {i : Nat} (hi : i < set.k) :
    ∃ m : RefIntArrayMsg, set.dataMsg set.testData set.n set.K i = .refIntArray m ∧
      m.tag = dataRefMsgTag ∧
      set.sliceAt m.values m.size = some ((slices set.data set.k).getD i []) := by
  have hint := h.isInt
  have hk := h.k_eq
  have hsize := h.sizePerTask_eq
  have hn := h.n_eq
  -- the slices before this one lie inside the data
  have hcurrent : i * (set.data.length / set.k) + set.data.length / set.k ≤ set.data.length := by
    rw [← Nat.succ_mul]
    exact Nat.le_trans (Nat.mul_le_mul_right _ hi) (Nat.mul_div_le _ _)
  generalize hsizePer : set.data.length / set.k = sizePer at hsize hcurrent
  have hstart : (4 * ((i : Int) * (Setting.sizePerTask set.n set.K).toInt)).toNat =
      4 * (i * sizePer) := by
    rw [hsize, ← Int.natCast_mul]
    omega
  have hslice : (slices set.data set.k).getD i [] =
      if i + 1 < set.k then (set.data.drop (i * sizePer)).take sizePer
      else set.data.drop (i * sizePer) := by
    simp [slices, List.getD_eq_getElem?_getD, hi, hsizePer]
  rw [hslice]
  refine ⟨_, rfl, ?_, ?_⟩
  · split <;> rfl
  · by_cases hlast : i + 1 < set.k
    · have hmore : (i : Int) < set.K.toInt - 1 := by omega
      simp only [hmore, hlast, if_true, RefIntArrayMsg.setValues, hstart]
      rw [h.sliceAt_eq (by omega) (by omega), hsize, Int.toNat_natCast]
    · have hrest : ¬(i : Int) < set.K.toInt - 1 := by omega
      have hleft : (Int32.ofInt (set.n.toInt - i * (Setting.sizePerTask set.n set.K).toInt)).toInt =
          (set.data.length - i * sizePer : Nat) := by
        rw [hn, hsize, ← Int.natCast_mul, ← Int.ofNat_sub (by omega)]
        exact toInt_ofInt_of_fits (by omega) (by unfold intMax; omega)
      simp only [hrest, hlast, if_false, RefIntArrayMsg.setValues, hstart]
      rw [h.sliceAt_eq (by omega) (by omega), hleft, Int.toNat_natCast,
        List.take_of_length_le (by rw [List.length_drop])]

/-! ## What a bucket publishes -/

/-- The first pass changes no lengths. -/
theorem length_countPass (K : Nat) (splitters dataRef : List Int32) :
    (countPass K splitters dataRef).length = K := by
  have hstep : ∀ (counts : List Nat) val,
      (countStep splitters counts val).length = counts.length := by
    intro counts val
    unfold countStep
    split
    · exact List.length_modify ..
    · rfl
  have hfold : ∀ counts : List Nat,
      (dataRef.foldl (countStep splitters) counts).length = counts.length := by
    induction dataRef with
    | nil => exact fun counts => rfl
    | cons val dataRef ih => exact fun counts => (ih _).trans (hstep counts val)
  rw [countPass, hfold, List.length_replicate]

/-- Nor does the second. -/
theorem length_fillPass (K : Nat) (splitters dataRef : List Int32) (counts : List Nat)
    (uninit : Nat → Nat → Int32) : (fillPass K splitters dataRef counts uninit).length = K := by
  have hstep : ∀ (s : List (List Int32) × List Nat) val,
      (fillStep splitters s val).1.length = s.1.length := by
    intro s val
    unfold fillStep
    split
    · exact List.length_modify ..
    · rfl
  have hfold : ∀ s : List (List Int32) × List Nat,
      (dataRef.foldl (fillStep splitters) s).1.length = s.1.length := by
    induction dataRef with
    | nil => exact fun s => rfl
    | cons val dataRef ih => exact fun s => (ih _).trans (hstep s val)
  rw [fillPass, hfold, List.length_map, List.length_range]

/-- The passes of bucket `i` compute its columns and their lengths. -/
theorem subArrays_eq (set : Setting) (sp : List Int32) (i : Nat) (uninit : Nat → Nat → Int32) :
    let sub := subArrays set.k sp ((slices set.data set.k).getD i []) uninit
    sub.counts = (List.range set.k).map (fun ki => (column set sp i ki).length) ∧
      ∀ ki < set.k, sub.values[ki]? = some (column set sp i ki) := by
  intro sub
  have hcounts : sub.counts.length = set.k := length_countPass ..
  have hvalues : sub.values.length = set.k := length_fillPass ..
  have hcolumn := fun {ki} (hki : ki < set.k) =>
    subArrays_column hki sp ((slices set.data set.k).getD i []) uninit
  constructor
  · apply List.ext_getElem
    · simp [hcounts]
    · intro ki h₁ h₂
      have hcount := (hcolumn (hcounts ▸ h₁)).2
      rw [List.getD_eq_getElem _ _ h₁] at hcount
      simpa [column] using hcount
  · intro ki hki
    have hlt : ki < sub.values.length := hvalues ▸ hki
    have hvalue := (hcolumn hki).1
    rw [List.getD_eq_getElem _ _ hlt] at hvalue
    rw [List.getElem?_eq_getElem hlt, hvalue]
    rfl

/-! ## What the buckets get back -/

/-- Rebuilding puts the columns together. -/
theorem rebuild_columns (set : Setting) (sp : List Int32) (subs : List Nat) (ki : Nat) :
    rebuild ⟨subs.map fun i => (column set sp i ki).length, subs.map fun i => column set sp i ki⟩ =
      share set sp subs ki := by
  induction subs with
  | nil => rfl
  | cons i subs ih =>
    have hrest : rebuild ⟨(i :: subs).map fun i => (column set sp i ki).length,
        (i :: subs).map fun i => column set sp i ki⟩ =
      (column set sp i ki).take (column set sp i ki).length ++
        rebuild ⟨subs.map fun i => (column set sp i ki).length,
          subs.map fun i => column set sp i ki⟩ := rfl
    rw [hrest, ih, List.take_length]
    rfl

/-- A share is what of the data belongs to the bucket. -/
theorem share_eq (set : Setting) (sp : List Int32) {subs : List Nat} (hsubs : ∀ i ∈ subs, i < set.k)
    (ki : Nat) :
    share set sp subs ki =
      (subs.filterMap fun i => (slices set.data set.k)[i]?).flatten.filter
        fun val => findSplitter val sp = some ki := by
  induction subs with
  | nil => rfl
  | cons i subs ih =>
    have hi : i < (slices set.data set.k).length := by
      rw [length_slices]
      exact hsubs i (List.mem_cons_self ..)
    have hslice := List.getElem?_eq_getElem hi
    rw [List.filterMap_cons_some hslice, List.flatten_cons, List.filter_append,
      ← ih fun j hj => hsubs j (List.mem_cons_of_mem _ hj)]
    have hcolumn : column set sp i ki = (slices set.data set.k)[i].filter
        fun val => findSplitter val sp = some ki := by
      rw [column, List.getD_eq_getElem _ _ hi]
    rw [← hcolumn]
    rfl

/-- A share has values of the data only. -/
theorem share_subset {set : Setting} (hadm : set.Admitted) {subs : List Nat}
    (hsubs : subs.Perm (List.range set.k)) (sp : List Int32) (ki : Nat) :
    ∀ val ∈ share set sp subs ki, val ∈ set.data := by
  have hlt : ∀ i ∈ subs, i < set.k := fun i hi => List.mem_range.mp (hsubs.mem_iff.mp hi)
  intro val hval
  rw [share_eq set sp hlt] at hval
  exact (arrival_perm set.data hadm.one_le_k hsubs).mem_iff.mp (List.mem_filter.mp hval).1

/-- **The shares, each sorted, are the data sorted.** -/
theorem shares_sorted {set : Setting} (hadm : set.Admitted) {sp : List Int32}
    (hsp : sp.length = set.k) {subs : List Nat} (hsubs : subs.Perm (List.range set.k))
    (hclose : ∀ a ∈ set.data, ∀ b ∈ set.data, (a.toInt - b.toInt).natAbs < 2 ^ 31) :
    let final := (List.range set.k).map fun ki =>
      set.qsort.sort buckettaskCmpfunc (share set sp subs ki)
    final.flatten.Pairwise (· ≤ ·) ∧ final.flatten.Perm set.data := by
  intro final
  have hone := hadm.one_le_k
  have hlt : ∀ i ∈ subs, i < set.k := fun i hi => List.mem_range.mp (hsubs.mem_iff.mp hi)
  have hdata := arrival_perm set.data hone hsubs
  generalize hflat : (subs.filterMap fun i => (slices set.data set.k)[i]?).flatten = flat at hdata
  have hshare : ∀ ki, share set sp subs ki =
      flat.filter fun val => findSplitter val sp = some ki := by
    intro ki
    rw [share_eq set sp hlt, hflat]
  have hmem := share_subset hadm hsubs sp
  have hconsistent : ∀ ki, ConsistentOn buckettaskCmpfunc (share set sp subs ki) := fun ki =>
    (cmpfunc_consistent hclose).subset (hmem ki)
  have hperm := fun ki => set.qsort.perm (hconsistent ki)
  have hnil : sp ≠ [] := by
    rintro rfl
    rw [List.length_nil] at hsp
    omega
  constructor
  · show ((List.range set.k).map _).flatten.Pairwise _
    rw [← List.flatMap_def]
    apply pairwise_flatMap_range
    · -- inside a bucket, by its sort
      intro ki _
      apply (set.qsort.sorted (hconsistent ki)).imp_of_mem
      intro a b ha hb hab
      have ha' := hmem ki a ((hperm ki).mem_iff.mp ha)
      have hb' := hmem ki b ((hperm ki).mem_iff.mp hb)
      exact (cmpfunc_le_iff (hclose a ha' b hb')).mp hab
    · -- between buckets, by the splitter of the first
      intro i j hij hj x hx y hy
      have hx' := (hperm i).mem_iff.mp hx
      have hy' := (hperm j).mem_iff.mp hy
      rw [hshare] at hx' hy'
      have hle := le_of_findSplitter (of_decide_eq_true (List.mem_filter.mp hx').2) (by omega)
      have hgt := lt_of_findSplitter (of_decide_eq_true (List.mem_filter.mp hy').2) hij (by omega)
      exact Int32.le_trans hle (Int32.le_of_lt (Int32.not_le.mp hgt))
  · show ((List.range set.k).map _).flatten.Perm _
    rw [← List.flatMap_def]
    -- every value has a splitter, so it belongs to some bucket
    have hkey : ∀ val, ∃ i < set.k, findSplitter val sp = some i := fun val =>
      hsp ▸ findSplitter_some val hnil
    have hdistribute := distribute_perm (fun val => (findSplitter val sp).getD 0) set.k flat
      fun val _ => by
        obtain ⟨i, hi, hfind⟩ := hkey val
        simpa [hfind] using hi
    apply (List.Perm.flatMap_left _ fun ki _ => hperm ki).trans
    apply List.Perm.trans _ (hdistribute.trans hdata)
    apply List.Perm.flatMap_left
    intro ki _
    rw [hshare]
    apply List.Perm.of_eq
    apply List.filter_congr
    intro val _
    obtain ⟨i, _, hfind⟩ := hkey val
    simp [hfind]

end TaskSystem.SampleSort
