import TaskSystem.Tasks.SampleSort.Arrays

/-!
# The Arrays During a Sample Sort

How far the tasks have come determines what the shared arrays contain, and every step of every
task keeps it so.

## Contents

- `BucketPc.stage`, `RootPc.gathered`: how far the tasks are with the arrays
- `Progress.Holds`: what the arrays contain
- `Follows`: what a step of the network leaves as it is
- `holds_propagate`, `holds_setSubArray`, `holds_finalSort`, `holds_leave`: the steps of a bucket
- `Progress.Holds.bucketStep`, `Progress.Holds.gatherStep`: what they and the root's steps keep
-/

namespace TaskSystem.SampleSort

open Library

variable {set : Setting} {g g' : Progress} {a a' : Net Local (Log AnyMsg)}
  {arrays : Arrays} {uninit : UInt32 → Nat → Nat → Int32}

/-! ## The invariant -/

/-- 0 until the bucket has published its arrays, 2 when its final data is rebuilt, 3 when it is
    sorted, 4 when the bucket has returned. -/
def BucketPc.stage : BucketPc → Nat
  | .receive call _ => if call = 4 then 1 else 0
  | .propagate => 0
  | .sendDone => 2
  | .leave => 3
  | .returned => 4

/-- How many counts and pointers the root has copied for bucket `ki`, once there are arrays for
    them. -/
def RootPc.gathered (k ki : Nat) : RootPc → Option Nat
  | .gather i kj => if ki < i then some k else if ki = i ∧ kj ≠ 0 then some kj else none
  | .receive (.done _) _ | .waitDone _ | .finished => some k
  | _ => none

/-- What the arrays contain of bucket `i` at a stage. -/
structure BucketHolds (set : Setting) (sp : List Int32) (subs : List Nat) (i stage : Nat)
    (arrays : Arrays) : Prop where
  counts : 1 ≤ stage → arrays.counts (set.bucketCounts (bucketId i)) =
    some ((List.range set.k).map fun ki => (column set sp i ki).length)
  cells : 1 ≤ stage → ∀ ki < set.k, arrays.cells ⟨bucketId i, ki⟩ = some (column set sp i ki)
  values : 1 ≤ stage → stage < 4 → arrays.values (set.valuesToPropagate (bucketId i)) =
    some ((List.range set.k).map fun ki => ⟨bucketId i, ki⟩)
  rebuilt : stage = 2 → arrays.finalDataValues (bucketId i) = some (share set sp subs i)
  sorted : 3 ≤ stage → arrays.finalDataValues (bucketId i) =
    some (set.qsort.sort buckettaskCmpfunc (share set sp subs i))

/-- The arrays contain what the tasks have written so far. -/
structure Progress.Holds (set : Setting) (g : Progress) (arrays : Arrays) : Prop where
  bucket : ∀ i < g.root.created set.k, BucketHolds set g.sp g.subs i (g.bucket i).stage arrays
  counts : ∀ ki < set.k, ∀ n, g.root.gathered set.k ki = some n →
    arrays.counts (set.rootCounts ki) =
      some ((g.subs.take n).map fun i => (column set g.sp i ki).length)
  values : ∀ ki < set.k, ∀ n, g.root.gathered set.k ki = some n →
    arrays.values (set.rootValues ki) = some ((g.subs.take n).map fun i => ⟨bucketId i, ki⟩)

/-- Nothing has been written at stage 0. -/
theorem bucketHolds_zero (set : Setting) (sp : List Int32) (subs : List Nat) (i : Nat)
    (arrays : Arrays) : BucketHolds set sp subs i 0 arrays where
  counts h := absurd h (Nat.not_succ_le_zero 0)
  cells h := absurd h (Nat.not_succ_le_zero 0)
  values h := absurd h (Nat.not_succ_le_zero 0)
  rebuilt h := nomatch h
  sorted h := absurd h (Nat.not_succ_le_zero 2)

theorem holds_start (set : Setting) : (Progress.start set).Holds set .empty where
  bucket i hi := absurd hi (Nat.not_lt_zero i)
  counts _ _ _ h := nomatch h
  values _ _ _ h := nomatch h

/-! ## Addresses -/

theorem bucketId_inj {i j : Nat} (hi : i < 98) (hj : j < 98) (h : bucketId i = bucketId j) :
    i = j := by
  have hnat := congrArg UInt32.toNat h
  rw [bucketId_toNat hi, bucketId_toNat hj] at hnat
  exact bucketTask_inj.mp hnat

section Separate

variable {ι : Type} {f g : Nat → ι} {k : Nat}

/-- Two families of addresses below `k` that are apart. -/
theorem apart_of_nodup (h : ((List.range k).map f ++ (List.range k).map g).Nodup) :
    (∀ i < k, ∀ j < k, f i = f j → i = j) ∧ (∀ i < k, ∀ j < k, g i = g j → i = j) ∧
      ∀ i < k, ∀ j < k, f i ≠ g j := by
  obtain ⟨hf, hg, hdisjoint⟩ := List.nodup_append.mp h
  have hinj : ∀ {u : Nat → ι}, ((List.range k).map u).Nodup →
      ∀ i < k, ∀ j < k, u i = u j → i = j := by
    intro u hu i hi j hj heq
    exact List.inj_on_of_nodup_map hu (List.mem_range.mpr hi) (List.mem_range.mpr hj) heq
  refine ⟨hinj hf, hinj hg, ?_⟩
  intro i hi j hj
  exact hdisjoint _ (List.mem_map_of_mem (List.mem_range.mpr hi)) _
    (List.mem_map_of_mem (List.mem_range.mpr hj))

end Separate

/-! ## What a bucket knows -/

/-- After four messages a bucket knows where its slice lies. -/
theorem bucketThis_slice (hadm : set.Admitted) (sp : List Int32) {i : Nat} (hi : i < set.k) :
    ∃ dataRef dataSize, (bucketThis set sp i 4).dataRef = some dataRef ∧
      (bucketThis set sp i 4).dataSize = some dataSize ∧
      set.sliceAt dataRef dataSize = some ((slices set.data set.k).getD i []) := by
  obtain ⟨m, hm, htag, hslice⟩ := sliceAt_dataMsg hadm hi
  refine ⟨m.values, m.size, ?_, ?_, hslice⟩
  all_goals
    simp only [bucketThis, script, hm, List.take_succ_cons, List.take_zero, List.foldl_cons,
      List.foldl_nil, BucketTask.handle, AnyMsg.tag, htag, (topoAt_fields set i).1, if_true,
      Option.getD_some, Setting.splittersMsg, Setting.getSubArraySignal, IntArrayMsg.create,
      IntArrayMsg.setValues, DoneMsg.create, BucketTask.handleTopologyMsg,
      BucketTask.handleDataRefMsg, BucketTask.handleSplitterMsg]

/-- After five it knows where its share lies. -/
theorem bucketThis_final (set : Setting) (sp : List Int32) (i : Nat) :
    (bucketThis set sp i 5).taskID = bucketId i ∧
      ∃ m, (bucketThis set sp i 5).finalData = some m ∧ m.size = set.K ∧
        m.counts = set.rootCounts i ∧ m.values = set.rootValues i := by
  have hlast : bucketThis set sp i 5 =
      ((bucketThis set sp i 4).handle setSubArrayMsgTag (set.refToBucket set.K i)).getD
        (bucketThis set sp i 4) := rfl
  rw [hlast]
  exact ⟨(bucketThis_four set sp i).1, _, rfl, rfl, rfl, rfl⟩

/-! ## What a step leaves as it is -/

/-- The splitters stay once they are picked, the order of arrival once all have arrived, and new
    buckets have published nothing. -/
structure Follows (set : Setting) (g g' : Progress) : Prop where
  created_le : g.root.created set.k ≤ g'.root.created set.k
  fresh : ∀ i, g.root.created set.k ≤ i → i < g'.root.created set.k → (g'.bucket i).stage = 0
  sp : g.root.picked → g'.sp = g.sp
  subs : g.root.AllArrived → g'.subs = g.subs

theorem RootPc.picked_of_created {k i : Nat} {pc : RootPc} (h : i < pc.created k) :
    pc.picked = true := by
  cases pc with
  | receive call point =>
    cases call with
    | bar | refIntarray => exact absurd h (Nat.not_lt_zero i)
    | subArray ki | done ki => rfl
  | sample => exact absurd h (Nat.not_lt_zero i)
  | _ => rfl

theorem RootPc.allArrived_of_gathered {k ki n : Nat} {pc : RootPc}
    (h : pc.gathered k ki = some n) : pc.AllArrived := by
  cases pc with
  | receive call point =>
    cases call with
    | done ki => trivial
    | _ => cases h
  | gather | waitDone | finished => trivial
  | _ => cases h

/-- A bucket that has rebuilt its final data has been sent its fifth message. -/
theorem Progress.Valid.allArrived_of_stage (hv : g.Valid set) {i : Nat}
    (hi : i < g.root.created set.k) (hstage : 2 ≤ (g.bucket i).stage) : g.root.AllArrived := by
  refine Classical.byContradiction fun hnot => ?_
  have hsent := RootPc.sentTo_le hnot i
  have hvalid := hv.bucket i hi
  cases hpc : g.bucket i with
  | receive call point =>
    rw [hpc] at hstage
    simp only [BucketPc.stage] at hstage
    split at hstage <;> omega
  | propagate =>
    rw [hpc] at hstage
    simp only [BucketPc.stage] at hstage
    omega
  | sendDone | leave | returned =>
    rw [hpc] at hvalid
    have hfive : 5 ≤ g.root.sentTo i := hvalid
    omega

theorem RootPc.picked_of_allArrived {pc : RootPc} (h : pc.AllArrived) : pc.picked = true := by
  cases pc with
  | receive call point =>
    cases call with
    | done ki => rfl
    | _ => exact h.elim
  | sample => exact h.elim
  | _ => rfl

/-- A bucket that has not changed depends on nothing that has. -/
theorem BucketHolds.follows {i : Nat} (h : BucketHolds set g.sp g.subs i (g.bucket i).stage arrays)
    (hv : g.Valid set) (hf : Follows set g g') (hi : i < g.root.created set.k) :
    BucketHolds set g'.sp g'.subs i (g.bucket i).stage arrays := by
  have hsp := hf.sp (RootPc.picked_of_created hi)
  rw [hsp]
  refine ⟨h.counts, h.cells, h.values, ?_, ?_⟩
  · intro htwo
    rw [hf.subs (hv.allArrived_of_stage hi (by omega))]
    exact h.rebuilt htwo
  · intro hthree
    rw [hf.subs (hv.allArrived_of_stage hi (by omega))]
    exact h.sorted hthree

/-- What the root has gathered does not change either. -/
theorem Follows.gathered (hf : Follows set g g') {ki n : Nat}
    (hn : g.root.gathered set.k ki = some n) : g'.sp = g.sp ∧ g'.subs = g.subs := by
  have hall := RootPc.allArrived_of_gathered hn
  exact ⟨hf.sp (RootPc.picked_of_allArrived hall), hf.subs hall⟩

/-- **Frame**: where no bucket has got to another stage and the root has gathered nothing new,
    the arrays need no change. -/
theorem Progress.Holds.frame (h : g.Holds set arrays) (hv : g.Valid set) (hf : Follows set g g')
    (hstage : ∀ i < g.root.created set.k, (g'.bucket i).stage = (g.bucket i).stage)
    (hroot : ∀ ki < set.k, ∀ n, g'.root.gathered set.k ki = some n →
      g.root.gathered set.k ki = some n) : g'.Holds set arrays := by
  constructor
  · intro i hi
    by_cases hlt : i < g.root.created set.k
    · rw [hstage i hlt]
      exact (h.bucket i hlt).follows hv hf hlt
    · rw [hf.fresh i (Nat.le_of_not_lt hlt) hi]
      exact bucketHolds_zero ..
  · intro ki hki n hn
    have hn' := hroot ki hki n hn
    obtain ⟨hsp, hsubs⟩ := hf.gathered hn'
    rw [hsp, hsubs]
    exact h.counts ki hki n hn'
  · intro ki hki n hn
    have hn' := hroot ki hki n hn
    rw [(hf.gathered hn').2]
    exact h.values ki hki n hn'

/-! ## A bucket writes -/

/-- The arrays differ only in what is bucket `j`'s. -/
structure Arrays.AgreeOff (set : Setting) (j : Nat) (arrays arrays' : Arrays) : Prop where
  counts : ∀ address, address ≠ set.bucketCounts (bucketId j) →
    arrays'.counts address = arrays.counts address
  values : ∀ address, address ≠ set.valuesToPropagate (bucketId j) →
    arrays'.values address = arrays.values address
  cells : ∀ ref : ArrayRef, ref.taskID ≠ bucketId j → arrays'.cells ref = arrays.cells ref
  finalDataValues : ∀ id, id ≠ bucketId j →
    arrays'.finalDataValues id = arrays.finalDataValues id

/-- **Frame for a bucket**: what bucket `j` writes is its own. -/
theorem Progress.Holds.bucketStep (h : g.Holds set arrays) (hadm : set.Admitted)
    (hsep : set.Separate) (hv : g.Valid set) (hf : Follows set g g') {j : Nat}
    (hj : j < set.k) {arrays' : Arrays} (hoff : arrays.AgreeOff set j arrays')
    (hroot : g'.root = g.root)
    (hother : ∀ i < g.root.created set.k, i ≠ j → g'.bucket i = g.bucket i)
    (hself : BucketHolds set g'.sp g'.subs j (g'.bucket j).stage arrays') :
    g'.Holds set arrays' := by
  have hk := hadm.k_le
  obtain ⟨hcounts, -, hcountsRoot⟩ := apart_of_nodup hsep.counts
  obtain ⟨hvalues, -, hvaluesRoot⟩ := apart_of_nodup hsep.values
  constructor
  · intro i hi
    rw [hroot] at hi
    by_cases hij : i = j
    · subst hij
      exact hself
    · have hik := Nat.lt_of_lt_of_le hi hv.created_le
      have hid : bucketId i ≠ bucketId j := fun heq => hij (bucketId_inj (by omega) (by omega) heq)
      rw [hother i hi hij]
      have hsame := (h.bucket i hi).follows hv hf hi
      constructor
      · rw [hoff.counts _ fun heq => hij (hcounts i hik j hj heq)]
        exact hsame.counts
      · intro hone ki hki
        rw [hoff.cells _ hid]
        exact hsame.cells hone ki hki
      · rw [hoff.values _ fun heq => hij (hvalues i hik j hj heq)]
        exact hsame.values
      · rw [hoff.finalDataValues _ hid]
        exact hsame.rebuilt
      · rw [hoff.finalDataValues _ hid]
        exact hsame.sorted
  · intro ki hki n hn
    rw [hroot] at hn
    obtain ⟨hsp, hsubs⟩ := hf.gathered hn
    rw [hoff.counts _ (hcountsRoot j hj ki hki).symm, hsp, hsubs]
    exact h.counts ki hki n hn
  · intro ki hki n hn
    rw [hroot] at hn
    rw [hoff.values _ (hvaluesRoot j hj ki hki).symm, (hf.gathered hn).2]
    exact h.values ki hki n hn

/-- **The two passes** fill what the bucket publishes. -/
theorem holds_propagate (hadm : set.Admitted) (uninit : UInt32 → Nat → Nat → Int32)
    (sp : List Int32) (subs : List Nat) {j : Nat} (hj : j < set.k) (arrays : Arrays) :
    ∃ arrays', arrays.propagate set uninit (bucketThis set sp j 4) = some arrays' ∧
      arrays.AgreeOff set j arrays' ∧ BucketHolds set sp subs j 1 arrays' := by
  obtain ⟨hid, hcount, -, -, -, hsplitters, -⟩ := bucketThis_four set sp j
  obtain ⟨dataRef, dataSize, href, hsize, hslice⟩ := bucketThis_slice hadm sp hj
  obtain ⟨hcounts, hvalues⟩ := subArrays_eq set sp j (uninit (bucketId j))
  have hk : (Int32.ofInt set.k).toInt.toNat = set.k := by
    have := hadm.k_le
    rw [toInt_ofInt_of_fits (by omega) (by unfold intMax; omega), Int.toNat_natCast]
  refine ⟨_, by simp only [Arrays.propagate, hid, hcount, href, hsize, hslice, hsplitters, hk,
    Option.bind_eq_bind, Option.bind_some]; rfl, ?_, ?_⟩
  · constructor
    · exact fun address hne => Function.update_of_ne hne ..
    · exact fun address hne => Function.update_of_ne hne ..
    · exact fun ref hne => if_neg hne
    · exact fun id _ => rfl
  · constructor
    · exact fun _ => (Function.update_self ..).trans (congrArg some hcounts)
    · exact fun _ ki hki => (if_pos rfl).trans (hvalues ki hki)
    · exact fun _ _ => Function.update_self ..
    · exact nofun
    · exact fun h => absurd h (by decide)

/-- **Rebuilding** puts the bucket's share together. -/
theorem holds_setSubArray (hadm : set.Admitted) {sp : List Int32} {subs : List Nat} {j : Nat}
    (h : BucketHolds set sp subs j 1 arrays) (hlength : subs.length = set.k)
    (hcounts : arrays.counts (set.rootCounts j) =
      some (subs.map fun i => (column set sp i j).length))
    (hvalues : arrays.values (set.rootValues j) = some (subs.map fun i => ⟨bucketId i, j⟩))
    (hcells : ∀ i ∈ subs, arrays.cells ⟨bucketId i, j⟩ = some (column set sp i j)) :
    ∃ arrays', arrays.setSubArray (bucketThis set sp j 5) = some arrays' ∧
      arrays.AgreeOff set j arrays' ∧ BucketHolds set sp subs j 2 arrays' := by
  obtain ⟨hid, m, hm, hsize, hmcounts, hmvalues⟩ := bucketThis_final set sp j
  have hread : (subs.map fun i => (⟨bucketId i, j⟩ : ArrayRef)).mapM arrays.cells =
      some (subs.map fun i => column set sp i j) := by
    clear hlength hcounts hvalues h
    induction subs with
    | nil => rfl
    | cons i subs ih =>
      rw [List.map_cons, List.mapM_cons, hcells i (List.mem_cons_self ..),
        ih fun i hi => hcells i (List.mem_cons_of_mem _ hi)]
      rfl
  -- no loop runs past the values it reads
  have hzip : (subs.map fun i => (column set sp i j).length).zip
      (subs.map fun i => column set sp i j) =
        subs.map fun i => ((column set sp i j).length, column set sp i j) := List.zip_map' ..
  have hall : (subs.all fun _ => true) = true := List.all_eq_true.mpr fun _ _ => rfl
  have hk : set.K.toInt = (subs.length : Int) := by rw [hlength, hadm.k_eq]
  refine ⟨_, by simp only [Arrays.setSubArray, hid, hm, hsize, hmcounts, hmvalues, hcounts, hvalues,
    hread, hzip, List.all_map, Function.comp_def, Nat.le_refl, decide_true, hall, hk,
    List.length_map, and_self, if_true, Option.bind_eq_bind, Option.bind_some]; rfl, ?_, ?_⟩
  · constructor
    · exact fun _ _ => rfl
    · exact fun _ _ => rfl
    · exact fun _ _ => rfl
    · exact fun id hne => Function.update_of_ne hne ..
  · constructor
    · exact fun _ => h.counts (Nat.le_refl _)
    · exact fun _ => h.cells (Nat.le_refl _)
    · exact fun _ _ => h.values (Nat.le_refl _) (by decide)
    · exact fun _ => (Function.update_self ..).trans (congrArg some (rebuild_columns ..))
    · exact fun h => absurd h (by decide)

/-- **The final sorting**. -/
theorem holds_finalSort {sp : List Int32} {subs : List Nat} {j : Nat}
    (h : BucketHolds set sp subs j 2 arrays) {this : BucketTask} (hid : this.taskID = bucketId j) :
    ∃ arrays', arrays.finalSort set this = some arrays' ∧ arrays.AgreeOff set j arrays' ∧
      BucketHolds set sp subs j 3 arrays' := by
  refine ⟨_, by simp only [Arrays.finalSort, hid, h.rebuilt rfl, Option.bind_eq_bind,
    Option.bind_some]; rfl, ?_, ?_⟩
  · constructor
    · exact fun _ _ => rfl
    · exact fun _ _ => rfl
    · exact fun _ _ => rfl
    · exact fun id hne => Function.update_of_ne hne ..
  · constructor
    · exact fun _ => h.counts (by decide)
    · exact fun _ => h.cells (by decide)
    · exact fun _ _ => h.values (by decide) (by decide)
    · exact nofun
    · exact fun _ => Function.update_self ..

/-- **Returning** takes the published array away. -/
theorem holds_leave {sp : List Int32} {subs : List Nat} {j : Nat}
    (h : BucketHolds set sp subs j 3 arrays) {this : BucketTask} (hid : this.taskID = bucketId j) :
    arrays.AgreeOff set j (arrays.leave set this) ∧
      BucketHolds set sp subs j 4 (arrays.leave set this) := by
  constructor
  · constructor
    · exact fun _ _ => rfl
    · intro address hne
      simp only [Arrays.leave, hid]
      exact Function.update_of_ne hne ..
    · exact fun _ _ => rfl
    · exact fun _ _ => rfl
  · constructor
    · exact fun _ => h.counts (by decide)
    · exact fun _ => h.cells (by decide)
    · exact fun _ hlt => absurd hlt (by decide)
    · exact nofun
    · exact fun _ => h.sorted (by decide)

/-! ## The root writes -/

theorem BucketPc.sentSub_iff {pc : BucketPc} : pc.SentSub ↔ 1 ≤ pc.stage := by
  cases pc with
  | receive call point =>
    simp only [SentSub, stage]
    split <;> omega
  | propagate => exact ⟨False.elim, fun h => absurd h (Nat.not_succ_le_zero 0)⟩
  | sendDone | leave | returned => exact ⟨fun _ => by decide, fun _ => trivial⟩

/-- One cell more, of an array that contains the first `kj` cells of a list. -/
theorem pushAt_eq {α : Type} {arrays : UInt64 → Option (List α)} {address : UInt64} {kj : Nat}
    (xs : List α) {x : α} (hx : xs[kj]? = some x)
    (h : kj ≠ 0 → arrays address = some (xs.take kj)) :
    Arrays.pushAt arrays address kj x = Function.update arrays address (some (xs.take (kj + 1))) := by
  have hbefore : (if kj = 0 then [] else (arrays address).getD []) = xs.take kj := by
    split
    case isTrue hzero => rw [hzero, List.take_zero]
    case isFalse hne => rw [h hne, Option.getD_some]
  rw [Arrays.pushAt, hbefore, List.take_add_one, hx]
  rfl

/-- A round of the inner loop adds to the arrays for one bucket. -/
theorem RootPc.gathered_succ {k ki kj ki' n : Nat}
    (h : (RootPc.gather ki (kj + 1)).gathered k ki' = some n) :
    ki' = ki ∧ n = kj + 1 ∨ ki' ≠ ki ∧ (RootPc.gather ki kj).gathered k ki' = some n := by
  by_cases heq : ki' = ki
  · subst heq
    simp only [gathered, Nat.lt_irrefl, if_false, ne_eq, Nat.add_one_ne_zero, not_false_eq_true,
      and_self, if_true] at h
    exact .inl ⟨rfl, (Option.some.inj h).symm⟩
  · simp only [gathered, heq, false_and, if_false] at h
    exact .inr ⟨heq, by simp only [gathered, heq, false_and, if_false, h]⟩

/-- **The inner loop of phase 3** copies what the next bucket in the order of arrival has
    published for bucket `ki`, while that bucket has not returned. -/
theorem Progress.Holds.gatherStep (h : g.Holds set arrays) (hsep : set.Separate)
    (hv : g.Valid set) (hf : Follows set g g') {ki kj : Nat} (hpc : g.root = .gather ki kj)
    (hpc' : g'.root = .gather ki (kj + 1)) (hki : ki < set.k) (hkj : kj < set.k)
    (hlive : ∀ i, g.subs[kj]? = some i → (g.bucket i).stage < 4)
    (hbucket : ∀ i < g.root.created set.k, g'.bucket i = g.bucket i) :
    ∃ arrays', arrays.gather set (g.rootLocal set).this ki kj = some arrays' ∧
      g'.Holds set arrays' := by
  have hlength := hv.all_subs (by rw [hpc]; trivial)
  have hcreated : g.root.created set.k = set.k := by rw [hpc]; rfl
  have hcreated' : g'.root.created set.k = set.k := by rw [hpc']; rfl
  obtain ⟨hsp, hsubs⟩ : g'.sp = g.sp ∧ g'.subs = g.subs :=
    ⟨hf.sp (by rw [hpc]; rfl), hf.subs (by rw [hpc]; trivial)⟩
  obtain ⟨-, hcountsInj, hcountsRoot⟩ := apart_of_nodup hsep.counts
  obtain ⟨-, hvaluesInj, hvaluesRoot⟩ := apart_of_nodup hsep.values
  -- the bucket whose arrays are read
  have hi := List.getElem?_eq_getElem (hlength ▸ hkj : kj < g.subs.length)
  generalize g.subs[kj] = i at hi
  obtain ⟨hik, hsent⟩ := (hv.mem_subs i).mp (List.mem_of_getElem? hi)
  have hholds := h.bucket i hik
  have hone := BucketPc.sentSub_iff.mp hsent
  have hcounts := hholds.counts hone
  have hvalues := hholds.values hone (hlive i hi)
  have hmsg : ((g.rootLocal set).this.bucketsValuesArr[kj]?).join = some (subMsg set i) := by
    simp only [rootLocal, hpc, rootThis, RootPc.arrived, Option.elim_some, arrivedArr,
      List.getElem?_map, List.getElem?_range hkj, Option.map_some, hkj, if_true, hi,
      Option.join_some]
  have hcount : ((List.range set.k).map fun ki => (column set g.sp i ki).length)[ki]? =
      some (column set g.sp i ki).length := by
    simp [hki]
  have hvalue : ((List.range set.k).map fun ki => (⟨bucketId i, ki⟩ : ArrayRef))[ki]? =
      some ⟨bucketId i, ki⟩ := by
    simp [hki]
  have hgathered : kj ≠ 0 → g.root.gathered set.k ki = some kj := by
    intro hne
    simp [hpc, RootPc.gathered, hne]
  have hcountsBefore : kj ≠ 0 → arrays.counts (set.rootCounts ki) =
      some ((g.subs.map fun i => (column set g.sp i ki).length).take kj) := by
    intro hne
    rw [h.counts ki hki kj (hgathered hne), List.map_take]
  have hvaluesBefore : kj ≠ 0 → arrays.values (set.rootValues ki) =
      some ((g.subs.map fun i => (⟨bucketId i, ki⟩ : ArrayRef)).take kj) := by
    intro hne
    rw [h.values ki hki kj (hgathered hne), List.map_take]
  have hpush := pushAt_eq _ (by rw [List.getElem?_map, hi, Option.map_some]) hcountsBefore
  have hpush' := pushAt_eq _ (by rw [List.getElem?_map, hi, Option.map_some]) hvaluesBefore
  refine ⟨{ arrays with
    counts := Function.update arrays.counts (set.rootCounts ki)
      (some ((g.subs.map fun i => (column set g.sp i ki).length).take (kj + 1)))
    values := Function.update arrays.values (set.rootValues ki)
      (some ((g.subs.map fun i => (⟨bucketId i, ki⟩ : ArrayRef)).take (kj + 1))) }, ?_, ?_⟩
  · rw [← hpush, ← hpush']
    simp only [Arrays.gather, hmsg, Option.bind_eq_bind, Option.bind_some]
    rw [show arrays.counts (subMsg set i).counts = _ from hcounts,
      show arrays.values (subMsg set i).values = _ from hvalues]
    simp only [Option.bind_some, hcount, hvalue]
  · constructor
    · intro j hj
      have hjk : j < set.k := hcreated' ▸ hj
      have hbucketHolds := h.bucket j (by rw [hcreated]; exact hjk)
      rw [hbucket j (by rw [hcreated]; exact hjk), hsp, hsubs]
      refine ⟨?_, hbucketHolds.cells, ?_, hbucketHolds.rebuilt, hbucketHolds.sorted⟩
      · intro hpos
        exact (Function.update_of_ne (hcountsRoot j hjk ki hki) ..).trans (hbucketHolds.counts hpos)
      · intro hpos hlt
        exact (Function.update_of_ne (hvaluesRoot j hjk ki hki) ..).trans
          (hbucketHolds.values hpos hlt)
    · intro ki' hki' n hn
      rw [hpc'] at hn
      rw [hsp, hsubs]
      rcases RootPc.gathered_succ hn with ⟨rfl, rfl⟩ | ⟨hne, hn⟩
      · exact (Function.update_self ..).trans (by rw [List.map_take])
      · refine (Function.update_of_ne (fun heq => hne (hcountsInj ki' hki' ki hki heq)) ..).trans ?_
        exact h.counts ki' hki' n (hpc ▸ hn)
    · intro ki' hki' n hn
      rw [hpc'] at hn
      rw [hsubs]
      rcases RootPc.gathered_succ hn with ⟨rfl, rfl⟩ | ⟨hne, hn⟩
      · exact (Function.update_self ..).trans (by rw [List.map_take])
      · refine (Function.update_of_ne (fun heq => hne (hvaluesInj ki' hki' ki hki heq)) ..).trans ?_
        exact h.values ki' hki' n (hpc ▸ hn)

end TaskSystem.SampleSort
