import TaskSystem.Tasks.SampleSort.ArraySteps

/-!
# The Arrays and the Protocol of a Sample Sort

Every step that the network of the tasks takes is one whose accesses are defined, and the arrays
contain afterwards what the progress of the tasks says.

## Contents

- `RootStep`, `BucketStep`: the steps of the tasks, as far as arrays are concerned;
  `rootMove_next`, `bucketMove_next`
- `follows`: a step of the network leaves the rest as it is
- `holds_rootStep`, `holds_bucketStep`: what the arrays contain after it
-/

namespace TaskSystem.SampleSort

open Library

variable {set : Setting} {g g' : Progress} {a a' : Net Local (Log AnyMsg)}
  {arrays : Arrays} {uninit : UInt32 → Nat → Nat → Int32}

/-! ## The steps of the root -/

/-- The steps of the root, as far as the arrays are concerned. -/
inductive RootStep (set : Setting) (r r' : RootLocal) : Prop where
  | gather {ki kj : Nat} (hpc : r.pc = .gather ki kj) (hki : ki < set.k) (hkj : kj < set.k)
      (hpc' : r'.pc = .gather ki (kj + 1))
  | idle (hidle : ∀ arrays : Arrays, arrays.rootStep set r = some arrays)
      (hgathered : ∀ ki < set.k, ∀ n, r'.pc.gathered set.k ki = some n →
        r.pc.gathered set.k ki = some n)

/-- Once it has picked the splitters, the root keeps them. -/
def KeepsSplitters (r r' : RootLocal) : Prop :=
  r.pc.picked = true → r'.splitters = r.splitters ∧ r'.pc.picked = true

/-- In its calls of `receive` the root gathers nothing. -/
theorem rootReceive_next (set : Setting) {r : RootLocal} {call : RootCall} {point : ReceivePoint}
    (hpc : r.pc = .receive call point) {pc : RootPc}
    (hnext : (∃ p, pc = .receive call p) ∨ pc = .after call) :
    (r.pc.picked = true → pc.picked = true) ∧
      (∀ arrays : Arrays, arrays.rootStep set r = some arrays) ∧
      ∀ ki < set.k, ∀ n, pc.gathered set.k ki = some n → r.pc.gathered set.k ki = some n := by
  have hidle : ∀ arrays : Arrays, arrays.rootStep set r = some arrays := by
    intro arrays
    simp only [Arrays.rootStep, hpc]
  rw [hpc]
  cases call with
  | bar | refIntarray =>
    rcases hnext with ⟨p, rfl⟩ | rfl
    all_goals exact ⟨nofun, hidle, nofun⟩
  | subArray ki | done ki =>
    rcases hnext with ⟨p, rfl⟩ | rfl
    all_goals exact ⟨fun _ => rfl, hidle, fun _ _ _ hn => hn⟩

/-- Where nothing has been gathered, nothing is gathered further on either. -/
theorem gathered_of_none {pc : RootPc} {k : Nat} (hnone : ∀ ki, pc.gathered k ki = none)
    {p : Nat → Nat → Prop} : ∀ ki < k, ∀ n, pc.gathered k ki = some n → p ki n := by
  intro ki _ n hn
  rw [hnone] at hn
  cases hn

section RootNext

variable {r r' : RootLocal} {msgs : List AnyMsg}

/-- Behind the last sub array for a bucket the root sends it what it has gathered, which is what
    it has gathered when it goes on to the next bucket. -/
theorem gathered_next {k ki kj : Nat} (hone : 1 ≤ k) (hlast : kj = k) :
    ∀ i < k, ∀ n, (RootPc.gather (ki + 1) 0).gathered k i = some n →
      (RootPc.gather ki kj).gathered k i = some n := by
  intro i _ n hn
  rcases Nat.lt_trichotomy i ki with hlt | rfl | hgt
  · simp only [RootPc.gathered, Nat.lt_succ_of_lt hlt, hlt, if_true] at hn ⊢
    exact hn
  · have hne : kj ≠ 0 := by omega
    simp only [RootPc.gathered, Nat.lt_succ_self, if_true] at hn
    simp only [RootPc.gathered, Nat.lt_irrefl, if_false, ne_eq, hne, not_false_eq_true,
      and_self, if_true]
    rw [hlast]
    exact hn
  · have hnot : ¬i < ki + 1 := by omega
    simp only [RootPc.gathered, hnot, if_false, ne_eq, not_true_eq_false, and_false] at hn
    cases hn

/-- In phase 3 the root reads a sub array, or has gathered all there are for a bucket. -/
theorem rootGather_next (hadm : set.Admitted) {ki kj : Nat} (hpc : r.pc = .gather ki kj)
    (h : (rootMove set r).Leads (.root r')) (hvalid : r.pc.Valid set msgs)
    (hK : r.this.K = some set.K) : KeepsSplitters r r' ∧ RootStep set r r' := by
  have hidle : ¬(ki < set.k ∧ kj < set.k) →
      ∀ arrays : Arrays, arrays.rootStep set r = some arrays := by
    intro hnot arrays
    simp only [Arrays.rootStep, hpc, hK, hadm.lt_iff, hnot, if_false]
  simp only [rootMove, hpc] at h
  rw [hpc] at hvalid
  split at h
  case h_2 => exact h.elim
  case h_1 K size data hK' _ _ =>
    obtain rfl : K = set.K := Option.some.inj (hK'.symm.trans hK)
    simp only [RootLocal.phaseMove, hadm.lt_iff] at h
    split at h
    case isTrue hki =>
      split at h
      case isTrue hkj =>
        split at h
        · cases h
          exact ⟨fun _ => ⟨rfl, rfl⟩, .gather hpc hki hkj rfl⟩
        · exact h.elim
      case isFalse hkj =>
        -- the arrays for this bucket are complete
        obtain ⟨sent, heq⟩ := sendTo_leads h
        cases heq
        refine ⟨fun _ => ⟨rfl, rfl⟩, .idle (hidle fun hlt => hkj hlt.2) ?_⟩
        rw [hpc]
        exact gathered_next hadm.one_le_k (Nat.le_antisymm hvalid.2 (Nat.le_of_not_lt hkj))
    case isFalse hki =>
      cases h
      refine ⟨fun _ => ⟨rfl, rfl⟩, .idle (hidle fun hlt => hki hlt.1) ?_⟩
      rw [hpc]
      intro ki' hki' n hn
      have hall : ki' < ki := Nat.lt_of_lt_of_le hki' (Nat.le_of_not_lt hki)
      simp only [RootPc.gathered, hall, if_true]
      exact hn

/-- While the root draws its samples, it has not picked splitters yet. -/
theorem rootSample_next (hpc : r.pc = .sample) (h : (rootMove set r).Leads (.root r')) :
    KeepsSplitters r r' ∧ RootStep set r r' := by
  have hidle : ∀ arrays : Arrays, arrays.rootStep set r = some arrays := by
    intro arrays
    simp only [Arrays.rootStep, hpc]
  have hnot : ¬r.pc.picked = true := by
    rw [hpc]
    exact Bool.false_ne_true
  simp only [rootMove, hpc] at h
  split at h
  case h_2 => exact h.elim
  case h_1 =>
    simp only [RootLocal.phaseMove] at h
    split at h
    · exact h.elim
    · split at h
      · exact h.elim
      · split at h <;> cases h <;>
          exact ⟨fun hp => absurd hp hnot, .idle hidle (gathered_of_none fun _ => rfl)⟩

/-- **Inversion for the root**. -/
theorem rootMove_next (hadm : set.Admitted) (h : (rootMove set r).Leads (.root r'))
    (hvalid : r.pc.Valid set msgs) (hK : r.pc.picked = true → r.this.K = some set.K) :
    KeepsSplitters r r' ∧ RootStep set r r' := by
  cases hpc : r.pc with
  | receive call point =>
    have hnext := rootReceive_leads hpc h
    obtain ⟨hpicked, hidle, hgathered⟩ := rootReceive_next set hpc hnext.2
    exact ⟨fun hp => ⟨hnext.1, hpicked hp⟩, .idle hidle hgathered⟩
  | gather ki kj =>
    exact rootGather_next hadm hpc h hvalid (hK (by rw [hpc]; rfl))
  | sample => exact rootSample_next hpc h
  | finished =>
    simp only [rootMove, hpc] at h
    split at h <;> exact h.elim
  -- the loops that send, create or wait touch no array
  | _ =>
    have hidle : ∀ arrays : Arrays, arrays.rootStep set r = some arrays := by
      intro arrays
      simp only [Arrays.rootStep, hpc]
    -- what the loops of the other phases lead to
    have hnext : (RootPc.gather 0 0).gathered set.k = fun _ => none := by
      funext ki
      simp only [RootPc.gathered, Nat.not_lt_zero, if_false, ne_eq, not_true_eq_false, and_false]
    simp only [rootMove, hpc] at h
    split at h
    case h_2 => exact h.elim
    case h_1 =>
      simp only [RootLocal.phaseMove] at h
      split at h
      · first
        | obtain ⟨sent, heq⟩ := sendTo_leads h
          cases heq
          exact ⟨fun _ => ⟨rfl, rfl⟩, .idle hidle (gathered_of_none fun _ => rfl)⟩
        | obtain ⟨id, heq⟩ := h
          cases heq
          exact ⟨fun _ => ⟨rfl, rfl⟩, .idle hidle (gathered_of_none fun _ => rfl)⟩
        | cases h
          exact ⟨fun _ => ⟨rfl, rfl⟩, .idle hidle fun _ _ _ hn => by rw [hpc]; exact hn⟩
      · cases h
        refine ⟨fun _ => ⟨rfl, rfl⟩, .idle hidle ?_⟩
        rw [hpc]
        intro ki _ n hn
        first
        | exact hn
        | cases (congrFun hnext ki).symm.trans hn

end RootNext

/-! ## The steps of a bucket -/

/-- A step from here makes no access. -/
def BucketPc.Idle : BucketPc → Prop
  | .propagate | .sendDone | .leave => False
  | .receive call (.clone _) => call ≠ 4
  | _ => True

theorem bucketStep_idle {pc : BucketPc} (h : pc.Idle) (arrays : Arrays)
    (this this' : BucketTask) : arrays.bucketStep set uninit pc this this' = some arrays := by
  cases pc with
  | propagate | sendDone | leave => exact h.elim
  | returned => rfl
  | receive call point =>
    cases point with
    | clone tag => exact if_neg h
    | poll | receive _ | drop => rfl

theorem BucketPc.idle_of_ne {call : Nat} (h : call ≠ 4) (point : ReceivePoint) :
    (BucketPc.receive call point).Idle := by
  cases point with
  | clone tag => exact h
  | poll | receive _ | drop => trivial

/-- The steps of a bucket, as far as the arrays are concerned. -/
inductive BucketStep (b b' : BucketLocal) : Prop where
  | propagate (hpc : b.pc = .propagate) (hstage : b'.pc.stage = 1)
  | rebuild (tag : Int32) (hpc : b.pc = .receive 4 (.clone tag)) (hstage : b'.pc.stage = 2)
  | sort (hpc : b.pc = .sendDone) (hstage : b'.pc.stage = 3)
  | leave (hpc : b.pc = .leave) (hstage : b'.pc.stage = 4)
  | idle (hidle : b.pc.Idle) (hstage : b'.pc.stage = b.pc.stage)
  /-- Its last call of `receive` has handled nothing. -/
  | skip (point : ReceivePoint) (hpc : b.pc = .receive 4 point)
      (hreceived : b'.received = b.received) (hdone : b'.pc = .sendDone)

/-- **Inversion for a bucket**. -/
theorem bucketMove_next {b b' : BucketLocal} (h : (bucketMove set b).Leads (.bucket b'))
    (hcall : ∀ call point, b.pc = .receive call point → call ≤ 4) : BucketStep b b' := by
  cases hpc : b.pc with
  | propagate =>
    simp only [bucketMove, hpc] at h
    split at h
    · obtain ⟨sent, heq⟩ := h
      cases heq
      exact .propagate hpc rfl
    · exact h.elim
  | sendDone =>
    simp only [bucketMove, hpc] at h
    split at h
    · obtain ⟨sent, heq⟩ := h
      cases heq
      exact .sort hpc rfl
    · exact h.elim
  | leave =>
    simp only [bucketMove, hpc] at h
    cases h
    exact .leave hpc rfl
  | returned =>
    simp only [bucketMove, hpc] at h
    exact h.elim
  | receive call point =>
    simp only [bucketMove, hpc] at h
    by_cases hfour : call = 4
    · subst hfour
      have hstage : ∀ p, (BucketPc.receive 4 p).stage = 1 := fun _ => rfl
      cases point with
      | poll =>
        obtain ⟨tag, heq⟩ := h
        have hcases : (∃ p, Local.bucket b' = b.goto (.receive 4 p)) ∨
            Local.bucket b' = b.goto (.after 4) := by
          rw [heq]
          dsimp only
          split
          · exact .inl ⟨_, rfl⟩
          · split
            · exact .inl ⟨_, rfl⟩
            · exact .inr rfl
            · exact .inl ⟨_, rfl⟩
        rcases hcases with ⟨p, heq⟩ | heq
        · cases heq
          exact .idle (by rw [hpc]; trivial) (by rw [hpc, hstage p, hstage])
        · cases heq
          exact .skip .poll hpc rfl rfl
      | receive tag =>
        cases h
        exact .idle (by rw [hpc]; trivial) (by rw [hpc, hstage]; rfl)
      | clone tag =>
        obtain ⟨msg, heq⟩ := h
        simp only [BucketLocal.handled] at heq
        split at heq
        · cases heq
          exact .rebuild tag hpc rfl
        · cases heq
      | drop =>
        cases h
        exact .skip .drop hpc rfl rfl
    · -- before the last call there are no arrays
      have hle := hcall call point hpc
      have hidle : b.pc.Idle := hpc ▸ BucketPc.idle_of_ne hfour point
      have hstage : ∀ point, (BucketPc.receive call point).stage = 0 := fun _ => if_neg hfour
      have hafter : (BucketPc.after call).stage = 0 := by
        unfold BucketPc.after
        split
        · rfl
        · exact absurd rfl hfour
        case h_3 hthree _ =>
          apply if_neg
          intro heq
          exact hthree (by omega)
      have hnext : b'.pc.stage = 0 := by
        rcases receiveMove_leads h with ⟨p, heq⟩ | ⟨tag, msg, heq⟩ | heq
        · cases heq
          exact hstage p
        · simp only [BucketLocal.handled] at heq
          split at heq
          · cases heq
            exact hafter
          · cases heq
        · cases heq
          exact hafter
      exact .idle hidle (by rw [hnext, hpc, hstage])

/-! ## What a step of the network leaves as it is -/

/-- The addresses of the sub arrays among the messages for the root. -/
def subAddress : AnyMsg → Option UInt64
  | .refTwoDimIntArray m => some m.values
  | _ => none

theorem filterMap_toRoot (set : Setting) (g : Progress) :
    (g.toRoot set).filterMap subAddress =
      g.subs.map fun i => set.valuesToPropagate (bucketId i) := by
  have hstarter : ([set.kMsg, set.testDataMsg].take g.started).filterMap subAddress = [] := by
    apply List.filterMap_eq_nil_iff.mpr
    intro msg hmsg
    have hmem := List.mem_of_mem_take hmsg
    simp only [List.mem_cons, List.not_mem_nil, or_false] at hmem
    rcases hmem with rfl | rfl <;> rfl
  have hdones : (g.dones.map fun _ => set.outputDoneMsg).filterMap subAddress = [] := by
    apply List.filterMap_eq_nil_iff.mpr
    intro msg hmsg
    obtain ⟨-, -, rfl⟩ := List.mem_map.mp hmsg
    rfl
  have hsubs : (g.subs.map fun i => AnyMsg.refTwoDimIntArray (subMsg set i)).filterMap subAddress =
      g.subs.map fun i => set.valuesToPropagate (bucketId i) := by
    rw [List.filterMap_map]
    show g.subs.filterMap (some ∘ fun i => set.valuesToPropagate (bucketId i)) = _
    rw [List.filterMap_eq_map]
  rw [Progress.toRoot, stream, List.filterMap_append, List.filterMap_append, hstarter, hsubs,
    hdones, List.nil_append, List.append_nil]

/-- Once all sub arrays have arrived, their order is fixed. -/
theorem subs_eq_of_prefix (hsep : set.Separate) (hv : g.Valid set) (hv' : g'.Valid set)
    (hgrow : g.toRoot set <+: g'.toRoot set) (hlength : g.subs.length = set.k) :
    g'.subs = g.subs := by
  obtain ⟨hinj, -, -⟩ := apart_of_nodup hsep.values
  have haddresses := hgrow.filterMap subAddress
  rw [filterMap_toRoot, filterMap_toRoot] at haddresses
  have hle := hv'.length_subs_le
  have heq := haddresses.eq_of_length_le (by simp only [List.length_map]; omega)
  have hsame : g'.subs.length = g.subs.length := by
    simpa using (congrArg List.length heq).symm
  apply List.ext_getElem hsame
  intro i h₁ h₂
  apply hinj _ (hv'.subs_lt _ (List.getElem_mem h₁)) _ (hv.subs_lt _ (List.getElem_mem h₂))
  have hi := congrArg (fun addresses => addresses[i]?) heq
  simpa [List.getElem?_eq_getElem h₁, List.getElem?_eq_getElem h₂] using hi.symm

/-- The root knows the number of buckets when it has picked the splitters. -/
theorem rootLocal_K (hpicked : g.root.picked = true) : (g.rootLocal set).this.K = some set.K := by
  cases hpc : g.root with
  | receive call point =>
    rw [hpc] at hpicked
    cases call with
    | bar | refIntarray => cases hpicked
    | subArray ki | done ki => simp [Progress.rootLocal, hpc, rootThis, RootPc.known]
  | _ => simp [Progress.rootLocal, hpc, rootThis, RootPc.known]

section Step

variable {t : Nat}

/-- A task that exists and does not move stays as it is. -/
theorem unmoved (hstep : a.step (Log.medium tagOf) (code set) t = some a') {u : Nat} (hu : u ≠ t)
    (hlt : u < a.nextId) : a'.tasks u = a.tasks u := by
  obtain ⟨l, hl, hmove⟩ := Option.bind_eq_some_iff.mp hstep
  obtain ⟨-, -, hothers⟩ := Net.perform_cases hmove
  rcases hothers u hu with hsame | ⟨-, -, -, hid, -⟩
  · exact hsame
  · exact absurd hid (Nat.ne_of_lt hlt)

theorem Progress.Matches.samplesort_lt (hm : g.Matches set a) : samplesort < a.nextId := by
  rw [hm.nextId]
  unfold bucketTask
  omega

/-- A step of another task leaves the root where it is. -/
theorem root_unmoved (hm : g.Matches set a) (hm' : g'.Matches set a')
    (hstep : a.step (Log.medium tagOf) (code set) t = some a') (ht : samplesort ≠ t) :
    g'.rootLocal set = g.rootLocal set := by
  have hsame := unmoved hstep ht hm.samplesort_lt
  rw [hm.rootTask, hm'.rootTask] at hsame
  exact Local.root.inj (Option.some.inj hsame)

/-- And a bucket, if it is not its own. -/
theorem bucket_unmoved (hm : g.Matches set a) (hm' : g'.Matches set a')
    (hstep : a.step (Log.medium tagOf) (code set) t = some a')
    (hle : g.root.created set.k ≤ g'.root.created set.k) {i : Nat}
    (hi : i < g.root.created set.k) (ht : bucketTask i ≠ t) : g'.bucket i = g.bucket i := by
  have hlt : bucketTask i < a.nextId := by
    rw [hm.nextId]
    unfold bucketTask
    omega
  have hsame := unmoved hstep ht hlt
  rw [hm.bucketTasks i hi, hm'.bucketTasks i (by omega)] at hsame
  exact congrArg BucketLocal.pc (Local.bucket.inj (Option.some.inj hsame))

/-- **A step of the network** keeps the splitters and the order of arrival, and the buckets that
    are new have published nothing. -/
theorem follows (hadm : set.Admitted) (hsep : set.Separate) (hv : g.Valid set)
    (hm : g.Matches set a) (hv' : g'.Valid set) (hm' : g'.Matches set a')
    (hstep : a.step (Log.medium tagOf) (code set) t = some a') : Follows set g g' := by
  obtain ⟨l, hl, hmove⟩ := Option.bind_eq_some_iff.mp hstep
  obtain ⟨⟨l', hleads, hl'⟩, hnext, hothers⟩ := Net.perform_cases hmove
  constructor
  · rw [hm.nextId, hm'.nextId] at hnext
    unfold bucketTask at hnext
    omega
  · intro i hge hlt
    have hnew := hm'.bucketTasks i hlt
    have hnone := hm.noTasks i hge
    have ht : bucketTask i ≠ t := by
      rintro rfl
      rw [hnone] at hl
      cases hl
    rcases hothers _ ht with hsame | ⟨child, next, hcode, -, hchild⟩
    · rw [hsame, hnone] at hnew
      cases hnew
    · rw [code_create hcode, hnew] at hchild
      have hpc : g'.bucket i = .receive 0 .poll :=
        congrArg BucketLocal.pc (Local.bucket.inj (Option.some.inj hchild))
      rw [hpc]
      rfl
  · intro hpicked
    have hsp : (g'.rootLocal set).splitters = (g.rootLocal set).splitters ∧
        g'.root.picked = true := by
      by_cases ht : samplesort = t
      · rw [← ht, hm.rootTask] at hl
        rw [← ht, hm'.rootTask] at hl'
        obtain rfl := Option.some.inj hl
        obtain rfl := Option.some.inj hl'
        exact (rootMove_next hadm hleads hv.root rootLocal_K).1 hpicked
      · have hsame := root_unmoved hm hm' hstep ht
        refine ⟨by rw [hsame], ?_⟩
        have hpc : g'.root = g.root := congrArg RootLocal.pc hsame
        rw [hpc]
        exact hpicked
    simpa [Progress.rootLocal, hpicked, hsp.2] using hsp.1
  · intro hall
    obtain ⟨q', hq', hgrow⟩ := Log.accepted_prefix hstep hm.rootChannel hm.samplesort_lt
    obtain rfl : g'.rootLog set = q' := Option.some.inj (hm'.rootChannel.symm.trans hq')
    exact subs_eq_of_prefix hsep hv hv' hgrow (hv.all_subs hall)

/-! ## The arrays in a step -/

/-- **The root's step**. -/
theorem holds_rootStep (hadm : set.Admitted) (hsep : set.Separate) (hv : g.Valid set)
    (hm : g.Matches set a) (hm' : g'.Matches set a') (hf : Follows set g g')
    (hstep : a.step (Log.medium tagOf) (code set) samplesort = some a')
    (hleads : (rootMove set (g.rootLocal set)).Leads (.root (g'.rootLocal set)))
    (hread : ∀ i < g.root.created set.k, (g.bucket i).stage = 4 →
      ¬(g.rootLocal set).MayRead (set.valuesToPropagate (bucketId i)))
    (h : g.Holds set arrays) :
    ∃ arrays', arrays.rootStep set (g.rootLocal set) = some arrays' ∧ g'.Holds set arrays' := by
  have hbucket : ∀ i < g.root.created set.k, g'.bucket i = g.bucket i := fun i hi =>
    bucket_unmoved hm hm' hstep hf.created_le hi (bucketTask_ne_samplesort i)
  cases (rootMove_next hadm hleads hv.root rootLocal_K).2 with
  | idle hidle hgathered =>
    exact ⟨arrays, hidle arrays, h.frame hv hf (fun i hi => by rw [hbucket i hi]) hgathered⟩
  | @gather ki kj hpc hki hkj hpc' =>
    have hpc : g.root = .gather ki kj := hpc
    have hK : (g.rootLocal set).this.K = some set.K := rootLocal_K (by rw [hpc]; rfl)
    have hlive : ∀ i, g.subs[kj]? = some i → (g.bucket i).stage < 4 := by
      intro i hi
      have hcreated := ((hv.mem_subs i).mp (List.mem_of_getElem? hi)).1
      refine Classical.byContradiction fun hge => ?_
      have hle : (g.bucket i).stage ≤ 4 := by
        cases g.bucket i with
        | receive call point =>
          simp only [BucketPc.stage]
          split <;> omega
        | _ => simp only [BucketPc.stage]; omega
      -- the root is about to read this array
      apply hread i hcreated (by omega)
      simp only [RootLocal.MayRead, Progress.rootLocal, hpc]
      refine ⟨set.K, kj, subMsg set i, ?_, ?_, rfl, ?_⟩
      · simpa [Progress.rootLocal, hpc] using hK
      · simp [rootThis, RootPc.arrived, arrivedArr, hkj, hi]
      · have hk := hadm.k_eq
        omega
    obtain ⟨arrays', hgather, hholds⟩ :=
      h.gatherStep hsep hv hf hpc hpc' hki hkj hlive hbucket
    refine ⟨arrays', ?_, hholds⟩
    have hpcLocal : (g.rootLocal set).pc = .gather ki kj := hpc
    simp only [Arrays.rootStep, hpcLocal, hK, hadm.lt_iff, hki, hkj, and_self, if_true]
    exact hgather

/-- Behind the fifth message for a bucket its arrays are complete. -/
theorem RootPc.gathered_of_sentTo {k i : Nat} {pc : RootPc} (h : 5 ≤ pc.sentTo i) :
    pc.gathered k i = some k := by
  cases pc with
  | receive call point =>
    cases call with
    | done ki => rfl
    | bar | refIntarray | subArray _ =>
      simp only [sentTo] at h
      omega
  | gather j kj =>
    simp only [sentTo] at h
    split at h
    case isTrue hlt => exact if_pos hlt
    case isFalse => omega
  | waitDone | finished => rfl
  | sample | create _ | waitSubArrays _ =>
    simp only [sentTo] at h
    omega
  | topology _ _ | dataRef _ | splitters _ | getSubArray _ =>
    simp only [sentTo] at h
    split at h <;> omega

theorem BucketPc.eq_sendDone {pc : BucketPc} (h : pc.stage = 2) : pc = .sendDone := by
  cases pc with
  | receive call point =>
    simp only [stage] at h
    split at h <;> cases h
  | sendDone => rfl
  | propagate | leave | returned => cases h

/-- **Bucket** `j` has been sent its share, so that the root has gathered it: it can put its array
    together. -/
theorem holds_rebuild (hadm : set.Admitted) (hv : g.Valid set) (hf : Follows set g g')
    {j : Nat} (hj : j < g.root.created set.k) (hsent : 5 ≤ g.root.sentTo j)
    (hself : BucketHolds set g'.sp g'.subs j 1 arrays) (h : g.Holds set arrays) :
    ∃ arrays', arrays.setSubArray (bucketThis set g'.sp j 5) = some arrays' ∧
      arrays.AgreeOff set j arrays' ∧ BucketHolds set g'.sp g'.subs j 2 arrays' := by
  have hjk := Nat.lt_of_lt_of_le hj hv.created_le
  have hsp := hf.sp (RootPc.picked_of_created hj)
  have hgathered := RootPc.gathered_of_sentTo (k := set.k) hsent
  obtain ⟨-, hsubs⟩ := hf.gathered hgathered
  have hlength := hv.all_subs (RootPc.allArrived_of_gathered hgathered)
  have htake : g'.subs.take set.k = g'.subs :=
    List.take_of_length_le (by rw [hsubs, hlength])
  have hcounts := h.counts j hjk _ hgathered
  have hvalues := h.values j hjk _ hgathered
  rw [← hsubs, htake] at hcounts hvalues
  rw [← hsp] at hcounts
  -- every column has been published
  have hcells : ∀ i ∈ g'.subs, arrays.cells ⟨bucketId i, j⟩ = some (column set g'.sp i j) := by
    intro i hi
    rw [hsubs] at hi
    obtain ⟨hcreated, hpublished⟩ := (hv.mem_subs i).mp hi
    rw [hsp]
    exact (h.bucket i hcreated).cells (BucketPc.sentSub_iff.mp hpublished) j hjk
  exact holds_setSubArray hadm hself (by rw [hsubs, hlength]) hcounts hvalues hcells

/-- **A bucket's step**. -/
theorem holds_bucketStep (hadm : set.Admitted) (hsep : set.Separate) (hv : g.Valid set)
    (hm : g.Matches set a) (hv' : g'.Valid set) (hm' : g'.Matches set a') (hf : Follows set g g')
    {j : Nat} (hj : j < g.root.created set.k)
    (hstep : a.step (Log.medium tagOf) (code set) (bucketTask j) = some a')
    (hleads : (bucketMove set (g.bucketLocal set j)).Leads (.bucket (g'.bucketLocal set j)))
    (h : g.Holds set arrays) :
    ∃ arrays', arrays.bucketStep set uninit (g.bucket j) (g.bucketLocal set j).this
        (g'.bucketLocal set j).this = some arrays' ∧ g'.Holds set arrays' := by
  have hjk := Nat.lt_of_lt_of_le hj hv.created_le
  have hroot : g'.root = g.root := congrArg RootLocal.pc
    (root_unmoved hm hm' hstep (samplesort_ne_bucketTask j))
  have hother : ∀ i < g.root.created set.k, i ≠ j → g'.bucket i = g.bucket i :=
    fun i hi hij => bucket_unmoved hm hm' hstep hf.created_le hi
      fun heq => hij (bucketTask_inj.mp heq)
  have hsp := hf.sp (RootPc.picked_of_created hj)
  have hself := (h.bucket j hj).follows hv hf hj
  have hvalid := hv.bucket j hj
  have hcall : ∀ call point, (g.bucketLocal set j).pc = .receive call point → call ≤ 4 := by
    intro call point hpc
    have hpc : g.bucket j = .receive call point := hpc
    rw [hpc] at hvalid
    exact hvalid.1
  cases bucketMove_next hleads hcall with
  | propagate hpc hstage =>
    have hpc : g.bucket j = .propagate := hpc
    have hthis : (g.bucketLocal set j).this = bucketThis set g'.sp j 4 := by
      rw [hsp]
      show bucketThis set g.sp j (g.bucket j).handled = _
      rw [hpc]
      rfl
    obtain ⟨arrays', hwrite, hoff, hholds⟩ :=
      holds_propagate hadm uninit g'.sp g'.subs hjk arrays
    rw [hpc, hthis]
    refine ⟨arrays', hwrite, h.bucketStep hadm hsep hv hf hjk hoff hroot hother ?_⟩
    rwa [show (g'.bucket j).stage = 1 from hstage]
  | rebuild tag hpc hstage =>
    have hpc : g.bucket j = .receive 4 (.clone tag) := hpc
    have hstage : (g'.bucket j).stage = 2 := hstage
    have hpc' := BucketPc.eq_sendDone hstage
    have hthis : (g'.bucketLocal set j).this = bucketThis set g'.sp j 5 := by
      show bucketThis set g'.sp j (g'.bucket j).handled = _
      rw [hpc']
      rfl
    have hsent : 5 ≤ g.root.sentTo j := by
      have hvalid' := hv'.bucket j (by rw [hroot]; exact hj)
      rw [hpc', hroot] at hvalid'
      exact hvalid'
    rw [hpc] at hself
    obtain ⟨arrays', hwrite, hoff, hholds⟩ := holds_rebuild hadm hv hf hj hsent hself h
    rw [hpc, hthis]
    refine ⟨arrays', hwrite, h.bucketStep hadm hsep hv hf hjk hoff hroot hother ?_⟩
    rwa [hstage]
  | sort hpc hstage =>
    have hpc : g.bucket j = .sendDone := hpc
    have hid : (g.bucketLocal set j).this.taskID = bucketId j := by
      show (bucketThis set g.sp j (g.bucket j).handled).taskID = _
      rw [hpc]
      exact (bucketThis_final set g.sp j).1
    rw [hpc] at hself ⊢
    obtain ⟨arrays', hwrite, hoff, hholds⟩ := holds_finalSort hself hid
    refine ⟨arrays', hwrite, h.bucketStep hadm hsep hv hf hjk hoff hroot hother ?_⟩
    rwa [show (g'.bucket j).stage = 3 from hstage]
  | leave hpc hstage =>
    have hpc : g.bucket j = .leave := hpc
    have hid : (g.bucketLocal set j).this.taskID = bucketId j := by
      show (bucketThis set g.sp j (g.bucket j).handled).taskID = _
      rw [hpc]
      exact (bucketThis_final set g.sp j).1
    rw [hpc] at hself ⊢
    obtain ⟨hoff, hholds⟩ := holds_leave hself hid
    refine ⟨_, rfl, h.bucketStep hadm hsep hv hf hjk hoff hroot hother ?_⟩
    rwa [show (g'.bucket j).stage = 4 from hstage]
  | idle hidle hstage =>
    refine ⟨arrays, bucketStep_idle hidle .., h.frame hv hf ?_ fun _ _ _ hn => hroot ▸ hn⟩
    intro i hi
    by_cases hij : i = j
    · subst hij
      exact hstage
    · rw [hother i hi hij]
  | skip point hpc hreceived hdone =>
    -- it would have handled four messages and five
    have hpc : g.bucket j = .receive 4 point := hpc
    have hdone : g'.bucket j = .sendDone := hdone
    have hlengths := congrArg List.length hreceived
    simp only [Progress.bucketLocal, hpc, hdone, BucketPc.handled, script, List.length_take,
      List.length_cons, List.length_nil] at hlengths
    omega

end Step

end TaskSystem.SampleSort
