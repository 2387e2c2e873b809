import TaskSystem.Tasks.SampleSort.Completion

/-!
# Buckets That Return Early

With one bucket the root has read all arrays before the bucket gets its share. With two or more
it has not, and from every state of a sort that has not come so far its tasks can take their
steps so that the first bucket returns right before the root reads its array for the last time.

## Contents

- `pickedSplitters_nil`, `reachable_sampling`: without data the root never creates a bucket
- `Placed.alive_of_one`: one bucket
- `RootLocal.AtLastRead`, `rootMove_mayRead`: the root comes to its last read step by step
- `Placed.exists_atLastRead`, `Placed.exists_returned`: runs to there, and of a bucket to its end
- `published_alive_iff`: for which numbers of buckets the arrays are alive in every run
-/

namespace TaskSystem.SampleSort

open Library

variable {set : Setting} {g : Progress} {a : Net Local (Log AnyMsg)} {s s' : Net Local Mailbox}
  {map : Mapping} {t : Nat}

/-! ## No data -/

/-- There is no number from 0 to -1 to draw. -/
theorem randomAtMost_neg_one (draws : List Draw) : randomAtMost (-1) draws = none := by
  have hnot : ∀ x : Draw, ¬Accepts (-1) x := by
    intro x haccepts
    have hdefect : numRand - defect (-1) = 0 := by decide
    apply haccepts
    rw [hdefect]
    exact Int.natCast_nonneg _
  induction draws with
  | nil => rfl
  | cons x draws ih => rw [randomAtMost, if_neg (hnot x), ih]

theorem pickedSplitters_nil (K : Int32) : set.pickedSplitters [] K = none := by
  have hsamples : ∀ n draws, gatherSamples [] (n + 1) draws = none := by
    intro n draws
    have hmax : (([] : List Int32).length : Int) - 1 = -1 := rfl
    simp only [gatherSamples, hmax, randomAtMost_neg_one]
  have hnone := hsamples 1499 set.draws
  rw [Setting.pickedSplitters, sampleSize, hnone, Option.bind_none]

/-- The root without data goes on drawing samples, once it has come to it. -/
theorem rootMove_sampling (hempty : set.data = []) {r r' : RootLocal}
    (h : (rootMove set r).Leads (.root r')) (hr : r.pc.picked = false) :
    r'.pc.picked = false := by
  cases hpc : r.pc with
  | receive call point =>
    rw [hpc] at hr
    obtain ⟨-, hnext⟩ := rootReceive_leads hpc h
    cases call with
    | bar | refIntarray => rcases hnext with ⟨p, hp⟩ | hp <;> rw [hp] <;> rfl
    | subArray ki | done ki => cases hr
  | sample =>
    simp only [rootMove, hpc] at h
    split at h
    case h_2 => exact h.elim
    case h_1 K size data _ _ _ =>
      simp only [RootLocal.phaseMove] at h
      split at h
      · exact h.elim
      · split at h
        · exact h.elim
        case h_2 values harray =>
          have hnil : values = [] := by
            unfold Setting.arrayAt at harray
            split at harray
            · rw [← Option.some.inj harray, hempty]
            · cases harray
          rw [hnil, pickedSplitters_nil] at h
          cases h
          rfl
  | _ =>
    rw [hpc] at hr
    cases hr

/-- Without data, splitters are never picked. -/
theorem reachable_sampling (hempty : set.data = []) (h : (sortNetwork set map).Reachable s) :
    ∀ r, s.tasks samplesort = some (.root r) → r.pc.picked = false := by
  refine System.Reachable.invariant (P := fun s => ∀ r, s.tasks samplesort = some (.root r) →
    r.pc.picked = false) ?_ ?_ h
  · rintro s rfl r hr
    obtain rfl := Local.root.inj (Option.some.inj hr)
    rfl
  · intro s t s' hs hstep r' hr'
    obtain ⟨l, hl, hmove⟩ := Option.bind_eq_some_iff.mp hstep
    obtain ⟨⟨l', hleads, hl'⟩, -, hothers⟩ := Net.perform_cases hmove
    by_cases ht : samplesort = t
    · rw [← ht] at hl hl'
      obtain rfl := Option.some.inj (hl'.symm.trans hr')
      obtain ⟨r, rfl, -⟩ := code_leads_root hleads
      exact rootMove_sampling hempty hleads (hs r hl)
    · rcases hothers samplesort ht with hsame | ⟨child, next, hmv, -, hnew⟩
      · exact hs r' (by rw [← hsame, hr'])
      · -- a task that is created is a bucket
        rw [code_create hmv] at hnew
        cases hr'.symm.trans hnew

/-! ## One bucket -/

/-- What the root has allocated has a place for each bucket. -/
theorem Progress.length_bucketsValuesArr (g : Progress) (set : Setting) :
    (g.rootLocal set).this.bucketsValuesArr.length ≤ set.k := by
  show ((g.root.arrived set.k).elim [] (arrivedArr set g.subs)).length ≤ set.k
  cases g.root.arrived set.k with
  | none => exact Nat.zero_le _
  | some n => exact Nat.le_of_eq (length_arrivedArr set g.subs n)

/-- A bucket that has returned has been sent its share. -/
theorem Placed.sentTo_of_returned (h : Placed set map g a s) {i : Nat}
    (hi : i < g.root.created set.k) (hreturned : g.bucket i = .returned) :
    5 ≤ g.root.sentTo i := by
  have hvalid := h.valid.bucket i hi
  rw [hreturned] at hvalid
  exact hvalid

/-- **One bucket** gets its share when the root has read everything. -/
theorem Placed.alive_of_one (h : Placed set map g a s) (hone : set.k = 1) :
    PublishedAlive set s := by
  intro r K ki kj m t b hr hK hpc hki _ _ hb _ hreturned
  obtain rfl := Local.root.inj (Option.some.inj (hr.symm.trans h.rootTask))
  have hpc' : g.root = .gather ki kj := hpc
  have hcreated : g.root.created set.k = 1 := by rw [hpc', ← hone]; rfl
  rw [h.tracks.tasks] at hb
  obtain ⟨i, -, hi, rfl⟩ := h.placed.bucket_eq hb
  have hsent := h.sentTo_of_returned hi hreturned
  obtain rfl : i = 0 := by omega
  -- the round for this bucket is not over
  have hK' : K = set.K := by
    have hknown : (g.rootLocal set).this.K = some set.K := by
      simp only [Progress.rootLocal, rootThis, hpc']
      rfl
    exact Option.some.inj (hK.symm.trans hknown)
  rw [hK', h.admitted.lt_iff, hone] at hki
  obtain rfl : ki = 0 := Nat.lt_one_iff.mp hki
  have hfour : g.root.sentTo 0 = 4 := by rw [hpc']; rfl
  omega

/-! ## The last read of an array -/

/-- The root is about to read the array at the address, in the last round. -/
def RootLocal.AtLastRead (r : RootLocal) (values : UInt64) : Prop :=
  ∃ ki kj K m, r.pc = .gather ki kj ∧ r.this.K = some K ∧ (ki : Int) + 1 = K.toInt ∧
    r.this.bucketsValuesArr[kj]? = some (some m) ∧ m.values = values

/-- **Phase 3**: in the last round the array at `kj` is read for the last time, all others are still
    ahead. -/
theorem rootGather_mayRead {r r' : RootLocal} {values : UInt64} {ki kj : Nat}
    (hpc : r.pc = .gather ki kj) (h : (rootMove set r).Leads (.root r'))
    (hread : r.MayRead values)
    (hlen : ∀ K, r.this.K = some K → (r.this.bucketsValuesArr.length : Int) ≤ K.toInt) :
    r.AtLastRead values ∨ r'.MayRead values := by
  simp only [RootLocal.MayRead, hpc] at hread
  obtain ⟨K, j, m, hK, hm, hvalues, hahead⟩ := hread
  have hj : (j : Int) < K.toInt := by
    have hlt := (List.getElem?_eq_some_iff.mp hm).1
    have hle := hlen K hK
    omega
  simp only [rootMove, hpc, hK] at h
  split at h
  case h_2 => exact h.elim
  case h_1 K' size data hK' _ _ =>
    obtain rfl := Option.some.inj hK'
    simp only [RootLocal.phaseMove] at h
    split at h
    case isTrue hki =>
      split at h
      case isTrue hkj =>
        split at h
        · cases h
          -- the array read in this step is the one at `kj`
          by_cases hlast : (ki : Int) + 1 = K.toInt ∧ kj = j
          · obtain ⟨hround, rfl⟩ := hlast
            exact .inl ⟨ki, kj, K, m, hpc, hK, hround, hm, hvalues⟩
          · refine .inr ⟨K, j, m, hK, hm, hvalues, ?_⟩
            omega
        · exact h.elim
      case isFalse hkj =>
        -- all arrays have been read for this bucket, so there is a round more
        obtain ⟨sent, heq⟩ := sendTo_leads h
        cases heq
        refine .inr ⟨K, j, m, hK, hm, hvalues, ?_⟩
        push_cast
        omega
    -- phase 3 is not over: an array is still ahead
    case isFalse hki => omega

/-- **Step of the root**: what it may still read, it may still read after the step, unless this
    is the last time it does. -/
theorem rootMove_mayRead {r r' : RootLocal} {values : UInt64}
    (h : (rootMove set r).Leads (.root r')) (hread : r.MayRead values)
    (hlen : ∀ K, r.this.K = some K → (r.this.bucketsValuesArr.length : Int) ≤ K.toInt)
    (hnew : r'.pc = .gather 0 0 → r'.MayRead values) :
    r.AtLastRead values ∨ r'.MayRead values := by
  cases hpc : r.pc with
  | receive call point =>
    obtain ⟨-, hnext⟩ := rootReceive_leads hpc h
    refine .inr ?_
    -- before phase 3 all arrays are still to be read, and behind it none is
    cases call with
    | done ki =>
      simp only [RootLocal.MayRead, hpc] at hread
    | bar | refIntarray | subArray ki =>
      rcases hnext with ⟨p, hp⟩ | hp
      · simp only [RootLocal.MayRead, hp]
      · simp only [RootLocal.MayRead, hp, RootPc.after]
  | gather ki kj => exact rootGather_mayRead hpc h hread hlen
  | waitSubArrays ki =>
    simp only [rootMove, hpc] at h
    refine .inr ?_
    split at h
    case h_2 => exact h.elim
    case h_1 =>
      simp only [RootLocal.phaseMove] at h
      split at h
      · cases h
        trivial
      · cases h
        exact hnew rfl
  | waitDone ki | finished =>
    simp only [RootLocal.MayRead, hpc] at hread
  | sample =>
    simp only [rootMove, hpc] at h
    refine .inr ?_
    split at h
    case h_2 => exact h.elim
    case h_1 =>
      simp only [RootLocal.phaseMove] at h
      split at h
      · exact h.elim
      · split at h
        · exact h.elim
        · split at h <;> cases h <;> trivial
  | create i =>
    simp only [rootMove, hpc] at h
    refine .inr ?_
    split at h
    case h_2 => exact h.elim
    case h_1 =>
      simp only [RootLocal.phaseMove] at h
      split at h
      · obtain ⟨id, heq⟩ := h
        cases heq
        trivial
      · cases h
        trivial
  | topology i | dataRef i | splitters i | getSubArray i =>
    simp only [rootMove, hpc] at h
    refine .inr ?_
    split at h
    case h_2 => exact h.elim
    case h_1 =>
      simp only [RootLocal.phaseMove] at h
      split at h
      · obtain ⟨sent, heq⟩ := sendTo_leads h
        cases heq
        trivial
      · cases h
        trivial

/-- When all sub arrays have arrived, so have those of bucket `i`. -/
theorem Progress.Valid.arrived (hv : g.Valid set) (hall : g.root.AllArrived) {i : Nat}
    (hi : i < set.k) :
    ∃ kj : Nat, (g.rootLocal set).this.bucketsValuesArr[kj]? = some (some (subMsg set i)) := by
  -- as many messages as buckets, from different buckets
  have hlen := hv.all_subs hall
  have hmem : i ∈ g.subs :=
    (perm_range_of_nodup hv.subs_nodup hv.subs_lt hlen).mem_iff.mpr (List.mem_range.mpr hi)
  obtain ⟨kj, hkj⟩ := List.mem_iff_getElem?.mp hmem
  have hlt : kj < set.k := hlen ▸ (List.getElem?_eq_some_iff.mp hkj).1
  have harrived : g.root.arrived set.k = some set.k := by
    cases hpc : g.root with
    | receive call point =>
      rw [hpc] at hall
      cases call with
      | done ki => rfl
      | _ => exact hall.elim
    | gather | waitDone | finished => rfl
    | _ =>
      rw [hpc] at hall
      exact hall.elim
  refine ⟨kj, ?_⟩
  simp only [Progress.rootLocal, rootThis, harrived, Option.elim_some, arrivedArr,
    List.getElem?_map, List.getElem?_range hlt, Option.map_some, hlt, if_true, hkj]

/-! ## Runs to a dead array -/

/-- The root's local state changes only in its own steps. -/
theorem Placed.root_unmoved (h : Placed set map g a s) (ht : samplesort ≠ t)
    (hstep : s.step (mailboxes map) (code set) t = some s') :
    s'.tasks samplesort = s.tasks samplesort := by
  obtain ⟨l, hl, hmove⟩ := Option.bind_eq_some_iff.mp hstep
  obtain ⟨-, -, hothers⟩ := Net.perform_cases hmove
  rcases hothers samplesort ht with hsame | ⟨-, -, -, hid, -⟩
  · exact hsame
  · rw [h.tracks.nextId, h.placed.nextId] at hid
    exact absurd hid (samplesort_ne_bucketTask _)

/-- **Step of the sort**, as long as the root may still read what bucket `i` has published. -/
theorem Placed.step_mayRead (h : Placed set map g a s) (htwo : 2 ≤ set.k) {i : Nat} (hi : i < set.k)
    (hread : (g.rootLocal set).MayRead (set.valuesToPropagate (bucketId i)))
    (hnot : ¬(g.rootLocal set).AtLastRead (set.valuesToPropagate (bucketId i)))
    (hstep : s.step (mailboxes map) (code set) t = some s') :
    ∃ g' a', Placed set map g' a' s' ∧
      (g'.rootLocal set).MayRead (set.valuesToPropagate (bucketId i)) := by
  obtain ⟨g', a', h'⟩ := h.step hstep
  refine ⟨g', a', h', ?_⟩
  by_cases ht : samplesort = t
  · subst ht
    obtain ⟨l, hl, hmove⟩ := Option.bind_eq_some_iff.mp hstep
    obtain ⟨⟨l', hleads, hl'⟩, -, -⟩ := Net.perform_cases hmove
    obtain rfl := Option.some.inj (hl.symm.trans h.rootTask)
    obtain rfl := Option.some.inj (hl'.symm.trans h'.rootTask)
    have hk := h.admitted.k_eq
    -- a step of the root, which knows `K` if it has read any array
    refine (rootMove_mayRead hleads hread ?_ ?_).resolve_left hnot
    · intro K hK
      have hle := g.length_bucketsValuesArr set
      have hK' : K = set.K := by
        simp only [Progress.rootLocal, rootThis] at hK
        split at hK
        · exact (Option.some.inj hK).symm
        · cases hK
      rw [hK']
      omega
    · -- in its first round the root has all arrays still to read
      intro hpc
      have hpc' : g'.root = .gather 0 0 := hpc
      obtain ⟨kj, hkj⟩ := h'.valid.arrived (by rw [hpc']; trivial) hi
      have hknown : (g'.rootLocal set).this.K = some set.K := by
        simp only [Progress.rootLocal, rootThis, hpc']
        rfl
      simp only [RootLocal.MayRead, hpc]
      exact ⟨set.K, kj, _, hknown, hkj, rfl, .inl (by omega)⟩
  -- any other task leaves the root's local state alone
  · have hsame := h.root_unmoved ht hstep
    rw [h.rootTask, h'.rootTask] at hsame
    rw [Local.root.inj (Option.some.inj hsame)]
    exact hread

/-- The tasks and the queues are where some progress puts them that meets the condition. -/
def PlacedWith (set : Setting) (map : Mapping) (P : Progress → Prop) (s : Net Local Mailbox) :
    Prop :=
  ∃ g a, Placed set map g a s ∧ P g

/-- **To the last read**: while the root may still read what a bucket has published, the tasks
    can go on, without a bucket returning too early, until it is about to do so for the last
    time. -/
theorem Placed.exists_atLastRead (h : Placed set map g a s) {splitters : List Int32}
    (hpicked : set.pickedSplitters set.data set.K = some splitters) (htwo : 2 ≤ set.k) {i : Nat}
    (hi : i < set.k) (hread : (g.rootLocal set).MayRead (set.valuesToPropagate (bucketId i))) :
    ∃ ts s', (sortNetwork set map).Along (KeepsUnread set) s ts ∧
      (sortNetwork set map).runFrom s ts = some s' ∧ PlacedWith set map
        (fun g => (g.rootLocal set).AtLastRead (set.valuesToPropagate (bucketId i))) s' := by
  generalize hlast : (fun g : Progress =>
    (g.rootLocal set).AtLastRead (set.valuesToPropagate (bucketId i))) = Last
  generalize hmay : (fun g : Progress =>
    (g.rootLocal set).MayRead (set.valuesToPropagate (bucketId i))) = May
  -- steps that keep what may still be read, as long as the last read is not next
  have hkeep : ∀ s (t : Nat) s', PlacedWith set map May s →
      (¬PlacedWith set map Last s ∧ KeepsUnread set s t) →
      (sortNetwork set map).step s t = some s' → PlacedWith set map May s' := by
    subst hlast hmay
    rintro s t s' ⟨g, a, h, hread⟩ ⟨hnot, -⟩ hstep
    exact h.step_mayRead htwo hi hread (fun hlast => hnot ⟨g, a, h, hlast⟩) hstep
  -- the root goes on, so that it comes nearer to it
  have hless : ∀ s, PlacedWith set map May s → ¬PlacedWith set map Last s →
      ∃ t s', (¬PlacedWith set map Last s ∧ KeepsUnread set s t) ∧
        (sortNetwork set map).step s t = some s' ∧ sortRank set s' < sortRank set s := by
    subst hmay
    rintro s ⟨g, a, h, hread⟩ hnot
    have hgoing : g.root ≠ .finished := by
      intro hpc
      have hpc' : (g.rootLocal set).pc = .finished := hpc
      simp only [RootLocal.MayRead, hpc'] at hread
    obtain ⟨t, hkeeps, s', hs', hlt⟩ := h.going_advances hpicked hgoing
    exact ⟨t, s', ⟨hnot, hkeeps⟩, hs', hlt⟩
  obtain ⟨ts, s', halong, hrun, hfinal, -⟩ :=
    System.exists_final_along (sortRank set) _ hkeep hless ⟨g, a, h, hmay ▸ hread⟩
  exact ⟨ts, s', halong.mono fun _ _ => And.right, hrun, hfinal⟩

/-- **To the end of the root**, with numbers enough to draw its samples. -/
theorem Placed.exists_finished (h : Placed set map g a s) {splitters : List Int32}
    (hpicked : set.pickedSplitters set.data set.K = some splitters) :
    ∃ ts s', (sortNetwork set map).runFrom s ts = some s' ∧
      PlacedWith set map (fun g => g.root = .finished) s' := by
  have hkeep : ∀ s (t : Nat) s', PlacedWith set map (fun _ => True) s → True →
      (sortNetwork set map).step s t = some s' → PlacedWith set map (fun _ => True) s' := by
    rintro s t s' ⟨g, a, h, -⟩ - hstep
    obtain ⟨g', a', h'⟩ := h.step hstep
    exact ⟨g', a', h', trivial⟩
  have hless : ∀ s, PlacedWith set map (fun _ => True) s →
      ¬PlacedWith set map (fun g => g.root = .finished) s →
      ∃ t s', True ∧ (sortNetwork set map).step s t = some s' ∧
        sortRank set s' < sortRank set s := by
    rintro s ⟨g, a, h, -⟩ hnot
    obtain ⟨t, -, s', hs', hlt⟩ :=
      h.going_advances hpicked fun hpc => hnot ⟨g, a, h, hpc⟩
    exact ⟨t, s', trivial, hs', hlt⟩
  obtain ⟨ts, s', -, hrun, hfinal, -⟩ :=
    System.exists_final_along (sortRank set) _ hkeep hless ⟨g, a, h, trivial⟩
  exact ⟨ts, s', hrun, hfinal⟩

/-- A bucket that has been sent its share has a step until it has returned. -/
theorem Placed.lowers_of_sent (h : Placed set map g a s) {i : Nat}
    (hi : i < g.root.created set.k) (hsent : 5 ≤ g.root.sentTo i)
    (hnot : g.bucket i ≠ .returned) :
    ∃ s', s.step (mailboxes map) (code set) (bucketTask i) = some s' ∧
      sortRank set s' < sortRank set s := by
  by_cases hdone : (g.bucket i).SentDone
  · -- only its last step is left
    have hbucket : s.tasks (bucketTask i) = some (.bucket (g.bucketLocal set i)) := by
      rw [h.tracks.tasks, h.placed.bucketTasks i hi]
    have hleave : (g.bucketLocal set i).pc = .leave := by
      show g.bucket i = .leave
      cases hb : g.bucket i with
      | leave => rfl
      | returned => exact absurd hb hnot
      | _ =>
        rw [hb] at hdone
        exact hdone.elim
    apply h.lowers_of_busy hbucket
    · intro hstop
      cases hleave.symm.trans (bucketMove_stop hstop)
    · rintro ⟨call, hpoll⟩
      cases hleave.symm.trans hpoll
  · refine (h.bucket_advances hi hdone ?_).lowers
    intro call point hcall
    have hvalid := h.valid.bucket i hi
    rw [hcall] at hvalid
    have hle : call ≤ 4 := hvalid.1
    omega

/-- **To the end of a bucket**: once it has been sent its share, it can return before any other
    task goes on. -/
theorem Placed.exists_returned (h : Placed set map g a s) {i : Nat}
    (hi : i < g.root.created set.k) (hsent : 5 ≤ g.root.sentTo i) :
    ∃ ts s', (sortNetwork set map).runFrom s ts = some s' ∧ PlacedWith set map
      (fun g' => g'.rootLocal set = g.rootLocal set ∧ g'.bucket i = .returned) s' := by
  have hkeep : ∀ s t s', PlacedWith set map (fun g' => g'.rootLocal set = g.rootLocal set) s →
      t = bucketTask i → (sortNetwork set map).step s t = some s' →
      PlacedWith set map (fun g' => g'.rootLocal set = g.rootLocal set) s' := by
    rintro s t s' ⟨g₁, a₁, h₁, hroot⟩ rfl hstep
    obtain ⟨g₂, a₂, h₂⟩ := h₁.step hstep
    have hsame := h₁.root_unmoved (samplesort_ne_bucketTask i) hstep
    rw [h₁.rootTask, h₂.rootTask] at hsame
    exact ⟨g₂, a₂, h₂, (Local.root.inj (Option.some.inj hsame)).trans hroot⟩
  have hless : ∀ s, PlacedWith set map (fun g' => g'.rootLocal set = g.rootLocal set) s →
      ¬PlacedWith set map
        (fun g' => g'.rootLocal set = g.rootLocal set ∧ g'.bucket i = .returned) s →
      ∃ t s', t = bucketTask i ∧ (sortNetwork set map).step s t = some s' ∧
        sortRank set s' < sortRank set s := by
    rintro s ⟨g₁, a₁, h₁, hroot⟩ hnot
    have hpc : g₁.root = g.root := congrArg RootLocal.pc hroot
    obtain ⟨s', hs', hlt⟩ := h₁.lowers_of_sent (by rwa [hpc]) (by rwa [hpc])
      fun hreturned => hnot ⟨g₁, a₁, h₁, hroot, hreturned⟩
    exact ⟨_, s', rfl, hs', hlt⟩
  obtain ⟨ts, s', -, hrun, hfinal, -⟩ :=
    System.exists_final_along (sortRank set) _ hkeep hless ⟨g, a, h, rfl⟩
  exact ⟨ts, s', hrun, hfinal⟩

/-- **Two buckets or more**: some run leads to a read of an array whose bucket has returned. -/
theorem exists_not_alive (hadm : set.Admitted) {splitters : List Int32}
    (hpicked : set.pickedSplitters set.data set.K = some splitters) (htwo : 2 ≤ set.k) :
    ∃ s, (sortNetwork set map).Reachable s ∧ ¬PublishedAlive set s := by
  have hzero : 0 < set.k := Nat.lt_of_lt_of_le Nat.zero_lt_two htwo
  -- the root's last round is not that of the first bucket, which has got its share before
  obtain ⟨ts, s, -, hrun, g, a, h, hlast⟩ :=
    (Placed.start hadm map).exists_atLastRead hpicked htwo hzero trivial
  obtain ⟨ki, kj, K, m, hpc, hK, hround, hm, hvalues⟩ := id hlast
  have hpc' : g.root = .gather ki kj := hpc
  have hk := hadm.k_eq
  have hK' : K = set.K := by
    have hknown : (g.rootLocal set).this.K = some set.K := by
      simp only [Progress.rootLocal, rootThis, hpc']
      rfl
    exact Option.some.inj (hK.symm.trans hknown)
  have hki : 0 < ki := by
    rw [hK'] at hround
    omega
  have hcreated : g.root.created set.k = set.k := by rw [hpc']; rfl
  have hsent : g.root.sentTo 0 = 5 := by
    rw [hpc']
    exact if_pos hki
  -- the first bucket returns now, before the root goes on
  obtain ⟨ts', s', hrun', g', a', h', hroot, hreturned⟩ :=
    h.exists_returned (by rw [hcreated]; exact hzero) (Nat.le_of_eq hsent.symm)
  have hreach : (sortNetwork set map).Reachable
      (.start (mailboxes map) initialTasks (samplesort + 1)) := .init rfl
  refine ⟨s', (hreach.runFrom ts hrun).runFrom ts' hrun', ?_⟩
  intro halive
  have hpc'' : g'.root = g.root := congrArg RootLocal.pc hroot
  have hbucket : s'.tasks (bucketTask 0) = some (.bucket (g'.bucketLocal set 0)) := by
    rw [h'.tracks.tasks, h'.placed.bucketTasks 0 (by rw [hpc'', hcreated]; exact hzero)]
  have hid : (g'.bucketLocal set 0).this.taskID = bucketId 0 := by
    show (bucketThis set g'.sp 0 (g'.bucket 0).handled).taskID = _
    rw [hreturned]
    exact (bucketThis_final set g'.sp 0).1
  have hkj : (kj : Int) < K.toInt := by
    have hlt := (List.getElem?_eq_some_iff.mp hm).1
    have hle := g.length_bucketsValuesArr set
    rw [hK']
    omega
  -- the root's next step reads from the array that is gone
  rw [← hroot] at hpc hK hm
  exact halive _ K ki kj m _ _ h'.rootTask hK hpc (by omega) hkj hm hbucket
    (by rw [hid, hvalues]) hreturned

/-- **When the arrays are alive**: the root reads no array of a bucket that has returned, whatever
    order the tasks take their steps in, exactly if there is one bucket, or there are no data to
    draw samples from. -/
theorem published_alive_iff (set : Setting) (map : Mapping) (hone : 1 ≤ set.K.toInt)
    (hmax : set.K.toInt ≤ 98) (hint : set.data.length ≤ 2147483647)
    (hpicks : set.data ≠ [] →
      ∃ splitters, set.pickedSplitters set.data set.K = some splitters) :
    (∀ s, (sortNetwork set map).Reachable s → PublishedAlive set s) ↔
      set.K = 1 ∨ set.data = [] := by
  have hk : set.K = 1 ↔ set.k = 1 := by
    rw [← Int32.toInt_inj, Setting.k]
    simp only [Int32.toInt_one]
    omega
  constructor
  · intro halive
    by_contra hnot
    obtain ⟨hK, hdata⟩ := not_or.mp hnot
    obtain ⟨splitters, hpicked⟩ := hpicks hdata
    have hadm : set.Admitted := ⟨hone, hmax, List.length_pos_iff.mpr hdata, hint⟩
    have htwo : 2 ≤ set.k := by
      have := hadm.one_le_k
      rw [hk] at hK
      omega
    obtain ⟨s, hs, hdead⟩ : ∃ s, (sortNetwork set map).Reachable s ∧ ¬PublishedAlive set s :=
      exists_not_alive hadm hpicked htwo
    exact hdead (halive s hs)
  · rintro hcases s hs
    by_cases hdata : set.data = []
    · -- the root never comes to phase 3
      intro r K ki kj m t b hr _ hpc
      have hsampling := reachable_sampling hdata hs r hr
      rw [hpc] at hsampling
      cases hsampling
    · have hadm : set.Admitted := ⟨hone, hmax, List.length_pos_iff.mpr hdata, hint⟩
      obtain ⟨a, htracks, g, hv, hm⟩ := reachable_inPhase hadm hs
      have hplaced : Placed set map g a s := ⟨hadm, htracks, hv, hm⟩
      exact hplaced.alive_of_one (hk.mp (hcases.resolve_right hdata))

/-- The sort of two equal values with one bucket. -/
def oneBucket : Setting := { twoValues with K := 1 }

theorem oneBucket_admitted : oneBucket.Admitted where
  one_le := by decide
  le_max := by decide
  nonempty := by decide
  isInt := by decide

theorem oneBucket_picked :
    oneBucket.pickedSplitters oneBucket.data oneBucket.K = some [1000000] := by
  obtain ⟨samples, hsamples, -⟩ := Option.bind_eq_some_iff.mp twoValues_splitters
  have hsame : gatherSamples oneBucket.data sampleSize oneBucket.draws = some samples := hsamples
  rw [Setting.pickedSplitters, hsame]
  rfl

/-- With one bucket, the array is alive also in a run to the end of the root and the bucket; with
    two buckets it is not always. -/
theorem published_alive_iff_two :
    (∃ s b, (sortNetwork oneBucket oneLayout).Reachable s ∧
      s.tasks (bucketTask 0) = some (.bucket b) ∧ b.pc = .returned ∧
      PublishedAlive oneBucket s) ∧
    ¬∀ s, (sortNetwork twoValues oneLayout).Reachable s → PublishedAlive twoValues s := by
  have hone := published_alive_iff oneBucket oneLayout (by decide) (by decide) (by decide)
    fun _ => ⟨_, oneBucket_picked⟩
  have htwo := published_alive_iff twoValues oneLayout (by decide) (by decide) (by decide)
    fun _ => ⟨_, twoValues_splitters⟩
  constructor
  · obtain ⟨ts, s, hrun, g, a, h, hfinished⟩ :=
      (Placed.start oneBucket_admitted oneLayout).exists_finished oneBucket_picked
    have hcreated : 0 < g.root.created oneBucket.k := by rw [hfinished]; decide
    obtain ⟨ts', s', hrun', g', a', h', hroot, hreturned⟩ :=
      h.exists_returned hcreated (by rw [hfinished]; decide)
    have hpc : g'.root = g.root := congrArg RootLocal.pc hroot
    have hreach : (sortNetwork oneBucket oneLayout).Reachable
        (.start (mailboxes oneLayout) initialTasks (samplesort + 1)) := .init rfl
    have hreach' := (hreach.runFrom ts hrun).runFrom ts' hrun'
    refine ⟨s', g'.bucketLocal oneBucket 0, hreach', ?_, hreturned,
      hone.mpr (.inl rfl) s' hreach'⟩
    rw [h'.tracks.tasks, h'.placed.bucketTasks 0 (by rwa [hpc])]
  · intro halive
    rcases htwo.mp halive with hK | hdata
    · exact absurd hK (by decide)
    · cases hdata

end TaskSystem.SampleSort
