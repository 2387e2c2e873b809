import TaskSystem.Tasks.SampleSort.Ranks
import TaskSystem.Tasks.SampleSort.ArrayInvariant

/-!
# The End of a Sample Sort

A sample sort comes to its end: as long as not all of its tasks have returned, one of them can do
something else than wait, and what they have to do is bounded.

## Contents

- `Advances`: a task can take a step that brings the sort closer to its end
- `Placed.advances_of_busy`, `Placed.root_advances_polling`, `Placed.bucket_advances_polling`,
  `Placed.sample_advances`: tasks that can
- `Returned`, `Placed.exists_advances`: some task can, or all have returned
-/

namespace TaskSystem.SampleSort

open Library

variable {set : Setting} {g : Progress} {a : Net Local (Log AnyMsg)} {s s' : Net Local Mailbox}
  {map : Mapping} {t : Nat} {l : Local} {uninit : UInt32 → Nat → Nat → Int32}

/-- Task `t` can take a step that brings the sort closer to its end, and no bucket returns too
    early by it. -/
structure Advances (set : Setting) (map : Mapping) (s : Net Local Mailbox) (t : Nat) : Prop where
  keeps : KeepsUnread set s t
  lowers : ∃ s', s.step (mailboxes map) (code set) t = some s' ∧ sortRank set s' < sortRank set s

/-! ## Tasks that do not wait -/

/-- The tasks, the queues and their logs are where the progress says. -/
structure Placed (set : Setting) (map : Mapping) (g : Progress) (a : Net Local (Log AnyMsg))
    (s : Net Local Mailbox) : Prop where
  admitted : set.Admitted
  tracks : s.Tracks (mailboxes_carry map recordCap) a
  valid : g.Valid set
  placed : g.Matches set a

/-- A sort starts in phase. -/
theorem Placed.start (hadm : set.Admitted) (map : Mapping) : Placed set map (.start set)
    (.start (Log.medium tagOf) initialTasks (samplesort + 1))
    (.start (mailboxes map) initialTasks (samplesort + 1)) where
  admitted := hadm
  tracks := Net.Tracks.start _ _ _
  valid := start_valid set
  placed := start_matches set

theorem Placed.rootTask (h : Placed set map g a s) :
    s.tasks samplesort = some (.root (g.rootLocal set)) := by
  rw [h.tracks.tasks, h.placed.rootTask]

/-- A step of the network leads from logs in phase to logs in phase. -/
theorem Placed.step (h : Placed set map g a s)
    (hstep : s.step (mailboxes map) (code set) t = some s') :
    ∃ g' a', Placed set map g' a' s' := by
  obtain ⟨l, hl, hmove⟩ := Option.bind_eq_some_iff.mp hstep
  have hgo : code set l ≠ .stop := by
    intro hstop
    rw [hstop] at hmove
    cases hmove
  obtain ⟨s'', a', hs'', -, htracks, g', hv, hm⟩ := Carries.perform h.tracks hgo
    (allows_code h.admitted a t l ⟨g, h.valid, h.placed⟩ (h.tracks.tasks ▸ hl))
  obtain rfl : s'' = s' := Option.some.inj (hs''.symm.trans hmove)
  exact ⟨g', a', h.admitted, htracks, hv, hm⟩

/-- A task that has not returned can take a step. -/
theorem Placed.runs (h : Placed set map g a s) (hl : s.tasks t = some l)
    (hgo : code set l ≠ .stop) : ∃ s', s.perform (mailboxes map) t (code set l) = some s' := by
  obtain ⟨s', -, hs', -⟩ := Carries.perform h.tracks hgo
    (allows_code h.admitted a t l ⟨g, h.valid, h.placed⟩ (h.tracks.tasks ▸ hl))
  exact ⟨s', hs'⟩

/-- **A task that does not wait** brings the sort closer to its end. -/
theorem Placed.lowers_of_busy (h : Placed set map g a s) (hl : s.tasks t = some l)
    (hgo : code set l ≠ .stop) (hbusy : ¬l.Waits) :
    ∃ s', s.step (mailboxes map) (code set) t = some s' ∧ sortRank set s' < sortRank set s := by
  obtain ⟨s', hs'⟩ := h.runs hl hgo
  obtain ⟨⟨l', hleads, hl'⟩, -, -⟩ := Net.perform_cases hs'
  refine ⟨s', by rw [Net.step, hl, Option.bind_some, hs'], ?_⟩
  rcases (code_rank h.admitted h.valid h.placed (h.tracks.tasks ▸ hl) hleads).2 with
    hlt | ⟨-, hwaits⟩
  · exact sortRank_lt h.admitted h.valid h.placed h.tracks hl hs' hl' hlt
  · exact absurd hwaits hbusy

theorem Placed.advances_of_busy (h : Placed set map g a s) (hl : s.tasks t = some l)
    (hgo : code set l ≠ .stop) (hbusy : ¬l.Waits) (hkeeps : KeepsUnread set s t) :
    Advances set map s t :=
  ⟨hkeeps, h.lowers_of_busy hl hgo hbusy⟩

/-- What the step does to the task is enough. -/
theorem Placed.advances_of_lower (h : Placed set map g a s) (hl : s.tasks t = some l)
    (hgo : code set l ≠ .stop) (hkeeps : KeepsUnread set s t)
    (hlower : ∀ s', s.perform (mailboxes map) t (code set l) = some s' →
      ∃ l', s'.tasks t = some l' ∧ l'.rank set.k < l.rank set.k) : Advances set map s t := by
  obtain ⟨s', hs'⟩ := h.runs hl hgo
  obtain ⟨l', hl', hlt⟩ := hlower s' hs'
  exact ⟨hkeeps, s', by rw [Net.step, hl, Option.bind_some, hs'],
    sortRank_lt h.admitted h.valid h.placed h.tracks hl hs' hl' hlt⟩

/-- The starter and the root return from no bucket. -/
theorem keepsUnread_of_ne (hl : s.tasks t = some l)
    (hne : ∀ b, l = .bucket b → b.pc ≠ .leave) : KeepsUnread set s t := by
  intro b r hb hleave
  exact absurd hleave (hne b (Option.some.inj (hl.symm.trans hb)))

theorem bucketMove_stop {b : BucketLocal} (h : bucketMove set b = .stop) : b.pc = .returned := by
  cases hpc : b.pc with
  | receive call point =>
    simp only [bucketMove, hpc] at h
    exact absurd h receiveMove_ne_stop
  | propagate | sendDone =>
    simp only [bucketMove, hpc] at h
    split at h <;> cases h
  | leave =>
    simp only [bucketMove, hpc] at h
    cases h
  | returned => rfl

theorem sendTo_ne_stop {r : RootLocal} {i : Nat} {msg : AnyMsg} {next : Bool → Local} :
    r.sendTo i msg next ≠ .stop := by
  unfold RootLocal.sendTo
  split <;> exact nofun

theorem phaseMove_stop {r : RootLocal} {K size : Int32} {data : UInt64} {pc : RootPc}
    (h : r.phaseMove set K size data pc = .stop) : pc = .finished := by
  cases pc with
  | receive call point => cases h
  | finished => rfl
  | sample =>
    simp only [RootLocal.phaseMove] at h
    split at h
    · cases h
    · split at h
      · cases h
      · split at h <;> cases h
  | gather ki kj =>
    simp only [RootLocal.phaseMove] at h
    split at h
    · split at h
      · split at h <;> cases h
      · exact absurd h sendTo_ne_stop
    · cases h
  | create i | waitSubArrays i | waitDone i =>
    simp only [RootLocal.phaseMove] at h
    split at h <;> cases h
  | topology i | dataRef i | splitters i | getSubArray i =>
    simp only [RootLocal.phaseMove] at h
    split at h
    · exact absurd h sendTo_ne_stop
    · cases h

theorem rootMove_stop {r : RootLocal} (h : rootMove set r = .stop) : r.pc = .finished := by
  simp only [rootMove] at h
  split at h
  · exact absurd h receiveMove_ne_stop
  · split at h
    · exact phaseMove_stop h
    · cases h

/-! ## Tasks with a message in their queue -/

/-- The queue shows the tag of the message that is next in the log. -/
theorem Placed.peek (h : Placed set map g a s) {q : Log AnyMsg} {msg : AnyMsg}
    (hq : a.channels t = some q) (hnext : q.next? = some msg) (htag : 0 ≤ msg.tag) :
    ∃ mb, s.channels t = some mb ∧ 0 ≤ (mailboxes map).peek mb := by
  obtain ⟨mb, hmb, hlog⟩ := h.tracks.channel hq
  refine ⟨mb, hmb, ?_⟩
  rw [(mailboxes_carry map recordCap).peek hlog, hnext]
  exact htag

/-- **The root**, when it polls and its next message has arrived. -/
theorem Placed.root_advances_polling (h : Placed set map g a s) {call : RootCall}
    (hpc : g.root = .receive call .poll) {msg : AnyMsg}
    (hmsg : (g.toRoot set)[call.number set.k]? = some msg) : Advances set map s samplesort := by
  have hroot := h.rootTask
  have hpc' : (g.rootLocal set).pc = .receive call .poll := hpc
  have hvalid := h.valid.root
  rw [hpc] at hvalid
  have htag : 0 ≤ msg.tag := by
    have hexpected := h.valid.expected hpc hmsg
    exact (handle_expected hvalid.1 hexpected .poll).1.1
  have hnext : (g.rootLog set).next? = some msg := by
    simp only [Progress.rootLog, Log.next?, hpc, RootPc.taken, ReceivePoint.dequeued,
      Nat.add_zero, hmsg]
  have hcode : code set (.root (g.rootLocal set)) = _ := code_rootReceive hpc'
  have hself : Local.root (g.rootLocal set) =
      (g.rootLocal set).goto (.receive call .poll) := by
    rw [RootLocal.goto, ← hpc']
  obtain ⟨hinside, hhandled, hback⟩ := rootReceive_rank (g.rootLocal set) call set.k
  apply h.advances_of_lower hroot
  · rw [hcode]
    exact receiveMove_ne_stop
  · exact keepsUnread_of_ne hroot fun b hb => Local.noConfusion hb
  · intro s' hs'
    rw [hcode] at hs'
    rw [hself]
    exact receive_lowers hinside hhandled hback hs' fun _ =>
      h.peek h.placed.rootChannel hnext htag

/-- **A bucket**, when it polls and its next message has been sent. -/
theorem Placed.bucket_advances_polling (h : Placed set map g a s) {i call : Nat}
    (hi : i < g.root.created set.k) (hpc : g.bucket i = .receive call .poll)
    (hsent : call < g.root.sentTo i) : Advances set map s (bucketTask i) := by
  have hbucket : s.tasks (bucketTask i) = some (.bucket (g.bucketLocal set i)) := by
    rw [h.tracks.tasks, h.placed.bucketTasks i hi]
  have hpc' : (g.bucketLocal set i).pc = .receive call .poll := hpc
  have hvalid := h.valid.bucket i hi
  rw [hpc] at hvalid
  obtain ⟨hcall, -, -⟩ := hvalid
  obtain ⟨msg, hmsg⟩ : ∃ msg, (script set g.sp i)[call]? = some msg := by
    have hlen : (script set g.sp i).length = 5 := rfl
    exact ⟨_, List.getElem?_eq_getElem (by omega)⟩
  have htag : 0 ≤ msg.tag := (handle_script set g.sp i hmsg).1.1
  have hnext : (g.bucketLog set i).next? = some msg := by
    simp only [Progress.bucketLog, Log.next?, hpc, BucketPc.taken, ReceivePoint.dequeued,
      Nat.add_zero]
    rw [List.getElem?_take_of_lt hsent, hmsg]
  have hcode : code set (.bucket (g.bucketLocal set i)) = _ := code_bucketReceive hpc'
  have hself : Local.bucket (g.bucketLocal set i) =
      (g.bucketLocal set i).goto (.receive call .poll) := by
    rw [BucketLocal.goto, ← hpc']
  obtain ⟨hinside, hhandled, hback⟩ := bucketReceive_rank (g.bucketLocal set i) hcall set.k
  apply h.advances_of_lower hbucket
  · rw [hcode]
    exact receiveMove_ne_stop
  · apply keepsUnread_of_ne hbucket
    intro b hb
    rw [← Local.bucket.inj hb, hpc']
    exact BucketPc.noConfusion
  · intro s' hs'
    rw [hcode] at hs'
    rw [hself]
    exact receive_lowers hinside hhandled hback hs' fun _ =>
      h.peek (h.placed.bucketChannels i hi) hnext htag

/-- **A bucket that has not told the root it is done** advances, when its next message has been
    sent. -/
theorem Placed.bucket_advances (h : Placed set map g a s) {i : Nat}
    (hi : i < g.root.created set.k) (hnot : ¬(g.bucket i).SentDone)
    (hsent : ∀ call point, g.bucket i = .receive call point → call < g.root.sentTo i) :
    Advances set map s (bucketTask i) := by
  have hbucket : s.tasks (bucketTask i) = some (.bucket (g.bucketLocal set i)) := by
    rw [h.tracks.tasks, h.placed.bucketTasks i hi]
  by_cases hpolls : ∃ call, g.bucket i = .receive call .poll
  · obtain ⟨call, hpc⟩ := hpolls
    exact h.bucket_advances_polling hi hpc (hsent call .poll hpc)
  · apply h.advances_of_busy hbucket ?_ hpolls
    · apply keepsUnread_of_ne hbucket
      intro b hb hleave
      rw [← Local.bucket.inj hb] at hleave
      have hleave' : g.bucket i = .leave := hleave
      rw [hleave'] at hnot
      exact hnot trivial
    · intro hstop
      have hreturned : g.bucket i = .returned := bucketMove_stop hstop
      rw [hreturned] at hnot
      exact hnot trivial

/-! ## Drawing samples -/

/-- There are numbers enough for the samples that `random_at_most` takes. -/
def Setting.Draws (set : Setting) : Prop :=
  sampleSize ≤ set.draws.countP fun x => Accepts (set.data.length - 1) x

/-- No difference of two values overflows in the comparison function. -/
def Setting.Close (set : Setting) : Prop :=
  ∀ x ∈ set.data, ∀ y ∈ set.data, (x.toInt - y.toInt).natAbs < 2 ^ 31

/-- With numbers enough the root picks its splitters. -/
theorem Setting.Draws.picked (hdraws : set.Draws) (hadm : set.Admitted) (hclose : set.Close) :
    ∃ splitters, set.pickedSplitters set.data set.K = some splitters := by
  have hint : (set.data.length : Int) ≤ numRand := by
    have := hadm.isInt
    unfold numRand
    omega
  obtain ⟨samples, hsamples, hlen, hmem⟩ := gatherSamples_some hadm.nonempty hint hdraws
  have hsorted : (set.qsort.sort samplesorttaskCmpfunc samples).length = sampleSize := by
    rw [← hlen]
    exact (set.qsort.perm ((cmpfunc_consistent hclose).subset hmem)).length_eq
  obtain ⟨splitters, hsplitters, -⟩ := pickSplitters_some hsorted hadm.one_le_k
  refine ⟨splitters, ?_⟩
  rw [Setting.pickedSplitters, hsamples, Option.bind_some]
  exact hsplitters

/-- **The root**, before it draws its samples, when there are numbers enough. -/
theorem Placed.sample_advances (h : Placed set map g a s) {splitters : List Int32}
    (hpicked : set.pickedSplitters set.data set.K = some splitters) (hpc : g.root = .sample) :
    Advances set map s samplesort := by
  have hroot := h.rootTask
  have harray : set.arrayAt set.testData set.n = some set.data := by
    simp [Setting.arrayAt]
  have hpositive : ¬set.K ≤ 0 := by
    have hone := h.admitted.one_le
    rw [Int32.le_iff_toInt_le, Int32.toInt_zero]
    omega
  have hphase : ∀ call point, g.root ≠ .receive call point := by
    intro call point hreceive
    cases hpc.symm.trans hreceive
  have hcode : code set (.root (g.rootLocal set)) =
      .compute (.root { g.rootLocal set with pc := .create 0, splitters }) := by
    rw [code_rootPhase hphase, hpc]
    simp only [RootLocal.phaseMove, hpositive, if_false, harray, hpicked]
  apply h.advances_of_lower hroot
  · rw [hcode]
    intro hstop
    cases hstop
  · exact keepsUnread_of_ne hroot fun b hb => Local.noConfusion hb
  · intro s' hs'
    rw [hcode] at hs'
    obtain rfl := Option.some.inj hs'
    refine ⟨_, by rw [Net.resume_tasks, if_pos rfl], ?_⟩
    have hbefore : (Local.root (g.rootLocal set)).rank set.k = RootPc.rank set.k .sample := by
      rw [← hpc]
      rfl
    rw [hbefore]
    simp only [Local.rank, RootPc.rank]
    omega

/-! ## Who can go on -/

/-- The sort has come to its end: all tasks have returned. -/
structure Returned (set : Setting) (s : Net Local Mailbox) : Prop where
  starter : s.tasks 0 = some (.starter 2)
  root : ∃ r, s.tasks samplesort = some (.root r) ∧ r.pc = .finished
  buckets : ∀ i < set.k, ∃ b, s.tasks (bucketTask i) = some (.bucket b) ∧ b.pc = .returned

/-- **The starter** advances until it has sent its two messages. -/
theorem Placed.starter_advances (h : Placed set map g a s) (hlt : g.started < 2) :
    Advances set map s 0 := by
  have hstarter : s.tasks 0 = some (.starter g.started) := by
    rw [h.tracks.tasks, h.placed.starterTask]
  apply h.advances_of_busy hstarter ?_ id
  · exact keepsUnread_of_ne hstarter fun b hb => Local.noConfusion hb
  · generalize g.started = n at hlt
    match n with
    | 0 | 1 =>
      intro hstop
      cases hstop
    | n + 2 => omega

/-- While the root polls in vain in phase 2, a bucket has still to publish its sub arrays. -/
theorem Placed.exists_unpublished (h : Placed set map g a s) {ki : Nat} (hki : ki < set.k)
    (hpc : g.root = .receive (.subArray ki) .poll)
    (hnone : (g.toRoot set)[2 + ki]? = none) :
    ∃ i < set.k, Advances set map s (bucketTask i) := by
  have hcreated : g.root.created set.k = set.k := by rw [hpc]; rfl
  have hdones := h.valid.dones_eq_nil (by rw [hpc]; exact id)
  have hstarted := h.valid.started (by rw [hpc]; exact Nat.le_add_right 2 ki)
  have hlen := List.getElem?_eq_none_iff.mp hnone
  rw [h.valid.length_toRoot, hstarted, hdones, List.length_nil] at hlen
  -- fewer buckets have published than there are
  obtain ⟨i, hi, hnot⟩ := exists_not_mem_of_length_lt (show g.subs.length < set.k by omega)
  have hi' : i < g.root.created set.k := by rwa [hcreated]
  have hsub : ¬(g.bucket i).SentSub := fun hsub => hnot ((h.valid.mem_subs i).mpr ⟨hi', hsub⟩)
  refine ⟨i, hi, h.bucket_advances hi' ?_ ?_⟩
  · intro hdone
    have hmem := (h.valid.mem_dones i).mpr ⟨hi', hdone⟩
    rw [hdones] at hmem
    cases hmem
  · intro call point hcall
    have hvalid := h.valid.bucket i hi'
    rw [hcall] at hvalid hsub
    have hfour : g.root.sentTo i = 4 := by rw [hpc]; rfl
    have hne : call ≠ 4 := hsub
    have hle : call ≤ 4 := hvalid.1
    omega

/-- In phase 3 one has still to report. -/
theorem Placed.exists_unreported (h : Placed set map g a s) {ki : Nat} (hki : ki < set.k)
    (hpc : g.root = .receive (.done ki) .poll)
    (hnone : (g.toRoot set)[2 + set.k + ki]? = none) :
    ∃ i < set.k, Advances set map s (bucketTask i) := by
  have hcreated : g.root.created set.k = set.k := by rw [hpc]; rfl
  have hsubs := h.valid.all_subs (by rw [hpc]; trivial)
  have htwo : 2 ≤ g.root.taken set.k := by
    rw [hpc]
    simp only [RootPc.taken, RootCall.number]
    omega
  have hlen := List.getElem?_eq_none_iff.mp hnone
  rw [h.valid.length_toRoot, h.valid.started htwo, hsubs] at hlen
  obtain ⟨i, hi, hnot⟩ := exists_not_mem_of_length_lt (show g.dones.length < set.k by omega)
  have hi' : i < g.root.created set.k := by rwa [hcreated]
  refine ⟨i, hi, h.bucket_advances hi' ?_ ?_⟩
  · exact fun hdone => hnot ((h.valid.mem_dones i).mpr ⟨hi', hdone⟩)
  · intro call point hcall
    have hvalid := h.valid.bucket i hi'
    rw [hcall] at hvalid
    have hfive : g.root.sentTo i = 5 := by rw [hpc]; rfl
    have hle : call ≤ 4 := hvalid.1
    omega

/-- **The root** advances, or a bucket does that it waits for. -/
theorem Placed.root_advances (h : Placed set map g a s) {splitters : List Int32}
    (hpicked : set.pickedSplitters set.data set.K = some splitters) (hstarted : g.started = 2)
    (hnot : g.root ≠ .finished) : ∃ t, Advances set map s t := by
  have hroot := h.rootTask
  by_cases hwaits : (Local.root (g.rootLocal set)).Waits
  · rcases hwaits with ⟨call, hpc⟩ | hpc
    · have hpc' : g.root = .receive call .poll := hpc
      cases hmsg : (g.toRoot set)[call.number set.k]? with
      | some msg => exact ⟨samplesort, h.root_advances_polling hpc' hmsg⟩
      | none =>
        have hcall := h.valid.root
        rw [hpc'] at hcall
        have hlen := List.getElem?_eq_none_iff.mp hmsg
        rw [h.valid.length_toRoot] at hlen
        cases call with
        -- the starter has sent both messages
        | bar | refIntarray =>
          simp only [RootCall.number] at hlen
          omega
        | subArray ki =>
          obtain ⟨i, -, hadvances⟩ := h.exists_unpublished hcall.1 hpc' hmsg
          exact ⟨_, hadvances⟩
        | done ki =>
          obtain ⟨i, -, hadvances⟩ := h.exists_unreported hcall.1 hpc' hmsg
          exact ⟨_, hadvances⟩
    · exact ⟨samplesort, h.sample_advances hpicked hpc⟩
  · refine ⟨samplesort, h.advances_of_busy hroot ?_ hwaits ?_⟩
    · exact fun hstop => hnot (rootMove_stop hstop)
    · exact keepsUnread_of_ne hroot fun b hb => Local.noConfusion hb

/-- **When the root has finished**, a bucket that has not returned only has to return. -/
theorem Placed.leave_advances (h : Placed set map g a s) (hpc : g.root = .finished) {i : Nat}
    (hi : i < set.k) (hnot : g.bucket i ≠ .returned) : Advances set map s (bucketTask i) := by
  have hi' : i < g.root.created set.k := by rwa [hpc]
  have hbucket : s.tasks (bucketTask i) = some (.bucket (g.bucketLocal set i)) := by
    rw [h.tracks.tasks, h.placed.bucketTasks i hi']
  have hroot := h.rootTask
  have hleave : g.bucket i = .leave := by
    have hdone := ((h.valid.finished hpc).2 i hi).1
    cases hb : g.bucket i with
    | leave => rfl
    | returned => exact absurd hb hnot
    | _ =>
      rw [hb] at hdone
      exact hdone.elim
  apply h.advances_of_busy hbucket
  · intro hstop
    exact hnot (bucketMove_stop hstop)
  · rintro ⟨call, hpoll⟩
    have hpoll' : g.bucket i = .receive call .poll := hpoll
    rw [hleave] at hpoll'
    cases hpoll'
  · intro b r _ _ hr hread
    obtain rfl := Local.root.inj (Option.some.inj (hr.symm.trans hroot))
    have hpc' : (g.rootLocal set).pc = .finished := hpc
    simp only [RootLocal.MayRead, hpc'] at hread

/-- **Until the root has finished**, a task advances. -/
theorem Placed.going_advances (h : Placed set map g a s) {splitters : List Int32}
    (hpicked : set.pickedSplitters set.data set.K = some splitters) (hnot : g.root ≠ .finished) :
    ∃ t, Advances set map s t := by
  by_cases hlt : g.started < 2
  · exact ⟨0, h.starter_advances hlt⟩
  · have hstarted : g.started = 2 := Nat.le_antisymm h.valid.started_le (Nat.le_of_not_lt hlt)
    exact h.root_advances hpicked hstarted hnot

/-- **No deadlock**: a task advances, or all have returned. -/
theorem Placed.exists_advances (h : Placed set map g a s) (hclose : set.Close)
    (hdraws : set.Draws) (hnot : ¬Returned set s) : ∃ t, Advances set map s t := by
  by_cases hpc : g.root = .finished
  · -- the starter's messages have been taken, so a bucket has not returned
    have hstarted : g.started = 2 := by
      apply h.valid.started
      rw [hpc]
      simp only [RootPc.taken, RootPc.handled]
      omega
    by_contra hnone
    apply hnot
    constructor
    · rw [h.tracks.tasks, h.placed.starterTask, hstarted]
    · exact ⟨_, h.rootTask, hpc⟩
    · intro i hi
      refine ⟨g.bucketLocal set i, ?_, ?_⟩
      · rw [h.tracks.tasks, h.placed.bucketTasks i (by rwa [hpc])]
      · by_contra hne
        exact hnone ⟨_, h.leave_advances hpc hi hne⟩
  · obtain ⟨splitters, hpicked⟩ := hdraws.picked h.admitted hclose
    exact h.going_advances hpicked hpc

end TaskSystem.SampleSort
