import TaskSystem.Tasks.SampleSort.Protocol

/-!
# The Lifetime of Published Arrays

A bucket publishes its `values_to_propagate` array by reference, and the array is a local of
its `start`. The root reads the arrays of all buckets once for every bucket it sends to, and a
bucket returns as soon as it has got its own share: the root may still have that bucket's array
to read for the buckets that come later. (`counts`, which it also reads, is allocated.)

## Contents

- `PublishedAlive`: the root reads no array of a bucket that has returned
- `RootLocal.MayRead`, `KeepsUnread`: buckets return only behind the last read of their array
- `published_alive_when`: under that condition the arrays are alive
- `published_not_alive`: without it they are not
-/

namespace TaskSystem.SampleSort

open Library

variable {set : Setting} {s s' : Net Local Mailbox}

/-! ## Statements -/

/-- No bucket has returned whose array the root is about to read, for bucket `ki`, from the
    message at `kj`. -/
def PublishedAlive (set : Setting) (s : Net Local Mailbox) : Prop :=
  ∀ r K ki kj m t b, s.tasks samplesort = some (.root r) → r.this.K = some K →
    r.pc = .gather ki kj → (ki : Int) < K.toInt → (kj : Int) < K.toInt →
    r.this.bucketsValuesArr[kj]? = some (some m) →
    s.tasks t = some (.bucket b) → m.values = set.valuesToPropagate b.this.taskID →
    b.pc ≠ .returned

/-- The root may still read the array at the address: it has not come to its loops over the
    messages, or the message with the array is ahead in the last round, or there is a round
    more. -/
def RootLocal.MayRead (r : RootLocal) (values : UInt64) : Prop :=
  match r.pc with
  | .gather ki kj => ∃ K j m, r.this.K = some K ∧
      r.this.bucketsValuesArr[j]? = some (some m) ∧ m.values = values ∧
      ((ki : Int) + 1 < K.toInt ∨ (ki : Int) + 1 = K.toInt ∧ kj ≤ j)
  | .receive (.done _) _ | .waitDone _ | .finished => False
  | _ => True

/-- A step of task `t` that returns from a bucket's `start` does so when the root is not going to
    read the bucket's array any more. -/
def KeepsUnread (set : Setting) (s : Net Local Mailbox) (t : Nat) : Prop :=
  ∀ b r, s.tasks t = some (.bucket b) → b.pc = .leave → s.tasks samplesort = some (.root r) →
    ¬r.MayRead (set.valuesToPropagate b.this.taskID)

/-! ## What the tasks may do next -/

theorem sendTo_leads {r : RootLocal} {i : Nat} {msg : AnyMsg} {next : Bool → Local} {l : Local}
    (h : (r.sendTo i msg next).Leads l) : ∃ sent, l = next sent := by
  unfold RootLocal.sendTo at h
  split at h
  · exact h
  · exact h.elim

/-- Between its calls of `receive` the root remains a root. -/
theorem phaseMove_root {r : RootLocal} {K size : Int32} {data : UInt64} {pc : RootPc} {l : Local}
    (h : (r.phaseMove set K size data pc).Leads l) : ∃ r', l = .root r' := by
  cases pc with
  | receive call point => exact h.elim
  | finished => exact h.elim
  | sample =>
    simp only [RootLocal.phaseMove] at h
    split at h
    · exact h.elim
    · split at h
      · exact h.elim
      · split at h
        · exact ⟨_, h⟩
        · exact ⟨_, h⟩
  | create i =>
    simp only [RootLocal.phaseMove] at h
    split at h
    · obtain ⟨id, rfl⟩ := h
      exact ⟨_, rfl⟩
    · exact ⟨_, h⟩
  | gather ki kj =>
    simp only [RootLocal.phaseMove] at h
    split at h
    · split at h
      · split at h
        · exact ⟨_, h⟩
        · exact h.elim
      · obtain ⟨sent, rfl⟩ := sendTo_leads h
        exact ⟨_, rfl⟩
    · exact ⟨_, h⟩
  | splitters i | waitSubArrays i | waitDone i =>
    simp only [RootLocal.phaseMove] at h
    split at h
    · first
      | exact ⟨_, h⟩
      | obtain ⟨sent, rfl⟩ := sendTo_leads h
        exact ⟨_, rfl⟩
    · exact ⟨_, h⟩
  | topology i | dataRef i | getSubArray i =>
    simp only [RootLocal.phaseMove] at h
    split at h
    · obtain ⟨sent, rfl⟩ := sendTo_leads h
      exact ⟨_, rfl⟩
    · exact ⟨_, h⟩

/-- The loops over the messages read each of them once a round. -/
theorem gather_leads {r : RootLocal} {K size : Int32} {data : UInt64} {ki kj : Nat} {l : Local}
    (h : (r.phaseMove set K size data (.gather ki kj)).Leads l) :
    ∃ r', l = .root r' ∧ ∀ values, r'.MayRead values →
      RootLocal.MayRead { r with pc := .gather ki kj } values := by
  simp only [RootLocal.phaseMove] at h
  split at h
  case isTrue hki =>
    split at h
    case isTrue hkj =>
      split at h
      · refine ⟨_, h, ?_⟩
        rintro values ⟨K', j, m, hK', hm, hvalues, hahead⟩
        refine ⟨K', j, m, hK', hm, hvalues, ?_⟩
        rcases hahead with hround | ⟨hlast, hle⟩
        · exact .inl hround
        · exact .inr ⟨hlast, Nat.le_of_succ_le hle⟩
      · exact h.elim
    case isFalse hkj =>
      -- the next round exists only if this one was not the last
      obtain ⟨sent, rfl⟩ := sendTo_leads h
      refine ⟨_, rfl, ?_⟩
      rintro values ⟨K', j, m, hK', hm, hvalues, hahead⟩
      refine ⟨K', j, m, hK', hm, hvalues, .inl ?_⟩
      push_cast at hahead
      omega
  case isFalse hki =>
    exact ⟨_, h, fun values hread => hread.elim⟩

/-- In a call of `receive` the root goes to another point of the call, or behind it. -/
theorem rootReceive_leads {r r' : RootLocal} {call : RootCall} {point : ReceivePoint}
    (hpc : r.pc = .receive call point) (h : (rootMove set r).Leads (.root r')) :
    r'.splitters = r.splitters ∧ ((∃ p, r'.pc = .receive call p) ∨ r'.pc = .after call) := by
  simp only [rootMove, hpc] at h
  rcases receiveMove_leads h with ⟨p, heq⟩ | ⟨tag, msg, heq⟩ | heq
  · cases heq
    exact ⟨rfl, .inl ⟨p, rfl⟩⟩
  · simp only [RootLocal.handled] at heq
    split at heq
    · cases heq
      exact ⟨rfl, .inr rfl⟩
    · cases heq
  · cases heq
    exact ⟨rfl, .inr rfl⟩

/-- **Step of the root**: it does not come to read an array again. -/
theorem rootMove_leads {r : RootLocal} {l : Local} (h : (rootMove set r).Leads l) :
    l = .crashed ∨ ∃ r', l = .root r' ∧ ∀ values, r'.MayRead values → r.MayRead values := by
  cases hpc : r.pc with
  | receive call point =>
    simp only [rootMove, hpc] at h
    have hmay : ∀ {r' : RootLocal}, (∀ ki, call = .done ki →
        (∃ p, r'.pc = .receive call p) ∨ r'.pc = .waitDone (ki + 1)) →
        ∀ values, r'.MayRead values → r.MayRead values := by
      intro r' hr' values hread
      cases call with
      | done ki =>
        rcases hr' ki rfl with ⟨p, hp⟩ | hp
        · simp only [RootLocal.MayRead, hp] at hread
        · simp only [RootLocal.MayRead, hp] at hread
      | _ => simp only [RootLocal.MayRead, hpc]
    rcases receiveMove_leads h with ⟨p, rfl⟩ | ⟨tag, msg, rfl⟩ | rfl
    · exact .inr ⟨_, rfl, hmay fun ki _ => .inl ⟨p, rfl⟩⟩
    · unfold RootLocal.handled
      split
      · exact .inr ⟨_, rfl, hmay fun ki hki => .inr (by rw [hki]; rfl)⟩
      · exact .inl rfl
    · exact .inr ⟨_, rfl, hmay fun ki hki => .inr (by rw [hki]; rfl)⟩
  | gather ki kj =>
    simp only [rootMove, hpc] at h
    split at h
    case h_1 =>
      obtain ⟨r', rfl, hread⟩ := gather_leads h
      have hself : { r with pc := .gather ki kj } = r := by rw [← hpc]
      rw [hself] at hread
      exact .inr ⟨r', rfl, hread⟩
    case h_2 => exact h.elim
  | waitDone ki =>
    simp only [rootMove, hpc] at h
    split at h
    · simp only [RootLocal.phaseMove] at h
      split at h
      · exact .inr ⟨_, h, fun values hread => hread.elim⟩
      · exact .inr ⟨_, h, fun values hread => hread.elim⟩
    · exact h.elim
  | finished =>
    simp only [rootMove, hpc] at h
    split at h
    · exact h.elim
    · exact h.elim
  | _ =>
    -- before the loops over the messages there is nothing to show
    simp only [rootMove, hpc] at h
    split at h
    · obtain ⟨r', rfl⟩ := phaseMove_root h
      exact .inr ⟨r', rfl, fun values _ => by simp only [RootLocal.MayRead, hpc]⟩
    · exact h.elim

/-- **Step of a bucket**: only its last step makes it return. -/
theorem bucketMove_leads {b : BucketLocal} {l : Local} (h : (bucketMove set b).Leads l) :
    l = .crashed ∨
      ∃ b', l = .bucket b' ∧ (b'.pc = .returned → b.pc = .leave ∧ b'.this = b.this) := by
  cases hpc : b.pc with
  | receive call point =>
    simp only [bucketMove, hpc] at h
    have hafter : BucketPc.after call ≠ .returned := by
      intro hreturned
      unfold BucketPc.after at hreturned
      split at hreturned <;> cases hreturned
    rcases receiveMove_leads h with ⟨p, rfl⟩ | ⟨tag, msg, rfl⟩ | rfl
    · refine .inr ⟨_, rfl, fun hreturned => ?_⟩
      cases hreturned
    · unfold BucketLocal.handled
      split
      · exact .inr ⟨_, rfl, fun hreturned => absurd hreturned hafter⟩
      · exact .inl rfl
    · exact .inr ⟨_, rfl, fun hreturned => absurd hreturned hafter⟩
  | propagate | sendDone =>
    simp only [bucketMove, hpc] at h
    split at h
    · obtain ⟨sent, rfl⟩ := h
      refine .inr ⟨_, rfl, fun hreturned => ?_⟩
      cases hreturned
    · exact h.elim
  | leave =>
    simp only [bucketMove, hpc] at h
    exact .inr ⟨_, h, fun _ => ⟨rfl, rfl⟩⟩
  | returned =>
    simp only [bucketMove, hpc] at h
    exact h.elim

theorem starter_leads {n : Nat} {l : Local} (h : (code set (.starter n)).Leads l) :
    ∃ m, l = .starter m := by
  match n with
  | 0 | 1 =>
    obtain ⟨sent, rfl⟩ := h
    exact ⟨_, rfl⟩
  | n + 2 => exact h.elim

/-- The root has been the root. -/
theorem code_leads_root {l : Local} {r' : RootLocal} (h : (code set l).Leads (.root r')) :
    ∃ r, l = .root r ∧ ∀ values, r'.MayRead values → r.MayRead values := by
  cases l with
  | starter n =>
    obtain ⟨m, hm⟩ := starter_leads h
    cases hm
  | root r =>
    rcases rootMove_leads h with hcrashed | ⟨r'', hr'', hread⟩
    · cases hcrashed
    · cases hr''
      exact ⟨r, rfl, hread⟩
  | bucket b =>
    rcases bucketMove_leads h with hcrashed | ⟨b', hb', -⟩
    · cases hcrashed
    · cases hb'
  | crashed => exact h.elim

/-- A bucket that has returned was about to. -/
theorem code_leads_returned {l : Local} {b' : BucketLocal} (h : (code set l).Leads (.bucket b'))
    (hreturned : b'.pc = .returned) :
    ∃ b, l = .bucket b ∧ b.pc = .leave ∧ b'.this = b.this := by
  cases l with
  | starter n =>
    obtain ⟨m, hm⟩ := starter_leads h
    cases hm
  | root r =>
    rcases rootMove_leads h with hcrashed | ⟨r', hr', -⟩
    · cases hcrashed
    · cases hr'
  | bucket b =>
    rcases bucketMove_leads h with hcrashed | ⟨b'', hb'', hleave⟩
    · cases hcrashed
    · cases hb''
      exact ⟨b, rfl, hleave hreturned⟩
  | crashed => exact h.elim

theorem sendTo_ne_create {r : RootLocal} {i : Nat} {msg : AnyMsg} {sent : Bool → Local}
    {child next : Nat → Local} : r.sendTo i msg sent ≠ .create child next := by
  unfold RootLocal.sendTo
  split <;> exact nofun

theorem phaseMove_create {r : RootLocal} {K size : Int32} {data : UInt64} {pc : RootPc}
    {child next : Nat → Local} (h : r.phaseMove set K size data pc = .create child next) :
    child = fun id => .bucket (.start id) := by
  cases pc with
  | receive call point => cases h
  | finished => cases h
  | sample =>
    simp only [RootLocal.phaseMove] at h
    split at h
    · cases h
    · split at h
      · cases h
      · split at h <;> cases h
  | create i =>
    simp only [RootLocal.phaseMove] at h
    split at h
    · cases h
      rfl
    · cases h
  | gather ki kj =>
    simp only [RootLocal.phaseMove] at h
    split at h
    · split at h
      · split at h <;> cases h
      · exact absurd h sendTo_ne_create
    · cases h
  | waitSubArrays i | waitDone i =>
    simp only [RootLocal.phaseMove] at h
    split at h <;> cases h
  | topology i | dataRef i | splitters i | getSubArray i =>
    simp only [RootLocal.phaseMove] at h
    split at h
    · exact absurd h sendTo_ne_create
    · cases h

/-- Tasks are only created as buckets that start. -/
theorem code_create {l : Local} {child next : Nat → Local} (h : code set l = .create child next) :
    child = fun id => .bucket (.start id) := by
  cases l with
  | starter n =>
    match n with
    | 0 | 1 | n + 2 => cases h
  | crashed => cases h
  | bucket b =>
    simp only [code, bucketMove] at h
    split at h
    · rename_i call point _
      cases point <;> cases h
    · split at h <;> cases h
    · split at h <;> cases h
    · cases h
    · cases h
  | root r =>
    simp only [code, rootMove] at h
    split at h
    · rename_i call point _
      cases point <;> cases h
    · split at h
      · exact phaseMove_create h
      · cases h

/-! ## Runs -/

/-- The arrays of all buckets that have returned have been read. -/
structure ReturnedRead (set : Setting) (s : Net Local Mailbox) : Prop where
  root_lt : samplesort < s.nextId
  read : ∀ t b r, s.tasks t = some (.bucket b) → b.pc = .returned →
    s.tasks samplesort = some (.root r) → ¬r.MayRead (set.valuesToPropagate b.this.taskID)

theorem ReturnedRead.start (set : Setting) (map : Mapping) :
    ReturnedRead set (.start (mailboxes map) initialTasks (samplesort + 1)) where
  root_lt := Nat.lt_succ_self _
  read t b r hb := by
    simp only [Net.start, initialTasks] at hb
    split at hb
    · cases hb
    · split at hb <;> cases hb

/-- **Step**: a bucket that returns as the condition asks adds an array that has been read, and
    no array comes to be read again. -/
theorem ReturnedRead.step {map : Mapping} {t : Nat} (h : ReturnedRead set s)
    (hkeeps : KeepsUnread set s t) (hstep : s.step (mailboxes map) (code set) t = some s') :
    ReturnedRead set s' := by
  obtain ⟨l, hl, hmove⟩ := Option.bind_eq_some_iff.mp hstep
  obtain ⟨⟨l', hleads, hl'⟩, hnext, hothers⟩ := Net.perform_cases hmove
  refine ⟨Nat.lt_of_lt_of_le h.root_lt hnext, ?_⟩
  intro u b' r' hb' hreturned hr' hread
  -- the root before the step could read all that it can read now
  have hroot : ∃ r, s.tasks samplesort = some (.root r) ∧
      r.MayRead (set.valuesToPropagate b'.this.taskID) := by
    by_cases ht : samplesort = t
    · rw [ht] at hr'
      obtain rfl := Option.some.inj (hl'.symm.trans hr')
      obtain ⟨r, rfl, hmay⟩ := code_leads_root hleads
      exact ⟨r, by rw [ht, hl], hmay _ hread⟩
    · rcases hothers samplesort ht with hsame | ⟨-, -, -, hid, -⟩
      · exact ⟨r', by rw [← hsame, hr'], hread⟩
      · exact absurd hid (Nat.ne_of_lt h.root_lt)
  obtain ⟨r, hr, hread⟩ := hroot
  by_cases hu : u = t
  · subst hu
    obtain rfl := Option.some.inj (hl'.symm.trans hb')
    obtain ⟨b, rfl, hleave, hthis⟩ := code_leads_returned hleads hreturned
    rw [hthis] at hread
    exact hkeeps b r hl hleave hr hread
  · rcases hothers u hu with hsame | ⟨child, next, hmv, -, hnew⟩
    · exact h.read u b' r (by rw [← hsame, hb']) hreturned hr hread
    · rw [code_create hmv] at hnew
      cases hb'.symm.trans hnew
      cases hreturned

/-- **The arrays are alive when buckets return late enough**: in every run in which a bucket only
    returns when the root is not going to read its array any more, the root reads no array of a
    bucket that has returned. -/
theorem published_alive_when (set : Setting) (map : Mapping)
    (h : (sortNetwork set map).ReachableWhen (KeepsUnread set) s) : PublishedAlive set s := by
  have hread : ReturnedRead set s := by
    apply System.ReachableWhen.invariant ?_ ?_ h
    · rintro s rfl
      exact .start set map
    · intro s t s' hs hkeeps hstep
      exact hs.step hkeeps hstep
  intro r K ki kj m t b hr hK hpc hki hkj hm hb hvalues hreturned
  apply hread.read t b r hb hreturned hr
  rw [← hvalues]
  simp only [RootLocal.MayRead, hpc]
  refine ⟨K, kj, m, hK, hm, rfl, ?_⟩
  -- this round is the last one, or there is a round more
  rcases Int.lt_or_eq_of_le (Int.add_one_le_of_lt hki) with hmore | hlast
  · exact .inl hmore
  · exact .inr ⟨hlast, Nat.le_refl kj⟩

/-- **The arrays are not always alive**: with two buckets, the first one may return as soon as it
    has got its share, when the root is still to read that bucket's array for the second one. -/
theorem published_not_alive : ∃ s, (sortNetwork twoValues oneLayout).Reachable s ∧
    ¬PublishedAlive twoValues s := by
  have hrun : (twoLogs.runFrom twoSampled (twoRounds ++ List.replicate 5 (bucketTask 0))).map
      (fun a => ((a.tasks samplesort).bind Local.root?).bind fun r =>
        ((a.tasks (bucketTask 0)).bind Local.bucket?).map fun b => (r.pc, r.this.K, b.pc,
          decide (r.this.bucketsValuesArr[0]?.join.map RefTwoDimIntArrayMsg.values =
            some (twoValues.valuesToPropagate b.this.taskID)))) =
      some (some (.gather 1 0, some 2, .returned, true)) := by
    decide +kernel
  obtain ⟨a, ha, hseen⟩ := Option.map_eq_some_iff.mp hrun
  obtain ⟨s, hs, htracks⟩ := replay_two _ ha
  refine ⟨s, hs, ?_⟩
  intro halive
  rw [← htracks.tasks] at hseen
  obtain ⟨r, hroot, hseen⟩ := Option.bind_eq_some_iff.mp hseen
  obtain ⟨b, hbucket, hseen⟩ := Option.map_eq_some_iff.mp hseen
  have hr := Local.bind_root?.mp hroot
  have hb := Local.bind_bucket?.mp hbucket
  simp only [Prod.mk.injEq, decide_eq_true_eq, Option.map_eq_some_iff,
    Option.join_eq_some_iff] at hseen
  obtain ⟨hpc, hK, hreturned, m, hm, hvalues⟩ := hseen
  exact halive r 2 1 0 m (bucketTask 0) b hr hK hpc (by decide) (by decide) hm hb hvalues
    hreturned

end TaskSystem.SampleSort
