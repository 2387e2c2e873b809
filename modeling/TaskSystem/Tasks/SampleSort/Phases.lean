import TaskSystem.Tasks.SampleSort.Scripts

/-!
# The Phases of a Sample Sort

A state of a sample sort over logs is determined by how far each of its tasks has come and by
the order in which the buckets' messages have arrived at the root.

## Contents

- `BucketPc.Valid`, `RootPc.Valid`: the messages a task may rely on
- `Progress`: how far the tasks have come; `Progress.Valid`
- `Progress.Matches`: the state that this determines
- `Matches.starter`, `Matches.root`, ...: what one step changes
-/

namespace TaskSystem.SampleSort

open Library

/-! ## Buckets -/

namespace BucketPc

/-- How many messages the bucket has handled. -/
def handled : BucketPc → Nat
  | .receive call _ => call
  | .propagate => 4
  | .sendDone | .leave | .returned => 5

/-- How many messages the bucket has dequeued. -/
def taken : BucketPc → Nat
  | .receive call point => call + point.dequeued
  | .propagate => 4
  | .sendDone | .leave | .returned => 5

def hand (msgs : List AnyMsg) : BucketPc → Option AnyMsg
  | .receive call point => point.hand msgs[call]?
  | _ => none

/-- The bucket has not handled more than the first `sent` of its messages. -/
def Valid (msgs : List AnyMsg) (sent : Nat) : BucketPc → Prop
  | .receive call point => call ≤ 4 ∧ call ≤ sent ∧ point.Ready (msgs.take sent)[call]?
  | .propagate => 4 ≤ sent
  | .sendDone | .leave | .returned => 5 ≤ sent

/-- The bucket has published its sub arrays. -/
def SentSub : BucketPc → Prop
  | .receive call _ => call = 4
  | .propagate => False
  | .sendDone | .leave | .returned => True

/-- The bucket has told the root that it is done. -/
def SentDone : BucketPc → Prop
  | .leave | .returned => True
  | _ => False

end BucketPc

/-! ## The root -/

/-- How many messages the root has handled before the call, of `k` buckets. -/
def RootCall.number (k : Nat) : RootCall → Nat
  | .bar => 0
  | .refIntarray => 1
  | .subArray ki => 2 + ki
  | .done ki => 2 + k + ki

def RootCall.Valid (k : Nat) : RootCall → Prop
  | .bar | .refIntarray => True
  | .subArray ki | .done ki => ki < k

namespace RootPc

/-- How many messages the root has handled. -/
def handled (k : Nat) : RootPc → Nat
  | .receive call _ => call.number k
  | .sample | .create _ | .topology _ _ | .dataRef _ | .splitters _ | .getSubArray _ => 2
  | .waitSubArrays ki => 2 + ki
  | .gather _ _ => 2 + k
  | .waitDone ki => 2 + k + ki
  | .finished => 2 + k + k

/-- How many messages the root has dequeued. -/
def taken (k : Nat) : RootPc → Nat
  | .receive call point => call.number k + point.dequeued
  | pc => pc.handled k

def hand (k : Nat) (msgs : List AnyMsg) : RootPc → Option AnyMsg
  | .receive call point => point.hand msgs[call.number k]?
  | _ => none

/-- How many buckets the root has created. -/
def created (k : Nat) : RootPc → Nat
  | .receive .bar _ | .receive .refIntarray _ | .sample => 0
  | .create i => i
  | _ => k

/-- How many messages the root has sent to bucket `i`. -/
def sentTo (i : Nat) : RootPc → Nat
  | .receive .bar _ | .receive .refIntarray _ | .sample | .create _ => 0
  | .topology j _ => if i < j then 1 else 0
  | .dataRef j => if i < j then 2 else 1
  | .splitters j => if i < j then 3 else 2
  | .getSubArray j => if i < j then 4 else 3
  | .receive (.subArray _) _ | .waitSubArrays _ => 4
  | .gather j _ => if i < j then 5 else 4
  | .receive (.done _) _ | .waitDone _ | .finished => 5

/-- How much the root knows: the number of buckets, and the data. -/
def known : RootPc → Nat
  | .receive .bar _ => 0
  | .receive .refIntarray _ => 1
  | _ => 2

/-- How many sub arrays have arrived, once there is an array for them. -/
def arrived (k : Nat) : RootPc → Option Nat
  | .getSubArray _ => some 0
  | .receive (.subArray ki) _ | .waitSubArrays ki => some ki
  | .gather _ _ | .receive (.done _) _ | .waitDone _ | .finished => some k
  | _ => none

/-- The splitters have been picked. -/
def picked : RootPc → Bool
  | .receive .bar _ | .receive .refIntarray _ | .sample => false
  | _ => true

/-- All sub arrays have arrived. -/
def AllArrived : RootPc → Prop
  | .gather _ _ | .receive (.done _) _ | .waitDone _ | .finished => True
  | _ => False

/-- The loops stay in their bounds, and the root waits for a message that is meant for it. -/
def Valid (set : Setting) (msgs : List AnyMsg) : RootPc → Prop
  | .receive call point => call.Valid set.k ∧ point.Ready msgs[call.number set.k]?
  | .sample | .finished => True
  | .topology i topoMsg => i ≤ set.k ∧ topoMsg = topoAt set i
  | .gather ki kj => ki ≤ set.k ∧ kj ≤ set.k
  | .create i | .dataRef i | .splitters i | .getSubArray i | .waitSubArrays i | .waitDone i =>
    i ≤ set.k

end RootPc

/-! ## All tasks -/

/-- How far the tasks have come. -/
structure Progress where
  /-- The splitters -/
  sp : List Int32
  /-- Messages the starter has sent -/
  started : Nat
  root : RootPc
  bucket : Nat → BucketPc
  /-- The buckets whose sub arrays have reached the root's queue, in this order -/
  subs : List Nat
  /-- The buckets whose "done" has reached it -/
  dones : List Nat

namespace Progress

variable (set : Setting) (g : Progress)

/-- What the root has been sent. -/
def toRoot : List AnyMsg := stream set g.started g.subs g.dones

def rootLocal : RootLocal where
  pc := g.root
  this := rootThis set g.subs g.root.known (g.root.arrived set.k)
  splitters := if g.root.picked then g.sp else []
  buckets := bucketIds (g.root.created set.k)
  received := (g.toRoot set).take (g.root.handled set.k)

def bucketLocal (i : Nat) : BucketLocal where
  pc := g.bucket i
  this := bucketThis set g.sp i (g.bucket i).handled
  received := (script set g.sp i).take (g.bucket i).handled

def rootLog : Log AnyMsg where
  accepted := g.toRoot set
  taken := g.root.taken set.k
  inHand := g.root.hand set.k (g.toRoot set)

def bucketLog (i : Nat) : Log AnyMsg where
  accepted := (script set g.sp i).take (g.root.sentTo i)
  taken := (g.bucket i).taken
  inHand := (g.bucket i).hand (script set g.sp i)

/-- The state of all tasks and queues. -/
structure Matches (a : Net Local (Log AnyMsg)) : Prop where
  nextId : a.nextId = bucketTask (g.root.created set.k)
  starterTask : a.tasks 0 = some (.starter g.started)
  rootTask : a.tasks samplesort = some (.root (g.rootLocal set))
  bucketTasks : ∀ i < g.root.created set.k,
    a.tasks (bucketTask i) = some (.bucket (g.bucketLocal set i))
  noTasks : ∀ i, g.root.created set.k ≤ i → a.tasks (bucketTask i) = none
  rootChannel : a.channels samplesort = some (g.rootLog set)
  bucketChannels : ∀ i < g.root.created set.k,
    a.channels (bucketTask i) = some (g.bucketLog set i)

/-- No task is ahead of the messages it needs, and every bucket's messages have arrived at the
    root at most once. -/
structure Valid : Prop where
  length_sp : g.sp.length = set.k
  started_le : g.started ≤ 2
  root : g.root.Valid set (g.toRoot set)
  taken_le : g.root.taken set.k ≤ (g.toRoot set).length
  started : 2 ≤ g.root.taken set.k → g.started = 2
  bucket : ∀ i < g.root.created set.k, (g.bucket i).Valid (script set g.sp i) (g.root.sentTo i)
  subs_nodup : g.subs.Nodup
  dones_nodup : g.dones.Nodup
  mem_subs : ∀ i, i ∈ g.subs ↔ i < g.root.created set.k ∧ (g.bucket i).SentSub
  mem_dones : ∀ i, i ∈ g.dones ↔ i < g.root.created set.k ∧ (g.bucket i).SentDone
  all_subs : g.root.AllArrived → g.subs.length = set.k

end Progress

/-- How the tasks start. -/
def Progress.start (set : Setting) : Progress where
  sp := List.replicate set.k 0
  started := 0
  root := .receive .bar .poll
  bucket _ := .receive 0 .poll
  subs := []
  dones := []

/-! ## What one step changes -/

theorem bucketTask_inj {i j : Nat} : bucketTask i = bucketTask j ↔ i = j := by
  unfold bucketTask
  omega

@[simp] theorem bucketTask_ne_zero (i : Nat) : bucketTask i ≠ 0 := by
  unfold bucketTask
  omega

@[simp] theorem bucketTask_ne_samplesort (i : Nat) : bucketTask i ≠ samplesort := by
  unfold bucketTask
  omega

@[simp] theorem samplesort_ne_bucketTask (i : Nat) : samplesort ≠ bucketTask i :=
  (bucketTask_ne_samplesort i).symm

@[simp] theorem samplesort_ne_zero : samplesort ≠ 0 := by decide

namespace Progress.Matches

variable {set : Setting} {g g' : Progress} {a : Net Local (Log AnyMsg)}

/-- A step of the starter. -/
theorem starter (h : g.Matches set a) (hroot : g'.rootLocal set = g.rootLocal set)
    (hbucket : ∀ i, g'.bucketLocal set i = g.bucketLocal set i ∧
      g'.bucketLog set i = g.bucketLog set i) :
    g'.Matches set ((a.setChannel samplesort (g'.rootLog set)).resume 0 (.starter g'.started)) := by
  -- the program point is one of the fields of the local state
  have hpc : g'.root = g.root := congrArg RootLocal.pc hroot
  constructor
  · simpa [hpc] using h.nextId
  · simp
  · simp [h.rootTask, hroot]
  · intro i hi
    simp [h.bucketTasks i (hpc ▸ hi), (hbucket i).1]
  · intro i hi
    simp [h.noTasks i (hpc ▸ hi)]
  · simp
  · intro i hi
    simp [h.bucketChannels i (hpc ▸ hi), (hbucket i).2]

/-- A step of the root on its own queue. -/
theorem root (h : g.Matches set a) (hstarted : g'.started = g.started)
    (hcreated : g'.root.created set.k = g.root.created set.k)
    (hbucket : ∀ i < g.root.created set.k, g'.bucketLocal set i = g.bucketLocal set i ∧
      g'.bucketLog set i = g.bucketLog set i) :
    g'.Matches set ((a.setChannel samplesort (g'.rootLog set)).resume samplesort
      (.root (g'.rootLocal set))) := by
  constructor
  · simpa [hcreated] using h.nextId
  · simp [h.starterTask, hstarted, samplesort_ne_zero.symm]
  · simp
  · intro i hi
    rw [hcreated] at hi
    simp [h.bucketTasks i hi, (hbucket i hi).1]
  · intro i hi
    simp [h.noTasks i (hcreated ▸ hi)]
  · simp
  · intro i hi
    rw [hcreated] at hi
    simp [h.bucketChannels i hi, (hbucket i hi).2]

/-- A step of the root that leaves all queues alone. -/
theorem rootLocal (h : g.Matches set a) (hlog : g'.rootLog set = g.rootLog set)
    (hstarted : g'.started = g.started)
    (hcreated : g'.root.created set.k = g.root.created set.k)
    (hbucket : ∀ i < g.root.created set.k, g'.bucketLocal set i = g.bucketLocal set i ∧
      g'.bucketLog set i = g.bucketLog set i) :
    g'.Matches set (a.resume samplesort (.root (g'.rootLocal set))) := by
  have hstep := h.root hstarted hcreated hbucket
  rwa [hlog, Net.setChannel_self h.rootChannel] at hstep

/-- The root sends to bucket `j`. -/
theorem rootSend (h : g.Matches set a) {j : Nat} (hlog : g'.rootLog set = g.rootLog set)
    (hstarted : g'.started = g.started)
    (hcreated : g'.root.created set.k = g.root.created set.k)
    (hlocal : ∀ i, g'.bucketLocal set i = g.bucketLocal set i)
    (hbucket : ∀ i, i ≠ j → g'.bucketLog set i = g.bucketLog set i) :
    g'.Matches set ((a.setChannel (bucketTask j) (g'.bucketLog set j)).resume samplesort
      (.root (g'.rootLocal set))) := by
  constructor
  · simpa [hcreated] using h.nextId
  · simp [h.starterTask, hstarted, samplesort_ne_zero.symm]
  · simp
  · intro i hi
    rw [hcreated] at hi
    simp [h.bucketTasks i hi, hlocal]
  · intro i hi
    simp [h.noTasks i (hcreated ▸ hi)]
  · simp [h.rootChannel, hlog]
  · intro i hi
    rw [hcreated] at hi
    by_cases hij : i = j
    · simp [hij]
    · simp [bucketTask_inj, hij, h.bucketChannels i hi, hbucket i hij]

/-- The root creates a bucket. -/
theorem rootCreate (h : g.Matches set a) {n : Nat} (hn : g.root.created set.k = n)
    (hn' : g'.root.created set.k = n + 1) (hlog : g'.rootLog set = g.rootLog set)
    (hstarted : g'.started = g.started)
    (hnew : g'.bucketLocal set n = .start (bucketTask n) ∧ g'.bucketLog set n = Log.empty)
    (hbucket : ∀ i < n, g'.bucketLocal set i = g.bucketLocal set i ∧
      g'.bucketLog set i = g.bucketLog set i) :
    g'.Matches set ((a.addTask (.bucket (.start a.nextId)) Log.empty).resume samplesort
      (.root (g'.rootLocal set))) := by
  have hid : a.nextId = bucketTask n := by rw [h.nextId, hn]
  -- the new task is the one behind those created
  rw [hid]
  constructor
  · rw [Net.resume_nextId, Net.addTask_nextId, hid, hn']
    rfl
  · simp [h.starterTask, hstarted, hid, samplesort_ne_zero.symm, (bucketTask_ne_zero n).symm]
  · simp
  · intro i hi
    rw [hn'] at hi
    by_cases hin : i = n
    · simp [hin, hid, hnew.1]
    · have hlt : i < n := by omega
      simp [hid, bucketTask_inj, hin, h.bucketTasks i (hn ▸ hlt), (hbucket i hlt).1]
  · intro i hi
    rw [hn'] at hi
    have hin : i ≠ n := by omega
    simp [hid, bucketTask_inj, hin, h.noTasks i (by omega)]
  · simp [hid, h.rootChannel, hlog]
  · intro i hi
    rw [hn'] at hi
    by_cases hin : i = n
    · simp [hin, hid, hnew.2]
    · have hlt : i < n := by omega
      simp [hid, bucketTask_inj, hin, h.bucketChannels i (hn ▸ hlt), (hbucket i hlt).2]

/-- A step of bucket `j` on its own queue. -/
theorem bucket (h : g.Matches set a) {j : Nat} (hj : j < g.root.created set.k)
    (hroot : g'.root = g.root) (hstarted : g'.started = g.started)
    (hlocal : g'.rootLocal set = g.rootLocal set) (hlog : g'.rootLog set = g.rootLog set)
    (hbucket : ∀ i, i ≠ j → g'.bucketLocal set i = g.bucketLocal set i ∧
      g'.bucketLog set i = g.bucketLog set i) :
    g'.Matches set ((a.setChannel (bucketTask j) (g'.bucketLog set j)).resume (bucketTask j)
      (.bucket (g'.bucketLocal set j))) := by
  constructor
  · simpa [hroot] using h.nextId
  · simp [h.starterTask, hstarted, (bucketTask_ne_zero j).symm]
  · simp [h.rootTask, hlocal]
  · intro i hi
    rw [hroot] at hi
    by_cases hij : i = j
    · simp [hij]
    · simp [bucketTask_inj, hij, h.bucketTasks i hi, (hbucket i hij).1]
  · intro i hi
    rw [hroot] at hi
    have hij : i ≠ j := by omega
    simp [bucketTask_inj, hij, h.noTasks i hi]
  · simp [h.rootChannel, hlog]
  · intro i hi
    rw [hroot] at hi
    by_cases hij : i = j
    · simp [hij]
    · simp [bucketTask_inj, hij, h.bucketChannels i hi, (hbucket i hij).2]

/-- Bucket `j` sends to the root. -/
theorem bucketSend (h : g.Matches set a) {j : Nat} (hj : j < g.root.created set.k)
    (hroot : g'.root = g.root) (hstarted : g'.started = g.started)
    (hlocal : g'.rootLocal set = g.rootLocal set)
    (hlog : ∀ i, g'.bucketLog set i = g.bucketLog set i)
    (hbucket : ∀ i, i ≠ j → g'.bucketLocal set i = g.bucketLocal set i) :
    g'.Matches set ((a.setChannel samplesort (g'.rootLog set)).resume (bucketTask j)
      (.bucket (g'.bucketLocal set j))) := by
  constructor
  · simpa [hroot] using h.nextId
  · simp [h.starterTask, hstarted, (bucketTask_ne_zero j).symm]
  · simp [h.rootTask, hlocal]
  · intro i hi
    rw [hroot] at hi
    by_cases hij : i = j
    · simp [hij]
    · simp [bucketTask_inj, hij, h.bucketTasks i hi, hbucket i hij]
  · intro i hi
    rw [hroot] at hi
    have hij : i ≠ j := by omega
    simp [bucketTask_inj, hij, h.noTasks i hi]
  · simp
  · intro i hi
    rw [hroot] at hi
    simp [h.bucketChannels i hi, hlog i]

end Progress.Matches

end TaskSystem.SampleSort
