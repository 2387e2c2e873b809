import Mathlib.Data.List.Perm.Subperm
import Mathlib.Data.Option.Basic
import Mathlib.Logic.Function.Basic
import TaskSystem.Library.Transition

/-!
# Networks of Tasks

Tasks that run one after another's steps in any order, each with a local state, a program
that says what it does next, and a channel of its own that all tasks send to. A task receives
in two steps: it takes the oldest message and reads it afterwards.

The channels are given by a medium. The ideal one is a log of all messages accepted, with the
reader's position in it. A medium that behaves like the log while there is room carries every
property proved over logs.

## Contents

- `Medium`, `Move`, `Net`: channels, programs, and states; `Net.step`, `network`
- `Log`, `Log.medium`: the ideal channel; `Log.accepted_prefix`
- `Allows`: what has to be shown of a move over logs
- `Carries`, `Net.Tracks`: a medium that behaves like logs
- `Carries.reachable`, `Carries.sound`, `Carries.replay`: what it carries over
-/

namespace TaskSystem.Library

variable {M V C L : Type*}

/-! ## Channels, programs and states -/

/-- The operations on the channel of a task, for messages `M`, where a look at the channel
    shows a `V`. -/
structure Medium (M V C : Type*) where
  /-- The channel a new task gets -/
  create : Nat → C
  /-- One task sends to the channel of another; whether the message was accepted -/
  send : Nat → Nat → C → M → C × Bool
  /-- What the next message looks like, if there is one -/
  peek : C → V
  /-- The task gets hold of its next message -/
  take : Nat → C → C
  /-- The task removes its next message -/
  drop : Nat → C → C
  /-- The task reads the message it has got hold of -/
  finish : Nat → C → C × Option M

/-- What a task does next, and its local state afterwards. -/
inductive Move (M V L : Type*) where
  | compute (next : L)
  | create (child : Nat → L) (next : Nat → L)
  | send (target : Nat) (msg : M) (next : Bool → L)
  | peek (next : V → L)
  | take (next : L)
  | drop (next : L)
  | finish (next : M → L)
  /-- The task has returned. -/
  | stop
  /-- The task is about to do something undefined. -/
  | fault

/-- The local states a move may lead to. -/
def Move.Leads : Move M V L → L → Prop
  | .compute next, l | .take next, l | .drop next, l => l = next
  | .create _ next, l => ∃ id, l = next id
  | .send _ _ next, l => ∃ sent, l = next sent
  | .peek next, l => ∃ view, l = next view
  | .finish next, l => ∃ msg, l = next msg
  | .stop, _ | .fault, _ => False

/-- Tasks by their numbers, their channels, and the next number to give out. -/
structure Net (L C : Type*) where
  tasks : Nat → Option L
  channels : Nat → Option C
  nextId : Nat

namespace Net

/-- Task `t` goes on in local state `l`. -/
def resume (s : Net L C) (t : Nat) (l : L) : Net L C :=
  { s with tasks := Function.update s.tasks t (some l) }

def setChannel (s : Net L C) (t : Nat) (c : C) : Net L C :=
  { s with channels := Function.update s.channels t (some c) }

/-- A new task with local state `l` and channel `c`. -/
def addTask (s : Net L C) (l : L) (c : C) : Net L C where
  tasks := Function.update s.tasks s.nextId (some l)
  channels := Function.update s.channels s.nextId (some c)
  nextId := s.nextId + 1

/-- Task `t` makes a move; `none` when the move is not defined. -/
def perform (med : Medium M V C) (s : Net L C) (t : Nat) : Move M V L → Option (Net L C)
  | .compute next => some (s.resume t next)
  | .create child next =>
    some ((s.addTask (child s.nextId) (med.create s.nextId)).resume t (next s.nextId))
  | .send target msg next =>
    (s.channels target).map fun c =>
      let sent := med.send t target c msg
      (s.setChannel target sent.1).resume t (next sent.2)
  | .peek next => (s.channels t).map fun c => s.resume t (next (med.peek c))
  | .take next => (s.channels t).map fun c => (s.setChannel t (med.take t c)).resume t next
  | .drop next => (s.channels t).map fun c => (s.setChannel t (med.drop t c)).resume t next
  | .finish next =>
    (s.channels t).bind fun c =>
      let read := med.finish t c
      read.2.map fun msg => (s.setChannel t read.1).resume t (next msg)
  | .stop => none
  | .fault => none

/-- Task `t` makes the move its program says. -/
def step (med : Medium M V C) (code : L → Move M V L) (s : Net L C) (t : Nat) :
    Option (Net L C) :=
  (s.tasks t).bind fun l => s.perform med t (code l)

/-- **Inversion of a move**: it leads task `t` to one of the local states the move names, and
    leaves all other tasks alone, but for the one it creates. -/
theorem perform_cases {med : Medium M V C} {s s' : Net L C} {t : Nat} {mv : Move M V L}
    (h : s.perform med t mv = some s') :
    (∃ l, mv.Leads l ∧ s'.tasks t = some l) ∧ s.nextId ≤ s'.nextId ∧
      ∀ u ≠ t, s'.tasks u = s.tasks u ∨
        ∃ child next, mv = .create child next ∧ u = s.nextId ∧ s'.tasks u = some (child u) := by
  have hresume : ∀ (s : Net L C) l u, u ≠ t → (s.resume t l).tasks u = s.tasks u := by
    intro s l u hu
    exact Function.update_of_ne hu ..
  have hself : ∀ (s : Net L C) l, (s.resume t l).tasks t = some l := by
    intro s l
    exact Function.update_self ..
  cases mv with
  | compute next =>
    obtain rfl := Option.some.inj h
    exact ⟨⟨_, rfl, hself ..⟩, Nat.le_refl _, fun u hu => .inl (hresume _ _ u hu)⟩
  | create child next =>
    obtain rfl := Option.some.inj h
    refine ⟨⟨_, ⟨_, rfl⟩, hself ..⟩, Nat.le_succ _, ?_⟩
    intro u hu
    rw [hresume _ _ u hu]
    by_cases hnew : u = s.nextId
    · subst hnew
      exact .inr ⟨child, next, rfl, rfl, Function.update_self ..⟩
    · exact .inl (Function.update_of_ne hnew ..)
  | send target msg next =>
    obtain ⟨c, -, rfl⟩ := Option.map_eq_some_iff.mp h
    exact ⟨⟨_, ⟨_, rfl⟩, hself ..⟩, Nat.le_refl _, fun u hu => .inl (hresume _ _ u hu)⟩
  | peek next =>
    obtain ⟨c, -, rfl⟩ := Option.map_eq_some_iff.mp h
    exact ⟨⟨_, ⟨_, rfl⟩, hself ..⟩, Nat.le_refl _, fun u hu => .inl (hresume _ _ u hu)⟩
  | take next | drop next =>
    obtain ⟨c, -, rfl⟩ := Option.map_eq_some_iff.mp h
    exact ⟨⟨_, rfl, hself ..⟩, Nat.le_refl _, fun u hu => .inl (hresume _ _ u hu)⟩
  | finish next =>
    obtain ⟨c, -, hread⟩ := Option.bind_eq_some_iff.mp h
    obtain ⟨msg, -, rfl⟩ := Option.map_eq_some_iff.mp hread
    exact ⟨⟨_, ⟨_, rfl⟩, hself ..⟩, Nat.le_refl _, fun u hu => .inl (hresume _ _ u hu)⟩
  | stop | fault => cases h

/-- The state the tasks start in: every task has a new channel. -/
def start (med : Medium M V C) (tasks : Nat → Option L) (nextId : Nat) : Net L C where
  tasks := tasks
  channels t := (tasks t).map fun _ => med.create t
  nextId := nextId

/-- Nothing goes wrong in the next step: a message about to be sent will be accepted, and
    every task that has not returned can go on. -/
structure Sound (med : Medium M V C) (code : L → Move M V L) (s : Net L C) : Prop where
  accepted : ∀ t l target msg next, s.tasks t = some l → code l = .send target msg next →
    ∃ c, s.channels target = some c ∧ (med.send t target c msg).2 = true
  runs : ∀ t l, s.tasks t = some l → code l ≠ .stop → ∃ s', s.step med code t = some s'

/-! Reading a state that has been updated. -/

section Update

variable {s : Net L C} {t u : Nat} {l : L} {c : C}

@[simp] theorem resume_tasks : (s.resume t l).tasks u = if u = t then some l else s.tasks u :=
  Function.update_apply ..

@[simp] theorem resume_channels : (s.resume t l).channels = s.channels := rfl

@[simp] theorem resume_nextId : (s.resume t l).nextId = s.nextId := rfl

@[simp] theorem setChannel_tasks : (s.setChannel t c).tasks = s.tasks := rfl

@[simp] theorem setChannel_channels :
    (s.setChannel t c).channels u = if u = t then some c else s.channels u :=
  Function.update_apply ..

@[simp] theorem setChannel_nextId : (s.setChannel t c).nextId = s.nextId := rfl

@[simp] theorem addTask_tasks :
    (s.addTask l c).tasks u = if u = s.nextId then some l else s.tasks u :=
  Function.update_apply ..

@[simp] theorem addTask_channels :
    (s.addTask l c).channels u = if u = s.nextId then some c else s.channels u :=
  Function.update_apply ..

@[simp] theorem addTask_nextId : (s.addTask l c).nextId = s.nextId + 1 := rfl

/-- Going on in the same local state changes nothing. -/
theorem resume_self (h : s.tasks t = some l) : s.resume t l = s := by
  rw [resume, ← h, Function.update_eq_self]

theorem setChannel_self (h : s.channels t = some c) : s.setChannel t c = s := by
  rw [setChannel, ← h, Function.update_eq_self]

end Update

end Net

/-- The tasks of a network, taking steps in any order. -/
def network (med : Medium M V C) (code : L → Move M V L) (tasks : Nat → Option L)
    (nextId : Nat) : System (Net L C) Nat where
  init s := s = .start med tasks nextId
  step := Net.step med code

/-! ## Task numbers -/

/-- Numbers below `k` without repetition are at most `k` many. -/
theorem length_le_of_nodup {ns : List Nat} {k : Nat} (hnodup : ns.Nodup) (hlt : ∀ n ∈ ns, n < k) :
    ns.length ≤ k := by
  have hsub : ns ⊆ List.range k := fun n hn => List.mem_range.mpr (hlt n hn)
  simpa using (List.subperm_of_subset hnodup hsub).length_le

/-- When there are `k` of them, they are all of these. -/
theorem perm_range_of_nodup {ns : List Nat} {k : Nat} (hnodup : ns.Nodup) (hlt : ∀ n ∈ ns, n < k)
    (hlen : ns.length = k) : ns.Perm (List.range k) := by
  have hsub : ns ⊆ List.range k := fun n hn => List.mem_range.mpr (hlt n hn)
  exact (List.subperm_of_subset hnodup hsub).perm_of_length_le (by simp [hlen])

/-- When there are fewer, one of them is missing. -/
theorem exists_not_mem_of_length_lt {ns : List Nat} {k : Nat} (h : ns.length < k) :
    ∃ n < k, n ∉ ns := by
  by_contra hall
  have hsub : List.range k ⊆ ns := by
    intro n hn
    by_contra hnot
    exact hall ⟨n, List.mem_range.mp hn, hnot⟩
  have hle := (List.subperm_of_subset List.nodup_range hsub).length_le
  rw [List.length_range] at hle
  omega

/-! ## The ideal channel -/

/-- All messages accepted, oldest first, how many of them have been taken, and the one the
    reader has got hold of. -/
structure Log (M : Type*) where
  accepted : List M
  taken : Nat
  inHand : Option M

namespace Log

/-- The message taken next. -/
def next? (q : Log M) : Option M := q.accepted[q.taken]?

def empty : Log M := ⟨[], 0, none⟩

/-- Logs as channels; a look at a log shows `view` of the next message. -/
def medium (view : Option M → V) : Medium M V (Log M) where
  create _ := empty
  send _ _ q msg := ({ q with accepted := q.accepted ++ [msg] }, true)
  peek q := view q.next?
  take _ q :=
    match q.next? with
    | some msg => { q with taken := q.taken + 1, inHand := some msg }
    | none => { q with inHand := none }
  drop _ q :=
    match q.next? with
    | some _ => { q with taken := q.taken + 1, inHand := none }
    | none => { q with inHand := none }
  finish _ q := ({ q with inHand := none }, q.inHand)

end Log

/-- **Logs only grow**, whatever a task does. -/
theorem Log.accepted_prefix {view : Option M → V} {code : L → Move M V L} {a a' : Net L (Log M)}
    {t u : Nat} {q : Log M} (h : a.step (Log.medium view) code t = some a')
    (hq : a.channels u = some q) (hu : u < a.nextId) :
    ∃ q', a'.channels u = some q' ∧ q.accepted <+: q'.accepted := by
  obtain ⟨l, -, hmove⟩ := Option.bind_eq_some_iff.mp h
  -- every move but a send leaves the list of the channel it uses as it is
  have hset : ∀ {c c' : Log M} {v : Nat} {l : L}, a.channels v = some c →
      c.accepted <+: c'.accepted →
      ∃ q', ((a.setChannel v c').resume t l).channels u = some q' ∧
        q.accepted <+: q'.accepted := by
    intro c c' v l hc hgrow
    simp only [Net.resume_channels, Net.setChannel_channels]
    by_cases hv : u = v
    · subst hv
      obtain rfl := Option.some.inj (hq.symm.trans hc)
      exact ⟨c', if_pos rfl, hgrow⟩
    · exact ⟨q, by rw [if_neg hv, hq], List.prefix_refl _⟩
  cases hcode : code l with
  | compute next =>
    rw [hcode] at hmove
    obtain rfl := Option.some.inj hmove
    exact ⟨q, hq, List.prefix_refl _⟩
  | create child next =>
    rw [hcode] at hmove
    obtain rfl := Option.some.inj hmove
    refine ⟨q, ?_, List.prefix_refl _⟩
    rw [Net.resume_channels, Net.addTask_channels, if_neg (Nat.ne_of_lt hu), hq]
  | send target msg next =>
    rw [hcode] at hmove
    obtain ⟨c, hc, rfl⟩ := Option.map_eq_some_iff.mp hmove
    exact hset hc (List.prefix_append ..)
  | peek next =>
    rw [hcode] at hmove
    obtain ⟨c, -, rfl⟩ := Option.map_eq_some_iff.mp hmove
    exact ⟨q, hq, List.prefix_refl _⟩
  | take next | drop next =>
    rw [hcode] at hmove
    obtain ⟨c, hc, rfl⟩ := Option.map_eq_some_iff.mp hmove
    apply hset hc
    simp only [Log.medium]
    split <;> exact List.prefix_refl _
  | finish next =>
    rw [hcode] at hmove
    obtain ⟨c, hc, hread⟩ := Option.bind_eq_some_iff.mp hmove
    obtain ⟨msg, -, rfl⟩ := Option.map_eq_some_iff.mp hread
    exact hset hc (List.prefix_refl _)
  | stop | fault =>
    rw [hcode] at hmove
    cases hmove

/-- **What a move has to meet** over logs, for `P` to hold after it: sends go to channels with
    room, and a message is only taken, dropped or read when there is one. -/
def Allows (view : Option M → V) (room : Nat → Log M → M → Prop) (P : Net L (Log M) → Prop)
    (a : Net L (Log M)) (t : Nat) : Move M V L → Prop
  | .compute next => P (a.resume t next)
  | .create child next => P ((a.addTask (child a.nextId) Log.empty).resume t (next a.nextId))
  | .send target msg next =>
    ∃ q, a.channels target = some q ∧ room target q msg ∧
      P ((a.setChannel target { q with accepted := q.accepted ++ [msg] }).resume t (next true))
  | .peek next => ∃ q, a.channels t = some q ∧ P (a.resume t (next (view q.next?)))
  | .take next =>
    ∃ q msg, a.channels t = some q ∧ q.next? = some msg ∧
      P ((a.setChannel t { q with taken := q.taken + 1, inHand := some msg }).resume t next)
  | .drop next =>
    ∃ q msg, a.channels t = some q ∧ q.next? = some msg ∧
      P ((a.setChannel t { q with taken := q.taken + 1, inHand := none }).resume t next)
  | .finish next =>
    ∃ q msg, a.channels t = some q ∧ q.inHand = some msg ∧
      P ((a.setChannel t { q with inHand := none }).resume t (next msg))
  | .stop => True
  | .fault => False

/-! ## Media that behave like logs -/

/-- A medium that behaves like logs as long as messages are only sent where there is room. -/
structure Carries (med : Medium M V C) (view : Option M → V)
    (room : Nat → Log M → M → Prop) where
  /-- The channel of the task stands for the log. -/
  Tracks : Nat → C → Log M → Prop
  create : ∀ t, Tracks t (med.create t) Log.empty
  send : ∀ {u t c q msg}, Tracks t c q → room t q msg → (med.send u t c msg).2 = true ∧
    Tracks t (med.send u t c msg).1 { q with accepted := q.accepted ++ [msg] }
  peek : ∀ {t c q}, Tracks t c q → med.peek c = view q.next?
  take : ∀ {t c q msg}, Tracks t c q → q.next? = some msg →
    Tracks t (med.take t c) { q with taken := q.taken + 1, inHand := some msg }
  drop : ∀ {t c q msg}, Tracks t c q → q.next? = some msg →
    Tracks t (med.drop t c) { q with taken := q.taken + 1, inHand := none }
  finish : ∀ {t c q msg}, Tracks t c q → q.inHand = some msg →
    (med.finish t c).2 = some msg ∧ Tracks t (med.finish t c).1 { q with inHand := none }

variable {med : Medium M V C} {view : Option M → V} {room : Nat → Log M → M → Prop}

/-- The same tasks in the same local states, and every channel stands for the log. -/
structure Net.Tracks (K : Carries med view room) (s : Net L C) (a : Net L (Log M)) : Prop where
  tasks : s.tasks = a.tasks
  nextId : s.nextId = a.nextId
  channels : ∀ t, Option.Rel (K.Tracks t) (s.channels t) (a.channels t)

namespace Net.Tracks

variable {K : Carries med view room} {s : Net L C} {a : Net L (Log M)}

theorem start (K : Carries med view room) (tasks : Nat → Option L) (nextId : Nat) :
    (Net.start med tasks nextId).Tracks K (Net.start (Log.medium view) tasks nextId) where
  tasks := rfl
  nextId := rfl
  channels t := by
    simp only [Net.start]
    cases tasks t with
    | none => exact .none
    | some l => exact .some (K.create t)

theorem resume (h : s.Tracks K a) (t : Nat) (l : L) : (s.resume t l).Tracks K (a.resume t l) where
  tasks := by simp only [Net.resume, h.tasks]
  nextId := h.nextId
  channels := h.channels

theorem setChannel (h : s.Tracks K a) {t : Nat} {c : C} {q : Log M} (hc : K.Tracks t c q) :
    (s.setChannel t c).Tracks K (a.setChannel t q) where
  tasks := h.tasks
  nextId := h.nextId
  channels u := by
    simp only [setChannel_channels]
    split
    case isTrue heq => exact .some (heq ▸ hc)
    case isFalse => exact h.channels u

theorem addTask (h : s.Tracks K a) (l : L) :
    (s.addTask l (med.create s.nextId)).Tracks K (a.addTask l Log.empty) where
  tasks := by simp only [Net.addTask, h.tasks, h.nextId]
  nextId := by simp only [Net.addTask, h.nextId]
  channels u := by
    simp only [addTask_channels, h.nextId]
    split
    case isTrue heq => exact .some (heq ▸ K.create _)
    case isFalse => exact h.channels u

/-- Where the log network has a channel, so has the other one. -/
theorem channel (h : s.Tracks K a) {t : Nat} {q : Log M} (hq : a.channels t = some q) :
    ∃ c, s.channels t = some c ∧ K.Tracks t c q := by
  have hrel := h.channels t
  rw [hq] at hrel
  cases hc : s.channels t with
  | none =>
    rw [hc] at hrel
    cases hrel
  | some c =>
    rw [hc] at hrel
    cases hrel with
    | some htracks => exact ⟨c, rfl, htracks⟩

end Net.Tracks

namespace Carries

variable {K : Carries med view room} {code : L → Move M V L} {s : Net L C} {a : Net L (Log M)}
  {P : Net L (Log M) → Prop}

/-- **Step**: a move that is allowed over logs is defined over the medium, does the same
    there, and what it sends is accepted. -/
theorem perform (h : s.Tracks K a) {t : Nat} {mv : Move M V L} (hmv : mv ≠ .stop)
    (hallows : Allows view room P a t mv) :
    ∃ s' a', s.perform med t mv = some s' ∧ a.perform (Log.medium view) t mv = some a' ∧
      s'.Tracks K a' ∧ P a' := by
  cases mv with
  | compute next => exact ⟨_, _, rfl, rfl, h.resume t next, hallows⟩
  | create child next =>
    refine ⟨_, _, rfl, rfl, ?_, hallows⟩
    rw [h.nextId]
    have hadd := h.addTask (child a.nextId)
    rw [h.nextId] at hadd
    exact hadd.resume t _
  | send target msg next =>
    obtain ⟨q, hq, hroom, hP⟩ := hallows
    obtain ⟨c, hc, htracks⟩ := h.channel hq
    obtain ⟨haccepted, hsent⟩ := K.send (u := t) htracks hroom
    refine ⟨_, _, by simp only [Net.perform, hc, Option.map_some]; rfl,
      by simp only [Net.perform, hq, Option.map_some]; rfl, ?_, hP⟩
    rw [haccepted]
    exact (h.setChannel hsent).resume t _
  | peek next =>
    obtain ⟨q, hq, hP⟩ := hallows
    obtain ⟨c, hc, htracks⟩ := h.channel hq
    refine ⟨_, _, by simp only [Net.perform, hc, Option.map_some]; rfl,
      by simp only [Net.perform, hq, Option.map_some]; rfl, ?_, hP⟩
    rw [K.peek htracks]
    exact h.resume t _
  | take next =>
    obtain ⟨q, msg, hq, hnext, hP⟩ := hallows
    obtain ⟨c, hc, htracks⟩ := h.channel hq
    refine ⟨_, _, by simp only [Net.perform, hc, Option.map_some]; rfl,
      by simp only [Net.perform, hq, Option.map_some, Log.medium, hnext], ?_, hP⟩
    exact (h.setChannel (K.take htracks hnext)).resume t _
  | drop next =>
    obtain ⟨q, msg, hq, hnext, hP⟩ := hallows
    obtain ⟨c, hc, htracks⟩ := h.channel hq
    refine ⟨_, _, by simp only [Net.perform, hc, Option.map_some]; rfl,
      by simp only [Net.perform, hq, Option.map_some, Log.medium, hnext], ?_, hP⟩
    exact (h.setChannel (K.drop htracks hnext)).resume t _
  | finish next =>
    obtain ⟨q, msg, hq, hhand, hP⟩ := hallows
    obtain ⟨c, hc, htracks⟩ := h.channel hq
    obtain ⟨hread, hdone⟩ := K.finish htracks hhand
    refine ⟨_, _, by simp only [Net.perform, hc, Option.bind_some, hread, Option.map_some]; rfl,
      by simp only [Net.perform, hq, Option.bind_some, Log.medium, hhand, Option.map_some],
      ?_, hP⟩
    exact (h.setChannel hdone).resume t _
  | stop => exact absurd rfl hmv
  | fault => exact hallows.elim

variable {tasks : Nat → Option L} {nextId : Nat} {Inv : Net L (Log M) → Prop}

/-- **Invariants carry over**: what holds initially over logs and is kept by all moves, which
    it allows, holds of the logs that the medium's channels stand for in any reachable state. -/
theorem reachable (K : Carries med view room)
    (hinit : Inv (Net.start (Log.medium view) tasks nextId))
    (hstep : ∀ a t l, Inv a → a.tasks t = some l → Allows view room Inv a t (code l))
    (h : (network med code tasks nextId).Reachable s) : ∃ a, s.Tracks K a ∧ Inv a := by
  refine System.Reachable.invariant (P := fun s => ∃ a, s.Tracks K a ∧ Inv a) ?_ ?_ h
  · rintro s rfl
    exact ⟨_, Net.Tracks.start K tasks nextId, hinit⟩
  · rintro s t s' ⟨a, htracks, hInv⟩ hs
    obtain ⟨l, hl, hmove⟩ := Option.bind_eq_some_iff.mp hs
    have hallows := hstep a t l hInv (htracks.tasks ▸ hl)
    have hne : code l ≠ .stop := by
      intro hstop
      rw [hstop] at hmove
      cases hmove
    obtain ⟨s'', a', hs'', -, htracks', hInv'⟩ := perform htracks hne hallows
    obtain rfl : s'' = s' := Option.some.inj (hs''.symm.trans hmove)
    exact ⟨a', htracks', hInv'⟩

/-- **Nothing goes wrong** over the medium where all moves are allowed over the logs. -/
theorem sound (h : s.Tracks K a)
    (hallows : ∀ t l, a.tasks t = some l → Allows view room P a t (code l)) :
    s.Sound med code where
  accepted t l target msg next hl hcode := by
    have hsend := hallows t l (h.tasks ▸ hl)
    rw [hcode] at hsend
    obtain ⟨q, hq, hroom, -⟩ := hsend
    obtain ⟨c, hc, htracks⟩ := h.channel hq
    exact ⟨c, hc, (K.send htracks hroom).1⟩
  runs t l hl hne := by
    obtain ⟨s', -, hs', -⟩ := perform h hne (hallows t l (h.tasks ▸ hl))
    exact ⟨s', by rw [Net.step, hl, Option.bind_some, hs']⟩

/-- **Runs carry over**: every run over logs is a run over the medium. -/
theorem replay (hstep : ∀ a t l, Inv a → a.tasks t = some l → Allows view room Inv a t (code l))
    (h : s.Tracks K a) (hInv : Inv a) (ts : List Nat) {a' : Net L (Log M)}
    (hrun : (network (Log.medium view) code tasks nextId).runFrom a ts = some a') :
    ∃ s', (network med code tasks nextId).runFrom s ts = some s' ∧ s'.Tracks K a' ∧ Inv a' := by
  induction ts generalizing s a with
  | nil =>
    obtain rfl : a = a' := by simpa [System.runFrom] using hrun
    exact ⟨s, rfl, h, hInv⟩
  | cons t ts ih =>
    obtain ⟨a₁, ha₁, hrest⟩ := Option.bind_eq_some_iff.mp hrun
    obtain ⟨l, hl, hmove⟩ := Option.bind_eq_some_iff.mp ha₁
    have hne : code l ≠ .stop := by
      intro hstop
      rw [hstop] at hmove
      cases hmove
    obtain ⟨s₁, a₂, hs₁, ha₂, htracks, hInv'⟩ := perform h hne (hstep a t l hInv hl)
    obtain rfl : a₂ = a₁ := Option.some.inj (ha₂.symm.trans hmove)
    obtain ⟨s', hs', hfinal⟩ := ih htracks hInv' hrest
    refine ⟨s', ?_, hfinal⟩
    have hfirst : (network med code tasks nextId).step s t = some s₁ := by
      show s.step med code t = some s₁
      rw [Net.step, h.tasks, hl, Option.bind_some, hs₁]
    rw [System.runFrom, hfirst, Option.bind_some, hs']

end Carries

end TaskSystem.Library
