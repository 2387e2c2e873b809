import TaskSystem.MsgQueue.Post

/-!
# The `receive` of a Task

Every task type has its own `receive`, and all of them are one function with different
switches: look at the tag of the next message until there is one, then receive and handle
that message, leave it, or drop it.

## Contents

- `TagCase`, `ReceivePoint`, `receiveMove`
- `ReceivePoint.Ready`, `dequeued`, `hand`: what a task relies on at a point
- `ReceivePoint.stepsLeft`, `receiveMove_rank`, `receive_lowers`: a call comes to its end
- `allows_poll`, `allows_receive`, `allows_clone`: one lemma for each point a task may stand at
-/

namespace TaskSystem

open Library

variable {L : Type*}

/-- What the switch of a `receive` does with a tag. -/
inductive TagCase where
  /-- Receive the message and call its handler -/
  | handle
  /-- Leave the message where it is -/
  | ignore
  /-- "No Handler for tag": drop the message -/
  | default
  deriving DecidableEq

/-- Where a task stands inside `receive`. -/
inductive ReceivePoint where
  /-- Before `getMsgTag` -/
  | poll
  /-- Before the `Dequeue` of `Comm->receive` -/
  | receive (tag : Int32)
  /-- Before the `clone` of `Comm->receive` -/
  | clone (tag : Int32)
  /-- Before `Comm->dropMsg` -/
  | drop
  deriving DecidableEq

/-- `receive` of a task with the given switch, from a point inside. `inside` is the task's local
    state at a point, `handled` the one after the handler for the tag has run on the message,
    `back` the one after a call that handled nothing. -/
def receiveMove (switch : Int32 → TagCase) (inside : ReceivePoint → L)
    (handled : Int32 → AnyMsg → L) (back : L) : ReceivePoint → Move AnyMsg Int32 L
  | .poll =>
    .peek fun tag =>
      if tag < 0 then inside .poll
      else
        match switch tag with
        | .handle => inside (.receive tag)
        | .ignore => back
        | .default => inside .drop
  | .receive tag => .take (inside (.clone tag))
  | .clone tag => .finish fun msg => handled tag msg
  | .drop => .drop back

/-- **Inversion of `receive`**: the task stays inside, has handled a message, or goes on without
    having handled one. -/
theorem receiveMove_leads {switch : Int32 → TagCase} {inside : ReceivePoint → L}
    {handled : Int32 → AnyMsg → L} {back : L} {point : ReceivePoint} {l : L}
    (h : (receiveMove switch inside handled back point).Leads l) :
    (∃ p, l = inside p) ∨ (∃ tag msg, l = handled tag msg) ∨ l = back := by
  cases point with
  | poll =>
    obtain ⟨tag, rfl⟩ := h
    simp only []
    split
    · exact .inl ⟨_, rfl⟩
    · cases switch tag with
      | handle | default => exact .inl ⟨_, rfl⟩
      | ignore => exact .inr (.inr rfl)
  | receive tag => exact .inl ⟨_, h⟩
  | clone tag =>
    obtain ⟨msg, rfl⟩ := h
    exact .inr (.inl ⟨tag, msg, rfl⟩)
  | drop => exact .inr (.inr h)

namespace ReceivePoint

/-- A task that is past polling has seen the tag of the message it is to receive. -/
def Ready (msg? : Option AnyMsg) : ReceivePoint → Prop
  | .poll => True
  | .receive tag | .clone tag => ∃ msg, msg? = some msg ∧ msg.tag = tag
  | .drop => False

/-- How many messages the call has dequeued. -/
def dequeued : ReceivePoint → Nat
  | .clone _ => 1
  | _ => 0

/-- The message the task has got hold of. -/
def hand (msg? : Option AnyMsg) : ReceivePoint → Option AnyMsg
  | .clone _ => msg?
  | _ => none

/-- Messages that come later do not matter. -/
theorem Ready.append {point : ReceivePoint} {msgs : List AnyMsg} {i : Nat}
    (h : point.Ready msgs[i]?) (more : List AnyMsg) : point.Ready (msgs ++ more)[i]? := by
  cases point with
  | poll => trivial
  | receive tag | clone tag =>
    obtain ⟨msg, hmsg, htag⟩ := h
    have hlt := (List.getElem?_eq_some_iff.mp hmsg).1
    exact ⟨msg, by rw [List.getElem?_append_left hlt, hmsg], htag⟩
  | drop => exact h

theorem Ready.hand_append {point : ReceivePoint} {msgs : List AnyMsg} {i : Nat}
    (h : point.Ready msgs[i]?) (more : List AnyMsg) :
    point.hand (msgs ++ more)[i]? = point.hand msgs[i]? := by
  cases point with
  | clone tag =>
    obtain ⟨msg, hmsg, -⟩ := h
    have hlt := (List.getElem?_eq_some_iff.mp hmsg).1
    simp only [hand, List.getElem?_append_left hlt]
  | poll | receive _ | drop => rfl

end ReceivePoint

section Rank

variable {C : Type*} {switch : Int32 → TagCase} {inside : ReceivePoint → L}
  {handled : Int32 → AnyMsg → L} {back l : L} {point : ReceivePoint} {rank : L → Nat} {n : Nat}

/-- How many steps the call still takes, polling aside. -/
def ReceivePoint.stepsLeft : ReceivePoint → Nat
  | .poll => 3
  | .receive _ => 2
  | .clone _ | .drop => 1

/-- A task inside `receive` has not returned. -/
theorem receiveMove_ne_stop : receiveMove switch inside handled back point ≠ .stop := by
  cases point <;> nofun

/-- A call of `receive` comes closer to its end with every step, but for a poll that finds no
    message. -/
theorem receiveMove_rank (hinside : ∀ p, rank (inside p) = n + p.stepsLeft)
    (hhandled : ∀ tag msg, rank (handled tag msg) ≤ n) (hback : rank back ≤ n)
    (h : (receiveMove switch inside handled back point).Leads l) :
    rank l < rank (inside point) ∨ point = .poll ∧ l = inside .poll := by
  rw [hinside]
  cases point with
  | poll =>
    obtain ⟨tag, rfl⟩ := h
    by_cases hneg : tag < 0
    · exact .inr ⟨rfl, if_pos hneg⟩
    · refine .inl ?_
      simp only [hneg, if_false]
      cases switch tag with
      | handle | default =>
        simp only [hinside, ReceivePoint.stepsLeft]
        omega
      | ignore =>
        simp only [ReceivePoint.stepsLeft]
        omega
  | receive tag =>
    obtain rfl : l = inside (.clone tag) := h
    refine .inl ?_
    simp only [hinside, ReceivePoint.stepsLeft]
    omega
  | clone tag =>
    obtain ⟨msg, rfl⟩ := h
    exact .inl (Nat.lt_succ_of_le (hhandled tag msg))
  | drop =>
    obtain rfl : l = back := h
    exact .inl (Nat.lt_succ_of_le hback)

/-- With a message in the queue it does so in any case. -/
theorem receive_lowers (hinside : ∀ p, rank (inside p) = n + p.stepsLeft)
    (hhandled : ∀ tag msg, rank (handled tag msg) ≤ n) (hback : rank back ≤ n)
    {med : Medium AnyMsg Int32 C} {s s' : Net L C} {t : Nat}
    (h : s.perform med t (receiveMove switch inside handled back point) = some s')
    (hpoll : point = .poll → ∃ c, s.channels t = some c ∧ 0 ≤ med.peek c) :
    ∃ l, s'.tasks t = some l ∧ rank l < rank (inside point) := by
  obtain ⟨⟨l, hleads, hl⟩, -, -⟩ := Net.perform_cases h
  refine ⟨l, hl, ?_⟩
  rcases receiveMove_rank hinside hhandled hback hleads with hlt | ⟨rfl, rfl⟩
  · exact hlt
  · -- the poll has seen a message
    obtain ⟨c, hc, htag⟩ := hpoll rfl
    obtain ⟨c', hc', rfl⟩ := Option.map_eq_some_iff.mp h
    obtain rfl := Option.some.inj (hc.symm.trans hc')
    have hnonneg : ¬med.peek c < 0 := Int32.not_lt.mpr htag
    simp only [hnonneg, if_false, Net.resume_tasks, if_true, Option.some.injEq] at hl
    -- so it leads away from the poll
    have hrank := congrArg rank hl
    rw [hinside] at hrank
    cases hcase : switch (med.peek c) with
    | handle | default =>
      simp only [hcase, hinside, ReceivePoint.stepsLeft] at hrank
      omega
    | ignore =>
      simp only [hcase, ReceivePoint.stepsLeft] at hrank
      omega

end Rank

section Allows

variable {room : Nat → Log AnyMsg → AnyMsg → Prop} {P : Net L (Log AnyMsg) → Prop}
  {a : Net L (Log AnyMsg)} {t : Nat} {q : Log AnyMsg} {switch : Int32 → TagCase}
  {inside : ReceivePoint → L} {handled : Int32 → AnyMsg → L} {back : L}

/-- **Polling** goes on while there is no message, and ends at a message the task handles. -/
theorem allows_poll (hq : a.channels t = some q) (hself : a.tasks t = some (inside .poll))
    (hP : P a)
    (hnext : ∀ msg, q.next? = some msg → 0 ≤ msg.tag ∧ switch msg.tag = .handle ∧
      P (a.resume t (inside (.receive msg.tag)))) :
    Allows tagOf room P a t (receiveMove switch inside handled back .poll) := by
  refine ⟨q, hq, ?_⟩
  cases hmsg : q.next? with
  | none =>
    have hneg : (-1 : Int32) < 0 := by decide
    simp only [tagOf, hneg, if_true]
    rw [Net.resume_self hself]
    exact hP
  | some msg =>
    obtain ⟨htag, hswitch, hP'⟩ := hnext msg hmsg
    have hnonneg : ¬msg.tag < 0 := Int32.not_lt.mpr htag
    simp only [tagOf, hnonneg, if_false, hswitch]
    exact hP'

/-- **`Dequeue`** needs a message. -/
theorem allows_receive {tag : Int32} {msg : AnyMsg} (hq : a.channels t = some q)
    (hnext : q.next? = some msg)
    (hP : P ((a.setChannel t { q with taken := q.taken + 1, inHand := some msg }).resume t
      (inside (.clone tag)))) :
    Allows tagOf room P a t (receiveMove switch inside handled back (.receive tag)) :=
  ⟨q, msg, hq, hnext, hP⟩

/-- **`clone`** gives the handler the message that was dequeued. -/
theorem allows_clone {tag : Int32} {msg : AnyMsg} (hq : a.channels t = some q)
    (hhand : q.inHand = some msg)
    (hP : P ((a.setChannel t { q with inHand := none }).resume t (handled tag msg))) :
    Allows tagOf room P a t (receiveMove switch inside handled back (.clone tag)) :=
  ⟨q, msg, hq, hhand, hP⟩

end Allows

end TaskSystem
