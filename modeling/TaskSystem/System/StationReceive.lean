import TaskSystem.System.Station

/-!
# Calls of `receive` at a Station

What a call of `receive` does to the queue of a station, for any switch, whatever comes in
meanwhile: a rule for each program that calls it, in place of one for each of its programs.

## Contents

- `Station.handledBy`: the messages a switch has handled
- `Station.ReceivesAt`: what holds at a point inside a call
- `ReceivesAt.sublist`: what has been handled has come in
- `accepted_deliver`, `ReceivesAt.deliver`: a message that comes in
- `ReceiveStep`, `ReceivesAt.step`, `ReceivesAt.goesOn`: a step of the call
-/

namespace TaskSystem

open Library

namespace Station

variable {L : Type*} {P : Process} {s s' : Station L} {switch : Int32 → TagCase}
  {received : List AnyMsg} {point : ReceivePoint} {msg : AnyMsg}

/-- The messages removed from the queue whose tag has a handler, oldest first. -/
def handledBy (switch : Int32 → TagCase) (s : Station L) : List AnyMsg :=
  (s.accepted.take s.taken).filter fun msg => switch msg.tag = .handle

/-- What has been handled has come in. -/
theorem of_handledBy {p : AnyMsg → Prop} (h : ∀ msg ∈ s.accepted, p msg)
    (hhandled : s.handledBy switch = received) : ∀ msg ∈ received, p msg := by
  intro msg hmsg
  rw [← hhandled] at hmsg
  exact h msg (List.mem_of_mem_take (List.mem_filter.mp hmsg).1)

/-- What holds of the queue at a point inside `receive`, when `received` have been handled. -/
def ReceivesAt (P : Process) (switch : Int32 → TagCase) (received : List AnyMsg) (s : Station L) :
    ReceivePoint → Prop
  | .poll => s.Tracks P none ∧ s.handledBy switch = received
  | .receive tag => s.Tracks P none ∧ s.handledBy switch = received ∧
      ∃ msg, s.next? = some msg ∧ msg.tag = tag ∧ switch tag = .handle
  | .clone tag => ∃ msg, s.Tracks P (some msg) ∧ s.handledBy switch = received ++ [msg] ∧
      msg.tag = tag ∧ switch tag = .handle
  | .drop => s.Tracks P none ∧ s.handledBy switch = received ∧
      ∃ msg, s.next? = some msg ∧ switch msg.tag = .default

/-- What has been handled has come in, in this order. -/
theorem ReceivesAt.sublist (h : s.ReceivesAt P switch received point) :
    received.Sublist s.accepted := by
  have hle : (s.handledBy switch).Sublist s.accepted :=
    List.filter_sublist.trans (List.take_sublist ..)
  cases point with
  | poll =>
    rw [← h.2]
    exact hle
  | receive tag | drop =>
    rw [← h.2.1]
    exact hle
  | clone tag =>
    obtain ⟨msg, -, hhandled, -⟩ := h
    rw [hhandled] at hle
    exact (List.sublist_append_left ..).trans hle

/-! ## Messages that come in -/

/-- What comes in stands behind the messages removed. -/
theorem handledBy_of_append {t : Station L} {more : List AnyMsg}
    (hle : s.taken ≤ s.accepted.length) (haccepted : t.accepted = s.accepted ++ more)
    (htaken : t.taken = s.taken) : t.handledBy switch = s.handledBy switch := by
  rw [handledBy, haccepted, htaken, List.take_append_of_le_length hle, handledBy]

/-- A message at the head stays there. -/
theorem next?_of_append {t : Station L} {more : List AnyMsg}
    (haccepted : t.accepted = s.accepted ++ more) (htaken : t.taken = s.taken)
    (h : s.next? = some msg) : t.next? = some msg := by
  have hlt := (List.getElem?_eq_some_iff.mp h).1
  rw [next?, haccepted, htaken, List.getElem?_append_left hlt]
  exact h

/-- A message that comes in stands behind the others, or is refused. -/
theorem accepted_deliver (s : Station L) (base : UInt64) (msg : AnyMsg) :
    ∃ more, (more = [] ∨ more = [msg]) ∧
      (s.deliver base msg).1.accepted = s.accepted ++ more := by
  simp only [deliver]
  split
  · exact ⟨[msg], .inr rfl, rfl⟩
  · exact ⟨[], .inl rfl, (List.append_nil _).symm⟩

/-- A message accepted was there before, or is the one that comes in. -/
theorem mem_deliver {base : UInt64} {m : AnyMsg} (hmsg : msg ∈ (s.deliver base m).1.accepted) :
    msg ∈ s.accepted ∨ msg = m := by
  obtain ⟨more, hmore, haccepted⟩ := s.accepted_deliver base m
  rw [haccepted, List.mem_append] at hmsg
  rcases hmore with rfl | rfl
  · exact .inl (hmsg.resolve_right List.not_mem_nil)
  · exact hmsg.imp_right List.mem_singleton.mp

/-- **A message that comes in** changes nothing for the call. -/
theorem ReceivesAt.deliver (h : s.ReceivesAt P switch received point) (base : UInt64)
    (msg : ValidMsg) (hsafe : SafeSend s.mb msg.size) :
    (s.deliver base msg.1).1.ReceivesAt P switch received point := by
  cases point with
  | poll =>
    obtain ⟨htracks, hhandled⟩ := h
    obtain ⟨htracks', more, hmore⟩ := htracks.deliver base msg hsafe
    exact ⟨htracks', (handledBy_of_append htracks.taken_le hmore rfl).trans hhandled⟩
  | receive tag =>
    obtain ⟨htracks, hhandled, head, hhead, htag⟩ := h
    obtain ⟨htracks', more, hmore⟩ := htracks.deliver base msg hsafe
    exact ⟨htracks', (handledBy_of_append htracks.taken_le hmore rfl).trans hhandled, head,
      next?_of_append hmore rfl hhead, htag⟩
  | clone tag =>
    obtain ⟨held, htracks, hhandled, htag⟩ := h
    obtain ⟨htracks', more, hmore⟩ := htracks.deliver base msg hsafe
    exact ⟨held, htracks', (handledBy_of_append htracks.taken_le hmore rfl).trans hhandled, htag⟩
  | drop =>
    obtain ⟨htracks, hhandled, head, hhead, hswitch⟩ := h
    obtain ⟨htracks', more, hmore⟩ := htracks.deliver base msg hsafe
    exact ⟨htracks', (handledBy_of_append htracks.taken_le hmore rfl).trans hhandled, head,
      next?_of_append hmore rfl hhead, hswitch⟩

/-! ## The steps of a call -/

/-- Removing the message at the head adds it to those handled, when its tag has a handler. -/
theorem handledBy_removed (hnext : s.next? = some msg) (hremoved : s.removed = s.taken + 1)
    (l : L) (mb : Mailbox) :
    handledBy switch { s with loc := l, mb, taken := s.removed } =
      s.handledBy switch ++ if switch msg.tag = .handle then [msg] else [] := by
  have hget : s.accepted[s.taken]? = some msg := hnext
  rw [handledBy, hremoved, List.take_add_one, hget, List.filter_append, handledBy]
  congr 1
  simp only [Option.toList_some, List.filter_cons, List.filter_nil, decide_eq_true_eq]

/-- Where a step of `receive` leads, with `received` handled before it. -/
inductive ReceiveStep (P : Process) (switch : Int32 → TagCase) (inside : ReceivePoint → L)
    (handled : Int32 → AnyMsg → L) (back : L) (received : List AnyMsg) (s' : Station L) : Prop where
  | inside (point : ReceivePoint) (hloc : s'.loc = inside point)
      (h : s'.ReceivesAt P switch received point)
  | handled (msg : AnyMsg) (hloc : s'.loc = handled msg.tag msg)
      (hswitch : switch msg.tag = .handle) (h : s'.ReceivesAt P switch (received ++ [msg]) .poll)
  | back (hloc : s'.loc = back) (h : s'.ReceivesAt P switch received .poll)

variable {self : Nat} {sent : Bool} {inside : ReceivePoint → L} {handled : Int32 → AnyMsg → L}
  {back : L}

/-- **Step of a call**: it stays inside, has handled the next message, or returns without having
    handled one. -/
theorem ReceivesAt.step (h : s.ReceivesAt P switch received point)
    (hs : s.perform P self sent (receiveMove switch inside handled back point) = some s') :
    ReceiveStep P switch inside handled back received s' ∧ s'.accepted = s.accepted := by
  cases point with
  | poll =>
    obtain ⟨htracks, hhandled⟩ := h
    obtain rfl := Option.some.inj hs
    refine ⟨?_, rfl⟩
    cases hnext : s.next? with
    | none =>
      have htag : s.mb.getMsgTag = -1 := by
        rw [htracks.getMsgTag, hnext]
        rfl
      have hneg : (-1 : Int32) < 0 := by decide
      rw [htag]
      simp only [hneg, if_true]
      exact .inside .poll rfl ⟨htracks.goto _, hhandled⟩
    | some msg =>
      have htag : s.mb.getMsgTag = msg.tag := by
        rw [htracks.getMsgTag, hnext]
        rfl
      rw [htag]
      simp only []
      by_cases hneg : msg.tag < 0
      · rw [if_pos hneg]
        exact .inside .poll rfl ⟨htracks.goto _, hhandled⟩
      · rw [if_neg hneg]
        cases hswitch : switch msg.tag with
        | handle =>
          exact .inside _ rfl ⟨htracks.goto _, hhandled, msg, hnext, rfl, hswitch⟩
        | ignore => exact .back rfl ⟨htracks.goto _, hhandled⟩
        | default => exact .inside .drop rfl ⟨htracks.goto _, hhandled, msg, hnext, hswitch⟩
  | receive tag =>
    obtain ⟨htracks, hhandled, msg, hnext, rfl, hswitch⟩ := h
    obtain rfl := Option.some.inj hs
    refine ⟨.inside _ rfl ⟨msg, htracks.take hnext _, ?_, rfl, hswitch⟩, rfl⟩
    rw [handledBy_removed hnext (htracks.front hnext).1, if_pos hswitch, ← hhandled]
  | clone tag =>
    obtain ⟨msg, htracks, hhandled, rfl, hswitch⟩ := h
    obtain ⟨hread, htracks'⟩ := htracks.finish (handled msg.tag msg)
    simp only [receiveMove, perform, hread, Option.map_some] at hs
    obtain rfl := Option.some.inj hs
    exact ⟨.handled msg rfl hswitch ⟨htracks', hhandled⟩, rfl⟩
  | drop =>
    obtain ⟨htracks, hhandled, msg, hnext, hswitch⟩ := h
    obtain rfl := Option.some.inj hs
    refine ⟨.back rfl ⟨htracks.drop hnext _, ?_⟩, rfl⟩
    have hnot : switch msg.tag ≠ .handle := by
      rw [hswitch]
      exact TagCase.noConfusion
    rw [handledBy_removed hnext (htracks.front hnext).1, if_neg hnot, List.append_nil, hhandled]

/-- **A call can always go on.** -/
theorem ReceivesAt.goesOn (h : s.ReceivesAt P switch received point) :
    ∃ s', s.perform P self sent (receiveMove switch inside handled back point) = some s' := by
  cases point with
  | poll | receive _ | drop => exact ⟨_, rfl⟩
  | clone tag =>
    obtain ⟨msg, htracks, -⟩ := h
    obtain ⟨hread, -⟩ := htracks.finish (handled tag msg)
    simp only [receiveMove, perform, hread, Option.map_some]
    exact ⟨_, rfl⟩

end Station

end TaskSystem
