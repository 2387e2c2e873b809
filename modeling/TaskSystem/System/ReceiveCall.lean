import TaskSystem.System.Station

/-!
# One Call of `receive`

What a call of a task's `receive` does with the message at the head of the queue, whatever its
tag, while other processes go on sending. Most task types wait for a message; two return when
there is none. A call consumes the message unless the poll takes its tag for "no message", the
switch has a case for it that does nothing, or the handler it is given to does not return.

## Contents

- `Receiver`: a `receive` function, by how it polls, its switch and its handlers; `CallState`,
  `move`
- `Receiver.Consumes`: the call returns, and the queue is without the message
- `Receiver.Takes`, `Receiver.Accepts`, `Receiver.consumes_iff`: the messages for which it does
-/

namespace TaskSystem

open Library

variable {L : Type*}

/-- `receive` of a task that does not wait: it returns when there is no message. -/
def receiveOnceMove (switch : Int32 → TagCase) (inside : ReceivePoint → L)
    (handled : Int32 → AnyMsg → L) (back : L) : ReceivePoint → Move AnyMsg Int32 L
  | .poll =>
    .peek fun tag =>
      -- no messages in Q
      if tag = -1 then back
      else
        match switch tag with
        | .handle => inside (.receive tag)
        | .ignore => back
        | .default => inside .drop
  | point => receiveMove switch inside handled back point

/-- A `receive` function of a task with fields `S`. -/
structure Receiver (S : Type*) where
  /-- It polls until there is a message -/
  waits : Bool
  switch : Int32 → TagCase
  /-- The handler for a tag, run on the task and a message; `none` when it does not return -/
  handler : S → Int32 → AnyMsg → Option S

/-- Where a call of `receive` stands. -/
inductive CallState (S : Type*) where
  | inside (point : ReceivePoint)
  /-- `Comm->receive` has returned; before the handler for the tag -/
  | handle (tag : Int32) (msg : AnyMsg)
  /-- The handler has returned, and the call with it -/
  | handled (tag : Int32) (msg : AnyMsg) (this : S)
  /-- It has returned without calling a handler -/
  | back

/-- The call is over. -/
def CallState.returned {S : Type*} : CallState S → Bool
  | .inside _ | .handle _ _ => false
  | .handled _ _ _ | .back => true

namespace Receiver

variable {S : Type*}

/-- What a call of `receive` does next. -/
def move (r : Receiver S) (this : S) : CallState S → Move AnyMsg Int32 (CallState S)
  | .inside point =>
    if r.waits then receiveMove r.switch .inside .handle .back point
    else receiveOnceMove r.switch .inside .handle .back point
  | .handle tag msg =>
    match r.handler this tag msg with
    | some this' => .compute (.handled tag msg this')
    | none => .fault
  | .handled _ _ _ | .back => .stop

/-- A call of `receive` by the task `this` with process `P`. -/
def call (r : Receiver S) (P : Process) (this : S) : System (Station (CallState S)) StationEvent :=
  station P 0 (r.move this) (.inside .poll)

/-- The call begins; the queue keeps the message and `rest`. -/
def begin (mb : Mailbox) (msg : ValidMsg) (rest : List ValidMsg) : Station (CallState S) where
  loc := .inside .poll
  mb := mb
  accepted := (msg :: rest).map Subtype.val
  taken := 0

/-- The steps of the call itself. -/
def isOwn : StationEvent → Bool
  | .own _ => true
  | .arrive _ _ => false

/-- What has become of the message once the call has returned: its handler has run on it, or it
    has been dropped. -/
def Disposed (r : Receiver S) (this : S) (msg : AnyMsg) : CallState S → Prop
  | .handled tag held this' =>
    r.switch msg.tag = .handle ∧ tag = msg.tag ∧ held = msg ∧
      r.handler this msg.tag msg = some this'
  | .back => r.switch msg.tag = .default
  | _ => False

/-- **The call consumes the message**, whatever comes in meanwhile: it returns after a bounded
    number of steps, has had the message handled or dropped, and leaves the queue with the
    messages behind it and those that have come in. -/
structure Consumes (r : Receiver S) (P : Process) (this : S) (mb : Mailbox) (msg : ValidMsg)
    (rest : List ValidMsg) : Prop where
  bounded : ∃ bound, ∀ es s, (r.call P this).Along SafeArrival (begin mb msg rest) es →
    (r.call P this).runFrom (begin mb msg rest) es = some s → es.countP isOwn ≤ bound
  goesOn : ∀ es s, (r.call P this).Along SafeArrival (begin mb msg rest) es →
    (r.call P this).runFrom (begin mb msg rest) es = some s →
      s.loc.returned = false → ∃ s', (r.call P this).step s (.own true) = some s'
  removes : ∀ es s, (r.call P this).Along SafeArrival (begin mb msg rest) es →
    (r.call P this).runFrom (begin mb msg rest) es = some s → s.loc.returned = true →
      (∃ arrived, s.accepted = (msg :: rest ++ arrived).map Subtype.val ∧
        s.mb.Holds P none (rest ++ arrived)) ∧
      r.Disposed this msg.1 s.loc

/-- The tags a call can tell from "no message" and has something to do with. -/
def Takes (r : Receiver S) (tag : Int32) : Prop :=
  (if r.waits then 0 ≤ tag else tag ≠ -1) ∧ r.switch tag ≠ .ignore

/-- The messages it takes, and whose handlers return. -/
def Accepts (r : Receiver S) (this : S) (msg : AnyMsg) : Prop :=
  r.Takes msg.tag ∧ (r.switch msg.tag = .handle → (r.handler this msg.tag msg).isSome)

/-- Where polling leads to, at a head with the given tag. -/
def polled (r : Receiver S) (tag : Int32) : CallState S :=
  if (if r.waits then tag < 0 else tag = -1) then if r.waits then .inside .poll else .back
  else
    match r.switch tag with
    | .handle => .inside (.receive tag)
    | .ignore => .back
    | .default => .inside .drop

variable {r : Receiver S} {this : S} {P : Process} {mb : Mailbox} {msg : ValidMsg}
  {rest : List ValidMsg} {s s' : Station (CallState S)}

theorem move_poll (r : Receiver S) (this : S) : r.move this (.inside .poll) = .peek r.polled := by
  -- both functions poll first; only the test of the tag differs
  cases hwaits : r.waits with
  | true =>
    simp only [move, hwaits, if_true, receiveMove, Move.peek.injEq]
    funext tag
    by_cases hnone : tag < 0
    · simp [polled, hwaits, hnone]
    · cases hcase : r.switch tag <;> simp [polled, hwaits, hnone, hcase]
  | false =>
    simp only [move, hwaits, receiveOnceMove, Bool.false_eq_true, if_false, Move.peek.injEq]
    funext tag
    by_cases hnone : tag = -1
    · simp [polled, hwaits, hnone]
    · cases hcase : r.switch tag <;> simp [polled, hwaits, hnone, hcase]

/-! After the poll both kinds of `receive` are the same. -/

theorem move_receive (r : Receiver S) (this : S) (tag : Int32) :
    r.move this (.inside (.receive tag)) = .take (.inside (.clone tag)) := by
  simp only [move]
  split <;> rfl

theorem move_clone (r : Receiver S) (this : S) (tag : Int32) :
    r.move this (.inside (.clone tag)) = .finish fun msg => .handle tag msg := by
  simp only [move]
  split <;> rfl

theorem move_drop (r : Receiver S) (this : S) : r.move this (.inside .drop) = .drop .back := by
  simp only [move]
  split <;> rfl

/-- Polling finds a tag it takes, and does nothing of use with any other. -/
theorem polled_cases (r : Receiver S) (tag : Int32) :
    (r.Takes tag ∧ (r.switch tag = .handle ∧ r.polled tag = .inside (.receive tag) ∨
      r.switch tag = .default ∧ r.polled tag = .inside .drop)) ∨
    (¬r.Takes tag ∧ (r.polled tag = .inside .poll ∨ r.polled tag = .back)) := by
  unfold Takes polled
  cases hwaits : r.waits with
  -- `while (msgTag < 0)`: a negative tag is no message
  | true =>
    simp only [if_true]
    by_cases hneg : tag < 0
    · exact .inr ⟨fun h => absurd hneg (Int32.not_lt.mpr h.1), .inl (if_pos hneg)⟩
    · have hnonneg : 0 ≤ tag := Int32.not_lt.mp hneg
      rw [if_neg hneg]
      cases hswitch : r.switch tag with
      | handle => exact .inl ⟨⟨hnonneg, nofun⟩, .inl ⟨rfl, rfl⟩⟩
      | ignore => exact .inr ⟨fun h => h.2 rfl, .inr rfl⟩
      | default => exact .inl ⟨⟨hnonneg, nofun⟩, .inr ⟨rfl, rfl⟩⟩
  -- `if (msgTag == -1) return`: only -1 is
  | false =>
    simp only [Bool.false_eq_true, if_false]
    by_cases hnone : tag = -1
    · exact .inr ⟨fun h => h.1 hnone, .inr (if_pos hnone)⟩
    · rw [if_neg hnone]
      cases hswitch : r.switch tag with
      | handle => exact .inl ⟨⟨hnone, nofun⟩, .inl ⟨rfl, rfl⟩⟩
      | ignore => exact .inr ⟨fun h => h.2 rfl, .inr rfl⟩
      | default => exact .inl ⟨⟨hnone, nofun⟩, .inr ⟨rfl, rfl⟩⟩

/-! ## A tag that is taken -/

/-- How many messages the call has removed. -/
def removedBy : CallState S → Nat
  | .inside point => point.dequeued
  | _ => 1

/-- The message the call has dequeued and not yet cloned, when `msg` was at the head. -/
def handOf (msg : AnyMsg) : CallState S → Option AnyMsg
  | .inside point => point.hand (some msg)
  | _ => none

theorem removedBy_returned {l : CallState S} (h : l.returned = true) (msg : AnyMsg) :
    removedBy l = 1 ∧ handOf msg l = none := by
  cases l with
  | inside _ | handle _ _ => cases h
  | handled _ _ _ | back => exact ⟨rfl, rfl⟩

/-- The call goes by the tag of `msg`, and gives its handler no other message. -/
def GoesBy (r : Receiver S) (this : S) (msg : AnyMsg) : CallState S → Prop
  | .inside .poll => True
  | .inside (.receive tag) | .inside (.clone tag) => r.switch msg.tag = .handle ∧ tag = msg.tag
  | .inside .drop => r.switch msg.tag = .default
  | .handle tag held => r.switch msg.tag = .handle ∧ tag = msg.tag ∧ held = msg
  | l => r.Disposed this msg l

/-- An upper bound for the steps the call still takes. -/
def stepsLeft : CallState S → Nat
  | .inside .poll => 4
  | .inside (.receive _) => 3
  | .inside (.clone _) => 2
  | .inside .drop | .handle _ _ => 1
  | _ => 0

/-- What holds at every point of a call. -/
structure During (r : Receiver S) (P : Process) (this : S) (msg : ValidMsg)
    (rest : List ValidMsg) (s : Station (CallState S)) : Prop where
  prior : ∃ more, s.accepted = (msg :: rest).map Subtype.val ++ more
  taken_eq : s.taken = removedBy s.loc
  goesBy : r.GoesBy this msg.1 s.loc
  tracks : s.Tracks P (handOf msg.1 s.loc)

theorem During.begin (h : mb.Holds P none (msg :: rest)) :
    r.During P this msg rest (begin mb msg rest) :=
  ⟨⟨[], (List.append_nil _).symm⟩, rfl, trivial, Nat.zero_le _, none, _, h, rfl, rfl⟩

/-- Until it is removed, the message is at the head. -/
theorem During.next (h : r.During P this msg rest s) (hloc : removedBy s.loc = 0) :
    s.next? = some msg.1 := by
  obtain ⟨more, hprior⟩ := h.prior
  rw [Station.next?, h.taken_eq, hloc, hprior]
  rfl

/-- **Step**: the call goes from point to point and comes closer to its end. -/
theorem During.step (htakes : r.Takes msg.1.tag) (h : r.During P this msg rest s)
    {e : StationEvent} (hsafe : SafeArrival s e) (hs : (r.call P this).step s e = some s') :
    r.During P this msg rest s' ∧ stepsLeft s'.loc + (isOwn e).toNat ≤ stepsLeft s.loc := by
  obtain ⟨more, hprior⟩ := h.prior
  have htaken := h.taken_eq
  have hgoesBy := h.goesBy
  have htracks := h.tracks
  cases e with
  | arrive base new =>
    obtain rfl : (s.deliver base new.1).1 = s' := Option.some.inj hs
    obtain ⟨htracks', added, hadded⟩ := htracks.deliver base new hsafe
    -- the call does not move, and the head of the queue stays where it is
    refine ⟨⟨⟨more ++ added, ?_⟩, htaken, hgoesBy, htracks'⟩, Nat.le_refl _⟩
    rw [hadded, hprior, List.append_assoc]
  | own sent =>
    have hs' : s.perform P 0 sent (r.move this s.loc) = some s' := hs
    cases hloc : s.loc with
    | handled tag held this' =>
      rw [hloc] at hs'
      cases hs'
    | back =>
      rw [hloc] at hs'
      cases hs'
    | handle tag held =>
      rw [hloc] at htaken hgoesBy htracks hs'
      obtain ⟨hswitch, rfl, rfl⟩ := hgoesBy
      -- the call goes on only if the handler returns
      cases hhandler : r.handler this msg.1.tag msg.1 with
      | none =>
        simp only [move, hhandler] at hs'
        cases hs'
      | some this' =>
        simp only [move, hhandler] at hs'
        obtain rfl := Option.some.inj hs'
        exact ⟨⟨⟨more, hprior⟩, htaken, ⟨hswitch, rfl, rfl, hhandler⟩, htracks.goto _⟩,
          Nat.le_refl _⟩
    | inside point =>
      rw [hloc] at htaken hgoesBy htracks hs'
      cases point with
      | poll =>
        -- the poll sees the tag of the message
        have hnext := h.next (by rw [hloc]; rfl)
        have htag : s.mb.getMsgTag = msg.1.tag := by
          rw [htracks.getMsgTag, hnext]
          rfl
        rw [move_poll] at hs'
        obtain rfl : s.goto (r.polled s.mb.getMsgTag) = s' := Option.some.inj hs'
        rw [htag]
        -- with a tag that is taken it leads to `receive` or to `dropMsg`
        rcases r.polled_cases msg.1.tag with
          ⟨-, ⟨hswitch, hpolled⟩ | ⟨hswitch, hpolled⟩⟩ | ⟨hnot, -⟩
        · rw [hpolled]
          exact ⟨⟨⟨more, hprior⟩, htaken, ⟨hswitch, rfl⟩, htracks.goto _⟩, Nat.le_refl _⟩
        · rw [hpolled]
          refine ⟨⟨⟨more, hprior⟩, htaken, hswitch, htracks.goto _⟩, ?_⟩
          show 1 + 1 ≤ 4
          omega
        · exact absurd htakes hnot
      | receive tag =>
        have hnext := h.next (by rw [hloc]; rfl)
        rw [move_receive] at hs'
        obtain rfl := Option.some.inj hs'
        refine ⟨⟨⟨more, hprior⟩, ?_, hgoesBy, htracks.take hnext _⟩, Nat.le_refl _⟩
        show s.removed = 1
        rw [(htracks.front hnext).1, htaken]
        rfl
      -- the handler gets what `clone` reads from the record that was at the head
      | clone tag =>
        obtain ⟨hread, htracks'⟩ := htracks.finish (.handle tag msg.1)
        rw [move_clone] at hs'
        have hfinish : some { s with
            loc := CallState.handle tag msg.1, mb := (s.mb.finish P).1 } = some s' := by
          rw [← hs']
          simp only [Station.perform, hread, Option.map_some]
        obtain rfl := Option.some.inj hfinish
        exact ⟨⟨⟨more, hprior⟩, htaken, ⟨hgoesBy.1, hgoesBy.2, rfl⟩, htracks'⟩, Nat.le_refl _⟩
      | drop =>
        have hnext := h.next (by rw [hloc]; rfl)
        rw [move_drop] at hs'
        obtain rfl := Option.some.inj hs'
        refine ⟨⟨⟨more, hprior⟩, ?_, hgoesBy, htracks.drop hnext _⟩, Nat.le_refl _⟩
        show s.removed = 1
        rw [(htracks.front hnext).1, htaken]
        rfl

/-- A call that has not returned can go on, if the handler returns. -/
theorem During.goesOn (haccepts : r.Accepts this msg.1) (h : r.During P this msg rest s)
    (hinside : s.loc.returned = false) : ∃ s', (r.call P this).step s (.own true) = some s' := by
  have htracks := h.tracks
  have hgoesBy := h.goesBy
  show ∃ s', s.perform P 0 true (r.move this s.loc) = some s'
  cases hloc : s.loc with
  | handled _ _ _ => rw [hloc] at hinside; cases hinside
  | back => rw [hloc] at hinside; cases hinside
  | handle tag held =>
    rw [hloc] at hgoesBy
    obtain ⟨hswitch, rfl, rfl⟩ := hgoesBy
    obtain ⟨this', hthis'⟩ := Option.isSome_iff_exists.mp (haccepts.2 hswitch)
    simp only [move, hthis']
    exact ⟨_, rfl⟩
  | inside point =>
    rw [hloc] at htracks
    cases point with
    | poll =>
      rw [move_poll]
      exact ⟨_, rfl⟩
    | receive tag =>
      rw [move_receive]
      exact ⟨_, rfl⟩
    | clone tag =>
      -- there is something to clone
      rw [move_clone]
      simp only [Station.perform, (htracks.finish .back).1, Option.map_some]
      exact ⟨_, rfl⟩
    | drop =>
      rw [move_drop]
      exact ⟨_, rfl⟩

/-- **Run**: whatever comes in meanwhile. -/
theorem During.run (htakes : r.Takes msg.1.tag) (h : r.During P this msg rest s)
    {es : List StationEvent} (hsafe : (r.call P this).Along SafeArrival s es)
    (hrun : (r.call P this).runFrom s es = some s') :
    r.During P this msg rest s' ∧ stepsLeft s'.loc + es.countP isOwn ≤ stepsLeft s.loc := by
  induction es generalizing s with
  | nil =>
    obtain rfl : s = s' := by simpa [System.runFrom] using hrun
    exact ⟨h, Nat.le_refl _⟩
  | cons e es ih =>
    obtain ⟨s₁, hs₁, hrest⟩ := Option.bind_eq_some_iff.mp hrun
    obtain ⟨h₁, hless⟩ := h.step htakes hsafe.1 hs₁
    obtain ⟨h₂, hless'⟩ := ih h₁ (hsafe.2 s₁ hs₁) hrest
    refine ⟨h₂, ?_⟩
    rw [List.countP_cons]
    -- a message that comes in is no step of the call, and costs nothing
    cases hown : isOwn e <;> simp only [hown, Bool.toNat_true, Bool.toNat_false, if_true,
      Bool.false_eq_true, if_false] at hless ⊢ <;> omega

/-- A call that has returned has removed the message. -/
theorem During.removed (h : r.During P this msg rest s) (hreturned : s.loc.returned = true) :
    (∃ arrived, s.accepted = (msg :: rest ++ arrived).map Subtype.val ∧
      s.mb.Holds P none (rest ++ arrived)) ∧
    r.Disposed this msg.1 s.loc := by
  obtain ⟨more, hprior⟩ := h.prior
  obtain ⟨hone, hhand⟩ := removedBy_returned hreturned msg.1
  have htaken : s.taken = 1 := h.taken_eq.trans hone
  obtain ⟨-, held, outstanding, hholds, hheld, hout⟩ := h.tracks
  rw [hhand, Option.map_eq_none_iff] at hheld
  subst hheld
  constructor
  · -- the messages behind the first one and those that came in are what the queue keeps
    rw [htaken, hprior, List.map_cons, List.cons_append, List.drop_one, List.tail_cons] at hout
    obtain ⟨front, arrived, rfl, hfront, hmore⟩ := List.map_eq_append_iff.mp hout
    obtain rfl := Subtype.val_injective.list_map hfront
    refine ⟨arrived, ?_, hholds⟩
    rw [hprior, ← hmore, List.map_append]
  · have hgoesBy := h.goesBy
    cases hloc : s.loc with
    | inside _ => rw [hloc] at hreturned; cases hreturned
    | handle _ _ => rw [hloc] at hreturned; cases hreturned
    | handled _ _ _ => rwa [hloc] at hgoesBy
    | back => rwa [hloc] at hgoesBy

/-! ## Every other message -/

/-- The call alone. -/
theorem along_own (n : Nat) (s : Station (CallState S)) :
    (r.call P this).Along SafeArrival s (List.replicate n (.own true)) := by
  induction n generalizing s with
  | zero => trivial
  | succ n ih => exact ⟨trivial, fun s' _ => ih s'⟩

/-- **A call that consumes the message returns** when nothing comes in. -/
theorem Consumes.returns (h : r.Consumes P this mb msg rest) :
    ∃ n s, (r.call P this).runFrom (begin mb msg rest) (List.replicate n (.own true)) = some s ∧
      s.loc.returned = true := by
  by_contra hnever
  push Not at hnever
  -- otherwise it could make any number of steps
  have hlong : ∀ n, ∃ s, (r.call P this).runFrom (begin mb msg rest)
      (List.replicate n (.own true)) = some s := by
    intro n
    induction n with
    | zero => exact ⟨_, rfl⟩
    | succ n ih =>
      obtain ⟨s, hs⟩ := ih
      have hinside : s.loc.returned = false := by
        simpa using hnever n s hs
      obtain ⟨s', hs'⟩ := h.goesOn _ s (along_own n _) hs hinside
      refine ⟨s', ?_⟩
      rw [List.replicate_succ', System.runFrom_append, hs, Option.bind_some, System.runFrom, hs']
      rfl
  obtain ⟨bound, hbound⟩ := h.bounded
  obtain ⟨s, hs⟩ := hlong (bound + 1)
  have hle := hbound _ s (along_own _ _) hs
  have hown : isOwn (.own true) = true := rfl
  rw [List.countP_replicate, if_pos hown] at hle
  omega

end Receiver

end TaskSystem
