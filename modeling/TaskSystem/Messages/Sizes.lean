import TaskSystem.Library.Transition
import TaskSystem.Messages.RoundTrip

/-!
# The Size Field

`msg_size` says how much room a record takes, and is kept up to date by hand: the setters of
`IntArrayMsg` and `TopologyMsg` assign it, those of `RequestMsg` and `ResponseMsg` add to it,
and so does the `writeAt` of `TopologyMsg`, to the message that is being sent.

Objects of the four variable-length types lie on a heap. A program calls constructors, setters,
`clone` and `writeAt` on them in any order.

## Contents

- `cloneObject`: `clone` of an object on the heap
- `MessageObject`, `MessageCall`, `messageHeap`: the heap, the calls, the transition system
- `Exact`: `msg_size` is the size of the struct and the payload
- `InOrder`: the calls that keep it exact; `goesRight_iff`, one lemma for each call
- `sizes_exact_iff`: whole programs, and the records of a message that is sent several times
-/

namespace TaskSystem

open Library

/-! ## Cloning an object -/

/-- `clone`: a new object gets all fields, and as many elements as the count says. -/
def TopologyMsg.cloneObject (this : TopologyMsg) : TopologyMsg :=
  { this with bucketIds := this.bucketIds.take this.bucketCount.toInt.toNat }

def IntArrayMsg.cloneObject (this : IntArrayMsg) : IntArrayMsg :=
  { this with values := this.values.take this.size.toInt.toNat }

def RequestMsg.cloneObject (this : RequestMsg) : RequestMsg :=
  { this with data := this.data.take this.dataSize.toInt.toNat }

def ResponseMsg.cloneObject (this : ResponseMsg) : ResponseMsg :=
  { this with data := this.data.take this.dataSize.toInt.toNat }

namespace AnyMsg

/-- `msg->clone` of a message with a payload of its own. -/
def cloneObject : AnyMsg → AnyMsg
  | topology m => topology m.cloneObject
  | intArray m => intArray m.cloneObject
  | request m => request m.cloneObject
  | response m => response m.cloneObject
  | msg => msg

/-- The clone of a message whose count matches its payload is equal to it. -/
theorem cloneObject_eq {msg : AnyMsg} (h : msg.PayloadMatches) : msg.cloneObject = msg := by
  cases msg with
  | topology m =>
    have hcount : m.bucketCount.toInt = m.bucketIds.length := h
    simp only [cloneObject, TopologyMsg.cloneObject, hcount, Int.toNat_natCast, List.take_length]
  | intArray m =>
    have hcount : m.size.toInt = m.values.length := h
    simp only [cloneObject, IntArrayMsg.cloneObject, hcount, Int.toNat_natCast, List.take_length]
  | request m =>
    have hcount : m.dataSize.toInt = m.data.length := h
    simp only [cloneObject, RequestMsg.cloneObject, hcount, Int.toNat_natCast, List.take_length]
  | response m =>
    have hcount : m.dataSize.toInt = m.data.length := h
    simp only [cloneObject, ResponseMsg.cloneObject, hcount, Int.toNat_natCast, List.take_length]
  | bar m | text m | refIntArray m | done m | refTwoDimIntArray m => rfl

end AnyMsg

/-! ## Setters -/

/-- The array given to a setter, with its count. -/
inductive Payload where
  | ids (l : List UInt32)
  | ints (l : List Int32)
  | bytes (l : List UInt8)

/-- The size of the array. -/
def Payload.size : Payload → Int
  | ids l | ints l => l.length * 4
  | bytes l => l.length

namespace AnyMsg

/-- `setBucketIds`, `setValues` or `setData`; none when the message has no such setter. -/
def setPayload : AnyMsg → Payload → Option AnyMsg
  | topology m, .ids l => some (topology (m.setBucketIds l))
  | intArray m, .ints l => some (intArray (m.setValues l))
  | request m, .bytes l => some (request (m.setData l))
  | response m, .bytes l => some (response (m.setData l))
  | _, _ => none

/-- The setter adds to `msg_size`. -/
def Accumulates : AnyMsg → Prop
  | request _ | response _ => True
  | _ => False

end AnyMsg

/-! ## The heap -/

/-- An object on the heap. The constructors of `IntArrayMsg` and `TopologyMsg` set neither the
    array nor its count. -/
structure MessageObject where
  msg : AnyMsg
  /-- The payload and its count have been set -/
  assigned : Bool

/-- The bytes of the current payload. -/
def MessageObject.payloadBytes (o : MessageObject) : Int :=
  if o.assigned then o.msg.payloadBytes else 0

/-- The calls on messages of the four types. Objects are numbered as they are created. -/
inductive MessageCall where
  | createTopology (newRec : TopologyMsg) (tag : Int32)
  | createIntArray (newRec : IntArrayMsg) (tag : Int32)
  | createRequest (tag : Int32)
  | createResponse (tag : Int32)
  | set (i : Nat) (payload : Payload)
  | clone (i : Nat)
  | writeAt (i : Nat) (addr : UInt64)

namespace MessageCall

/-- The heap after a call. None when `clone` or `writeAt` reads an array that was never set.
    A call on an object that is not there, or has no such method, is not one of the program's
    and changes nothing. -/
def perform (h : List MessageObject) : MessageCall → Option (List MessageObject)
  | createTopology newRec tag => some (h ++ [⟨.topology (.create newRec tag), false⟩])
  | createIntArray newRec tag => some (h ++ [⟨.intArray (.create newRec tag), false⟩])
  | createRequest tag => some (h ++ [⟨.request (.create tag), true⟩])
  | createResponse tag => some (h ++ [⟨.response (.create tag), true⟩])
  | set i payload =>
    match h[i]? with
    | none => some h
    | some o =>
      match o.msg.setPayload payload with
      | some msg => some (h.set i ⟨msg, true⟩)
      | none => some h
  -- `malloc(count * sizeof(...))` with a count that was never set
  | clone i =>
    match h[i]? with
    | none => some h
    | some o => if o.assigned then some (h ++ [⟨o.msg.cloneObject, true⟩]) else none
  -- `TopologyMsg_writeAt` changes the message it sends
  | writeAt i _ =>
    match h[i]? with
    | none => some h
    | some o => if o.assigned then some (h.set i ⟨o.msg.afterWriteAt, true⟩) else none

/-- The stores that the call makes in a segment. -/
def stores (h : List MessageObject) : MessageCall → Option (List Store)
  | writeAt i addr => h[i]?.map fun o => o.msg.writeAt addr
  | _ => none

end MessageCall

/-- Programs that use messages. -/
def messageHeap : System (List MessageObject) MessageCall where
  init h := h = []
  step := MessageCall.perform

/-- The records that a program leaves in the segments, in order. -/
def records (h : List MessageObject) : List MessageCall → List (List Store)
  | [] => []
  | call :: calls =>
    (call.stores h).toList ++
      match call.perform h with
      | some h' => records h' calls
      | none => []

/-! ## Exact sizes -/

namespace MessageObject

/-- **`msg_size` is exact**: the size of the struct plus the bytes of the current payload, of
    which the count says the length. -/
structure Exact (o : MessageObject) : Prop where
  count : o.assigned → o.msg.PayloadMatches
  size : o.msg.msgSize.toInt = o.msg.type.sizeof + o.payloadBytes

end MessageObject

/-- A call does what it should: it is defined, all sizes are exact after it, and `writeAt`
    leaves the message as it was. -/
def GoesRight (h : List MessageObject) (call : MessageCall) : Prop :=
  ∃ h', call.perform h = some h' ∧ (∀ o ∈ h', o.Exact) ∧
    ∀ i addr, call = .writeAt i addr → h' = h

/-- **The condition on a call**: the payload is set on a message that has none yet, when the
    setter adds to the size, and fits an `int`; what is cloned or sent has a payload, and a
    topology that is sent has an empty one. -/
def InOrder (h : List MessageObject) : MessageCall → Prop
  | .set i payload => ∀ o msg, h[i]? = some o → o.msg.setPayload payload = some msg →
      msg.type.sizeof + payload.size ≤ intMax ∧ (msg.Accumulates → o.payloadBytes = 0)
  | .clone i => ∀ o, h[i]? = some o → o.assigned = true
  | .writeAt i _ => ∀ o, h[i]? = some o → o.assigned = true ∧
      (o.msg.type = .topology → o.msg.payloadBytes = 0)
  | _ => True

/-! ### Setters -/

theorem toInt_ofInt_iff {x : Int} (h : 0 ≤ x) : (Int32.ofInt x).toInt = x ↔ x ≤ intMax := by
  constructor
  · intro heq
    have hmax := Int32.toInt_le (Int32.ofInt x)
    unfold intMax
    rw [heq] at hmax
    exact hmax
  · exact toInt_ofInt_of_fits h

/-- A size that is added to an exact one is exact only if nothing was counted before. -/
theorem toInt_add_iff {s b n : Int} (hs : 0 ≤ s) (hb : 0 ≤ b) (hn : 0 ≤ n)
    (hfits : s + b ≤ intMax) :
    (Int32.ofInt (s + b + n)).toInt = s + n ↔ s + n ≤ intMax ∧ b = 0 := by
  constructor
  · intro heq
    have hmax := Int32.toInt_le (Int32.ofInt (s + b + n))
    have hnewFits : s + n ≤ intMax := by
      unfold intMax
      rw [heq] at hmax
      exact hmax
    refine ⟨hnewFits, ?_⟩
    -- the sum is smaller than 2^32, so the `int` differs from it by 0 or 2^32
    unfold intMax at hfits hnewFits
    rw [Int32.toInt_ofInt, Int.bmod_def] at heq
    simp only [Int32.size] at heq
    split at heq <;> omega
  · rintro ⟨hnewFits, rfl⟩
    rw [Int.add_zero]
    exact toInt_ofInt_of_fits (by omega) hnewFits

namespace MessageObject.Exact

variable {o : MessageObject} {msg : AnyMsg}

theorem payloadBytes_nonneg (o : MessageObject) : 0 ≤ o.payloadBytes := by
  unfold payloadBytes
  split
  · exact o.msg.payloadBytes_nonneg
  · exact Int.le_refl 0

theorem size_le (h : o.Exact) : o.msg.type.sizeof + o.payloadBytes ≤ intMax := by
  rw [← h.size]
  exact Int32.toInt_le _

/-- A setter that assigns the size: it is exact when it is an `int`, and then the count of the
    `len` elements is one as well. -/
theorem assigned_iff (msg : AnyMsg) {len : Nat} (hlen : len ≤ msg.payloadBytes)
    (hcount : (Int32.ofInt len).toInt = len → msg.PayloadMatches)
    (hsize : msg.msgSize = Int32.ofInt (msg.type.sizeof + msg.payloadBytes)) :
    MessageObject.Exact ⟨msg, true⟩ ↔ msg.type.sizeof + msg.payloadBytes ≤ intMax := by
  have hsizeof := msg.type.sizeofMessage_le
  unfold sizeofMessage at hsizeof
  have hexact := toInt_ofInt_iff (x := msg.type.sizeof + msg.payloadBytes) (by omega)
  rw [← hsize] at hexact
  constructor
  · intro h
    exact hexact.mp h.size
  · intro hle
    have hsmall : (Int32.ofInt len).toInt = len := toInt_ofInt_of_fits (by omega) (by omega)
    exact ⟨fun _ => hcount hsmall, hexact.mpr hle⟩

/-- A setter that adds to a size in which `old` bytes of payload were counted. -/
theorem added_iff (msg : AnyMsg) {len : Nat} {old : Int} (hlen : len ≤ msg.payloadBytes)
    (hold : 0 ≤ old) (hfits : msg.type.sizeof + old ≤ intMax)
    (hcount : (Int32.ofInt len).toInt = len → msg.PayloadMatches)
    (hsize : msg.msgSize = Int32.ofInt (msg.type.sizeof + old + msg.payloadBytes)) :
    MessageObject.Exact ⟨msg, true⟩ ↔
      msg.type.sizeof + msg.payloadBytes ≤ intMax ∧ old = 0 := by
  have hsizeof := msg.type.sizeofMessage_le
  unfold sizeofMessage at hsizeof
  have hexact := toInt_add_iff (s := msg.type.sizeof) (n := msg.payloadBytes) (by omega) hold
    (by omega) hfits
  rw [← hsize] at hexact
  constructor
  · intro h
    exact hexact.mp h.size
  · rintro ⟨hle, hnone⟩
    have hsmall : (Int32.ofInt len).toInt = len := toInt_ofInt_of_fits (by omega) (by omega)
    exact ⟨fun _ => hcount hsmall, hexact.mpr ⟨hle, hnone⟩⟩

/-- **Setters**: the size is exact afterwards just under the condition. -/
theorem set_iff (h : o.Exact) {payload : Payload} (hset : o.msg.setPayload payload = some msg) :
    MessageObject.Exact ⟨msg, true⟩ ↔
      msg.type.sizeof + payload.size ≤ intMax ∧ (msg.Accumulates → o.payloadBytes = 0) := by
  obtain ⟨old, assigned⟩ := o
  have hold := payloadBytes_nonneg ⟨old, assigned⟩
  have hsize := h.size
  have hfits := h.size_le
  cases old <;> cases payload <;> cases hset
  case topology.ids m l =>
    have hlen : (l.length : Int) ≤ l.length * 4 := by omega
    have hiff := assigned_iff (.topology (m.setBucketIds l)) hlen id rfl
    exact hiff.trans ⟨fun hle => ⟨hle, False.elim⟩, And.left⟩
  case intArray.ints m l =>
    have hlen : (l.length : Int) ≤ l.length * 4 := by omega
    have hiff := assigned_iff (.intArray (m.setValues l)) hlen id rfl
    exact hiff.trans ⟨fun hle => ⟨hle, False.elim⟩, And.left⟩
  case request.bytes m l =>
    -- the setter starts from the exact size of the old payload
    have hsum : (m.setData l).msgSize = Int32.ofInt (RequestMsg.sizeof + _ + l.length) :=
      congrArg (fun n => Int32.ofInt (n + l.length)) hsize
    have hiff := added_iff (.request (m.setData l)) (Int.le_refl _) hold hfits id hsum
    exact hiff.trans ⟨fun hboth => ⟨hboth.1, fun _ => hboth.2⟩,
      fun hboth => ⟨hboth.1, hboth.2 trivial⟩⟩
  case response.bytes m l =>
    have hsum : (m.setData l).msgSize = Int32.ofInt (ResponseMsg.sizeof + _ + l.length) :=
      congrArg (fun n => Int32.ofInt (n + l.length)) hsize
    have hiff := added_iff (.response (m.setData l)) (Int.le_refl _) hold hfits id hsum
    exact hiff.trans ⟨fun hboth => ⟨hboth.1, fun _ => hboth.2⟩,
      fun hboth => ⟨hboth.1, hboth.2 trivial⟩⟩

/-- **`writeAt`** leaves a message as it was unless it sends bucket IDs. -/
theorem afterWriteAt_iff (h : o.Exact) (hassigned : o.assigned = true) :
    o.msg.afterWriteAt = o.msg ↔ (o.msg.type = .topology → o.msg.payloadBytes = 0) := by
  obtain ⟨msg, assigned⟩ := o
  obtain rfl : assigned = true := hassigned
  cases msg with
  | topology m =>
    have hcount : m.bucketCount.toInt = m.bucketIds.length := h.count rfl
    have hsize : m.msgSize.toInt = TopologyMsg.sizeof + m.bucketIds.length * 4 := h.size
    have hsizeof : TopologyMsg.sizeof = 104 := rfl
    have hfits : TopologyMsg.sizeof + m.bucketIds.length * 4 ≤ intMax := h.size_le
    have hadd := toInt_add_iff (s := 0) (b := m.bucketIds.length * 4)
      (n := TopologyMsg.sizeof + m.bucketIds.length * 4) (by omega) (by omega) (by omega) (by omega)
    -- the topology adds the bytes of its bucket IDs to its own size
    constructor
    · intro heq _
      have hfield := congrArg (fun msg => msg.msgSize.toInt) heq
      have hsum : (Int32.ofInt (m.msgSize.toInt + m.bucketCount.toInt * 4)).toInt =
          m.msgSize.toInt := hfield
      rw [hsize, hcount] at hsum
      apply (hadd.mp _).2
      rw [Int.zero_add, Int.zero_add, Int.add_comm]
      exact hsum
    · intro hnone
      have hzero : (m.bucketIds.length : Int) * 4 = 0 := hnone rfl
      simp only [AnyMsg.afterWriteAt, TopologyMsg.afterWriteAt, hcount, hzero, Int.add_zero,
        Int32.ofInt_toInt]
  -- `writeAt` of the other types changes nothing
  | bar m | text m | refIntArray m | intArray m | done m | refTwoDimIntArray m | request m
  | response m =>
    refine ⟨fun _ htype => ?_, fun _ => rfl⟩
    cases htype

end MessageObject.Exact

/-! ## One call -/

section Calls

variable {h : List MessageObject}

/-- A new object is exact in an exact heap. -/
theorem exact_append (hexact : ∀ o ∈ h, o.Exact) {new : MessageObject} (hnew : new.Exact) :
    ∀ o ∈ h ++ [new], o.Exact := by
  intro o ho
  rcases List.mem_append.mp ho with ho | ho
  · exact hexact o ho
  · obtain rfl := List.mem_singleton.mp ho
    exact hnew

/-- The other objects stay exact, so only the one that is replaced matters. -/
theorem exact_set_iff (hexact : ∀ o ∈ h, o.Exact) {i : Nat} {old new : MessageObject}
    (hi : h[i]? = some old) : (∀ o ∈ h.set i new, o.Exact) ↔ new.Exact := by
  obtain ⟨hlt, -⟩ := List.getElem?_eq_some_iff.mp hi
  constructor
  · -- the new object is in the heap itself
    intro hall
    exact hall new (List.mem_set hlt new)
  · intro hnew o ho
    rcases List.mem_or_eq_of_mem_set ho with ho | rfl
    · exact hexact o ho
    · exact hnew

theorem goesRight_create (hexact : ∀ o ∈ h, o.Exact) {call : MessageCall} {new : MessageObject}
    (hcall : call.perform h = some (h ++ [new])) (hnew : new.Exact)
    (hnot : ∀ i addr, call ≠ .writeAt i addr) : GoesRight h call :=
  ⟨_, hcall, exact_append hexact hnew, fun i addr heq => absurd heq (hnot i addr)⟩

/-- A call that is none of the program's goes right. -/
theorem goesRight_none (hexact : ∀ o ∈ h, o.Exact) {call : MessageCall}
    (hcall : call.perform h = some h) : GoesRight h call :=
  ⟨h, hcall, hexact, fun _ _ _ => rfl⟩

theorem goesRight_set (hexact : ∀ o ∈ h, o.Exact) (i : Nat) (payload : Payload) :
    GoesRight h (.set i payload) ↔ InOrder h (.set i payload) := by
  cases hi : h[i]? with
  | none =>
    refine ⟨fun _ o msg ho => ?_, fun _ => ?_⟩
    · rw [hi] at ho
      cases ho
    · apply goesRight_none hexact
      simp only [MessageCall.perform, hi]
  | some o =>
    have hmem := List.mem_of_getElem? hi
    cases hset : o.msg.setPayload payload with
    -- a message without such a setter
    | none =>
      refine ⟨fun _ o' msg ho hmsg => ?_, fun _ => ?_⟩
      · obtain rfl : o = o' := Option.some.inj (hi.symm.trans ho)
        rw [hset] at hmsg
        cases hmsg
      · apply goesRight_none hexact
        simp only [MessageCall.perform, hi, hset]
    -- the call is defined, so it goes right if the new message is exact
    | some msg =>
      have hperform : (MessageCall.set i payload).perform h = some (h.set i ⟨msg, true⟩) := by
        simp only [MessageCall.perform, hi, hset]
      have hiff := (hexact o hmem).set_iff hset
      constructor
      · rintro ⟨h', hh', hexact', -⟩ o' msg' ho hmsg
        obtain rfl : o = o' := Option.some.inj (hi.symm.trans ho)
        obtain rfl : msg = msg' := Option.some.inj (hset.symm.trans hmsg)
        obtain rfl : h.set i ⟨msg, true⟩ = h' := Option.some.inj (hperform.symm.trans hh')
        exact hiff.mp ((exact_set_iff hexact hi).mp hexact')
      · intro horder
        exact ⟨_, hperform, (exact_set_iff hexact hi).mpr (hiff.mpr (horder o msg hi hset)),
          fun j addr heq => nomatch heq⟩

theorem goesRight_clone (hexact : ∀ o ∈ h, o.Exact) (i : Nat) :
    GoesRight h (.clone i) ↔ InOrder h (.clone i) := by
  cases hi : h[i]? with
  | none =>
    refine ⟨fun _ o ho => ?_, fun _ => ?_⟩
    · rw [hi] at ho
      cases ho
    · apply goesRight_none hexact
      simp only [MessageCall.perform, hi]
  | some o =>
    constructor
    · rintro ⟨h', hh', -⟩ o' ho
      obtain rfl : o = o' := Option.some.inj (hi.symm.trans ho)
      simp only [MessageCall.perform, hi] at hh'
      -- the call is defined only for an object whose payload has been set
      split at hh'
      case isTrue hassigned => exact hassigned
      case isFalse => cases hh'
    · intro horder
      have hassigned := horder o hi
      have ho := hexact o (List.mem_of_getElem? hi)
      -- the clone is equal to the message, payload and all
      have hclone : MessageObject.Exact ⟨o.msg.cloneObject, true⟩ := by
        rw [AnyMsg.cloneObject_eq (ho.count hassigned), ← hassigned]
        exact ho
      apply goesRight_create hexact _ hclone
      · intro j addr heq
        cases heq
      · simp only [MessageCall.perform, hi, hassigned, if_true]

theorem goesRight_writeAt (hexact : ∀ o ∈ h, o.Exact) (i : Nat) (addr : UInt64) :
    GoesRight h (.writeAt i addr) ↔ InOrder h (.writeAt i addr) := by
  cases hi : h[i]? with
  | none =>
    refine ⟨fun _ o ho => ?_, fun _ => ?_⟩
    · rw [hi] at ho
      cases ho
    · apply goesRight_none hexact
      simp only [MessageCall.perform, hi]
  | some o =>
    have ho := hexact o (List.mem_of_getElem? hi)
    obtain ⟨hlt, hget⟩ := List.getElem?_eq_some_iff.mp hi
    constructor
    · rintro ⟨h', hh', -, hsame⟩ o' ho'
      obtain rfl : o = o' := Option.some.inj (hi.symm.trans ho')
      obtain rfl := hsame i addr rfl
      simp only [MessageCall.perform, hi] at hh'
      split at hh'
      case isFalse => cases hh'
      case isTrue hassigned =>
        -- the heap is the same, so the message in its slot is
        refine ⟨hassigned, (ho.afterWriteAt_iff hassigned).mp ?_⟩
        have hat := congrArg (·[i]?) (Option.some.inj hh')
        rw [List.getElem?_set_self hlt, hi] at hat
        exact congrArg MessageObject.msg (Option.some.inj hat)
    · intro horder
      obtain ⟨hassigned, hnone⟩ := horder o hi
      apply goesRight_none hexact
      have hwrite : MessageObject.mk o.msg.afterWriteAt true = o := by
        rw [(ho.afterWriteAt_iff hassigned).mpr hnone, ← hassigned]
      simp only [MessageCall.perform, hi, hassigned, if_true, hwrite]
      rw [← hget, List.set_getElem_self]

/-- **Step**: one call goes right exactly under the condition. -/
theorem goesRight_iff (hexact : ∀ o ∈ h, o.Exact) (call : MessageCall) :
    GoesRight h call ↔ InOrder h call := by
  -- a constructor leaves `sizeof` in `msg_size`, and no payload
  have hnone : ∀ {msg}, msg.msgSize.toInt = msg.type.sizeof → MessageObject.Exact ⟨msg, false⟩ := by
    intro msg hsize
    refine ⟨nofun, ?_⟩
    rw [hsize, MessageObject.payloadBytes, if_neg Bool.false_ne_true, Int.add_zero]
  cases call with
  | createTopology newRec tag =>
    refine ⟨fun _ => trivial, fun _ => goesRight_create hexact rfl (hnone rfl) ?_⟩
    intro i addr heq
    cases heq
  | createIntArray newRec tag =>
    refine ⟨fun _ => trivial, fun _ => goesRight_create hexact rfl (hnone rfl) ?_⟩
    intro i addr heq
    cases heq
  | createRequest tag =>
    refine ⟨fun _ => trivial, fun _ => goesRight_create hexact rfl ⟨fun _ => rfl, rfl⟩ ?_⟩
    intro i addr heq
    cases heq
  | createResponse tag =>
    refine ⟨fun _ => trivial, fun _ => goesRight_create hexact rfl ⟨fun _ => rfl, rfl⟩ ?_⟩
    intro i addr heq
    cases heq
  | set i payload => exact goesRight_set hexact i payload
  | clone i => exact goesRight_clone hexact i
  | writeAt i addr => exact goesRight_writeAt hexact i addr

/-- Calls under the condition keep all sizes exact. -/
theorem exact_of_inOrder (hexact : ∀ o ∈ h, o.Exact) {call : MessageCall} {h' : List MessageObject}
    (horder : InOrder h call) (hcall : call.perform h = some h') : ∀ o ∈ h', o.Exact := by
  obtain ⟨h'', hh'', hexact'', -⟩ := (goesRight_iff hexact call).mpr horder
  obtain rfl : h'' = h' := Option.some.inj (hh''.symm.trans hcall)
  exact hexact''

end Calls

/-! ## Whole programs -/

/-- A message that is sent several times in a row leaves equal records: each is what `writeAt`
    stores for the message as it was at first. -/
theorem records_sends {h : List MessageObject} (hexact : ∀ o ∈ h, o.Exact) {i : Nat}
    {o : MessageObject} (hi : h[i]? = some o) (addrs : List UInt64)
    (horder : messageHeap.Along InOrder h (addrs.map (.writeAt i))) :
    records h (addrs.map (.writeAt i)) = addrs.map o.msg.writeAt := by
  induction addrs with
  | nil => rfl
  | cons addr addrs ih =>
    -- the first send leaves the heap as it was, so the others start from it
    obtain ⟨h', hh', -, hsame⟩ := (goesRight_iff hexact _).mpr horder.1
    obtain rfl := hsame i addr rfl
    rw [List.map_cons, records, hh']
    simp only [MessageCall.stores, hi, Option.map_some, Option.toList_some, List.map_cons,
      List.singleton_append]
    rw [ih (horder.2 _ hh')]

/-- **When the size field is right.** For every program on messages of the variable-length types:
    every call is defined and leaves all sizes exact, and every `writeAt` leaves the message as
    it was, exactly if every call meets the condition `InOrder`; and then a message that is sent
    `n` times in a row leaves `n` equal records. -/
theorem sizes_exact_iff (calls : List MessageCall) :
    (messageHeap.Along GoesRight [] calls ↔ messageHeap.Along InOrder [] calls) ∧
      (messageHeap.Along InOrder [] calls →
        ∀ before i (addrs : List UInt64) h o, calls = before ++ addrs.map (.writeAt i) →
          messageHeap.runFrom [] before = some h → h[i]? = some o →
            records h (addrs.map (.writeAt i)) = addrs.map o.msg.writeAt) := by
  -- exactness is the invariant of programs under the condition
  have hkeep : ∀ h call h', (∀ o ∈ h, o.Exact) → InOrder h call →
      messageHeap.step h call = some h' → ∀ o ∈ h', o.Exact :=
    fun h call h' hexact horder hcall => exact_of_inOrder hexact horder hcall
  have hempty : ∀ o ∈ ([] : List MessageObject), o.Exact := by
    intro o ho
    cases ho
  refine ⟨System.along_iff (fun h call hexact => goesRight_iff hexact call) hkeep hempty calls, ?_⟩
  rintro horder before i addrs h o rfl hrun hi
  obtain ⟨hexact, hsends⟩ := System.Along.invariant hkeep horder hempty hrun
  exact records_sends hexact hi addrs hsends

/-- A request with a payload, cloned, and the clone sent twice. -/
theorem sizes_exact_request :
    let calls : List MessageCall :=
      [.createRequest 0, .set 0 (.bytes [1, 2, 3]), .clone 0, .writeAt 1 4096, .writeAt 1 8192]
    messageHeap.Along GoesRight [] calls := by
  intro calls
  refine (sizes_exact_iff calls).1.mpr ⟨trivial, ?_⟩
  rintro _ ⟨⟩
  refine ⟨?_, ?_⟩
  · rintro _ _ ⟨⟩ ⟨⟩
    exact ⟨by decide, fun _ => rfl⟩
  rintro _ ⟨⟩
  refine ⟨?_, ?_⟩
  · rintro _ ⟨⟩
    rfl
  rintro _ ⟨⟩
  refine ⟨?_, ?_⟩
  · rintro _ ⟨⟩
    exact ⟨rfl, nofun⟩
  rintro _ ⟨⟩
  refine ⟨?_, fun _ _ => trivial⟩
  rintro _ ⟨⟩
  exact ⟨rfl, nofun⟩

/-- **A topology that grows when it is sent**: 104 bytes of struct and one bucket ID are 108
    bytes; the first record says so, but the second one is said to have 112. -/
theorem topology_grows :
    let calls : List MessageCall :=
      [.createTopology ⟨0, 0, 0, 0, 0, 0, 0, []⟩ 2, .set 0 (.ids [7]), .writeAt 0 4096,
        .writeAt 0 8192]
    ¬messageHeap.Along GoesRight [] calls ∧
      (records [] calls).map (fun record => record[2]?) =
        [some (.int 8 108), some (.int 8 112)] := by
  intro calls
  refine ⟨?_, by decide⟩
  intro hright
  -- the first send is the one that changes the message
  obtain ⟨h', hh', -, hsame⟩ := hright.2 _ rfl |>.2 _ rfl |>.1
  rw [hsame 0 4096 rfl] at hh'
  have hsize := congrArg (Option.map fun h => h.map fun o => o.msg.msgSize) hh'
  exact absurd hsize (by decide)

end TaskSystem
