import Mathlib.Data.List.TakeWhile
import TaskSystem.Messages.Serialization

/-!
# Serialisation Round Trip

A message written with `writeAt`, rebound in place by the rebinder of its stored `tid` and
cloned is the message that was written, in whatever process the receiver runs.

## Contents

- `Built`: what a constructor followed by setters can produce
- `AnyMsg.WellFormed`: type id, payload length and `msg_size` agree; kept by every setter
- `StoredAt`, `BoundAt`: a record as `writeAt` leaves it, and after the rebinder
- `cloneAt_of_boundAt` and the round trip of every built message
-/

namespace TaskSystem

open Library

/-! ## Well-formed messages -/

/-- The type id a constructor stores in `tid`. -/
def MsgType.id : MsgType → Int32
  | .bar => barMsgId | .text => textMsgId | .refIntArray => refIntArrayMsgId
  | .topology => topologyMsgId | .intArray => intArrayMsgId | .done => doneMsgId
  | .refTwoDimIntArray => refTwoDimIntArrayMsgId | .request => requestMsgId
  | .response => responseMsgId

/-- `sizeof` of the struct of a message type. -/
def MsgType.sizeof : MsgType → Int
  | .bar => BarMsg.sizeof | .text => TextMsg.sizeof | .refIntArray => RefIntArrayMsg.sizeof
  | .topology => TopologyMsg.sizeof | .intArray => IntArrayMsg.sizeof | .done => DoneMsg.sizeof
  | .refTwoDimIntArray => RefTwoDimIntArrayMsg.sizeof | .request => RequestMsg.sizeof
  | .response => ResponseMsg.sizeof

theorem MsgType.sizeofMessage_le (t : MsgType) : sizeofMessage ≤ t.sizeof := by
  cases t <;> decide

@[simp] theorem rebinder_id (t : MsgType) : rebinder t.id = some t := by
  cases t <;> decide

namespace AnyMsg

/-- Bytes of the payload that follows the struct in a record. -/
def payloadBytes : AnyMsg → Int
  | topology m => m.bucketIds.length * 4
  | intArray m => m.values.length * 4
  | request m => m.data.length
  | response m => m.data.length
  | _ => 0

/-- The count field and the payload agree; a text is a C string that fits its array. -/
def PayloadMatches : AnyMsg → Prop
  | topology m => m.bucketCount.toInt = m.bucketIds.length
  | intArray m => m.size.toInt = m.values.length
  | request m => m.dataSize.toInt = m.data.length
  | response m => m.dataSize.toInt = m.data.length
  | text m => m.msg.length < TextMsg.msgCapacity ∧ ∀ c ∈ m.msg, c ≠ 0
  | _ => True

/-- What every function of a message type relies on. -/
structure WellFormed (msg : AnyMsg) : Prop where
  /-- `tid` is the id of the message's type -/
  tid_eq : msg.tid = msg.type.id
  payload : msg.PayloadMatches
  /-- `msg_size` covers the struct and the payload -/
  covers : msg.type.sizeof + msg.payloadBytes ≤ msg.msgSize.toInt

theorem payloadBytes_nonneg (msg : AnyMsg) : 0 ≤ msg.payloadBytes := by
  cases msg <;> simp only [payloadBytes] <;> omega

/-- A well-formed message is at least as large as `struct Message`. -/
theorem WellFormed.sizeofMessage_le {msg : AnyMsg} (h : msg.WellFormed) :
    sizeofMessage ≤ msg.msgSize.toInt := by
  have hsize : sizeofMessage ≤ msg.type.sizeof := MsgType.sizeofMessage_le _
  have := h.covers
  have := msg.payloadBytes_nonneg
  omega

theorem WellFormed.msgSize_pos {msg : AnyMsg} (h : msg.WellFormed) : 0 < msg.msgSize.toInt := by
  have := h.sizeofMessage_le
  unfold sizeofMessage at this
  omega

end AnyMsg

/-! ## What constructors and setters build -/

inductive BarMsg.Built : BarMsg → Prop where
  | create (newRec : BarMsg) (tag : Int32) : Built (create newRec tag)
  | setValue {this : BarMsg} (h : Built this) (value : Int32) : Built (this.setValue value)

inductive TextMsg.Built : TextMsg → Prop where
  | setFirst (newRec : TextMsg) (tag : Int32) (text : List UInt8)
      (fits : (text.takeWhile (· ≠ 0)).length < msgCapacity) :
      Built ((create newRec tag).setMsg text)
  | setMsg {this : TextMsg} (h : Built this) (text : List UInt8)
      (fits : (text.takeWhile (· ≠ 0)).length < msgCapacity) : Built (this.setMsg text)

inductive RefIntArrayMsg.Built : RefIntArrayMsg → Prop where
  | create (newRec : RefIntArrayMsg) (tag : Int32) : Built (create newRec tag)
  | setValues {this : RefIntArrayMsg} (h : Built this) (count : Int32) (values : UInt64) :
      Built (this.setValues count values)

/-- The fields without a setter are public and assigned directly. -/
inductive TopologyMsg.Built : TopologyMsg → Prop where
  | setFirst (newRec : TopologyMsg) (tag : Int32) (ids : List UInt32)
      (fits : sizeof + ids.length * 4 ≤ intMax) : Built ((create newRec tag).setBucketIds ids)
  | setBucketIds {this : TopologyMsg} (h : Built this) (ids : List UInt32)
      (fits : sizeof + ids.length * 4 ≤ intMax) : Built (this.setBucketIds ids)
  | setRootId {this : TopologyMsg} (h : Built this) (id : UInt32) : Built (this.setRootId id)
  | assign {this : TopologyMsg} (h : Built this) (sampleSize dataSize : Int32) :
      Built { this with sampleSize, dataSize }

inductive IntArrayMsg.Built : IntArrayMsg → Prop where
  | setFirst (newRec : IntArrayMsg) (tag : Int32) (val : List Int32)
      (fits : sizeof + val.length * 4 ≤ intMax) : Built ((create newRec tag).setValues val)
  | setValues {this : IntArrayMsg} (h : Built this) (val : List Int32)
      (fits : sizeof + val.length * 4 ≤ intMax) : Built (this.setValues val)

inductive DoneMsg.Built : DoneMsg → Prop where
  | create (newRec : DoneMsg) (tag : Int32) : Built (create newRec tag)
  | assign {this : DoneMsg} (h : Built this) (success : Int32) : Built { this with success }

inductive RefTwoDimIntArrayMsg.Built : RefTwoDimIntArrayMsg → Prop where
  | create (newRec : RefTwoDimIntArrayMsg) (tag : Int32) : Built (create newRec tag)
  | assign {this : RefTwoDimIntArrayMsg} (h : Built this) (size : Int32)
      (counts values : UInt64) : Built { this with size, counts, values }

/-- `setData` adds to `msg_size`, so a payload fits when the sum still is an `int`. -/
inductive RequestMsg.Built : RequestMsg → Prop where
  | create (tag : Int32) : Built (create tag)
  | assign {this : RequestMsg} (h : Built this) (senderTaskId requestType : Int32) :
      Built { this with senderTaskId, requestType }
  | setData {this : RequestMsg} (h : Built this) (data : List UInt8)
      (fits : this.msgSize.toInt + data.length ≤ intMax) : Built (this.setData data)

inductive ResponseMsg.Built : ResponseMsg → Prop where
  | create (tag : Int32) : Built (create tag)
  | assign {this : ResponseMsg} (h : Built this) (code : Int32) : Built { this with code }
  | setData {this : ResponseMsg} (h : Built this) (data : List UInt8)
      (fits : this.msgSize.toInt + data.length ≤ intMax) : Built (this.setData data)

/-- A message of any type built by its constructor and then its setters. -/
def AnyMsg.Built : AnyMsg → Prop
  | bar m => m.Built | text m => m.Built | refIntArray m => m.Built | topology m => m.Built
  | intArray m => m.Built | done m => m.Built | refTwoDimIntArray m => m.Built
  | request m => m.Built | response m => m.Built

/-- A count that fits an `int` is stored exactly. -/
theorem toInt_ofInt_of_fits {x : Int} (h₁ : 0 ≤ x) (h₂ : x ≤ intMax) :
    (Int32.ofInt x).toInt = x :=
  Int32.toInt_ofInt_of_le (by omega) (by unfold intMax at h₂; omega)

theorem setMsg_text (this : TextMsg) (text : List UInt8)
    (fits : (text.takeWhile (· ≠ 0)).length < TextMsg.msgCapacity) :
    (AnyMsg.text (this.setMsg text)).PayloadMatches :=
  ⟨fits, fun c hc => by simpa using List.mem_takeWhile_imp hc⟩

theorem BarMsg.Built.wellFormed {m : BarMsg} (h : m.Built) : (AnyMsg.bar m).WellFormed := by
  induction h with
  | create newRec tag => exact ⟨rfl, trivial, Int.le_refl 72⟩
  | setValue _ value ih => exact ⟨ih.tid_eq, ih.payload, ih.covers⟩

theorem TextMsg.Built.wellFormed {m : TextMsg} (h : m.Built) : (AnyMsg.text m).WellFormed := by
  induction h with
  | setFirst newRec tag text fits => exact ⟨rfl, setMsg_text _ _ fits, Int.le_refl 168⟩
  | setMsg _ text fits ih => exact ⟨ih.tid_eq, setMsg_text _ _ fits, ih.covers⟩

theorem RefIntArrayMsg.Built.wellFormed {m : RefIntArrayMsg} (h : m.Built) :
    (AnyMsg.refIntArray m).WellFormed := by
  induction h with
  | create newRec tag => exact ⟨rfl, trivial, Int.le_refl 88⟩
  | setValues _ count values ih => exact ⟨ih.tid_eq, ih.payload, ih.covers⟩

theorem setBucketIds_wellFormed {this : TopologyMsg} {ids : List UInt32}
    (htid : this.tid = topologyMsgId) (fits : TopologyMsg.sizeof + ids.length * 4 ≤ intMax) :
    (AnyMsg.topology (this.setBucketIds ids)).WellFormed := by
  have hsizeof : TopologyMsg.sizeof = 104 := rfl
  -- the count is exact, and `msg_size` is assigned
  refine ⟨htid, toInt_ofInt_of_fits (by omega) (by omega), ?_⟩
  have hsize := toInt_ofInt_of_fits (by omega) fits
  simp only [AnyMsg.type, MsgType.sizeof, AnyMsg.payloadBytes, AnyMsg.msgSize,
    TopologyMsg.setBucketIds, hsize]
  exact Int.le_refl _

theorem TopologyMsg.Built.wellFormed {m : TopologyMsg} (h : m.Built) :
    (AnyMsg.topology m).WellFormed := by
  induction h with
  | setFirst newRec tag ids fits => exact setBucketIds_wellFormed rfl fits
  | setBucketIds _ ids fits ih => exact setBucketIds_wellFormed ih.tid_eq fits
  | setRootId _ id ih => exact ⟨ih.tid_eq, ih.payload, ih.covers⟩
  | assign _ sampleSize dataSize ih => exact ⟨ih.tid_eq, ih.payload, ih.covers⟩

theorem setValues_wellFormed {this : IntArrayMsg} {val : List Int32}
    (htid : this.tid = intArrayMsgId) (fits : IntArrayMsg.sizeof + val.length * 4 ≤ intMax) :
    (AnyMsg.intArray (this.setValues val)).WellFormed := by
  have hsizeof : IntArrayMsg.sizeof = 88 := rfl
  refine ⟨htid, toInt_ofInt_of_fits (by omega) (by omega), ?_⟩
  have hsize := toInt_ofInt_of_fits (by omega) fits
  simp only [AnyMsg.type, MsgType.sizeof, AnyMsg.payloadBytes, AnyMsg.msgSize,
    IntArrayMsg.setValues, hsize]
  exact Int.le_refl _

theorem IntArrayMsg.Built.wellFormed {m : IntArrayMsg} (h : m.Built) :
    (AnyMsg.intArray m).WellFormed := by
  induction h with
  | setFirst newRec tag val fits => exact setValues_wellFormed rfl fits
  | setValues _ val fits ih => exact setValues_wellFormed ih.tid_eq fits

theorem DoneMsg.Built.wellFormed {m : DoneMsg} (h : m.Built) : (AnyMsg.done m).WellFormed := by
  induction h with
  | create newRec tag => exact ⟨rfl, trivial, Int.le_refl 56⟩
  | assign _ success ih => exact ⟨ih.tid_eq, ih.payload, ih.covers⟩

theorem RefTwoDimIntArrayMsg.Built.wellFormed {m : RefTwoDimIntArrayMsg} (h : m.Built) :
    (AnyMsg.refTwoDimIntArray m).WellFormed := by
  induction h with
  | create newRec tag => exact ⟨rfl, trivial, Int.le_refl 72⟩
  | assign _ size counts values ih => exact ⟨ih.tid_eq, ih.payload, ih.covers⟩

theorem RequestMsg.setData_wellFormed {this : RequestMsg} {data : List UInt8}
    (h : (AnyMsg.request this).WellFormed) (fits : this.msgSize.toInt + data.length ≤ intMax) :
    (AnyMsg.request (this.setData data)).WellFormed := by
  have hcov : RequestMsg.sizeof + this.data.length ≤ this.msgSize.toInt := h.covers
  have hsizeof : RequestMsg.sizeof = 88 := rfl
  -- the sum is at least the struct and the new payload
  refine ⟨h.tid_eq, toInt_ofInt_of_fits (by omega) (by omega), ?_⟩
  have hsize := toInt_ofInt_of_fits (x := this.msgSize.toInt + data.length) (by omega) fits
  simp only [AnyMsg.type, MsgType.sizeof, AnyMsg.payloadBytes, AnyMsg.msgSize,
    RequestMsg.setData, hsize]
  omega

theorem RequestMsg.Built.wellFormed {m : RequestMsg} (h : m.Built) :
    (AnyMsg.request m).WellFormed := by
  induction h with
  | create tag => exact ⟨rfl, rfl, Int.le_refl 88⟩
  | assign _ senderTaskId requestType ih => exact ⟨ih.tid_eq, ih.payload, ih.covers⟩
  | setData _ data fits ih => exact setData_wellFormed ih fits

theorem ResponseMsg.setData_wellFormed {this : ResponseMsg} {data : List UInt8}
    (h : (AnyMsg.response this).WellFormed) (fits : this.msgSize.toInt + data.length ≤ intMax) :
    (AnyMsg.response (this.setData data)).WellFormed := by
  have hcov : ResponseMsg.sizeof + this.data.length ≤ this.msgSize.toInt := h.covers
  have hsizeof : ResponseMsg.sizeof = 80 := rfl
  refine ⟨h.tid_eq, toInt_ofInt_of_fits (by omega) (by omega), ?_⟩
  have hsize := toInt_ofInt_of_fits (x := this.msgSize.toInt + data.length) (by omega) fits
  simp only [AnyMsg.type, MsgType.sizeof, AnyMsg.payloadBytes, AnyMsg.msgSize,
    ResponseMsg.setData, hsize]
  omega

theorem ResponseMsg.Built.wellFormed {m : ResponseMsg} (h : m.Built) :
    (AnyMsg.response m).WellFormed := by
  induction h with
  | create tag => exact ⟨rfl, rfl, Int.le_refl 80⟩
  | assign _ code ih => exact ⟨ih.tid_eq, ih.payload, ih.covers⟩
  | setData _ data fits ih => exact setData_wellFormed ih fits

/-- Constructors and setters build well-formed messages. -/
theorem AnyMsg.Built.wellFormed {msg : AnyMsg} (h : msg.Built) : msg.WellFormed := by
  -- type by type, by induction on the setters called
  cases msg with
  | bar m => exact BarMsg.Built.wellFormed h
  | text m => exact TextMsg.Built.wellFormed h
  | refIntArray m => exact RefIntArrayMsg.Built.wellFormed h
  | topology m => exact TopologyMsg.Built.wellFormed h
  | intArray m => exact IntArrayMsg.Built.wellFormed h
  | done m => exact DoneMsg.Built.wellFormed h
  | refTwoDimIntArray m => exact RefTwoDimIntArrayMsg.Built.wellFormed h
  | request m => exact RequestMsg.Built.wellFormed h
  | response m => exact ResponseMsg.Built.wellFormed h

/-! ## Where the stores of a record lie -/

namespace AnyMsg

/-- All stores of `writeAt` are disjoint: the layout of every type is consistent. -/
theorem writeAt_disjoint (msg : AnyMsg) (addr : UInt64) :
    (msg.writeAt addr).Pairwise Store.Disjoint := by
  cases msg <;>
    simp [writeAt, headerStores, BarMsg.writeAt, TextMsg.writeAt, RefIntArrayMsg.writeAt,
      TopologyMsg.writeAt, IntArrayMsg.writeAt, DoneMsg.writeAt, RefTwoDimIntArrayMsg.writeAt,
      RequestMsg.writeAt, ResponseMsg.writeAt, Store.Disjoint, TopologyMsg.sizeof,
      IntArrayMsg.sizeof, RequestMsg.sizeof, ResponseMsg.sizeof]

/-- **`writeAt` stays inside the record**: every store lies in `[0, msg_size)`. -/
theorem WellFormed.writeAt_within {msg : AnyMsg} (h : msg.WellFormed) (addr : UInt64) :
    ∀ s ∈ msg.writeAt addr, s.Within 0 msg.msgSize.toInt := by
  have hcov := h.covers
  have hpay := h.payload
  -- the offsets and lengths of each type against `covers` and the count
  cases msg <;>
    simp only [type, MsgType.sizeof, payloadBytes, PayloadMatches, BarMsg.sizeof, TextMsg.sizeof,
      TextMsg.msgCapacity, RefIntArrayMsg.sizeof, TopologyMsg.sizeof, IntArrayMsg.sizeof,
      DoneMsg.sizeof, RefTwoDimIntArrayMsg.sizeof, RequestMsg.sizeof,
      ResponseMsg.sizeof] at hcov hpay <;>
    simp [writeAt, headerStores, BarMsg.writeAt, TextMsg.writeAt, RefIntArrayMsg.writeAt,
      TopologyMsg.writeAt, IntArrayMsg.writeAt, DoneMsg.writeAt, RefTwoDimIntArrayMsg.writeAt,
      RequestMsg.writeAt, ResponseMsg.writeAt, Store.Within, TopologyMsg.sizeof,
      IntArrayMsg.sizeof, RequestMsg.sizeof, ResponseMsg.sizeof] <;>
    omega

/-- Every store of a record other than its payload pointer is out of the rebinder's way,
    and the payload pointer is what the rebinder stores. -/
theorem WellFormed.writeAt_rebind {msg : AnyMsg} (h : msg.WellFormed) (image : Image)
    (addr : UInt64) :
    ∀ s ∈ msg.writeAt addr, s ∈ msg.type.rebind image addr ∨
      ((∀ p, s ∈ msg.writeAt p) ∧ ∀ r ∈ msg.type.rebind image addr, s.Disjoint r) := by
  have hpay := h.payload
  cases msg <;> simp only [PayloadMatches, TextMsg.msgCapacity] at hpay <;>
    simp [writeAt, headerStores, rebindHeader, type, MsgType.rebind, BarMsg.writeAt,
      TextMsg.writeAt, RefIntArrayMsg.writeAt, TopologyMsg.writeAt, IntArrayMsg.writeAt,
      DoneMsg.writeAt, RefTwoDimIntArrayMsg.writeAt, RequestMsg.writeAt, ResponseMsg.writeAt,
      BarMsg.rebind, TextMsg.rebind, RefIntArrayMsg.rebind, TopologyMsg.rebind,
      IntArrayMsg.rebind, DoneMsg.rebind, RefTwoDimIntArrayMsg.rebind, RequestMsg.rebind,
      ResponseMsg.rebind, Store.Disjoint, TopologyMsg.sizeof, IntArrayMsg.sizeof,
      RequestMsg.sizeof, ResponseMsg.sizeof]
  omega

end AnyMsg

namespace MsgType

/-- First offset after the last pointer the rebinder sets. -/
def rebindEnd : MsgType → Int
  | .bar => 72 | .text => 168 | .refIntArray => 88 | .topology => 104 | .intArray => 88
  | .done => 48 | .refTwoDimIntArray => 48 | .request => 88 | .response => 80

theorem rebindEnd_le_sizeof (t : MsgType) : t.rebindEnd ≤ t.sizeof := by
  cases t <;> decide

theorem rebind_disjoint (t : MsgType) (image : Image) (addr : UInt64) :
    (t.rebind image addr).Pairwise Store.Disjoint := by
  cases t <;>
    simp [rebind, rebindHeader, BarMsg.rebind, TextMsg.rebind, RefIntArrayMsg.rebind,
      TopologyMsg.rebind, IntArrayMsg.rebind, DoneMsg.rebind, RefTwoDimIntArrayMsg.rebind,
      RequestMsg.rebind, ResponseMsg.rebind, Store.Disjoint]

/-- The rebinder leaves `tag`, `tid`, `msg_size` and what follows its pointers alone. -/
theorem rebind_within (t : MsgType) (image : Image) (addr : UInt64) :
    ∀ s ∈ t.rebind image addr, s.Within 16 t.rebindEnd := by
  cases t <;>
    simp [rebind, rebindHeader, BarMsg.rebind, TextMsg.rebind, RefIntArrayMsg.rebind,
      TopologyMsg.rebind, IntArrayMsg.rebind, DoneMsg.rebind, RefTwoDimIntArrayMsg.rebind,
      RequestMsg.rebind, ResponseMsg.rebind, Store.Within, rebindEnd]

theorem clone_mem_rebind (t : MsgType) (image : Image) (addr : UInt64) :
    .ptr 24 (image.addr ⟨t, .clone⟩) ∈ t.rebind image addr := by
  cases t <;>
    simp [rebind, rebindHeader, BarMsg.rebind, TextMsg.rebind, RefIntArrayMsg.rebind,
      TopologyMsg.rebind, IntArrayMsg.rebind, DoneMsg.rebind, RefTwoDimIntArrayMsg.rebind,
      RequestMsg.rebind, ResponseMsg.rebind]

end MsgType

theorem rebindAt_frame {P : Process} {t : MsgType} {a x : Int} (m : Mem)
    (hx : x < a + 16 ∨ a + t.rebindEnd ≤ x) : rebindAt P t a m x = m x :=
  Mem.applyStores_frame m (t.rebind_within _ _) hx

/-! ## Records -/

/-- The record at offset `a` is `msg` as `writeAt` leaves it, for some payload pointer. -/
def StoredAt (m : Mem) (a : Int) (msg : AnyMsg) : Prop :=
  ∃ addr, ∀ s ∈ msg.writeAt addr, m.Holds a s

/-- The record at offset `a` is `msg`, rebound for process `P`. -/
structure BoundAt (P : Process) (m : Mem) (a : Int) (msg : AnyMsg) : Prop where
  stores : ∀ s ∈ msg.writeAt (address P.base a), m.Holds a s
  clone : m.Holds a (.ptr 24 (P.image.addr ⟨msg.type, .clone⟩))

/-- `writeAt` leaves its message stored. -/
theorem storedAt_writeAt (m : Mem) (a : Int) (msg : AnyMsg) (addr : UInt64) :
    StoredAt (m.applyStores a (msg.writeAt addr)) a msg :=
  ⟨addr, fun _ hs => Mem.holds_applyStores m (msg.writeAt_disjoint addr) hs⟩

/-- `writeAt` changes nothing outside the record. -/
theorem writeAt_frame {msg : AnyMsg} (h : msg.WellFormed) (m : Mem) {a x : Int} (addr : UInt64)
    (hx : x < a ∨ a + msg.msgSize.toInt ≤ x) :
    m.applyStores a (msg.writeAt addr) x = m x :=
  Mem.applyStores_frame m (h.writeAt_within addr) (by omega)

theorem StoredAt.congr {m m' : Mem} {a : Int} {msg : AnyMsg} (hw : msg.WellFormed)
    (h : StoredAt m a msg) (hm : ∀ y, a ≤ y → y < a + msg.msgSize.toInt → m' y = m y) :
    StoredAt m' a msg := by
  obtain ⟨addr, hs⟩ := h
  exact ⟨addr, fun s hmem => (hs s hmem).congr (hw.writeAt_within addr s hmem)
    fun x h₁ h₂ => hm x (by omega) h₂⟩

theorem BoundAt.congr {P : Process} {m m' : Mem} {a : Int} {msg : AnyMsg} (hw : msg.WellFormed)
    (h : BoundAt P m a msg) (hm : ∀ y, a ≤ y → y < a + msg.msgSize.toInt → m' y = m y) :
    BoundAt P m' a msg where
  stores s hmem := (h.stores s hmem).congr (hw.writeAt_within _ s hmem)
    fun x h₁ h₂ => hm x (by omega) h₂
  clone := by
    have hsize := hw.sizeofMessage_le
    unfold sizeofMessage at hsize
    have hwithin : (Store.ptr 24 (P.image.addr ⟨msg.type, .clone⟩)).Within 24 32 := by
      simp [Store.Within]
    exact h.clone.congr hwithin fun x h₁ h₂ => hm x (by omega) (by omega)

/-- The three header fields of a stored record. -/
theorem StoredAt.header {m : Mem} {a : Int} {msg : AnyMsg} (h : StoredAt m a msg) :
    m.loadInt (a + 0) = msg.tag ∧ m.loadInt (a + 4) = msg.tid ∧
      m.loadInt (a + 8) = msg.msgSize := by
  obtain ⟨addr, hs⟩ := h
  have hmem : ∀ s ∈ headerStores msg.tag msg.tid msg.msgSize, s ∈ msg.writeAt addr := by
    cases msg <;> exact fun s hs => List.mem_append_left _ hs
  exact ⟨(hs _ (hmem _ (by simp [headerStores]))).loadInt,
    (hs _ (hmem _ (by simp [headerStores]))).loadInt,
    (hs _ (hmem _ (by simp [headerStores]))).loadInt⟩

/-- **Rebinding** a stored record binds it. -/
theorem StoredAt.rebind {m : Mem} {a : Int} {msg : AnyMsg} (hw : msg.WellFormed)
    (h : StoredAt m a msg) (P : Process) : BoundAt P (rebindAt P msg.type a m) a msg where
  stores s hmem := by
    obtain ⟨addr, hs⟩ := h
    -- the payload pointer is stored anew, the other fields are left alone
    rcases hw.writeAt_rebind P.image (address P.base a) s hmem with hptr | ⟨hall, hdisj⟩
    · exact Mem.holds_applyStores m (msg.type.rebind_disjoint _ _) hptr
    · exact (hs s (hall addr)).applyStores hdisj
  clone := Mem.holds_applyStores m (msg.type.rebind_disjoint _ _)
    (msg.type.clone_mem_rebind _ _)

/-! ## Cloning a bound record -/

section Clone

variable {P : Process} {m : Mem} {a : Int}

/-- The record of the message fits the address space, the byte after it included. -/
def Addressable (a : Int) (msg : AnyMsg) : Prop :=
  0 ≤ a ∧ a + msg.msgSize.toInt < 18446744073709551616

/-- The header fields of a bound record. -/
theorem BoundAt.header {msg : AnyMsg} (h : BoundAt P m a msg) :
    m.loadInt (a + 0) = msg.tag ∧ m.loadInt (a + 4) = msg.tid ∧
      m.loadInt (a + 8) = msg.msgSize :=
  StoredAt.header ⟨_, h.stores⟩

theorem clone_bar {b : BarMsg} (h : BoundAt P m a (.bar b)) : BarMsg.clone m a = b := by
  obtain ⟨htag, htid, hsize⟩ := h.header
  have hvalue := (h.stores (.int 48 b.value) (by simp [AnyMsg.writeAt, BarMsg.writeAt])).loadInt
  simp only [BarMsg.clone, htag, htid, hsize, hvalue]
  rfl

theorem clone_text {b : TextMsg} (hw : (AnyMsg.text b).WellFormed)
    (h : BoundAt P m a (.text b)) : TextMsg.clone m a = b := by
  obtain ⟨htag, htid, hsize⟩ := h.header
  obtain ⟨hlen, hnul⟩ := hw.payload
  -- `strcpy` stops at the NUL that `writeAt` has stored
  have hmsg : m.loadCStr (a + 48) 1000000 = b.msg :=
    (h.stores (.cstr 48 b.msg) (by simp [AnyMsg.writeAt, TextMsg.writeAt])).loadCStr hnul
      (by unfold TextMsg.msgCapacity at hlen; omega)
  simp only [TextMsg.clone, htag, htid, hsize, hmsg]
  rfl

theorem clone_refIntArray {b : RefIntArrayMsg} (h : BoundAt P m a (.refIntArray b)) :
    RefIntArrayMsg.clone m a = b := by
  obtain ⟨htag, htid, hsize⟩ := h.header
  have hcount := (h.stores (.int 48 b.size)
    (by simp [AnyMsg.writeAt, RefIntArrayMsg.writeAt])).loadInt
  have hvalues := (h.stores (.ptr 56 b.values)
    (by simp [AnyMsg.writeAt, RefIntArrayMsg.writeAt])).loadPtr
  simp only [RefIntArrayMsg.clone, htag, htid, hsize, hcount, hvalues]
  rfl

theorem clone_done {b : DoneMsg} (h : BoundAt P m a (.done b)) : DoneMsg.clone m a = b := by
  obtain ⟨htag, htid, hsize⟩ := h.header
  have hsuccess := (h.stores (.int 48 b.success)
    (by simp [AnyMsg.writeAt, DoneMsg.writeAt])).loadInt
  simp only [DoneMsg.clone, htag, htid, hsize, hsuccess]
  rfl

theorem clone_refTwoDimIntArray {b : RefTwoDimIntArrayMsg}
    (h : BoundAt P m a (.refTwoDimIntArray b)) : RefTwoDimIntArrayMsg.clone m a = b := by
  obtain ⟨htag, htid, hsize⟩ := h.header
  have hcount := (h.stores (.int 48 b.size)
    (by simp [AnyMsg.writeAt, RefTwoDimIntArrayMsg.writeAt])).loadInt
  have hcounts := (h.stores (.ptr 56 b.counts)
    (by simp [AnyMsg.writeAt, RefTwoDimIntArrayMsg.writeAt])).loadPtr
  have hvalues := (h.stores (.ptr 64 b.values)
    (by simp [AnyMsg.writeAt, RefTwoDimIntArrayMsg.writeAt])).loadPtr
  simp only [RefTwoDimIntArrayMsg.clone, htag, htid, hsize, hcount, hcounts, hvalues]
  rfl

/-- Following the payload pointer of a bound record leads to the byte after its struct. -/
theorem BoundAt.payload {msg : AnyMsg} (hw : msg.WellFormed) (ha : Addressable a msg)
    (h : BoundAt P m a msg) (off : Int)
    (hptr : .ptr off (address P.base a + UInt64.ofNat msg.type.sizeof.toNat) ∈
      msg.writeAt (address P.base a)) :
    offsetOf P.base (m.loadPtr (a + off)) = a + msg.type.sizeof := by
  have hcov := hw.covers
  have hpay := msg.payloadBytes_nonneg
  have hsize := msg.type.sizeofMessage_le
  unfold Addressable at ha
  unfold sizeofMessage at hsize
  have hpos : ((msg.type.sizeof.toNat : Nat) : Int) = msg.type.sizeof :=
    Int.toNat_of_nonneg (by omega)
  -- address and offset cancel, since the record fits the address space
  rw [(h.stores _ hptr).loadPtr, offsetOf_address ha.1 (by omega), hpos]

theorem clone_topology {b : TopologyMsg} (hw : (AnyMsg.topology b).WellFormed)
    (ha : Addressable a (.topology b)) (h : BoundAt P m a (.topology b)) :
    TopologyMsg.clone P.base m a = b := by
  obtain ⟨htag, htid, hsize⟩ := h.header
  -- the count says how many elements the pointer leads to
  have hcount : b.bucketCount.toInt.toNat = b.bucketIds.length := by
    have : b.bucketCount.toInt = b.bucketIds.length := hw.payload
    omega
  have hbucketCount := (h.stores (.int 48 b.bucketCount)
    (by simp [AnyMsg.writeAt, TopologyMsg.writeAt])).loadInt
  have hrootId := (h.stores (.int 52 b.rootId)
    (by simp [AnyMsg.writeAt, TopologyMsg.writeAt])).loadInt
  have hsampleSize := (h.stores (.int 56 b.sampleSize)
    (by simp [AnyMsg.writeAt, TopologyMsg.writeAt])).loadInt
  have hdataSize := (h.stores (.int 60 b.dataSize)
    (by simp [AnyMsg.writeAt, TopologyMsg.writeAt])).loadInt
  have hptr := h.payload hw ha 64
    (by simp [AnyMsg.writeAt, TopologyMsg.writeAt, AnyMsg.type, MsgType.sizeof])
  have hids := (h.stores (.uints TopologyMsg.sizeof b.bucketIds)
    (by simp [AnyMsg.writeAt, TopologyMsg.writeAt, hcount])).loadUInts
  simp only [TopologyMsg.clone, htag, htid, hsize, hbucketCount, hrootId, hsampleSize, hdataSize,
    hptr, hcount, AnyMsg.type, MsgType.sizeof, hids]
  rfl

theorem clone_intArray {b : IntArrayMsg} (hw : (AnyMsg.intArray b).WellFormed)
    (ha : Addressable a (.intArray b)) (h : BoundAt P m a (.intArray b)) :
    IntArrayMsg.clone P.base m a = b := by
  obtain ⟨htag, htid, hsize⟩ := h.header
  have hcount : b.size.toInt.toNat = b.values.length := by
    have : b.size.toInt = b.values.length := hw.payload
    omega
  have hlen := (h.stores (.int 48 b.size) (by simp [AnyMsg.writeAt, IntArrayMsg.writeAt])).loadInt
  have hptr := h.payload hw ha 56
    (by simp [AnyMsg.writeAt, IntArrayMsg.writeAt, AnyMsg.type, MsgType.sizeof])
  have hvalues := (h.stores (.ints IntArrayMsg.sizeof b.values)
    (by simp [AnyMsg.writeAt, IntArrayMsg.writeAt, hcount])).loadInts
  simp only [IntArrayMsg.clone, htag, htid, hsize, hlen, hptr, hcount, AnyMsg.type,
    MsgType.sizeof, hvalues]
  rfl

theorem clone_request {b : RequestMsg} (hw : (AnyMsg.request b).WellFormed)
    (ha : Addressable a (.request b)) (h : BoundAt P m a (.request b)) :
    RequestMsg.clone P.base m a = b := by
  obtain ⟨htag, htid, hsize⟩ := h.header
  have hcount : b.dataSize.toInt.toNat = b.data.length := by
    have : b.dataSize.toInt = b.data.length := hw.payload
    omega
  have hsender := (h.stores (.int 48 b.senderTaskId)
    (by simp [AnyMsg.writeAt, RequestMsg.writeAt])).loadInt
  have htype := (h.stores (.int 52 b.requestType)
    (by simp [AnyMsg.writeAt, RequestMsg.writeAt])).loadInt
  have hlen := (h.stores (.int 56 b.dataSize)
    (by simp [AnyMsg.writeAt, RequestMsg.writeAt])).loadInt
  have hptr := h.payload hw ha 64
    (by simp [AnyMsg.writeAt, RequestMsg.writeAt, AnyMsg.type, MsgType.sizeof])
  have hdata := (h.stores ⟨RequestMsg.sizeof, b.data⟩
    (by simp [AnyMsg.writeAt, RequestMsg.writeAt, hcount])).loadBytes
  simp only [RequestMsg.clone, htag, htid, hsize, hsender, htype, hlen, hptr, hcount,
    AnyMsg.type, MsgType.sizeof, hdata]
  rfl

theorem clone_response {b : ResponseMsg} (hw : (AnyMsg.response b).WellFormed)
    (ha : Addressable a (.response b)) (h : BoundAt P m a (.response b)) :
    ResponseMsg.clone P.base m a = b := by
  obtain ⟨htag, htid, hsize⟩ := h.header
  have hcount : b.dataSize.toInt.toNat = b.data.length := by
    have : b.dataSize.toInt = b.data.length := hw.payload
    omega
  have hcode := (h.stores (.int 48 b.code)
    (by simp [AnyMsg.writeAt, ResponseMsg.writeAt])).loadInt
  have hlen := (h.stores (.int 52 b.dataSize)
    (by simp [AnyMsg.writeAt, ResponseMsg.writeAt])).loadInt
  have hptr := h.payload hw ha 56
    (by simp [AnyMsg.writeAt, ResponseMsg.writeAt, AnyMsg.type, MsgType.sizeof])
  have hdata := (h.stores ⟨ResponseMsg.sizeof, b.data⟩
    (by simp [AnyMsg.writeAt, ResponseMsg.writeAt, hcount])).loadBytes
  simp only [ResponseMsg.clone, htag, htid, hsize, hcode, hlen, hptr, hcount, AnyMsg.type,
    MsgType.sizeof, hdata]
  rfl

/-- **Cloning** a bound record gives back its message. -/
theorem cloneAt_of_boundAt {msg : AnyMsg} (hw : msg.WellFormed) (ha : Addressable a msg)
    (h : BoundAt P m a msg) : cloneAt P m a = some msg := by
  -- the rebinder has put the address of this type's `clone` in the record
  have hresolve : cloneAt P m a = some (msg.type.clone P.base m a) := by
    rw [cloneAt, h.clone.loadPtr, P.image.resolve_addr]
  rw [hresolve]
  cases msg with
  | bar b => exact congrArg (some ∘ AnyMsg.bar) (clone_bar h)
  | text b => exact congrArg (some ∘ AnyMsg.text) (clone_text hw h)
  | refIntArray b => exact congrArg (some ∘ AnyMsg.refIntArray) (clone_refIntArray h)
  | topology b => exact congrArg (some ∘ AnyMsg.topology) (clone_topology hw ha h)
  | intArray b => exact congrArg (some ∘ AnyMsg.intArray) (clone_intArray hw ha h)
  | done b => exact congrArg (some ∘ AnyMsg.done) (clone_done h)
  | refTwoDimIntArray b =>
    exact congrArg (some ∘ AnyMsg.refTwoDimIntArray) (clone_refTwoDimIntArray h)
  | request b => exact congrArg (some ∘ AnyMsg.request) (clone_request hw ha h)
  | response b => exact congrArg (some ∘ AnyMsg.response) (clone_response hw ha h)

end Clone

/-! ## The round trip -/

/-- **Round trip**: a built message of any type, written at offset `a` by a process `W`,
    stays inside its `msg_size` bytes; the rebinder registered for the `tid` found there,
    run by any process `P`, followed by `clone` gives back the message. -/
theorem built_round_trip (msg : AnyMsg) (hb : msg.Built) (m : Mem) (a : Int)
    (ha : Addressable a msg) (W P : Process) :
    let m' := m.applyStores a (msg.writeAt (address W.base a))
    (∀ x, x < a ∨ a + msg.msgSize.toInt ≤ x → m' x = m x) ∧
      ∃ t, rebinder (m'.loadInt (a + 4)) = some t ∧
        cloneAt P (rebindAt P t a m') a = some msg := by
  intro m'
  have hw := hb.wellFormed
  have hstored : StoredAt m' a msg := storedAt_writeAt m a msg _
  refine ⟨fun x hx => writeAt_frame hw m _ hx, msg.type, ?_, ?_⟩
  · -- `rebinder[tid]` is the one of the message's type
    rw [hstored.header.2.1, hw.tid_eq, rebinder_id]
  · exact cloneAt_of_boundAt hw ha (hstored.rebind hw P)

/-- The round trip of the three-byte request `01 02 03` of task 7 between two processes that
    map the segment at different addresses. -/
theorem built_round_trip_request :
    let req := (RequestMsg.create 0).setData [1, 2, 3]
    let m' := Mem.applyStores (fun _ => 0) 56 ((AnyMsg.request req).writeAt (address 4096 56))
    (∀ x, x < 56 ∨ 56 + 91 ≤ x → m' x = 0) ∧
      ∃ t, rebinder (m'.loadInt (56 + 4)) = some t ∧
        cloneAt ⟨8192, .packed⟩ (rebindAt ⟨8192, .packed⟩ t 56 m') 56 = some (.request req) :=
  built_round_trip (.request ((RequestMsg.create 0).setData [1, 2, 3]))
    (.setData (.create 0) [1, 2, 3] (by decide)) (fun _ => 0) 56 ⟨by decide, by decide⟩
    ⟨4096, .packed⟩ ⟨8192, .packed⟩

end TaskSystem
