import TaskSystem.Messages.Types

/-!
# Serialisation

`writeAt`, the rebinders and `clone` of the nine message types, over a shared segment that
each process maps at an address of its own.

A record lies at an offset of the segment; the absolute address of offset `a` in a process
whose mapping starts at `base` is `address base a`. Method pointers are code addresses of
one process, which is why `writeAt` leaves them out and the receiver rebinds them: an
`Image` says at which address each method was loaded there.

## Contents

- `Method`, `MsgType`, `Image`, `Process`
- per type: `writeAt` and `rebind` as the stores they perform, `clone` as the loads it performs
- `rebinder` (the table `build_mapping` fills), `AnyMsg.writeAt`, `cloneAt`
-/

namespace TaskSystem

open Library

/-! ## Code addresses -/

/-- The nine message types. -/
inductive MsgType where
  | bar | text | refIntArray | topology | intArray | done | refTwoDimIntArray
  | request | response
  deriving DecidableEq, Repr

/-- The methods a message struct can carry. -/
inductive Method where
  | getTag | clone | destroy | writeAt
  | getValue | setValue | getMsg | setMsg | setValues | getSize
  | setBucketIds | getBucketId | setRootId | getRootId | getData | setData
  deriving DecidableEq, Repr

/-- A function of the program: the method of a message type. -/
structure Fn where
  owner : MsgType
  method : Method
  deriving DecidableEq, Repr

/-- Where the functions of the program were loaded in one process. -/
structure Image where
  /-- Load address of a function -/
  addr : Fn → UInt64
  /-- The function at an address -/
  resolve : UInt64 → Option Fn
  resolve_addr : ∀ f, resolve (addr f) = some f

/-- Number of a function, for the image below. -/
def Fn.code (f : Fn) : Nat := 16 * f.owner.ctorIdx + f.method.ctorIdx

/-- The function with a given number. -/
def Fn.ofCode (n : Nat) : Option Fn :=
  match ([.bar, .text, .refIntArray, .topology, .intArray, .done, .refTwoDimIntArray,
      .request, .response] : List MsgType)[n / 16]?,
    ([.getTag, .clone, .destroy, .writeAt, .getValue, .setValue, .getMsg, .setMsg, .setValues,
      .getSize, .setBucketIds, .getBucketId, .setRootId, .getRootId, .getData,
      .setData] : List Method)[n % 16]? with
  | some t, some m => some ⟨t, m⟩
  | _, _ => none

theorem Fn.ofCode_code (f : Fn) : Fn.ofCode f.code = some f := by
  obtain ⟨t, m⟩ := f
  cases t <;> cases m <;> rfl

theorem Fn.code_lt (f : Fn) : f.code < 256 := by
  obtain ⟨t, m⟩ := f
  cases t <;> cases m <;> decide

/-- An image in which the functions lie 16 bytes apart from 0x401000 on. -/
def Image.packed : Image where
  addr f := UInt64.ofNat (4198400 + 16 * f.code)
  resolve p := Fn.ofCode ((p.toNat - 4198400) / 16)
  resolve_addr f := by
    have hlt := f.code_lt
    have hcode : ((UInt64.ofNat (4198400 + 16 * f.code)).toNat - 4198400) / 16 = f.code := by
      rw [UInt64.toNat_ofNat']
      omega
    rw [hcode, Fn.ofCode_code]

/-- What a process sees of a shared segment: the address it mapped it at, and its code. -/
structure Process where
  base : UInt64
  image : Image

/-- Absolute address of segment offset `a`. -/
def address (base : UInt64) (a : Int) : UInt64 := base + UInt64.ofNat a.toNat

/-- Segment offset of an absolute address. -/
def offsetOf (base p : UInt64) : Int := ((p - base).toNat : Int)

theorem offsetOf_address {base : UInt64} {a : Int} {k : Nat} (ha : 0 ≤ a)
    (hk : a + k < 18446744073709551616) :
    offsetOf base (address base a + UInt64.ofNat k) = a + k := by
  have hsub : address base a + UInt64.ofNat k - base = UInt64.ofNat a.toNat + UInt64.ofNat k := by
    rw [address, UInt64.add_assoc, UInt64.add_comm]
    simp
  -- nothing wraps below 2^64
  rw [offsetOf, hsub, UInt64.toNat_add, UInt64.toNat_ofNat', UInt64.toNat_ofNat']
  omega

/-! ## The header -/

/-- `tmp->tag = this->tag; tmp->tid = this->tid; tmp->msg_size = this->msg_size;` -/
def headerStores (tag tid msgSize : Int32) : List Store :=
  [.int 0 tag, .int 4 tid, .int 8 msgSize]

/-- The methods every rebinder sets. -/
def rebindHeader (image : Image) (t : MsgType) : List Store :=
  [.ptr 16 (image.addr ⟨t, .getTag⟩), .ptr 24 (image.addr ⟨t, .clone⟩),
    .ptr 32 (image.addr ⟨t, .destroy⟩), .ptr 40 (image.addr ⟨t, .writeAt⟩)]

/-! ## The nine types

`writeAt` and `rebind` take the absolute address of the record, for the payload pointer they
store; the stores are relative to the record. `clone` reads the record at offset `this`.
Each `clone` starts from a fresh object (`*_create`) and then overwrites every field, so its
result is the struct of the values loaded. -/

namespace BarMsg

def writeAt (this : BarMsg) : List Store :=
  headerStores this.tag this.tid this.msgSize ++ [.int 48 this.value]

/-- `BarMsg_rebind` -/
def rebind (image : Image) : List Store :=
  rebindHeader image .bar ++
    [.ptr 56 (image.addr ⟨.bar, .getValue⟩), .ptr 64 (image.addr ⟨.bar, .setValue⟩)]

def clone (m : Mem) (this : Int) : BarMsg where
  tag := m.loadInt (this + 0)
  tid := m.loadInt (this + 4)
  msgSize := m.loadInt (this + 8)
  value := m.loadInt (this + 48)

end BarMsg

namespace TextMsg

/-- The text is copied with `strcpy`. -/
def writeAt (this : TextMsg) : List Store :=
  headerStores this.tag this.tid this.msgSize ++ [.cstr 48 this.msg]

/-- `TextMsg_rebind` -/
def rebind (image : Image) : List Store :=
  rebindHeader image .text ++
    [.ptr 152 (image.addr ⟨.text, .getMsg⟩), .ptr 160 (image.addr ⟨.text, .setMsg⟩)]

/-- `strcpy` reads up to the first NUL; `Q_SIZE` bytes are mapped at most. -/
def clone (m : Mem) (this : Int) : TextMsg where
  tag := m.loadInt (this + 0)
  tid := m.loadInt (this + 4)
  msgSize := m.loadInt (this + 8)
  msg := m.loadCStr (this + 48) 1000000

end TextMsg

namespace RefIntArrayMsg

def writeAt (this : RefIntArrayMsg) : List Store :=
  headerStores this.tag this.tid this.msgSize ++ [.int 48 this.size, .ptr 56 this.values]

/-- `RefIntArrayMsg_rebind` -/
def rebind (image : Image) : List Store :=
  rebindHeader image .refIntArray ++
    [.ptr 64 (image.addr ⟨.refIntArray, .setValues⟩),
      .ptr 72 (image.addr ⟨.refIntArray, .getSize⟩),
      .ptr 80 (image.addr ⟨.refIntArray, .getValue⟩)]

def clone (m : Mem) (this : Int) : RefIntArrayMsg where
  tag := m.loadInt (this + 0)
  tid := m.loadInt (this + 4)
  msgSize := m.loadInt (this + 8)
  size := m.loadInt (this + 48)
  values := m.loadPtr (this + 56)

end RefIntArrayMsg

namespace TopologyMsg

/-- The array goes after the struct, and the pointer to it into the struct. -/
def writeAt (this : TopologyMsg) (addr : UInt64) : List Store :=
  headerStores this.tag this.tid this.msgSize ++
    [.int 48 this.bucketCount, .int 52 this.rootId, .int 56 this.sampleSize,
      .int 60 this.dataSize, .uints sizeof (this.bucketIds.take this.bucketCount.toInt.toNat),
      .ptr 64 (addr + UInt64.ofNat sizeof.toNat)]

/-- What `writeAt` does to the object it is called on: it adds the array's size to
    `msg_size` (the record has been given the old value). -/
def afterWriteAt (this : TopologyMsg) : TopologyMsg :=
  -- `this->msg_size += ...` after the header has been copied
  { this with msgSize := Int32.ofInt (this.msgSize.toInt + this.bucketCount.toInt * 4) }

/-- `TopologyMsg_rebind` -/
def rebind (image : Image) (addr : UInt64) : List Store :=
  rebindHeader image .topology ++
    [.ptr 72 (image.addr ⟨.topology, .setBucketIds⟩),
      .ptr 80 (image.addr ⟨.topology, .getBucketId⟩),
      .ptr 88 (image.addr ⟨.topology, .setRootId⟩),
      .ptr 96 (image.addr ⟨.topology, .getRootId⟩),
      .ptr 64 (addr + UInt64.ofNat sizeof.toNat)]

/-- The array is read through the pointer in the record. -/
def clone (base : UInt64) (m : Mem) (this : Int) : TopologyMsg where
  tag := m.loadInt (this + 0)
  tid := m.loadInt (this + 4)
  msgSize := m.loadInt (this + 8)
  bucketCount := m.loadInt (this + 48)
  rootId := m.loadInt (this + 52)
  sampleSize := m.loadInt (this + 56)
  dataSize := m.loadInt (this + 60)
  bucketIds := m.loadUInts (offsetOf base (m.loadPtr (this + 64)))
    (m.loadInt (this + 48)).toInt.toNat

end TopologyMsg

namespace IntArrayMsg

/-- The array goes after the struct, and the pointer to it into the struct. -/
def writeAt (this : IntArrayMsg) (addr : UInt64) : List Store :=
  headerStores this.tag this.tid this.msgSize ++
    [.int 48 this.size, .ints sizeof (this.values.take this.size.toInt.toNat),
      .ptr 56 (addr + UInt64.ofNat sizeof.toNat)]

/-- `IntArrayMsg_rebind` -/
def rebind (image : Image) (addr : UInt64) : List Store :=
  rebindHeader image .intArray ++
    [.ptr 64 (image.addr ⟨.intArray, .setValues⟩),
      .ptr 72 (image.addr ⟨.intArray, .getSize⟩),
      .ptr 80 (image.addr ⟨.intArray, .getValue⟩),
      .ptr 56 (addr + UInt64.ofNat sizeof.toNat)]

/-- The array is read through the pointer in the record. -/
def clone (base : UInt64) (m : Mem) (this : Int) : IntArrayMsg where
  tag := m.loadInt (this + 0)
  tid := m.loadInt (this + 4)
  msgSize := m.loadInt (this + 8)
  size := m.loadInt (this + 48)
  values := m.loadInts (offsetOf base (m.loadPtr (this + 56)))
    (m.loadInt (this + 48)).toInt.toNat

end IntArrayMsg

namespace DoneMsg

def writeAt (this : DoneMsg) : List Store :=
  headerStores this.tag this.tid this.msgSize ++ [.int 48 this.success]

/-- `DoneMsg_rebind` -/
def rebind (image : Image) : List Store := rebindHeader image .done

def clone (m : Mem) (this : Int) : DoneMsg where
  tag := m.loadInt (this + 0)
  tid := m.loadInt (this + 4)
  msgSize := m.loadInt (this + 8)
  success := m.loadInt (this + 48)

end DoneMsg

namespace RefTwoDimIntArrayMsg

def writeAt (this : RefTwoDimIntArrayMsg) : List Store :=
  headerStores this.tag this.tid this.msgSize ++
    [.int 48 this.size, .ptr 56 this.counts, .ptr 64 this.values]

/-- `RefTwoDimIntArrayMsg_rebind` -/
def rebind (image : Image) : List Store := rebindHeader image .refTwoDimIntArray

def clone (m : Mem) (this : Int) : RefTwoDimIntArrayMsg where
  tag := m.loadInt (this + 0)
  tid := m.loadInt (this + 4)
  msgSize := m.loadInt (this + 8)
  size := m.loadInt (this + 48)
  counts := m.loadPtr (this + 56)
  values := m.loadPtr (this + 64)

end RefTwoDimIntArrayMsg

namespace RequestMsg

/-- The payload goes after the struct, and the pointer to it into the struct. -/
def writeAt (this : RequestMsg) (addr : UInt64) : List Store :=
  headerStores this.tag this.tid this.msgSize ++
    [.int 48 this.senderTaskId, .int 52 this.requestType, .int 56 this.dataSize,
      ⟨sizeof, this.data.take this.dataSize.toInt.toNat⟩,
      .ptr 64 (addr + UInt64.ofNat sizeof.toNat)]

/-- `RequestMsg_rebind` -/
def rebind (image : Image) (addr : UInt64) : List Store :=
  rebindHeader image .request ++
    [.ptr 72 (image.addr ⟨.request, .getData⟩), .ptr 80 (image.addr ⟨.request, .setData⟩),
      .ptr 64 (addr + UInt64.ofNat sizeof.toNat)]

/-- The payload is read through the pointer in the record. -/
def clone (base : UInt64) (m : Mem) (this : Int) : RequestMsg where
  tag := m.loadInt (this + 0)
  tid := m.loadInt (this + 4)
  msgSize := m.loadInt (this + 8)
  senderTaskId := m.loadInt (this + 48)
  requestType := m.loadInt (this + 52)
  dataSize := m.loadInt (this + 56)
  data := m.read (offsetOf base (m.loadPtr (this + 64))) (m.loadInt (this + 56)).toInt.toNat

end RequestMsg

namespace ResponseMsg

/-- The payload goes after the struct, and the pointer to it into the struct. -/
def writeAt (this : ResponseMsg) (addr : UInt64) : List Store :=
  headerStores this.tag this.tid this.msgSize ++
    [.int 48 this.code, .int 52 this.dataSize,
      ⟨sizeof, this.data.take this.dataSize.toInt.toNat⟩,
      .ptr 56 (addr + UInt64.ofNat sizeof.toNat)]

/-- `ResponseMsg_rebind` -/
def rebind (image : Image) (addr : UInt64) : List Store :=
  rebindHeader image .response ++
    [.ptr 64 (image.addr ⟨.response, .getData⟩), .ptr 72 (image.addr ⟨.response, .setData⟩),
      .ptr 56 (addr + UInt64.ofNat sizeof.toNat)]

/-- The payload is read through the pointer in the record. -/
def clone (base : UInt64) (m : Mem) (this : Int) : ResponseMsg where
  tag := m.loadInt (this + 0)
  tid := m.loadInt (this + 4)
  msgSize := m.loadInt (this + 8)
  code := m.loadInt (this + 48)
  dataSize := m.loadInt (this + 52)
  data := m.read (offsetOf base (m.loadPtr (this + 56))) (m.loadInt (this + 52)).toInt.toNat

end ResponseMsg

/-! ## Dispatch -/

namespace AnyMsg

/-- The type whose methods the message carries. -/
def type : AnyMsg → MsgType
  | bar _ => .bar | text _ => .text | refIntArray _ => .refIntArray | topology _ => .topology
  | intArray _ => .intArray | done _ => .done | refTwoDimIntArray _ => .refTwoDimIntArray
  | request _ => .request | response _ => .response

/-- `msg->writeAt(msg, addr)`: the stores it performs relative to `addr`. -/
def writeAt : AnyMsg → UInt64 → List Store
  | bar m, _ => m.writeAt
  | text m, _ => m.writeAt
  | refIntArray m, _ => m.writeAt
  | topology m, addr => m.writeAt addr
  | intArray m, addr => m.writeAt addr
  | done m, _ => m.writeAt
  | refTwoDimIntArray m, _ => m.writeAt
  | request m, addr => m.writeAt addr
  | response m, addr => m.writeAt addr

/-- The sender's object after `msg->writeAt`. -/
def afterWriteAt : AnyMsg → AnyMsg
  | topology m => topology m.afterWriteAt
  | m => m

end AnyMsg

/-- The rebinder of a message type. -/
def MsgType.rebind (image : Image) (addr : UInt64) : MsgType → List Store
  | .bar => BarMsg.rebind image
  | .text => TextMsg.rebind image
  | .refIntArray => RefIntArrayMsg.rebind image
  | .topology => TopologyMsg.rebind image addr
  | .intArray => IntArrayMsg.rebind image addr
  | .done => DoneMsg.rebind image
  | .refTwoDimIntArray => RefTwoDimIntArrayMsg.rebind image
  | .request => RequestMsg.rebind image addr
  | .response => ResponseMsg.rebind image addr

/-- The `clone` method of a message type, called on the record at offset `this`. -/
def MsgType.clone (base : UInt64) (m : Mem) (this : Int) : MsgType → AnyMsg
  | .bar => .bar (BarMsg.clone m this)
  | .text => .text (TextMsg.clone m this)
  | .refIntArray => .refIntArray (RefIntArrayMsg.clone m this)
  | .topology => .topology (TopologyMsg.clone base m this)
  | .intArray => .intArray (IntArrayMsg.clone base m this)
  | .done => .done (DoneMsg.clone m this)
  | .refTwoDimIntArray => .refTwoDimIntArray (RefTwoDimIntArrayMsg.clone m this)
  | .request => .request (RequestMsg.clone base m this)
  | .response => .response (ResponseMsg.clone base m this)

/-- The table `rebinder[MAX_MESSAGE_TYPE]` as `build_mapping` fills it. -/
def buildMapping : List (Option MsgType) :=
  [none, some .bar, some .text, some .refIntArray, some .topology, some .intArray, some .done,
    some .refTwoDimIntArray, some .request, some .response] ++ List.replicate 10 none

/-- `rebinder[tid]`; an index outside the table counts as a NULL entry. -/
def rebinder (tid : Int32) : Option MsgType :=
  if tid.toInt < 0 then none else (buildMapping[tid.toInt.toNat]?).join

/-- `rebinder[tid](msg)` on the record at offset `a`. -/
def rebindAt (P : Process) (t : MsgType) (a : Int) (m : Mem) : Mem :=
  m.applyStores a (t.rebind P.image (address P.base a))

/-- `msg->clone(msg)` on the record at offset `a`: the call goes through the method pointer
    in the record. `none` when that pointer is not the address of a `clone`. -/
def cloneAt (P : Process) (m : Mem) (a : Int) : Option AnyMsg :=
  match P.image.resolve (m.loadPtr (a + 24)) with
  | some ⟨t, .clone⟩ => some (t.clone P.base m a)
  | _ => none

end TaskSystem
