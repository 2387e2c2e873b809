import TaskSystem.Library.CPlatform

/-!
# Message Types

The nine message structs, their constructors and their setters
(`include/TaskSystem/Messages/*/generated.h`, `src/Messages/*/*.c`).

An object on the heap is a Lean structure: `int` fields are `Int32`, references that are
only passed on are `UInt64`, and a buffer the object owns is the list of its elements.
A constructor takes the block `malloc` returned (`newRec`), whose contents are arbitrary,
so the fields it does not set stay unspecified. Method pointers of heap objects are left
out: they are set by the constructor and never read from the heap by the code modelled.

## Contents

- `BarMsg` ... `ResponseMsg`: struct, layout, `create`, setters
- `AnyMsg`: a message of any of the nine types, and its `struct Message` header fields
-/

namespace TaskSystem

open Library

/-! ## Message type identifiers (`*_MSG_ID`) -/

def barMsgId : Int32 := 1
def textMsgId : Int32 := 2
def refIntArrayMsgId : Int32 := 3
def topologyMsgId : Int32 := 4
def intArrayMsgId : Int32 := 5
def doneMsgId : Int32 := 6
def refTwoDimIntArrayMsgId : Int32 := 7
def requestMsgId : Int32 := 8
def responseMsgId : Int32 := 9

/-- Fields every message starts with: `tag`, `tid`, `msg_size` and the four methods. -/
def headerLayout : List CType := [.int, .int, .int, .ptr, .ptr, .ptr, .ptr]

/-- `sizeof(struct Message)` -/
def sizeofMessage : Int := 48

example : structLayout headerLayout = ([0, 4, 8, 16, 24, 32, 40], 48) := by decide

/-! ## BarMsg -/

/-- `struct BarMsg` -/
structure BarMsg where
  tag : Int32
  tid : Int32
  msgSize : Int32
  value : Int32
  deriving DecidableEq, Repr

namespace BarMsg

/-- `sizeof(struct BarMsg)` -/
def sizeof : Int := 72

example : structLayout (headerLayout ++ [.int, .ptr, .ptr]) =
    ([0, 4, 8, 16, 24, 32, 40, 48, 56, 64], 72) := by decide

/-- `BarMsg_create` -/
def create (newRec : BarMsg) (tag : Int32) : BarMsg :=
  { newRec with tag := tag, tid := barMsgId, msgSize := Int32.ofInt sizeof }

def setValue (this : BarMsg) (value : Int32) : BarMsg := { this with value := value }

end BarMsg

/-! ## TextMsg -/

/-- `struct TextMsg`. The array `msg[100]` is only ever read as a C string, so it is kept
    as the characters before its terminating NUL. -/
structure TextMsg where
  tag : Int32
  tid : Int32
  msgSize : Int32
  msg : List UInt8
  deriving DecidableEq, Repr

namespace TextMsg

/-- `sizeof(struct TextMsg)` -/
def sizeof : Int := 168

/-- `sizeof(msg)` -/
def msgCapacity : Nat := 100

example : structLayout (headerLayout ++ [.chars msgCapacity, .ptr, .ptr]) =
    ([0, 4, 8, 16, 24, 32, 40, 48, 152, 160], 168) := by decide

/-- `TextMsg_create` -/
def create (newRec : TextMsg) (tag : Int32) : TextMsg :=
  { newRec with tag := tag, tid := textMsgId, msgSize := Int32.ofInt sizeof }

/-- `setMsg`: `strcpy` takes the characters up to the first NUL. -/
def setMsg (this : TextMsg) (msg : List UInt8) : TextMsg :=
  { this with msg := msg.takeWhile (· ≠ 0) }

end TextMsg

/-! ## RefIntArrayMsg -/

/-- `struct RefIntArrayMsg`: `values` is a reference, sent as it is. -/
structure RefIntArrayMsg where
  tag : Int32
  tid : Int32
  msgSize : Int32
  size : Int32
  values : UInt64
  deriving DecidableEq, Repr

namespace RefIntArrayMsg

/-- `sizeof(struct RefIntArrayMsg)` -/
def sizeof : Int := 88

example : structLayout (headerLayout ++ [.int, .ptr, .ptr, .ptr, .ptr]) =
    ([0, 4, 8, 16, 24, 32, 40, 48, 56, 64, 72, 80], 88) := by decide

/-- `RefIntArrayMsg_create` -/
def create (newRec : RefIntArrayMsg) (tag : Int32) : RefIntArrayMsg :=
  { newRec with tag := tag, tid := refIntArrayMsgId, msgSize := Int32.ofInt sizeof }

def setValues (this : RefIntArrayMsg) (count : Int32) (pointerToValues : UInt64) :
    RefIntArrayMsg :=
  { this with size := count, values := pointerToValues }

end RefIntArrayMsg

/-! ## TopologyMsg -/

/-- `struct TopologyMsg`: `bucketIds` is the array the message owns. -/
structure TopologyMsg where
  tag : Int32
  tid : Int32
  msgSize : Int32
  bucketCount : Int32
  rootId : Int32
  sampleSize : Int32
  dataSize : Int32
  bucketIds : List UInt32
  deriving DecidableEq, Repr

namespace TopologyMsg

/-- `sizeof(struct TopologyMsg)` -/
def sizeof : Int := 104

example : structLayout (headerLayout ++ [.int, .int, .int, .int, .ptr, .ptr, .ptr, .ptr, .ptr]) =
    ([0, 4, 8, 16, 24, 32, 40, 48, 52, 56, 60, 64, 72, 80, 88, 96], 104) := by decide

/-- `TopologyMsg_create` -/
def create (newRec : TopologyMsg) (tag : Int32) : TopologyMsg :=
  { newRec with tag := tag, tid := topologyMsgId, msgSize := Int32.ofInt sizeof }

/-- `setBucketIds`, with `ids` the `count` first elements of the array passed -/
def setBucketIds (this : TopologyMsg) (ids : List UInt32) : TopologyMsg :=
  { this with
    bucketCount := Int32.ofInt ids.length
    msgSize := Int32.ofInt (sizeof + ids.length * 4)
    bucketIds := ids }

def setRootId (this : TopologyMsg) (id : UInt32) : TopologyMsg :=
  { this with rootId := id.toInt32 }

end TopologyMsg

/-! ## IntArrayMsg -/

/-- `struct IntArrayMsg`: `values` is the array the message owns. -/
structure IntArrayMsg where
  tag : Int32
  tid : Int32
  msgSize : Int32
  size : Int32
  values : List Int32
  deriving DecidableEq, Repr

namespace IntArrayMsg

/-- `sizeof(struct IntArrayMsg)`, laid out as `struct RefIntArrayMsg` -/
def sizeof : Int := 88

/-- `IntArrayMsg_create` -/
def create (newRec : IntArrayMsg) (tag : Int32) : IntArrayMsg :=
  { newRec with tag := tag, tid := intArrayMsgId, msgSize := Int32.ofInt sizeof }

/-- `setValues`, with `val` the `count` first elements of the array passed -/
def setValues (this : IntArrayMsg) (val : List Int32) : IntArrayMsg :=
  { this with
    size := Int32.ofInt val.length
    values := val
    msgSize := Int32.ofInt (sizeof + val.length * 4) }

end IntArrayMsg

/-! ## DoneMsg -/

/-- `struct DoneMsg` -/
structure DoneMsg where
  tag : Int32
  tid : Int32
  msgSize : Int32
  success : Int32
  deriving DecidableEq, Repr

namespace DoneMsg

/-- `sizeof(struct DoneMsg)` -/
def sizeof : Int := 56

example : structLayout (headerLayout ++ [.int]) = ([0, 4, 8, 16, 24, 32, 40, 48], 56) := by decide

/-- `DoneMsg_create` -/
def create (newRec : DoneMsg) (tag : Int32) : DoneMsg :=
  { newRec with tag := tag, tid := doneMsgId, msgSize := Int32.ofInt sizeof }

end DoneMsg

/-! ## RefTwoDimIntArrayMsg -/

/-- `struct RefTwoDimIntArrayMsg`: `counts` and `values` are references, sent as they are. -/
structure RefTwoDimIntArrayMsg where
  tag : Int32
  tid : Int32
  msgSize : Int32
  size : Int32
  counts : UInt64
  values : UInt64
  deriving DecidableEq, Repr

namespace RefTwoDimIntArrayMsg

/-- `sizeof(struct RefTwoDimIntArrayMsg)` -/
def sizeof : Int := 72

example : structLayout (headerLayout ++ [.int, .ptr, .ptr]) =
    ([0, 4, 8, 16, 24, 32, 40, 48, 56, 64], 72) := by decide

/-- `RefTwoDimIntArrayMsg_create` -/
def create (newRec : RefTwoDimIntArrayMsg) (tag : Int32) : RefTwoDimIntArrayMsg :=
  { newRec with tag := tag, tid := refTwoDimIntArrayMsgId, msgSize := Int32.ofInt sizeof }

end RefTwoDimIntArrayMsg

/-! ## RequestMsg -/

/-- `struct RequestMsg`: `data` is the buffer the message owns. -/
structure RequestMsg where
  tag : Int32
  tid : Int32
  msgSize : Int32
  senderTaskId : Int32
  requestType : Int32
  dataSize : Int32
  data : List UInt8
  deriving DecidableEq, Repr

namespace RequestMsg

/-- `sizeof(struct RequestMsg)` -/
def sizeof : Int := 88

example : structLayout (headerLayout ++ [.int, .int, .int, .ptr, .ptr, .ptr]) =
    ([0, 4, 8, 16, 24, 32, 40, 48, 52, 56, 64, 72, 80], 88) := by decide

/-- `RequestMsg_create`: every field is set, so what `malloc` returned does not matter. -/
def create (tag : Int32) : RequestMsg where
  tag := tag
  tid := requestMsgId
  msgSize := Int32.ofInt sizeof
  dataSize := 0
  data := []
  senderTaskId := -1
  requestType := -1

/-- `setData`, with `data` the `size` bytes passed; the size is added to `msg_size`. -/
def setData (this : RequestMsg) (data : List UInt8) : RequestMsg :=
  { this with
    data := data
    dataSize := Int32.ofInt data.length
    -- `this->msg_size += size`, also when there was a payload before
    msgSize := Int32.ofInt (this.msgSize.toInt + data.length) }

end RequestMsg

/-! ## ResponseMsg -/

/-- `struct ResponseMsg`: `data` is the buffer the message owns. -/
structure ResponseMsg where
  tag : Int32
  tid : Int32
  msgSize : Int32
  code : Int32
  dataSize : Int32
  data : List UInt8
  deriving DecidableEq, Repr

namespace ResponseMsg

/-- `sizeof(struct ResponseMsg)` -/
def sizeof : Int := 80

example : structLayout (headerLayout ++ [.int, .int, .ptr, .ptr, .ptr]) =
    ([0, 4, 8, 16, 24, 32, 40, 48, 52, 56, 64, 72], 80) := by decide

/-- `ResponseMsg_create`: every field is set, so what `malloc` returned does not matter. -/
def create (tag : Int32) : ResponseMsg where
  tag := tag
  tid := responseMsgId
  msgSize := Int32.ofInt sizeof
  dataSize := 0
  data := []
  code := -1

/-- `setData`, with `data` the `size` bytes passed; the size is added to `msg_size`. -/
def setData (this : ResponseMsg) (data : List UInt8) : ResponseMsg :=
  { this with
    data := data
    dataSize := Int32.ofInt data.length
    msgSize := Int32.ofInt (this.msgSize.toInt + data.length) }

end ResponseMsg

/-! ## Messages of any type -/

/-- A message object of one of the nine types. -/
inductive AnyMsg where
  | bar (m : BarMsg)
  | text (m : TextMsg)
  | refIntArray (m : RefIntArrayMsg)
  | topology (m : TopologyMsg)
  | intArray (m : IntArrayMsg)
  | done (m : DoneMsg)
  | refTwoDimIntArray (m : RefTwoDimIntArrayMsg)
  | request (m : RequestMsg)
  | response (m : ResponseMsg)
  deriving DecidableEq, Repr

namespace AnyMsg

/-- `((Message)msg)->tag` -/
def tag : AnyMsg → Int32
  | bar m => m.tag | text m => m.tag | refIntArray m => m.tag | topology m => m.tag
  | intArray m => m.tag | done m => m.tag | refTwoDimIntArray m => m.tag
  | request m => m.tag | response m => m.tag

/-- `((Message)msg)->tid` -/
def tid : AnyMsg → Int32
  | bar m => m.tid | text m => m.tid | refIntArray m => m.tid | topology m => m.tid
  | intArray m => m.tid | done m => m.tid | refTwoDimIntArray m => m.tid
  | request m => m.tid | response m => m.tid

/-- `((Message)msg)->msg_size` -/
def msgSize : AnyMsg → Int32
  | bar m => m.msgSize | text m => m.msgSize | refIntArray m => m.msgSize
  | topology m => m.msgSize | intArray m => m.msgSize | done m => m.msgSize
  | refTwoDimIntArray m => m.msgSize | request m => m.msgSize | response m => m.msgSize

end AnyMsg

end TaskSystem
