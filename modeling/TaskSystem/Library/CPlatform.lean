import Mathlib.Data.List.TakeWhile
import TaskSystem.Library.Memory

/-!
# The C Platform

What a C program takes from its compiler and machine (x86-64, little endian): integer
conversions, the layout of structs, and how scalar fields are kept in memory.

## Contents

- `toSigned` / `toUnsigned`: conversion of an integer value to `int` / `unsigned int`
- `long`, `long_eq_some_iff`: checked arithmetic on `long`s
- `CType`, `structLayout`: offsets and size of a struct under natural alignment
- `Store.int`, `Store.ptr`, ... and the loads `Mem.loadInt`, `Mem.loadPtr`, ...
-/

namespace TaskSystem.Library

/-! ## Integer conversions -/

/-- Conversion to `unsigned int`: reduction modulo 2^32. -/
def toUnsigned (x : Int) : Nat := (x % 4294967296).toNat

/-- Conversion to `int`: the representative in [-2^31, 2^31). -/
def toSigned (x : Int) : Int := (x + 2147483648) % 4294967296 - 2147483648

/-- `INT_MAX` -/
def intMax : Int := 2147483647

theorem toSigned_of_range {x : Int} (h₁ : -2147483648 ≤ x) (h₂ : x ≤ intMax) :
    toSigned x = x := by
  unfold intMax at h₂
  unfold toSigned
  omega

theorem toUnsigned_of_range {x : Int} (h₁ : 0 ≤ x) (h₂ : x < 4294967296) :
    (toUnsigned x : Int) = x := by
  unfold toUnsigned
  omega

/-! ## Arithmetic on `long` -/

/-- `LONG_MAX` -/
def longMax : Int := 9223372036854775807

/-- What an operation on `long`s gives whose exact result is `x`; an overflow is undefined. -/
def long (x : Int) : Option Int64 :=
  if -longMax - 1 ≤ x ∧ x ≤ longMax then some (Int64.ofInt x) else none

theorem le_longMax (n : Int64) : -longMax - 1 ≤ n.toInt ∧ n.toInt ≤ longMax :=
  ⟨n.le_toInt, n.toInt_le⟩

/-- **An operation is defined** exactly when its result is a `long`. -/
theorem long_eq_some_iff {x : Int} {n : Int64} : long x = some n ↔ n.toInt = x := by
  rw [long, Option.ite_none_right_eq_some, Option.some.injEq]
  constructor
  · rintro ⟨⟨hlo, hhi⟩, rfl⟩
    unfold longMax at hlo hhi
    exact Int64.toInt_ofInt_of_le (by omega) (by omega)
  · rintro rfl
    exact ⟨le_longMax n, Int64.ofInt_toInt n⟩

theorem exists_long {x : Int} (h : -longMax - 1 ≤ x ∧ x ≤ longMax) :
    ∃ n, long x = some n ∧ n.toInt = x := by
  have hlong : long x = some (Int64.ofInt x) := if_pos h
  exact ⟨_, hlong, long_eq_some_iff.mp hlong⟩

/-! ## Struct layout -/

/-- Scalar field types, and arrays of characters. -/
inductive CType where
  | int | float | long | ptr
  /-- `char[n]` -/
  | chars (n : Nat)
  deriving DecidableEq, Repr

/-- `sizeof` of a field type. -/
def CType.size : CType → Nat
  | .int | .float => 4
  | .long | .ptr => 8
  | .chars n => n

/-- Alignment of a field type. -/
def CType.align : CType → Nat
  | .int | .float => 4
  | .long | .ptr => 8
  | .chars _ => 1

/-- Round `n` up to a multiple of `a`. -/
def alignUp (n a : Nat) : Nat := (n + a - 1) / a * a

/-- Offsets of the fields from position `n` on, and the first free position after them. -/
def fieldOffsets : Nat → List CType → List Nat × Nat
  | n, [] => ([], n)
  | n, t :: ts =>
    let off := alignUp n t.align
    let rest := fieldOffsets (off + t.size) ts
    (off :: rest.1, rest.2)

/-- Offsets of all fields of a struct and its size, padded to its largest alignment. -/
def structLayout (ts : List CType) : List Nat × Nat :=
  let laid := fieldOffsets 0 ts
  (laid.1, alignUp laid.2 (ts.foldl (fun a t => max a t.align) 1))

/-! ## Strings and byte buffers -/

/-- The string in a buffer: its characters before the first NUL. -/
def cString (buf : List UInt8) : List UInt8 := buf.takeWhile (· ≠ 0)

/-- The `n` bytes that `strncpy(_, src, n)` writes: the string, cut at `n` characters, and
    NULs up to `n`. -/
def strncpy (src : List UInt8) (n : Nat) : List UInt8 :=
  let cs := (cString src).take n
  cs ++ List.replicate (n - cs.length) 0

@[simp] theorem length_strncpy (src : List UInt8) (n : Nat) : (strncpy src n).length = n := by
  simp [strncpy]

theorem ne_zero_of_mem_cString {buf : List UInt8} {c : UInt8} (h : c ∈ cString buf) : c ≠ 0 := by
  simpa using List.mem_takeWhile_imp h

/-- A string followed by a NUL reads back as the string. -/
theorem cString_append_nul {cs : List UInt8} (h : ∀ c ∈ cs, c ≠ 0) (rest : List UInt8) :
    cString (cs ++ 0 :: rest) = cs := by
  induction cs with
  | nil => simp [cString]
  | cons c cs ih =>
    have hc : c ≠ 0 := h c (List.mem_cons_self ..)
    have hrest := ih fun d hd => h d (List.mem_cons_of_mem _ hd)
    simpa [cString, hc] using hrest

theorem cString_eq_self {cs : List UInt8} (h : ∀ c ∈ cs, c ≠ 0) : cString cs = cs := by
  rw [cString, List.takeWhile_eq_self_iff]
  intro c hc
  simpa using h c hc

/-- **What `strncpy` copies** is the string, cut at `n` characters. -/
theorem cString_strncpy (src : List UInt8) (n : Nat) :
    cString (strncpy src n) = (cString src).take n := by
  have hcs : ∀ c ∈ (cString src).take n, c ≠ 0 :=
    fun c hc => ne_zero_of_mem_cString (List.mem_of_mem_take hc)
  simp only [strncpy]
  cases n - ((cString src).take n).length with
  | zero => rw [List.replicate_zero, List.append_nil, cString_eq_self hcs]
  | succ k => exact cString_append_nul hcs _

/-- A string shorter than the field is followed by a NUL. -/
theorem strncpy_of_lt {cs : List UInt8} {n : Nat} (h : ∀ c ∈ cs, c ≠ 0) (hn : cs.length < n) :
    strncpy cs n = cs ++ 0 :: List.replicate (n - cs.length - 1) 0 := by
  have hcut : (cString cs).take n = cs := by
    rw [cString_eq_self h, List.take_of_length_le (by omega)]
  obtain ⟨k, hk⟩ : ∃ k, n - cs.length = k + 1 := ⟨n - cs.length - 1, by omega⟩
  simp only [strncpy, hcut, hk, List.replicate_succ, Nat.add_sub_cancel]

/-- A buffer of `n` bytes. -/
abbrev Bytes (n : Nat) := { bs : List UInt8 // bs.length = n }

/-- The `n` bytes from offset `off` of a buffer on, which is taken to be zero past its end. -/
def slice (bs : List UInt8) (off n : Nat) : Bytes n :=
  ⟨(List.range n).map fun i => bs.getD (off + i) 0, by simp⟩

/-- Slicing a laid out field gives the field back. -/
theorem slice_append {off n : Nat} {before after : List UInt8} (field : Bytes n)
    (h : before.length = off) : slice (before ++ (field.1 ++ after)) off n = field := by
  apply Subtype.ext
  apply List.ext_getElem
  · rw [(slice _ _ _).2, field.2]
  · intro i h₁ h₂
    simp only [slice, List.getElem_map, List.getElem_range, List.getD_eq_getElem?_getD]
    rw [List.getElem?_append_right (by omega), h, Nat.add_sub_cancel_left,
      List.getElem?_append_left h₂, List.getElem?_eq_getElem h₂, Option.getD_some]

/-- What lies behind the sliced bytes does not matter. -/
theorem slice_append_left {bs : List UInt8} {off n : Nat} (beyond : List UInt8)
    (h : off + n ≤ bs.length) : slice (bs ++ beyond) off n = slice bs off n := by
  apply Subtype.ext
  apply List.map_congr_left
  intro i hi
  rw [List.mem_range] at hi
  rw [List.getD_eq_getElem?_getD, List.getD_eq_getElem?_getD,
    List.getElem?_append_left (by omega)]

/-- A slice lies in the bytes up to its end. -/
theorem slice_take {off n k : Nat} (bs : List UInt8) (h : off + n ≤ k) :
    slice (bs.take k) off n = slice bs off n := by
  apply Subtype.ext
  apply List.map_congr_left
  intro i hi
  rw [List.mem_range] at hi
  rw [List.getD_eq_getElem?_getD, List.getD_eq_getElem?_getD, List.getElem?_take_of_lt (by omega)]

/-- The bytes of a `long` -/
def longBytes (x : Int64) : Bytes 8 := ⟨bytesLE 8 x.toUInt64.toNat, by simp⟩

/-- The `long` with the given bytes -/
def ofLongBytes (bs : Bytes 8) : Int64 := (UInt64.ofNat (ofBytesLE bs.1)).toInt64

@[simp] theorem ofLongBytes_longBytes (x : Int64) : ofLongBytes (longBytes x) = x := by
  have hx : x.toUInt64.toNat < 256 ^ 8 := x.toUInt64.toNat_lt
  simp only [ofLongBytes, longBytes, ofBytesLE_bytesLE_of_lt hx, UInt64.ofNat_toNat]
  rfl

/-! ## Scalars in memory -/

namespace Store

/-- `unsigned int` field at offset `off` -/
def uint (off : Int) (x : UInt32) : Store := ⟨off, bytesLE 4 x.toNat⟩

/-- `int` field at offset `off` -/
def int (off : Int) (x : Int32) : Store := uint off x.toUInt32

/-- Pointer field at offset `off` -/
def ptr (off : Int) (p : UInt64) : Store := ⟨off, bytesLE 8 p.toNat⟩

/-- Array of `unsigned int` from offset `off` on -/
def uints (off : Int) (xs : List UInt32) : Store := ⟨off, xs.flatMap fun x => bytesLE 4 x.toNat⟩

/-- Array of `int` from offset `off` on -/
def ints (off : Int) (xs : List Int32) : Store := uints off (xs.map Int32.toUInt32)

/-- The characters `cs` and the terminating NUL, as `strcpy` writes them -/
def cstr (off : Int) (cs : List UInt8) : Store := ⟨off, cs ++ [0]⟩

variable (off : Int)

@[simp] theorem off_uint (x : UInt32) : (uint off x).off = off := rfl
@[simp] theorem off_int (x : Int32) : (int off x).off = off := rfl
@[simp] theorem off_ptr (p : UInt64) : (ptr off p).off = off := rfl
@[simp] theorem off_uints (xs : List UInt32) : (uints off xs).off = off := rfl
@[simp] theorem off_ints (xs : List Int32) : (ints off xs).off = off := rfl
@[simp] theorem off_cstr (cs : List UInt8) : (cstr off cs).off = off := rfl

@[simp] theorem stop_mk (bs : List UInt8) : stop ⟨off, bs⟩ = off + bs.length := rfl
@[simp] theorem stop_uint (x : UInt32) : (uint off x).stop = off + 4 := by simp [stop, uint]
@[simp] theorem stop_int (x : Int32) : (int off x).stop = off + 4 := by simp [int]
@[simp] theorem stop_ptr (p : UInt64) : (ptr off p).stop = off + 8 := by simp [stop, ptr]

theorem length_words (xs : List UInt32) :
    (xs.flatMap fun x => bytesLE 4 x.toNat).length = 4 * xs.length := by
  simp [Nat.mul_comm]

@[simp] theorem stop_uints (xs : List UInt32) : (uints off xs).stop = off + 4 * xs.length := by
  rw [stop, uints, length_words]
  push_cast
  rfl

@[simp] theorem stop_ints (xs : List Int32) : (ints off xs).stop = off + 4 * xs.length := by
  simp [ints]

@[simp] theorem stop_cstr (cs : List UInt8) : (cstr off cs).stop = off + cs.length + 1 := by
  simp [stop, cstr]
  omega

end Store

namespace Mem

/-- Load an `unsigned int`. -/
def loadUInt (m : Mem) (a : Int) : UInt32 := UInt32.ofNat (ofBytesLE (m.read a 4))

/-- Load an `int`. -/
def loadInt (m : Mem) (a : Int) : Int32 := (m.loadUInt a).toInt32

/-- Load a pointer. -/
def loadPtr (m : Mem) (a : Int) : UInt64 := UInt64.ofNat (ofBytesLE (m.read a 8))

/-- Load `n` consecutive `unsigned int`s. -/
def loadUInts (m : Mem) (a : Int) : Nat → List UInt32
  | 0 => []
  | n + 1 => m.loadUInt a :: loadUInts m (a + 4) n

/-- Load `n` consecutive `int`s. -/
def loadInts (m : Mem) (a : Int) (n : Nat) : List Int32 := (m.loadUInts a n).map UInt32.toInt32

/-- The characters before the first NUL among the `fuel` bytes from `a` on. -/
def loadCStr (m : Mem) (a : Int) : Nat → List UInt8
  | 0 => []
  | fuel + 1 => if m a = 0 then [] else m a :: loadCStr m (a + 1) fuel

theorem loadUInt_congr {m m' : Mem} {a : Int} (h : ∀ x, a ≤ x → x < a + 4 → m x = m' x) :
    m.loadUInt a = m'.loadUInt a := by
  rw [loadUInt, read_congr h, ← loadUInt]

theorem loadInt_congr {m m' : Mem} {a : Int} (h : ∀ x, a ≤ x → x < a + 4 → m x = m' x) :
    m.loadInt a = m'.loadInt a := by
  rw [loadInt, loadUInt_congr h, ← loadInt]

/-- A word that a store avoids is as before. -/
theorem loadUInt_store_of_apart (m : Mem) {s : Store} {a : Int}
    (h : a + 4 ≤ s.off ∨ s.stop ≤ a) : (m.applyStores 0 [s]).loadUInt a = m.loadUInt a := by
  apply loadUInt_congr
  intro x h₁ h₂
  apply applyStores_apply
  intro t ht
  obtain rfl := List.mem_singleton.mp ht
  omega

theorem loadInt_store_of_apart (m : Mem) {s : Store} {a : Int}
    (h : a + 4 ≤ s.off ∨ s.stop ≤ a) : (m.applyStores 0 [s]).loadInt a = m.loadInt a := by
  rw [loadInt, loadUInt_store_of_apart m h, ← loadInt]

/-! Each load gives back what the corresponding store put there. -/

theorem Holds.loadUInt {m : Mem} {a off : Int} {x : UInt32} (h : m.Holds a (.uint off x)) :
    m.loadUInt (a + off) = x := by
  have hread : m.read (a + off) 4 = bytesLE 4 x.toNat := by simpa [Holds, Store.uint] using h
  have hx : x.toNat < 256 ^ 4 := x.toNat_lt
  rw [Mem.loadUInt, hread, ofBytesLE_bytesLE_of_lt hx]
  simp

theorem Holds.loadInt {m : Mem} {a off : Int} {x : Int32} (h : m.Holds a (.int off x)) :
    m.loadInt (a + off) = x := by
  rw [Mem.loadInt, Holds.loadUInt (x := x.toUInt32) h]
  rfl

/-- The word just stored. -/
theorem loadInt_store (m : Mem) (a : Int) (v : Int32) :
    (m.applyStores 0 [.int a v]).loadInt a = v := by
  have hheld : (m.applyStores 0 [.int a v]).Holds 0 (.int a v) :=
    holds_applyStores m (List.pairwise_singleton _ _) (List.mem_singleton_self _)
  have hload := hheld.loadInt
  rwa [Int.zero_add] at hload

theorem Holds.loadPtr {m : Mem} {a off : Int} {p : UInt64} (h : m.Holds a (.ptr off p)) :
    m.loadPtr (a + off) = p := by
  have hread : m.read (a + off) 8 = bytesLE 8 p.toNat := by simpa [Holds, Store.ptr] using h
  have hp : p.toNat < 256 ^ 8 := p.toNat_lt
  rw [Mem.loadPtr, hread, ofBytesLE_bytesLE_of_lt hp]
  simp

theorem Holds.uints_cons {m : Mem} {a off : Int} {x : UInt32} {xs : List UInt32}
    (h : m.Holds a (.uints off (x :: xs))) :
    m.Holds a (.uint off x) ∧ m.Holds a (.uints (off + 4) xs) := by
  have hlen : 4 * (x :: xs).length = 4 + 4 * xs.length := by simp; omega
  have hread : m.read (a + off) (4 * (x :: xs).length) =
      (x :: xs).flatMap fun x => bytesLE 4 x.toNat := by
    have := Store.length_words (x :: xs)
    rwa [Holds, Store.uints, this] at h
  rw [hlen, read_append, List.flatMap_cons] at hread
  obtain ⟨h₁, h₂⟩ := List.append_inj hread (by simp)
  refine ⟨by simpa [Holds, Store.uint] using h₁, ?_⟩
  have := Store.length_words xs
  rw [Holds, Store.uints, this, ← h₂]
  simp [Int.add_assoc]

theorem Holds.loadUInts {m : Mem} {a off : Int} {xs : List UInt32}
    (h : m.Holds a (.uints off xs)) : m.loadUInts (a + off) xs.length = xs := by
  induction xs generalizing off with
  | nil => rfl
  | cons x xs ih =>
    obtain ⟨hx, hxs⟩ := h.uints_cons
    rw [List.length_cons, Mem.loadUInts, hx.loadUInt, Int.add_assoc, ih hxs]

theorem Holds.loadInts {m : Mem} {a off : Int} {xs : List Int32}
    (h : m.Holds a (.ints off xs)) : m.loadInts (a + off) xs.length = xs := by
  have hxs : m.loadUInts (a + off) (xs.map Int32.toUInt32).length = xs.map Int32.toUInt32 :=
    Holds.loadUInts h
  rw [List.length_map] at hxs
  rw [Mem.loadInts, hxs, List.map_map]
  exact List.map_id xs

theorem Holds.loadBytes {m : Mem} {a off : Int} {bs : List UInt8} (h : m.Holds a ⟨off, bs⟩) :
    m.read (a + off) bs.length = bs := h

theorem loadCStr_of_read {m : Mem} {a : Int} {cs : List UInt8} {fuel : Nat}
    (h : m.read a (cs.length + 1) = cs ++ [0]) (hcs : ∀ c ∈ cs, c ≠ 0)
    (hfuel : cs.length < fuel) : m.loadCStr a fuel = cs := by
  induction cs generalizing a fuel with
  | nil =>
    obtain ⟨fuel, rfl⟩ : ∃ k, fuel = k + 1 := ⟨fuel - 1, by simp at hfuel; omega⟩
    have hnul : m a = 0 := by simpa [read_succ, read] using h
    simp [loadCStr, hnul]
  | cons c cs ih =>
    obtain ⟨fuel, rfl⟩ : ∃ k, fuel = k + 1 := ⟨fuel - 1, by simp at hfuel; omega⟩
    rw [List.length_cons, read_succ, List.cons_append, List.cons.injEq] at h
    have hc := hcs c (List.mem_cons_self ..)
    rw [loadCStr, h.1, if_neg hc,
      ih h.2 (fun d hd => hcs d (List.mem_cons_of_mem _ hd)) (by simp at hfuel; omega)]

theorem Holds.loadCStr {m : Mem} {a off : Int} {cs : List UInt8} {fuel : Nat}
    (h : m.Holds a (.cstr off cs)) (hcs : ∀ c ∈ cs, c ≠ 0) (hfuel : cs.length < fuel) :
    m.loadCStr (a + off) fuel = cs :=
  loadCStr_of_read (by simpa [Holds, Store.cstr] using h) hcs hfuel

end Mem

end TaskSystem.Library
