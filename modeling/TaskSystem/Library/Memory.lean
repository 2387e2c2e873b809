import Mathlib.Data.List.Basic
import Mathlib.Tactic.Ring

/-!
# Byte Memory

A byte-addressed memory as a total function, with the read-after-write laws that
proofs about hand-written serialisers need.

## Contents

- `Mem.read` / `Mem.write` and the two laws `read_write_same` and `read_write_disjoint`
- `bytesLE` / `ofBytesLE`: little-endian words of a given width
- `Store` lists: a serialiser seen as the sequence of stores it performs relative to
  one base address, its footprint and what can be read back from it
-/

namespace TaskSystem.Library

/-- A memory: every address holds one byte. -/
abbrev Mem := Int → UInt8

namespace Mem

/-! ## Reading and writing byte ranges -/

/-- The `n` bytes from address `a` on. -/
def read (m : Mem) (a : Int) (n : Nat) : List UInt8 :=
  (List.range n).map fun i : Nat => m (a + i)

/-- Write the bytes `bs` from address `a` on. -/
def write (m : Mem) (a : Int) (bs : List UInt8) : Mem := fun x =>
  if a ≤ x ∧ x < a + bs.length then bs.getD (x - a).toNat 0 else m x

@[simp] theorem length_read (m : Mem) (a : Int) (n : Nat) : (m.read a n).length = n := by
  simp [read]

@[simp] theorem getElem_read (m : Mem) (a : Int) (n i : Nat) (h : i < (m.read a n).length) :
    (m.read a n)[i] = m (a + i) := by
  simp [read]

theorem read_succ (m : Mem) (a : Int) (n : Nat) :
    m.read a (n + 1) = m a :: m.read (a + 1) n := by
  apply List.ext_getElem
  · simp
  · intro i h₁ h₂
    cases i with
    | zero => simp
    | succ i =>
      simp only [getElem_read, List.getElem_cons_succ]
      congr 1
      push_cast
      ring

/-- Two memories that agree on a range read the same bytes there. -/
theorem read_congr {m m' : Mem} {a : Int} {n : Nat}
    (h : ∀ x, a ≤ x → x < a + n → m x = m' x) : m.read a n = m'.read a n := by
  apply List.ext_getElem
  · simp
  · intro i h₁ h₂
    simp only [length_read] at h₁
    simp only [getElem_read]
    exact h _ (by omega) (by omega)

theorem read_append (m : Mem) (a : Int) (n k : Nat) :
    m.read a (n + k) = m.read a n ++ m.read (a + n) k := by
  induction n generalizing a with
  | zero => simp [read]
  | succ n ih =>
    rw [Nat.succ_add, read_succ, read_succ, ih (a + 1), List.cons_append]
    congr 3
    push_cast
    ring

/-- The first bytes of a longer read. -/
theorem take_read (m : Mem) (a : Int) {n k : Nat} (h : k ≤ n) :
    (m.read a n).take k = m.read a k := by
  obtain ⟨d, rfl⟩ : ∃ d, n = k + d := ⟨n - k, by omega⟩
  rw [read_append, List.take_left' (length_read ..)]

theorem read_eq_replicate {m : Mem} {a : Int} {n : Nat} {b : UInt8}
    (h : ∀ x, a ≤ x → x < a + n → m x = b) : m.read a n = List.replicate n b := by
  apply List.ext_getElem
  · simp
  · intro i h₁ h₂
    simp only [length_read] at h₁
    rw [getElem_read, h _ (by omega) (by omega), List.getElem_replicate]

/-- Writing zeros leaves each byte or clears it. -/
theorem write_replicate_zero (m : Mem) (a x : Int) (n : Nat) :
    m.write a (List.replicate n 0) x = if a ≤ x ∧ x < a + n then 0 else m x := by
  simp only [write, List.length_replicate]
  split
  case isTrue h =>
    have hlt : (x - a).toNat < n := by omega
    simp [List.getD_eq_getElem?_getD, hlt]
  case isFalse => rfl

theorem write_apply_outside {m : Mem} {a x : Int} {bs : List UInt8}
    (h : x < a ∨ a + bs.length ≤ x) : m.write a bs x = m x := by
  have hnot : ¬(a ≤ x ∧ x < a + bs.length) := by omega
  simp [write, hnot]

theorem write_apply_inside {m : Mem} {a : Int} {bs : List UInt8} (i : Nat)
    (h : i < bs.length) : m.write a bs (a + i) = bs[i] := by
  have hin : a ≤ a + i ∧ a + i < a + bs.length := by omega
  simp [write, hin, h]

/-- Reading the written range gives the written bytes. -/
theorem read_write_same (m : Mem) (a : Int) (bs : List UInt8) :
    (m.write a bs).read a bs.length = bs := by
  apply List.ext_getElem
  · simp
  · intro i h₁ h₂
    rw [getElem_read, write_apply_inside i h₂]

/-- Reading a range that does not meet the written one is unaffected. -/
theorem read_write_disjoint (m : Mem) {a b : Int} {n : Nat} {bs : List UInt8}
    (h : a + n ≤ b ∨ b + bs.length ≤ a) : (m.write b bs).read a n = m.read a n :=
  read_congr fun x hx₁ hx₂ => write_apply_outside (by omega)

end Mem

/-! ## Little-endian words -/

/-- The `w` low bytes of `v`, least significant first. -/
def bytesLE : Nat → Nat → List UInt8
  | 0, _ => []
  | w + 1, v => UInt8.ofNat v :: bytesLE w (v / 256)

/-- The number whose little-endian bytes are `bs`. -/
def ofBytesLE : List UInt8 → Nat
  | [] => 0
  | b :: bs => b.toNat + 256 * ofBytesLE bs

@[simp] theorem length_bytesLE (w v : Nat) : (bytesLE w v).length = w := by
  induction w generalizing v with
  | zero => rfl
  | succ w ih => simp [bytesLE, ih]

theorem ofBytesLE_bytesLE (w v : Nat) : ofBytesLE (bytesLE w v) = v % 256 ^ w := by
  induction w generalizing v with
  | zero => simp [bytesLE, ofBytesLE, Nat.mod_one]
  | succ w ih =>
    have hdigit : (UInt8.ofNat v).toNat = v % 256 := by simp
    rw [bytesLE, ofBytesLE, ih, hdigit, Nat.pow_succ', Nat.mod_mul]

/-- A word that fits its width survives encoding and decoding. -/
theorem ofBytesLE_bytesLE_of_lt {w v : Nat} (h : v < 256 ^ w) :
    ofBytesLE (bytesLE w v) = v := by
  rw [ofBytesLE_bytesLE, Nat.mod_eq_of_lt h]

/-! ## Store lists -/

/-- One store of a serialiser: `bytes` written at offset `off` from the base address. -/
structure Store where
  /-- Offset from the base address -/
  off : Int
  /-- The bytes stored there -/
  bytes : List UInt8
  deriving DecidableEq, Repr

namespace Store

/-- The offset just after the stored bytes. -/
def stop (s : Store) : Int := s.off + s.bytes.length

/-- The store touches only offsets in `[lo, hi)`. -/
def Within (lo hi : Int) (s : Store) : Prop := lo ≤ s.off ∧ s.stop ≤ hi

/-- Two stores that share no offset. -/
def Disjoint (s t : Store) : Prop := s.stop ≤ t.off ∨ t.stop ≤ s.off

end Store

namespace Mem

/-- Perform the stores in order, relative to base address `a`. -/
def applyStores (m : Mem) (a : Int) (ss : List Store) : Mem :=
  ss.foldl (fun m s => m.write (a + s.off) s.bytes) m

/-- Memory `m` holds, relative to base `a`, the bytes that store `s` writes. -/
def Holds (m : Mem) (a : Int) (s : Store) : Prop :=
  m.read (a + s.off) s.bytes.length = s.bytes

@[simp] theorem applyStores_nil (m : Mem) (a : Int) : m.applyStores a [] = m := rfl

@[simp] theorem applyStores_cons (m : Mem) (a : Int) (s : Store) (ss : List Store) :
    m.applyStores a (s :: ss) = (m.write (a + s.off) s.bytes).applyStores a ss := rfl

/-- An address that no store touches keeps its byte. -/
theorem applyStores_apply {a x : Int} {ss : List Store} (m : Mem)
    (hss : ∀ s ∈ ss, x < a + s.off ∨ a + s.stop ≤ x) : m.applyStores a ss x = m x := by
  induction ss generalizing m with
  | nil => rfl
  | cons s ss ih =>
    have hs := hss s (List.mem_cons_self ..)
    rw [applyStores_cons, ih _ fun t ht => hss t (List.mem_cons_of_mem _ ht)]
    simp only [Store.stop] at hs
    exact write_apply_outside (by omega)

/-- **Footprint**: stores within `[lo, hi)` leave every other address alone. -/
theorem applyStores_frame {a lo hi x : Int} {ss : List Store} (m : Mem)
    (hss : ∀ s ∈ ss, s.Within lo hi) (hx : x < a + lo ∨ a + hi ≤ x) :
    m.applyStores a ss x = m x := by
  refine applyStores_apply m fun s hs => ?_
  obtain ⟨h₁, h₂⟩ := hss s hs
  omega

/-- Stores that avoid `t` do not disturb what is held for `t`. -/
theorem Holds.applyStores {m : Mem} {a : Int} {t : Store} {ss : List Store}
    (h : m.Holds a t) (hss : ∀ s ∈ ss, t.Disjoint s) : (m.applyStores a ss).Holds a t := by
  induction ss generalizing m with
  | nil => exact h
  | cons s ss ih =>
    have hs := hss s (List.mem_cons_self ..)
    refine ih ?_ fun u hu => hss u (List.mem_cons_of_mem _ hu)
    simp only [Store.Disjoint, Store.stop] at hs
    exact (read_write_disjoint m (by omega)).trans h

/-- **Read back**: after pairwise disjoint stores, memory holds each of them. -/
theorem holds_applyStores {a : Int} {ss : List Store} (m : Mem)
    (hss : ss.Pairwise Store.Disjoint) {s : Store} (hs : s ∈ ss) :
    (m.applyStores a ss).Holds a s := by
  induction hss generalizing m with
  | nil => cases hs
  | @cons t ss ht _ ih =>
    rcases List.mem_cons.mp hs with rfl | hs
    · have hself : (m.write (a + s.off) s.bytes).Holds a s := read_write_same m _ _
      exact hself.applyStores ht
    · exact ih _ hs

/-- What memory holds depends only on the bytes of the stored range. -/
theorem Holds.congr {m m' : Mem} {a lo hi : Int} {s : Store} (h : m.Holds a s)
    (hs : s.Within lo hi) (hm : ∀ x, a + lo ≤ x → x < a + hi → m' x = m x) :
    m'.Holds a s := by
  simp only [Store.Within, Store.stop] at hs
  exact (read_congr fun x hx₁ hx₂ => hm x (by omega) (by omega)).trans h

end Mem

end TaskSystem.Library
