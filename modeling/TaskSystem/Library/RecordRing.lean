import Mathlib.Data.List.Forall2
import TaskSystem.Library.Memory
import TaskSystem.Library.Rollover

/-!
# Rings of Stored Records

A rollover ring together with the memory its slots lie in: which values the ring stands
for, given a way of storing values that looks only at the bytes of their own slot.

## Contents

- `Discipline`: size of a value and what it means that it is stored at an address
- `Represents`: cursor and memory stand for a list of values, oldest first
- `Represents.put`, `Represents.take`: the writer appends, the reader consumes
-/

namespace TaskSystem.Library

open Rollover

/-- A way of storing values of type `α` in memory. -/
structure Discipline (α : Type*) where
  /-- Bytes a stored value takes -/
  size : α → Int
  /-- The value is stored at the address -/
  Stored : Mem → Int → α → Prop
  /-- Only the bytes of the slot matter -/
  stored_congr : ∀ {m m' : Mem} {a : Int} {x : α}, Stored m a x →
    (∀ y, a ≤ y → y < a + size x → m' y = m y) → Stored m' a x

namespace Discipline

variable {α : Type*} (D : Discipline α) {lo hi : Int}

/-- Slot `s` holds value `x`. -/
structure Fills (m : Mem) (s : Slot) (x : α) : Prop where
  len : s.len = D.size x
  stored : D.Stored m s.off x

/-- The ring with cursor `c` over memory `m` stands for the values `xs`, oldest first. -/
def Represents (lo hi : Int) (c : Cursor) (m : Mem) (xs : List α) : Prop :=
  ∃ ss, Layout lo hi c ss ∧ List.Forall₂ (D.Fills m) ss xs

variable {D}

theorem represents_fresh {a : Int} (m : Mem) (h₁ : lo ≤ a) (h₂ : a ≤ hi) :
    D.Represents lo hi ⟨a, a, none⟩ m [] :=
  ⟨[], .fresh h₁ h₂, .nil⟩

/-- Changing memory away from every slot changes no stored value. -/
theorem fills_congr {m m' : Mem} {ss : List Slot} {xs : List α}
    (h : List.Forall₂ (D.Fills m) ss xs)
    (hm : ∀ s ∈ ss, ∀ y, s.off ≤ y → y < s.stop → m' y = m y) :
    List.Forall₂ (D.Fills m') ss xs := by
  induction h with
  | nil => exact .nil
  | @cons s x ss xs hs _ ih =>
    refine .cons ⟨hs.len, D.stored_congr hs.stored fun y h₁ h₂ => ?_⟩
      (ih fun t ht => hm t (List.mem_cons_of_mem _ ht))
    have := hs.len
    exact hm s (List.mem_cons_self ..) y h₁ (by simp only [Slot.stop]; omega)

/-- **Writer**: storing `x` in the place the cursor offers, and nowhere else, appends it. -/
theorem Represents.put {c c' : Cursor} {m m' : Mem} {xs : List α} {x : α} {a : Int}
    (h : D.Represents lo hi c m xs) (hpos : 0 < D.size x)
    (hp : place lo hi c (D.size x) = some (a, c'))
    (hframe : ∀ y, y < a ∨ a + D.size x ≤ y → m' y = m y) (hx : D.Stored m' a x) :
    D.Represents lo hi c' m' (xs ++ [x]) := by
  obtain ⟨ss, hlay, hfill⟩ := h
  have hlay' := place_layout hlay hpos hp
  refine ⟨ss ++ [⟨a, D.size x⟩], hlay', ?_⟩
  have hapart := (List.pairwise_append.mp hlay'.disjoint).2.2
  have hold : List.Forall₂ (D.Fills m') ss xs := by
    refine fills_congr hfill fun s hs y h₁ h₂ => hframe y ?_
    have := hapart s hs ⟨a, D.size x⟩ (List.mem_singleton.mpr rfl)
    simp only [Slot.Disjoint, Slot.stop] at this h₂
    omega
  exact List.rel_append hold (.cons ⟨rfl, hx⟩ .nil)

/-- Where the record just placed lies. -/
theorem Represents.put_inside {c c' : Cursor} {m : Mem} {xs : List α} {n a : Int}
    (h : D.Represents lo hi c m xs) (hpos : 0 < n) (hp : place lo hi c n = some (a, c')) :
    lo ≤ a ∧ a + n ≤ hi := by
  obtain ⟨ss, hlay, -⟩ := h
  have hin := (place_layout hlay hpos hp).inside ⟨a, n⟩ (by simp)
  exact ⟨hin.1, hin.2.2⟩

/-- **Reader**: the oldest value is stored where the reader looks; consuming it, and
    changing memory inside its slot only, leaves the remaining values. -/
theorem Represents.take {c : Cursor} {m : Mem} {xs : List α} {x : α}
    (h : D.Represents lo hi c m (x :: xs)) :
    D.Stored m (readPos lo c) x ∧ lo ≤ readPos lo c ∧ readPos lo c + D.size x ≤ hi ∧
    (advance lo c (D.size x)).head = readPos lo c + D.size x ∧
    ∀ m' : Mem, (∀ y, y < readPos lo c ∨ readPos lo c + D.size x ≤ y → m' y = m y) →
      D.Represents lo hi (advance lo c (D.size x)) m' xs := by
  obtain ⟨ss, hlay, hfill⟩ := h
  cases hfill with
  | @cons s _ ss _ hs hrest =>
    obtain ⟨hpos, hlay'⟩ := advance_layout hlay
    have hin := hlay.inside s (List.mem_cons_self ..)
    simp only [Slot.stop] at hin
    rw [hpos, ← hs.len]
    refine ⟨hs.stored, hin.1, hin.2.2, advance_head hlay, fun m' hm => ?_⟩
    refine ⟨ss, hlay', fills_congr hrest fun t ht y h₁ h₂ => hm y ?_⟩
    have := (List.pairwise_cons.mp hlay.disjoint).1 t ht
    simp only [Slot.Disjoint, Slot.stop] at this h₂
    omega

/-- The slots behind a represented list: inside the ring and pairwise apart. -/
theorem Represents.slots {c : Cursor} {m : Mem} {xs : List α}
    (h : D.Represents lo hi c m xs) :
    ∃ ss : List Slot, List.Forall₂ (D.Fills m) ss xs ∧
      (∀ s ∈ ss, lo ≤ s.off ∧ s.stop ≤ hi) ∧ ss.Pairwise Slot.Disjoint := by
  obtain ⟨ss, hlay, hfill⟩ := h
  exact ⟨ss, hfill, fun s hs => ⟨(hlay.inside s hs).1, (hlay.inside s hs).2.2⟩, hlay.disjoint⟩

end Discipline

end TaskSystem.Library
