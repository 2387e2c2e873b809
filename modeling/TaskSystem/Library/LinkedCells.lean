import Mathlib.Data.List.Nodup
import Mathlib.Logic.Function.Basic

/-!
# Linked Cells

Cells that have been allocated, each with a value and the address of the next one, and the lists
they form. What a program does to one list it does to the cells of that list, so that its other
lists stay as they are.

## Contents

- `Cell`, `Heap`, `Heap.Linked`: cells that lead to one another
- `Linked.get`, `Linked.congr`, `Linked.unique`, `Linked.nodup`
- `Linked.insert`, `Linked.bypass`, `wipe`: changes at one place
-/

namespace TaskSystem.Library

universe u v

/-- A cell, with the address of the one that follows. -/
structure Cell (A : Type u) (V : Type v) where
  value : V
  next : A

/-- The cells that are allocated, by address. -/
abbrev Heap (A : Type u) (V : Type v) := A → Option (Cell A V)

namespace Heap

variable {A : Type u} {V : Type v} {heap heap' : Heap A V} {p q t : A} {w x : V}
  {cells cells' before after : List (A × V)}

/-! ## Lists of cells -/

/-- Where cells begin that end before `q`. -/
def startOf (q : A) : List (A × V) → A
  | [] => q
  | (a, _) :: _ => a

/-- The last of cells that follow `p`, which is `p` when there are none. -/
def endOf (p : A) : List (A × V) → A
  | [] => p
  | (a, _) :: cells => endOf a cells

/-- Each cell leads to the next one, and the last to `q`. -/
def Linked (heap : Heap A V) (q : A) : List (A × V) → Prop
  | [] => True
  | (a, x) :: cells => heap a = some ⟨x, startOf q cells⟩ ∧ heap.Linked q cells

theorem startOf_append : startOf q (before ++ after) = startOf (startOf q after) before := by
  cases before <;> rfl

theorem endOf_append_cons : endOf p (before ++ (t, x) :: after) = endOf t after := by
  induction before generalizing p with
  | nil => rfl
  | cons c before ih => exact ih

theorem endOf_concat : endOf p (before ++ [(t, x)]) = t := endOf_append_cons

theorem endOf_mem : endOf p cells ∈ p :: cells.map Prod.fst := by
  induction cells generalizing p with
  | nil => exact List.mem_cons_self ..
  | cons c cells ih => exact List.mem_cons_of_mem _ ih

theorem linked_append :
    heap.Linked q (before ++ after) ↔ heap.Linked (startOf q after) before ∧
      heap.Linked q after := by
  induction before with
  | nil => exact (iff_of_eq (true_and _)).symm
  | cons c before ih =>
    rw [List.cons_append, Linked, Linked, ih, startOf_append, and_assoc]

/-- The last cell before a place, in a list that has a first one. -/
theorem exists_endOf (p : A) (w : V) (before : List (A × V)) :
    ∃ front last, (p, w) :: before = front ++ [(endOf p before, last)] := by
  induction before generalizing p w with
  | nil => exact ⟨[], w, rfl⟩
  | cons c before ih =>
    obtain ⟨front, last, heq⟩ := ih c.1 c.2
    exact ⟨(p, w) :: front, last, congrArg _ heq⟩

/-- **A cell of a list** has its value, and leads to the next one. -/
theorem Linked.get (h : heap.Linked q (before ++ (p, x) :: after)) :
    heap p = some ⟨x, startOf q after⟩ :=
  (linked_append.mp h).2.1

/-- The cells of a list are allocated. -/
theorem Linked.allocated (h : heap.Linked q cells) (hp : p ∈ cells.map Prod.fst) :
    heap p ≠ none := by
  obtain ⟨⟨a, x⟩, hmem, rfl⟩ := List.mem_map.mp hp
  obtain ⟨before, after, rfl⟩ := List.append_of_mem hmem
  rw [h.get]
  exact Option.some_ne_none _

/-- **Frame**: a list depends on its own cells only. -/
theorem Linked.congr (h : heap.Linked q cells)
    (hsame : ∀ a ∈ cells.map Prod.fst, heap' a = heap a) : heap'.Linked q cells := by
  induction cells with
  | nil => trivial
  | cons c cells ih =>
    rw [List.map_cons, List.forall_mem_cons] at hsame
    exact ⟨hsame.1.trans h.1, ih h.2 hsame.2⟩

/-- **A heap determines its lists**: two that begin at the same cell are equal. -/
theorem Linked.unique (h : heap.Linked q cells) (h' : heap.Linked q cells') (hq : heap q = none)
    (hstart : startOf q cells = startOf q cells') : cells = cells' := by
  induction cells generalizing cells' with
  | nil =>
    cases cells' with
    | nil => rfl
    | cons c cells' =>
      -- `q` would be a cell
      have hc := h'.1
      rw [← show q = c.1 from hstart, hq] at hc
      cases hc
  | cons c cells ih =>
    cases cells' with
    | nil =>
      have hc := h.1
      rw [show c.1 = q from hstart, hq] at hc
      cases hc
    | cons c' cells' =>
      have haddress : c.1 = c'.1 := hstart
      have hcell := h.1.symm.trans ((congrArg heap haddress).trans h'.1)
      obtain ⟨hvalue, hnext⟩ := Cell.mk.inj (Option.some.inj hcell)
      rw [ih h.2 h'.2 hnext, Prod.ext haddress hvalue]

/-- **A list that ends has no cycle.** -/
theorem Linked.nodup (h : heap.Linked q cells) (hq : heap q = none) :
    (cells.map Prod.fst).Nodup := by
  induction cells with
  | nil => exact List.nodup_nil
  | cons c cells ih =>
    rw [List.map_cons, List.nodup_cons]
    refine ⟨fun hmem => ?_, ih h.2⟩
    obtain ⟨⟨a, x⟩, hcell, rfl⟩ := List.mem_map.mp hmem
    obtain ⟨before, after, rfl⟩ := List.append_of_mem hcell
    -- the cell would begin two lists of different lengths
    have hshort := (linked_append.mp h.2).2
    have heq := congrArg List.length (Linked.unique h hshort hq rfl)
    simp only [List.length_cons, List.length_append] at heq
    omega

theorem Linked.ne_of_none (h : heap.Linked q cells) (ht : heap t = none) :
    t ∉ cells.map Prod.fst := fun hmem => h.allocated hmem ht

/-- The first cell is none of those that follow. -/
theorem Linked.first_notMem (h : heap.Linked q ((p, w) :: after)) (hq : heap q = none) :
    p ∉ after.map Prod.fst := by
  have hnodup := h.nodup hq
  rw [List.map_cons, List.nodup_cons] at hnodup
  exact hnodup.1

/-- The cells on both sides of one. -/
theorem Linked.around (h : heap.Linked q (before ++ (p, w) :: after)) (hq : heap q = none) :
    p ∉ before.map Prod.fst ∧ p ∉ after.map Prod.fst := by
  have hnodup := h.nodup hq
  rw [List.map_append, List.map_cons, List.nodup_middle, List.nodup_cons, List.mem_append,
    not_or] at hnodup
  exact hnodup.1

/-! ## Changes -/

variable [DecidableEq A]

/-- **A new cell** is put behind one of a list. -/
theorem Linked.insert (h : heap.Linked q (before ++ (p, w) :: after)) (hq : heap q = none)
    (ht : heap t = none) :
    Linked (Function.update (Function.update heap t (some ⟨x, startOf q after⟩)) p (some ⟨w, t⟩))
      q (before ++ (p, w) :: (t, x) :: after) := by
  obtain ⟨hbefore, hafter⟩ := h.around hq
  obtain ⟨hfront, hcell, hback⟩ := linked_append.mp h
  have hne : t ≠ p := by
    rintro rfl
    rw [ht] at hcell
    cases hcell
  have hsame : ∀ a, a ≠ p → a ≠ t →
      Function.update (Function.update heap t (some ⟨x, startOf q after⟩)) p (some ⟨w, t⟩) a =
        heap a := by
    intro a hp ht
    rw [Function.update_of_ne hp, Function.update_of_ne ht]
  refine linked_append.mpr ⟨?_, Function.update_self .., ?_, ?_⟩
  · apply hfront.congr
    intro a ha
    exact hsame a (ne_of_mem_of_not_mem ha hbefore)
      (ne_of_mem_of_not_mem ha (hfront.ne_of_none ht))
  · rw [Function.update_of_ne hne, Function.update_self]
  · apply hback.congr
    intro a ha
    exact hsame a (ne_of_mem_of_not_mem ha hafter)
      (ne_of_mem_of_not_mem ha (hback.ne_of_none ht))

/-- **A cell is bypassed** and no longer allocated. -/
theorem Linked.bypass (h : heap.Linked q (before ++ (p, w) :: (t, x) :: after))
    (hq : heap q = none) :
    Linked (Function.update (Function.update heap p (some ⟨w, startOf q after⟩)) t none)
      q (before ++ (p, w) :: after) := by
  obtain ⟨hbefore, hafter⟩ := h.around hq
  have hnext : heap.Linked q ((before ++ [(p, w)]) ++ (t, x) :: after) := by
    rwa [List.append_assoc]
  obtain ⟨hbefore', hafter'⟩ := hnext.around hq
  obtain ⟨hfront, -, -, hback⟩ := linked_append.mp h
  rw [List.map_cons, List.mem_cons, not_or] at hafter
  rw [List.map_append, List.mem_append, not_or] at hbefore'
  have hsame : ∀ a, a ≠ p → a ≠ t →
      Function.update (Function.update heap p (some ⟨w, startOf q after⟩)) t none a = heap a := by
    intro a hp ht
    rw [Function.update_of_ne ht, Function.update_of_ne hp]
  refine linked_append.mpr ⟨?_, ?_, ?_⟩
  · apply hfront.congr
    intro a ha
    exact hsame a (ne_of_mem_of_not_mem ha hbefore) (ne_of_mem_of_not_mem ha hbefore'.1)
  · rw [Function.update_of_ne hafter.1, Function.update_self]
  · apply hback.congr
    intro a ha
    exact hsame a (ne_of_mem_of_not_mem ha hafter.2) (ne_of_mem_of_not_mem ha hafter')

/-- Without the cells of a list. -/
def wipe (heap : Heap A V) (cells : List (A × V)) : Heap A V :=
  fun a => if a ∈ cells.map Prod.fst then none else heap a

theorem wipe_of_mem (h : p ∈ cells.map Prod.fst) : heap.wipe cells p = none := if_pos h

theorem wipe_of_not_mem (h : p ∉ cells.map Prod.fst) : heap.wipe cells p = heap p := if_neg h

/-- The cells go one by one. -/
theorem wipe_cons (c : A × V) :
    heap.wipe (c :: cells) = wipe (Function.update heap c.1 none) cells := by
  funext a
  simp only [wipe, List.map_cons, List.mem_cons]
  by_cases hcells : a ∈ cells.map Prod.fst
  · rw [if_pos (Or.inr hcells), if_pos hcells]
  · by_cases hc : a = c.1
    · rw [if_pos (Or.inl hc), if_neg hcells, hc, Function.update_self]
    · rw [if_neg (not_or_intro hc hcells), if_neg hcells, Function.update_of_ne hc]

end Heap

end TaskSystem.Library
