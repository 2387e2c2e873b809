import Mathlib.Data.List.Basic

/-!
# Slot Arrays with Tombstones

An array used as a list of records: new records go behind the used slots, and a deleted
record leaves a tombstone in its slot. What the array stands for is the list of its live
records; first-match search and deletion in place are those of the list.

## Contents

- `find?_live`: first-match search does not see tombstones
- `live_append`: the new record goes to the end of the list
- `live_modify`: burying the first match erases it from the list
- `countP_modify`: what changing one slot does to the number of slots of a kind
-/

namespace TaskSystem.Library.SlotArray

variable {α : Type*}

/-- The live records among the used slots. -/
def live (alive : α → Bool) (used : List α) : List α := used.filter alive

variable {alive q : α → Bool}

/-- **Search**: a predicate that only live records satisfy finds the same record in both. -/
theorem find?_live (hq : ∀ x, q x = true → alive x = true) (used : List α) :
    (live alive used).find? q = used.find? q := by
  rw [live, List.find?_filter]
  congr 1
  funext x
  cases hx : q x with
  | false => simp
  | true => simp [hq x hx]

/-- **Insertion**: a live record put behind the used slots goes to the end. -/
theorem live_append {used : List α} {x : α} (hx : alive x = true) :
    live alive (used ++ [x]) = live alive used ++ [x] := by
  simp [live, hx]

/-- **Deletion**: a tombstone in the slot of the first match erases that match. -/
theorem live_modify (hq : ∀ x, q x = true → alive x = true) {bury : α → α}
    (hbury : ∀ x, alive (bury x) = false) {used : List α} {i : Nat}
    (hi : used.findIdx? q = some i) :
    live alive (used.modify i bury) = (live alive used).eraseP q := by
  induction used generalizing i with
  | nil => simp at hi
  | cons x used ih =>
    rw [List.findIdx?_cons] at hi
    cases hx : q x with
    | true =>
      -- the match is here
      obtain rfl : 0 = i := by simpa [hx] using hi
      simp [live, hq x hx, hbury, hx]
    | false =>
      -- the match is further on, and a live record before it stays
      obtain ⟨j, hj, rfl⟩ : ∃ j, used.findIdx? q = some j ∧ j + 1 = i := by simpa [hx] using hi
      have hrest := ih hj
      simp only [live] at hrest
      cases halive : alive x with
      | true => simp [live, halive, hrest, hx]
      | false => simp [live, halive, hrest]

/-- **Counting**: changing one slot counts its old contents out and the new ones in. -/
theorem countP_modify (q : α → Bool) {used : List α} {i : Nat} (h : i < used.length) (f : α → α) :
    (used.modify i f).countP q + (q used[i]).toNat = used.countP q + (q (f used[i])).toNat := by
  induction used generalizing i with
  | nil => cases h
  | cons x used ih =>
    cases i with
    | zero =>
      simp only [List.modify_zero_cons, List.countP_cons, List.getElem_cons_zero]
      cases q x <;> cases q (f x) <;> simp
    | succ i =>
      have hrest := ih (Nat.lt_of_succ_lt_succ h)
      simp only [List.modify_succ_cons, List.countP_cons, List.getElem_cons_succ]
      omega

/-! ## The used slots of a larger array -/

/-- Changing a used slot changes the used slots there. -/
theorem take_modify {slots : List α} {i n : Nat} (h : i < n) (f : α → α) :
    (slots.modify i f).take n = (slots.take n).modify i f := by
  apply List.ext_getElem?
  intro j
  simp only [List.getElem?_take, List.getElem?_modify]
  by_cases hj : j < n
  · simp [hj]
  · have hij : i ≠ j := by omega
    simp [hj, hij]

/-- Filling the first unused slot appends its new contents to the used slots. -/
theorem take_modify_succ {slots : List α} {n : Nat} (h : n < slots.length) (f : α → α) :
    (slots.modify n f).take (n + 1) = slots.take n ++ [f slots[n]] := by
  have hbefore : (slots.modify n f).take n = slots.take n := by
    apply List.ext_getElem?
    intro j
    by_cases hj : j < n
    · have hne : n ≠ j := by omega
      simp [hj, hne]
    · simp only [List.getElem?_take, if_neg hj]
  rw [List.take_add_one, hbefore, List.getElem?_modify_eq, List.getElem?_eq_getElem h]
  rfl

end TaskSystem.Library.SlotArray
