import Mathlib.Algebra.Ring.Int.Defs
import Mathlib.Data.List.Basic
import Mathlib.Data.List.Pairwise
import Mathlib.Tactic.Cases

/-!
# Rollover Rings

Space management of a ring that stores records of different sizes, each contiguously, in
a fixed interval `[lo, hi)`. When a record does not fit before `hi` the writer goes back
to `lo` and remembers where it turned back; the reader turns back at the same place.

## Contents

- `Cursor`: head, tail and turning point; `place` (writer) and `advance` (reader)
- `Chain`: contiguous slots; `Layout`: the invariant, with its linear and wrapped shapes
- `place_layout`, `advance_layout`: each operation keeps the invariant
- `Layout.inside`, `Layout.disjoint`: the outstanding slots lie in the ring, apart
- `Reaches`, `place_clear`: when a record touches the slot the reader was just handed
- `place_of_room`, `not_reaches_of_room`: with few bytes outstanding the writer never waits
  and never touches that slot
-/

namespace TaskSystem.Library.Rollover

/-- The interval occupied by one record. -/
structure Slot where
  /-- Where the record starts -/
  off : Int
  /-- How many bytes it takes -/
  len : Int
  deriving DecidableEq, Repr

/-- First address after the slot. -/
def Slot.stop (s : Slot) : Int := s.off + s.len

/-- Two slots that share no address. -/
def Slot.Disjoint (s t : Slot) : Prop := s.stop ≤ t.off ∨ t.stop ≤ s.off

/-- Reader position, writer position, and the point where the writer turned back if the
    reader has not turned back there yet. -/
structure Cursor where
  head : Int
  tail : Int
  roll : Option Int
  deriving DecidableEq, Repr

variable {lo hi : Int}

/-! ## The two operations -/

/-- Where a record of `n` bytes goes and the cursor afterwards; `none` when the ring has
    no room for it. -/
def place (lo hi : Int) (c : Cursor) (n : Int) : Option (Int × Cursor) :=
  match c.roll with
  | none =>
    if c.tail + n ≤ hi then some (c.tail, { c with tail := c.tail + n })
    else if lo + n ≤ c.head then some (lo, { c with tail := lo + n, roll := some c.tail })
    else none
  | some _ =>
    if c.tail + n ≤ c.head then some (c.tail, { c with tail := c.tail + n }) else none

/-- Where the reader finds the next record. -/
def readPos (lo : Int) (c : Cursor) : Int :=
  if c.roll = some c.head then lo else c.head

/-- The cursor after the reader has consumed a record of `n` bytes. -/
def advance (lo : Int) (c : Cursor) (n : Int) : Cursor where
  head := readPos lo c + n
  tail := c.tail
  roll := if c.roll = some c.head then none else c.roll

/-! ## Chains of contiguous slots -/

/-- Nonempty slots that follow one another without gaps from `a` to `b`. -/
inductive Chain : Int → List Slot → Int → Prop where
  | nil (a : Int) : Chain a [] a
  | cons {a n b : Int} {ss : List Slot} : 0 < n → Chain (a + n) ss b → Chain a (⟨a, n⟩ :: ss) b

namespace Chain

theorem le {a b : Int} {ss : List Slot} (h : Chain a ss b) : a ≤ b := by
  induction h with
  | nil => exact Int.le_refl _
  | cons hn _ ih => omega

theorem snoc {a b n : Int} {ss : List Slot} (h : Chain a ss b) (hn : 0 < n) :
    Chain a (ss ++ [⟨b, n⟩]) (b + n) := by
  induction h with
  | nil a => exact .cons hn (.nil _)
  | cons hm _ ih => exact .cons hm ih

/-- Every slot of a chain lies between its ends and is nonempty. -/
theorem inside {a b : Int} {ss : List Slot} (h : Chain a ss b) :
    ∀ s ∈ ss, a ≤ s.off ∧ 0 < s.len ∧ s.stop ≤ b := by
  induction h with
  | nil => simp
  | @cons a n b ss hn htail ih =>
    intro s hs
    rcases List.mem_cons.mp hs with rfl | hs
    · exact ⟨Int.le_refl _, hn, htail.le⟩
    · obtain ⟨h₁, h₂, h₃⟩ := ih s hs
      exact ⟨by omega, h₂, h₃⟩

theorem disjoint {a b : Int} {ss : List Slot} (h : Chain a ss b) :
    ss.Pairwise Slot.Disjoint := by
  induction h with
  | nil => exact .nil
  | @cons a n b ss hn htail ih =>
    refine .cons (fun s hs => .inl ?_) ih
    exact (htail.inside s hs).1

/-- Slots take at least a byte each. -/
theorem length_le {a b : Int} {ss : List Slot} (h : Chain a ss b) : ss.length ≤ b - a := by
  induction h with
  | nil => simp
  | cons hn _ ih =>
    rw [List.length_cons]
    omega

/-- The bytes of a chain are exactly the distance between its ends. -/
theorem total {a b : Int} {ss : List Slot} (h : Chain a ss b) :
    (ss.map Slot.len).sum = b - a := by
  induction h with
  | nil => simp
  | cons _ _ ih =>
    simp only [List.map_cons, List.sum_cons, ih]
    omega

end Chain

/-! ## The layout invariant -/

/-- The outstanding slots `ss`, oldest first, of a ring with cursor `c`.

`linear`: one chain from head to tail. `wrapped`: a chain from the head to the turning
point followed by a nonempty chain from `lo` to the tail, which has not passed the head. -/
inductive Layout (lo hi : Int) : Cursor → List Slot → Prop where
  | linear {h t : Int} {ss : List Slot} :
      lo ≤ h → t ≤ hi → Chain h ss t → Layout lo hi ⟨h, t, none⟩ ss
  | wrapped {h t r : Int} {front back : List Slot} :
      Chain h front r → Chain lo back t → back ≠ [] → t ≤ h → r ≤ hi →
      Layout lo hi ⟨h, t, some r⟩ (front ++ back)

/-- A fresh ring: both ends at `a`, nothing outstanding. -/
theorem Layout.fresh {a : Int} (h₁ : lo ≤ a) (h₂ : a ≤ hi) :
    Layout lo hi ⟨a, a, none⟩ [] :=
  .linear h₁ h₂ (.nil a)

/-- Every outstanding slot is nonempty and lies in `[lo, hi)`. -/
theorem Layout.inside {c : Cursor} {ss : List Slot} (h : Layout lo hi c ss) :
    ∀ s ∈ ss, lo ≤ s.off ∧ 0 < s.len ∧ s.stop ≤ hi := by
  intro s hs
  cases h with
  | linear h₁ h₂ hc =>
    obtain ⟨h₃, h₄, h₅⟩ := hc.inside s hs
    exact ⟨by omega, h₄, by omega⟩
  | wrapped hf hb _ hth hr =>
    have := hb.le
    rcases List.mem_append.mp hs with hs | hs
    · obtain ⟨h₃, h₄, h₅⟩ := hf.inside s hs
      exact ⟨by omega, h₄, by omega⟩
    · obtain ⟨h₃, h₄, h₅⟩ := hb.inside s hs
      have := hf.le
      exact ⟨h₃, h₄, by omega⟩

/-- The outstanding slots are pairwise disjoint. -/
theorem Layout.disjoint {c : Cursor} {ss : List Slot} (h : Layout lo hi c ss) :
    ss.Pairwise Slot.Disjoint := by
  cases h with
  | linear _ _ hc => exact hc.disjoint
  | wrapped hf hb _ hth _ =>
    refine List.pairwise_append.mpr ⟨hf.disjoint, hb.disjoint, fun s hs t ht => .inr ?_⟩
    have h₁ := (hf.inside s hs).1
    have h₂ := (hb.inside t ht).2.2
    omega

/-- There are at most as many outstanding slots as the ring has bytes. -/
theorem Layout.length_le {c : Cursor} {ss : List Slot} (h : Layout lo hi c ss) :
    ss.length ≤ hi - lo := by
  cases h with
  | linear h₁ h₂ hc =>
    have := hc.length_le
    omega
  | wrapped hf hb _ hth hr =>
    have := hf.length_le
    have := hb.length_le
    rw [List.length_append]
    omega

/-- Bounds on the cursor itself. -/
theorem Layout.bounds {c : Cursor} {ss : List Slot} (h : Layout lo hi c ss) :
    lo ≤ c.head ∧ c.head ≤ hi ∧ lo ≤ c.tail ∧ c.tail ≤ hi ∧
      ∀ r, c.roll = some r → c.head ≤ r ∧ r ≤ hi := by
  cases h with
  | linear h₁ h₂ hc =>
    have := hc.le
    dsimp only
    exact ⟨h₁, by omega, by omega, h₂, by simp⟩
  | wrapped hf hb _ hth hr =>
    have h₁ := hf.le
    have h₂ := hb.le
    dsimp only
    refine ⟨by omega, by omega, h₂, by omega, ?_⟩
    rintro r' ⟨⟩
    exact ⟨h₁, hr⟩

/-- When nothing is outstanding the tail stands at the head, wherever that is. -/
theorem Layout.empty {c : Cursor} (h : Layout lo hi c []) : c.roll = none ∧ c.tail = c.head := by
  generalize hss : ([] : List Slot) = ss at h
  cases h with
  | linear h₁ h₂ hc =>
    subst hss
    cases hc
    exact ⟨rfl, rfl⟩
  | wrapped hf hb hne hth hr =>
    -- the turning point is given up with the last record before it
    exact absurd (List.append_eq_nil_iff.mp hss.symm).2 hne

/-- An empty ring has a place for a record behind its cursor or before it. -/
theorem place_empty {c : Cursor} {n : Int} (h : Layout lo hi c []) :
    place lo hi c n ≠ none ↔ c.head + n ≤ hi ∨ lo + n ≤ c.head := by
  obtain ⟨hroll, htail⟩ := h.empty
  simp only [place, hroll, htail]
  by_cases hbehind : c.head + n ≤ hi
  · simp [hbehind]
  · by_cases hbefore : lo + n ≤ c.head
    · simp [hbehind, hbefore]
    · simp [hbehind, hbefore]

/-! ## The writer keeps the layout -/

/-- **Writer step**: an accepted record is appended and the layout is kept. -/
theorem place_layout {c c' : Cursor} {ss : List Slot} {n a : Int}
    (h : Layout lo hi c ss) (hn : 0 < n) (hp : place lo hi c n = some (a, c')) :
    Layout lo hi c' (ss ++ [⟨a, n⟩]) := by
  cases h with
  | @linear h t ss h₁ h₂ hc =>
    simp only [place] at hp
    split at hp
    case isTrue hfit =>
      obtain ⟨rfl, rfl⟩ : t = a ∧ _ = c' := by simpa using hp
      exact .linear h₁ hfit (hc.snoc hn)
    case isFalse hnofit =>
      split at hp
      case isTrue hroom =>
        obtain ⟨rfl, rfl⟩ : lo = a ∧ _ = c' := by simpa using hp
        exact .wrapped hc (.cons hn (.nil _)) (by simp) hroom h₂
      case isFalse => simp at hp
  | @wrapped h t r front back hf hb hne hth hr =>
    simp only [place] at hp
    split at hp
    case isTrue hroom =>
      obtain ⟨rfl, rfl⟩ : t = a ∧ _ = c' := by simpa using hp
      rw [List.append_assoc]
      exact .wrapped hf (hb.snoc hn) (by simp) hroom hr
    case isFalse => simp at hp

/-- The cursor keeps its head when a record is placed. -/
theorem place_head {c c' : Cursor} {n a : Int} (hp : place lo hi c n = some (a, c')) :
    c'.head = c.head := by
  unfold place at hp
  split at hp
  · split at hp
    · obtain ⟨-, rfl⟩ : _ ∧ _ = c' := by simpa using hp
      rfl
    · split at hp
      · obtain ⟨-, rfl⟩ : _ ∧ _ = c' := by simpa using hp
        rfl
      · simp at hp
  · split at hp
    · obtain ⟨-, rfl⟩ : _ ∧ _ = c' := by simpa using hp
      rfl
    · simp at hp

/-- The record placed ends at the new tail. -/
theorem place_tail {c c' : Cursor} {n a : Int} (hp : place lo hi c n = some (a, c')) :
    c'.tail = a + n := by
  unfold place at hp
  split at hp
  · split at hp
    · obtain ⟨rfl, rfl⟩ : c.tail = a ∧ _ = c' := by simpa using hp
      rfl
    · split at hp
      · obtain ⟨rfl, rfl⟩ : lo = a ∧ _ = c' := by simpa using hp
        rfl
      · simp at hp
  · split at hp
    · obtain ⟨rfl, rfl⟩ : c.tail = a ∧ _ = c' := by simpa using hp
      rfl
    · simp at hp

/-! ## The reader keeps the layout -/

/-- **Reader step**: the reader finds the oldest slot, and consuming it keeps the layout
    of the remaining ones. -/
theorem advance_layout {c : Cursor} {s : Slot} {ss : List Slot}
    (h : Layout lo hi c (s :: ss)) :
    readPos lo c = s.off ∧ Layout lo hi (advance lo c s.len) ss := by
  generalize hall : s :: ss = all at h
  cases h with
  | @linear h t all h₁ h₂ hc =>
    subst hall
    cases hc with
    | @cons _ n _ _ hn hc =>
      refine ⟨rfl, ?_⟩
      simp only [advance, readPos, reduceCtorEq, if_false]
      exact .linear (by omega) h₂ hc
  | @wrapped h t r front back hf hb hne hth hr =>
    cases hf with
    | nil =>
      -- the reader has reached the turning point: the next record is at `lo`
      obtain rfl : back = s :: ss := by simpa using hall.symm
      cases hb with
      | @cons _ n _ _ hn hb =>
        refine ⟨by simp [readPos], ?_⟩
        simp only [advance, readPos, if_true]
        exact .linear (by omega) (by omega) hb
    | @cons _ n _ front hn hf =>
      obtain ⟨rfl, rfl⟩ : s = ⟨h, n⟩ ∧ ss = front ++ back := by simpa using hall
      have hne' : ¬(some r = some h) := by
        have := hf.le
        simp only [Option.some.injEq]
        omega
      refine ⟨by simp [readPos, hne'], ?_⟩
      simp only [advance, readPos, hne', if_false]
      exact .wrapped hf hb hne (by omega) hr

/-- After the reader step the consumed slot ends at the new head. -/
theorem advance_head {c : Cursor} {s : Slot} {ss : List Slot}
    (h : Layout lo hi c (s :: ss)) : (advance lo c s.len).head = s.stop := by
  simp [advance, (advance_layout h).1, Slot.stop]

/-! ## Slots handed out

After the reader step the slot `[p, head)` is free, though the reader may still be looking at
it. -/

/-- The next record of `n` bytes goes below the head and reaches past `p`. -/
def Reaches (lo hi : Int) (c : Cursor) (p n : Int) : Prop :=
  if c.roll = none then hi < c.tail + n ∧ lo + n ≤ c.head ∧ p < lo + n
  else c.tail + n ≤ c.head ∧ p < c.tail + n

/-- A record that does not reach into the slot handed out leaves it alone. -/
theorem place_clear {c c' : Cursor} {ss : List Slot} {n a p : Int} (h : Layout lo hi c ss)
    (hp : place lo hi c n = some (a, c')) (hclear : ¬Reaches lo hi c p n) :
    c.head ≤ a ∨ a + n ≤ p := by
  cases h with
  | @linear h t ss h₁ h₂ hch =>
    have hle := hch.le
    simp only [Reaches, if_true] at hclear
    simp only [place] at hp
    split at hp
    case isTrue =>
      obtain ⟨rfl, -⟩ : t = a ∧ _ = c' := by simpa using hp
      exact .inl hle
    case isFalse hnofit =>
      split at hp
      case isTrue hroom =>
        obtain ⟨rfl, -⟩ : lo = a ∧ _ = c' := by simpa using hp
        exact .inr (by omega)
      case isFalse => simp at hp
  | @wrapped h t r front back hf hb _ _ _ =>
    simp only [Reaches, reduceCtorEq, if_false] at hclear
    simp only [place] at hp
    split at hp
    case isTrue hroom =>
      obtain ⟨rfl, -⟩ : t = a ∧ _ = c' := by simpa using hp
      exact .inr (by omega)
    case isFalse => simp at hp

/-! ## Rings with few bytes outstanding -/

/-- The bytes of all slots. -/
def total (ss : List Slot) : Int := (ss.map Slot.len).sum

@[simp] theorem total_nil : total [] = 0 := rfl

@[simp] theorem total_cons (s : Slot) (ss : List Slot) : total (s :: ss) = s.len + total ss := by
  simp [total]

@[simp] theorem total_append (ss ts : List Slot) : total (ss ++ ts) = total ss + total ts := by
  simp [total]

/-- The writer turned back within `m` bytes of the end of the ring. -/
def TurnedLate (hi m : Int) (c : Cursor) : Prop := ∀ r, c.roll = some r → hi < r + m

theorem place_turnedLate {c c' : Cursor} {n m a : Int} (hc : TurnedLate hi m c) (hn : n ≤ m)
    (hp : place lo hi c n = some (a, c')) : TurnedLate hi m c' := by
  intro r hr
  unfold place at hp
  split at hp
  case h_1 hroll =>
    split at hp
    case isTrue =>
      obtain ⟨-, rfl⟩ : _ ∧ _ = c' := by simpa using hp
      exact hc r hr
    case isFalse hnofit =>
      split at hp
      case isTrue =>
        obtain ⟨-, rfl⟩ : _ ∧ _ = c' := by simpa using hp
        obtain rfl : c.tail = r := by simpa using hr
        omega
      case isFalse => simp at hp
  case h_2 =>
    split at hp
    case isTrue =>
      obtain ⟨-, rfl⟩ : _ ∧ _ = c' := by simpa using hp
      exact hc r hr
    case isFalse => simp at hp

theorem advance_turnedLate {c : Cursor} {n m : Int} (hc : TurnedLate hi m c) :
    TurnedLate hi m (advance lo c n) := by
  intro r hr
  simp only [advance] at hr
  split at hr
  · simp at hr
  · exact hc r hr

/-- **Room**: while the outstanding bytes and two largest records together fit in the
    ring, every record is placed. -/
theorem place_of_room {c : Cursor} {ss : List Slot} {n m : Int}
    (h : Layout lo hi c ss) (hc : TurnedLate hi m c) (hn : n ≤ m)
    (hroom : total ss + 2 * m ≤ hi - lo) : ∃ a c', place lo hi c n = some (a, c') := by
  cases h with
  | @linear h t ss h₁ h₂ hch =>
    have hsum : total ss = t - h := hch.total
    by_cases hfit : t + n ≤ hi
    · exact ⟨_, _, by simp [place, hfit]; exact ⟨rfl, rfl⟩⟩
    · have hwrap : lo + n ≤ h := by omega
      exact ⟨_, _, by simp [place, hfit, hwrap]; exact ⟨rfl, rfl⟩⟩
  | @wrapped h t r front back hf hb _ _ _ =>
    have hlate := hc r rfl
    have hfront : total front = r - h := hf.total
    have hback : total back = t - lo := hb.total
    rw [total_append] at hroom
    have hwrap : t + n ≤ h := by omega
    exact ⟨_, _, by simp [place, hwrap]; exact ⟨rfl, rfl⟩⟩

/-- **Avoidance**: under the same condition, counting also the `k` bytes of the slot just
    handed out, the new record does not reach into that slot. -/
theorem not_reaches_of_room {c : Cursor} {ss : List Slot} {n m k : Int}
    (h : Layout lo hi c ss) (hc : TurnedLate hi m c) (hn : n ≤ m)
    (hroom : total ss + k + 2 * m ≤ hi - lo) : ¬Reaches lo hi c (c.head - k) n := by
  cases h with
  | @linear h t ss h₁ h₂ hch =>
    have hsum : total ss = t - h := hch.total
    simp only [Reaches, if_true]
    omega
  | @wrapped h t r front back hf hb _ _ _ =>
    have hlate := hc r rfl
    have hfront : total front = r - h := hf.total
    have hback : total back = t - lo := hb.total
    rw [total_append] at hroom
    simp only [Reaches, reduceCtorEq, if_false]
    omega

end TaskSystem.Library.Rollover
