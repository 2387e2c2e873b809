import Mathlib.Algebra.GroupWithZero.Nat
import Mathlib.Data.List.Nodup
import TaskSystem.Library.Sorting

/-!
# Distribution in Two Passes

Elements are distributed by key over blocks of memory: a first pass counts how many elements
each key has, blocks of just these lengths are allocated, and a second pass writes every element
into the next cell of its block. An access outside an array or a block has no result (`none`).

## Contents

- `bump`, `countAll`: the first pass
- `Blocks`, `put`, `fillAll`: the second pass, with a record of where it has written
- `countAll_eq`: the first pass counts the group of every key
- `Filled`, `fillAll_eq`: the second pass stays inside the blocks and fills each with its group
-/

namespace TaskSystem.Library.TwoPass

variable {α : Type*}

/-! ## The passes -/

/-- `counts[i]++` -/
def bump (counts : List Nat) (i : Nat) : Option (List Nat) :=
  if i < counts.length then some (counts.modify i (· + 1)) else none

/-- The first pass, over `k` keys -/
def countAll (key : α → Nat) (k : Nat) (as : List α) : Option (List Nat) :=
  as.foldlM (fun counts a => bump counts (key a)) (List.replicate k 0)

/-- Blocks that are being filled. -/
structure Blocks (α : Type*) where
  cells : List (List α)
  /-- The next cell of every block -/
  current : List Nat
  /-- Block and cell of every write so far -/
  written : List (Nat × Nat)

/-- Blocks of the lengths `counts`; `uninit` is what their cells contain before they are
    written. -/
def allocate (counts : List Nat) (uninit : Nat → Nat → α) : Blocks α where
  cells := counts.mapIdx fun i n => (List.range n).map (uninit i)
  current := counts.map fun _ => 0
  written := []

/-- `cells[i][current[i]] = a; current[i]++` -/
def Blocks.put (b : Blocks α) (i : Nat) (a : α) : Option (Blocks α) :=
  match b.cells[i]?, b.current[i]? with
  | some block, some j =>
    if j < block.length then
      some {
        cells := b.cells.set i (block.set j a)
        current := b.current.set i (j + 1)
        written := b.written ++ [(i, j)] }
    else none
  | _, _ => none

/-- The second pass -/
def fillAll (key : α → Nat) (b : Blocks α) (as : List α) : Option (Blocks α) :=
  as.foldlM (fun b a => b.put (key a) a) b

/-! ## Groups -/

/-- The elements with key `i`, in their order. -/
def group (key : α → Nat) (as : List α) (i : Nat) : List α := as.filter fun a => key a = i

/-- How many elements each key has. -/
def tallies (key : α → Nat) (k : Nat) (as : List α) : List Nat :=
  (List.range k).map fun i => (group key as i).length

variable {key : α → Nat} {k : Nat}

@[simp] theorem group_nil (i : Nat) : group key [] i = [] := rfl

theorem group_append (as bs : List α) (i : Nat) :
    group key (as ++ bs) i = group key as i ++ group key bs i :=
  List.filter_append ..

theorem group_singleton_self (a : α) : group key [a] (key a) = [a] :=
  List.filter_cons_of_pos (by simp)

theorem group_singleton_ne {a : α} {i : Nat} (h : key a ≠ i) : group key [a] i = [] :=
  List.filter_cons_of_neg (by simpa using h)

@[simp] theorem length_tallies (as : List α) : (tallies key k as).length = k := by
  simp [tallies]

theorem tallies_getElem? {i : Nat} (hi : i < k) (as : List α) :
    (tallies key k as)[i]? = some (group key as i).length := by
  rw [tallies, List.getElem?_map, List.getElem?_range hi, Option.map_some]

/-- **Nothing is lost**: the groups have as many elements as there are. -/
theorem sum_tallies {as : List α} (h : ∀ a ∈ as, key a < k) :
    (tallies key k as).sum = as.length := by
  rw [← (distribute_perm key k as h).length_eq, List.length_flatMap]
  rfl

/-- One more element adds one to the number of its key. -/
theorem tallies_append_singleton (as : List α) (a : α) :
    tallies key k (as ++ [a]) = (tallies key k as).modify (key a) (· + 1) := by
  apply List.ext_getElem?
  intro i
  rw [List.getElem?_modify]
  rcases Nat.lt_or_ge i k with hi | hi
  · rw [tallies_getElem? hi, tallies_getElem? hi, group_append, List.length_append]
    by_cases hkey : key a = i
    · subst hkey
      simp [group_singleton_self]
    · simp [group_singleton_ne hkey, hkey]
  · rw [List.getElem?_eq_none (by simpa using hi), List.getElem?_eq_none (by simpa using hi)]
    rfl

/-! ## The first pass -/

/-- A round of the first pass. -/
theorem bump_tallies {a : α} (ha : key a < k) (as : List α) :
    bump (tallies key k as) (key a) = some (tallies key k (as ++ [a])) := by
  rw [bump, if_pos (by simpa using ha), tallies_append_singleton]

/-- **The first pass** counts the groups. -/
theorem countAll_eq {as : List α} (h : ∀ a ∈ as, key a < k) :
    countAll key k as = some (tallies key k as) := by
  have hrest : ∀ rest done : List α, (∀ a ∈ rest, key a < k) →
      rest.foldlM (fun counts a => bump counts (key a)) (tallies key k done) =
        some (tallies key k (done ++ rest)) := by
    intro rest
    induction rest with
    | nil => simp
    | cons a rest ih =>
      intro done hkeys
      rw [List.foldlM_cons, bump_tallies (hkeys a (List.mem_cons_self ..))]
      have happend := ih (done ++ [a]) fun c hc => hkeys c (List.mem_cons_of_mem _ hc)
      rw [List.append_assoc, List.singleton_append] at happend
      exact happend
  have hzero : List.replicate k 0 = tallies key k ([] : List α) := by
    simp [tallies]
  rw [countAll, hzero, hrest as [] h, List.nil_append]

/-! ## The second pass -/

/-- The second pass has written the elements `done` and is to write `rest`. -/
structure Filled (key : α → Nat) (k : Nat) (done rest : List α) (b : Blocks α) : Prop where
  length : b.cells.length = k
  /-- Every block begins with its part of `done`, and the cells behind are for its part of
      `rest`. -/
  cells : ∀ i < k, ∃ tail, b.cells[i]? = some (group key done i ++ tail) ∧
    tail.length = (group key rest i).length
  current : b.current = tallies key k done
  /-- All writes went to cells that elements of `done` are in, -/
  inside : ∀ w ∈ b.written, w.1 < k ∧ w.2 < (group key done w.1).length
  /-- no two of them to the same. -/
  apart : b.written.Nodup
  once : b.written.length = done.length

theorem filled_allocate (as : List α) (uninit : Nat → Nat → α) :
    Filled key k [] as (allocate (tallies key k as) uninit) where
  length := by simp [allocate]
  cells i hi := by
    refine ⟨(List.range (group key as i).length).map (uninit i), ?_, by simp⟩
    simp only [allocate, List.getElem?_mapIdx, tallies_getElem? hi, Option.map_some, group_nil,
      List.nil_append]
  current := by simp [allocate, tallies, Function.comp_def]
  inside := nofun
  apart := List.nodup_nil
  once := rfl

/-- A write inside the blocks. -/
theorem put_eq {b : Blocks α} {i j : Nat} {block : List α} (hblock : b.cells[i]? = some block)
    (hcurrent : b.current[i]? = some j) (hroom : j < block.length) {a : α} :
    b.put i a = some {
      cells := b.cells.set i (block.set j a)
      current := b.current.set i (j + 1)
      written := b.written ++ [(i, j)] } := by
  simp only [Blocks.put, hblock, hcurrent, if_pos hroom]

/-- A round of the second pass: the next cell of the block is there. -/
theorem Filled.put {done rest : List α} {a : α} {b : Blocks α}
    (h : Filled key k done (a :: rest) b) (ha : key a < k) :
    ∃ b', b.put (key a) a = some b' ∧ Filled key k (done ++ [a]) rest b' := by
  obtain ⟨tail, hblock, htail⟩ := h.cells (key a) ha
  have hcurrent : b.current[key a]? = some (group key done (key a)).length := by
    rw [h.current, tallies_getElem? ha]
  rw [show a :: rest = [a] ++ rest from rfl, group_append, group_singleton_self,
    List.singleton_append, List.length_cons] at htail
  obtain ⟨cell, tail, rfl⟩ := List.exists_cons_of_length_eq_add_one htail
  have hroom : (group key done (key a)).length <
      (group key done (key a) ++ cell :: tail).length := by
    simp
  refine ⟨_, put_eq hblock hcurrent hroom, ?_⟩
  have hgrows : ∀ i, (group key done i).length ≤ (group key (done ++ [a]) i).length := by
    intro i
    rw [group_append, List.length_append]
    exact Nat.le_add_right _ _
  constructor
  case length => simp [h.length]
  case cells =>
    intro i hi
    by_cases hkey : key a = i
    · subst hkey
      refine ⟨tail, ?_, by simpa using htail⟩
      simp [h.length, ha, group_append, group_singleton_self]
    · -- another block is as it was
      obtain ⟨tail', hblock', htail'⟩ := h.cells i hi
      rw [show a :: rest = [a] ++ rest from rfl, group_append, group_singleton_ne hkey,
        List.nil_append] at htail'
      refine ⟨tail', ?_, htail'⟩
      rw [List.getElem?_set_ne hkey, hblock', group_append, group_singleton_ne hkey,
        List.append_nil]
  case current =>
    rw [tallies_append_singleton, h.current]
    apply List.ext_getElem?
    intro i
    rw [List.getElem?_modify, List.getElem?_set]
    by_cases hkey : key a = i
    · subst hkey
      simp only [length_tallies, ha, tallies_getElem? ha, if_true, Option.map_eq_map,
        Option.map_some]
    · simp [hkey]
  case inside =>
    intro w hw
    rcases List.mem_append.mp hw with hold | hnew
    · obtain ⟨hlt, hcell⟩ := h.inside w hold
      exact ⟨hlt, Nat.lt_of_lt_of_le hcell (hgrows _)⟩
    · obtain rfl := List.mem_singleton.mp hnew
      refine ⟨ha, ?_⟩
      simp [group_append, group_singleton_self]
  case apart =>
    rw [List.nodup_append]
    refine ⟨h.apart, List.nodup_singleton _, ?_⟩
    rintro w hold w' hnew rfl
    -- the cell has not been written before
    obtain rfl := List.mem_singleton.mp hnew
    exact Nat.lt_irrefl _ (h.inside _ hold).2
  case once => simp [h.once]

/-- **The second pass** ends, and has filled every block. -/
theorem Filled.fillAll {rest : List α} (hkeys : ∀ a ∈ rest, key a < k) {done : List α}
    {b : Blocks α} (h : Filled key k done rest b) :
    ∃ b', fillAll key b rest = some b' ∧ Filled key k (done ++ rest) [] b' := by
  induction rest generalizing done b with
  | nil => exact ⟨b, rfl, by rwa [List.append_nil]⟩
  | cons a rest ih =>
    obtain ⟨b₁, hput, hfilled⟩ := h.put (hkeys a (List.mem_cons_self ..))
    obtain ⟨b', hrun, hend⟩ := ih (fun c hc => hkeys c (List.mem_cons_of_mem _ hc)) hfilled
    refine ⟨b', ?_, ?_⟩
    · rw [TwoPass.fillAll, List.foldlM_cons, hput]
      exact hrun
    · rwa [List.append_assoc, List.singleton_append] at hend

/-- At the end the blocks are the groups. -/
theorem Filled.cells_eq {as : List α} {b : Blocks α} (h : Filled key k as [] b) :
    b.cells = (List.range k).map (group key as) := by
  apply List.ext_getElem?
  intro i
  rw [List.getElem?_map]
  rcases Nat.lt_or_ge i k with hi | hi
  · obtain ⟨tail, hblock, htail⟩ := h.cells i hi
    obtain rfl : tail = [] := List.length_eq_zero_iff.mp htail
    rw [hblock, List.getElem?_range hi, List.append_nil, Option.map_some]
  · rw [List.getElem?_eq_none (by rw [h.length]; exact hi),
      List.getElem?_eq_none (by simpa using hi)]
    rfl

/-- **Both passes agree**: blocks of the lengths counted are filled with the groups. -/
theorem fillAll_eq {as : List α} (h : ∀ a ∈ as, key a < k) (uninit : Nat → Nat → α) :
    ∃ b, fillAll key (allocate (tallies key k as) uninit) as = some b ∧
      Filled key k as [] b := by
  obtain ⟨b, hrun, hfilled⟩ := (filled_allocate as uninit).fillAll h
  exact ⟨b, hrun, hfilled⟩

end TaskSystem.Library.TwoPass
