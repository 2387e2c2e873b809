import Mathlib.Data.List.Basic

/-!
# Traversals

A list whose elements are computed one by one, with a step that may fail: when the traversal
succeeds, and what its results are.

## Contents

- `mapM_eq_pure`, `exists_mapM`: traversals that do not fail
- `length_mapM`, `exists_of_mem_mapM`: the results of one in `Option`
- `mapM_pairwise`: elements picked at ascending places
-/

namespace TaskSystem.Library

universe u v w

/-! ## Traversals that do not fail -/

/-- Where every step has a known result, so has the traversal. -/
theorem mapM_eq_pure {m : Type u → Type v} [Monad m] [LawfulMonad m] {α : Type w} {β : Type u}
    {f : α → m β} {g : α → β} {xs : List α} (h : ∀ x ∈ xs, f x = pure (g x)) :
    xs.mapM f = pure (xs.map g) := by
  induction xs with
  | nil => rfl
  | cons x xs ih =>
    rw [List.mapM_cons, h x (List.mem_cons_self ..), ih fun y hy => h y (List.mem_cons_of_mem _ hy),
      pure_bind, pure_bind, List.map_cons]

/-- Where every step has a result, the traversal has. -/
theorem exists_mapM {m : Type u → Type v} [Monad m] [LawfulMonad m] {α : Type w} {β : Type u}
    {f : α → m β} {xs : List α} (h : ∀ x ∈ xs, ∃ y, f x = pure y) : ∃ ys, xs.mapM f = pure ys := by
  induction xs with
  | nil => exact ⟨[], rfl⟩
  | cons x xs ih =>
    obtain ⟨ys, hys⟩ := ih fun a ha => h a (List.mem_cons_of_mem _ ha)
    obtain ⟨y, hy⟩ := h x (List.mem_cons_self ..)
    exact ⟨y :: ys, by rw [List.mapM_cons, hy, hys, pure_bind, pure_bind]⟩

/-! ## The results -/

variable {α : Type w} {β : Type u} {f : α → Option β} {xs : List α} {ys : List β}

/-- Where all results are there, there are as many as arguments. -/
theorem length_mapM (h : xs.mapM f = some ys) : ys.length = xs.length := by
  induction xs generalizing ys with
  | nil =>
    obtain rfl : [] = ys := Option.some.inj h
    rfl
  | cons x xs ih =>
    rw [List.mapM_cons] at h
    obtain ⟨y, -, h⟩ := Option.bind_eq_some_iff.mp h
    obtain ⟨rest, hrest, h⟩ := Option.bind_eq_some_iff.mp h
    obtain rfl : y :: rest = ys := Option.some.inj h
    rw [List.length_cons, List.length_cons, ih hrest]

/-- Every result of `mapM` is one for some argument. -/
theorem exists_of_mem_mapM (h : xs.mapM f = some ys) {y : β} (hy : y ∈ ys) :
    ∃ x ∈ xs, f x = some y := by
  induction xs generalizing ys with
  | nil =>
    obtain rfl : [] = ys := Option.some.inj h
    cases hy
  | cons x xs ih =>
    rw [List.mapM_cons] at h
    obtain ⟨z, hz, h⟩ := Option.bind_eq_some_iff.mp h
    obtain ⟨rest, hrest, h⟩ := Option.bind_eq_some_iff.mp h
    obtain rfl : z :: rest = ys := Option.some.inj h
    rcases List.mem_cons.mp hy with rfl | hy
    · exact ⟨x, List.mem_cons_self .., hz⟩
    · obtain ⟨x', hx', hfx'⟩ := ih hrest hy
      exact ⟨x', List.mem_cons_of_mem _ hx', hfx'⟩

/-- Elements picked from an ascending list at ascending places ascend. -/
theorem mapM_pairwise {α : Type u} {R : α → α → Prop} (hrefl : ∀ a, R a a) {values : List α}
    (h : values.Pairwise R) (place : Nat → Nat) (hplace : ∀ i j, i < j → place i ≤ place j)
    {is : List Nat} (his : is.Pairwise (· < ·)) {picked : List α}
    (hpicked : is.mapM (fun i => values[place i]?) = some picked) : picked.Pairwise R := by
  induction is generalizing picked with
  | nil =>
    obtain rfl : [] = picked := Option.some.inj hpicked
    exact .nil
  | cons i is ih =>
    rw [List.mapM_cons] at hpicked
    obtain ⟨v, hv, hpicked⟩ := Option.bind_eq_some_iff.mp hpicked
    obtain ⟨rest, hrest, hpicked⟩ := Option.bind_eq_some_iff.mp hpicked
    obtain rfl : v :: rest = picked := Option.some.inj hpicked
    obtain ⟨hfirst, htail⟩ := List.pairwise_cons.mp his
    refine .cons ?_ (ih htail hrest)
    intro w hw
    -- `w` stands at a place that is not before that of `v`
    obtain ⟨j, hj, hwj⟩ := exists_of_mem_mapM hrest hw
    obtain ⟨hlt, rfl⟩ := List.getElem?_eq_some_iff.mp hv
    obtain ⟨hlt', rfl⟩ := List.getElem?_eq_some_iff.mp hwj
    rcases Nat.lt_or_eq_of_le (hplace i j (hfirst j hj)) with hbefore | hsame
    · exact List.pairwise_iff_getElem.mp h _ _ hlt hlt' hbefore
    · simp only [hsame]
      exact hrefl _

end TaskSystem.Library
