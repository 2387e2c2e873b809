import TaskSystem.Benchmarks.LinkedList

/-!
# Linked Lists as Lists

Any number of linked lists that share the memory are used as their comments ask: positions are
those of nodes in a list, and `malloc` returns blocks that are not in use. Then every call is
defined and returns, with what it returns for lists of numbers.

## Contents

- `Lists`, `Meaning`, `Meanings`: the lists, and what the calls mean
- `Represents`: the nodes in memory are those of the lists, and no others
- `gives_deleteList`, `gives_findLoop`, `gives_findPrevious`, `gives_delete`, `gives_insert`,
  `gives_makeEmpty`: what the functions do to a list
- `call_refines`: one call; `lists_refine`: all sequences of calls
- `incorrectDeleteList_iff`: the one that is not compiled
-/

namespace TaskSystem.LinkedList

open Library Library.Heap

/-! ## What the calls mean -/

/-- The lists that have been created, by header, each with its cells and their addresses. -/
structure Lists where
  live : UInt64 → Option (List (UInt64 × Int32))

namespace Lists

/-- The header of a list and its cells. -/
def nodesOf (S : Lists) (L : UInt64) : List UInt64 :=
  (S.live L).elim [] fun cells => L :: cells.map Prod.fst

/-- The list has these cells now. -/
def set (S : Lists) (L : UInt64) (cells : List (UInt64 × Int32)) : Lists :=
  ⟨Function.update S.live L (some cells)⟩

/-- `malloc` may return this block: it is not the node of a list. -/
def Unused (S : Lists) (b : Block) : Prop :=
  b.address ≠ null ∧ ∀ L, b.address ∉ S.nodesOf L

/-- There are no lists yet. -/
def empty : Lists := ⟨fun _ => none⟩

end Lists

/-- What a call means, and what it returns. -/
inductive Meaning (S : Lists) : Call → Value → Lists → Prop where
  | makeFirst {b : Block} (hb : S.Unused b) :
    Meaning S (.makeEmpty null b) (.position b.address) (S.set b.address [])
  /-- The cells of the old list are gone, but its header is not. -/
  | makeAnother {L : UInt64} {cells : List (UInt64 × Int32)} {b : Block}
      (hL : S.live L = some cells) (hb : (S.set L []).Unused b) :
    Meaning S (.makeEmpty L b) (.position b.address) ((S.set L []).set b.address [])
  | isEmpty {L : UInt64} {cells : List (UInt64 × Int32)} (hL : S.live L = some cells) :
    Meaning S (.isEmpty L) (.truth cells.isEmpty) S
  | isLast {L L' : UInt64} {before after : List (UInt64 × Int32)}
      (hL : S.live L = some (before ++ after)) :
    Meaning S (.isLast (endOf L before) L') (.truth after.isEmpty) S
  | find {L : UInt64} {cells : List (UInt64 × Int32)} (X : Int32) (hL : S.live L = some cells) :
    Meaning S (.find X L) (.position (startOf null (cells.dropWhile fun c => c.2 ≠ X))) S
  | delete {L : UInt64} {cells : List (UInt64 × Int32)} (X : Int32) (hL : S.live L = some cells) :
    Meaning S (.delete X L) .void (S.set L (cells.eraseP fun c => c.2 = X))
  | findPrevious {L : UInt64} {cells : List (UInt64 × Int32)} (X : Int32)
      (hL : S.live L = some cells) :
    Meaning S (.findPrevious X L) (.position (endOf L (cells.takeWhile fun c => c.2 ≠ X))) S
  | insert {L L' : UInt64} {before after : List (UInt64 × Int32)} {b : Block} (X : Int32)
      (hL : S.live L = some (before ++ after)) (hb : S.Unused b) :
    Meaning S (.insert X L' (endOf L before) b) .void
      (S.set L (before ++ (b.address, X) :: after))
  | deleteList {L : UInt64} {cells : List (UInt64 × Int32)} (hL : S.live L = some cells) :
    Meaning S (.deleteList L) .void (S.set L [])
  | header (L : UInt64) : Meaning S (.header L) (.position L) S
  | first {L : UInt64} {cells : List (UInt64 × Int32)} (hL : S.live L = some cells) :
    Meaning S (.first L) (.position (startOf null cells)) S
  | advance {L : UInt64} {before after : List (UInt64 × Int32)}
      (hL : S.live L = some (before ++ after)) :
    Meaning S (.advance (endOf L before)) (.position (startOf null after)) S
  | retrieve {L P : UInt64} {X : Int32} {before after : List (UInt64 × Int32)}
      (hL : S.live L = some (before ++ (P, X) :: after)) :
    Meaning S (.retrieve P) (.element X) S

/-- What calls mean one after another. -/
inductive Meanings : Lists → List Call → List Value → Lists → Prop where
  | nil (S : Lists) : Meanings S [] [] S
  | cons {S S' S'' : Lists} {call : Call} {value : Value} {calls : List Call}
      {values : List Value} (h : Meaning S call value S') (hrest : Meanings S' calls values S'') :
    Meanings S (call :: calls) (value :: values) S''

/-! ## Memory -/

/-- **The nodes in memory are those of the lists**, and each belongs to one of them. -/
structure Represents (nodes : Nodes) (S : Lists) : Prop where
  null_none : nodes null = none
  linked : ∀ L cells, S.live L = some cells → ∃ w, nodes.Linked null ((L, w) :: cells)
  apart : ∀ L L' a, a ∈ S.nodesOf L → a ∈ S.nodesOf L' → L = L'
  owned : ∀ a, nodes a ≠ none → ∃ L, a ∈ S.nodesOf L

namespace Lists

variable {S : Lists} {L L' : UInt64} {cells : List (UInt64 × Int32)}

theorem nodesOf_eq (h : S.live L = some cells) : S.nodesOf L = L :: cells.map Prod.fst := by
  rw [nodesOf, h]
  rfl

theorem header_mem {a : UInt64} (h : a ∈ S.nodesOf L) : L ∈ S.nodesOf L := by
  cases hL : S.live L with
  | none =>
    rw [nodesOf, hL] at h
    cases h
  | some cells =>
    rw [nodesOf_eq hL]
    exact List.mem_cons_self ..

@[simp] theorem live_set_self : (S.set L cells).live L = some cells := Function.update_self ..

theorem live_set_ne (h : L' ≠ L) : (S.set L cells).live L' = S.live L' :=
  Function.update_of_ne h ..

@[simp] theorem nodesOf_set_self : (S.set L cells).nodesOf L = L :: cells.map Prod.fst :=
  nodesOf_eq live_set_self

theorem nodesOf_set_ne (h : L' ≠ L) : (S.set L cells).nodesOf L' = S.nodesOf L' := by
  rw [nodesOf, live_set_ne h, nodesOf]

end Lists

namespace Represents

variable {nodes nodes' : Nodes} {S : Lists} {L a : UInt64} {w : Int32}
  {cells : List (UInt64 × Int32)}

theorem empty : Represents (fun _ => none) .empty where
  null_none := rfl
  linked _ _ h := absurd h (Option.some_ne_none _).symm
  apart _ _ _ h := absurd h List.not_mem_nil
  owned _ h := absurd rfl h

/-- The nodes of a list are allocated. -/
theorem allocated (h : Represents nodes S) (ha : a ∈ S.nodesOf L) : nodes a ≠ none := by
  cases hL : S.live L with
  | none =>
    rw [Lists.nodesOf, hL] at ha
    cases ha
  | some cells =>
    rw [Lists.nodesOf_eq hL] at ha
    obtain ⟨w, hlinked⟩ := h.linked L cells hL
    exact hlinked.allocated ha

/-- `malloc` returns a block that is not in use. -/
theorem unused (h : Represents nodes S) {b : Block} (hb : S.Unused b) :
    nodes b.address = none := by
  by_contra hne
  obtain ⟨L, hL⟩ := h.owned _ hne
  exact hb.2 L hL

/-- **Frame rule**: what is done to the nodes of one list, and to nodes that were not in use,
    leaves the other lists alone. -/
theorem set (h : Represents nodes S) (hnull : nodes' null = none)
    (hlinked : nodes'.Linked null ((L, w) :: cells))
    (hnew : ∀ a ∈ L :: cells.map Prod.fst, a ∈ S.nodesOf L ∨ nodes a = none)
    (hgone : ∀ a ∈ S.nodesOf L, a ∉ L :: cells.map Prod.fst → nodes' a = none)
    (hsame : ∀ a, a ∉ S.nodesOf L → a ∉ L :: cells.map Prod.fst → nodes' a = nodes a) :
    Represents nodes' (S.set L cells) := by
  -- the nodes of another list are not among these
  have hother : ∀ L' a, L' ≠ L → a ∈ S.nodesOf L' →
      a ∉ S.nodesOf L ∧ a ∉ L :: cells.map Prod.fst := by
    intro L' a hne ha
    have hnot : a ∉ S.nodesOf L := fun hmem => hne (h.apart L' L a ha hmem)
    refine ⟨hnot, fun hmem => ?_⟩
    rcases hnew a hmem with hold | hnone
    · exact hnot hold
    · exact h.allocated ha hnone
  constructor
  · exact hnull
  · intro L' cells' hL'
    by_cases hne : L' = L
    · subst hne
      obtain rfl : cells = cells' := Option.some.inj (Lists.live_set_self.symm.trans hL')
      exact ⟨w, hlinked⟩
    · rw [Lists.live_set_ne hne] at hL'
      obtain ⟨w', hlinked'⟩ := h.linked L' cells' hL'
      refine ⟨w', hlinked'.congr fun a ha => ?_⟩
      have ha' : a ∈ S.nodesOf L' := by rwa [Lists.nodesOf_eq hL']
      obtain ⟨hnot, hnot'⟩ := hother L' a hne ha'
      exact hsame a hnot hnot'
  -- no node in two lists: the new ones were in none
  · intro L₁ L₂ a h₁ h₂
    by_cases hne₁ : L₁ = L <;> by_cases hne₂ : L₂ = L
    · rw [hne₁, hne₂]
    · subst hne₁
      rw [Lists.nodesOf_set_self] at h₁
      rw [Lists.nodesOf_set_ne hne₂] at h₂
      exact absurd h₁ (hother L₂ a hne₂ h₂).2
    · subst hne₂
      rw [Lists.nodesOf_set_self] at h₂
      rw [Lists.nodesOf_set_ne hne₁] at h₁
      exact absurd h₂ (hother L₁ a hne₁ h₁).2
    · rw [Lists.nodesOf_set_ne hne₁] at h₁
      rw [Lists.nodesOf_set_ne hne₂] at h₂
      exact h.apart L₁ L₂ a h₁ h₂
  · intro a ha
    -- every node in memory is in a list
    by_cases hmem : a ∈ L :: cells.map Prod.fst
    · exact ⟨L, by rwa [Lists.nodesOf_set_self]⟩
    · have hnot : a ∉ S.nodesOf L := fun hold => ha (hgone a hold hmem)
      rw [hsame a hnot hmem] at ha
      obtain ⟨L', hL'⟩ := h.owned a ha
      have hne : L' ≠ L := by
        rintro rfl
        exact hnot hL'
      exact ⟨L', by rwa [Lists.nodesOf_set_ne hne]⟩

end Represents

/-! ## What the functions do to a list -/

section Functions

variable {nodes : Nodes} {L P : UInt64} {w X : Int32} {fuel : Nat}
  {cells before after : List (UInt64 × Int32)}

/-- A node of a list is not `NULL`. -/
theorem ne_null (hnull : nodes null = none) {n : Node} (h : nodes P = some n) : P ≠ null := by
  rintro rfl
  rw [hnull] at h
  cases h

/-- `NULL` ends a list, and nothing else does. -/
theorem startOf_eq_null (h : nodes.Linked null cells) (hnull : nodes null = none) :
    startOf null cells = null ↔ cells = [] := by
  cases cells with
  | nil => exact iff_of_true rfl rfl
  | cons c cells => exact iff_of_false (ne_null hnull h.1) (List.cons_ne_nil _ _)

/-- The test for the end of a list -/
theorem decide_startOf (h : nodes.Linked null cells) (hnull : nodes null = none) :
    decide (startOf null cells = null) = cells.isEmpty := by
  cases hcells : cells.isEmpty with
  | true => exact decide_eq_true ((startOf_eq_null h hnull).mpr (List.isEmpty_iff.mp hcells))
  | false =>
    refine decide_eq_false fun hstart => ?_
    rw [(startOf_eq_null h hnull).mp hstart] at hcells
    cases hcells

/-- The node at a position, of a list with its header -/
theorem exists_node (h : nodes.Linked null ((L, w) :: (before ++ after))) :
    ∃ front last, (L, w) :: before = front ++ [(endOf L before, last)] ∧
      nodes (endOf L before) = some ⟨last, startOf null after⟩ := by
  obtain ⟨front, last, heq⟩ := exists_endOf L w before
  refine ⟨front, last, heq, ?_⟩
  rw [← List.cons_append, heq, List.append_assoc] at h
  exact h.get

/-- **`DeleteList`'s loop** frees the cells one by one. -/
theorem gives_deleteLoop (h : nodes.Linked null cells) (hnull : nodes null = none)
    (hfuel : cells.length < fuel) :
    Gives (deleteLoop fuel (startOf null cells)) nodes () (nodes.wipe cells) := by
  induction cells generalizing nodes fuel with
  | nil =>
    obtain ⟨fuel, rfl⟩ := Nat.exists_eq_succ_of_ne_zero (Nat.ne_of_gt hfuel)
    rfl
  | cons c cells ih =>
    obtain ⟨fuel, rfl⟩ := Nat.exists_eq_succ_of_ne_zero (Nat.ne_of_gt (Nat.zero_lt_of_lt hfuel))
    have hc : c.1 ≠ null := ne_null hnull h.1
    have hnot : c.1 ∉ cells.map Prod.fst := h.first_notMem hnull
    -- the next cell has been read before this one is freed
    have hrest : Linked (Function.update nodes c.1 none) null cells :=
      h.2.congr fun a ha => Function.update_of_ne (ne_of_mem_of_not_mem ha hnot) ..
    have hnull' : Function.update nodes c.1 none null = none := by
      rw [Function.update_of_ne hc.symm, hnull]
    have hloop := ih hrest hnull' (Nat.lt_of_succ_lt_succ hfuel)
    rw [← wipe_cons] at hloop
    show Gives (deleteLoop (fuel + 1) c.1) nodes () _
    rw [deleteLoop, if_pos hc]
    exact (Gives.node h.1).bind ((Gives.free hc h.1).bind hloop)

/-- **`DeleteList`** leaves the header. -/
theorem gives_deleteList (h : nodes.Linked null ((L, w) :: cells)) (hnull : nodes null = none)
    (hfuel : cells.length < fuel) :
    Gives (deleteList fuel L) nodes ()
      (wipe (Function.update nodes L (some ⟨w, null⟩)) cells) := by
  have hL : L ≠ null := ne_null hnull h.1
  have hnot : L ∉ cells.map Prod.fst := h.first_notMem hnull
  -- the header's link has been set to `NULL`; the cells do not see it
  have hcells : Linked (Function.update nodes L (some ⟨w, null⟩)) null cells :=
    h.2.congr fun a ha => Function.update_of_ne (ne_of_mem_of_not_mem ha hnot) ..
  have hnull' : Function.update nodes L (some ⟨w, null⟩) null = none := by
    rw [Function.update_of_ne hL.symm, hnull]
  exact (Gives.node h.1).bind ((Gives.setNext h.1).bind (gives_deleteLoop hcells hnull' hfuel))

/-- **`MakeEmpty`** without a list -/
theorem gives_makeEmpty_null {b : Block} (hb : b.address ≠ null) :
    Gives (makeEmpty fuel null b) nodes b.address
      (Function.update nodes b.address (some ⟨b.node.value, null⟩)) := by
  rw [makeEmpty, if_neg (not_not_intro rfl)]
  refine (Gives.malloc hb _).bind ((Gives.setNext (Function.update_self ..)).bind ?_)
  rw [Function.update_idem]
  exact Gives.pure _ _

/-- **`MakeEmpty`** of a list deletes it first. -/
theorem gives_makeEmpty {nodes' : Nodes} {b : Block} (hL : L ≠ null)
    (hdelete : Gives (deleteList fuel L) nodes () nodes') (hb : b.address ≠ null) :
    Gives (makeEmpty fuel L b) nodes b.address
      (Function.update nodes' b.address (some ⟨b.node.value, null⟩)) := by
  rw [makeEmpty, if_pos hL]
  refine hdelete.bind ((Gives.malloc hb _).bind ((Gives.setNext (Function.update_self ..)).bind ?_))
  rw [Function.update_idem]
  exact Gives.pure _ _

/-- **The incorrect loop** frees the first cell and then reads it. -/
theorem incorrectDeleteLoop_undefined {c : UInt64 × Int32} (h : nodes.Linked null (c :: cells))
    (hnull : nodes null = none) :
    incorrectDeleteLoop (fuel + 1) c.1 nodes = .error .undefined := by
  have hc : c.1 ≠ null := ne_null hnull h.1
  have hfree : free c.1 nodes = .ok ((), Function.update nodes c.1 none) := Gives.free hc h.1
  -- `P = P->Next` behind `free(P)`
  have hread : node c.1 (Function.update nodes c.1 none) = .error .undefined := by
    simp only [node, Function.update_self]
  rw [incorrectDeleteLoop, if_pos hc]
  show (free c.1 nodes >>= fun e => (node c.1 e.2 >>= fun _ => _)) = _
  rw [hfree]
  show (node c.1 (Function.update nodes c.1 none) >>= fun _ => _) = _
  rw [hread]
  rfl

/-- **`Find`** -/
theorem gives_findLoop (h : nodes.Linked null cells) (hnull : nodes null = none)
    (hfuel : cells.length < fuel) :
    Gives (findLoop X fuel (startOf null cells)) nodes
      (startOf null (cells.dropWhile fun c => c.2 ≠ X)) nodes := by
  induction cells generalizing fuel with
  | nil =>
    obtain ⟨fuel, rfl⟩ := Nat.exists_eq_succ_of_ne_zero (Nat.ne_of_gt hfuel)
    rfl
  | cons c cells ih =>
    obtain ⟨fuel, rfl⟩ := Nat.exists_eq_succ_of_ne_zero (Nat.ne_of_gt (Nat.zero_lt_of_lt hfuel))
    have hc : c.1 ≠ null := ne_null hnull h.1
    show Gives (findLoop X (fuel + 1) c.1) nodes _ nodes
    rw [findLoop, if_neg hc]
    refine (Gives.node h.1).bind ?_
    -- the loop ends at the first cell with the element, or at `NULL`
    by_cases hX : c.2 = X
    · rw [List.dropWhile_cons_of_neg (by simp [hX]), if_pos hX]
      exact Gives.pure _ _
    · rw [List.dropWhile_cons_of_pos (by simp [hX]), if_neg hX]
      exact ih h.2 (Nat.lt_of_succ_lt_succ hfuel)

/-- **`FindPrevious`** -/
theorem gives_findPrevious (h : nodes.Linked null ((P, w) :: cells)) (hnull : nodes null = none)
    (hfuel : cells.length < fuel) :
    Gives (findPreviousLoop X fuel P) nodes
      (endOf P (cells.takeWhile fun c => c.2 ≠ X)) nodes := by
  induction cells generalizing fuel P w with
  | nil =>
    obtain ⟨fuel, rfl⟩ := Nat.exists_eq_succ_of_ne_zero (Nat.ne_of_gt hfuel)
    exact (Gives.node h.1).bind rfl
  | cons c cells ih =>
    obtain ⟨fuel, rfl⟩ := Nat.exists_eq_succ_of_ne_zero (Nat.ne_of_gt (Nat.zero_lt_of_lt hfuel))
    have hc : c.1 ≠ null := ne_null hnull h.2.1
    rw [findPreviousLoop]
    refine (Gives.node h.1).bind ?_
    show Gives (if c.1 = null then _ else _) nodes _ nodes
    rw [if_neg hc]
    refine (Gives.node h.2.1).bind ?_
    by_cases hX : c.2 = X
    · rw [List.takeWhile_cons_of_neg (by simp [hX]), if_pos hX]
      exact Gives.pure _ _
    · rw [List.takeWhile_cons_of_pos (by simp [hX]), if_neg hX]
      exact ih h.2 (Nat.lt_of_succ_lt_succ hfuel)

/-- **`Insert`** puts a new cell behind a position. -/
theorem gives_insert (h : nodes.Linked null ((L, w) :: (before ++ after)))
    (hnull : nodes null = none) {b : Block} (hb : b.address ≠ null)
    (hunused : nodes b.address = none) (L' : UInt64) :
    ∃ nodes', Gives (insert X L' (endOf L before) b) nodes () nodes' ∧
      nodes'.Linked null ((L, w) :: (before ++ (b.address, X) :: after)) ∧
      ∀ a, a ≠ endOf L before → a ≠ b.address → nodes' a = nodes a := by
  obtain ⟨front, last, heq, hnode⟩ := exists_node h
  -- a block that `malloc` returns is not the node at the position
  have hne : endOf L before ≠ b.address := by
    intro heq
    rw [heq, hunused] at hnode
    cases hnode
  have hkeep : ∀ n : Node, Function.update nodes b.address (some n) (endOf L before) =
      some ⟨last, startOf null after⟩ := by
    intro n
    rw [Function.update_of_ne hne, hnode]
  rw [← List.cons_append, heq, List.append_assoc] at h
  refine ⟨Function.update (Function.update nodes b.address (some ⟨X, startOf null after⟩))
    (endOf L before) (some ⟨last, b.address⟩), ?_, ?_, ?_⟩
  · -- the statements one by one
    refine (Gives.malloc hb _).bind ?_
    refine (Gives.setElement (Function.update_self ..)).bind ?_
    rw [Function.update_idem]
    refine (Gives.node (hkeep _)).bind ?_
    refine (Gives.setNext (Function.update_self ..)).bind ?_
    rw [Function.update_idem]
    exact Gives.setNext (hkeep _)
  · rw [← List.cons_append, heq, List.append_assoc]
    exact h.insert hnull hunused
  · intro a hP hb'
    rw [Function.update_of_ne hP, Function.update_of_ne hb']

/-- **`Delete`** takes out the first cell with this element. -/
theorem gives_delete (h : nodes.Linked null ((L, w) :: cells)) (hnull : nodes null = none) :
    ∃ nodes', (∀ fuel, cells.length < fuel → Gives (delete fuel X L) nodes () nodes') ∧
      nodes'.Linked null ((L, w) :: cells.eraseP fun c => c.2 = X) ∧
      (∀ a ∈ cells.map Prod.fst, a ∉ (cells.eraseP fun c => c.2 = X).map Prod.fst →
        nodes' a = none) ∧
      ∀ a ∉ L :: cells.map Prod.fst, nodes' a = nodes a := by
  have hprevious : ∀ fuel, cells.length < fuel → Gives (findPreviousLoop X fuel L) nodes
      (endOf L (cells.takeWhile fun c => c.2 ≠ X)) nodes :=
    fun _ hfuel => gives_findPrevious h hnull hfuel
  -- `FindPrevious` splits the list in front of the first cell with the element
  obtain ⟨before, after, hsplit, hbefore, herase⟩ :
      ∃ before after, cells = before ++ after ∧
        before = cells.takeWhile (fun c => c.2 ≠ X) ∧
        (cells.eraseP fun c => c.2 = X) = before ++ after.tail := by
    refine ⟨_, _, (List.takeWhile_append_dropWhile (p := fun c => c.2 ≠ X)).symm, rfl, ?_⟩
    clear h hprevious
    induction cells with
    | nil => rfl
    | cons c cells ih =>
      by_cases hX : c.2 = X
      · simp [hX]
      · simp only [ne_eq, hX, not_false_eq_true, decide_true, decide_false, Bool.false_eq_true,
          List.eraseP_cons_of_neg, List.takeWhile_cons_of_pos, List.dropWhile_cons_of_pos,
          List.cons_append]
        exact congrArg _ ih
  rw [← hbefore] at hprevious
  rw [herase]
  subst hsplit
  obtain ⟨front, last, heq, hnode⟩ := exists_node h
  have hlast : Gives (isLast (endOf L before) L) nodes (startOf null after = null) nodes :=
    (Gives.node hnode).bind rfl
  cases after with
  | nil =>
    -- it is not in the list
    rw [List.tail_nil, List.append_nil]
    rw [List.append_nil] at h hprevious
    exact ⟨nodes, fun fuel hfuel => (hprevious fuel hfuel).bind (hlast.bind rfl), h,
      fun a ha hnot => absurd ha hnot, fun _ _ => rfl⟩
  | cons c after =>
    rw [← List.cons_append, heq] at h
    -- `P->Next` is bypassed and then freed
    have hc : nodes c.1 = some ⟨c.2, startOf null after⟩ := h.get
    rw [List.append_assoc] at h
    have hc' : c.1 ≠ null := ne_null hnull hc
    have hne : c.1 ≠ endOf L before := by
      have hnot : endOf L before ∉ (c :: after).map Prod.fst := (h.around hnull).2
      rw [List.map_cons, List.mem_cons, not_or] at hnot
      exact Ne.symm hnot.1
    refine ⟨Function.update (Function.update nodes (endOf L before)
      (some ⟨last, startOf null after⟩)) c.1 none, ?_, ?_, ?_, ?_⟩
    · intro fuel hfuel
      refine (hprevious fuel hfuel).bind (hlast.bind ?_)
      rw [show decide (startOf null (c :: after) = null) = false from decide_eq_false hc']
      refine (Gives.node hnode).bind ((Gives.node hc).bind ?_)
      exact (Gives.setNext hnode).bind (Gives.free hc' ((Function.update_of_ne hne ..).trans hc))
    · rw [List.tail_cons, ← List.cons_append, heq, List.append_assoc]
      exact h.bypass hnull
    · intro a ha hnot
      simp only [List.tail_cons, List.map_append, List.map_cons, List.mem_append,
        List.mem_cons] at ha hnot
      obtain rfl : a = c.1 := by tauto
      exact Function.update_self ..
    · intro a ha
      have hend : endOf L before ∈ L :: before.map Prod.fst := endOf_mem
      simp only [List.map_append, List.map_cons, List.mem_append, List.mem_cons] at ha hend
      rw [Function.update_of_ne (by tauto), Function.update_of_ne]
      rintro rfl
      tauto

end Functions

/-! ## One call -/

variable {nodes : Nodes} {S S' : Lists} {call : Call} {value : Value}

/-- A node behind a position, in a list of the ones in memory -/
theorem Represents.node_at (h : Represents nodes S) {L : UInt64}
    {before after : List (UInt64 × Int32)} (hL : S.live L = some (before ++ after)) :
    ∃ last, nodes (endOf L before) = some ⟨last, startOf null after⟩ := by
  obtain ⟨w, hlinked⟩ := h.linked L _ hL
  obtain ⟨-, last, -, hnode⟩ := exists_node hlinked
  exact ⟨last, hnode⟩

/-- **A new header** -/
theorem Represents.header (h : Represents nodes S) {b : Block} (hb : S.Unused b) :
    Represents (Function.update nodes b.address (some ⟨b.node.value, null⟩))
      (S.set b.address []) := by
  have hnone := h.unused hb
  apply h.set (w := b.node.value)
  · rw [Function.update_of_ne hb.1.symm, h.null_none]
  · exact ⟨Function.update_self .., trivial⟩
  · intro a ha
    obtain rfl := List.mem_singleton.mp ha
    exact .inr hnone
  · exact fun a ha => absurd (Lists.header_mem ha) (hb.2 _)
  · intro a _ ha
    exact Function.update_of_ne (fun heq => ha (List.mem_singleton.mpr heq)) ..

/-- **`DeleteList`** empties a list. -/
theorem Represents.deleteList (h : Represents nodes S) {L : UInt64}
    {cells : List (UInt64 × Int32)} (hL : S.live L = some cells) :
    ∃ nodes', (∀ fuel, cells.length < fuel → Gives (deleteList fuel L) nodes () nodes') ∧
      Represents nodes' (S.set L []) := by
  obtain ⟨w, hlinked⟩ := h.linked L cells hL
  have hheader : L ≠ null := ne_null h.null_none hlinked.1
  have hnot : L ∉ cells.map Prod.fst := hlinked.first_notMem h.null_none
  refine ⟨_, fun fuel hfuel => gives_deleteList hlinked h.null_none hfuel, ?_⟩
  have hnodes := Lists.nodesOf_eq hL
  -- the header is the only node that is left of it
  apply h.set (w := w)
  · have hnull : null ∉ cells.map Prod.fst := fun hmem =>
      hlinked.2.allocated hmem h.null_none
    rw [wipe_of_not_mem hnull, Function.update_of_ne hheader.symm, h.null_none]
  · exact ⟨(wipe_of_not_mem hnot).trans (Function.update_self ..), trivial⟩
  · intro a ha
    obtain rfl := List.mem_singleton.mp ha
    rw [hnodes]
    exact .inl (List.mem_cons_self ..)
  · intro a ha hne
    rw [hnodes] at ha
    exact wipe_of_mem (List.mem_of_ne_of_mem (List.ne_of_not_mem_cons hne) ha)
  · intro a ha hne
    rw [hnodes, List.mem_cons, not_or] at ha
    rw [wipe_of_not_mem ha.2, Function.update_of_ne ha.1]

/-- **The `DeleteList` that is not compiled** reads a cell that it has freed, unless the list is
    empty. -/
theorem incorrectDeleteList_iff (h : Represents nodes S) {L : UInt64}
    {cells : List (UInt64 × Int32)} (hL : S.live L = some cells) (fuel : Nat) :
    (∃ nodes', Gives (incorrectDeleteList (fuel + 1) L) nodes () nodes') ↔ cells = [] := by
  obtain ⟨w, hlinked⟩ := h.linked L cells hL
  have hleads : ∀ r, incorrectDeleteLoop (fuel + 1) (startOf null cells)
      (Function.update nodes L (some ⟨w, null⟩)) = r →
      incorrectDeleteList (fuel + 1) L nodes = r := by
    rintro r rfl
    have hnode : node L nodes = .ok (_, nodes) := Gives.node hlinked.1
    have hnext : setNext L null nodes = .ok ((), _) := Gives.setNext hlinked.1
    show (node L nodes >>= fun e => (setNext L null e.2 >>= fun e' =>
      incorrectDeleteLoop (fuel + 1) e.1.next e'.2)) = _
    rw [hnode]
    show (setNext L null nodes >>= fun e' =>
      incorrectDeleteLoop (fuel + 1) (startOf null cells) e'.2) = _
    rw [hnext]
    rfl
  cases cells with
  -- its loop is not entered
  | nil => exact iff_of_true ⟨_, hleads _ rfl⟩ rfl
  | cons c cells =>
    refine iff_of_false ?_ (List.cons_ne_nil _ _)
    rintro ⟨nodes', hgives⟩
    have hheader : L ≠ null := ne_null h.null_none hlinked.1
    have hnot : L ∉ (c :: cells).map Prod.fst :=
      hlinked.first_notMem h.null_none
    have hcells : Linked (Function.update nodes L (some ⟨w, null⟩)) null (c :: cells) :=
      hlinked.2.congr fun a ha => Function.update_of_ne (ne_of_mem_of_not_mem ha hnot) ..
    have hnull : Function.update nodes L (some ⟨w, null⟩) null = none := by
      rw [Function.update_of_ne hheader.symm, h.null_none]
    have herror := hleads _ (incorrectDeleteLoop_undefined hcells hnull)
    cases herror.symm.trans hgives

/-- **`Insert`** -/
theorem Represents.insert (h : Represents nodes S) {L : UInt64}
    {before after : List (UInt64 × Int32)} (hL : S.live L = some (before ++ after)) {b : Block}
    (hb : S.Unused b) (X : Int32) (L' : UInt64) :
    ∃ nodes', Gives (insert X L' (endOf L before) b) nodes () nodes' ∧
      Represents nodes' (S.set L (before ++ (b.address, X) :: after)) := by
  obtain ⟨w, hlinked⟩ := h.linked L _ hL
  have hnone := h.unused hb
  have hnodes := Lists.nodesOf_eq hL
  obtain ⟨nodes', hgives, hlinked', hsame⟩ :=
    gives_insert (X := X) hlinked h.null_none hb.1 hnone L'
  have hend : endOf L before ∈ S.nodesOf L := by
    have hmem : endOf L before ∈ L :: before.map Prod.fst := endOf_mem
    rw [hnodes, List.map_append, ← List.cons_append]
    exact List.mem_append_left _ hmem
  -- the nodes of the list afterwards
  have hmem : ∀ a, a ∈ L :: (before ++ (b.address, X) :: after).map Prod.fst ↔
      a = b.address ∨ a ∈ S.nodesOf L := by
    intro a
    rw [hnodes]
    simp only [List.map_append, List.map_cons, List.mem_cons, List.mem_append]
    tauto
  refine ⟨nodes', hgives, h.set ?_ hlinked' ?_ ?_ ?_⟩
  · rw [hsame null ?_ hb.1.symm, h.null_none]
    rintro heq
    exact h.allocated (heq ▸ hend) h.null_none
  · intro a ha
    rcases (hmem a).mp ha with rfl | hold
    · exact .inr hnone
    · exact .inl hold
  · exact fun a ha hne => absurd ((hmem a).mpr (.inr ha)) hne
  · intro a ha hne
    rw [hmem, not_or] at hne
    exact hsame a (fun heq => ha (heq ▸ hend)) hne.1

/-- **`Delete`** -/
theorem Represents.delete (h : Represents nodes S) {L : UInt64}
    {cells : List (UInt64 × Int32)} (hL : S.live L = some cells) (X : Int32) :
    ∃ nodes', (∀ fuel, cells.length < fuel → Gives (delete fuel X L) nodes () nodes') ∧
      Represents nodes' (S.set L (cells.eraseP fun c => c.2 = X)) := by
  obtain ⟨w, hlinked⟩ := h.linked L cells hL
  have hnodes := Lists.nodesOf_eq hL
  obtain ⟨nodes', hgives, hlinked', hgone, hsame⟩ :=
    gives_delete (X := X) hlinked h.null_none
  have hsub : ∀ a ∈ (cells.eraseP fun c => c.2 = X).map Prod.fst, a ∈ cells.map Prod.fst := by
    intro a ha
    obtain ⟨c, hc, rfl⟩ := List.mem_map.mp ha
    exact List.mem_map_of_mem (List.mem_of_mem_eraseP hc)
  refine ⟨nodes', hgives, h.set ?_ hlinked' ?_ ?_ ?_⟩
  · rw [hsame, h.null_none]
    intro hmem
    exact hlinked.allocated hmem h.null_none
  · intro a ha
    rw [hnodes]
    refine .inl ?_
    rcases List.mem_cons.mp ha with rfl | hmem
    · exact List.mem_cons_self ..
    · exact List.mem_cons_of_mem _ (hsub a hmem)
  · intro a ha hne
    rw [hnodes] at ha
    rw [List.mem_cons, not_or] at hne
    exact hgone a (List.mem_of_ne_of_mem hne.1 ha) hne.2
  · intro a ha _
    rw [hnodes] at ha
    exact hsame a ha

/-- **One call** is defined and returns what it means, when its loops are given time for the
    longest list. -/
theorem call_refines (h : Represents nodes S) (hcall : Meaning S call value S') :
    ∃ n nodes', (∀ fuel, n ≤ fuel → Gives (call.run fuel) nodes value nodes') ∧
      Represents nodes' S' := by
  cases hcall with
  | makeFirst hb =>
    refine ⟨0, _, fun fuel _ => ?_, h.header hb⟩
    exact (gives_makeEmpty_null hb.1).bind (Gives.pure _ _)
  | @makeAnother L cells b hL hb =>
    obtain ⟨w, hlinked⟩ := h.linked L _ hL
    obtain ⟨nodes', hdelete, hrep⟩ := h.deleteList hL
    refine ⟨cells.length + 1, _, fun fuel hfuel => ?_, hrep.header hb⟩
    have hgives := gives_makeEmpty (ne_null h.null_none hlinked.1) (hdelete fuel hfuel) hb.1
    exact hgives.bind (Gives.pure _ _)
  | @isEmpty L cells hL =>
    obtain ⟨w, hlinked⟩ := h.linked L _ hL
    refine ⟨0, nodes, fun fuel _ => ?_, h⟩
    have hgives : Gives (isEmpty L) nodes (decide (startOf null cells = null)) nodes :=
      (Gives.node hlinked.1).bind (Gives.pure _ _)
    rw [decide_startOf hlinked.2 h.null_none] at hgives
    exact hgives.bind (Gives.pure _ _)
  | @isLast L L' before after hL =>
    obtain ⟨w, hlinked⟩ := h.linked L _ hL
    obtain ⟨last, hnode⟩ := h.node_at hL
    rw [← List.cons_append] at hlinked
    have hafter : nodes.Linked null after := (linked_append.mp hlinked).2
    refine ⟨0, nodes, fun fuel _ => ?_, h⟩
    have hgives : Gives (isLast (endOf L before) L') nodes (decide (startOf null after = null))
        nodes := (Gives.node hnode).bind (Gives.pure _ _)
    rw [decide_startOf hafter h.null_none] at hgives
    exact hgives.bind (Gives.pure _ _)
  | @find L cells X hL =>
    obtain ⟨w, hlinked⟩ := h.linked L _ hL
    refine ⟨cells.length + 1, nodes, fun fuel hfuel => ?_, h⟩
    have hloop := gives_findLoop (X := X) hlinked.2 h.null_none hfuel
    exact ((Gives.node hlinked.1).bind hloop).bind (Gives.pure _ _)
  | delete X hL =>
    obtain ⟨nodes', hgives, hrep⟩ := h.delete hL X
    exact ⟨_, nodes', fun fuel hfuel => (hgives fuel hfuel).bind (Gives.pure _ _), hrep⟩
  | @findPrevious L cells X hL =>
    obtain ⟨w, hlinked⟩ := h.linked L _ hL
    refine ⟨cells.length + 1, nodes, fun fuel hfuel => ?_, h⟩
    exact (gives_findPrevious (X := X) hlinked h.null_none hfuel).bind (Gives.pure _ _)
  | insert X hL hb =>
    obtain ⟨nodes', hgives, hrep⟩ := h.insert hL hb X _
    exact ⟨0, nodes', fun fuel _ => hgives.bind (Gives.pure _ _), hrep⟩
  | deleteList hL =>
    obtain ⟨nodes', hgives, hrep⟩ := h.deleteList hL
    exact ⟨_, nodes', fun fuel hfuel => (hgives fuel hfuel).bind (Gives.pure _ _), hrep⟩
  | header L => exact ⟨0, nodes, fun _ _ => rfl, h⟩
  | @first L cells hL =>
    obtain ⟨w, hlinked⟩ := h.linked L _ hL
    have hgives : Gives (first L) nodes (startOf null cells) nodes :=
      (Gives.node hlinked.1).bind (Gives.pure _ _)
    exact ⟨0, nodes, fun _ _ => hgives.bind (Gives.pure _ _), h⟩
  | @advance L before after hL =>
    obtain ⟨last, hnode⟩ := h.node_at hL
    have hgives : Gives (advance (endOf L before)) nodes (startOf null after) nodes :=
      (Gives.node hnode).bind (Gives.pure _ _)
    exact ⟨0, nodes, fun _ _ => hgives.bind (Gives.pure _ _), h⟩
  | @retrieve L P X before after hL =>
    obtain ⟨w, hlinked⟩ := h.linked L _ hL
    rw [← List.cons_append] at hlinked
    have hnode : nodes P = some ⟨X, startOf null after⟩ := hlinked.get
    have hgives : Gives (retrieve P) nodes X nodes := (Gives.node hnode).bind (Gives.pure _ _)
    exact ⟨0, nodes, fun _ _ => hgives.bind (Gives.pure _ _), h⟩

/-! ## All sequences of calls -/

/-- Calls from lists that are in memory already -/
theorem calls_refine {calls : List Call} {values : List Value} (h : Represents nodes S)
    (hcalls : Meanings S calls values S') :
    ∃ n nodes', (∀ fuel, n ≤ fuel → Gives (run fuel calls) nodes values nodes') ∧
      Represents nodes' S' := by
  induction hcalls generalizing nodes with
  | nil S => exact ⟨0, nodes, fun _ _ => rfl, h⟩
  | cons hcall hrest ih =>
    obtain ⟨n₁, nodes₁, hfirst, h₁⟩ := call_refines h hcall
    obtain ⟨n₂, nodes₂, hlater, h₂⟩ := ih h₁
    -- time for the first call and for the others
    refine ⟨max n₁ n₂, nodes₂, fun fuel hfuel => ?_, h₂⟩
    have hcall' := hfirst fuel (Nat.le_trans (Nat.le_max_left ..) hfuel)
    have hrest' := hlater fuel (Nat.le_trans (Nat.le_max_right ..) hfuel)
    exact hcall'.bind (hrest'.bind (Gives.pure _ _))

/-- **The linked lists are lists**, over every sequence of calls and however the lists share the
    memory: no call reads or frees a node that has been freed, every loop comes to its end, each
    call returns what it means, and afterwards the nodes allocated are those of the lists. -/
theorem lists_refine {calls : List Call} {values : List Value}
    (hcalls : Meanings .empty calls values S) :
    ∃ n nodes, (∀ fuel, n ≤ fuel → run fuel calls (fun _ => none) = .ok (values, nodes)) ∧
      Represents nodes S :=
  calls_refine .empty hcalls

/-- A block whose address is none of the nodes is unused. -/
theorem Lists.Unused.set {b : Block} (h : S.Unused b) {L : UInt64}
    {cells : List (UInt64 × Int32)} (hb : b.address ∉ L :: cells.map Prod.fst) :
    (S.set L cells).Unused b := by
  refine ⟨h.1, fun L' => ?_⟩
  by_cases hne : L' = L
  · rwa [hne, nodesOf_set_self]
  · rw [nodesOf_set_ne hne]
    exact h.2 L'

/-- Two lists, with headers at 16 and 64. -/
def twoLists (first second : List (UInt64 × Int32)) : Lists :=
  (Lists.empty.set 16 first).set 64 second

section TwoLists

variable {first second : List (UInt64 × Int32)}

theorem twoLists_live_first : (twoLists first second).live 16 = some first :=
  (Lists.live_set_ne (by decide)).trans Lists.live_set_self

theorem twoLists_live_second : (twoLists first second).live 64 = some second :=
  Lists.live_set_self

theorem twoLists_set_first (cells : List (UInt64 × Int32)) :
    (twoLists first second).set 16 cells = twoLists cells second :=
  congrArg Lists.mk ((Function.update_comm (by decide) ..).trans
    (congrArg (Function.update · _ _) (Function.update_idem ..)))

theorem twoLists_set_second (cells : List (UInt64 × Int32)) :
    (twoLists first second).set 64 cells = twoLists first cells :=
  congrArg Lists.mk (Function.update_idem ..)

theorem twoLists_unused {b : Block} (hb : b.address ≠ null)
    (hfirst : b.address ∉ 16 :: first.map Prod.fst)
    (hsecond : b.address ∉ 64 :: second.map Prod.fst) : (twoLists first second).Unused b :=
  Lists.Unused.set (Lists.Unused.set ⟨hb, fun _ => List.not_mem_nil⟩ hfirst) hsecond

end TwoLists

/-- Two lists are filled; 7 is deleted from the first, and its cell goes to the second, which is
    searched and read; the first is emptied. -/
def twoListCalls : List Call :=
  [.makeEmpty null ⟨16, ⟨0, 0⟩⟩, .makeEmpty null ⟨64, ⟨0, 0⟩⟩, .insert 7 16 16 ⟨32, ⟨0, 0⟩⟩,
    .insert 8 16 32 ⟨48, ⟨0, 0⟩⟩, .insert 9 64 64 ⟨80, ⟨0, 0⟩⟩, .delete 7 16,
    .insert 5 64 80 ⟨32, ⟨0, 0⟩⟩, .find 5 64, .retrieve 80, .deleteList 16, .isEmpty 16]

theorem lists_refine_two :
    ∃ n nodes, (∀ fuel, n ≤ fuel → run fuel twoListCalls (fun _ => none) =
        .ok ([.position 16, .position 64, .void, .void, .void, .void, .void, .position 32,
          .element 9, .void, .truth true], nodes)) ∧
      Represents nodes (twoLists [] [(80, 9), (32, 5)]) := by
  have hnone : ∀ b : Block, b.address ≠ null → Lists.empty.Unused b :=
    fun b hb => ⟨hb, fun _ => List.not_mem_nil⟩
  have hsecond : Meaning (Lists.empty.set 16 []) (.makeEmpty null ⟨64, ⟨0, 0⟩⟩) (.position 64)
      (twoLists [] []) :=
    .makeFirst ((hnone _ (by decide)).set (by decide))
  have hseven : Meaning (twoLists [] []) (.insert 7 16 16 ⟨32, ⟨0, 0⟩⟩) .void
      (twoLists [(32, 7)] []) :=
    twoLists_set_first [(32, 7)] ▸ @Meaning.insert _ 16 16 [] [] ⟨32, ⟨0, 0⟩⟩ 7
      twoLists_live_first (twoLists_unused (by decide) (by decide) (by decide))
  have height : Meaning (twoLists [(32, 7)] []) (.insert 8 16 32 ⟨48, ⟨0, 0⟩⟩) .void
      (twoLists [(32, 7), (48, 8)] []) :=
    twoLists_set_first [(32, 7), (48, 8)] ▸ @Meaning.insert _ 16 16 [(32, 7)] []
      ⟨48, ⟨0, 0⟩⟩ 8 twoLists_live_first (twoLists_unused (by decide) (by decide) (by decide))
  have hnine : Meaning (twoLists [(32, 7), (48, 8)] []) (.insert 9 64 64 ⟨80, ⟨0, 0⟩⟩) .void
      (twoLists [(32, 7), (48, 8)] [(80, 9)]) :=
    twoLists_set_second [(80, 9)] ▸ @Meaning.insert _ 64 64 [] [] ⟨80, ⟨0, 0⟩⟩ 9
      twoLists_live_second (twoLists_unused (by decide) (by decide) (by decide))
  have hdeleted : Meaning (twoLists [(32, 7), (48, 8)] [(80, 9)]) (.delete 7 16) .void
      (twoLists [(48, 8)] [(80, 9)]) :=
    twoLists_set_first [(48, 8)] ▸ @Meaning.delete _ 16 [(32, 7), (48, 8)] 7 twoLists_live_first
  -- the cell that has been freed is given out again
  have hfive : Meaning (twoLists [(48, 8)] [(80, 9)]) (.insert 5 64 80 ⟨32, ⟨0, 0⟩⟩) .void
      (twoLists [(48, 8)] [(80, 9), (32, 5)]) :=
    twoLists_set_second [(80, 9), (32, 5)] ▸ @Meaning.insert _ 64 64 [(80, 9)] []
      ⟨32, ⟨0, 0⟩⟩ 5 twoLists_live_second (twoLists_unused (by decide) (by decide) (by decide))
  have hemptied : Meaning (twoLists [(48, 8)] [(80, 9), (32, 5)]) (.deleteList 16) .void
      (twoLists [] [(80, 9), (32, 5)]) :=
    twoLists_set_first [] ▸ @Meaning.deleteList _ 16 [(48, 8)] twoLists_live_first
  exact lists_refine
    (.cons (.makeFirst (hnone _ (by decide))) (.cons hsecond (.cons hseven (.cons height
      (.cons hnine (.cons hdeleted (.cons hfive
        (.cons (@Meaning.find _ 64 [(80, 9), (32, 5)] 5 twoLists_live_second)
          (.cons (@Meaning.retrieve _ 64 80 9 [] [(32, 5)] twoLists_live_second)
            (.cons hemptied
              (.cons (@Meaning.isEmpty _ 16 [] twoLists_live_first) (.nil _))))))))))))

end TaskSystem.LinkedList
