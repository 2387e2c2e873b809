import TaskSystem.Benchmarks.PthreadInproc
import TaskSystem.Library.CellRing

/-!
# Nothing Added Is Lost

The list has one element for each round of each thread, in every interleaving, and its last
position is where the next element goes.

## Contents

- `Adder.added`, `Point.inside`, `HoldsAt`: what a thread has done, and what it relies on
- `State.Adding`: the list while the threads add to it; `Adding.addProc`, `Adding.mainStep`
- `State.Rounds`: how far the threads and `main` have got
- `inproc_counts`: all runs
- `State.rank`, `inproc_completes`: every run comes to its end
-/

namespace TaskSystem.PthreadInproc

open Library Library.CellRing Library.Heap LinkedList

variable {par : Parameters} {s s' : State} {k : Nat} {t t' : Adder} {w : Int32}
  {cells cells' : List (UInt64 × Int32)} {b : Block}

/-- Between `pthread_mutex_lock` and `pthread_mutex_unlock`. -/
def Point.inside : Point → Bool
  | .loop | .lock | .exited => false
  | _ => true

/-- The cell that a thread has allocated and not put into the list. -/
def Point.newCell : Point → Option UInt64
  | .element _ TmpCell | .next _ TmpCell | .link _ TmpCell => some TmpCell
  | _ => none

/-- How many elements a thread has put into the list. -/
def Adder.added (t : Adder) : Nat :=
  match t.point with
  | .advance | .unlock => t.i + 1
  | _ => t.i

/-- What the thread that holds the mutex relies on, when the list has these cells. -/
def HoldsAt (par : Parameters) (s : State) (cells : List (UInt64 × Int32)) : Point → Prop
  | .alloc | .unlock => s.pos = endOf s.list cells
  | .element P TmpCell => P = endOf s.list cells ∧ s.pos = P ∧
      TmpCell ∉ s.list :: cells.map Prod.fst ∧ TmpCell ≠ null ∧ ∃ n, s.nodes TmpCell = some n
  | .next P TmpCell => P = endOf s.list cells ∧ s.pos = P ∧
      TmpCell ∉ s.list :: cells.map Prod.fst ∧ TmpCell ≠ null ∧
        ∃ Q, s.nodes TmpCell = some ⟨par.updateSize, Q⟩
  | .link P TmpCell => P = endOf s.list cells ∧ s.pos = P ∧
      TmpCell ∉ s.list :: cells.map Prod.fst ∧ TmpCell ≠ null ∧
        s.nodes TmpCell = some ⟨par.updateSize, null⟩
  | .advance => ∃ before c, cells = before ++ [c] ∧ s.pos = endOf s.list before
  | .loop | .lock | .exited => True

/-- **The list while the threads add to it**: it has their elements, and no node is in memory
    that is not in it or about to be. -/
structure State.Adding (par : Parameters) (s : State) (w : Int32)
    (cells : List (UInt64 × Int32)) : Prop where
  null_none : s.nodes null = none
  linked : s.nodes.Linked null ((s.list, w) :: cells)
  elements : ∀ c ∈ cells, c.2 = par.updateSize
  length_eq : cells.length = (s.threads.map Adder.added).sum
  free : s.holder = none → s.pos = endOf s.list cells
  bounded : ∀ k, s.holder = some k → k < s.threads.length
  inside : ∀ (k : Nat) (t : Adder), s.threads[k]? = some t →
    (t.point.inside = true ↔ s.holder = some k)
  holds : ∀ (k : Nat) (t : Adder), s.threads[k]? = some t → HoldsAt par s cells t.point
  owned : ∀ a, s.nodes a ≠ none → a ∈ s.list :: cells.map Prod.fst ∨
    ∃ (k : Nat) (t : Adder), s.threads[k]? = some t ∧ t.point.newCell = some a

/-- A thread relies on the list and its nodes only. -/
theorem HoldsAt.congr {p : Point} (h : HoldsAt par s cells p) (hnodes : s'.nodes = s.nodes)
    (hlist : s'.list = s.list) (hpos : s'.pos = s.pos) : HoldsAt par s' cells p := by
  cases p with
  | loop | lock | exited => trivial
  | alloc | element | next | link | advance | unlock =>
    simp only [HoldsAt, hnodes, hlist, hpos]
    exact h

/-- Outside its critical section a thread relies on nothing. -/
theorem holdsAt_of_outside {p : Point} (h : p.inside = false) : HoldsAt par s cells p := by
  cases p with
  | loop | lock | exited => trivial
  | alloc | element | next | link | advance | unlock => cases h

theorem newCell_of_outside {p : Point} (h : p.inside = false) : p.newCell = none := by
  cases p with
  | loop | lock | exited => rfl
  | alloc | element | next | link | advance | unlock => cases h

/-- Only inside its critical section a thread has a new cell. -/
theorem inside_of_newCell {p : Point} {a : UInt64} (h : p.newCell = some a) : p.inside = true := by
  cases p with
  | loop | lock | alloc | advance | unlock | exited => cases h
  | element | next | link => rfl

namespace State.Adding

/-- **Outside the critical section** a thread leaves everything as it is. -/
theorem outside (h : s.Adding par w cells) (ht : s.threads[k]? = some t) {p : Point}
    (hin : t.point.inside = false) (hin' : p.inside = false)
    (hadded : Adder.added { t with point := p } = t.added) :
    (s.goto k t p).Adding par w cells where
  null_none := h.null_none
  linked := h.linked
  elements := h.elements
  length_eq := by
    have hsum := tally_set ht Adder.added { t with point := p }
    rw [tally, tally] at hsum
    rw [h.length_eq]
    simp only [goto]
    omega
  free := h.free
  bounded j hj := Nat.lt_of_lt_of_eq (h.bounded j hj) List.length_set.symm
  inside j u hu := by
    rcases of_getElem?_set hu with ⟨rfl, rfl⟩ | ⟨-, hu⟩
    -- the thread did not have the mutex before, and has not got it
    · have hold := h.inside j t ht
      rw [hin] at hold
      show p.inside = true ↔ s.holder = some j
      rw [hin']
      exact hold
    · exact h.inside j u hu
  holds j u hu := by
    rcases of_getElem?_set hu with ⟨rfl, rfl⟩ | ⟨-, hu⟩
    · exact holdsAt_of_outside hin'
    · exact (h.holds j u hu).congr rfl rfl rfl
  owned a ha := by
    refine (h.owned a ha).imp_right ?_
    rintro ⟨j, u, hu, hcell⟩
    refine ⟨j, u, ?_, hcell⟩
    -- the owner of a new cell is inside, so it is another thread
    have hj : j ≠ k := by
      rintro rfl
      obtain rfl := Option.some.inj (ht.symm.trans hu)
      rw [newCell_of_outside hin] at hcell
      cases hcell
    exact (List.getElem?_set_ne (Ne.symm hj)).trans hu

/-- **In its critical section**, or about to enter it, a thread is alone. -/
theorem alone (h : s.Adding par w cells) (ht : s.threads[k]? = some t)
    (hbefore : s.holder = none ∨ s.holder = some k) (hthreads : s'.threads = s.threads.set k t')
    (hholder : s'.holder = if t'.point.inside then some k else none)
    (hnull : s'.nodes null = none) (hlinked : s'.nodes.Linked null ((s'.list, w) :: cells'))
    (helements : ∀ c ∈ cells', c.2 = par.updateSize)
    (hlength : cells'.length + t.added = cells.length + t'.added)
    (hfree : s'.holder = none → s'.pos = endOf s'.list cells')
    (hholds : HoldsAt par s' cells' t'.point)
    (howned : ∀ a, s'.nodes a ≠ none →
      a ∈ s'.list :: cells'.map Prod.fst ∨ t'.point.newCell = some a) :
    s'.Adding par w cells' := by
  -- the other threads are outside
  have hothers : ∀ j u, j ≠ k → s.threads[j]? = some u → u.point.inside = false := by
    intro j u hj hu
    cases hin : u.point.inside with
    | false => rfl
    | true =>
      have hheld := (h.inside j u hu).mp hin
      rcases hbefore with hnone | hself
      · cases hnone.symm.trans hheld
      · exact absurd (Option.some.inj (hself.symm.trans hheld)).symm hj
  have hself : s'.threads[k]? = some t' := by
    rw [hthreads]
    exact List.getElem?_set_self (List.getElem?_eq_some_iff.mp ht).1
  refine ⟨hnull, hlinked, helements, ?_, hfree, ?_, ?_, ?_, ?_⟩
  -- what the list has gained is what this thread has added
  · have hsum := tally_set ht Adder.added t'
    rw [tally, tally] at hsum
    have hold := h.length_eq
    rw [hthreads]
    omega
  · intro j hj
    rw [hholder] at hj
    split at hj
    · obtain rfl := Option.some.inj hj
      exact (List.getElem?_eq_some_iff.mp hself).1
    · cases hj
  -- after the step too nobody else has the mutex
  · intro j u hu
    rw [hthreads] at hu
    rcases of_getElem?_set hu with ⟨rfl, rfl⟩ | ⟨hj, hu⟩
    · rw [hholder]
      cases u.point.inside <;> simp
    · rw [hothers j u hj hu, hholder]
      refine iff_of_false Bool.false_ne_true fun heq => hj ?_
      split at heq
      · exact (Option.some.inj heq).symm
      · cases heq
  · intro j u hu
    rw [hthreads] at hu
    rcases of_getElem?_set hu with ⟨rfl, rfl⟩ | ⟨hj, hu⟩
    · exact hholds
    · exact holdsAt_of_outside (hothers j u hj hu)
  · exact fun a ha => (howned a ha).imp_right fun hcell => ⟨k, t', hself, hcell⟩

/-- Only the list, its nodes, the mutex and the threads matter. -/
theorem congr (h : s.Adding par w cells) (hnodes : s'.nodes = s.nodes) (hlist : s'.list = s.list)
    (hpos : s'.pos = s.pos) (hholder : s'.holder = s.holder) (hthreads : s'.threads = s.threads) :
    s'.Adding par w cells where
  null_none := by rw [hnodes]; exact h.null_none
  linked := by rw [hnodes, hlist]; exact h.linked
  elements := h.elements
  length_eq := by rw [hthreads]; exact h.length_eq
  free := by rw [hholder, hpos, hlist]; exact h.free
  bounded := by rw [hholder, hthreads]; exact h.bounded
  inside := by rw [hthreads, hholder]; exact h.inside
  holds k t ht := by
    rw [hthreads] at ht
    exact (h.holds k t ht).congr hnodes hlist hpos
  owned := by rw [hnodes, hlist, hthreads]; exact h.owned

/-- An access that is defined -/
theorem access_eq {α : Type} {p : ListM α} {a : α} {nodes : Nodes} {point : α → Point}
    (hp : Gives p s.nodes a nodes) :
    s.access k t p point = some { s.goto k t (point a) with nodes } := by
  have hp : p s.nodes = .ok (a, nodes) := hp
  rw [access, hp]

/-- A node in memory is one of the list, or the cell of the thread in the critical section. -/
theorem owned_of_inside (h : s.Adding par w cells) (ht : s.threads[k]? = some t)
    (hin : t.point.inside = true) {a : UInt64} (ha : s.nodes a ≠ none) :
    a ∈ s.list :: cells.map Prod.fst ∨ t.point.newCell = some a := by
  refine (h.owned a ha).imp_right ?_
  rintro ⟨j, u, hu, hcell⟩
  have hheld := (h.inside j u hu).mp (inside_of_newCell hcell)
  obtain rfl := Option.some.inj (((h.inside k t ht).mp hin).symm.trans hheld)
  obtain rfl := Option.some.inj (ht.symm.trans hu)
  exact hcell

/-- **A thread fills in its new cell.** -/
theorem write (h : s.Adding par w cells) (ht : s.threads[k]? = some t)
    (hin : t.point.inside = true) {TmpCell : UInt64} {n : Node} {p : Point}
    (hnot : TmpCell ∉ s.list :: cells.map Prod.fst) (hnull : TmpCell ≠ null)
    (hcell : t.point.newCell = none ∨ t.point.newCell = some TmpCell)
    (hp : p.newCell = some TmpCell) (hadded : Adder.added { t with point := p } = t.added)
    (hholds : HoldsAt par
      { s.goto k t p with nodes := Function.update s.nodes TmpCell (some n) } cells p) :
    Adding par { s.goto k t p with nodes := Function.update s.nodes TmpCell (some n) } w cells := by
  have hheld := (h.inside k t ht).mp hin
  have hin' : p.inside = true := inside_of_newCell hp
  refine h.alone ht (.inr hheld) rfl ?_ ?_ ?_ h.elements ?_ ?_ hholds ?_
  · rw [if_pos hin']
    exact hheld
  · exact (Function.update_of_ne hnull.symm ..).trans h.null_none
  -- the new cell is not of the list, which therefore does not see the store
  · exact h.linked.congr fun a ha => Function.update_of_ne (ne_of_mem_of_not_mem ha hnot) ..
  · rw [hadded]
  · exact fun hfree => by cases hheld.symm.trans hfree
  · intro a ha
    -- a node other than `TmpCell` was there before, and was of the list
    by_cases haT : a = TmpCell
    · exact .inr (hp.trans (congrArg some haT.symm))
    · have ha : s.nodes a ≠ none := by rwa [← Function.update_of_ne haT (some n) s.nodes]
      refine .inl ((h.owned_of_inside ht hin ha).resolve_right fun hold => ?_)
      rcases hcell with hnone | hsame
      · cases hnone.symm.trans hold
      · exact haT (Option.some.inj (hold.symm.trans hsame))

/-- **`malloc`** returns a cell outside the list, or ends the process. -/
theorem alloc (h : s.Adding par w cells) (ht : s.threads[k]? = some t) (hpoint : t.point = .alloc)
    (hb : b.address ≠ null → s.nodes b.address = none)
    (hs : s.addProc par b k t = some s') : s'.Adding par w cells := by
  have hpos := h.holds k t ht
  rw [hpoint] at hpos
  simp only [addProc, hpoint] at hs
  by_cases hnull : b.address = null
  -- `FatalError` ends the process; nothing else changes
  · simp only [access, malloc, hnull, if_true] at hs
    obtain rfl := Option.some.inj hs
    exact h.congr rfl rfl rfl rfl rfl
  · rw [access_eq (Gives.malloc hnull _)] at hs
    obtain rfl := Option.some.inj hs
    have hnot : b.address ∉ s.list :: cells.map Prod.fst := h.linked.ne_of_none (hb hnull)
    refine h.write ht (by rw [hpoint]; rfl) hnot hnull (.inl (by rw [hpoint]; rfl)) rfl ?_ ?_
    · simp only [Adder.added, hpoint]
    · exact ⟨hpos, rfl, hnot, hnull, _, Function.update_self ..⟩

/-- **`TmpCell->Element = X`** -/
theorem element (h : s.Adding par w cells) (ht : s.threads[k]? = some t) {P TmpCell : UInt64}
    (hpoint : t.point = .element P TmpCell) (hs : s.addProc par b k t = some s') :
    s'.Adding par w cells := by
  have hholds := h.holds k t ht
  rw [hpoint] at hholds
  obtain ⟨hP, hpos, hnot, hnull, n, hn⟩ := hholds
  simp only [addProc, hpoint] at hs
  rw [access_eq (Gives.setElement hn)] at hs
  obtain rfl := Option.some.inj hs
  refine h.write ht (by rw [hpoint]; rfl) hnot hnull (.inr (by rw [hpoint]; rfl)) rfl ?_ ?_
  · simp only [Adder.added, hpoint]
  · exact ⟨hP, hpos, hnot, hnull, _, Function.update_self ..⟩

/-- **`TmpCell->Next = P->Next`**, which is the end of the list -/
theorem next (h : s.Adding par w cells) (ht : s.threads[k]? = some t) {P TmpCell : UInt64}
    (hpoint : t.point = .next P TmpCell) (hs : s.addProc par b k t = some s') :
    s'.Adding par w cells := by
  have hholds := h.holds k t ht
  rw [hpoint] at hholds
  obtain ⟨rfl, hpos, hnot, hnull, Q, hn⟩ := hholds
  -- `P` is the last node of the list, so that `P->Next` can be read
  have hlinked := h.linked
  rw [← List.append_nil cells] at hlinked
  obtain ⟨-, last, -, hlast⟩ := exists_node hlinked
  simp only [addProc, hpoint] at hs
  rw [access_eq ((Gives.node hlast).bind (Gives.setNext hn))] at hs
  obtain rfl := Option.some.inj hs
  refine h.write ht (by rw [hpoint]; rfl) hnot hnull (.inr (by rw [hpoint]; rfl)) rfl ?_ ?_
  · simp only [Adder.added, hpoint]
  · exact ⟨rfl, hpos, hnot, hnull, Function.update_self ..⟩

/-- **`P->Next = TmpCell`** puts the cell at the end of the list. -/
theorem link (h : s.Adding par w cells) (ht : s.threads[k]? = some t) {P TmpCell : UInt64}
    (hpoint : t.point = .link P TmpCell) (hs : s.addProc par b k t = some s') :
    s'.Adding par w (cells ++ [(TmpCell, par.updateSize)]) := by
  have hin : t.point.inside = true := by
    rw [hpoint]
    rfl
  have hheld := (h.inside k t ht).mp hin
  have hholds := h.holds k t ht
  rw [hpoint] at hholds
  obtain ⟨rfl, hpos, hnot, hnull, hn⟩ := hholds
  -- `P` is the last node; the cell is not
  have hlinked := h.linked
  rw [← List.append_nil cells] at hlinked
  obtain ⟨front, last, heq, hlast⟩ := exists_node hlinked
  have hne : endOf s.list cells ≠ TmpCell := fun heq => hnot (heq ▸ endOf_mem)
  simp only [addProc, hpoint] at hs
  rw [access_eq (Gives.setNext hlast)] at hs
  obtain rfl := Option.some.inj hs
  -- the list without the new cell does not see its node
  have hwithout : Linked (Function.update s.nodes TmpCell none) null
      (front ++ [(endOf s.list cells, last)]) := by
    rw [← heq]
    exact h.linked.congr fun a ha => Function.update_of_ne (ne_of_mem_of_not_mem ha hnot) ..
  -- with its node and the link to it, it is the list and one cell more
  have hlinked' := hwithout.insert (x := par.updateSize)
    ((Function.update_of_ne hnull.symm ..).trans h.null_none) (Function.update_self ..)
  rw [Function.update_idem, startOf, ← hn, Function.update_eq_self] at hlinked'
  rw [List.append_cons, ← heq, List.cons_append] at hlinked'
  refine h.alone ht (.inr hheld) rfl hheld ?_ hlinked' ?_ ?_ ?_ ⟨cells, _, rfl, hpos⟩ ?_
  · refine (Function.update_of_ne ?_ ..).trans h.null_none
    exact fun heq => ne_null h.null_none hlast heq.symm
  · intro c hc
    rcases List.mem_append.mp hc with hold | hnew
    · exact h.elements c hold
    · obtain rfl := List.mem_singleton.mp hnew
      rfl
  · simp only [Adder.added, hpoint, List.length_append, List.length_singleton]
    omega
  · exact fun hfree => by cases hheld.symm.trans hfree
  · intro a ha
    refine .inl ?_
    simp only [List.map_append, List.map_cons, List.map_nil]
    rw [← List.cons_append, List.mem_append, List.mem_singleton]
    -- the store is to the old end, which was of the list before
    by_cases hend : a = endOf s.list cells
    · exact .inl (hend ▸ endOf_mem)
    · have ha : s.nodes a ≠ none := by
        rwa [← Function.update_of_ne hend (some ⟨last, TmpCell⟩) s.nodes]
      refine (h.owned_of_inside ht hin ha).imp_right fun hcell => ?_
      rw [hpoint] at hcell
      exact (Option.some.inj hcell).symm

/-- **`pos = Advance(pos)`** leads to the new end of the list. -/
theorem advance (h : s.Adding par w cells) (ht : s.threads[k]? = some t)
    (hpoint : t.point = .advance) (hs : s.addProc par b k t = some s') : s'.Adding par w cells := by
  have hin : t.point.inside = true := by
    rw [hpoint]
    rfl
  have hheld := (h.inside k t ht).mp hin
  have hholds := h.holds k t ht
  rw [hpoint] at hholds
  obtain ⟨before, c, rfl, hpos⟩ := hholds
  -- `pos` still stands before the cell that has just been linked
  obtain ⟨-, last, -, hlast⟩ := exists_node h.linked
  have hadvance : LinkedList.advance s.pos s.nodes = .ok (c.1, s.nodes) := by
    rw [hpos]
    exact (Gives.node hlast).bind (Gives.pure _ _)
  simp only [addProc, hpoint, hadvance] at hs
  obtain rfl := Option.some.inj hs
  refine h.alone ht (.inr hheld) rfl hheld h.null_none h.linked h.elements ?_ ?_ ?_ ?_
  · simp only [Adder.added, hpoint]
  · exact fun hfree => by cases hheld.symm.trans hfree
  · exact endOf_concat.symm
  · intro a ha
    refine (h.owned_of_inside ht hin ha).imp_right fun hcell => ?_
    rw [hpoint] at hcell
    cases hcell

/-- **`pthread_mutex_lock`**: what holds when nobody holds the mutex, the thread relies on. -/
theorem lock (h : s.Adding par w cells) (ht : s.threads[k]? = some t) (hpoint : t.point = .lock)
    (hs : s.addProc par b k t = some s') : s'.Adding par w cells := by
  simp only [addProc, hpoint] at hs
  split at hs
  -- the mutex is held: the thread waits
  case isFalse => cases hs
  case isTrue hnone =>
    obtain rfl := Option.some.inj hs
    refine h.alone ht (.inl hnone) rfl rfl h.null_none h.linked h.elements ?_ ?_ (h.free hnone) ?_
    · simp only [Adder.added, hpoint]
    · exact fun hfree => by cases hfree
    · intro a ha
      -- no thread is inside, so none has a cell that is not linked
      refine .inl ((h.owned a ha).resolve_right ?_)
      rintro ⟨j, u, hu, hcell⟩
      cases hnone.symm.trans ((h.inside j u hu).mp (inside_of_newCell hcell))

/-- **`pthread_mutex_unlock`** -/
theorem unlock (h : s.Adding par w cells) (ht : s.threads[k]? = some t)
    (hpoint : t.point = .unlock) (hs : s.addProc par b k t = some s') : s'.Adding par w cells := by
  have hin : t.point.inside = true := by
    rw [hpoint]
    rfl
  have hpos := h.holds k t ht
  rw [hpoint] at hpos
  simp only [addProc, hpoint] at hs
  split at hs
  case isFalse => cases hs
  case isTrue hheld =>
    obtain rfl := Option.some.inj hs
    -- the thread leaves what `free` asks for to the next one
    refine h.alone ht (.inr hheld) rfl rfl h.null_none h.linked h.elements ?_ (fun _ => hpos)
      trivial ?_
    · simp only [Adder.added, hpoint]
    · intro a ha
      refine (h.owned_of_inside ht hin ha).imp_right fun hcell => ?_
      rw [hpoint] at hcell
      cases hcell

/-- **Step of a thread** -/
theorem addProc (h : s.Adding par w cells) (ht : s.threads[k]? = some t)
    (hb : t.point = .alloc → b.address ≠ null → s.nodes b.address = none)
    (hs : s.addProc par b k t = some s') : ∃ cells', s'.Adding par w cells' := by
  cases hpoint : t.point with
  -- the test of the loop touches nothing that is shared
  | loop =>
    simp only [State.addProc, hpoint] at hs
    obtain rfl := Option.some.inj hs
    have hin : t.point.inside = false := by
      rw [hpoint]
      rfl
    refine ⟨cells, ?_⟩
    by_cases hi : (t.i : Int) < par.updateCount
    · rw [if_pos hi]
      exact h.outside ht hin rfl (by simp only [Adder.added, hpoint])
    · rw [if_neg hi]
      exact h.outside ht hin rfl (by simp only [Adder.added, hpoint])
  | lock => exact ⟨cells, h.lock ht hpoint hs⟩
  | alloc => exact ⟨cells, h.alloc ht hpoint (hb hpoint) hs⟩
  | element => exact ⟨cells, h.element ht hpoint hs⟩
  | next => exact ⟨cells, h.next ht hpoint hs⟩
  | link => exact ⟨_, h.link ht hpoint hs⟩
  | advance => exact ⟨cells, h.advance ht hpoint hs⟩
  | unlock => exact ⟨cells, h.unlock ht hpoint hs⟩
  | exited =>
    simp only [State.addProc, hpoint] at hs
    cases hs

/-- **A thread is created.** -/
theorem create (h : s.Adding par w cells) (main : MainPoint) :
    Adding par { s with threads := s.threads ++ [⟨0, .loop⟩], main } w cells := by
  -- the new thread is the last one, and stands before its loop
  have hnew : ∀ (j : Nat) (u : Adder), (s.threads ++ [⟨0, .loop⟩])[j]? = some u →
      s.threads[j]? = some u ∨ s.threads.length ≤ j ∧ u = ⟨0, .loop⟩ := by
    intro j u hu
    rw [List.getElem?_append] at hu
    split at hu
    case isTrue => exact .inl hu
    case isFalse hj =>
      exact .inr ⟨Nat.le_of_not_lt hj, List.mem_singleton.mp (List.mem_of_getElem? hu)⟩
  refine ⟨h.null_none, h.linked, h.elements, ?_, h.free, ?_, ?_, ?_, ?_⟩
  · rw [h.length_eq, List.map_append, List.sum_append]
    rfl
  · intro j hj
    rw [List.length_append]
    exact Nat.lt_add_right _ (h.bounded j hj)
  · intro j u hu
    rcases hnew j u hu with hold | ⟨hj, rfl⟩
    · exact h.inside j u hold
    · exact iff_of_false Bool.false_ne_true fun hheld =>
        Nat.not_lt_of_le hj (h.bounded j hheld)
  · intro j u hu
    rcases hnew j u hu with hold | ⟨-, rfl⟩
    · exact (h.holds j u hold).congr rfl rfl rfl
    · trivial
  · intro a ha
    refine (h.owned a ha).imp_right ?_
    rintro ⟨j, u, hu, hcell⟩
    have hlt := (List.getElem?_eq_some_iff.mp hu).1
    exact ⟨j, u, (List.getElem?_append_left hlt).trans hu, hcell⟩

/-- **Step of `main`** -/
theorem mainStep (h : s.Adding par w cells) {ok : Bool} (hs : s.mainStep par ok = some s') :
    s'.Adding par w cells := by
  unfold State.mainStep at hs
  split at hs
  -- `pthread_create`, which may fail
  case h_1 i hmain =>
    split at hs
    · split at hs <;> obtain rfl := Option.some.inj hs
      · exact h.create _
      · exact h.congr rfl rfl rfl rfl rfl
    · obtain rfl := Option.some.inj hs
      exact h.congr rfl rfl rfl rfl rfl
  -- `pthread_join`
  case h_2 i hmain =>
    split at hs
    · split at hs
      · split at hs
        · obtain rfl := Option.some.inj hs
          exact h.congr rfl rfl rfl rfl rfl
        · cases hs
      · obtain rfl := Option.some.inj hs
        exact h.congr rfl rfl rfl rfl rfl
    · obtain rfl := Option.some.inj hs
      exact h.congr rfl rfl rfl rfl rfl
  case h_3 => cases hs

end State.Adding

/-- The list that `main` has made is empty. -/
theorem adding_start {nodes : Nodes}
    (hmake : Gives (makeEmpty 0 null b) (fun _ => none) b.address nodes) :
    State.Adding par ⟨nodes, b.address, b.address, none, [], .create 0, none⟩ b.node.value [] := by
  -- `MakeEmpty` has returned, so `malloc` has not failed
  have hb : b.address ≠ null := by
    intro hnull
    have hexit : makeEmpty 0 null b (fun _ => none) = .error (.fatalError "Out of memory!") := by
      simp only [makeEmpty, malloc, hnull]
      rfl
    cases hexit.symm.trans hmake
  obtain ⟨-, rfl⟩ := (gives_makeEmpty_null hb).unique hmake
  have hself : Function.update (fun _ => none) b.address (some ⟨b.node.value, null⟩) b.address =
      (some ⟨b.node.value, null⟩ : Option Node) := Function.update_self ..
  have hother : ∀ a, a ≠ b.address →
      Function.update (fun _ => none) b.address (some ⟨b.node.value, null⟩) a =
        (none : Option Node) := fun a ha => Function.update_of_ne ha ..
  constructor
  · exact hother null hb.symm
  · exact ⟨hself, trivial⟩
  · exact fun c hc => absurd hc List.not_mem_nil
  · rfl
  · exact fun _ => rfl
  · exact fun _ hheld => absurd hheld (Option.some_ne_none _).symm
  · exact fun k t ht => absurd ht (Option.some_ne_none _).symm
  · exact fun k t ht => absurd ht (Option.some_ne_none _).symm
  · intro a ha
    by_cases hab : a = b.address
    · exact .inl (hab ▸ List.mem_cons_self ..)
    · exact absurd (hother a hab) ha

/-! ## How far the threads have got -/

/-- The rounds of each thread. -/
def Parameters.rounds (par : Parameters) : Nat := par.updateCount.toNat

/-- The steps to the end of a round. -/
def Point.left : Point → Nat
  | .lock => 8
  | .alloc => 7
  | .element _ _ => 6
  | .next _ _ => 5
  | .link _ _ => 4
  | .advance => 3
  | .unlock => 2
  | .loop | .exited => 0

/-- Where a step of a thread leads, as far as its rounds are concerned. -/
inductive Adder.Goes (par : Parameters) (t : Adder) : Adder → Prop where
  | enter (hpoint : t.point = .loop) (hi : t.i < par.rounds) : Goes par t ⟨t.i, .lock⟩
  | leave (hpoint : t.point = .loop) (hi : par.rounds ≤ t.i) : Goes par t ⟨t.i, .exited⟩
  | inside {p : Point} (hleft : t.point.left = p.left + 1) (hp : 2 ≤ p.left) : Goes par t ⟨t.i, p⟩
  | again (hpoint : t.point = .unlock) : Goes par t ⟨t.i + 1, .loop⟩

/-- **Inversion** of an access -/
theorem access_cases {α : Type} {p : ListM α} {point : α → Point}
    (hs : s.access k t p point = some s') :
    (∃ a nodes, s' = { s.goto k t (point a) with nodes }) ∨
      ∃ ending, s' = { s with ended := some ending } := by
  simp only [State.access] at hs
  split at hs
  · exact .inl ⟨_, _, (Option.some.inj hs).symm⟩
  · exact .inr ⟨_, (Option.some.inj hs).symm⟩
  · cases hs

/-- **Inversion** of a step of a thread: it goes on, or ends the process. -/
theorem addProc_cases (hs : s.addProc par b k t = some s') :
    s'.main = s.main ∧
      ((∃ t', t.Goes par t' ∧ s'.threads = s.threads.set k t' ∧ s'.ended = s.ended) ∨
        s'.threads = s.threads ∧ s'.ended ≠ none) := by
  -- the steps that access memory: one that fails ends the process
  have haccess : ∀ {α : Type} {p : ListM α} {point : α → Point},
      (∀ a, t.point.left = (point a).left + 1 ∧ 2 ≤ (point a).left) →
      s.access k t p point = some s' →
      s'.main = s.main ∧
        ((∃ t', t.Goes par t' ∧ s'.threads = s.threads.set k t' ∧ s'.ended = s.ended) ∨
          s'.threads = s.threads ∧ s'.ended ≠ none) := by
    intro α p point hleft hs
    rcases access_cases hs with ⟨a, nodes, rfl⟩ | ⟨ending, rfl⟩
    · exact ⟨rfl, .inl ⟨_, .inside (hleft a).1 (hleft a).2, rfl, rfl⟩⟩
    · exact ⟨rfl, .inr ⟨rfl, Option.some_ne_none _⟩⟩
  cases hpoint : t.point with
  | loop =>
    simp only [State.addProc, hpoint] at hs
    obtain rfl := Option.some.inj hs
    refine ⟨rfl, .inl ?_⟩
    by_cases hi : (t.i : Int) < par.updateCount
    · rw [if_pos hi]
      exact ⟨_, .enter hpoint (by unfold Parameters.rounds; omega), rfl, rfl⟩
    · rw [if_neg hi]
      exact ⟨_, .leave hpoint (by unfold Parameters.rounds; omega), rfl, rfl⟩
  | lock =>
    simp only [State.addProc, hpoint] at hs
    split at hs
    · obtain rfl := Option.some.inj hs
      refine ⟨rfl, .inl ⟨_, .inside (p := .alloc) ?_ (by decide), rfl, rfl⟩⟩
      rw [hpoint]
      rfl
    · cases hs
  -- the four accesses of `Insert`
  | alloc | element | next | link =>
    simp only [State.addProc, hpoint] at hs
    exact haccess (fun a => ⟨by rw [hpoint]; rfl, by simp only [Point.left]; omega⟩) hs
  | advance =>
    simp only [State.addProc, hpoint] at hs
    split at hs
    · obtain rfl := Option.some.inj hs
      refine ⟨rfl, .inl ⟨_, .inside (p := .unlock) ?_ (by decide), rfl, rfl⟩⟩
      rw [hpoint]
      rfl
    · cases hs
  | unlock =>
    simp only [State.addProc, hpoint] at hs
    split at hs
    · obtain rfl := Option.some.inj hs
      exact ⟨rfl, .inl ⟨_, .again hpoint, rfl, rfl⟩⟩
    · cases hs
  | exited =>
    simp only [State.addProc, hpoint] at hs
    cases hs

/-- How far a thread has got in its loop. -/
structure Adder.InRounds (par : Parameters) (t : Adder) : Prop where
  le : t.i ≤ par.rounds
  lt : 2 ≤ t.point.left → t.i < par.rounds
  exited : t.point = .exited → t.i = par.rounds

theorem Adder.InRounds.goes (h : t.InRounds par) (hgoes : t.Goes par t') : t'.InRounds par := by
  cases hgoes with
  | enter hpoint hi =>
    refine ⟨h.le, fun _ => hi, fun hexited => ?_⟩
    cases hexited
  | leave hpoint hi =>
    exact ⟨h.le, fun hleft => absurd hleft (Nat.not_succ_le_zero 1),
      fun _ => Nat.le_antisymm h.le hi⟩
  | @inside p hleft hp =>
    have hi := h.lt (by omega)
    refine ⟨h.le, fun _ => hi, fun hexited => ?_⟩
    obtain rfl : p = .exited := hexited
    exact absurd hp (Nat.not_succ_le_zero 1)
  | again hpoint =>
    have hi := h.lt (by rw [hpoint]; exact Nat.le_refl 2)
    refine ⟨hi, fun hleft => absurd hleft (Nat.not_succ_le_zero 1), fun hexited => ?_⟩
    cases hexited

/-- What `main` has waited for. -/
def State.MainAt (par : Parameters) (s : State) : MainPoint → Prop
  | .create i => s.threads.length = i ∧ i ≤ par.threadCount.toNat
  | .join i => s.threads.length = par.threadCount.toNat ∧ i ≤ par.threadCount.toNat ∧
      ∀ j < i, ∀ t, s.threads[j]? = some t → t.point = .exited
  | .done => s.threads.length = par.threadCount.toNat ∧
      ∀ t ∈ s.threads, t.point = .exited

/-- How far the threads and `main` have got. -/
structure State.Rounds (par : Parameters) (s : State) : Prop where
  threads : ∀ t ∈ s.threads, t.InRounds par
  main : s.MainAt par s.main

theorem Adder.InRounds.start (par : Parameters) : Adder.InRounds par ⟨0, .loop⟩ := by
  refine ⟨Nat.zero_le _, fun hleft => absurd hleft (Nat.not_succ_le_zero 1), fun hexited => ?_⟩
  cases hexited

/-- A thread that has exited stays where it is. -/
theorem Adder.Goes.not_exited (h : t.Goes par t') : t.point ≠ .exited := by
  intro hexited
  cases h with
  | enter hpoint | leave hpoint | again hpoint => cases hpoint.symm.trans hexited
  | inside hleft =>
    rw [hexited] at hleft
    cases hleft

/-- What `main` has waited for depends on the threads only. -/
theorem State.MainAt.congr {p : MainPoint} (h : s.MainAt par p)
    (hthreads : s'.threads = s.threads) : s'.MainAt par p := by
  cases p with
  | create | join | done =>
    simp only [MainAt, hthreads]
    exact h

/-- `main` waits for threads that have exited, whatever the others do. -/
theorem State.MainAt.set (h : s.MainAt par s.main) (ht : s.threads[k]? = some t)
    (hgoes : t.Goes par t') (hmain : s'.main = s.main)
    (hthreads : s'.threads = s.threads.set k t') : s'.MainAt par s'.main := by
  rw [hmain]
  cases hm : s.main with
  | create i =>
    rw [hm] at h
    exact ⟨by rw [hthreads, List.length_set]; exact h.1, h.2⟩
  | join i =>
    rw [hm] at h
    refine ⟨by rw [hthreads, List.length_set]; exact h.1, h.2.1, fun j hj u hu => ?_⟩
    rw [hthreads] at hu
    rcases of_getElem?_set hu with ⟨rfl, -⟩ | ⟨-, hu⟩
    · exact absurd (h.2.2 j hj t ht) hgoes.not_exited
    · exact h.2.2 j hj u hu
  | done =>
    rw [hm] at h
    exact absurd (h.2 t (List.mem_of_getElem? ht)) hgoes.not_exited

/-- **Step of a thread** -/
theorem State.Rounds.addProc (h : s.Rounds par) (ht : s.threads[k]? = some t)
    (hs : s.addProc par b k t = some s') : s'.Rounds par := by
  obtain ⟨hmain, ⟨t', hgoes, hthreads, -⟩ | ⟨hthreads, -⟩⟩ := addProc_cases hs
  · refine ⟨fun u hu => ?_, h.main.set ht hgoes hmain hthreads⟩
    rw [hthreads] at hu
    rcases List.mem_or_eq_of_mem_set hu with hold | rfl
    · exact h.threads u hold
    · exact (h.threads t (List.mem_of_getElem? ht)).goes hgoes
  · refine ⟨fun u hu => h.threads u (hthreads ▸ hu), ?_⟩
    rw [hmain]
    exact h.main.congr hthreads

/-- **Step of `main`** -/
theorem State.Rounds.mainStep (h : s.Rounds par) {ok : Bool} (hs : s.mainStep par ok = some s') :
    s'.Rounds par := by
  have hm := h.main
  unfold State.mainStep at hs
  split at hs
  case h_1 i hmain =>
    rw [hmain] at hm
    split at hs
    case isTrue hi =>
      -- a new thread starts in its first round; if it cannot be made, the process ends
      split at hs <;> obtain rfl := Option.some.inj hs
      · refine ⟨fun u hu => ?_, ?_, by omega⟩
        · rcases List.mem_append.mp hu with hold | hnew
          · exact h.threads u hold
          · obtain rfl := List.mem_singleton.mp hnew
            exact Adder.InRounds.start par
        · rw [List.length_append, hm.1]
          rfl
      · exact ⟨h.threads, h.main.congr rfl⟩
    case isFalse hi =>
      obtain rfl := Option.some.inj hs
      refine ⟨h.threads, ?_, Nat.zero_le _, fun j hj => absurd hj (Nat.not_lt_zero j)⟩
      -- all threads have been created, none is joined yet
      exact hm.1.trans (Nat.le_antisymm hm.2 (by omega))
  case h_2 i hmain =>
    rw [hmain] at hm
    split at hs
    case isTrue hi =>
      split at hs
      · split at hs
        case isTrue hexited =>
          obtain rfl := Option.some.inj hs
          obtain ⟨u, hu, hpoint⟩ := Option.map_eq_some_iff.mp hexited
          refine ⟨h.threads, hm.1, by omega, fun j hj v hv => ?_⟩
          rcases Nat.lt_succ_iff_lt_or_eq.mp hj with hlt | rfl
          · exact hm.2.2 j hlt v hv
          -- `pthread_join` returns when the thread has exited
          · obtain rfl := Option.some.inj (hu.symm.trans hv)
            exact hpoint
        case isFalse => cases hs
      · obtain rfl := Option.some.inj hs
        exact ⟨h.threads, h.main.congr rfl⟩
    case isFalse hi =>
      obtain rfl := Option.some.inj hs
      refine ⟨h.threads, hm.1, fun u hu => ?_⟩
      -- the last one has been joined: there are no others
      obtain ⟨j, hj⟩ := List.mem_iff_getElem?.mp hu
      have hlt : j < s.threads.length := (List.getElem?_eq_some_iff.mp hj).1
      rw [hm.1] at hlt
      exact hm.2.2 j (by omega) u hj
  case h_3 => cases hs

/-! ## All runs -/

/-- **Inversion** of a step of the program -/
theorem step_cases {e : Turn × Answer} (hs : s.step par e = some s') :
    s.ended = none ∧ (e.1 = .main ∧ s.mainStep par e.2.ok = some s' ∨
      ∃ k t, e.1 = .thread k ∧ s.threads[k]? = some t ∧
        s.addProc par e.2.block k t = some s') := by
  unfold State.step at hs
  split at hs
  case isTrue => cases hs
  case isFalse hended =>
    refine ⟨Option.not_isSome_iff_eq_none.mp hended, ?_⟩
    split at hs
    case h_1 hmain => exact .inl ⟨hmain, hs⟩
    case h_2 k hthread =>
      obtain ⟨t, ht, hstep⟩ := Option.bind_eq_some_iff.mp hs
      exact .inr ⟨k, t, hthread, ht, hstep⟩

/-- **Run**: the list has the elements that the threads have added, in every interleaving. -/
theorem reachable_adding (h : (inproc par).ReachableWhen FreshBlocks s) :
    (∃ w cells, s.Adding par w cells) ∧ s.Rounds par := by
  refine System.ReachableWhen.invariant
    (P := fun s => (∃ w cells, s.Adding par w cells) ∧ s.Rounds par) ?_ ?_ h
  · rintro s ⟨b, nodes, hmake, rfl⟩
    exact ⟨⟨_, _, adding_start hmake⟩, fun _ ht => absurd ht List.not_mem_nil, rfl, Nat.zero_le _⟩
  · rintro s e s' ⟨⟨w, cells, hadding⟩, hrounds⟩ hfresh hs
    obtain ⟨-, ⟨-, hmain⟩ | ⟨k, t, hturn, ht, hthread⟩⟩ := step_cases hs
    · exact ⟨⟨w, cells, hadding.mainStep hmain⟩, hrounds.mainStep hmain⟩
    · have hb : t.point = .alloc → e.2.block.address ≠ null →
          s.nodes e.2.block.address = none := by
        intro hpoint
        simp only [FreshBlocks, hturn, ht, Option.map_some, hpoint] at hfresh
        exact hfresh trivial
      obtain ⟨cells', hadding'⟩ := hadding.addProc ht hb hthread
      exact ⟨⟨w, cells', hadding'⟩, hrounds.addProc ht hthread⟩

/-- **Nothing added is lost**: in every interleaving the list has the elements that the threads
    have added, and no other node is in memory but the one that a thread is about to put into
    it. When `main` has waited for the threads, these are all of their rounds, and the last
    position is the end of the list. -/
theorem inproc_counts (h : (inproc par).ReachableWhen FreshBlocks s) :
    ∃ w cells, s.Adding par w cells ∧ (s.main = .done →
      cells.length = par.threadCount.toNat * par.updateCount.toNat ∧
        s.pos = endOf s.list cells) := by
  obtain ⟨⟨w, cells, hadding⟩, hrounds⟩ := reachable_adding h
  refine ⟨w, cells, hadding, fun hdone => ?_⟩
  have hm := hrounds.main
  rw [hdone] at hm
  obtain ⟨hcount, hexited⟩ := hm
  constructor
  · -- each thread has added an element in each of its rounds
    have hall : s.threads.map Adder.added = s.threads.map fun _ => par.rounds := by
      apply List.map_congr_left
      intro t ht
      have hpoint := hexited t ht
      simp only [Adder.added, hpoint, (hrounds.threads t ht).exited hpoint]
    rw [hadding.length_eq, hall, List.map_const', List.sum_replicate, hcount]
    rfl
  · apply hadding.free
    cases hholder : s.holder with
    | none => rfl
    | some k =>
      have hlt := hadding.bounded k hholder
      have hin := (hadding.inside k _ (List.getElem?_eq_getElem hlt)).mpr hholder
      rw [hexited _ (List.getElem_mem hlt)] at hin
      cases hin

/-! ## Every run comes to its end -/

/-- The steps that a thread has left. -/
def Adder.rank (par : Parameters) (t : Adder) : Nat :=
  match t.point with
  | .loop => 9 * (par.rounds - t.i) + 1
  | .exited => 0
  | p => 9 * (par.rounds - (t.i + 1)) + p.left + 1

/-- The steps that `main` has left; a thread that it has not created has all of its steps left. -/
def MainPoint.rank (par : Parameters) : MainPoint → Nat
  | .create i =>
    (par.threadCount.toNat - i) * (9 * par.rounds + 2) + par.threadCount.toNat + 2
  | .join i => par.threadCount.toNat - i + 1
  | .done => 0

/-- What `main` and the threads have left. -/
def State.work (par : Parameters) (s : State) : Nat :=
  s.main.rank par + (s.threads.map (Adder.rank par)).sum

/-- How many steps are left. -/
def State.rank (par : Parameters) (s : State) : Nat :=
  if s.ended = none then s.work par + 1 else 0

/-- Each step of a thread brings it nearer to its end. -/
theorem Adder.Goes.rank_lt (h : t.Goes par t') : t'.rank par < t.rank par := by
  cases h with
  | enter hpoint hi =>
    simp only [Adder.rank, hpoint, Point.left]
    omega
  | leave hpoint hi =>
    simp only [Adder.rank, hpoint]
    omega
  | @inside p hleft hp =>
    -- inside a round what is left of it decides
    have hinside : ∀ q : Point, 2 ≤ q.left →
        Adder.rank par ⟨t.i, q⟩ = 9 * (par.rounds - (t.i + 1)) + q.left + 1 := by
      intro q hq
      cases q with
      | loop | exited => exact absurd hq (Nat.not_succ_le_zero 1)
      | lock | alloc | element | next | link | advance | unlock => rfl
    have ht : t.rank par = Adder.rank par ⟨t.i, t.point⟩ := rfl
    rw [ht, hinside p hp, hinside t.point (by omega)]
    omega
  | again hpoint =>
    simp only [Adder.rank, hpoint, Point.left]
    omega

/-- A step of `main` ends the process, or brings it nearer to its end. -/
theorem mainStep_lowers {ok : Bool} (hs : s.mainStep par ok = some s') :
    s'.ended ≠ none ∨ s'.ended = s.ended ∧ s'.work par < s.work par := by
  unfold State.mainStep at hs
  split at hs
  case h_1 i hm =>
    split at hs
    case isTrue hi =>
      split at hs <;> obtain rfl := Option.some.inj hs
      · -- the steps of the new thread have been counted before
        refine .inr ⟨rfl, ?_⟩
        have hsplit : (par.threadCount.toNat - i) * (9 * par.rounds + 2) =
            (par.threadCount.toNat - (i + 1)) * (9 * par.rounds + 2) + (9 * par.rounds + 2) := by
          rw [← Nat.succ_mul]
          congr 1
          omega
        have hnew : Adder.rank par ⟨0, .loop⟩ = 9 * par.rounds + 1 := rfl
        simp only [State.work, hm, MainPoint.rank, List.map_append, List.sum_append, List.map_cons,
          List.map_nil, List.sum_cons, List.sum_nil, hnew, hsplit]
        omega
      · exact .inl (Option.some_ne_none _)
    case isFalse hi =>
      obtain rfl := Option.some.inj hs
      refine .inr ⟨rfl, ?_⟩
      simp only [State.work, hm, MainPoint.rank]
      omega
  case h_2 i hm =>
    split at hs
    case isTrue hi =>
      split at hs
      · split at hs
        · obtain rfl := Option.some.inj hs
          refine .inr ⟨rfl, ?_⟩
          simp only [State.work, hm, MainPoint.rank]
          omega
        · cases hs
      · obtain rfl := Option.some.inj hs
        exact .inl (Option.some_ne_none _)
    case isFalse hi =>
      obtain rfl := Option.some.inj hs
      refine .inr ⟨rfl, ?_⟩
      simp only [State.work, hm, MainPoint.rank]
      omega
  case h_3 => cases hs

/-- So does a step of a thread. -/
theorem addProc_lowers (ht : s.threads[k]? = some t) (hs : s.addProc par b k t = some s') :
    s'.ended ≠ none ∨ s'.ended = s.ended ∧ s'.work par < s.work par := by
  obtain ⟨hmain, ⟨t', hgoes, hthreads, hended⟩ | ⟨-, hended⟩⟩ := addProc_cases hs
  · refine .inr ⟨hended, ?_⟩
    have hsum := tally_set ht (Adder.rank par) t'
    rw [tally, tally] at hsum
    have hlt := hgoes.rank_lt
    rw [State.work, State.work, hmain, hthreads]
    omega
  · exact .inl hended

/-- **Step**: after each step fewer are left. -/
theorem rank_lt {e : Turn × Answer} (hs : s.step par e = some s') : s'.rank par < s.rank par := by
  obtain ⟨hended, hstep⟩ := step_cases hs
  have hlower : s'.ended ≠ none ∨ s'.ended = s.ended ∧ s'.work par < s.work par := by
    rcases hstep with ⟨-, hmain⟩ | ⟨k, t, -, ht, hthread⟩
    · exact mainStep_lowers hmain
    · exact addProc_lowers ht hthread
  rw [State.rank, State.rank, if_pos hended]
  rcases hlower with hends | ⟨hsame, hlt⟩
  · rw [if_neg hends]
    exact Nat.succ_pos _
  · rw [if_pos (hsame.trans hended)]
    exact Nat.succ_lt_succ hlt

/-! ## Nobody waits for ever -/

/-- A program that gives something can be run as an access. -/
theorem access_isSome {α : Type} {p : ListM α} {a : α} {nodes : Nodes} {point : α → Point}
    (hp : Gives p s.nodes a nodes) : (s.access k t p point).isSome := by
  rw [State.Adding.access_eq hp]
  rfl

/-- **A thread goes on** unless it has exited or waits for the mutex: every access that it makes
    is defined. -/
theorem State.Adding.goesOn (h : s.Adding par w cells) (ht : s.threads[k]? = some t)
    (hexited : t.point ≠ .exited) (hlock : t.point = .lock → s.holder = none) (b : Block) :
    (s.addProc par b k t).isSome := by
  have hholds := h.holds k t ht
  have hlinked := h.linked
  rw [← List.append_nil cells] at hlinked
  obtain ⟨-, last, -, hlast⟩ := exists_node hlinked
  cases hpoint : t.point with
  | loop =>
    simp only [State.addProc, hpoint]
    rfl
  | lock =>
    simp only [State.addProc, hpoint, if_pos (hlock hpoint)]
    rfl
  | alloc =>
    simp only [State.addProc, hpoint]
    -- either way `malloc` returns
    by_cases hb : b.address = null
    · simp only [State.access, malloc, if_pos hb]
      rfl
    · exact access_isSome (Gives.malloc hb _)
  | element =>
    rw [hpoint] at hholds
    obtain ⟨-, -, -, -, n, hn⟩ := hholds
    simp only [State.addProc, hpoint]
    exact access_isSome (Gives.setElement hn)
  | next =>
    rw [hpoint] at hholds
    obtain ⟨rfl, -, -, -, Q, hn⟩ := hholds
    simp only [State.addProc, hpoint]
    -- `P` is the last node of the list, and in memory
    exact access_isSome ((Gives.node hlast).bind (Gives.setNext hn))
  | link =>
    rw [hpoint] at hholds
    obtain ⟨rfl, -⟩ := hholds
    simp only [State.addProc, hpoint]
    exact access_isSome (Gives.setNext hlast)
  | advance =>
    rw [hpoint] at hholds
    obtain ⟨before, c, rfl, hpos⟩ := hholds
    obtain ⟨-, last', -, hlast'⟩ := exists_node h.linked
    have hadvance : LinkedList.advance s.pos s.nodes = .ok (c.1, s.nodes) := by
      rw [hpos]
      exact (Gives.node hlast').bind (Gives.pure _ _)
    simp only [State.addProc, hpoint, hadvance]
    rfl
  | unlock =>
    -- the thread that unlocks has the mutex
    have hheld := (h.inside k t ht).mp (by rw [hpoint]; rfl)
    simp only [State.addProc, hpoint, if_pos hheld]
    rfl
  | exited => exact absurd hpoint hexited

/-- **Somebody can go on**, until `main` is done. -/
theorem exists_turn (h : s.Adding par w cells) (hrounds : s.Rounds par) (hended : s.ended = none)
    (hdone : s.main ≠ .done) : ∃ turn, ∀ answer, (s.step par (turn, answer)).isSome := by
  have hthread : ∀ (k : Nat) (t : Adder), s.threads[k]? = some t → t.point ≠ .exited →
      (t.point = .lock → s.holder = none) →
      ∃ turn, ∀ answer, (s.step par (turn, answer)).isSome := by
    intro k t ht hexited hlock
    refine ⟨.thread k, fun answer => ?_⟩
    simp only [State.step, hended, Option.isSome_none, Bool.false_eq_true, if_false, ht,
      Option.bind_some]
    exact h.goesOn ht hexited hlock answer.block
  cases hholder : s.holder with
  | some k =>
    -- the thread that holds the mutex
    have ht := List.getElem?_eq_getElem (h.bounded k hholder)
    have hin := (h.inside k _ ht).mpr hholder
    refine hthread k _ ht (fun hexited => ?_) (fun hlock => ?_)
    · rw [hexited] at hin
      cases hin
    · rw [hlock] at hin
      cases hin
  | none =>
    have hmainTurn : (∀ ok, (s.mainStep par ok).isSome) →
        ∃ turn, ∀ answer, (s.step par (turn, answer)).isSome := by
      intro hmain
      refine ⟨.main, fun answer => ?_⟩
      simp only [State.step, hended, Option.isSome_none, Bool.false_eq_true, if_false]
      exact hmain answer.ok
    have hm := hrounds.main
    cases hpoint : s.main with
    | create i =>
      apply hmainTurn
      intro ok
      simp only [State.mainStep, hpoint]
      split
      · cases ok <;> rfl
      · rfl
    | join i =>
      rw [hpoint] at hm
      by_cases hi : (i : Int) < par.threadCount
      · have hlt : i < s.threads.length := by
          rw [hm.1]
          omega
        have ht := List.getElem?_eq_getElem hlt
        by_cases hexited : s.threads[i].point = .exited
        · apply hmainTurn
          intro ok
          simp only [State.mainStep, hpoint, if_pos hi, ht, Option.map_some, hexited, if_true]
          cases ok <;> rfl
        · -- `main` waits for a thread that can go on
          exact hthread i _ ht hexited fun _ => hholder
      · apply hmainTurn
        intro ok
        simp only [State.mainStep, hpoint, if_neg hi]
        rfl
    | done => exact absurd hpoint hdone

/-- **Every run comes to its end**: it has a bounded number of steps, and unless the process has
    ended early or `main` has waited for all threads, somebody can take another one, whatever
    `malloc` and the functions of the threads return. -/
theorem inproc_completes {s₀ : State} (hinit : (inproc par).init s₀) {es : List (Turn × Answer)}
    (hfresh : (inproc par).Along FreshBlocks s₀ es) (hrun : (inproc par).runFrom s₀ es = some s) :
    es.length ≤ par.threadCount.toNat * (9 * par.rounds + 2) + par.threadCount.toNat + 3 ∧
      (s.ended = none → s.main ≠ .done →
        ∃ turn, ∀ answer, ((inproc par).step s (turn, answer)).isSome) := by
  constructor
  · have hle := System.length_add_rank_le (I := fun _ => True) (State.rank par)
      (fun _ _ _ _ _ => trivial) (fun _ _ _ _ hs => rank_lt hs) trivial hrun
    have hstart : s₀.rank par =
        par.threadCount.toNat * (9 * par.rounds + 2) + par.threadCount.toNat + 3 := by
      obtain ⟨b, nodes, -, rfl⟩ := hinit
      rfl
    omega
  · intro hended hdone
    obtain ⟨⟨w, cells, hadding⟩, hrounds⟩ :=
      reachable_adding (hfresh.reachableWhen (.init hinit) hrun)
    exact exists_turn hadding hrounds hended hdone

/-- Two threads with two rounds each. -/
def twoThreads : Parameters := ⟨2, 2, 7⟩

def twoThreadsStart : State :=
  ⟨Function.update (fun _ => none) 16 (some ⟨0, null⟩), 16, 16, none, [], .create 0, none⟩

theorem twoThreads_init : (inproc twoThreads).init twoThreadsStart :=
  ⟨⟨16, ⟨0, 0⟩⟩, _, gives_makeEmpty_null (b := ⟨16, ⟨0, 0⟩⟩) (by decide), rfl⟩

/-- `n` steps of one thread; `malloc` returns a block at the address, if it is called. -/
def stepsOf (turn : Turn) (n : Nat) (address : UInt64) : List (Turn × Answer) :=
  List.replicate n (turn, ⟨true, ⟨address, ⟨0, 0⟩⟩⟩)

/-- Both threads test their loops before one of them gets the mutex; from the lock to the unlock
    there are seven steps. Then `main` joins them. -/
def twoThreadsTurns : List (Turn × Answer) :=
  stepsOf .main 2 0 ++ stepsOf (.thread 0) 1 0 ++ stepsOf (.thread 1) 1 0 ++
    stepsOf (.thread 0) 8 32 ++ stepsOf (.thread 1) 7 48 ++ stepsOf (.thread 0) 7 64 ++
    stepsOf (.thread 1) 9 80 ++ stepsOf (.thread 0) 1 0 ++ stepsOf .main 4 0

theorem twoThreads_run : ∃ s,
    (inproc twoThreads).runFrom twoThreadsStart twoThreadsTurns = some s ∧ s.main = .done := by
  have hdone : ((inproc twoThreads).runFrom twoThreadsStart twoThreadsTurns).map State.main =
      some .done := by decide +kernel
  exact Option.map_eq_some_iff.mp hdone

theorem twoThreads_fresh :
    (inproc twoThreads).Along FreshBlocks twoThreadsStart twoThreadsTurns := by
  decide +kernel

theorem inproc_counts_twoThreads : ∃ s w cells,
    (inproc twoThreads).runFrom twoThreadsStart twoThreadsTurns = some s ∧
      s.Adding twoThreads w cells ∧ cells.length = 4 ∧ s.pos = endOf s.list cells := by
  obtain ⟨s, hrun, hdone⟩ := twoThreads_run
  obtain ⟨w, cells, hadding, hall⟩ :=
    inproc_counts (twoThreads_fresh.reachableWhen (.init twoThreads_init) hrun)
  exact ⟨s, w, cells, hrun, hadding, hall hdone⟩

/-- While thread 0 holds the mutex, thread 1 waits for it. -/
theorem inproc_completes_twoThreads : ∃ s,
    (inproc twoThreads).runFrom twoThreadsStart (twoThreadsTurns.take 8) = some s ∧
      s.step twoThreads (.thread 1, ⟨true, ⟨48, ⟨0, 0⟩⟩⟩) = none ∧
        ∃ turn, ∀ answer, ((inproc twoThreads).step s (turn, answer)).isSome := by
  have hwaits : ((inproc twoThreads).runFrom twoThreadsStart (twoThreadsTurns.take 8)).map
      (fun s => (s.ended.isNone, s.main, (s.step twoThreads
        (.thread 1, ⟨true, ⟨48, ⟨0, 0⟩⟩⟩)).isNone)) = some (true, .create 2, true) := by
    decide +kernel
  have hfresh : (inproc twoThreads).Along FreshBlocks twoThreadsStart
      (twoThreadsTurns.take 8) := by
    decide +kernel
  obtain ⟨s, hrun, hobs⟩ := Option.map_eq_some_iff.mp hwaits
  obtain ⟨hended, hrest⟩ := Prod.mk.inj hobs
  obtain ⟨hmain, hnone⟩ := Prod.mk.inj hrest
  have hgoes := (inproc_completes twoThreads_init hfresh hrun).2
    (Option.isNone_iff_eq_none.mp hended) fun hdone => by cases hmain.symm.trans hdone
  exact ⟨s, hrun, Option.isNone_iff_eq_none.mp hnone, hgoes⟩

end TaskSystem.PthreadInproc
