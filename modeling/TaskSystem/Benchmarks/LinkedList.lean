import TaskSystem.Library.LinkedCells

/-!
# The Linked List

`src/nano_benchmarking/common/list.c`, which is also `src/exploration/clist/list.c`: lists of
numbers with a header node, that the benchmarks put their messages into. An access through a
pointer that does not lead to a node is undefined, and so is freeing one.

## Contents

- `Node`, `Nodes`, `Stop`, `ListM`: memory, and how the calls may end
- `makeEmpty`, `isEmpty`, `isLast`, `find`, `delete`, `findPrevious`, `insert`, `deleteList`,
  `header`, `first`, `advance`, `retrieve`; `incorrectDeleteList`, which is not compiled
- `Call`, `run`: calls one after another
- `Gives`: what a call leads to
-/

namespace TaskSystem.LinkedList

open Library

/-- `struct Node` -/
abbrev Node := Cell UInt64 Int32

/-- The nodes that have been allocated and not been freed -/
abbrev Nodes := Heap UInt64 Int32

/-- `NULL` -/
def null : UInt64 := 0

/-- Why a call does not return. -/
inductive Stop where
  /-- `FatalError`: the text is printed, and the process exits. -/
  | fatalError (text : String)
  | undefined
  /-- A loop has not come to its end in so many rounds. -/
  | running
  deriving DecidableEq

abbrev ListM := StateT Nodes (Except Stop)

/-- What `malloc` returns: an address, which is `NULL` when there is no memory left, and what the
    block happens to contain. -/
structure Block where
  address : UInt64
  node : Node

/-! ## Accesses -/

/-- `*P` -/
def node (P : UInt64) : ListM Node := fun nodes =>
  match nodes P with
  | some n => .ok (n, nodes)
  | none => .error .undefined

/-- `P->Element = X` -/
def setElement (P : UInt64) (X : Int32) : ListM Unit := do
  let n ← node P
  modify fun nodes => Function.update nodes P (some { n with value := X })

/-- `P->Next = Q` -/
def setNext (P Q : UInt64) : ListM Unit := do
  let n ← node P
  modify fun nodes => Function.update nodes P (some { n with next := Q })

/-- `malloc( sizeof( struct Node ) )`, and the test that follows it -/
def malloc (b : Block) (text : String) : ListM UInt64 := do
  if b.address = null then throw (.fatalError text)
  modify fun nodes => Function.update nodes b.address (some b.node)
  return b.address

def free (P : UInt64) : ListM Unit := do
  -- `free( NULL )` does nothing
  if P ≠ null then
    let _ ← node P
    modify fun nodes => Function.update nodes P none

/-! ## The operations -/

/-- `while( P != NULL )` in `DeleteList` -/
def deleteLoop : Nat → UInt64 → ListM Unit
  | 0, _ => throw .running
  | fuel + 1, P => do
    if P ≠ null then
      let Tmp := (← node P).next
      free P
      deleteLoop fuel Tmp

def deleteList (fuel : Nat) (L : UInt64) : ListM Unit := do
  let P := (← node L).next
  setNext L null
  deleteLoop fuel P

/-- `while( P != NULL )` in the first, incorrect `DeleteList` -/
def incorrectDeleteLoop : Nat → UInt64 → ListM Unit
  | 0, _ => throw .running
  | fuel + 1, P => do
    if P ≠ null then
      free P
      incorrectDeleteLoop fuel (← node P).next

def incorrectDeleteList (fuel : Nat) (L : UInt64) : ListM Unit := do
  let P := (← node L).next
  setNext L null
  incorrectDeleteLoop fuel P

def makeEmpty (fuel : Nat) (L : UInt64) (b : Block) : ListM UInt64 := do
  if L ≠ null then deleteList fuel L
  let L ← malloc b "Out of memory!"
  setNext L null
  return L

def isEmpty (L : UInt64) : ListM Bool := do
  return (← node L).next = null

/-- `IsLast`, which does not use the list -/
def isLast (P _L : UInt64) : ListM Bool := do
  return (← node P).next = null

/-- `while( P != NULL && P->Element != X )` -/
def findLoop (X : Int32) : Nat → UInt64 → ListM UInt64
  | 0, _ => throw .running
  | fuel + 1, P => do
    if P = null then return P
    let n ← node P
    if n.value = X then return P
    findLoop X fuel n.next

def find (fuel : Nat) (X : Int32) (L : UInt64) : ListM UInt64 := do
  findLoop X fuel (← node L).next

/-- `while( P->Next != NULL && P->Next->Element != X )` -/
def findPreviousLoop (X : Int32) : Nat → UInt64 → ListM UInt64
  | 0, _ => throw .running
  | fuel + 1, P => do
    let n ← node P
    if n.next = null then return P
    if (← node n.next).value = X then return P
    findPreviousLoop X fuel n.next

def findPrevious (fuel : Nat) (X : Int32) (L : UInt64) : ListM UInt64 :=
  findPreviousLoop X fuel L

def delete (fuel : Nat) (X : Int32) (L : UInt64) : ListM Unit := do
  let P ← findPrevious fuel X L
  if !(← isLast P L) then
    let TmpCell := (← node P).next
    setNext P (← node TmpCell).next
    free TmpCell

/-- `Insert`, which does not use the list -/
def insert (X : Int32) (_L P : UInt64) (b : Block) : ListM Unit := do
  let TmpCell ← malloc b "Out of space!!!"
  setElement TmpCell X
  setNext TmpCell (← node P).next
  setNext P TmpCell

def header (L : UInt64) : ListM UInt64 := return L

def first (L : UInt64) : ListM UInt64 := return (← node L).next

def advance (P : UInt64) : ListM UInt64 := return (← node P).next

def retrieve (P : UInt64) : ListM Int32 := return (← node P).value

/-! ## Calls -/

/-- A call of one of the functions, with the block that `malloc` returns in it. -/
inductive Call where
  | makeEmpty (L : UInt64) (b : Block)
  | isEmpty (L : UInt64)
  | isLast (P L : UInt64)
  | find (X : Int32) (L : UInt64)
  | delete (X : Int32) (L : UInt64)
  | findPrevious (X : Int32) (L : UInt64)
  | insert (X : Int32) (L P : UInt64) (b : Block)
  | deleteList (L : UInt64)
  | header (L : UInt64)
  | first (L : UInt64)
  | advance (P : UInt64)
  | retrieve (P : UInt64)

/-- What a call returns. -/
inductive Value where
  | void
  | truth (b : Bool)
  | position (P : UInt64)
  | element (X : Int32)
  deriving DecidableEq

/-- The call, in which each loop takes fewer than `fuel` rounds. -/
def Call.run (fuel : Nat) : Call → ListM Value
  | .makeEmpty L b => return .position (← LinkedList.makeEmpty fuel L b)
  | .isEmpty L => return .truth (← LinkedList.isEmpty L)
  | .isLast P L => return .truth (← LinkedList.isLast P L)
  | .find X L => return .position (← LinkedList.find fuel X L)
  | .delete X L => do
    LinkedList.delete fuel X L
    return .void
  | .findPrevious X L => return .position (← LinkedList.findPrevious fuel X L)
  | .insert X L P b => do
    LinkedList.insert X L P b
    return .void
  | .deleteList L => do
    LinkedList.deleteList fuel L
    return .void
  | .header L => return .position (← LinkedList.header L)
  | .first L => return .position (← LinkedList.first L)
  | .advance P => return .position (← LinkedList.advance P)
  | .retrieve P => return .element (← LinkedList.retrieve P)

/-- Calls one after another -/
def run (fuel : Nat) : List Call → ListM (List Value)
  | [] => return []
  | call :: calls => do
    let value ← call.run fuel
    let values ← run fuel calls
    return value :: values

/-! ## What a program leads to -/

/-- The program returns `a`, and leaves the nodes `nodes'`. -/
def Gives {α : Type} (p : ListM α) (nodes : Nodes) (a : α) (nodes' : Nodes) : Prop :=
  p nodes = .ok (a, nodes')

namespace Gives

variable {α β : Type} {p : ListM α} {k : α → ListM β} {nodes nodes' nodes'' : Nodes} {a : α}
  {b : β} {P Q : UInt64} {X : Int32} {n : Node}

theorem pure (a : α) (nodes : Nodes) : Gives (Pure.pure a) nodes a nodes := rfl

theorem bind (hp : Gives p nodes a nodes') (hk : Gives (k a) nodes' b nodes'') :
    Gives (p >>= k) nodes b nodes'' := by
  have hp : p nodes = .ok (a, nodes') := hp
  show (p nodes >>= fun e => k e.1 e.2) = _
  rw [hp]
  exact hk

/-- A program leads to one result. -/
theorem unique {a' : α} (h : Gives p nodes a nodes') (h' : Gives p nodes a' nodes'') :
    a = a' ∧ nodes' = nodes'' :=
  Prod.mk.inj (Except.ok.inj (h.symm.trans h'))

theorem node (h : nodes P = some n) : Gives (node P) nodes n nodes := by
  simp only [Gives, LinkedList.node, h]

theorem setElement (h : nodes P = some n) :
    Gives (setElement P X) nodes () (Function.update nodes P (some { n with value := X })) :=
  (node h).bind rfl

theorem setNext (h : nodes P = some n) :
    Gives (setNext P Q) nodes () (Function.update nodes P (some { n with next := Q })) :=
  (node h).bind rfl

theorem malloc {b : Block} (hb : b.address ≠ null) (text : String) :
    Gives (malloc b text) nodes b.address (Function.update nodes b.address (some b.node)) := by
  simp only [LinkedList.malloc, if_neg hb]
  rfl

theorem free (hP : P ≠ null) (h : nodes P = some n) :
    Gives (free P) nodes () (Function.update nodes P none) := by
  simp only [LinkedList.free, if_pos hP]
  exact (node h).bind rfl

end Gives

end TaskSystem.LinkedList
