import Mathlib.Data.List.Basic

/-!
# First-In First-Out Queues

The abstract meaning of a bounded queue: a list of outstanding records that is extended
at the back and consumed at the front. The specification is a relation on observable
events, so an implementation refines it by exhibiting the events of each of its runs.

## Contents

- `Fifo.Event`, `Fifo.Step`, `Fifo.Steps`
- conservation: accepted records are the removed ones followed by the outstanding ones
-/

namespace TaskSystem.Library.Fifo

/-- What a caller observes of one queue operation. -/
inductive Event (α : Type*) where
  /-- An insertion that was accepted -/
  | accepted (a : α)
  /-- An insertion that was refused -/
  | refused
  /-- A removal that returned `a` -/
  | removed (a : α)
  /-- A removal that returned nothing -/
  | removedNothing
  /-- A look at the front that returned `a` -/
  | peeked (a : α)
  /-- A look at the front that returned nothing -/
  | peekedNothing
  /-- An emptiness test and its answer -/
  | tested (empty : Bool)

variable {α : Type*}

/-- One operation of a first-in first-out queue with outstanding records `q`.
    Refusal is always allowed: the capacity is the implementation's affair. -/
inductive Step : List α → Event α → List α → Prop where
  | accept (q : List α) (a : α) : Step q (.accepted a) (q ++ [a])
  | refuse (q : List α) : Step q .refused q
  | remove (q : List α) (a : α) : Step (a :: q) (.removed a) q
  | removeNothing : Step [] .removedNothing []
  | peek (q : List α) (a : α) : Step (a :: q) (.peeked a) (a :: q)
  | peekNothing : Step [] .peekedNothing []
  | test (q : List α) : Step q (.tested q.isEmpty) q

/-- A sequence of operations with the events observed, oldest first. -/
inductive Steps : List α → List (Event α) → List α → Prop where
  | nil (q : List α) : Steps q [] q
  | cons {q q₁ q₂ : List α} {e : Event α} {es : List (Event α)} :
      Step q e q₁ → Steps q₁ es q₂ → Steps q (e :: es) q₂

/-- The record an event inserted. -/
def Event.inserted? : Event α → Option α
  | .accepted a => some a
  | _ => none

/-- The record an event removed. -/
def Event.removed? : Event α → Option α
  | .removed a => some a
  | _ => none

/-- **Conservation**: what was outstanding and what was accepted since is, in order, what
    was removed since followed by what is outstanding now. -/
theorem Steps.conservation {q q' : List α} {es : List (Event α)} (h : Steps q es q') :
    q ++ es.filterMap Event.inserted? = es.filterMap Event.removed? ++ q' := by
  induction h with
  | nil q => simp
  | cons hstep _ ih =>
    cases hstep with
    | accept q a => simpa [List.filterMap_cons, Event.inserted?, Event.removed?] using ih
    | remove q a => simpa [List.filterMap_cons, Event.inserted?, Event.removed?] using ih
    | _ => simpa [List.filterMap_cons, Event.inserted?, Event.removed?] using ih

end TaskSystem.Library.Fifo
