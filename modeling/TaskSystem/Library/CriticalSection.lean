import Mathlib.Logic.Function.Basic
import TaskSystem.Library.Transition

/-!
# Critical Sections

Threads that share an object and one mutex. An operation is a program that accesses the object
one step at a time, and the threads take their steps in any order. Where every operation keeps
its accesses between locking and unlocking, the threads cannot tell the object from one whose
operations are atomic, and no thread waits for ever.

## Contents

- `Prog`, `Prog.exec`: programs, and running one alone
- `Machine`, `machine`: threads inside their calls
- `after`, `answersTo`: the calls one after another
- `Guarded`: what is asked of the operations
- `Machine.Atomic`: the invariant; `atomic_of_reachable`
- `returns`: every call comes to its end
-/

namespace TaskSystem.Library

universe u

/-! ## Programs -/

/-- A program over an object in state `S` that returns an `α`. -/
inductive Prog (S α : Type u) where
  | ret (a : α)
  /-- The program does something undefined. -/
  | fault
  /-- One access to the object; what follows sees the state before it. -/
  | access (f : S → S) (rest : S → Prog S α)
  | lock (rest : Prog S α)
  | unlock (rest : Prog S α)

variable {S R α β : Type u} {C : Type*}

namespace Prog

def bind : Prog S α → (α → Prog S β) → Prog S β
  | ret a, k => k a
  | fault, _ => fault
  | access f rest, k => access f fun x => (rest x).bind k
  | lock rest, k => lock (rest.bind k)
  | unlock rest, k => unlock (rest.bind k)

instance : Monad (Prog S) where
  pure := ret
  bind := bind

/-- A read. -/
def get : Prog S S := access id ret

/-- A write. -/
def modify (f : S → S) : Prog S PUnit := access f fun _ => ret ⟨⟩

/-- The program run alone: the object afterwards, and the result. -/
def exec : Prog S α → S → Option (S × α)
  | ret a, x => some (x, a)
  | fault, _ => none
  | access f rest, x => (rest x).exec (f x)
  | lock rest, x | unlock rest, x => rest.exec x

/-- What is left of a section from `x` on: accesses, the unlocking, and a result. -/
def leave : Prog S α → S → Option (S × α)
  | access f rest, x => (rest x).leave (f x)
  | unlock (ret a), x => some (x, a)
  | _, _ => none

/-- No use of the mutex. -/
def Plain : Prog S α → Prop
  | ret _ | fault => True
  | access _ rest => ∀ x, (rest x).Plain
  | lock _ | unlock _ => False

@[simp] theorem pure_eq (a : α) : (pure a : Prog S α) = ret a := rfl

@[simp] theorem ret_bind (a : α) (k : α → Prog S β) : ret a >>= k = k a := rfl

@[simp] theorem get_bind (k : S → Prog S β) : get >>= k = access id k := rfl

@[simp] theorem modify_bind (f : S → S) (k : PUnit → Prog S β) :
    modify f >>= k = access f fun _ => k ⟨⟩ := rfl

@[simp] theorem unlock_bind (p : Prog S α) (k : α → Prog S β) :
    unlock p >>= k = unlock (p >>= k) := rfl

@[simp] theorem lock_bind (p : Prog S α) (k : α → Prog S β) :
    lock p >>= k = lock (p >>= k) := rfl

theorem exec_bind (p : Prog S α) (k : α → Prog S β) (x : S) :
    (p >>= k).exec x = (p.exec x).bind fun e => (k e.2).exec e.1 := by
  induction p generalizing x with
  | ret a => rfl
  | fault => rfl
  | access f rest ih => exact ih x (f x)
  | lock rest ih => exact ih x
  | unlock rest ih => exact ih x

@[simp] theorem exec_ret (a : α) (x : S) : (ret a : Prog S α).exec x = some (x, a) := rfl

theorem leave_bind {p : Prog S α} (hp : p.Plain) (k : α → Prog S β) (x : S) :
    (p >>= k).leave x = (p.exec x).bind fun e => (k e.2).leave e.1 := by
  induction p generalizing x with
  | ret a => rfl
  | fault => rfl
  | access f rest ih => exact ih x (hp x) (f x)
  | lock rest => exact hp.elim
  | unlock rest => exact hp.elim

theorem Plain.bind {p : Prog S α} {k : α → Prog S β} (hp : p.Plain) (hk : ∀ a, (k a).Plain) :
    (p >>= k).Plain := by
  induction p with
  | ret a => exact hk a
  | fault => trivial
  | access f rest ih => exact fun x => ih x (hp x)
  | lock rest => exact hp.elim
  | unlock rest => exact hp.elim

theorem plain_get : (get : Prog S S).Plain := fun _ => trivial

end Prog

/-! ## Threads -/

/-- Threads, what they are doing, and the object they share. -/
structure Machine (S : Type u) (C : Type*) (R : Type u) where
  object : S
  /-- The thread that holds the mutex -/
  holder : Option Nat
  /-- The call each thread is inside of, and what is left of it -/
  inside : Nat → Option (C × Prog S R)
  /-- The calls that have got the mutex, oldest first, each with its thread -/
  order : List (Nat × C)
  /-- The calls of each thread that have returned, oldest first, each with its result -/
  returned : Nat → List (C × R)

inductive MachineEvent (C : Type*) where
  /-- A thread enters a call. -/
  | call (t : Nat) (c : C)
  /-- A thread takes the next step of its call. -/
  | step (t : Nat)

namespace Machine

/-- The thread goes on with `p` in its call. -/
def goto (s : Machine S C R) (t : Nat) (c : C) (p : Prog S R) : Machine S C R :=
  { s with inside := Function.update s.inside t (some (c, p)) }

/-- The next step of a thread inside call `c`; `none` while it has to wait for the mutex. -/
def perform (s : Machine S C R) (t : Nat) (c : C) : Prog S R → Option (Machine S C R)
  | .ret r =>
    some { s with
      inside := Function.update s.inside t none
      returned := Function.update s.returned t (s.returned t ++ [(c, r)]) }
  | .fault => none
  | .access f rest => some { s.goto t c (rest s.object) with object := f s.object }
  | .lock rest =>
    if s.holder = none then
      some { s.goto t c rest with holder := some t, order := s.order ++ [(t, c)] }
    else none
  | .unlock rest =>
    if s.holder = some t then some { s.goto t c rest with holder := none } else none

def step (code : C → Prog S R) (s : Machine S C R) : MachineEvent C → Option (Machine S C R)
  | .call t c => if (s.inside t).isNone then some (s.goto t c (code c)) else none
  | .step t => (s.inside t).bind fun e => s.perform t e.1 e.2

end Machine

/-- No thread has made a call yet. -/
def Machine.start (x₀ : S) : Machine S C R := ⟨x₀, none, fun _ => none, [], fun _ => []⟩

/-- Threads that call operations with these programs, on an object that starts in state `x₀`. -/
def machine (code : C → Prog S R) (x₀ : S) : System (Machine S C R) (MachineEvent C) where
  init s := s = .start x₀
  step := Machine.step code

/-- The calls that a thread enters meet a condition. -/
def Calls (ok : C → Prop) (_ : Machine S C R) : MachineEvent C → Prop
  | .call _ c => ok c
  | .step _ => True

/-! ## One call after another -/

section Sequential

variable (op : C → S → S × R)

/-- The object after the calls. -/
def after (x : S) (order : List (Nat × C)) : S := order.foldl (fun x e => (op e.2 x).1) x

/-- The calls of thread `t` among them, with their results. -/
def answersTo (x : S) : List (Nat × C) → Nat → List (C × R)
  | [], _ => []
  | (u, c) :: order, t =>
    if u = t then (c, (op c x).2) :: answersTo (op c x).1 order t
    else answersTo (op c x).1 order t

theorem after_append (x : S) (order : List (Nat × C)) (e : Nat × C) :
    after op x (order ++ [e]) = (op e.2 (after op x order)).1 := by
  simp [after, List.foldl_append]

theorem answersTo_append (x : S) (order : List (Nat × C)) (u : Nat) (c : C) (t : Nat) :
    answersTo op x (order ++ [(u, c)]) t =
      answersTo op x order t ++ if u = t then [(c, (op c (after op x order)).2)] else [] := by
  induction order generalizing x with
  | nil => simp only [List.nil_append, answersTo, after, List.foldl_nil]
  | cons e order ih =>
    obtain ⟨v, d⟩ := e
    simp only [List.cons_append, answersTo, ih]
    have hafter : after op x ((v, d) :: order) = after op (op d x).1 order := rfl
    rw [hafter]
    split <;> rfl

/-- The calls of a thread come in the order in which they got the mutex. -/
theorem map_fst_answersTo (x : S) (order : List (Nat × C)) (t : Nat) :
    (answersTo op x order t).map Prod.fst =
      (order.filter fun e => e.1 = t).map Prod.snd := by
  induction order generalizing x with
  | nil => rfl
  | cons e order ih =>
    obtain ⟨u, c⟩ := e
    by_cases hu : u = t <;> simp [answersTo, hu, ih]

/-- Another object on which the calls give the same results: it represents the first one. -/
theorem answersTo_eq_of_represents {T : Type u} {op' : C → T → T × R} {Represents : S → T → Prop}
    {ok : C → Prop}
    (hop : ∀ c x y, ok c → Represents x y →
      Represents (op c x).1 (op' c y).1 ∧ (op c x).2 = (op' c y).2)
    {x : S} {y : T} (hxy : Represents x y) (order : List (Nat × C)) (hok : ∀ e ∈ order, ok e.2)
    (t : Nat) : answersTo op x order t = answersTo op' y order t := by
  induction order generalizing x y with
  | nil => rfl
  | cons e order ih =>
    obtain ⟨u, c⟩ := e
    obtain ⟨hnext, hresult⟩ := hop c x y (hok (u, c) (List.mem_cons_self ..)) hxy
    have hrest := ih hnext fun f hf => hok f (List.mem_cons_of_mem _ hf)
    simp only [answersTo, hresult, hrest]

end Sequential

/-! ## Guarded operations -/

/-- Each operation does what `op` does between locking and unlocking, and nothing else, on an
    object that meets `I`; calls that meet `ok` keep `I`. -/
structure Guarded (I : S → Prop) (ok : C → Prop) (code : C → Prog S R) (op : C → S → S × R) :
    Prop where
  locks : ∀ c, ok c → ∃ body, code c = .lock body ∧ ∀ x, I x → body.leave x = some (op c x)
  keeps : ∀ c x, ok c → I x → I (op c x).1

/-- Where thread `t` stands, and the result it has but not returned yet. -/
inductive Machine.Stands (ok : C → Prop) (code : C → Prog S R) (op : C → S → S × R) (x₀ : S)
    (s : Machine S C R) (t : Nat) : List (C × R) → Prop where
  | outside (hin : s.inside t = none) (hfree : s.holder ≠ some t) : Stands ok code op x₀ s t []
  | waiting {c : C} (hin : s.inside t = some (c, code c)) (hc : ok c)
      (hfree : s.holder ≠ some t) : Stands ok code op x₀ s t []
  | holding {c : C} {p : Prog S R} {r : R} (hin : s.inside t = some (c, p))
      (hheld : s.holder = some t) (hleave : p.leave s.object = some (after op x₀ s.order, r)) :
      Stands ok code op x₀ s t [(c, r)]
  | leaving {c : C} {r : R} (hin : s.inside t = some (c, .ret r)) (hfree : s.holder ≠ some t) :
      Stands ok code op x₀ s t [(c, r)]

/-- **Atomicity**: the object is where the calls one after another put it, or on its way there
    in the hands of the thread that holds the mutex, and the threads have the results of
    these calls. -/
structure Machine.Atomic (I : S → Prop) (ok : C → Prop) (code : C → Prog S R)
    (op : C → S → S × R) (x₀ : S) (s : Machine S C R) : Prop where
  object : s.holder = none → s.object = after op x₀ s.order
  kept : I (after op x₀ s.order)
  called : ∀ e ∈ s.order, ok e.2
  thread : ∀ t, ∃ pending, s.Stands ok code op x₀ t pending ∧
    answersTo op x₀ s.order t = s.returned t ++ pending

namespace Machine

variable {I : S → Prop} {ok : C → Prop} {code : C → Prog S R} {op : C → S → S × R} {x₀ : S}
  {s s' : Machine S C R} {t u : Nat} {c : C} {p : Prog S R} {pending : List (C × R)}

@[simp] theorem goto_inside_self : (s.goto t c p).inside t = some (c, p) :=
  Function.update_self ..

theorem goto_inside_ne (h : u ≠ t) : (s.goto t c p).inside u = s.inside u :=
  Function.update_of_ne h ..

/-- A thread that does not hold the mutex is left alone by the steps of the others. -/
theorem Stands.other (h : s.Stands ok code op x₀ u pending) (hfree : s.holder ≠ some u)
    (hfree' : s'.holder ≠ some u) (hin : s'.inside u = s.inside u) :
    s'.Stands ok code op x₀ u pending := by
  cases h with
  | outside h => exact .outside (hin.trans h) hfree'
  | waiting h hc => exact .waiting (hin.trans h) hc hfree'
  | holding h hheld => exact absurd hheld hfree
  | leaving h => exact .leaving (hin.trans h) hfree'

/-- A thread enters a call. -/
theorem Atomic.call (h : s.Atomic I ok code op x₀) (hc : ok c) (hin : s.inside t = none) :
    (s.goto t c (code c)).Atomic I ok code op x₀ where
  object := h.object
  kept := h.kept
  called := h.called
  thread u := by
    obtain ⟨pending, hstands, hanswers⟩ := h.thread u
    refine ⟨pending, ?_, hanswers⟩
    -- the thread was outside, and now waits for the mutex
    by_cases hu : u = t
    · subst hu
      cases hstands with
      | outside _ hfree => exact .waiting goto_inside_self hc hfree
      | waiting hin' | holding hin' | leaving hin' =>
        rw [hin] at hin'
        cases hin'
    · cases hstands with
      | outside h hfree => exact .outside ((goto_inside_ne hu).trans h) hfree
      | waiting h hc hfree => exact .waiting ((goto_inside_ne hu).trans h) hc hfree
      | holding h hheld hleave => exact .holding ((goto_inside_ne hu).trans h) hheld hleave
      | leaving h hfree => exact .leaving ((goto_inside_ne hu).trans h) hfree

/-- A thread gets the mutex: this is where its call takes place. -/
theorem Atomic.lock (hg : Guarded I ok code op) (h : s.Atomic I ok code op x₀) (hc : ok c)
    {body : Prog S R} (hcode : code c = .lock body) (hfree : s.holder = none)
    (hanswers : answersTo op x₀ s.order t = s.returned t) :
    Atomic I ok code op x₀
      { s.goto t c body with holder := some t, order := s.order ++ [(t, c)] } where
  object hnone := by cases hnone
  kept := by
    rw [after_append]
    exact hg.keeps c _ hc h.kept
  called := by
    intro e he
    rcases List.mem_append.mp he with he | he
    · exact h.called e he
    · obtain rfl := List.mem_singleton.mp he
      exact hc
  thread u := by
    obtain ⟨body', hbody', hleave⟩ := hg.locks c hc
    obtain rfl : body = body' := Prog.lock.inj (hcode.symm.trans hbody')
    by_cases hu : u = t
    · subst hu
      -- its result is fixed here, though it returns it later
      refine ⟨[(c, (op c s.object).2)], .holding goto_inside_self rfl ?_, ?_⟩
      · show body.leave s.object = _
        rw [after_append, ← h.object hfree]
        exact hleave _ (h.object hfree ▸ h.kept)
      · simp only [answersTo_append, if_true, hanswers, h.object hfree]
        rfl
    -- the results of the other threads' calls do not depend on it
    · obtain ⟨pending, hstands, hanswers'⟩ := h.thread u
      refine ⟨pending, ?_, ?_⟩
      · refine hstands.other (by simp [hfree]) ?_ (goto_inside_ne hu)
        exact fun heq => hu (Option.some.inj heq).symm
      · simp only [answersTo_append, if_neg (Ne.symm hu), List.append_nil]
        exact hanswers'

/-- The thread that holds the mutex takes a step. -/
theorem Atomic.held (h : s.Atomic I ok code op x₀) {r : R} (hheld : s.holder = some t)
    (hanswers : answersTo op x₀ s.order t = s.returned t ++ [(c, r)])
    (hleave : p.leave s.object = some (after op x₀ s.order, r))
    (hs : s.perform t c p = some s') : s'.Atomic I ok code op x₀ := by
  -- the other threads are not in their sections
  have hother : ∀ u, u ≠ t → s.holder ≠ some u := by
    intro u hu heq
    exact hu (Option.some.inj (hheld.symm.trans heq)).symm
  cases p with
  | ret a | fault | lock rest => cases hleave
  -- within the section the object is on its way
  | access f rest =>
    obtain rfl := Option.some.inj hs
    constructor
    · intro hnone
      rw [show s.holder = none from hnone] at hheld
      cases hheld
    · exact h.kept
    · exact h.called
    · intro u
      by_cases hu : u = t
      · subst hu
        exact ⟨[(c, r)], .holding goto_inside_self hheld hleave, hanswers⟩
      · obtain ⟨pending, hstands, hanswers'⟩ := h.thread u
        exact ⟨pending, hstands.other (hother u hu) (hother u hu) (goto_inside_ne hu), hanswers'⟩
  -- at its end it is where the call puts it
  | unlock rest =>
    cases rest with
    | ret a =>
      obtain ⟨hobject, rfl⟩ := Prod.mk.inj (Option.some.inj hleave)
      simp only [perform, if_pos hheld] at hs
      obtain rfl := Option.some.inj hs
      refine ⟨fun _ => hobject, h.kept, h.called, ?_⟩
      intro u
      by_cases hu : u = t
      · subst hu
        exact ⟨[(c, a)], .leaving goto_inside_self (by simp), hanswers⟩
      · obtain ⟨pending, hstands, hanswers'⟩ := h.thread u
        exact ⟨pending, hstands.other (hother u hu) (by simp) (goto_inside_ne hu), hanswers'⟩
    | fault | access _ _ | lock _ | unlock _ => cases hleave

/-- A call returns. -/
theorem Atomic.ret (h : s.Atomic I ok code op x₀) {r : R} (hfree : s.holder ≠ some t)
    (hanswers : answersTo op x₀ s.order t = s.returned t ++ [(c, r)]) :
    Atomic I ok code op x₀
      { s with
        inside := Function.update s.inside t none
        returned := Function.update s.returned t (s.returned t ++ [(c, r)]) } where
  object := h.object
  kept := h.kept
  called := h.called
  thread u := by
    by_cases hu : u = t
    · subst hu
      refine ⟨[], .outside (Function.update_self ..) hfree, ?_⟩
      simp only [Function.update_self, List.append_nil]
      exact hanswers
    · obtain ⟨pending, hstands, hanswers'⟩ := h.thread u
      refine ⟨pending, ?_, by simp only [Function.update_of_ne hu]; exact hanswers'⟩
      have hin : Function.update s.inside t none u = s.inside u := Function.update_of_ne hu ..
      cases hstands with
      | outside h hfree => exact .outside (hin.trans h) hfree
      | waiting h hc hfree => exact .waiting (hin.trans h) hc hfree
      | holding h hheld hleave => exact .holding (hin.trans h) hheld hleave
      | leaving h hfree => exact .leaving (hin.trans h) hfree

/-- **Step**: atomicity is kept by every step of every thread. -/
theorem Atomic.step (hg : Guarded I ok code op) (h : s.Atomic I ok code op x₀)
    (e : MachineEvent C) (hok : Calls ok s e) (hs : s.step code e = some s') :
    s'.Atomic I ok code op x₀ := by
  cases e with
  | call t c =>
    simp only [Machine.step, Option.isNone_iff_eq_none] at hs
    split at hs
    case isTrue hin =>
      obtain rfl := Option.some.inj hs
      exact h.call hok hin
    case isFalse => cases hs
  | step t =>
    obtain ⟨⟨c, p⟩, hin, hs⟩ := Option.bind_eq_some_iff.mp hs
    obtain ⟨pending, hstands, hanswers⟩ := h.thread t
    cases hstands with
    | outside hin' =>
      rw [hin] at hin'
      cases hin'
    | waiting hin' hc hfree =>
      obtain ⟨rfl, rfl⟩ := Prod.mk.inj (Option.some.inj (hin.symm.trans hin'))
      obtain ⟨body, hcode, -⟩ := hg.locks c hc
      simp only [hcode, perform] at hs
      split at hs
      case isTrue hnone =>
        obtain rfl := Option.some.inj hs
        exact h.lock hg hc hcode hnone (by simpa using hanswers)
      -- another thread holds the mutex
      case isFalse => cases hs
    | holding hin' hheld hleave =>
      obtain ⟨rfl, rfl⟩ := Prod.mk.inj (Option.some.inj (hin.symm.trans hin'))
      exact h.held hheld hanswers hleave hs
    | leaving hin' hfree =>
      obtain ⟨rfl, rfl⟩ := Prod.mk.inj (Option.some.inj (hin.symm.trans hin'))
      obtain rfl := Option.some.inj hs
      exact h.ret hfree hanswers

/-- **Run**: guarded operations are atomic, however the threads' steps interleave. -/
theorem atomic_of_reachable (hg : Guarded I ok code op) (hx : I x₀)
    (h : (machine code x₀).ReachableWhen (Calls ok) s) : s.Atomic I ok code op x₀ := by
  refine System.ReachableWhen.invariant (P := fun s => s.Atomic I ok code op x₀) ?_ ?_ h
  · rintro s rfl
    exact ⟨fun _ => rfl, hx, fun e he => absurd he (List.not_mem_nil), fun t => ⟨[], .outside rfl (by simp [start]), rfl⟩⟩
  · intro s e s' hs hok hstep
    exact hs.step hg e hok hstep

/-- What a thread has been told are the first results of its calls in their order, and all of
    them once it is outside. -/
theorem Atomic.returned_eq (h : s.Atomic I ok code op x₀) (t : Nat) :
    ∃ pending, answersTo op x₀ s.order t = s.returned t ++ pending ∧ pending.length ≤ 1 ∧
      (s.inside t = none → pending = []) := by
  obtain ⟨pending, hstands, hanswers⟩ := h.thread t
  refine ⟨pending, hanswers, ?_, ?_⟩
  · cases hstands <;> simp
  · intro hin
    cases hstands with
    | outside | waiting => rfl
    | holding hin' | leaving hin' =>
      rw [hin] at hin'
      cases hin'

/-- The order of the calls only grows: a call that has returned stands before all calls that
    are entered later. -/
theorem order_prefix (es : List (MachineEvent C)) (h : (machine code x₀).runFrom s es = some s') :
    s.order <+: s'.order := by
  induction es generalizing s with
  | nil =>
    obtain rfl : s = s' := by simpa [System.runFrom] using h
    exact List.prefix_refl _
  | cons e es ih =>
    obtain ⟨s₁, hs₁, hrest⟩ := Option.bind_eq_some_iff.mp h
    refine List.IsPrefix.trans ?_ (ih hrest)
    change s.step code e = some s₁ at hs₁
    cases e with
    | call t c =>
      simp only [Machine.step] at hs₁
      split at hs₁
      · obtain rfl := Option.some.inj hs₁
        exact List.prefix_refl _
      · cases hs₁
    | step t =>
      obtain ⟨⟨c, p⟩, -, hp⟩ := Option.bind_eq_some_iff.mp hs₁
      cases p with
      | ret r | access f rest =>
        obtain rfl := Option.some.inj hp
        exact List.prefix_refl _
      | fault => cases hp
      -- only a thread that gets the mutex adds its call
      | lock rest =>
        simp only [perform] at hp
        split at hp
        · obtain rfl := Option.some.inj hp
          exact List.prefix_append ..
        · cases hp
      | unlock rest =>
        simp only [perform] at hp
        split at hp
        · obtain rfl := Option.some.inj hp
          exact List.prefix_refl _
        · cases hp

/-! ## Every call comes to its end -/

/-- The thread that holds the mutex comes out of its section by its own steps. -/
theorem exits (code : C → Prog S R) (x₀ : S) (s : Machine S C R) {y : S} {r : R} (hin : s.inside t = some (c, p))
    (hheld : s.holder = some t) (hleave : p.leave s.object = some (y, r)) :
    ∃ n, (machine code x₀).runFrom s (List.replicate n (.step t)) =
      some { s.goto t c (.ret r) with object := y, holder := none } := by
  induction p generalizing s with
  | ret a | fault | lock rest => cases hleave
  -- one access after another, as far as the unlock
  | access f rest ih =>
    obtain ⟨n, hn⟩ := ih s.object { s.goto t c (rest s.object) with object := f s.object }
      goto_inside_self hheld hleave
    refine ⟨n + 1, ?_⟩
    have hstep : (machine code x₀).step s (.step t) =
        some { s.goto t c (rest s.object) with object := f s.object } := by
      show (s.inside t).bind _ = _
      rw [hin]
      rfl
    rw [List.replicate_succ, System.runFrom, hstep, Option.bind_some, hn]
    simp only [goto, Function.update_idem]
  | unlock rest =>
    cases rest with
    | ret a =>
      obtain ⟨hobject, rfl⟩ := Prod.mk.inj (Option.some.inj hleave)
      refine ⟨1, ?_⟩
      have hstep : (machine code x₀).step s (.step t) =
          some { s.goto t c (.ret a) with holder := none } := by
        show (s.inside t).bind _ = _
        rw [hin]
        exact if_pos hheld
      rw [List.replicate_one, System.runFrom, hstep, ← hobject]
      rfl
    | fault | access _ _ | lock _ | unlock _ => cases hleave

/-- Steps of threads that are inside their calls, and no new calls. -/
def OnlySteps (es : List (MachineEvent C)) : Prop := ∀ e ∈ es, ∃ u, e = .step u

theorem onlySteps_replicate (n u : Nat) :
    OnlySteps (List.replicate n (.step u : MachineEvent C)) :=
  fun _ he => ⟨u, List.eq_of_mem_replicate he⟩

theorem OnlySteps.append {es es' : List (MachineEvent C)} (h : OnlySteps es)
    (h' : OnlySteps es') : OnlySteps (es ++ es') := by
  intro e he
  rcases List.mem_append.mp he with he | he
  · exact h e he
  · exact h' e he

/-- Steps that begin no call keep atomicity. -/
theorem Atomic.onlySteps (hg : Guarded I ok code op) {es : List (MachineEvent C)}
    (hes : OnlySteps es) (h : s.Atomic I ok code op x₀)
    (hrun : (machine code x₀).runFrom s es = some s') : s'.Atomic I ok code op x₀ := by
  induction es generalizing s with
  | nil =>
    obtain rfl : s = s' := by simpa [System.runFrom] using hrun
    exact h
  | cons e es ih =>
    obtain ⟨s₁, hs₁, hrest⟩ := Option.bind_eq_some_iff.mp hrun
    have hok : Calls ok s e := by
      obtain ⟨u, rfl⟩ := hes e (List.mem_cons_self ..)
      trivial
    exact ih (fun f hf => hes f (List.mem_cons_of_mem _ hf)) (h.step hg e hok hs₁) hrest

/-- The call the thread is inside of returns after some more steps, none of which begins
    another call. -/
def Returns (code : C → Prog S R) (x₀ : S) (s : Machine S C R) (t : Nat) (c : C) : Prop :=
  ∃ es s' r, OnlySteps es ∧ (machine code x₀).runFrom s es = some s' ∧ s'.inside t = none ∧
    s'.returned t = s.returned t ++ [(c, r)]

/-- Steps before that do not matter. -/
theorem Returns.after {es : List (MachineEvent C)} (hes : OnlySteps es)
    (hrun : (machine code x₀).runFrom s es = some s') (hreturned : s'.returned = s.returned)
    (h : s'.Returns code x₀ t c) : s.Returns code x₀ t c := by
  obtain ⟨es', s'', r, hes', hrun', hout, hret⟩ := h
  refine ⟨es ++ es', s'', r, hes.append hes', ?_, hout, by rw [hret, hreturned]⟩
  rw [System.runFrom_append, hrun, Option.bind_some, hrun']

theorem returns_of_ret {r : R} (hin : s.inside t = some (c, .ret r)) :
    s.Returns code x₀ t c := by
  refine ⟨List.replicate 1 (.step t), { s with
    inside := Function.update s.inside t none
    returned := Function.update s.returned t (s.returned t ++ [(c, r)]) }, r,
    onlySteps_replicate 1 t, ?_, Function.update_self .., Function.update_self ..⟩
  have hstep : s.step code (.step t) = s.perform t c (.ret r) := by
    rw [Machine.step, hin, Option.bind_some]
  show ((s.step code (.step t)).bind fun s' => (machine code x₀).runFrom s' []) = _
  rw [hstep]
  rfl

theorem returns_of_held {y : S} {r : R} (hin : s.inside t = some (c, p))
    (hheld : s.holder = some t) (hleave : p.leave s.object = some (y, r)) :
    s.Returns code x₀ t c := by
  obtain ⟨n, hn⟩ := exits code x₀ s hin hheld hleave
  exact Returns.after (onlySteps_replicate n t) hn rfl (returns_of_ret goto_inside_self)

/-- Where the mutex is free, the thread that waits for it gets it. -/
theorem Atomic.returns_of_free (hg : Guarded I ok code op) (h : s.Atomic I ok code op x₀)
    (hfree : s.holder = none) (hc : ok c) (hin : s.inside t = some (c, code c)) :
    s.Returns code x₀ t c := by
  obtain ⟨body, hcode, hleave⟩ := hg.locks c hc
  have hbody := hleave _ (h.object hfree ▸ h.kept)
  have hstep : s.step code (.step t) =
      some { s.goto t c body with holder := some t, order := s.order ++ [(t, c)] } := by
    rw [Machine.step, hin, Option.bind_some, hcode]
    exact if_pos hfree
  have hrun : (machine code x₀).runFrom s (List.replicate 1 (.step t)) =
      some { s.goto t c body with holder := some t, order := s.order ++ [(t, c)] } := by
    show ((s.step code (.step t)).bind fun s' => (machine code x₀).runFrom s' []) = _
    rw [hstep]
    rfl
  exact Returns.after (onlySteps_replicate 1 t) hrun rfl
    (returns_of_held goto_inside_self rfl hbody)

/-- **Progress**: a thread that is inside a call returns from it, if the threads take their
    steps in a suitable order; none of them has to enter another call for that. -/
theorem Atomic.returns (hg : Guarded I ok code op) (h : s.Atomic I ok code op x₀)
    (hin : s.inside t = some (c, p)) : s.Returns code x₀ t c := by
  obtain ⟨pending, hstands, -⟩ := h.thread t
  cases hstands with
  | outside hin' =>
    rw [hin] at hin'
    cases hin'
  | holding hin' hheld hleave =>
    obtain ⟨rfl, rfl⟩ := Prod.mk.inj (Option.some.inj (hin.symm.trans hin'))
    exact returns_of_held hin hheld hleave
  | leaving hin' hfree =>
    obtain ⟨rfl, rfl⟩ := Prod.mk.inj (Option.some.inj (hin.symm.trans hin'))
    exact returns_of_ret hin
  | waiting hin' hc hfree =>
    obtain ⟨rfl, rfl⟩ := Prod.mk.inj (Option.some.inj (hin.symm.trans hin'))
    cases hholder : s.holder with
    | none => exact h.returns_of_free hg hholder hc hin
    | some u =>
      -- the holder comes out of its section first
      have hu : t ≠ u := by
        rintro rfl
        exact hfree hholder
      obtain ⟨pending', hstands', -⟩ := h.thread u
      cases hstands' with
      | outside _ hfree' | waiting _ _ hfree' | leaving _ hfree' => exact absurd hholder hfree'
      | @holding d q r hin'' _ hleave =>
        obtain ⟨n, hn⟩ := exits code x₀ s hin'' hholder hleave
        have hatomic := h.onlySteps hg (onlySteps_replicate n u) hn
        exact Returns.after (onlySteps_replicate n u) hn rfl
          (hatomic.returns_of_free hg rfl hc ((goto_inside_ne hu).trans hin))

end Machine

end TaskSystem.Library
