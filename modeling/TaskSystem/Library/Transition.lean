import Mathlib.Logic.Basic

/-!
# Guarded Transition Systems

A transition system is an executable step function: `step s e = some s'` when event `e`
is enabled in `s`. The same definition replays a concrete run and carries the induction
principles for properties of all runs.

## Contents

- `System`, `ReachableWhen` (runs all of whose steps meet a condition), `Reachable`
- the invariant rule `ReachableWhen.invariant`
- `runFrom`: replaying a list of events
- `length_add_rank_le`, `exists_final`: runs that come to an end;
  `Along.length_add_rank_le`, `exists_final_along`: when tasks may wait
- `Along`: what holds at every step of a replay, and the rule `along_iff` that replaces it by a
  condition on the steps
-/

namespace TaskSystem.Library

/-- A transition system over states `S` and events `E`. -/
structure System (S E : Type*) where
  /-- The states a run may start in -/
  init : S → Prop
  /-- The state after event `e`, when `e` is enabled -/
  step : S → E → Option S

namespace System

variable {S E : Type*} {sys : System S E}

/-! ## Reachability -/

/-- States reached by runs each of whose steps meets the condition `G`. -/
inductive ReachableWhen (sys : System S E) (G : S → E → Prop) : S → Prop where
  | init {s : S} : sys.init s → ReachableWhen sys G s
  | step {s s' : S} {e : E} :
      ReachableWhen sys G s → G s e → sys.step s e = some s' → ReachableWhen sys G s'

/-- States reached by any run. -/
def Reachable (sys : System S E) : S → Prop :=
  sys.ReachableWhen fun _ _ => True

theorem Reachable.init {s : S} (h : sys.init s) : sys.Reachable s :=
  ReachableWhen.init h

theorem Reachable.step {s s' : S} {e : E} (h : sys.Reachable s)
    (hstep : sys.step s e = some s') : sys.Reachable s' :=
  ReachableWhen.step h trivial hstep

/-- **Invariant rule**: what holds initially and is kept by every step that meets the
    condition holds in every state reached by such steps. -/
theorem ReachableWhen.invariant {G : S → E → Prop} {P : S → Prop}
    (hinit : ∀ s, sys.init s → P s)
    (hstep : ∀ s e s', P s → G s e → sys.step s e = some s' → P s')
    {s : S} (h : sys.ReachableWhen G s) : P s := by
  induction h with
  | init hs => exact hinit _ hs
  | step _ hG hs ih => exact hstep _ _ _ ih hG hs

/-- The invariant rule for unconditional runs. -/
theorem Reachable.invariant {P : S → Prop}
    (hinit : ∀ s, sys.init s → P s)
    (hstep : ∀ s e s', P s → sys.step s e = some s' → P s')
    {s : S} (h : sys.Reachable s) : P s :=
  ReachableWhen.invariant hinit (fun s e s' hs _ => hstep s e s' hs) h

/-! ## Replaying a run -/

/-- Replay the events `es` from `s`; `none` when one of them is not enabled. -/
def runFrom (sys : System S E) (s : S) : List E → Option S
  | [] => some s
  | e :: es => (sys.step s e).bind fun s' => runFrom sys s' es

/-- Replaying events that meet the condition in every state keeps to reachable states. -/
theorem ReachableWhen.runFrom {G : S → E → Prop} {s s' : S} (h : sys.ReachableWhen G s)
    (es : List E) (hG : ∀ e ∈ es, ∀ s, G s e) (hrun : sys.runFrom s es = some s') :
    sys.ReachableWhen G s' := by
  induction es generalizing s with
  | nil =>
    obtain rfl : s = s' := by simpa [System.runFrom] using hrun
    exact h
  | cons e es ih =>
    obtain ⟨s₁, hs₁, hrest⟩ := Option.bind_eq_some_iff.mp hrun
    exact ih (h.step (hG e (List.mem_cons_self ..) s) hs₁)
      (fun f hf => hG f (List.mem_cons_of_mem _ hf)) hrest

theorem Reachable.runFrom {s s' : S} (h : sys.Reachable s) (es : List E)
    (hrun : sys.runFrom s es = some s') : sys.Reachable s' :=
  ReachableWhen.runFrom h es (fun _ _ _ => trivial) hrun

/-! ## Runs that come to an end -/

/-- Runs are no longer than a rank that every step decreases. -/
theorem length_add_rank_le (rank : S → Nat) {I : S → Prop}
    (hkeep : ∀ s e s', I s → sys.step s e = some s' → I s')
    (hless : ∀ s e s', I s → sys.step s e = some s' → rank s' < rank s)
    {s s' : S} {es : List E} (hs : I s) (hrun : sys.runFrom s es = some s') :
    es.length + rank s' ≤ rank s := by
  induction es generalizing s with
  | nil =>
    obtain rfl : s = s' := by simpa [System.runFrom] using hrun
    exact Nat.le_of_eq (Nat.zero_add _)
  | cons e es ih =>
    obtain ⟨s₁, hs₁, hrest⟩ := Option.bind_eq_some_iff.mp hrun
    have hlater := ih (hkeep s e s₁ hs hs₁) hrest
    have hfirst := hless s e s₁ hs hs₁
    rw [List.length_cons]
    omega

theorem runFrom_append (s : S) (es more : List E) :
    sys.runFrom s (es ++ more) = (sys.runFrom s es).bind fun s' => sys.runFrom s' more := by
  induction es generalizing s with
  | nil => rfl
  | cons e es ih =>
    rw [List.cons_append, runFrom, runFrom, Option.bind_assoc]
    exact congrArg _ (funext ih)

/-- **Completion**: where runs are bounded, and every reachable state that is not final has a
    step, a final state is reachable. -/
theorem exists_final (final : S → Prop) {s : S} (hs : sys.init s) {n : Nat}
    (hbound : ∀ es s', sys.runFrom s es = some s' → es.length ≤ n)
    (hstep : ∀ s, sys.Reachable s → ¬ final s → ∃ e s', sys.step s e = some s') :
    ∃ s', sys.Reachable s' ∧ final s' := by
  refine Classical.byContradiction fun hnone => ?_
  -- otherwise there are runs of every length
  have hlong : ∀ k, ∃ es s', es.length = k ∧ sys.runFrom s es = some s' := by
    intro k
    induction k with
    | zero => exact ⟨[], s, rfl, rfl⟩
    | succ k ih =>
      obtain ⟨es, s₁, hlength, hrun⟩ := ih
      have hreach := (Reachable.init hs).runFrom es hrun
      obtain ⟨e, s₂, hs₂⟩ := hstep s₁ hreach fun hfinal => hnone ⟨s₁, hreach, hfinal⟩
      refine ⟨es ++ [e], s₂, by simp [hlength], ?_⟩
      rw [runFrom_append, hrun, Option.bind_some, runFrom, hs₂]
      rfl
  obtain ⟨es, s', hlength, hrun⟩ := hlong (n + 1)
  have := hbound es s' hrun
  omega

/-! ## Conditions along a run -/

/-- Every step of the replay from `s`, as far as it goes, meets the condition. -/
def Along (sys : System S E) (P : S → E → Prop) (s : S) : List E → Prop
  | [] => True
  | e :: es => P s e ∧ ∀ s', sys.step s e = some s' → Along sys P s' es

/-- **Exact conditions along a run**: where one step does `P` exactly under the condition `G`,
    and keeps the invariant when it does, all steps of a run do `P` exactly if they all meet
    the condition. -/
theorem along_iff {P G : S → E → Prop} {I : S → Prop} (hstep : ∀ s e, I s → (P s e ↔ G s e))
    (hkeep : ∀ s e s', I s → G s e → sys.step s e = some s' → I s')
    {s : S} (hs : I s) (es : List E) : sys.Along P s es ↔ sys.Along G s es := by
  induction es generalizing s with
  | nil => exact Iff.rfl
  | cons e es ih =>
    have hfirst := hstep s e hs
    constructor
    · rintro ⟨hP, hrest⟩
      refine ⟨hfirst.mp hP, ?_⟩
      intro s' hs'
      exact (ih (hkeep s e s' hs (hfirst.mp hP) hs')).mp (hrest s' hs')
    · rintro ⟨hG, hrest⟩
      refine ⟨hfirst.mpr hG, ?_⟩
      intro s' hs'
      exact (ih (hkeep s e s' hs hG hs')).mpr (hrest s' hs')

theorem Along.mono {P Q : S → E → Prop} (himp : ∀ s e, P s e → Q s e) {s : S} {es : List E}
    (h : sys.Along P s es) : sys.Along Q s es := by
  induction es generalizing s with
  | nil => trivial
  | cons e es ih => exact ⟨himp s e h.1, fun s' hs' => ih (h.2 s' hs')⟩

/-- A condition on the events alone can be checked on the list of them. -/
theorem Along.and_of_forall {P : S → E → Prop} {Q : E → Prop} {s : S} {es : List E}
    (h : sys.Along P s es) (hQ : ∀ e ∈ es, Q e) : sys.Along (fun s e => P s e ∧ Q e) s es := by
  induction es generalizing s with
  | nil => trivial
  | cons e es ih =>
    refine ⟨⟨h.1, hQ e (List.mem_cons_self ..)⟩, fun s' hs' => ?_⟩
    exact ih (h.2 s' hs') fun f hf => hQ f (List.mem_cons_of_mem _ hf)

/-- A run that meets the condition leads to states reached under it. -/
theorem Along.reachableWhen {G : S → E → Prop} {s s' : S} {es : List E} (h : sys.Along G s es)
    (hs : sys.ReachableWhen G s) (hrun : sys.runFrom s es = some s') : sys.ReachableWhen G s' := by
  induction es generalizing s with
  | nil =>
    obtain rfl : s = s' := by simpa [System.runFrom] using hrun
    exact hs
  | cons e es ih =>
    obtain ⟨s₁, hs₁, hrest⟩ := Option.bind_eq_some_iff.mp hrun
    exact ih (h.2 s₁ hs₁) (hs.step h.1 hs₁) hrest

/-- Conditions that can be checked on a step can be checked along a run. -/
instance Along.decidable (P : S → E → Prop) [∀ s e, Decidable (P s e)] :
    ∀ s es, Decidable (sys.Along P s es)
  | _, [] => .isTrue trivial
  | s, e :: es =>
    match hs : sys.step s e with
    | none => decidable_of_iff (P s e) ⟨fun h => ⟨h, by rw [hs]; nofun⟩, And.left⟩
    | some s' =>
      let _ := Along.decidable P s' es
      decidable_of_iff (P s e ∧ sys.Along P s' es)
        ⟨fun h => ⟨h.1, by rw [hs]; rintro _ ⟨⟩; exact h.2⟩, fun h => ⟨h.1, h.2 s' hs⟩⟩

/-- **Waiting aside, runs are bounded**: where every step that changes the state lowers a rank,
    runs of such steps are no longer than the rank. -/
theorem Along.length_add_rank_le (rank : S → Nat) {I : S → Prop}
    (hkeep : ∀ s e s', I s → sys.step s e = some s' → I s')
    (hless : ∀ s e s', I s → sys.step s e = some s' → s' = s ∨ rank s' < rank s)
    {s s' : S} {es : List E} (h : sys.Along (fun s e => sys.step s e ≠ some s) s es) (hs : I s)
    (hrun : sys.runFrom s es = some s') : es.length + rank s' ≤ rank s := by
  induction es generalizing s with
  | nil =>
    obtain rfl : s = s' := by simpa [System.runFrom] using hrun
    exact Nat.le_of_eq (Nat.zero_add _)
  | cons e es ih =>
    obtain ⟨s₁, hs₁, hrest⟩ := Option.bind_eq_some_iff.mp hrun
    have hlater := ih (h.2 s₁ hs₁) (hkeep s e s₁ hs hs₁) hrest
    rw [List.length_cons]
    rcases hless s e s₁ hs hs₁ with heq | hlt
    · exact absurd (heq ▸ hs₁) h.1
    · omega

/-- **Completion, waiting aside**: where every state that is not final has a step that meets the
    condition and lowers a rank, so many such steps at most lead to a final state. -/
theorem exists_final_along (rank : S → Nat) (final : S → Prop) {G : S → E → Prop} {I : S → Prop}
    (hkeep : ∀ s e s', I s → G s e → sys.step s e = some s' → I s')
    (hless : ∀ s, I s → ¬final s →
      ∃ e s', G s e ∧ sys.step s e = some s' ∧ rank s' < rank s) {s : S} (hs : I s) :
    ∃ es s', sys.Along G s es ∧ sys.runFrom s es = some s' ∧ final s' ∧
      es.length ≤ rank s := by
  induction hn : rank s using Nat.strongRecOn generalizing s with
  | ind n ih =>
    by_cases hfinal : final s
    · exact ⟨[], s, trivial, rfl, hfinal, Nat.zero_le _⟩
    · obtain ⟨e, s₁, hG, hs₁, hlt⟩ := hless s hs hfinal
      obtain ⟨es, s', halong, hrun, hfinal', hlength⟩ :=
        ih (rank s₁) (hn ▸ hlt) (hkeep s e s₁ hs hG hs₁) rfl
      refine ⟨e :: es, s', ⟨hG, ?_⟩, ?_, hfinal', ?_⟩
      · intro s₂ hs₂
        obtain rfl := Option.some.inj (hs₁.symm.trans hs₂)
        exact halong
      · rw [runFrom, hs₁, Option.bind_some, hrun]
      · rw [List.length_cons, ← hn]
        exact Nat.lt_of_le_of_lt hlength hlt

/-- The invariant along a run that meets the condition. -/
theorem Along.invariant {G : S → E → Prop} {I : S → Prop}
    (hkeep : ∀ s e s', I s → G s e → sys.step s e = some s' → I s')
    {s s' : S} {es more : List E} (h : sys.Along G s (es ++ more)) (hs : I s)
    (hrun : sys.runFrom s es = some s') : I s' ∧ sys.Along G s' more := by
  induction es generalizing s with
  | nil =>
    obtain rfl : s = s' := by simpa [System.runFrom] using hrun
    exact ⟨hs, h⟩
  | cons e es ih =>
    obtain ⟨s₁, hs₁, hrest⟩ := Option.bind_eq_some_iff.mp hrun
    exact ih (h.2 s₁ hs₁) (hkeep s e s₁ hs h.1 hs₁) hrest

end System

end TaskSystem.Library
