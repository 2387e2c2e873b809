import TaskSystem.Library.CriticalSection
import TaskSystem.System.Repository

/-!
# The Repository Under Its Lock

`repository_set_name` and `repository_get_id` (`src/System/System.c`) byte by byte, as the
threads of all processes run them at once: both take `sleepers_lock` (the `repository_mutex` is
initialised and never used), and both leave their section on one path.

## Contents

- `strncpyTo`, `strcmpAt`: the string functions, a byte at a time
- `RepositoryCall`, `code`: the programs
- `lookUp`: the map the calls are about
- `repository_linearizable`: what the threads observe is this map
-/

namespace TaskSystem.Repository

open Library

/-! ## The functions, byte by byte -/

/-- One byte after the other is stored from address `a` on. -/
def strncpyTo (a : Int) : List UInt8 → Prog Mem PUnit
  | [] => pure ⟨⟩
  | c :: cs => do
    .modify fun m => m.write a [c]
    strncpyTo (a + 1) cs

/-- `strcmp(.., a) == 0` with the bytes of a string and its NUL: the first difference ends it. -/
def strcmpAt (a : Int) : List UInt8 → Prog Mem Bool
  | [] => pure true
  | c :: cs => do
    let m ← .get
    if m a = c then strcmpAt (a + 1) cs else pure false

/-- The loop of `repository_get_id` over the ids `is` -/
def searchLoop (name : List UInt8) : List Nat → Prog Mem Int
  | [] => pure (-1)
  | i :: is => do
    let m ← .get
    if hasName m i then
      let same ← strcmpAt (taskName i) (name ++ [0])
      if same then pure i else searchLoop name is
    else searchLoop name is

/-- A call of a function of the repository -/
inductive RepositoryCall where
  | setName (name : List UInt8) (taskID : Nat)
  | getId (taskName : List UInt8)

/-- The program of a call; `repository_set_name` returns nothing. -/
def code : RepositoryCall → Prog Mem (Option Int)
  | .setName name taskID =>
    .lock do
      strncpyTo (taskName taskID) (strncpy name maxNameSize)
      .modify fun m => m.applyStores 0 [.int (taskHasName taskID) 1]
      .unlock (.ret none)
  | .getId name =>
    .lock do
      let toret ← searchLoop name (List.range maxTask)
      .unlock (.ret (some toret))

/-- A call as one step -/
def step : RepositoryCall → Mem → Mem × Option Int
  | .setName name taskID, m => (setName m name taskID, none)
  | .getId name, m => (m, some (getId m name))

/-! ## Each program is its step -/

theorem write_cons (m : Mem) (a : Int) (c : UInt8) (cs : List UInt8) :
    m.write a (c :: cs) = (m.write a [c]).write (a + 1) cs := by
  funext x
  by_cases hx : x = a
  · subst hx
    rw [Mem.write_apply_outside (m := m.write x [c]) (.inl (by omega))]
    simp [Mem.write]
  · by_cases hin : a + 1 ≤ x ∧ x < a + 1 + cs.length
    · obtain ⟨i, rfl⟩ : ∃ i : Nat, x = a + 1 + i := ⟨(x - (a + 1)).toNat, by omega⟩
      have hi : i < cs.length := by omega
      rw [Mem.write_apply_inside i hi, show a + 1 + (i : Int) = a + (i + 1 : Nat) by omega,
        Mem.write_apply_inside (i + 1) (by simpa using hi), List.getElem_cons_succ]
    · rw [Mem.write_apply_outside (by simp only [List.length_cons]; omega),
        Mem.write_apply_outside (by omega),
        Mem.write_apply_outside (by simp only [List.length_singleton]; omega)]

theorem exec_strncpyTo (cs : List UInt8) (a : Int) (m : Mem) :
    (strncpyTo a cs).exec m = some (m.write a cs, ⟨⟩) := by
  induction cs generalizing a m with
  | nil =>
    have hnil : m.write a [] = m := by
      funext x
      exact Mem.write_apply_outside (by simp only [List.length_nil]; omega)
    rw [hnil]
    rfl
  | cons c cs ih => exact (ih (a + 1) (m.write a [c])).trans (by rw [← write_cons])

theorem exec_strcmpAt (cs : List UInt8) (a : Int) (m : Mem) :
    (strcmpAt a cs).exec m = some (m, decide (m.read a cs.length = cs)) := by
  induction cs generalizing a with
  | nil => rfl
  | cons c cs ih =>
    rw [List.length_cons, Mem.read_succ, strcmpAt, Prog.get_bind, Prog.exec]
    by_cases hc : m a = c
    · simp [hc, ih]
    · simp [hc]

theorem exec_searchLoop (name : List UInt8) (is : List Nat) (m : Mem) :
    (searchLoop name is).exec m = some (m, (search m name is).2) := by
  induction is with
  | nil => rfl
  | cons i is ih =>
    rw [searchLoop, Prog.get_bind, Prog.exec]
    by_cases hflag : hasName m i
    · simp only [id_eq, hflag, if_true, Prog.exec_bind, exec_strcmpAt, Option.bind_some]
      have hcmp : decide (m.read (taskName i) (name ++ [0]).length = name ++ [0]) =
          sameName m name i := by
        rw [List.length_append, List.length_singleton]
        rfl
      rw [hcmp]
      by_cases hsame : sameName m name i
      · simp [hsame, search, hflag]
      · simp [hsame, search, hflag, ih]
    · simp [hflag, search, ih]

theorem plain_strncpyTo (cs : List UInt8) (a : Int) : (strncpyTo a cs).Plain := by
  induction cs generalizing a with
  | nil => trivial
  | cons c cs ih => exact fun _ => ih (a + 1)

theorem plain_strcmpAt (cs : List UInt8) (a : Int) : (strcmpAt a cs).Plain := by
  induction cs generalizing a with
  | nil => trivial
  | cons c cs ih =>
    apply Prog.Plain.bind Prog.plain_get
    intro m
    split
    · exact ih (a + 1)
    · trivial

theorem plain_searchLoop (name : List UInt8) (is : List Nat) : (searchLoop name is).Plain := by
  induction is with
  | nil => trivial
  | cons i is ih =>
    apply Prog.Plain.bind Prog.plain_get
    intro m
    split
    · apply Prog.Plain.bind (plain_strcmpAt _ _)
      intro same
      split
      · trivial
      · exact ih
    · exact ih

/-- **Step**: on its way from locking to unlocking, every program does what its call does. -/
theorem leave_code (c : RepositoryCall) :
    ∃ body, code c = .lock body ∧ ∀ m, body.leave m = some (step c m) := by
  cases c with
  | setName name taskID =>
    refine ⟨_, rfl, fun m => ?_⟩
    rw [Prog.leave_bind (plain_strncpyTo _ _), exec_strncpyTo, Option.bind_some]
    simp [Prog.leave, step, setName, Mem.applyStores]
  | getId name =>
    refine ⟨_, rfl, fun m => ?_⟩
    rw [Prog.leave_bind (plain_searchLoop _ _), exec_searchLoop]
    rfl

/-! ## The map -/

/-- The calls on the map they are about: the names of the ids. -/
def lookUp : RepositoryCall → (Nat → Option (List UInt8)) →
    (Nat → Option (List UInt8)) × Option Int
  | .setName name taskID, names => (Function.update names taskID (some name), none)
  | .getId name, names =>
    (names, some (match (List.range maxTask).find? fun i => names i = some name with
      | some i => i
      | none => -1))

/-- Names are NUL-terminated strings that fit, and names are given to ids that have a row. -/
def RepositoryCall.InRows : RepositoryCall → Prop
  | .setName name taskID => IsName name ∧ taskID < maxNameSize
  | .getId name => IsName name

/-- **Step**: on a memory that holds a map, the calls are those on the map. -/
theorem step_lookUp (c : RepositoryCall) (m : Mem) (names : Nat → Option (List UInt8))
    (hc : c.InRows) (h : Inv m names) :
    Inv (step c m).1 (lookUp c names).1 ∧ (step c m).2 = (lookUp c names).2 := by
  cases c with
  | setName name taskID =>
    obtain ⟨hname, hid⟩ := hc
    have hlt : taskID < maxTask := Nat.lt_trans hid (by decide)
    exact ⟨h.setName ⟨name, taskID, hname, hlt⟩ hid, rfl⟩
  | getId name => exact ⟨h, congrArg some (h.getId hc)⟩

theorem guarded : Guarded (fun m => ∃ names, Inv m names) RepositoryCall.InRows code step where
  locks c _ := by
    obtain ⟨body, hcode, hleave⟩ := leave_code c
    exact ⟨body, hcode, fun m _ => hleave m⟩
  keeps c m hc hm := by
    obtain ⟨names, hinv⟩ := hm
    exact ⟨_, (step_lookUp c m names hc hinv).1⟩

/-! ## Threads on the repository -/

/-- Threads that call the functions of a repository which `System_create` has set up. -/
def machine (m : Mem) : System (Machine Mem RepositoryCall (Option Int))
    (MachineEvent RepositoryCall) :=
  Library.machine code (create m)

/-- What the threads observe: in the order in which the calls got the lock they are calls on one
    map, each thread has been told what its calls give (but for the last one, if it has not
    returned), and a thread inside a call comes out of it. -/
structure ObservesMap (m : Mem) (s : Machine Mem RepositoryCall (Option Int)) : Prop where
  told : ∀ t, ∃ pending, pending.length ≤ 1 ∧ (s.inside t = none → pending = []) ∧
    s.returned t ++ pending = answersTo lookUp (fun _ => none) s.order t
  held : s.holder = none → ∃ names, Inv s.object names
  later : ∀ es s', (machine m).runFrom s es = some s' → s.order <+: s'.order
  comesOut : ∀ t c p, s.inside t = some (c, p) → s.Returns code (create m) t c

/-- **Linearizability**: threads that set and look up names at once, for ids that have a row,
    observe a map from ids to names, and none of them is left waiting for the lock. -/
theorem repository_linearizable (m : Mem) {s : Machine Mem RepositoryCall (Option Int)}
    (h : (machine m).ReachableWhen (Calls RepositoryCall.InRows) s) : ObservesMap m s := by
  have hatomic := Machine.atomic_of_reachable guarded ⟨_, inv_create m⟩ h
  constructor
  · intro t
    obtain ⟨pending, hanswers, hlength, hout⟩ := hatomic.returned_eq t
    refine ⟨pending, hlength, hout, ?_⟩
    rw [← hanswers]
    exact answersTo_eq_of_represents step step_lookUp (inv_create m) s.order hatomic.called t
  · intro hfree
    rw [hatomic.object hfree]
    exact hatomic.kept
  · exact fun es s' hrun => Machine.order_prefix es hrun
  · exact fun t c p hin => hatomic.returns guarded hin

/-- Task 1 gets the name "a" while another thread looks it up. -/
def setAndLookUp : List (MachineEvent RepositoryCall) :=
  [.call 1 (.setName [97] 1), .step 1, .call 2 (.getId [97])] ++ List.replicate 33 (.step 1) ++
    List.replicate 7 (.step 2)

theorem setAndLookUp_inRows : ∀ e ∈ setAndLookUp, ∀ s : Machine Mem RepositoryCall (Option Int),
    Calls RepositoryCall.InRows s e := by
  have hname : IsName [97] := by simp [IsName, maxNameSize]
  intro e he s
  simp only [setAndLookUp, List.mem_append, List.mem_cons, List.mem_replicate, List.not_mem_nil,
    or_false] at he
  rcases he with ((rfl | rfl | rfl) | ⟨-, rfl⟩) | ⟨-, rfl⟩
  · exact ⟨hname, by decide⟩
  · trivial
  · exact hname
  all_goals trivial

theorem repository_linearizable_two :
    ∃ s, (machine fun _ => 7).runFrom (.start (create fun _ => 7)) setAndLookUp = some s ∧
      (s.returned 2).map Prod.snd = [some 1] ∧ ObservesMap (fun _ => 7) s := by
  have hresult : ((machine fun _ => 7).runFrom (.start (create fun _ => 7))
      setAndLookUp).map (fun s => (s.returned 2).map Prod.snd) = some [some 1] := by
    decide +kernel
  obtain ⟨s, hrun, hreturned⟩ := Option.map_eq_some_iff.mp hresult
  exact ⟨s, hrun, hreturned,
    repository_linearizable _ (.runFrom (.init rfl) _ setAndLookUp_inRows hrun)⟩

end TaskSystem.Repository
