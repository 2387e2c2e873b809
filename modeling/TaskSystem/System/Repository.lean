import Mathlib.Data.List.Find
import Mathlib.Data.List.Induction
import TaskSystem.Library.CPlatform

/-!
# The Name Repository

`repository_set_name` and `repository_get_id` (`src/System/System.c`) over the part of
`struct SystemData` that starts with

    char task_name[MAX_NAME_SIZE][MAX_TASK];
    int task_has_name[MAX_TASK];

The dimensions of `task_name` are the wrong way round: it has `MAX_NAME_SIZE` rows of
`MAX_TASK` characters, but is indexed by task id. Addresses are offsets from `task_name`.

## Contents

- `taskName`, `taskHasName`: where the code reads and writes
- `create`, `setName`, `getId`; the rows each of them touches
- `latest`, `Correct`: the map the repository is meant to be
- `never_correct`: the property fails in every run, and what of it holds for the ids that
  have a row
- `flag_overwritten`: a name registered for one task erases the flag of another
-/

namespace TaskSystem.Repository

open Library

/-! ## Layout -/

def maxTask : Nat := 100
def maxNameSize : Nat := 30

/-- `sizeof(task_name)` -/
def sizeofTaskName : Int := maxNameSize * maxTask

/-- `task_name[id]` -/
def taskName (id : Nat) : Int := maxTask * id

/-- `&task_has_name[id]` -/
def taskHasName (id : Nat) : Int := sizeofTaskName + 4 * id

/-- The row `task_name[id]` lies inside the array. -/
def RowInside (id : Nat) : Prop := taskName id + maxTask ≤ sizeofTaskName

instance (id : Nat) : Decidable (RowInside id) := by unfold RowInside; infer_instance

/-! ## The functions -/

/-- The rows the initialisation loop of `System_create` goes through. -/
def createdRows : List Nat := List.range maxTask

/-- One round of that loop. -/
def initRow (m : Mem) (i : Nat) : Mem :=
  m.applyStores 0 [.int (taskHasName i) 0, ⟨taskName i, strncpy [] maxNameSize⟩]

/-- The initialisation loop of `System_create`. -/
def create (m : Mem) : Mem := createdRows.foldl initRow m

/-- `repository_set_name` -/
def setName (m : Mem) (name : List UInt8) (taskID : Nat) : Mem :=
  m.applyStores 0 [⟨taskName taskID, strncpy name maxNameSize⟩, .int (taskHasName taskID) 1]

/-- `this->data->task_has_name[i] == 1` -/
def hasName (m : Mem) (i : Nat) : Bool := m.loadInt (taskHasName i) = 1

/-- `strcmp(task_name, this->data->task_name[i]) == 0` for a name without its NUL -/
def sameName (m : Mem) (name : List UInt8) (i : Nat) : Bool :=
  m.read (taskName i) (name.length + 1) = name ++ [0]

/-- The loop of `repository_get_id` over the ids `is`: the rows it compares and its result. -/
def search (m : Mem) (name : List UInt8) : List Nat → List Nat × Int
  | [] => ([], -1)
  | i :: is =>
    if hasName m i then
      if sameName m name i then ([i], i)
      else
        let rest := search m name is
        (i :: rest.1, rest.2)
    else search m name is

/-- `repository_get_id` -/
def getId (m : Mem) (name : List UInt8) : Int := (search m name (List.range maxTask)).2

/-! ## The map it is meant to be -/

/-- A NUL-terminated string shorter than `MAX_NAME_SIZE`, without its NUL. -/
def IsName (name : List UInt8) : Prop := name.length < maxNameSize ∧ ∀ c ∈ name, c ≠ 0

/-- A call of `repository_set_name` with an id and a name it may be called with. -/
structure SetName where
  name : List UInt8
  id : Nat
  isName : IsName name
  id_lt : id < maxTask

/-- The memory after `System_create` and the calls. -/
def runCalls (m : Mem) (calls : List SetName) : Mem :=
  calls.foldl (fun m c => setName m c.name c.id) (create m)

/-- The most recently set name of each id. -/
def latest (calls : List SetName) : Nat → Option (List UInt8) :=
  calls.foldl (fun names c => Function.update names c.id (some c.name)) fun _ => none

/-- The smallest id whose most recently set name is `name`, or -1. -/
def expectedId (calls : List SetName) (name : List UInt8) : Int :=
  match (List.range maxTask).find? fun i => latest calls i = some name with
  | some i => i
  | none => -1

/-- For the ids below `k`: lookups give the smallest id with the name, and setting one task's
    name changes neither name nor flag of another. -/
structure IsMap (m : Mem) (calls : List SetName) (k : Nat) : Prop where
  get_id : ∀ name, IsName name → getId (runCalls m calls) name = expectedId calls name
  frame : ∀ c : SetName, c.id < k → ∀ i < k, i ≠ c.id →
    hasName (setName (runCalls m calls) c.name c.id) i = hasName (runCalls m calls) i ∧
    (setName (runCalls m calls) c.name c.id).read (taskName i) maxNameSize =
      (runCalls m calls).read (taskName i) maxNameSize

/-- The repository is a correct map after the calls, and all rows that were touched lie in
    the array. -/
structure Correct (m : Mem) (calls : List SetName) : Prop extends IsMap m calls maxTask where
  createdInside : ∀ i ∈ createdRows, RowInside i
  setInside : ∀ c ∈ calls, RowInside c.id
  comparedInside : ∀ name, IsName name →
    ∀ i ∈ (search (runCalls m calls) name (List.range maxTask)).1, RowInside i

/-! ## The initialisation clears every flag -/

/-- A round of the loop leaves each byte or clears it, and clears the flag of its id. -/
theorem initRow_apply (m : Mem) (i : Nat) (x : Int) :
    (initRow m i x = m x ∨ initRow m i x = 0) ∧
      (taskHasName i ≤ x → x < taskHasName i + 4 → initRow m i x = 0) := by
  have hflag : (Store.int (taskHasName i) 0).bytes = List.replicate 4 0 := rfl
  have hrow : strncpy [] maxNameSize = List.replicate maxNameSize 0 := rfl
  simp only [initRow, Mem.applyStores_cons, Mem.applyStores_nil, hflag, hrow, Int.zero_add,
    Mem.write_replicate_zero, Store.off_int]
  constructor
  · split
    · exact .inr rfl
    · split
      · exact .inr rfl
      · exact .inl rfl
  · intro h₁ h₂
    have hin : taskHasName i ≤ x ∧ x < taskHasName i + (4 : Nat) := ⟨h₁, by push_cast; exact h₂⟩
    -- the row of an id may lie over its flag, and clears it as well
    rw [if_pos hin, ite_self]

/-- A byte that is clear, or belongs to the flag of an id to come, is clear after the loop. -/
theorem foldl_initRow_zero (is : List Nat) (m : Mem) (x : Int)
    (h : m x = 0 ∨ ∃ i ∈ is, taskHasName i ≤ x ∧ x < taskHasName i + 4) :
    is.foldl initRow m x = 0 := by
  induction is generalizing m with
  | nil => simpa using h
  | cons j is ih =>
    apply ih
    -- a round never sets a byte, so what is clear stays clear
    obtain ⟨hkeep, hclear⟩ := initRow_apply m j x
    rcases h with hzero | ⟨i, hi, h₁, h₂⟩
    · left
      rcases hkeep with hk | hk
      · rw [hk, hzero]
      · exact hk
    · rcases List.mem_cons.mp hi with rfl | hi
      · exact .inl (hclear h₁ h₂)
      · exact .inr ⟨i, hi, h₁, h₂⟩

theorem holds_flag_create (m : Mem) {i : Nat} (hi : i < maxTask) :
    (create m).Holds 0 (.int (taskHasName i) 0) := by
  have hbytes : (Store.int (taskHasName i) 0).bytes = List.replicate 4 0 := rfl
  rw [Mem.Holds, hbytes, Store.off_int, Int.zero_add, List.length_replicate]
  apply Mem.read_eq_replicate
  intro x h₁ h₂
  apply foldl_initRow_zero
  exact .inr ⟨i, List.mem_range.mpr hi, h₁, by omega⟩

/-! ## Ids that have a row -/

/-- The flags tell which ids have a name, and the rows of those ids hold them. -/
structure Inv (m : Mem) (names : Nat → Option (List UInt8)) : Prop where
  flag : ∀ i < maxTask, m.Holds 0 (.int (taskHasName i) (if (names i).isSome then 1 else 0))
  row : ∀ i name, names i = some name →
    i < maxNameSize ∧ IsName name ∧ m.Holds 0 ⟨taskName i, strncpy name maxNameSize⟩

/-- Row and flag of an id with a row lie apart from rows and flags of the others. -/
theorem setName_stores_disjoint {id i : Nat} (name name' : List UInt8) (v w : Int32)
    (hid : id < maxNameSize) :
    (i < maxNameSize → i ≠ id →
      ∀ s ∈ ([⟨taskName id, strncpy name maxNameSize⟩, .int (taskHasName id) v] : List Store),
        Store.Disjoint ⟨taskName i, strncpy name' maxNameSize⟩ s) ∧
    (i ≠ id →
      ∀ s ∈ ([⟨taskName id, strncpy name maxNameSize⟩, .int (taskHasName id) v] : List Store),
        (Store.int (taskHasName i) w).Disjoint s) := by
  unfold maxNameSize at hid ⊢
  constructor
  · -- rows of `MAX_TASK` bytes do not overlap, and 30 of them end where the flags begin
    intro hi hne s hs
    simp only [List.mem_cons, List.not_mem_nil, or_false] at hs
    rcases hs with rfl | rfl
    · simp only [Store.Disjoint, Store.stop_mk, length_strncpy, taskName, maxTask]
      omega
    · simp only [Store.Disjoint, Store.stop_mk, Store.stop_int, Store.off_int, length_strncpy,
        taskName, taskHasName, sizeofTaskName, maxTask, maxNameSize]
      omega
  · -- so with `id < MAX_NAME_SIZE` the row of `id` lies before every flag
    intro hne s hs
    simp only [List.mem_cons, List.not_mem_nil, or_false] at hs
    rcases hs with rfl | rfl
    · simp only [Store.Disjoint, Store.stop_mk, Store.stop_int, Store.off_int, length_strncpy,
        taskName, taskHasName, sizeofTaskName, maxTask, maxNameSize]
      omega
    · simp only [Store.Disjoint, Store.stop_int, Store.off_int, taskHasName]
      omega

theorem inv_create (m : Mem) : Inv (create m) fun _ => none where
  flag _ hi := holds_flag_create m hi
  row _ _ h := by cases h

/-- **Step**: setting the name of an id with a row updates the map there. -/
theorem Inv.setName {m : Mem} {names : Nat → Option (List UInt8)} (h : Inv m names) (c : SetName)
    (hid : c.id < maxNameSize) :
    Inv (setName m c.name c.id) (Function.update names c.id (some c.name)) := by
  -- the two stores of one call do not overlap either
  have hpair : List.Pairwise Store.Disjoint
      [⟨taskName c.id, strncpy c.name maxNameSize⟩, .int (taskHasName c.id) 1] := by
    unfold maxNameSize at hid
    simp only [List.pairwise_cons, List.mem_singleton, forall_eq, List.not_mem_nil,
      false_implies, implies_true, List.Pairwise.nil, and_true, Store.Disjoint, Store.stop_mk,
      Store.stop_int, Store.off_int, length_strncpy, taskName, taskHasName, sizeofTaskName,
      maxTask, maxNameSize]
    omega
  constructor
  · -- the flags: the one just set, and those of the other ids
    intro i hi
    by_cases hne : i = c.id
    · subst hne
      rw [Function.update_self]
      exact Mem.holds_applyStores m hpair (by simp)
    · rw [Function.update_of_ne hne]
      exact (h.flag i hi).applyStores ((setName_stores_disjoint c.name [] 1 _ hid).2 hne)
  · -- the rows, likewise
    intro i name hname
    by_cases hne : i = c.id
    · subst hne
      rw [Function.update_self, Option.some.injEq] at hname
      subst hname
      exact ⟨hid, c.isName, Mem.holds_applyStores m hpair (by simp)⟩
    · rw [Function.update_of_ne hne] at hname
      obtain ⟨hi, hisName, hheld⟩ := h.row i name hname
      exact ⟨hi, hisName,
        hheld.applyStores ((setName_stores_disjoint c.name name 1 0 hid).1 hi hne)⟩

/-- **Run**: after calls whose ids have a row, the memory holds the map. -/
theorem inv_runCalls (m : Mem) (calls : List SetName) (hids : ∀ c ∈ calls, c.id < maxNameSize) :
    Inv (runCalls m calls) (latest calls) := by
  induction calls using List.reverseRecOn with
  | nil => exact inv_create m
  | append_singleton calls c ih =>
    have hcalls := ih fun d hd => hids d (List.mem_append_left _ hd)
    have hstep := hcalls.setName c (hids c (by simp))
    simpa [runCalls, latest, List.foldl_append] using hstep

/-! ## Lookup -/

/-- The loop returns the first id whose flag is set and whose row compares equal. -/
theorem search_eq (m : Mem) (name : List UInt8) (is : List Nat) :
    (search m name is).2 =
      match is.find? fun i => hasName m i && sameName m name i with
      | some i => (i : Int)
      | none => -1 := by
  induction is with
  | nil => rfl
  | cons i is ih =>
    by_cases hflag : hasName m i
    · by_cases hsame : sameName m name i
      · simp [search, hflag, hsame]
      · simp [search, hflag, hsame, ih]
    · simp [search, hflag, ih]

/-- `strcmp` of a name with a row that holds a name. -/
theorem take_strncpy_eq_iff {name name' : List UInt8} (h : IsName name) (h' : IsName name') :
    (strncpy name' maxNameSize).take (name.length + 1) = name ++ [0] ↔ name' = name := by
  constructor
  · intro htake
    -- both sides read back as strings
    have hsplit := List.take_append_drop (name.length + 1) (strncpy name' maxNameSize)
    rw [htake, List.append_assoc] at hsplit
    have hread := cString_append_nul h.2 ((strncpy name' maxNameSize).drop (name.length + 1))
    rw [List.singleton_append] at hsplit
    rw [hsplit, strncpy_of_lt h'.2 h'.1, cString_append_nul h'.2] at hread
    exact hread
  · rintro rfl
    have hsplit : name' ++ 0 :: List.replicate (maxNameSize - name'.length - 1) 0 =
        (name' ++ [0]) ++ List.replicate (maxNameSize - name'.length - 1) 0 := by simp
    rw [strncpy_of_lt h.2 h.1, hsplit]
    exact List.take_left' (by simp)

theorem Inv.lookup {m : Mem} {names : Nat → Option (List UInt8)} (h : Inv m names)
    {name : List UInt8} (hname : IsName name) {i : Nat} (hi : i < maxTask) :
    (hasName m i && sameName m name i) = decide (names i = some name) := by
  have hflag := (h.flag i hi).loadInt
  rw [Int.zero_add] at hflag
  cases hnames : names i with
  | none =>
    have hunset : hasName m i = false := by
      rw [hasName, hflag, hnames]
      decide
    simp [hunset]
  | some name' =>
    obtain ⟨-, hname', hrow⟩ := h.row i name' hnames
    have hset : hasName m i = true := by
      simp [hasName, hflag, hnames]
    -- the row holds the name padded with zeros, and `strcmp` reads up to its NUL
    have hread : m.read (taskName i) maxNameSize = strncpy name' maxNameSize := by
      have := hrow
      simp only [Mem.Holds, length_strncpy, Int.zero_add] at this
      exact this
    have hlen : name.length + 1 ≤ maxNameSize := hname.1
    have hsame : sameName m name i = decide (name' = name) := by
      rw [sameName, ← Mem.take_read m (taskName i) hlen, hread, decide_eq_decide]
      exact take_strncpy_eq_iff hname hname'
    simp [hset, hsame]

/-- **`repository_get_id`** gives the first id that the map sends to the name. -/
theorem Inv.getId {m : Mem} {names : Nat → Option (List UInt8)} (h : Inv m names)
    {name : List UInt8} (hname : IsName name) :
    getId m name = match (List.range maxTask).find? fun i => names i = some name with
      | some i => (i : Int)
      | none => -1 := by
  rw [Repository.getId, search_eq]
  -- id by id the loop tests what the map says
  have hfind : (List.range maxTask).find? (fun i => hasName m i && sameName m name i) =
      (List.range maxTask).find? fun i => decide (names i = some name) := by
    apply List.find?_congr
    intro i hi
    exact h.lookup hname (List.mem_range.mp hi)
  rw [hfind]

/-- **Never correct**: the initialisation loop itself leaves the array in every run. For the
    ids that have a row the repository is a map all the same. -/
theorem never_correct (m : Mem) (calls : List SetName) :
    ¬Correct m calls ∧
      ((∀ c ∈ calls, c.id < maxNameSize) → IsMap m calls maxNameSize) := by
  constructor
  · intro h
    -- row 30 is the first behind the array, and the loop goes up to 99
    have hrow : RowInside 30 := h.createdInside 30 (by decide)
    exact absurd hrow (by decide)
  · intro hids
    have hinv := inv_runCalls m calls hids
    constructor
    · intro name hname
      exact hinv.getId hname
    · intro c hc i hi hne
      have hi' : i < maxTask := by unfold maxNameSize at hi; unfold maxTask; omega
      -- both the flag and the row of `i` are held before, and the call stores elsewhere
      have hflag := hinv.flag i hi'
      have hflag' := hflag.applyStores
        ((setName_stores_disjoint c.name [] 1 _ hc).2 hne)
      have hload := hflag.loadInt
      have hload' := hflag'.loadInt
      refine ⟨?_, ?_⟩
      · rw [Int.zero_add] at hload hload'
        simp only [hasName, setName, hload, hload']
      · apply Mem.read_congr
        intro x h₁ h₂
        apply Mem.applyStores_apply
        intro s hs
        have hapart := (setName_stores_disjoint c.name [] 1 0 hc).1 hi hne s hs
        simp only [Store.Disjoint, Store.stop_mk, length_strncpy] at hapart
        omega

/-- `repository_set_name` with a one-letter name -/
def setLetter (c : UInt8) (id : Nat) (hc : c ≠ 0) (hid : id < maxTask) : SetName where
  name := [c]
  id := id
  isName := ⟨by simp [maxNameSize], by simpa using hc⟩
  id_lt := hid

/-- **A flag overwritten**: task 1 registers as "x" and is found; then task 30 registers as
    "a", and its row lies over the flag of task 1. -/
theorem flag_overwritten :
    let x := setLetter 120 1 (by decide) (by decide)
    let a := setLetter 97 30 (by decide) (by decide)
    getId (runCalls (fun _ => 0) [x]) [120] = 1 ∧
      getId (runCalls (fun _ => 0) [x, a]) [120] = -1 ∧ expectedId [x, a] [120] = 1 ∧
      ¬Correct (fun _ => 0) [x, a] := by
  intro x a
  -- memory full of zeros stays so, which makes the runs computable
  have hcreate : create (fun _ => 0) = fun _ => 0 := by
    funext y
    exact foldl_initRow_zero _ _ y (.inl rfl)
  have hfound : getId (runCalls (fun _ => 0) [x]) [120] = 1 := by
    rw [runCalls, hcreate]
    decide +kernel
  have hlost : getId (runCalls (fun _ => 0) [x, a]) [120] = -1 := by
    rw [runCalls, hcreate]
    decide +kernel
  have hexpected : expectedId [x, a] [120] = 1 := by decide +kernel
  refine ⟨hfound, hlost, hexpected, fun h => ?_⟩
  have hget := h.get_id [120] x.isName
  rw [hlost, hexpected] at hget
  exact absurd hget (by decide)

end TaskSystem.Repository
