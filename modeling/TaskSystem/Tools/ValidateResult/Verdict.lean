import TaskSystem.Tools.ValidateResult

/-!
# The Verdict of the Result Checker

When `validate_result.py` tells the lawful outputs from the others. Its loops look at one value
after the other and stop at the first at which something is wrong, and an empty bucket stops it
with an exception.

## Contents

- `Report.Listed`, `WrongAt`, `AboveAt`: the values of a report, and what may be wrong with them
- `Report.Passed`: the values that the script has looked at without stopping
- `Report.Fault`: what makes it stop at a value
- `Report.passed_or_stops`: it passes everything, or there is a first place where it stops
- `Report.success_iff_of_lawful`: the verdict on an output that is in order
- `Report.Sound`: the reports that are accepted or refused rightly; `Report.exact_iff`: they are
  those on which the verdict is exact
- `Report.Regular`: where splitters ascend and no bucket is empty
-/

namespace TaskSystem.ValidateResult

open Library

namespace Report

variable (r : Report)

/-! ## The values of a report -/

/-- How many values stand in front of the one behind `before` in bucket `m`. -/
def place (m : Nat) (before : List Int) : Nat := ((r.buckets.take m).flatten ++ before).length

/-- The value stands behind `before` in bucket `m`, and no bucket in front of it is empty. -/
structure Listed (m : Nat) (before : List Int) (val : Int) : Prop where
  nonempty : ∀ j < m, r.buckets[j]? ≠ some []
  bucket : ∃ after, r.buckets[m]? = some (before ++ val :: after)

/-- The value is not the one that the sorted input has in its place. -/
def WrongAt (m : Nat) (before : List Int) (val : Int) : Prop :=
  ∃ sortedVal, (sorted r.input)[r.place m before]? = some sortedVal ∧ val ≠ sortedVal

/-- The value is in its place, and above the limit of its bucket. -/
def AboveAt (m : Nat) (before : List Int) (val : Int) : Prop :=
  (sorted r.input)[r.place m before]? = some val ∧ ∃ limit, r.limits[m]? = some limit ∧ limit < val

/-- The sorted input has ended before the value. -/
def ExtraAt (m : Nat) (before : List Int) : Prop :=
  (sorted r.input)[r.place m before]? = none

/-! ## How far the script comes -/

/-- **The script comes as far as this**: through the first `m` buckets and through `before` in
    the next. The buckets are not empty, the values are the first of the sorted input, and none
    is above the limit of its bucket. -/
structure Passed (m : Nat) (before : List Int) : Prop where
  nonempty : ∀ j < m, ∀ vals, r.buckets[j]? = some vals → vals ≠ []
  inOrder : (r.buckets.take m).flatten ++ before <+: sorted r.input
  bounded : ∀ j < m, ∀ vals limit, r.buckets[j]? = some vals → r.limits[j]? = some limit →
    ∀ val ∈ vals, val ≤ limit
  bounded_before : ∀ limit, r.limits[m]? = some limit → ∀ val ∈ before, val ≤ limit

/-- The script has passed all buckets. -/
def PassedAll : Prop := r.Passed r.K []

@[simp]
theorem length_buckets : r.buckets.length = r.K := by
  rw [buckets, List.length_map, List.length_range']

@[simp]
theorem length_limits : r.limits.length = r.K := by
  have := r.K_pos
  rw [limits, List.length_append, sorted, List.length_mergeSort, r.splitters_length,
    List.length_singleton]
  omega

theorem getElem?_buckets {m : Nat} (hm : m < r.K) :
    r.buckets[m]? = some (valuesOf (r.before ++ r.after) ((m + 2 : Nat) : Int)) := by
  rw [buckets, List.getElem?_map, List.getElem?_range' hm, Nat.one_mul, Nat.add_comm]
  rfl

theorem exists_limit {m : Nat} (hm : m < r.K) : ∃ limit, r.limits[m]? = some limit :=
  ⟨_, List.getElem?_eq_getElem (by rwa [length_limits])⟩

variable {r} {m : Nat} {before : List Int} {val : Int}

theorem passed_zero : r.Passed 0 [] where
  nonempty j hj := absurd hj (Nat.not_lt_zero j)
  inOrder := List.nil_prefix
  bounded j hj := absurd hj (Nat.not_lt_zero j)
  bounded_before _ _ := nofun

theorem take_succ_flatten {vals : List Int} (h : r.buckets[m]? = some vals) :
    (r.buckets.take (m + 1)).flatten = (r.buckets.take m).flatten ++ vals := by
  rw [List.take_add_one, h]
  simp

/-- The next value has been passed. -/
theorem Passed.snoc (h : r.Passed m before)
    (hplace : (sorted r.input)[r.place m before]? = some val)
    (hlimit : ∀ limit, r.limits[m]? = some limit → val ≤ limit) : r.Passed m (before ++ [val]) where
  nonempty := h.nonempty
  inOrder := by
    obtain ⟨rest, hrest⟩ := h.inOrder
    rw [← hrest, place, List.getElem?_append_right (Nat.le_refl _), Nat.sub_self] at hplace
    -- what has been passed is the beginning of the sorted input, and `val` comes next in it
    obtain ⟨tail, rfl⟩ : ∃ tail, rest = val :: tail := by
      cases rest with
      | nil => cases hplace
      | cons x tail => exact ⟨tail, by rw [Option.some.inj hplace]⟩
    exact ⟨tail, by rw [← hrest]; simp⟩
  bounded := h.bounded
  bounded_before limit hl v hv := by
    rcases List.mem_append.mp hv with hv | hv
    · exact h.bounded_before limit hl v hv
    · obtain rfl := List.mem_singleton.mp hv
      exact hlimit limit hl

/-- The whole bucket has been passed. -/
theorem Passed.next {vals : List Int} (h : r.Passed m vals) (hvals : r.buckets[m]? = some vals)
    (hne : vals ≠ []) : r.Passed (m + 1) [] where
  nonempty j hj vals' hvals' := by
    rcases Nat.lt_succ_iff_lt_or_eq.mp hj with hlt | rfl
    · exact h.nonempty j hlt vals' hvals'
    · obtain rfl := Option.some.inj (hvals.symm.trans hvals')
      exact hne
  inOrder := by
    rw [take_succ_flatten hvals, List.append_nil]
    exact h.inOrder
  bounded j hj vals' limit hvals' hlimit := by
    rcases Nat.lt_succ_iff_lt_or_eq.mp hj with hlt | rfl
    · exact h.bounded j hlt vals' limit hvals' hlimit
    · obtain rfl := Option.some.inj (hvals.symm.trans hvals')
      exact h.bounded_before limit hlimit
  bounded_before _ _ := nofun

/-- What makes the script stop at a value. -/
inductive Fault (r : Report) (m : Nat) (before : List Int) (val : Int) : Prop where
  | extra (h : r.ExtraAt m before)
  | wrong (h : r.WrongAt m before val)
  | above (h : r.AboveAt m before val)

/-- A value is passed, or there is a fault in it. -/
theorem Passed.snoc_or_fault (h : r.Passed m before) (val : Int) :
    r.Passed m (before ++ [val]) ∨ r.Fault m before val := by
  -- the three tests of the loop, in their order
  cases hplace : (sorted r.input)[r.place m before]? with
  | none => exact .inr (.extra hplace)
  | some sortedVal =>
    by_cases hval : val = sortedVal
    · subst hval
      by_cases habove : ∃ limit, r.limits[m]? = some limit ∧ limit < val
      · exact .inr (.above ⟨hplace, habove⟩)
      · refine .inl (h.snoc hplace fun limit hlimit => ?_)
        exact Int.not_lt.mp fun hlt => habove ⟨limit, hlimit, hlt⟩
    · exact .inr (.wrong ⟨sortedVal, hplace, hval⟩)

/-- A place where the script stops. -/
def StopsAt (r : Report) (m : Nat) (before : List Int) (val : Int) : Prop :=
  r.Passed m before ∧ (∃ after, r.buckets[m]? = some (before ++ val :: after)) ∧
    r.Fault m before val

/-- An empty bucket before which the script does not stop. -/
def EmptyAt (r : Report) (m : Nat) : Prop := r.Passed m [] ∧ r.buckets[m]? = some []

theorem passed_bucket {vals after : List Int} (hvals : r.buckets[m]? = some (vals ++ after))
    (rest : List Int) (h : r.Passed m before) (hsplit : vals = before ++ rest) :
    r.Passed m vals ∨ ∃ before' val, before'.length < vals.length ∧ r.StopsAt m before' val := by
  -- on what is left of the bucket
  induction rest generalizing before with
  | nil =>
    rw [List.append_nil] at hsplit
    exact .inl (hsplit ▸ h)
  | cons val rest ih =>
    rcases h.snoc_or_fault val with hpassed | hfault
    · exact ih hpassed (by rw [hsplit, List.append_assoc]; rfl)
    · refine .inr ⟨before, val, ?_, h, ⟨rest ++ after, ?_⟩, hfault⟩
      · rw [hsplit, List.length_append, List.length_cons]
        omega
      · rw [hvals, hsplit, List.append_assoc]
        rfl

/-- **The script passes the first buckets, or there is a first place where it stops.** -/
theorem passed_or_stops_within (hm : m ≤ r.K) :
    r.Passed m [] ∨ (∃ m' < m, r.EmptyAt m') ∨
      ∃ m' < m, ∃ before val, r.StopsAt m' before val := by
  induction m with
  | zero => exact .inl passed_zero
  | succ m ih =>
    have hlt := Nat.lt_succ_self m
    rcases ih (Nat.le_of_succ_le hm) with
      hpassed | ⟨m', hm', hempty⟩ | ⟨m', hm', before, val, hstop⟩
    · obtain ⟨vals, hvals⟩ : ∃ vals, r.buckets[m]? = some vals := ⟨_, r.getElem?_buckets hm⟩
      -- an empty bucket has no key: the script stops before its first value
      by_cases hne : vals = []
      · exact .inr (.inl ⟨m, hlt, hpassed, hne ▸ hvals⟩)
      · have hall : r.buckets[m]? = some (vals ++ []) := by rw [List.append_nil, hvals]
        rcases passed_bucket hall vals hpassed rfl with hbucket | ⟨before, val, -, hstop⟩
        · exact .inl (hbucket.next hvals hne)
        · exact .inr (.inr ⟨m, hlt, before, val, hstop⟩)
    · exact .inr (.inl ⟨m', Nat.lt_succ_of_lt hm', hempty⟩)
    · exact .inr (.inr ⟨m', Nat.lt_succ_of_lt hm', before, val, hstop⟩)

theorem passed_or_stops (r : Report) :
    r.PassedAll ∨ (∃ m, r.EmptyAt m) ∨ ∃ m before val, r.StopsAt m before val := by
  rcases passed_or_stops_within (Nat.le_refl r.K) with
    hall | ⟨m, -, hempty⟩ | ⟨m, -, before, val, hstop⟩
  · exact .inl hall
  · exact .inr (.inl ⟨m, hempty⟩)
  · exact .inr (.inr ⟨m, before, val, hstop⟩)

/-- Values of earlier buckets stand in front. -/
theorem place_lt {m' : Nat} {before' after : List Int}
    (hvals : r.buckets[m']? = some (before' ++ val :: after)) (hm : m' < m) (before : List Int) :
    r.place m' before' < r.place m before := by
  have htake : (r.buckets.take (m' + 1)).flatten.length ≤ (r.buckets.take m).flatten.length := by
    conv_rhs => rw [← List.take_append_drop (m' + 1) (r.buckets.take m), List.take_take,
      Nat.min_eq_left hm, List.flatten_append, List.length_append]
    exact Nat.le_add_right _ _
  rw [take_succ_flatten hvals] at htake
  simp only [place, List.length_append, List.length_cons] at htake ⊢
  omega

/-- **Where a value is wrong or above its limit**, the script stops at such a value, there or
    before. -/
theorem stops_of_listed (h : r.Listed m before val)
    (hfault : r.WrongAt m before val ∨ r.AboveAt m before val) :
    ∃ m' before' val' after, r.Passed m' before' ∧
      r.buckets[m']? = some (before' ++ val' :: after) ∧
      (r.WrongAt m' before' val' ∨ r.AboveAt m' before' val') := by
  obtain ⟨hnonempty, after, hvals⟩ := h
  have hm : m < r.K := r.length_buckets ▸ (List.getElem?_eq_some_iff.mp hvals).1
  have hplace : r.place m before < (sorted r.input).length := by
    rcases hfault with ⟨sortedVal, hget, -⟩ | ⟨hget, -⟩ <;>
      exact (List.getElem?_eq_some_iff.mp hget).1
  -- a place in front of this one is not behind the end of the input
  have hstops : ∀ m' before' val', r.place m' before' < r.place m before →
      r.StopsAt m' before' val' → ∃ m' before' val' after, r.Passed m' before' ∧
        r.buckets[m']? = some (before' ++ val' :: after) ∧
        (r.WrongAt m' before' val' ∨ r.AboveAt m' before' val') := by
    rintro m' before' val' hlt ⟨hpassed, ⟨after', hvals'⟩, hfault'⟩
    refine ⟨m', before', val', after', hpassed, hvals', ?_⟩
    cases hfault' with
    | extra hextra =>
      have hle := List.getElem?_eq_none_iff.mp hextra
      omega
    | wrong hwrong => exact .inl hwrong
    | above habove => exact .inr habove
  rcases passed_or_stops_within (Nat.le_of_lt hm) with
    hpassed | ⟨m', hm', hempty⟩ | ⟨m', hm', before', val', hstop⟩
  · rcases passed_bucket hvals before hpassed rfl with hbefore | ⟨before', val', hlt, hstop⟩
    · exact ⟨m, before, val, after, hbefore, hvals, hfault⟩
    · have hlt' : r.place m before' < r.place m before := by
        simp only [place, List.length_append]
        omega
      exact hstops m before' val' hlt' hstop
  -- no bucket before this one is empty
  · exact absurd hempty.2 (hnonempty m' hm')
  · obtain ⟨after', hvals'⟩ := hstop.2.1
    exact hstops m' before' val' (place_lt hvals' hm' before) hstop

/-! ## The loops -/

/-- The first of the values that have been passed is in its place. -/
theorem Passed.inPlace {rest : List Int} (h : r.Passed m (before ++ val :: rest)) :
    (sorted r.input)[r.place m before]? = some val := by
  obtain ⟨tail, htail⟩ := h.inOrder
  rw [← htail, place]
  simp

theorem Passed.bucket {vals : List Int} (h : r.Passed (m + 1) [])
    (hvals : r.buckets[m]? = some vals) : r.Passed m vals where
  nonempty j hj := h.nonempty j (Nat.lt_succ_of_lt hj)
  inOrder := by
    have := h.inOrder
    rwa [take_succ_flatten hvals, List.append_nil] at this
  bounded j hj := h.bounded j (Nat.lt_succ_of_lt hj)
  bounded_before limit hlimit := h.bounded m (Nat.lt_succ_self m) vals limit hvals hlimit

theorem Passed.nil (h : r.Passed m before) : r.Passed m [] where
  nonempty := h.nonempty
  inOrder := by
    rw [List.append_nil]
    exact (List.prefix_append _ _).trans h.inOrder
  bounded := h.bounded
  bounded_before _ _ := nofun

theorem bucketsVal_parsed {vals : List Int} (hm : m < r.K) (hvals : r.buckets[m]? = some vals) :
    r.parsed.bucketsVal ((m + 2 : Nat) : Int) = if vals = [] then none else some vals := by
  rw [r.getElem?_buckets hm] at hvals
  rw [← Option.some.inj hvals]
  rfl

theorem checkValues_passed (hm : m < r.K) (vals more : List Int) (before : List Int)
    (h : r.Passed m (before ++ vals)) :
    checkValues (sorted r.input) r.limits (m + 2) (vals ++ more) (r.place m before) =
      checkValues (sorted r.input) r.limits (m + 2) more (r.place m (before ++ vals)) := by
  induction vals generalizing before with
  | nil => rw [List.append_nil, List.nil_append]
  | cons val vals ih =>
    obtain ⟨limit, hlimit⟩ := r.exists_limit hm
    have hle : ¬ limit < val :=
      Int.not_lt.mpr (h.bounded_before limit hlimit val (by simp))
    have hnext : r.place m before + 1 = r.place m (before ++ [val]) := by
      simp only [place, List.length_append, List.length_singleton, Nat.add_assoc]
    have hsplit : before ++ val :: vals = (before ++ [val]) ++ vals := by
      rw [List.append_assoc]
      rfl
    -- the value is the one expected, and not above the limit
    rw [List.cons_append, checkValues, h.inPlace, orRaise, ok_bind, if_neg (not_not.mpr rfl),
      Nat.add_sub_cancel, hlimit, orRaise, ok_bind, if_neg hle, hnext, hsplit]
    exact ih _ (hsplit ▸ h)

theorem checkBuckets_passed (hm : m ≤ r.K) (h : r.Passed m []) (kis : List Nat) :
    checkBuckets (sorted r.input) r.parsed (List.range' 2 m ++ kis) 0 =
      checkBuckets (sorted r.input) r.parsed kis (r.place m []) := by
  induction m generalizing kis with
  | zero => rfl
  | succ m ih =>
    obtain ⟨vals, hvals⟩ : ∃ vals, r.buckets[m]? = some vals := ⟨_, r.getElem?_buckets hm⟩
    have hpassed := h.bucket hvals
    have hne := h.nonempty m (Nat.lt_succ_self m) vals hvals
    have hvalues := checkValues_passed hm vals [] [] hpassed
    rw [List.append_nil, List.nil_append] at hvalues
    have hplace : r.place m vals = r.place (m + 1) [] := by
      rw [place, place, take_succ_flatten hvals, List.append_nil]
    rw [List.range'_1_concat, List.append_assoc, ih (Nat.le_of_succ_le hm) hpassed.nil,
      List.singleton_append, Nat.add_comm 2 m, checkBuckets, bucketsVal_parsed hm hvals,
      if_neg hne, orRaise, ok_bind]
    change (checkValues _ r.limits _ _ _ >>= _) = _
    rw [hvalues, checkValues, hplace]
    rfl

/-! ## The verdicts -/

theorem outcome_of_passedAll (h : r.PassedAll) : r.outcome = .success := by
  have hloop := checkBuckets_passed (Nat.le_refl _) h []
  rw [List.append_nil] at hloop
  rw [outcome_eq, hloop]
  rfl

/-- From the place it has come to, the script goes on with the next bucket. -/
theorem outcome_of_passed (hm : m < r.K) (h : r.Passed m []) :
    r.outcome = conclude (checkBuckets (sorted r.input) r.parsed
      ((m + 2) :: List.range' (m + 3) (r.K - (m + 1))) (r.place m [])) := by
  have hrange : List.range' 2 r.K =
      List.range' 2 m ++ (m + 2) :: List.range' (m + 3) (r.K - (m + 1)) := by
    have hK : r.K = m + (r.K - (m + 1) + 1) := by omega
    conv_lhs => rw [hK, ← List.range'_append_1, List.range'_succ]
    rw [Nat.add_comm 2 m]
  rw [outcome_eq, hrange, checkBuckets_passed (Nat.le_of_lt hm) h]

/-- **An empty bucket** has no entry in the dictionary. -/
theorem outcome_of_emptyAt (h : r.EmptyAt m) : r.outcome = .crash .keyError := by
  have hm : m < r.K := r.length_buckets ▸ (List.getElem?_eq_some_iff.mp h.2).1
  rw [outcome_of_passed hm h.1, checkBuckets, bucketsVal_parsed hm h.2]
  rfl

/-- Within a bucket the script goes on with the next value. -/
theorem outcome_of_value {after : List Int} {outcome : Outcome} (h : r.Passed m before)
    (hvals : r.buckets[m]? = some (before ++ val :: after))
    (hvalue : checkValues (sorted r.input) r.limits (m + 2) (val :: after) (r.place m before) =
      .error outcome) : r.outcome = outcome := by
  have hm : m < r.K := r.length_buckets ▸ (List.getElem?_eq_some_iff.mp hvals).1
  have hne : before ++ val :: after ≠ [] :=
    List.append_ne_nil_of_right_ne_nil _ (List.cons_ne_nil _ _)
  have hvalues := checkValues_passed hm before (val :: after) [] h
  rw [List.nil_append, hvalue] at hvalues
  rw [outcome_of_passed hm h.nil, checkBuckets, bucketsVal_parsed hm hvals, if_neg hne, orRaise,
    ok_bind]
  change conclude (checkValues _ r.limits _ _ _ >>= _) = _
  rw [hvalues]
  rfl

/-- **What the script says at the place where it stops.** -/
theorem outcome_of_extra {after : List Int} (h : r.Passed m before)
    (hvals : r.buckets[m]? = some (before ++ val :: after)) (hextra : r.ExtraAt m before) :
    r.outcome = .crash .indexError := by
  refine outcome_of_value h hvals ?_
  rw [checkValues, hextra]
  rfl

theorem outcome_of_wrong {after : List Int} (h : r.Passed m before)
    (hvals : r.buckets[m]? = some (before ++ val :: after)) (hwrong : r.WrongAt m before val) :
    ∃ sortedVal, r.outcome = .finalOrderError val sortedVal := by
  obtain ⟨sortedVal, hplace, hne⟩ := hwrong
  refine ⟨sortedVal, outcome_of_value h hvals ?_⟩
  rw [checkValues, hplace, orRaise, ok_bind, if_pos hne]

theorem outcome_of_above {after : List Int} (h : r.Passed m before)
    (hvals : r.buckets[m]? = some (before ++ val :: after)) (habove : r.AboveAt m before val) :
    ∃ limit, r.outcome = .splitterError val limit := by
  obtain ⟨hplace, limit, hlimit, hlt⟩ := habove
  refine ⟨limit, outcome_of_value h hvals ?_⟩
  rw [checkValues, hplace, orRaise, ok_bind, if_neg (not_not.mpr rfl), Nat.add_sub_cancel, hlimit,
    orRaise, ok_bind, if_pos hlt]

/-! ## Splitters in order -/

theorem sorted_of_pairwise {xs : List Int} (h : xs.Pairwise (· ≤ ·)) : sorted xs = xs :=
  List.mergeSort_of_pairwise (h.imp fun hle => decide_eq_true hle)

theorem pairwise_sorted (xs : List Int) : (sorted xs).Pairwise (· ≤ ·) := by
  have hmerge := @List.pairwise_mergeSort Int (fun a b => decide (a ≤ b))
    (by simpa using fun a b c => Int.le_trans) (by simpa using Int.le_total) xs
  exact hmerge.imp of_decide_eq_true

/-- Sorting does not lower a splitter below values that it and all behind it bound. -/
theorem le_sorted_of_drop {splitters : List Int} {j : Nat} {limit : Int}
    (h : ∀ splitter ∈ splitters.drop j, val ≤ splitter)
    (hlimit : (sorted splitters)[j]? = some limit) : val ≤ limit := by
  by_contra hlt
  have hlt := Int.not_le.mp hlt
  obtain ⟨hj, rfl⟩ := List.getElem?_eq_some_iff.mp hlimit
  -- of the splitters at most `j` are below the value
  have hfew : splitters.countP (· < val) ≤ j := by
    have hnone : (splitters.drop j).countP (· < val) = 0 := by
      refine List.countP_eq_zero.mpr fun splitter hmem => ?_
      simpa using h splitter hmem
    rw [← List.take_append_drop j splitters, List.countP_append, hnone, Nat.add_zero]
    exact List.countP_le_length.trans (List.length_take_le ..)
  -- but the first `j + 1` in their order are
  have hmany : ((sorted splitters).take (j + 1)).countP (· < val) = j + 1 := by
    rw [List.countP_eq_length.mpr, List.length_take, Nat.min_eq_left hj]
    intro splitter hmem
    obtain ⟨i, hi, rfl⟩ := List.getElem_of_mem hmem
    rw [List.length_take] at hi
    rw [List.getElem_take]
    have hle : (sorted splitters)[i] ≤ (sorted splitters)[j] := by
      rcases Nat.lt_or_eq_of_le (show i ≤ j by omega) with hij | rfl
      · exact List.pairwise_iff_getElem.mp (pairwise_sorted splitters) i j _ _ hij
      · exact Int.le_refl _
    simpa using Int.lt_of_le_of_lt hle hlt
  have hperm := (List.mergeSort_perm splitters fun a b => a ≤ b).countP_eq (· < val)
  have hsub := ((sorted splitters).take_sublist (j + 1)).countP_le (p := (· < val))
  unfold sorted at hmany hsub
  omega

theorem limits_of_lt (hm : m + 1 < r.K) : r.limits[m]? = (sorted r.splitters)[m]? := by
  have hlen := r.splitters_length
  rw [limits, List.getElem?_append_left (by rw [sorted, List.length_mergeSort]; omega)]

theorem limits_last : r.limits[r.K - 1]? = some lastSplitter := by
  have hlen : (sorted r.splitters).length = r.K - 1 := by
    rw [sorted, List.length_mergeSort, r.splitters_length]
  rw [limits, List.getElem?_append_right (Nat.le_of_eq hlen), hlen, Nat.sub_self]
  rfl

/-! ## Exactness -/

/-- **A report that is accepted rightly**: no bucket is empty, the values are the sorted input,
    none is above the splitter printed for its bucket, and in the last bucket none is above
    `lastSplitter`. -/
structure Accepted (r : Report) : Prop where
  nonempty : ∀ vals ∈ r.buckets, vals ≠ []
  inOrder : r.buckets.flatten = sorted r.input
  bounded : ∀ j splitter, r.splitters[j]? = some splitter →
    ∀ val ∈ r.buckets.getD j [], val ≤ splitter
  last : ∀ vals, r.buckets[r.K - 1]? = some vals → ∀ val ∈ vals, val ≤ lastSplitter

/-- A value in front of the first empty bucket is not the one in its place of the input. -/
def Misplaced (r : Report) : Prop :=
  ∃ m before val, r.Listed m before val ∧ r.WrongAt m before val

/-- A value in front of the first empty bucket is in its place, and above the limit that the
    splitters in ascending order, or `lastSplitter`, set to its bucket. -/
def AboveLimit (r : Report) : Prop :=
  ∃ m before val, r.Listed m before val ∧ r.AboveAt m before val

/-- A value is above the splitter printed for its bucket. -/
def AboveSplitter (r : Report) : Prop :=
  ∃ j splitter, r.splitters[j]? = some splitter ∧ ∃ val ∈ r.buckets.getD j [], splitter < val

/-- **The reports that are judged rightly**: accepted rightly; with a misplaced value; or with one
    above its limit, where also the values are not the sorted input or one is above its printed
    splitter. -/
def Sound (r : Report) : Prop :=
  r.Accepted ∨ r.Misplaced ∨
    (r.AboveLimit ∧ (r.buckets.flatten ≠ sorted r.input ∨ r.AboveSplitter))

theorem not_lawful_iff :
    ¬r.Lawful ↔ r.buckets.flatten ≠ sorted r.input ∨ r.AboveSplitter := by
  constructor
  · intro hlaw
    by_contra hnone
    rw [not_or, not_not] at hnone
    refine hlaw ⟨hnone.1, fun j splitter hsplitter val hval => ?_⟩
    exact Int.not_lt.mp fun hlt => hnone.2 ⟨j, splitter, hsplitter, val, hval, hlt⟩
  · rintro (hne | ⟨j, splitter, hsplitter, val, hval, hlt⟩) hlaw
    · exact hne hlaw.complete
    · exact Int.not_le.mpr hlt (hlaw.bounded j splitter hsplitter val hval)

theorem Accepted.lawful (h : r.Accepted) : r.Lawful := ⟨h.inOrder, h.bounded⟩

/-- Values of later buckets are not smaller. -/
theorem Accepted.le_of_later (h : r.Accepted) {i j : Nat} {vals later : List Int}
    (hvals : r.buckets[j]? = some vals) (hlater : r.buckets[i]? = some later) (hij : j < i)
    {x : Int} (hval : val ∈ vals) (hx : x ∈ later) : val ≤ x := by
  have hpairwise := pairwise_sorted r.input
  rw [← h.inOrder, List.pairwise_flatten] at hpairwise
  obtain ⟨hj, rfl⟩ := List.getElem?_eq_some_iff.mp hvals
  obtain ⟨hi, rfl⟩ := List.getElem?_eq_some_iff.mp hlater
  exact List.pairwise_iff_getElem.mp hpairwise.2 j i hj hi hij val hval x hx

/-- **The script passes all values** of such a report, in whatever order the splitters were
    printed: sorting them does not take a bucket's limit below its values. -/
theorem Accepted.passedAll (h : r.Accepted) : r.PassedAll where
  nonempty j _ vals hvals := h.nonempty vals (List.mem_of_getElem? hvals)
  inOrder := by
    have hall : (r.buckets.take r.K).flatten ++ [] = sorted r.input := by
      rw [List.append_nil, List.take_of_length_le (Nat.le_of_eq r.length_buckets), h.inOrder]
    exact ⟨[], (List.append_nil _).trans hall⟩
  bounded j hj vals limit hvals hlimit val hval := by
    by_cases hnext : j + 1 < r.K
    · rw [limits_of_lt hnext] at hlimit
      refine le_sorted_of_drop (fun splitter hmem => ?_) hlimit
      obtain ⟨k, hk, hget⟩ := List.getElem_of_mem hmem
      rw [List.length_drop, r.splitters_length] at hk
      rw [List.getElem_drop] at hget
      have hsplitter : r.splitters[j + k]? = some splitter :=
        List.getElem?_eq_some_iff.mpr ⟨_, hget⟩
      -- its bucket has a value between the two
      obtain ⟨later, hlater⟩ : ∃ later, r.buckets[j + k]? = some later :=
        ⟨_, r.getElem?_buckets (by omega)⟩
      have hbounded := h.bounded (j + k) splitter hsplitter
      rw [List.getD_eq_getElem?_getD, hlater, Option.getD_some] at hbounded
      obtain ⟨x, hx⟩ := List.exists_mem_of_ne_nil later
        (h.nonempty later (List.mem_of_getElem? hlater))
      rcases Nat.eq_zero_or_pos k with rfl | hpos
      · obtain rfl := Option.some.inj (hvals.symm.trans hlater)
        exact hbounded val hval
      · exact Int.le_trans (h.le_of_later hvals hlater (by omega) hval hx) (hbounded x hx)
    · obtain rfl : j = r.K - 1 := by omega
      obtain rfl := Option.some.inj (limits_last.symm.trans hlimit)
      exact h.last vals hvals val hval
  bounded_before _ _ := nofun

/-- What the script passes is accepted rightly under the law. -/
theorem Lawful.accepted (hlaw : r.Lawful) (hall : r.PassedAll) : r.Accepted where
  nonempty vals hvals := by
    obtain ⟨j, hj, hget⟩ := List.getElem_of_mem hvals
    exact hall.nonempty j (r.length_buckets ▸ hj) vals (List.getElem?_eq_some_iff.mpr ⟨_, hget⟩)
  inOrder := hlaw.complete
  bounded := hlaw.bounded
  last vals hvals val hval := by
    have hlast : r.K - 1 < r.K := Nat.sub_lt r.K_pos Nat.one_pos
    exact hall.bounded _ hlast vals _ hvals limits_last val hval

/-- The value behind `before` in bucket `m` is in its place among all values. -/
theorem getElem?_place {after : List Int}
    (hvals : r.buckets[m]? = some (before ++ val :: after)) :
    r.buckets.flatten[r.place m before]? = some val := by
  have hsplit : r.buckets.flatten =
      ((r.buckets.take m).flatten ++ before) ++
        val :: (after ++ (r.buckets.drop (m + 1)).flatten) := by
    conv_lhs => rw [← List.take_append_drop (m + 1) r.buckets]
    rw [List.flatten_append, take_succ_flatten hvals]
    simp only [List.append_assoc, List.cons_append]
  rw [hsplit, place]
  simp only [List.getElem?_append_right (Nat.le_refl _), Nat.sub_self, List.getElem?_cons_zero]

/-- A value in the wrong place breaks the law. -/
theorem not_lawful_of_wrong {after : List Int}
    (hvals : r.buckets[m]? = some (before ++ val :: after)) (hwrong : r.WrongAt m before val) :
    ¬r.Lawful := by
  intro hlaw
  obtain ⟨sortedVal, hplace, hne⟩ := hwrong
  rw [← hlaw.complete, getElem?_place hvals] at hplace
  exact hne (Option.some.inj hplace)

/-- **An error is reported** where a value is wrong or above its limit. -/
theorem outcome_of_listed (h : r.Listed m before val)
    (hfault : r.WrongAt m before val ∨ r.AboveAt m before val) :
    r.outcome ≠ .success ∧ ∀ e, r.outcome ≠ .crash e := by
  obtain ⟨m', before', val', after, hpassed, hvals, hwrong | habove⟩ := stops_of_listed h hfault
  · obtain ⟨sortedVal, houtcome⟩ := outcome_of_wrong hpassed hvals hwrong
    rw [houtcome]
    exact ⟨nofun, nofun⟩
  · obtain ⟨limit, houtcome⟩ := outcome_of_above hpassed hvals habove
    rw [houtcome]
    exact ⟨nofun, nofun⟩

theorem exact_of_error (h : r.outcome ≠ .success ∧ ∀ e, r.outcome ≠ .crash e)
    (hlaw : ¬r.Lawful) : r.Exact where
  success_iff := ⟨fun hsuccess => absurd hsuccess h.1, fun h => absurd h hlaw⟩
  no_crash := h.2

/-- Success means that everything has been passed. -/
theorem passedAll_of_success (h : r.outcome = .success) : r.PassedAll := by
  rcases passed_or_stops r with
    hall | ⟨m, hempty⟩ | ⟨m, before, val, hpassed, ⟨after, hvals⟩, hfault⟩
  · exact hall
  · rw [outcome_of_emptyAt hempty] at h
    cases h
  · cases hfault with
    | extra hextra =>
      rw [outcome_of_extra hpassed hvals hextra] at h
      cases h
    | wrong hwrong =>
      obtain ⟨sortedVal, houtcome⟩ := outcome_of_wrong hpassed hvals hwrong
      rw [houtcome] at h
      cases h
    | above habove =>
      obtain ⟨limit, houtcome⟩ := outcome_of_above hpassed hvals habove
      rw [houtcome] at h
      cases h

/-- **The verdict on an output that is in order**: success unless a bucket is empty or a value of
    the last one is above `lastSplitter`. -/
theorem success_iff_of_lawful (hlaw : r.Lawful) :
    r.outcome = .success ↔ (∀ vals ∈ r.buckets, vals ≠ []) ∧
      ∀ vals, r.buckets[r.K - 1]? = some vals → ∀ val ∈ vals, val ≤ lastSplitter := by
  constructor
  · intro hsuccess
    have haccepted := hlaw.accepted (passedAll_of_success hsuccess)
    exact ⟨haccepted.nonempty, haccepted.last⟩
  · rintro ⟨hnonempty, hlast⟩
    exact outcome_of_passedAll (Accepted.passedAll ⟨hnonempty, hlaw.complete, hlaw.bounded, hlast⟩)

/-- A place where the script stops is in front of the first empty bucket. -/
theorem Passed.listed {after : List Int} (h : r.Passed m before)
    (hvals : r.buckets[m]? = some (before ++ val :: after)) : r.Listed m before val :=
  ⟨fun j hj hempty => h.nonempty j hj [] hempty rfl, after, hvals⟩

/-- The verdict is exact on the reports that are judged rightly, and on no other. -/
theorem exact_iff_sound : r.Exact ↔ r.Sound := by
  constructor
  · intro h
    rcases passed_or_stops r with
      hall | ⟨m, hempty⟩ | ⟨m, before, val, hpassed, ⟨after, hvals⟩, hfault⟩
    -- the script reports success, so the output is in order
    · exact .inl ((h.success_iff.mp (outcome_of_passedAll hall)).accepted hall)
    -- the script raises an exception, which is no verdict
    · exact absurd (outcome_of_emptyAt hempty) (h.no_crash _)
    · cases hfault with
      | extra hextra => exact absurd (outcome_of_extra hpassed hvals hextra) (h.no_crash _)
      | wrong hwrong => exact .inr (.inl ⟨m, before, val, hpassed.listed hvals, hwrong⟩)
      | above habove =>
        refine .inr (.inr ⟨⟨m, before, val, hpassed.listed hvals, habove⟩, not_lawful_iff.mp ?_⟩)
        -- under the law success was to be reported, and an error is
        intro hlaw
        obtain ⟨limit, houtcome⟩ := outcome_of_above hpassed hvals habove
        have hsuccess := h.success_iff.mpr hlaw
        rw [houtcome] at hsuccess
        cases hsuccess
  · rintro (haccepted | ⟨m, before, val, hlisted, hwrong⟩ |
      ⟨⟨m, before, val, hlisted, habove⟩, hnot⟩)
    · have houtcome := outcome_of_passedAll haccepted.passedAll
      refine ⟨⟨fun _ => haccepted.lawful, fun _ => houtcome⟩, fun e he => ?_⟩
      rw [houtcome] at he
      cases he
    · obtain ⟨after, hvals⟩ := hlisted.bucket
      exact exact_of_error (outcome_of_listed hlisted (.inl hwrong))
        (not_lawful_of_wrong hvals hwrong)
    · exact exact_of_error (outcome_of_listed hlisted (.inr habove)) (not_lawful_iff.mpr hnot)

/-- Every value of the buckets has a place. -/
theorem exists_place {i : Nat} (bs : List (List Int)) (hi : i < bs.flatten.length) :
    ∃ m before val after, bs[m]? = some (before ++ val :: after) ∧
      ((bs.take m).flatten ++ before).length = i ∧ bs.flatten[i]? = some val := by
  induction bs generalizing i with
  | nil => exact absurd hi (Nat.not_lt_zero i)
  | cons b bs ih =>
    by_cases hb : i < b.length
    · refine ⟨0, b.take i, b[i], b.drop (i + 1), ?_, ?_, ?_⟩
      · rw [← List.drop_eq_getElem_cons hb, List.take_append_drop]
        rfl
      · simp only [List.take_zero, List.flatten_nil, List.nil_append, List.length_take]
        omega
      · rw [List.flatten_cons, List.getElem?_append_left hb, List.getElem?_eq_getElem hb]
    · rw [List.flatten_cons, List.length_append] at hi
      obtain ⟨m, before, val, after, hvals, hplace, hget⟩ := ih (i := i - b.length) (by omega)
      refine ⟨m + 1, before, val, after, hvals, ?_, ?_⟩
      · simp only [List.take_succ_cons, List.flatten_cons, List.length_append] at hplace ⊢
        omega
      · rw [List.flatten_cons, List.getElem?_append_right (by omega), hget]

/-- As many values as inputs are the sorted input, or one of them is misplaced. -/
theorem inOrder_or_misplaced (hnonempty : ∀ vals ∈ r.buckets, vals ≠ [])
    (hlength : r.buckets.flatten.length = r.input.length) :
    r.buckets.flatten = sorted r.input ∨ r.Misplaced := by
  by_cases hall : ∀ (i : Nat) (val : Int), r.buckets.flatten[i]? = some val →
      (sorted r.input)[i]? = some val
  -- no value is wrong, and there are as many as inputs
  · left
    have hsame : (sorted r.input).length = r.buckets.flatten.length := by
      rw [sorted, List.length_mergeSort, hlength]
    apply List.ext_getElem hsame.symm
    intro i hi hi'
    have hget := hall i _ (List.getElem?_eq_getElem hi)
    rw [List.getElem?_eq_getElem hi'] at hget
    exact (Option.some.inj hget).symm
  -- some value differs from the input's value in its place
  · right
    push Not at hall
    obtain ⟨i, val, hval, hne⟩ := hall
    have hi := (List.getElem?_eq_some_iff.mp hval).1
    obtain ⟨m, before, val', after, hvals, hplace, hget⟩ := exists_place r.buckets hi
    obtain rfl := Option.some.inj (hget.symm.trans hval)
    have hi' : i < (sorted r.input).length := by
      rw [sorted, List.length_mergeSort, ← hlength]
      exact hi
    have hsorted := List.getElem?_eq_getElem hi'
    refine ⟨m, before, val', ⟨?_, after, hvals⟩, _, by rw [place, hplace]; exact hsorted, ?_⟩
    · exact fun j _ hempty => hnonempty [] (List.mem_of_getElem? hempty) rfl
    · exact fun hsame => hne (by rw [hsorted, hsame])

/-- The splitters are printed in ascending order, no bucket is empty, and in the last bucket no
    value is above `lastSplitter`. -/
structure Regular (r : Report) : Prop where
  splitters : r.splitters.Pairwise (· ≤ ·)
  nonempty : ∀ vals ∈ r.buckets, vals ≠ []
  last : ∀ vals, r.buckets[r.K - 1]? = some vals → ∀ val ∈ vals, val ≤ lastSplitter

/-- With splitters that ascend, a value above its printed splitter is above its limit. -/
theorem AboveSplitter.aboveLimit (h : r.AboveSplitter) (hsplitters : r.splitters.Pairwise (· ≤ ·))
    (hnonempty : ∀ vals ∈ r.buckets, vals ≠ []) (hinOrder : r.buckets.flatten = sorted r.input) :
    r.AboveLimit := by
  obtain ⟨j, splitter, hsplitter, val, hval, hlt⟩ := h
  have hj := (List.getElem?_eq_some_iff.mp hsplitter).1
  rw [r.splitters_length] at hj
  obtain ⟨vals, hvals⟩ : ∃ vals, r.buckets[j]? = some vals := ⟨_, r.getElem?_buckets (by omega)⟩
  rw [List.getD_eq_getElem?_getD, hvals, Option.getD_some] at hval
  obtain ⟨before, after, rfl⟩ := List.append_of_mem hval
  refine ⟨j, before, val, ⟨?_, after, hvals⟩, ?_, splitter, ?_, hlt⟩
  · exact fun i _ hempty => hnonempty [] (List.mem_of_getElem? hempty) rfl
  · rw [← hinOrder]
    exact getElem?_place hvals
  · rw [limits_of_lt (by omega), sorted_of_pairwise hsplitters, hsplitter]

/-- A regular report is judged rightly if there are as many values as inputs, or one is misplaced
    or above its limit. -/
theorem Regular.sound_iff (h : r.Regular) :
    r.Sound ↔ r.buckets.flatten.length = r.input.length ∨ r.Misplaced ∨ r.AboveLimit := by
  constructor
  · rintro (haccepted | hmisplaced | ⟨habove, -⟩)
    · left
      rw [haccepted.inOrder, sorted, List.length_mergeSort]
    · exact .inr (.inl hmisplaced)
    · exact .inr (.inr habove)
  · rintro (hlength | hmisplaced | habove)
    · rcases inOrder_or_misplaced h.nonempty hlength with hinOrder | hmisplaced
      -- in order, so only the splitters can be violated
      · by_cases hbounded : r.AboveSplitter
        · exact .inr (.inr ⟨hbounded.aboveLimit h.splitters h.nonempty hinOrder, .inr hbounded⟩)
        · refine .inl ⟨h.nonempty, hinOrder, fun j splitter hsplitter val hval => ?_, h.last⟩
          exact Int.not_lt.mp fun hlt => hbounded ⟨j, splitter, hsplitter, val, hval, hlt⟩
      · exact .inr (.inl hmisplaced)
    · exact .inr (.inl hmisplaced)
    · refine .inr (.inr ⟨habove, .inr ?_⟩)
      -- in the last bucket no value is above its limit
      obtain ⟨m, before, val, ⟨-, after, hvals⟩, -, limit, hlimit, hlt⟩ := habove
      have hm : m < r.K := r.length_buckets ▸ (List.getElem?_eq_some_iff.mp hvals).1
      have hmem : val ∈ before ++ val :: after :=
        List.mem_append_right before (List.mem_cons_self ..)
      by_cases hnext : m + 1 < r.K
      · rw [limits_of_lt hnext, sorted_of_pairwise h.splitters] at hlimit
        refine ⟨m, limit, hlimit, val, ?_, hlt⟩
        rw [List.getD_eq_getElem?_getD, hvals]
        exact hmem
      · obtain rfl : m = r.K - 1 := by omega
        obtain rfl := Option.some.inj (limits_last.symm.trans hlimit)
        exact absurd (h.last _ hvals val hmem) (Int.not_le.mpr hlt)

/-- **The verdict is exact** on the reports that are judged rightly, and on no other. A regular one
    is if it has as many values as there are inputs, or if one of them, within the length of the
    input, is misplaced or above its limit. -/
theorem exact_iff (r : Report) : (r.Exact ↔ r.Sound) ∧
    (r.Regular →
      (r.Exact ↔ r.buckets.flatten.length = r.input.length ∨ r.Misplaced ∨ r.AboveLimit)) :=
  ⟨exact_iff_sound, fun h => exact_iff_sound.trans h.sound_iff⟩

end Report

/-! ## Outputs that are judged rightly -/

/-- Two buckets that make up the input. -/
def allValues : Report where
  K := 2
  input := [1, 2, 3]
  splitters := [1]
  before := []
  after := [.value 2 1, .value 3 2, .value 3 3]
  K_pos := Nat.le_succ 1
  splitters_length := rfl

/-- The last bucket is not sorted, and a value is missing. -/
def unsortedBucket : Report where
  K := 2
  input := [1, 2, 3, 4]
  splitters := [1]
  before := []
  after := [.value 2 1, .value 3 3, .value 3 2]
  K_pos := Nat.le_succ 1
  splitters_length := rfl

/-- The first is accepted, the second refused for the value in the place of the 2. -/
theorem exact_iff_allValues : allValues.Exact ∧ unsortedBucket.Exact := by
  constructor
  · refine ((Report.exact_iff allValues).2 ⟨by decide, by decide, ?_⟩).mpr (.inl (by decide))
    intro vals hvals
    obtain rfl := Option.some.inj hvals
    decide
  · refine (Report.exact_iff unsortedBucket).1.mpr (.inr (.inl ⟨1, [], 3, ⟨?_, [2], rfl⟩, 2, ?_⟩))
    · decide
    · rw [Report.sorted_of_pairwise (by decide)]
      decide

/-! ## Outputs that are misjudged -/

/-- The largest input is missing from the last bucket. -/
def lostValue : Report where
  K := 2
  input := [1, 2, 3]
  splitters := [1]
  before := []
  after := [.value 2 1, .value 3 2]
  K_pos := Nat.le_succ 1
  splitters_length := rfl

/-- All inputs are in the first bucket. -/
def emptyBucket : Report where
  K := 2
  input := [1]
  splitters := [5]
  before := []
  after := [.value 2 1]
  K_pos := Nat.le_succ 1
  splitters_length := rfl

/-- **The verdict is not exact**: a lost value goes unnoticed, and an empty bucket is an uncaught
    exception. -/
theorem verdict_not_exact : ¬ lostValue.Exact ∧ ¬ emptyBucket.Exact := by
  constructor
  · intro h
    have hinput : sorted lostValue.input = [1, 2, 3] := Report.sorted_of_pairwise (by decide)
    have hlimits : lostValue.limits = [1, lastSplitter] := by
      rw [Report.limits, Report.sorted_of_pairwise (by decide)]
      rfl
    have hsuccess : lostValue.outcome = .success := by
      rw [Report.outcome_eq, Report.parsed, hinput, hlimits]
      rfl
    have hlaw := (h.success_iff.mp hsuccess).complete
    rw [hinput] at hlaw
    exact absurd hlaw (by decide)
  · intro h
    have hinput : sorted emptyBucket.input = [1] := Report.sorted_of_pairwise (by decide)
    have hlimits : emptyBucket.limits = [5, lastSplitter] := by
      rw [Report.limits, Report.sorted_of_pairwise (by decide)]
      rfl
    refine h.no_crash .keyError ?_
    rw [Report.outcome_eq, Report.parsed, hinput, hlimits]
    rfl

end TaskSystem.ValidateResult
