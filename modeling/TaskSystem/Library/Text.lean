import Mathlib.Data.List.TakeWhile

/-!
# Text

Integers as C prints them in decimal and as Python reads them back, and the string methods by
which a script takes a line apart. A text is the list of its characters.

## Contents

- `decimal`, `int`, `int_decimal`: `%d`, Python's `int`, and their round trip
- `index`, `index_append`: the first occurrence of a pattern
- `slice`, `slice_append`: `s[i:j]`
-/

namespace TaskSystem.Library.Text

/-! ## Integers -/

/-- `printf("%d", x)` -/
def decimal (x : Int) : List Char :=
  if x < 0 then '-' :: Nat.toDigits 10 x.natAbs else Nat.toDigits 10 x.natAbs

/-- A nonempty sequence of digits. -/
def natural (cs : List Char) : Option Nat :=
  if cs ≠ [] ∧ cs.all Char.isDigit then some (Nat.ofDigitChars 10 cs 0) else none

/-- The text without the white space around it. -/
def strip (cs : List Char) : List Char :=
  (((cs.dropWhile Char.isWhitespace).reverse).dropWhile Char.isWhitespace).reverse

/-- A sequence of digits, with a sign or without. -/
def signed : List Char → Option Int
  | '-' :: cs => (natural cs).map fun n : Nat => -(n : Int)
  | '+' :: cs => (natural cs).map Nat.cast
  | cs => (natural cs).map Nat.cast

/-- Python's `int`, on digits without underscores; `none` is its `ValueError`. -/
def int (cs : List Char) : Option Int := signed (strip cs)

theorem natural_toDigits (n : Nat) : natural (Nat.toDigits 10 n) = some n := by
  have hdigits : (Nat.toDigits 10 n).all Char.isDigit = true :=
    List.all_eq_true.mpr fun c hc => Nat.isDigit_of_mem_toDigits (by decide) (by decide) hc
  rw [natural, if_pos ⟨Nat.toDigits_ne_nil, hdigits⟩, Nat.ofDigitChars_ten_toDigits]

theorem not_isWhitespace_of_isDigit {c : Char} (h : c.isDigit) : c.isWhitespace = false := by
  by_contra hspace
  rw [Bool.not_eq_false, Char.isWhitespace] at hspace
  simp only [Bool.or_eq_true, decide_eq_true_eq] at hspace
  rcases hspace with ((rfl | rfl) | rfl) | rfl <;> exact absurd h (by decide)

/-- A printed integer is a digit, or begins with its sign and goes on with digits. -/
theorem mem_decimal {x : Int} {c : Char} (h : c ∈ decimal x) : c = '-' ∨ c.isDigit := by
  unfold decimal at h
  split at h
  · rcases List.mem_cons.mp h with hsign | hdigit
    · exact .inl hsign
    · exact .inr (Nat.isDigit_of_mem_toDigits (by decide) (by decide) hdigit)
  · exact .inr (Nat.isDigit_of_mem_toDigits (by decide) (by decide) h)

/-- What is no digit and no sign does not occur in a printed integer. -/
theorem not_mem_decimal {c : Char} (hsign : c ≠ '-') (hdigit : c.isDigit = false) (x : Int) :
    c ∉ decimal x := by
  intro h
  rcases mem_decimal h with hc | hc
  · exact hsign hc
  · rw [hdigit] at hc
    cases hc

theorem dropWhile_eq_self {p : Char → Bool} {cs : List Char} (h : ∀ c ∈ cs, p c = false) :
    cs.dropWhile p = cs := by
  cases cs with
  | nil => rfl
  | cons c cs => exact List.dropWhile_cons_of_neg (by simp [h c (List.mem_cons_self ..)])

/-- Stripping takes the white space that follows a text without any. -/
theorem strip_append {cs ws : List Char} (hcs : ∀ c ∈ cs, c.isWhitespace = false)
    (hws : ∀ c ∈ ws, c.isWhitespace) : strip (cs ++ ws) = cs := by
  have hback : ((cs ++ ws).reverse.dropWhile Char.isWhitespace).reverse = cs := by
    rw [List.reverse_append,
      List.dropWhile_append_of_pos fun c hc => hws c (List.mem_reverse.mp hc),
      dropWhile_eq_self fun c hc => hcs c (List.mem_reverse.mp hc), List.reverse_reverse]
  cases cs with
  | nil =>
    have hfront : ws.dropWhile Char.isWhitespace = [] := List.dropWhile_eq_nil_iff.mpr hws
    rw [strip, List.nil_append, hfront]
    rfl
  | cons c cs =>
    have hfirst : ¬ c.isWhitespace = true := by simp [hcs c (List.mem_cons_self ..)]
    rw [strip, List.cons_append, List.dropWhile_cons_of_neg hfirst]
    exact hback

/-- Digits are read as they are: none of them is a sign. -/
theorem signed_toDigits (n : Nat) : signed (Nat.toDigits 10 n) = some (n : Int) := by
  have hnat := natural_toDigits n
  have hdigits : ∀ c ∈ Nat.toDigits 10 n, c.isDigit :=
    fun c hc => Nat.isDigit_of_mem_toDigits (by decide) (by decide) hc
  generalize Nat.toDigits 10 n = cs at hnat hdigits ⊢
  unfold signed
  split
  · exact absurd (hdigits '-' (List.mem_cons_self ..)) (by decide)
  · exact absurd (hdigits '+' (List.mem_cons_self ..)) (by decide)
  · rw [hnat]
    rfl

theorem signed_decimal (x : Int) : signed (decimal x) = some x := by
  unfold decimal
  split
  next hneg =>
    rw [signed, natural_toDigits, Option.map_some, Option.some.injEq]
    omega
  next hpos =>
    rw [signed_toDigits]
    exact congrArg some (Int.natAbs_of_nonneg (Int.not_lt.mp hpos))

/-- **Round trip**: a printed integer is read back, also before white space. -/
theorem int_decimal_append (x : Int) {ws : List Char} (hws : ∀ c ∈ ws, c.isWhitespace) :
    int (decimal x ++ ws) = some x := by
  have hplain : ∀ c ∈ decimal x, c.isWhitespace = false := by
    intro c hc
    rcases mem_decimal hc with rfl | hdigit
    · rfl
    · exact not_isWhitespace_of_isDigit hdigit
  rw [int, strip_append hplain hws, signed_decimal]

/-- An integer at the end of its line -/
theorem int_decimal_lineFeed (x : Int) : int (decimal x ++ ['\n']) = some x := by
  refine int_decimal_append x fun c hc => ?_
  rw [List.mem_singleton.mp hc]
  rfl

theorem int_decimal (x : Int) : int (decimal x) = some x := by
  rw [← List.append_nil (decimal x)]
  exact int_decimal_append x nofun

/-! ## Patterns -/

/-- `s.index(pattern)`: where the pattern occurs first; `none` is its `ValueError`. -/
def index (pattern : List Char) : List Char → Option Nat
  | [] => if pattern.isPrefixOf [] then some 0 else none
  | c :: cs => if pattern.isPrefixOf (c :: cs) then some 0 else (index pattern cs).map (· + 1)

/-- A pattern is found where its first character occurs first. -/
theorem index_append {c : Char} {pattern before after : List Char} (h : c ∉ before) :
    index (c :: pattern) (before ++ (c :: pattern ++ after)) = some before.length := by
  induction before with
  | nil => simp [index]
  | cons d before ih =>
    rw [List.mem_cons, not_or] at h
    have hne : (c :: pattern).isPrefixOf (d :: (before ++ (c :: pattern ++ after))) = false := by
      simp [List.isPrefixOf, h.1]
    rw [List.cons_append, index, hne, ih h.2]
    rfl

/-- `s[i:j]` for `0 ≤ i` and `0 ≤ j` -/
def slice (s : List Char) (i j : Nat) : List Char := (s.take j).drop i

theorem slice_append (before s after : List Char) :
    slice (before ++ s ++ after) before.length (before.length + s.length) = s := by
  rw [slice, ← List.length_append, List.take_left', List.drop_left']
  all_goals rfl

end TaskSystem.Library.Text
