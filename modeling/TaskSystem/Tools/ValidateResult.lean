import Mathlib.Data.List.Basic
import Mathlib.Logic.Function.Basic
import TaskSystem.Library.MapM
import TaskSystem.Library.Text

/-!
# The Result Checker

`src/TaskSystem/tool/validate_result.py`: the script that compares the lines printed by a run of
the sample sort with the file the run sorted.

## Contents

- `Outcome`, `validation`: the script on the lines of the two files
- `splitterLine`, `Line`: what the tasks print
- `Report`: the files of a run, and the law that its buckets are to satisfy
- `outcome_eq`: reading the printed lines gives back what was printed
-/

namespace TaskSystem.ValidateResult

open Library

/-! ## The script -/

/-- Python's exceptions -/
inductive PyException where
  | keyError
  | indexError
  | valueError
  deriving DecidableEq

/-- How the script ends; an error is printed with the two values compared. -/
inductive Outcome where
  | success
  | finalOrderError (val sortedVal : Int)
  | splitterError (val splitter : Int)
  /-- An uncaught exception -/
  | crash (e : PyException)
  deriving DecidableEq

/-- A value, or an exception. -/
def orRaise {α : Type} (e : PyException) : Option α → Except Outcome α
  | some a => .ok a
  | none => .error (.crash e)

/-- Python's `sorted` -/
def sorted (xs : List Int) : List Int := xs.mergeSort fun a b => a ≤ b

/-- `buckets_val` and `splitters` -/
structure Parsed where
  bucketsVal : Int → Option (List Int)
  splitters : List Int

/-- The `ki`-th word of a splitter line: `s[s.index("v=")+2:len(s)-1]` as an integer. -/
def splitterValue (splitted : List (List Char)) (ki : Nat) : Except Outcome Int := do
  let s ← orRaise .indexError splitted[ki]?
  let i ← orRaise .valueError (Text.index "v=".toList s)
  orRaise .valueError (Text.int (Text.slice s (i + 2) (s.length - 1)))

/-- `splitted[i][n:]` as an integer -/
def fieldValue (splitted : List (List Char)) (i n : Nat) : Except Outcome Int := do
  let s ← orRaise .indexError splitted[i]?
  orRaise .valueError (Text.int (s.drop n))

/-- The last splitter, which is to be ignored. -/
def lastSplitter : Int := 1000000000

/-- One line of the output file. -/
def readLine (K : Nat) (p : Parsed) (line : List Char) : Except Outcome Parsed :=
  if "Splitter :".toList.isPrefixOf line then do
    let found ← (List.range' 2 (K - 1)).mapM (splitterValue (line.splitOn ' '))
    return { p with splitters := sorted (p.splitters ++ found) ++ [lastSplitter] }
  else if "BUCKET=".toList.isPrefixOf line then do
    let bId ← fieldValue (line.splitOn ' ') 0 7
    let val ← fieldValue (line.splitOn ' ') 1 6
    return { p with
      bucketsVal := Function.update p.bucketsVal bId
        (some ((p.bucketsVal bId).getD [] ++ [val])) }
  else return p

/-- The data file, sorted. -/
def readInput (dataFile : List (List Char)) : Except Outcome (List Int) := do
  let values ← dataFile.mapM fun line => orRaise .valueError (Text.int line)
  return sorted values

/-- The loop over the values of bucket `ki`; it gives the new `count`. -/
def checkValues (sortedInput splitters : List Int) (ki : Nat) :
    List Int → Nat → Except Outcome Nat
  | [], count => return count
  | val :: vals, count => do
    let sortedVal ← orRaise .indexError sortedInput[count]?
    if val ≠ sortedVal then .error (.finalOrderError val sortedVal)
    else
      let splitter ← orRaise .indexError splitters[ki - 2]?
      if splitter < val then .error (.splitterError val splitter)
      else checkValues sortedInput splitters ki vals (count + 1)

/-- The loop over the buckets -/
def checkBuckets (sortedInput : List Int) (p : Parsed) : List Nat → Nat → Except Outcome Nat
  | [], count => return count
  | ki :: kis, count => do
    let vals ← orRaise .keyError (p.bucketsVal ki)
    let count ← checkValues sortedInput p.splitters ki vals count
    checkBuckets sortedInput p kis count

/-- Everything up to the last line of the script. -/
def run (K : Nat) (dataFile outputFile : List (List Char)) : Except Outcome Nat := do
  let sortedInput ← readInput dataFile
  let p ← outputFile.foldlM (readLine K) ⟨fun _ => none, []⟩
  checkBuckets sortedInput p (List.range' 2 K) 0

/-- A script that has come to its last line prints `SUCCESS`. -/
def conclude : Except Outcome Nat → Outcome
  | .ok _ => .success
  | .error outcome => outcome

/-- **The script.** -/
def validation (K : Nat) (dataFile outputFile : List (List Char)) : Outcome :=
  conclude (run K dataFile outputFile)

/-! ## The printed lines -/

/-- A line of the data file -/
def dataLine (x : Int) : List Char := Text.decimal x ++ ['\n']

/-- `(i=%d,v=%d)` -/
def splitterEntry (i : Nat) (v : Int) : List Char :=
  "(i=".toList ++ Text.decimal i ++ ",v=".toList ++ Text.decimal v ++ ")".toList

/-- What `start` of the sample sort task prints of its splitters. -/
def splitterLine (splitters : List Int) : List Char :=
  "Splitter : ".toList ++
    (splitters.mapIdx splitterEntry).flatMap (fun entry => entry ++ [' ']) ++ ['\n']

/-- Timings and other text that the script passes over. -/
structure OtherLine where
  text : List Char
  notSplitter : "Splitter :".toList.isPrefixOf text = false
  notBucket : "BUCKET=".toList.isPrefixOf text = false

/-- `BUCKET=%d VALUE=%d`, printed by `start` of the bucket task -/
def valueLine (bId : Nat) (val : Int) : List Char :=
  "BUCKET=".toList ++ Text.decimal bId ++ " VALUE=".toList ++ Text.decimal val ++ ['\n']

/-- The other lines of the output. -/
inductive Line where
  | value (bId : Nat) (val : Int)
  | other (line : OtherLine)

def Line.text : Line → List Char
  | .value bId val => valueLine bId val
  | .other line => line.text

/-- The value that a line gives bucket `bId`. -/
def Line.valueOf (bId : Int) : Line → Option Int
  | .value b val => if (b : Int) = bId then some val else none
  | .other _ => none

/-- The values of bucket `bId`, in their printed order. -/
def valuesOf (lines : List Line) (bId : Int) : List Int := lines.filterMap (Line.valueOf bId)

/-- **A run of the sample sort**: the values it sorted and what it printed. -/
structure Report where
  K : Nat
  input : List Int
  splitters : List Int
  /-- The lines before and after the splitter line -/
  before : List Line
  after : List Line
  K_pos : 1 ≤ K
  splitters_length : splitters.length = K - 1

namespace Report

variable (r : Report)

def dataFile : List (List Char) := r.input.map dataLine

def outputFile : List (List Char) :=
  r.before.map Line.text ++ splitterLine r.splitters :: r.after.map Line.text

/-- The values of the buckets `2` to `K+1`. -/
def buckets : List (List Int) :=
  (List.range' 2 r.K).map fun ki : Nat => valuesOf (r.before ++ r.after) ki

/-- **The law**: the buckets make up the sorted input, and each of the first `K-1` keeps to its
    splitter. -/
structure Lawful : Prop where
  complete : r.buckets.flatten = sorted r.input
  bounded : ∀ j splitter, r.splitters[j]? = some splitter →
    ∀ val ∈ r.buckets.getD j [], val ≤ splitter

def outcome : Outcome := validation r.K r.dataFile r.outputFile

/-- **The verdict is exact**: success exactly under the law, and an error otherwise. -/
structure Exact : Prop where
  success_iff : r.outcome = .success ↔ r.Lawful
  no_crash : ∀ e, r.outcome ≠ .crash e

end Report

/-! ## Reading what was printed -/

theorem ok_bind {α β : Type} (a : α) (f : α → Except Outcome β) : (.ok a >>= f) = f a := rfl

theorem readInput_dataLine (xs : List Int) : readInput (xs.map dataLine) = .ok (sorted xs) := by
  have hline : ∀ line ∈ xs.map dataLine,
      orRaise .valueError (Text.int line) = .ok ((Text.int line).getD 0) := by
    intro line hmem
    obtain ⟨x, -, rfl⟩ := List.mem_map.mp hmem
    rw [dataLine, Text.int_decimal_lineFeed x]
    rfl
  have hvalues : (xs.map dataLine).map (fun line => (Text.int line).getD 0) = xs := by
    rw [List.map_map]
    refine (List.map_congr_left fun x _ => ?_).trans (List.map_id xs)
    rw [Function.comp_apply, dataLine, Text.int_decimal_lineFeed x]
    rfl
  rw [readInput, mapM_eq_pure hline, hvalues]
  rfl

/-! ### The splitter line -/

/-- The words of a line that ends with a blank before its line feed. -/
theorem intercalate_words (words : List (List Char)) (last : List Char) :
    [' '].intercalate (words ++ [last]) =
      words.flatMap (fun word => word ++ [' ']) ++ last := by
  induction words with
  | nil => simp [List.intercalate]
  | cons word words ih =>
    cases words with
    | nil => simp [List.intercalate]
    | cons next words =>
      rw [List.cons_append, List.cons_append, List.intercalate_cons_cons, ← List.cons_append, ih]
      simp only [List.flatMap_cons, List.append_assoc]

theorem blank_not_mem_splitterEntry (i : Nat) (v : Int) : ' ' ∉ splitterEntry i v := by
  have hi := Text.not_mem_decimal (c := ' ') (by decide) (by decide) i
  have hv := Text.not_mem_decimal (c := ' ') (by decide) (by decide) v
  simp [splitterEntry, hi, hv]

theorem split_splitterLine (splitters : List Int) :
    (splitterLine splitters).splitOn ' ' =
      ["Splitter".toList, ":".toList] ++ splitters.mapIdx splitterEntry ++ [['\n']] := by
  have hline : splitterLine splitters =
      [' '].intercalate
        (["Splitter".toList, ":".toList] ++ splitters.mapIdx splitterEntry ++ [['\n']]) := by
    rw [intercalate_words]
    rfl
  rw [hline]
  refine List.splitOn_intercalate ' ' ?_ (List.append_ne_nil_of_right_ne_nil _ (by decide))
  intro word hword
  simp only [List.mem_append, List.mem_cons, List.not_mem_nil, or_false] at hword
  rcases hword with ((rfl | rfl) | hentry) | rfl
  · decide
  · decide
  · obtain ⟨i, hi, rfl⟩ := List.mem_mapIdx.mp hentry
    exact blank_not_mem_splitterEntry i _
  · decide

theorem splitterValue_splitterEntry {splitted : List (List Char)} {ki i : Nat} {v : Int}
    (h : splitted[ki]? = some (splitterEntry i v)) : splitterValue splitted ki = .ok v := by
  have hi := Text.not_mem_decimal (c := 'v') (by decide) (by decide) i
  have hindex : Text.index "v=".toList (splitterEntry i v) =
      some ("(i=".toList ++ Text.decimal i ++ ",".toList).length := by
    have hbefore : 'v' ∉ "(i=".toList ++ Text.decimal i ++ ",".toList := by simp [hi]
    have hfound : Text.index ('v' :: "=".toList) ("(i=".toList ++ Text.decimal i ++ ",".toList ++
        ('v' :: "=".toList ++ (Text.decimal v ++ ")".toList))) = some _ := Text.index_append hbefore
    rw [← hfound]
    simp [splitterEntry]
  have hslice : Text.slice (splitterEntry i v)
      (("(i=".toList ++ Text.decimal i ++ ",".toList).length + 2)
      ((splitterEntry i v).length - 1) = Text.decimal v := by
    have hstart : ("(i=".toList ++ Text.decimal i ++ ",".toList).length + 2 =
        ("(i=".toList ++ Text.decimal i ++ ",v=".toList).length := by
      simp only [List.length_append]
      rfl
    have hend : (splitterEntry i v).length - 1 =
        ("(i=".toList ++ Text.decimal i ++ ",v=".toList).length + (Text.decimal v).length := by
      simp only [splitterEntry, List.length_append]
      rfl
    rw [hstart, hend]
    exact Text.slice_append _ _ ")".toList
  simp only [splitterValue, h, orRaise, ok_bind, hindex, hslice, Text.int_decimal]

/-- The splitters are read as they were printed, and sorted. -/
theorem readLine_splitterLine (splitters : List Int) (p : Parsed) :
    readLine (splitters.length + 1) p (splitterLine splitters) =
      .ok { p with splitters := sorted (p.splitters ++ splitters) ++ [lastSplitter] } := by
  have hprefix : "Splitter :".toList.isPrefixOf (splitterLine splitters) = true := rfl
  have hvalues : (List.range' 2 (splitters.length + 1 - 1)).mapM
      (splitterValue ((splitterLine splitters).splitOn ' ')) = .ok splitters := by
    have hvalue : ∀ ki ∈ List.range' 2 (splitters.length + 1 - 1),
        splitterValue ((splitterLine splitters).splitOn ' ') ki =
          .ok (splitters.getD (ki - 2) 0) := by
      intro ki hki
      rw [List.mem_range'_1] at hki
      obtain ⟨i, rfl⟩ := Nat.exists_eq_add_of_le hki.1
      have hi : i < splitters.length := by omega
      apply splitterValue_splitterEntry
      -- the first two words are no entries
      have hwords : ((splitterLine splitters).splitOn ' ')[2 + i]? =
          (splitters.mapIdx splitterEntry ++ [['\n']])[i]? := by
        rw [split_splitterLine, List.append_assoc, Nat.add_comm]
        rfl
      rw [hwords, List.getElem?_append_left (by simpa using hi), List.getElem?_mapIdx,
        List.getElem?_eq_getElem hi, Nat.add_sub_cancel_left, List.getD_eq_getElem?_getD,
        List.getElem?_eq_getElem hi]
      rfl
    rw [mapM_eq_pure hvalue]
    congr 1
    apply List.ext_getElem
    · simp
    · intro i hi hi'
      simp [hi']
  rw [readLine, if_pos hprefix, hvalues]
  rfl

/-! ### The lines of the buckets -/

/-- The dictionary of the values read: a bucket without values has no entry. -/
def dict (vals : Int → List Int) (bId : Int) : Option (List Int) :=
  if vals bId = [] then none else some (vals bId)

theorem update_dict (vals : Int → List Int) (bId val : Int) :
    Function.update (dict vals) bId (some ((dict vals bId).getD [] ++ [val])) =
      dict fun b => vals b ++ if bId = b then [val] else [] := by
  funext b
  rcases eq_or_ne b bId with rfl | hne
  · rw [Function.update_self, dict, dict, if_pos rfl]
    split
    next hnil => simp [hnil]
    next => simp
  · rw [Function.update_of_ne hne, dict, dict, if_neg hne.symm, List.append_nil]

/-- The two words of a value line. -/
theorem value_words (bId val : List Char) :
    "BUCKET=".toList ++ bId ++ " VALUE=".toList ++ val ++ ['\n'] =
      [' '].intercalate ["BUCKET=".toList ++ bId, "VALUE=".toList ++ val ++ ['\n']] := by
  rw [List.intercalate_cons_cons, List.intercalate_singleton]
  simp only [List.append_assoc]
  rfl

theorem split_value (bId : Nat) (val : Int) :
    (valueLine bId val).splitOn ' ' =
      ["BUCKET=".toList ++ Text.decimal bId, "VALUE=".toList ++ Text.decimal val ++ ['\n']] := by
  have hwords : ∀ word ∈ ["BUCKET=".toList ++ Text.decimal bId,
      "VALUE=".toList ++ Text.decimal val ++ ['\n']], ' ' ∉ word := by
    have hid := Text.not_mem_decimal (c := ' ') (by decide) (by decide) bId
    have hval := Text.not_mem_decimal (c := ' ') (by decide) (by decide) val
    intro word hword
    rcases List.mem_pair.mp hword with rfl | rfl
    · simp [hid]
    · simp [hval]
  exact (congrArg (List.splitOn ' ') (value_words _ _)).trans
    (List.splitOn_intercalate ' ' hwords (List.cons_ne_nil _ _))

theorem readLine_value (K : Nat) (vals : Int → List Int) (splitters : List Int) (line : Line) :
    readLine K ⟨dict vals, splitters⟩ line.text =
      .ok ⟨dict fun b => vals b ++ valuesOf [line] b, splitters⟩ := by
  cases line with
  | value bId val =>
    have hsplitter : "Splitter :".toList.isPrefixOf (valueLine bId val) = false := rfl
    have hbucket : "BUCKET=".toList.isPrefixOf (valueLine bId val) = true := rfl
    have hid : fieldValue ((valueLine bId val).splitOn ' ') 0 7 = .ok (bId : Int) := by
      have hread := Text.int_decimal bId
      simp [fieldValue, split_value, orRaise, ok_bind, hread]
    have hval : fieldValue ((valueLine bId val).splitOn ' ') 1 6 = .ok val := by
      have hread := Text.int_decimal_lineFeed val
      simp [fieldValue, split_value, orRaise, ok_bind, hread]
    rw [readLine, Line.text, hsplitter, hbucket, hid, hval]
    have hvals : (fun b => vals b ++ valuesOf [.value bId val] b) =
        fun b => vals b ++ if (bId : Int) = b then [val] else [] := by
      funext b
      by_cases hb : (bId : Int) = b <;> simp [valuesOf, Line.valueOf, hb]
    rw [hvals, ← update_dict]
    rfl
  | other line =>
    have hvals : (fun b => vals b ++ valuesOf [.other line] b) = vals := by
      funext b
      exact List.append_nil _
    rw [readLine, Line.text, line.notSplitter, line.notBucket, hvals]
    rfl

theorem valuesOf_append (lines more : List Line) (bId : Int) :
    valuesOf (lines ++ more) bId = valuesOf lines bId ++ valuesOf more bId :=
  List.filterMap_append

theorem foldlM_lines (K : Nat) (vals : Int → List Int) (splitters : List Int)
    (lines : List Line) :
    (lines.map Line.text).foldlM (readLine K) ⟨dict vals, splitters⟩ =
      .ok ⟨dict fun b => vals b ++ valuesOf lines b, splitters⟩ := by
  induction lines generalizing vals with
  | nil =>
    simp only [valuesOf, List.filterMap_nil, List.append_nil]
    rfl
  | cons line lines ih =>
    have hvals := valuesOf_append [line] lines
    rw [List.singleton_append] at hvals
    rw [List.map_cons, List.foldlM_cons, readLine_value, ok_bind, ih]
    simp only [hvals, List.append_assoc]

/-! ### The whole output -/

namespace Report

variable (r : Report)

/-- The list that the script compares the values of the buckets with. -/
def limits : List Int := sorted r.splitters ++ [lastSplitter]

/-- What the script has read at the end. -/
def parsed : Parsed := ⟨dict (valuesOf (r.before ++ r.after)), r.limits⟩

/-- **What is read is what was printed.** -/
theorem outcome_eq : r.outcome =
    conclude (checkBuckets (sorted r.input) r.parsed (List.range' 2 r.K) 0) := by
  have hstart : (⟨fun _ => none, []⟩ : Parsed) = ⟨dict fun _ => [], []⟩ := rfl
  have hK : r.K = r.splitters.length + 1 := by
    have := r.K_pos
    have := r.splitters_length
    omega
  have hread : r.outputFile.foldlM (readLine r.K) ⟨fun _ => none, []⟩ = .ok r.parsed := by
    rw [outputFile, List.foldlM_append, hstart, foldlM_lines, ok_bind, List.foldlM_cons, hK,
      readLine_splitterLine, ok_bind]
    refine (foldlM_lines _ _ _ _).trans ?_
    have hvals : (fun b => ([] ++ valuesOf r.before b) ++ valuesOf r.after b) =
        valuesOf (r.before ++ r.after) := by
      funext b
      rw [valuesOf_append, List.nil_append]
    rw [hvals]
    rfl
  rw [outcome, validation, run, dataFile, readInput_dataLine, ok_bind, hread, ok_bind]

end Report

end TaskSystem.ValidateResult
