import TaskSystem.Messages.RoundTrip
import TaskSystem.System.Repository
import TaskSystem.System.TaskReceive

/-!
# The Weather Tasks

`src/Tasks/WeatherStationTask` and `src/Tasks/WeatherClientTask`, on the bytes of their structs:

    pthread_t threadRef;
    int taskID;
    int close_order;
    char station_name[MAX_NAME_SIZE];
    // WeatherStationTask only
    int sub_count;
    int subs[50];

The handler for the name copies a text of up to 99 characters into `station_name`, so what
stands behind it matters.

## Contents

- `WeatherTask`: the tags, and the switches of the two `receive` functions
- `WeatherStationTask`: `create`, the handlers, and the tasks a broadcast goes to
- `WeatherClientTask`: `create`, the handler for the name, and the name it looks up
- `subscribers_handleName`, `handleSubMsg_cases`: what the handlers do to the subscribers
-/

namespace TaskSystem

open Library Repository

/-! ## Tags -/

namespace WeatherTask

def weatherStationNameMsgTag : Int32 := 0
def subMsgTag : Int32 := 1
def postWeatherMsgTag : Int32 := 2

/-- The switch of `WeatherStationTask`'s `receive`. -/
def weatherStationSwitch (tag : Int32) : TagCase :=
  if tag = weatherStationNameMsgTag then .handle
  else if tag = subMsgTag then .handle
  -- "Should never receive this"
  else if tag = postWeatherMsgTag then .ignore
  else .default

/-- The switch of `WeatherClientTask`'s `receive`. -/
def weatherClientSwitch (tag : Int32) : TagCase :=
  if tag = weatherStationNameMsgTag then .handle
  -- "Should never receive this"
  else if tag = subMsgTag then .ignore
  else if tag = postWeatherMsgTag then .handle
  else .default

end WeatherTask

/-! ## The station -/

namespace WeatherStationTask

example : (structLayout ([.long, .int, .int, .chars maxNameSize, .int, .int])).1 =
    [0, 8, 12, 16, 48, 52] := by decide

def taskID (this : Mem) : UInt32 := this.loadUInt 8

/-- What `repository_set_name` reads of `station_name`: no more than the buffer. -/
def stationName (this : Mem) : List UInt8 := this.read 16 maxNameSize

def subCount (this : Mem) : Int32 := this.loadInt 48

/-- `subs[i]` -/
def sub (this : Mem) (i : Int) : Int32 := this.loadInt (52 + 4 * i)

/-- `WeatherStationTask_create`, on the block `malloc` returned -/
def create (newRec : Mem) (taskID : UInt32) : Mem :=
  newRec.applyStores 0 [.uint 8 taskID, .int 12 0, .int 48 0]

/-- `handle_WeatherStationNameMsg`: a `strcpy` -/
def handleWeatherStationNameMsg (this : Mem) (textMsg : TextMsg) : Mem :=
  this.applyStores 0 [.cstr 16 textMsg.msg]

/-- `handle_SubMsg` -/
def handleSubMsg (this : Mem) (barMsg : BarMsg) : Mem :=
  let newSubId := barMsg.value
  if subCount this < 50 then
    let this := this.applyStores 0 [.int (52 + 4 * (subCount this).toInt) newSubId]
    -- `sub_count` is read again: `subs[-1]` is `sub_count` itself
    this.applyStores 0 [.int 48 (subCount this + 1)]
  else
    -- "Weather station is at max sub count."
    this

/-- The tasks that the loop of a broadcast sends to. -/
def subscribers (this : Mem) : List Int32 :=
  (List.range (subCount this).toInt.toNat).map fun i : Nat => sub this i

end WeatherStationTask

/-! ## The client -/

namespace WeatherClientTask

example : structLayout [.long, .int, .int, .chars maxNameSize] = ([0, 8, 12, 16], 48) := by decide

def taskID (this : Mem) : UInt32 := this.loadUInt 8

/-- The string at `station_name`; as in `clone`, no more than `Q_SIZE` bytes are taken. -/
def stationName (this : Mem) : List UInt8 := this.loadCStr 16 1000000

/-- `WeatherClientTask_create` -/
def create (newRec : Mem) (taskID : UInt32) : Mem :=
  newRec.applyStores 0 [.uint 8 taskID, .int 12 0]

/-- `handle_WeatherStationNameMsg`: the station's, line for line -/
def handleWeatherStationNameMsg (this : Mem) (textMsg : TextMsg) : Mem :=
  this.applyStores 0 [.cstr 16 textMsg.msg]

end WeatherClientTask

/-! ## What the handlers do to the subscribers -/

namespace WeatherStationTask

variable {this : Mem} {textMsg : TextMsg} {barMsg : BarMsg}

@[simp] theorem subCount_create (newRec : Mem) (taskID : UInt32) :
    subCount (create newRec taskID) = 0 := by
  have hheld : (create newRec taskID).Holds 0 (.int 48 0) := by
    refine Mem.holds_applyStores newRec ?_ (by simp)
    simp [Store.Disjoint]
  have hload := hheld.loadInt
  rwa [Int.zero_add] at hload

/-- The name does not reach the identity of the task. -/
theorem taskID_handleName (this : Mem) (textMsg : TextMsg) :
    taskID (handleWeatherStationNameMsg this textMsg) = taskID this :=
  this.loadUInt_store_of_apart (.inl (by simp))

/-- **A short name** leaves the subscribers alone. -/
theorem subCount_handleName (h : textMsg.msg.length < 32) :
    subCount (handleWeatherStationNameMsg this textMsg) = subCount this := by
  apply Mem.loadInt_store_of_apart
  simp only [Store.stop_cstr]
  omega

theorem sub_handleName (h : textMsg.msg.length < 32) (i : Nat) :
    sub (handleWeatherStationNameMsg this textMsg) i = sub this i := by
  apply Mem.loadInt_store_of_apart
  simp only [Store.stop_cstr]
  omega

theorem subscribers_handleName (h : textMsg.msg.length < 32) :
    subscribers (handleWeatherStationNameMsg this textMsg) = subscribers this := by
  simp only [subscribers, subCount_handleName h, sub_handleName h]

/-- **`handle_SubMsg`** adds the subscriber behind the others while there is a place. -/
theorem handleSubMsg_cases (this : Mem) (barMsg : BarMsg) (h₀ : 0 ≤ (subCount this).toInt) :
    (50 ≤ (subCount this).toInt ∧ handleSubMsg this barMsg = this) ∨
    ((subCount this).toInt < 50 ∧
      (subCount (handleSubMsg this barMsg)).toInt = (subCount this).toInt + 1 ∧
      subscribers (handleSubMsg this barMsg) = subscribers this ++ [barMsg.value]) := by
  obtain ⟨k, hk⟩ : ∃ k : Nat, (subCount this).toInt = k := ⟨_, (Int.toNat_of_nonneg h₀).symm⟩
  have hlt : subCount this < 50 ↔ (k : Int) < 50 := by
    rw [Int32.lt_iff_toInt_lt, hk]
    exact Iff.rfl
  by_cases hroom : (k : Int) < 50
  case neg =>
    refine .inl ⟨by omega, ?_⟩
    simp only [handleSubMsg, if_neg (mt hlt.mp hroom)]
  case pos =>
    right
    -- `subs[k]` stands behind `sub_count` and the subscribers there are
    obtain ⟨this', hthis'⟩ : ∃ m, m = this.applyStores 0 [.int (52 + 4 * (k : Int)) barMsg.value] :=
      ⟨_, rfl⟩
    have hstores : handleSubMsg this barMsg =
        this'.applyStores 0 [.int 48 (subCount this' + 1)] := by
      simp only [handleSubMsg, if_pos (hlt.mpr hroom), hk, hthis']
    have hbefore : ∀ a : Int, a + 4 ≤ 52 + 4 * k → this'.loadInt a = this.loadInt a := by
      intro a ha
      rw [hthis']
      exact this.loadInt_store_of_apart (.inl ha)
    have hbehind : ∀ i : Nat, sub (handleSubMsg this barMsg) i = sub this' i := by
      intro i
      rw [hstores]
      apply Mem.loadInt_store_of_apart
      simp only [Store.off_int, Store.stop_int]
      omega
    have hlast : sub this' k = barMsg.value := by
      rw [hthis']
      exact Mem.loadInt_store _ _ _
    have hcount : (subCount (handleSubMsg this barMsg)).toInt = k + 1 := by
      have hsame : subCount this' = subCount this := hbefore 48 (by omega)
      rw [hstores, hsame]
      simp only [subCount, Mem.loadInt_store] at hk ⊢
      have hone : (1 : Int32).toInt = 1 := by decide
      rw [Int32.toInt_add, hk, hone]
      exact Int.bmod_eq_of_le (by omega) (by omega)
    refine ⟨by omega, by rw [hcount, hk], ?_⟩
    have hsucc : ((k : Int) + 1).toNat = k + 1 := by omega
    have hfirst : (List.range k).map (fun i : Nat => sub this' i) =
        (List.range k).map fun i : Nat => sub this i := by
      apply List.map_congr_left
      intro i hi
      have hi' := List.mem_range.mp hi
      exact hbefore (52 + 4 * i) (by omega)
    simp only [subscribers, hcount, hk, hsucc, Int.toNat_natCast, List.range_succ,
      List.map_append, List.map_cons, List.map_nil, hbehind, hlast, hfirst]

end WeatherStationTask

end TaskSystem
