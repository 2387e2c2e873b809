import TaskSystem.Tasks.WeatherTasks

/-!
# Names on Their Way

A station name goes through five copies: `setMsg`, `writeAt` and `clone` of a `TextMsg` with
room for 100 bytes, the handler's `strcpy` into `station_name` with room for 30, and the
`strncpy` of `repository_set_name`. Only the last one is told how much room there is.

## Contents

- `Delivery`: a name, and the memory it meets on its way to a task
- `StringCopy`, `Inside`: one copy; that it keeps to its destination
- `NamedStation`, `WeatherSystem`: stations that register, and clients that look them up
- `NamesKept`, `names_kept_iff`: exactly for names shorter than `MAX_NAME_SIZE` and stations
  whose task ID has a row
- `names_overrun`: a name of 40 characters and the number of subscribers
-/

namespace TaskSystem

open Library Repository

/-! ## One name -/

/-- `setMsg` on the bytes of a `TextMsg` -/
def TextMsg.setMsgAt (this : Mem) (msg : List UInt8) : Mem :=
  this.applyStores 0 [.cstr 48 (cString msg)]

/-- A name that is sent to a task, and the memory it meets on its way. -/
structure Delivery where
  name : List UInt8
  /-- The `TextMsg` the sender has created -/
  message : Mem
  /-- The segment of the queue, and the place `Enqueue` has chosen in it -/
  segment : Mem
  place : Int
  /-- The program of the receiver, whose rebinder fills in the methods -/
  image : Image
  /-- The `TextMsg` that `clone` creates -/
  tmp : Mem
  /-- The struct of the task -/
  this : Mem
  name_ne_zero : ∀ c ∈ name, c ≠ 0

namespace Delivery

/-- After `setMsg` -/
def sent (d : Delivery) : Mem := TextMsg.setMsgAt d.message d.name

/-- After `writeAt` -/
def written (d : Delivery) : Mem :=
  d.segment.applyStores d.place (TextMsg.clone d.sent 0).writeAt

/-- After the rebinder -/
def rebound (d : Delivery) : Mem := d.written.applyStores d.place (TextMsg.rebind d.image)

/-- After `clone`, which assigns to a new object what `writeAt` assigns to the record -/
def cloned (d : Delivery) : Mem :=
  d.tmp.applyStores 0 (TextMsg.clone d.rebound d.place).writeAt

/-- The text the handler gets -/
def received (d : Delivery) : TextMsg := TextMsg.clone d.cloned 0

/-- After `handle_WeatherStationNameMsg`, in a task of either type -/
def handled (d : Delivery) : Mem :=
  WeatherStationTask.handleWeatherStationNameMsg d.this d.received

end Delivery

/-! ## One copy -/

/-- A string copy: memory before and after, the destination, and the bytes it writes there. -/
structure StringCopy where
  before : Mem
  after : Mem
  dest : Int
  size : Nat
  count : Nat

/-- **The copy writes inside its destination**, and what stands behind it is as before. -/
structure StringCopy.Inside (c : StringCopy) : Prop where
  fits : c.count ≤ c.size
  frame : ∀ x, c.dest + c.size ≤ x → c.after x = c.before x

namespace Delivery

/-- The copies up to the handler's. -/
def copies (d : Delivery) : List StringCopy :=
  [⟨d.message, d.sent, 48, TextMsg.msgCapacity, d.name.length + 1⟩,
    ⟨d.segment, d.written, d.place + 48, TextMsg.msgCapacity,
      (TextMsg.clone d.sent 0).msg.length + 1⟩,
    ⟨d.tmp, d.cloned, 48, TextMsg.msgCapacity, (TextMsg.clone d.rebound d.place).msg.length + 1⟩,
    ⟨d.this, d.handled, 16, maxNameSize, d.received.msg.length + 1⟩]

end Delivery

/-! ## Stations and clients -/

/-- A station, and the delivery of its name. -/
structure NamedStation extends Delivery where
  taskID : UInt32
  taskID_eq : WeatherStationTask.taskID this = taskID

namespace NamedStation

/-- The index `repository_set_name` uses. -/
def id (s : NamedStation) : Nat := (WeatherStationTask.taskID s.handled).toNat

/-- `repository_set_name(this, this->station_name)` -/
def register (s : NamedStation) (names : Mem) : Mem :=
  setName names (WeatherStationTask.stationName s.handled) s.id

/-- The `strncpy` of `repository_set_name`, whatever the repository holds. -/
def registerCopy (s : NamedStation) (names : Mem) : StringCopy where
  before := names
  after := names.applyStores 0
    [⟨taskName s.id, strncpy (WeatherStationTask.stationName s.handled) maxNameSize⟩]
  dest := taskName s.id
  size := maxTask
  count := maxNameSize

end NamedStation

/-- Stations that have registered one after the other, and clients that look for one each. -/
structure WeatherSystem where
  /-- `task_name` and what follows it, before `System_create` -/
  names : Mem
  stations : List NamedStation
  clients : List Delivery
  /-- Task IDs are given out once. -/
  distinct : (stations.map NamedStation.taskID).Nodup

namespace WeatherSystem

/-- The repository after these stations have registered. -/
def registerAll (names : Mem) (stations : List NamedStation) : Mem :=
  stations.foldl (fun names s => s.register names) (Repository.create names)

/-- `repository_get_id(this, this->station_name)` of a client -/
def lookup (w : WeatherSystem) (d : Delivery) : Int :=
  getId (registerAll w.names w.stations) (WeatherClientTask.stationName d.handled)

/-- The result of a lookup is a station that was given the name; -1 where there is none. -/
def Finds (w : WeatherSystem) (name : List UInt8) (result : Int) : Prop :=
  (∃ s ∈ w.stations, s.name = name ∧ result = s.taskID.toNat) ∨
    ((∀ s ∈ w.stations, s.name ≠ name) ∧ result = -1)

/-- **Names are kept**: every copy keeps to its destination, rows of the repository exist, and
    every client finds the station that was given its string. -/
structure NamesKept (w : WeatherSystem) : Prop where
  stations : ∀ s ∈ w.stations, (∀ c ∈ s.copies, c.Inside) ∧
    (∀ names, (s.registerCopy names).Inside) ∧ RowInside s.id
  clients : ∀ d ∈ w.clients, ∀ c ∈ d.copies, c.Inside
  finds : ∀ d ∈ w.clients, w.Finds d.name (w.lookup d)

end WeatherSystem

/-! ## What the copies carry -/

section Carry

variable {m : Mem} {a : Int} {text : List UInt8}

/-- The text of a record is read back from it. -/
theorem TextMsg.clone_msg (h : m.Holds a (.cstr 48 text)) (htext : ∀ c ∈ text, c ≠ 0)
    (hlen : text.length < TextMsg.msgCapacity) : (TextMsg.clone m a).msg = text := by
  unfold TextMsg.msgCapacity at hlen
  exact h.loadCStr htext (by omega)

theorem TextMsg.holds_writeAt (m : Mem) (a : Int) (this : TextMsg) :
    (m.applyStores a this.writeAt).Holds a (.cstr 48 this.msg) := by
  refine Mem.holds_applyStores m ?_ (by simp [TextMsg.writeAt])
  simp [TextMsg.writeAt, headerStores, Store.Disjoint]

/-- The rebinder sets methods before and behind the text. -/
theorem TextMsg.holds_rebind (h : m.Holds a (.cstr 48 text)) (image : Image)
    (hlen : text.length < TextMsg.msgCapacity) :
    (m.applyStores a (TextMsg.rebind image)).Holds a (.cstr 48 text) := by
  unfold TextMsg.msgCapacity at hlen
  refine h.applyStores ?_
  intro s hs
  simp only [TextMsg.rebind, rebindHeader, List.cons_append, List.nil_append, List.mem_cons,
    List.not_mem_nil, or_false] at hs
  -- each method lies before the text or behind its buffer
  rcases hs with rfl | rfl | rfl | rfl | rfl | rfl <;>
    simp only [Store.Disjoint, Store.off_cstr, Store.off_ptr, Store.stop_ptr, Store.stop_cstr] <;>
    omega

/-- `writeAt` of a text that has room leaves alone what stands behind the buffer. -/
theorem TextMsg.writeAt_frame (m : Mem) {a x : Int} {this : TextMsg}
    (hlen : this.msg.length < TextMsg.msgCapacity) (hx : a + 48 + TextMsg.msgCapacity ≤ x) :
    m.applyStores a this.writeAt x = m x := by
  unfold TextMsg.msgCapacity at hlen hx
  apply Mem.applyStores_apply
  intro s hs
  simp only [TextMsg.writeAt, headerStores, List.cons_append, List.nil_append, List.mem_cons,
    List.not_mem_nil, or_false] at hs
  -- three header fields, and the text with its zero byte
  rcases hs with rfl | rfl | rfl | rfl <;>
    simp only [Store.stop_int, Store.stop_cstr] <;> omega

end Carry

namespace Delivery

variable {d : Delivery}

/-- **A name that has room in a `TextMsg` arrives**: every copy reads it. -/
theorem msg_eq (h : d.name.length < TextMsg.msgCapacity) :
    (TextMsg.clone d.sent 0).msg = d.name ∧ (TextMsg.clone d.rebound d.place).msg = d.name ∧
      d.received.msg = d.name := by
  -- `setMsg` into the sender's message
  have hsent : (TextMsg.clone d.sent 0).msg = d.name := by
    refine TextMsg.clone_msg ?_ d.name_ne_zero h
    rw [sent, TextMsg.setMsgAt, cString_eq_self d.name_ne_zero]
    exact Mem.holds_applyStores _ (List.pairwise_singleton _ _) (List.mem_singleton_self _)
  -- `Enqueue` into the segment, and `Dequeue`, which rebinds the methods there
  have hrebound : (TextMsg.clone d.rebound d.place).msg = d.name := by
    refine TextMsg.clone_msg ?_ d.name_ne_zero h
    have hwritten := TextMsg.holds_writeAt d.segment d.place (TextMsg.clone d.sent 0)
    rw [hsent] at hwritten
    exact TextMsg.holds_rebind hwritten d.image h
  -- `clone` out of the segment
  have hreceived : d.received.msg = d.name := by
    refine TextMsg.clone_msg ?_ d.name_ne_zero h
    have hcloned := TextMsg.holds_writeAt d.tmp 0 (TextMsg.clone d.rebound d.place)
    rwa [hrebound] at hcloned
  exact ⟨hsent, hrebound, hreceived⟩

/-- A short name is what `station_name` holds. -/
theorem holds_handled (h : d.name.length < TextMsg.msgCapacity) :
    d.handled.Holds 0 (.cstr 16 d.name) := by
  rw [← (msg_eq h).2.2]
  exact Mem.holds_applyStores _ (List.pairwise_singleton _ _) (List.mem_singleton_self _)

/-- **The copies keep to their destinations** exactly for the names that fit the smallest. -/
theorem copies_inside_iff : (∀ c ∈ d.copies, c.Inside) ↔ d.name.length < maxNameSize := by
  constructor
  · intro hinside
    -- if the first copy fits, the name arrives, and the handler's copy is of the name
    have hset := (hinside _ (List.mem_cons_self ..)).fits
    have hhandled := (hinside ⟨d.this, d.handled, 16, maxNameSize, d.received.msg.length + 1⟩
      (by simp [copies])).fits
    rw [(msg_eq hset).2.2] at hhandled
    exact hhandled
  · intro hname
    have hlen : d.name.length < TextMsg.msgCapacity := Nat.lt_trans hname (by decide)
    obtain ⟨hsent, hrebound, hreceived⟩ := msg_eq hlen
    intro c hc
    simp only [copies, List.mem_cons, List.not_mem_nil, or_false] at hc
    rcases hc with rfl | rfl | rfl | rfl
    -- the copies into `msg`, one for each message on the way
    · refine ⟨hlen, fun x hx => ?_⟩
      apply Mem.applyStores_apply
      intro s hs
      obtain rfl := List.mem_singleton.mp hs
      rw [Store.stop_cstr, cString_eq_self d.name_ne_zero]
      dsimp only at hx
      omega
    · refine ⟨by rw [hsent]; exact hlen, fun x hx => ?_⟩
      exact TextMsg.writeAt_frame _ (by rw [hsent]; exact hlen) hx
    · refine ⟨by rw [hrebound]; exact hlen, fun x hx => ?_⟩
      exact TextMsg.writeAt_frame _ (by rw [hrebound]; exact hlen) hx
    -- the handler's, into `station_name`
    · refine ⟨by rw [hreceived]; exact hname, fun x hx => ?_⟩
      apply Mem.applyStores_apply
      intro s hs
      obtain rfl := List.mem_singleton.mp hs
      rw [Store.stop_cstr, hreceived]
      dsimp only at hx
      omega

/-- What the client looks up. -/
theorem stationName_client (h : d.name.length < TextMsg.msgCapacity) :
    WeatherClientTask.stationName d.handled = d.name := by
  unfold TextMsg.msgCapacity at h
  exact (holds_handled h).loadCStr d.name_ne_zero (by omega)

/-- What the station registers: its name, and bytes that `strncpy` does not reach. -/
theorem strncpy_stationName (h : d.name.length < maxNameSize) :
    strncpy (WeatherStationTask.stationName d.handled) maxNameSize =
      strncpy d.name maxNameSize := by
  have hheld := holds_handled (d := d) (Nat.lt_trans h (by decide))
  have hread : d.handled.read 16 (d.name.length + 1) = d.name ++ [0] := by
    have hlen : (d.name ++ [0]).length = d.name.length + 1 := by simp
    simpa only [Mem.Holds, Store.cstr, Int.zero_add, hlen] using hheld
  -- what stands behind the name in the field is from before, and `strncpy` stops at the zero
  obtain ⟨k, hk⟩ : ∃ k, maxNameSize = d.name.length + 1 + k :=
    ⟨maxNameSize - (d.name.length + 1), by omega⟩
  have hbuffer : cString (WeatherStationTask.stationName d.handled) = d.name := by
    rw [WeatherStationTask.stationName, hk, Mem.read_append, hread, List.append_assoc]
    exact cString_append_nul d.name_ne_zero _
  rw [strncpy, strncpy, hbuffer, cString_eq_self d.name_ne_zero]

end Delivery

/-! ## Registration -/

namespace NamedStation

variable {s : NamedStation}

theorem id_eq (s : NamedStation) : s.id = s.taskID.toNat := by
  rw [id, Delivery.handled, WeatherStationTask.taskID_handleName, s.taskID_eq]

/-- The `strncpy` never leaves the row it is given. -/
theorem registerCopy_inside (s : NamedStation) (names : Mem) : (s.registerCopy names).Inside where
  fits := by
    change maxNameSize ≤ maxTask
    decide
  frame x hx := by
    apply Mem.applyStores_apply
    intro t ht
    obtain rfl := List.mem_singleton.mp ht
    simp only [registerCopy, maxTask] at hx
    simp only [Store.stop_mk, length_strncpy, maxNameSize]
    omega

theorem rowInside_iff (s : NamedStation) : RowInside s.id ↔ s.taskID.toNat < maxNameSize := by
  rw [id_eq]
  simp only [RowInside, taskName, sizeofTaskName, maxTask, maxNameSize]
  omega

/-- The call of `repository_set_name` that the station makes. -/
def setNameCall (s : NamedStation) (hname : s.name.length < maxNameSize)
    (hid : s.taskID.toNat < maxNameSize) : SetName where
  name := s.name
  id := s.taskID.toNat
  isName := ⟨hname, s.name_ne_zero⟩
  id_lt := Nat.lt_trans hid (by decide)

theorem register_eq (hname : s.name.length < maxNameSize) (names : Mem) :
    s.register names = setName names s.name s.taskID.toNat := by
  rw [register, setName, Delivery.strncpy_stationName hname, id_eq]
  rfl

end NamedStation

namespace WeatherSystem

/-- The name each task ID has been registered with. -/
def registered (stations : List NamedStation) : Nat → Option (List UInt8) :=
  stations.foldl (fun names s => Function.update names s.taskID.toNat (some s.name)) fun _ => none

/-- What fits the buffers of a station. -/
def Fits (s : NamedStation) : Prop := s.name.length < maxNameSize ∧ s.taskID.toNat < maxNameSize

theorem inv_registerAll (names : Mem) (stations : List NamedStation)
    (h : ∀ s ∈ stations, Fits s) : Inv (registerAll names stations) (registered stations) := by
  induction stations using List.reverseRecOn with
  | nil => exact inv_create names
  | append_singleton stations s ih =>
    have hbefore := ih fun t ht => h t (List.mem_append_left _ ht)
    obtain ⟨hname, hid⟩ := h s (by simp)
    have hstep := hbefore.setName (s.setNameCall hname hid) hid
    -- the last station registers when all others have
    rw [registerAll, registered, List.foldl_append, List.foldl_append]
    change Inv (s.register (registerAll names stations)) _
    rw [NamedStation.register_eq hname]
    exact hstep

/-- With distinct IDs no station takes the name of another. -/
theorem registered_eq_some_iff {stations : List NamedStation}
    (h : (stations.map NamedStation.taskID).Nodup) {i : Nat} {name : List UInt8} :
    registered stations i = some name ↔
      ∃ s ∈ stations, s.taskID.toNat = i ∧ s.name = name := by
  induction stations using List.reverseRecOn with
  | nil => simp [registered]
  | append_singleton stations s ih =>
    rw [List.map_append, List.nodup_append] at h
    obtain ⟨hbefore, -, happart⟩ := h
    have hlast : registered (stations ++ [s]) =
        Function.update (registered stations) s.taskID.toNat (some s.name) := by
      rw [registered, List.foldl_append]
      rfl
    rw [hlast]
    -- the last registration of an ID decides, and there is one for each ID
    by_cases hi : s.taskID.toNat = i
    · rw [← hi, Function.update_self, Option.some.injEq]
      constructor
      · rintro rfl
        exact ⟨s, by simp, rfl, rfl⟩
      · rintro ⟨t, ht, hid, hname⟩
        rcases List.mem_append.mp ht with ht | ht
        · -- an earlier station has another ID
          have hne := happart _ (List.mem_map_of_mem ht) s.taskID (by simp)
          exact absurd (UInt32.toNat_inj.mp hid) hne
        · rw [← List.mem_singleton.mp ht]
          exact hname
    · rw [Function.update_of_ne (Ne.symm hi), ih hbefore]
      constructor
      · rintro ⟨t, ht, heq⟩
        exact ⟨t, List.mem_append_left _ ht, heq⟩
      · rintro ⟨t, ht, hid, hname⟩
        rcases List.mem_append.mp ht with ht | ht
        · exact ⟨t, ht, hid, hname⟩
        · rw [List.mem_singleton.mp ht] at hid
          exact absurd hid hi

/-- **Lookup**: the repository gives the station that was given the name. -/
theorem lookup_finds (w : WeatherSystem) (hstations : ∀ s ∈ w.stations, Fits s) {d : Delivery}
    (hd : d.name.length < maxNameSize) : w.Finds d.name (w.lookup d) := by
  have hinv := inv_registerAll w.names w.stations hstations
  have hname := Delivery.stationName_client (d := d) (Nat.lt_trans hd (by decide))
  have hresult := hinv.getId ⟨hd, d.name_ne_zero⟩
  rw [lookup, hname, hresult]
  cases hfind : (List.range maxTask).find? fun i => registered w.stations i = some d.name with
  | some i =>
    -- the first row with the name belongs to a station that was given it
    have hi := List.find?_some hfind
    rw [decide_eq_true_eq, registered_eq_some_iff w.distinct] at hi
    obtain ⟨s, hs, hid, hgiven⟩ := hi
    exact .inl ⟨s, hs, hgiven, by rw [← hid]⟩
  | none =>
    refine .inr ⟨?_, rfl⟩
    intro s hs hgiven
    -- the loop of `repository_get_id` has looked at the row of every station
    have hlt : s.taskID.toNat < maxTask := Nat.lt_trans (hstations s hs).2 (by decide)
    have hnot := List.find?_eq_none.mp hfind _ (List.mem_range.mpr hlt)
    rw [decide_eq_true_eq, registered_eq_some_iff w.distinct] at hnot
    exact hnot ⟨s, hs, rfl, hgiven⟩

/-- **Names are kept exactly** when all of them are shorter than `MAX_NAME_SIZE` and the task
    IDs of the stations are as well. -/
theorem names_kept_iff (w : WeatherSystem) :
    w.NamesKept ↔ (∀ s ∈ w.stations, s.name.length < maxNameSize ∧
      s.taskID.toNat < maxNameSize) ∧ ∀ d ∈ w.clients, d.name.length < maxNameSize := by
  constructor
  · intro h
    constructor
    · intro s hs
      obtain ⟨hcopies, -, hrow⟩ := h.stations s hs
      exact ⟨Delivery.copies_inside_iff.mp hcopies, s.rowInside_iff.mp hrow⟩
    · intro d hd
      exact Delivery.copies_inside_iff.mp (h.clients d hd)
  · rintro ⟨hstations, hclients⟩
    constructor
    · intro s hs
      obtain ⟨hname, hid⟩ := hstations s hs
      exact ⟨Delivery.copies_inside_iff.mpr hname, s.registerCopy_inside,
        s.rowInside_iff.mpr hid⟩
    · intro d hd
      exact Delivery.copies_inside_iff.mpr (hclients d hd)
    · intro d hd
      exact w.lookup_finds hstations (hclients d hd)

end WeatherSystem

/-! ## A long name -/

/-- A new station in memory that is zero, and a name of forty letters "a". -/
def longNamed : NamedStation where
  name := List.replicate 40 97
  message _ := 0
  segment _ := 0
  place := 56
  image := .packed
  tmp _ := 0
  this := WeatherStationTask.create (fun _ => 0) 1
  name_ne_zero c hc := by
    rw [List.eq_of_mem_replicate hc]
    decide
  taskID := 1
  taskID_eq := by decide +kernel

/-- It is the only station. -/
def longNames : WeatherSystem where
  names _ := 0
  stations := [longNamed]
  clients := []
  distinct := List.pairwise_singleton _ _

/-- **The name runs over the subscribers**: the handler writes 41 bytes into `station_name`, and
    the station, which has no subscribers, goes on with 1633771873 of them. -/
theorem names_overrun :
    WeatherStationTask.subCount longNamed.this = 0 ∧
      WeatherStationTask.subCount longNamed.handled = 1633771873 ∧
      ¬(∀ c ∈ longNamed.copies, c.Inside) ∧ ¬longNames.NamesKept := by
  have hmsg : longNamed.received.msg = List.replicate 40 97 :=
    (Delivery.msg_eq (d := longNamed.toDelivery) (by decide)).2.2
  have hnot : ¬(∀ c ∈ longNamed.copies, c.Inside) := by
    rw [Delivery.copies_inside_iff]
    decide
  refine ⟨WeatherStationTask.subCount_create _ _, ?_, hnot, ?_⟩
  · rw [Delivery.handled, WeatherStationTask.handleWeatherStationNameMsg, hmsg]
    decide +kernel
  · intro hkept
    exact hnot (hkept.stations longNamed (List.mem_singleton_self _)).1

end TaskSystem
