import Mathlib.Data.List.Count
import TaskSystem.Tasks.WeatherNet

/-!
# Who Gets the Weather

In a system of stations and clients every subscription is sent by the client it names and every
post by the station it names, so that a client prints the weather of the station that it has
asked for, as often as it has been posted to it or less.

## Contents

- `Authentic`, `Authentic.effect`: who has sent what has been accepted
- `Informs`, `weather_reaches_subscribers`: what is posted, to whom, and what is printed
- `Finds`, `weather_tasks_goOn`: which tasks have a next move
-/

namespace TaskSystem

open Library Library.System Repository

namespace WeatherTask

/-! ## Who has sent what has been accepted -/

section Senders

variable {w : WeatherSetUp} {σ σ' : WeatherNet} {id target : UInt32} {msg : AnyMsg}

/-- Everything that has come in has been sent: a subscription by the client it names, and a post
    by the station it names, to this client. -/
structure Authentic (w : WeatherSetUp) (σ : WeatherNet) : Prop where
  subscribed : ∀ i, w.role i = some .station → ∀ sub ∈ subscriptions (σ.accepted w i),
    ∃ k, w.role k = some .client ∧ sub = k.toInt32 ∧
      ∃ station, (station, subMsg w.newBar k) ∈ σ.sent k ∧ taskAt station = i
  reported : ∀ k, w.role k = some .client → ∀ report ∈ reports (σ.accepted w k),
    ∃ i, w.role i = some .station ∧ report = (i.toInt32, 31)
  /-- No post is there twice. -/
  count_le : ∀ k i, w.role k = some .client → w.role i = some .station →
    (reports (σ.accepted w k)).count (i.toInt32, 31) ≤
      (σ.posted i).countP fun post => post.1 = k.toInt32

/-- A queue without new subscriptions. -/
theorem Delivers.subscriptions_eq (h : Delivers w σ σ' target msg) (hno : subscriber? msg = none)
    (id : UInt32) : subscriptions (σ'.accepted w id) = subscriptions (σ.accepted w id) := by
  obtain ⟨more, hmore, hqueues⟩ := h
  rw [hqueues, subscriptions, List.filterMap_append, subscriptions]
  rcases hmore with rfl | rfl
  · simp
  · split <;> simp [hno]

/-- A queue without new posts. -/
theorem Delivers.reports_eq (h : Delivers w σ σ' target msg) (hno : report? msg = none)
    (id : UInt32) : reports (σ'.accepted w id) = reports (σ.accepted w id) := by
  obtain ⟨more, hmore, hqueues⟩ := h
  rw [hqueues, reports, List.filterMap_append, reports]
  rcases hmore with rfl | rfl
  · simp
  · split <;> simp [hno]

/-- A queue with at most one new post. -/
theorem Delivers.reports_cases (h : Delivers w σ σ' target msg) {report : Int32 × Int32}
    (hreport : report? msg = some report) (id : UInt32) :
    reports (σ'.accepted w id) = reports (σ.accepted w id) ∨
      id = target ∧ reports (σ'.accepted w id) = reports (σ.accepted w id) ++ [report] := by
  obtain ⟨more, hmore, hqueues⟩ := h
  rw [hqueues]
  rcases hmore with rfl | rfl
  · left
    rw [ite_self, List.append_nil]
  · by_cases heq : id = target
    · right
      rw [if_pos heq, reports_append, hreport]
      exact ⟨heq, rfl⟩
    · left
      rw [if_neg heq, List.append_nil]

/-- A message that is reported subscribes nobody. -/
theorem subscriber?_of_report? {report : Int32 × Int32} (h : report? msg = some report) :
    subscriber? msg = none := by
  cases msg with
  | bar m => cases h
  | _ => rfl

/-- Nothing new is subscribed or posted. -/
theorem Authentic.of_eq (h : Authentic w σ)
    (hsubs : ∀ id, subscriptions (σ'.accepted w id) = subscriptions (σ.accepted w id))
    (hreports : ∀ id, reports (σ'.accepted w id) = reports (σ.accepted w id))
    (hposted : σ'.posted = σ.posted) (hsent : σ'.sent = σ.sent) : Authentic w σ' where
  subscribed i hi sub hsub := by
    rw [hsubs] at hsub
    rw [hsent]
    exact h.subscribed i hi sub hsub
  reported k hk report hreport := by
    rw [hreports] at hreport
    exact h.reported k hk report hreport
  count_le k i hk hi := by
    rw [hreports, hposted]
    exact h.count_le k i hk hi

/-- No station has subscribed itself. -/
theorem Authentic.taskAt_ne (h : Authentic w σ) (hrole : w.role id = some .station) {sub : Int32}
    (hsub : sub ∈ subscriptions (σ.accepted w id)) : taskAt sub ≠ id := by
  obtain ⟨k, hk, rfl, -⟩ := h.subscribed id hrole sub hsub
  rw [taskAt_toInt32 (w.lt_maxTask hk)]
  rintro rfl
  rw [hk] at hrole
  cases hrole

/-- **A post** to a subscriber. -/
theorem Authentic.post (h : Authentic w σ) {sub : Int32} (hrole : w.role id = some .station)
    (hsub : sub ∈ subscriptions (σ.accepted w id)) (hreport : report? msg = some (id.toInt32, 31))
    (haccepted : Delivers w σ σ' (taskAt sub) msg)
    (hposted : σ'.posted =
      Function.update σ.posted id (σ.posted id ++ [(sub, [id.toInt32, 31])]))
    (hsent : σ'.sent = σ.sent) : Authentic w σ' where
  subscribed i hi sub' hsub' := by
    rw [haccepted.subscriptions_eq (subscriber?_of_report? hreport)] at hsub'
    rw [hsent]
    exact h.subscribed i hi sub' hsub'
  reported k hk report hmem := by
    rcases haccepted.reports_cases hreport k with hsame | ⟨-, hmore⟩
    · rw [hsame] at hmem
      exact h.reported k hk report hmem
    · rw [hmore, List.mem_append, List.mem_singleton] at hmem
      rcases hmem with hold | rfl
      · exact h.reported k hk report hold
      · exact ⟨id, hrole, rfl⟩
  count_le k i hk hi := by
    have hle := h.count_le k i hk hi
    have hgrows : (σ.posted i).countP (fun post => post.1 = k.toInt32) ≤
        (σ'.posted i).countP fun post => post.1 = k.toInt32 := by
      rw [hposted]
      by_cases heq : i = id
      · subst heq
        rw [Function.update_self, List.countP_append]
        exact Nat.le_add_right ..
      · rw [Function.update_of_ne heq]
    rcases haccepted.reports_cases hreport k with hsame | ⟨htarget, hmore⟩
    · rw [hsame]
      exact hle.trans hgrows
    · rw [hmore, List.count_append]
      by_cases heq : i = id
      · -- the post accepted is one of this station, to this client
        subst heq
        obtain ⟨k', hk', hk'sub, -⟩ := h.subscribed i hrole sub hsub
        have hclient : k = k' := by
          rw [htarget, hk'sub, taskAt_toInt32 (w.lt_maxTask hk')]
        rw [hposted, Function.update_self, List.countP_append, hk'sub, hclient]
        simp only [List.count_singleton_self, List.countP_singleton, decide_true, if_true]
        rw [hclient] at hle
        omega
      · have hother : (id.toInt32, (31 : Int32)) ≠ (i.toInt32, 31) := by
          intro hpair
          apply heq
          exact (eq_of_toInt32_eq (w.lt_maxTask hrole) (w.lt_maxTask hi)
            (Prod.mk.inj hpair).1).symm
        rw [List.count_singleton, if_neg (by simpa using hother)]
        exact hle.trans hgrows

/-- **A subscription.** -/
theorem Authentic.subscribe (h : Authentic w σ) {station : Int32}
    (hrole : w.role id = some .client)
    (haccepted : Delivers w σ σ' (taskAt station) (subMsg w.newBar id))
    (hposted : σ'.posted = σ.posted)
    (hsent : σ'.sent = Function.update σ.sent id (σ.sent id ++ [(station, subMsg w.newBar id)])) :
    Authentic w σ' where
  subscribed i hi sub hsub := by
    have hkeeps : ∀ k p, p ∈ σ.sent k → p ∈ σ'.sent k := by
      intro k p hp
      rw [hsent]
      by_cases heq : k = id
      · subst heq
        rw [Function.update_self]
        exact List.mem_append_left _ hp
      · rw [Function.update_of_ne heq]
        exact hp
    obtain ⟨more, hmore, hqueues⟩ := haccepted
    rw [hqueues, subscriptions, List.filterMap_append, List.mem_append] at hsub
    rcases hsub with hold | hnew
    · obtain ⟨k, hk, rfl, st, hst, htask⟩ := h.subscribed i hi sub hold
      exact ⟨k, hk, rfl, st, hkeeps k _ hst, htask⟩
    · rcases hmore with rfl | rfl
      · simp at hnew
      · by_cases heq : i = taskAt station
        · rw [if_pos heq] at hnew
          obtain rfl : sub = id.toInt32 := List.mem_singleton.mp hnew
          refine ⟨id, hrole, rfl, station, ?_, heq.symm⟩
          rw [hsent, Function.update_self]
          exact List.mem_append_right _ (List.mem_singleton_self _)
        · rw [if_neg heq] at hnew
          cases hnew
  reported k hk report hreport := by
    rw [haccepted.reports_eq rfl] at hreport
    exact h.reported k hk report hreport
  count_le k i hk hi := by
    rw [haccepted.reports_eq rfl, hposted]
    exact h.count_le k i hk hi

/-- **Every effect** leaves what has come in authentic. -/
theorem Authentic.effect (h : Authentic w σ) (heffect : Effect w σ σ') : Authentic w σ' := by
  cases heffect with
  | quiet haccepted hposted hsent =>
    exact h.of_eq (fun id => by rw [haccepted]) (fun id => by rw [haccepted]) hposted hsent
  | name target m haccepted hposted hsent =>
    exact h.of_eq (haccepted.subscriptions_eq rfl) (haccepted.reports_eq rfl) hposted hsent
  | post id sub msg hrole hsub hreport haccepted hposted hsent =>
    exact h.post hrole hsub hreport haccepted hposted hsent
  | subscribe id station hrole haccepted hposted hsent =>
    exact h.subscribe hrole haccepted hposted hsent

end Senders

/-! ## All runs -/

section NetRuns

variable {w : WeatherSetUp} {σ : WeatherNet} {id : UInt32}

/-- **The weather reaches those who have asked for it**, and nobody else. -/
structure Informs (w : WeatherSetUp) (σ : WeatherNet) : Prop where
  /-- A station posts its weather to clients that have sent it a subscription. -/
  posts : ∀ i, w.role i = some .station → ∀ post ∈ σ.posted i,
    ∃ k, w.role k = some .client ∧ post = (k.toInt32, [i.toInt32, 31]) ∧
      ∃ station, taskAt station = i ∧ (station, subMsg w.newBar k) ∈ σ.sent k
  /-- A client prints the weather of the station that its lookup has found. -/
  prints : ∀ k, w.role k = some .client → ∀ report ∈ σ.printed k,
    ∃ name i, σ.lookedUp k = some name ∧ taskAt (w.getId k name) = i ∧
      w.role i = some .station ∧ report = (i.toInt32, 31)
  /-- It prints it no more often than the station has posted it to this client. -/
  once : ∀ k i, w.role k = some .client → w.role i = some .station →
    (σ.printed k).count (i.toInt32, 31) ≤
      (σ.posted i).countP fun post => post.1 = k.toInt32

/-- A station posts to tasks whose subscriptions have come in. -/
theorem Posting.post_mem {P : Process} {s : Station (Option StationLocal)} {l : StationLocal}
    (h : Posting P id s l) {post : Int32 × List Int32} (hpost : post ∈ l.posted) :
    post.1 ∈ subscriptions s.accepted ∧ post.2 = [id.toInt32, 31] := by
  obtain ⟨n, -, hn⟩ := List.mem_flatMap.mp (h.published.posted.subset hpost)
  obtain ⟨sub, hsub, rfl⟩ := List.mem_map.mp hn
  refine ⟨?_, rfl⟩
  apply (h.received_sublist.filterMap subscriber?).subset
  exact ((List.take_sublist n _).filterMap subscriber?).subset (List.mem_of_mem_take hsub)

/-- A client has handled what has come in. -/
theorem Listening.received_sublist {P : Process} {newBar : BarMsg} {getId : List UInt8 → Int32}
    {s : Station (Option WeatherClientLocal)} {l : WeatherClientLocal}
    (h : Listening P newBar getId id s l) : l.received.Sublist s.accepted := by
  have hpoint := h.point
  cases hpc : l.pc with
  | receive first point =>
    rw [hpc] at hpoint
    cases first <;> exact hpoint.1.sublist
  | lookUp | subscribe station =>
    rw [hpc] at hpoint
    exact hpoint.1.sublist

/-- The only message that a client sends is its subscription. -/
theorem Listens.lookedUp_of_sent {newBar : BarMsg} {getId : List UInt8 → Int32}
    {s : Station (Option WeatherClientLocal)} {l : WeatherClientLocal}
    (h : Listens newBar getId id s l) {station : Int32} {msg : AnyMsg}
    (hsent : (station, msg) ∈ l.sent) : ∃ name, l.lookedUp = some name ∧ station = getId name := by
  cases hname : l.lookedUp with
  | none =>
    rw [h.quiet hname] at hsent
    cases hsent
  | some name =>
    refine ⟨name, rfl, ?_⟩
    rcases h.once name hname with ⟨hnone, -⟩ | hone
    · rw [hnone] at hsent
      cases hsent
    · rw [hone] at hsent
      exact (Prod.mk.inj (List.mem_singleton.mp hsent)).1

theorem Informs.of_authentic (hrun : Running w σ) (h : Authentic w σ) : Informs w σ := by
  -- a post names a client that has subscribed
  have hposts : ∀ i, w.role i = some .station → ∀ post ∈ σ.posted i,
      ∃ k, w.role k = some .client ∧ post = (k.toInt32, [i.toInt32, 31]) ∧
        ∃ station, taskAt station = i ∧ (station, subMsg w.newBar k) ∈ σ.sent k := by
    intro i hi post hpost
    obtain ⟨l, hl⟩ := hrun.station i hi
    rw [WeatherNet.posted, hl.loc_eq] at hpost
    obtain ⟨hsub, hvals⟩ := hl.post_mem hpost
    have haccepted : σ.accepted w i = (σ.station i).accepted := if_pos hi
    rw [← haccepted] at hsub
    obtain ⟨k, hk, heq, station, hstation, htask⟩ := h.subscribed i hi _ hsub
    exact ⟨k, hk, Prod.ext heq hvals, station, htask, hstation⟩
  -- what is printed has been accepted
  have hprinted : ∀ k, w.role k = some .client →
      (σ.printed k).Sublist (reports (σ.accepted w k)) := by
    intro k hk
    obtain ⟨l, hl⟩ := hrun.client k hk
    have hne : w.role k ≠ some .station := by
      intro hstation
      rw [hk] at hstation
      cases hstation
    rw [WeatherNet.printed, hl.loc_eq, WeatherNet.accepted, if_neg hne]
    show l.printed.Sublist _
    rw [hl.printed]
    exact hl.received_sublist.filterMap report?
  have honce : ∀ k i, w.role k = some .client → w.role i = some .station →
      (σ.printed k).count (i.toInt32, 31) ≤
        (σ.posted i).countP fun post => post.1 = k.toInt32 := by
    intro k i hk hi
    exact ((hprinted k hk).count_le _).trans (h.count_le k i hk hi)
  refine ⟨hposts, ?_, honce⟩
  intro k hk report hreport
  obtain ⟨i, hi, rfl⟩ := h.reported k hk report ((hprinted k hk).subset hreport)
  -- so station `i` has posted to this client, which has subscribed to it
  have hpos := (List.count_pos_iff.mpr hreport).trans_le (honce k i hk hi)
  obtain ⟨post, hpost, hto⟩ := List.countP_pos_iff.mp hpos
  obtain ⟨k', hk', rfl, station, htask, hsent⟩ := hposts i hi post hpost
  obtain rfl : k' = k :=
    eq_of_toInt32_eq (w.lt_maxTask hk') (w.lt_maxTask hk) (of_decide_eq_true hto)
  obtain ⟨l, hl⟩ := hrun.client k' hk
  rw [WeatherNet.sent, hl.loc_eq] at hsent
  obtain ⟨name, hname, rfl⟩ := hl.listens.lookedUp_of_sent hsent
  refine ⟨name, i, ?_, htask, hi, rfl⟩
  rw [WeatherNet.lookedUp, hl.loc_eq]
  exact hname

theorem reachable_running (w : WeatherSetUp)
    (h : (weatherSystem w).ReachableWhen (SafeSending w) σ) : Running w σ ∧ Authentic w σ := by
  refine ReachableWhen.invariant (P := fun σ => Running w σ ∧ Authentic w σ) ?_ ?_ h
  · rintro _ ⟨mem, rfl⟩
    refine ⟨⟨fun id _ => ⟨_, .start _ id _⟩, fun id _ => ⟨_, .start _ id _⟩⟩, ?_, ?_, ?_⟩
    · intro i hi sub hsub
      simp [WeatherNet.accepted, subscriptions] at hsub
    · intro k hk report hreport
      simp [WeatherNet.accepted, reports] at hreport
    · intro k i hk hi
      simp [WeatherNet.accepted, reports]
  · rintro σ e σ' ⟨hrun, hauthentic⟩ hsafe hs
    obtain ⟨hrun', heffect⟩ :=
      hrun.step (fun id hrole sub hsub => hauthentic.taskAt_ne hrole hsub) hsafe hs
    exact ⟨hrun', hauthentic.effect heffect⟩

/-- **The weather reaches its subscribers**, in every run of any number of stations and clients,
    whatever the lookups return: what a client prints is the weather of the station that it has
    found, and no more of it than this station has posted to it. -/
theorem weather_reaches_subscribers (w : WeatherSetUp)
    (h : (weatherSystem w).ReachableWhen (SafeSending w) σ) : Informs w σ := by
  obtain ⟨hrun, hauthentic⟩ := reachable_running w h
  exact .of_authentic hrun hauthentic

/-- Station 0 and client 1, which finds it. -/
def stationAndClient : WeatherSetUp where
  role id := if id = 0 then some .station else if id = 1 then some .client else none
  process _ := ⟨4096, .packed⟩
  newRec _ := fun _ => 0
  newText := ⟨0, 0, 0, []⟩
  newBar := ⟨0, 0, 0, 0⟩
  newIntArray := ⟨0, 0, 0, 0, []⟩
  getId _ _ := 0
  inTable id h := by
    split_ifs at h with hstation hclient
    · rw [hstation]
      decide
    · rw [hclient]
      decide
    · exact absurd rfl h

/-- The two before their first moves. -/
def created : WeatherNet where
  station id := ⟨some (.start (fun _ => 0) id), .create fun _ => 0, [], 0⟩
  client id := ⟨some (.start (fun _ => 0) id), .create fun _ => 0, [], 0⟩

/-- A station whose queue is empty idles, whatever the other tasks are at. -/
theorem idles_net (hrole : w.role id = some .station)
    (hempty : messageThere (σ.station id).mb = false) :
    Idles (weatherSystem w) (SafeSending w) w.newIntArray
      fun l => σ.setStation id ((σ.station id).goto (some l)) := by
  intro l next hmove hl
  dsimp only at hl ⊢
  generalize hσ : σ.setStation id ((σ.station id).goto (some l)) = σ₁ at hl
  have hstation : σ₁.station id = (σ.station id).goto (some l) := by
    rw [← hσ]
    exact Function.update_self ..
  have hloc : (σ₁.station id).loc = some l := by
    rw [hstation]
    rfl
  have hempty₁ : messageThere (σ₁.station id).mb = false := by
    rw [hstation]
    exact hempty
  have hout : σ₁.outgoing w (.own id) = none := by
    rw [outgoing_station hrole hloc, hempty₁, hmove]
    rfl
  refine hl.step (e := .own id) ⟨fun _ _ h => ?_, fun _ _ _ h => WeatherEvent.noConfusion h⟩ ?_
  · rw [hout] at h
    cases h
  · show σ₁.step w (.own id) = _
    rw [step_eq_act hout, act_station hrole hloc, hempty₁, hmove, ← hσ]
    simp only [Station.perform, Option.map_some, WeatherNet.setStation, Function.update_self,
      Function.update_idem, Station.goto]

/-- Both tasks get their names, and the client subscribes, which the station handles in the first
    round of its loop. -/
def subscribingRun : List WeatherEvent :=
  [.name 0 8192 [65], .name 1 8192 [65]] ++ List.replicate 4 (.own 0) ++
    List.replicate 5 (.own 1) ++ List.replicate 6 (.own 0)

/-- The two behind that round. -/
def subscribedNet : WeatherNet :=
  ((weatherSystem stationAndClient).runFrom created subscribingRun).getD created

theorem subscribedNet_reachable :
    (weatherSystem stationAndClient).ReachableWhen (SafeSending stationAndClient)
      subscribedNet := by
  have hsome : ((weatherSystem stationAndClient).runFrom created subscribingRun).isSome = true := by
    decide +kernel
  have hsafe : (weatherSystem stationAndClient).Along (SafeSending stationAndClient) created
      subscribingRun := by
    decide +kernel
  obtain ⟨σ, hrun⟩ := Option.isSome_iff_exists.mp hsome
  rw [subscribedNet, hrun]
  exact hsafe.reachableWhen (.init ⟨fun _ _ => 0, rfl⟩) hrun

/-- The state of the station's loop. -/
def subscribedNetLocal : StationLocal :=
  (subscribedNet.station 0).loc.getD (.start (fun _ => 0) 0)

/-- The two when the first broadcast begins, after 10000000 rounds of the station. -/
def broadcastingNet : WeatherNet :=
  subscribedNet.setStation 0 ((subscribedNet.station 0).goto (some { subscribedNetLocal with
    pc := .broadcast 0, loopCount := 10000000, ticks := subscribedNetLocal.ticks + 9999998 + 1,
    rounds := subscribedNetLocal.rounds ++ [subscribedNetLocal.received.length] }))

theorem broadcastingNet_reachable :
    (weatherSystem stationAndClient).ReachableWhen (SafeSending stationAndClient)
      broadcastingNet := by
  have hempty : messageThere (subscribedNet.station 0).mb = false := by decide +kernel
  have hloc : (subscribedNet.station 0).loc = some subscribedNetLocal := by
    have hsome : (subscribedNet.station 0).loc.isSome = true := by decide +kernel
    obtain ⟨l, hl⟩ := Option.isSome_iff_exists.mp hsome
    rw [subscribedNetLocal, hl, Option.getD_some]
  have hhere : subscribedNet.setStation 0
      ((subscribedNet.station 0).goto (some subscribedNetLocal)) = subscribedNet := by
    rw [Station.goto, ← hloc, WeatherNet.setStation, Function.update_eq_self]
  apply (idles_net (w := stationAndClient) rfl hempty).broadcast (n := 9999998)
  · decide +kernel
  · decide +kernel
  · decide +kernel
  · decide +kernel
  · rw [hhere]
    exact subscribedNet_reachable

/-- The station posts its weather, and the client receives and prints it. -/
def printingRun : List WeatherEvent := [.own 0, .own 1, .own 1, .own 1]

theorem printingRun_safe :
    (weatherSystem stationAndClient).Along (SafeSending stationAndClient) broadcastingNet
      printingRun := by
  decide +kernel

/-- The client has printed the weather that the station has posted to it. -/
theorem weather_reaches_subscribers_printed :
    ∃ σ, (weatherSystem stationAndClient).runFrom broadcastingNet printingRun = some σ ∧
      σ.posted 0 = [(1, [0, 31])] ∧ σ.printed 1 = [(0, 31)] ∧ Informs stationAndClient σ := by
  have hprinted : ((weatherSystem stationAndClient).runFrom broadcastingNet printingRun).map
      (fun σ => (σ.posted 0, σ.printed 1)) = some ([(1, [0, 31])], [(0, 31)]) := by
    decide +kernel
  obtain ⟨σ, hrun, hseen⟩ := Option.map_eq_some_iff.mp hprinted
  obtain ⟨hposted, hreports⟩ := Prod.mk.inj hseen
  exact ⟨σ, hrun, hposted, hreports, weather_reaches_subscribers stationAndClient
    (printingRun_safe.reachableWhen broadcastingNet_reachable hrun)⟩

/-! ### Tasks that go on -/

/-- A message that comes in at a task leaves the others alone. -/
theorem deliver_others (w : WeatherSetUp) (σ : WeatherNet) (base : UInt64) (msg : AnyMsg)
    {target : UInt32} (hne : id ≠ target) :
    (σ.deliver w target base msg).1.station id = σ.station id ∧
      (σ.deliver w target base msg).1.client id = σ.client id := by
  unfold WeatherNet.deliver
  split
  · exact ⟨Function.update_of_ne hne .., rfl⟩
  · exact ⟨rfl, Function.update_of_ne hne ..⟩
  · exact ⟨rfl, rfl⟩

/-- **A station goes on**: those it posts to have indices of the table. -/
theorem Running.station_goesOn (hrun : Running w σ) (h : Authentic w σ)
    (hrole : w.role id = some .station) : ∃ σ', σ.step w (.own id) = some σ' := by
  obtain ⟨l, hl⟩ := hrun.station id hrole
  have hact : ∀ (σ₁ : WeatherNet) (sent : Bool), σ₁.station id = σ.station id →
      ∃ σ', σ₁.act w sent (.own id) = some σ' := by
    intro σ₁ sent hsame
    obtain ⟨s', hs'⟩ := hl.goesOn w.newIntArray (messageThere (σ.station id).mb) sent
    rw [act_station hrole (hsame ▸ hl.loc_eq), hsame, hs']
    exact ⟨_, rfl⟩
  cases hout : σ.outgoing w (.own id) with
  | none =>
    rw [step_eq_act hout]
    exact hact σ false rfl
  | some out =>
    obtain ⟨target, msg⟩ := out
    obtain ⟨σ₁, sent, hd, hstep⟩ := step_of_outgoing hout
    rw [hstep]
    apply hact
    -- it has not subscribed itself
    have hne : id ≠ target := by
      rw [outgoing_station hrole hl.loc_eq] at hout
      rcases weatherMove_cases w.newIntArray (messageThere (σ.station id).mb) l with
        ⟨i, hi, -, hsend⟩ | ⟨hquiet, -⟩
      · have haccepted : σ.accepted w id = (σ.station id).accepted := if_pos hrole
        have hsub := hl.sub_mem hi
        rw [← haccepted] at hsub
        rw [hsend, outgoing?] at hout
        split at hout
        · cases hout
        · rw [← (Prod.mk.inj (Option.some.inj hout)).1]
          exact (h.taskAt_ne hrole hsub).symm
      · rw [hquiet.outgoing?_eq] at hout
        cases hout
    have hother := deliver_others w σ (WeatherNet.baseOf w (.own id)) msg hne
    rw [hd] at hother
    exact hother.1

/-- The lookup of a client has returned an index of the table. -/
def Finds (σ : WeatherNet) (id : UInt32) : Prop :=
  ∀ l station, (σ.client id).loc = some l → l.pc = .subscribe station →
    ValidTarget station.toInt

/-- **A client goes on** exactly if it is not about to send out of the table. -/
theorem Running.client_goesOn_iff (hrun : Running w σ) (hrole : w.role id = some .client) :
    (∃ σ', σ.step w (.own id) = some σ') ↔ Finds σ id := by
  obtain ⟨l, hl⟩ := hrun.client id hrole
  have hfinds : Finds σ id ↔ ∀ station, l.pc = .subscribe station → ValidTarget station.toInt := by
    constructor
    · exact fun h station hpc => h l station hl.loc_eq hpc
    · intro h l' station hl' hpc
      obtain rfl := Option.some.inj (hl.loc_eq.symm.trans hl')
      exact h station hpc
  have hact : ∀ (σ₁ : WeatherNet) (sent : Bool), σ₁.client id = σ.client id →
      ((∃ σ', σ₁.act w sent (.own id) = some σ') ↔
        ∀ station, l.pc = .subscribe station → ValidTarget station.toInt) := by
    intro σ₁ sent hsame
    rw [← hl.goesOn_iff sent, act_client hrole (hsame ▸ hl.loc_eq), hsame]
    constructor
    · rintro ⟨σ', hσ'⟩
      obtain ⟨s', hs', -⟩ := Option.map_eq_some_iff.mp hσ'
      exact ⟨s', hs'⟩
    · rintro ⟨s', hs'⟩
      exact ⟨_, Option.map_eq_some_iff.mpr ⟨s', hs', rfl⟩⟩
  rw [hfinds]
  cases hout : σ.outgoing w (.own id) with
  | none =>
    rw [step_eq_act hout]
    exact hact σ false rfl
  | some out =>
    obtain ⟨target, msg⟩ := out
    obtain ⟨σ₁, sent, hd, hstep⟩ := step_of_outgoing hout
    rw [hstep]
    apply hact
    -- what it has found is another task, or none
    have hne : id ≠ target := by
      rw [outgoing_client hrole hl.loc_eq] at hout
      rcases weatherClientMove_cases w.newBar (w.getId id) l with
        ⟨station, -, hvalid, hsend⟩ | ⟨hquiet, -⟩
      · rw [hsend, outgoing?] at hout
        split at hout
        · cases hout
        case isFalse hnat =>
          rw [← (Prod.mk.inj (Option.some.inj hout)).1]
          exact ne_taskAt hvalid hnat
      · rw [hquiet.outgoing?_eq] at hout
        cases hout
    have hother := deliver_others w σ (WeatherNet.baseOf w (.own id)) msg hne
    rw [hd] at hother
    exact hother.2

/-- **Which tasks go on**, in every run of any number of stations and clients: a station always
    has a next move, and a client has one unless its lookup has returned an ID outside the table.
    A client that has found an index without a task goes on: its subscription is lost. -/
theorem weather_tasks_goOn (w : WeatherSetUp)
    (h : (weatherSystem w).ReachableWhen (SafeSending w) σ) :
    (∀ i, w.role i = some .station → ∃ σ', (weatherSystem w).step σ (.own i) = some σ') ∧
      ∀ k, w.role k = some .client →
        ((∃ σ', (weatherSystem w).step σ (.own k) = some σ') ↔ Finds σ k) := by
  obtain ⟨hrun, hauthentic⟩ := reachable_running w h
  constructor
  · exact fun i hi => hrun.station_goesOn hauthentic hi
  · exact fun k hk => hrun.client_goesOn_iff hk

/-- The same two, with lookups that return `found`. -/
def stationAndSeeker (found : Int32) : WeatherSetUp :=
  { stationAndClient with getId := fun _ _ => found }

/-- The client gets a name and looks it up. -/
def seekingRun : List WeatherEvent := [.name 1 8192 [65]] ++ List.replicate 4 (.own 1)

/-- Both go on behind the first post; a client that has found an index without a task goes on,
    and one whose lookup has returned -1 does not. -/
theorem weather_tasks_goOn_printed :
    (∃ σ, (weatherSystem stationAndClient).runFrom broadcastingNet printingRun = some σ ∧
      (∃ σ', (weatherSystem stationAndClient).step σ (.own 0) = some σ') ∧
      ∃ σ', (weatherSystem stationAndClient).step σ (.own 1) = some σ') ∧
    (∃ σ, (weatherSystem (stationAndSeeker 7)).runFrom created seekingRun = some σ ∧
      ∃ σ', (weatherSystem (stationAndSeeker 7)).step σ (.own 1) = some σ') ∧
    ∃ σ, (weatherSystem (stationAndSeeker (-1))).runFrom created seekingRun = some σ ∧
      ¬∃ σ', (weatherSystem (stationAndSeeker (-1))).step σ (.own 1) = some σ' := by
  refine ⟨?_, ?_, ?_⟩
  · have hpc : ((weatherSystem stationAndClient).runFrom broadcastingNet printingRun).map
        (fun σ => (σ.client 1).loc.map WeatherClientLocal.pc) =
          some (some (.receive false .poll)) := by
      decide +kernel
    obtain ⟨σ, hrun, hloc⟩ := Option.map_eq_some_iff.mp hpc
    obtain ⟨hstation, hclient⟩ := weather_tasks_goOn stationAndClient
      (printingRun_safe.reachableWhen broadcastingNet_reachable hrun)
    refine ⟨σ, hrun, hstation 0 rfl, (hclient 1 rfl).mpr ?_⟩
    intro l station hl hstation
    rw [hl, Option.map_some, hstation] at hloc
    cases Option.some.inj hloc
  · have hpc : ((weatherSystem (stationAndSeeker 7)).runFrom created seekingRun).map
        (fun σ => (σ.client 1).loc.map WeatherClientLocal.pc) = some (some (.subscribe 7)) := by
      decide +kernel
    have hsafe : (weatherSystem (stationAndSeeker 7)).Along (SafeSending (stationAndSeeker 7))
        created seekingRun := by
      decide +kernel
    obtain ⟨σ, hrun, hloc⟩ := Option.map_eq_some_iff.mp hpc
    obtain ⟨-, hclient⟩ := weather_tasks_goOn (stationAndSeeker 7)
      (hsafe.reachableWhen (.init ⟨fun _ _ => 0, rfl⟩) hrun)
    refine ⟨σ, hrun, (hclient 1 rfl).mpr ?_⟩
    intro l station hl hstation
    rw [hl, Option.map_some] at hloc
    obtain rfl := WeatherClientPc.subscribe.inj ((Option.some.inj hloc).symm.trans hstation)
    decide
  · have hpc : ((weatherSystem (stationAndSeeker (-1))).runFrom created seekingRun).map
        (fun σ => (σ.client 1).loc.map WeatherClientLocal.pc) = some (some (.subscribe (-1))) := by
      decide +kernel
    have hsafe : (weatherSystem (stationAndSeeker (-1))).Along
        (SafeSending (stationAndSeeker (-1))) created seekingRun := by
      decide +kernel
    obtain ⟨σ, hrun, hloc⟩ := Option.map_eq_some_iff.mp hpc
    obtain ⟨-, hclient⟩ := weather_tasks_goOn (stationAndSeeker (-1))
      (hsafe.reachableWhen (.init ⟨fun _ _ => 0, rfl⟩) hrun)
    refine ⟨σ, hrun, fun hgoes => ?_⟩
    have hfinds := (hclient 1 rfl).mp hgoes
    obtain ⟨l, hl, hstation⟩ := Option.map_eq_some_iff.mp hloc
    exact absurd (hfinds l (-1) hl hstation) (by decide)

end NetRuns

end WeatherTask

end TaskSystem
