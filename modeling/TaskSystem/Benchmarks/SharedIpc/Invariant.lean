import TaskSystem.Benchmarks.SharedIpc

/-!
# The Buffer Loses Nothing

Every process that stands between its `sem_wait` and its `sem_post` holds a token of a semaphore.
Counted together with the semaphores, the tokens say how many cells are free, how many are full,
and that one process at most is in a critical section; the indices and `count` are right up to
what that process has still to do.

## Contents

- `Tokens`: the semaphores, the indices and `count`; `Contents`: the cells and the items
- `Tokens.send`, `Tokens.recv`, `Contents.send`, `Contents.recv`: kept by every statement
- `buffer_correct`: in every reachable state nothing is lost, duplicated or overwritten, and
  processes that cannot go on have passed on everything
-/

namespace TaskSystem.SharedIpc

open Library CellRing

/-! ## The invariant -/

/-- 1 at point `q`, 0 elsewhere. -/
def Point.stands (q p : Point) : Nat := if p = q then 1 else 0

/-- Where a producer stands after its next statement -/
def Point.next : Point → Point
  | .wait => .lock
  | .lock => .access
  | .access => .move
  | .move => .adjust
  | .adjust => .unlock
  | .unlock => .post
  | .post | .insert => .wait

/-- Past the access, and on the same round still -/
def Point.accessed : Point → Nat
  | .move | .adjust | .unlock | .post | .insert => 1
  | _ => 0

/-- How many items a producer has put into the buffer. -/
def Producer.sent (w : Producer) : Nat := w.i + w.point.accessed

namespace SharedStuff

/-- How many producers stand at a point. -/
def standing (s : SharedStuff) (q : Point) : Nat := s.producers.countP fun w => w.point = q

/-- Semaphores, indices and `count`, up to what processes have still to do. -/
structure Tokens (s : SharedStuff) : Prop where
  empty : s.semEmpty + s.standing .lock + s.standing .access + s.produced.length +
    Point.stands .move s.consumer.point + Point.stands .adjust s.consumer.point +
    Point.stands .unlock s.consumer.point + Point.stands .post s.consumer.point =
      bufferSize + s.taken.length
  full : s.semFull + s.standing .move + s.standing .adjust + s.standing .unlock +
    s.standing .post + Point.stands .lock s.consumer.point +
    Point.stands .access s.consumer.point + s.taken.length = s.produced.length
  mutex : s.semMutex + s.standing .access + s.standing .move + s.standing .adjust +
    s.standing .unlock + Point.stands .access s.consumer.point +
    Point.stands .move s.consumer.point + Point.stands .adjust s.consumer.point +
    Point.stands .unlock s.consumer.point = 1
  inPos : s.inPos = (s.produced.length - s.standing .move) % bufferSize
  outPos : s.outPos = (s.taken.length - Point.stands .move s.consumer.point) % bufferSize
  count : s.count + s.standing .move + s.standing .adjust + s.taken.length =
    s.produced.length + Point.stands .move s.consumer.point +
      Point.stands .adjust s.consumer.point
  produced : s.produced.length = tally Producer.sent s.producers
  rounds : s.taken.length = s.consumer.i + s.consumer.point.accessed
  list : s.list.length = s.consumer.i

variable {s s' : SharedStuff} {k : Nat} {w : Producer}

/-- **One producer changes**: what becomes of the number that stands at a point. -/
theorem standing_set (h : s.producers[k]? = some w) {w' : Producer}
    (hproducers : s'.producers = s.producers.set k w') (q : Point) :
    s'.standing q + q.stands w.point = s.standing q + q.stands w'.point := by
  have htally := tally_set h (fun w => q.stands w.point) w'
  have hall : ∀ ps : List Producer, tally (fun w => q.stands w.point) ps =
      ps.countP fun w => w.point = q := by
    intro ps
    induction ps with
    | nil => rfl
    | cons v ps ih =>
      rw [List.countP_cons, ← ih]
      by_cases hv : v.point = q <;>
        simp [tally, Point.stands, hv, Nat.add_comm]
  rw [hall, hall] at htally
  rw [standing, hproducers]
  exact htally

/-- A producer goes on from `w` to `w'`: what it takes from a semaphore, from `count` or from `in`,
    or puts there, is what it holds less or more in its new place. -/
theorem Tokens.setProducer (h : s.Tokens) (hw : s.producers[k]? = some w) {w' : Producer}
    (hproducers : s'.producers = s.producers.set k w') (hconsumer : s'.consumer = s.consumer)
    (houtPos : s'.outPos = s.outPos) (htaken : s'.taken = s.taken) (hlist : s'.list = s.list)
    (hput : s'.produced.length = s.produced.length + Point.stands .move w'.point)
    (hempty : s'.semEmpty + Point.stands .lock w'.point + Point.stands .access w'.point +
        Point.stands .move w'.point =
      s.semEmpty + Point.stands .lock w.point + Point.stands .access w.point)
    (hfull : s'.semFull + Point.stands .adjust w'.point + Point.stands .unlock w'.point +
        Point.stands .post w'.point =
      s.semFull + Point.stands .move w.point + Point.stands .adjust w.point +
        Point.stands .unlock w.point + Point.stands .post w.point)
    (hmutex : s'.semMutex + Point.stands .access w'.point + Point.stands .move w'.point +
        Point.stands .adjust w'.point + Point.stands .unlock w'.point =
      s.semMutex + Point.stands .access w.point + Point.stands .move w.point +
        Point.stands .adjust w.point + Point.stands .unlock w.point)
    (hinPos : s'.inPos = (s.inPos + Point.stands .move w.point) % bufferSize)
    (hcount : s'.count + Point.stands .adjust w'.point =
      s.count + Point.stands .move w.point + Point.stands .adjust w.point)
    (hsent : w'.sent = w.sent + Point.stands .move w'.point) : s'.Tokens := by
  have hlock := standing_set hw hproducers .lock
  have haccess := standing_set hw hproducers .access
  have hmove := standing_set hw hproducers .move
  have hadjust := standing_set hw hproducers .adjust
  have hunlock := standing_set hw hproducers .unlock
  have hpost := standing_set hw hproducers .post
  constructor
  case empty =>
    have hold := h.empty
    rw [hconsumer, htaken]
    clear * - hold hput hempty hlock haccess
    omega
  case full =>
    have hold := h.full
    rw [hconsumer, htaken]
    clear * - hold hput hfull hmove hadjust hunlock hpost
    omega
  case mutex =>
    have hold := h.mutex
    rw [hconsumer]
    clear * - hold hmutex haccess hmove hadjust hunlock
    omega
  case inPos =>
    have hroom : s.standing .move ≤ s.produced.length := by
      have hold := h.full
      clear * - hold
      omega
    have hmoved : s'.produced.length - s'.standing .move =
        s.produced.length - s.standing .move + Point.stands .move w.point := by
      clear * - hput hmove hroom
      omega
    rw [hinPos, hmoved, h.inPos, Nat.mod_add_mod]
  case outPos => rw [houtPos, htaken, hconsumer, h.outPos]
  case count =>
    have hold := h.count
    rw [hconsumer, htaken]
    clear * - hold hput hcount hmove hadjust
    omega
  case produced =>
    have hold := h.produced
    have htally := tally_set hw Producer.sent w'
    rw [← hproducers] at htally
    clear * - hold hput hsent htally
    omega
  case rounds => rw [htaken, hconsumer, h.rounds]
  case list => rw [hlist, hconsumer, h.list]

/-- **A statement of a producer** keeps the tokens. -/
theorem Tokens.send (h : s.Tokens) (hw : s.producers[k]? = some w)
    (hs : s.sendProc k w = some s') : s'.Tokens := by
  have hinPos : s.inPos = (s.inPos + 0) % bufferSize := by
    rw [h.inPos, Nat.add_zero, Nat.mod_mod]
  cases hp : w.point with
  | wait | lock =>
    -- the semaphore gives up the token that the producer takes
    simp only [sendProc, hp] at hs
    split at hs <;> cases hs
    apply Tokens.setProducer h hw
    case hproducers | hconsumer | houtPos | htaken | hlist => rfl
    all_goals simp only [hp, Producer.sent, Point.stands, Point.accessed, reduceCtorEq, if_true,
      if_false]
    all_goals first | exact hinPos | omega
  -- its own token goes with it from point to point, or back to a semaphore
  | access | move | adjust | unlock | post =>
    simp only [sendProc, hp] at hs
    cases hs
    apply Tokens.setProducer h hw
    case hproducers | hconsumer | houtPos | htaken | hlist => rfl
    all_goals simp only [hp, Producer.sent, Point.stands, Point.accessed, reduceCtorEq, if_true,
      if_false, List.length_append, List.length_singleton]
    all_goals first | exact hinPos | omega
  | insert =>
    simp only [sendProc, hp] at hs
    cases hs

/-- The server goes on, in the same way. -/
theorem Tokens.setConsumer (h : s.Tokens) (hproducers : s'.producers = s.producers)
    (hproduced : s'.produced = s.produced) (hinPos : s'.inPos = s.inPos)
    (hget : s'.taken.length = s.taken.length + Point.stands .move s'.consumer.point)
    (hempty : s'.semEmpty + Point.stands .adjust s'.consumer.point +
        Point.stands .unlock s'.consumer.point + Point.stands .post s'.consumer.point =
      s.semEmpty + Point.stands .move s.consumer.point + Point.stands .adjust s.consumer.point +
        Point.stands .unlock s.consumer.point + Point.stands .post s.consumer.point)
    (hfull : s'.semFull + Point.stands .lock s'.consumer.point +
        Point.stands .access s'.consumer.point + Point.stands .move s'.consumer.point =
      s.semFull + Point.stands .lock s.consumer.point + Point.stands .access s.consumer.point)
    (hmutex : s'.semMutex + Point.stands .access s'.consumer.point +
        Point.stands .move s'.consumer.point + Point.stands .adjust s'.consumer.point +
        Point.stands .unlock s'.consumer.point =
      s.semMutex + Point.stands .access s.consumer.point + Point.stands .move s.consumer.point +
        Point.stands .adjust s.consumer.point + Point.stands .unlock s.consumer.point)
    (houtPos : s'.outPos = (s.outPos + Point.stands .move s.consumer.point) % bufferSize)
    (hcount : s'.count + Point.stands .move s.consumer.point +
        Point.stands .adjust s.consumer.point =
      s.count + Point.stands .adjust s'.consumer.point)
    (hrounds : s'.consumer.i + s'.consumer.point.accessed =
      s.consumer.i + s.consumer.point.accessed + Point.stands .move s'.consumer.point)
    (hlist : s'.list.length = s'.consumer.i) : s'.Tokens := by
  have hstanding : ∀ q, s'.standing q = s.standing q := fun q => by
    rw [standing, hproducers, standing]
  constructor
  case empty =>
    have hold := h.empty
    rw [hstanding, hstanding, hproduced]
    clear * - hold hget hempty
    omega
  case full =>
    have hold := h.full
    rw [hstanding, hstanding, hstanding, hstanding, hproduced]
    clear * - hold hget hfull
    omega
  case mutex =>
    have hold := h.mutex
    rw [hstanding, hstanding, hstanding, hstanding]
    clear * - hold hmutex
    omega
  case inPos => rw [hinPos, hproduced, hstanding, h.inPos]
  case outPos =>
    -- an item is counted as taken before `out` has moved
    have hroom : Point.stands .move s.consumer.point ≤ s.taken.length := by
      have hold := h.rounds
      cases hp : s.consumer.point <;> simp [hp, Point.stands, Point.accessed] at hold ⊢
      omega
    have hmoved : s'.taken.length - Point.stands .move s'.consumer.point =
        s.taken.length - Point.stands .move s.consumer.point +
          Point.stands .move s.consumer.point := by
      clear * - hget hroom
      omega
    rw [houtPos, hmoved, h.outPos, Nat.mod_add_mod]
  case count =>
    have hold := h.count
    rw [hstanding, hstanding, hproduced]
    clear * - hold hget hcount
    omega
  case produced => rw [hproduced, hproducers, h.produced]
  case rounds =>
    have hold := h.rounds
    clear * - hold hget hrounds
    omega
  case list => exact hlist

/-- **A statement of the server** keeps the tokens. -/
theorem Tokens.recv (h : s.Tokens) (hs : s.recvProc = some s') : s'.Tokens := by
  have houtPos : s.outPos = (s.outPos + 0) % bufferSize := by
    rw [h.outPos, Nat.add_zero, Nat.mod_mod]
  have hlist := h.list
  cases hp : s.consumer.point with
  -- the semaphore gives up the token that the server takes
  | wait | lock =>
    simp only [recvProc, hp] at hs
    split at hs <;> cases hs
    apply Tokens.setConsumer h
    case hproducers | hproduced | hinPos => rfl
    all_goals simp only [hp, Point.stands, Point.accessed, reduceCtorEq, if_true, if_false]
    all_goals first | exact houtPos | omega
  | access | move | adjust | unlock | post | insert =>
    simp only [recvProc, hp] at hs
    cases hs
    apply Tokens.setConsumer h
    case hproducers | hproduced | hinPos => rfl
    all_goals simp only [hp, Point.stands, Point.accessed, reduceCtorEq, if_true, if_false,
      List.length_append, List.length_singleton]
    all_goals first | exact houtPos | omega

/-! ## The items -/

/-- The cells, and what has gone through them. -/
structure Contents (s : SharedStuff) : Prop where
  ring : Keeps bufferSize s.buffer s.items s.taken.length
  taken : s.taken = s.items.take s.taken.length
  once : ∀ k w, s.producers[k]? = some w → s.itemsOf k = (List.range w.sent).map Nat.cast
  bounds : ∀ w ∈ s.producers, w.i ≤ w.updateCount.toNat ∧
    (w.point ≠ .wait → (w.i : Int) < w.updateCount) ∧ w.point ≠ .insert
  known : ∀ e ∈ s.produced, e.1 < s.producers.length
  rounds : s.consumer.i ≤ s.consumer.rounds.toNat ∧
    (s.consumer.point ≠ .wait → (s.consumer.i : Int) < s.consumer.rounds)

/-- What holds of all producers holds of them after one of them has changed. -/
theorem forall_mem_set {P : Producer → Prop} {ps : List Producer} (h : ∀ w ∈ ps, P w) (k : Nat)
    {w' : Producer} (hw' : P w') : ∀ w ∈ ps.set k w', P w := by
  intro v hv
  rcases List.mem_or_eq_of_mem_set hv with hv | rfl
  · exact h v hv
  · exact hw'

/-- A producer that goes on without putting anything into the buffer. -/
theorem Contents.goto (h : s.Contents) (hw : s.producers[k]? = some w) (w' : Producer)
    (hsent : w'.sent = w.sent) (hbounds : w'.i ≤ w'.updateCount.toNat ∧
      (w'.point ≠ .wait → (w'.i : Int) < w'.updateCount) ∧ w'.point ≠ .insert)
    (hproducers : s'.producers = s.producers.set k w') (hbuffer : s'.buffer = s.buffer)
    (hproduced : s'.produced = s.produced) (htaken : s'.taken = s.taken)
    (hconsumer : s'.consumer = s.consumer) : s'.Contents where
  ring := by
    rw [hbuffer, htaken, items, hproduced]
    exact h.ring
  taken := by
    rw [htaken, items, hproduced]
    exact h.taken
  once := by
    intro j v hv
    rw [itemsOf, hproduced, ← itemsOf]
    rw [hproducers, List.getElem?_set] at hv
    split at hv
    case isTrue heq =>
      subst heq
      split at hv <;> cases hv
      rw [hsent]
      exact h.once k w hw
    case isFalse => exact h.once j v hv
  bounds := by
    rw [hproducers]
    exact forall_mem_set h.bounds k hbounds
  known := by
    rw [hproduced, hproducers, List.length_set]
    exact h.known
  rounds := by
    rw [hconsumer]
    exact h.rounds

/-- **The access of a producer**: its item goes into the next cell, which is free. -/
theorem Contents.put (h : s.Contents) (ht : s.Tokens) (hw : s.producers[k]? = some w)
    (hp : w.point = .access) :
    Contents { s with
      buffer := Function.update s.buffer s.inPos w.i
      produced := s.produced ++ [(k, (w.i : Int))]
      producers := s.producers.set k { w with point := .move } } := by
  have hlength : s.items.length = s.produced.length := List.length_map _
  have hstanding : 0 < s.standing .access :=
    List.countP_pos_iff.mpr ⟨w, List.mem_of_getElem? hw, decide_eq_true hp⟩
  -- its token keeps a cell free, and no other producer is about to move `in`
  have hroom : s.items.length < s.taken.length + bufferSize := by
    have := ht.empty
    omega
  have hmove : s.standing .move = 0 := by
    have := ht.mutex
    omega
  have hcell : s.inPos = s.items.length % bufferSize := by
    rw [ht.inPos, hmove, hlength, Nat.sub_zero]
  obtain ⟨hi, hlt, -⟩ := h.bounds w (List.mem_of_getElem? hw)
  have hitems : (s.produced ++ [(k, (w.i : Int))]).map Prod.snd = s.items ++ [(w.i : Int)] := by
    rw [List.map_append, items]
    rfl
  constructor
  · change Keeps bufferSize _ ((s.produced ++ [(k, (w.i : Int))]).map Prod.snd) _
    rw [hitems, hcell]
    exact h.ring.put hroom _
  · change s.taken = ((s.produced ++ [(k, (w.i : Int))]).map Prod.snd).take s.taken.length
    rw [hitems, List.take_append_of_le_length h.ring.taken_le]
    exact h.taken
  · intro j v hv
    simp only [itemsOf, List.filter_append, List.map_append]
    rw [List.getElem?_set] at hv
    split at hv
    -- this producer has put one item more, the others what they had
    case isTrue heq =>
      subst heq
      split at hv <;> cases hv
      have hbefore := h.once k w hw
      simp only [itemsOf, Producer.sent, hp, Point.accessed, Nat.add_zero] at hbefore
      simp [hbefore, Producer.sent, Point.accessed, List.range_succ]
    case isFalse hne =>
      have hbefore := h.once j v hv
      simp only [itemsOf] at hbefore
      simp [hbefore, hne]
  · refine forall_mem_set h.bounds k ⟨hi, fun _ => hlt ?_, nofun⟩
    rw [hp]
    nofun
  · intro e he
    rw [List.length_set]
    rcases List.mem_append.mp he with hold | hnew
    · exact h.known e hold
    · rw [List.mem_singleton.mp hnew]
      exact (List.getElem?_eq_some_iff.mp hw).1
  · exact h.rounds

theorem Contents.send (h : s.Contents) (ht : s.Tokens) (hw : s.producers[k]? = some w)
    (hs : s.sendProc k w = some s') : s'.Contents := by
  obtain ⟨hi, hlt, -⟩ := h.bounds w (List.mem_of_getElem? hw)
  cases hp : w.point with
  | wait =>
    simp only [sendProc, hp] at hs
    split at hs <;> cases hs
    case isTrue.refl hguard =>
    -- the test of the loop: another item is to be sent
    exact h.goto hw { w with point := .lock } (by simp [Producer.sent, hp, Point.accessed])
      ⟨hi, fun _ => hguard.1, nofun⟩ rfl rfl rfl rfl rfl
  | lock =>
    have hbusy : (w.i : Int) < w.updateCount := hlt (by simp [hp])
    simp only [sendProc, hp] at hs
    split at hs <;> cases hs
    exact h.goto hw { w with point := .access } (by simp [Producer.sent, hp, Point.accessed])
      ⟨hi, fun _ => hbusy, nofun⟩ rfl rfl rfl rfl rfl
  | access =>
    simp only [sendProc, hp] at hs
    cases hs
    exact h.put ht hw hp
  | move | adjust | unlock =>
    have hbusy : (w.i : Int) < w.updateCount := hlt (by simp [hp])
    simp only [sendProc, hp] at hs
    cases hs
    exact h.goto hw { w with point := w.point.next }
      (by simp [Producer.sent, hp, Point.next, Point.accessed])
      ⟨hi, fun _ => hbusy, by simp [hp, Point.next]⟩ (by rw [hp]; rfl) rfl rfl rfl rfl
  -- the end of a round
  | post =>
    have hbusy : (w.i : Int) < w.updateCount := hlt (by simp [hp])
    simp only [sendProc, hp] at hs
    cases hs
    refine h.goto hw { w with i := w.i + 1, point := .wait }
      (by simp [Producer.sent, hp, Point.accessed]) ⟨?_, fun hne => absurd rfl hne, nofun⟩
      rfl rfl rfl rfl rfl
    dsimp only
    omega
  | insert =>
    simp only [sendProc, hp] at hs
    cases hs

/-- The server goes on without taking anything out. -/
theorem Contents.wait (h : s.Contents)
    (hbounds : s'.consumer.i ≤ s'.consumer.rounds.toNat ∧
      (s'.consumer.point ≠ .wait → (s'.consumer.i : Int) < s'.consumer.rounds))
    (hproducers : s'.producers = s.producers) (hbuffer : s'.buffer = s.buffer)
    (hproduced : s'.produced = s.produced) (htaken : s'.taken = s.taken) : s'.Contents where
  ring := by
    rw [hbuffer, htaken, items, hproduced]
    exact h.ring
  taken := by
    rw [htaken, items, hproduced]
    exact h.taken
  once := by
    rw [hproducers]
    simp only [itemsOf, hproduced]
    exact h.once
  bounds := by
    rw [hproducers]
    exact h.bounds
  known := by
    rw [hproduced, hproducers]
    exact h.known
  rounds := hbounds

/-- **The access of the server**: it gets the oldest item. -/
theorem Contents.get (h : s.Contents) (ht : s.Tokens) (hp : s.consumer.point = .access)
    {c : Consumer} (hbounds : c.i ≤ c.rounds.toNat ∧ (c.point ≠ .wait → (c.i : Int) < c.rounds)) :
    Contents { s with taken := s.taken ++ [s.buffer s.outPos], consumer := c } := by
  have hlength : s.items.length = s.produced.length := List.length_map _
  -- its token stands for an item
  have hlt : s.taken.length < s.items.length := by
    have hfull := ht.full
    simp only [hp, Point.stands, reduceCtorEq, if_true, if_false] at hfull
    omega
  have hcell : s.outPos = s.taken.length % bufferSize := by
    rw [ht.outPos]
    simp only [hp, Point.stands, reduceCtorEq, if_false, Nat.sub_zero]
  obtain ⟨hitem, hring⟩ := h.ring.take hlt
  have htaken : s.taken ++ [s.buffer s.outPos] = s.items.take (s.taken.length + 1) := by
    rw [List.take_add_one, ← h.taken, hcell, hitem, List.getElem?_eq_getElem hlt]
    rfl
  constructor
  · simp only [List.length_append, List.length_singleton]
    exact hring
  · simp only [List.length_append, List.length_singleton]
    exact htaken
  · exact h.once
  · exact h.bounds
  · exact h.known
  · exact hbounds

theorem Contents.recv (h : s.Contents) (ht : s.Tokens) (hs : s.recvProc = some s') :
    s'.Contents := by
  obtain ⟨hi, hlt⟩ := h.rounds
  cases hp : s.consumer.point with
  | wait =>
    simp only [recvProc, hp] at hs
    split at hs <;> cases hs
    case isTrue.refl hguard => exact h.wait ⟨hi, fun _ => hguard.1⟩ rfl rfl rfl rfl
  | lock =>
    have hbusy : (s.consumer.i : Int) < s.consumer.rounds := hlt (by simp [hp])
    simp only [recvProc, hp] at hs
    split at hs <;> cases hs
    exact h.wait ⟨hi, fun _ => hbusy⟩ rfl rfl rfl rfl
  | access =>
    have hbusy : (s.consumer.i : Int) < s.consumer.rounds := hlt (by simp [hp])
    simp only [recvProc, hp] at hs
    cases hs
    exact h.get ht hp ⟨hi, fun _ => hbusy⟩
  | move | adjust | unlock | post =>
    have hbusy : (s.consumer.i : Int) < s.consumer.rounds := hlt (by simp [hp])
    simp only [recvProc, hp] at hs
    cases hs
    exact h.wait ⟨hi, fun _ => hbusy⟩ rfl rfl rfl rfl
  -- the end of a round of the server, which keeps the item in its list
  | insert =>
    have hbusy : (s.consumer.i : Int) < s.consumer.rounds := hlt (by simp [hp])
    simp only [recvProc, hp] at hs
    cases hs
    refine h.wait ⟨?_, fun hne => absurd rfl hne⟩ rfl rfl rfl rfl
    dsimp only
    omega

/-! ## Every run -/

theorem tokens_initialized (updateCounts : List Int) (rounds updateSize : Int) :
    (initialized updateCounts rounds updateSize).Tokens := by
  -- nobody stands anywhere but before `sem_wait`
  have hpoint : ∀ q : Point, q ≠ .wait →
      (initialized updateCounts rounds updateSize).standing q = 0 := by
    intro q hq
    apply List.countP_eq_zero.mpr
    intro w hw
    obtain ⟨updateCount, -, rfl⟩ := List.mem_map.mp hw
    simpa using Ne.symm hq
  have hsent : tally Producer.sent (initialized updateCounts rounds updateSize).producers = 0 := by
    apply tally_eq_zero
    intro w hw
    obtain ⟨updateCount, -, rfl⟩ := List.mem_map.mp hw
    rfl
  constructor
  case empty =>
    rw [hpoint .lock nofun, hpoint .access nofun]
    rfl
  case full =>
    rw [hpoint .move nofun, hpoint .adjust nofun, hpoint .unlock nofun, hpoint .post nofun]
    rfl
  case mutex =>
    rw [hpoint .access nofun, hpoint .move nofun, hpoint .adjust nofun, hpoint .unlock nofun]
    rfl
  case inPos =>
    rw [hpoint .move nofun]
    rfl
  case count =>
    rw [hpoint .move nofun, hpoint .adjust nofun]
    rfl
  case produced =>
    rw [hsent]
    rfl
  case outPos | rounds | list => rfl

theorem contents_initialized (updateCounts : List Int) (rounds updateSize : Int) :
    (initialized updateCounts rounds updateSize).Contents where
  ring := keeps_nil _ _
  taken := rfl
  once k w hw := by
    rw [initialized, List.getElem?_map] at hw
    obtain ⟨updateCount, -, rfl⟩ := Option.map_eq_some_iff.mp hw
    rfl
  bounds w hw := by
    obtain ⟨updateCount, -, rfl⟩ := List.mem_map.mp hw
    exact ⟨Nat.zero_le _, fun hne => absurd rfl hne, nofun⟩
  known e he := by cases he
  rounds := ⟨Nat.zero_le _, fun hne => absurd rfl hne⟩

theorem invariant_of_reachable (h : sharedIpc.Reachable s) : s.Tokens ∧ s.Contents := by
  refine System.Reachable.invariant (P := fun s => s.Tokens ∧ s.Contents) ?_ ?_ h
  · rintro s ⟨updateCounts, rounds, updateSize, rfl⟩
    exact ⟨tokens_initialized _ _ _, contents_initialized _ _ _⟩
  · rintro s turn s' ⟨ht, hc⟩ hs
    cases turn with
    | producer k =>
      obtain ⟨w, hw, hs⟩ := Option.bind_eq_some_iff.mp hs
      exact ⟨ht.send hw hs, hc.send ht hw hs⟩
    | consumer => exact ⟨ht.recv hs, hc.recv ht hs⟩

/-! ## What the invariant says -/

theorem length_items (s : SharedStuff) : s.items.length = s.produced.length := List.length_map _

/-- With the mutex free nobody stands in a critical section. -/
theorem Tokens.free (h : s.Tokens) (hfree : 0 < s.semMutex) :
    0 ≤ s.count ∧ s.count ≤ bufferSize ∧ (s.inPos : Int) = (s.outPos + s.count) % bufferSize := by
  obtain ⟨hempty, hfull, hmutex, hin, hout, hcount, -, -, -⟩ := h
  unfold bufferSize at *
  have hmove : s.standing .move = 0 := by omega
  have hmoving : Point.stands .move s.consumer.point = 0 := by omega
  rw [hmove] at hin
  rw [hmoving] at hout
  omega

theorem correct_of_invariant (ht : s.Tokens) (hc : s.Contents) : s.Correct where
  free hfree := ht.free hfree
  inside := by
    rw [ht.inPos, ht.outPos]
    exact ⟨Nat.mod_lt _ (by decide), Nat.mod_lt _ (by decide)⟩
  kept k item hk hitem := by
    obtain ⟨hlt, rfl⟩ := List.getElem?_eq_some_iff.mp hitem
    exact hc.ring.cells k hlt hk
  apart w hw hp k hk hlt := by
    -- a producer before its access has a token for a free cell
    have hstanding : 0 < s.standing .access :=
      List.countP_pos_iff.mpr ⟨w, hw, decide_eq_true hp⟩
    have hempty := ht.empty
    have hmove : s.standing .move = 0 := by
      have := ht.mutex
      omega
    rw [ht.inPos, hmove, Nat.sub_zero]
    exact cell_ne hlt (by omega)
  taken := by
    rw [hc.taken]
    exact List.take_prefix _ _
  once k w hw := by
    refine ⟨w.sent, hc.once k w hw, ?_⟩
    obtain ⟨hi, hlt, -⟩ := hc.bounds w (List.mem_of_getElem? hw)
    unfold Producer.sent
    cases hp : w.point <;> simp [Point.accessed, hp] at hlt ⊢ <;> omega
  known := hc.known

/-! ## Processes that cannot go on -/

/-- A producer that cannot go on waits for a semaphore, or has left its loop. -/
theorem sendProc_eq_none (h : s.sendProc k w = none) (hp : w.point ≠ .insert) :
    w.point = .wait ∧ (w.updateCount ≤ w.i ∨ s.semEmpty = 0) ∨
      w.point = .lock ∧ s.semMutex = 0 := by
  cases hpoint : w.point <;> simp [sendProc, hpoint] at h
  case wait =>
    refine .inl ⟨rfl, ?_⟩
    omega
  case lock => exact .inr ⟨rfl, h⟩
  case insert => exact absurd hpoint hp

theorem recvProc_eq_none (h : s.recvProc = none) :
    s.consumer.point = .wait ∧ (s.consumer.rounds ≤ s.consumer.i ∨ s.semFull = 0) ∨
      s.consumer.point = .lock ∧ s.semMutex = 0 := by
  cases hpoint : s.consumer.point <;> simp [recvProc, hpoint] at h
  case wait =>
    refine .inl ⟨rfl, ?_⟩
    omega
  case lock => exact .inr ⟨rfl, h⟩

/-- Where nobody can go on, nobody has a token. -/
theorem waiting_of_stuck (ht : s.Tokens) (hc : s.Contents) (hstuck : s.Stuck) :
    (∀ w ∈ s.producers, w.point = .wait ∧ (w.updateCount ≤ w.i ∨ s.semEmpty = 0)) ∧
      s.consumer.point = .wait ∧ (s.consumer.rounds ≤ s.consumer.i ∨ s.semFull = 0) := by
  have hproducers : ∀ w ∈ s.producers,
      w.point = .wait ∧ (w.updateCount ≤ w.i ∨ s.semEmpty = 0) ∨
        w.point = .lock ∧ s.semMutex = 0 := by
    intro w hw
    obtain ⟨k, hk⟩ := List.mem_iff_getElem?.mp hw
    have hnone : (s.producers[k]?).bind (s.sendProc k) = none := hstuck (.producer k)
    rw [hk] at hnone
    exact sendProc_eq_none hnone (hc.bounds w hw).2.2
  have hconsumer := recvProc_eq_none (hstuck .consumer)
  -- nobody is past `sem_wait` on the mutex, so it is free
  have hnobody : ∀ q : Point, q ≠ .wait → q ≠ .lock → s.standing q = 0 := by
    intro q hwait hlock
    apply List.countP_eq_zero.mpr
    intro w hw
    rcases hproducers w hw with ⟨hp, -⟩ | ⟨hp, -⟩
    · simpa [hp] using Ne.symm hwait
    · simpa [hp] using Ne.symm hlock
  have hmutex : s.semMutex = 1 := by
    have hsum := ht.mutex
    rw [hnobody .access nofun nofun, hnobody .move nofun nofun, hnobody .adjust nofun nofun,
      hnobody .unlock nofun nofun] at hsum
    rcases hconsumer with ⟨hp, -⟩ | ⟨hp, -⟩ <;> simpa [hp, Point.stands] using hsum
  constructor
  · intro w hw
    rcases hproducers w hw with hwait | ⟨-, hzero⟩
    · exact hwait
    · omega
  · rcases hconsumer with hwait | ⟨-, hzero⟩
    · exact hwait
    · omega

/-- **Nothing is left behind**: when no process can go on and the server was to make as many
    rounds as there are items, all items have been put in and taken out. -/
theorem complete_of_stuck (ht : s.Tokens) (hc : s.Contents) (hstuck : s.Stuck)
    (hrounds : s.consumer.rounds = s.total) : s.Complete := by
  obtain ⟨hproducers, hpoint, hserver⟩ := waiting_of_stuck ht hc hstuck
  have hsent : s.produced.length = tally Producer.i s.producers := by
    rw [ht.produced]
    apply tally_congr
    intro w hw
    rw [Producer.sent, (hproducers w hw).1]
    rfl
  have hle : ∀ w ∈ s.producers, w.i ≤ w.updateCount.toNat := fun w hw => (hc.bounds w hw).1
  have htaken : s.taken.length = s.consumer.i := by
    have := ht.rounds
    rwa [hpoint] at this
  have hnobody : ∀ q : Point, q ≠ .wait → s.standing q = 0 := by
    intro q hwait
    apply List.countP_eq_zero.mpr
    intro w hw
    simpa [(hproducers w hw).1] using Ne.symm hwait
  have hfull : s.semFull + s.taken.length = s.produced.length := by
    have hsum := ht.full
    rw [hnobody .move nofun, hnobody .adjust nofun, hnobody .unlock nofun,
      hnobody .post nofun, hpoint] at hsum
    simpa [Point.stands] using hsum
  have hempty : s.semEmpty + s.produced.length = bufferSize + s.taken.length := by
    have hsum := ht.empty
    rw [hnobody .lock nofun, hnobody .access nofun, hpoint] at hsum
    simpa [Point.stands] using hsum
  have htotal : s.total ≤ tally Producer.i s.producers := by
    rcases hserver with hdone | hnone
    · -- the server has left its loop
      omega
    · -- the buffer is empty, so the producers have left theirs
      unfold bufferSize at hempty
      apply tally_le
      intro w hw
      have := (hproducers w hw).2
      omega
  -- so every producer has made all its rounds
  have hall := eq_of_tally_le hle htotal
  have hsame : s.total = s.produced.length := by
    rw [hsent]
    exact (tally_congr hall).symm
  have hi := hc.rounds.1
  have hlength : s.taken.length = s.produced.length := by
    rcases hserver with hdone | hnone <;> omega
  constructor
  · rw [hc.taken, List.take_of_length_le]
    rw [length_items, hlength]
  · intro k w hw
    have hmem := List.mem_of_getElem? hw
    rw [hc.once k w hw, Producer.sent, (hproducers w hmem).1, hall w hmem]
    rfl
  · rw [ht.list, ← htaken, hlength, hsame]

/-- **The buffer loses and duplicates nothing**, in any interleaving of the server with any
    number of clients; and when no process can go on, everything has passed through it, where
    the server was to make as many rounds as there are items. -/
theorem buffer_correct (h : sharedIpc.Reachable s) :
    s.Correct ∧ (s.Stuck → s.consumer.rounds = s.total → s.Complete) := by
  obtain ⟨ht, hc⟩ := invariant_of_reachable h
  exact ⟨correct_of_invariant ht hc, complete_of_stuck ht hc⟩

/-- Two clients whose first statements alternate, and the server. -/
def twoClients : List Turn :=
  [.producer 0, .producer 1] ++ List.replicate 6 (.producer 1) ++ List.replicate 6 (.producer 0) ++
    List.replicate 16 .consumer

/-- The second client gets the mutex first; both items are taken. -/
theorem buffer_correct_two :
    ∃ s, sharedIpc.runFrom (initialized [1, 1] 2 8) twoClients = some s ∧
      s.produced = [(1, 0), (0, 0)] ∧ s.taken = [0, 0] ∧
      (s.Correct ∧ (s.Stuck → s.consumer.rounds = s.total → s.Complete)) := by
  have hrun : (sharedIpc.runFrom (initialized [1, 1] 2 8) twoClients).map
      (fun s => (s.produced, s.taken)) = some ([(1, 0), (0, 0)], [0, 0]) := by decide +kernel
  obtain ⟨s, hs, hhistory⟩ := Option.map_eq_some_iff.mp hrun
  obtain ⟨hproduced, htaken⟩ := Prod.mk.inj hhistory
  exact ⟨s, hs, hproduced, htaken,
    buffer_correct (System.Reachable.runFrom (.init ⟨_, _, _, rfl⟩) _ hs)⟩

end SharedStuff
end TaskSystem.SharedIpc
