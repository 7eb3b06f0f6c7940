import Muduo.ConnectorCall

/-!
# A connector that is started once

A `ConnectorLoop` in which `start` is called once, on any thread, `stop` any number of times, and
`restart` at most once for each delivered connection.

Once the first `startInLoop` has run, there is always at most one of

    an attempt in progress,   a timer of `retry`,   a delivered connection not restarted,

and exactly one unless `stop` has been called or a `::connect` has failed for good.  Once a
`stopInLoop` has run, nothing is created or delivered any more   (never_stuck_never_doubled).

* `Undisturbed`: the condition.  `resetChannel` deletes whatever `channel_` holds; when a new attempt
  has begun since it was queued, the channel of that attempt goes, and nothing is left that could end
  it (`restart_in_callback_is_stuck`).
* `StartsFirst`: a `start` after a `stop` sets `connect_` again, and a `stopInLoop` of that `stop` ends
  nothing.
* The load: how many of the three there are.  Before `startInLoop` runs it is 0 (`Bounded`).
-/

namespace Muduo

open Transition

/-- Where the `startInLoop` of `start` is. -/
inductive StartPhase (T : Type*)
  | notStarted
  /-- the thread is in `start`, before the push -/
  | calling (t : T)
  | queued
  | done
deriving DecidableEq

structure OnceStarted (T : Type*) where
  base : ConnectorLoop T
  phase : StartPhase T
  /-- the delivered connections for which `restart` has not been called -/
  delivered : Nat
  /-- history: how often `newConnectionCallback_` has been called -/
  deliveries : Nat
  /-- `stop` has been called -/
  stopped : Bool
  /-- a `stopInLoop` has run -/
  stopRan : Bool
  /-- a `::connect` has failed for good -/
  failed : Bool

namespace OnceStarted

variable {T : Type*}

/-- A new connector on a loop. -/
def start (loop : EventLoop T (Option ConnectorFunctor)) (poller : EPollPoller) : OnceStarted T where
  base := ConnectorLoop.start loop poller
  phase := .notStarted
  delivered := 0
  deliveries := 0
  stopped := false
  stopRan := false
  failed := false

def isStart : ConnectorAction T → Bool
  | .start _ | .storeStart _ => true
  | _ => false

def isStop : ConnectorAction T → Bool
  | .stop | .storeStop _ => true
  | _ => false

def restarts : ConnectorAction T → Nat
  | .restart _ => 1
  | _ => 0

/-- The loop calls `f`. -/
def runs (s : OnceStarted T) (f : ConnectorFunctor) : ConnectorAction T → Bool
  | .callFunctor _ => s.base.loop.functors.head? == some (some f)
  | _ => false

variable [DecidableEq T]

/-- How `start` and `restart` are used. -/
def allows (s : OnceStarted T) (a : ConnectorAction T) : Bool :=
  (!isStart a || s.phase == .notStarted) && decide (restarts a ≤ s.delivered)

def phaseAfter (s : OnceStarted T) : ConnectorAction T → StartPhase T
  | .start _ => .done
  | .storeStart t => .calling t
  | .push t => if s.phase = .calling t then .queued else s.phase
  | .callFunctor r => if s.runs .startInLoop (.callFunctor r) then .done else s.phase
  | _ => s.phase

def step (s : OnceStarted T) (a : ConnectorAction T) : Option (OnceStarted T) :=
  if s.allows a then
    (s.base.step a).map fun base =>
      { base
        phase := s.phaseAfter a
        delivered := s.delivered - restarts a + (s.base.effects a).countP ConnectorEffect.isNewConnection
        deliveries := s.deliveries + (s.base.effects a).countP ConnectorEffect.isNewConnection
        stopped := s.stopped || isStop a
        stopRan := s.stopRan || s.runs .stopInLoop a
        failed := s.failed || (s.base.attempt a).any fun r => r.outcome == .close }
  else none

/-! ## The property and the condition -/

/-- An attempt is in flight. -/
def InFlight (s : OnceStarted T) : Prop :=
  s.base.conn.state = .kConnecting ∧ ∃ fd, s.base.conn.Registered fd

/-- Once the first `startInLoop` has run: at most one, and exactly one as long as nothing stops it. -/
structure Exclusive (s : OnceStarted T) : Prop where
  atMostOne : s.phase = .done → s.base.timers + s.delivered ≤ 1 ∧
    (s.InFlight → s.base.timers + s.delivered = 0)
  atLeastOne : s.phase = .done → s.stopped = false → s.failed = false →
    s.InFlight ∨ s.base.timers = 1 ∨ s.delivered = 1

/-- No `resetChannel` runs while an attempt is in progress. -/
def Undisturbed (s : OnceStarted T) (a : ConnectorAction T) : Prop :=
  ¬ (s.runs .resetChannel a = true ∧ s.base.conn.state = .kConnecting)

instance (s : OnceStarted T) (a : ConnectorAction T) : Decidable (s.Undisturbed a) :=
  inferInstanceAs (Decidable (¬ _))

/-- No `start` comes after a `stop`. -/
def StartsFirst (s : OnceStarted T) (a : ConnectorAction T) : Prop :=
  isStart a = true → s.stopped = false

instance (s : OnceStarted T) (a : ConnectorAction T) : Decidable (s.StartsFirst a) :=
  inferInstanceAs (Decidable (_ → _))

/-! ## The invariant -/

def load (s : OnceStarted T) : Nat := s.base.conn.flight + s.base.timers + s.delivered

structure Bounded (s : OnceStarted T) : Prop where
  consistent : s.base.loop.Consistent
  accounted : Accounted s.base.conn s.base.sockets
  queued : s.base.loop.queue.count (some .startInLoop) = if s.phase = .queued then 1 else 0
  calling : ∀ t, s.base.calls t = some .startInLoop ↔ s.phase = .calling t
  stops : some .stopInLoop ∈ s.base.loop.queue ∨ (∃ t, s.base.calls t = some .stopInLoop) →
    s.stopped = true
  stopRan : s.stopRan = true → s.stopped = true
  on : s.phase ≠ .notStarted → s.stopped = false → s.base.conn.connect_ = true
  before : s.phase ≠ .done → s.load = 0
  le : s.load ≤ 1
  eq : s.phase = .done → s.stopped = false → s.failed = false → s.load = 1

theorem bounded_start {loop : EventLoop T (Option ConnectorFunctor)} (hc : loop.Consistent)
    (hnone : ∀ f ∈ loop.queue, f = none) (poller : EPollPoller) : Bounded (start loop poller) := by
  constructor
  · exact hc
  · exact Or.inr ⟨Connector.idle_new poller, Ledger.balanced_empty⟩
  · show loop.queue.count (some .startInLoop) = 0
    rw [List.count_eq_zero]
    intro hmem
    cases hnone _ hmem
  · intro t
    constructor <;> intro h <;> cases h
  · rintro (hmem | ⟨t, ht⟩)
    · cases hnone _ hmem
    · cases ht
  · intro h
    cases h
  · intro h
    exact absurd rfl h
  · exact fun _ => rfl
  · exact Nat.zero_le 1
  · intro h
    cases h

/-! ## Steps -/

/-- Everything a step does. -/
structure Moves (s : OnceStarted T) (a : ConnectorAction T) (es : List ConnectorEffect)
    (s' : OnceStarted T) : Prop where
  allows : s.allows a = true
  steps : s.base.Steps a es s'.base
  base : s.base.step a = some s'.base
  phase : s'.phase = s.phaseAfter a
  delivered : s'.delivered = s.delivered - restarts a + es.countP ConnectorEffect.isNewConnection
  deliveries : s'.deliveries = s.deliveries + es.countP ConnectorEffect.isNewConnection
  stopped : s'.stopped = (s.stopped || isStop a)
  stopRan : s'.stopRan = (s.stopRan || s.runs .stopInLoop a)
  failed : s'.failed = (s.failed || (s.base.attempt a).any fun r => r.outcome == .close)

variable {s s' : OnceStarted T} {a : ConnectorAction T} {es : List ConnectorEffect} {r : Attempt}

theorem moves_of_step (hc : s.base.loop.Consistent) (h : s.step a = some s') :
    ∃ es, Moves s a es s' := by
  simp only [step, Option.ite_none_right_eq_some, Option.map_eq_some_iff] at h
  obtain ⟨hallows, base, hbase, rfl⟩ := h
  obtain ⟨es, hsteps⟩ := ConnectorLoop.step_result hc hbase
  rw [hsteps.effects]
  exact ⟨es, hallows, hsteps, hbase, rfl, rfl, rfl, rfl, rfl, rfl⟩

theorem functors_ne_nil {base base' : ConnectorLoop T}
    (h : base.step (.callFunctor r) = some base') : base.loop.functors ≠ [] := by
  intro hnil
  simp [ConnectorLoop.step, hnil] at h

omit [DecidableEq T] in
/-- The functor that the loop calls is the first in its queue. -/
theorem queue_of_runs {f : ConnectorFunctor} (h : s.runs f a = true) :
    s.base.loop.queue = some f :: s.base.loop.queue.drop 1 := by
  unfold runs at h
  split at h
  · rw [beq_iff_eq, List.head?_eq_some_iff] at h
    obtain ⟨fs, hfs⟩ := h
    simp [EventLoop.queue, hfs]
  · cases h

namespace Moves

/-- What the step takes away of the load, and what the call adds. -/
theorem load (h : Moves s a es s') : s'.load + ConnectorLoop.expires a + restarts a =
    s'.base.conn.flight + ConnectorEffect.weight es + s.base.timers + s.delivered := by
  have hallows := h.allows
  simp only [OnceStarted.allows, Bool.and_eq_true, decide_eq_true_eq] at hallows
  have htimers := h.steps.timers
  have hdelivered := h.delivered
  unfold OnceStarted.load ConnectorEffect.weight
  omega

theorem phase_of_runs (hs : Bounded s) (hruns : s.runs .startInLoop a = true) : s.phase = .queued := by
  have hcount := hs.queued
  rw [queue_of_runs hruns, List.count_cons_self] at hcount
  by_contra hne
  rw [if_neg hne] at hcount
  omega

/-- `connect` is called only when the load allows it. -/
theorem attempt (h : Moves s a es s') (hs : Bounded s) (ha : s.base.attempt a = some r) :
    s.base.conn.state ≠ .kConnecting ∧ s.base.timers = ConnectorLoop.expires a ∧
      s.delivered = restarts a := by
  have hallows := h.allows
  simp only [OnceStarted.allows, Bool.and_eq_true, decide_eq_true_eq] at hallows
  obtain ⟨hstart, hrestart⟩ := hallows
  have hexpires := h.steps.expires
  have hle := hs.le
  have hidle : s.base.conn.flight = 0 → s.base.conn.state ≠ .kConnecting := by
    intro hflight hstate
    rw [Connector.flight_of_connecting hstate] at hflight
    cases hflight
  cases a with
  | start r' =>
    simp only [isStart, Bool.not_true, Bool.false_or, beq_iff_eq] at hstart
    have hzero := hs.before (by simp [hstart])
    unfold OnceStarted.load at hzero
    exact ⟨hidle (by omega), by show _ = 0; omega, by show _ = 0; omega⟩
  | restart r' =>
    unfold OnceStarted.load at hle
    simp only [restarts] at hrestart
    exact ⟨hidle (by omega), by show _ = 0; omega, by show _ = 1; omega⟩
  | timer r' =>
    unfold OnceStarted.load at hle
    simp only [ConnectorLoop.expires] at hexpires
    exact ⟨hidle (by omega), by show _ = 1; omega, by show _ = 0; omega⟩
  | callFunctor r' =>
    have hruns : s.runs .startInLoop (.callFunctor r') = true := by
      simp only [ConnectorLoop.attempt, Option.ite_none_right_eq_some] at ha
      simp [runs, ha.1.1]
    have hphase := phase_of_runs hs hruns
    have hzero := hs.before (by simp [hphase])
    unfold OnceStarted.load at hzero
    exact ⟨hidle (by omega), by show _ = 0; omega, by show _ = 0; omega⟩
  | loop | stop | handleWriter | handleError | storeStart | storeStop | push | otherChannels => cases ha

/-- What a step that calls `connect` leaves. -/
theorem leaves_of_attempt (h : Moves s a es s') (hs : Bounded s) (ha : s.base.attempt a = some r) :
    Connector.Leaves { s.base.conn with connect_ := true } s'.base.conn es
      (if r.outcome = .close then 0 else 1) 1 :=
  Connector.leaves_connect (h.attempt hs ha).1 (h.steps.connect ha)

/-- `connect_` after the step. -/
theorem connect_ (h : Moves s a es s') (hs : Bounded s) :
    s'.base.conn.connect_ = (isStart a || (!isStop a && s.base.conn.connect_)) := by
  cases ha : s.base.attempt a with
  | some r =>
    rw [(h.leaves_of_attempt hs ha).connect_]
    cases a with
    | start r' => rfl
    | restart r' | timer r' =>
      simp only [ConnectorLoop.attempt, Option.ite_none_right_eq_some] at ha
      rw [ha.1]
      rfl
    | callFunctor r' =>
      simp only [ConnectorLoop.attempt, Option.ite_none_right_eq_some] at ha
      rw [ha.1.2]
      rfl
    | loop | stop | handleWriter | handleError | storeStart | storeStop | push | otherChannels =>
      cases ha
  | none =>
    cases hset : ConnectorLoop.setsConnect a with
    | false =>
      rw [(h.steps.leaves ha hset).connect_]
      cases a with
      | start r' => cases ha
      | stop | storeStart | storeStop => cases hset
      | loop | callFunctor | restart | timer | handleWriter | handleError | push
      | otherChannels => rfl
    | true =>
      have hresult := h.steps.result
      cases a with
      | stop | storeStart | storeStop =>
        simp only [ConnectorLoop.result, Connector.stop, Option.some.injEq, Prod.mk.injEq] at hresult
        rw [← hresult.1]
        rfl
      | loop | callFunctor | start | restart | timer | handleWriter | handleError | push
      | otherChannels => cases hset

/-- The functors that the call queues. -/
theorem functors (h : Moves s a es s') (hs : Bounded s) :
    ∀ f ∈ es.filterMap ConnectorEffect.functor, f = .resetChannel ∨ f = .stopInLoop ∧ a = .stop := by
  intro f hf
  cases ha : s.base.attempt a with
  | some r => exact Or.inl ((h.leaves_of_attempt hs ha).functors f hf)
  | none =>
    cases hset : ConnectorLoop.setsConnect a with
    | false => exact Or.inl ((h.steps.leaves ha hset).functors f hf)
    | true => exact Or.inr ((h.steps.sets hset).2.2.2 f hf)

/-- A step that does not call `connect` does not add to the load, and keeps it while `connect_` is set. -/
theorem load_of_not_attempt (h : Moves s a es s') (ha : s.base.attempt a = none) :
    s'.load ≤ s.load ∧ (s.base.conn.connect_ = true → s'.load = s.load) := by
  have hload := h.load
  unfold OnceStarted.load at hload ⊢
  cases hset : ConnectorLoop.setsConnect a with
  | false =>
    obtain ⟨hle, heq, -, -, -, -⟩ := h.steps.leaves ha hset
    refine ⟨by omega, fun hconnect => ?_⟩
    have hflight := heq hconnect
    have hnone : ConnectorLoop.expires a = 0 ∧ restarts a = 0 := by
      cases a with
      | start r' => cases ha
      | restart r' => simp [ConnectorLoop.attempt, hconnect] at ha
      | timer r' => simp [ConnectorLoop.attempt, hconnect] at ha
      | _ => exact ⟨rfl, rfl⟩
    omega
  | true =>
    obtain ⟨hstate, hweight, -, -⟩ := h.steps.sets hset
    have hflight : s'.base.conn.flight = s.base.conn.flight := by
      unfold Connector.flight
      rw [hstate]
    have hnone : ConnectorLoop.expires a = 0 ∧ restarts a = 0 := by
      cases a with
      | stop | storeStart | storeStop => exact ⟨rfl, rfl⟩
      | _ => cases hset
    constructor <;> omega

/-- A step that calls `connect` ends with a load of 1, unless `::connect` fails for good. -/
theorem load_of_attempt (h : Moves s a es s') (hs : Bounded s) (ha : s.base.attempt a = some r) :
    s'.load ≤ 1 ∧ (r.outcome ≠ .close → s'.load = 1) := by
  have hload := h.load
  obtain ⟨-, htimers, hdelivered⟩ := h.attempt hs ha
  obtain ⟨hle, heq, -, -, -, -⟩ := h.leaves_of_attempt hs ha
  have heq := heq rfl
  split at heq
  · next hclose => exact ⟨by omega, fun hne => absurd hclose hne⟩
  · exact ⟨by omega, fun _ => by omega⟩

/-- How the `startInLoop` of `start` moves. -/
theorem phase_eq_done (h : Moves s a es s') :
    s'.phase = .done ↔
      s.phase = .done ∨ (∃ r, a = .start r) ∨ s.runs .startInLoop a = true := by
  have hallows := h.allows
  simp only [OnceStarted.allows, Bool.and_eq_true] at hallows
  rw [h.phase]
  cases a with
  | start r => simp [phaseAfter]
  | storeStart t =>
    have hnot : s.phase = .notStarted := by simpa [isStart] using hallows.1
    simp [phaseAfter, runs, hnot]
  | push t =>
    by_cases hphase : s.phase = .calling t
    · simp [phaseAfter, runs, hphase]
    · simp [phaseAfter, runs, hphase]
  | callFunctor r =>
    by_cases hruns : s.runs .startInLoop (.callFunctor r) = true
    · simp [phaseAfter, hruns]
    · simp [phaseAfter, hruns]
  | loop | stop | restart | timer | handleWriter | handleError | storeStop | otherChannels =>
    simp [phaseAfter, runs]

/-- The `startInLoop`s in the queue. -/
theorem count_queue (h : Moves s a es s') (hs : Bounded s) :
    s'.base.loop.queue.count (some .startInLoop) + (if s.runs .startInLoop a then 1 else 0) =
      s.base.loop.queue.count (some .startInLoop) + (s.base.pushes a).count (some .startInLoop) := by
  have hes : ((es.filterMap ConnectorEffect.functor).map some).count (some .startInLoop) = 0 := by
    rw [List.count_eq_zero]
    intro hmem
    obtain ⟨f, hf, heq⟩ := List.mem_map.mp hmem
    rcases h.functors hs f hf with rfl | ⟨rfl, -⟩ <;> cases heq
  have hdrop : (s.base.loop.queue.drop (ConnectorLoop.takes a)).count (some .startInLoop) +
      (if s.runs .startInLoop a then 1 else 0) = s.base.loop.queue.count (some .startInLoop) := by
    by_cases hruns : s.runs .startInLoop a = true
    · have htakes : ConnectorLoop.takes a = 1 := by
        unfold runs at hruns
        split at hruns
        · rfl
        · cases hruns
      rw [if_pos hruns, htakes]
      conv_rhs => rw [queue_of_runs hruns]
      rw [List.count_cons_self]
    · rw [if_neg hruns]
      cases a with
      | callFunctor r =>
        obtain ⟨f, fs, hfs⟩ := List.exists_cons_of_ne_nil (functors_ne_nil h.base)
        have hne : f ≠ some .startInLoop := by
          rintro rfl
          apply hruns
          simp [runs, hfs]
        simp [ConnectorLoop.takes, EventLoop.queue, hfs, hne]
      | _ => rfl
  rw [h.steps.queue, List.count_append, List.count_append, hes]
  omega

/-- A `start` comes only before the others. -/
theorem phase_of_isStart (h : Moves s a es s') (ha : isStart a = true) : s.phase = .notStarted := by
  have hallows := h.allows
  simp only [OnceStarted.allows, ha, Bool.not_true, Bool.false_or, Bool.and_eq_true,
    beq_iff_eq] at hallows
  exact hallows.1

/-- Only `start` leaves `notStarted`. -/
theorem phase_of_notStarted (h : Moves s a es s') (hs : Bounded s) (ha : isStart a = false)
    (hphase : s.phase = .notStarted) : s'.phase = .notStarted := by
  rw [h.phase]
  cases a with
  | start | storeStart => cases ha
  | push t => simp [phaseAfter, hphase]
  | callFunctor r =>
    have hruns : s.runs .startInLoop (.callFunctor r) = false := by
      by_contra hruns
      have := phase_of_runs hs (by simpa using hruns)
      rw [hphase] at this
      cases this
    simp [phaseAfter, hphase, hruns]
  | loop | stop | restart | timer | handleWriter | handleError | storeStop | otherChannels =>
    exact hphase

theorem queued (h : Moves s a es s') (hs : Bounded s) :
    s'.base.loop.queue.count (some .startInLoop) = if s'.phase = .queued then 1 else 0 := by
  have hcount := h.count_queue hs
  rw [hs.queued] at hcount
  rw [h.phase]
  have hsame : s.phaseAfter a = s.phase → s.runs .startInLoop a = false →
      (s.base.pushes a).count (some .startInLoop) = 0 →
      s'.base.loop.queue.count (some .startInLoop) = if s.phaseAfter a = .queued then 1 else 0 := by
    intro hphase hruns hpushes
    rw [hruns, hpushes] at hcount
    rw [hphase]
    exact hcount
  cases a with
  | start r =>
    rw [h.phase_of_isStart rfl] at hcount
    exact hcount
  | storeStart t =>
    rw [h.phase_of_isStart rfl] at hcount
    exact hcount
  | push t =>
    by_cases hcall : s.base.calls t = some .startInLoop
    · have hphase := (hs.calling t).mp hcall
      rw [hphase] at hcount
      simp only [runs, ConnectorLoop.pushes, hcall, phaseAfter, hphase] at hcount ⊢
      simpa using hcount
    · have hphase : s.phase ≠ .calling t := fun hphase => hcall ((hs.calling t).mpr hphase)
      refine hsame (if_neg hphase) rfl ?_
      rw [List.count_eq_zero]
      intro hmem
      obtain ⟨t', ht', hcall'⟩ := ConnectorLoop.some_mem_pushes.mp hmem
      cases ht'
      exact hcall hcall'
  | callFunctor r =>
    by_cases hruns : s.runs .startInLoop (.callFunctor r) = true
    · have hphase := phase_of_runs hs hruns
      rw [if_pos hruns, hphase] at hcount
      simp only [phaseAfter, hruns, if_true, reduceCtorEq, if_false]
      simpa [ConnectorLoop.pushes] using hcount
    · exact hsame (if_neg hruns) (by simpa using hruns) rfl
  | loop a =>
    refine hsame rfl rfl ?_
    rw [List.count_eq_zero]
    intro hmem
    obtain ⟨t, ht, -⟩ := ConnectorLoop.some_mem_pushes.mp hmem
    cases ht
  | stop | restart | timer | handleWriter | handleError | storeStop | otherChannels =>
    exact hsame rfl rfl rfl

theorem calling (h : Moves s a es s') (hs : Bounded s) (t : T) :
    s'.base.calls t = some .startInLoop ↔ s'.phase = .calling t := by
  have hcalling := hs.calling t
  rw [h.steps.calls, h.phase]
  cases a with
  | start r =>
    rw [h.phase_of_isStart rfl] at hcalling
    simpa [ConnectorLoop.callsAfter, phaseAfter] using hcalling
  | storeStart t' =>
    rw [h.phase_of_isStart rfl] at hcalling
    by_cases ht : t = t'
    · simp [ConnectorLoop.callsAfter, phaseAfter, ht]
    · have ht' : ¬ t' = t := fun heq => ht heq.symm
      simpa [ConnectorLoop.callsAfter, phaseAfter, ht, ht'] using hcalling
  | storeStop t' =>
    have hbase := h.base
    simp only [ConnectorLoop.step, Option.ite_none_right_eq_some] at hbase
    by_cases ht : t = t'
    · subst ht
      rw [hbase.1.1] at hcalling
      simpa [ConnectorLoop.callsAfter, phaseAfter] using hcalling
    · simpa [ConnectorLoop.callsAfter, phaseAfter, ht] using hcalling
  | push t' =>
    by_cases ht : t = t'
    · subst ht
      simp only [ConnectorLoop.callsAfter, Function.update_self, phaseAfter, reduceCtorEq, false_iff]
      split
      · intro hqueued
        cases hqueued
      · assumption
    · simp only [ConnectorLoop.callsAfter, Function.update_of_ne ht, hcalling, phaseAfter]
      split
      · next hphase =>
        rw [hphase]
        simp [Ne.symm ht]
      · rfl
  | callFunctor r =>
    by_cases hruns : s.runs .startInLoop (.callFunctor r) = true
    · rw [phase_of_runs hs hruns] at hcalling
      simpa [ConnectorLoop.callsAfter, phaseAfter, hruns] using hcalling
    · simpa [ConnectorLoop.callsAfter, phaseAfter, hruns] using hcalling
  | loop | stop | restart | timer | handleWriter | handleError | otherChannels => exact hcalling

/-- A `stopInLoop` comes from a `stop`. -/
theorem stops (h : Moves s a es s') (hs : Bounded s)
    (hstop : some .stopInLoop ∈ s'.base.loop.queue ∨ ∃ t, s'.base.calls t = some .stopInLoop) :
    s'.stopped = true := by
  rw [h.stopped, Bool.or_eq_true]
  rcases hstop with hmem | ⟨t, ht⟩
  · rw [h.steps.queue, List.mem_append, List.mem_append] at hmem
    rcases hmem with (hmem | hmem) | hmem
    · exact Or.inl (hs.stops (Or.inl (List.mem_of_mem_drop hmem)))
    · obtain ⟨t, -, ht⟩ := ConnectorLoop.some_mem_pushes.mp hmem
      exact Or.inl (hs.stops (Or.inr ⟨t, ht⟩))
    · obtain ⟨f, hf, heq⟩ := List.mem_map.mp hmem
      cases heq
      rcases h.functors hs _ hf with heq | ⟨-, rfl⟩
      · cases heq
      · exact Or.inr rfl
  · rw [h.steps.calls] at ht
    have hold : s.base.calls t = some .stopInLoop → s.stopped = true :=
      fun hcall => hs.stops (Or.inr ⟨t, hcall⟩)
    cases a with
    | storeStop t' => exact Or.inr rfl
    | storeStart t' =>
      by_cases heq : t = t'
      · simp [ConnectorLoop.callsAfter, heq] at ht
      · exact Or.inl (hold (by simpa [ConnectorLoop.callsAfter, heq] using ht))
    | push t' =>
      by_cases heq : t = t'
      · simp [ConnectorLoop.callsAfter, heq] at ht
      · exact Or.inl (hold (by simpa [ConnectorLoop.callsAfter, heq] using ht))
    | loop | callFunctor | start | stop | restart | timer | handleWriter | handleError
    | otherChannels => exact Or.inl (hold ht)

theorem not_overlaps (h : Moves s a es s') (hs : Bounded s) (hg : s.Undisturbed a) :
    ¬ s.base.Overlaps a := by
  rintro ⟨hstate, ⟨r, ha, -⟩ | hresets⟩
  · exact (h.attempt hs ha).1 hstate
  · apply hg
    cases a with
    | callFunctor r => exact ⟨by simpa [runs, ConnectorLoop.resets] using hresets, hstate⟩
    | _ => cases hresets

theorem stopped_eq_false (h : Moves s a es s') (hnot : s'.stopped = false) :
    s.stopped = false ∧ isStop a = false := by
  rw [h.stopped, Bool.or_eq_false_iff] at hnot
  exact hnot

/-- `start` sets `connect_`, and only `stop` clears it. -/
theorem on (h : Moves s a es s') (hs : Bounded s) (hstarted : s'.phase ≠ .notStarted)
    (hnot : s'.stopped = false) : s'.base.conn.connect_ = true := by
  obtain ⟨hnot, hstop⟩ := h.stopped_eq_false hnot
  rw [h.connect_ hs, hstop]
  by_cases hstart : isStart a = true
  · rw [hstart]
    rfl
  · have hold : s.phase ≠ .notStarted := fun hphase =>
      hstarted (h.phase_of_notStarted hs (by simpa using hstart) hphase)
    rw [hs.on hold hnot]
    simp

/-- Only the first `startInLoop` begins to load. -/
theorem before (h : Moves s a es s') (hs : Bounded s) (hbefore : s'.phase ≠ .done) :
    s'.load = 0 := by
  have hphase := h.phase_eq_done
  have hzero := hs.before fun hdone => hbefore (hphase.mpr (Or.inl hdone))
  cases ha : s.base.attempt a with
  | none =>
    have := (h.load_of_not_attempt ha).1
    omega
  | some r =>
    exfalso
    obtain ⟨-, htimers, hdelivered⟩ := h.attempt hs ha
    unfold OnceStarted.load at hzero
    cases a with
    | start r' => exact hbefore (hphase.mpr (Or.inr (Or.inl ⟨r', rfl⟩)))
    | restart r' =>
      simp only [restarts] at hdelivered
      omega
    | timer r' =>
      simp only [ConnectorLoop.expires] at htimers
      omega
    | callFunctor r' =>
      apply hbefore
      refine hphase.mpr (Or.inr (Or.inr ?_))
      simp only [ConnectorLoop.attempt, Option.ite_none_right_eq_some] at ha
      simp [runs, ha.1.1]
    | loop | stop | handleWriter | handleError | storeStart | storeStop | push
    | otherChannels => cases ha

/-- A load of 1 is kept until `stop`, or until `::connect` fails for good. -/
theorem eq (h : Moves s a es s') (hs : Bounded s) (hdone : s'.phase = .done)
    (hnot : s'.stopped = false) (hfailed : s'.failed = false) : s'.load = 1 := by
  obtain ⟨hnot, -⟩ := h.stopped_eq_false hnot
  rw [h.failed, Bool.or_eq_false_iff] at hfailed
  obtain ⟨hfailed, hclose⟩ := hfailed
  cases ha : s.base.attempt a with
  | some r =>
    apply (h.load_of_attempt hs ha).2
    intro hout
    rw [ha, Option.any_some, hout] at hclose
    cases hclose
  | none =>
    have hstarted : s.phase ≠ .notStarted → s.base.conn.connect_ = true := fun hne => hs.on hne hnot
    rcases h.phase_eq_done.mp hdone with hdone | ⟨r, rfl⟩ | hruns
    · have hconnect := hstarted (by simp [hdone])
      rw [(h.load_of_not_attempt ha).2 hconnect]
      exact hs.eq hdone hnot hfailed
    · cases ha
    · exfalso
      have hset := hstarted (by simp [phase_of_runs hs hruns])
      cases a with
      | callFunctor r =>
        simp only [runs, beq_iff_eq] at hruns
        simp [ConnectorLoop.attempt, hruns, hset] at ha
      | _ => cases hruns

end Moves

/-- **Every step** under the condition keeps the load in its bounds. -/
theorem bounded_step (s : OnceStarted T) (a : ConnectorAction T) (s' : OnceStarted T) (hs : Bounded s)
    (hg : s.Undisturbed a) (hstep : s.step a = some s') : Bounded s' := by
  obtain ⟨es, h⟩ := moves_of_step hs.consistent hstep
  refine ⟨h.steps.consistent, ?_, h.queued hs, h.calling hs, h.stops hs, ?_, h.on hs, h.before hs, ?_,
    h.eq hs⟩
  · exact ConnectorLoop.accounted_step _ a _ hs.accounted (h.not_overlaps hs hg) h.base
  · intro hran
    rw [h.stopRan, Bool.or_eq_true] at hran
    rw [h.stopped, Bool.or_eq_true]
    rcases hran with hran | hruns
    · exact Or.inl (hs.stopRan hran)
    · refine Or.inl (hs.stops (Or.inl ?_))
      rw [queue_of_runs hruns]
      exact List.mem_cons_self
  · cases ha : s.base.attempt a with
    | none => exact Nat.le_trans (h.load_of_not_attempt ha).1 hs.le
    | some r => exact (h.load_of_attempt hs ha).1

/-! ## Every run -/

omit [DecidableEq T] in
theorem inFlight_iff (h : Accounted s.base.conn s.base.sockets) :
    s.InFlight ↔ s.base.conn.flight = 1 := by
  constructor
  · rintro ⟨hstate, -⟩
    exact Connector.flight_of_connecting hstate
  · intro hflight
    have hstate : s.base.conn.state = .kConnecting := by
      by_contra hne
      rw [Connector.flight_of_ne hne] at hflight
      cases hflight
    obtain ⟨fd, hregistered, -⟩ := h.connecting hstate
    exact ⟨hstate, fd, hregistered⟩

theorem Bounded.exclusive (h : Bounded s) : Exclusive s := by
  have hle := h.le
  unfold load at hle
  constructor
  · intro _
    refine ⟨by omega, fun hflight => ?_⟩
    have := (inFlight_iff h.accounted).mp hflight
    omega
  · intro hdone hnot hfailed
    have heq := h.eq hdone hnot hfailed
    unfold load at heq
    by_cases hflight : s.base.conn.flight = 1
    · exact Or.inl ((inFlight_iff h.accounted).mpr hflight)
    · right
      have hzero : s.base.conn.flight = 0 := by
        unfold Connector.flight at hflight ⊢
        split at hflight
        · exact absurd rfl hflight
        · next hne => exact if_neg hne
      omega

/-- As long as no `start` comes after a `stop`, a stopped connector has `connect_` cleared. -/
def Off (s : OnceStarted T) : Prop := s.stopped = true → s.base.conn.connect_ = false

theorem off_step (s : OnceStarted T) (a : ConnectorAction T) (s' : OnceStarted T)
    (hs : Bounded s ∧ Off s) (hg : s.Undisturbed a ∧ s.StartsFirst a) (hstep : s.step a = some s') :
    Bounded s' ∧ Off s' := by
  refine ⟨bounded_step s a s' hs.1 hg.1 hstep, ?_⟩
  obtain ⟨hs, hoff⟩ := hs
  obtain ⟨es, h⟩ := moves_of_step hs.consistent hstep
  intro hstop
  rw [h.stopped, Bool.or_eq_true] at hstop
  rw [h.connect_ hs]
  rcases hstop with hstop | hstop
  · have hnot : isStart a = false := by
      by_contra hstart
      rw [hg.2 (by simpa using hstart)] at hstop
      cases hstop
    rw [hnot, hoff hstop]
    simp
  · have hnot : isStart a = false := by
      cases a <;> first | rfl | cases hstop
    rw [hnot, hstop]
    rfl

/-- Once a `stopInLoop` has run, a step creates nothing and delivers nothing. -/
theorem quiet_step (hs : Bounded s) (hoff : Off s) (hfirst : s.StartsFirst a) (hran : s.stopRan = true)
    (hstep : s.step a = some s') : s'.base.sockets.count = s.base.sockets.count ∧
      s'.deliveries = s.deliveries ∧ s'.stopRan = true := by
  obtain ⟨es, h⟩ := moves_of_step hs.consistent hstep
  have hstopped := hs.stopRan hran
  have hconnect := hoff hstopped
  have ha : s.base.attempt a = none := by
    cases a with
    | start r =>
      have := hfirst rfl
      rw [hstopped] at this
      cases this
    | _ => simp [ConnectorLoop.attempt, hconnect]
  have hes : es.countP ConnectorEffect.isCreate = 0 ∧ es.countP ConnectorEffect.isNewConnection = 0 := by
    cases hset : ConnectorLoop.setsConnect a with
    | false =>
      have hleaves := h.steps.leaves ha hset
      refine ⟨hleaves.creates, ?_⟩
      by_contra hne
      rw [hleaves.delivers hne] at hconnect
      cases hconnect
    | true =>
      obtain ⟨-, hweight, hcreate, -⟩ := h.steps.sets hset
      unfold ConnectorEffect.weight at hweight
      exact ⟨hcreate, by omega⟩
  refine ⟨?_, ?_, ?_⟩
  · rw [h.steps.sockets, ConnectorEffect.count_account, hes.1, Nat.add_zero]
  · rw [h.deliveries, hes.2, Nat.add_zero]
  · rw [h.stopRan, hran, Bool.true_or]

/-- **Never stuck, never doubled.**  In a run in which no `resetChannel` meets a newer attempt: once the
first `startInLoop` has run there is at most one of an attempt in flight, a timer of `retry` and a
delivered connection not restarted, and exactly one as long as `stop` has not been called and no
`::connect` has failed for good.  If, moreover, no `start` comes after a `stop`: once a `stopInLoop` has
run, no socket is created and `newConnectionCallback_` is not called again. -/
theorem never_stuck_never_doubled (loop : EventLoop T (Option ConnectorFunctor)) (poller : EPollPoller)
    (hc : loop.Consistent) (hnone : ∀ f ∈ loop.queue, f = none) (as : List (ConnectorAction T))
    (t : OnceStarted T) (hcond : AllSteps step Undisturbed (start loop poller) as)
    (hrun : run step (start loop poller) as = some t) :
    Exclusive t ∧ (AllSteps step StartsFirst (start loop poller) as → t.stopRan = true →
      ∀ bs u, AllSteps step Undisturbed t bs → AllSteps step StartsFirst t bs →
        run step t bs = some u →
          u.base.sockets.count = t.base.sockets.count ∧ u.deliveries = t.deliveries) := by
  have hstart := bounded_start hc hnone poller
  refine ⟨(run_inv_of_allSteps bounded_step hstart hcond hrun).exclusive, ?_⟩
  intro hfirst hran bs u hcond' hfirst' hrun'
  have ht := run_inv_of_allSteps off_step ⟨hstart, fun h => by cases h⟩ (allSteps_and hcond hfirst) hrun
  have hstep : ∀ (s : OnceStarted T) a s', ((Bounded s ∧ Off s) ∧ s.stopRan = true ∧
      s.base.sockets.count = t.base.sockets.count ∧ s.deliveries = t.deliveries) →
        (s.Undisturbed a ∧ s.StartsFirst a) → s.step a = some s' →
          ((Bounded s' ∧ Off s') ∧ s'.stopRan = true ∧
            s'.base.sockets.count = t.base.sockets.count ∧ s'.deliveries = t.deliveries) := by
    rintro s a s' ⟨hs, hran, hcount, hdeliveries⟩ hg hstep
    obtain ⟨hcount', hdeliveries', hran'⟩ := quiet_step hs.1 hs.2 hg.2 hran hstep
    exact ⟨off_step s a s' hs hg hstep, hran', hcount'.trans hcount, hdeliveries'.trans hdeliveries⟩
  exact (run_inv_of_allSteps hstep ⟨ht, hran, rfl, rfl⟩ (allSteps_and hcond' hfirst') hrun').2.2

/-- Refused, then delivered, then stopped by another thread. -/
def deliveredThenStopped : List (ConnectorAction Unit) :=
  [.start ⟨5, 0, some .ECONNREFUSED⟩, .loop .enterLoop, .loop .resetQuit, .loop .testQuit,
    .loop (.pollReturns false), .timer ⟨5, 1, some .EINPROGRESS⟩, .loop .beginFunctors,
    .loop .swapFunctors, .loop .endFunctors, .loop .destroyFunctors, .loop .testQuit,
    .loop (.pollReturns false), .handleWriter none false, .storeStop (), .push (),
    .loop (.wakeup ()), .loop .beginFunctors, .loop .swapFunctors, .callFunctor ⟨6, 2, none⟩,
    .callFunctor ⟨6, 2, none⟩]

/-- The connection is restarted, to no effect. -/
def restartedAfterwards : List (ConnectorAction Unit) :=
  [.restart ⟨6, 2, some .EINPROGRESS⟩, .loop .endFunctors]

theorem never_stuck_never_doubled_run :
    ∃ t, run step (start .new .empty) deliveredThenStopped = some t ∧
      (t.delivered = 1 ∧ t.stopRan = true) ∧ Exclusive t ∧
      ∃ u, run step t restartedAfterwards = some u ∧ u.deliveries = t.deliveries := by
  have hcond : AllSteps step Undisturbed (start .new .empty)
      (deliveredThenStopped ++ restartedAfterwards) := by
    decide +kernel
  have hfirst : AllSteps step StartsFirst (start .new .empty)
      (deliveredThenStopped ++ restartedAfterwards) := by
    decide +kernel
  obtain ⟨t, ht, hend⟩ :
      ∃ t, run step (start .new .empty) deliveredThenStopped = some t ∧
        (t.delivered = 1 ∧ t.stopRan = true) :=
    exists_run_decide (by decide +kernel)
  obtain ⟨u, hu, -⟩ :
      ∃ u, run step (start .new .empty) (deliveredThenStopped ++ restartedAfterwards) = some u ∧
        u.delivered = 0 :=
    exists_run_decide (by decide +kernel)
  rw [run_append, ht, Option.bind_some] at hu
  obtain ⟨hcond, hcond'⟩ := allSteps_append hcond ht
  obtain ⟨hfirst, hfirst'⟩ := allSteps_append hfirst ht
  obtain ⟨hexclusive, hquiet⟩ := never_stuck_never_doubled .new .empty EventLoop.consistent_new
    (fun f hf => by cases hf) deliveredThenStopped t hcond ht
  exact ⟨t, ht, hend, hexclusive, u, hu, (hquiet hfirst hend.2 _ u hcond' hfirst' hu).2⟩

/-- `newConnectionCallback_` calls `restart`, whose `::connect` is in progress: `resetChannel`, queued for
the first attempt, deletes the channel of the second.  The iteration ends with nothing that could go on. -/
theorem restart_in_callback_is_stuck :
    ∃ t : OnceStarted Unit, run step (start .new .empty)
        [.start ⟨5, 0, some .EINPROGRESS⟩, .loop .enterLoop, .loop .resetQuit, .loop .testQuit,
          .loop (.pollReturns false), .handleWriter none false, .restart ⟨6, 1, some .EINPROGRESS⟩,
          .loop .beginFunctors, .loop .swapFunctors, .callFunctor ⟨7, 2, none⟩, .loop .endFunctors,
          .loop .destroyFunctors] = some t ∧
      t.base.loop.pc = .testing ∧ t.phase = .done ∧ t.stopped = false ∧ t.failed = false ∧
      ¬ Exclusive t := by
  refine exists_run_eq (fun t => ((t.base.loop.pc, t.phase, t.stopped, t.failed),
    t.base.conn.channel.map Channel.fd, t.base.timers, t.delivered))
    ((.testing, .done, false, false), none, 0, 0) (by decide +kernel) fun t _ hend => ?_
  simp only [Prod.mk.injEq, Option.map_eq_none_iff, and_assoc] at hend
  obtain ⟨hpc, hphase, hstopped, hfailed, hchannel, htimers, hdelivered⟩ := hend
  refine ⟨hpc, hphase, hstopped, hfailed, fun hexclusive => ?_⟩
  rcases hexclusive.atLeastOne hphase hstopped hfailed with ⟨-, fd, ch, hch, -⟩ | htimer | hconn
  · rw [hchannel] at hch
    cases hch
  · omega
  · omega

end OnceStarted
end Muduo
