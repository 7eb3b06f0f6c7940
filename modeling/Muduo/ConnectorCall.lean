import Muduo.SocketAccounting

/-!
# The call in a step

Every step of a `ConnectorLoop` makes at most one call on the connector (`result`), and everything
else in the step follows from the effects of that call (`step_result`): the sockets, the timers, the
queue of the loop, and what threads still have to push.

The weight of a call counts what it leaves to be done: the attempt in progress, a timer of `retry`,
a call of `newConnectionCallback_`.

* `connect` without an attempt in progress has weight 1, unless `::connect` fails for good or `retry`
  finds `connect_` false (`leaves_connect`).
* Every other call keeps the weight of the attempt in progress, unless it finds `connect_` false
  (`leaves_stopInLoop`, `leaves_handleError`, `leaves_handleWriter`).
-/

namespace Muduo

namespace ConnectorEffect

def isNewConnection : ConnectorEffect → Bool
  | .newConnectionCallback _ => true
  | _ => false

/-- The socket delivered. -/
def delivers : ConnectorEffect → Option Nat
  | .newConnectionCallback sockfd => some sockfd
  | _ => none

theorem length_filterMap_delivers (es : List ConnectorEffect) :
    (es.filterMap delivers).length = es.countP isNewConnection := by
  induction es with
  | nil => rfl
  | cons e es ih =>
    rw [List.filterMap_cons, List.countP_cons]
    cases e <;> simp [delivers, isNewConnection, ih]

def isCreate : ConnectorEffect → Bool
  | .createNonblocking _ => true
  | _ => false

/-- The timers and the calls of `newConnectionCallback_` among the effects. -/
def weight (es : List ConnectorEffect) : Nat := es.count .runAfter + es.countP isNewConnection

theorem weight_append (es es' : List ConnectorEffect) : weight (es ++ es') = weight es + weight es' := by
  simp only [weight, List.count_append, List.countP_append]
  omega

/-- The sockets created. -/
theorem count_account (es : List ConnectorEffect) (l : Ledger Nat SocketOutcome) :
    (es.foldl account l).count = l.count + es.countP isCreate := by
  induction es generalizing l with
  | nil => rfl
  | cons e es ih =>
    rw [List.foldl_cons, ih, List.countP_cons]
    cases e <;> simp [account, isCreate, Nat.add_right_comm, Nat.add_assoc]

end ConnectorEffect

/-! ## The weight of a call -/

namespace Connector

/-- An attempt is in progress. -/
def flight (c : Connector) : Nat := if c.state = .kConnecting then 1 else 0

variable {c c' : Connector} {es : List ConnectorEffect} {r : Attempt}

theorem flight_of_connecting (h : c.state = .kConnecting) : c.flight = 1 := if_pos h

theorem flight_of_ne (h : c.state ≠ .kConnecting) : c.flight = 0 := if_neg h

/-- What a call leaves is at most `bound`, and just that if `connect_` is set; the call creates `created`
sockets. -/
structure Leaves (c c' : Connector) (es : List ConnectorEffect) (bound created : Nat) : Prop where
  le : c'.flight + ConnectorEffect.weight es ≤ bound
  eq : c.connect_ = true → c'.flight + ConnectorEffect.weight es = bound
  connect_ : c'.connect_ = c.connect_
  delivers : es.countP ConnectorEffect.isNewConnection ≠ 0 → c.connect_ = true
  functors : ∀ f ∈ es.filterMap ConnectorEffect.functor, f = .resetChannel
  creates : es.countP ConnectorEffect.isCreate = created

/-- A call without effects that keeps the flags. -/
theorem leaves_of_eq (hstate : c'.state = c.state) (hconnect : c'.connect_ = c.connect_) :
    Leaves c c' [] c.flight 0 := by
  have hflight : c'.flight = c.flight := by
    unfold flight
    rw [hstate]
  refine ⟨Nat.le_of_eq hflight, fun _ => hflight, hconnect, fun h => absurd rfl h, ?_, rfl⟩
  intro f hf
  cases hf

theorem leaves_refl (c : Connector) : Leaves c c [] c.flight 0 := leaves_of_eq rfl rfl

theorem retry_effects (c : Connector) (sockfd : Nat) :
    ConnectorEffect.weight (c.retry sockfd).2 = (if c.connect_ then 1 else 0) ∧
      (c.retry sockfd).2.countP ConnectorEffect.isNewConnection = 0 ∧
      (c.retry sockfd).2.filterMap ConnectorEffect.functor = [] ∧
      (c.retry sockfd).2.countP ConnectorEffect.isCreate = 0 := by
  unfold retry
  split <;> exact ⟨rfl, rfl, rfl, rfl⟩

/-- A call that ends with `retry`: `es` is what it did before. -/
theorem leaves_retry {sockfd : Nat} (hes : ConnectorEffect.weight es = 0)
    (hfunctors : ∀ f ∈ es.filterMap ConnectorEffect.functor, f = .resetChannel)
    (hc : c'.connect_ = c.connect_) :
    Leaves c (c'.retry sockfd).1 (es ++ (c'.retry sockfd).2) 1
      (es.countP ConnectorEffect.isCreate) := by
  have hflight : (c'.retry sockfd).1.flight = 0 := flight_of_ne (by simp [retry, setState])
  obtain ⟨hweight, hnone, hnil, hcreate⟩ := retry_effects c' sockfd
  constructor
  · rw [hflight, ConnectorEffect.weight_append, hes, hweight]
    split <;> omega
  · intro hconnect
    rw [hflight, ConnectorEffect.weight_append, hes, hweight, hc, if_pos hconnect]
  · exact hc
  · intro hne
    rw [List.countP_append, hnone] at hne
    unfold ConnectorEffect.weight at hes
    omega
  · rw [List.filterMap_append, hnil, List.append_nil]
    exact hfunctors
  · rw [List.countP_append, hcreate, Nat.add_zero]

theorem removeAndResetChannel_spec {sockfd : Nat} (h : c.removeAndResetChannel = some (c', sockfd, es)) :
    c'.state = c.state ∧ c'.connect_ = c.connect_ ∧ es = [.queueInLoop .resetChannel] := by
  simp only [removeAndResetChannel, Option.bind_eq_bind, Option.bind_eq_some_iff] at h
  obtain ⟨ch, -, ⟨poller, ch'⟩, -, ⟨poller', ch''⟩, -, h⟩ := h
  cases h
  exact ⟨rfl, rfl, rfl⟩

theorem connecting_spec {sockfd addr : Nat} (h : c.connecting sockfd addr = some c') :
    c'.state = .kConnecting ∧ c'.connect_ = c.connect_ := by
  simp only [connecting, Option.bind_eq_bind, Option.bind_eq_some_iff] at h
  obtain ⟨⟨poller, ch⟩, -, h⟩ := h
  cases h
  exact ⟨rfl, rfl⟩

/-- The functors of `removeAndResetChannel`. -/
theorem mem_reset : ∀ f ∈ [ConnectorEffect.queueInLoop .resetChannel].filterMap ConnectorEffect.functor,
    f = .resetChannel := fun _ hf => List.mem_singleton.mp hf

/-- `connect` starts an attempt or a timer, unless `::connect` fails for good. -/
theorem leaves_connect (hstate : c.state ≠ .kConnecting) (h : c.connect r = some (c', es)) :
    Leaves c c' es (if r.outcome = .close then 0 else 1) 1 := by
  unfold connect at h
  cases hout : r.outcome with
  | connecting =>
    simp only [hout, Option.bind_eq_bind, Option.bind_eq_some_iff] at h
    obtain ⟨c₁, hc₁, h⟩ := h
    cases h
    obtain ⟨hstate', hconnect⟩ := connecting_spec hc₁
    have hone : c'.flight + ConnectorEffect.weight [.createNonblocking r.sockfd] = 1 := by
      rw [flight_of_connecting hstate']
      rfl
    refine ⟨Nat.le_of_eq hone, fun _ => hone, hconnect, fun hne => absurd rfl hne, ?_, rfl⟩
    intro f hf
    cases hf
  | retry =>
    simp only [hout] at h
    cases h
    have hnone : ∀ f ∈ [ConnectorEffect.createNonblocking r.sockfd].filterMap ConnectorEffect.functor,
        f = .resetChannel := fun f hf => by cases hf
    exact leaves_retry rfl hnone rfl
  | close =>
    simp only [hout] at h
    cases h
    have hzero : c.flight + ConnectorEffect.weight [.createNonblocking r.sockfd, .close r.sockfd] = 0 := by
      rw [flight_of_ne hstate]
      rfl
    refine ⟨Nat.le_of_eq hzero, fun _ => hzero, rfl, fun hne => absurd rfl hne, ?_, rfl⟩
    intro f hf
    cases hf

/-- `connect` delivers nothing, and only a `::connect` in progress begins an attempt. -/
theorem connect_spec (h : c.connect r = some (c', es)) :
    es.countP ConnectorEffect.isNewConnection = 0 ∧
      (c'.state = .kConnecting → c.state = .kConnecting ∨ r.outcome = .connecting) := by
  unfold connect at h
  cases hout : r.outcome with
  | connecting =>
    simp only [hout, Option.bind_eq_bind, Option.bind_eq_some_iff] at h
    obtain ⟨c₁, -, h⟩ := h
    cases h
    exact ⟨rfl, fun _ => Or.inr rfl⟩
  | retry =>
    simp only [hout] at h
    cases h
    refine ⟨?_, fun hstate => by cases hstate⟩
    rw [List.countP_cons, (retry_effects c r.sockfd).2.1]
    rfl
  | close =>
    simp only [hout] at h
    cases h
    exact ⟨rfl, Or.inl⟩

theorem leaves_stopInLoop (h : c.stopInLoop = some (c', es)) : Leaves c c' es c.flight 0 := by
  unfold stopInLoop at h
  split at h
  · next hstate =>
    simp only [Option.bind_eq_bind, Option.bind_eq_some_iff] at h
    obtain ⟨⟨c₁, sockfd, es₁⟩, hremove, h⟩ := h
    cases h
    obtain ⟨-, hconnect, rfl⟩ := removeAndResetChannel_spec hremove
    rw [flight_of_connecting hstate]
    exact leaves_retry rfl mem_reset hconnect
  · cases h
    exact leaves_refl c

theorem leaves_handleError (h : c.handleError = some (c', es)) : Leaves c c' es c.flight 0 := by
  unfold handleError at h
  split at h
  · next hstate =>
    simp only [Option.bind_eq_bind, Option.bind_eq_some_iff] at h
    obtain ⟨⟨c₁, sockfd, es₁⟩, hremove, h⟩ := h
    cases h
    obtain ⟨-, hconnect, rfl⟩ := removeAndResetChannel_spec hremove
    rw [flight_of_connecting hstate]
    exact leaves_retry rfl mem_reset hconnect
  · cases h
    exact leaves_refl c

theorem leaves_handleWriter {err : Option Errno} {selfConnect : Bool}
    (h : c.handleWriter err selfConnect = some (c', es)) : Leaves c c' es c.flight 0 := by
  unfold handleWriter at h
  split at h
  · next hstate =>
    simp only [Option.bind_eq_bind, Option.bind_eq_some_iff] at h
    obtain ⟨⟨c₁, sockfd, es₁⟩, hremove, h⟩ := h
    obtain ⟨-, hconnect, rfl⟩ := removeAndResetChannel_spec hremove
    rw [flight_of_connecting hstate]
    split at h
    · cases h
      exact leaves_retry rfl mem_reset hconnect
    · split at h
      · cases h
        exact leaves_retry rfl mem_reset hconnect
      · have hflight : (c₁.setState .kConnected).flight = 0 := flight_of_ne (by simp [setState])
        split at h
        · next hset =>
          cases h
          have hone : (c₁.setState .kConnected).flight + ConnectorEffect.weight
              ([.queueInLoop .resetChannel] ++ [.newConnectionCallback sockfd]) = 1 := by
            rw [hflight]
            rfl
          exact ⟨Nat.le_of_eq hone, fun _ => hone, hconnect, fun _ => hconnect ▸ hset, mem_reset, rfl⟩
        · next hnot =>
          cases h
          refine ⟨?_, fun hc => absurd (hconnect.trans hc) hnot, hconnect, ?_, mem_reset, rfl⟩
          · rw [hflight]
            exact Nat.zero_le 1
          · exact fun hne => absurd rfl hne
  · split at h
    · cases h
      exact leaves_refl c
    · cases h

end Connector

/-! ## The step -/

namespace ConnectorLoop

variable {T : Type*}

/-- The connector after the step, and what the call in it did. -/
def result (s : ConnectorLoop T) : ConnectorAction T → Connector.Result
  | .callFunctor r =>
    match s.loop.functors.head? with
    | some (some f) => s.conn.callFunctor r f
    | _ => some (s.conn, [])
  | .start r => s.conn.start true r
  | .stop => s.conn.stop
  | .restart r => s.conn.restart r
  | .timer r => s.conn.startInLoop r
  | .handleWriter err selfConnect => s.conn.handleWriter err selfConnect
  | .handleError => s.conn.handleError
  | .storeStart _ => some ({ s.conn with connect_ := true }, [])
  | .storeStop _ => some ({ s.conn with connect_ := false }, [])
  | .otherChannels poller => some ({ s.conn with poller }, [])
  | .loop _ | .push _ => some (s.conn, [])

/-- What the call in the step does. -/
def effects (s : ConnectorLoop T) (a : ConnectorAction T) : List ConnectorEffect :=
  ((s.result a).map Prod.snd).getD []

/-- The timers that expire. -/
def expires : ConnectorAction T → Nat
  | .timer _ => 1
  | _ => 0

/-- The functors that the loop takes out of its queue. -/
def takes : ConnectorAction T → Nat
  | .callFunctor _ => 1
  | _ => 0

/-- The functors pushed outside the call on the connector. -/
def pushes (s : ConnectorLoop T) : ConnectorAction T → List (Option ConnectorFunctor)
  | .loop a => a.push.map fun _ => none
  | .push t => (s.calls t).toList.map some
  | _ => []

variable [DecidableEq T]

/-- What threads still have to push after the step. -/
def callsAfter (s : ConnectorLoop T) : ConnectorAction T → T → Option ConnectorFunctor
  | .storeStart t => Function.update s.calls t (some .startInLoop)
  | .storeStop t => Function.update s.calls t (some .stopInLoop)
  | .push t => Function.update s.calls t none
  | _ => s.calls

/-- Everything a step does. -/
structure Steps (s : ConnectorLoop T) (a : ConnectorAction T) (es : List ConnectorEffect)
    (s' : ConnectorLoop T) : Prop where
  result : s.result a = some (s'.conn, es)
  sockets : s'.sockets = es.foldl ConnectorEffect.account s.sockets
  expires : expires a ≤ s.timers
  timers : s'.timers + ConnectorLoop.expires a = s.timers + es.count .runAfter
  queue : s'.loop.queue =
    s.loop.queue.drop (takes a) ++ s.pushes a ++ (es.filterMap ConnectorEffect.functor).map some
  calls : s'.calls = s.callsAfter a
  consistent : s'.loop.Consistent

/-- The functors of a call are queued in order. -/
theorem enqueue (fs : List ConnectorFunctor) (loop : EventLoop T (Option ConnectorFunctor))
    (h : loop.Consistent) :
    (fs.foldl (fun loop f => loop.next (.loopQueueInLoop (some f))) loop).queue =
        loop.queue ++ fs.map some ∧
      (fs.foldl (fun loop f => loop.next (.loopQueueInLoop (some f))) loop).Consistent := by
  induction fs generalizing loop with
  | nil => exact ⟨(List.append_nil _).symm, h⟩
  | cons f fs ih =>
    have hnext : (loop.next (.loopQueueInLoop (some f))).Consistent := ⟨h.calling, h.batch⟩
    obtain ⟨hqueue, hc⟩ := ih _ hnext
    refine ⟨?_, hc⟩
    rw [List.foldl_cons, hqueue]
    simp [EventLoop.queue, EventLoop.next]

/-- The rule for a step that is a call. -/
theorem steps_of_perform {s₀ s s' : ConnectorLoop T} {a : ConnectorAction T} {r : Connector.Result}
    (hc : s.loop.Consistent) (hr : s₀.result a = r) (h : s.perform r = some s')
    (hsockets : s.sockets = s₀.sockets) (htimers : s.timers + expires a = s₀.timers)
    (hqueue : s.loop.queue = s₀.loop.queue.drop (takes a) ++ s₀.pushes a)
    (hcalls : s.calls = s₀.callsAfter a) : ∃ es, Steps s₀ a es s' := by
  obtain ⟨⟨conn, es⟩, rfl, rfl⟩ := Option.map_eq_some_iff.mp h
  obtain ⟨henqueue, hconsistent⟩ := enqueue (es.filterMap ConnectorEffect.functor) s.loop hc
  refine ⟨es, hr, ?_, ?_, ?_, ?_, hcalls, hconsistent⟩
  · rw [← hsockets]
  · omega
  · show s.timers + es.count .runAfter + expires a = _
    omega
  · rw [← hqueue]
    exact henqueue

/-- **Everything a step does follows from the call in it.** -/
theorem step_result {s s' : ConnectorLoop T} {a : ConnectorAction T} (hc : s.loop.Consistent)
    (h : s.step a = some s') : ∃ es, Steps s a es s' := by
  cases a with
  | loop a =>
    simp only [step, Option.ite_none_right_eq_some, Option.map_eq_some_iff] at h
    obtain ⟨hmay, loop, hloop, rfl⟩ := h
    obtain ⟨hqueue, -, -⟩ := EventLoop.step_queue hc hloop
    have hcalls : a.calls = 0 := by
      unfold LoopAction.calls
      split
      · cases hmay
      · rfl
    have hpush : a.push = a.push.map fun _ => none := by
      cases a with
      | queueInLoop t f =>
        simp only [mayTake, Bool.and_eq_true, Option.isNone_iff_eq_none] at hmay
        rw [hmay.1]
        rfl
      | loopQueueInLoop f =>
        simp only [mayTake, Option.isNone_iff_eq_none] at hmay
        rw [hmay]
        rfl
      | _ => rfl
    refine ⟨[], rfl, rfl, Nat.zero_le _, rfl, ?_, rfl, EventLoop.consistent_step _ _ _ hc hloop⟩
    show loop.queue = s.loop.queue.drop 0 ++ (a.push.map fun _ => none) ++ []
    rw [hqueue, hcalls, ← hpush, List.append_nil]
  | callFunctor r =>
    simp only [step] at h
    split at h
    · cases h
    · next task fs hfs =>
      simp only [Option.ite_none_right_eq_some, Option.bind_eq_some_iff] at h
      obtain ⟨-, loop, hloop, h⟩ := h
      have hc' := EventLoop.consistent_step _ _ _ hc hloop
      obtain ⟨hqueue, -, -⟩ := EventLoop.step_queue hc hloop
      cases task with
      | none =>
        cases h
        refine ⟨[], ?_, rfl, Nat.zero_le _, rfl, ?_, rfl, hc'⟩
        · simp [result, hfs]
        · show loop.queue = _
          rw [hqueue]
          exact (List.append_nil _).symm
      | some f =>
        refine steps_of_perform (s := { s with loop }) hc' ?_ h rfl rfl hqueue rfl
        simp [result, hfs]
  | start | stop | restart | handleWriter | handleError =>
    simp only [step, Option.ite_none_right_eq_some] at h
    exact steps_of_perform hc rfl h.2 rfl rfl (List.append_nil _).symm rfl
  | timer r =>
    simp only [step, Option.ite_none_right_eq_some, Bool.and_eq_true, decide_eq_true_eq] at h
    obtain ⟨⟨-, hpos⟩, h⟩ := h
    refine steps_of_perform (s := { s with timers := s.timers - 1 }) hc rfl h rfl ?_
      (List.append_nil _).symm rfl
    show s.timers - 1 + 1 = s.timers
    omega
  | push t =>
    simp only [step] at h
    split at h
    · cases h
    · next f hf =>
      obtain ⟨loop, hloop, rfl⟩ := Option.map_eq_some_iff.mp h
      obtain ⟨hqueue, -, -⟩ := EventLoop.step_queue hc hloop
      refine ⟨[], rfl, rfl, Nat.zero_le _, rfl, ?_, rfl, EventLoop.consistent_step _ _ _ hc hloop⟩
      show loop.queue = _
      rw [hqueue]
      simp [takes, pushes, hf, LoopAction.calls, LoopAction.push]
  | storeStart | storeStop | otherChannels =>
    simp only [step, Option.ite_none_right_eq_some, Option.some.injEq] at h
    obtain ⟨-, rfl⟩ := h
    exact ⟨[], rfl, rfl, Nat.zero_le _, rfl, by simp [takes, pushes], rfl, hc⟩

/-! ## Kinds of steps -/

/-- The stores to `connect_` on another thread, and `stop`. -/
def setsConnect : ConnectorAction T → Bool
  | .stop | .storeStart _ | .storeStop _ => true
  | _ => false

variable {s s' : ConnectorLoop T} {a : ConnectorAction T} {es : List ConnectorEffect} {r : Attempt}

omit [DecidableEq T] in
/-- A functor of the connector that a thread pushes was its to push. -/
theorem some_mem_pushes {f : ConnectorFunctor} :
    some f ∈ s.pushes a ↔ ∃ t, a = .push t ∧ s.calls t = some f := by
  cases a with
  | loop a => simp [pushes]
  | push t => simp [pushes]
  | _ => simp [pushes]

/-- A step that calls `connect` finds `connect_` set, or sets it. -/
theorem Steps.connect (h : Steps s a es s') (ha : s.attempt a = some r) :
    { s.conn with connect_ := true }.connect r = some (s'.conn, es) := by
  have hset : s.conn.connect_ = true → { s.conn with connect_ := true } = s.conn := by
    intro hc
    rw [← hc]
  cases a with
  | start r' =>
    cases ha
    exact h.result
  | restart r' =>
    simp only [attempt, Option.ite_none_right_eq_some, Option.some.injEq] at ha
    obtain ⟨hconnect, rfl⟩ := ha
    have hresult := h.result
    rw [ConnectorLoop.result, Connector.restart, if_pos hconnect] at hresult
    rw [hset hconnect]
    exact hresult
  | timer r' =>
    simp only [attempt, Option.ite_none_right_eq_some, Option.some.injEq] at ha
    obtain ⟨hconnect, rfl⟩ := ha
    have hresult := h.result
    rw [ConnectorLoop.result, Connector.startInLoop, if_pos hconnect] at hresult
    rw [hset hconnect]
    exact hresult
  | callFunctor r' =>
    simp only [attempt, Option.ite_none_right_eq_some, Option.some.injEq] at ha
    obtain ⟨⟨hhead, hconnect⟩, rfl⟩ := ha
    have hresult := h.result
    simp only [ConnectorLoop.result, hhead, Connector.callFunctor, Connector.startInLoop, if_pos hconnect] at hresult
    rw [hset hconnect]
    exact hresult
  | loop | stop | handleWriter | handleError | storeStart | storeStop | push | otherChannels => cases ha

/-- The stores and `stop` change `connect_` only. -/
theorem Steps.sets (h : Steps s a es s') (hset : setsConnect a = true) :
    s'.conn.state = s.conn.state ∧ ConnectorEffect.weight es = 0 ∧
      es.countP ConnectorEffect.isCreate = 0 ∧
      ∀ f ∈ es.filterMap ConnectorEffect.functor, f = .stopInLoop ∧ a = .stop := by
  have hresult := h.result
  cases a with
  | stop =>
    simp only [ConnectorLoop.result, Connector.stop, Option.some.injEq, Prod.mk.injEq] at hresult
    obtain ⟨heq, rfl⟩ := hresult
    rw [← heq]
    exact ⟨rfl, rfl, rfl, fun f hf => ⟨List.mem_singleton.mp hf, rfl⟩⟩
  | storeStart t =>
    simp only [ConnectorLoop.result, Option.some.injEq, Prod.mk.injEq] at hresult
    obtain ⟨heq, rfl⟩ := hresult
    rw [← heq]
    exact ⟨rfl, rfl, rfl, fun f hf => by cases hf⟩
  | storeStop t =>
    simp only [ConnectorLoop.result, Option.some.injEq, Prod.mk.injEq] at hresult
    obtain ⟨heq, rfl⟩ := hresult
    rw [← heq]
    exact ⟨rfl, rfl, rfl, fun f hf => by cases hf⟩
  | loop | callFunctor | start | restart | timer | handleWriter | handleError | push
  | otherChannels => cases hset

/-- Any other step leaves what was in progress, unless it finds `connect_` false. -/
theorem Steps.leaves (h : Steps s a es s') (ha : s.attempt a = none) (hset : setsConnect a = false) :
    Connector.Leaves s.conn s'.conn es s.conn.flight 0 := by
  have hresult := h.result
  have hidle : some (s.conn, []) = some (s'.conn, es) →
      Connector.Leaves s.conn s'.conn es s.conn.flight 0 := by
    intro heq
    rw [Option.some.injEq, Prod.mk.injEq] at heq
    obtain ⟨heq, rfl⟩ := heq
    rw [← heq]
    exact Connector.leaves_refl _
  cases a with
  | loop a => exact hidle hresult
  | push t => exact hidle hresult
  | start r => cases ha
  | stop | storeStart | storeStop => cases hset
  | restart r =>
    have hconnect : s.conn.connect_ = false := by simpa [attempt] using ha
    simp only [ConnectorLoop.result, Connector.restart, hconnect] at hresult
    exact hidle hresult
  | timer r =>
    have hconnect : s.conn.connect_ = false := by simpa [attempt] using ha
    simp only [ConnectorLoop.result, Connector.startInLoop, hconnect] at hresult
    exact hidle hresult
  | handleWriter err selfConnect => exact Connector.leaves_handleWriter hresult
  | handleError => exact Connector.leaves_handleError hresult
  | otherChannels poller =>
    simp only [ConnectorLoop.result, Option.some.injEq, Prod.mk.injEq] at hresult
    obtain ⟨heq, rfl⟩ := hresult
    rw [← heq]
    exact Connector.leaves_of_eq rfl rfl
  | callFunctor r =>
    simp only [ConnectorLoop.result] at hresult
    split at hresult
    · next f hhead =>
      cases f with
      | startInLoop =>
        have hconnect : s.conn.connect_ = false := by simpa [attempt, hhead] using ha
        simp only [Connector.callFunctor, Connector.startInLoop, hconnect] at hresult
        exact hidle hresult
      | stopInLoop => exact Connector.leaves_stopInLoop hresult
      | resetChannel =>
        simp only [Connector.callFunctor, Option.some.injEq, Prod.mk.injEq] at hresult
        obtain ⟨heq, rfl⟩ := hresult
        rw [← heq]
        exact Connector.leaves_of_eq rfl rfl
    · exact hidle hresult

theorem Steps.effects (h : Steps s a es s') : s.effects a = es := by
  rw [ConnectorLoop.effects, h.result]
  rfl

/-- **Deliveries.**  A step delivers a connection by ending the attempt in progress; any other step
delivers nothing, and begins an attempt only by a `::connect` in progress. -/
theorem Steps.delivery (h : Steps s a es s') :
    (es.countP ConnectorEffect.isNewConnection = 0 ∧
        (s'.conn.state = .kConnecting →
          s.conn.state = .kConnecting ∨ ∃ r, s.attempt a = some r ∧ r.outcome = .connecting)) ∨
      (es.countP ConnectorEffect.isNewConnection = 1 ∧ s.conn.state = .kConnecting ∧
        s.conn.connect_ = true ∧ s'.conn.state ≠ .kConnecting) := by
  cases ha : s.attempt a with
  | some r =>
    obtain ⟨hnone, hstate⟩ := Connector.connect_spec (h.connect ha)
    exact Or.inl ⟨hnone, fun hc => (hstate hc).imp_right fun hout => ⟨r, rfl, hout⟩⟩
  | none =>
    cases hset : setsConnect a with
    | true =>
      obtain ⟨hstate, hweight, -, -⟩ := h.sets hset
      unfold ConnectorEffect.weight at hweight
      exact Or.inl ⟨by omega, fun hc => Or.inl (hstate ▸ hc)⟩
    | false =>
      have hleaves := h.leaves ha hset
      have hle := hleaves.le
      unfold ConnectorEffect.weight at hle
      have hflying : s.conn.flight ≠ 0 → s.conn.state = .kConnecting := by
        intro hne
        by_contra hstate
        exact hne (Connector.flight_of_ne hstate)
      have hone : s.conn.flight ≤ 1 := by
        unfold Connector.flight
        split <;> omega
      by_cases hnone : es.countP ConnectorEffect.isNewConnection = 0
      · refine Or.inl ⟨hnone, fun hc => Or.inl (hflying ?_)⟩
        rw [Connector.flight_of_connecting hc] at hle
        omega
      · refine Or.inr ⟨by omega, hflying (by omega), hleaves.delivers hnone, fun hc => ?_⟩
        rw [Connector.flight_of_connecting hc] at hle
        omega

end ConnectorLoop
end Muduo
