import Muduo.ClientDown

/-!
# The end of a client

`ClientLoop` with `~TcpClient`, on the loop thread or on another one, and with the lives of the objects:
the client is alive until its destructor returns, and the connector as long as the client or a timer of
`retry` holds a `shared_ptr` to it.  Everything else is bound to them by `this`: the functors of `start`,
`stop` and `removeAndResetChannel`, the callbacks of the connector's channel, `newConnectionCallback_`
and `closeCallback_`.

* With a connection the destructor gives it another `closeCallback_`, at once or by a functor, and may
  force it to close.  Without one it calls `stop`, which queues `stopInLoop`.  Only then are the members
  destroyed; on another thread the loop goes on in between.
* A thread in `connect` or `stop` is done with it before the destructor begins.
* Each attempt registers a channel with the poller, and a second attempt, or a `resetChannel` that comes
  late, frees a channel that is still registered (`stray`).  An event may come of whatever is in the poller.
* `closeCallback_` is called by `handleClose`, behind `connectionCallback_` (`closing`).

    if the members are destroyed, and the last timer expires, with nothing left of the connector in the
    loop and in the poller, and no connection begins to close with its old callback, then only live objects
    are called                                                              (teardown_leaves_nothing)
-/

namespace Muduo

open Transition

namespace Connector

/-- The descriptor of `channel_`, if it is in the poller by its own account. -/
def added (c : Connector) : List Nat :=
  match c.channel with
  | none => []
  | some ch => if ch.index = .kAdded then [ch.fd] else []

/-- The channels that are freed in the poller as `c` becomes `c'`: `channel_` has been reset, or replaced by
one on another descriptor. -/
def abandons (c c' : Connector) : List Nat :=
  c.added.filter fun fd => c'.channel.map Channel.fd != some fd

theorem abandons_self (c : Connector) : c.abandons c = [] := by
  rw [abandons, List.filter_eq_nil_iff]
  intro fd hfd
  unfold added at hfd
  split at hfd
  · cases hfd
  · next ch hch =>
    split at hfd
    · simp [hch, List.mem_singleton.mp hfd]
    · cases hfd

theorem abandons_of_added {c : Connector} (h : c.added = []) (c' : Connector) : c.abandons c' = [] := by
  rw [abandons, h]
  rfl

end Connector

/-- How far `~TcpClient` has come. -/
inductive ClientDtor (T : Type*)
  /-- not called -/
  | none
  /-- a thread has copied `connection_`; `forces`: `forceClose` will be called, and queue -/
  | setting (t : T) (conn : Nat) (forces : Bool)
  | forcing (t : T)
  /-- a thread has found no connection -/
  | stopping (t : T)
  /-- in `stop`, before the push -/
  | stopped (t : T)
  /-- before the members are destroyed -/
  | ending (source : Option T)
  | done
deriving DecidableEq

structure ClientTeardown (T : Type*) where
  base : ClientLoop T
  dtor : ClientDtor T
  connectorAlive : Bool
  /-- the connections with `detail::removeConnection` for `closeCallback_` -/
  detached : Nat → Bool
  /-- the functor `setCloseCallback`: its connection, and the number of functors before it -/
  setting : Option (Nat × Nat)
  /-- the threads in `connect` and `stop` -/
  busy : List T
  /-- the descriptors of the channels that the connector has freed in the poller -/
  stray : List Nat
  /-- the connections in `handleClose`, before `closeCallback_` -/
  closing : List Nat

inductive TeardownAction (T : Type*)
  /-- a step of the client and its loop -/
  | base (a : ClientAction T)
  | callFunctor (r : Attempt)
  | timer (r : Attempt)
  /-- `handleEvent` of a channel that the connector has registered on `fd`: `handleError`, `handleWriter`, or
  both -/
  | handleEvent (fd : Nat) (error : Bool) (write : Option (Option Errno × Bool))
  /-- `closeCallback_` when it is `detail::removeConnection` -/
  | removeConnection (conn : Nat)
  /-- `~TcpClient` is called -/
  | destroy (source : Option T) (forces : Bool)
  /-- `~TcpClient` goes on -/
  | proceed

namespace ClientTeardown

variable {T : Type*}

/-- `TcpClient(loop, serverAddr, nameArg)`. -/
def start (loop : EventLoop T (Option ConnectorFunctor)) (poller : EPollPoller) :
    ClientTeardown T where
  base := ClientLoop.start loop poller
  dtor := .none
  connectorAlive := true
  detached := fun _ => false
  setting := none
  busy := []
  stray := []
  closing := []

/-- The descriptors on which the poller has a channel of the connector. -/
def watched (s : ClientTeardown T) : List Nat := s.base.base.conn.added ++ s.stray

/-- The client and its loop have taken a step. -/
def withBase (s : ClientTeardown T) (base : ClientLoop T) : ClientTeardown T :=
  { s with base, stray := s.stray ++ s.base.base.conn.abandons base.base.conn }

@[simp] theorem withBase_base (s : ClientTeardown T) (base : ClientLoop T) :
    (s.withBase base).base = base := rfl

@[simp] theorem withBase_connectorAlive (s : ClientTeardown T) (base : ClientLoop T) :
    (s.withBase base).connectorAlive = s.connectorAlive := rfl

/-- Other channels leave the entries of the freed channels alone. -/
def keepsStray (s : ClientTeardown T) (poller : EPollPoller) : Bool :=
  s.stray.all fun fd => poller.interest fd == s.base.base.conn.poller.interest fd &&
    poller.channels fd == s.base.base.conn.poller.channels fd

variable [DecidableEq T]

/-- The loop thread is in `~TcpClient`. -/
def blocked (s : ClientTeardown T) : Bool := s.dtor == .ending none

/-- The steps of the client and its loop that may be taken.  Nobody calls a client that is being
destroyed. -/
def mayTake (s : ClientTeardown T) : ClientAction T → Bool
  | .base (.loop a) => a.thread.isSome || !s.blocked
  | .base (.push t) | .callConnector t => s.busy.contains t
  | .base (.otherChannels poller) => s.keepsStray poller
  | .base _ => false
  | .connect _ | .disconnect | .stop | .enableRetry | .storeConnect _ | .storeDisconnect _
  | .storeStop _ | .storeRetry _ => s.dtor == .none
  | .handleClose _ => !s.blocked
  | .closeCallback conn _ => !s.blocked && s.closing.contains conn && !s.detached conn

/-- The threads in `connect` and `stop` after a step. -/
def busyAfter (s : ClientTeardown T) : ClientAction T → List T
  | .storeConnect t | .storeStop t => t :: s.busy
  | .base (.push t) => s.busy.erase t
  | _ => s.busy

/-- The connections in `handleClose` after a step. -/
def closingAfter (s : ClientTeardown T) : ClientAction T → List Nat
  | .handleClose conn => conn :: s.closing
  | .closeCallback conn _ => s.closing.erase conn
  | _ => s.closing

/-- The handlers that `handleEvent` calls. -/
def handlers (T : Type*) (error : Bool) (write : Option (Option Errno × Bool)) :
    List (ClientAction T) :=
  (if error then [.base .handleError] else []) ++
    (write.map fun w => .base (.handleWriter w.1 w.2)).toList

/-- One functor has been called. -/
def advanceSetting (s : ClientTeardown T) : ClientTeardown T :=
  match s.setting with
  | none => s
  | some (conn, 0) => { s with setting := none, detached := Function.update s.detached conn true }
  | some (conn, ahead + 1) => { s with setting := some (conn, ahead) }

/-- A functor of another object. -/
def loopQueueInLoop (c : ClientLoop T) : ClientLoop T :=
  { c with base := { c.base with loop := c.base.loop.next (.loopQueueInLoop none) } }

/-- A step of the connector that the client does not notice. -/
def stepConnector (s : ClientTeardown T) (a : ConnectorAction T) : Option (ClientTeardown T) :=
  (s.base.base.step a).map fun base => s.withBase { s.base with base }

/-- The thread calls `queueInLoop` with a functor of another object. -/
def queueInLoop (s : ClientTeardown T) (t : T) : Option (ClientTeardown T) :=
  s.stepConnector (.loop (.queueInLoop t none))

/-- `~TcpClient`, as far as the members; on another thread as far as the look at `connection_`. -/
def destroy (s : ClientTeardown T) (source : Option T) (forces : Bool) : Option (ClientTeardown T) :=
  match source, s.base.client.connection_ with
  | none, none => (s.stepConnector .stop).map fun s => { s with dtor := .ending none }
  | none, some conn =>
    some { s with
      base := if forces then loopQueueInLoop s.base else s.base
      detached := Function.update s.detached conn true
      dtor := .ending none }
  | some t, none => some { s with dtor := .stopping t }
  | some t, some conn => some { s with dtor := .setting t conn forces }

def proceed (s : ClientTeardown T) : Option (ClientTeardown T) :=
  match s.dtor with
  | .none | .done => none
  | .setting t conn forces =>
    (s.queueInLoop t).map fun s' =>
      { s' with
        setting := some (conn, s.base.base.loop.queue.length)
        dtor := if forces then .forcing t else .ending (some t) }
  | .forcing t => (s.queueInLoop t).map fun s => { s with dtor := .ending (some t) }
  | .stopping t => (s.stepConnector (.storeStop t)).map fun s => { s with dtor := .stopped t }
  | .stopped t => (s.stepConnector (.push t)).map fun s => { s with dtor := .ending (some t) }
  | .ending source =>
    if source.all fun t => s.base.base.loop.caller t == .idle then
      some { s with
        base := { s.base with client := { s.base.client with connection_ := none } }
        dtor := .done
        connectorAlive := decide (s.base.base.timers ≠ 0) }
    else none

/-- The thread may call the destructor. -/
def mayDestroy (s : ClientTeardown T) : Option T → Bool
  | none => s.base.base.loop.pc.runsUserCode
  | some t => s.base.isFree t

def step (s : ClientTeardown T) : TeardownAction T → Option (ClientTeardown T)
  | .base a =>
    if s.mayTake a then
      (s.base.step a).map fun base =>
        { s.withBase base with busy := s.busyAfter a, closing := s.closingAfter a }
    else none
  | .callFunctor r =>
    if s.blocked then none
    else (s.base.step (.base (.callFunctor r))).map s.advanceSetting.withBase
  -- the functor of the timer is destroyed when it has run
  | .timer r =>
    if s.blocked then none
    else (s.base.step (.base (.timer r))).map fun base =>
      { s.withBase base with
        connectorAlive := s.connectorAlive && (s.dtor != .done || decide (base.base.timers ≠ 0)) }
  -- the callbacks of a channel that has been freed are bound to the connector too
  | .handleEvent fd error write =>
    if s.base.base.loop.pc == .handling && s.watched.contains fd && !s.blocked then
      (run ClientLoop.step s.base (handlers T error write)).map s.withBase
    else none
  | .removeConnection conn =>
    if s.base.base.loop.pc.runsUserCode && s.closing.contains conn && s.detached conn &&
        decide (conn < s.base.created) && s.base.conns conn != some .up && !s.blocked then
      some { s with
        base := { loopQueueInLoop s.base with
          conns := Function.update s.base.conns conn (some .closed) }
        closing := s.closing.erase conn }
    else none
  | .destroy source forces =>
    if s.dtor == .none && s.busy.isEmpty && s.mayDestroy source then s.destroy source forces else none
  | .proceed => s.proceed

/-! ## The property -/

/-- The step runs a functor, a timer or a channel callback bound to the connector. -/
def callsConnector (s : ClientTeardown T) : TeardownAction T → Bool
  | .callFunctor _ => (s.base.base.loop.functors.head?.bind id).isSome
  | .timer _ | .handleEvent _ _ _ => true
  | _ => false

/-- The step runs `closeCallback_` or `newConnectionCallback_` bound to the client. -/
def callsClient (s : ClientTeardown T) : TeardownAction T → Bool
  | .base (.closeCallback _ _) => true
  | .handleEvent _ error write =>
    (run ClientLoop.step s.base (handlers T error write)).any fun base =>
      base.created != s.base.created
  | _ => false

/-- Only live objects are called. -/
def CallsLive (s : ClientTeardown T) (a : TeardownAction T) : Prop :=
  (s.step a).isSome = true →
    (s.callsConnector a = true → s.connectorAlive = true) ∧ (s.callsClient a = true → s.dtor ≠ .done)

/-! ## The condition -/

/-- Nothing in the loop is bound to the connector, and nothing it has registered is in the poller. -/
def Released (s : ClientTeardown T) : Prop :=
  (∀ task ∈ s.base.base.loop.queue, task = none) ∧ s.watched = []

/-- The connection will not call the client when it closes. -/
def Rebound (s : ClientTeardown T) (conn : Nat) : Prop :=
  s.detached conn = true ∨ s.setting.map Prod.fst = some conn

/-- The members are destroyed with nothing bound to the connector, or a timer holds it and it is
stopped; every open connection has another callback, or `setCloseCallback` queued, and one that is in
`handleClose` has another callback. -/
structure EndsClean (s : ClientTeardown T) : Prop where
  released : s.base.base.timers = 0 → Released s
  stopped : s.base.base.timers ≠ 0 → s.base.base.conn.connect_ = false
  rebound : ∀ conn < s.base.created, s.base.IsOpen conn → Rebound s conn
  closing : ∀ conn ∈ s.closing, s.detached conn = true

/-- The condition on a step: the members are destroyed, and the last timer expires, with nothing left; and
afterwards no connection begins to close a second time, or with `setCloseCallback` still queued. -/
def Clean (s : ClientTeardown T) : TeardownAction T → Prop
  | .proceed => ∀ source, s.dtor = .ending source → EndsClean s
  | .timer _ => s.dtor = .done → s.base.base.timers = 1 → Released s
  | .base (.handleClose conn) => s.dtor = .done →
    s.detached conn = true ∨ s.base.conns conn ≠ some .closed ∧ s.setting.map Prod.fst ≠ some conn
  | _ => True

end ClientTeardown
end Muduo
