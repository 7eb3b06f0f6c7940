import Muduo.ConnectorCall

/-!
# A client on its loop

`TcpClient` over a `ConnectorLoop`: `connect`, `disconnect`, `stop` and `enableRetry` on the loop thread
and on any number of other threads `T`, the deliveries of the connector, and the ends of the client's
connections.

* Connections are numbered.  Of a connection the client sees that it comes UP (`connectEstablished` in
  `newConnection`), that `handleClose` runs for it, and that `handleClose` then calls `closeCallback_`,
  which is `removeConnection`.  Each is a step; between the last two `connectionCallback_` runs.
* `handleClose` may run for a connection that is closed already; a connection does not exclude it.
* On another thread `connect` and `stop` set `connect_` before they call the connector.
* `shutdown` in `disconnect` acts on the connection alone.
-/

namespace Muduo

open Transition

structure TcpClient where
  retry_ : Bool
  connect_ : Bool
  connection_ : Option Nat
deriving DecidableEq, Repr

/-- A connection as the client sees it. -/
inductive ClientConnection
  | up
  /-- in `handleClose`, before `closeCallback_` -/
  | down
  | closed
deriving DecidableEq, Repr

/-- The call of the connector that a thread is about to make. -/
inductive ClientCall
  | start | stop
deriving DecidableEq, Repr

structure ClientLoop (T : Type*) where
  base : ConnectorLoop T
  client : TcpClient
  /-- the number of connections made -/
  created : Nat
  conns : Nat → Option ClientConnection
  callers : T → Option ClientCall
  /-- history: the connections with which `connectionCallback_` was called while they were UP -/
  ups : List Nat

inductive ClientAction (T : Type*)
  /-- a step of the loop or of the connector by itself -/
  | base (a : ConnectorAction T)
  | connect (r : Attempt)
  | disconnect
  | stop
  | enableRetry
  /-- another thread in `connect`: `connect_ = true` -/
  | storeConnect (t : T)
  | storeDisconnect (t : T)
  | storeStop (t : T)
  | storeRetry (t : T)
  /-- another thread comes to the call of the connector -/
  | callConnector (t : T)
  | handleClose (conn : Nat)
  /-- `handleClose` calls `closeCallback_` -/
  | closeCallback (conn : Nat) (r : Attempt)

namespace ClientLoop

variable {T : Type*}

/-- `TcpClient(loop, serverAddr, nameArg)`. -/
def start (loop : EventLoop T (Option ConnectorFunctor)) (poller : EPollPoller) : ClientLoop T where
  base := ConnectorLoop.start loop poller
  client := { retry_ := false, connect_ := true, connection_ := none }
  created := 0
  conns := fun _ => none
  callers := fun _ => none
  ups := []

/-- The connection has come up and is not closed yet. -/
def IsOpen (s : ClientLoop T) (conn : Nat) : Prop :=
  s.conns conn = some .up ∨ s.conns conn = some .down

instance (s : ClientLoop T) (conn : Nat) : Decidable (s.IsOpen conn) :=
  inferInstanceAs (Decidable (_ ∨ _))

def setConnect (s : ClientLoop T) (b : Bool) : ClientLoop T :=
  { s with client := { s.client with connect_ := b } }

/-- The connection takes the socket; `connectEstablished` calls `connectionCallback_`. -/
def newConnection (s : ClientLoop T) : ClientLoop T :=
  { s with
    client := { s.client with connection_ := some s.created }
    created := s.created + 1
    conns := Function.update s.conns s.created (some .up)
    ups := s.ups ++ [s.created] }

/-- The calls of `newConnectionCallback_` in a step of the connector. -/
def deliver (s : ClientLoop T) (es : List ConnectorEffect) : ClientLoop T :=
  (es.filterMap ConnectorEffect.delivers).foldl (fun s _ => s.newConnection) s

/-- `TcpConnection::handleClose`, before `closeCallback_`. -/
def handleClose (s : ClientLoop T) (conn : Nat) : ClientLoop T :=
  { s with
    conns := Function.update s.conns conn
      (some (if s.conns conn = some .closed then .closed else .down)) }

/-- What the loop and the connector do by themselves. -/
def ownStep : ConnectorAction T → Bool
  | .start _ | .stop | .restart _ | .storeStart _ | .storeStop _ => false
  | _ => true

/-- The thread is in no call. -/
def isFree (s : ClientLoop T) (t : T) : Bool :=
  (s.callers t).isNone && (s.base.calls t).isNone && s.base.loop.caller t == .idle

/-! ## Deliveries -/

theorem deliver_of_countP {s : ClientLoop T} {es : List ConnectorEffect}
    (h : es.countP ConnectorEffect.isNewConnection = 0) : s.deliver es = s := by
  rw [← ConnectorEffect.length_filterMap_delivers, List.length_eq_zero_iff] at h
  rw [deliver, h]
  rfl

theorem deliver_of_countP_one {s : ClientLoop T} {es : List ConnectorEffect}
    (h : es.countP ConnectorEffect.isNewConnection = 1) : s.deliver es = s.newConnection := by
  rw [← ConnectorEffect.length_filterMap_delivers, List.length_eq_one_iff] at h
  obtain ⟨sockfd, h⟩ := h
  rw [deliver, h]
  rfl

theorem deliver_base (s : ClientLoop T) (es : List ConnectorEffect) : (s.deliver es).base = s.base := by
  unfold deliver
  generalize es.filterMap ConnectorEffect.delivers = sockets
  induction sockets generalizing s with
  | nil => rfl
  | cons sockfd sockets ih => exact ih s.newConnection

/-! ## The numbers of connections -/

/-- Connections are numbered in the order in which they are made. -/
def Numbered (c : ClientLoop T) : Prop := ∀ conn, c.conns conn = none ↔ c.created ≤ conn

theorem Numbered.update {c c' : ClientLoop T} (h : Numbered c) {conn : Nat} (hlt : conn < c.created)
    (status : ClientConnection) (hconns : c'.conns = Function.update c.conns conn (some status))
    (hcreated : c'.created = c.created) : Numbered c' := by
  intro conn'
  rw [hconns, hcreated]
  by_cases hconn : conn' = conn
  · subst hconn
    rw [Function.update_self]
    constructor
    · intro hnone
      cases hnone
    · intro hge
      omega
  · rw [Function.update_of_ne hconn]
    exact h conn'

/-- `handleClose` opens and closes nothing: it is `closeCallback_` that closes. -/
theorem Numbered.isOpen_handleClose {c : ClientLoop T} (h : Numbered c) {conn : Nat}
    (hlt : conn < c.created) (conn' : Nat) : (c.handleClose conn).IsOpen conn' ↔ c.IsOpen conn' := by
  unfold IsOpen ClientLoop.handleClose
  by_cases hconn : conn' = conn
  · subst hconn
    have hsome : c.conns conn' ≠ none := by
      rw [ne_eq, h conn']
      omega
    simp only [Function.update_self]
    cases hstatus : c.conns conn' with
    | none => exact absurd hstatus hsome
    | some status => cases status <;> simp
  · simp only [Function.update_of_ne hconn]

theorem Numbered.newConnection {c : ClientLoop T} (h : Numbered c) : Numbered c.newConnection := by
  intro conn
  have hconn := h conn
  show Function.update c.conns c.created (some .up) conn = none ↔ c.created + 1 ≤ conn
  by_cases heq : conn = c.created
  · simp [heq]
  · rw [Function.update_of_ne heq, hconn]
    omega

theorem Numbered.deliver {c : ClientLoop T} (h : Numbered c) (es : List ConnectorEffect) :
    Numbered (c.deliver es) := by
  unfold ClientLoop.deliver
  generalize es.filterMap ConnectorEffect.delivers = sockets
  induction sockets generalizing c with
  | nil => exact h
  | cons sockfd sockets ih => exact ih h.newConnection

/-! ## Steps -/

variable [DecidableEq T]

/-- Without the restart.  `connectDestroyed` is queued. -/
def dropConnection (s : ClientLoop T) (conn : Nat) : ClientLoop T :=
  { s with
    base := { s.base with loop := s.base.loop.next (.loopQueueInLoop none) }
    client := { s.client with connection_ := none }
    conns := Function.update s.conns conn (some .closed) }

def removeConnection (s : ClientLoop T) (conn : Nat) (r : Attempt) : Option (ClientLoop T) :=
  let s := s.dropConnection conn
  if s.client.retry_ && s.client.connect_ then
    (s.base.step (.restart r)).map fun base => { s with base }
  else some s

def step (s : ClientLoop T) : ClientAction T → Option (ClientLoop T)
  | .base a =>
    if ownStep a then
      (s.base.step a).map fun base => { s with base }.deliver (s.base.effects a)
    else none
  | .connect r => (s.base.step (.start r)).map fun base => { s with base }.setConnect true
  | .disconnect => if s.base.loop.pc.runsUserCode then some (s.setConnect false) else none
  | .stop => (s.base.step .stop).map fun base => { s with base }.setConnect false
  | .enableRetry =>
    if s.base.loop.pc.runsUserCode then
      some { s with client := { s.client with retry_ := true } }
    else none
  | .storeConnect t =>
    if s.isFree t then
      some { s.setConnect true with callers := Function.update s.callers t (some .start) }
    else none
  | .storeDisconnect t => if s.isFree t then some (s.setConnect false) else none
  | .storeStop t =>
    if s.isFree t then
      some { s.setConnect false with callers := Function.update s.callers t (some .stop) }
    else none
  | .storeRetry t =>
    if s.isFree t then some { s with client := { s.client with retry_ := true } } else none
  | .callConnector t =>
    match s.callers t with
    | none => none
    | some .start => (s.base.step (.storeStart t)).map fun base =>
        { s with base, callers := Function.update s.callers t none }
    | some .stop => (s.base.step (.storeStop t)).map fun base =>
        { s with base, callers := Function.update s.callers t none }
  | .handleClose conn =>
    if s.base.loop.pc.runsUserCode && decide (conn < s.created) then
      some (s.handleClose conn)
    else none
  | .closeCallback conn r =>
    if s.base.loop.pc.runsUserCode && decide (conn < s.created) &&
        (s.conns conn != some .up) then
      s.removeConnection conn r
    else none

/-- What each action requires, and the state it leads to. -/
inductive Moves (s : ClientLoop T) : ClientAction T → ClientLoop T → Prop
  | base {b base} (hown : ownStep b = true) (hbase : s.base.step b = some base) :
      Moves s (.base b) ({ s with base }.deliver (s.base.effects b))
  | connect {r base} (hbase : s.base.step (.start r) = some base) :
      Moves s (.connect r) ({ s with base }.setConnect true)
  | stop {base} (hbase : s.base.step .stop = some base) :
      Moves s .stop ({ s with base }.setConnect false)
  | disconnect : Moves s .disconnect (s.setConnect false)
  | enableRetry : Moves s .enableRetry { s with client := { s.client with retry_ := true } }
  | storeConnect {t} :
      Moves s (.storeConnect t)
        { s.setConnect true with callers := Function.update s.callers t (some .start) }
  | storeDisconnect {t} : Moves s (.storeDisconnect t) (s.setConnect false)
  | storeStop {t} :
      Moves s (.storeStop t)
        { s.setConnect false with callers := Function.update s.callers t (some .stop) }
  | storeRetry {t} : Moves s (.storeRetry t) { s with client := { s.client with retry_ := true } }
  | callStart {t base} (hcall : s.callers t = some .start)
      (hbase : s.base.step (.storeStart t) = some base) :
      Moves s (.callConnector t) { s with base, callers := Function.update s.callers t none }
  | callStop {t base} (hcall : s.callers t = some .stop)
      (hbase : s.base.step (.storeStop t) = some base) :
      Moves s (.callConnector t) { s with base, callers := Function.update s.callers t none }
  | handleClose {conn} (hlt : conn < s.created) : Moves s (.handleClose conn) (s.handleClose conn)
  | closeCallback {conn r} (hlt : conn < s.created) (hup : s.conns conn ≠ some .up) :
      Moves s (.closeCallback conn r) (s.dropConnection conn)
  | restart {conn r base} (hlt : conn < s.created) (hup : s.conns conn ≠ some .up)
      (hretry : s.client.retry_ = true ∧ s.client.connect_ = true)
      (hbase : (s.dropConnection conn).base.step (.restart r) = some base) :
      Moves s (.closeCallback conn r) { s.dropConnection conn with base }

/-- **What a step does.** -/
theorem moves_of_step {s s' : ClientLoop T} {a : ClientAction T} (h : s.step a = some s') :
    Moves s a s' := by
  cases a with
  | base b =>
    simp only [step, Option.ite_none_right_eq_some, Option.map_eq_some_iff] at h
    obtain ⟨hown, base, hbase, rfl⟩ := h
    exact .base hown hbase
  | connect r =>
    obtain ⟨base, hbase, rfl⟩ := Option.map_eq_some_iff.mp h
    exact .connect hbase
  | stop =>
    obtain ⟨base, hbase, rfl⟩ := Option.map_eq_some_iff.mp h
    exact .stop hbase
  | disconnect | enableRetry | storeConnect | storeDisconnect | storeStop | storeRetry =>
    simp only [step, Option.ite_none_right_eq_some, Option.some.injEq] at h
    obtain ⟨-, rfl⟩ := h
    constructor
  | callConnector t =>
    simp only [step] at h
    split at h
    · cases h
    · next hcall =>
      obtain ⟨base, hbase, rfl⟩ := Option.map_eq_some_iff.mp h
      exact .callStart hcall hbase
    · next hcall =>
      obtain ⟨base, hbase, rfl⟩ := Option.map_eq_some_iff.mp h
      exact .callStop hcall hbase
  | handleClose conn =>
    simp only [step, Option.ite_none_right_eq_some, Bool.and_eq_true, decide_eq_true_eq,
      Option.some.injEq] at h
    obtain ⟨⟨-, hlt⟩, rfl⟩ := h
    exact .handleClose hlt
  | closeCallback conn r =>
    simp only [step, Option.ite_none_right_eq_some, Bool.and_eq_true, decide_eq_true_eq,
      bne_iff_ne] at h
    obtain ⟨⟨⟨-, hlt⟩, hup⟩, h⟩ := h
    unfold removeConnection at h
    dsimp only at h
    split at h
    · next hretry =>
      obtain ⟨base, hbase, rfl⟩ := Option.map_eq_some_iff.mp h
      exact .restart hlt hup (Bool.and_eq_true_iff.mp hretry) hbase
    · cases h
      exact .closeCallback hlt hup

theorem dropConnection_consistent {s : ClientLoop T} (h : s.base.loop.Consistent) (conn : Nat) :
    (s.dropConnection conn).base.loop.Consistent := ⟨h.calling, h.batch⟩

/-- The attempt that a call from outside the client's own callbacks begins. -/
def attempt (s : ClientLoop T) : ClientAction T → Option Attempt
  | .base a => s.base.attempt a
  | .connect r => some r
  | _ => none

end ClientLoop
end Muduo
