import Muduo.CallbackSlots
import Muduo.ClientTeardown

/-!
# The callbacks of a client

`ClientTeardown` with the connections as objects and the callback slots of each.  A function of a
connection may run at any time after the connection is made, on any result of the system calls and with
any poller; what the client sees of it, `handleClose`, is a step of the client as well.

* `callbacks`: the slots of a connection, copied by `newConnection`; `~TcpClient` replaces
  `closeCallback_`, at once or by a functor.
* `bound`: the function objects bound in functors that wait in the loop.
* `called`: the function objects that a step calls.

    no step calls an empty function object, whatever the user has set              (callsSet_run)
-/

namespace Muduo

open Transition

/-- Calls that are not made by themselves: `newConnection` calls `connectEstablished`, and a notification
is a function object that has been bound. -/
def ConnCall.isElsewhere : ConnCall → Bool
  | .functor .connectEstablished _ | .functor .writeComplete _ | .functor (.highWaterMark _) _ => true
  | _ => false

/-- The client's view of `handleClose`. -/
def TeardownAction.isHandleClose {T : Type*} : TeardownAction T → Bool
  | .base (.handleClose _) => true
  | _ => false

structure ClientConnections (T : Type*) where
  base : ClientTeardown T
  conns : Nat → TcpConnection
  callbacks : Nat → TcpConnectionCallbacks
  bound : List StdFunction

inductive ConnectionsAction (T : Type*)
  /-- a step of the client, its connector and the loop; the rest is for the connection made in it -/
  | base (a : TeardownAction T) (poller : EPollPoller) (addr sockfd : Nat)
  /-- a function of the connection runs, after other channels may have changed the poller -/
  | call (conn : Nat) (call : ConnCall) (poller : EPollPoller)
  /-- a functor with a bound function object runs -/
  | notify

namespace ClientConnections

variable {T : Type*}

/-- `TcpClient(loop, serverAddr, nameArg)`, without a connection. -/
def start (loop : EventLoop T (Option ConnectorFunctor)) (poller : EPollPoller) :
    ClientConnections T where
  base := ClientTeardown.start loop poller
  conns := fun _ => TcpConnection.new poller 0 0 false false
  callbacks := fun _ => TcpConnectionCallbacks.new
  bound := []

/-- The number of connections made. -/
def created (s : ClientConnections T) : Nat := s.base.base.created

/-- The slots after a step of the client, which may have called `setCloseCallback`. -/
def rebound (s : ClientConnections T) (base : ClientTeardown T) (conn : Nat) : TcpConnectionCallbacks :=
  if base.detached conn && !s.base.detached conn then
    { s.callbacks conn with closeCallback := some .detailRemoveConnection }
  else s.callbacks conn

end ClientConnections

/-! ## Steps -/

namespace TcpClientCallbacks

variable {T : Type*} (k : TcpClientCallbacks)

/-- `newConnection`: the connection is made and established. -/
def established (poller : EPollPoller) (addr sockfd : Nat) : TcpConnection.Result :=
  (TcpConnection.new poller addr sockfd k.newConnection.writeCompleteCallback.isSome
    k.newConnection.highWaterMarkCallback.isSome).connectEstablished

/-- The client has gone on to `base`, and `c` is the connection made in the step. -/
def advance (s : ClientConnections T) (base : ClientTeardown T) (c : TcpConnection) :
    ClientConnections T :=
  let isNew (conn : Nat) : Bool := s.created ≤ conn && conn < base.base.created
  { s with
    base
    conns := fun conn => if isNew conn then c else s.conns conn
    callbacks := fun conn => if isNew conn then k.newConnection else s.rebound base conn }

variable [DecidableEq T]

def step (s : ClientConnections T) : ConnectionsAction T → Option (ClientConnections T)
  | .base a poller addr sockfd =>
    if a.isHandleClose then none
    else (s.base.step a).bind fun base =>
      if base.base.created = s.created then some { s with base, callbacks := s.rebound base }
      else (k.established poller addr sockfd).map fun r => k.advance s base r.1
  | .call conn call poller =>
    if conn < s.created && !call.isElsewhere then
      (({ s.conns conn with poller } : TcpConnection).exec call).bind fun (c, es) =>
        (if es.contains .closeCallback then s.base.step (.base (.handleClose conn))
          else some s.base).map fun base =>
          { s with
            base
            conns := Function.update s.conns conn c
            bound := s.bound ++ es.flatMap (s.callbacks conn).queues }
    else none
  | .notify =>
    match s.bound with
    | [] => none
    | _ :: bound => some { s with bound }

/-- The function objects that a step calls by itself. -/
def clientCalls (s : ClientConnections T) : TeardownAction T → List StdFunction
  | .base (.closeCallback conn _) | .removeConnection conn => [(s.callbacks conn).closeCallback]
  | .handleEvent _ error write =>
    (if error then ChannelCallbacks.connector.errorCallback.guarded else []) ++
      if write.isSome then ChannelCallbacks.connector.writeCallback.guarded else []
  | _ => []

/-- The connector calls `newConnectionCallback_`, and the client `connectEstablished`. -/
def newConnectionCalls (poller : EPollPoller) (addr sockfd : Nat) : List StdFunction :=
  k.newConnectionCallback :: k.newConnection.callsIn (k.established poller addr sockfd)

/-- The function objects that a step calls. -/
def called (s : ClientConnections T) : ConnectionsAction T → List StdFunction
  | .base a poller addr sockfd =>
    clientCalls s a ++
      if (s.base.step a).any fun base => base.base.created != s.created then
        k.newConnectionCalls poller addr sockfd
      else []
  | .call conn call poller => (s.callbacks conn).calls { s.conns conn with poller } call
  | .notify => s.bound.take 1

/-- The step calls no empty function object. -/
def CallsSet (s : ClientConnections T) (a : ConnectionsAction T) : Prop :=
  (k.step s a).isSome = true → none ∉ k.called s a

end TcpClientCallbacks

/-! ## The invariant -/

namespace ClientConnections

/-- The connections made have the slots that are not tested, their tests succeed for set slots only, and
no empty function object has been bound. -/
structure Bound {T : Type*} (s : ClientConnections T) : Prop where
  complete : ∀ conn < s.created, (s.callbacks conn).Complete
  guards : ∀ conn < s.created, (s.callbacks conn).Guards (s.conns conn)
  bound : none ∉ s.bound

variable {T : Type*} {s : ClientConnections T}

theorem bound_start (loop : EventLoop T (Option ConnectorFunctor)) (poller : EPollPoller) :
    Bound (start loop poller) where
  complete _ h := absurd h (Nat.not_lt_zero _)
  guards _ h := absurd h (Nat.not_lt_zero _)
  bound := List.not_mem_nil

/-- `setCloseCallback` sets the slot. -/
theorem complete_rebound {conn : Nat} (h : (s.callbacks conn).Complete) (base : ClientTeardown T) :
    (s.rebound base conn).Complete := by
  unfold rebound
  split
  · exact ⟨h.connection, h.message, Option.some_ne_none _⟩
  · exact h

theorem guards_rebound {conn : Nat} {c : TcpConnection} (h : (s.callbacks conn).Guards c)
    (base : ClientTeardown T) : (s.rebound base conn).Guards c := by
  unfold rebound
  split
  · exact ⟨h.writeComplete, h.highWaterMark⟩
  · exact h

end ClientConnections

namespace TcpClientCallbacks

open ClientConnections

variable {T : Type*} {k : TcpClientCallbacks} {s s' : ClientConnections T}

theorem bound_advance (hk : k.newConnection.Complete) (h : Bound s) {base : ClientTeardown T}
    {c : TcpConnection} (hc : k.newConnection.Guards c) : Bound (k.advance s base c) := by
  -- a connection that has been made is new or was made before
  have hold : ∀ conn, conn < base.base.created → ¬ (s.created ≤ conn && conn < base.base.created) = true →
      conn < s.created := by
    intro conn hlt hnot
    simp only [Bool.and_eq_true, decide_eq_true_eq, not_and] at hnot
    by_contra hge
    exact hnot (by omega) hlt
  refine ⟨fun conn hlt => ?_, fun conn hlt => ?_, h.bound⟩
  · simp only [advance]
    split
    · exact hk
    · next hnot => exact complete_rebound (h.complete conn (hold conn hlt hnot)) base
  · simp only [advance]
    split
    · exact hc
    · next hnot => exact guards_rebound (h.guards conn (hold conn hlt hnot)) base

variable [DecidableEq T]

/-- `handleClose` makes no connection. -/
theorem created_handleClose {t t' : ClientTeardown T} {conn : Nat}
    (h : t.step (.base (.handleClose conn)) = some t') : t'.base.created = t.base.created := by
  simp only [ClientTeardown.step, Option.ite_none_right_eq_some] at h
  obtain ⟨base, hbase, rfl⟩ := Option.map_eq_some_iff.mp h.2
  cases ClientLoop.moves_of_step hbase with
  | handleClose => rfl

/-- **One step** of the client or of a connection. -/
theorem bound_step (hk : k.newConnection.Complete) (s : ClientConnections T) (a : ConnectionsAction T)
    (s' : ClientConnections T) (h : Bound s) (hs : k.step s a = some s') : Bound s' := by
  cases a with
  | base a poller addr sockfd =>
    simp only [step] at hs
    split at hs
    · cases hs
    · obtain ⟨base, -, hs⟩ := Option.bind_eq_some_iff.mp hs
      split at hs
      · next hcreated =>
        cases hs
        have hlt : ∀ conn, conn < base.base.created → conn < s.created := fun _ hconn =>
          hcreated ▸ hconn
        exact ⟨fun conn hconn => complete_rebound (h.complete conn (hlt conn hconn)) base,
          fun conn hconn => guards_rebound (h.guards conn (hlt conn hconn)) base, h.bound⟩
      · obtain ⟨⟨c, es⟩, hestablished, rfl⟩ := Option.map_eq_some_iff.mp hs
        apply bound_advance hk h
        exact (k.newConnection.guards_new poller addr sockfd).of_settings
          (TcpConnection.settings_connectEstablished hestablished)
  | call conn call poller =>
    simp only [step, Option.ite_none_right_eq_some, Bool.and_eq_true, decide_eq_true_eq] at hs
    obtain ⟨⟨hlt, -⟩, hs⟩ := hs
    obtain ⟨⟨c, es⟩, hexec, hs⟩ := Option.bind_eq_some_iff.mp hs
    obtain ⟨base, hbase, rfl⟩ := Option.map_eq_some_iff.mp hs
    have hown : (s.callbacks conn).Guards { s.conns conn with poller } :=
      (h.guards conn hlt).of_settings rfl
    obtain ⟨hguards, hqueues⟩ := hown.exec hexec
    have hcreated : base.base.created = s.created := by
      split at hbase
      · exact created_handleClose hbase
      · cases hbase
        rfl
    refine ⟨fun conn' hconn' => h.complete conn' (hcreated ▸ hconn'), fun conn' hconn' => ?_, ?_⟩
    · show (s.callbacks conn').Guards (Function.update s.conns conn c conn')
      by_cases heq : conn' = conn
      · subst heq
        rw [Function.update_self]
        exact hguards
      · rw [Function.update_of_ne heq]
        exact h.guards conn' (hcreated ▸ hconn')
    · simp only [List.mem_append, List.mem_flatMap, not_or, not_exists, not_and]
      exact ⟨h.bound, hqueues⟩
  | notify =>
    simp only [step] at hs
    split at hs
    · cases hs
    · next hbound =>
      cases hs
      refine ⟨h.complete, h.guards, ?_⟩
      have hnone := h.bound
      rw [hbound] at hnone
      exact fun hmem => hnone (List.mem_cons_of_mem _ hmem)

/-- A client closes only connections it has made. -/
theorem none_notMem_clientCalls (h : Bound s) {a : TeardownAction T} (ha : (s.base.step a).isSome) :
    none ∉ clientCalls s a := by
  obtain ⟨t, ht⟩ := Option.isSome_iff_exists.mp ha
  cases a with
  | base a =>
    cases a with
    | closeCallback conn r =>
      simp only [ClientTeardown.step, Option.ite_none_right_eq_some] at ht
      obtain ⟨base, hbase, rfl⟩ := Option.map_eq_some_iff.mp ht.2
      have hlt : conn < s.created := by
        cases ClientLoop.moves_of_step hbase with
        | closeCallback hlt | restart hlt => exact hlt
      simpa [clientCalls] using Ne.symm (h.complete conn hlt).close
    | base | connect | disconnect | stop | enableRetry | storeConnect | storeDisconnect | storeStop
    | storeRetry | callConnector | handleClose => exact List.not_mem_nil
  | removeConnection conn =>
    simp only [ClientTeardown.step, Option.ite_none_right_eq_some, Bool.and_eq_true,
      decide_eq_true_eq] at ht
    have hlt : conn < s.created := ht.1.1.1.2
    simpa [clientCalls] using Ne.symm (h.complete conn hlt).close
  | handleEvent fd error write =>
    simp only [clientCalls, List.mem_append, not_or]
    constructor
    · split
      · exact StdFunction.none_notMem_guarded _
      · exact List.not_mem_nil
    · split
      · exact StdFunction.none_notMem_guarded _
      · exact List.not_mem_nil
  | callFunctor | timer | destroy | proceed => exact List.not_mem_nil

theorem none_notMem_called (hk : k.newConnection.Complete) (hnew : k.newConnectionCallback ≠ none)
    (h : Bound s) (a : ConnectionsAction T) : k.CallsSet s a := by
  intro hsome
  obtain ⟨s', hs⟩ := Option.isSome_iff_exists.mp hsome
  cases a with
  | base a poller addr sockfd =>
    simp only [step] at hs
    split at hs
    · cases hs
    · obtain ⟨base, hbase, -⟩ := Option.bind_eq_some_iff.mp hs
      simp only [called, List.mem_append, not_or]
      refine ⟨none_notMem_clientCalls h (by rw [hbase]; rfl), ?_⟩
      split
      · simp only [newConnectionCalls, List.mem_cons, not_or]
        exact ⟨Ne.symm hnew, hk.none_notMem_callsIn _⟩
      · exact List.not_mem_nil
  | call conn call poller =>
    simp only [step, Option.ite_none_right_eq_some, Bool.and_eq_true, decide_eq_true_eq,
      Bool.not_eq_true'] at hs
    obtain ⟨⟨hlt, helsewhere⟩, -⟩ := hs
    refine (h.complete conn hlt).none_notMem_calls _ ?_
    rintro f w rfl
    cases f with
    | connectEstablished | writeComplete | highWaterMark => cases helsewhere
    | connectDestroyed | sendInLoop | shutdownInLoop | forceCloseInLoop => exact List.not_mem_nil
  | notify => exact fun hmem => h.bound (List.mem_of_mem_take hmem)

/-- **A client**, once its connections have the slots that are not tested: in every run no step calls an
empty function object. -/
theorem callsSet_run (hk : k.newConnection.Complete) (hnew : k.newConnectionCallback ≠ none)
    (loop : EventLoop T (Option ConnectorFunctor)) (poller : EPollPoller)
    (as : List (ConnectionsAction T)) :
    AllSteps k.step k.CallsSet (ClientConnections.start loop poller) as :=
  allSteps_inv (fun _ a h => none_notMem_called hk hnew h a) (bound_step hk) (bound_start loop poller)

end TcpClientCallbacks
end Muduo
