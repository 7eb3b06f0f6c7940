import Muduo.ServerCallbacks
import Muduo.ClientCallbacks

/-!
# Callbacks that nobody has set

`TcpConnection` calls `connectionCallback_` and `messageCallback_` as `newConnection` has left them.  A
client's hold the default callbacks if the user sets none; a server's are empty.

    a client never calls an empty function object;
    a server never does   iff   the user has set its connection and its message callback
                                                                       (no_empty_callback_iff)
-/

namespace Muduo

open Transition

/-- In no run of any server with these callbacks is an empty function object called, whatever the other
threads. -/
def TcpServerCallbacks.NeverEmpty (k : TcpServerCallbacks) : Prop :=
  ∀ (T : Type) [DecidableEq T] (numThreads fd : Nat) (as : List (LoopsAction T)),
    AllSteps k.step k.CallsSet (ServerLoops.init numThreads fd) as

/-- The same of a client, on a loop in any state. -/
def TcpClientCallbacks.NeverEmpty (k : TcpClientCallbacks) : Prop :=
  ∀ (T : Type) [DecidableEq T] (loop : EventLoop T (Option ConnectorFunctor)) (poller : EPollPoller)
    (as : List (ConnectionsAction T)),
    AllSteps k.step k.CallsSet (ClientConnections.start loop poller) as

/-- A server without a pool accepts a connection. -/
def arrival : List (LoopsAction Unit) :=
  [.start (.loop 0), .enterLoop 0, .loop 0 .resetQuit, .loop 0 .testQuit, .poll 0 false [.acceptor],
    .accept 0 7 false false]

/-- The peer sends a byte. -/
def arrivalOfMessage : List (LoopsAction Unit) :=
  arrival ++
  [.loop 0 .beginFunctors, .loop 0 .swapFunctors, .loop 0 .endFunctors, .loop 0 .destroyFunctors,
    .loop 0 .testQuit, .poll 0 false [.conn ⟨0, 0⟩ EPOLLIN], .handleEvent 0,
    .callback 0 (.data [1]) (.count 0)]

namespace TcpServerCallbacks

theorem not_callsSet_arrival (message writeComplete : Bool) :
    ¬ AllSteps (new.set ⟨false, message, writeComplete⟩).step (new.set ⟨false, message, writeComplete⟩).CallsSet
      (ServerLoops.init 0 3) arrival := by
  revert message writeComplete
  decide +kernel

theorem not_callsSet_arrivalOfMessage (connection writeComplete : Bool) :
    ¬ AllSteps (new.set ⟨connection, false, writeComplete⟩).step
      (new.set ⟨connection, false, writeComplete⟩).CallsSet (ServerLoops.init 0 3) arrivalOfMessage := by
  revert connection writeComplete
  decide +kernel

end TcpServerCallbacks

/-- **Callbacks that nobody has set.**  Whichever of the three callbacks the user has set before `start()`
or `connect()`: no step of a client and its connections calls an empty function object, and no step of a
server and its connections does, in any run, iff the connection and the message callback are among them.
A channel calls none of its slots when it is empty. -/
theorem no_empty_callback_iff (u : UserCallbacks) :
    ((TcpServerCallbacks.new.set u).NeverEmpty ↔ u.connection = true ∧ u.message = true) ∧
      (TcpClientCallbacks.new.set u).NeverEmpty ∧
      ∀ (ch : ChannelCallbacks) (revents : EventMask), none ∉ ch.handleEventWithGuard revents := by
  refine ⟨⟨?_, ?_⟩, ?_, ChannelCallbacks.none_notMem_handleEventWithGuard⟩
  · obtain ⟨connection, message, writeComplete⟩ := u
    intro hnever
    cases connection with
    | false =>
      exact absurd (hnever Unit 0 3 arrival)
        (TcpServerCallbacks.not_callsSet_arrival message writeComplete)
    | true =>
      cases message with
      | false =>
        exact absurd (hnever Unit 0 3 arrivalOfMessage)
          (TcpServerCallbacks.not_callsSet_arrivalOfMessage true writeComplete)
      | true => exact ⟨rfl, rfl⟩
  · intro hset T _ numThreads fd as
    exact TcpServerCallbacks.callsSet_run ((TcpServerCallbacks.complete_newConnection u).mpr hset)
      numThreads fd as
  · intro T _ loop poller as
    exact TcpClientCallbacks.callsSet_run (TcpClientCallbacks.complete_newConnection u)
      (Option.some_ne_none _) loop poller as

/-- A server without a connection callback calls the empty one for the first connection that it accepts,
and one without a message callback for the first byte that it reads. -/
theorem server_calls_unset :
    (∃ s, run (TcpServerCallbacks.new.set ⟨false, true, true⟩).step (ServerLoops.init 0 3)
        arrival.dropLast = some s ∧
      ¬ (TcpServerCallbacks.new.set ⟨false, true, true⟩).CallsSet s (.accept 0 7 false false)) ∧
      ∃ s, run (TcpServerCallbacks.new.set ⟨true, false, true⟩).step (ServerLoops.init 0 3)
          arrivalOfMessage.dropLast = some s ∧
        ¬ (TcpServerCallbacks.new.set ⟨true, false, true⟩).CallsSet s
          (.callback 0 (.data [1]) (.count 0)) :=
  ⟨exists_run_decide (by decide +kernel), exists_run_decide (by decide +kernel)⟩

end Muduo
