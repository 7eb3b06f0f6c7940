import Muduo.Connector
import Muduo.EventLoop
import Muduo.Lib.Ledger

/-!
# A connector on its loop

`Connector` and `EventLoop` together: `start`, `stop` and `restart` on the loop thread, `start` and
`stop` on any number of other threads `T`, the functors bound to the connector, the events of its
channel, and the timers of `retry`.

* A functor is `none` when it belongs to another object.
* `sockets`: every socket `connect` has created, and the `::close` and the `newConnectionCallback_`
  that were called on it.
* On another thread the store to `connect_` and the push are two steps.  On the loop thread a call
  is one step: a store between two reads of `connect_` in it matters only to whether `retry` adds a
  timer, and a timer may also never expire.
-/

namespace Muduo

open Transition

/-- What has been done with a socket. -/
inductive SocketOutcome
  | closed
  /-- passed to `newConnectionCallback_` -/
  | handed
deriving DecidableEq, Repr

namespace ConnectorEffect

def functor : ConnectorEffect → Option ConnectorFunctor
  | .queueInLoop f => some f
  | _ => none

/-- What an effect does with the sockets. -/
def account (l : Ledger Nat SocketOutcome) : ConnectorEffect → Ledger Nat SocketOutcome
  | .createNonblocking sockfd => l.acquire sockfd
  | .close sockfd => l.settle sockfd .closed
  | .newConnectionCallback sockfd => l.settle sockfd .handed
  | .queueInLoop _ | .runAfter => l

end ConnectorEffect

structure ConnectorLoop (T : Type*) where
  loop : EventLoop T (Option ConnectorFunctor)
  conn : Connector
  /-- the timers of `retry` that have not expired -/
  timers : Nat
  /-- what a thread in `start` or `stop` still has to push -/
  calls : T → Option ConnectorFunctor
  sockets : Ledger Nat SocketOutcome

inductive ConnectorAction (T : Type*)
  /-- a step of the loop or of a thread that does not concern the connector -/
  | loop (a : LoopAction T (Option ConnectorFunctor))
  | callFunctor (r : Attempt)
  | start (r : Attempt)
  | stop
  | restart (r : Attempt)
  /-- a timer of `retry` expires -/
  | timer (r : Attempt)
  | handleWriter (err : Option Errno) (selfConnect : Bool)
  | handleError
  /-- another thread in `start`: `connect_ = true` -/
  | storeStart (t : T)
  /-- another thread in `stop`: `connect_ = false` -/
  | storeStop (t : T)
  | push (t : T)
  /-- other channels of the loop change the poller -/
  | otherChannels (poller : EPollPoller)

namespace Connector

def callFunctor (c : Connector) (r : Attempt) : ConnectorFunctor → Result
  | .startInLoop => c.startInLoop r
  | .stopInLoop => c.stopInLoop
  | .resetChannel => some (c.resetChannel, [])

/-- Other channels leave the entries of a registered `channel_` alone. -/
def keepsChannel (c : Connector) (poller : EPollPoller) : Bool :=
  match c.channel with
  | none => true
  | some ch => ch.index != .kAdded ||
      (poller.interest ch.fd == c.poller.interest ch.fd &&
        poller.channels ch.fd == c.poller.channels ch.fd)

end Connector

namespace ConnectorLoop

variable {T : Type*} [DecidableEq T]

/-- A new connector, on a loop in any state. -/
def start (loop : EventLoop T (Option ConnectorFunctor)) (poller : EPollPoller) : ConnectorLoop T where
  loop := loop
  conn := Connector.new poller
  timers := 0
  calls := fun _ => none
  sockets := .empty

/-- Carry out a call on the connector. -/
def perform (s : ConnectorLoop T) (r : Connector.Result) : Option (ConnectorLoop T) :=
  r.map fun (conn, es) =>
    { s with
      conn
      loop := (es.filterMap ConnectorEffect.functor).foldl
        (fun loop f => loop.next (.loopQueueInLoop (some f))) s.loop
      timers := s.timers + es.count .runAfter
      sockets := es.foldl ConnectorEffect.account s.sockets }

/-- The kernel gives out a number that no open descriptor has; nobody watches it. -/
def mayAttempt (s : ConnectorLoop T) (r : Attempt) : Bool :=
  s.sockets.free r.sockfd && (s.conn.poller.interest r.sockfd).isNone

def mayTake (s : ConnectorLoop T) (a : LoopAction T (Option ConnectorFunctor)) : Bool :=
  match a with
  | .callFunctor => false
  | .loopQueueInLoop f => f.isNone
  | .queueInLoop t f => f.isNone && (s.calls t).isNone
  | .quit t => (s.calls t).isNone
  | _ => true

def runTask (s : ConnectorLoop T) (task : Option ConnectorFunctor) (r : Attempt) :
    Option (ConnectorLoop T) :=
  match task with
  | none => some s
  | some f => s.perform (s.conn.callFunctor r f)

def step (s : ConnectorLoop T) : ConnectorAction T → Option (ConnectorLoop T)
  | .loop a => if s.mayTake a then (s.loop.step a).map fun loop => { s with loop } else none
  | .callFunctor r =>
    match s.loop.functors with
    | [] => none
    | task :: _ =>
      if s.mayAttempt r then
        (s.loop.step .callFunctor).bind fun loop => { s with loop }.runTask task r
      else none
  | .start r =>
    if s.loop.pc.runsUserCode && s.mayAttempt r then s.perform (s.conn.start true r) else none
  | .stop => if s.loop.pc.runsUserCode then s.perform s.conn.stop else none
  | .restart r =>
    if s.loop.pc.runsUserCode && s.mayAttempt r then s.perform (s.conn.restart r) else none
  | .timer r =>
    if s.loop.pc == .handling && s.mayAttempt r && decide (0 < s.timers) then
      { s with timers := s.timers - 1 }.perform (s.conn.startInLoop r)
    else none
  | .handleWriter err selfConnect =>
    if s.loop.pc == .handling then s.perform (s.conn.handleWriter err selfConnect) else none
  | .handleError => if s.loop.pc == .handling then s.perform s.conn.handleError else none
  | .storeStart t =>
    if s.calls t = none ∧ s.loop.caller t = .idle then
      some { s with
        conn := { s.conn with connect_ := true }
        calls := Function.update s.calls t (some .startInLoop) }
    else none
  | .storeStop t =>
    if s.calls t = none ∧ s.loop.caller t = .idle then
      some { s with
        conn := { s.conn with connect_ := false }
        calls := Function.update s.calls t (some .stopInLoop) }
    else none
  | .push t =>
    match s.calls t with
    | none => none
    | some f => (s.loop.step (.queueInLoop t (some f))).map fun loop =>
        { s with loop, calls := Function.update s.calls t none }
  | .otherChannels poller =>
    if s.conn.keepsChannel poller then some { s with conn := { s.conn with poller } } else none

theorem perform_eq_some {s s' : ConnectorLoop T} {r : Connector.Result} (h : s.perform r = some s') :
    ∃ conn es, r = some (conn, es) ∧ s'.conn = conn ∧
      s'.sockets = es.foldl ConnectorEffect.account s.sockets := by
  obtain ⟨⟨conn, es⟩, hr, rfl⟩ := Option.map_eq_some_iff.mp h
  exact ⟨conn, es, hr, rfl, rfl⟩

end ConnectorLoop
end Muduo
