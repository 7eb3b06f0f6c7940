import Muduo.EventLoop
import Muduo.TcpConnection

/-!
# A connection on its loop

`TcpConnection` and `EventLoop` together: the events the poller reports for the connection's
channel, the functors bound to the connection, and the calls of user code, on the loop thread and on
any number of other threads `T`.

* `Task`: a functor in the loop's queue, with the thread that pushed it.
* `UserCall`, `CallPc`: `send`, `shutdown` and `forceClose`; on another thread the test of `stat_`, the
  store and the push are three steps.
* `HistoryEntry`: what has happened so far.

The connection is alive throughout (somebody holds a `TcpConnectionPtr`), so the guard in
`Channel::handleEvent` always succeeds, and a string passed to `send` is unchanged until its functor
has run.
-/

namespace Muduo

open Transition

/-! ## Calls of user code -/

inductive UserCall
  | send (data : List UInt8)
  | shutdown
  | forceClose
deriving DecidableEq, Repr

namespace UserCall

/-- The test of `stat_` at the beginning. -/
def test : UserCall → StateE → Bool
  | .send _, stat | .shutdown, stat => stat == .kConnected
  | .forceClose, stat => stat == .kConnected || stat == .kDisconnecting

/-- Whether the call stores `kDisconnecting`. -/
def stores : UserCall → Bool
  | .send _ => false
  | .shutdown | .forceClose => true

/-- The functor it passes to the loop. -/
def functor : UserCall → ConnFunctor
  | .send data => .sendInLoop data
  | .shutdown => .shutdownInLoop
  | .forceClose => .forceCloseInLoop

end UserCall

/-- Where another thread is in a call on the connection. -/
inductive CallPc
  | idle
  /-- before `setState(kDisconnecting)` -/
  | storing (c : UserCall)
  /-- before the push of the functor -/
  | pushing (c : UserCall)
deriving DecidableEq, Repr

namespace TcpConnection

/-- A call of user code on another thread than the loop's. -/
def callFromOutside (c : TcpConnection) : UserCall → Result
  | .send data => c.send false data (.count 0)
  | .shutdown => c.shutdown false
  | .forceClose => c.forceClose

/-- The test, the store and the push are what such a call does. -/
theorem callFromOutside_eq (c : TcpConnection) (call : UserCall) :
    c.callFromOutside call = if call.test c.stat then
      some (if call.stores then c.setState .kDisconnecting else c, [.queueInLoop call.functor])
    else some (c, []) := by
  cases call with
  | send data => simp [callFromOutside, send, UserCall.test, UserCall.stores, UserCall.functor]
  | shutdown => simp [callFromOutside, shutdown, UserCall.test, UserCall.stores, UserCall.functor]
  | forceClose => simp [callFromOutside, forceClose, UserCall.test, UserCall.stores, UserCall.functor]

/-- A call of user code on the loop thread. -/
def callInLoop (c : TcpConnection) (w : WriteResult) : UserCall → Result
  | .send data => c.send true data w
  | .shutdown => c.shutdown true
  | .forceClose => c.forceClose

/-- A functor called by the loop.  The callbacks of the user do nothing to the connection by
themselves. -/
def callFunctor (c : TcpConnection) (w : WriteResult) : ConnFunctor → Result
  | .connectEstablished => c.connectEstablished
  | .connectDestroyed => c.connectDestroyed
  | .sendInLoop data => c.sendInLoop data w
  | .shutdownInLoop => c.shutdownInLoop
  | .forceCloseInLoop => c.forceCloseInLoop
  | .writeComplete | .highWaterMark _ => some (c, [])

/-- A callback of the channel. -/
def callEvent (c : TcpConnection) (r : ReadvResult) (w : WriteResult) : EventCallback → Result
  | .close => c.handleClose
  | .error => c.handleError
  | .read => c.handleRead r
  | .write => c.handleWrite w

end TcpConnection

/-! ## The state -/

structure Task (T : Type*) where
  /-- the thread that pushed it, `none` for the loop thread -/
  source : Option T
  /-- `none` for a functor of another object -/
  functor : Option ConnFunctor

inductive HistoryEntry (T : Type*)
  /-- a call of `send(data)` has passed its test -/
  | called (source : Option T) (data : List UInt8)
  /-- a functor has been called, from the queue or at once by `runInLoop` -/
  | ran (source : Option T) (f : ConnFunctor)
  | did (e : Effect)
deriving DecidableEq

structure ConnectionLoop (T : Type*) where
  loop : EventLoop T (Task T)
  conn : TcpConnection
  /-- the channel is among the `activeChannels_` still to be handled -/
  active : Bool
  /-- the callbacks still to be called by `handleEventWithGuard` -/
  dispatch : List EventCallback
  /-- `newConnection` has passed `connectEstablished` to the loop -/
  created : Bool
  calls : T → CallPc
  history : List (HistoryEntry T)

inductive ConnectionAction (T : Type*)
  /-- a step of the loop or of a thread that does not concern the connection -/
  | loop (a : LoopAction T (Task T))
  /-- `epoll_wait` returns, with or without events of the connection's channel -/
  | poll (wakeupActive : Bool) (revents : Option EventMask)
  | handleEvent
  /-- the next callback of the channel -/
  | callback (r : ReadvResult) (w : WriteResult)
  | callFunctor (w : WriteResult)
  | userCall (c : UserCall) (w : WriteResult)
  | test (t : T) (c : UserCall)
  | store (t : T)
  | push (t : T)
  /-- other channels of the loop change the poller -/
  | otherChannels (poller : EPollPoller)
  /-- `newConnection`: `runInLoop(connectEstablished)` -/
  | establish (source : Option T)
  /-- `~TcpServer`: `runInLoop(connectDestroyed)` -/
  | destroy (source : Option T)
  /-- `removeConnectionInLoop`: `queueInLoop(connectDestroyed)` -/
  | remove (source : Option T)

/-- What a thread records once the test of its call has succeeded. -/
def UserCall.entries {T : Type*} (t : T) : UserCall → List (HistoryEntry T)
  | .send data => [.called (some t) data]
  | _ => []

/-! ## Steps -/

/-- The functors that effects of the loop thread push. -/
def queuedTasks (T : Type*) (es : List Effect) : List (Task T) :=
  es.filterMap fun
    | .queueInLoop f => some ⟨none, some f⟩
    | _ => none

namespace ConnectionLoop

variable {T : Type*} [DecidableEq T]

/-- A connection on a new loop. -/
def start (conn : TcpConnection) (created : Bool) : ConnectionLoop T where
  loop := EventLoop.new
  conn := conn
  active := false
  dispatch := []
  created := created
  calls := fun _ => .idle
  history := []

/-- The loop thread's `queueInLoop` of each effect that is one. -/
def post (loop : EventLoop T (Task T)) (es : List Effect) : EventLoop T (Task T) :=
  (queuedTasks T es).foldl (fun loop task => loop.next (.loopQueueInLoop task)) loop

/-- Carry out a call on the connection. -/
def perform (s : ConnectionLoop T) (r : TcpConnection.Result) : Option (ConnectionLoop T) :=
  r.map fun (conn, es) =>
    { s with conn, loop := post s.loop es, history := s.history ++ es.map .did }

def record (s : ConnectionLoop T) (entries : List (HistoryEntry T)) : ConnectionLoop T :=
  { s with history := s.history ++ entries }

/-- The loop thread calls a functor bound to the connection. -/
def runFunctor (s : ConnectionLoop T) (source : Option T) (f : ConnFunctor) (w : WriteResult) :
    Option (ConnectionLoop T) :=
  (s.record [.ran source f]).perform (s.conn.callFunctor w f)

def runTask (s : ConnectionLoop T) (task : Task T) (w : WriteResult) : Option (ConnectionLoop T) :=
  match task.functor with
  | none => some s
  | some f => s.runFunctor task.source f w

/-- `send` on the loop thread calls `sendInLoop` at once. -/
def callInLoop (s : ConnectionLoop T) (c : UserCall) (w : WriteResult) : Option (ConnectionLoop T) :=
  match c with
  | .send data =>
    if c.test s.conn.stat then
      (s.record [.called none data, .ran none (.sendInLoop data)]).perform (s.conn.callInLoop w c)
    else some s
  | .shutdown | .forceClose => s.perform (s.conn.callInLoop w c)

def queueInLoop (s : ConnectionLoop T) (source : Option T) (f : ConnFunctor) :
    Option (ConnectionLoop T) :=
  let task : Task T := ⟨source, some f⟩
  match source with
  | none => (s.loop.step (.loopQueueInLoop task)).map fun loop => { s with loop }
  | some t => (s.loop.step (.queueInLoop t task)).map fun loop => { s with loop }

/-- `runInLoop`; here `f` is not `sendInLoop`, so it does not write. -/
def runInLoop (s : ConnectionLoop T) (source : Option T) (f : ConnFunctor) :
    Option (ConnectionLoop T) :=
  match source with
  | none => if s.loop.pc.runsUserCode then s.runFunctor none f (.count 0) else none
  | some _ => s.queueInLoop source f

/-- The steps of the loop that are not steps of the connection.  The loop handles one channel after
the other, and all of them before the functors. -/
def mayTake (s : ConnectionLoop T) (a : LoopAction T (Task T)) : Bool :=
  match a with
  | .callFunctor | .pollReturns _ => false
  | .handleRead => s.dispatch.isEmpty
  | .beginFunctors => s.dispatch.isEmpty && !s.active
  | .loopQueueInLoop task => task.functor.isNone
  | .queueInLoop t task => task.functor.isNone && s.calls t == .idle
  | .quit t => s.calls t == .idle
  | _ => true

def step (s : ConnectionLoop T) : ConnectionAction T → Option (ConnectionLoop T)
  | .loop a => if s.mayTake a then (s.loop.step a).map fun loop => { s with loop } else none
  | .poll wakeupActive none =>
    (s.loop.step (.pollReturns wakeupActive)).map fun loop => { s with loop }
  -- the kernel reports a descriptor only while it watches it
  | .poll wakeupActive (some revents) =>
    if (s.conn.poller.interest s.conn.channel.fd).isSome then
      (s.loop.step (.pollReturns wakeupActive)).map fun loop =>
        { s with
          loop
          conn := { s.conn with channel := { s.conn.channel with revents } }
          active := true }
    else none
  | .handleEvent =>
    if s.active && s.loop.pc == .handling && s.dispatch.isEmpty then
      some { s with active := false, dispatch := eventCallbacks s.conn.channel.revents }
    else none
  | .callback r w =>
    match s.dispatch with
    | [] => none
    | cb :: rest => { s with dispatch := rest }.perform (s.conn.callEvent r w cb)
  | .callFunctor w =>
    match s.loop.functors with
    | [] => none
    | task :: _ => (s.loop.step .callFunctor).bind fun loop => { s with loop }.runTask task w
  | .userCall c w => if s.loop.pc.runsUserCode then s.callInLoop c w else none
  | .test t c =>
    if s.calls t = .idle ∧ s.loop.caller t = .idle then
      if c.test s.conn.stat then
        some { s with
          calls := Function.update s.calls t (if c.stores then .storing c else .pushing c)
          history := s.history ++
            match c with
            | .send data => [.called (some t) data]
            | _ => [] }
      else some s
    else none
  | .store t =>
    match s.calls t with
    | .storing c =>
      some { s with
        conn := s.conn.setState .kDisconnecting
        calls := Function.update s.calls t (.pushing c) }
    | _ => none
  | .push t =>
    match s.calls t with
    | .pushing c => { s with calls := Function.update s.calls t .idle }.queueInLoop (some t) c.functor
    | _ => none
  | .otherChannels poller =>
    if poller.interest s.conn.channel.fd = s.conn.poller.interest s.conn.channel.fd then
      some { s with conn := { s.conn with poller } }
    else none
  | .establish source =>
    if s.created then none else { s with created := true }.runInLoop source .connectEstablished
  -- a server on the loop thread has run `connectEstablished` at once
  | .destroy none =>
    if s.created && s.conn.stat != .kConnecting then s.runInLoop none .connectDestroyed else none
  | .destroy (some t) => if s.created then s.runInLoop (some t) .connectDestroyed else none
  | .remove source => if s.created then s.queueInLoop source .connectDestroyed else none

/-! ## What a step does -/

/-- What each action requires, and the state it leads to. -/
inductive Moves (s : ConnectionLoop T) : ConnectionAction T → ConnectionLoop T → Prop
  | loop {a loop} (hmay : s.mayTake a = true) (hloop : s.loop.step a = some loop) :
      Moves s (.loop a) { s with loop }
  | pollOther {wakeupActive loop} (hloop : s.loop.step (.pollReturns wakeupActive) = some loop) :
      Moves s (.poll wakeupActive none) { s with loop }
  | poll {wakeupActive revents loop}
      (hwatched : (s.conn.poller.interest s.conn.channel.fd).isSome = true)
      (hloop : s.loop.step (.pollReturns wakeupActive) = some loop) :
      Moves s (.poll wakeupActive (some revents)) { s with
        loop
        conn := { s.conn with channel := { s.conn.channel with revents } }
        active := true }
  | handleEvent (hactive : s.active = true) :
      Moves s .handleEvent { s with
        active := false
        dispatch := eventCallbacks s.conn.channel.revents }
  | callback {r w cb rest s'} (hdispatch : s.dispatch = cb :: rest)
      (hcall : { s with dispatch := rest }.perform (s.conn.callEvent r w cb) = some s') :
      Moves s (.callback r w) s'
  | callOther {w task rest loop} (hfunctors : s.loop.functors = task :: rest)
      (htask : task.functor = none) (hloop : s.loop.step .callFunctor = some loop) :
      Moves s (.callFunctor w) { s with loop }
  | callFunctor {w task f rest loop s'} (hfunctors : s.loop.functors = task :: rest)
      (htask : task.functor = some f) (hloop : s.loop.step .callFunctor = some loop)
      (hcall : ({ s with loop }.record [.ran task.source f]).perform (s.conn.callFunctor w f) = some s') :
      Moves s (.callFunctor w) s'
  | send {data w s'} (hstat : s.conn.stat = .kConnected)
      (hcall : (s.record [.called none data, .ran none (.sendInLoop data)]).perform
        (s.conn.sendInLoop data w) = some s') :
      Moves s (.userCall (.send data) w) s'
  | sendRefused {data w} (hstat : s.conn.stat ≠ .kConnected) : Moves s (.userCall (.send data) w) s
  | shutdown {w s'} (hcall : s.perform (s.conn.shutdown true) = some s') :
      Moves s (.userCall .shutdown w) s'
  | forceClose {w s'} (hcall : s.perform s.conn.forceClose = some s') :
      Moves s (.userCall .forceClose w) s'
  | testPassed {t c} (hidle : s.calls t = .idle) (htest : c.test s.conn.stat = true) :
      Moves s (.test t c) { s with
        calls := Function.update s.calls t (if c.stores then .storing c else .pushing c)
        history := s.history ++ c.entries t }
  | testFailed {t c} : Moves s (.test t c) s
  | store {t c} (hstoring : s.calls t = .storing c) :
      Moves s (.store t) { s with
        conn := s.conn.setState .kDisconnecting
        calls := Function.update s.calls t (.pushing c) }
  | push {t c s'} (hpushing : s.calls t = .pushing c)
      (hqueue : { s with calls := Function.update s.calls t .idle }.queueInLoop (some t) c.functor =
        some s') :
      Moves s (.push t) s'
  | otherChannels {poller}
      (hinterest : poller.interest s.conn.channel.fd = s.conn.poller.interest s.conn.channel.fd) :
      Moves s (.otherChannels poller) { s with conn := { s.conn with poller } }
  | establishNow {s'} (hcreated : s.created = false)
      (hcall : ({ s with created := true }.record [.ran none .connectEstablished]).perform
        s.conn.connectEstablished = some s') :
      Moves s (.establish none) s'
  | establish {t s'} (hcreated : s.created = false)
      (hqueue : { s with created := true }.queueInLoop (some t) .connectEstablished = some s') :
      Moves s (.establish (some t)) s'
  | destroyNow {s'} (hcreated : s.created = true) (hstat : s.conn.stat ≠ .kConnecting)
      (hcall : (s.record [.ran none .connectDestroyed]).perform s.conn.connectDestroyed = some s') :
      Moves s (.destroy none) s'
  | destroy {t s'} (hcreated : s.created = true)
      (hqueue : s.queueInLoop (some t) .connectDestroyed = some s') :
      Moves s (.destroy (some t)) s'
  | remove {source s'} (hcreated : s.created = true)
      (hqueue : s.queueInLoop source .connectDestroyed = some s') :
      Moves s (.remove source) s'

variable {s s' : ConnectionLoop T} {a : ConnectionAction T}

/-- **What a step does.** -/
theorem moves_of_step (h : s.step a = some s') : Moves s a s' := by
  cases a with
  | loop a =>
    simp only [step, Option.ite_none_right_eq_some, Option.map_eq_some_iff] at h
    obtain ⟨hmay, loop, hloop, rfl⟩ := h
    exact .loop hmay hloop
  | poll wakeupActive revents =>
    cases revents with
    | none =>
      obtain ⟨loop, hloop, rfl⟩ := Option.map_eq_some_iff.mp h
      exact .pollOther hloop
    | some revents =>
      simp only [step, Option.ite_none_right_eq_some, Option.map_eq_some_iff] at h
      obtain ⟨hwatched, loop, hloop, rfl⟩ := h
      exact .poll hwatched hloop
  | handleEvent =>
    simp only [step, Option.ite_none_right_eq_some, Option.some.injEq, Bool.and_eq_true] at h
    obtain ⟨⟨⟨hactive, -⟩, -⟩, rfl⟩ := h
    exact .handleEvent hactive
  | callback r w =>
    simp only [step] at h
    split at h
    · cases h
    · next hdispatch => exact .callback hdispatch h
  | callFunctor w =>
    simp only [step] at h
    split at h
    · cases h
    · next task rest hfunctors =>
      obtain ⟨loop, hloop, h⟩ := Option.bind_eq_some_iff.mp h
      unfold runTask at h
      split at h
      · next htask =>
        cases h
        exact .callOther hfunctors htask hloop
      · next htask => exact .callFunctor hfunctors htask hloop h
  | userCall c w =>
    simp only [step, Option.ite_none_right_eq_some] at h
    obtain ⟨-, h⟩ := h
    cases c with
    | send data =>
      simp only [callInLoop, UserCall.test, beq_iff_eq] at h
      split at h
      · next hstat =>
        simp only [TcpConnection.callInLoop, TcpConnection.send, if_pos hstat, if_true] at h
        exact .send hstat h
      · next hstat =>
        cases h
        exact .sendRefused hstat
    | shutdown => exact .shutdown h
    | forceClose => exact .forceClose h
  | test t c =>
    simp only [step, Option.ite_none_right_eq_some] at h
    obtain ⟨⟨hidle, -⟩, h⟩ := h
    split at h
    · next htest =>
      cases h
      exact .testPassed hidle htest
    · cases h
      exact .testFailed
  | store t =>
    simp only [step] at h
    split at h
    · next hstoring =>
      cases h
      exact .store hstoring
    · cases h
  | push t =>
    simp only [step] at h
    split at h
    · next hpushing => exact .push hpushing h
    · cases h
  | otherChannels poller =>
    simp only [step, Option.ite_none_right_eq_some, Option.some.injEq] at h
    obtain ⟨hinterest, rfl⟩ := h
    exact .otherChannels hinterest
  | establish source =>
    simp only [step, Option.ite_none_left_eq_some, Bool.not_eq_true] at h
    obtain ⟨hcreated, h⟩ := h
    cases source with
    | none =>
      simp only [runInLoop, Option.ite_none_right_eq_some] at h
      exact .establishNow hcreated h.2
    | some t => exact .establish hcreated h
  | destroy source =>
    cases source with
    | none =>
      simp only [step, runInLoop, Option.ite_none_right_eq_some, Bool.and_eq_true, bne_iff_ne] at h
      obtain ⟨⟨hcreated, hstat⟩, -, h⟩ := h
      exact .destroyNow hcreated hstat h
    | some t =>
      simp only [step, Option.ite_none_right_eq_some] at h
      exact .destroy h.1 h.2
  | remove source =>
    simp only [step, Option.ite_none_right_eq_some] at h
    exact .remove h.1 h.2

theorem post_append (loop : EventLoop T (Task T)) (es es' : List Effect) :
    post loop (es ++ es') = post (post loop es) es' := by
  simp [post, queuedTasks, List.filterMap_append, List.foldl_append]

/-- A call on the connection pushes functors and does nothing else to the loop. -/
theorem queue_post (loop : EventLoop T (Task T)) (es : List Effect) :
    (post loop es).queue = loop.queue ++ queuedTasks T es := by
  unfold post
  generalize queuedTasks T es = tasks
  induction tasks generalizing loop with
  | nil => simp
  | cons task tasks ih =>
    rw [List.foldl_cons, ih]
    simp [EventLoop.queue, EventLoop.next]

theorem consistent_post {loop : EventLoop T (Task T)} (h : loop.Consistent) (es : List Effect) :
    (post loop es).Consistent := by
  unfold post
  generalize queuedTasks T es = tasks
  induction tasks generalizing loop with
  | nil => exact h
  | cons task tasks ih => exact ih ⟨h.calling, h.batch⟩

theorem perform_eq_some {r : TcpConnection.Result} (h : s.perform r = some s') :
    ∃ conn es, r = some (conn, es) ∧
      s' = { s with conn, loop := post s.loop es, history := s.history ++ es.map .did } := by
  obtain ⟨⟨conn, es⟩, hr, rfl⟩ := Option.map_eq_some_iff.mp h
  exact ⟨conn, es, hr, rfl⟩

theorem queueInLoop_eq_some (hs : s.loop.Consistent) {source : Option T} {f : ConnFunctor}
    (h : s.queueInLoop source f = some s') :
    ∃ loop, s' = { s with loop } ∧ loop.Consistent ∧
      loop.queue = s.loop.queue ++ [⟨source, some f⟩] := by
  cases source with
  | none =>
    obtain ⟨loop, hloop, rfl⟩ := Option.map_eq_some_iff.mp h
    exact ⟨loop, rfl, EventLoop.consistent_step _ _ _ hs hloop, (EventLoop.step_queue hs hloop).1⟩
  | some t =>
    obtain ⟨loop, hloop, rfl⟩ := Option.map_eq_some_iff.mp h
    exact ⟨loop, rfl, EventLoop.consistent_step _ _ _ hs hloop, (EventLoop.step_queue hs hloop).1⟩

omit [DecidableEq T] in
/-- The functors that a step of other objects pushes are theirs. -/
theorem push_of_mayTake {a : LoopAction T (Task T)} (hmay : s.mayTake a = true) :
    ∀ task ∈ a.push, task.functor = none := by
  intro task htask
  cases a with
  | loopQueueInLoop cb =>
    rw [LoopAction.push, List.mem_singleton] at htask
    simpa [mayTake, htask] using hmay
  | queueInLoop t cb =>
    rw [LoopAction.push, List.mem_singleton] at htask
    simp only [mayTake, Bool.and_eq_true, Option.isNone_iff_eq_none] at hmay
    rw [htask]
    exact hmay.1
  | _ => cases htask

omit [DecidableEq T] in
theorem ne_callFunctor_of_mayTake {a : LoopAction T (Task T)} (hmay : s.mayTake a = true) :
    a ≠ .callFunctor := by
  rintro rfl
  cases hmay

theorem queue_of_mayTake (hs : s.loop.Consistent) {a : LoopAction T (Task T)}
    {loop : EventLoop T (Task T)} (hmay : s.mayTake a = true) (hloop : s.loop.step a = some loop) :
    loop.Consistent ∧ loop.queue = s.loop.queue ++ a.push := by
  have hcalls : a.calls = 0 := by
    cases a with
    | callFunctor => exact absurd rfl (ne_callFunctor_of_mayTake hmay)
    | _ => rfl
  refine ⟨EventLoop.consistent_step _ _ _ hs hloop, ?_⟩
  rw [(EventLoop.step_queue hs hloop).1, hcalls, List.drop_zero]

theorem queue_of_poll {loop loop' : EventLoop T (Task T)} (hs : loop.Consistent)
    {wakeupActive : Bool} (hloop : loop.step (.pollReturns wakeupActive) = some loop') :
    loop'.Consistent ∧ loop'.queue = loop.queue := by
  refine ⟨EventLoop.consistent_step _ _ _ hs hloop, ?_⟩
  simpa [LoopAction.calls, LoopAction.push] using (EventLoop.step_queue hs hloop).1

/-- `callFunctor` takes the first functor of the queue. -/
theorem queue_of_callFunctor {loop loop' : EventLoop T (Task T)} (hs : loop.Consistent) {task : Task T}
    {rest : List (Task T)} (hfunctors : loop.functors = task :: rest)
    (hloop : loop.step .callFunctor = some loop') :
    loop'.Consistent ∧ loop.queue = task :: loop'.queue := by
  refine ⟨EventLoop.consistent_step _ _ _ hs hloop, ?_⟩
  rw [(EventLoop.step_queue hs hloop).1]
  simp [EventLoop.queue, hfunctors, LoopAction.calls, LoopAction.push]

end ConnectionLoop
end Muduo
