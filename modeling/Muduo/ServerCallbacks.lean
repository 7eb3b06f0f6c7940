import Muduo.CallbackSlots
import Muduo.Confinement

/-!
# The callbacks of a server

`ServerLoops` with the callback slots of the server and of its connections: what every step of every
thread calls.  The user has set any of the three callbacks before `start()`; after that the slots do not
change, and all connections have the same.

* `called`: the function objects that a step calls.
* `Bound`: every functor in a queue holds what it will call.

    with both untested callbacks set no step calls an empty function object        (callsSet_step)
-/

namespace Muduo

open Transition

/-! ## What a step calls -/

/-- The function objects bound in a functor. -/
def LoopsFunctor.binds (k : TcpConnectionCallbacks) : LoopsFunctor → List StdFunction
  | .conn _ f => k.binds f
  | .removeConnectionInLoop _ | .listen | .addTimerInLoop _ | .user => []

namespace TcpServerCallbacks

variable {T : Type*} [DecidableEq T] (k : TcpServerCallbacks) (s : ServerLoops T)

omit [DecidableEq T] in
/-- `newConnection` copies the callbacks of the server. -/
def copied : LoopsAction T → LoopsAction T
  | .accept l sockfd _ _ => .accept l sockfd k.newConnection.writeCompleteCallback.isSome
      k.newConnection.highWaterMarkCallback.isSome
  | a => a

def step (a : LoopsAction T) : Option (ServerLoops T) := s.step (k.copied a)

omit [DecidableEq T] in
/-- A functor, called on the thread of its loop. -/
def functorCalls (w : WriteResult) : LoopsFunctor → List StdFunction
  | .conn p .connectDestroyed => k.newConnection.callsIn (s.connOf p).downIfConnected
  | .conn p f => k.newConnection.calls (s.connOf p) (.functor f w)
  | .removeConnectionInLoop _ | .listen | .addTimerInLoop _ | .user => []

omit [DecidableEq T] in
/-- `newConnection` on the thread of loop `l`: there `connectEstablished` is called at once. -/
def newConnectionCalls (l sockfd : Nat) : List StdFunction :=
  let (ioLoop, _) := s.getNextLoop
  if ioLoop = l then
    k.newConnection.callsIn (TcpConnection.new (s.pollers ioLoop) (ConnPtr.addr ⟨s.created, ioLoop⟩)
      sockfd k.newConnection.writeCompleteCallback.isSome
      k.newConnection.highWaterMarkCallback.isSome).connectEstablished
  else []

omit [DecidableEq T] in
/-- The function objects that a step calls. -/
def called : LoopsAction T → List StdFunction
  | .callback l r w =>
    match s.dispatch l with
    | some (p, cb :: _) => k.newConnection.calls (s.connOf p) (.event cb r w)
    | _ => []
  | .accept l sockfd _ _ =>
    k.acceptChannel.readCallback.guarded ++ k.newConnectionCallback.guarded ++
      k.newConnectionCalls s l sockfd
  | .callFunctor l w =>
    match (s.loops l).functors with
    | [] => []
    | f :: _ => k.functorCalls s w f
  | .resume l =>
    match s.frames (.loop l) with
    | .closeCallback _ :: _ => [k.newConnection.closeCallback]
    | .walk :: _ =>
      match s.connections with
      | [] => []
      | p :: _ => if p.loop = l then k.functorCalls s (.count 0) (.conn p .connectDestroyed) else []
    | _ => []
  | .userCall p c w => k.newConnection.calls (s.connOf p) (.user c w)
  -- `EventLoopThreadPool::start` and `EventLoopThread::threadFunc`
  | .start _ => k.threadInitCallback.guarded
  | _ => []

/-- The step calls no empty function object. -/
def CallsSet (a : LoopsAction T) : Prop := (k.step s a).isSome = true → none ∉ k.called s a

instance (a : LoopsAction T) : Decidable (k.CallsSet s a) := inferInstanceAs (Decidable (_ → _))

end TcpServerCallbacks

/-! ## The invariant -/

namespace ServerLoops

variable {T : Type*}

/-- The connections' tests succeed for set slots only, and every functor holds what it will call. -/
structure Bound (k : TcpConnectionCallbacks) (s : ServerLoops T) : Prop where
  consistent : ∀ l, (s.loops l).Consistent
  conns : ∀ p, k.Guards (s.conns p)
  queue : ∀ l, ∀ f ∈ (s.loops l).queue, none ∉ f.binds k

variable {k : TcpConnectionCallbacks}

theorem bound_init (k : TcpConnectionCallbacks) (numThreads fd : Nat) :
    Bound k (init numThreads fd : ServerLoops T) where
  consistent _ := EventLoop.consistent_new
  conns _ := ⟨by simp [init, TcpConnection.new], by simp [init, TcpConnection.new]⟩
  queue := by simp [init, EventLoop.queue, EventLoop.new]

namespace Bound

variable {s s' : ServerLoops T} {th : Thread T} {p : ConnPtr} {l : Nat}

/-- Fields that the invariant does not look at. -/
theorem of_eq (h : Bound k s) (hloops : s'.loops = s.loops) (hconns : s'.conns = s.conns) :
    Bound k s' := by
  constructor
  · rw [hloops]
    exact h.consistent
  · rw [hconns]
    exact h.conns
  · rw [hloops]
    exact h.queue

theorem connOf (h : Bound k s) (p : ConnPtr) : k.Guards (s.connOf p) := (h.conns p).of_settings rfl

/-- One connection changes. -/
theorem withConn (h : Bound k s) {c : TcpConnection} (hc : k.Guards c) :
    Bound k { s with conns := Function.update s.conns p c } := by
  refine { h with conns := ?_ }
  exact (Function.forall_update_iff s.conns fun _ c => k.Guards c).mpr ⟨hc, fun q _ => h.conns q⟩

theorem setConn (h : Bound k s) {c : TcpConnection} (hc : k.Guards c) : Bound k (s.setConn p c) :=
  (h.withConn (p := p) hc).of_eq rfl rfl

variable [DecidableEq T]

/-- A step of one loop. -/
theorem loopStep (h : Bound k s) {a : LoopAction (Thread T) LoopsFunctor}
    {loop : EventLoop (Thread T) LoopsFunctor} (hstep : (s.loops l).step a = some loop)
    (hpush : ∀ f ∈ a.push, none ∉ f.binds k) :
    Bound k { s with loops := Function.update s.loops l loop } := by
  refine { h with consistent := ?_, queue := ?_ }
  · exact consistent_update h.consistent hstep
  · exact forall_queue_update (P := fun _ f => none ∉ f.binds k) (h.consistent l) hstep h.queue hpush

theorem queueInLoop (h : Bound k s) {f : LoopsFunctor} (hf : none ∉ f.binds k)
    (hq : s.queueInLoop th l f = some s') : Bound k s' := by
  obtain ⟨a, loop, hstep, hpush, -, rfl⟩ := step_of_queueInLoop hq
  refine h.loopStep hstep ?_
  rw [hpush, List.forall_mem_singleton]
  exact hf

theorem effect (h : Bound k s) {e : Effect} (hbinds : none ∉ k.queues e)
    (he : s.effect th p e = some s') : Bound k s' := by
  cases e with
  | queueInLoop f => exact h.queueInLoop (f := .conn p f) hbinds he
  | closeCallback =>
    cases he
    exact h.of_eq rfl rfl
  | write | shutdownWrite | connectionCallback | messageCallback =>
    cases he
    exact h

/-- **A function of a connection.** -/
theorem callConn (h : Bound k s) {call : ConnCall} (hc : s.callConn th p call = some s') :
    Bound k s' := by
  obtain ⟨⟨c', es⟩, hexec, hfold⟩ := Option.bind_eq_some_iff.mp hc
  obtain ⟨hguards, hqueues⟩ := (h.connOf p).exec hexec
  have hset : Bound k (s.setConn p c') := h.setConn hguards
  dsimp only at hfold
  refine foldlM_inv (fun e he s₁ s₂ hs₁ he₁ => ?_) ?_ hfold
  · exact hs₁.effect (hqueues e he) he₁
  · exact hset.of_eq rfl rfl

omit [DecidableEq T] in
theorem removeChannel (h : Bound k s) (hr : s.removeChannel th p = some s') : Bound k s' := by
  obtain ⟨c, hc, rfl⟩ := Option.map_eq_some_iff.mp hr
  have hguards := (h.connOf p).of_settings (TcpConnection.settings_withChannel hc)
  exact (h.setConn (p := p) hguards).of_eq rfl rfl

theorem connectDestroyed (h : Bound k s) (hd : s.connectDestroyed th p = some s') : Bound k s' := by
  obtain ⟨⟨c', es⟩, hdown, hd⟩ := Option.bind_eq_some_iff.mp hd
  have hguards := (h.connOf p).of_settings (TcpConnection.settings_downIfConnected hdown)
  have hset : Bound k ((s.setConn p c').record th
      ((.connectDestroyed :: (s.connOf p).downCalls.map ChannelCall.fn).map (.conn p))) :=
    (h.setConn (p := p) hguards).of_eq rfl rfl
  dsimp only at hd
  split at hd
  · exact hset.removeChannel hd
  · cases hd
    exact hset.of_eq rfl rfl

omit [DecidableEq T] in
theorem listen (h : Bound k s) (hl : s.listen = some s') : Bound k s' := by
  unfold ServerLoops.listen at hl
  split at hl
  · obtain ⟨⟨poller, ch⟩, -, rfl⟩ := Option.map_eq_some_iff.mp hl
    exact h.of_eq rfl rfl
  · cases hl
    exact h

theorem runFunctor (h : Bound k s) {f : LoopsFunctor} {w : WriteResult}
    (hr : s.runFunctor th f w = some s') : Bound k s' := by
  cases f with
  | conn p f =>
    by_cases hdestroyed : f = .connectDestroyed
    · subst hdestroyed
      exact h.connectDestroyed hr
    · rw [runFunctor_conn hdestroyed] at hr
      exact h.callConn hr
  | removeConnectionInLoop p =>
    have hrecorded : Bound k { s.record th [.removeConnectionInLoop p] with
      connections := s.connections.erase p } := h.of_eq rfl rfl
    exact hrecorded.queueInLoop List.not_mem_nil hr
  | listen => exact h.listen hr
  | addTimerInLoop =>
    cases hr
    exact h.of_eq rfl rfl
  | user =>
    cases hr
    exact h

theorem runInLoop (h : Bound k s) {f : LoopsFunctor} (hf : none ∉ f.binds k)
    (hr : s.runInLoop th l f = some s') : Bound k s' := by
  unfold ServerLoops.runInLoop at hr
  split at hr
  · exact h.runFunctor hr
  · exact h.queueInLoop hf hr

theorem newConnection (h : Bound k s) {sockfd : Nat}
    (hn : s.newConnection th sockfd k.writeCompleteCallback.isSome k.highWaterMarkCallback.isSome =
      some s') : Bound k s' := by
  unfold ServerLoops.newConnection at hn
  generalize s.getNextLoop = r at hn
  obtain ⟨ioLoop, next⟩ := r
  dsimp only at hn
  refine runInLoop ?_ List.not_mem_nil hn
  exact (h.withConn (p := ⟨s.created, ioLoop⟩) (k.guards_new _ _ _)).of_eq rfl rfl

theorem resume (h : Bound k s) (hr : s.resume th = some s') : Bound k s' := by
  unfold ServerLoops.resume at hr
  split at hr
  · cases hr
  · cases hr
  · next p fs _ =>
    have hreturned : Bound k ({ s with frames := Function.update s.frames th fs }.record th
      [.removeConnection p]) := h.of_eq rfl rfl
    exact hreturned.runInLoop List.not_mem_nil hr
  · next p fs _ =>
    have hreturned : Bound k { s with frames := Function.update s.frames th fs } := h.of_eq rfl rfl
    exact hreturned.removeChannel hr
  · split at hr
    · cases hr
      exact h.of_eq rfl rfl
    · next p connections _ =>
      have htaken : Bound k { s with connections } := h.of_eq rfl rfl
      exact htaken.runInLoop List.not_mem_nil hr

theorem finish (h : Bound k s) (hf : s.finish = some s') : Bound k s' := by
  unfold ServerLoops.finish at hf
  split at hf
  · split at hf
    · obtain ⟨⟨poller, ch⟩, -, hf⟩ := Option.bind_eq_some_iff.mp hf
      obtain ⟨⟨poller', ch'⟩, -, rfl⟩ := Option.map_eq_some_iff.mp hf
      exact h.of_eq rfl rfl
    · cases hf
  · cases hf

end Bound

variable [DecidableEq T]

/-- **One step** of any thread, with the callbacks of the server copied into a new connection. -/
theorem bound_step (k : TcpServerCallbacks) (s : ServerLoops T) (a : LoopsAction T)
    (s' : ServerLoops T) (h : Bound k.newConnection s) (hs : k.step s a = some s') :
    Bound k.newConnection s' := by
  have hmoves := moves_of_step hs
  generalize ha : k.copied a = b at hmoves
  cases hmoves with
  | loop _ hmay hloop =>
    refine h.loopStep hloop fun f hf => ?_
    rw [push_of_mayTake hmay f hf]
    exact List.not_mem_nil
  | enterLoop _ hloop | poll _ _ hloop =>
    exact (h.loopStep hloop (by simp [LoopAction.push])).of_eq rfl rfl
  | handled | dispatched | endEvent | timer | testPassed | destroy | release => exact h.of_eq rfl rfl
  | testFailed => exact h
  | @callback l _ _ p _ rest _ _ hcall =>
    have hd : Bound k.newConnection { s with
      dispatch := Function.update s.dispatch l (some (p, rest)) } := h.of_eq rfl rfl
    exact hd.callConn hcall
  | @accept l sockfd wc hw rest _ _ _ hnew =>
    have hr : Bound k.newConnection { s with active := Function.update s.active l rest } :=
      h.of_eq rfl rfl
    cases a with
    | accept =>
      cases ha
      exact hr.newConnection hnew
    | loop | enterLoop | poll | handleEvent | callback | endEvent | timer | callFunctor | resume
    | userCall | test | store | push | runAfter | start | destroy | finish | release => cases ha
  | callFunctor _ _ hloop hrun =>
    exact (h.loopStep hloop (by simp [LoopAction.push])).runFunctor hrun
  | resume _ hresume => exact h.resume hresume
  | userCall _ hcall => exact h.callConn hcall
  | @store th p c =>
    have hguards : k.newConnection.Guards ((s.conns p).setState .kDisconnecting) :=
      (h.conns p).of_settings rfl
    exact (h.withConn (p := p) hguards).of_eq rfl rfl
  | @push th p c _ _ hqueue =>
    have hset : Bound k.newConnection (s.setCall th none) := h.of_eq rfl rfl
    refine hset.queueInLoop ?_ hqueue
    cases c with
    | send | shutdown | forceClose => exact List.not_mem_nil
  | runAfter hrun => exact h.runInLoop List.not_mem_nil hrun
  | start hrun =>
    have hstarted : Bound k.newConnection { s with started := true } := h.of_eq rfl rfl
    exact hstarted.runInLoop List.not_mem_nil hrun
  | finish hfinish => exact h.finish hfinish

end ServerLoops

/-! ## Every run -/

namespace TcpServerCallbacks

open ServerLoops

variable {T : Type*} [DecidableEq T] {k : TcpServerCallbacks} {s : ServerLoops T}

omit [DecidableEq T] in
theorem none_notMem_functorCalls (hk : k.newConnection.Complete) {f : LoopsFunctor}
    (hf : none ∉ f.binds k.newConnection) (w : WriteResult) : none ∉ k.functorCalls s w f := by
  cases f with
  | conn p f =>
    by_cases hdestroyed : f = .connectDestroyed
    · subst hdestroyed
      exact hk.none_notMem_callsIn _
    · have hcalls : none ∉ k.newConnection.calls (s.connOf p) (.functor f w) := by
        refine hk.none_notMem_calls _ ?_
        rintro _ _ ⟨⟩
        exact hf
      cases f with
      | connectDestroyed => exact absurd rfl hdestroyed
      | connectEstablished | sendInLoop | shutdownInLoop | forceCloseInLoop | writeComplete
      | highWaterMark => exact hcalls
  | removeConnectionInLoop | listen | addTimerInLoop | user => exact List.not_mem_nil

omit [DecidableEq T] in
theorem none_notMem_called (hk : k.newConnection.Complete) (h : Bound k.newConnection s)
    (a : LoopsAction T) : none ∉ k.called s a := by
  cases a with
  | callback l r w =>
    simp only [called]
    split
    · exact hk.none_notMem_calls _ (by simp)
    · exact List.not_mem_nil
  | accept l sockfd =>
    simp only [called, List.mem_append, not_or]
    refine ⟨⟨StdFunction.none_notMem_guarded _, StdFunction.none_notMem_guarded _⟩, ?_⟩
    unfold newConnectionCalls
    dsimp only
    split
    · exact hk.none_notMem_callsIn _
    · exact List.not_mem_nil
  | callFunctor l w =>
    simp only [called]
    split
    · exact List.not_mem_nil
    · next f fs hfunctors =>
      refine none_notMem_functorCalls hk (h.queue l f ?_) w
      rw [EventLoop.queue, hfunctors]
      exact List.mem_append_left _ List.mem_cons_self
  | resume l =>
    simp only [called]
    split
    · simpa using Ne.symm hk.close
    · split
      · exact List.not_mem_nil
      · split
        · exact none_notMem_functorCalls hk List.not_mem_nil _
        · exact List.not_mem_nil
    · exact List.not_mem_nil
  | userCall p c w => exact hk.none_notMem_calls _ (by simp)
  | start => exact StdFunction.none_notMem_guarded _
  | loop | enterLoop | poll | handleEvent | endEvent | timer | test | store | push | runAfter | destroy
  | finish | release => exact List.not_mem_nil

/-- **A server with both callbacks.**  In every run no step calls an empty function object. -/
theorem callsSet_run (hk : k.newConnection.Complete) (numThreads fd : Nat) (as : List (LoopsAction T)) :
    AllSteps k.step k.CallsSet (init numThreads fd) as := by
  refine allSteps_inv ?_ (bound_step k) (bound_init k.newConnection numThreads fd)
  intro s a h _
  exact none_notMem_called hk h a

end TcpServerCallbacks
end Muduo
