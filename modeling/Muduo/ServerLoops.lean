import Muduo.PollerCalls
import Mathlib.Data.Nat.Pairing

/-!
# A server and its loops

`TcpServer` with any number of sub-loops: the base loop is loop 0, the loops of the pool are 1, …,
`numThreads`, each an `EventLoop` with its own thread and its own poller; `T` are the other threads.

* `ConnPtr`: a `TcpConnection` object; `loop` is its constant field `loop_`.
* Every function runs on a thread `th`, passed along as the code's current thread.  `runInLoop`
  compares it with the loop's and calls the functor at once or queues it.
* A function that calls the user in its middle leaves the rest as a `Frame` on its thread: `handleClose`
  before `closeCallback_`, `connectDestroyed` before `remove`, and `~TcpServer` around the calls of its
  loop over `connections_`.  In between the user may act.
* `trace`: the functions run, each with its thread.

A connection is `alive` until the last `TcpConnectionPtr` outside the map, the queues and the stacks is
given up (`release`); how long users keep one is left open.
-/

namespace Muduo

open Transition

/-! ## Threads, objects and functors -/

/-- A thread: that of a loop, or another one. -/
inductive Thread (T : Type*)
  | loop (l : Nat)
  | other (t : T)
deriving DecidableEq

/-- A connection object and the loop it was created with. -/
structure ConnPtr where
  id : Nat
  loop : Nat
deriving DecidableEq, Repr

/-- The address of the acceptor's channel. -/
def acceptorAddr : Nat := 0

/-- The address of a connection's channel. -/
def ConnPtr.addr (p : ConnPtr) : Nat := Nat.pair p.id p.loop + 1

inductive LoopsFunctor
  | conn (p : ConnPtr) (f : ConnFunctor)
  | removeConnectionInLoop (p : ConnPtr)
  | listen
  | addTimerInLoop (l : Nat)
  /-- a functor of the user -/
  | user
deriving DecidableEq, Repr

def LoopsFunctor.owns (p : ConnPtr) : LoopsFunctor → Bool
  | .conn q f => q == p && f.owns
  | .removeConnectionInLoop q => q == p
  | _ => false

/-- A channel that `epoll_wait` has found ready. -/
inductive Ready
  | acceptor
  | timerfd
  | conn (p : ConnPtr) (revents : EventMask)
deriving DecidableEq, Repr

/-- The rest of a function that is calling the user. -/
inductive Frame
  /-- `handleClose`: `closeCallback_(connPtr)` -/
  | closeCallback (p : ConnPtr)
  /-- `connectDestroyed`: `channel_->remove()` -/
  | removeChannel (p : ConnPtr)
  /-- `~TcpServer`: the loop over `connections_` -/
  | walk
  /-- `~TcpServer`: the members; `EventLoopThread`s are joined -/
  | join
deriving DecidableEq, Repr

/-- The connection a frame keeps a `TcpConnectionPtr` to. -/
def Frame.conn? : Frame → Option ConnPtr
  | .closeCallback p | .removeChannel p => some p
  | .walk | .join => none

/-! ## The functions run -/

inductive ConnFn
  | connectEstablished | connectDestroyed
  | sendInLoop | shutdownInLoop | forceCloseInLoop
  | handleRead | handleWrite | handleClose | handleError
  | updateChannel | removeChannel
deriving DecidableEq, Repr

inductive Fn
  | conn (p : ConnPtr) (f : ConnFn)
  | newConnection
  | removeConnection (p : ConnPtr)
  | removeConnectionInLoop (p : ConnPtr)
  | addTimerInLoop (l : Nat)
  | timerHandleRead (l : Nat)
deriving DecidableEq, Repr

/-- The functions of the connection that a call enters, in order. -/
def TcpConnection.entered (c : TcpConnection) : ConnCall → List ConnFn
  | .functor .connectEstablished _ => [.connectEstablished]
  | .functor .connectDestroyed _ => [.connectDestroyed]
  | .functor (.sendInLoop _) _ => [.sendInLoop]
  | .functor .shutdownInLoop _ => [.shutdownInLoop]
  | .functor .forceCloseInLoop _ =>
    .forceCloseInLoop :: if c.stat = .kConnected ∨ c.stat = .kDisconnecting then [.handleClose] else []
  | .functor .writeComplete _ | .functor (.highWaterMark _) _ => []
  | .event .close _ _ => [.handleClose]
  | .event .error _ _ => [.handleError]
  | .event .read r _ =>
    .handleRead ::
      match r with
      | .data [] => [.handleClose]
      | .data _ => []
      | .error _ => [.handleError]
  | .event .write _ w =>
    .handleWrite :: if c.writeCalls w ≠ [] ∧ c.stat = .kDisconnecting then [.shutdownInLoop] else []
  | .user (.send _) _ => if c.stat = .kConnected then [.sendInLoop] else []
  | .user .shutdown _ => if c.stat = .kConnected then [.shutdownInLoop] else []
  | .user .forceClose _ => []

def ChannelCall.fn : ChannelCall → ConnFn
  | .remove => .removeChannel
  | _ => .updateChannel

inductive ServerPhase
  | alive
  /-- in `~TcpServer` -/
  | destroying
  | destroyed
deriving DecidableEq, Repr

/-- A function run, with the thread and the phase of the server. -/
structure Executed (T : Type*) where
  thread : Thread T
  fn : Fn
  phase : ServerPhase
deriving DecidableEq

/-! ## The state -/

structure ServerLoops (T : Type*) where
  /-- `threadPool_->loops_.size()` -/
  numThreads : Nat
  /-- `threadPool_->next_` -/
  next : Nat
  started : Bool
  phase : ServerPhase
  acceptChannel : Channel
  /-- `connections_` -/
  connections : List ConnPtr
  loops : Nat → EventLoop (Thread T) LoopsFunctor
  /-- the thread of a sub-loop has come to `loop()` -/
  entered : Nat → Bool
  pollers : Nat → EPollPoller
  /-- the number of connections made -/
  created : Nat
  conns : ConnPtr → TcpConnection
  alive : ConnPtr → Bool
  /-- `activeChannels_` still to be handled -/
  active : Nat → List Ready
  /-- the connection in `Channel::handleEvent`, with the callbacks still to be called -/
  dispatch : Nat → Option (ConnPtr × List EventCallback)
  frames : Thread T → List Frame
  /-- threads in `send`, `shutdown` or `forceClose` of a connection of another thread's loop -/
  calls : List (Thread T × ConnPtr × CallPc)
  trace : List (Executed T)

inductive LoopsAction (T : Type*)
  /-- a step of loop `l` that does not concern the server -/
  | loop (l : Nat) (a : LoopAction (Thread T) LoopsFunctor)
  | enterLoop (l : Nat)
  | poll (l : Nat) (wakeupActive : Bool) (ready : List Ready)
  | handleEvent (l : Nat)
  /-- the next callback of the connection's channel -/
  | callback (l : Nat) (r : ReadvResult) (w : WriteResult)
  | endEvent (l : Nat)
  /-- `Acceptor::handleRead` with a new descriptor -/
  | accept (l : Nat) (sockfd : Nat) (writeCompleteCallback highWaterMarkCallback : Bool)
  /-- `TimerQueue::handleRead` -/
  | timer (l : Nat)
  | callFunctor (l : Nat) (w : WriteResult)
  /-- the user's callback returns to the topmost frame -/
  | resume (l : Nat)
  /-- the user on the connection's own thread -/
  | userCall (p : ConnPtr) (c : UserCall) (w : WriteResult)
  | test (th : Thread T) (p : ConnPtr) (c : UserCall)
  | store (th : Thread T)
  | push (th : Thread T)
  | runAfter (th : Thread T) (l : Nat)
  | start (th : Thread T)
  /-- `~TcpServer` is called -/
  | destroy
  /-- the pool is joined and the acceptor destroyed -/
  | finish
  /-- the last handle of the users is given up -/
  | release (p : ConnPtr)

namespace ServerLoops

variable {T : Type*}

/-- `TcpServer(loop, …)` and `setThreadNum(numThreads)`, with the acceptor's socket `fd`. -/
def init (numThreads fd : Nat) : ServerLoops T where
  numThreads := numThreads
  next := 0
  started := false
  phase := .alive
  acceptChannel := Channel.new acceptorAddr fd
  connections := []
  loops := fun _ => EventLoop.new
  entered := fun _ => false
  pollers := fun _ => EPollPoller.empty
  created := 0
  conns := fun p => TcpConnection.new EPollPoller.empty p.addr 0 false false
  alive := fun _ => false
  active := fun _ => []
  dispatch := fun _ => none
  frames := fun _ => []
  calls := []
  trace := []

/-! ## Who may act -/

/-- The thread of loop `l` runs: a sub-loop's ends when `loop()` returns. -/
def live (s : ServerLoops T) (l : Nat) : Bool :=
  decide (l ≤ s.numThreads) && (l == 0 || !(s.entered l && (s.loops l).pc == .outside))

variable [DecidableEq T]

/-- The thread is not inside a function, so its loop may go on. -/
def quiet (s : ServerLoops T) (l : Nat) : Bool :=
  (s.frames (.loop l)).isEmpty && (s.dispatch l).isNone && (s.calls.lookup (.loop l)).isNone

/-- The base loop's thread waits for the threads of the pool. -/
def joining (s : ServerLoops T) : Bool := (s.frames (.loop 0)).head? == some .join

/-- User code may act on the thread. -/
def canAct (s : ServerLoops T) : Thread T → Bool
  | .other t => (s.calls.lookup (.other t)).isNone
  | .loop l => s.live l && (s.loops l).pc.runsUserCode && (s.calls.lookup (.loop l)).isNone &&
      (s.frames (.loop l)).head? != some .walk && (s.frames (.loop l)).head? != some .join

/-! ## The functions -/

def record (s : ServerLoops T) (th : Thread T) (fns : List Fn) : ServerLoops T :=
  { s with trace := s.trace ++ fns.map fun fn => ⟨th, fn, s.phase⟩ }

def pushFrame (s : ServerLoops T) (th : Thread T) (f : Frame) : ServerLoops T :=
  { s with frames := Function.update s.frames th (f :: s.frames th) }

/-- `loop->queueInLoop(f)` on the thread `th`. -/
def queueInLoop (s : ServerLoops T) (th : Thread T) (l : Nat) (f : LoopsFunctor) :
    Option (ServerLoops T) :=
  ((s.loops l).step (if th = .loop l then .loopQueueInLoop f else .queueInLoop th f)).map fun loop =>
    { s with loops := Function.update s.loops l loop }

/-- The connection, with the poller of its loop. -/
def connOf (s : ServerLoops T) (p : ConnPtr) : TcpConnection :=
  { s.conns p with poller := s.pollers p.loop }

def setConn (s : ServerLoops T) (p : ConnPtr) (c : TcpConnection) : ServerLoops T :=
  { s with
    conns := Function.update s.conns p c
    pollers := Function.update s.pollers p.loop c.poller }

def effect (s : ServerLoops T) (th : Thread T) (p : ConnPtr) : Effect → Option (ServerLoops T)
  | .queueInLoop f => s.queueInLoop th p.loop (.conn p f)
  | .closeCallback => some (s.pushFrame th (.closeCallback p))
  | _ => some s

/-- A function of the connection runs on the thread `th`. -/
def callConn (s : ServerLoops T) (th : Thread T) (p : ConnPtr) (call : ConnCall) :
    Option (ServerLoops T) :=
  let c := s.connOf p
  (c.exec call).bind fun (c', es) =>
    let fns := c.entered call ++ (c.pollerCalls call).map ChannelCall.fn
    es.foldlM (fun s e => s.effect th p e) ((s.setConn p c').record th (fns.map (.conn p)))

/-- The end of `connectDestroyed`. -/
def removeChannel (s : ServerLoops T) (th : Thread T) (p : ConnPtr) : Option (ServerLoops T) :=
  ((s.connOf p).withChannel Channel.remove).map fun c =>
    (s.setConn p c).record th [.conn p .removeChannel]

/-- `connectDestroyed`, as far as `connectionCallback_` if that is called. -/
def connectDestroyed (s : ServerLoops T) (th : Thread T) (p : ConnPtr) : Option (ServerLoops T) :=
  let c := s.connOf p
  c.downIfConnected.bind fun (c', es) =>
    let s := (s.setConn p c').record th
      ((.connectDestroyed :: c.downCalls.map ChannelCall.fn).map (.conn p))
    if es.isEmpty then s.removeChannel th p else some (s.pushFrame th (.removeChannel p))

def removeConnectionInLoop (s : ServerLoops T) (th : Thread T) (p : ConnPtr) :
    Option (ServerLoops T) :=
  let s := s.record th [.removeConnectionInLoop p]
  { s with connections := s.connections.erase p }.queueInLoop th p.loop (.conn p .connectDestroyed)

/-- `Acceptor::listen`, as long as there is an acceptor. -/
def listen (s : ServerLoops T) : Option (ServerLoops T) :=
  if s.phase = .alive then
    (s.acceptChannel.enableReading (s.pollers 0)).map fun (poller, acceptChannel) =>
      { s with acceptChannel, pollers := Function.update s.pollers 0 poller }
  else some s

def runFunctor (s : ServerLoops T) (th : Thread T) (f : LoopsFunctor) (w : WriteResult) :
    Option (ServerLoops T) :=
  match f with
  | .conn p .connectDestroyed => s.connectDestroyed th p
  | .conn p f => s.callConn th p (.functor f w)
  | .removeConnectionInLoop p => s.removeConnectionInLoop th p
  | .listen => s.listen
  | .addTimerInLoop l => some (s.record th [.addTimerInLoop l])
  | .user => some s

/-- `loop->runInLoop(f)`; here `f` is no `sendInLoop`, so it does not write. -/
def runInLoop (s : ServerLoops T) (th : Thread T) (l : Nat) (f : LoopsFunctor) :
    Option (ServerLoops T) :=
  if th = .loop l then s.runFunctor th f (.count 0) else s.queueInLoop th l f

/-- `TcpServer::removeConnection`, bound to `closeCallback_`. -/
def removeConnection (s : ServerLoops T) (th : Thread T) (p : ConnPtr) : Option (ServerLoops T) :=
  (s.record th [.removeConnection p]).runInLoop th 0 (.removeConnectionInLoop p)

/-- `getNextLoop`: the loop, and `next_` after the call. -/
def getNextLoop (s : ServerLoops T) : Nat × Nat :=
  if s.numThreads = 0 then (0, s.next)
  else (s.next + 1, if s.next + 1 ≥ s.numThreads then 0 else s.next + 1)

def newConnection (s : ServerLoops T) (th : Thread T) (sockfd : Nat)
    (writeCompleteCallback highWaterMarkCallback : Bool) : Option (ServerLoops T) :=
  let (ioLoop, next) := s.getNextLoop
  let p : ConnPtr := ⟨s.created, ioLoop⟩
  let conn := TcpConnection.new (s.pollers ioLoop) p.addr sockfd writeCompleteCallback
    highWaterMarkCallback
  let s := s.record th [.newConnection]
  { s with
    next
    created := s.created + 1
    conns := Function.update s.conns p conn
    alive := Function.update s.alive p true
    connections := s.connections ++ [p] }.runInLoop th ioLoop (.conn p .connectEstablished)

/-- The rest of a function, after the user's callback. -/
def resume (s : ServerLoops T) (th : Thread T) : Option (ServerLoops T) :=
  match s.frames th with
  | [] | .join :: _ => none
  | .closeCallback p :: fs => { s with frames := Function.update s.frames th fs }.removeConnection th p
  | .removeChannel p :: fs => { s with frames := Function.update s.frames th fs }.removeChannel th p
  | .walk :: fs =>
    match s.connections with
    | [] => some { s with frames := Function.update s.frames th (.join :: fs) }
    | p :: connections => { s with connections }.runInLoop th p.loop (.conn p .connectDestroyed)

/-- The members of `~TcpServer`: all threads of the pool have ended, and `~Acceptor`. -/
def finish (s : ServerLoops T) : Option (ServerLoops T) :=
  match s.frames (.loop 0) with
  | .join :: fs =>
    if (List.range s.numThreads).all fun l => !s.live (l + 1) then
      (s.acceptChannel.disableAll (s.pollers 0)).bind fun (poller, ch) =>
        (ch.remove poller).map fun (poller, acceptChannel) =>
          { s with
            phase := .destroyed
            acceptChannel
            pollers := Function.update s.pollers 0 poller
            frames := Function.update s.frames (.loop 0) fs }
    else none
  | _ => none

/-! ## Steps -/

/-- What the poller of loop `l` may report; the timerfd has been registered with its loop. -/
def reports (s : ServerLoops T) (l : Nat) : Ready → Bool
  | .timerfd => true
  | .acceptor =>
    match (s.pollers l).interest s.acceptChannel.fd with
    | some event => event.ptr == acceptorAddr
    | none => false
  | .conn p _ =>
    match (s.pollers l).interest (s.conns p).channel.fd with
    | some event => event.ptr == p.addr
    | none => false

/-- The steps of a loop that are not steps of the server. -/
def mayTake (s : ServerLoops T) (l : Nat) : LoopAction (Thread T) LoopsFunctor → Bool
  | .queueInLoop th f => f == .user && th != .loop l && s.canAct th
  | .quit th => th != .loop l && (s.canAct th || th == .loop 0 && s.joining)
  | .wakeup th => th != .loop l
  | .loopQueueInLoop f => f == .user && s.canAct (.loop l)
  | .loopQuit => s.canAct (.loop l)
  | .enterLoop | .pollReturns _ | .callFunctor => false
  | .beginFunctors => s.quiet l && (s.active l).isEmpty
  | _ => s.quiet l

/-- A `TcpConnectionPtr` to the connection in the map, a queue, a stack or a call under way. -/
def owned (s : ServerLoops T) (p : ConnPtr) : Bool :=
  s.connections.contains p || s.calls.any (fun call => call.2.1 == p) ||
    (List.range (s.numThreads + 1)).any fun l =>
      (s.loops l).queue.any (LoopsFunctor.owns p) ||
        (s.frames (.loop l)).any (fun f => f.conn? == some p) ||
        (s.dispatch l).any fun d => d.1 == p

def setCall (s : ServerLoops T) (th : Thread T) (call : Option (ConnPtr × CallPc)) : ServerLoops T :=
  { s with
    calls := (call.map fun c => (th, c)).toList ++ s.calls.filter fun c => c.1 != th }

def step (s : ServerLoops T) : LoopsAction T → Option (ServerLoops T)
  | .loop l a =>
    if s.live l && s.mayTake l a then
      ((s.loops l).step a).map fun loop => { s with loops := Function.update s.loops l loop }
    else none
  | .enterLoop l =>
    if s.live l && s.quiet l && (l == 0 || !s.entered l) then
      ((s.loops l).step .enterLoop).map fun loop =>
        { s with
          loops := Function.update s.loops l loop
          entered := Function.update s.entered l true }
    else none
  | .poll l wakeupActive ready =>
    if s.live l && s.quiet l && ready.all (s.reports l) then
      ((s.loops l).step (.pollReturns wakeupActive)).map fun loop =>
        { s with
          loops := Function.update s.loops l loop
          active := Function.update s.active l ready }
    else none
  -- the guard of a channel whose connection is gone fails; `accept` may fail
  | .handleEvent l =>
    match s.active l with
    | [] => none
    | ready :: rest =>
      if s.live l && s.quiet l && (s.loops l).pc == .handling then
        let s := { s with active := Function.update s.active l rest }
        match ready with
        | .conn p revents =>
          if s.alive p then
            some { s with dispatch := Function.update s.dispatch l (some (p, eventCallbacks revents)) }
          else some s
        | .acceptor | .timerfd => some s
      else none
  | .callback l r w =>
    match s.dispatch l with
    | some (p, cb :: rest) =>
      if s.live l && (s.frames (.loop l)).isEmpty && (s.calls.lookup (.loop l)).isNone then
        { s with dispatch := Function.update s.dispatch l (some (p, rest)) }.callConn (.loop l) p
          (.event cb r w)
      else none
    | _ => none
  | .endEvent l =>
    match s.dispatch l with
    | some (_, []) =>
      if s.live l && (s.frames (.loop l)).isEmpty && (s.calls.lookup (.loop l)).isNone then
        some { s with dispatch := Function.update s.dispatch l none }
      else none
    | _ => none
  | .accept l sockfd writeCompleteCallback highWaterMarkCallback =>
    match s.active l with
    | .acceptor :: rest =>
      if s.live l && s.quiet l && (s.loops l).pc == .handling && s.phase == .alive then
        { s with active := Function.update s.active l rest }.newConnection (.loop l) sockfd
          writeCompleteCallback highWaterMarkCallback
      else none
    | _ => none
  | .timer l =>
    match s.active l with
    | .timerfd :: rest =>
      if s.live l && s.quiet l && (s.loops l).pc == .handling then
        some ({ s with active := Function.update s.active l rest }.record (.loop l)
          [.timerHandleRead l])
      else none
    | _ => none
  | .callFunctor l w =>
    match (s.loops l).functors with
    | [] => none
    | f :: _ =>
      if s.live l && s.quiet l then
        ((s.loops l).step .callFunctor).bind fun loop =>
          { s with loops := Function.update s.loops l loop }.runFunctor (.loop l) f w
      else none
  | .resume l =>
    if s.live l && (s.calls.lookup (.loop l)).isNone then s.resume (.loop l) else none
  | .userCall p c w =>
    if s.canAct (.loop p.loop) && s.alive p then s.callConn (.loop p.loop) p (.user c w) else none
  | .test th p c =>
    if s.canAct th && s.alive p && th != .loop p.loop then
      if c.test (s.conns p).stat then
        some (s.setCall th (some (p, if c.stores then .storing c else .pushing c)))
      else some s
    else none
  | .store th =>
    match s.calls.lookup th with
    | some (p, .storing c) =>
      some ({ s with conns := Function.update s.conns p ((s.conns p).setState .kDisconnecting) }.setCall
        th (some (p, .pushing c)))
    | _ => none
  | .push th =>
    match s.calls.lookup th with
    | some (p, .pushing c) => (s.setCall th none).queueInLoop th p.loop (.conn p c.functor)
    | _ => none
  | .runAfter th l =>
    if s.canAct th && decide (l ≤ s.numThreads) then s.runInLoop th l (.addTimerInLoop l) else none
  | .start th =>
    if s.canAct th && !s.started && s.phase == .alive then
      { s with started := true }.runInLoop th 0 .listen
    else none
  | .destroy =>
    if s.canAct (.loop 0) && s.phase == .alive then
      some ({ s with phase := .destroying }.pushFrame (.loop 0) .walk)
    else none
  | .finish => s.finish
  | .release p =>
    if s.alive p && !s.owned p then some { s with alive := Function.update s.alive p false } else none

/-! ## What a step does -/

/-- What each action requires, and the state it leads to. -/
inductive Moves (s : ServerLoops T) : LoopsAction T → ServerLoops T → Prop
  | loop {l a loop} (hlive : s.live l = true) (hmay : s.mayTake l a = true)
      (hloop : (s.loops l).step a = some loop) :
      Moves s (.loop l a) { s with loops := Function.update s.loops l loop }
  | enterLoop {l loop} (hlive : s.live l = true) (hloop : (s.loops l).step .enterLoop = some loop) :
      Moves s (.enterLoop l) { s with
        loops := Function.update s.loops l loop
        entered := Function.update s.entered l true }
  | poll {l wakeupActive ready loop} (hlive : s.live l = true)
      (hready : ∀ r ∈ ready, s.reports l r = true)
      (hloop : (s.loops l).step (.pollReturns wakeupActive) = some loop) :
      Moves s (.poll l wakeupActive ready) { s with
        loops := Function.update s.loops l loop
        active := Function.update s.active l ready }
  | handled {l r rest} (hactive : s.active l = r :: rest) :
      Moves s (.handleEvent l) { s with active := Function.update s.active l rest }
  | dispatched {l p revents rest} (hactive : s.active l = .conn p revents :: rest)
      (halive : s.alive p = true) :
      Moves s (.handleEvent l) { s with
        active := Function.update s.active l rest
        dispatch := Function.update s.dispatch l (some (p, eventCallbacks revents)) }
  | callback {l r w p cb rest s'} (hdispatch : s.dispatch l = some (p, cb :: rest))
      (hcall : { s with dispatch := Function.update s.dispatch l (some (p, rest)) }.callConn (.loop l)
        p (.event cb r w) = some s') :
      Moves s (.callback l r w) s'
  | endEvent {l} :
      Moves s (.endEvent l) { s with dispatch := Function.update s.dispatch l none }
  | accept {l sockfd wc hw rest s'} (hactive : s.active l = .acceptor :: rest)
      (hphase : s.phase = .alive)
      (hnew : { s with active := Function.update s.active l rest }.newConnection (.loop l) sockfd wc hw
        = some s') :
      Moves s (.accept l sockfd wc hw) s'
  | timer {l rest} (hactive : s.active l = .timerfd :: rest) :
      Moves s (.timer l) ({ s with active := Function.update s.active l rest }.record (.loop l)
        [.timerHandleRead l])
  | callFunctor {l w f fs loop s'} (hlive : s.live l = true)
      (hfunctors : (s.loops l).functors = f :: fs) (hloop : (s.loops l).step .callFunctor = some loop)
      (hrun : { s with loops := Function.update s.loops l loop }.runFunctor (.loop l) f w = some s') :
      Moves s (.callFunctor l w) s'
  | resume {l s'} (hlive : s.live l = true) (hresume : s.resume (.loop l) = some s') :
      Moves s (.resume l) s'
  | userCall {p c w s'} (halive : s.alive p = true)
      (hcall : s.callConn (.loop p.loop) p (.user c w) = some s') :
      Moves s (.userCall p c w) s'
  | testPassed {th p c} (halive : s.alive p = true) (htest : c.test (s.conns p).stat = true) :
      Moves s (.test th p c)
        (s.setCall th (some (p, if c.stores then .storing c else .pushing c)))
  | testFailed {th p c} : Moves s (.test th p c) s
  | store {th p c} (hcall : s.calls.lookup th = some (p, .storing c)) :
      Moves s (.store th)
        ({ s with conns := Function.update s.conns p ((s.conns p).setState .kDisconnecting) }.setCall
          th (some (p, .pushing c)))
  | push {th p c s'} (hcall : s.calls.lookup th = some (p, .pushing c))
      (hqueue : (s.setCall th none).queueInLoop th p.loop (.conn p c.functor) = some s') :
      Moves s (.push th) s'
  | runAfter {th l s'} (hrun : s.runInLoop th l (.addTimerInLoop l) = some s') :
      Moves s (.runAfter th l) s'
  | start {th s'} (hrun : { s with started := true }.runInLoop th 0 .listen = some s') :
      Moves s (.start th) s'
  | destroy : Moves s .destroy ({ s with phase := .destroying }.pushFrame (.loop 0) .walk)
  | finish {s'} (hfinish : s.finish = some s') : Moves s .finish s'
  | release {p} (howned : s.owned p = false) :
      Moves s (.release p) { s with alive := Function.update s.alive p false }

variable {s s' : ServerLoops T} {a : LoopsAction T}

/-- **What a step does.** -/
theorem moves_of_step (h : s.step a = some s') : Moves s a s' := by
  cases a with
  | loop l a =>
    simp only [step, Option.ite_none_right_eq_some, Bool.and_eq_true] at h
    obtain ⟨⟨hlive, hmay⟩, h⟩ := h
    obtain ⟨loop, hloop, rfl⟩ := Option.map_eq_some_iff.mp h
    exact .loop hlive hmay hloop
  | enterLoop l =>
    simp only [step, Option.ite_none_right_eq_some, Bool.and_eq_true] at h
    obtain ⟨⟨⟨hlive, -⟩, -⟩, h⟩ := h
    obtain ⟨loop, hloop, rfl⟩ := Option.map_eq_some_iff.mp h
    exact .enterLoop hlive hloop
  | poll l wakeupActive ready =>
    simp only [step, Option.ite_none_right_eq_some, Bool.and_eq_true, List.all_eq_true] at h
    obtain ⟨⟨⟨hlive, -⟩, hready⟩, h⟩ := h
    obtain ⟨loop, hloop, rfl⟩ := Option.map_eq_some_iff.mp h
    exact .poll hlive hready hloop
  | handleEvent l =>
    simp only [step] at h
    split at h
    · cases h
    · next r rest hactive =>
      simp only [Option.ite_none_right_eq_some] at h
      obtain ⟨-, h⟩ := h
      cases r with
      | acceptor | timerfd =>
        cases h
        exact .handled hactive
      | conn p revents =>
        simp only at h
        split at h
        · next halive =>
          cases h
          exact .dispatched hactive halive
        · cases h
          exact .handled hactive
  | callback l r w =>
    simp only [step] at h
    split at h
    · next hdispatch =>
      simp only [Option.ite_none_right_eq_some] at h
      exact .callback hdispatch h.2
    · cases h
  | endEvent l =>
    simp only [step] at h
    split at h
    · simp only [Option.ite_none_right_eq_some, Option.some.injEq] at h
      obtain ⟨-, rfl⟩ := h
      exact .endEvent
    · cases h
  | accept l sockfd wc hw =>
    simp only [step] at h
    split at h
    · next hactive =>
      simp only [Option.ite_none_right_eq_some, Bool.and_eq_true, beq_iff_eq] at h
      exact .accept hactive h.1.2 h.2
    · cases h
  | timer l =>
    simp only [step] at h
    split at h
    · next hactive =>
      simp only [Option.ite_none_right_eq_some, Option.some.injEq] at h
      obtain ⟨-, rfl⟩ := h
      exact .timer hactive
    · cases h
  | callFunctor l w =>
    simp only [step] at h
    split at h
    · cases h
    · next hfunctors =>
      simp only [Option.ite_none_right_eq_some, Bool.and_eq_true] at h
      obtain ⟨⟨hlive, -⟩, h⟩ := h
      obtain ⟨loop, hloop, h⟩ := Option.bind_eq_some_iff.mp h
      exact .callFunctor hlive hfunctors hloop h
  | resume l =>
    simp only [step, Option.ite_none_right_eq_some, Bool.and_eq_true] at h
    exact .resume h.1.1 h.2
  | userCall p c w =>
    simp only [step, Option.ite_none_right_eq_some, Bool.and_eq_true] at h
    exact .userCall h.1.2 h.2
  | test th p c =>
    simp only [step, Option.ite_none_right_eq_some, Bool.and_eq_true] at h
    obtain ⟨⟨⟨-, halive⟩, -⟩, h⟩ := h
    split at h
    · next htest =>
      cases h
      exact .testPassed halive htest
    · cases h
      exact .testFailed
  | store th =>
    simp only [step] at h
    split at h
    · next hcall =>
      cases h
      exact .store hcall
    · cases h
  | push th =>
    simp only [step] at h
    split at h
    · next hcall => exact .push hcall h
    · cases h
  | runAfter th l =>
    simp only [step, Option.ite_none_right_eq_some] at h
    exact .runAfter h.2
  | start th =>
    simp only [step, Option.ite_none_right_eq_some] at h
    exact .start h.2
  | destroy =>
    simp only [step, Option.ite_none_right_eq_some, Option.some.injEq] at h
    obtain ⟨-, rfl⟩ := h
    exact .destroy
  | finish => exact .finish h
  | release p =>
    simp only [step, Option.ite_none_right_eq_some, Option.some.injEq, Bool.and_eq_true,
      Bool.not_eq_true'] at h
    obtain ⟨⟨-, howned⟩, rfl⟩ := h
    exact .release howned

/-- `queueInLoop` is a step of the loop: it pushes the functor, and the loop's thread stays where it
is. -/
theorem step_of_queueInLoop {th : Thread T} {l : Nat} {f : LoopsFunctor}
    (h : s.queueInLoop th l f = some s') :
    ∃ a loop, (s.loops l).step a = some loop ∧ a.push = [f] ∧ loop.pc = (s.loops l).pc ∧
      s' = { s with loops := Function.update s.loops l loop } := by
  obtain ⟨loop, hstep, rfl⟩ := Option.map_eq_some_iff.mp h
  refine ⟨_, loop, hstep, ?_, ?_, rfl⟩
  · split
    · rfl
    · rfl
  · obtain ⟨-, rfl⟩ := EventLoop.step_eq_some.mp hstep
    split
    · rfl
    · rfl

/-- What holds of all functors of each loop, one loop's step keeps if it holds of what is pushed. -/
theorem forall_queue_update {loops : Nat → EventLoop (Thread T) LoopsFunctor}
    {P : Nat → LoopsFunctor → Prop} {l : Nat} {a : LoopAction (Thread T) LoopsFunctor}
    {loop : EventLoop (Thread T) LoopsFunctor} (hconsistent : (loops l).Consistent)
    (hstep : (loops l).step a = some loop) (hqueue : ∀ l', ∀ f ∈ (loops l').queue, P l' f)
    (hpush : ∀ f ∈ a.push, P l f) :
    ∀ l', ∀ f ∈ (Function.update loops l loop l').queue, P l' f := by
  refine (Function.forall_update_iff loops fun l' loop => ∀ f ∈ loop.queue, P l' f).mpr
    ⟨?_, fun l' _ => hqueue l'⟩
  intro f hf
  rcases EventLoop.mem_queue_of_step hconsistent hstep hf with hold | hnew
  · exact hqueue l f hold
  · exact hpush f hnew

theorem consistent_update {loops : Nat → EventLoop (Thread T) LoopsFunctor} {l : Nat}
    {a : LoopAction (Thread T) LoopsFunctor} {loop : EventLoop (Thread T) LoopsFunctor}
    (hconsistent : ∀ l', (loops l').Consistent) (hstep : (loops l).step a = some loop) :
    ∀ l', (Function.update loops l loop l').Consistent :=
  (Function.forall_update_iff loops fun _ loop => loop.Consistent).mpr
    ⟨EventLoop.consistent_step _ _ _ (hconsistent l) hstep, fun l' _ => hconsistent l'⟩

end ServerLoops
end Muduo
