import Muduo.ConnectionDown
import Muduo.TcpClient

/-!
# A pass over the active channels

One `EventLoop` with everything that lives on it: connections, servers without sub-loops, connectors
and clients.  `loop()` takes the pointers that `poll` has filled in one after the other and calls
`handleEvent`; handlers call the user, who may do anything that the loop thread may do.

* A channel is its address.  What `handleEvent` does depends on the object whose channel has the
  address; at an address without an object it does nothing here (the code calls a destroyed object).
* `removed`: the channels given to `removeChannel` since the last `poll`.
* A function that calls the user in its middle leaves the rest as a `PassFrame`, as in `ServerLoops`.
* The functors of the loop run between two passes.
-/

namespace Muduo

open Transition

/-- What `closeCallback_` of a connection is bound to. -/
inductive CloseCallback
  | server (k : Nat)
  | client (j : Nat)
  /-- `detail::removeConnection` -/
  | detached
deriving DecidableEq, Repr

structure PassServer where
  /-- false from the beginning of `~TcpServer` -/
  alive : Bool
  acceptChannel : Channel
  /-- `connections_` -/
  connections : List Nat
deriving DecidableEq, Repr

inductive PassFunctor
  | conn (i : Nat) (f : ConnFunctor)
  | connector (j : Nat) (f : ConnectorFunctor)
  /-- a functor of the user -/
  | user
deriving DecidableEq, Repr

/-- The rest of a function that is calling the user. -/
inductive PassFrame
  /-- `handleClose`: `closeCallback_(connPtr)` -/
  | closeCallback (i : Nat)
  /-- `connectDestroyed`: `channel_->remove()` -/
  | removeChannel (i : Nat)
  /-- `~TcpServer`: the entries of `connections_` still to come, and then the acceptor -/
  | walk (k : Nat) (connections : List Nat)
deriving DecidableEq, Repr

inductive PassPhase
  /-- before `poll` -/
  | outside
  /-- in the `for` over `activeChannels_` -/
  | handling
  /-- in `doPendingFunctors` -/
  | running
deriving DecidableEq, Repr

/-- What a new connection gets: the address of its channel, and which callbacks are set. -/
structure NewConnection where
  addr : Nat
  writeCompleteCallback : Bool
  highWaterMarkCallback : Bool
deriving DecidableEq, Repr

structure LoopPass where
  poller : EPollPoller
  phase : PassPhase
  /-- `activeChannels_` still to be handled -/
  active : List Nat
  /-- the channel in `handleEvent` -/
  current : Option Nat
  /-- history: the channels removed since the last `poll` -/
  removed : List Nat
  frames : List PassFrame
  pendingFunctors : List PassFunctor
  functors : List PassFunctor
  /-- the number of connections made -/
  created : Nat
  conns : Nat → TcpConnection
  closeCallbacks : Nat → CloseCallback
  servers : Nat → Option PassServer
  connectors : Nat → Option Connector
  /-- the timers of `Connector::retry` that have not expired -/
  timers : Nat → Nat
  /-- the client of connector `j` -/
  clients : Nat → Option TcpClient

inductive PassAction
  /-- `epoll_wait` reports the descriptors -/
  | poll (fds : List Nat)
  /-- `loop()` calls `handleEvent` on the next channel -/
  | handleEvent
  | callback (i : Nat) (cb : EventCallback) (r : ReadvResult) (w : WriteResult)
  /-- `Acceptor::handleRead` with a new descriptor -/
  | accept (k sockfd : Nat) (conn : NewConnection)
  | handleWriter (j : Nat) (err : Option Errno) (selfConnect : Bool) (conn : NewConnection)
  | handleError (j : Nat)
  /-- a timer of `Connector::retry` -/
  | timer (j : Nat) (r : Attempt)
  | endEvent
  | beginFunctors
  | callFunctor (w : WriteResult) (r : Attempt)
  | endFunctors
  /-- the user's callback returns to the topmost frame -/
  | resume (r : Attempt)
  /-- the user calls a connection -/
  | userCall (i : Nat) (c : UserCall) (w : WriteResult)
  | queueInLoop
  | newServer (k addr fd : Nat)
  | startServer (k : Nat)
  /-- `~TcpServer` is called -/
  | destroyServer (k : Nat)
  | newConnector (j : Nat)
  | startConnector (j : Nat) (r : Attempt)
  | stopConnector (j : Nat)
  /-- `TcpClient()`, with its connector -/
  | newClient (j : Nat)
  | connectClient (j : Nat) (r : Attempt)
  | disconnectClient (j : Nat) (w : WriteResult)
  | stopClient (j : Nat)
  | enableRetry (j : Nat)
  /-- `~TcpClient`; `unique` is `connection_.unique()` -/
  | destroyClient (j : Nat) (unique : Bool)

namespace LoopPass

/-- A loop before `loop()`.  Its own channels, of `wakeupFd_` and `timerfd_`, are in the poller. -/
def init (poller : EPollPoller) : LoopPass where
  poller
  phase := .outside
  active := []
  current := none
  removed := []
  frames := []
  pendingFunctors := []
  functors := []
  created := 0
  conns := fun _ => TcpConnection.new poller 0 0 false false
  closeCallbacks := fun _ => .detached
  servers := fun _ => none
  connectors := fun _ => none
  timers := fun _ => 0
  clients := fun _ => none

/-- User code may act: not in `poll`, and not in the middle of `~TcpServer`'s own code. -/
def canAct (s : LoopPass) : Bool :=
  (s.phase == .outside || s.phase == .running || s.current.isSome) &&
    match s.frames with
    | .walk _ _ :: _ => false
    | _ => true

/-! ## Connections -/

def push (s : LoopPass) (f : PassFunctor) : LoopPass :=
  { s with pendingFunctors := s.pendingFunctors ++ [f] }

def pushFrame (s : LoopPass) (f : PassFrame) : LoopPass := { s with frames := f :: s.frames }

/-- The address of the channel of connection `i`. -/
def addrOf (s : LoopPass) (i : Nat) : Nat := (s.conns i).channel.addr

/-- The connection, with the poller of the loop. -/
def connOf (s : LoopPass) (i : Nat) : TcpConnection := { s.conns i with poller := s.poller }

def setConn (s : LoopPass) (i : Nat) (c : TcpConnection) : LoopPass :=
  { s with conns := Function.update s.conns i c, poller := c.poller }

def effect (s : LoopPass) (i : Nat) : Effect → LoopPass
  | .queueInLoop f => s.push (.conn i f)
  | .closeCallback => s.pushFrame (.closeCallback i)
  | _ => s

/-- A function of the connection. -/
def callConn (s : LoopPass) (i : Nat) (call : ConnCall) : Option LoopPass :=
  let c := s.connOf i
  (c.exec call).map fun (c', es) =>
    let removed := (c.pollerCalls call).filter (· == .remove)
    es.foldl (fun s e => s.effect i e)
      { s.setConn i c' with removed := s.removed ++ removed.map fun _ => c.channel.addr }

/-- The end of `connectDestroyed`. -/
def removeChannel (s : LoopPass) (i : Nat) : Option LoopPass :=
  ((s.connOf i).withChannel Channel.remove).map fun c =>
    { s.setConn i c with removed := s.removed ++ [s.addrOf i] }

/-- `connectDestroyed`, as far as `connectionCallback_` if that is called. -/
def connectDestroyed (s : LoopPass) (i : Nat) : Option LoopPass :=
  (s.connOf i).downIfConnected.bind fun (c', es) =>
    let s := s.setConn i c'
    if es.isEmpty then s.removeChannel i else some (s.pushFrame (.removeChannel i))

def addConn (s : LoopPass) (sockfd : Nat) (conn : NewConnection) (closeCallback : CloseCallback) :
    LoopPass :=
  { s with
    created := s.created + 1
    conns := Function.update s.conns s.created (TcpConnection.new s.poller conn.addr sockfd
      conn.writeCompleteCallback conn.highWaterMarkCallback)
    closeCallbacks := Function.update s.closeCallbacks s.created closeCallback }

/-- A connection is made and established. -/
def establish (s : LoopPass) (sockfd : Nat) (conn : NewConnection) (closeCallback : CloseCallback) :
    Option LoopPass :=
  (s.addConn sockfd conn closeCallback).callConn s.created (.functor .connectEstablished (.count 0))

/-! ## Connectors and clients -/

/-- The channel that the calls with these effects have removed: `removeAndResetChannel` queues
`resetChannel` for it. -/
def removedBy (c : Connector) (es : List ConnectorEffect) : List Nat :=
  if .queueInLoop .resetChannel ∈ es then (c.channel.map Channel.addr).toList else []

/-- A function of connector `j`, with its effects. -/
def callConnector (s : LoopPass) (j : Nat) (f : Connector → Connector.Result) :
    Option (LoopPass × List ConnectorEffect) :=
  (s.connectors j).bind fun c =>
    (f { c with poller := s.poller }).map fun (c', es) =>
      ({ s with
        connectors := Function.update s.connectors j (some c')
        poller := c'.poller
        pendingFunctors := s.pendingFunctors ++
          (es.filterMap ConnectorEffect.functor).map (.connector j)
        timers := Function.update s.timers j (s.timers j + es.count .runAfter)
        removed := s.removed ++ removedBy c es }, es)

def setServer (s : LoopPass) (k : Nat) (server : PassServer) : LoopPass :=
  { s with servers := Function.update s.servers k (some server) }

def setClient (s : LoopPass) (j : Nat) (client : TcpClient) : LoopPass :=
  { s with clients := Function.update s.clients j (some client) }

/-- `newConnectionCallback_` of connector `j`, which is `TcpClient::newConnection`. -/
def newConnection (s : LoopPass) (j : Nat) (conn : NewConnection) (sockfd : Nat) : Option LoopPass :=
  match s.clients j with
  | none => some s
  | some client =>
    (s.setClient j { client with connection_ := some s.created }).establish sockfd conn (.client j)

/-- `closeCallback_` of connection `i`. -/
def closeCallback (s : LoopPass) (i : Nat) (r : Attempt) : Option LoopPass :=
  match s.closeCallbacks i with
  | .server k =>
    match s.servers k with
    | none => some (s.push (.conn i .connectDestroyed))
    | some server =>
      some ((s.setServer k { server with connections := server.connections.erase i }).push
        (.conn i .connectDestroyed))
  | .client j =>
    match s.clients j with
    | none => some (s.push (.conn i .connectDestroyed))
    | some client =>
      let s := (s.setClient j { client with connection_ := none }).push (.conn i .connectDestroyed)
      if client.retry_ && client.connect_ then
        (s.callConnector j fun c => c.restart r).map Prod.fst
      else some s
  | .detached => some (s.push (.conn i .connectDestroyed))

def destroyClient (s : LoopPass) (j : Nat) (client : TcpClient) (unique : Bool) : Option LoopPass :=
  let s := { s with clients := Function.update s.clients j none }
  match client.connection_ with
  | some i =>
    let s := { s with closeCallbacks := Function.update s.closeCallbacks i .detached }
    if unique then s.callConn i (.user .forceClose (.count 0)) else some s
  | none => (s.callConnector j Connector.stop).map Prod.fst

/-! ## Servers -/

/-- `Acceptor::listen`. -/
def listen (s : LoopPass) (k : Nat) (server : PassServer) : Option LoopPass :=
  (server.acceptChannel.enableReading s.poller).map fun (poller, acceptChannel) =>
    { s.setServer k { server with acceptChannel } with poller }

/-- `~Acceptor`. -/
def destroyAcceptor (s : LoopPass) (k : Nat) (server : PassServer) : Option LoopPass :=
  (server.acceptChannel.disableAll s.poller).bind fun (poller, ch) =>
    (ch.remove poller).map fun (poller, acceptChannel) =>
      { s.setServer k { server with acceptChannel } with
        poller
        removed := s.removed ++ [server.acceptChannel.addr] }

/-- The rest of a function, after the user's callback. -/
def resume (s : LoopPass) (r : Attempt) : Option LoopPass :=
  match s.frames with
  | [] => none
  | .closeCallback i :: frames => { s with frames }.closeCallback i r
  | .removeChannel i :: frames => { s with frames }.removeChannel i
  | .walk k connections :: frames =>
    match connections with
    | i :: connections => { s with frames := .walk k connections :: frames }.connectDestroyed i
    | [] => (s.servers k).bind fun server => { s with frames }.destroyAcceptor k server

/-! ## Steps -/

def runFunctor (s : LoopPass) (f : PassFunctor) (w : WriteResult) (r : Attempt) : Option LoopPass :=
  match f with
  | .conn i .connectDestroyed => s.connectDestroyed i
  | .conn i f => s.callConn i (.functor f w)
  | .connector j f => (s.callConnector j fun c => c.callFunctor r f).map Prod.fst
  | .user => some s

/-- The pointer registered with a descriptor. -/
def reported (s : LoopPass) (fd : Nat) : Option Nat := (s.poller.interest fd).map EpollEvent.ptr

/-- The handler of this channel is running. -/
def handles (s : LoopPass) (addr : Nat) : Bool := s.frames.isEmpty && s.current == some addr

def handlesConnector (s : LoopPass) (j : Nat) : Bool :=
  match (s.connectors j).bind Connector.channel with
  | none => false
  | some ch => s.handles ch.addr

def step (s : LoopPass) : PassAction → Option LoopPass
  | .poll fds =>
    if s.phase == .outside && s.frames.isEmpty && decide fds.Nodup &&
        fds.all fun fd => (s.reported fd).isSome then
      some { s with phase := .handling, active := fds.filterMap s.reported, removed := [] }
    else none
  | .handleEvent =>
    match s.active with
    | [] => none
    | addr :: active =>
      if s.phase == .handling && s.frames.isEmpty && s.current.isNone then
        some { s with active, current := some addr }
      else none
  | .callback i cb r w =>
    if s.handles (s.addrOf i) && decide (i < s.created) then s.callConn i (.event cb r w) else none
  | .accept k sockfd conn =>
    match s.servers k with
    | none => none
    | some server =>
      if s.handles server.acceptChannel.addr && server.alive then
        (s.setServer k { server with connections := server.connections ++ [s.created] }).establish
          sockfd conn (.server k)
      else none
  | .handleWriter j err selfConnect conn =>
    if s.handlesConnector j then
      (s.callConnector j fun c => c.handleWriter err selfConnect).bind fun (s, es) =>
        (es.filterMap ConnectorEffect.delivers).foldlM (fun s sockfd => s.newConnection j conn sockfd) s
    else none
  | .handleError j =>
    if s.handlesConnector j then (s.callConnector j Connector.handleError).map Prod.fst else none
  | .timer j r =>
    if s.frames.isEmpty && s.current.isSome && decide (0 < s.timers j) then
      ({ s with timers := Function.update s.timers j (s.timers j - 1) }.callConnector j
        fun c => c.startInLoop r).map Prod.fst
    else none
  | .endEvent =>
    if s.frames.isEmpty && s.current.isSome then some { s with current := none } else none
  | .beginFunctors =>
    if s.phase == .handling && s.frames.isEmpty && s.current.isNone && s.active.isEmpty then
      some { s with phase := .running, functors := s.pendingFunctors, pendingFunctors := [] }
    else none
  | .callFunctor w r =>
    match s.functors with
    | [] => none
    | f :: functors =>
      if s.phase == .running && s.frames.isEmpty then { s with functors }.runFunctor f w r else none
  | .endFunctors =>
    if s.phase == .running && s.frames.isEmpty && s.functors.isEmpty then
      some { s with phase := .outside }
    else none
  | .resume r => s.resume r
  | .userCall i c w =>
    if s.canAct && decide (i < s.created) then s.callConn i (.user c w) else none
  | .queueInLoop => if s.canAct then some (s.push .user) else none
  | .newServer k addr fd =>
    if s.canAct && (s.servers k).isNone then
      some (s.setServer k { alive := true, acceptChannel := Channel.new addr fd, connections := [] })
    else none
  | .startServer k =>
    match s.servers k with
    | none => none
    | some server => if s.canAct && server.alive then s.listen k server else none
  | .destroyServer k =>
    match s.servers k with
    | none => none
    | some server =>
      if s.canAct && server.alive then
        some ((s.setServer k { server with alive := false }).pushFrame (.walk k server.connections))
      else none
  | .newConnector j =>
    if s.canAct && (s.connectors j).isNone then
      some { s with connectors := Function.update s.connectors j (some (Connector.new s.poller)) }
    else none
  | .startConnector j r =>
    if s.canAct then (s.callConnector j fun c => c.start true r).map Prod.fst else none
  | .stopConnector j =>
    if s.canAct then (s.callConnector j Connector.stop).map Prod.fst else none
  | .newClient j =>
    if s.canAct && (s.connectors j).isNone && (s.clients j).isNone then
      some ({ s with
        connectors := Function.update s.connectors j (some (Connector.new s.poller)) }.setClient j
          { retry_ := false, connect_ := true, connection_ := none })
    else none
  | .connectClient j r =>
    match s.clients j with
    | none => none
    | some client =>
      if s.canAct then
        ((s.setClient j { client with connect_ := true }).callConnector j
          fun c => c.start true r).map Prod.fst
      else none
  | .disconnectClient j w =>
    match s.clients j with
    | none => none
    | some client =>
      if s.canAct then
        let s := s.setClient j { client with connect_ := false }
        match client.connection_ with
        | none => some s
        | some i => s.callConn i (.user .shutdown w)
      else none
  | .stopClient j =>
    match s.clients j with
    | none => none
    | some client =>
      if s.canAct then
        ((s.setClient j { client with connect_ := false }).callConnector j Connector.stop).map Prod.fst
      else none
  | .enableRetry j =>
    match s.clients j with
    | none => none
    | some client => if s.canAct then some (s.setClient j { client with retry_ := true }) else none
  | .destroyClient j unique =>
    match s.clients j with
    | none => none
    | some client => if s.canAct then s.destroyClient j client unique else none

end LoopPass
end Muduo
