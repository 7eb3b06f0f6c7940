import Muduo.EPollPoller

/-!
# Connector

`Connector.cc`, one function of the source a definition, in the manner of `TcpConnection`: the
connector after the call and what the call did outside it; `none` is the `exit(-1)` of
`handleWriter`, the `abort()` of the poller or the use of a null `channel_`.

* `Attempt`: what `socket`, `new Channel` and `::connect` return, should `connect` be called.
* `outcome`: the `switch` in `connect`.
* `Connector.Idle`, `Connector.Connecting`: no channel is registered, or `channel_` is, on a given
  descriptor.  The lemmas at the end say what each function does to a connector of either kind.
-/

namespace Muduo

/-- `States`. -/
inductive ConnectorState
  | kDisconnected | kConnecting | kConnected
deriving DecidableEq, Repr

/-- The functors bound to a connector. -/
inductive ConnectorFunctor
  | startInLoop | stopInLoop | resetChannel
deriving DecidableEq, Repr

inductive ConnectorEffect
  /-- `createNonblocking()` returned `sockfd` -/
  | createNonblocking (sockfd : Nat)
  /-- `::close(sockfd)` -/
  | close (sockfd : Nat)
  /-- `newConnectionCallback_(sockfd)` -/
  | newConnectionCallback (sockfd : Nat)
  /-- `loop_->queueInLoop(f)` -/
  | queueInLoop (f : ConnectorFunctor)
  /-- `loop_->runAfter(5, startInLoop)` -/
  | runAfter
deriving DecidableEq, Repr

structure Attempt where
  sockfd : Nat
  /-- the address of the new `Channel` -/
  addr : Nat
  /-- `none` for 0 -/
  savedErrno : Option Errno
deriving DecidableEq, Repr

inductive AttemptOutcome
  | connecting | retry | close
deriving DecidableEq, Repr

def Attempt.outcome (r : Attempt) : AttemptOutcome :=
  match r.savedErrno with
  | none | some .EINPROGRESS | some .EINTR | some .EISCONN => .connecting
  | some .EAGAIN | some .EADDRINUSE | some .EADDRNOTAVAIL | some .ECONNREFUSED
  | some .ENETUNREACH => .retry
  | some .EACCES | some .EPERM | some .EAFNOSUPPORT | some .EALREADY | some .EBADF | some .EFAULT
  | some .ENOTSOCK => .close
  | some _ => .close

structure Connector where
  connect_ : Bool
  state : ConnectorState
  channel : Option Channel
  /-- `loop_->poller_` -/
  poller : EPollPoller

namespace Connector

/-- `Connector(loop, serverAddr)`. -/
def new (poller : EPollPoller) : Connector := ⟨false, .kDisconnected, none, poller⟩

def setState (c : Connector) (s : ConnectorState) : Connector := { c with state := s }

/-- The connector after a call and the call's effects. -/
abbrev Result := Option (Connector × List ConnectorEffect)

/-! ## The functions -/

def retry (c : Connector) (sockfd : Nat) : Connector × List ConnectorEffect :=
  (c.setState .kDisconnected, .close sockfd :: if c.connect_ then [.runAfter] else [])

/-- With the descriptor of the channel. -/
def removeAndResetChannel (c : Connector) : Option (Connector × Nat × List ConnectorEffect) := do
  let ch ← c.channel
  let (poller, ch) ← ch.disableAll c.poller
  let (poller, ch) ← ch.remove poller
  some ({ c with channel := some ch, poller }, ch.fd, [.queueInLoop .resetChannel])

def resetChannel (c : Connector) : Connector := { c with channel := none }

def connecting (c : Connector) (sockfd addr : Nat) : Option Connector := do
  let c := c.setState .kConnecting
  let (poller, ch) ← (Channel.new addr sockfd).enableWriting c.poller
  some { c with channel := some ch, poller }

def connect (c : Connector) (r : Attempt) : Result :=
  match r.outcome with
  | .connecting => do
    let c ← c.connecting r.sockfd r.addr
    some (c, [.createNonblocking r.sockfd])
  | .retry =>
    let (c, es) := c.retry r.sockfd
    some (c, .createNonblocking r.sockfd :: es)
  | .close => some (c, [.createNonblocking r.sockfd, .close r.sockfd])

def startInLoop (c : Connector) (r : Attempt) : Result :=
  if c.connect_ then c.connect r else some (c, [])

/-- `inLoopThread` is `loop_->isInLoopThread()`. -/
def start (c : Connector) (inLoopThread : Bool) (r : Attempt) : Result :=
  let c := { c with connect_ := true }
  if inLoopThread then c.startInLoop r else some (c, [.queueInLoop .startInLoop])

def restart (c : Connector) (r : Attempt) : Result :=
  if c.connect_ then c.connect r else some (c, [])

def stop (c : Connector) : Result := some ({ c with connect_ := false }, [.queueInLoop .stopInLoop])

def stopInLoop (c : Connector) : Result :=
  if c.state = .kConnecting then do
    let c := c.setState .kDisconnected
    let (c, sockfd, es) ← c.removeAndResetChannel
    let (c, es') := c.retry sockfd
    some (c, es ++ es')
  else some (c, [])

/-- `err` is what `SO_ERROR` says, `selfConnect` whether the two addresses of the socket are equal. -/
def handleWriter (c : Connector) (err : Option Errno) (selfConnect : Bool) : Result :=
  if c.state = .kConnecting then do
    let (c, sockfd, es) ← c.removeAndResetChannel
    if err.isSome then
      let (c, es') := c.retry sockfd
      some (c, es ++ es')
    else if selfConnect then
      let (c, es') := c.retry sockfd
      some (c, es ++ es')
    else
      let c := c.setState .kConnected
      if c.connect_ then some (c, es ++ [.newConnectionCallback sockfd])
      else some (c, es ++ [.close sockfd])
  else if c.state = .kDisconnected then some (c, [])
  else none

def handleError (c : Connector) : Result :=
  if c.state = .kConnecting then do
    let (c, sockfd, es) ← c.removeAndResetChannel
    let (c, es') := c.retry sockfd
    some (c, es ++ es')
  else some (c, [])

/-! ## The channel -/

/-- `channel_` is registered with the poller, on `fd`. -/
def Registered (c : Connector) (fd : Nat) : Prop :=
  ∃ ch, c.channel = some ch ∧ ch.fd = fd ∧ c.poller.Watched ch ∧ c.poller.channels fd = some ch.addr

/-- An attempt is in progress on `fd`. -/
def Connecting (c : Connector) (fd : Nat) : Prop := c.state = .kConnecting ∧ c.Registered fd

/-- No attempt is in progress; a channel may still wait for `resetChannel`. -/
def Idle (c : Connector) : Prop :=
  c.state ≠ .kConnecting ∧ ∀ ch, c.channel = some ch → ch.index ≠ .kAdded

theorem idle_new (poller : EPollPoller) : (new poller).Idle := ⟨by simp [new], fun _ h => by cases h⟩

theorem Idle.not_registered {c : Connector} (h : c.Idle) (fd : Nat) : ¬ c.Registered fd := by
  rintro ⟨ch, hch, -, hwatched, -⟩
  exact h.2 ch hch hwatched.1

/-- An attempt on a descriptor that the poller does not know. -/
theorem connecting_eq_some {c : Connector} {sockfd : Nat} (h : c.poller.interest sockfd = none)
    (addr : Nat) : ∃ c', c.connecting sockfd addr = some c' ∧ c'.Connecting sockfd := by
  have htracked : c.poller.Tracked { Channel.new addr sockfd with events := 0 ||| kWriteEvent } := by
    simp [EPollPoller.Tracked, Channel.new, h]
  have hupdate := EPollPoller.updateChannel_eq htracked
  simp only [connecting, setState, Channel.enableWriting, Option.bind_eq_bind]
  refine ⟨_, congrArg (Option.bind · _) hupdate, rfl, _, rfl, rfl, ⟨rfl, ?_⟩, ?_⟩
  · exact Function.update_self _ _ _
  · exact Function.update_self _ _ _

/-- **A registered channel is removed**, and `resetChannel` is queued for it. -/
theorem removeAndResetChannel_eq_some {c : Connector} {fd : Nat} (h : c.Registered fd) :
    ∃ c', c.removeAndResetChannel = some (c', fd, [.queueInLoop .resetChannel]) ∧
      c'.state = c.state ∧ c'.connect_ = c.connect_ ∧
      ∀ ch, c'.channel = some ch → ch.index ≠ .kAdded := by
  obtain ⟨ch, hch, rfl, hwatched, -⟩ := h
  obtain ⟨p₁, ch₁, p₂, ch₂, hdisable, hremove, hfd, hindex⟩ := EPollPoller.disableAll_remove hwatched
  refine ⟨{ c with channel := some ch₂, poller := p₂ }, ?_, rfl, rfl, ?_⟩
  · simp only [removeAndResetChannel, hch, hdisable, hremove, hfd, Option.bind_eq_bind,
      Option.bind_some]
  · rintro _ ⟨⟩
    simp [hindex]

end Connector
end Muduo
