import Muduo.BufferQueue
import Muduo.EPollPoller

/-!
# TcpConnection

`TcpConnection.cc`, one function of the source a definition.  A function returns the connection
after the call and what the call did outside it, in order (`Effect`); `none` is the `abort()` of
the poller, or an answer that the kernel never gives.

* Results of `::write` and `::readv` and the event masks are arguments.
* Callbacks of the user are effects: what user code does inside one is a later step of the run.  A
  callback is the last thing its function does, but for `closeCallback_` in `handleClose` and the
  removal of the channel in `connectDestroyed`, both in state `kDisconnected`.
* `poller` is `loop_->poller_`, as the connection's loop thread sees it.
-/

namespace Muduo

inductive StateE
  | kDisconnected | kConnecting | kConnected | kDisconnecting
deriving DecidableEq, Repr

/-- The functors bound to a connection. -/
inductive ConnFunctor
  | connectEstablished
  | connectDestroyed
  | sendInLoop (data : List UInt8)
  | shutdownInLoop
  | forceCloseInLoop
  | writeComplete
  | highWaterMark (len : Nat)
deriving DecidableEq, Repr

/-- Whether the functor binds a `TcpConnectionPtr`; `send` and `shutdown` bind `this`. -/
def ConnFunctor.owns : ConnFunctor → Bool
  | .sendInLoop _ | .shutdownInLoop => false
  | _ => true

/-- What a call does outside the connection. -/
inductive Effect
  /-- `::write` returned the length of `bs`, having taken these bytes -/
  | write (bs : List UInt8)
  /-- `::shutdown(fd, SHUT_WR)` -/
  | shutdownWrite
  /-- `connectionCallback_(conn)`, with what `conn->connected()` says -/
  | connectionCallback (connected : Bool)
  | messageCallback
  | closeCallback
  /-- `loop_->queueInLoop(f)` -/
  | queueInLoop (f : ConnFunctor)
deriving DecidableEq, Repr

structure TcpConnection where
  stat : StateE
  channel : Channel
  inputBuffer : ValidBuffer
  outputBuffer : ValidBuffer
  highWaterMark : Nat
  /-- whether the callback is set -/
  writeCompleteCallback : Bool
  highWaterMarkCallback : Bool
  poller : EPollPoller

/-- `errno == EPIPE || errno == ECONNRESET`. -/
def Errno.isFault (e : Errno) : Bool := e == .EPIPE || e == .ECONNRESET

/-- The `faultError` that `sendInLoop` makes of the result: `errno` is tested once behind `::write`,
and a second time behind `LOG_ERROR`. -/
def WriteResult.faultError : WriteResult → Bool
  | .count _ => false
  | .error e logged => e != .EAGAIN && logged.isFault

namespace TcpConnection

/-- `TcpConnection(loop, name, sockfd, …)`, its channel allocated at `addr`. -/
def new (poller : EPollPoller) (addr sockfd : Nat) (writeCompleteCallback highWaterMarkCallback : Bool) :
    TcpConnection where
  stat := .kConnecting
  channel := Channel.new addr sockfd
  inputBuffer := ValidBuffer.new kInitialSize
  outputBuffer := ValidBuffer.new kInitialSize
  highWaterMark := 64 * 1024 * 1024
  writeCompleteCallback := writeCompleteCallback
  highWaterMarkCallback := highWaterMarkCallback
  poller := poller

def connected (c : TcpConnection) : Bool := c.stat == .kConnected

def setState (c : TcpConnection) (state : StateE) : TcpConnection := { c with stat := state }

/-- A call of the channel into the poller. -/
def withChannel (c : TcpConnection)
    (call : Channel → EPollPoller → Option (EPollPoller × Channel)) : Option TcpConnection := do
  let (poller, channel) ← call c.channel c.poller
  some { c with poller, channel }

/-- The connection after a call and the call's effects. -/
abbrev Result := Option (TcpConnection × List Effect)

/-! ## Output -/

/-- 如果socket上有数据没写完则暂时不关闭: as long as data is unwritten, the socket is not shut. -/
def shutdownInLoop (c : TcpConnection) : Result :=
  if !c.channel.isWriting then some (c, [.shutdownWrite]) else some (c, [])

/-- The outcome of the first `if` of `sendInLoop`. -/
structure DirectWrite where
  effects : List Effect
  nwrote : Nat
  faultError : Bool

/-- Nothing is waiting for the socket to become writable. -/
def idle (c : TcpConnection) : Bool := !c.channel.isWriting && c.outputBuffer.readableBytes == 0

/-- The first `if` of `sendInLoop`: write at once when nothing is queued before. -/
def directWrite (c : TcpConnection) (data : List UInt8) (w : WriteResult) : DirectWrite :=
  if c.idle then
    match w with
    | .count n =>
      let bs := data.take n
      let remaining := data.length - bs.length
      { effects := .write bs ::
          (if remaining == 0 && c.writeCompleteCallback then [.queueInLoop .writeComplete] else [])
        nwrote := bs.length
        faultError := false }
    | .error _ _ => { effects := [], nwrote := 0, faultError := w.faultError }
  else { effects := [], nwrote := 0, faultError := false }

/-- `if (!channel_->isWriting()) channel_->enableWriting();` -/
def watchOutput (c : TcpConnection) : Option TcpConnection :=
  if !c.channel.isWriting then c.withChannel Channel.enableWriting else some c

/-- The second `if` of `sendInLoop`: keep the remaining bytes and watch for writability. -/
def queueOutput (c : TcpConnection) (rest : List UInt8) : Result := do
  let oldLen := c.outputBuffer.readableBytes
  let remaining := rest.length
  let es := if oldLen + remaining ≥ c.highWaterMark && oldLen < c.highWaterMark
      && c.highWaterMarkCallback then [.queueInLoop (.highWaterMark (oldLen + remaining))] else []
  let c ← watchOutput { c with outputBuffer := c.outputBuffer.append rest }
  some (c, es)

def sendInLoop (c : TcpConnection) (data : List UInt8) (w : WriteResult) : Result :=
  if c.stat = .kDisconnected then some (c, [])
  else
    let d := c.directWrite data w
    let remaining := data.length - d.nwrote
    if !d.faultError && remaining > 0 then do
      let (c, es) ← c.queueOutput (data.drop d.nwrote)
      some (c, d.effects ++ es)
    else some (c, d.effects)

/-- The branch of `handleWrite` that has emptied the buffer. -/
def outputDrained (c : TcpConnection) : Result := do
  let c ← c.withChannel Channel.disableWriting
  let es := if c.writeCompleteCallback then [.queueInLoop .writeComplete] else []
  if c.stat = .kDisconnecting then do
    let (c, es') ← c.shutdownInLoop
    some (c, es ++ es')
  else some (c, es)

def handleWrite (c : TcpConnection) (w : WriteResult) : Result :=
  if c.channel.isWriting then
    match w with
    | .count n =>
      let bs := c.outputBuffer.toQueue.take n
      if bs.length > 0 then
        let c := { c with outputBuffer := c.outputBuffer.retrieve bs.length }
        if c.outputBuffer.readableBytes = 0 then do
          let (c, es) ← c.outputDrained
          some (c, .write bs :: es)
        else some (c, [.write bs])
      else some (c, [.write bs])
    | .error _ _ => some (c, [])
  else some (c, [])

/-- `send(buf)`; `inLoopThread` is `loop_->isInLoopThread()`. -/
def send (c : TcpConnection) (inLoopThread : Bool) (buf : List UInt8) (w : WriteResult) : Result :=
  if c.stat = .kConnected then
    if inLoopThread then c.sendInLoop buf w else some (c, [.queueInLoop (.sendInLoop buf)])
  else some (c, [])

def shutdown (c : TcpConnection) (inLoopThread : Bool) : Result :=
  if c.stat = .kConnected then
    let c := c.setState .kDisconnecting
    if inLoopThread then c.shutdownInLoop else some (c, [.queueInLoop .shutdownInLoop])
  else some (c, [])

/-! ## Life cycle -/

def connectEstablished (c : TcpConnection) : Result := do
  let c := c.setState .kConnected
  let c := { c with channel := { c.channel with tied := true } }
  let c ← c.withChannel Channel.enableReading
  some (c, [.connectionCallback c.connected])

/-- The `if` of `connectDestroyed`. -/
def downIfConnected (c : TcpConnection) : Result :=
  if c.stat = .kConnected then do
    let c := c.setState .kDisconnected
    let c ← c.withChannel Channel.disableAll
    some (c, [.connectionCallback c.connected])
  else some (c, [])

def connectDestroyed (c : TcpConnection) : Result := do
  let (c, es) ← c.downIfConnected
  let c ← c.withChannel Channel.remove
  some (c, es)

def handleClose (c : TcpConnection) : Result := do
  let c := c.setState .kDisconnected
  let c ← c.withChannel Channel.disableAll
  some (c, [.connectionCallback c.connected, .closeCallback])

def forceClose (c : TcpConnection) : Result :=
  if c.stat = .kConnected ∨ c.stat = .kDisconnecting then
    some (c.setState .kDisconnecting, [.queueInLoop .forceCloseInLoop])
  else some (c, [])

def forceCloseInLoop (c : TcpConnection) : Result :=
  if c.stat = .kConnected ∨ c.stat = .kDisconnecting then c.handleClose else some (c, [])

/-- Reads `SO_ERROR` and logs it. -/
def handleError (c : TcpConnection) : Result := some (c, [])

def handleRead (c : TcpConnection) (r : ReadvResult) : Result := do
  let (inputBuffer, n) ← c.inputBuffer.readFd r
  let c := { c with inputBuffer }
  match n with
  | .ok 0 => c.handleClose
  | .ok (_ + 1) => some (c, [.messageCallback])
  | .error _ => c.handleError

/-! ## Lemmas -/

theorem withChannel_eq_some {c c' : TcpConnection}
    {call : Channel → EPollPoller → Option (EPollPoller × Channel)} :
    c.withChannel call = some c' ↔ ∃ poller channel,
      call c.channel c.poller = some (poller, channel) ∧ c' = { c with poller, channel } := by
  simp only [withChannel, Option.bind_eq_bind, Option.bind_eq_some_iff, Prod.exists, Option.some.injEq]
  constructor
  · rintro ⟨poller, channel, h, rfl⟩
    exact ⟨poller, channel, h, rfl⟩
  · rintro ⟨poller, channel, h, rfl⟩
    exact ⟨poller, channel, h, rfl⟩

/-! What the setters have set, no other function changes. -/

/-- The callbacks that are tested before they are called, and the mark. -/
def settings (c : TcpConnection) : Bool × Bool × Nat :=
  (c.writeCompleteCallback, c.highWaterMarkCallback, c.highWaterMark)

section
variable {c c' : TcpConnection} {es : List Effect} {w : WriteResult}

theorem settings_withChannel {call : Channel → EPollPoller → Option (EPollPoller × Channel)}
    (h : c.withChannel call = some c') : c'.settings = c.settings := by
  obtain ⟨poller, channel, -, rfl⟩ := withChannel_eq_some.mp h
  rfl

theorem settings_shutdownInLoop (h : c.shutdownInLoop = some (c', es)) : c'.settings = c.settings := by
  unfold shutdownInLoop at h
  split at h
  · cases h
    rfl
  · cases h
    rfl

theorem settings_sendInLoop {data : List UInt8} (h : c.sendInLoop data w = some (c', es)) :
    c'.settings = c.settings := by
  unfold sendInLoop at h
  dsimp only at h
  split at h
  · cases h
    rfl
  · split at h
    · simp only [queueOutput, Option.bind_eq_bind, Option.bind_eq_some_iff, Prod.exists,
        Option.some.injEq, Prod.mk.injEq] at h
      obtain ⟨c₁, es₁, ⟨c₂, hwatch, rfl, -⟩, rfl, -⟩ := h
      unfold watchOutput at hwatch
      split at hwatch
      · have hsettings := settings_withChannel hwatch
        exact hsettings
      · cases hwatch
        rfl
    · cases h
      rfl

theorem settings_outputDrained (h : c.outputDrained = some (c', es)) : c'.settings = c.settings := by
  simp only [outputDrained, Option.bind_eq_bind, Option.bind_eq_some_iff] at h
  obtain ⟨c₁, hch, h⟩ := h
  have hsettings := settings_withChannel hch
  split at h
  · simp only [Option.bind_eq_some_iff, Prod.exists, Option.some.injEq, Prod.mk.injEq] at h
    obtain ⟨c₂, es', hshut, rfl, -⟩ := h
    exact (settings_shutdownInLoop hshut).trans hsettings
  · cases h
    exact hsettings

theorem settings_handleWrite (h : c.handleWrite w = some (c', es)) : c'.settings = c.settings := by
  unfold handleWrite at h
  split at h
  · cases w with
    | error e =>
      cases h
      rfl
    | count n =>
      simp only at h
      split at h
      · split at h
        · simp only [Option.bind_eq_bind, Option.bind_eq_some_iff, Prod.exists, Option.some.injEq,
            Prod.mk.injEq] at h
          obtain ⟨c₁, es', hd, rfl, -⟩ := h
          have hsettings := settings_outputDrained hd
          exact hsettings
        · cases h
          rfl
      · cases h
        rfl
  · cases h
    rfl

theorem settings_connectEstablished (h : c.connectEstablished = some (c', es)) :
    c'.settings = c.settings := by
  simp only [connectEstablished, Option.bind_eq_bind, Option.bind_eq_some_iff, Option.some.injEq,
    Prod.mk.injEq] at h
  obtain ⟨c₁, hch, rfl, -⟩ := h
  have hsettings := settings_withChannel hch
  exact hsettings

theorem settings_downIfConnected (h : c.downIfConnected = some (c', es)) :
    c'.settings = c.settings := by
  unfold downIfConnected at h
  split at h
  · simp only [Option.bind_eq_bind, Option.bind_eq_some_iff, Option.some.injEq, Prod.mk.injEq] at h
    obtain ⟨c₁, hch, rfl, -⟩ := h
    have hsettings := settings_withChannel hch
    exact hsettings
  · cases h
    rfl

theorem settings_connectDestroyed (h : c.connectDestroyed = some (c', es)) :
    c'.settings = c.settings := by
  simp only [connectDestroyed, Option.bind_eq_bind, Option.bind_eq_some_iff, Prod.exists,
    Option.some.injEq, Prod.mk.injEq] at h
  obtain ⟨c₁, es₁, hdown, c₂, hch, rfl, -⟩ := h
  exact (settings_withChannel hch).trans (settings_downIfConnected hdown)

theorem settings_handleClose (h : c.handleClose = some (c', es)) : c'.settings = c.settings := by
  simp only [handleClose, Option.bind_eq_bind, Option.bind_eq_some_iff, Option.some.injEq,
    Prod.mk.injEq] at h
  obtain ⟨c₁, hch, rfl, -⟩ := h
  have hsettings := settings_withChannel hch
  exact hsettings

end

/-- The three ways through `handleRead`. -/
theorem handleRead_cases {c c' : TcpConnection} {r : ReadvResult} {es : List Effect}
    (h : c.handleRead r = some (c', es)) :
    ∃ inputBuffer : ValidBuffer,
      (r = .data [] ∧ { c with inputBuffer }.handleClose = some (c', es)) ∨
      (r ≠ .data [] ∧ r.bytes ≠ [] ∧ c' = { c with inputBuffer } ∧ es = [.messageCallback]) ∨
      (r.bytes = [] ∧ r ≠ .data [] ∧ c' = { c with inputBuffer } ∧ es = []) := by
  simp only [handleRead, Option.bind_eq_bind, Option.bind_eq_some_iff, Prod.exists] at h
  obtain ⟨inputBuffer, n, hr, h⟩ := h
  refine ⟨inputBuffer, ?_⟩
  obtain ⟨rfl, -⟩ := ValidBuffer.readFd_spec hr
  cases r with
  | error e =>
    cases h
    exact Or.inr (Or.inr ⟨rfl, by simp, rfl, rfl⟩)
  | data bs =>
    cases bs with
    | nil => exact Or.inl ⟨rfl, h⟩
    | cons b bs =>
      cases h
      exact Or.inr (Or.inl ⟨by simp, by simp [ReadvResult.bytes], rfl, rfl⟩)

theorem idle_iff (c : TcpConnection) :
    c.idle = true ↔ c.channel.isWriting = false ∧ c.outputBuffer.toQueue = [] := by
  simp [idle, ValidBuffer.readableBytes_eq_zero]

end TcpConnection
end Muduo
