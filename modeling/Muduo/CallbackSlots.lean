import Muduo.ConnectionCall

/-!
# The callback slots

The `std::function` members of `Channel`, `TcpConnection`, `TcpServer` and `TcpClient`: what the
constructors and the setters put into them, and which of them a function calls.

* `StdFunction`: to call an empty one throws `bad_function_call`.
* A channel tests each slot before the call.  `TcpConnection` tests the write-complete and the
  high-water-mark callback, when it binds them, and calls the others as they are.
* `TcpClient` starts with default callbacks, `TcpServer` with none; `newConnection` copies what there is.

    every function object called on a connection holds something, once the three slots that are not
    tested do                                                              (none_notMem_calls)
-/

namespace Muduo

/-! ## Function objects -/

/-- What a function object holds. -/
inductive Callable
  /-- a function of the user -/
  | user
  | defaultConnectionCallback
  | defaultMessageCallback
  /-- bound to `handleRead`, … of the channel's owner -/
  | handler (cb : EventCallback)
  /-- bound to `newConnection` of the server or the client -/
  | newConnection
  /-- bound to `removeConnection` of the server or the client -/
  | removeConnection
  /-- bound to `detail::removeConnection` -/
  | detailRemoveConnection
deriving DecidableEq, Repr

/-- A `std::function`, which may be empty. -/
abbrev StdFunction := Option Callable

/-- `if (f) f(…)`: the function objects called. -/
def StdFunction.guarded (f : StdFunction) : List StdFunction := if f.isSome then [f] else []

theorem StdFunction.none_notMem_guarded (f : StdFunction) : none ∉ f.guarded := by
  cases f with
  | none => exact List.not_mem_nil
  | some c => simp [guarded]

/-! ## Channel -/

structure ChannelCallbacks where
  readCallback : StdFunction
  writeCallback : StdFunction
  closeCallback : StdFunction
  errorCallback : StdFunction
deriving DecidableEq, Repr

namespace ChannelCallbacks

/-- `Channel(loop, fd)`. -/
def new : ChannelCallbacks := ⟨none, none, none, none⟩

def slot (k : ChannelCallbacks) : EventCallback → StdFunction
  | .close => k.closeCallback
  | .error => k.errorCallback
  | .read => k.readCallback
  | .write => k.writeCallback

/-- The function objects that `handleEventWithGuard` calls. -/
def handleEventWithGuard (k : ChannelCallbacks) (revents : EventMask) : List StdFunction :=
  (eventCallbacks revents).flatMap fun cb => (k.slot cb).guarded

theorem none_notMem_handleEventWithGuard (k : ChannelCallbacks) (revents : EventMask) :
    none ∉ k.handleEventWithGuard revents := by
  simp only [handleEventWithGuard, List.mem_flatMap, not_exists, not_and]
  intro cb _
  exact StdFunction.none_notMem_guarded _

/-- `Acceptor(loop, listenAddr, reuseport)`: the callbacks of `acceptChannel_`. -/
def acceptor : ChannelCallbacks := { new with readCallback := some (.handler .read) }

/-- `Connector::connecting`: the callbacks of `channel_`. -/
def connector : ChannelCallbacks :=
  { new with
    writeCallback := some (.handler .write)
    errorCallback := some (.handler .error) }

end ChannelCallbacks

/-! ## TcpConnection -/

structure TcpConnectionCallbacks where
  channel : ChannelCallbacks
  connectionCallback : StdFunction
  messageCallback : StdFunction
  writeCompleteCallback : StdFunction
  highWaterMarkCallback : StdFunction
  closeCallback : StdFunction
deriving DecidableEq, Repr

namespace TcpConnectionCallbacks

/-- `TcpConnection(loop, name, sockfd, …)`. -/
def new : TcpConnectionCallbacks where
  channel :=
    { readCallback := some (.handler .read)
      writeCallback := some (.handler .write)
      closeCallback := some (.handler .close)
      errorCallback := some (.handler .error) }
  connectionCallback := none
  messageCallback := none
  writeCompleteCallback := none
  highWaterMarkCallback := none
  closeCallback := none

/-- The function objects that a functor calls: `queueInLoop` is given a copy of the slot. -/
def binds (k : TcpConnectionCallbacks) : ConnFunctor → List StdFunction
  | .writeComplete => [k.writeCompleteCallback]
  | .highWaterMark _ => [k.highWaterMarkCallback]
  | _ => []

/-- The function objects in the functors that an effect queues. -/
def queues (k : TcpConnectionCallbacks) : Effect → List StdFunction
  | .queueInLoop f => k.binds f
  | _ => []

/-- The function objects that an effect calls.  `closeCallback_` is called when `connectionCallback_`
has returned, which is a later step. -/
def callsNow (k : TcpConnectionCallbacks) : Effect → List StdFunction
  | .connectionCallback _ => [k.connectionCallback]
  | .messageCallback => [k.messageCallback]
  | _ => []

/-- Those that a function of the connection calls. -/
def callsIn (k : TcpConnectionCallbacks) (r : TcpConnection.Result) : List StdFunction :=
  (r.map fun r => r.2.flatMap k.callsNow).getD []

/-- Those through which the loop comes to the function. -/
def entry (k : TcpConnectionCallbacks) : ConnCall → List StdFunction
  | .event cb _ _ => (k.channel.slot cb).guarded
  | .functor f _ => k.binds f
  | .user _ _ => []

/-- The function objects called in a call on the connection. -/
def calls (k : TcpConnectionCallbacks) (c : TcpConnection) (call : ConnCall) : List StdFunction :=
  k.entry call ++ k.callsIn (c.exec call)

end TcpConnectionCallbacks

/-! ## TcpServer and TcpClient -/

/-- Which callbacks the user sets. -/
structure UserCallbacks where
  connection : Bool
  message : Bool
  writeComplete : Bool
deriving DecidableEq, Repr

/-- A setter, if it is called. -/
def StdFunction.set (f : StdFunction) (called : Bool) : StdFunction := if called then some .user else f

structure TcpServerCallbacks where
  connectionCallback : StdFunction
  messageCallback : StdFunction
  writeCompleteCallback : StdFunction
  threadInitCallback : StdFunction
  /-- of `acceptor_` -/
  newConnectionCallback : StdFunction
  acceptChannel : ChannelCallbacks
deriving DecidableEq, Repr

namespace TcpServerCallbacks

/-- `TcpServer(loop, listenAddr, nameArg, option)`. -/
def new : TcpServerCallbacks where
  connectionCallback := none
  messageCallback := none
  writeCompleteCallback := none
  threadInitCallback := none
  newConnectionCallback := some .newConnection
  acceptChannel := .acceptor

/-- `setConnectionCallback`, `setMessageCallback`, `setWriteCompleteCallback`. -/
def set (k : TcpServerCallbacks) (u : UserCallbacks) : TcpServerCallbacks :=
  { k with
    connectionCallback := k.connectionCallback.set u.connection
    messageCallback := k.messageCallback.set u.message
    writeCompleteCallback := k.writeCompleteCallback.set u.writeComplete }

/-- The callbacks of the connection that `newConnection` makes. -/
def newConnection (k : TcpServerCallbacks) : TcpConnectionCallbacks :=
  { TcpConnectionCallbacks.new with
    connectionCallback := k.connectionCallback
    messageCallback := k.messageCallback
    writeCompleteCallback := k.writeCompleteCallback
    closeCallback := some .removeConnection }

end TcpServerCallbacks

structure TcpClientCallbacks where
  connectionCallback : StdFunction
  messageCallback : StdFunction
  writeCompleteCallback : StdFunction
  /-- of `connector_` -/
  newConnectionCallback : StdFunction
deriving DecidableEq, Repr

namespace TcpClientCallbacks

/-- `TcpClient(loop, serverAddr, nameArg)`. -/
def new : TcpClientCallbacks where
  connectionCallback := some .defaultConnectionCallback
  messageCallback := some .defaultMessageCallback
  writeCompleteCallback := none
  newConnectionCallback := some .newConnection

/-- `setConnectionCallback`, `setMessageCallback`, `setWriteCompleteCallback`. -/
def set (k : TcpClientCallbacks) (u : UserCallbacks) : TcpClientCallbacks :=
  { k with
    connectionCallback := k.connectionCallback.set u.connection
    messageCallback := k.messageCallback.set u.message
    writeCompleteCallback := k.writeCompleteCallback.set u.writeComplete }

/-- The callbacks of the connection that `newConnection` makes. -/
def newConnection (k : TcpClientCallbacks) : TcpConnectionCallbacks :=
  { TcpConnectionCallbacks.new with
    connectionCallback := k.connectionCallback
    messageCallback := k.messageCallback
    writeCompleteCallback := k.writeCompleteCallback
    closeCallback := some .removeConnection }

end TcpClientCallbacks

/-! ## The slots that are not tested -/

/-- The slots that `TcpConnection` calls without a test hold something. -/
structure TcpConnectionCallbacks.Complete (k : TcpConnectionCallbacks) : Prop where
  connection : k.connectionCallback ≠ none
  message : k.messageCallback ≠ none
  close : k.closeCallback ≠ none

/-- A server's connections are complete when the user has set both callbacks. -/
theorem TcpServerCallbacks.complete_newConnection (u : UserCallbacks) :
    (new.set u).newConnection.Complete ↔ u.connection = true ∧ u.message = true := by
  obtain ⟨connection, message, writeComplete⟩ := u
  constructor
  · rintro ⟨hconnection, hmessage, -⟩
    cases connection with
    | false => exact absurd rfl hconnection
    | true =>
      cases message with
      | false => exact absurd rfl hmessage
      | true => exact ⟨rfl, rfl⟩
  · rintro ⟨rfl, rfl⟩
    exact ⟨Option.some_ne_none _, Option.some_ne_none _, Option.some_ne_none _⟩

/-- A client's always are. -/
theorem TcpClientCallbacks.complete_newConnection (u : UserCallbacks) :
    (new.set u).newConnection.Complete := by
  obtain ⟨connection, message, writeComplete⟩ := u
  refine ⟨?_, ?_, Option.some_ne_none _⟩
  · cases connection with
    | false | true => exact Option.some_ne_none _
  · cases message with
    | false | true => exact Option.some_ne_none _

namespace TcpConnectionCallbacks

variable {k : TcpConnectionCallbacks} {c c' : TcpConnection} {call : ConnCall} {es : List Effect}
  {w : WriteResult}

theorem Complete.none_notMem_callsIn (hk : k.Complete) (r : TcpConnection.Result) :
    none ∉ k.callsIn r := by
  cases r with
  | none => exact List.not_mem_nil
  | some r =>
    simp only [callsIn, Option.map_some, Option.getD_some, List.mem_flatMap, not_exists, not_and]
    intro e _
    cases e with
    | connectionCallback => simpa [callsNow] using Ne.symm hk.connection
    | messageCallback => simpa [callsNow] using Ne.symm hk.message
    | write | shutdownWrite | closeCallback | queueInLoop => exact List.not_mem_nil

/-- **A call on a connection** whose three slots are set calls no empty function object, if none is bound
in the functor that is called. -/
theorem Complete.none_notMem_calls (hk : k.Complete) (c : TcpConnection)
    (hbound : ∀ f w, call = .functor f w → none ∉ k.binds f) : none ∉ k.calls c call := by
  rw [calls, List.mem_append, not_or]
  refine ⟨?_, hk.none_notMem_callsIn _⟩
  cases call with
  | event cb r w => exact StdFunction.none_notMem_guarded _
  | functor f w => exact hbound f w rfl
  | user => exact List.not_mem_nil

/-! ## The slots that are tested -/

/-- A test of the connection succeeds only for a slot that holds something. -/
structure Guards (k : TcpConnectionCallbacks) (c : TcpConnection) : Prop where
  writeComplete : c.writeCompleteCallback = true → k.writeCompleteCallback ≠ none
  highWaterMark : c.highWaterMarkCallback = true → k.highWaterMarkCallback ≠ none

theorem guards_new (k : TcpConnectionCallbacks) (poller : EPollPoller) (addr sockfd : Nat) :
    k.Guards (TcpConnection.new poller addr sockfd k.writeCompleteCallback.isSome
      k.highWaterMarkCallback.isSome) where
  writeComplete h := Option.isSome_iff_ne_none.mp h
  highWaterMark h := Option.isSome_iff_ne_none.mp h

namespace Guards

theorem of_settings (h : k.Guards c) (hs : c'.settings = c.settings) : k.Guards c' := by
  simp only [TcpConnection.settings, Prod.mk.injEq] at hs
  exact ⟨fun hset => h.writeComplete (hs.1 ▸ hset), fun hset => h.highWaterMark (hs.2.1 ▸ hset)⟩

theorem queues_writeComplete (h : k.Guards c) (hset : c.writeCompleteCallback = true) :
    none ∉ k.queues (.queueInLoop .writeComplete) := by
  simpa [queues, binds] using Ne.symm (h.writeComplete hset)

theorem queues_sendInLoop {data : List UInt8} (h : k.Guards c)
    (hs : c.sendInLoop data w = some (c', es)) : ∀ e ∈ es, none ∉ k.queues e := by
  by_cases hstat : c.stat = .kDisconnected
  · rw [TcpConnection.sendInLoop, if_pos hstat] at hs
    cases hs
    simp
  have hdirect : ∀ e ∈ (c.directWrite data w).effects, none ∉ k.queues e := by
    intro e he
    unfold TcpConnection.directWrite at he
    split at he
    · cases w with
      | count n =>
        simp only [List.mem_cons] at he
        rcases he with rfl | he
        · exact List.not_mem_nil
        · split at he
          · next hset =>
            rw [List.mem_singleton] at he
            exact he ▸ h.queues_writeComplete (Bool.and_eq_true_iff.mp hset).2
          · cases he
      | error e => cases he
    · cases he
  rcases TcpConnection.sendInLoop_cases hstat hs with ⟨-, -, rfl⟩ | ⟨-, -, es', rfl, hq⟩
  · exact hdirect
  · simp only [TcpConnection.queueOutput, Option.bind_eq_bind, Option.bind_eq_some_iff,
      Option.some.injEq, Prod.mk.injEq] at hq
    obtain ⟨c₁, -, -, rfl⟩ := hq
    intro e he
    rcases List.mem_append.mp he with he | he
    · exact hdirect e he
    · split at he
      · next hset =>
        rw [List.mem_singleton] at he
        subst he
        simpa [queues, binds] using Ne.symm (h.highWaterMark (Bool.and_eq_true_iff.mp hset).2)
      · cases he

theorem queues_shutdownInLoop (k : TcpConnectionCallbacks) (hs : c.shutdownInLoop = some (c', es)) :
    ∀ e ∈ es, none ∉ k.queues e := by
  unfold TcpConnection.shutdownInLoop at hs
  split at hs
  · cases hs
    simp [queues]
  · cases hs
    simp

theorem queues_outputDrained (h : k.Guards c) (hd : c.outputDrained = some (c', es)) :
    ∀ e ∈ es, none ∉ k.queues e := by
  simp only [TcpConnection.outputDrained, Option.bind_eq_bind, Option.bind_eq_some_iff] at hd
  obtain ⟨c₁, hch, hd⟩ := hd
  have h₁ : k.Guards c₁ := h.of_settings (TcpConnection.settings_withChannel hch)
  have hnotify : ∀ e ∈ (if c₁.writeCompleteCallback then [Effect.queueInLoop .writeComplete] else []),
      none ∉ k.queues e := by
    intro e he
    split at he
    · next hset =>
      rw [List.mem_singleton] at he
      exact he ▸ h₁.queues_writeComplete hset
    · cases he
  split at hd
  · simp only [Option.bind_eq_some_iff, Prod.exists, Option.some.injEq, Prod.mk.injEq] at hd
    obtain ⟨c₂, es', hshut, -, rfl⟩ := hd
    intro e he
    rcases List.mem_append.mp he with he | he
    · exact hnotify e he
    · exact queues_shutdownInLoop k hshut e he
  · cases hd
    exact hnotify

theorem queues_handleWrite (h : k.Guards c) (hw : c.handleWrite w = some (c', es)) :
    ∀ e ∈ es, none ∉ k.queues e := by
  unfold TcpConnection.handleWrite at hw
  split at hw
  · cases w with
    | error e =>
      cases hw
      simp
    | count n =>
      simp only at hw
      split at hw
      · split at hw
        · simp only [Option.bind_eq_bind, Option.bind_eq_some_iff, Prod.exists, Option.some.injEq,
            Prod.mk.injEq] at hw
          obtain ⟨c₁, es', hd, -, rfl⟩ := hw
          have hdrained := queues_outputDrained (h.of_settings (by rfl)) hd
          exact List.forall_mem_cons.mpr ⟨List.not_mem_nil, hdrained⟩
        · cases hw
          simp [queues]
      · cases hw
        simp [queues]
  · cases hw
    simp

/-- **A call keeps the connection guarded**, and queues no functor with an empty callback in it. -/
theorem exec (h : k.Guards c) (hexec : c.exec call = some (c', es)) :
    k.Guards c' ∧ ∀ e ∈ es, none ∉ k.queues e := by
  cases TcpConnection.executes_of_exec hexec with
  | skip => exact ⟨h, by simp⟩
  | connectEstablished hs =>
    obtain ⟨-, rfl⟩ := TcpConnection.connectEstablished_eq_some hs
    exact ⟨h.of_settings (TcpConnection.settings_connectEstablished hs), by simp [queues]⟩
  | connectDestroyed hs =>
    refine ⟨h.of_settings (TcpConnection.settings_connectDestroyed hs), ?_⟩
    rcases TcpConnection.connectDestroyed_eq_some hs with ⟨-, -, rfl⟩ | ⟨-, -, rfl⟩
    · simp [queues]
    · simp
  | sendInLoop _ _ hs =>
    exact ⟨h.of_settings (TcpConnection.settings_sendInLoop hs), h.queues_sendInLoop hs⟩
  | shutdownInLoop hs =>
    exact ⟨h.of_settings (TcpConnection.settings_shutdownInLoop hs), queues_shutdownInLoop k hs⟩
  | shutdown _ hs =>
    have hsettings := TcpConnection.settings_shutdownInLoop hs
    exact ⟨h.of_settings hsettings, queues_shutdownInLoop k hs⟩
  | forceClose => exact ⟨h.of_settings rfl, by simp [queues, binds]⟩
  | forceCloseInLoop _ hs | close hs | endOfStream _ hs =>
    have hsettings := TcpConnection.settings_handleClose hs
    obtain ⟨-, rfl⟩ := TcpConnection.handleClose_eq_some hs
    exact ⟨h.of_settings hsettings, by simp [queues]⟩
  | message => exact ⟨h.of_settings rfl, by simp [queues]⟩
  | readError => exact ⟨h.of_settings rfl, by simp⟩
  | write hs => exact ⟨h.of_settings (TcpConnection.settings_handleWrite hs), h.queues_handleWrite hs⟩

end Guards
end TcpConnectionCallbacks
end Muduo
