import Muduo.PollerCalls

/-!
# A connection that is down

What is left of a `TcpConnection` in state `kDisconnected`.

* `exec_accountable`: which calls come to `closeCallback_`, and which queue more than a notification.
* `exec_down`: on a connection that is down every call but `connectEstablished`, `connectDestroyed` and
  the close and read callbacks changes nothing.  Those two callbacks do not look at the state, so a
  connection that is down can close again.
-/

namespace Muduo

/-! ## Calls that close a connection -/

/-- Whether the callback may come to `handleClose`. -/
def EventCallback.mayClose : EventCallback → Bool
  | .close | .read => true
  | .error | .write => false

def ConnCall.mayClose : ConnCall → Bool
  | .functor .forceCloseInLoop _ => true
  | .event cb _ _ => cb.mayClose
  | _ => false

/-- A call that cannot bring a connection up or down again when it is down. -/
def ConnCall.isIdle : ConnCall → Bool
  | .functor .connectEstablished _ | .functor .connectDestroyed _ => false
  | .event cb _ _ => !cb.mayClose
  | _ => true

/-- An effect that neither calls the server nor queues a change of the connection's state. -/
def Effect.isTame : Effect → Bool
  | .closeCallback => false
  | .queueInLoop .writeComplete | .queueInLoop (.highWaterMark _) => true
  | .queueInLoop _ => false
  | _ => true

theorem Effect.isTame_of_isOutput {e : Effect} (h : e.isOutput = true ∨ e = .shutdownWrite) :
    e.isTame = true := by
  rcases h with h | rfl
  · cases e with
    | queueInLoop f => cases f <;> simp_all [Effect.isOutput, Effect.isTame]
    | write | shutdownWrite | connectionCallback | messageCallback => rfl
    | closeCallback => cases h
  · rfl

namespace TcpConnection

variable {c c' : TcpConnection} {es : List Effect} {call : ConnCall}

/-- The effects of a call that are not tame, and the calls that have them. -/
def Accountable (call : ConnCall) (es : List Effect) : Prop :=
  ∀ e ∈ es, e.isTame = true ∨ e = .closeCallback ∧ call.mayClose = true ∨
    e = .queueInLoop .forceCloseInLoop ∧ ∃ w, call = .user .forceClose w

theorem accountable_of_output (h : ∀ e ∈ es, e.isOutput = true ∨ e = .shutdownWrite) :
    Accountable call es := fun e he => Or.inl (Effect.isTame_of_isOutput (h e he))

theorem accountable_handleClose {c₀ : TcpConnection} (h : c₀.handleClose = some (c', es))
    (hcall : call.mayClose = true) : Accountable call es := by
  obtain ⟨-, rfl⟩ := handleClose_eq_some h
  intro e he
  simp only [List.mem_cons, List.not_mem_nil, or_false] at he
  rcases he with rfl | rfl
  · exact Or.inl rfl
  · exact Or.inr (Or.inl ⟨rfl, hcall⟩)

theorem shutdownInLoop_output (h : c.shutdownInLoop = some (c', es)) :
    ∀ e ∈ es, e.isOutput = true ∨ e = .shutdownWrite := by
  unfold shutdownInLoop at h
  split at h
  · cases h
    simp
  · cases h
    simp

/-- **What a call does outside the connection**: only the calls that may close it come to
`closeCallback_`, and only `forceClose` queues more than a notification. -/
theorem exec_accountable (h : c.exec call = some (c', es)) : Accountable call es := by
  have hnone : Accountable call [] := fun e he => nomatch he
  cases executes_of_exec h with
  | skip | readError => exact hnone
  | connectEstablished h =>
    obtain ⟨-, rfl⟩ := connectEstablished_eq_some h
    simp [Accountable, Effect.isTame]
  | connectDestroyed h =>
    rcases connectDestroyed_eq_some h with ⟨-, -, rfl⟩ | ⟨-, -, rfl⟩
    · simp [Accountable, Effect.isTame]
    · exact hnone
  | sendInLoop _ _ h => exact accountable_of_output fun e he => Or.inl (sendInLoop_effects h e he)
  | shutdownInLoop h | shutdown _ h => exact accountable_of_output (shutdownInLoop_output h)
  | forceClose =>
    intro e he
    rw [List.mem_singleton] at he
    exact Or.inr (Or.inr ⟨he, _, rfl⟩)
  | forceCloseInLoop _ h | close h => exact accountable_handleClose h rfl
  | endOfStream _ h => exact accountable_handleClose h rfl
  | message => simp [Accountable, Effect.isTame]
  | write h => exact accountable_of_output (handleWrite_output h)

/-! ## A connection that is down -/

/-- A connection that is down has no interest in any event. -/
def Silent (c : TcpConnection) : Prop := c.stat = .kDisconnected → c.channel.events = kNoneEvent

theorem silent_of_ne (h : c.stat ≠ .kDisconnected) : c.Silent := fun hstat => absurd hstat h

theorem Silent.isWriting (h : c.Silent) (hstat : c.stat = .kDisconnected) :
    c.channel.isWriting = false := by
  rw [Channel.isWriting, h hstat]
  rfl

/-- A call into the poller changes the events as its name says, and not the descriptor. -/
theorem withChannel_channel {k : ChannelCall} (h : c.withChannel k.call = some c') :
    c'.channel = k.after c.channel ∧ c'.stat = c.stat := by
  obtain ⟨poller, channel, hcall, rfl⟩ := withChannel_eq_some.mp h
  rw [ChannelCall.call_eq_issued, Option.bind_eq_some_iff] at hcall
  obtain ⟨p, -, heq⟩ := hcall
  cases heq
  exact ⟨rfl, rfl⟩

theorem silent_disableAll (h : c.withChannel ChannelCall.disableAll.call = some c') : c'.Silent := by
  intro _
  rw [(withChannel_channel h).1]
  rfl

theorem silent_handleClose (h : c.handleClose = some (c', es)) : c'.Silent := by
  simp only [handleClose, Option.bind_eq_bind, Option.bind_eq_some_iff, Option.some.injEq,
    Prod.mk.injEq] at h
  obtain ⟨c₁, hch, rfl, -⟩ := h
  exact silent_disableAll hch

theorem silent_downIfConnected (hc : c.Silent) (h : c.downIfConnected = some (c', es)) :
    c'.Silent := by
  unfold downIfConnected at h
  split at h
  · simp only [Option.bind_eq_bind, Option.bind_eq_some_iff, Option.some.injEq, Prod.mk.injEq] at h
    obtain ⟨c₁, hch, rfl, -⟩ := h
    exact silent_disableAll hch
  · cases h
    exact hc

theorem silent_remove (hc : c.Silent) (h : c.withChannel Channel.remove = some c') : c'.Silent := by
  obtain ⟨hchannel, hstat⟩ := withChannel_channel (k := .remove) h
  intro hdown
  rw [hchannel]
  exact hc (hstat.symm.trans hdown)

/-- **Nothing happens to a connection that is down**, but for the shutdown of its socket. -/
theorem exec_down (hstat : c.stat = .kDisconnected) (hc : c.Silent) (hcall : ConnCall.isIdle call = true)
    (h : c.exec call = some (c', es)) : c' = c ∧ ∀ e ∈ es, e = .shutdownWrite := by
  have hwriting := hc.isWriting hstat
  have hopen : ¬ (c.stat = .kConnected ∨ c.stat = .kDisconnecting) := by simp [hstat]
  cases executes_of_exec h with
  | skip => exact ⟨rfl, by simp⟩
  | sendInLoop hne => exact absurd hstat hne
  | shutdownInLoop h =>
    simp only [shutdownInLoop, hwriting] at h
    cases h
    exact ⟨rfl, by simp⟩
  | shutdown hconn => exact absurd (Or.inl hconn) hopen
  | forceClose hstat' | forceCloseInLoop hstat' => exact absurd hstat' hopen
  | write h =>
    simp only [handleWrite, hwriting] at h
    cases h
    exact ⟨rfl, by simp⟩
  | connectEstablished | connectDestroyed | close | endOfStream | message | readError => cases hcall

/-- Every call leaves a connection that is down without interest. -/
theorem exec_silent (hc : c.Silent) (h : c.exec call = some (c', es)) : c'.Silent := by
  cases executes_of_exec h with
  | skip | message | readError => exact hc
  | connectEstablished h =>
    apply silent_of_ne
    simp [(connectEstablished_eq_some h).1]
  | connectDestroyed h =>
    simp only [connectDestroyed, Option.bind_eq_bind, Option.bind_eq_some_iff, Prod.exists,
      Option.some.injEq, Prod.mk.injEq] at h
    obtain ⟨c₁, es₁, hdown, c₂, hremove, rfl, -⟩ := h
    exact silent_remove (silent_downIfConnected hc hdown) hremove
  | sendInLoop hstat _ h =>
    apply silent_of_ne
    rw [(sendInLoop_stream hstat h).2]
    exact hstat
  | shutdownInLoop h =>
    rw [(shutdownInLoop_spec h).1]
    exact hc
  | shutdown _ h =>
    rw [(shutdownInLoop_spec h).1]
    exact silent_of_ne (by simp [setState])
  | forceClose => exact silent_of_ne (by simp [setState])
  | forceCloseInLoop _ h | close h => exact silent_handleClose h
  | endOfStream _ h => exact silent_handleClose h
  | write h =>
    by_cases hstat : c.stat = .kDisconnected
    · simp only [handleWrite, hc.isWriting hstat] at h
      cases h
      exact hc
    · apply silent_of_ne
      rw [(handleWrite_stream h).2]
      exact hstat

end TcpConnection
end Muduo
