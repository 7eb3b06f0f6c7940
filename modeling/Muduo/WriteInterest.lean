import Muduo.OutputStream

/-!
# Write interest follows the output buffer

From `connectEstablished` on, and until the connection is closed, the channel watches for
writability exactly while output is pending: its event mask is `kReadEvent` or
`kReadEvent | kWriteEvent` (`Established.events`), its index is `kAdded`, and the kernel's
interest list has its descriptor with that mask (`Established.watched`).

    isWriting  ↔  outputBuffer not empty  ↔  EPOLLOUT in the kernel's mask
                                                          (write_interest_tracks_output)
-/

namespace Muduo

open Transition

/-- The invariant of a live connection on descriptor `fd`. -/
structure Established (fd : Nat) (c : TcpConnection) : Prop where
  live : c.stat ≠ .kDisconnected
  fd_eq : c.channel.fd = fd
  watched : c.poller.Watched c.channel
  events : c.channel.events =
    if c.outputBuffer.toQueue = [] then kReadEvent else kReadEvent ||| kWriteEvent

namespace Established

variable {fd : Nat} {c c' : TcpConnection} {es : List Effect}

theorem isWriting_iff (h : Established fd c) :
    c.channel.isWriting = true ↔ c.outputBuffer.toQueue ≠ [] := by
  unfold Channel.isWriting
  rw [h.events]
  by_cases hq : c.outputBuffer.toQueue = []
  · rw [if_pos hq]
    simp only [hq, ne_eq, not_true_eq_false, iff_false]
    decide
  · rw [if_neg hq]
    simp only [ne_eq, hq, not_false_eq_true, iff_true]
    decide

/-- The kernel's entry for the descriptor is the channel's mask. -/
theorem interest_eq (h : Established fd c) :
    c.poller.interest fd = some ⟨c.channel.events, c.channel.addr⟩ := by
  rw [← h.fd_eq]
  exact h.watched.2

theorem watchOutput (h : Established fd c) (rest : List UInt8) (hrest : rest ≠ [])
    (hw : TcpConnection.watchOutput { c with outputBuffer := c.outputBuffer.append rest } = some c') :
    Established fd c' := by
  have hne : (c.outputBuffer.append rest).toQueue ≠ [] := by
    simp [hrest]
  unfold TcpConnection.watchOutput at hw
  split at hw
  · next hnot =>
    obtain ⟨poller, channel, hcall, rfl⟩ := TcpConnection.withChannel_eq_some.mp hw
    have hempty : c.outputBuffer.toQueue = [] := by
      by_contra hq
      rw [h.isWriting_iff.mpr hq] at hnot
      cases hnot
    have hev : c.channel.events ||| kWriteEvent = kReadEvent ||| kWriteEvent := by
      rw [h.events, if_pos hempty]
    obtain ⟨p', hup, hwatched, -⟩ := EPollPoller.updateChannel_watched h.watched
      (c.channel.events ||| kWriteEvent) (by rw [hev]; decide)
    rw [Channel.enableWriting, hup, Option.some.injEq, Prod.mk.injEq] at hcall
    obtain ⟨rfl, rfl⟩ := hcall
    exact ⟨h.live, h.fd_eq, hwatched, by rw [if_neg hne]; exact hev⟩
  · next hw' =>
    cases hw
    have hq : c.outputBuffer.toQueue ≠ [] := h.isWriting_iff.mp (by simpa using hw')
    exact ⟨h.live, h.fd_eq, h.watched, by rw [if_neg hne, h.events, if_neg hq]⟩

theorem sendInLoop (h : Established fd c) {data : List UInt8} {w : WriteResult}
    (hs : c.sendInLoop data w = some (c', es)) : Established fd c' := by
  rcases TcpConnection.sendInLoop_cases h.live hs with ⟨-, rfl, -⟩ | ⟨-, hlt, es', -, hq⟩
  · exact h
  · simp only [TcpConnection.queueOutput, Option.bind_eq_bind, Option.bind_eq_some_iff,
      Option.some.injEq, Prod.mk.injEq] at hq
    obtain ⟨c₁, hw, rfl, -⟩ := hq
    refine h.watchOutput _ ?_ hw
    intro hnil
    have := congrArg List.length hnil
    rw [List.length_drop, List.length_nil] at this
    omega

theorem outputDrained (h : Established fd c) (n : Nat) (hpending : c.outputBuffer.toQueue ≠ [])
    (hempty : (c.outputBuffer.retrieve n).toQueue = [])
    (hd : TcpConnection.outputDrained { c with outputBuffer := c.outputBuffer.retrieve n } =
      some (c', es)) : Established fd c' := by
  simp only [TcpConnection.outputDrained, Option.bind_eq_bind, Option.bind_eq_some_iff] at hd
  obtain ⟨c₁, hch, hd⟩ := hd
  obtain ⟨poller, channel, hcall, rfl⟩ := TcpConnection.withChannel_eq_some.mp hch
  have hev : c.channel.events &&& ~~~kWriteEvent = kReadEvent := by
    rw [h.events, if_neg hpending]
    decide
  obtain ⟨p', hup, hwatched, -⟩ := EPollPoller.updateChannel_watched h.watched
    (c.channel.events &&& ~~~kWriteEvent) (by rw [hev]; decide)
  rw [Channel.disableWriting, hup, Option.some.injEq, Prod.mk.injEq] at hcall
  obtain ⟨rfl, rfl⟩ := hcall
  have hnew : Established fd
      { c with
        outputBuffer := c.outputBuffer.retrieve n
        poller := p'
        channel := { c.channel with events := c.channel.events &&& ~~~kWriteEvent } } :=
    ⟨h.live, h.fd_eq, hwatched, by rw [if_pos hempty]; exact hev⟩
  split at hd
  · simp only [Option.bind_eq_some_iff, Prod.exists, Option.some.injEq, Prod.mk.injEq] at hd
    obtain ⟨c₂, es', hsd, rfl, -⟩ := hd
    obtain ⟨rfl, -⟩ := TcpConnection.shutdownInLoop_spec hsd
    exact hnew
  · simp only [Option.some.injEq, Prod.mk.injEq] at hd
    exact hd.1 ▸ hnew

theorem handleWrite (h : Established fd c) {w : WriteResult}
    (hs : c.handleWrite w = some (c', es)) : Established fd c' := by
  unfold TcpConnection.handleWrite at hs
  split at hs
  · next hwr =>
    have hpending := h.isWriting_iff.mp hwr
    cases w with
    | error e =>
      cases hs
      exact h
    | count n =>
      simp only at hs
      split at hs
      · split at hs
        · next hzero =>
          simp only [Option.bind_eq_bind, Option.bind_eq_some_iff, Prod.exists, Option.some.injEq,
            Prod.mk.injEq] at hs
          obtain ⟨c₁, es', hd, rfl, -⟩ := hs
          exact h.outputDrained _ hpending ((ValidBuffer.readableBytes_eq_zero _).mp hzero) hd
        · next hrest =>
          cases hs
          rw [ValidBuffer.readableBytes_eq_zero] at hrest
          exact ⟨h.live, h.fd_eq, h.watched, by rw [if_neg hrest, h.events, if_neg hpending]⟩
      · cases hs
        exact h
  · cases hs
    exact h

/-- The state may change on the way, but not to `kDisconnected`. -/
theorem of_stat {stat : StateE} (h : Established fd c) (hs : stat ≠ .kDisconnected) :
    Established fd (c.setState stat) :=
  ⟨hs, h.fd_eq, h.watched, h.events⟩

/-- Every field but the state, the output, the channel and the poller is free. -/
theorem of_eq (h : Established fd c) (hstat : c'.stat = c.stat)
    (hout : c'.outputBuffer.toQueue = c.outputBuffer.toQueue) (hfd : c'.channel.fd = c.channel.fd)
    (hev : c'.channel.events = c.channel.events) (hwatched : c'.poller.Watched c'.channel) :
    Established fd c' :=
  ⟨hstat ▸ h.live, hfd.trans h.fd_eq, hwatched, by rw [hev, hout, h.events]⟩

theorem loopStep (h : Established fd c) (a : LoopStep) (hs : c.loopStep a = some (c', es)) :
    Established fd c' := by
  cases a with
  | sendInLoop data w => exact h.sendInLoop hs
  | handleRead r =>
    simp only [TcpConnection.loopStep] at hs
    split at hs
    · cases hs
    · next hr =>
      obtain ⟨inputBuffer, ⟨heof, -⟩ | ⟨-, -, rfl, -⟩ | ⟨-, -, rfl, -⟩⟩ :=
        TcpConnection.handleRead_cases hs
      · exact absurd heof hr
      · exact ⟨h.live, h.fd_eq, h.watched, h.events⟩
      · exact ⟨h.live, h.fd_eq, h.watched, h.events⟩
  | handleWrite w => exact h.handleWrite hs
  | shutdownInLoop =>
    obtain ⟨rfl, -⟩ := TcpConnection.shutdownInLoop_spec hs
    exact h
  | shutdown inLoopThread =>
    simp only [TcpConnection.loopStep, TcpConnection.shutdown] at hs
    split at hs
    · cases inLoopThread
      · cases hs
        exact h.of_stat (by decide)
      · obtain ⟨rfl, -⟩ := TcpConnection.shutdownInLoop_spec hs
        exact h.of_stat (by decide)
    · cases hs
      exact h
  | forceClose =>
    simp only [TcpConnection.loopStep, TcpConnection.forceClose] at hs
    split at hs
    · cases hs
      exact h.of_stat (by decide)
    · cases hs
      exact h
  | otherChannels poller =>
    simp only [TcpConnection.loopStep] at hs
    split at hs
    · next hsame =>
      cases hs
      exact ⟨h.live, h.fd_eq, ⟨h.watched.1, hsame.trans h.watched.2⟩, h.events⟩
    · cases hs

end Established

/-- `connectEstablished` of a new connection, unless `EPOLL_CTL_ADD` fails. -/
theorem established_connectEstablished {p : EPollPoller} {addr fd : Nat} {wc hw : Bool}
    {c : TcpConnection} {es : List Effect}
    (h : (TcpConnection.new p addr fd wc hw).connectEstablished = some (c, es)) :
    Established fd c := by
  simp only [TcpConnection.connectEstablished, Option.bind_eq_bind, Option.bind_eq_some_iff,
    Option.some.injEq, Prod.mk.injEq] at h
  obtain ⟨c₁, hch, rfl, -⟩ := h
  obtain ⟨poller, channel, hcall, rfl⟩ := TcpConnection.withChannel_eq_some.mp hch
  simp only [TcpConnection.new, TcpConnection.setState, Channel.new, Channel.enableReading] at hcall
  cases hp : p.interest fd with
  | some event => simp [EPollPoller.updateChannel, EPollPoller.update, epollCtl, hp] at hcall
  | none =>
    rw [EPollPoller.updateChannel_eq (by simp [EPollPoller.Tracked, hp]), Option.some.injEq,
      Prod.mk.injEq] at hcall
    obtain ⟨rfl, rfl⟩ := hcall
    refine ⟨by simp [TcpConnection.setState, TcpConnection.new], rfl, ⟨rfl, ?_⟩, ?_⟩
    · simp [EPollPoller.staysWatched]
    · simp only [TcpConnection.new, TcpConnection.setState, ValidBuffer.toQueue_new, if_true]
      decide

/-- **Write interest tracks pending output.**  After `connectEstablished`, and before the
connection is closed, the channel is writing iff output is pending, and the kernel watches the
descriptor for `EPOLLOUT` under the same condition. -/
theorem write_interest_tracks_output (p : EPollPoller) (addr fd : Nat)
    (writeCompleteCallback highWaterMarkCallback : Bool) (c : TcpConnection) (es : List Effect)
    (hc : (TcpConnection.new p addr fd writeCompleteCallback highWaterMarkCallback).connectEstablished
      = some (c, es))
    (steps : List LoopStep) (s : OutputRun)
    (h : run OutputRun.step (OutputRun.start c) steps = some s) :
    (s.conn.channel.isWriting = true ↔ s.conn.outputBuffer.toQueue ≠ []) ∧
      ((∃ event, s.conn.poller.interest fd = some event ∧ EventMask.has event.events EPOLLOUT) ↔
        s.conn.outputBuffer.toQueue ≠ []) := by
  have hstep : ∀ s a s', Established fd (OutputRun.conn s) → OutputRun.step s a = some s' →
      Established fd s'.conn := by
    intro s a s' hs hstep
    obtain ⟨⟨c', es⟩, hcall, rfl⟩ := Option.map_eq_some_iff.mp hstep
    exact hs.loopStep a hcall
  have hinv : Established fd s.conn := run_inv hstep (established_connectEstablished hc) h
  refine ⟨hinv.isWriting_iff, ?_⟩
  rw [hinv.interest_eq, ← hinv.isWriting_iff]
  simp [Channel.isWriting, kWriteEvent]

/-- A connection with a partly written message watches for writability. -/
theorem write_interest_tracks_output_run :
    ∃ c es s, (TcpConnection.new EPollPoller.empty 0 5 true true).connectEstablished = some (c, es) ∧
      run OutputRun.step (OutputRun.start c) [.sendInLoop [1, 2] (.count 1)] = some s ∧
      ∃ event, s.conn.poller.interest 5 = some event ∧ EventMask.has event.events EPOLLOUT := by
  have hrun : ((TcpConnection.new EPollPoller.empty 0 5 true true).connectEstablished.bind
      fun r => (run OutputRun.step (OutputRun.start r.1) [.sendInLoop [1, 2] (.count 1)]).map
        fun s => s.conn.outputBuffer.toQueue) = some [2] := by
    decide +kernel
  obtain ⟨⟨c, es⟩, hc, hrun⟩ := Option.bind_eq_some_iff.mp hrun
  obtain ⟨s, hs, hq⟩ := Option.map_eq_some_iff.mp hrun
  refine ⟨c, es, s, hc, hs, ?_⟩
  rw [(write_interest_tracks_output EPollPoller.empty 0 5 true true c es hc _ s hs).2, hq]
  decide

end Muduo
