import Muduo.PollerRegistration
import Muduo.ConnectionCall

/-!
# The calls of a connection into the poller

Which of `enableReading`, …, `remove` a function of `TcpConnection` calls on its channel, read off its
branches.

* `pollerCalls c call`: the calls, in order.
* `exec_pollerCalls`: they account for all that the function does to the poller and to the channel's
  registration.
* `OnlyAdds`: what such calls leave as it is in a poller that other channels are in.
-/

namespace Muduo

namespace ChannelCall

/-- Calls made one after the other; `none` is the `abort()` of the poller. -/
def applyAll : List ChannelCall → Channel × EPollPoller → Option (Channel × EPollPoller)
  | [], s => some s
  | c :: cs, (ch, p) => (c.call ch p).bind fun (p', ch') => applyAll cs (ch', p')

theorem applyAll_append (cs cs' : List ChannelCall) (s : Channel × EPollPoller) :
    applyAll (cs ++ cs') s = (applyAll cs s).bind (applyAll cs') := by
  induction cs generalizing s with
  | nil => rfl
  | cons c cs ih =>
    simp only [List.cons_append, applyAll, Option.bind_assoc]
    congr 1
    funext r
    exact ih _

end ChannelCall

namespace TcpConnection

/-- `sendInLoop` watches for writability when it keeps bytes and is not watching yet. -/
def sendCalls (c : TcpConnection) (data : List UInt8) (w : WriteResult) : List ChannelCall :=
  if c.stat = .kDisconnected then []
  else
    let d := c.directWrite data w
    if !d.faultError && data.length - d.nwrote > 0 && !c.channel.isWriting then [.enableWriting]
    else []

/-- `handleWrite` stops watching when it has emptied the buffer. -/
def writeCalls (c : TcpConnection) : WriteResult → List ChannelCall
  | .count n =>
    let bs := c.outputBuffer.toQueue.take n
    if c.channel.isWriting && bs.length > 0 && (c.outputBuffer.retrieve bs.length).readableBytes == 0
    then [.disableWriting] else []
  | .error _ _ => []

def closeCalls (c : TcpConnection) : List ChannelCall :=
  if c.stat = .kConnected ∨ c.stat = .kDisconnecting then [.disableAll] else []

/-- The first part of `connectDestroyed`. -/
def downCalls (c : TcpConnection) : List ChannelCall :=
  if c.stat = .kConnected then [.disableAll] else []

def pollerCalls (c : TcpConnection) : ConnCall → List ChannelCall
  | .functor .connectEstablished _ => [.enableReading]
  | .functor .connectDestroyed _ => c.downCalls ++ [.remove]
  | .functor (.sendInLoop data) w => c.sendCalls data w
  | .functor .forceCloseInLoop _ => c.closeCalls
  | .functor .shutdownInLoop _ | .functor .writeComplete _ | .functor (.highWaterMark _) _ => []
  | .event .close _ _ => [.disableAll]
  | .event .error _ _ => []
  | .event .read r _ => if r = .data [] then [.disableAll] else []
  | .event .write _ w => c.writeCalls w
  | .user (.send data) w => if c.stat = .kConnected then c.sendCalls data w else []
  | .user .shutdown _ | .user .forceClose _ => []

/-- The calls take the poller and the channel from those of `c` to those of `c'`, but for `tied`, which
no call touches. -/
def Accounts (c : TcpConnection) (calls : List ChannelCall) (c' : TcpConnection) : Prop :=
  ChannelCall.applyAll calls (c.channel, c.poller) =
    some ({ c'.channel with tied := c.channel.tied }, c'.poller)

variable {c c' : TcpConnection} {es : List Effect} {data : List UInt8} {w : WriteResult}

theorem accounts_nil (hchannel : c'.channel = c.channel) (hpoller : c'.poller = c.poller) :
    Accounts c [] c' := by
  unfold Accounts
  rw [hchannel, hpoller]
  rfl

theorem withChannel_tied {k : ChannelCall} (h : c.withChannel k.call = some c') :
    c'.channel.tied = c.channel.tied := by
  obtain ⟨poller, channel, hcall, rfl⟩ := withChannel_eq_some.mp h
  rw [ChannelCall.call_eq_issued, Option.bind_eq_some_iff] at hcall
  obtain ⟨p, -, heq⟩ := hcall
  cases heq
  rfl

theorem accounts_withChannel {k : ChannelCall} (h : c.withChannel k.call = some c') :
    Accounts c [k] c' := by
  unfold Accounts
  rw [← withChannel_tied h]
  obtain ⟨poller, channel, hcall, rfl⟩ := withChannel_eq_some.mp h
  simp only [ChannelCall.applyAll, hcall, Option.bind_some]

/-- A call does not look at `tied`. -/
theorem call_tied (k : ChannelCall) (ch : Channel) (p : EPollPoller) (tied : Bool) :
    k.call { ch with tied } p = (k.call ch p).map fun (p', ch') => (p', { ch' with tied }) := by
  rw [ChannelCall.call_eq_issued, ChannelCall.call_eq_issued, Option.map_bind]
  rfl

/-- A call sees the channel and the poller only. -/
theorem Accounts.of_eq {calls : List ChannelCall} {c₀ : TcpConnection} (h : Accounts c₀ calls c')
    (hchannel : c₀.channel = c.channel) (hpoller : c₀.poller = c.poller) : Accounts c calls c' := by
  unfold Accounts at h ⊢
  rw [hchannel, hpoller] at h
  exact h

theorem sendInLoop_calls (h : c.sendInLoop data w = some (c', es)) :
    Accounts c (c.sendCalls data w) c' := by
  unfold sendInLoop at h
  unfold sendCalls
  by_cases hstat : c.stat = .kDisconnected
  · rw [if_pos hstat] at h ⊢
    cases h
    exact accounts_nil rfl rfl
  · rw [if_neg hstat] at h ⊢
    dsimp only at h ⊢
    by_cases hrest : (!(c.directWrite data w).faultError &&
        decide (data.length - (c.directWrite data w).nwrote > 0)) = true
    · rw [if_pos hrest] at h
      rw [hrest, Bool.true_and]
      simp only [queueOutput, Option.bind_eq_bind, Option.bind_eq_some_iff, Option.some.injEq,
        Prod.mk.injEq, Prod.exists] at h
      obtain ⟨c₁, es', ⟨c₂, hwatch, rfl, -⟩, rfl, -⟩ := h
      unfold watchOutput at hwatch
      split at hwatch
      · next hnot =>
        rw [if_pos hnot]
        have hcall : Accounts _ [.enableWriting] c₂ := accounts_withChannel hwatch
        exact hcall.of_eq rfl rfl
      · next hwriting =>
        rw [if_neg hwriting]
        cases hwatch
        exact accounts_nil rfl rfl
    · rw [if_neg hrest] at h
      rw [Bool.not_eq_true] at hrest
      rw [hrest, Bool.false_and, if_neg Bool.false_ne_true]
      cases h
      exact accounts_nil rfl rfl

theorem outputDrained_calls (h : c.outputDrained = some (c', es)) :
    Accounts c [.disableWriting] c' := by
  simp only [outputDrained, Option.bind_eq_bind, Option.bind_eq_some_iff] at h
  obtain ⟨c₁, hch, h⟩ := h
  have hcall : Accounts c [.disableWriting] c₁ := accounts_withChannel hch
  split at h
  · simp only [Option.bind_eq_some_iff, Prod.exists, Option.some.injEq, Prod.mk.injEq] at h
    obtain ⟨c₂, es', hs, rfl, -⟩ := h
    obtain ⟨rfl, -⟩ := shutdownInLoop_spec hs
    exact hcall
  · simp only [Option.some.injEq, Prod.mk.injEq] at h
    exact h.1 ▸ hcall

theorem handleWrite_calls (h : c.handleWrite w = some (c', es)) :
    Accounts c (c.writeCalls w) c' := by
  unfold handleWrite at h
  unfold writeCalls
  split at h
  · next hw =>
    cases w with
    | error e =>
      cases h
      exact accounts_nil rfl rfl
    | count n =>
      simp only [hw, Bool.true_and, gt_iff_lt] at h ⊢
      by_cases hpos : 0 < (c.outputBuffer.toQueue.take n).length
      · rw [if_pos hpos] at h
        rw [decide_eq_true hpos, Bool.true_and]
        split at h
        · next hzero =>
          rw [if_pos (beq_iff_eq.mpr hzero)]
          simp only [Option.bind_eq_bind, Option.bind_eq_some_iff, Prod.exists, Option.some.injEq,
            Prod.mk.injEq] at h
          obtain ⟨c₁, es', hd, rfl, -⟩ := h
          exact (outputDrained_calls hd).of_eq rfl rfl
        · next hrest =>
          rw [if_neg fun hzero => hrest (beq_iff_eq.mp hzero)]
          cases h
          exact accounts_nil rfl rfl
      · rw [if_neg hpos] at h
        rw [decide_eq_false hpos, Bool.false_and, if_neg Bool.false_ne_true]
        cases h
        exact accounts_nil rfl rfl
  · next hw =>
    cases h
    rw [Bool.not_eq_true] at hw
    cases w with
    | error e => exact accounts_nil rfl rfl
    | count n =>
      simp only [hw, Bool.false_and, Bool.false_eq_true, if_false]
      exact accounts_nil rfl rfl

theorem handleClose_calls (h : c.handleClose = some (c', es)) : Accounts c [.disableAll] c' := by
  simp only [handleClose, Option.bind_eq_bind, Option.bind_eq_some_iff, Option.some.injEq,
    Prod.mk.injEq] at h
  obtain ⟨c₁, hch, rfl, -⟩ := h
  have hcall : Accounts _ [.disableAll] c₁ := accounts_withChannel hch
  exact hcall.of_eq rfl rfl

theorem downIfConnected_calls (h : c.downIfConnected = some (c', es)) :
    Accounts c c.downCalls c' := by
  unfold downIfConnected at h
  unfold downCalls
  split at h
  · next hstat =>
    rw [if_pos hstat]
    simp only [Option.bind_eq_bind, Option.bind_eq_some_iff, Option.some.injEq, Prod.mk.injEq] at h
    obtain ⟨c₁, hch, rfl, -⟩ := h
    have hcall : Accounts _ [.disableAll] c₁ := accounts_withChannel hch
    exact hcall.of_eq rfl rfl
  · next hstat =>
    rw [if_neg hstat]
    cases h
    exact accounts_nil rfl rfl

theorem connectEstablished_calls (h : c.connectEstablished = some (c', es)) :
    Accounts c [.enableReading] c' := by
  simp only [connectEstablished, Option.bind_eq_bind, Option.bind_eq_some_iff, Option.some.injEq,
    Prod.mk.injEq] at h
  obtain ⟨c₁, hch, rfl, -⟩ := h
  obtain ⟨poller, channel, hcall, rfl⟩ := withChannel_eq_some.mp hch
  have htied := call_tied .enableReading c.channel c.poller true
  have hsame : ChannelCall.enableReading.call { c.channel with tied := true } c.poller =
      some (poller, channel) := hcall
  rw [hsame, eq_comm, Option.map_eq_some_iff] at htied
  obtain ⟨⟨p', ch'⟩, hcall', heq⟩ := htied
  have hkeep : ch'.tied = c.channel.tied := by
    have hch' : c.withChannel ChannelCall.enableReading.call =
        some { c with poller := p', channel := ch' } := withChannel_eq_some.mpr ⟨_, _, hcall', rfl⟩
    exact withChannel_tied hch'
  cases heq
  unfold Accounts
  simp only [ChannelCall.applyAll, hcall', Option.bind_some, ← hkeep]

theorem connectDestroyed_calls (h : c.connectDestroyed = some (c', es)) :
    Accounts c (c.downCalls ++ [.remove]) c' := by
  simp only [connectDestroyed, Option.bind_eq_bind, Option.bind_eq_some_iff, Prod.exists,
    Option.some.injEq, Prod.mk.injEq] at h
  obtain ⟨c₁, es₁, hdown, c₂, hremove, rfl, -⟩ := h
  have htied : c₁.channel.tied = c.channel.tied := by
    unfold downIfConnected at hdown
    split at hdown
    · simp only [Option.bind_eq_bind, Option.bind_eq_some_iff, Option.some.injEq,
        Prod.mk.injEq] at hdown
      obtain ⟨c₃, hch, rfl, -⟩ := hdown
      have hkept : c₃.channel.tied = (c.setState .kDisconnected).channel.tied :=
        withChannel_tied (k := .disableAll) hch
      exact hkept
    · cases hdown
      rfl
  have hdown' := downIfConnected_calls hdown
  have hremove' : Accounts c₁ [.remove] c₂ := accounts_withChannel hremove
  unfold Accounts at hdown' hremove' ⊢
  rw [ChannelCall.applyAll_append, hdown', Option.bind_some, ← htied]
  exact hremove'

theorem pollerCalls_of_skips {call : ConnCall} (hskip : c.skips call = true) :
    c.pollerCalls call = [] := by
  cases call with
  | functor f w =>
    cases f with
    | sendInLoop data => exact if_pos (beq_iff_eq.mp hskip)
    | forceCloseInLoop =>
      simp only [skips, Bool.and_eq_true, bne_iff_ne] at hskip
      exact if_neg fun hopen => hopen.elim hskip.1 hskip.2
    | connectEstablished | connectDestroyed | shutdownInLoop => cases hskip
    | writeComplete | highWaterMark => rfl
  | event cb r w =>
    cases cb with
    | close | read | write => cases hskip
    | error => rfl
  | user call w =>
    cases call with
    | send data => exact if_neg (bne_iff_ne.mp hskip)
    | shutdown | forceClose => rfl

/-- **The calls account for the poller.**  Whatever function the loop thread calls, the poller and the
channel end as the calls listed leave them. -/
theorem exec_pollerCalls {call : ConnCall} (h : c.exec call = some (c', es)) :
    Accounts c (c.pollerCalls call) c' := by
  cases executes_of_exec h with
  | skip hskip =>
    rw [pollerCalls_of_skips hskip]
    exact accounts_nil rfl rfl
  | connectEstablished h => exact connectEstablished_calls h
  | connectDestroyed h => exact connectDestroyed_calls h
  | sendInLoop _ hcall hsend =>
    rcases hcall with rfl | ⟨rfl, hconn⟩
    · exact sendInLoop_calls hsend
    · rw [pollerCalls, if_pos hconn]
      exact sendInLoop_calls hsend
  | shutdownInLoop h =>
    obtain ⟨rfl, -⟩ := shutdownInLoop_spec h
    exact accounts_nil rfl rfl
  | shutdown _ h =>
    obtain ⟨rfl, -⟩ := shutdownInLoop_spec h
    exact accounts_nil rfl rfl
  | forceClose => exact accounts_nil rfl rfl
  | forceCloseInLoop hopen h =>
    rw [pollerCalls, closeCalls, if_pos hopen]
    exact handleClose_calls h
  | close h => exact handleClose_calls h
  | endOfStream inputBuffer h => exact (handleClose_calls h).of_eq rfl rfl
  | message _ hr | readError _ hr =>
    rw [pollerCalls, if_neg hr]
    exact accounts_nil rfl rfl
  | write h => exact handleWrite_calls h

end TcpConnection

/-! ## What a channel changes in its poller -/

/-- Every entry of the interest list was there before or is the channel's own. -/
def EPollPoller.OnlyAdds (p : EPollPoller) (addr : Nat) (p' : EPollPoller) : Prop :=
  ∀ fd event, p'.interest fd = some event → p.interest fd = some event ∨ event.ptr = addr

theorem epollCtl_onlyAdds {interest interest' : Interest} {op : CtlOp} {fd : Nat}
    {event : EpollEvent} (h : epollCtl interest op fd event = .ok interest') :
    ∀ fd' ev, interest' fd' = some ev → interest fd' = some ev ∨ ev = event := by
  have hupdate : ∀ e : Option EpollEvent, (e = some event ∨ e = none) →
      ∀ fd' ev, Function.update interest fd e fd' = some ev → interest fd' = some ev ∨ ev = event := by
    intro e he fd' ev hev
    by_cases hfd : fd' = fd
    · subst hfd
      rw [Function.update_self] at hev
      rcases he with rfl | rfl
      · exact Or.inr (Option.some.inj hev).symm
      · cases hev
    · rw [Function.update_of_ne hfd] at hev
      exact Or.inl hev
  unfold epollCtl at h
  split at h
  · cases h
    exact hupdate _ (Or.inl rfl)
  · cases h
  · cases h
    exact hupdate _ (Or.inl rfl)
  · cases h
  · cases h
    exact hupdate _ (Or.inr rfl)
  · cases h

theorem update_onlyAdds {p p' : EPollPoller} {op : CtlOp} {ch : Channel}
    (h : p.update op ch = some p') : p.OnlyAdds ch.addr p' := by
  unfold EPollPoller.update at h
  split at h
  · next interest hctl =>
    cases h
    intro fd event hevent
    rcases epollCtl_onlyAdds hctl fd event hevent with hold | rfl
    · exact Or.inl hold
    · exact Or.inr rfl
  · split at h
    · cases h
      exact fun _ _ hevent => Or.inl hevent
    · cases h

theorem call_onlyAdds {k : ChannelCall} {ch ch' : Channel} {p p' : EPollPoller}
    (h : k.call ch p = some (p', ch')) :
    p.OnlyAdds ch.addr p' ∧ ch'.addr = ch.addr ∧ ch'.fd = ch.fd := by
  rw [ChannelCall.call_eq_issued, Option.bind_eq_some_iff] at h
  obtain ⟨p₁, hissued, heq⟩ := h
  cases heq
  refine ⟨?_, rfl, rfl⟩
  cases hop : k.issued ch with
  | none =>
    rw [hop] at hissued
    cases hissued
    exact fun _ _ hevent => Or.inl hevent
  | some op =>
    rw [hop] at hissued
    have honly := update_onlyAdds hissued
    exact fun fd event hevent => honly fd event hevent

theorem applyAll_onlyAdds {ks : List ChannelCall} {ch ch' : Channel} {p p' : EPollPoller}
    (h : ChannelCall.applyAll ks (ch, p) = some (ch', p')) :
    p.OnlyAdds ch.addr p' ∧ ch'.addr = ch.addr ∧ ch'.fd = ch.fd := by
  induction ks generalizing ch p with
  | nil =>
    cases h
    exact ⟨fun _ _ hevent => Or.inl hevent, rfl, rfl⟩
  | cons k ks ih =>
    simp only [ChannelCall.applyAll, Option.bind_eq_some_iff] at h
    obtain ⟨⟨p₁, ch₁⟩, hcall, hrest⟩ := h
    obtain ⟨hfirst, haddr, hfd⟩ := call_onlyAdds hcall
    obtain ⟨hlater, haddr', hfd'⟩ := ih hrest
    refine ⟨?_, haddr'.trans haddr, hfd'.trans hfd⟩
    intro fd event hevent
    rcases hlater fd event hevent with hold | hown
    · exact hfirst fd event hold
    · exact Or.inr (hown.trans haddr)

theorem TcpConnection.Accounts.onlyAdds {c c' : TcpConnection} {ks : List ChannelCall}
    (h : TcpConnection.Accounts c ks c') :
    c.poller.OnlyAdds c.channel.addr c'.poller ∧ c'.channel.addr = c.channel.addr ∧
      c'.channel.fd = c.channel.fd := by
  unfold TcpConnection.Accounts at h
  obtain ⟨hadds, haddr, hfd⟩ := applyAll_onlyAdds h
  exact ⟨hadds, haddr, hfd⟩

end Muduo
