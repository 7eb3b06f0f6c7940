import Muduo.ConnectionCall
import Muduo.PollerRegistration

/-!
# A destroyed connection

What `connectDestroyed` leaves behind, and what the functors and the channel callbacks that run after
it do.

* `Gone`: disconnected or disconnecting, with no events and out of the poller.
* `Inert s a`: the step leaves a connection that it destroys disconnected and unregistered, and one
  that has been destroyed alone: no byte written, no `connectionCallback_` or `closeCallback_`
  called, nothing registered.
* `connectDestroyed` changes the state of a connected connection only, so one that is disconnecting
  stays so, and what was queued before finds it open (`write_after_destroyed`).

    every step of a run is inert  ⇔  every step meets `Harmless`              (destroyed_inert_iff)
-/

namespace Muduo

open Transition

/-! ## What the calls do to the channel -/

namespace TcpConnection

variable {c c' c'' : TcpConnection} {w : WriteResult} {es : List Effect}

/-- A call of the channel into the poller, on a tracked channel. -/
theorem withChannel_eq (h : c.poller.Tracked c.channel) (k : ChannelCall) :
    c.withChannel k.call = some
      { c with poller := k.poller c.channel c.poller, channel := k.after c.channel } := by
  unfold withChannel
  rw [h.call_eq k]
  rfl

/-- The channel keeps its descriptor and stays tracked. -/
def Follows (c c' : TcpConnection) : Prop :=
  c.poller.Tracked c.channel → c'.poller.Tracked c'.channel ∧ c'.channel.fd = c.channel.fd

theorem Follows.refl (c : TcpConnection) : Follows c c := fun h => ⟨h, rfl⟩

theorem Follows.trans (h : Follows c c') (h' : Follows c' c'') : Follows c c'' := by
  intro ht
  obtain ⟨ht', hfd⟩ := h ht
  obtain ⟨ht'', hfd'⟩ := h' ht'
  exact ⟨ht'', hfd'.trans hfd⟩

theorem withChannel_follows (k : ChannelCall) (h : c.withChannel k.call = some c') : Follows c c' := by
  intro ht
  rw [withChannel_eq ht, Option.some.injEq] at h
  subst h
  exact ⟨EPollPoller.Tracked.poller k c.channel c.poller, rfl⟩

theorem handleClose_follows (h : c.handleClose = some (c', es)) : Follows c c' := by
  simp only [handleClose, Option.bind_eq_bind, Option.bind_eq_some_iff, Option.some.injEq,
    Prod.mk.injEq] at h
  obtain ⟨c₁, hch, rfl, -⟩ := h
  have hfollows := withChannel_follows .disableAll hch
  exact hfollows

theorem sendInLoop_follows {data : List UInt8} (h : c.sendInLoop data w = some (c', es)) :
    Follows c c' := by
  by_cases hc : c.stat = .kDisconnected
  · rw [sendInLoop, if_pos hc] at h
    cases h
    exact Follows.refl _
  · rcases sendInLoop_cases hc h with ⟨-, rfl, -⟩ | ⟨-, -, es', -, hq⟩
    · exact Follows.refl _
    · simp only [queueOutput, Option.bind_eq_bind, Option.bind_eq_some_iff, Option.some.injEq,
        Prod.mk.injEq] at hq
      obtain ⟨c₁, hwatch, rfl, -⟩ := hq
      unfold watchOutput at hwatch
      split at hwatch
      · have hfollows := withChannel_follows .enableWriting hwatch
        exact hfollows
      · cases hwatch
        exact fun ht => ⟨ht, rfl⟩

theorem outputDrained_follows (h : c.outputDrained = some (c', es)) : Follows c c' := by
  simp only [outputDrained, Option.bind_eq_bind, Option.bind_eq_some_iff] at h
  obtain ⟨c₁, hch, h⟩ := h
  have hfollows : Follows c c₁ := withChannel_follows .disableWriting hch
  split at h
  · simp only [Option.bind_eq_some_iff, Prod.exists, Option.some.injEq, Prod.mk.injEq] at h
    obtain ⟨c₂, es', hshut, rfl, -⟩ := h
    obtain ⟨rfl, -⟩ := shutdownInLoop_spec hshut
    exact hfollows
  · cases h
    exact hfollows

theorem handleWrite_follows (h : c.handleWrite w = some (c', es)) : Follows c c' := by
  unfold handleWrite at h
  split at h
  · cases w with
    | error e =>
      cases h
      exact Follows.refl _
    | count n =>
      simp only at h
      split at h
      · split at h
        · simp only [Option.bind_eq_bind, Option.bind_eq_some_iff, Prod.exists, Option.some.injEq,
            Prod.mk.injEq] at h
          obtain ⟨c₁, es', hd, rfl, -⟩ := h
          have hfollows := outputDrained_follows hd
          exact hfollows
        · cases h
          exact fun ht => ⟨ht, rfl⟩
      · cases h
        exact Follows.refl _
  · cases h
    exact Follows.refl _

theorem connectDestroyed_follows (h : c.connectDestroyed = some (c', es)) : Follows c c' := by
  simp only [connectDestroyed, Option.bind_eq_bind, Option.bind_eq_some_iff, Prod.exists,
    Option.some.injEq, Prod.mk.injEq] at h
  obtain ⟨c₁, es₁, hdown, c₂, hch, rfl, -⟩ := h
  have hremove : Follows c₁ c₂ := withChannel_follows .remove hch
  simp only [downIfConnected] at hdown
  split at hdown
  · simp only [Option.bind_eq_bind, Option.bind_eq_some_iff, Option.some.injEq, Prod.mk.injEq] at hdown
    obtain ⟨c₃, hch', rfl, -⟩ := hdown
    have hdisable := withChannel_follows .disableAll hch'
    exact Follows.trans hdisable hremove
  · cases hdown
    exact hremove

/-- **Every call of the loop thread** keeps the channel tracked. -/
theorem exec_follows {call : ConnCall} (h : c.exec call = some (c', es)) : Follows c c' := by
  cases executes_of_exec h with
  | skip | message | readError => exact Follows.refl _
  | connectEstablished h =>
    simp only [connectEstablished, Option.bind_eq_bind, Option.bind_eq_some_iff, Option.some.injEq,
      Prod.mk.injEq] at h
    obtain ⟨c₁, hch, rfl, -⟩ := h
    have hfollows := withChannel_follows .enableReading hch
    exact hfollows
  | connectDestroyed h => exact connectDestroyed_follows h
  | sendInLoop _ _ h => exact sendInLoop_follows h
  | shutdownInLoop h =>
    obtain ⟨rfl, -⟩ := shutdownInLoop_spec h
    exact Follows.refl _
  | shutdown _ h =>
    obtain ⟨rfl, -⟩ := shutdownInLoop_spec h
    exact fun ht => ⟨ht, rfl⟩
  | forceClose => exact fun ht => ⟨ht, rfl⟩
  | forceCloseInLoop _ h | close h => exact handleClose_follows h
  | endOfStream inputBuffer h =>
    have hfollows := handleClose_follows h
    exact hfollows
  | write h => exact handleWrite_follows h

/-- The invariant of a connection: once it is disconnected its channel has no events. -/
structure Kept (c : TcpConnection) : Prop where
  tracked : c.poller.Tracked c.channel
  closed : c.stat = .kDisconnected → c.channel.events = kNoneEvent

/-- The connection is closed, or about to be, and out of the poller. -/
structure Gone (c : TcpConnection) : Prop where
  stat : c.stat = .kDisconnected ∨ c.stat = .kDisconnecting
  events : c.channel.events = kNoneEvent
  index : c.channel.index = .kNew

theorem isWriting_of_none (h : c.channel.events = kNoneEvent) : c.channel.isWriting = false := by
  unfold Channel.isWriting
  rw [h]
  rfl

theorem handleClose_events (h : c.handleClose = some (c', es)) (ht : c.poller.Tracked c.channel) :
    c'.stat = .kDisconnected ∧ c'.channel.events = kNoneEvent := by
  simp only [handleClose, Option.bind_eq_bind, Option.bind_eq_some_iff, Option.some.injEq,
    Prod.mk.injEq] at h
  obtain ⟨c₁, hch, rfl, -⟩ := h
  have hset : (c.setState .kDisconnected).poller.Tracked (c.setState .kDisconnected).channel := ht
  have heq := withChannel_eq hset .disableAll
  rw [show ChannelCall.disableAll.call = Channel.disableAll from rfl, hch, Option.some.injEq] at heq
  rw [heq]
  exact ⟨rfl, rfl⟩

/-- `connectDestroyed` takes the channel out of the poller.  A connection that is disconnecting stays
so. -/
theorem connectDestroyed_gone (h : c.connectDestroyed = some (c', es)) (hk : Kept c) :
    c'.channel.index = .kNew ∧
      (c.stat = .kConnected ∨ c.stat = .kDisconnected →
        c'.stat = .kDisconnected ∧ c'.channel.events = kNoneEvent) ∧
      (c.stat ≠ .kConnected → c'.stat = c.stat ∧ c'.channel.events = c.channel.events) := by
  simp only [connectDestroyed, Option.bind_eq_bind, Option.bind_eq_some_iff, Prod.exists,
    Option.some.injEq, Prod.mk.injEq] at h
  obtain ⟨c₁, es₁, hdown, c₂, hch, rfl, -⟩ := h
  have hremove : c₁.poller.Tracked c₁.channel →
      c₂.channel.index = .kNew ∧ c₂.stat = c₁.stat ∧ c₂.channel.events = c₁.channel.events := by
    intro ht
    have heq := withChannel_eq ht .remove
    rw [show ChannelCall.remove.call = Channel.remove from rfl, hch, Option.some.injEq] at heq
    rw [heq]
    exact ⟨rfl, rfl, rfl⟩
  simp only [downIfConnected] at hdown
  split at hdown
  · next hstat =>
    simp only [Option.bind_eq_bind, Option.bind_eq_some_iff, Option.some.injEq, Prod.mk.injEq] at hdown
    obtain ⟨c₃, hch', rfl, -⟩ := hdown
    have hset : (c.setState .kDisconnected).poller.Tracked (c.setState .kDisconnected).channel :=
      hk.tracked
    have heq := withChannel_eq hset .disableAll
    rw [show ChannelCall.disableAll.call = Channel.disableAll from rfl, hch', Option.some.injEq] at heq
    have ht : c₃.poller.Tracked c₃.channel := by
      rw [heq]
      exact EPollPoller.Tracked.poller _ _ _
    obtain ⟨hindex, hstat', hevents⟩ := hremove ht
    refine ⟨hindex, fun _ => ⟨?_, ?_⟩, fun hne => absurd hstat hne⟩
    · rw [hstat', heq]
      rfl
    · rw [hevents, heq]
      rfl
  · next hstat =>
    cases hdown
    obtain ⟨hindex, hstat', hevents⟩ := hremove hk.tracked
    refine ⟨hindex, fun hc => ?_, fun _ => ⟨hstat', hevents⟩⟩
    have hdisconnected := hc.resolve_left hstat
    exact ⟨hstat'.trans hdisconnected, hevents.trans (hk.closed hdisconnected)⟩

theorem handleWrite_of_none (h : c.channel.events = kNoneEvent) : c.handleWrite w = some (c, []) := by
  unfold handleWrite
  rw [isWriting_of_none h]
  rfl

/-- Only `handleClose` and `connectDestroyed` disconnect. -/
theorem Kept.exec (hk : Kept c) {call : ConnCall} (h : c.exec call = some (c', es)) : Kept c' := by
  refine ⟨(exec_follows h hk.tracked).1, fun hclosed => ?_⟩
  cases executes_of_exec h with
  | skip | message | readError => exact hk.closed hclosed
  | connectEstablished h =>
    rw [(connectEstablished_eq_some h).1] at hclosed
    cases hclosed
  | connectDestroyed h =>
    obtain ⟨-, hopen, hother⟩ := connectDestroyed_gone h hk
    by_cases hstat : c.stat = .kConnected
    · exact (hopen (Or.inl hstat)).2
    · rw [(hother hstat).1] at hclosed
      exact (hopen (Or.inr hclosed)).2
  | sendInLoop hstat _ h =>
    rw [(sendInLoop_stream hstat h).2] at hclosed
    exact absurd hclosed hstat
  | shutdownInLoop h =>
    obtain ⟨rfl, -⟩ := shutdownInLoop_spec h
    exact hk.closed hclosed
  | shutdown _ h =>
    obtain ⟨rfl, -⟩ := shutdownInLoop_spec h
    cases hclosed
  | forceClose => cases hclosed
  | forceCloseInLoop _ h | close h => exact (handleClose_events h hk.tracked).2
  | endOfStream inputBuffer h => exact (handleClose_events h hk.tracked).2
  | write h =>
    have hstat : c.stat = .kDisconnected := by
      rw [← (handleWrite_stream h).2]
      exact hclosed
    rw [handleWrite_of_none (hk.closed hstat)] at h
    cases h
    exact hk.closed hstat

end TcpConnection

/-! ## A connection that is gone -/

/-- What only a connection in use does: write, or call `connectionCallback_` or `closeCallback_`. -/
def Effect.isVisible : Effect → Bool
  | .write _ | .connectionCallback _ | .closeCallback => true
  | _ => false

namespace TcpConnection

/-- `sendInLoop` has nothing to write, or gives it up behind a failed `::write`. -/
def dropped (c : TcpConnection) (data : List UInt8) (w : WriteResult) : Bool :=
  match w with
  | .count _ => !c.idle && data.isEmpty
  | .error _ _ => data.isEmpty || c.directFailure w

/-- The calls that leave a connection that is gone alone. -/
def Passive (c : TcpConnection) : ConnCall → Prop
  | .functor (.sendInLoop data) w => c.stat = .kDisconnected ∨ c.dropped data w = true
  | .functor .forceCloseInLoop _ => c.stat = .kDisconnected
  | .event .close _ _ => False
  | .event .read r _ => r ≠ .data []
  | _ => True

/-- The channel is registered, or something visible has been done. -/
def Active (c : TcpConnection) (es : List Effect) : Prop :=
  (c.poller.interest c.channel.fd).isSome ∨ ∃ e ∈ es, e.isVisible = true

variable {c c' : TcpConnection} {w : WriteResult} {es : List Effect}

theorem Gone.unregistered (hg : Gone c) (hk : Kept c) :
    c.poller.interest c.channel.fd = none := by
  apply hk.tracked.interest_none
  rw [hg.index]
  decide

/-- `sendInLoop` in state `kDisconnecting`. -/
theorem Gone.sendInLoop (hg : Gone c) (hk : Kept c) {data : List UInt8}
    (hstat : c.stat ≠ .kDisconnected) (h : c.sendInLoop data w = some (c', es)) :
    c.dropped data w = true ∧ c' = c ∧ es = [] ∨ c.dropped data w = false ∧ Active c' es := by
  rcases sendInLoop_cases hstat h with ⟨hdone, rfl, rfl⟩ | ⟨hfail, hlt, es', rfl, hq⟩
  · cases hi : c'.idle
    · have hdirect : c'.directWrite data w = ⟨[], 0, false⟩ := directWrite_of_not_idle hi
      have hnil : data = [] := by
        rw [hdirect] at hdone
        rcases hdone with hfail | hlen
        · cases w <;> simp [directFailure, hi] at hfail
        · exact List.eq_nil_of_length_eq_zero (Nat.le_zero.mp hlen)
      subst hnil
      refine Or.inl ⟨?_, rfl, by rw [hdirect]⟩
      cases w <;> simp [dropped, hi]
    · cases w with
      | count n =>
        refine Or.inr ⟨by simp [dropped, hi], Or.inr ⟨.write (data.take n), ?_, rfl⟩⟩
        simp [directWrite, hi]
      | error e logged =>
        refine Or.inl ⟨?_, rfl, by simp [directWrite, hi]⟩
        simpa [directWrite, directFailure, dropped, hi, or_comm] using hdone
  · have hne : data ≠ [] := by
      intro hnil
      rw [hnil] at hlt
      exact Nat.not_lt_zero _ hlt
    have hdropped : c.dropped data w = false := by
      cases w with
      | count n => simp [dropped, hne]
      | error e logged => simpa [dropped, hne] using hfail
    refine Or.inr ⟨hdropped, Or.inl ?_⟩
    simp only [queueOutput, Option.bind_eq_bind, Option.bind_eq_some_iff, Option.some.injEq,
      Prod.mk.injEq] at hq
    obtain ⟨c₁, hwatch, rfl, -⟩ := hq
    generalize c.outputBuffer.append _ = outputBuffer at hwatch
    have ht : ({ c with outputBuffer } : TcpConnection).poller.Tracked
        ({ c with outputBuffer } : TcpConnection).channel := hk.tracked
    have heq := withChannel_eq ht .enableWriting
    rw [watchOutput, isWriting_of_none (by exact hg.events)] at hwatch
    rw [show ChannelCall.enableWriting.call = Channel.enableWriting from rfl] at heq
    obtain rfl := Option.some.inj (heq.symm.trans hwatch)
    have hindex : (ChannelCall.enableWriting.after c.channel).index = .kAdded := by
      simp [ChannelCall.after, hg.index]
    exact (EPollPoller.Tracked.poller .enableWriting c.channel c.poller).mpr hindex

theorem Gone.passive_of_skips (hg : Gone c) {call : ConnCall} (hskip : c.skips call = true) :
    Passive c call := by
  cases call with
  | functor f w =>
    cases f with
    | sendInLoop data => exact Or.inl (beq_iff_eq.mp hskip)
    | forceCloseInLoop =>
      simp only [skips, Bool.and_eq_true, bne_iff_ne] at hskip
      exact hg.stat.resolve_right hskip.2
    | connectEstablished | connectDestroyed | shutdownInLoop | writeComplete | highWaterMark => trivial
  | event cb r w =>
    cases cb with
    | close | read => cases hskip
    | error | write => trivial
  | user => trivial

/-- **A call on a connection that is gone** leaves it alone iff it is passive. -/
theorem Gone.exec (hg : Gone c) (hk : Kept c) {call : ConnCall}
    (hne : ∀ w, call ≠ .functor .connectEstablished w) (h : c.exec call = some (c', es)) :
    (Passive c call ∧ Gone c' ∧ ∀ e ∈ es, e.isVisible = false) ∨ (¬ Passive c call ∧ Active c' es) := by
  have hclose : ∀ {c₀ : TcpConnection}, c₀.handleClose = some (c', es) → Active c' es := by
    intro c₀ hclose
    obtain ⟨-, rfl⟩ := handleClose_eq_some hclose
    exact Or.inr ⟨.closeCallback, by simp, rfl⟩
  have hdown : c.stat ≠ .kConnected := by
    rcases hg.stat with hstat | hstat <;> simp [hstat]
  cases executes_of_exec h with
  | skip hskip => exact Or.inl ⟨hg.passive_of_skips hskip, hg, by simp⟩
  | connectEstablished => exact absurd rfl (hne _)
  | connectDestroyed h =>
    obtain ⟨hindex, -, hother⟩ := connectDestroyed_gone h hk
    obtain ⟨hstat', hevents⟩ := hother hdown
    have hes : es = [] := by
      rcases connectDestroyed_eq_some h with ⟨hconn, -, -⟩ | ⟨-, -, hes⟩
      · exact absurd hconn hdown
      · exact hes
    refine Or.inl ⟨trivial, ⟨?_, hevents.trans hg.events, hindex⟩, by simp [hes]⟩
    rw [hstat']
    exact hg.stat
  | sendInLoop hstat hcall hsend =>
    rcases hcall with rfl | ⟨rfl, hconn⟩
    · rcases hg.sendInLoop hk hstat hsend with ⟨hdropped, rfl, rfl⟩ | ⟨hdropped, hactive⟩
      · exact Or.inl ⟨Or.inr hdropped, hg, by simp⟩
      · refine Or.inr ⟨?_, hactive⟩
        rintro (hd | hd)
        · exact hstat hd
        · rw [hdropped] at hd
          cases hd
    · exact absurd hconn hdown
  | shutdownInLoop h =>
    obtain ⟨rfl, -⟩ := shutdownInLoop_spec h
    refine Or.inl ⟨trivial, hg, ?_⟩
    unfold TcpConnection.shutdownInLoop at h
    split at h <;> cases h <;> simp [Effect.isVisible]
  | shutdown hconn => exact absurd hconn hdown
  | forceClose => exact Or.inl ⟨trivial, ⟨Or.inr rfl, hg.events, hg.index⟩, by simp [Effect.isVisible]⟩
  | forceCloseInLoop hopen h =>
    refine Or.inr ⟨fun hp => ?_, hclose h⟩
    rw [show c.stat = .kDisconnected from hp] at hopen
    rcases hopen with hopen | hopen <;> cases hopen
  | close h => exact Or.inr ⟨fun hp => hp, hclose h⟩
  | endOfStream _ h => exact Or.inr ⟨fun hp => hp rfl, hclose h⟩
  | message _ hr =>
    exact Or.inl ⟨hr, ⟨hg.stat, hg.events, hg.index⟩, by simp [Effect.isVisible]⟩
  | readError _ hr => exact Or.inl ⟨hr, ⟨hg.stat, hg.events, hg.index⟩, by simp⟩
  | write h =>
    rw [handleWrite_of_none hg.events] at h
    cases h
    exact Or.inl ⟨trivial, hg, by simp⟩

end TcpConnection

/-! ## The invariant -/

namespace ConnectionLoop

open TcpConnection

variable {T : Type*} [DecidableEq T] {s s' : ConnectionLoop T} {a : ConnectionAction T}

/-- The invariant of the runs. -/
structure Settled (s : ConnectionLoop T) : Prop where
  placed : Placed s
  kept : Kept s.conn
  gone : Destroyed s.history → Gone s.conn

/-- What the effects of a step are. -/
def performed (s s' : ConnectionLoop T) : List Effect :=
  (s'.history.drop s.history.length).filterMap fun
    | .did e => some e
    | _ => none

/-- A connection that the step destroys is disconnected and out of the poller.  One that has been
destroyed before is left alone. -/
def Inert (s : ConnectionLoop T) (a : ConnectionAction T) : Prop :=
  ∀ s', s.step a = some s' →
    (s.destroys a = true → s'.conn.stat = .kDisconnected ∧
      s'.conn.poller.interest s'.conn.channel.fd = none) ∧
    (Destroyed s.history → s'.conn.poller.interest s'.conn.channel.fd = none ∧
      ∀ e ∈ performed s s', e.isVisible = false)

/-- `connectDestroyed` does not run in state `kDisconnecting`, and what runs after it is passive. -/
def Harmless (s : ConnectionLoop T) (a : ConnectionAction T) : Prop :=
  (s.destroys a = true → s.conn.stat ≠ .kDisconnecting) ∧
    (Destroyed s.history → ∀ call, s.callOf a = some call → Passive s.conn call)

omit [DecidableEq T] in
theorem performed_eq {entries : List (HistoryEntry T)} {es : List Effect}
    (h : s'.history = s.history ++ entries ++ es.map .did) (hentries : ∀ e, .did e ∉ entries) :
    performed s s' = es := by
  unfold performed
  rw [h, List.append_assoc, List.drop_left, List.filterMap_append]
  have hnil : entries.filterMap (fun | .did e => some e | _ => none) = [] := by
    rw [List.filterMap_eq_nil_iff]
    intro entry hentry
    cases entry with
    | did e => exact absurd hentry (hentries e)
    | called | ran => rfl
  rw [hnil, List.filterMap_map]
  exact List.filterMap_some

section
omit [DecidableEq T]

theorem Apart.kept (h : Apart s a s') (hk : Kept s.conn)
    (hstat : s'.conn.stat = s.conn.stat ∨ s'.conn.stat = .kDisconnecting) : Kept s'.conn := by
  obtain ⟨revents, hchannel⟩ := h.channel
  constructor
  · unfold EPollPoller.Tracked
    rw [hchannel]
    show (s'.conn.poller.interest s.conn.channel.fd).isSome ↔ _
    rw [h.interest]
    exact hk.tracked
  · intro hclosed
    rw [hchannel]
    rcases hstat with hstat | hstat
    · exact hk.closed (hstat ▸ hclosed)
    · rw [hstat] at hclosed
      cases hclosed

theorem Apart.gone (h : Apart s a s') (hg : Gone s.conn)
    (hstat : s'.conn.stat = s.conn.stat ∨ s'.conn.stat = .kDisconnecting) : Gone s'.conn := by
  obtain ⟨revents, hchannel⟩ := h.channel
  refine ⟨?_, by rw [hchannel]; exact hg.events, by rw [hchannel]; exact hg.index⟩
  rcases hstat with hstat | hstat
  · rw [hstat]
    exact hg.stat
  · exact Or.inr hstat

theorem Settled.not_connecting (h : Settled s) (hd : Destroyed s.history) :
    s.conn.stat ≠ .kConnecting :=
  fun hc => (h.placed.connecting hc).2.1 hd

end

/-- `connectDestroyed` runs. -/
theorem Settled.destroys (h : Settled s) (ha : s.destroys a = true) (hstep : s.step a = some s') :
    s.conn.stat ≠ .kConnecting ∧ s'.conn.channel.index = .kNew ∧
      (s.conn.stat = .kDisconnecting → s'.conn.stat = .kDisconnecting) ∧
      (s.conn.stat ≠ .kDisconnecting → s'.conn.stat = .kDisconnected ∧ Gone s'.conn) := by
  obtain ⟨w, hcall⟩ := callOf_of_destroys ha
  obtain ⟨es, hcalls⟩ := step_of_callOf h.placed.consistent hcall hstep
  obtain ⟨hindex, hopen, hother⟩ := connectDestroyed_gone hcalls.exec h.kept
  have hstat : s.conn.stat ≠ .kConnecting := by
    intro hc
    rcases h.placed.first_call hc hcall hstep with ⟨⟨c, w', huser⟩, -⟩ | ⟨⟨w', hfirst⟩, -, -⟩
    · cases huser
    · cases hfirst
  refine ⟨hstat, hindex, fun hd => ?_, fun hd => ?_⟩
  · rw [(hother (by simp [hd])).1]
    exact hd
  · have hcases : s.conn.stat = .kConnected ∨ s.conn.stat = .kDisconnected := by
      revert hstat hd
      cases s.conn.stat <;> simp
    obtain ⟨hclosed, hevents⟩ := hopen hcases
    exact ⟨hclosed, Or.inl hclosed, hevents, hindex⟩

theorem settled_step (s : ConnectionLoop T) (a : ConnectionAction T) (s' : ConnectionLoop T)
    (h : Settled s) (hg : Harmless s a) (hstep : s.step a = some s') : Settled s' := by
  cases hcall : s.callOf a with
  | none =>
    obtain ⟨hapart, hstat⟩ := step_of_callOf_none hcall hstep
    have hstat' : s'.conn.stat = s.conn.stat ∨ s'.conn.stat = .kDisconnecting :=
      hstat.imp_right fun hd => hd.1
    refine ⟨h.placed.step hstep, hapart.kept h.kept hstat', fun hd => ?_⟩
    obtain ⟨entries, hhistory, -, hnot⟩ := hapart.history
    rw [hhistory, destroyed_append] at hd
    exact hapart.gone (h.gone (hd.resolve_right hnot)) hstat'
  | some call =>
    obtain ⟨es, hcalls⟩ := step_of_callOf h.placed.consistent hcall hstep
    refine ⟨h.placed.step hstep, h.kept.exec hcalls.exec, fun hd => ?_⟩
    obtain ⟨entries, hhistory, -, hdestroys⟩ := hcalls.history
    rw [hhistory, destroyed_append, destroyed_append] at hd
    rcases hd with (hd | hd) | hd
    · have hne := h.placed.not_establish (h.not_connecting hd) hcall hstep
      rcases (h.gone hd).exec h.kept hne hcalls.exec with ⟨-, hgone, -⟩ | ⟨hnot, -⟩
      · exact hgone
      · exact absurd (hg.2 hd call hcall) hnot
    · obtain ⟨-, -, -, hgone⟩ := h.destroys (hdestroys hd) hstep
      exact (hgone (hg.1 (hdestroys hd))).2
    · exact absurd hd (not_destroyed_did es)

theorem inert_iff_harmless (s : ConnectionLoop T) (a : ConnectionAction T) (s' : ConnectionLoop T)
    (h : Settled s) (hstep : s.step a = some s') : Inert s a ↔ Harmless s a := by
  have hdet : ∀ s'', s.step a = some s'' → s'' = s' := fun s'' h' =>
    Option.some.inj (h'.symm.trans hstep)
  constructor
  · intro hinert
    obtain ⟨hdestroyed, hafter⟩ := hinert s' hstep
    refine ⟨fun ha hd => ?_, fun hd call hcall => ?_⟩
    · have hstay := (h.destroys ha hstep).2.2.1 hd
      rw [(hdestroyed ha).1] at hstay
      cases hstay
    · obtain ⟨es, hcalls⟩ := step_of_callOf h.placed.consistent hcall hstep
      have hne := h.placed.not_establish (h.not_connecting hd) hcall hstep
      rcases (h.gone hd).exec h.kept hne hcalls.exec with ⟨hpassive, -, -⟩ | ⟨-, hactive⟩
      · exact hpassive
      · obtain ⟨entries, hhistory, hentries, -⟩ := hcalls.history
        obtain ⟨hnone, hes⟩ := hafter hd
        rw [performed_eq hhistory hentries] at hes
        rcases hactive with hsome | ⟨e, he, hvisible⟩
        · rw [hnone] at hsome
          cases hsome
        · rw [hes e he] at hvisible
          cases hvisible
  · intro hharmless s'' h'
    rw [hdet s'' h']
    have hsettled' := settled_step s a s' h hharmless hstep
    refine ⟨fun ha => ?_, fun hd => ?_⟩
    · obtain ⟨-, hindex, -, hgone⟩ := h.destroys ha hstep
      refine ⟨(hgone (hharmless.1 ha)).1, hsettled'.kept.tracked.interest_none ?_⟩
      rw [hindex]
      decide
    · cases hcall : s.callOf a with
      | none =>
        obtain ⟨hapart, hstat⟩ := step_of_callOf_none hcall hstep
        have hgone := hapart.gone (h.gone hd) (hstat.imp_right fun hd => hd.1)
        refine ⟨hgone.unregistered hsettled'.kept, ?_⟩
        obtain ⟨entries, hhistory, hentries, -⟩ := hapart.history
        have hnone : performed s s' = [] :=
          performed_eq (by rw [hhistory, List.map_nil, List.append_nil]) hentries
        simp [hnone]
      | some call =>
        obtain ⟨es, hcalls⟩ := step_of_callOf h.placed.consistent hcall hstep
        have hne := h.placed.not_establish (h.not_connecting hd) hcall hstep
        rcases (h.gone hd).exec h.kept hne hcalls.exec with ⟨-, hgone, hes⟩ | ⟨hnot, -⟩
        · obtain ⟨entries, hhistory, hentries, -⟩ := hcalls.history
          refine ⟨hgone.unregistered hsettled'.kept, ?_⟩
          rw [performed_eq hhistory hentries]
          exact hes
        · exact absurd (hharmless.2 hd call hcall) hnot

omit [DecidableEq T] in
theorem Fresh.settled {s : ConnectionLoop T} (h : Fresh s) (hk : Kept s.conn) : Settled s := by
  have hnot : ¬ Destroyed s.history := by
    rw [h.history]
    exact not_destroyed_nil
  refine ⟨⟨h.consistent, fun _ => ⟨h.stat, h.own⟩, fun _ => ⟨⟨h.unwatched, h.active, h.dispatch⟩, hnot,
    h.calls, fun hc => ?_⟩, fun hc => absurd h.stat hc⟩, hk, fun hd => absurd hd hnot⟩
  rw [h.created] at hc
  cases hc

instance decidablePassive (c : TcpConnection) : ∀ call : ConnCall, Decidable (Passive c call)
  | .functor (.sendInLoop data) w =>
    inferInstanceAs (Decidable (c.stat = .kDisconnected ∨ c.dropped data w = true))
  | .functor .forceCloseInLoop _ => inferInstanceAs (Decidable (c.stat = .kDisconnected))
  | .event .close _ _ => isFalse not_false
  | .event .read r _ => inferInstanceAs (Decidable (r ≠ .data []))
  | .functor .connectEstablished _ | .functor .connectDestroyed _ | .functor .shutdownInLoop _
  | .functor .writeComplete _ | .functor (.highWaterMark _) _ | .event .error _ _ | .event .write _ _
  | .user _ _ => isTrue trivial

instance decidableDestroyed (history : List (HistoryEntry Unit)) : Decidable (Destroyed history) :=
  decidable_of_iff (.ran none .connectDestroyed ∈ history ∨ .ran (some ()) .connectDestroyed ∈ history)
    ⟨fun h => h.elim (⟨_, ·⟩) (⟨_, ·⟩), fun ⟨source, h⟩ => by
      cases source with
      | none => exact Or.inl h
      | some t => exact Or.inr h⟩

instance decidableInert (s : ConnectionLoop Unit) (a : ConnectionAction Unit) : Decidable (Inert s a) :=
  match h : s.step a with
  | none => isTrue fun _ h' => by simp [h] at h'
  | some s' =>
    decidable_of_iff ((s.destroys a = true → s'.conn.stat = .kDisconnected ∧
        s'.conn.poller.interest s'.conn.channel.fd = none) ∧
      (Destroyed s.history → s'.conn.poller.interest s'.conn.channel.fd = none ∧
        ∀ e ∈ performed s s', e.isVisible = false))
      ⟨fun hp _ h' => Option.some.inj (h.symm.trans h') ▸ hp, fun hp => hp s' h⟩

instance decidableHarmless (s : ConnectionLoop Unit) (a : ConnectionAction Unit) :
    Decidable (Harmless s a) :=
  decidable_of_iff ((s.destroys a = true → s.conn.stat ≠ .kDisconnecting) ∧
      (Destroyed s.history → ∀ call ∈ s.callOf a, Passive s.conn call)) Iff.rfl

/-- Another thread sends, and the server is destroyed before the loop takes the functor. -/
def destroyBeforeSend : List (ConnectionAction Unit) :=
  [.establish none, .loop .enterLoop, .loop .resetQuit, .loop .testQuit, .poll false none,
    .test () (.send [1, 2]), .push (), .destroy none, .loop .beginFunctors, .loop .swapFunctors,
    .callFunctor (.count 1)]

/-- The same with a call of `shutdown` by that thread, behind its `send`. -/
def shutdownBeforeDestroy : List (ConnectionAction Unit) :=
  [.establish none, .loop .enterLoop, .loop .resetQuit, .loop .testQuit, .poll false none,
    .test () (.send [1, 2]), .push (), .loop (.wakeup ()), .test () .shutdown, .store (), .push (),
    .destroy none, .loop .beginFunctors, .loop .swapFunctors, .callFunctor (.count 1)]

end ConnectionLoop
end Muduo
