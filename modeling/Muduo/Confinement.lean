import Muduo.ServerLoops

/-!
# Thread confinement

None of the buffers, maps and pollers is locked: each belongs to one loop, and only the thread of that
loop may call the functions that use it.

    every function of a connection, and its calls into the poller, run on the connection's loop;
    newConnection and removeConnectionInLoop run on the base loop;
    addTimerInLoop and TimerQueue::handleRead run on the loop of the timer queue
                                                                     (thread_confinement)

The invariant `Confined` follows control on its way from thread to thread: a queue holds functors of
its own loop, a poller watches channels of its own loop, and so what it reports, what is dispatched
and what is left on a thread's stack concern that thread's loop.
-/

namespace Muduo

open Transition

/-! ## Homes -/

/-- The loop on whose thread the function must run. -/
def Fn.home : Fn → Option Nat
  | .conn p _ => some p.loop
  | .newConnection | .removeConnectionInLoop _ => some 0
  | .removeConnection _ => none
  | .addTimerInLoop l | .timerHandleRead l => some l

def LoopsFunctor.home : LoopsFunctor → Option Nat
  | .conn p _ => some p.loop
  | .removeConnectionInLoop _ | .listen => some 0
  | .addTimerInLoop l => some l
  | .user => none

def Ready.home : Ready → Option Nat
  | .conn p _ => some p.loop
  | .acceptor => some 0
  | .timerfd => none

def Frame.home : Frame → Nat
  | .closeCallback p | .removeChannel p => p.loop
  | .walk | .join => 0

/-- Who has registered a channel of this address. -/
def OwnAddress (l addr : Nat) : Prop :=
  (∀ p : ConnPtr, addr = p.addr → p.loop = l) ∧ (addr = acceptorAddr → l = 0)

theorem ConnPtr.addr_injective {p q : ConnPtr} (h : p.addr = q.addr) : p = q := by
  have hpair : Nat.pair p.id p.loop = Nat.pair q.id q.loop := Nat.succ.inj h
  rw [Nat.pair_eq_pair] at hpair
  cases p
  cases q
  simp only [ConnPtr.mk.injEq]
  exact hpair

theorem ownAddress_conn (p : ConnPtr) : OwnAddress p.loop p.addr := by
  refine ⟨?_, ?_⟩
  · intro q hq
    rw [ConnPtr.addr_injective hq]
  · intro h
    exact absurd h (Nat.succ_ne_zero _)

theorem ownAddress_acceptor : OwnAddress 0 acceptorAddr := by
  refine ⟨?_, fun _ => rfl⟩
  intro p hp
  exact absurd hp.symm (Nat.succ_ne_zero _)

namespace ServerLoops

variable {T : Type*}

/-! ## The invariant -/

structure Confined (s : ServerLoops T) : Prop where
  trace : ∀ e ∈ s.trace, ∀ l, e.fn.home = some l → e.thread = .loop l
  consistent : ∀ l, (s.loops l).Consistent
  queue : ∀ l, ∀ f ∈ (s.loops l).queue, ∀ h, f.home = some h → h = l
  poller : ∀ l fd event, (s.pollers l).interest fd = some event → OwnAddress l event.ptr
  conns : ∀ p, (s.conns p).channel.addr = p.addr
  acceptor : s.acceptChannel.addr = acceptorAddr
  active : ∀ l, ∀ r ∈ s.active l, ∀ h, r.home = some h → h = l
  dispatch : ∀ l, ∀ d ∈ s.dispatch l, d.1.loop = l
  frames : ∀ l, ∀ f ∈ s.frames (.loop l), f.home = l

theorem confined_init (numThreads fd : Nat) : Confined (init numThreads fd : ServerLoops T) where
  trace := by simp [init]
  consistent _ := EventLoop.consistent_new
  queue := by simp [init, EventLoop.queue, EventLoop.new]
  poller := by simp [init, EPollPoller.empty]
  conns _ := rfl
  acceptor := rfl
  active := by simp [init]
  dispatch := by simp [init]
  frames := by simp [init]

variable [DecidableEq T] {s s' : ServerLoops T} {th : Thread T} {p : ConnPtr} {l : Nat}

namespace Confined

omit [DecidableEq T] in
/-- Fields that confinement does not look at. -/
theorem of_eq (h : Confined s) (htrace : s'.trace = s.trace) (hloops : s'.loops = s.loops)
    (hpollers : s'.pollers = s.pollers) (hconns : s'.conns = s.conns)
    (hacceptor : s'.acceptChannel = s.acceptChannel) (hactive : s'.active = s.active)
    (hdispatch : s'.dispatch = s.dispatch) (hframes : s'.frames = s.frames) : Confined s' := by
  constructor
  · rw [htrace]
    exact h.trace
  · rw [hloops]
    exact h.consistent
  · rw [hloops]
    exact h.queue
  · rw [hpollers]
    exact h.poller
  · rw [hconns]
    exact h.conns
  · rw [hacceptor]
    exact h.acceptor
  · rw [hactive]
    exact h.active
  · rw [hdispatch]
    exact h.dispatch
  · rw [hframes]
    exact h.frames

omit [DecidableEq T] in
theorem record (h : Confined s) {fns : List Fn}
    (hfns : ∀ fn ∈ fns, ∀ l, fn.home = some l → th = .loop l) : Confined (s.record th fns) := by
  refine { h with trace := ?_ }
  intro e he l hhome
  rcases List.mem_append.mp he with hold | hnew
  · exact h.trace e hold l hhome
  · obtain ⟨fn, hfn, rfl⟩ := List.mem_map.mp hnew
    exact hfns fn hfn l hhome

omit [DecidableEq T] in
theorem record_one (h : Confined s) {fn : Fn} (hfn : ∀ l, fn.home = some l → th = .loop l) :
    Confined (s.record th [fn]) := by
  apply h.record
  rw [List.forall_mem_singleton]
  exact hfn

omit [DecidableEq T] in
/-- The functions of a connection, recorded on its own thread. -/
theorem record_conn (h : Confined s) (fns : List ConnFn) :
    Confined (s.record (.loop p.loop) (fns.map (.conn p))) := by
  apply h.record
  intro fn hfn l hhome
  obtain ⟨f, -, rfl⟩ := List.mem_map.mp hfn
  cases hhome
  rfl

/-- Another stack. -/
theorem withFrames (h : Confined s) {fs : List Frame} (hfs : ∀ f ∈ fs, f.home = l) :
    Confined { s with frames := Function.update s.frames (.loop l) fs } := by
  refine { h with frames := ?_ }
  intro l' f' hf'
  by_cases hl : l' = l
  · subst hl
    simp only [Function.update_self] at hf'
    exact hfs f' hf'
  · have hne : (.loop l' : Thread T) ≠ .loop l := by
      intro he
      cases he
      exact hl rfl
    simp only [Function.update_of_ne hne] at hf'
    exact h.frames l' f' hf'

/-- The stack without its top. -/
theorem popFrame (h : Confined s) {f : Frame} {fs : List Frame}
    (hframes : s.frames (.loop l) = f :: fs) :
    Confined { s with frames := Function.update s.frames (.loop l) fs } :=
  h.withFrames fun f' hf' => h.frames l f' (hframes ▸ List.mem_cons_of_mem _ hf')

theorem pushFrame (h : Confined s) {f : Frame} (hf : f.home = l) :
    Confined (s.pushFrame (.loop l) f) := by
  apply h.withFrames
  rw [List.forall_mem_cons]
  exact ⟨hf, h.frames l⟩

/-- A step of one loop pushes functors of that loop. -/
theorem loopStep (h : Confined s) {a : LoopAction (Thread T) LoopsFunctor}
    {loop : EventLoop (Thread T) LoopsFunctor} (hstep : (s.loops l).step a = some loop)
    (hpush : ∀ f ∈ a.push, ∀ h, f.home = some h → h = l) :
    Confined { s with loops := Function.update s.loops l loop } := by
  refine { h with consistent := ?_, queue := ?_ }
  · exact consistent_update h.consistent hstep
  · exact forall_queue_update (h.consistent l) hstep h.queue hpush

theorem queueInLoop (h : Confined s) {f : LoopsFunctor} (hf : ∀ h, f.home = some h → h = l)
    (hq : s.queueInLoop th l f = some s') : Confined s' := by
  obtain ⟨a, loop, hstep, hpush, -, rfl⟩ := step_of_queueInLoop hq
  refine h.loopStep hstep ?_
  rw [hpush, List.forall_mem_singleton]
  exact hf

omit [DecidableEq T] in
/-- The entries of a poller change only for a channel of its own loop. -/
theorem forall_poller_update (h : Confined s) {addr : Nat} {poller : EPollPoller}
    (hadds : (s.pollers l).OnlyAdds addr poller) (hown : OwnAddress l addr) :
    ∀ l' fd event, (Function.update s.pollers l poller l').interest fd = some event →
      OwnAddress l' event.ptr := by
  refine (Function.forall_update_iff s.pollers fun l' poller =>
    ∀ fd event, poller.interest fd = some event → OwnAddress l' event.ptr).mpr
      ⟨?_, fun l' _ => h.poller l'⟩
  intro fd event hevent
  rcases hadds fd event hevent with hold | hnew
  · exact h.poller l fd event hold
  · rw [hnew]
    exact hown

omit [DecidableEq T] in
/-- The connection changes, and with it only its own entries in its own poller. -/
theorem setConn (h : Confined s) {c : TcpConnection}
    (hadds : (s.pollers p.loop).OnlyAdds p.addr c.poller) (haddr : c.channel.addr = p.addr) :
    Confined (s.setConn p c) := by
  refine { h with poller := ?_, conns := ?_ }
  · exact h.forall_poller_update hadds (ownAddress_conn p)
  · exact (Function.forall_update_iff s.conns fun q c => c.channel.addr = q.addr).mpr
      ⟨haddr, fun q _ => h.conns q⟩

omit [DecidableEq T] in
theorem setConn_of_accounts (h : Confined s) {c : TcpConnection} {ks : List ChannelCall}
    (hc : TcpConnection.Accounts (s.connOf p) ks c) : Confined (s.setConn p c) := by
  obtain ⟨hadds, haddr, -⟩ := hc.onlyAdds
  have hown : (s.connOf p).channel.addr = p.addr := h.conns p
  rw [hown] at hadds haddr
  exact h.setConn hadds haddr

end Confined

/-- All functors of a connection but `connectDestroyed` are one call. -/
theorem runFunctor_conn {f : ConnFunctor} (hf : f ≠ .connectDestroyed) (w : WriteResult) :
    s.runFunctor th (.conn p f) w = s.callConn th p (.functor f w) := by
  cases f with
  | connectDestroyed => exact absurd rfl hf
  | connectEstablished | sendInLoop | shutdownInLoop | forceCloseInLoop | writeComplete
  | highWaterMark => rfl

/-- What every element keeps, a fold keeps. -/
theorem foldlM_inv {S E : Type*} {P : S → Prop} {f : S → E → Option S} :
    ∀ {es : List E} {s s' : S}, (∀ e ∈ es, ∀ s s', P s → f s e = some s' → P s') → P s →
      es.foldlM f s = some s' → P s' := by
  intro es
  induction es with
  | nil =>
    intro s s' _ hs h
    simp only [List.foldlM_nil, Option.pure_def, Option.some.injEq] at h
    exact h ▸ hs
  | cons e es ih =>
    intro s s' hf hs h
    simp only [List.foldlM_cons, Option.bind_eq_bind, Option.bind_eq_some_iff] at h
    obtain ⟨s₁, h₁, h₂⟩ := h
    have hs₁ : P s₁ := hf e List.mem_cons_self s s₁ hs h₁
    exact ih (fun e' he' => hf e' (List.mem_cons_of_mem _ he')) hs₁ h₂

namespace Confined

theorem effect (h : Confined s) {e : Effect} (he : s.effect (.loop p.loop) p e = some s') :
    Confined s' := by
  cases e with
  | queueInLoop f =>
    refine h.queueInLoop ?_ he
    intro l hl
    cases hl
    rfl
  | closeCallback =>
    cases he
    exact h.pushFrame rfl
  | write | shutdownWrite | connectionCallback | messageCallback =>
    cases he
    exact h

/-- **A function of a connection** on the thread of its loop. -/
theorem callConn (h : Confined s) {call : ConnCall}
    (hc : s.callConn (.loop p.loop) p call = some s') : Confined s' := by
  obtain ⟨⟨c', es⟩, hexec, hfold⟩ := Option.bind_eq_some_iff.mp hc
  have hcalls := TcpConnection.exec_pollerCalls hexec
  exact foldlM_inv (fun _ _ _ _ hs he => hs.effect he)
    ((h.setConn_of_accounts hcalls).record_conn _) hfold

omit [DecidableEq T] in
theorem removeChannel (h : Confined s) (hr : s.removeChannel (.loop p.loop) p = some s') :
    Confined s' := by
  obtain ⟨c, hc, rfl⟩ := Option.map_eq_some_iff.mp hr
  have hcalls : TcpConnection.Accounts (s.connOf p) [.remove] c :=
    TcpConnection.accounts_withChannel hc
  exact (h.setConn_of_accounts hcalls).record_conn [.removeChannel]

theorem connectDestroyed (h : Confined s) (hd : s.connectDestroyed (.loop p.loop) p = some s') :
    Confined s' := by
  obtain ⟨⟨c', es⟩, hdown, hd⟩ := Option.bind_eq_some_iff.mp hd
  have hcalls := TcpConnection.downIfConnected_calls hdown
  have hrecorded := (h.setConn_of_accounts hcalls).record_conn (p := p)
    (.connectDestroyed :: (s.connOf p).downCalls.map ChannelCall.fn)
  dsimp only at hd
  split at hd
  · exact hrecorded.removeChannel hd
  · cases hd
    exact hrecorded.pushFrame rfl

theorem removeConnectionInLoop (h : Confined s)
    (hr : s.removeConnectionInLoop (.loop 0) p = some s') : Confined s' := by
  have hrecorded : Confined (s.record (.loop 0) [.removeConnectionInLoop p]) := by
    apply h.record_one
    rintro l ⟨⟩
    rfl
  refine queueInLoop (s := { s.record (.loop 0) [.removeConnectionInLoop p] with
    connections := s.connections.erase p }) ?_ ?_ hr
  · exact hrecorded.of_eq rfl rfl rfl rfl rfl rfl rfl rfl
  · intro l hl
    cases hl
    rfl

omit [DecidableEq T] in
theorem listen (h : Confined s) (hl : s.listen = some s') : Confined s' := by
  unfold ServerLoops.listen at hl
  split at hl
  · obtain ⟨⟨poller, ch⟩, hcall, rfl⟩ := Option.map_eq_some_iff.mp hl
    have hk : ChannelCall.enableReading.call s.acceptChannel (s.pollers 0) = some (poller, ch) := hcall
    obtain ⟨hadds, haddr, -⟩ := call_onlyAdds hk
    rw [h.acceptor] at hadds
    exact { h with
      poller := h.forall_poller_update hadds ownAddress_acceptor
      acceptor := haddr.trans h.acceptor }
  · cases hl
    exact h

/-- **A functor** run on the thread of its own loop. -/
theorem runFunctor (h : Confined s) {f : LoopsFunctor} {w : WriteResult}
    (hf : ∀ h, f.home = some h → h = l) (hr : s.runFunctor (.loop l) f w = some s') :
    Confined s' := by
  cases f with
  | conn p f =>
    obtain rfl : p.loop = l := hf p.loop rfl
    by_cases hdestroyed : f = .connectDestroyed
    · subst hdestroyed
      exact h.connectDestroyed hr
    · rw [runFunctor_conn hdestroyed] at hr
      exact h.callConn hr
  | removeConnectionInLoop p =>
    obtain rfl : 0 = l := hf 0 rfl
    exact h.removeConnectionInLoop hr
  | listen => exact h.listen hr
  | addTimerInLoop l' =>
    obtain rfl : l' = l := hf l' rfl
    cases hr
    apply h.record_one
    rintro l ⟨⟩
    rfl
  | user =>
    cases hr
    exact h

/-- **`runInLoop`** calls the functor at once only on the right thread. -/
theorem runInLoop (h : Confined s) {f : LoopsFunctor} (hf : ∀ h, f.home = some h → h = l)
    (hr : s.runInLoop th l f = some s') : Confined s' := by
  unfold ServerLoops.runInLoop at hr
  split at hr
  · next hth =>
    subst hth
    exact h.runFunctor hf hr
  · exact h.queueInLoop hf hr

theorem removeConnection (h : Confined s) (hr : s.removeConnection th p = some s') : Confined s' := by
  have hrecorded : Confined (s.record th [.removeConnection p]) := by
    apply h.record_one
    rintro l ⟨⟩
  refine hrecorded.runInLoop ?_ hr
  intro l hl
  cases hl
  rfl

omit [DecidableEq T] in
/-- The new connection, before it is established. -/
theorem made (h : Confined s) (sockfd : Nat) (wc hw : Bool) {ioLoop : Nat} (next : Nat) :
    Confined { s.record (.loop 0) [.newConnection] with
      next
      created := s.created + 1
      conns := Function.update s.conns ⟨s.created, ioLoop⟩ (TcpConnection.new (s.pollers ioLoop)
        (ConnPtr.addr ⟨s.created, ioLoop⟩) sockfd wc hw)
      alive := Function.update s.alive ⟨s.created, ioLoop⟩ true
      connections := s.connections ++ [⟨s.created, ioLoop⟩] } := by
  have hrecorded : Confined (s.record (.loop 0) [.newConnection]) := by
    apply h.record_one
    rintro l ⟨⟩
    rfl
  refine { hrecorded with conns := ?_ }
  exact (Function.forall_update_iff s.conns fun q c => c.channel.addr = q.addr).mpr
    ⟨rfl, fun q _ => h.conns q⟩

theorem newConnection (h : Confined s) {sockfd : Nat} {wc hw : Bool}
    (hn : s.newConnection (.loop 0) sockfd wc hw = some s') : Confined s' := by
  unfold ServerLoops.newConnection at hn
  generalize s.getNextLoop = r at hn
  obtain ⟨ioLoop, next⟩ := r
  dsimp only at hn
  refine (h.made sockfd wc hw next).runInLoop ?_ hn
  intro l hl
  cases hl
  rfl

theorem resume (h : Confined s) (hr : s.resume (.loop l) = some s') : Confined s' := by
  unfold ServerLoops.resume at hr
  split at hr
  · cases hr
  · cases hr
  · next p fs hframes =>
    exact (h.popFrame hframes).removeConnection hr
  · next p fs hframes =>
    have hown : Frame.home (.removeChannel p) = l := h.frames l _ (hframes ▸ List.mem_cons_self)
    obtain rfl : p.loop = l := hown
    exact (h.popFrame hframes).removeChannel hr
  · next fs hframes =>
    have hl : Frame.home .walk = l := h.frames l _ (hframes ▸ List.mem_cons_self)
    split at hr
    · cases hr
      apply h.withFrames
      intro f hf
      rcases List.mem_cons.mp hf with rfl | hf
      · exact hl
      · exact h.frames l f (hframes ▸ List.mem_cons_of_mem _ hf)
    · refine runInLoop ?_ ?_ hr
      · exact h.of_eq rfl rfl rfl rfl rfl rfl rfl rfl
      · intro l' hl'
        cases hl'
        rfl

theorem finish (h : Confined s) (hf : s.finish = some s') : Confined s' := by
  unfold ServerLoops.finish at hf
  split at hf
  · next fs hframes =>
    split at hf
    · obtain ⟨⟨poller, ch⟩, hdisable, hf⟩ := Option.bind_eq_some_iff.mp hf
      obtain ⟨⟨poller', ch'⟩, hremove, rfl⟩ := Option.map_eq_some_iff.mp hf
      have hall : ChannelCall.applyAll [.disableAll, .remove] (s.acceptChannel, s.pollers 0) =
          some (ch', poller') := by
        have hdisable' : ChannelCall.disableAll.call s.acceptChannel (s.pollers 0) =
          some (poller, ch) := hdisable
        have hremove' : ChannelCall.remove.call ch poller = some (poller', ch') := hremove
        simp only [ChannelCall.applyAll, hdisable', hremove', Option.bind_some]
      obtain ⟨hadds, haddr, -⟩ := applyAll_onlyAdds hall
      rw [h.acceptor] at hadds
      exact { h.popFrame hframes with
        poller := h.forall_poller_update hadds ownAddress_acceptor
        acceptor := haddr.trans h.acceptor }
    · cases hf
  · cases hf

omit [DecidableEq T] in
/-- What a poller reports belongs to its loop. -/
theorem reports (h : Confined s) {r : Ready} (hr : s.reports l r = true) :
    ∀ h, r.home = some h → h = l := by
  intro l' hl'
  cases r with
  | timerfd => cases hl'
  | acceptor =>
    cases hl'
    simp only [ServerLoops.reports] at hr
    split at hr
    · next event hevent =>
      exact ((h.poller l _ event hevent).2 (beq_iff_eq.mp hr)).symm
    · cases hr
  | conn p revents =>
    cases hl'
    simp only [ServerLoops.reports] at hr
    split at hr
    · next event hevent => exact (h.poller l _ event hevent).1 p (beq_iff_eq.mp hr)
    · cases hr

omit [DecidableEq T] in
/-- The snapshot of one loop changes. -/
theorem withActive (h : Confined s) {rs : List Ready}
    (hrs : ∀ r ∈ rs, ∀ h, r.home = some h → h = l) :
    Confined { s with active := Function.update s.active l rs } := by
  refine { h with active := ?_ }
  exact (Function.forall_update_iff s.active fun l rs => ∀ r ∈ rs, ∀ h, r.home = some h → h = l).mpr
    ⟨hrs, fun l' _ => h.active l'⟩

omit [DecidableEq T] in
/-- The snapshot without its first channel. -/
theorem withRest (h : Confined s) {r : Ready} {rest : List Ready} (hactive : s.active l = r :: rest) :
    Confined { s with active := Function.update s.active l rest } :=
  h.withActive fun r' hr' => h.active l r' (hactive ▸ List.mem_cons_of_mem _ hr')

omit [DecidableEq T] in
theorem withDispatch (h : Confined s) {d : Option (ConnPtr × List EventCallback)}
    (hd : ∀ d' ∈ d, d'.1.loop = l) :
    Confined { s with dispatch := Function.update s.dispatch l d } := by
  refine { h with dispatch := ?_ }
  exact (Function.forall_update_iff s.dispatch fun l d => ∀ d' ∈ d, d'.1.loop = l).mpr
    ⟨hd, fun l' _ => h.dispatch l'⟩

omit [DecidableEq T] in
/-- The other threads store the state of a connection, and nothing else of it. -/
theorem withStat (h : Confined s) (p : ConnPtr) (stat : StateE) :
    Confined { s with conns := Function.update s.conns p ((s.conns p).setState stat) } := by
  refine { h with conns := ?_ }
  exact (Function.forall_update_iff s.conns fun q c => c.channel.addr = q.addr).mpr
    ⟨h.conns p, fun q _ => h.conns q⟩

theorem setCall (h : Confined s) (th : Thread T) (call : Option (ConnPtr × CallPc)) :
    Confined (s.setCall th call) := h.of_eq rfl rfl rfl rfl rfl rfl rfl rfl

end Confined

/-- A step of a loop apart from the server pushes functors of the user only. -/
theorem push_of_mayTake {a : LoopAction (Thread T) LoopsFunctor} (h : s.mayTake l a = true) :
    ∀ f ∈ a.push, f = .user := by
  intro f hf
  cases a with
  | queueInLoop th g =>
    rw [LoopAction.push, List.mem_singleton] at hf
    simp only [mayTake, Bool.and_eq_true, beq_iff_eq] at h
    rw [hf, h.1.1]
  | loopQueueInLoop g =>
    rw [LoopAction.push, List.mem_singleton] at hf
    simp only [mayTake, Bool.and_eq_true, beq_iff_eq] at h
    rw [hf, h.1]
  | quit | wakeup | loopQuit | enterLoop | resetQuit | testQuit | pollReturns | handleRead
  | beginFunctors | swapFunctors | callFunctor | endFunctors | destroyFunctors => cases hf

/-- The first functor of a batch belongs to the loop, and taking it changes nothing else. -/
theorem Confined.callFunctor (h : Confined s) {f : LoopsFunctor} {fs : List LoopsFunctor}
    {loop : EventLoop (Thread T) LoopsFunctor} (hfs : (s.loops l).functors = f :: fs)
    (hstep : (s.loops l).step .callFunctor = some loop) :
    Confined { s with loops := Function.update s.loops l loop } ∧
      ∀ h, f.home = some h → h = l := by
  refine ⟨h.loopStep hstep (by simp [LoopAction.push]), ?_⟩
  apply h.queue l f
  rw [EventLoop.queue, hfs]
  exact List.mem_append_left _ List.mem_cons_self

/-- **One step** of any thread keeps control on the right threads. -/
theorem confined_step (s : ServerLoops T) (a : LoopsAction T) (s' : ServerLoops T) (h : Confined s)
    (hs : s.step a = some s') : Confined s' := by
  cases moves_of_step hs with
  | loop _ hmay hloop =>
    refine h.loopStep hloop fun f hf l' hl' => ?_
    rw [push_of_mayTake hmay f hf] at hl'
    cases hl'
  | enterLoop _ hloop =>
    exact (h.loopStep hloop (by simp [LoopAction.push])).of_eq rfl rfl rfl rfl rfl rfl rfl rfl
  | @poll l _ ready _ _ hready hloop =>
    have hactive : Confined { s with active := Function.update s.active l ready } :=
      h.withActive fun r hr => h.reports (hready r hr)
    exact hactive.loopStep hloop (by simp [LoopAction.push])
  | handled hactive => exact h.withRest hactive
  | dispatched hactive =>
    refine (h.withRest hactive).withDispatch ?_
    rintro d ⟨⟩
    exact h.active _ _ (hactive ▸ List.mem_cons_self) _ rfl
  | @callback l _ _ p cb rest _ hdispatch hcall =>
    obtain rfl : p.loop = l := h.dispatch l (p, cb :: rest) hdispatch
    have hd : Confined { s with dispatch := Function.update s.dispatch p.loop (some (p, rest)) } := by
      apply h.withDispatch
      rintro d ⟨⟩
      rfl
    exact hd.callConn hcall
  | endEvent => exact h.withDispatch (by simp)
  | @accept l _ _ _ _ _ hactive _ hnew =>
    obtain rfl : 0 = l := h.active l _ (hactive ▸ List.mem_cons_self) 0 rfl
    exact (h.withRest hactive).newConnection hnew
  | timer hactive =>
    apply (h.withRest hactive).record_one
    rintro l' ⟨⟩
    rfl
  | callFunctor _ hfunctors hloop hrun =>
    obtain ⟨htaken, hhome⟩ := h.callFunctor hfunctors hloop
    exact htaken.runFunctor hhome hrun
  | resume _ hresume => exact h.resume hresume
  | userCall _ hcall => exact h.callConn hcall
  | testPassed => exact h.setCall _ _
  | testFailed => exact h
  | store => exact (h.withStat _ .kDisconnecting).setCall _ _
  | push _ hqueue =>
    refine (h.setCall _ none).queueInLoop ?_ hqueue
    intro l hl
    cases hl
    rfl
  | runAfter hrun =>
    refine h.runInLoop ?_ hrun
    intro l' hl'
    cases hl'
    rfl
  | start hrun =>
    have hstarted : Confined { s with started := true } := h.of_eq rfl rfl rfl rfl rfl rfl rfl rfl
    refine hstarted.runInLoop ?_ hrun
    intro l' hl'
    cases hl'
    rfl
  | destroy =>
    have hphase : Confined { s with phase := .destroying } := h.of_eq rfl rfl rfl rfl rfl rfl rfl rfl
    exact hphase.pushFrame rfl
  | finish hfinish => exact h.finish hfinish
  | release => exact h.of_eq rfl rfl rfl rfl rfl rfl rfl rfl

/-- **Thread confinement.**  For any number of sub-loops and any order of the steps of all threads,
every function of a connection and every call it makes into the poller runs on the thread of the
connection's loop, `newConnection` and `removeConnectionInLoop` on that of the base loop, and
`addTimerInLoop` and `TimerQueue::handleRead` on that of the queue's loop. -/
theorem thread_confinement (numThreads fd : Nat) (as : List (LoopsAction T)) (s : ServerLoops T)
    (hrun : run step (init numThreads fd) as = some s) :
    ∀ e ∈ s.trace, ∀ l, e.fn.home = some l → e.thread = .loop l :=
  (run_inv confined_step (confined_init numThreads fd) hrun).trace

/-- The functors of loop `l`, of which there is one. -/
def oneFunctor (l : Nat) : List (LoopsAction Unit) :=
  [.loop l .beginFunctors, .loop l .swapFunctors, .callFunctor l (.count 9), .loop l .endFunctors,
    .loop l .destroyFunctors]

/-- Loop `l` is woken up for it. -/
def wokenUp (l : Nat) : List (LoopsAction Unit) :=
  [.loop l .testQuit, .poll l true [], .loop l .handleRead] ++ oneFunctor l

/-- A connection of the only sub-loop: established, sent to by another thread, closed by the peer. -/
def lifeOfConnection : List (LoopsAction Unit) :=
  [.start (.loop 0), .enterLoop 0, .loop 0 .resetQuit, .loop 0 .testQuit, .poll 0 false [.acceptor],
    .accept 0 7 false false, .loop 1 (.wakeup (.loop 0)), .enterLoop 1, .loop 1 .resetQuit] ++
  wokenUp 1 ++
  [.test (.other ()) ⟨0, 1⟩ (.send [1]), .push (.other ()), .loop 1 (.wakeup (.other ()))] ++
  wokenUp 1 ++
  [.loop 1 .testQuit, .poll 1 false [.conn ⟨0, 1⟩ EPOLLHUP], .handleEvent 1,
    .callback 1 (.data []) (.count 0), .resume 1, .loop 0 (.wakeup (.loop 1)), .endEvent 1,
    .loop 1 .beginFunctors, .loop 1 .swapFunctors, .loop 1 .endFunctors, .loop 1 .destroyFunctors] ++
  oneFunctor 0 ++ [.loop 1 (.wakeup (.loop 0))] ++ wokenUp 1

/-- The functions run in it, each with the loop it must run on. -/
def functionsOfLife : List (Fn × Option Nat) :=
  [(.newConnection, some 0), (.conn ⟨0, 1⟩ .connectEstablished, some 1),
    (.conn ⟨0, 1⟩ .updateChannel, some 1), (.conn ⟨0, 1⟩ .sendInLoop, some 1),
    (.conn ⟨0, 1⟩ .handleClose, some 1), (.conn ⟨0, 1⟩ .updateChannel, some 1),
    (.removeConnection ⟨0, 1⟩, none), (.removeConnectionInLoop ⟨0, 1⟩, some 0),
    (.conn ⟨0, 1⟩ .connectDestroyed, some 1), (.conn ⟨0, 1⟩ .removeChannel, some 1)]

/-- The connection's functions stay on loop 1, the server's on loop 0. -/
theorem thread_confinement_life :
    ∃ s, run step (init 1 3) lifeOfConnection = some s ∧
      (∀ e ∈ s.trace, ∀ l, e.fn.home = some l → e.thread = .loop l) ∧
      s.trace.map (fun e => (e.fn, e.fn.home)) = functionsOfLife := by
  refine exists_run_eq (fun s => s.trace.map fun e => (e.fn, e.fn.home)) functionsOfLife
    (by decide +kernel) ?_
  intro s hrun htrace
  exact ⟨thread_confinement 1 3 lifeOfConnection s hrun, htrace⟩

end ServerLoops
end Muduo
