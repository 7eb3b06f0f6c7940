import Muduo.Confinement
import Muduo.ConnectionDown

/-!
# The destroyed server

`closeCallback_` of a connection binds the server, and `removeConnection` passes the server on to the
base loop.  `~TcpServer` sends `connectDestroyed` to every connection of the map and joins the pool; it
neither clears the callbacks nor looks at the functors of the base loop.  So what runs after it
depends on what it leaves behind on the base loop:

    after ~TcpServer neither removeConnection nor removeConnectionInLoop runs, if
        no removeConnectionInLoop is queued on the base loop, no handleClose is under way there,
        and no connection of that loop can close any more                        (server_stays_down)

* `Inert`: a connection in state `kDisconnected` that nothing on the loop can make close again.
* `Drained`: the condition on the state in which `~TcpServer` ends.
-/

namespace Muduo

open Transition

/-- A function of the server that only its connections' `closeCallback_` leads to. -/
def Fn.removes : Fn → Bool
  | .removeConnection _ | .removeConnectionInLoop _ => true
  | _ => false

def LoopsFunctor.removes : LoopsFunctor → Bool
  | .removeConnectionInLoop _ => true
  | _ => false

def Frame.closes : Frame → Bool
  | .closeCallback _ => true
  | _ => false

/-- The thread is about to store `kDisconnecting`. -/
def CallPc.willStore : CallPc → Bool
  | .storing _ => true
  | _ => false

namespace ServerLoops

variable {T : Type*}

/-! ## The condition -/

/-- A connection of the base loop that cannot close any more: it is down, no other thread is about to
store `kDisconnecting`, and no event that may close it is under way or can be reported. -/
structure Inert (s : ServerLoops T) (p : ConnPtr) : Prop where
  stat : (s.conns p).stat = .kDisconnected
  calls : ∀ call ∈ s.calls, call.2.1 = p → call.2.2.willStore = false
  unwatched : ∀ event ∈ (s.pollers 0).interest (s.conns p).channel.fd, event.ptr ≠ p.addr
  active : ∀ revents, .conn p revents ∈ s.active 0 →
    ∀ cb ∈ eventCallbacks revents, cb.mayClose = false
  dispatch : ∀ d ∈ s.dispatch 0, d.1 = p → ∀ cb ∈ d.2, EventCallback.mayClose cb = false

/-- Nothing on the base loop leads back to the server. -/
structure Drained (s : ServerLoops T) : Prop where
  queue : ∀ f ∈ (s.loops 0).queue, f.removes = false
  frames : ∀ f ∈ s.frames (.loop 0), f.closes = false
  inert : ∀ id < s.created, s.alive ⟨id, 0⟩ = true → Inert s ⟨id, 0⟩

/-- The condition on a step: `~TcpServer` ends in a state that is drained. -/
def EndsDrained (s : ServerLoops T) : LoopsAction T → Prop
  | .finish => Drained s
  | _ => True

/-- No function of the server has run after its end. -/
def StaysDown (s : ServerLoops T) : Prop :=
  ∀ e ∈ s.trace, e.fn.removes = true → e.phase ≠ .destroyed

/-! ## The invariant -/

/-- What may be queued on the base loop: `connectEstablished` is called at once there, and
`forceCloseInLoop` keeps its connection alive. -/
def Queueable (s : ServerLoops T) : LoopsFunctor → Prop
  | .conn _ .connectEstablished => False
  | .conn p .forceCloseInLoop => s.alive p = true
  | _ => True

structure Down (s : ServerLoops T) : Prop where
  trace : StaysDown s
  silent : ∀ p, (s.conns p).Silent
  made : ∀ p, s.alive p = true → p.id < s.created
  queue : ∀ f ∈ (s.loops 0).queue, Queueable s f
  calls : ∀ call ∈ s.calls, s.alive call.2.1 = true
  dispatch : ∀ d ∈ s.dispatch 0, s.alive d.1 = true
  ended : s.phase = .destroyed → ∀ l, s.live l = true → l = 0
  drained : s.phase = .destroyed → Drained s

theorem down_init (numThreads fd : Nat) : Down (init numThreads fd : ServerLoops T) where
  trace := by simp [StaysDown, init]
  silent _ := TcpConnection.silent_of_ne (by simp [init, TcpConnection.new])
  made := by simp [init]
  queue := by simp [init, EventLoop.queue, EventLoop.new]
  calls := by simp [init]
  dispatch := by simp [init]
  ended h := nomatch h
  drained h := nomatch h

variable {s s' : ServerLoops T} {th : Thread T} {p : ConnPtr} {l : Nat}

/-! ## What the condition looks at -/

theorem Inert.of_eq (h : Inert s p) (hconns : s'.conns p = s.conns p) (hcalls : s'.calls = s.calls)
    (hpollers : s'.pollers 0 = s.pollers 0) (hactive : s'.active 0 = s.active 0)
    (hdispatch : s'.dispatch 0 = s.dispatch 0) : Inert s' p := by
  constructor
  · rw [hconns]
    exact h.stat
  · rw [hcalls]
    exact h.calls
  · rw [hpollers, hconns]
    exact h.unwatched
  · rw [hactive]
    exact h.active
  · rw [hdispatch]
    exact h.dispatch

theorem Drained.mono (h : Drained s)
    (hqueue : ∀ f ∈ (s'.loops 0).queue, f ∈ (s.loops 0).queue ∨ f.removes = false)
    (hframes : ∀ f ∈ s'.frames (.loop 0), f ∈ s.frames (.loop 0) ∨ f.closes = false)
    (hcreated : s'.created = s.created)
    (hinert : ∀ q, q.loop = 0 → s'.alive q = true → s.alive q = true ∧ (Inert s q → Inert s' q)) :
    Drained s' := by
  constructor
  · intro f hf
    rcases hqueue f hf with hold | hnew
    · exact h.queue f hold
    · exact hnew
  · intro f hf
    rcases hframes f hf with hold | hnew
    · exact h.frames f hold
    · exact hnew
  · intro id hid halive
    obtain ⟨hold, hkeep⟩ := hinert ⟨id, 0⟩ rfl halive
    exact hkeep (h.inert id (hcreated ▸ hid) hold)

theorem Down.inert (h : Down s) (hphase : s.phase = .destroyed) (hp : p.loop = 0)
    (halive : s.alive p = true) : Inert s p := by
  obtain ⟨id, loop⟩ := p
  obtain rfl : loop = 0 := hp
  exact (h.drained hphase).inert id (h.made _ halive) halive

namespace Down

/-- Fields that the invariant does not look at. -/
theorem of_eq (h : Down s) (htrace : s'.trace = s.trace) (hphase : s'.phase = s.phase)
    (hnum : s'.numThreads = s.numThreads) (hloops : s'.loops = s.loops)
    (hentered : s'.entered = s.entered) (hpollers : s'.pollers = s.pollers)
    (hcreated : s'.created = s.created) (hconns : s'.conns = s.conns) (halive : s'.alive = s.alive)
    (hactive : s'.active = s.active) (hdispatch : s'.dispatch = s.dispatch)
    (hframes : s'.frames = s.frames) (hcalls : s'.calls = s.calls) : Down s' := by
  have hqueueable : ∀ f, Queueable s f → Queueable s' f := by
    intro f hf
    unfold Queueable at hf ⊢
    rw [halive]
    exact hf
  constructor
  · unfold StaysDown
    rw [htrace]
    exact h.trace
  · rw [hconns]
    exact h.silent
  · rw [halive, hcreated]
    exact h.made
  · rw [hloops]
    exact fun f hf => hqueueable f (h.queue f hf)
  · rw [hcalls, halive]
    exact h.calls
  · rw [hdispatch, halive]
    exact h.dispatch
  · unfold live
    rw [hphase, hnum, hentered, hloops]
    exact h.ended
  · intro hdown
    rw [hphase] at hdown
    refine (h.drained hdown).mono ?_ ?_ hcreated ?_
    · rw [hloops]
      exact fun f hf => Or.inl hf
    · rw [hframes]
      exact fun f hf => Or.inl hf
    · intro q _ hq
      rw [halive] at hq
      refine ⟨hq, fun hi => hi.of_eq ?_ hcalls ?_ ?_ ?_⟩
      · rw [hconns]
      · rw [hpollers]
      · rw [hactive]
      · rw [hdispatch]

theorem record (h : Down s) {fns : List Fn}
    (hfns : s.phase = .destroyed → ∀ fn ∈ fns, fn.removes = false) : Down (s.record th fns) := by
  refine { h with trace := ?_, drained := ?_ }
  · intro e he hremoves
    rcases List.mem_append.mp he with hold | hnew
    · exact h.trace e hold hremoves
    · obtain ⟨fn, hfn, rfl⟩ := List.mem_map.mp hnew
      intro hphase
      have hnot := hfns hphase fn hfn
      rw [show fn.removes = true from hremoves] at hnot
      cases hnot
  · intro hphase
    refine (h.drained hphase).mono (fun f hf => Or.inl hf) (fun f hf => Or.inl hf) rfl ?_
    exact fun q _ hq => ⟨hq, fun hi => hi.of_eq rfl rfl rfl rfl rfl⟩

/-- The functions of a connection do not remove it from the server. -/
theorem record_conn (h : Down s) (fns : List ConnFn) : Down (s.record th (fns.map (.conn p))) := by
  apply h.record
  intro _ fn hfn
  obtain ⟨f, -, rfl⟩ := List.mem_map.mp hfn
  rfl

variable [DecidableEq T]

/-- Another stack. -/
theorem withFrames (h : Down s) {fs : List Frame}
    (hfs : s.phase = .destroyed → l = 0 → ∀ f ∈ fs, f ∈ s.frames (.loop l) ∨ f.closes = false) :
    Down { s with frames := Function.update s.frames (.loop l) fs } := by
  refine { h with drained := ?_ }
  intro hphase
  refine (h.drained hphase).mono (fun f hf => Or.inl hf) ?_ rfl
    fun q _ hq => ⟨hq, fun hi => hi.of_eq rfl rfl rfl rfl rfl⟩
  intro f' hf'
  by_cases hl : l = 0
  · subst hl
    simp only [Function.update_self] at hf'
    exact hfs hphase rfl f' hf'
  · have hne : (.loop 0 : Thread T) ≠ .loop l := by
      intro he
      cases he
      exact hl rfl
    simp only [Function.update_of_ne hne] at hf'
    exact Or.inl hf'

/-- The stack without its top. -/
theorem popFrame (h : Down s) {f : Frame} {fs : List Frame} (hframes : s.frames (.loop l) = f :: fs) :
    Down { s with frames := Function.update s.frames (.loop l) fs } :=
  h.withFrames fun _ _ _ hf' => Or.inl (hframes ▸ List.mem_cons_of_mem _ hf')

theorem pushFrame (h : Down s) {f : Frame}
    (hf : s.phase = .destroyed → l = 0 → f.closes = false) : Down (s.pushFrame (.loop l) f) := by
  apply h.withFrames
  intro hphase hl
  rw [List.forall_mem_cons]
  exact ⟨Or.inr (hf hphase hl), fun _ => Or.inl⟩

omit [DecidableEq T] in
/-- The connection changes, and with it only its own entries in its own poller.  After the end of the
server one of the base loop stays down and unwatched. -/
theorem setConn (h : Down s) {c : TcpConnection} (hsilent : c.Silent)
    (hfd : c.channel.fd = (s.conns p).channel.fd)
    (hadds : (s.pollers p.loop).OnlyAdds p.addr c.poller)
    (hdown : s.phase = .destroyed → p.loop = 0 → s.alive p = true → c.stat = .kDisconnected ∧
      ∀ event ∈ c.poller.interest c.channel.fd, event.ptr ≠ p.addr) : Down (s.setConn p c) := by
  refine { h with silent := ?_, drained := ?_ }
  · exact (Function.forall_update_iff s.conns fun _ c => c.Silent).mpr
      ⟨hsilent, fun q _ => h.silent q⟩
  · intro hphase
    refine (h.drained hphase).mono (fun f hf => Or.inl hf) (fun f hf => Or.inl hf) rfl ?_
    intro q hloop hq
    refine ⟨hq, fun hi => { hi with stat := ?_, unwatched := ?_ }⟩
    · by_cases hqp : q = p
      · subst hqp
        simp only [ServerLoops.setConn, Function.update_self]
        exact (hdown hphase hloop hq).1
      · simp only [ServerLoops.setConn, Function.update_of_ne hqp]
        exact hi.stat
    · intro event hevent
      by_cases hqp : q = p
      · subst hqp
        simp only [ServerLoops.setConn, hloop, Function.update_self] at hevent
        exact (hdown hphase hloop hq).2 event hevent
      · simp only [ServerLoops.setConn, Function.update_of_ne hqp] at hevent
        by_cases hp : p.loop = 0
        · rw [hp, Function.update_self] at hevent
          rcases hadds _ event hevent with hold | hown
          · rw [hp] at hold
            exact hi.unwatched event hold
          · rw [hown]
            exact fun haddr => hqp (ConnPtr.addr_injective haddr).symm
        · rw [Function.update_of_ne fun he => hp he.symm] at hevent
          exact hi.unwatched event hevent

/-- A step of one loop. -/
theorem loopStep (h : Down s) (hconsistent : (s.loops l).Consistent)
    {a : LoopAction (Thread T) LoopsFunctor} {loop : EventLoop (Thread T) LoopsFunctor}
    (hstep : (s.loops l).step a = some loop)
    (hlive : s.live l = true ∨ loop.pc = (s.loops l).pc)
    (hpush : l = 0 → ∀ f ∈ a.push, Queueable s f ∧ (s.phase = .destroyed → f.removes = false)) :
    Down { s with loops := Function.update s.loops l loop } := by
  refine { h with queue := ?_, ended := ?_, drained := ?_ }
  · intro f hf
    by_cases hl : l = 0
    · subst hl
      simp only [Function.update_self] at hf
      rcases EventLoop.mem_queue_of_step hconsistent hstep hf with hold | hnew
      · exact h.queue f hold
      · exact (hpush rfl f hnew).1
    · simp only [Function.update_of_ne fun he => hl he.symm] at hf
      exact h.queue f hf
  · intro hphase l' hl'
    by_cases hl : l' = l
    · subst hl
      rcases hlive with hlive | hpc
      · exact h.ended hphase l' hlive
      · apply h.ended hphase l'
        unfold live at hl' ⊢
        simp only [Function.update_self] at hl'
        rw [← hpc]
        exact hl'
    · apply h.ended hphase l'
      unfold live at hl' ⊢
      simp only [Function.update_of_ne hl] at hl'
      exact hl'
  · intro hphase
    refine (h.drained hphase).mono ?_ (fun f hf => Or.inl hf) rfl
      fun q _ hq => ⟨hq, fun hi => hi.of_eq rfl rfl rfl rfl rfl⟩
    intro f hf
    by_cases hl : l = 0
    · subst hl
      simp only [Function.update_self] at hf
      rcases EventLoop.mem_queue_of_step hconsistent hstep hf with hold | hnew
      · exact Or.inl hold
      · exact Or.inr ((hpush rfl f hnew).2 hphase)
    · simp only [Function.update_of_ne fun he => hl he.symm] at hf
      exact Or.inl hf

theorem queueInLoop (h : Down s) (hconsistent : (s.loops l).Consistent) {f : LoopsFunctor}
    (hf : l = 0 → Queueable s f ∧ (s.phase = .destroyed → f.removes = false))
    (hq : s.queueInLoop th l f = some s') : Down s' := by
  obtain ⟨a, loop, hstep, hpush, hpc, rfl⟩ := step_of_queueInLoop hq
  refine h.loopStep hconsistent hstep (Or.inr hpc) ?_
  rw [hpush]
  intro hl
  rw [List.forall_mem_singleton]
  exact hf hl

end Down

/-! ## The functions of a connection -/

/-- `remove` only takes entries out of the interest list. -/
theorem remove_interest {ch ch' : Channel} {poller poller' : EPollPoller}
    (h : ch.remove poller = some (poller', ch')) :
    ∀ fd event, poller'.interest fd = some event → poller.interest fd = some event := by
  intro fd event hevent
  unfold Channel.remove EPollPoller.removeChannel at h
  dsimp only at h
  split at h
  · obtain ⟨poller₁, hdel, heq⟩ := Option.bind_eq_some_iff.mp h
    cases heq
    unfold EPollPoller.update epollCtl at hdel
    cases hi : poller.interest ch.fd with
    | none =>
      simp only [hi, if_true, Option.some.injEq] at hdel
      rw [← hdel] at hevent
      exact hevent
    | some old =>
      simp only [hi, Option.some.injEq] at hdel
      rw [← hdel] at hevent
      by_cases hfd : fd = ch.fd
      · subst hfd
        simp only [Function.update_self] at hevent
        cases hevent
      · simp only [Function.update_of_ne hfd] at hevent
        exact hevent
  · cases h
    exact hevent

variable [DecidableEq T]

theorem mem_calls {call : ConnPtr × CallPc} (hcall : s.calls.lookup th = some call) :
    (th, call) ∈ s.calls := by
  obtain ⟨l₁, l₂, heq, -⟩ := List.lookup_eq_some_iff.mp hcall
  rw [heq]
  exact List.mem_append_right _ List.mem_cons_self

theorem queueInLoop_keeps {f : LoopsFunctor} (h : s.queueInLoop th l f = some s') :
    s'.phase = s.phase ∧ s'.alive = s.alive := by
  obtain ⟨a, loop, -, -, -, rfl⟩ := step_of_queueInLoop h
  exact ⟨rfl, rfl⟩

namespace Down

theorem effect (hc : Confined s) (h : Down s) {e : Effect}
    (htame : e.isTame = true ∨ e = .closeCallback ∧ (s.phase = .destroyed → p.loop ≠ 0) ∨
      e = .queueInLoop .forceCloseInLoop ∧ s.alive p = true)
    (he : s.effect (.loop p.loop) p e = some s') :
    Down s' ∧ s'.phase = s.phase ∧ s'.alive = s.alive := by
  cases e with
  | queueInLoop f =>
    refine ⟨h.queueInLoop (hc.consistent p.loop) ?_ he, queueInLoop_keeps he⟩
    intro _
    refine ⟨?_, fun _ => rfl⟩
    rcases htame with htame | ⟨hne, -⟩ | ⟨heq, halive⟩
    · cases f with
      | writeComplete | highWaterMark => trivial
      | connectEstablished | connectDestroyed | sendInLoop | shutdownInLoop | forceCloseInLoop =>
        cases htame
    · cases hne
    · cases heq
      exact halive
  | closeCallback =>
    cases he
    rcases htame with htame | ⟨-, hloop⟩ | ⟨hne, -⟩
    · cases htame
    · exact ⟨h.pushFrame fun hphase hl => absurd hl (hloop hphase), rfl, rfl⟩
    · cases hne
  | write | shutdownWrite | connectionCallback | messageCallback =>
    cases he
    exact ⟨h, rfl, rfl⟩

/-- **A function of a connection.**  After the end of the server, on the base loop, it must be one that
does nothing to a connection that is down, and if it may close one, the connection must be alive. -/
theorem callConn (hc : Confined s) (h : Down s) {call : ConnCall}
    (hafter : s.phase = .destroyed → p.loop = 0 →
      (s.alive p = true → ConnCall.isIdle call = true) ∧ (call.mayClose = true → s.alive p = true))
    (hforce : ∀ w, call = .user .forceClose w → s.alive p = true)
    (hs : s.callConn (.loop p.loop) p call = some s') : Down s' := by
  obtain ⟨⟨c', es⟩, hexec, hfold⟩ := Option.bind_eq_some_iff.mp hs
  have hcalls := TcpConnection.exec_pollerCalls hexec
  obtain ⟨hadds, -, hfd⟩ := hcalls.onlyAdds
  rw [show (s.connOf p).channel.addr = p.addr from hc.conns p] at hadds
  have hsilent : (s.connOf p).Silent := h.silent p
  -- after the end an idle call finds the connection down, and leaves it as it is
  have hinert : s.phase = .destroyed → p.loop = 0 → s.alive p = true →
      c' = s.connOf p ∧ ∀ e ∈ es, e = .shutdownWrite := by
    intro hphase hp halive
    have hstat : (s.connOf p).stat = .kDisconnected := (h.inert hphase hp halive).stat
    exact TcpConnection.exec_down hstat hsilent ((hafter hphase hp).1 halive) hexec
  have hset : Down (s.setConn p c') := by
    refine h.setConn (TcpConnection.exec_silent hsilent hexec) hfd hadds ?_
    intro hphase hp halive
    obtain ⟨rfl, -⟩ := hinert hphase hp halive
    have hi := h.inert hphase hp halive
    refine ⟨hi.stat, ?_⟩
    rw [connOf, hp]
    exact hi.unwatched
  have hrecord : Down ((s.setConn p c').record (.loop p.loop)
      (((s.connOf p).entered call ++ ((s.connOf p).pollerCalls call).map ChannelCall.fn).map
        (.conn p))) := hset.record_conn _
  have hconfined := (hc.setConn_of_accounts hcalls).record_conn (p := p)
    ((s.connOf p).entered call ++ ((s.connOf p).pollerCalls call).map ChannelCall.fn)
  have hfold' := foldlM_inv
    (P := fun s₁ => Confined s₁ ∧ Down s₁ ∧ s₁.phase = s.phase ∧ s₁.alive = s.alive)
    ?_ ⟨hconfined, hrecord, rfl, rfl⟩ hfold
  · exact hfold'.2.1
  rintro e he s₁ s₂ ⟨hc₁, h₁, hphase₁, halive₁⟩ hs₁
  have htame : e.isTame = true ∨ e = .closeCallback ∧ (s₁.phase = .destroyed → p.loop ≠ 0) ∨
      e = .queueInLoop .forceCloseInLoop ∧ s₁.alive p = true := by
    rw [hphase₁, halive₁]
    rcases TcpConnection.exec_accountable hexec e he with htame | ⟨rfl, hclose⟩ | ⟨rfl, w, hcall⟩
    · exact Or.inl htame
    · refine Or.inr (Or.inl ⟨rfl, fun hphase hp => ?_⟩)
      have halive := (hafter hphase hp).2 hclose
      cases (hinert hphase hp halive).2 _ he
    · exact Or.inr (Or.inr ⟨rfl, hforce w hcall⟩)
  obtain ⟨h₂, hphase₂, halive₂⟩ := h₁.effect hc₁ htame hs₁
  exact ⟨hc₁.effect hs₁, h₂, hphase₂.trans hphase₁, halive₂.trans halive₁⟩

omit [DecidableEq T] in
theorem removeChannel (hc : Confined s) (h : Down s)
    (hs : s.removeChannel (.loop p.loop) p = some s') : Down s' := by
  obtain ⟨c, hremove, rfl⟩ := Option.map_eq_some_iff.mp hs
  have hcalls : TcpConnection.Accounts (s.connOf p) [.remove] c :=
    TcpConnection.accounts_withChannel hremove
  obtain ⟨hadds, -, hfd⟩ := hcalls.onlyAdds
  rw [show (s.connOf p).channel.addr = p.addr from hc.conns p] at hadds
  have hsilent : (s.connOf p).Silent := h.silent p
  have hset : Down (s.setConn p c) := by
    refine h.setConn (TcpConnection.silent_remove hsilent hremove) hfd hadds ?_
    intro hphase hp halive
    have hi := h.inert hphase hp halive
    obtain ⟨-, hstat⟩ := TcpConnection.withChannel_channel (k := .remove) hremove
    refine ⟨hstat.trans hi.stat, ?_⟩
    intro event hevent
    obtain ⟨poller, channel, hcall, rfl⟩ := TcpConnection.withChannel_eq_some.mp hremove
    apply hi.unwatched event
    have hfd' : channel.fd = (s.conns p).channel.fd := hfd
    have hold := remove_interest hcall _ event hevent
    rw [connOf, hp] at hold
    rw [← hfd']
    exact hold
  exact hset.record_conn [.removeChannel]

theorem connectDestroyed (hc : Confined s) (h : Down s)
    (hs : s.connectDestroyed (.loop p.loop) p = some s') : Down s' := by
  obtain ⟨⟨c', es⟩, hdown, hs⟩ := Option.bind_eq_some_iff.mp hs
  have hcalls := TcpConnection.downIfConnected_calls hdown
  obtain ⟨hadds, -, hfd⟩ := hcalls.onlyAdds
  rw [show (s.connOf p).channel.addr = p.addr from hc.conns p] at hadds
  have hsilent : (s.connOf p).Silent := h.silent p
  have hset : Down (s.setConn p c') := by
    refine h.setConn (TcpConnection.silent_downIfConnected hsilent hdown) hfd hadds ?_
    intro hphase hp halive
    have hi := h.inert hphase hp halive
    have hstat : (s.connOf p).stat ≠ .kConnected := by
      rw [show (s.connOf p).stat = .kDisconnected from hi.stat]
      decide
    simp only [TcpConnection.downIfConnected, if_neg hstat, Option.some.injEq, Prod.mk.injEq] at hdown
    rw [← hdown.1]
    refine ⟨hi.stat, ?_⟩
    rw [connOf, hp]
    exact hi.unwatched
  have hrecord : Down ((s.setConn p c').record (.loop p.loop)
      ((.connectDestroyed :: (s.connOf p).downCalls.map ChannelCall.fn).map (.conn p))) :=
    hset.record_conn _
  have hconfined := (hc.setConn_of_accounts hcalls).record_conn (p := p)
    (.connectDestroyed :: (s.connOf p).downCalls.map ChannelCall.fn)
  dsimp only at hs
  split at hs
  · exact hrecord.removeChannel hconfined hs
  · cases hs
    exact hrecord.pushFrame fun _ _ => rfl

/-! ## The functions of the server -/

theorem removeConnectionInLoop (hc : Confined s) (h : Down s) (hphase : s.phase ≠ .destroyed)
    (hs : s.removeConnectionInLoop th p = some s') : Down s' := by
  have hrecord : Down (s.record th [.removeConnectionInLoop p]) :=
    h.record fun hdown => absurd hdown hphase
  have herase : Down { s.record th [.removeConnectionInLoop p] with
      connections := s.connections.erase p } :=
    hrecord.of_eq rfl rfl rfl rfl rfl rfl rfl rfl rfl rfl rfl rfl rfl
  have hloops : (s.loops p.loop).Consistent := hc.consistent p.loop
  refine herase.queueInLoop hloops ?_ hs
  exact fun _ => ⟨trivial, fun _ => rfl⟩

omit [DecidableEq T] in
theorem listen (h : Down s) (hs : s.listen = some s') : Down s' := by
  unfold ServerLoops.listen at hs
  split at hs
  · next halive =>
    obtain ⟨⟨poller, ch⟩, -, rfl⟩ := Option.map_eq_some_iff.mp hs
    refine { h with drained := ?_ }
    intro hphase
    rw [show s.phase = .destroyed from hphase] at halive
    cases halive
  · cases hs
    exact h

/-- **A functor** run on the thread of its own loop. -/
theorem runFunctor (hc : Confined s) (h : Down s) {f : LoopsFunctor} {w : WriteResult}
    (hhome : ∀ h, f.home = some h → h = l) (hqueue : l = 0 → Queueable s f)
    (hremoves : s.phase = .destroyed → f.removes = false)
    (hs : s.runFunctor (.loop l) f w = some s') : Down s' := by
  cases f with
  | conn p f =>
    obtain rfl : p.loop = l := hhome p.loop rfl
    by_cases hdestroyed : f = .connectDestroyed
    · subst hdestroyed
      exact h.connectDestroyed hc hs
    · rw [runFunctor_conn hdestroyed] at hs
      refine h.callConn hc ?_ (by simp) hs
      intro _ hp
      have hqueueable := hqueue hp
      cases f with
      | connectEstablished => exact absurd hqueueable id
      | connectDestroyed => exact absurd rfl hdestroyed
      | forceCloseInLoop => exact ⟨fun _ => rfl, fun _ => hqueueable⟩
      | sendInLoop | shutdownInLoop | writeComplete | highWaterMark =>
        exact ⟨fun _ => rfl, by simp [ConnCall.mayClose]⟩
  | removeConnectionInLoop p =>
    refine h.removeConnectionInLoop hc ?_ hs
    intro hphase
    cases hremoves hphase
  | listen => exact h.listen hs
  | addTimerInLoop l' =>
    cases hs
    apply h.record
    intro _ fn hfn
    rw [List.mem_singleton] at hfn
    subst hfn
    rfl
  | user =>
    cases hs
    exact h

theorem runInLoop (hc : Confined s) (h : Down s) {f : LoopsFunctor}
    (hhome : ∀ h, f.home = some h → h = l) (hqueue : l = 0 → Queueable s f)
    (hremoves : s.phase = .destroyed → f.removes = false) (hs : s.runInLoop th l f = some s') :
    Down s' := by
  unfold ServerLoops.runInLoop at hs
  split at hs
  · next hth =>
    subst hth
    exact h.runFunctor hc hhome hqueue hremoves hs
  · exact h.queueInLoop (hc.consistent l) (fun hl => ⟨hqueue hl, hremoves⟩) hs

theorem removeConnection (hc : Confined s) (h : Down s) (hphase : s.phase ≠ .destroyed)
    (hs : s.removeConnection th p = some s') : Down s' := by
  have hrecord : Down (s.record th [.removeConnection p]) :=
    h.record fun hdown => absurd hdown hphase
  have hconfined : Confined (s.record th [.removeConnection p]) := by
    apply hc.record_one
    rintro l ⟨⟩
  refine hrecord.runInLoop hconfined ?_ ?_ (fun hdown => absurd hdown hphase) hs
  · intro l hl
    cases hl
    rfl
  · exact fun _ => trivial

/-- Until the server ends a new connection is alive and not yet down; on the base loop
`connectEstablished` is called at once. -/
theorem newConnection (hc : Confined s) (h : Down s) (hphase : s.phase ≠ .destroyed) {sockfd : Nat}
    {wc hw : Bool} (hs : s.newConnection (.loop 0) sockfd wc hw = some s') : Down s' := by
  unfold ServerLoops.newConnection at hs
  generalize s.getNextLoop = r at hs
  obtain ⟨ioLoop, next⟩ := r
  dsimp only at hs
  have hmono : ∀ q, s.alive q = true →
      Function.update s.alive ⟨s.created, ioLoop⟩ true q = true := by
    intro q hq
    by_cases hqp : q = ⟨s.created, ioLoop⟩
    · rw [hqp, Function.update_self]
    · rw [Function.update_of_ne hqp]
      exact hq
  have hrecord : Down (s.record (.loop 0) [.newConnection]) :=
    h.record fun hdown => absurd hdown hphase
  have hmade : Down { s.record (.loop 0) [.newConnection] with
      next
      created := s.created + 1
      conns := Function.update s.conns ⟨s.created, ioLoop⟩ (TcpConnection.new (s.pollers ioLoop)
        (ConnPtr.addr ⟨s.created, ioLoop⟩) sockfd wc hw)
      alive := Function.update s.alive ⟨s.created, ioLoop⟩ true
      connections := s.connections ++ [⟨s.created, ioLoop⟩] } := by
    refine { hrecord with
      silent := ?_
      made := ?_
      queue := ?_
      calls := ?_
      dispatch := ?_
      drained := fun hdown => absurd hdown hphase }
    · intro q
      by_cases hq : q = ⟨s.created, ioLoop⟩
      · simp only [hq, Function.update_self]
        exact TcpConnection.silent_of_ne (by simp [TcpConnection.new])
      · simp only [Function.update_of_ne hq]
        exact h.silent q
    · intro q hq
      by_cases hqp : q = ⟨s.created, ioLoop⟩
      · rw [hqp]
        exact Nat.lt_succ_self _
      · simp only [Function.update_of_ne hqp] at hq
        exact Nat.lt_succ_of_lt (h.made q hq)
    · intro f hf
      have hold := h.queue f hf
      unfold Queueable at hold ⊢
      split at hold
      · exact hold
      · exact hmono _ hold
      · trivial
    · exact fun call hcall => hmono _ (h.calls call hcall)
    · exact fun d hd => hmono _ (h.dispatch d hd)
  have hconfined : Confined { s.record (.loop 0) [.newConnection] with
      next
      created := s.created + 1
      conns := Function.update s.conns ⟨s.created, ioLoop⟩ (TcpConnection.new (s.pollers ioLoop)
        (ConnPtr.addr ⟨s.created, ioLoop⟩) sockfd wc hw)
      alive := Function.update s.alive ⟨s.created, ioLoop⟩ true
      connections := s.connections ++ [⟨s.created, ioLoop⟩] } := hc.made sockfd wc hw next
  unfold ServerLoops.runInLoop at hs
  split at hs
  · next hth =>
    cases hth
    exact hmade.callConn (p := ⟨s.created, 0⟩) hconfined (fun hdown => absurd hdown hphase)
      (by simp) hs
  · next hth =>
    refine hmade.queueInLoop (hc.consistent ioLoop) ?_ hs
    intro hl
    exact absurd (congrArg Thread.loop hl).symm hth

theorem resume (hc : Confined s) (h : Down s) (hlive : s.live l = true)
    (hs : s.resume (.loop l) = some s') : Down s' := by
  unfold ServerLoops.resume at hs
  split at hs
  · cases hs
  · cases hs
  · next p fs hframes =>
    -- a `handleClose` under way when the server ends would come back to it here
    have hphase : s.phase ≠ .destroyed := by
      intro hphase
      obtain rfl : l = 0 := h.ended hphase l hlive
      cases (h.drained hphase).frames (.closeCallback p) (hframes ▸ List.mem_cons_self)
    exact (h.popFrame hframes).removeConnection (hc.popFrame hframes) hphase hs
  · next p fs hframes =>
    have hown : Frame.home (.removeChannel p) = l := hc.frames l _ (hframes ▸ List.mem_cons_self)
    obtain rfl : p.loop = l := hown
    exact (h.popFrame hframes).removeChannel (hc.popFrame hframes) hs
  · next fs hframes =>
    split at hs
    · cases hs
      apply h.withFrames
      intro _ _ f hf
      rcases List.mem_cons.mp hf with rfl | hf
      · exact Or.inr rfl
      · exact Or.inl (hframes ▸ List.mem_cons_of_mem _ hf)
    · next p connections hconnections =>
      have hrest : Down { s with connections } :=
        h.of_eq rfl rfl rfl rfl rfl rfl rfl rfl rfl rfl rfl rfl rfl
      have hconfined : Confined { s with connections } := hc.of_eq rfl rfl rfl rfl rfl rfl rfl rfl
      refine hrest.runInLoop hconfined ?_ ?_ (fun _ => rfl) hs
      · intro l' hl'
        cases hl'
        rfl
      · exact fun _ => trivial

/-- **The end of `~TcpServer`**, in a drained state. -/
theorem finish (hc : Confined s) (h : Down s) (hdrained : Drained s) (hs : s.finish = some s') :
    Down s' := by
  unfold ServerLoops.finish at hs
  split at hs
  · next fs hframes =>
    split at hs
    · next hended =>
      obtain ⟨⟨poller, ch⟩, hdisable, hs⟩ := Option.bind_eq_some_iff.mp hs
      obtain ⟨⟨poller', ch'⟩, hremove, rfl⟩ := Option.map_eq_some_iff.mp hs
      have hcall : ChannelCall.disableAll.call s.acceptChannel (s.pollers 0) = some (poller, ch) :=
        hdisable
      obtain ⟨hadds, -⟩ := call_onlyAdds hcall
      refine { h with ended := ?_, drained := ?_ }
      · intro _ l hlive
        by_contra hl
        simp only [live, Bool.and_eq_true, decide_eq_true_eq] at hlive
        simp only [List.all_eq_true, List.mem_range] at hended
        have hpred : l - 1 + 1 = l := by omega
        have hnot := hended (l - 1) (by omega)
        simp only [hpred, live, Bool.not_eq_true', Bool.and_eq_false_iff, decide_eq_false_iff_not]
          at hnot
        rcases hnot with hnot | hnot
        · exact hnot hlive.1
        · rw [hnot] at hlive
          cases hlive.2
      · intro _
        refine hdrained.mono (fun f hf => Or.inl hf) ?_ rfl ?_
        · intro f hf
          simp only [Function.update_self] at hf
          exact Or.inl (hframes ▸ List.mem_cons_of_mem _ hf)
        · intro q _ hq
          refine ⟨hq, fun hi => { hi with unwatched := ?_ }⟩
          intro event hevent
          simp only [Function.update_self] at hevent
          rcases hadds _ event (remove_interest hremove _ event hevent) with hold | hown
          · exact hi.unwatched event hold
          · rw [hown, hc.acceptor]
            exact (Nat.succ_ne_zero _).symm
    · cases hs
  · cases hs

/-! ## Polling and dispatching -/

omit [DecidableEq T] in
/-- The snapshot of one loop changes. -/
theorem withActive (h : Down s) {rs : List Ready}
    (hrs : l = 0 → ∀ q revents, .conn q revents ∈ rs → Inert s q →
      ∀ cb ∈ eventCallbacks revents, cb.mayClose = false) :
    Down { s with active := Function.update s.active l rs } := by
  refine { h with drained := ?_ }
  intro hphase
  refine (h.drained hphase).mono (fun f hf => Or.inl hf) (fun f hf => Or.inl hf) rfl ?_
  intro q _ hq
  refine ⟨hq, fun hi => { hi with active := ?_ }⟩
  intro revents hmem
  by_cases hl : l = 0
  · subst hl
    simp only [Function.update_self] at hmem
    exact hrs rfl q revents hmem hi
  · simp only [Function.update_of_ne fun he => hl he.symm] at hmem
    exact hi.active revents hmem

omit [DecidableEq T] in
/-- The snapshot without its first channel. -/
theorem withRest (h : Down s) {r : Ready} {rest : List Ready} (hactive : s.active l = r :: rest) :
    Down { s with active := Function.update s.active l rest } := by
  apply h.withActive
  intro hl q revents hmem hi
  subst hl
  exact hi.active revents (hactive ▸ List.mem_cons_of_mem _ hmem)

omit [DecidableEq T] in
theorem withDispatch (h : Down s) {d : Option (ConnPtr × List EventCallback)}
    (hd : l = 0 → ∀ d' ∈ d, s.alive d'.1 = true ∧
      (Inert s d'.1 → ∀ cb ∈ d'.2, EventCallback.mayClose cb = false)) :
    Down { s with dispatch := Function.update s.dispatch l d } := by
  refine { h with dispatch := ?_, drained := ?_ }
  · intro d' hd'
    by_cases hl : l = 0
    · subst hl
      simp only [Function.update_self] at hd'
      exact (hd rfl d' hd').1
    · simp only [Function.update_of_ne fun he => hl he.symm] at hd'
      exact h.dispatch d' hd'
  · intro hphase
    refine (h.drained hphase).mono (fun f hf => Or.inl hf) (fun f hf => Or.inl hf) rfl ?_
    intro q _ hq
    refine ⟨hq, fun hi => { hi with dispatch := ?_ }⟩
    intro d' hd' hqd
    by_cases hl : l = 0
    · subst hl
      simp only [Function.update_self] at hd'
      exact (hd rfl d' hd').2 (hqd ▸ hi)
    · simp only [Function.update_of_ne fun he => hl he.symm] at hd'
      exact hi.dispatch d' hd' hqd

/-! ## Calls of other threads -/

theorem setCall (h : Down s) {call : Option (ConnPtr × CallPc)}
    (hcall : ∀ c ∈ call, s.alive c.1 = true ∧
      (s.phase = .destroyed → c.1.loop = 0 → c.2.willStore = false)) : Down (s.setCall th call) := by
  have hmem : ∀ c ∈ (s.setCall th call).calls, (∃ c' ∈ call, c = (th, c')) ∨ c ∈ s.calls := by
    intro c hc
    rcases List.mem_append.mp hc with hnew | hold
    · rw [Option.mem_toList, Option.map_eq_some_iff] at hnew
      obtain ⟨c', hc', rfl⟩ := hnew
      exact Or.inl ⟨c', hc', rfl⟩
    · exact Or.inr (List.mem_of_mem_filter hold)
  refine { h with calls := ?_, drained := ?_ }
  · intro c hc
    rcases hmem c hc with ⟨c', hc', rfl⟩ | hold
    · exact (hcall c' hc').1
    · exact h.calls c hold
  · intro hphase
    refine (h.drained hphase).mono (fun f hf => Or.inl hf) (fun f hf => Or.inl hf) rfl ?_
    intro q hq halive
    refine ⟨halive, fun hi => { hi with calls := ?_ }⟩
    intro c hc hcq
    rcases hmem c hc with ⟨c', hc', rfl⟩ | hold
    · have hloop : c'.1.loop = 0 := by
        rw [show c'.1 = q from hcq]
        exact hq
      exact (hcall c' hc').2 hphase hloop
    · exact hi.calls c hold hcq

omit [DecidableEq T] in
/-- After the end of the server no thread stores the state of a connection of the base loop. -/
theorem withStat (h : Down s) (hp : s.phase = .destroyed → p.loop ≠ 0) :
    Down { s with conns := Function.update s.conns p ((s.conns p).setState .kDisconnecting) } := by
  refine { h with silent := ?_, drained := ?_ }
  · intro q
    by_cases hq : q = p
    · subst hq
      simp only [Function.update_self]
      exact TcpConnection.silent_of_ne (by simp [TcpConnection.setState])
    · simp only [Function.update_of_ne hq]
      exact h.silent q
  · intro hphase
    refine (h.drained hphase).mono (fun f hf => Or.inl hf) (fun f hf => Or.inl hf) rfl ?_
    intro q hq halive
    refine ⟨halive, fun hi => hi.of_eq ?_ rfl rfl rfl rfl⟩
    have hne : q ≠ p := by
      intro hqp
      exact hp hphase (hqp ▸ hq)
    exact Function.update_of_ne hne _ _

omit [DecidableEq T] in
/-- Giving up the last handle: nothing that the loop has queued keeps the connection. -/
theorem release (h : Down s) (howned : s.owned p = false) :
    Down { s with alive := Function.update s.alive p false } := by
  simp only [owned, Bool.or_eq_false_iff, List.any_eq_false, List.mem_range] at howned
  obtain ⟨⟨-, hcalls⟩, hloops⟩ := howned
  have hloop := hloops 0 (Nat.succ_pos _)
  simp only [Bool.not_eq_true, Bool.or_eq_false_iff, List.any_eq_false] at hloop
  obtain ⟨⟨hqueue, -⟩, hdispatch⟩ := hloop
  have hkeep : ∀ q, q ≠ p → s.alive q = true → Function.update s.alive p false q = true := by
    intro q hq halive
    rw [Function.update_of_ne hq]
    exact halive
  have hold : ∀ q, Function.update s.alive p false q = true → s.alive q = true := by
    intro q hq
    by_cases hqp : q = p
    · rw [hqp, Function.update_self] at hq
      cases hq
    · rw [Function.update_of_ne hqp] at hq
      exact hq
  refine { h with made := ?_, queue := ?_, calls := ?_, dispatch := ?_, drained := ?_ }
  · exact fun q hq => h.made q (hold q hq)
  · intro f hf
    have hqueueable := h.queue f hf
    have howns := hqueue f hf
    unfold Queueable at hqueueable ⊢
    split at hqueueable
    · exact hqueueable
    · next q =>
      apply hkeep q _ hqueueable
      intro hqp
      simp [LoopsFunctor.owns, ConnFunctor.owns, hqp] at howns
    · trivial
  · intro call hcall
    apply hkeep _ _ (h.calls call hcall)
    intro hp
    exact hcalls call hcall (beq_iff_eq.mpr hp)
  · intro d hd
    apply hkeep _ _ (h.dispatch d hd)
    intro hp
    rw [show s.dispatch 0 = some d from hd] at hdispatch
    rw [Option.any_some, hp, beq_self_eq_true] at hdispatch
    cases hdispatch
  · intro hphase
    refine (h.drained hphase).mono (fun f hf => Or.inl hf) (fun f hf => Or.inl hf) rfl ?_
    exact fun q _ hq => ⟨hold q hq, fun hi => hi.of_eq rfl rfl rfl rfl rfl⟩

end Down

/-! ## Runs -/

/-- **One step** keeps the server down. -/
theorem down_step (s : ServerLoops T) (a : LoopsAction T) (s' : ServerLoops T)
    (h : Confined s ∧ Down s) (hg : EndsDrained s a) (hs : s.step a = some s') :
    Confined s' ∧ Down s' := by
  obtain ⟨hc, h⟩ := h
  refine ⟨confined_step s a s' hc hs, ?_⟩
  cases moves_of_step hs with
  | @loop l _ _ hlive hmay hloop =>
    refine h.loopStep (hc.consistent l) hloop (Or.inl hlive) fun _ f hf => ?_
    rw [push_of_mayTake hmay f hf]
    exact ⟨trivial, fun _ => rfl⟩
  | @enterLoop l _ hlive hloop =>
    have hentered := h.loopStep (hc.consistent l) hloop (Or.inl hlive) (by simp [LoopAction.push])
    refine { hentered with ended := ?_, drained := ?_ }
    · intro hphase l' hl'
      by_cases hl : l' = l
      · subst hl
        exact h.ended hphase l' hlive
      · apply h.ended hphase l'
        unfold live at hl' ⊢
        simp only [Function.update_of_ne hl] at hl'
        exact hl'
    · intro hphase
      refine (hentered.drained hphase).mono (fun f hf => Or.inl hf) (fun f hf => Or.inl hf) rfl ?_
      exact fun q _ hq => ⟨hq, fun hi => hi.of_eq rfl rfl rfl rfl rfl⟩
  | @poll l _ ready _ hlive hready hloop =>
    have hactive : Down { s with active := Function.update s.active l ready } := by
      apply h.withActive
      intro hl q revents hmem hi
      -- an inert connection is not reported
      have hreports := hready _ hmem
      simp only [reports, hl] at hreports
      split at hreports
      · next event hevent => exact absurd (beq_iff_eq.mp hreports) (hi.unwatched event hevent)
      · cases hreports
    exact hactive.loopStep (hc.consistent l) hloop (Or.inl hlive) (by simp [LoopAction.push])
  | handled hactive => exact h.withRest hactive
  | @dispatched l p revents _ hactive halive =>
    have hdispatch : Down { s with
        dispatch := Function.update s.dispatch l (some (p, eventCallbacks revents)) } := by
      apply h.withDispatch
      rintro hl d ⟨⟩
      refine ⟨halive, fun hi => hi.active revents ?_⟩
      subst hl
      exact hactive ▸ List.mem_cons_self
    exact hdispatch.withRest hactive
  | @callback l _ _ p cb rest _ hdispatch hcall =>
    obtain rfl : p.loop = l := hc.dispatch l (p, cb :: rest) hdispatch
    have halive : p.loop = 0 → s.alive p = true := by
      intro hp
      rw [hp] at hdispatch
      exact h.dispatch _ hdispatch
    have hrest : Down { s with dispatch := Function.update s.dispatch p.loop (some (p, rest)) } := by
      apply h.withDispatch
      rintro hl d ⟨⟩
      refine ⟨halive hl, fun hi cb' hcb' => ?_⟩
      rw [hl] at hdispatch
      exact hi.dispatch _ hdispatch rfl cb' (List.mem_cons_of_mem _ hcb')
    have hconfined : Confined
        { s with dispatch := Function.update s.dispatch p.loop (some (p, rest)) } := by
      apply hc.withDispatch
      rintro d ⟨⟩
      rfl
    refine hrest.callConn hconfined ?_ (by simp) hcall
    intro hphase hp
    have hi := h.inert hphase hp (halive hp)
    rw [hp] at hdispatch
    have hcb := hi.dispatch _ hdispatch rfl cb List.mem_cons_self
    refine ⟨fun _ => ?_, fun _ => halive hp⟩
    simp only [ConnCall.isIdle, hcb]
    rfl
  | endEvent => exact h.withDispatch (by simp)
  | @accept l _ _ _ _ _ hactive hphase hnew =>
    obtain rfl : 0 = l := hc.active l _ (hactive ▸ List.mem_cons_self) 0 rfl
    refine (h.withRest hactive).newConnection (hc.withRest hactive) ?_ hnew
    intro hdown
    rw [show s.phase = .destroyed from hdown] at hphase
    cases hphase
  | timer hactive =>
    apply (h.withRest hactive).record
    intro _ fn hfn
    rw [List.mem_singleton] at hfn
    subst hfn
    rfl
  | @callFunctor l _ f _ _ _ hlive hfunctors hloop hrun =>
    obtain ⟨hconfined, hhome⟩ := hc.callFunctor hfunctors hloop
    have htaken := h.loopStep (hc.consistent l) hloop (Or.inl hlive) (by simp [LoopAction.push])
    have hmem : f ∈ (s.loops l).queue := by
      rw [EventLoop.queue, hfunctors]
      exact List.mem_append_left _ List.mem_cons_self
    refine htaken.runFunctor hconfined hhome ?_ ?_ hrun
    · intro hl
      subst hl
      exact h.queue f hmem
    · intro hphase
      obtain rfl : l = 0 := h.ended hphase l hlive
      exact (h.drained hphase).queue f hmem
  | resume hlive hresume => exact h.resume hc hlive hresume
  | userCall halive hcall =>
    exact h.callConn hc (fun _ _ => ⟨fun _ => rfl, fun _ => halive⟩) (fun _ _ => halive) hcall
  | @testPassed _ _ c halive htest =>
    apply h.setCall
    rintro call ⟨⟩
    refine ⟨halive, fun hphase hp => ?_⟩
    -- the test fails on a connection that is down
    rw [(h.inert hphase hp halive).stat] at htest
    cases c <;> cases htest
  | testFailed => exact h
  | @store _ p _ hcall =>
    have hmem := mem_calls hcall
    have halive : s.alive p = true := h.calls _ hmem
    have hloop : s.phase = .destroyed → p.loop ≠ 0 := by
      intro hphase hp
      cases (h.inert hphase hp halive).calls _ hmem rfl
    apply (h.withStat hloop).setCall
    rintro call ⟨⟩
    exact ⟨halive, fun _ _ => rfl⟩
  | @push th p c _ hcall hqueue =>
    have halive : s.alive p = true := h.calls _ (mem_calls hcall)
    have hidle : Down (s.setCall th none) := h.setCall (by simp)
    refine hidle.queueInLoop (hc.consistent p.loop) ?_ hqueue
    intro _
    refine ⟨?_, fun _ => rfl⟩
    cases c with
    | send | shutdown => trivial
    | forceClose => exact halive
  | runAfter hrun =>
    refine h.runInLoop hc ?_ ?_ (fun _ => rfl) hrun
    · intro l' hl'
      cases hl'
      rfl
    · exact fun _ => trivial
  | start hrun =>
    have hstarted : Down { s with started := true } :=
      h.of_eq rfl rfl rfl rfl rfl rfl rfl rfl rfl rfl rfl rfl rfl
    have hconfined : Confined { s with started := true } := hc.of_eq rfl rfl rfl rfl rfl rfl rfl rfl
    refine hstarted.runInLoop hconfined ?_ ?_ (fun _ => rfl) hrun
    · intro l' hl'
      cases hl'
      rfl
    · exact fun _ => trivial
  | destroy =>
    have hphase : Down { s with phase := .destroying } := by
      refine { h with ended := ?_, drained := ?_ }
      · intro hdown
        cases hdown
      · intro hdown
        cases hdown
    exact hphase.pushFrame fun _ _ => rfl
  | finish hfinish => exact h.finish hc hg hfinish
  | release howned => exact h.release howned

/-- **The server stays down.**  For any number of sub-loops and any order of the steps of all threads:
in a run in which `~TcpServer` ends in a drained state, no `removeConnection` and no
`removeConnectionInLoop` runs after it. -/
theorem server_stays_down (numThreads fd : Nat) (as : List (LoopsAction T)) (s : ServerLoops T)
    (hdrained : AllSteps step EndsDrained (init numThreads fd) as)
    (hrun : run step (init numThreads fd) as = some s) : StaysDown s := by
  have hinit : Confined (init numThreads fd : ServerLoops T) ∧
      Down (init numThreads fd : ServerLoops T) :=
    ⟨confined_init numThreads fd, down_init numThreads fd⟩
  exact (run_inv_of_allSteps down_step hinit hdrained hrun).2.trace

/-! ## Two ends -/

/-- The channel found ready is the connection's, with events that may close it. -/
def Ready.mayClose (p : ConnPtr) : Ready → Bool
  | .conn q revents => q == p && (eventCallbacks revents).any EventCallback.mayClose
  | .acceptor | .timerfd => false

omit [DecidableEq T] in
theorem active_mayClose_iff : (∀ r ∈ s.active 0, Ready.mayClose p r = false) ↔
    ∀ revents, .conn p revents ∈ s.active 0 →
      ∀ cb ∈ eventCallbacks revents, cb.mayClose = false := by
  constructor
  · intro h revents hmem
    have hnot := h _ hmem
    simpa [Ready.mayClose] using hnot
  · intro h r hr
    cases r with
    | acceptor | timerfd => rfl
    | conn q revents =>
      by_cases hq : q = p
      · subst hq
        have hnot := h revents hr
        simpa [Ready.mayClose] using hnot
      · simp [Ready.mayClose, hq]

instance decidableInert (s : ServerLoops T) (p : ConnPtr) : Decidable (Inert s p) :=
  decidable_of_iff
    ((s.conns p).stat = .kDisconnected ∧
      (∀ call ∈ s.calls, call.2.1 = p → call.2.2.willStore = false) ∧
      (∀ event ∈ (s.pollers 0).interest (s.conns p).channel.fd, event.ptr ≠ p.addr) ∧
      (∀ r ∈ s.active 0, Ready.mayClose p r = false) ∧
      ∀ d ∈ s.dispatch 0, d.1 = p → ∀ cb ∈ d.2, EventCallback.mayClose cb = false)
    ⟨fun ⟨hstat, hcalls, hunwatched, hactive, hdispatch⟩ =>
      ⟨hstat, hcalls, hunwatched, active_mayClose_iff.mp hactive, hdispatch⟩,
    fun h => ⟨h.stat, h.calls, h.unwatched, active_mayClose_iff.mpr h.active, h.dispatch⟩⟩

instance decidableDrained (s : ServerLoops T) : Decidable (Drained s) :=
  decidable_of_iff
    ((∀ f ∈ (s.loops 0).queue, f.removes = false) ∧ (∀ f ∈ s.frames (.loop 0), f.closes = false) ∧
      ∀ id < s.created, s.alive ⟨id, 0⟩ = true → Inert s ⟨id, 0⟩)
    ⟨fun ⟨hqueue, hframes, hinert⟩ => ⟨hqueue, hframes, hinert⟩,
      fun h => ⟨h.queue, h.frames, h.inert⟩⟩

instance decidableEndsDrained (s : ServerLoops T) : ∀ a, Decidable (EndsDrained s a)
  | .finish => inferInstanceAs (Decidable (Drained s))
  | .loop _ _ | .enterLoop _ | .poll _ _ _ | .handleEvent _ | .callback _ _ _ | .endEvent _
  | .accept _ _ _ _ | .timer _ | .callFunctor _ _ | .resume _ | .userCall _ _ _ | .test _ _ _
  | .store _ | .push _ | .runAfter _ _ | .start _ | .destroy | .release _ => isTrue trivial

/-- A server without sub-loops is destroyed in a handler; its connection is kept by the user. -/
def destroyInHandler : List (LoopsAction Unit) :=
  [.start (.loop 0), .enterLoop 0, .loop 0 .resetQuit, .loop 0 .testQuit, .poll 0 false [.acceptor],
    .accept 0 7 false false, .destroy, .resume 0, .resume 0, .resume 0, .finish,
    .userCall ⟨0, 0⟩ .forceClose (.count 0), .loop 0 .beginFunctors, .loop 0 .swapFunctors,
    .loop 0 .endFunctors]

/-- The handler destroys a server with a sub-loop, whose thread calls `connectDestroyed` before it is
joined. -/
def destroyWithPool : List (LoopsAction Unit) :=
  [.start (.loop 0), .enterLoop 0, .loop 0 .resetQuit, .loop 0 .testQuit, .poll 0 false [.acceptor],
    .accept 0 7 true true, .loop 1 (.wakeup (.loop 0)), .enterLoop 1, .loop 1 .resetQuit] ++
  wokenUp 1 ++
  [.loop 1 .testQuit, .destroy, .resume 0, .loop 1 (.wakeup (.loop 0)), .resume 0,
    .loop 1 (.quit (.loop 0)), .loop 1 (.wakeup (.loop 0)), .poll 1 true [], .loop 1 .handleRead,
    .loop 1 .beginFunctors, .loop 1 .swapFunctors, .callFunctor 1 (.count 0), .resume 1,
    .loop 1 .endFunctors, .loop 1 .destroyFunctors, .loop 1 .testQuit, .finish, .loop 0 .beginFunctors,
    .loop 0 .swapFunctors, .loop 0 .endFunctors]

theorem server_stays_down_in_handler :
    (∃ s, run step (init 0 3) destroyInHandler = some s ∧
      s.phase = .destroyed ∧ s.alive ⟨0, 0⟩ = true ∧ StaysDown s) ∧
    ∃ s, run step (init 1 3) destroyWithPool = some s ∧
      s.phase = .destroyed ∧ s.live 1 = false ∧ StaysDown s := by
  constructor
  · refine exists_run_eq (fun s => (s.phase, s.alive ⟨0, 0⟩)) (.destroyed, true) (by decide +kernel) ?_
    intro s hrun hend
    rw [Prod.mk.injEq] at hend
    exact ⟨hend.1, hend.2, server_stays_down 0 3 destroyInHandler s (by decide +kernel) hrun⟩
  · refine exists_run_eq (fun s => (s.phase, s.live 1)) (.destroyed, false) (by decide +kernel) ?_
    intro s hrun hend
    rw [Prod.mk.injEq] at hend
    exact ⟨hend.1, hend.2, server_stays_down 1 3 destroyWithPool s (by decide +kernel) hrun⟩

/-- A connection of the sub-loop closes; before the base loop comes to `removeConnectionInLoop` the
server is destroyed there. -/
def closeBeforeDestroy : List (LoopsAction Unit) :=
  [.start (.loop 0), .enterLoop 0, .loop 0 .resetQuit, .loop 0 .testQuit, .poll 0 false [.acceptor],
    .accept 0 7 true true, .loop 1 (.wakeup (.loop 0)), .enterLoop 1, .loop 1 .resetQuit] ++
  wokenUp 1 ++
  [.loop 1 .testQuit, .poll 1 false [.conn ⟨0, 1⟩ EPOLLHUP], .handleEvent 1,
    .callback 1 (.data []) (.count 0), .resume 1, .destroy, .resume 0, .resume 0,
    .loop 1 (.wakeup (.loop 0)), .loop 1 (.quit (.loop 0)), .loop 1 (.wakeup (.loop 0)),
    .endEvent 1] ++
  oneFunctor 1 ++ [.loop 1 .testQuit, .finish, .loop 0 .beginFunctors, .loop 0 .swapFunctors,
    .callFunctor 0 (.count 0)]

instance decidableStaysDown (s : ServerLoops T) : Decidable (StaysDown s) :=
  inferInstanceAs (Decidable (∀ e ∈ s.trace, e.fn.removes = true → e.phase ≠ .destroyed))

/-- **The base loop calls the dead server.** -/
theorem removeConnectionInLoop_after_end :
    ∃ s, run step (init 1 3) closeBeforeDestroy = some s ∧ s.phase = .destroyed ∧ ¬ StaysDown s ∧
      ⟨.loop 0, .removeConnectionInLoop ⟨0, 1⟩, .destroyed⟩ ∈ s.trace :=
  exists_run_decide (by decide +kernel)

end ServerLoops
end Muduo
