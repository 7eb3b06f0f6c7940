import Muduo.ClientSlot

/-!
# A client that is disconnected or stopped

`stop` and `disconnect` both clear the client's own `connect_`, which keeps `removeConnection` from a
restart.  Only `stop` clears the connector's, which every attempt looks at before it begins and before
it delivers.

* After `stop` the client does not come up again before the next `connect`   (stays_down).
* After `disconnect` neither, if the connector has nothing to do (`Settled`) or is stopped itself.
* `disconnect` while an attempt is in progress lets it go on, and the connection comes up
  (`disconnect_then_up`).
-/

namespace Muduo
namespace ClientLoop

open Transition

variable {T : Type*}

/-- The connector has nothing to do: no attempt is in progress, no timer of `retry` is pending, and no
`startInLoop` is queued or about to be. -/
structure Settled (s : ConnectorLoop T) : Prop where
  state : s.conn.state ≠ .kConnecting
  timers : s.timers = 0
  queue : some .startInLoop ∉ s.loop.queue
  calls : ∀ t, s.calls t ≠ some .startInLoop

/-- The connector is stopped, or has nothing to do. -/
def Quiet (s : ConnectorLoop T) : Prop := s.conn.connect_ = false ∨ Settled s

/-- The condition: no other thread is inside `connect`, and `disconnect` finds the connector quiet. -/
structure Effective (s : ClientLoop T) (a : ClientAction T) : Prop where
  callers : ∀ t, s.callers t ≠ some .start
  quiet : a = .disconnect → Quiet s.base

def isConnect : ClientAction T → Bool
  | .connect _ | .storeConnect _ => true
  | _ => false

/-- The client stays down. -/
structure Down (s : ClientLoop T) : Prop where
  consistent : s.base.loop.Consistent
  callers : ∀ t, s.callers t ≠ some .start
  connect_ : s.client.connect_ = false
  quiet : Quiet s.base

variable [DecidableEq T]

/-! ## The connector -/

/-- The calls that begin an attempt by themselves. -/
def forces : ConnectorAction T → Bool
  | .start _ | .restart _ | .storeStart _ => true
  | _ => false

/-- A quiet connector begins nothing. -/
theorem attempt_of_quiet {b b' : ConnectorLoop T} {a : ConnectorAction T} {es : List ConnectorEffect}
    (hq : Quiet b) (ha : forces a = false) (h : b.Steps a es b') : b.attempt a = none := by
  rw [Option.eq_none_iff_forall_not_mem]
  intro r hr
  have hr : b.attempt a = some r := hr
  cases a with
  | start | restart | storeStart => cases ha
  | timer r' =>
    simp only [ConnectorLoop.attempt, Option.ite_none_right_eq_some] at hr
    rcases hq with hoff | hsettled
    · rw [hoff] at hr
      cases hr.1
    · have := h.expires
      rw [hsettled.timers] at this
      cases this
  | callFunctor r' =>
    simp only [ConnectorLoop.attempt, Option.ite_none_right_eq_some] at hr
    obtain ⟨⟨hhead, hconnect⟩, -⟩ := hr
    rcases hq with hoff | hsettled
    · rw [hoff] at hconnect
      cases hconnect
    · apply hsettled.queue
      exact List.mem_append_left _ (List.mem_of_head? hhead)
  | loop | stop | handleWriter | handleError | storeStop | push | otherChannels => cases hr

/-- **A quiet connector delivers nothing and stays quiet.** -/
theorem Quiet.step {b b' : ConnectorLoop T} {a : ConnectorAction T} {es : List ConnectorEffect}
    (hq : Quiet b) (ha : forces a = false) (h : b.Steps a es b') :
    es.countP ConnectorEffect.isNewConnection = 0 ∧ Quiet b' := by
  have hnone := attempt_of_quiet hq ha h
  cases hset : ConnectorLoop.setsConnect a with
  | true =>
    obtain ⟨-, hweight, -, -⟩ := h.sets hset
    unfold ConnectorEffect.weight at hweight
    refine ⟨by omega, Or.inl ?_⟩
    have hresult := h.result
    cases a with
    | stop | storeStop =>
      simp only [ConnectorLoop.result, Connector.stop, Option.some.injEq, Prod.mk.injEq] at hresult
      rw [← hresult.1]
    | storeStart => cases ha
    | _ => cases hset
  | false =>
    have hleaves := h.leaves hnone hset
    rcases hq with hoff | hsettled
    · constructor
      · by_contra hne
        rw [hleaves.delivers hne] at hoff
        cases hoff
      · exact Or.inl (hleaves.connect_.trans hoff)
    · have hle := hleaves.le
      rw [Connector.flight_of_ne hsettled.state] at hle
      unfold ConnectorEffect.weight at hle
      refine ⟨by omega, Or.inr ⟨?_, ?_, ?_, ?_⟩⟩
      · intro hstate
        rw [Connector.flight_of_connecting hstate] at hle
        omega
      · have htimers := h.timers
        rw [hsettled.timers] at htimers
        omega
      · intro hmem
        rw [h.queue, List.mem_append, List.mem_append] at hmem
        rcases hmem with (hmem | hmem) | hmem
        · exact hsettled.queue (List.mem_of_mem_drop hmem)
        · obtain ⟨t, -, ht⟩ := ConnectorLoop.some_mem_pushes.mp hmem
          exact hsettled.calls t ht
        · obtain ⟨f, hf, heq⟩ := List.mem_map.mp hmem
          rw [hleaves.functors f hf] at heq
          cases heq
      · intro t
        have hcall := hsettled.calls t
        rw [h.calls]
        cases a with
        | push t' =>
          by_cases ht : t = t'
          · simp [ConnectorLoop.callsAfter, ht]
          · simpa [ConnectorLoop.callsAfter, ht] using hcall
        | storeStart => cases ha
        | storeStop => cases hset
        | loop | callFunctor | start | stop | restart | timer | handleWriter | handleError
        | otherChannels => exact hcall

/-! ## The client -/

variable {s s' : ClientLoop T} {a : ClientAction T}

theorem consistent_step (s : ClientLoop T) (a : ClientAction T) (s' : ClientLoop T)
    (h : s.base.loop.Consistent) (hs : s.step a = some s') : s'.base.loop.Consistent := by
  have hbase : ∀ {b base}, s.base.step b = some base → base.loop.Consistent := by
    intro b base hb
    obtain ⟨es, hsteps⟩ := ConnectorLoop.step_result h hb
    exact hsteps.consistent
  cases moves_of_step hs with
  | base _ hb =>
    rw [deliver_base]
    exact hbase hb
  | connect hb | stop hb => exact hbase hb
  | callStart _ hb | callStop _ hb => exact hbase hb
  | disconnect | enableRetry | storeConnect | storeDisconnect | storeStop | storeRetry | handleClose =>
    exact h
  | closeCallback => exact dropConnection_consistent h _
  | restart _ _ _ hb =>
    obtain ⟨es, hsteps⟩ := ConnectorLoop.step_result (dropConnection_consistent h _) hb
    exact hsteps.consistent

theorem quiet_dropConnection (h : Quiet s.base) (conn : Nat) : Quiet (s.dropConnection conn).base := by
  refine h.imp_right fun hsettled => ⟨hsettled.state, hsettled.timers, ?_, hsettled.calls⟩
  intro hmem
  have hqueue : (s.base.loop.next (.loopQueueInLoop none)).queue = s.base.loop.queue ++ [none] := by
    simp [EventLoop.queue, EventLoop.next]
  replace hmem : some .startInLoop ∈ (s.base.loop.next (.loopQueueInLoop none)).queue := hmem
  rw [hqueue, List.mem_append] at hmem
  rcases hmem with hmem | hmem
  · exact hsettled.queue hmem
  · cases List.mem_singleton.mp hmem

/-- A thread that goes on, or begins to stop, does not begin to connect. -/
theorem callers_update {callers : T → Option ClientCall} (h : ∀ t, callers t ≠ some .start)
    {call : Option ClientCall} (hcall : call ≠ some .start) (t t' : T) :
    Function.update callers t call t' ≠ some .start := by
  by_cases ht : t' = t
  · rw [ht, Function.update_self]
    exact hcall
  · rw [Function.update_of_ne ht]
    exact h t'

/-- While nobody calls `connect`, a client that is down stays down. -/
theorem down_step (h : Down s) (ha : isConnect a = false) (hs : s.step a = some s') :
    Down s' ∧ s'.ups = s.ups := by
  have hc := consistent_step s a s' h.consistent hs
  have hquiet : ∀ {b base}, forces b = false → s.base.step b = some base → Quiet base := by
    intro b base hb hbase
    obtain ⟨es, hsteps⟩ := ConnectorLoop.step_result h.consistent hbase
    exact (h.quiet.step hb hsteps).2
  cases moves_of_step hs with
  | @base b base hown hbase =>
    have hb : forces b = false := by
      cases b <;> first | rfl | cases hown
    obtain ⟨es, hsteps⟩ := ConnectorLoop.step_result h.consistent hbase
    obtain ⟨hnone, hq⟩ := h.quiet.step hb hsteps
    rw [hsteps.effects, deliver_of_countP hnone]
    exact ⟨⟨hsteps.consistent, h.callers, h.connect_, hq⟩, rfl⟩
  | connect | storeConnect => cases ha
  | stop hbase => exact ⟨⟨hc, h.callers, rfl, hquiet rfl hbase⟩, rfl⟩
  | disconnect | storeDisconnect => exact ⟨⟨hc, h.callers, rfl, h.quiet⟩, rfl⟩
  | enableRetry | storeRetry | handleClose => exact ⟨⟨hc, h.callers, h.connect_, h.quiet⟩, rfl⟩
  | storeStop => exact ⟨⟨hc, callers_update h.callers (by decide) _, rfl, h.quiet⟩, rfl⟩
  | callStart hstart => exact absurd hstart (h.callers _)
  | callStop _ hbase =>
    exact ⟨⟨hc, callers_update h.callers (by decide) _, h.connect_, hquiet rfl hbase⟩, rfl⟩
  | closeCallback => exact ⟨⟨hc, h.callers, h.connect_, quiet_dropConnection h.quiet _⟩, rfl⟩
  | restart _ _ hretry =>
    rw [h.connect_] at hretry
    cases hretry.2

/-- What an effective `disconnect` or `stop` leaves. -/
theorem down_of_effective (hc : s.base.loop.Consistent) (ha : a = .disconnect ∨ a = .stop)
    (hg : s.Effective a) (hs : s.step a = some s') : Down s' ∧ s'.ups = s.ups := by
  have hc' := consistent_step s a s' hc hs
  rcases ha with rfl | rfl
  · cases moves_of_step hs
    exact ⟨⟨hc', hg.callers, rfl, hg.quiet rfl⟩, rfl⟩
  · cases moves_of_step hs with
    | @stop base hbase =>
      obtain ⟨es, hsteps⟩ := ConnectorLoop.step_result hc hbase
      have hresult := hsteps.result
      simp only [ConnectorLoop.result, Connector.stop, Option.some.injEq, Prod.mk.injEq] at hresult
      refine ⟨⟨hc', hg.callers, rfl, Or.inl ?_⟩, rfl⟩
      show base.conn.connect_ = false
      rw [← hresult.1]

/-- **A client that is disconnected or stopped does not come up again.**  In any run, when `disconnect`
or `stop` is called on the loop thread, no other thread is inside `connect`, the connector is stopped or
has nothing to do if the call is `disconnect`, and nobody calls `connect` afterwards: then
`connectionCallback_` is never again called with a connection that is UP. -/
theorem stays_down (loop : EventLoop T (Option ConnectorFunctor)) (poller : EPollPoller)
    (hc : loop.Consistent) (as bs : List (ClientAction T)) (a : ClientAction T) (t t' u : ClientLoop T)
    (hrun : run step (start loop poller) as = some t) (ha : a = .disconnect ∨ a = .stop)
    (hcond : t.Effective a) (hcall : t.step a = some t') (hbs : ∀ b ∈ bs, isConnect b = false)
    (hrest : run step t' bs = some u) : u.ups = t.ups := by
  have ht := run_inv consistent_step (P := fun s => s.base.loop.Consistent)
    (s := start loop poller) hc hrun
  obtain ⟨hdown, hups⟩ := down_of_effective ht ha hcond hcall
  have hstep : ∀ (s : ClientLoop T) b s', (Down s ∧ s.ups = t.ups) → isConnect b = false →
      s.step b = some s' → (Down s' ∧ s'.ups = t.ups) := by
    rintro s b s' ⟨hs, hsame⟩ hb hstep
    obtain ⟨hs', hsame'⟩ := down_step hs hb hstep
    exact ⟨hs', hsame'.trans hsame⟩
  have hall : AllSteps step (fun _ b => isConnect b = false) t' bs := allSteps_of_forall hbs
  exact (run_inv_of_allSteps hstep ⟨hdown, hups⟩ hall hrest).2

/-- With retry enabled, the connection comes up in the third poll. -/
def connectedWithRetry : List (ClientAction Unit) :=
  [.enableRetry, .connect ⟨5, 0, some .ECONNREFUSED⟩, .base (.loop .enterLoop),
    .base (.loop .resetQuit), .base (.loop .testQuit), .base (.loop (.pollReturns false)),
    .base (.timer ⟨5, 1, some .EINPROGRESS⟩), .base (.loop .beginFunctors),
    .base (.loop .swapFunctors), .base (.loop .endFunctors), .base (.loop .destroyFunctors),
    .base (.loop .testQuit), .base (.loop (.pollReturns false)), .base (.handleWriter none false)]

/-- The peer closes. -/
def closedAfterwards : List (ClientAction Unit) :=
  [.base (.loop .beginFunctors), .base (.loop .swapFunctors), .base (.callFunctor ⟨6, 2, none⟩),
    .base (.loop .endFunctors), .base (.loop .destroyFunctors), .base (.loop .testQuit),
    .base (.loop (.pollReturns false)), .handleClose 0, .closeCallback 0 ⟨6, 2, some .EINPROGRESS⟩]

theorem stays_down_run :
    ∃ t, run step (start .new .empty) connectedWithRetry = some t ∧ t.client.retry_ = true ∧
      ∃ t', t.step .disconnect = some t' ∧ ∃ u, run step t' closedAfterwards = some u ∧
        u.conns 0 = some .closed ∧ u.ups = [0] := by
  obtain ⟨t, ht, ⟨hretry, hups⟩, ⟨hcallers, hcalls⟩, hstate, htimers, hqueue⟩ :
      ∃ t, run step (start .new .empty) connectedWithRetry = some t ∧
        (t.client.retry_ = true ∧ t.ups = [0]) ∧ (t.callers () = none ∧ t.base.calls () = none) ∧
        t.base.conn.state = .kConnected ∧ t.base.timers = 0 ∧
        t.base.loop.queue = [some .resetChannel] :=
    exists_run_decide (by decide +kernel)
  have hsettled : Settled t.base := by
    refine ⟨?_, htimers, ?_, fun _ => ?_⟩
    · rw [hstate]
      decide
    · rw [hqueue]
      decide
    · rw [hcalls]
      decide
  have hcond : t.Effective .disconnect := by
    refine ⟨fun _ => ?_, fun _ => Or.inr hsettled⟩
    rw [hcallers]
    decide
  obtain ⟨u, hu, hclosed⟩ :
      ∃ u, run step (start .new .empty) (connectedWithRetry ++ .disconnect :: closedAfterwards) =
        some u ∧ u.conns 0 = some .closed :=
    exists_run_decide (by decide +kernel)
  rw [run_append, ht, Option.bind_some, run_cons_eq_some] at hu
  obtain ⟨t', hcall, hrest⟩ := hu
  refine ⟨t, ht, hretry, t', hcall, u, hrest, hclosed, ?_⟩
  rw [← hups]
  exact stays_down .new .empty EventLoop.consistent_new connectedWithRetry closedAfterwards .disconnect
    t t' u ht (Or.inl rfl) hcond hcall (by decide) hrest

/-- `disconnect` while the first attempt is in progress: the connection is made, and comes up. -/
theorem disconnect_then_up :
    ∃ t : ClientLoop Unit, run step (start .new .empty)
        [.connect ⟨5, 0, some .EINPROGRESS⟩, .base (.loop .enterLoop), .base (.loop .resetQuit),
          .base (.loop .testQuit), .base (.loop (.pollReturns false))] = some t ∧ t.ups = [] ∧
      ∃ t', t.step .disconnect = some t' ∧
        ∃ u, run step t' [.base (.handleWriter none false)] = some u ∧ u.ups = [0] ∧
          u.conns 0 = some .up := by
  refine exists_run_eq (fun t => (t.ups, (run step t
      [.disconnect, .base (.handleWriter none false)]).map fun u => (u.ups, u.conns 0)))
    ([], some ([0], some .up)) (by decide +kernel) fun t _ hend => ?_
  rw [Prod.mk.injEq, Option.map_eq_some_iff] at hend
  obtain ⟨hnone, u, hu, hup⟩ := hend
  obtain ⟨t', hcall, hrest⟩ := run_cons_eq_some.mp hu
  rw [Prod.mk.injEq] at hup
  exact ⟨hnone, t', hcall, u, hrest, hup.1, hup.2⟩

end ClientLoop
end Muduo
