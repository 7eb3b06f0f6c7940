import Muduo.Conversation
import Muduo.OutOfOrder

/-!
# The end of the stream between two loops

`shutdownInLoop` waits until no output is pending, so a connection whose user calls `shutdown` ends its
stream behind a whole message.  What `sendInLoop` keeps after it stays in `outputBuffer_`.

* `Unopened`: a connection before `connectEstablished`.
* `NotClosed`, `Ending`: one side while its connection is neither closed nor destroyed.  A step of
  the side keeps `Ending` (`Ending.step_other`, `Ending.step_call`), and so does all that happens
  elsewhere (`ended_step`).
* The step that ends the stream finds the output buffer empty (`output_of_ending`), and nothing is
  written after it (`written_of_fin`).

    end of the stream at the reader : shutdown was called at the writer,
                                      messages kept = received ++ in outputBuffer
                                                                        (end_of_stream_between_messages)
-/

namespace Muduo

open Transition

/-! ## Before `connectEstablished` -/

namespace TcpConnection

variable {c c' : TcpConnection} {es : List Effect} {call : ConnCall}

/-- As the constructor leaves it, whatever other channels have done to the poller and the user to
`inputBuffer_`. -/
def Unopened (c : TcpConnection) : Prop :=
  ∃ poller addr sockfd writeCompleteCallback highWaterMarkCallback inputBuffer,
    c = { TcpConnection.new poller addr sockfd writeCompleteCallback highWaterMarkCallback with
      inputBuffer }

theorem Unopened.of_poller (hc : c.Unopened) (poller : EPollPoller) : { c with poller }.Unopened := by
  obtain ⟨_, addr, sockfd, wc, hw, inputBuffer, rfl⟩ := hc
  exact ⟨poller, addr, sockfd, wc, hw, inputBuffer, rfl⟩

theorem Unopened.of_input (hc : c.Unopened) (inputBuffer : ValidBuffer) :
    { c with inputBuffer }.Unopened := by
  obtain ⟨poller, addr, sockfd, wc, hw, _, rfl⟩ := hc
  exact ⟨poller, addr, sockfd, wc, hw, inputBuffer, rfl⟩

theorem connectEstablished_input (c : TcpConnection) (inputBuffer : ValidBuffer) :
    { c with inputBuffer }.connectEstablished =
      c.connectEstablished.map fun (c', es) => ({ c' with inputBuffer }, es) := by
  simp only [connectEstablished, setState, withChannel, Option.bind_eq_bind]
  cases Channel.enableReading { c.channel with tied := true } c.poller with
  | none => rfl
  | some r => rfl

theorem Unopened.established (hc : c.Unopened) (h : c.connectEstablished = some (c', es)) :
    Established c'.channel.fd c' := by
  obtain ⟨poller, addr, sockfd, wc, hw, inputBuffer, rfl⟩ := hc
  rw [connectEstablished_input] at h
  obtain ⟨⟨c₁, es₁⟩, h₁, heq⟩ := Option.map_eq_some_iff.mp h
  cases heq
  have hc₁ := established_connectEstablished h₁
  exact hc₁.fd_eq ▸ hc₁.of_eq rfl rfl rfl rfl hc₁.watched

/-! ## Calls -/

/-- Only a close or `connectDestroyed` brings a connection down. -/
theorem closed_of_exec (hc : c.stat ≠ .kDisconnected) (h : c.exec call = some (c', es))
    (hc' : c'.stat = .kDisconnected) : .closeCallback ∈ es ∨ ConnCall.destroys call = true := by
  have hclose : ∀ {c₀ : TcpConnection}, c₀.handleClose = some (c', es) →
      .closeCallback ∈ es ∨ ConnCall.destroys call = true := by
    intro c₀ hclose
    rw [(handleClose_eq_some hclose).2]
    exact Or.inl (by simp)
  have hsame : c'.stat.phase = c.stat.phase → .closeCallback ∈ es ∨ ConnCall.destroys call = true := by
    intro hphase
    rw [hc'] at hphase
    exfalso
    revert hphase hc
    cases c.stat <;> simp [StateE.phase]
  cases executes_of_exec h with
  | skip => exact hsame rfl
  | connectEstablished h =>
    rw [(connectEstablished_eq_some h).1] at hc'
    cases hc'
  | connectDestroyed => exact Or.inr rfl
  | sendInLoop _ _ h => exact hsame (sendInLoop_phase h)
  | shutdownInLoop h => exact hsame (by rw [(shutdownInLoop_spec h).1])
  | shutdown hstat h => exact hsame (by rw [(shutdownInLoop_spec h).1, hstat]; rfl)
  | forceClose => cases hc'
  | forceCloseInLoop _ h | close h => exact hclose h
  | endOfStream _ h => exact hclose h
  | message | readError => exact hsame rfl
  | write h => exact hsame (by rw [(handleWrite_stream h).2])

/-- A connection that is still `kConnected` has called `::shutdown` by `shutdownInLoop` only. -/
theorem shutdownWrite_not_mem (h : c.exec call = some (c', es)) (hc : c.stat = .kConnected)
    (hc' : c'.stat = .kConnected) (hpending : c.channel.isWriting = true → c.outputBuffer.toQueue ≠ [])
    (hcall : ∀ w, call ≠ .functor .shutdownInLoop w) : .shutdownWrite ∉ es := by
  have hclose : ∀ {c₀ : TcpConnection}, c₀.handleClose = some (c', es) → .shutdownWrite ∉ es := by
    intro c₀ hclose
    rw [(handleClose_eq_some hclose).2]
    simp
  have houtput : ∀ {l : List Effect}, (∀ e ∈ l, e.isOutput = true) → .shutdownWrite ∉ l :=
    fun hl hmem => by cases hl _ hmem
  cases executes_of_exec h with
  | skip | readError | message => simp
  | connectEstablished h =>
    rw [(connectEstablished_eq_some h).2]
    simp
  | connectDestroyed h =>
    rcases connectDestroyed_eq_some h with ⟨-, -, rfl⟩ | ⟨-, -, rfl⟩ <;> simp
  | sendInLoop _ _ h => exact houtput (sendInLoop_effects h)
  | shutdownInLoop => exact absurd rfl (hcall _)
  | shutdown _ h =>
    rw [(shutdownInLoop_spec h).1] at hc'
    cases hc'
  | forceClose => cases hc'
  | forceCloseInLoop _ h | close h => exact hclose h
  | endOfStream _ h => exact hclose h
  | write h =>
    obtain ⟨-, out, hout, rfl⟩ := handleWrite_effects hpending h
    rw [if_neg (by simp [hc]), List.append_nil]
    exact houtput hout

/-- No call leads to `kConnected` but `connectEstablished`. -/
theorem connected_of_exec (h : c.exec call = some (c', es)) (hc' : c'.stat = .kConnected) :
    c.stat = .kConnected ∨ ∃ w, call = .functor .connectEstablished w := by
  have hclose : ∀ {c₀ : TcpConnection}, c₀.handleClose = some (c', es) →
      c.stat = .kConnected ∨ ∃ w, call = .functor .connectEstablished w := by
    intro c₀ hclose
    rw [(handleClose_eq_some hclose).1] at hc'
    cases hc'
  cases executes_of_exec h with
  | skip | message | readError => exact Or.inl hc'
  | connectEstablished => exact Or.inr ⟨_, rfl⟩
  | connectDestroyed h =>
    rcases connectDestroyed_eq_some h with ⟨hc, -, -⟩ | ⟨-, hsame, -⟩
    · exact Or.inl hc
    · exact Or.inl (hsame.symm.trans hc')
  | sendInLoop hstat _ h => exact Or.inl ((sendInLoop_stream hstat h).2.symm.trans hc')
  | shutdownInLoop h =>
    rw [(shutdownInLoop_spec h).1] at hc'
    exact Or.inl hc'
  | shutdown hc => exact Or.inl hc
  | forceClose => cases hc'
  | forceCloseInLoop _ h | close h => exact hclose h
  | endOfStream _ h => exact hclose h
  | write h => exact Or.inl ((handleWrite_stream h).2.symm.trans hc')

/-- A call of the user is refused before `connectEstablished`. -/
theorem refused_of_connecting {u : UserCall} {w : WriteResult} (hc : c.stat = .kConnecting)
    (h : c.exec (.user u w) = some (c', es)) : es = [] := by
  cases executes_of_exec h with
  | skip => rfl
  | sendInLoop _ hcall =>
    rcases hcall with hcall | ⟨-, hstat⟩
    · cases hcall
    · rw [hc] at hstat
      cases hstat
  | shutdown hstat =>
    rw [hc] at hstat
    cases hstat
  | forceClose hstat => simp [hc] at hstat

/-- No call queues `shutdownInLoop`. -/
theorem exec_queues_no_shutdown {T : Type*} (h : c.exec call = some (c', es)) :
    .shutdownInLoop ∉ ConnectionLoop.own (queuedTasks T es) := by
  intro hmem
  obtain ⟨task, htask, hf⟩ := List.mem_filterMap.mp hmem
  obtain ⟨e, he, htask⟩ := List.mem_filterMap.mp htask
  split at htask
  · next f =>
    cases htask
    cases hf
    rcases exec_accountable h _ he with htame | ⟨hclose, -⟩ | ⟨hforce, -⟩
    · cases htame
    · cases hclose
    · cases hforce
  · cases htask

end TcpConnection

/-! ## One side -/

namespace ConnectionLoop

open TcpConnection

variable {T : Type*} {s s' : ConnectionLoop T} {a : ConnectionAction T} {fin : Bool}

/-- The connection has been neither closed nor destroyed. -/
def NotClosed (s : ConnectionLoop T) : Prop :=
  .did .closeCallback ∉ s.history ∧ ¬ Destroyed s.history

theorem NotClosed.of_append {entries : List (HistoryEntry T)} (h : s'.NotClosed)
    (hhistory : s'.history = s.history ++ entries) :
    s.NotClosed ∧ .did .closeCallback ∉ entries ∧ ¬ Destroyed entries := by
  obtain ⟨hclose, hdestroyed⟩ := h
  rw [hhistory, List.mem_append, not_or] at hclose
  rw [hhistory] at hdestroyed
  refine ⟨⟨hclose.1, ?_⟩, hclose.2, ?_⟩
  · rintro ⟨source, hmem⟩
    exact hdestroyed ⟨source, List.mem_append_left _ hmem⟩
  · rintro ⟨source, hmem⟩
    exact hdestroyed ⟨source, List.mem_append_right _ hmem⟩

/-- No `shutdownInLoop` is on its way to the loop. -/
def Unasked (s : ConnectionLoop T) : Prop :=
  .shutdownInLoop ∉ own s.loop.queue ∧ ∀ t, s.calls t ≠ .pushing .shutdown

/-- A connection that has been neither closed nor destroyed; it has called `::shutdown` if `fin`. -/
structure Ending (fin : Bool) (s : ConnectionLoop T) : Prop where
  unopened : s.conn.stat = .kConnecting → s.conn.Unopened
  established : s.conn.stat ≠ .kConnecting → Established s.conn.channel.fd s.conn
  asked : fin = true → s.conn.stat = .kDisconnecting
  unasked : s.conn.stat = .kConnected → s.Unasked

variable [DecidableEq T]

/-! ### Steps without a call -/

theorem unopened_step_other (hp : Placed s) (hstat : s.conn.stat = .kConnecting)
    (h : s.conn.Unopened) (hcall : s.callOf a = none) (hstep : s.step a = some s') :
    s'.conn.Unopened := by
  obtain ⟨hunwatched, -, hidle, -⟩ := hp.connecting hstat
  have hqueue : ∀ {s₀ : ConnectionLoop T} {source : Option T} {f : ConnFunctor},
      s₀.queueInLoop source f = some s' → s₀.conn = s.conn → s'.conn.Unopened := by
    intro s₀ source f hf hconn
    rw [(Apart.queueInLoop (a := a) hf).2.1, hconn]
    exact h
  cases moves_of_step hstep with
  | loop | pollOther | handleEvent | callOther | testPassed | testFailed => exact h
  | poll hwatched =>
    rw [hunwatched.interest] at hwatched
    cases hwatched
  | store hstoring =>
    rw [hidle] at hstoring
    cases hstoring
  | otherChannels => exact h.of_poller _
  | push _ hpush => exact hqueue hpush rfl
  | establish _ hf => exact hqueue hf rfl
  | destroy _ hf | remove _ hf => exact hqueue hf rfl
  | callback hdispatch => simp [callOf, hdispatch] at hcall
  | callFunctor hfunctors htask => simp [callOf, hfunctors, htask] at hcall
  | send | sendRefused | shutdown | forceClose | establishNow | destroyNow => cases hcall

theorem established_step_other {fd : Nat} (h : Established fd s.conn) (hcall : s.callOf a = none)
    (hstep : s.step a = some s') : Established fd s'.conn := by
  obtain ⟨⟨-, ⟨revents, hchannel⟩, hinterest, -⟩, hstat⟩ := step_of_callOf_none hcall hstep
  have hlive : s'.conn.stat ≠ .kDisconnected := by
    rcases hstat with hsame | ⟨hstored, -⟩
    · rw [hsame]
      exact h.live
    · simp [hstored]
  refine ⟨hlive, ?_, ?_, ?_⟩
  · rw [hchannel]
    exact h.fd_eq
  · rw [hchannel]
    exact ⟨h.watched.1, hinterest.trans h.watched.2⟩
  · rw [hchannel, (buffers_of_callOf_none hcall hstep).2.1]
    exact h.events

/-- Another functor is queued. -/
theorem Unasked.queueInLoop (h : s.Unasked) (hs : s.loop.Consistent) {source : Option T}
    {f : ConnFunctor} (hf : f ≠ .shutdownInLoop) (hcall : s.queueInLoop source f = some s') :
    s'.Unasked := by
  obtain ⟨loop, rfl, -, hqueue⟩ := queueInLoop_eq_some hs hcall
  refine ⟨?_, h.2⟩
  rw [hqueue, own_append, List.mem_append, not_or]
  exact ⟨h.1, by simpa [own] using hf.symm⟩

theorem ne_pushing_update {calls : T → CallPc} {t : T} {pc : CallPc} {c : UserCall}
    (h : ∀ t, calls t ≠ .pushing c) (hpc : pc ≠ .pushing c) (t' : T) :
    Function.update calls t pc t' ≠ .pushing c := by
  by_cases ht : t' = t
  · subst ht
    rwa [Function.update_self]
  · rw [Function.update_of_ne ht]
    exact h t'

theorem unasked_step_other (h : s.Unasked) (hs : s.loop.Consistent)
    (hstat : s'.conn.stat = .kConnected) (hcall : s.callOf a = none) (hstep : s.step a = some s') :
    s'.Unasked := by
  cases moves_of_step hstep with
  | loop hmay hloop =>
    refine ⟨?_, h.2⟩
    have hnone : own (LoopAction.push _) = [] := List.filterMap_eq_nil_iff.mpr (push_of_mayTake hmay)
    rw [(queue_of_mayTake hs hmay hloop).2, own_append, hnone, List.append_nil]
    exact h.1
  | pollOther hloop | poll _ hloop =>
    refine ⟨?_, h.2⟩
    rw [(queue_of_poll hs hloop).2]
    exact h.1
  | handleEvent | testFailed | otherChannels => exact h
  | callOther hfunctors htask hloop =>
    refine ⟨fun hmem => h.1 ?_, h.2⟩
    rw [(queue_of_callFunctor hs hfunctors hloop).2, own_cons]
    exact List.mem_append_right _ hmem
  | @testPassed t c =>
    refine ⟨h.1, ne_pushing_update h.2 ?_⟩
    cases c <;> simp [UserCall.stores]
  | store => cases hstat
  | @push t c _ hpushing hpush =>
    have hidle : Unasked { s with calls := Function.update s.calls t .idle } :=
      ⟨h.1, ne_pushing_update h.2 (by simp)⟩
    refine hidle.queueInLoop hs (fun hc => h.2 t ?_) hpush
    rw [hpushing]
    cases c <;> simp [UserCall.functor] at hc ⊢
  | establish _ hf =>
    have hcreated : Unasked { s with created := true } := h
    exact hcreated.queueInLoop hs (by simp) hf
  | destroy _ hf | remove _ hf => exact h.queueInLoop hs (by simp) hf
  | callback hdispatch => simp [callOf, hdispatch] at hcall
  | callFunctor hfunctors htask => simp [callOf, hfunctors, htask] at hcall
  | send | sendRefused | shutdown | forceClose | establishNow | destroyNow => cases hcall

/-- A step that does not call the connection. -/
theorem Ending.step_other (h : Ending fin s) (hp : Placed s) (hcall : s.callOf a = none)
    (hstep : s.step a = some s') : Ending fin s' := by
  obtain ⟨hapart, hstat⟩ := step_of_callOf_none hcall hstep
  obtain ⟨revents, hchannel⟩ := hapart.channel
  have hconnecting : s'.conn.stat = .kConnecting ↔ s.conn.stat = .kConnecting := by
    rcases hstat with hsame | ⟨hstored, t, c, hstoring, -⟩
    · rw [hsame]
    · refine iff_of_false (by simp [hstored]) fun hc => ?_
      rw [(hp.connecting hc).2.2.1] at hstoring
      cases hstoring
  constructor
  · intro hc
    rw [hconnecting] at hc
    exact unopened_step_other hp hc (h.unopened hc) hcall hstep
  · intro hc
    rw [ne_eq, hconnecting] at hc
    have hfd : s'.conn.channel.fd = s.conn.channel.fd := by rw [hchannel]
    rw [hfd]
    exact established_step_other (h.established hc) hcall hstep
  · intro hfin
    rcases hstat with hsame | ⟨hstored, -⟩
    · exact hsame.trans (h.asked hfin)
    · exact hstored
  · intro hconnected
    rcases hstat with hsame | ⟨hstored, -⟩
    · exact unasked_step_other (h.unasked (hsame.symm.trans hconnected)) hp.consistent hconnected hcall
        hstep
    · rw [hstored] at hconnected
      cases hconnected

/-! ### Steps with a call -/

omit [DecidableEq T] in
/-- A functor that is called, `connectEstablished` and `connectDestroyed` apart, is at the head of the
queue. -/
theorem taken_of_callOf {f : ConnFunctor} {w : WriteResult} (hcall : s.callOf a = some (.functor f w))
    (hestablished : f ≠ .connectEstablished) (hdestroyed : f ≠ .connectDestroyed) :
    f ∈ s.taken a := by
  cases a with
  | callFunctor w' =>
    obtain ⟨f', hf', heq⟩ := Option.map_eq_some_iff.mp hcall
    cases heq
    simp [taken, hf']
  | callback =>
    obtain ⟨cb, -, heq⟩ := Option.map_eq_some_iff.mp hcall
    cases heq
  | userCall => cases hcall
  | establish source =>
    cases source with
    | none =>
      cases hcall
      exact absurd rfl hestablished
    | some t => cases hcall
  | destroy source =>
    cases source with
    | none =>
      cases hcall
      exact absurd rfl hdestroyed
    | some t => cases hcall
  | loop | poll | handleEvent | test | store | push | otherChannels | remove => cases hcall

/-- The first call, or one that is refused before it. -/
theorem Ending.first_call (h : Ending fin s) (hp : Placed s) (hstat : s.conn.stat = .kConnecting)
    {call : ConnCall} {es : List Effect} (hcall : s.callOf a = some call)
    (hstep : s.step a = some s') (hcalls : Calls s a call s' es) :
    Ending (fin || es.contains .shutdownWrite) s' := by
  have hfin : fin = false := by
    by_contra hfin
    rw [h.asked (by simpa using hfin)] at hstat
    cases hstat
  rcases hp.first_call hstat hcall hstep with ⟨⟨u, w, rfl⟩, rfl⟩ | ⟨⟨w, rfl⟩, -, hall⟩
  · rw [refused_of_connecting hstat hcalls.exec, List.contains_nil, Bool.or_false]
    exact h
  · have hestablish : s.conn.connectEstablished = some (s'.conn, es) := hcalls.exec
    obtain ⟨hconnected, rfl⟩ := connectEstablished_eq_some hestablish
    obtain ⟨rest, hown, hown'⟩ := hcalls.queue
    subst hfin
    have hqueue : .shutdownInLoop ∉ own s'.loop.queue := by
      rw [hown, List.drop_left] at hall
      rw [hown', List.mem_append, not_or]
      refine ⟨fun hmem => ?_, exec_queues_no_shutdown hcalls.exec⟩
      cases hall _ hmem
    constructor
    · intro hc
      rw [hconnected] at hc
      cases hc
    · exact fun _ => (h.unopened hstat).established hestablish
    · intro hc
      cases hc
    · refine fun _ => ⟨hqueue, fun t => ?_⟩
      rw [hcalls.calls, (hp.connecting hstat).2.2.1]
      simp

/-- A call on a connection that is established. -/
theorem Ending.later_call (h : Ending fin s) (hp : Placed s) (hstat : s.conn.stat ≠ .kConnecting)
    {call : ConnCall} {es : List Effect} (hcall : s.callOf a = some call)
    (hstep : s.step a = some s') (hcalls : Calls s a call s' es) (hopen : s'.NotClosed) :
    Ending (fin || es.contains .shutdownWrite) s' := by
  have hexec := hcalls.exec
  have hc := h.established hstat
  obtain ⟨entries, hhistory, -⟩ := hcalls.history
  rw [List.append_assoc] at hhistory
  obtain ⟨-, hclose, -⟩ := hopen.of_append hhistory
  have hdestroys : ConnCall.destroys call = false := by
    by_contra hdestroys
    cases call with
    | functor f w =>
      cases f with
      | connectDestroyed => exact hopen.2 (destroyed_of_callOf hcall hstep)
      | connectEstablished | sendInLoop | shutdownInLoop | forceCloseInLoop | writeComplete
      | highWaterMark => exact hdestroys rfl
    | event | user => exact hdestroys rfl
  have hlive : s'.conn.stat ≠ .kDisconnected := by
    intro hdown
    rcases closed_of_exec hc.live hexec hdown with hmem | hmem
    · exact hclose (List.mem_append_right _ (List.mem_map_of_mem hmem))
    · rw [hdestroys] at hmem
      cases hmem
  have hconnecting : s'.conn.stat ≠ .kConnecting := (Placed.exec_live (T := T) (Or.inl hstat) hexec).1
  have hconnected : s'.conn.stat = .kConnected → s.conn.stat = .kConnected := by
    intro hconnected
    rcases connected_of_exec hexec hconnected with hsame | ⟨w, rfl⟩
    · exact hsame
    · exact absurd rfl (hp.not_establish hstat hcall hstep w)
  have hnext : Established s.conn.channel.fd s'.conn := exec_established hc hexec hlive hdestroys
  obtain ⟨rest, hown, hown'⟩ := hcalls.queue
  -- while the connection is `kConnected`, no `shutdownInLoop` is queued
  have hnone : s'.conn.stat = .kConnected → fin = false ∧ .shutdownWrite ∉ es := by
    intro hstill
    have hbefore := hconnected hstill
    refine ⟨?_, shutdownWrite_not_mem hexec hbefore hstill hc.isWriting_iff.mp ?_⟩
    · by_contra hfin
      rw [h.asked (by simpa using hfin)] at hbefore
      cases hbefore
    · rintro w rfl
      refine (h.unasked hbefore).1 ?_
      rw [hown]
      exact List.mem_append_left _ (taken_of_callOf hcall (by simp) (by simp))
  refine ⟨fun hc' => absurd hc' hconnecting, fun _ => hnext.fd_eq.symm ▸ hnext, fun hfin => ?_,
    fun hstill => ?_⟩
  · cases hs' : s'.conn.stat with
    | kDisconnecting => rfl
    | kDisconnected => exact absurd hs' hlive
    | kConnecting => exact absurd hs' hconnecting
    | kConnected =>
      obtain ⟨hfin', hes⟩ := hnone hs'
      rw [hfin', Bool.false_or, List.contains_iff_mem] at hfin
      exact absurd hfin hes
  · obtain ⟨hqueue, hpushing⟩ := h.unasked (hconnected hstill)
    refine ⟨?_, hcalls.calls.symm ▸ hpushing⟩
    rw [hown, List.mem_append, not_or] at hqueue
    rw [hown', List.mem_append, not_or]
    exact ⟨hqueue.2, exec_queues_no_shutdown hexec⟩

/-- A connection on its loop, in any state; it has called `::shutdown`, or its descriptor has been
closed, if `fin`. -/
structure Orderly (fin : Bool) (s : ConnectionLoop T) : Prop where
  placed : Placed s
  ending : s.NotClosed → Ending fin s

theorem Orderly.step_other (h : Orderly fin s) (hcall : s.callOf a = none) (hstep : s.step a = some s') :
    Orderly fin s' := by
  refine ⟨h.placed.step hstep, fun hopen => ?_⟩
  obtain ⟨entries, hhistory, -⟩ := (step_of_callOf_none hcall hstep).1.history
  exact (h.ending (hopen.of_append hhistory).1).step_other h.placed hcall hstep

theorem Orderly.step_call (h : Orderly fin s) {call : ConnCall} {es : List Effect}
    (hcall : s.callOf a = some call) (hstep : s.step a = some s') (hcalls : Calls s a call s' es) :
    Orderly (fin || es.contains .shutdownWrite) s' := by
  refine ⟨h.placed.step hstep, fun hopen => ?_⟩
  obtain ⟨entries, hhistory, -⟩ := hcalls.history
  rw [List.append_assoc] at hhistory
  have hending := h.ending (hopen.of_append hhistory).1
  by_cases hstat : s.conn.stat = .kConnecting
  · exact hending.first_call h.placed hstat hcall hstep hcalls
  · exact hending.later_call h.placed hstat hcall hstep hcalls hopen

/-- **`::shutdown` finds the output buffer empty.** -/
theorem Orderly.output_of_shutdownWrite (h : Orderly fin s) (hopen : s.NotClosed) {call : ConnCall}
    {es : List Effect} (hcall : s.callOf a = some call) (hstep : s.step a = some s')
    (hcalls : Calls s a call s' es) (hes : .shutdownWrite ∈ es) :
    s'.conn.outputBuffer.toQueue = [] := by
  by_cases hstat : s.conn.stat = .kConnecting
  · exfalso
    rcases h.placed.first_call hstat hcall hstep with ⟨⟨u, w, rfl⟩, rfl⟩ | ⟨⟨w, rfl⟩, -, -⟩
    · rw [refused_of_connecting hstat hcalls.exec] at hes
      cases hes
    · rw [(connectEstablished_eq_some hcalls.exec).2] at hes
      simp at hes
  · have hidle := exec_shutdownWrite ((h.ending hopen).established hstat) hcalls.exec hes
    exact ((idle_iff _).mp hidle).2

omit [DecidableEq T] in
/-- The user takes bytes from `inputBuffer_`. -/
theorem Orderly.take (h : Orderly fin s) (inputBuffer : ValidBuffer) :
    Orderly fin { s with conn := { s.conn with inputBuffer } } := by
  obtain ⟨hconsistent, hnew, hconnecting, hestablished⟩ := h.placed
  refine ⟨⟨hconsistent, hnew, fun hstat => ?_, hestablished⟩, fun hopen => ?_⟩
  · obtain ⟨hunwatched, hrest⟩ := hconnecting hstat
    exact ⟨⟨hunwatched.interest, hunwatched.active, hunwatched.dispatch⟩, hrest⟩
  · have hending := h.ending hopen
    refine ⟨fun hc => (hending.unopened hc).of_input inputBuffer, fun hc => ?_, hending.asked,
      hending.unasked⟩
    have hc' := hending.established hc
    exact hc'.of_eq rfl rfl rfl rfl hc'.watched

omit [DecidableEq T] in
/-- A connection that is down has been closed or destroyed. -/
theorem Orderly.not_notClosed (h : Orderly fin s) (hdown : s.isDown = true) : ¬ s.NotClosed := by
  intro hopen
  rcases Bool.or_eq_true_iff.mp hdown with hstat | hdestroyed
  · rw [beq_iff_eq] at hstat
    exact ((h.ending hopen).established (by simp [hstat])).live hstat
  · obtain ⟨entry, hentry, hran⟩ := List.any_eq_true.mp hdestroyed
    split at hran
    · exact hopen.2 ⟨_, hentry⟩
    · cases hran

omit [DecidableEq T] in
/-- `~TcpConnection` on a side that is down. -/
theorem Orderly.close (h : Orderly fin s) (hdown : s.isDown = true) : Orderly true s :=
  ⟨h.placed, fun hopen => absurd hopen (h.not_notClosed hdown)⟩

/-- A connection that is not closed after a step was not closed before. -/
theorem NotClosed.of_step (hs : s.loop.Consistent) (hstep : s.step a = some s') (h : s'.NotClosed) :
    s.NotClosed := by
  cases hcall : s.callOf a with
  | none =>
    obtain ⟨entries, hhistory, -⟩ := (step_of_callOf_none hcall hstep).1.history
    exact (h.of_append hhistory).1
  | some call =>
    obtain ⟨es, hcalls⟩ := step_of_callOf hs hcall hstep
    obtain ⟨entries, hhistory, -⟩ := hcalls.history
    rw [List.append_assoc] at hhistory
    exact (h.of_append hhistory).1

omit [DecidableEq T] in
theorem orderly_start {conn : TcpConnection} (h : Conversation.IsNew conn)
    (hfree : conn.poller.interest conn.channel.fd = none) :
    Orderly false (start conn false : ConnectionLoop T) := by
  obtain ⟨poller, addr, sockfd, wc, hw, rfl⟩ := h
  constructor
  · refine ⟨EventLoop.consistent_new, fun _ => ⟨rfl, rfl⟩, fun _ => ?_, fun hc => absurd rfl hc⟩
    exact ⟨⟨hfree, rfl, rfl⟩, not_destroyed_nil, fun _ => rfl, nofun⟩
  · intro _
    exact ⟨fun _ => ⟨poller, addr, sockfd, wc, hw, _, rfl⟩, fun hc => absurd rfl hc, nofun, nofun⟩

end ConnectionLoop

/-! ## Both sides -/

namespace Conversation

open ConnectionLoop

variable {T : Type*} [DecidableEq T] {s s' : Conversation T} {i : Bool}

/-- The invariant. -/
def Ended (s : Conversation T) : Prop := ∀ i, Orderly (s.pipes i).fin (s.loops i)

omit [DecidableEq T] in
/-- Side `i` has gone on, and no stream has ended. -/
theorem Ended.setLoop (h : Ended s) {loop : ConnectionLoop T} (hloop : Orderly (s.pipes i).fin loop) :
    Ended (s.setLoop i loop) := by
  intro j
  by_cases hj : j = i
  · subst hj
    rw [setLoop_self]
    exact hloop
  · rw [setLoop_ne s loop hj]
    exact h j

theorem ended_step (s : Conversation T) (a : ConversationAction T) (s' : Conversation T) (h : Ended s)
    (hstep : s.step a = some s') : Ended s' := by
  cases a with
  | act i a =>
    rcases step_act (h i).placed.consistent hstep with ⟨loop, hcall, hloop, rfl⟩ |
      ⟨call, loop, es, hcall, hpossible, hloop, hcalls, rfl⟩
    · exact h.setLoop ((h i).step_other hcall hloop)
    · have hside := (h i).step_call hcall hloop hcalls
      intro j
      by_cases hj : j = i
      · subst hj
        have hpipe : (s.called j loop call es).pipes j = EndToEnd.written (s.pipes j) es := if_pos rfl
        rw [hpipe, EndToEnd.fin_written]
        exact (setLoop_self s j loop).symm ▸ hside
      · have hpipe : (s.called i loop call es).pipes j = (s.pipes j).pull call.bytesRead.length :=
          if_neg hj
        rw [hpipe]
        exact (setLoop_ne s loop hj).symm ▸ h j
  | take i call =>
    simp only [step, take] at hstep
    split at hstep
    · obtain ⟨inputBuffer, -, rfl⟩ := Option.map_eq_some_iff.mp hstep
      exact h.setLoop ((h i).take inputBuffer)
    · cases hstep
  | close i =>
    simp only [step] at hstep
    split at hstep
    · next hcond =>
      cases hstep
      intro j
      by_cases hj : j = i
      · subst hj
        simp only [Function.update_self]
        exact (h j).close (Bool.and_eq_true_iff.mp hcond).1
      · simp only [Function.update_of_ne hj]
        exact h j
    · cases hstep
  | reset =>
    cases hstep
    exact h

/-! ## Before and after the end -/

/-- **Nothing is written after the end of the stream.** -/
theorem written_of_fin {a : ConversationAction T} (hs : (s.loops i).loop.Consistent)
    (hfin : (s.pipes i).fin = true) (hstep : s.step a = some s') :
    (s'.pipes i).fin = true ∧ writtenBytes (s'.loops i).history = writtenBytes (s.loops i).history := by
  cases a with
  | act j a =>
    by_cases hj : j = i
    · subst hj
      rcases step_act hs hstep with ⟨loop, hcall, hloop, rfl⟩ |
        ⟨call, loop, es, hcall, hpossible, hloop, hcalls, rfl⟩
      · rw [setLoop_self]
        exact ⟨hfin, (buffers_of_callOf_none hcall hloop).2.2⟩
      · have hpipe : (s.called j loop call es).pipes j = EndToEnd.written (s.pipes j) es := if_pos rfl
        have hself : (s.called j loop call es).loops j = loop := Function.update_self ..
        have hwrites := (Bool.and_eq_true_iff.mp hpossible).1
        have hnone : acceptedBytes es = [] := by
          cases hmay : call.mayWrite with
          | false => exact TcpConnection.exec_writes_nothing hmay hcalls.exec
          | true =>
            rw [hmay, Bool.not_true, Bool.false_or] at hwrites
            exact EndToEnd.accepted_of_fin hcalls.exec hwrites hfin
        obtain ⟨entries, hhistory, hentries, -⟩ := hcalls.history
        rw [hpipe, EndToEnd.fin_written, hfin, hself, hhistory, writtenBytes_append, writtenBytes_append,
          writtenBytes_eq_nil hentries, writtenBytes_did, hnone]
        simp
    · have hside := (side_of_step hstep i).resolve_left (by rintro ⟨b, heq, -⟩; cases heq; exact hj rfl)
      obtain ⟨-, inputBuffer, hloops⟩ := hside
      refine ⟨?_, by rw [hloops]⟩
      simp only [step] at hstep
      split at hstep
      · obtain ⟨loop, -, rfl⟩ := Option.map_eq_some_iff.mp hstep
        exact hfin
      · split at hstep
        · obtain ⟨loop, -, hstep⟩ := Option.bind_eq_some_iff.mp hstep
          obtain ⟨r, -, rfl⟩ := Option.map_eq_some_iff.mp hstep
          simp only [called, if_neg (Ne.symm hj)]
          exact hfin
        · cases hstep
  | take j call =>
    obtain ⟨-, inputBuffer, hloops⟩ := (side_of_step hstep i).resolve_left (by simp)
    refine ⟨?_, by rw [hloops]⟩
    simp only [step, take] at hstep
    split at hstep
    · obtain ⟨inputBuffer, -, rfl⟩ := Option.map_eq_some_iff.mp hstep
      exact hfin
    · cases hstep
  | close j =>
    simp only [step] at hstep
    split at hstep
    · cases hstep
      refine ⟨?_, rfl⟩
      by_cases hj : i = j
      · subst hj
        simp only [Function.update_self]
        rfl
      · simp only [Function.update_of_ne hj]
        exact hfin
    · cases hstep
  | reset =>
    cases hstep
    exact ⟨hfin, rfl⟩

/-- **The step that ends the stream** of a connection that is not closed leaves nothing in the output
buffer. -/
theorem output_of_ending {a : ConversationAction T} (h : Ended s) (hopen : (s.loops i).NotClosed)
    (hfin : ¬ (s.pipes i).fin = true) (hstep : s.step a = some s') (hfin' : (s'.pipes i).fin = true) :
    s'.output i = [] := by
  cases a with
  | act j a =>
    rcases step_act (h j).placed.consistent hstep with ⟨loop, hcall, hloop, rfl⟩ |
      ⟨call, loop, es, hcall, hpossible, hloop, hcalls, rfl⟩
    · exact absurd hfin' hfin
    · by_cases hj : i = j
      · subst hj
        have hpipe : (s.called i loop call es).pipes i = EndToEnd.written (s.pipes i) es := if_pos rfl
        rw [hpipe, EndToEnd.fin_written] at hfin'
        have hes := List.contains_iff_mem.mp ((Bool.or_eq_true_iff.mp hfin').resolve_left hfin)
        have hself : (s.called i loop call es).loops i = loop := Function.update_self ..
        rw [output, hself]
        exact (h i).output_of_shutdownWrite hopen hcall hloop hcalls hes
      · have hpipe : (s.called j loop call es).pipes i = (s.pipes i).pull call.bytesRead.length :=
          if_neg hj
        rw [hpipe] at hfin'
        exact absurd hfin' hfin
  | take j call =>
    simp only [step, take] at hstep
    split at hstep
    · obtain ⟨inputBuffer, -, rfl⟩ := Option.map_eq_some_iff.mp hstep
      exact absurd hfin' hfin
    · cases hstep
  | close j =>
    simp only [step] at hstep
    split at hstep
    · next hcond =>
      cases hstep
      by_cases hj : i = j
      · subst hj
        exact absurd hopen ((h i).not_notClosed (Bool.and_eq_true_iff.mp hcond).1)
      · simp only [Function.update_of_ne hj] at hfin'
        exact absurd hfin' hfin
    · cases hstep
  | reset =>
    cases hstep
    exact absurd hfin' hfin

/-- A connection that is not closed at the end of a run was not closed before. -/
theorem notClosed_of_run {as : List (ConversationAction T)} (h : Carried s)
    (hrun : run step s as = some s') (hopen : (s'.loops i).NotClosed) : (s.loops i).NotClosed := by
  by_contra hclosed
  have hstep : ∀ (s : Conversation T) a s', (Carried s ∧ ¬ (s.loops i).NotClosed) →
      s.step a = some s' → Carried s' ∧ ¬ (s'.loops i).NotClosed := by
    rintro s a s' ⟨hs, hclosed⟩ hstep
    refine ⟨carried_step s a s' hs hstep, fun hopen => hclosed ?_⟩
    rcases side_of_step hstep i with ⟨b, -, hb⟩ | ⟨-, inputBuffer, hs'⟩
    · exact hopen.of_step (hs.order i).consistent hb
    · rw [hs'] at hopen
      exact hopen
  exact (run_inv hstep ⟨h, hclosed⟩ hrun).2 hopen

/-! ## Runs -/

/-- One thread sends, another calls `shutdown`, and the other side reads up to the end. -/
def sentAndShut : List (ConversationAction Bool) :=
  [.act false (.establish none), .act true (.establish none), .act false (.test true (.send [1, 2])),
    .act false (.push true), .act false (.test false .shutdown), .act false (.store false),
    .act false (.push false), .act false (.loop (.wakeup true)), .act false (.loop (.wakeup false))] ++
  oneFunctor false ++
  [.act false (.callFunctor (.count 2)), .act false (.callFunctor (.count 0)),
    .act true (.loop .enterLoop), .act true (.loop .resetQuit), .act true (.loop .testQuit),
    .act true (.poll false (some EPOLLIN)), .act true .handleEvent,
    .act true (.callback (.data [1, 2]) (.count 0))]

end Conversation
end Muduo
