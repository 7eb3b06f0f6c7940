import Muduo.ConnectionCall

/-!
# Steps out of the callback protocol

* `Sound`: the connection follows the automaton, its state being the automaton's (`StateE.phase`).
* `OutOfOrder`: the ways to leave the protocol.  `connectDestroyed` tests for `kConnected` only, so in
  state `kDisconnecting` it does not call `connectionCallback_` (`no_down_after_shutdown`).
  `handleClose` and `handleRead` do not test `stat_` at all, so a closed connection that is
  dispatched once more is closed again, or delivers a message (`down_twice_in_one_event`).
* `exec_inOrder`, `exec_outOfOrder`: what the call of such a step, or of another, does.

    the protocol holds throughout a run  ⇔  no step of it is out of order   (callback_protocol_iff)
-/

namespace Muduo

open Transition

/-! ## The runs -/

namespace ConnectionLoop

variable {T : Type*} [DecidableEq T]

/-- `shutdown` and `forceClose` are called on the loop thread; other threads only send. -/
def confined : ConnectionAction T → Bool
  | .test _ (.send _) => true
  | .test _ _ => false
  | _ => true

def confinedStep (s : ConnectionLoop T) (a : ConnectionAction T) : Option (ConnectionLoop T) :=
  if confined a then s.step a else none

/-- `connectDestroyed` runs in state `kDisconnecting`; or a connection in state `kDisconnected` is
dispatched to `handleClose`, or to `handleRead` with data or the end of the stream. -/
def OutOfOrder (s : ConnectionLoop T) : ConnectionAction T → Prop
  | .callback r _ => s.conn.stat = .kDisconnected ∧
      (s.dispatch.head? = some .close ∨ s.dispatch.head? = some .read ∧ r.ssize.isOk = true)
  | .callFunctor _ => s.conn.stat = .kDisconnecting ∧
      s.loop.functors.head?.bind Task.functor = some .connectDestroyed
  | .destroy none => s.conn.stat = .kDisconnecting
  | _ => False

end ConnectionLoop

/-! ## The calls -/

/-- A call that is out of order in the state. -/
def ConnCall.OutOfOrder : ConnCall → StateE → Prop
  | .event .close _ _, stat => stat = .kDisconnected
  | .event .read r _, stat => stat = .kDisconnected ∧ r.ssize.isOk = true
  | .functor .connectDestroyed _, stat => stat = .kDisconnecting
  | _, _ => False

namespace TcpConnection

open ConnectionLoop (userCallbacks userCallbacks_of_isQuiet)

variable {T : Type*} {c c' : TcpConnection} {call : ConnCall} {es : List Effect}

/-- What the user sees of the effects. -/
def seen (T : Type*) (es : List Effect) : List UserCallback :=
  userCallbacks (es.map (HistoryEntry.did : Effect → HistoryEntry T))

/-- **A call in order** takes the automaton to the phase of the new state. -/
theorem exec_inOrder (hstat : c.stat ≠ .kConnecting)
    (hne : ∀ w, call ≠ .functor .connectEstablished w) (hin : ¬ call.OutOfOrder c.stat)
    (h : c.exec call = some (c', es)) :
    run Phase.step c.stat.phase (seen T es) = some c'.stat.phase ∧
      (c.stat = .kDisconnected ∨ (∃ w, call = .functor .connectDestroyed w) →
        c'.stat = .kDisconnected) := by
  have hup : c.stat ≠ .kDisconnected → c.stat.phase = .up := by
    revert hstat
    cases c.stat <;> simp [StateE.phase]
  have hquiet : c'.stat.phase = c.stat.phase → (∀ e ∈ es, e.isQuiet = true) →
      (∀ w, call ≠ .functor .connectDestroyed w) →
      run Phase.step c.stat.phase (seen T es) = some c'.stat.phase ∧
        (c.stat = .kDisconnected ∨ (∃ w, call = .functor .connectDestroyed w) →
          c'.stat = .kDisconnected) := by
    intro hphase hes hcall
    refine ⟨by rw [seen, userCallbacks_of_isQuiet hes, run_nil, hphase], ?_⟩
    rintro (hd | ⟨w, hw⟩)
    · rw [hd] at hphase
      revert hphase
      cases c'.stat <;> simp [StateE.phase]
    · exact absurd hw (hcall w)
  have hclose : ∀ {c₀ : TcpConnection}, c₀.handleClose = some (c', es) → c.stat ≠ .kDisconnected →
      run Phase.step c.stat.phase (seen T es) = some c'.stat.phase ∧
        (c.stat = .kDisconnected ∨ (∃ w, call = .functor .connectDestroyed w) →
          c'.stat = .kDisconnected) := by
    intro c₀ hclose hopen
    obtain ⟨hdown, rfl⟩ := handleClose_eq_some hclose
    rw [hup hopen, hdown]
    exact ⟨rfl, fun _ => rfl⟩
  cases executes_of_exec h with
  | skip hskip =>
    refine hquiet rfl (by simp) ?_
    rintro w rfl
    cases hskip
  | connectEstablished => exact absurd rfl (hne _)
  | connectDestroyed h =>
    rcases connectDestroyed_eq_some h with ⟨hconn, hdown, rfl⟩ | ⟨hconn, hsame, rfl⟩
    · rw [hconn, hdown]
      exact ⟨rfl, fun _ => rfl⟩
    · have hdown : c.stat = .kDisconnected := by
        revert hstat hconn
        have hdisc : c.stat ≠ .kDisconnecting := hin
        revert hdisc
        cases c.stat <;> simp
      rw [hsame, hdown]
      exact ⟨rfl, fun _ => rfl⟩
  | sendInLoop _ hcall hsend =>
    refine hquiet (sendInLoop_phase hsend)
      (fun e he => Effect.isQuiet_of_isOutput (sendInLoop_effects hsend e he)) ?_
    rintro w rfl
    rcases hcall with hcall | ⟨hcall, -⟩ <;> cases hcall
  | shutdownInLoop h =>
    obtain ⟨rfl, hes⟩ := shutdownInLoop_quiet h
    exact hquiet rfl hes (by simp)
  | shutdown hconn h =>
    obtain ⟨rfl, hes⟩ := shutdownInLoop_quiet h
    exact hquiet (by rw [hconn]; rfl) hes (by simp)
  | forceClose hopen =>
    refine hquiet ?_ (by simp [Effect.isQuiet]) (by simp)
    rcases hopen with hopen | hopen <;> simp [setState, hopen, StateE.phase]
  | forceCloseInLoop hopen h =>
    refine hclose h ?_
    rcases hopen with hopen | hopen <;> simp [hopen]
  | close h => exact hclose h hin
  | endOfStream _ h => exact hclose h fun hd => hin ⟨hd, rfl⟩
  | @message r w _ _ hbytes =>
    have hopen : c.stat ≠ .kDisconnected := by
      intro hd
      refine hin ⟨hd, ?_⟩
      cases r with
      | data bs => rfl
      | error e => exact absurd rfl hbytes
    simp only [hup hopen]
    exact ⟨rfl, fun hd => by simp [hopen] at hd⟩
  | readError => exact hquiet rfl (by simp) (by simp)
  | write h => exact hquiet (by rw [(handleWrite_stream h).2]) (handleWrite_quiet h) (by simp)

/-- **A call out of order** calls the user after `down`, or leaves `down` out. -/
theorem exec_outOfOrder (hout : call.OutOfOrder c.stat) (h : c.exec call = some (c', es)) :
    (c.stat = .kDisconnected ∧ ∃ callback rest, seen T es = callback :: rest) ∨
      (c.stat = .kDisconnecting ∧ (∃ w, call = .functor .connectDestroyed w) ∧ es = []) := by
  cases executes_of_exec h with
  | connectDestroyed h =>
    have hdisc : c.stat = .kDisconnecting := hout
    rcases connectDestroyed_eq_some h with ⟨hconn, -, -⟩ | ⟨-, -, rfl⟩
    · rw [hdisc] at hconn
      cases hconn
    · exact Or.inr ⟨hdisc, ⟨_, rfl⟩, rfl⟩
  | close h =>
    obtain ⟨-, rfl⟩ := handleClose_eq_some h
    exact Or.inl ⟨hout, _, _, rfl⟩
  | endOfStream _ h =>
    obtain ⟨-, rfl⟩ := handleClose_eq_some h
    exact Or.inl ⟨hout.1, _, _, rfl⟩
  | message => exact Or.inl ⟨hout.1, _, _, rfl⟩
  | @readError r w _ hr hbytes =>
    cases r with
    | data bs => exact absurd (congrArg ReadvResult.data hbytes) hr
    | error e => cases hout.2
  | skip hskip =>
    cases call with
    | functor f w =>
      cases f with
      | connectDestroyed => cases hskip
      | connectEstablished | sendInLoop | shutdownInLoop | forceCloseInLoop | writeComplete
      | highWaterMark => cases hout
    | event cb r w =>
      cases cb with
      | close | read => cases hskip
      | error | write => cases hout
    | user => cases hout
  | sendInLoop _ hcall =>
    rcases hcall with rfl | ⟨rfl, -⟩ <;> cases hout
  | connectEstablished | shutdownInLoop | shutdown | forceClose | forceCloseInLoop | write => cases hout

end TcpConnection

/-! ## The invariant -/

namespace ConnectionLoop

open TcpConnection

variable {T : Type*}

/-- The connection follows the automaton. -/
structure Sound (s : ConnectionLoop T) : Prop where
  consistent : s.loop.Consistent
  phase : run Phase.step .fresh (userCallbacks s.history) = some s.conn.stat.phase
  destroyed : Destroyed s.history → s.conn.stat = .kDisconnected
  calls : ∀ t, s.calls t = .idle ∨ ∃ data, s.calls t = .pushing (.send data)
  notCreated : s.created = false → s.conn.stat = .kConnecting ∧ own s.loop.queue = []
  /-- before `connectEstablished` the connection is out of reach -/
  connecting : s.conn.stat = .kConnecting → Unwatched s ∧ (∀ t, s.calls t = .idle) ∧
    (s.created = true → ∃ rest, own s.loop.queue = .connectEstablished :: rest ∧
      ∀ f ∈ rest, f = .connectDestroyed)
  established : s.conn.stat ≠ .kConnecting → .connectEstablished ∉ own s.loop.queue

variable {s s' : ConnectionLoop T} {a : ConnectionAction T}

theorem Sound.placed (h : Sound s) : Placed s := by
  refine ⟨h.consistent, h.notCreated, fun hstat => ?_, h.established⟩
  obtain ⟨hunwatched, hidle, hconnecting⟩ := h.connecting hstat
  refine ⟨hunwatched, fun hd => ?_, hidle, hconnecting⟩
  rw [h.destroyed hd] at hstat
  cases hstat

/-- A step that keeps the connection placed, and records `entries`. -/
theorem Sound.advance (h : Sound s) (hplaced : Placed s') {entries : List (HistoryEntry T)}
    (hcalls : ∀ t, s'.calls t = .idle ∨ ∃ data, s'.calls t = .pushing (.send data))
    (hhistory : s'.history = s.history ++ entries)
    (hphase : run Phase.step s.conn.stat.phase (userCallbacks entries) = some s'.conn.stat.phase)
    (hdestroyed : s.conn.stat = .kDisconnected ∨ Destroyed entries → s'.conn.stat = .kDisconnected) :
    Sound s' := by
  constructor
  · exact hplaced.consistent
  · rw [hhistory, userCallbacks_append]
    exact run_append_of_eq_some h.phase hphase
  · rw [hhistory, destroyed_append]
    exact fun hd => hdestroyed (hd.imp_left h.destroyed)
  · exact hcalls
  · exact hplaced.notCreated
  · intro hstat
    obtain ⟨hunwatched, -, hidle, hconnecting⟩ := hplaced.connecting hstat
    exact ⟨hunwatched, hidle, hconnecting⟩
  · exact hplaced.established

theorem Sound.callbackProtocol (h : Sound s) : CallbackProtocol s := by
  refine ⟨(protocol_iff _).mpr ⟨_, h.phase⟩, fun hd hup => ?_⟩
  have hphase := h.phase
  rw [h.destroyed hd] at hphase
  generalize userCallbacks s.history = callbacks at hphase hup ⊢
  cases callbacks with
  | nil => cases hup
  | cons callback callbacks =>
    cases callback with
    | up =>
      simp only [run_cons, Phase.step, Option.bind_some] at hphase
      obtain ⟨n, ⟨hphase, -⟩ | ⟨-, rfl⟩⟩ := run_up_iff.mp hphase
      · cases hphase
      · simp [List.count_replicate]
    | message | down => simp [Phase.step] at hphase

/-! ## Steps -/

theorem userCallbacks_of_not_did {entries : List (HistoryEntry T)} (h : ∀ e, .did e ∉ entries) :
    userCallbacks entries = [] := by
  rw [userCallbacks, List.filterMap_eq_nil_iff]
  intro entry hentry
  cases entry with
  | did e => exact absurd hentry (h e)
  | called | ran => rfl

theorem outOfOrder_iff {call : ConnCall} (hcall : s.callOf a = some call) :
    OutOfOrder s a ↔ call.OutOfOrder s.conn.stat := by
  cases a with
  | callback r w =>
    obtain ⟨cb, hhead, rfl⟩ := Option.map_eq_some_iff.mp hcall
    cases cb <;> simp [OutOfOrder, ConnCall.OutOfOrder, hhead]
  | callFunctor w =>
    obtain ⟨f, hhead, rfl⟩ := Option.map_eq_some_iff.mp hcall
    cases f <;> simp [OutOfOrder, ConnCall.OutOfOrder, hhead]
  | userCall c w =>
    obtain rfl := Option.some.inj hcall
    exact Iff.rfl
  | establish source | destroy source =>
    cases source with
    | none =>
      obtain rfl := Option.some.inj hcall
      exact Iff.rfl
    | some t => cases hcall
  | loop | poll | handleEvent | test | store | push | otherChannels | remove => cases hcall

theorem callOf_of_outOfOrder (h : OutOfOrder s a) : ∃ call, s.callOf a = some call := by
  cases a with
  | callback r w =>
    obtain ⟨-, hhead | ⟨hhead, -⟩⟩ := h
    · exact ⟨_, by rw [callOf, hhead]; rfl⟩
    · exact ⟨_, by rw [callOf, hhead]; rfl⟩
  | callFunctor w => exact ⟨_, by rw [callOf, h.2]; rfl⟩
  | destroy source =>
    cases source with
    | none => exact ⟨_, rfl⟩
    | some t => cases h
  | loop | poll | handleEvent | userCall | test | store | push | otherChannels | establish | remove =>
    cases h

theorem ne_storing {calls : T → CallPc}
    (h : ∀ t, calls t = .idle ∨ ∃ data, calls t = .pushing (.send data)) (t : T) (c : UserCall) :
    calls t ≠ .storing c := by
  rcases h t with hidle | ⟨data, hpushing⟩
  · simp [hidle]
  · simp [hpushing]

variable [DecidableEq T]

/-- Other threads only send. -/
theorem calls_confined (h : ∀ t, s.calls t = .idle ∨ ∃ data, s.calls t = .pushing (.send data))
    (hconfined : confined a = true) (hstep : s.step a = some s') :
    ∀ t, s'.calls t = .idle ∨ ∃ data, s'.calls t = .pushing (.send data) := by
  cases moves_of_step hstep with
  | loop | pollOther | poll | handleEvent | callOther | sendRefused | testFailed | otherChannels =>
    exact h
  | callback _ hcall | send _ hcall | establishNow _ hcall =>
    obtain ⟨conn, es, -, rfl⟩ := perform_eq_some hcall
    exact h
  | callFunctor _ _ _ hcall | destroyNow _ _ hcall =>
    obtain ⟨conn, es, -, rfl⟩ := perform_eq_some hcall
    exact h
  | shutdown hcall | forceClose hcall =>
    obtain ⟨conn, es, -, rfl⟩ := perform_eq_some hcall
    exact h
  | @testPassed t c =>
    cases c with
    | shutdown | forceClose => cases hconfined
    | send data =>
      intro t'
      by_cases ht : t' = t
      · subst ht
        exact Or.inr ⟨data, by simp [UserCall.stores]⟩
      · simpa [ht] using h t'
  | store hstoring => exact absurd hstoring (ne_storing h _ _)
  | @push t _ _ _ hqueue =>
    rw [(Apart.queueInLoop (a := .push t) hqueue).2.2]
    intro t'
    by_cases ht : t' = t
    · subst ht
      exact Or.inl (by simp)
    · simpa [ht] using h t'
  | @establish t _ _ hqueue | @destroy t _ _ hqueue =>
    rw [(Apart.queueInLoop (a := .establish (some t)) hqueue).2.2]
    exact h
  | @remove source _ _ hqueue =>
    rw [(Apart.queueInLoop (a := .remove source) hqueue).2.2]
    exact h

theorem sound_step (s : ConnectionLoop T) (a : ConnectionAction T) (s' : ConnectionLoop T)
    (h : Sound s) (hg : ¬ OutOfOrder s a) (hstep : confinedStep s a = some s') : Sound s' := by
  simp only [confinedStep, Option.ite_none_right_eq_some] at hstep
  obtain ⟨hconfined, hstep⟩ := hstep
  have hplaced := h.placed.step hstep
  have hcalls := calls_confined h.calls hconfined hstep
  cases hcall : s.callOf a with
  | none =>
    obtain ⟨hapart, hstat⟩ := step_of_callOf_none hcall hstep
    obtain ⟨entries, hhistory, hdid, hdestroyed⟩ := hapart.history
    have hsame : s'.conn.stat = s.conn.stat := by
      refine hstat.resolve_right ?_
      rintro ⟨-, t, c, hstoring, -⟩
      exact ne_storing h.calls t c hstoring
    refine h.advance hplaced hcalls hhistory ?_ fun hd => ?_
    · rw [userCallbacks_of_not_did hdid, run_nil, hsame]
    · rw [hsame]
      exact hd.resolve_right hdestroyed
  | some call =>
    obtain ⟨es, hc⟩ := step_of_callOf h.consistent hcall hstep
    obtain ⟨entries, hhistory, hdid, hdestroys⟩ := hc.history
    rw [List.append_assoc] at hhistory
    have hseen : userCallbacks (entries ++ es.map .did) = seen T es := by
      rw [userCallbacks_append, userCallbacks_of_not_did hdid]
      rfl
    have hdestroyed : Destroyed (entries ++ es.map .did) →
        ∃ w, call = .functor .connectDestroyed w := by
      intro hd
      rw [destroyed_append] at hd
      obtain ⟨w, hw⟩ := callOf_of_destroys (hdestroys (hd.resolve_right (not_destroyed_did es)))
      exact ⟨w, Option.some.inj (hcall.symm.trans hw)⟩
    by_cases hstat : s.conn.stat = .kConnecting
    · rcases h.placed.first_call hstat hcall hstep with ⟨-, rfl⟩ | ⟨⟨w, rfl⟩, -, -⟩
      · exact h
      · obtain ⟨hup, hes⟩ := connectEstablished_eq_some hc.exec
        refine h.advance hplaced hcalls hhistory ?_ ?_
        · rw [hseen, hstat, hup, hes]
          rfl
        · rintro (hd | hd)
          · rw [hstat] at hd
            cases hd
          · obtain ⟨w', hw'⟩ := hdestroyed hd
            cases hw'
    · have hne := h.placed.not_establish hstat hcall hstep
      obtain ⟨hphase, hdown⟩ :=
        exec_inOrder (T := T) hstat hne (fun hout => hg ((outOfOrder_iff hcall).mpr hout)) hc.exec
      refine h.advance hplaced hcalls hhistory (by rw [hseen]; exact hphase) fun hd => hdown ?_
      exact hd.imp_right hdestroyed

omit [DecidableEq T] in
theorem Fresh.sound {s : ConnectionLoop T} (h : Fresh s) : Sound s := by
  constructor
  · exact h.consistent
  · rw [h.history, h.stat]
    rfl
  · rintro ⟨source, hmem⟩
    rw [h.history] at hmem
    cases hmem
  · exact fun t => Or.inl (h.calls t)
  · exact fun _ => ⟨h.stat, h.own⟩
  · exact fun _ => ⟨⟨h.unwatched, h.active, h.dispatch⟩, h.calls, fun hc => by
      rw [h.created] at hc
      cases hc⟩
  · exact fun hc => absurd h.stat hc

/-! ## Out of order -/

/-- `connectDestroyed` is recorded. -/
theorem destroyed_of_callOf {w : WriteResult}
    (hcall : s.callOf a = some (.functor .connectDestroyed w)) (hstep : s.step a = some s') :
    Destroyed s'.history := by
  cases moves_of_step hstep with
  | @callFunctor _ task f _ _ _ hfunctors htask _ hperform =>
    simp only [callOf, hfunctors, List.head?_cons, Option.bind_some, htask, Option.map_some,
      Option.some.injEq, ConnCall.functor.injEq] at hcall
    obtain ⟨rfl, -⟩ := hcall
    obtain ⟨conn, es, -, rfl⟩ := perform_eq_some hperform
    exact ⟨task.source, by simp [record]⟩
  | destroyNow _ _ hperform =>
    obtain ⟨conn, es, -, rfl⟩ := perform_eq_some hperform
    exact ⟨none, by simp [record]⟩
  | callback hdispatch => simp [callOf, hdispatch] at hcall
  | callOther hfunctors htask => simp [callOf, hfunctors, htask] at hcall
  | _ => cases hcall

omit [DecidableEq T] in
/-- `connectDestroyed` has run, and `down` has not been called. -/
theorem Sound.not_callbackProtocol_of_destroyed (h : Sound s) (hstat : s.conn.stat = .kDisconnecting)
    (hcallbacks : userCallbacks s'.history = userCallbacks s.history) (hd : Destroyed s'.history) :
    ¬ CallbackProtocol s' := by
  have hphase := h.phase
  rw [hstat] at hphase
  rintro ⟨-, hcount⟩
  have hdown := hcount hd
  rw [hcallbacks] at hdown
  generalize userCallbacks s.history = callbacks at hphase hdown
  cases callbacks with
  | nil => cases hphase
  | cons callback callbacks =>
    cases callback with
    | up =>
      simp only [run_cons, Phase.step, Option.bind_some] at hphase
      obtain ⟨n, ⟨-, rfl⟩ | ⟨hphase, -⟩⟩ := run_up_iff.mp hphase
      · simp [List.count_replicate] at hdown
      · cases hphase
    | message | down => simp [Phase.step] at hphase

omit [DecidableEq T] in
/-- A callback after `down`. -/
theorem Sound.not_callbackProtocol_of_down (h : Sound s) (hstat : s.conn.stat = .kDisconnected)
    {callback : UserCallback} {rest : List UserCallback}
    (hcallbacks : userCallbacks s'.history = userCallbacks s.history ++ callback :: rest) :
    ¬ CallbackProtocol s' := by
  rintro ⟨hprotocol, -⟩
  obtain ⟨phase, hrun⟩ := (protocol_iff _).mp hprotocol
  rw [hcallbacks, run_append, h.phase, hstat] at hrun
  cases callback <;> cases hrun

theorem Sound.not_callbackProtocol_of_outOfOrder (h : Sound s) (hbad : OutOfOrder s a)
    (hstep : confinedStep s a = some s') : ¬ CallbackProtocol s' := by
  simp only [confinedStep, Option.ite_none_right_eq_some] at hstep
  obtain ⟨-, hstep⟩ := hstep
  obtain ⟨call, hcall⟩ := callOf_of_outOfOrder hbad
  obtain ⟨es, hc⟩ := step_of_callOf h.consistent hcall hstep
  obtain ⟨entries, hhistory, hdid, -⟩ := hc.history
  have hcallbacks : userCallbacks s'.history = userCallbacks s.history ++ seen T es := by
    rw [hhistory, userCallbacks_append, userCallbacks_append, userCallbacks_of_not_did hdid,
      List.append_nil]
    rfl
  rcases exec_outOfOrder (T := T) ((outOfOrder_iff hcall).mp hbad) hc.exec with
    ⟨hstat, callback, rest, hseen⟩ | ⟨hstat, ⟨w, rfl⟩, rfl⟩
  · rw [hseen] at hcallbacks
    exact h.not_callbackProtocol_of_down hstat hcallbacks
  · exact h.not_callbackProtocol_of_destroyed hstat (hcallbacks.trans (List.append_nil _))
      (destroyed_of_callOf hcall hstep)

/-- **The callback protocol.**  In a run from a fresh connection, the callbacks the user has seen
follow the protocol in every state iff no step is out of order. -/
theorem callback_protocol_iff (s t : ConnectionLoop T) (as : List (ConnectionAction T)) (hs : Fresh s)
    (h : run confinedStep s as = some t) :
    Along confinedStep CallbackProtocol s as ↔
      AllSteps confinedStep (fun s a => ¬ OutOfOrder s a) s as :=
  along_iff_allSteps (fun _ => Sound.callbackProtocol) sound_step
    (fun _ _ _ hsound hbad hstep => hsound.not_callbackProtocol_of_outOfOrder (not_not.mp hbad) hstep)
    hs.sound h

instance decidableOutOfOrder (s : ConnectionLoop T) :
    ∀ a : ConnectionAction T, Decidable (OutOfOrder s a)
  | .callback r _ => inferInstanceAs (Decidable (s.conn.stat = .kDisconnected ∧
      (s.dispatch.head? = some .close ∨ s.dispatch.head? = some .read ∧ r.ssize.isOk = true)))
  | .callFunctor _ => inferInstanceAs (Decidable (s.conn.stat = .kDisconnecting ∧
      s.loop.functors.head?.bind Task.functor = some .connectDestroyed))
  | .destroy none => inferInstanceAs (Decidable (s.conn.stat = .kDisconnecting))
  | .destroy (some _) | .loop _ | .poll _ _ | .handleEvent | .userCall _ _ | .test _ _ | .store _
  | .push _ | .otherChannels _ | .establish _ | .remove _ => isFalse not_false

/-- A connection that receives a byte and is closed by the peer. -/
def receiveAndClose : List (ConnectionAction Unit) :=
  [.establish none, .loop .enterLoop, .loop .resetQuit, .loop .testQuit, .poll false (some EPOLLIN),
    .handleEvent, .callback (.data [1]) (.count 0), .loop .beginFunctors, .loop .swapFunctors,
    .loop .endFunctors, .loop .destroyFunctors, .loop .testQuit, .poll false (some EPOLLIN),
    .handleEvent, .callback (.data []) (.count 0), .remove none, .loop .beginFunctors,
    .loop .swapFunctors, .callFunctor (.count 0)]

theorem callback_protocol_run :
    ∃ t, run confinedStep (start (.new .empty 0 5 false false) false) receiveAndClose = some t ∧
      t.history = [.ran none .connectEstablished, .did (.connectionCallback true),
        .did .messageCallback, .did (.connectionCallback false), .did .closeCallback,
        .ran none .connectDestroyed] ∧
      CallbackProtocol t := by
  have hall : AllSteps confinedStep (fun s a => ¬ OutOfOrder s a)
      (start (.new .empty 0 5 false false) false) receiveAndClose := by
    decide +kernel
  refine exists_run_eq ConnectionLoop.history _ (by decide +kernel) fun t ht hhistory => ⟨hhistory, ?_⟩
  exact along_last ((callback_protocol_iff _ t _ (fresh_start 5) ht).mpr hall) ht

/-- The user calls `shutdown` and ends the loop, and the server is destroyed: the connection is
destroyed without `connectionCallback_` having been called with the connection down. -/
theorem no_down_after_shutdown :
    ∃ t : ConnectionLoop Unit, run confinedStep (start (.new .empty 0 5 false false) false)
        [.loop .enterLoop, .loop .resetQuit, .loop .testQuit, .poll false none, .establish none,
          .userCall .shutdown (.count 0), .loop .loopQuit, .loop .beginFunctors, .loop .swapFunctors,
          .loop .endFunctors, .loop .destroyFunctors, .loop .testQuit, .destroy none] = some t ∧
      Fresh (start (.new .empty 0 5 false false) false : ConnectionLoop Unit) ∧
      t.history = [.ran none .connectEstablished, .did (.connectionCallback true), .did .shutdownWrite,
        .ran none .connectDestroyed] ∧
      ¬ CallbackProtocol t := by
  refine exists_run_eq ConnectionLoop.history _ (by decide +kernel) fun t _ hhistory =>
    ⟨fresh_start 5, hhistory, fun ⟨_, hdown⟩ => ?_⟩
  rw [hhistory] at hdown
  exact absurd (hdown ⟨none, by simp⟩ (by decide)) (by decide)

/-- One dispatch of a connection that the peer has closed, with `EPOLLHUP` and `EPOLLPRI`:
`handleClose`, and then `handleRead`, which reads the end of the stream and closes once more. -/
theorem down_twice_in_one_event :
    ∃ t : ConnectionLoop Unit, run confinedStep (start (.new .empty 0 5 false false) false)
        [.establish none, .loop .enterLoop, .loop .resetQuit, .loop .testQuit,
          .poll false (some (EPOLLHUP ||| EPOLLPRI)), .handleEvent, .callback (.data []) (.count 0),
          .callback (.data []) (.count 0)] = some t ∧
      userCallbacks t.history = [.up, .down, .down] ∧ ¬ CallbackProtocol t := by
  refine exists_run_eq (fun t => userCallbacks t.history) _ (by decide +kernel) fun t _ hcallbacks =>
    ⟨hcallbacks, fun ⟨hprotocol, _⟩ => ?_⟩
  rw [hcallbacks, protocol_iff] at hprotocol
  obtain ⟨phase, hphase⟩ := hprotocol
  cases hphase

end ConnectionLoop
end Muduo
